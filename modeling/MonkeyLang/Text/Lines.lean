namespace MonkeyLang.Text

/-! Lines of a text, and newlines of a stored text.

A line ends at a line feed, vertical tab, form feed, carriage return, information separator U+001C
to U+001E, next line U+0085, line separator or paragraph separator; a carriage return directly
followed by a line feed is one end.  No empty line follows the last end.
-/

def endsLine (character : Char) : Bool :=
  let code := character.toNat
  (0x0a ≤ code && code ≤ 0x0d) || (0x1c ≤ code && code ≤ 0x1e) || code == 0x85 ||
  code == 0x2028 || code == 0x2029

/-- Puts a character in front of a text of which the lines are known, and whether it begins with a
line feed. -/
def addToLines (character : Char) (behind : Bool × List (List Char)) : Bool × List (List Char) :=
  if character == '\r' && behind.1 then (false, behind.2)
  else if endsLine character then (character == '\n', [] :: behind.2)
  else
    match behind.2 with
    | [] => (false, [[character]])
    | line :: others => (false, (character :: line) :: others)

/-- The lines of a text, without their ends. -/
def lines (text : List Char) : List (List Char) :=
  (text.foldr addToLines (false, [])).2

def addUnified (character : Char) (behind : Bool × List Char) : Bool × List Char :=
  if character == '\r' then (false, if behind.1 then behind.2 else '\n' :: behind.2)
  else (character == '\n', character :: behind.2)

/-- Reading a stored text: every carriage return, with a line feed behind it or not, becomes one
line feed. -/
def unifyNewlines (text : List Char) : List Char :=
  (text.foldr addUnified (false, [])).2

end MonkeyLang.Text
