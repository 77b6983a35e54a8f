namespace MonkeyLang.Text

/-! Texts cut at a separator and put together again. -/

/-- `splitFrom skip separator text` drops `skip` characters and cuts the rest at the leftmost
occurrences of the separator that do not overlap. -/
def splitFrom (skip : Nat) (separator : List Char) : List Char → List (List Char)
  | [] => [[]]
  | character :: rest =>
      match skip with
      | left + 1 => splitFrom left separator rest
      | 0 =>
          if separator.isPrefixOf (character :: rest) then
            [] :: splitFrom (separator.length - 1) separator rest
          else
            match splitFrom 0 separator rest with
            | [] => [[character]]
            | piece :: others => (character :: piece) :: others

/-- Cuts a text at the leftmost occurrences of a nonempty separator that do not overlap. -/
def splitAt (separator text : List Char) : List (List Char) :=
  splitFrom 0 separator text

/-- The pieces with the separator between neighbours. -/
def join (separator : List Char) : List (List Char) → List Char
  | [] => []
  | [piece] => piece
  | piece :: next :: others => piece ++ separator ++ join separator (next :: others)

end MonkeyLang.Text
