import MonkeyLang.Text.CaseTable

namespace MonkeyLang.Text

/-! Uppercase and lowercase of whole texts, by the full case mappings of Unicode.

A character may become several (the sharp s becomes two capital letters).  The capital sigma becomes
a final small sigma where a cased character stands before it and none behind it, characters that
case ignores left out of account; anywhere else it becomes the ordinary small sigma.
-/

def inRanges (ranges : List (Nat × Nat)) (code : Nat) : Bool :=
  ranges.any fun range => range.1 ≤ code && code ≤ range.2

/-- Where a run moves a code point, if the run covers it. -/
def CaseRun.image? (run : CaseRun) (code : Nat) : Option Nat :=
  if run.first ≤ code && code ≤ run.last && (code - run.first) % run.step == 0 then
    some (Int.toNat (code + run.shift))
  else none

def mapped (expansions : List (Nat × List Nat)) (runs : List CaseRun) (character : Char) :
    List Char :=
  let code := character.toNat
  match expansions.lookup code with
  | some images => images.map Char.ofNat
  | none =>
      match runs.findSome? (·.image? code) with
      | some image => [Char.ofNat image]
      | none => [character]

def upperCharacter (character : Char) : List Char :=
  if character.toNat < 0x80 then [character.toUpper]
  else mapped upperExpansions upperRuns character

def lowerCharacter (character : Char) : List Char :=
  if character.toNat < 0x80 then [character.toLower]
  else mapped lowerExpansions lowerRuns character

def capitalSigma : Char := Char.ofNat 0x3a3
def smallSigma : Char := Char.ofNat 0x3c3
def finalSigma : Char := Char.ofNat 0x3c2

/-- Whether the first character that case does not ignore is cased. -/
def casedNext (text : List Char) : Bool :=
  match text.dropWhile (fun character => inRanges caseIgnorableRanges character.toNat) with
  | [] => false
  | character :: _ => inRanges casedRanges character.toNat

/-- The lowercase of `rest`, with the text before it given backwards. -/
def lowerAfter (before : List Char) : List Char → List Char
  | [] => []
  | character :: rest =>
      let image :=
        if character == capitalSigma then
          [if casedNext before && !casedNext rest then finalSigma else smallSigma]
        else lowerCharacter character
      image ++ lowerAfter (character :: before) rest

def lower (text : List Char) : List Char :=
  lowerAfter [] text

def upper (text : List Char) : List Char :=
  text.flatMap upperCharacter

end MonkeyLang.Text
