import ModelCatalog.Text.CapitalRuns
import ModelCatalog.Text.CodePoints

/-! Lower case of whole words, with the two forms of the small sigma. -/

namespace ModelCatalog.Text

/-- A run holds a code point that lies between its ends and on its stride. -/
def CapitalRun.holds (run : CapitalRun) (code : Nat) : Bool :=
  run.first ≤ code && code ≤ run.last && (code - run.first) % run.stride == 0

/-- The small form of one character, apart from the sigma that ends a word. -/
def smallForm (character : Char) : List Char :=
  -- The dotted capital I keeps its dot as a separate mark.
  if character.toNat = 0x130 then ['i', '\u0307']
  else match capitalRuns.find? (·.holds character.toNat) with
    | some run => [Char.ofNat (run.small + (character.toNat - run.first))]
    | none => [character]

/-- A letter is next to a place when only ignorable marks stand between them. -/
def letterNext (characters : List Char) : Bool :=
  match characters.dropWhile caseIgnorable.contains with
  | next :: _ => cased.contains next
  | [] => false

/-- The lower case of the characters that follow those already `passed`, which stand in
reverse order. -/
def lowerAfter (passed : List Char) : List Char → List Char
  | [] => []
  | character :: rest =>
    -- A capital sigma takes its final form after a letter that no letter follows.
    let small :=
      if character = 'Σ' then
        if letterNext passed && !letterNext rest then ['ς'] else ['σ']
      else smallForm character
    small ++ lowerAfter (character :: passed) rest

/-- The lower case of a text. -/
def lowercase (text : String) : String :=
  String.ofList (lowerAfter [] text.toList)

end ModelCatalog.Text
