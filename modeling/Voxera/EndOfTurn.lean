import Voxera.Text

/-!
# `sounds_unfinished`: does a transcript stop in the middle of a sentence?
-/

namespace Voxera

open Text

def CONTINUATION_WORDS : List Text :=
  ["and", "but", "or", "because", "although", "unless", "whereas", "if", "than", "which", "whose",
    "the", "a", "an", "my", "your", "our", "their", "every",
    "to", "of", "for", "with", "from", "into", "onto", "between", "without"].map String.toList

def FILLERS : List Text := ["um", "uh", "erm", "er", "hmm", "mm"].map String.toList

/-- The class `[a-z']`. -/
def isLastWordChar (c : Char) : Bool := ('a' ≤ c && c ≤ 'z') || c == '\''

/-- `_LAST_WORD.search`, for the regular expression `([a-z']+)\W*$`: the first position from which
it matches to the end gives the group. `wordChar` is the class `\w` of `re`. A shorter group never
helps: it leaves more for `\W*`. -/
def lastWord (wordChar : Char → Bool) : Text → Option Text
  | [] => none
  | c :: t =>
    let word := (c :: t).takeWhile isLastWordChar
    let rest := (c :: t).dropWhile isLastWordChar
    if word ≠ [] ∧ rest.all (fun d => !wordChar d) then some word else lastWord wordChar t

def soundsUnfinished (wordChar : Char → Bool) (text : Text) : Bool :=
  let stripped := lower (strip text)
  if stripped = [] then false
  else if endsWithAny stripped [[','], ['.', '.', '.'], ['…'], ['-'], ['—'], [':']] then true
  else if endsWithAny stripped [['?'], ['!']] then false
  else match lastWord wordChar stripped with
    | none => false
    | some word => FILLERS.contains word || CONTINUATION_WORDS.contains word

/-- The class `\w` of `re` on the ASCII characters. -/
def asciiWordChar (c : Char) : Bool := c.isAlphanum || c == '_'

/-- From the tests of the source: unfinished, and finished. -/
example : soundsUnfinished asciiWordChar "Can you help me with".toList = true ∧
    soundsUnfinished asciiWordChar "Where is my order".toList = false := by decide

end Voxera
