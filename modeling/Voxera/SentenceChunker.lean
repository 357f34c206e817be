import Voxera.Text

/-!
# `SentenceChunker`: cutting a token stream into speakable segments
-/

namespace Voxera

def SENTENCE_END : Text := ['.', '!', '?', '…']
def CLAUSE_END : Text := [',', ';', ':', '—']
def ABBREVIATIONS : List Text :=
  ["mr.", "mrs.", "ms.", "dr.", "prof.", "sr.", "jr.", "st.", "vs.", "etc.", "e.g.", "i.e.", "no."].map
    String.toList

structure SentenceChunker where
  minChars : Nat := 12
  softLimit : Nat := 90
  buffer : Text := []
  deriving DecidableEq, Repr

namespace SentenceChunker

open Text

/-- How the search for the end of a sentence ends: with a cut, told to wait for the next token, or
at the end of the text. -/
inductive Scan where
  | cut (n : Nat)
  | wait
  | noEnd
  deriving DecidableEq, Repr

/-- The first loop of `_find_cut`; `before` is the part of the text already passed. -/
def scan (minChars : Nat) (before : Text) : Text → Scan
  | [] => .noEnd
  | c :: rest =>
    let head := before ++ [c]
    if c = '\n' ∧ strip before ≠ [] then .cut (before.length + 1)
    else if c ∈ SENTENCE_END then
      match rest with
      | [] => .wait
      | next :: _ =>
        if isSpace next ∧ minChars ≤ (strip head).length ∧
            endsWithAny (lower (rstrip head)) ABBREVIATIONS = false then
          .cut (before.length + 1)
        else scan minChars head rest
    else scan minChars head rest

/-- The second loop of `_find_cut`: the last clause end at an index `i` with `min_chars < i < bound`. -/
def clauseCut (minChars : Nat) (text : Text) : Nat → Option Nat
  | 0 => none
  | i + 1 =>
    if i ≤ minChars then none
    else if text.getD i ' ' ∈ CLAUSE_END ∧ isSpace (text.getD (i + 1) 'x') then some (i + 1)
    else clauseCut minChars text i

def findCut (c : SentenceChunker) : Option Nat :=
  match scan c.minChars [] c.buffer with
  | .cut n => some n
  | .wait => none
  | .noEnd =>
    if c.softLimit ≤ c.buffer.length then clauseCut c.minChars c.buffer (c.buffer.length - 1) else none

/-- The loop of `feed`. Every cut takes at least one character, so the length of the buffer is
enough fuel. -/
def cutAll : Nat → SentenceChunker → List Text × SentenceChunker
  | 0, c => ([], c)
  | fuel + 1, c =>
    match c.findCut with
    | none => ([], c)
    | some n =>
      let segment := strip (c.buffer.take n)
      let (segments, c') := cutAll fuel { c with buffer := c.buffer.drop n }
      (if segment ≠ [] then segment :: segments else segments, c')

def feed (c : SentenceChunker) (token : Text) : List Text × SentenceChunker :=
  if token = [] then ([], c)
  else cutAll (c.buffer ++ token).length { c with buffer := c.buffer ++ token }

def flush (c : SentenceChunker) : Option Text × SentenceChunker :=
  let rest := strip c.buffer
  (if rest ≠ [] then some rest else none, { c with buffer := [] })

/-! ## What the segments are -/

variable {c : SentenceChunker} {t : Text} {segments : List Text}

/-- The segments are cut off the buffer: between them there is white space only. -/
theorem cutAll_cutsInto (fuel : Nat) (h : ∃ w, Blank w ∧ CutsInto t segments (w ++ c.buffer)) :
    ∃ w, Blank w ∧ CutsInto t (segments ++ (cutAll fuel c).1) (w ++ (cutAll fuel c).2.buffer) := by
  induction fuel generalizing c segments with
  | zero => simpa [cutAll] using h
  | succ fuel ih =>
      rw [cutAll]
      split
      · simpa using h
      · rename_i n hcut
        rw [← List.take_append_drop n c.buffer] at h
        have hrest := ih (c := { c with buffer := c.buffer.drop n }) (CutsInto.strip h)
        rw [List.append_assoc] at hrest
        dsimp only
        split
        · rename_i hne
          rwa [if_pos hne] at hrest
        · rename_i hempty
          rwa [if_neg hempty] at hrest

theorem feed_cutsInto {token : Text} (h : ∃ w, Blank w ∧ CutsInto t segments (w ++ (c.buffer ++ token))) :
    ∃ w, Blank w ∧ CutsInto t (segments ++ (c.feed token).1) (w ++ (c.feed token).2.buffer) := by
  unfold feed
  split
  · rename_i hempty
    simpa [hempty] using h
  · exact cutAll_cutsInto (c := { c with buffer := c.buffer ++ token }) _ h

/-- After `flush` only white space of the text is left. -/
theorem flush_cutsInto (h : ∃ w, Blank w ∧ CutsInto t segments (w ++ c.buffer)) :
    ∃ w, Blank w ∧ CutsInto t (segments ++ c.flush.1.toList) w := by
  rw [← List.append_nil c.buffer] at h
  obtain ⟨w, hw, hcuts⟩ := CutsInto.strip h
  refine ⟨w, hw, ?_⟩
  rw [List.append_nil] at hcuts
  unfold flush
  dsimp only
  split
  · rename_i hne
    rwa [if_pos hne] at hcuts
  · rename_i hempty
    rwa [if_neg hempty] at hcuts

theorem cutAll_segment {fuel : Nat} {segment : Text} (h : segment ∈ (cutAll fuel c).1) :
    segment ≠ [] ∧ Stripped segment := by
  induction fuel generalizing c with
  | zero => cases h
  | succ fuel ih =>
      rw [cutAll] at h
      split at h
      · cases h
      · dsimp only at h
        split at h
        · rename_i hne
          rcases List.mem_cons.mp h with rfl | h
          · exact ⟨hne, stripped_strip _⟩
          · exact ih h
        · exact ih h

theorem feed_segment {token segment : Text} (h : segment ∈ (c.feed token).1) : segment ≠ [] ∧ Stripped segment := by
  unfold feed at h
  split at h
  · cases h
  · exact cutAll_segment h

theorem flush_segment {segment : Text} (h : segment ∈ c.flush.1.toList) : segment ≠ [] ∧ Stripped segment := by
  unfold flush at h
  dsimp only at h
  split at h
  · rename_i hne
    rw [Option.toList_some, List.mem_singleton] at h
    exact h ▸ ⟨hne, stripped_strip _⟩
  · cases h

end SentenceChunker

end Voxera
