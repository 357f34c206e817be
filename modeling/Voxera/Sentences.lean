import Voxera.EventLoop.Run
import Voxera.Incremental
import Voxera.SentenceChunker
import Mathlib.Data.List.Infix

/-!
# Where `SentenceChunker` cuts

A sentence cut is found by looking one character ahead, so that it does not depend on how the text
before and after it came in: the segments of a text are those of its sentences, however the text is
split into tokens, unless a long clause was cut on the way.

* `sentenceCut`, `feedSentences` : the chunker with the first loop of `_find_cut` only;
* `cutsClause` : a call of `feed` also makes a cut of the second loop;
* `EndsSentence`, `HasBoundary` : the end of a sentence, as a place in a text.
-/

namespace Voxera.SentenceChunker

open Text Incremental

/-- What the first loop of `_find_cut` finds. -/
def sentenceCut (c : SentenceChunker) : Option Nat :=
  match scan c.minChars [] c.buffer with
  | .cut n => some n
  | _ => none

/-- The chunker once the first `n` characters of its buffer are cut off. -/
def cutOff (c : SentenceChunker) (n : Nat) : SentenceChunker := { c with buffer := c.buffer.drop n }

/-- The loop of `feed` with the sentence cuts only. -/
def cutSentences : Nat → SentenceChunker → List Text × SentenceChunker
  | 0, c => ([], c)
  | fuel + 1, c =>
    match c.sentenceCut with
    | none => ([], c)
    | some n =>
      let segment := strip (c.buffer.take n)
      let (segments, c') := cutSentences fuel (c.cutOff n)
      (if segment ≠ [] then segment :: segments else segments, c')

/-- `feed` with the sentence cuts only. -/
def feedSentences (c : SentenceChunker) (token : Text) : List Text × SentenceChunker :=
  if token = [] then ([], c)
  else cutSentences (c.buffer ++ token).length { c with buffer := c.buffer ++ token }

/-- The loop of `feed` makes a cut that is no sentence cut. -/
def cutsClause : Nat → SentenceChunker → Bool
  | 0, _ => false
  | fuel + 1, c =>
    match c.findCut with
    | none => false
    | some n => c.sentenceCut = none || cutsClause fuel (c.cutOff n)

/-- `feed` makes a soft-limit clause cut. -/
def feedCutsClause (c : SentenceChunker) (token : Text) : Bool :=
  token ≠ [] && cutsClause (c.buffer ++ token).length { c with buffer := c.buffer ++ token }

/-- Some call of `feed` makes a soft-limit clause cut when the tokens are fed in order. -/
def runCutsClause (c : SentenceChunker) : List Text → Bool
  | [] => false
  | token :: tokens => c.feedCutsClause token || runCutsClause (c.feed token).2 tokens

/-- The segments when the tokens are fed in order and the chunker is flushed. -/
def segmentsOf (c : SentenceChunker) (tokens : List Text) : List Text :=
  (runAll feed c tokens).1 ++ (runAll feed c tokens).2.flush.1.toList

/-! ## The scan looks one character ahead -/

variable {c : SentenceChunker} {m n : Nat} {before t u : Text}

/-- More text after a cut leaves it where it is. -/
theorem scan_append (h : scan m before t = .cut n) : scan m before (t ++ u) = .cut n := by
  induction t generalizing before with
  | nil => cases h
  | cons ch rest ih =>
      simp only [List.cons_append, scan] at h ⊢
      split_ifs at h ⊢ with hnewline hend
      · exact h
      · cases rest with
        | nil => cases h
        | cons next rest =>
            simp only [List.cons_append] at h ⊢
            split_ifs at h ⊢ with hcut
            · exact h
            · exact ih h
      · exact ih h

theorem scan_cut_le (h : scan m before t = .cut n) : before.length < n ∧ n ≤ before.length + t.length := by
  induction t generalizing before with
  | nil => cases h
  | cons ch rest ih =>
      have hrest : scan m (before ++ [ch]) rest = .cut n →
          before.length < n ∧ n ≤ before.length + (ch :: rest).length := by
        intro h
        have hle := ih h
        simp only [List.length_append, List.length_cons, List.length_nil] at hle ⊢
        omega
      have hhere : (.cut (before.length + 1) : Scan) = .cut n →
          before.length < n ∧ n ≤ before.length + (ch :: rest).length := by
        intro h
        cases h
        simp only [List.length_cons]
        omega
      simp only [scan] at h
      split_ifs at h with hnewline hend
      · exact hhere h
      · cases rest with
        | nil => cases h
        | cons next rest =>
            simp only at h
            split_ifs at h with hcut
            · exact hhere h
            · exact hrest h
      · exact hrest h

theorem sentenceCut_eq_some : c.sentenceCut = some n ↔ scan c.minChars [] c.buffer = .cut n := by
  unfold sentenceCut
  split
  · rename_i k hk
    simp [hk]
  · rename_i hk
    simpa using fun heq => hk n heq

theorem sentenceCut_le (h : c.sentenceCut = some n) : 0 < n ∧ n ≤ c.buffer.length := by
  simpa using scan_cut_le (sentenceCut_eq_some.mp h)

theorem sentenceCut_append (h : c.sentenceCut = some n) (u : Text) :
    ({ c with buffer := c.buffer ++ u } : SentenceChunker).sentenceCut = some n :=
  sentenceCut_eq_some.mpr (scan_append (sentenceCut_eq_some.mp h))

/-- A sentence cut is what `_find_cut` finds first. -/
theorem findCut_of_sentenceCut (h : c.sentenceCut = some n) : c.findCut = some n := by
  unfold findCut
  rw [sentenceCut_eq_some.mp h]

/-! ## The sentences of a text -/

theorem cutSentences_of_none (h : c.sentenceCut = none) (fuel : Nat) : cutSentences fuel c = ([], c) := by
  cases fuel with
  | zero => rfl
  | succ fuel => rw [cutSentences, h]

/-- Every cut takes a character away, so the length of the buffer is enough fuel. -/
theorem cutSentences_fuel {fuel : Nat} (h : c.buffer.length ≤ fuel) :
    cutSentences fuel c = cutSentences c.buffer.length c := by
  induction fuel using Nat.strongRecOn generalizing c with
  | ind fuel ih =>
      cases hcut : c.sentenceCut with
      | none => rw [cutSentences_of_none hcut, cutSentences_of_none hcut]
      | some n =>
          obtain ⟨hpos, hle⟩ := sentenceCut_le hcut
          have hlength : (c.cutOff n).buffer.length = c.buffer.length - n := by simp [cutOff]
          obtain ⟨a, rfl⟩ : ∃ a, fuel = a + 1 := ⟨fuel - 1, by omega⟩
          obtain ⟨b, hb⟩ : ∃ b, c.buffer.length = b + 1 := ⟨c.buffer.length - 1, by omega⟩
          rw [hb, cutSentences, cutSentences, hcut]
          dsimp only
          rw [ih a (by omega) (by omega), ← ih b (by omega) (by omega)]

/-- The sentences of a buffer, and what is left. -/
def sentences (c : SentenceChunker) : List Text × SentenceChunker := cutSentences c.buffer.length c

theorem sentences_of_none (h : c.sentenceCut = none) : c.sentences = ([], c) := cutSentences_of_none h _

theorem sentences_of_some (h : c.sentenceCut = some n) :
    c.sentences = ((if strip (c.buffer.take n) ≠ [] then strip (c.buffer.take n) :: (c.cutOff n).sentences.1
      else (c.cutOff n).sentences.1), (c.cutOff n).sentences.2) := by
  obtain ⟨hpos, hle⟩ := sentenceCut_le h
  obtain ⟨b, hb⟩ : ∃ b, c.buffer.length = b + 1 := ⟨c.buffer.length - 1, by omega⟩
  have hfuel : cutSentences b (c.cutOff n) = (c.cutOff n).sentences := by
    apply cutSentences_fuel
    simp only [cutOff, List.length_drop]
    omega
  rw [sentences, hb, cutSentences, h]
  dsimp only
  rw [hfuel]

/-- The sentences of a longer buffer: first those of its beginning, then those of what was left and the rest. -/
theorem sentences_append (u : Text) :
    ({ c with buffer := c.buffer ++ u } : SentenceChunker).sentences =
      (c.sentences.1 ++ ({ c.sentences.2 with buffer := c.sentences.2.buffer ++ u } : SentenceChunker).sentences.1,
        ({ c.sentences.2 with buffer := c.sentences.2.buffer ++ u } : SentenceChunker).sentences.2) := by
  induction hn : c.buffer.length using Nat.strongRecOn generalizing c with
  | ind k ih =>
      cases hcut : c.sentenceCut with
      | none => simp [sentences_of_none hcut]
      | some n =>
          obtain ⟨hpos, hle⟩ := sentenceCut_le hcut
          have hoff : ({ c with buffer := c.buffer ++ u } : SentenceChunker).cutOff n =
              { c.cutOff n with buffer := (c.cutOff n).buffer ++ u } := by
            simp [cutOff, List.drop_append_of_le_length hle]
          have hrest := ih (c.cutOff n).buffer.length (by simp only [cutOff, List.length_drop]; omega) rfl
          rw [sentences_of_some (sentenceCut_append hcut u), sentences_of_some hcut, hoff, hrest]
          dsimp only
          rw [List.take_append_of_le_length hle]
          split <;> simp

theorem feedSentences_eq (c : SentenceChunker) {token : Text} (h : token ≠ []) :
    c.feedSentences token = ({ c with buffer := c.buffer ++ token } : SentenceChunker).sentences := by
  rw [feedSentences, if_neg h]
  rfl

theorem additive_feedSentences : Additive (fun _ => True) feedSentences where
  nil {c} _ := by rw [feedSentences, if_pos rfl]
  keeps _ _ := trivial
  append {c} x y _ := by
    by_cases hx : x = []
    · subst hx
      rw [feedSentences, feedSentences, feedSentences]
      simp
    by_cases hy : y = []
    · subst hy
      rw [List.append_nil, feedSentences, feedSentences]
      simp
    rw [feedSentences_eq c (by simp [hx]), feedSentences_eq c hx, feedSentences_eq _ hy, ← List.append_assoc]
    exact sentences_append (c := { c with buffer := c.buffer ++ x }) y

/-! ## Without a clause cut, the segments are the sentences -/

theorem cutAll_eq_cutSentences {fuel : Nat} (h : cutsClause fuel c = false) : cutAll fuel c = cutSentences fuel c := by
  induction fuel generalizing c with
  | zero => rfl
  | succ fuel ih =>
      rw [cutsClause] at h
      rw [cutAll, cutSentences]
      cases hcut : c.findCut with
      | none =>
          have hnone : c.sentenceCut = none := by
            by_contra hsome
            obtain ⟨n, hn⟩ := Option.ne_none_iff_exists'.mp hsome
            simp [findCut_of_sentenceCut hn] at hcut
          rw [hnone]
      | some n =>
          simp only [hcut, Bool.or_eq_false_iff, decide_eq_false_iff_not] at h
          obtain ⟨k, hk⟩ := Option.ne_none_iff_exists'.mp h.1
          have heq : n = k := by simpa [hcut] using findCut_of_sentenceCut hk
          subst heq
          rw [hk]
          dsimp only
          rw [← ih h.2]
          rfl

theorem feed_eq_feedSentences {token : Text} (h : c.feedCutsClause token = false) :
    c.feed token = c.feedSentences token := by
  unfold feed feedSentences
  split
  · rfl
  · rename_i hne
    simp only [feedCutsClause, Bool.and_eq_false_iff, ne_eq, hne, not_false_eq_true, decide_true,
      Bool.true_eq_false, false_or] at h
    exact cutAll_eq_cutSentences h

theorem feedCutsClause_of_run {tokens front back : List Text} {token : Text} (h : c.runCutsClause tokens = false)
    (htokens : tokens = front ++ token :: back) : (runAll feed c front).2.feedCutsClause token = false := by
  induction front generalizing c tokens with
  | nil =>
      subst htokens
      rw [List.nil_append, runCutsClause, Bool.or_eq_false_iff] at h
      exact h.1
  | cons x front ih =>
      subst htokens
      rw [List.cons_append, runCutsClause, Bool.or_eq_false_iff] at h
      exact ih h.2 rfl

/-- Without a clause cut, a run of tokens is one feed of the joined text. -/
theorem runAll_feed_eq {tokens : List Text} (h : c.runCutsClause tokens = false) :
    runAll feed c tokens = c.feedSentences tokens.flatten := by
  rw [← additive_feedSentences.runAll_eq trivial]
  exact runAll_congr (P := fun c token => c.feedCutsClause token = false)
    (fun _ _ hfeed => feed_eq_feedSentences hfeed) c tokens
    (fun front token back heq => feedCutsClause_of_run h heq)

/-- **The segments of a text do not depend on its tokens**, as long as no clause is cut. -/
theorem segmentsOf_tokenization (c : SentenceChunker) (xs ys : List Text) (htext : xs.flatten = ys.flatten)
    (hx : c.runCutsClause xs = false) (hy : c.runCutsClause ys = false) : c.segmentsOf xs = c.segmentsOf ys := by
  unfold segmentsOf
  rw [runAll_feed_eq hx, runAll_feed_eq hy, htext]

/-- A text in one token and in single characters. -/
theorem segmentsOf_tokenization_ratio :
    segmentsOf {} ["The ratio is 3.5 now.\n".toList, "Good!".toList] =
      segmentsOf {} ("The ratio is 3.5 now.\nGood!".toList.map (fun ch => [ch])) :=
  segmentsOf_tokenization {} _ _ (by decide +kernel) (by decide +kernel) (by decide +kernel)

/-! ## No end of a sentence is left in the buffer -/

/-- The last white-space-delimited word. -/
def lastWord (t : Text) : Text := (rstrip t).rtakeWhile (fun ch => !isSpace ch)

/-- `head` is a text up to and including a sentence mark that is directly followed by white space in
`t`, and it is long enough. -/
def EndsSentence (minChars : Nat) (t head : Text) : Prop :=
  ∃ front mark next back, head = front ++ [mark] ∧ t = front ++ mark :: next :: back ∧
    mark ∈ SENTENCE_END ∧ isSpace next = true ∧ minChars ≤ (strip head).length

/-- `EndsSentence`, computed. -/
def endsSentence (minChars : Nat) (t head : Text) : Bool :=
  head.isPrefixOf t && head.getLast?.any (· ∈ SENTENCE_END) && (t.drop head.length).head?.any isSpace &&
    minChars ≤ (strip head).length

theorem endsSentence_iff {minChars : Nat} {t head : Text} :
    endsSentence minChars t head = true ↔ EndsSentence minChars t head := by
  constructor
  · intro h
    simp only [endsSentence, Bool.and_eq_true, List.isPrefixOf_iff_prefix, Option.any_eq_true, decide_eq_true_eq] at h
    obtain ⟨⟨⟨⟨rest, rfl⟩, mark, hlast, hmark⟩, next, hhead, hnext⟩, hlength⟩ := h
    rw [List.drop_left] at hhead
    obtain ⟨front, rfl⟩ := List.getLast?_eq_some_iff.mp hlast
    obtain ⟨back, rfl⟩ := List.head?_eq_some_iff.mp hhead
    exact ⟨front, mark, next, back, rfl, by simp, hmark, hnext, hlength⟩
  · rintro ⟨front, mark, next, back, rfl, rfl, hmark, hnext, hlength⟩
    have happ : front ++ mark :: next :: back = (front ++ [mark]) ++ next :: back := by simp
    rw [happ]
    simp [endsSentence, hmark, hnext, hlength]

instance (minChars : Nat) (t head : Text) : Decidable (EndsSentence minChars t head) :=
  decidable_of_iff _ endsSentence_iff

/-- A sentence ends in the text, and not with an abbreviation. -/
def HasBoundary (minChars : Nat) (t : Text) : Prop :=
  ∃ head, EndsSentence minChars t head ∧ lower (lastWord head) ∉ ABBREVIATIONS

/-- Where the buffered text with the new token ends in an abbreviation at a sentence mark, the
abbreviation is its last word. -/
def AbbreviationsAreWords (c : SentenceChunker) (token : Text) : Prop :=
  ∀ head, EndsSentence c.minChars (c.buffer ++ token) head →
    endsWithAny (lower (rstrip head)) ABBREVIATIONS = true → lower (lastWord head) ∈ ABBREVIATIONS

instance (c : SentenceChunker) (token : Text) : Decidable (c.AbbreviationsAreWords token) :=
  decidable_of_iff (∀ head ∈ (c.buffer ++ token).inits, EndsSentence c.minChars (c.buffer ++ token) head →
      endsWithAny (lower (rstrip head)) ABBREVIATIONS = true → lower (lastWord head) ∈ ABBREVIATIONS) <| by
    constructor
    · intro h head hend
      obtain ⟨front, mark, next, back, rfl, ht, -⟩ := id hend
      exact h _ ((List.mem_inits _ _).mpr ⟨next :: back, by rw [ht]; simp⟩) hend
    · intro h head _ hend
      exact h head hend

/-- The scan passes over a sentence mark only for an abbreviation. -/
theorem scan_of_mark {front back : Text} {mark next : Char} (hscan : ∀ n, scan m before t ≠ .cut n)
    (ht : t = front ++ mark :: next :: back) (hmark : mark ∈ SENTENCE_END) (hnext : isSpace next = true)
    (hlength : m ≤ (strip (before ++ (front ++ [mark]))).length) :
    endsWithAny (lower (rstrip (before ++ (front ++ [mark])))) ABBREVIATIONS = true := by
  induction front generalizing before t with
  | nil =>
      subst ht
      by_contra hnone
      rw [Bool.not_eq_true] at hnone
      apply hscan (before.length + 1)
      rw [List.nil_append] at hlength hnone ⊢
      rw [scan]
      split
      · rfl
      · rw [if_pos ⟨hnext, hlength, hnone⟩]
  | cons ch front ih =>
      subst ht
      have hstep : ∀ n, scan m (before ++ [ch]) (front ++ mark :: next :: back) ≠ .cut n := by
        intro n hcut
        simp only [List.cons_append, scan] at hscan
        split_ifs at hscan with hnewline hend
        · exact hscan _ rfl
        · cases hfront : front ++ mark :: next :: back with
          | nil => simp at hfront
          | cons next' rest =>
              simp only [hfront] at hscan
              split_ifs at hscan with hcond
              · exact hscan _ rfl
              · exact hscan n (hfront ▸ hcut)
        · exact hscan n hcut
      have happ : before ++ (ch :: front ++ [mark]) = before ++ [ch] ++ (front ++ [mark]) := by simp
      rw [happ] at hlength ⊢
      exact ih hstep rfl hlength

theorem findCut_eq_none (h : c.findCut = none) {head : Text} (hend : EndsSentence c.minChars c.buffer head) :
    endsWithAny (lower (rstrip head)) ABBREVIATIONS = true := by
  obtain ⟨front, mark, next, back, rfl, hbuffer, hmark, hnext, hlength⟩ := hend
  have hscan : ∀ n, scan c.minChars [] c.buffer ≠ .cut n := by
    intro n hn
    simp [findCut_of_sentenceCut (sentenceCut_eq_some.mpr hn)] at h
  have hmarked := scan_of_mark hscan hbuffer hmark hnext hlength
  exact hmarked

/-! ### A cut does not split a word -/

/-- No word reaches from `front` into `back`. -/
def BetweenWords (front back : Text) : Prop :=
  front = [] ∨ (∃ ch ∈ front.getLast?, isSpace ch = true) ∨ ∃ ch ∈ back.head?, isSpace ch = true

theorem BetweenWords.append {front middle back : Text} (hne : middle ≠ []) (h : BetweenWords middle back) :
    BetweenWords (front ++ middle) back := by
  rcases h with h | ⟨ch, hch, hspace⟩ | h
  · exact absurd h hne
  · refine Or.inr (Or.inl ⟨ch, ?_, hspace⟩)
    rw [List.getLast?_append_of_ne_nil _ hne]
    exact hch
  · exact Or.inr (Or.inr h)

/-- A cut is made after a new line or before white space. -/
theorem scan_betweenWords (h : scan m before t = .cut n) :
    ∃ front back, t = front ++ back ∧ n = before.length + front.length ∧ front ≠ [] ∧ BetweenWords front back := by
  induction t generalizing before with
  | nil => cases h
  | cons ch rest ih =>
      have hrest : scan m (before ++ [ch]) rest = .cut n → ∃ front back, ch :: rest = front ++ back ∧
          n = before.length + front.length ∧ front ≠ [] ∧ BetweenWords front back := by
        intro h
        obtain ⟨front, back, rfl, hn, hne, hwords⟩ := ih h
        have hlonger : BetweenWords ([ch] ++ front) back := hwords.append hne
        refine ⟨ch :: front, back, rfl, ?_, by simp, hlonger⟩
        simp only [List.length_append, List.length_cons, List.length_nil] at hn ⊢
        omega
      simp only [scan] at h
      split_ifs at h with hnewline hend
      · cases h
        refine ⟨[ch], rest, rfl, rfl, by simp, Or.inr (Or.inl ⟨ch, rfl, ?_⟩)⟩
        rw [hnewline.1]
        rfl
      · cases rest with
        | nil => cases h
        | cons next rest =>
            simp only at h
            split_ifs at h with hcut
            · cases h
              exact ⟨[ch], next :: rest, rfl, rfl, by simp, Or.inr (Or.inr ⟨next, rfl, hcut.1⟩)⟩
            · exact hrest h
      · exact hrest h

theorem clauseCut_betweenWords {k : Nat} (h : clauseCut m t k = some n) :
    0 < n ∧ n ≤ k ∧ isSpace (t.getD n 'x') = true := by
  induction k with
  | zero => cases h
  | succ k ih =>
      rw [clauseCut] at h
      split_ifs at h with hsmall hclause
      · cases h
        exact ⟨by omega, le_rfl, hclause.2⟩
      · obtain ⟨hpos, hle, hspace⟩ := ih h
        exact ⟨hpos, by omega, hspace⟩

theorem findCut_betweenWords (h : c.findCut = some n) :
    0 < n ∧ n ≤ c.buffer.length ∧ BetweenWords (c.buffer.take n) (c.buffer.drop n) := by
  unfold findCut at h
  split at h
  · rename_i k hk
    cases h
    obtain ⟨front, back, hbuffer, hn, hne, hwords⟩ := scan_betweenWords hk
    have hlength : n = front.length := by simpa using hn
    have hpos : 0 < front.length := List.length_pos_iff.mpr hne
    rw [hbuffer, hlength, List.take_left, List.drop_left, List.length_append]
    exact ⟨hpos, by omega, hwords⟩
  · cases h
  · split_ifs at h with hlong
    obtain ⟨hpos, hle, hspace⟩ := clauseCut_betweenWords h
    have hlt : n < c.buffer.length := by
      by_contra hge
      rw [List.getD_eq_getElem?_getD, List.getElem?_eq_none (by omega)] at hspace
      exact absurd hspace (by decide)
    refine ⟨hpos, hlt.le, Or.inr (Or.inr ⟨c.buffer[n], ?_, ?_⟩)⟩
    · rw [List.head?_drop, List.getElem?_eq_getElem hlt]
      rfl
    · simpa [List.getD_eq_getElem?_getD, List.getElem?_eq_getElem hlt] using hspace

/-- The buffer after the loop of `feed` is the end of the buffer before it, no word is cut in two, and
the loop has no cut left to make. -/
theorem cutAll_buffer {fuel : Nat} (h : c.buffer.length ≤ fuel) :
    (cutAll fuel c).2.findCut = none ∧ (cutAll fuel c).2.minChars = c.minChars ∧
      ∃ front, c.buffer = front ++ (cutAll fuel c).2.buffer ∧ BetweenWords front (cutAll fuel c).2.buffer := by
  induction fuel generalizing c with
  | zero =>
      refine ⟨?_, rfl, [], rfl, Or.inl rfl⟩
      by_contra hsome
      obtain ⟨n, hn⟩ := Option.ne_none_iff_exists'.mp hsome
      obtain ⟨hpos, hle, -⟩ := findCut_betweenWords hn
      simp only [cutAll] at hle
      omega
  | succ fuel ih =>
      rw [cutAll]
      cases hcut : c.findCut with
      | none => exact ⟨hcut, rfl, [], rfl, Or.inl rfl⟩
      | some n =>
          obtain ⟨hpos, hle, hwords⟩ := findCut_betweenWords hcut
          obtain ⟨hnone, hmin, front, hbuffer, hfront⟩ := ih (c := c.cutOff n) (by
            simp only [cutOff, List.length_drop]
            omega)
          refine ⟨hnone, hmin, c.buffer.take n ++ front, ?_, ?_⟩
          · calc c.buffer = c.buffer.take n ++ c.buffer.drop n := (List.take_append_drop n c.buffer).symm
              _ = c.buffer.take n ++ front ++ (cutAll fuel (c.cutOff n)).2.buffer := by
                  rw [List.append_assoc]
                  exact congrArg _ hbuffer
          · by_cases hempty : front = []
            · subst hempty
              rw [List.append_nil]
              have hrest : c.buffer.drop n = (cutAll fuel (c.cutOff n)).2.buffer := hbuffer
              rw [hrest] at hwords
              exact hwords
            · exact hfront.append hempty

theorem rtakeWhile_append {p : Char → Bool} {l : Text} (front : Text)
    (h : l.rtakeWhile p ≠ l ∨ front.rtakeWhile p = []) : (front ++ l).rtakeWhile p = l.rtakeWhile p := by
  induction l using List.reverseRecOn with
  | nil => simpa using h
  | append_singleton l ch ih =>
      rw [← List.append_assoc, List.rtakeWhile_concat, List.rtakeWhile_concat]
      split
      · rename_i hch
        rw [ih]
        rw [List.rtakeWhile_concat, if_pos hch] at h
        exact h.imp_left (fun hne heq => hne (by rw [heq]))
      · rfl

/-- The last word of a text that ends in no white space, when it is cut between words. -/
theorem lastWord_append {front back rest : Text} {mark : Char} (h : BetweenWords front (back ++ [mark] ++ rest))
    (hmark : isSpace mark = false) : lastWord (front ++ (back ++ [mark])) = lastWord (back ++ [mark]) := by
  have hrstrip : ∀ l : Text, rstrip (l ++ [mark]) = l ++ [mark] := fun l =>
    List.rdropWhile_concat_neg _ _ _ (by simp [hmark])
  unfold lastWord
  rw [← List.append_assoc, hrstrip, hrstrip, List.append_assoc]
  apply rtakeWhile_append
  rcases h with rfl | ⟨ch, hch, hspace⟩ | ⟨ch, hch, hspace⟩
  · exact Or.inr rfl
  · right
    rw [List.rtakeWhile_eq_nil_iff]
    intro hne
    rw [List.getLast?_eq_getLast_of_ne_nil hne, Option.mem_def, Option.some.injEq] at hch
    simp [hch, hspace]
  · left
    intro heq
    rw [List.rtakeWhile_eq_self_iff] at heq
    have hmem : ch ∈ back ++ [mark] := by
      cases back with
      | nil => simpa [eq_comm] using hch
      | cons b back =>
          simp only [List.cons_append, List.head?_cons, Option.mem_def, Option.some.injEq] at hch
          simp [hch]
    simpa [hspace] using heq ch hmem

theorem isSpace_of_mem_sentenceEnd {mark : Char} (h : mark ∈ SENTENCE_END) : isSpace mark = false := by
  have hmarks : mark = '.' ∨ mark = '!' ∨ mark = '?' ∨ mark = '…' := by simpa [SENTENCE_END] using h
  rcases hmarks with rfl | rfl | rfl | rfl <;> rfl

theorem strip_concat (l : Text) {mark : Char} (hmark : isSpace mark = false) :
    strip (l ++ [mark]) = lstrip l ++ [mark] := by
  have hlead : lstrip (l ++ [mark]) = lstrip l ++ [mark] := by
    unfold lstrip
    rw [List.dropWhile_append]
    split
    · rename_i hempty
      rw [List.isEmpty_iff.mp hempty]
      simp [hmark]
    · rfl
  rw [strip, hlead]
  exact List.rdropWhile_concat_neg _ _ _ (by simp [hmark])

/-- The end of a text has no more characters than the text once both are stripped. -/
theorem length_strip_le (front back : Text) {mark : Char} (hmark : isSpace mark = false) :
    (strip (back ++ [mark])).length ≤ (strip (front ++ (back ++ [mark]))).length := by
  have hle : (lstrip back).length ≤ (lstrip (front ++ back)).length := by
    unfold lstrip
    rw [List.dropWhile_append]
    split
    · exact le_rfl
    · have hback := (List.dropWhile_suffix isSpace (l := back)).length_le
      rw [List.length_append]
      omega
  rw [← List.append_assoc, strip_concat back hmark, strip_concat (front ++ back) hmark, List.length_append,
    List.length_append]
  omega

theorem endsWithAny_append {front t : Text} {suffixes : List Text} (h : endsWithAny t suffixes = true) :
    endsWithAny (front ++ t) suffixes = true := by
  simp only [endsWithAny, List.any_eq_true, List.isSuffixOf_iff_suffix] at h ⊢
  obtain ⟨suffix, hmem, hsuffix⟩ := h
  exact ⟨suffix, hmem, hsuffix.trans (List.suffix_append _ _)⟩

/-- `feed` leaves no end of a sentence in the buffer. -/
theorem feed_no_boundary {token : Text} (hbefore : ¬ HasBoundary c.minChars c.buffer)
    (hwords : c.AbbreviationsAreWords token) :
    ¬ HasBoundary (c.feed token).2.minChars (c.feed token).2.buffer := by
  unfold feed
  split
  · exact hbefore
  obtain ⟨hnone, hmin, front, hbuffer, hbetween⟩ :=
    cutAll_buffer (c := { c with buffer := c.buffer ++ token }) le_rfl
  dsimp only at hbuffer hmin
  rintro ⟨head, hend, hword⟩
  have habbreviation := findCut_eq_none hnone hend
  obtain ⟨start, mark, next, back, rfl, hrest, hmark, hnext, hlength⟩ := hend
  have hspace := isSpace_of_mem_sentenceEnd hmark
  have hrstrip : ∀ l : Text, rstrip (l ++ [mark]) = l ++ [mark] := fun l =>
    List.rdropWhile_concat_neg _ _ _ (by simp [hspace])
  have hjoin : c.buffer ++ token = (front ++ start) ++ mark :: next :: back := by rw [hbuffer, hrest, List.append_assoc]
  -- the same place, seen from the beginning of the text that was scanned
  have hwhole := hwords (front ++ (start ++ [mark])) ⟨front ++ start, mark, next, back, by simp, hjoin, hmark, hnext, by
    rw [hmin] at hlength
    exact hlength.trans (length_strip_le front start hspace)⟩
  have hlast : lastWord (front ++ (start ++ [mark])) = lastWord (start ++ [mark]) := by
    have hbefore : BetweenWords front (start ++ [mark] ++ next :: back) := by
      rw [hrest] at hbetween
      simpa using hbetween
    exact lastWord_append hbefore hspace
  rw [hlast] at hwhole
  apply hword
  apply hwhole
  rw [← List.append_assoc, hrstrip, List.append_assoc, lower, List.flatMap_append]
  rw [hrstrip] at habbreviation
  exact endsWithAny_append habbreviation

/-- A fresh chunker. -/
def fresh (minChars softLimit : Nat) : SentenceChunker := { minChars, softLimit }

/-- The calls of `feed` one after the other. -/
def fed (c : SentenceChunker) (token : Text) : Option SentenceChunker := some (c.feed token).2

/-- **No end of a sentence is missed** in a run in which abbreviations end the text only as words. -/
theorem no_boundary_of_abbreviationsAreWords (minChars softLimit : Nat) {tokens : List Text} {c : SentenceChunker}
    (hrun : EventLoop.Run fed AbbreviationsAreWords (fresh minChars softLimit) tokens c) :
    ¬ HasBoundary c.minChars c.buffer := by
  refine hrun.invariant (I := fun c => ¬ HasBoundary c.minChars c.buffer) ?_ (fun {c u token} hI hok hfed => ?_)
  · rintro ⟨head, ⟨front, mark, next, back, -, ht, -⟩, -⟩
    simp [fresh] at ht
  · cases hfed
    exact feed_no_boundary hI hok

/-- An abbreviation, and the end of a sentence right before the last token. -/
theorem no_boundary_drSmith : ∃ c, EventLoop.Run fed AbbreviationsAreWords (fresh 12 90)
      ["I saw Dr. ".toList, "Smith today. Did ".toList, "you?".toList] c ∧ c.buffer = " Did you?".toList ∧
      ¬ HasBoundary c.minChars c.buffer := by
  obtain ⟨c, hrun, hbuffer⟩ := EventLoop.Run.exists_of_exec (P := fun c => c.buffer = " Did you?".toList)
    (show (EventLoop.exec fed AbbreviationsAreWords (fresh 12 90)
      ["I saw Dr. ".toList, "Smith today. Did ".toList, "you?".toList]).any _ = true by decide +kernel)
  exact ⟨c, hrun, of_decide_eq_true hbuffer, no_boundary_of_abbreviationsAreWords 12 90 hrun⟩

/-- A word that ends in the letters of an abbreviation hides the end of its sentence. -/
theorem boundary_missed_casino :
    HasBoundary 12 ((fresh 12 90).feed "We met at the casino. ".toList).2.buffer := by
  have hbuffer : ((fresh 12 90).feed "We met at the casino. ".toList).2.buffer = "We met at the casino. ".toList := by
    decide +kernel
  rw [hbuffer]
  exact ⟨"We met at the casino.".toList, by decide +kernel, by decide +kernel⟩

end Voxera.SentenceChunker
