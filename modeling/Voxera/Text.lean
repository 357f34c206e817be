import Mathlib.Data.List.DropRight

/-!
# Text as the source handles it

A Python `str` is its list of code points. `strip`, `rstrip`, `lower` and `joinSpaces` follow the
`str` methods of the same names; `isSpace` is `str.isspace` on one character; `isUuid` says which
texts the constructor `uuid.UUID` takes.
-/

namespace Voxera

/-- A Python `str`. -/
abbrev Text := List Char

namespace Text

/-- `str.isspace` on one character: the characters `str.strip` removes. -/
def isSpace (c : Char) : Bool :=
  let n := c.toNat
  (0x09 ≤ n && n ≤ 0x0D) || (0x1C ≤ n && n ≤ 0x20) || n == 0x85 || n == 0xA0 || n == 0x1680 ||
    (0x2000 ≤ n && n ≤ 0x200A) || n == 0x2028 || n == 0x2029 || n == 0x202F || n == 0x205F || n == 0x3000

def lstrip (t : Text) : Text := t.dropWhile isSpace

def rstrip (t : Text) : Text := t.rdropWhile isSpace

/-- `str.strip()`. -/
def strip (t : Text) : Text := rstrip (lstrip t)

/-- `str.lower` on one character. The Kelvin sign and the dotted capital I are the only characters
beyond ASCII whose lower case has an ASCII letter in it; the others are left as they are, which no
comparison with an ASCII word can tell. -/
def lowerChar (c : Char) : Text :=
  if 'A' ≤ c ∧ c ≤ 'Z' then [Char.ofNat (c.toNat + 32)]
  else if c.toNat = 0x212A then ['k']
  else if c.toNat = 0x130 then ['i', Char.ofNat 0x307]
  else [c]

/-- `str.lower()`. -/
def lower (t : Text) : Text := t.flatMap lowerChar

/-- `t.endswith(suffixes)` for a tuple of suffixes. -/
def endsWithAny (t : Text) (suffixes : List Text) : Bool := suffixes.any (fun s => s.isSuffixOf t)

/-- `f"{a} {b}"`. -/
def joinSpace (a b : Text) : Text := a ++ ' ' :: b

/-- `" ".join(ts)`. -/
def joinSpaces : List Text → Text
  | [] => []
  | [t] => t
  | t :: u :: ts => joinSpace t (joinSpaces (u :: ts))

@[simp] theorem joinSpaces_nil : joinSpaces [] = [] := rfl
@[simp] theorem joinSpaces_singleton (t : Text) : joinSpaces [t] = t := rfl

theorem joinSpaces_concat {ts : List Text} (h : ts ≠ []) (t : Text) :
    joinSpaces (ts ++ [t]) = joinSpace (joinSpaces ts) t := by
  induction ts with
  | nil => exact absurd rfl h
  | cons a ts ih =>
      cases ts with
      | nil => rfl
      | cons b ts =>
          have hih := ih (by simp)
          simp only [List.cons_append] at hih ⊢
          rw [joinSpaces, hih, joinSpaces]
          simp [joinSpace]

/-- Two texts with a space between them where neither is empty. -/
def join (a b : Text) : Text := if a.isEmpty then b else if b.isEmpty then a else joinSpace a b

theorem join_nil (a : Text) : join a [] = a := by
  unfold join
  split
  · next h => exact (List.isEmpty_iff.mp h).symm
  · rfl

theorem joinSpaces_ne_nil {ts : List Text} (hne : ts ≠ []) (hts : ∀ t ∈ ts, t ≠ []) : joinSpaces ts ≠ [] := by
  cases ts with
  | nil => exact absurd rfl hne
  | cons t ts =>
      cases ts with
      | nil => exact hts t (by simp)
      | cons u ts => simp [joinSpaces, joinSpace]

theorem joinSpaces_cons {t : Text} (ht : t ≠ []) {ts : List Text} (hts : ∀ u ∈ ts, u ≠ []) :
    joinSpaces (t :: ts) = join t (joinSpaces ts) := by
  cases ts with
  | nil => exact (join_nil t).symm
  | cons u ts =>
      have hrest : joinSpaces (u :: ts) ≠ [] := joinSpaces_ne_nil (by simp) hts
      rw [joinSpaces, join, if_neg (by simpa using ht), if_neg (by simpa using hrest)]

theorem join_assoc (a b c : Text) : join (join a b) c = join a (join b c) := by
  unfold join joinSpace
  cases a <;> cases b <;> cases c <;> simp

/-- What stands in two lists of texts is joined list by list. -/
theorem joinSpaces_append {ts us : List Text} (hts : ∀ t ∈ ts, t ≠ []) (hus : ∀ u ∈ us, u ≠ []) :
    joinSpaces (ts ++ us) = join (joinSpaces ts) (joinSpaces us) := by
  induction ts with
  | nil => rfl
  | cons t ts ih =>
      have htail : ∀ u ∈ ts, u ≠ [] := fun u hu => hts u (by simp [hu])
      have hall : ∀ u ∈ ts ++ us, u ≠ [] := fun u hu => (List.mem_append.mp hu).elim (htail u) (hus u)
      rw [List.cons_append, joinSpaces_cons (hts t (by simp)) hall, ih htail, joinSpaces_cons (hts t (by simp)) htail,
        join_assoc]

/-- Texts that were joined group by group. -/
theorem joinSpaces_flatten {groups : List (List Text)} (hne : ∀ group ∈ groups, group ≠ [])
    (hts : ∀ group ∈ groups, ∀ t ∈ group, t ≠ []) : joinSpaces groups.flatten = joinSpaces (groups.map joinSpaces) := by
  induction groups with
  | nil => rfl
  | cons group groups ih =>
      have hrest := ih (fun g hg => hne g (List.mem_cons_of_mem _ hg)) (fun g hg => hts g (List.mem_cons_of_mem _ hg))
      have hflat : ∀ t ∈ groups.flatten, t ≠ [] := by
        intro t ht
        obtain ⟨g, hg, htg⟩ := List.mem_flatten.mp ht
        exact hts g (List.mem_cons_of_mem _ hg) t htg
      have hfirst : joinSpaces group ≠ [] := joinSpaces_ne_nil (hne group List.mem_cons_self) (hts group List.mem_cons_self)
      have hjoined : ∀ t ∈ groups.map joinSpaces, t ≠ [] := by
        intro t ht
        obtain ⟨g, hg, rfl⟩ := List.mem_map.mp ht
        exact joinSpaces_ne_nil (hne g (List.mem_cons_of_mem _ hg)) (hts g (List.mem_cons_of_mem _ hg))
      rw [List.flatten_cons, joinSpaces_append (hts group List.mem_cons_self) hflat, List.map_cons,
        joinSpaces_cons hfirst hjoined, hrest]

/-! ## Stripped texts -/

/-- No white space at either end. -/
structure Stripped (t : Text) : Prop where
  head : ∀ h : t ≠ [], isSpace (t.head h) = false
  last : ∀ h : t ≠ [], isSpace (t.getLast h) = false

theorem stripped_nil : Stripped [] := ⟨fun h => absurd rfl h, fun h => absurd rfl h⟩

theorem lstrip_of_head {t : Text} (h : ∀ h : t ≠ [], isSpace (t.head h) = false) : lstrip t = t := by
  cases t with
  | nil => rfl
  | cons c t =>
      have hc : isSpace c = false := h (by simp)
      simp [lstrip, hc]

theorem rstrip_of_last {t : Text} (h : ∀ h : t ≠ [], isSpace (t.getLast h) = false) : rstrip t = t :=
  List.rdropWhile_eq_self_iff.mpr (fun hl => by simp [h hl])

theorem strip_eq_self {t : Text} (h : Stripped t) : strip t = t := by
  rw [strip, lstrip_of_head h.head, rstrip_of_last h.last]

theorem stripped_strip (t : Text) : Stripped (strip t) := by
  constructor
  · intro h
    have hlead : strip t <+: lstrip t := List.rdropWhile_prefix _ _
    rw [hlead.head h]
    exact List.head_dropWhile_not isSpace _
  · intro h
    exact Bool.eq_false_iff.mpr (List.rdropWhile_last_not isSpace (lstrip t) h)

@[simp] theorem strip_strip (t : Text) : strip (strip t) = strip t := strip_eq_self (stripped_strip t)

@[simp] theorem strip_nil : strip [] = [] := rfl

theorem stripped_joinSpace {a b : Text} (ha : Stripped a) (hb : Stripped b) (ha0 : a ≠ []) (hb0 : b ≠ []) :
    Stripped (joinSpace a b) := by
  constructor
  · intro h
    have := ha.head ha0
    rwa [show (joinSpace a b).head h = a.head ha0 from List.head_append_of_ne_nil ha0]
  · intro h
    have := hb.last hb0
    have hlast : (joinSpace a b).getLast h = b.getLast hb0 := by
      have happ : joinSpace a b = (a ++ [' ']) ++ b := by simp [joinSpace]
      simp only [happ, List.getLast_append_of_ne_nil _ hb0]
    rwa [hlast]

theorem strip_joinSpace_nil {a : Text} (ha : Stripped a) : strip (joinSpace a []) = a := by
  cases a with
  | nil => rfl
  | cons c a =>
      have hl : lstrip (joinSpace (c :: a) []) = joinSpace (c :: a) [] :=
        lstrip_of_head (fun h => by simpa [joinSpace] using ha.head (by simp))
      rw [strip, hl, joinSpace, rstrip, List.rdropWhile_concat_pos _ _ _ (by decide)]
      exact rstrip_of_last ha.last

theorem joinSpace_ne_nil (a b : Text) : joinSpace a b ≠ [] := by simp [joinSpace]

/-! ## Texts cut into segments -/

/-- Nothing but white space. -/
def Blank (t : Text) : Prop := ∀ c ∈ t, isSpace c = true

theorem blank_nil : Blank [] := fun _ h => nomatch h

theorem Blank.append {a b : Text} (ha : Blank a) (hb : Blank b) : Blank (a ++ b) := by
  intro c hc
  rcases List.mem_append.mp hc with hc | hc
  · exact ha c hc
  · exact hb c hc

/-- `strip` takes white space away at both ends, and nothing else. -/
theorem exists_strip (t : Text) : ∃ lead trail, Blank lead ∧ Blank trail ∧ t = lead ++ strip t ++ trail := by
  refine ⟨t.takeWhile isSpace, (lstrip t).rtakeWhile isSpace, fun c hc => List.mem_takeWhile_imp hc,
    fun c hc => List.mem_rtakeWhile_imp hc, ?_⟩
  rw [List.append_assoc, strip, rstrip, List.rdropWhile_append_rtakeWhile]
  exact (List.takeWhile_append_dropWhile).symm

/-- `t` is the segments in this order, each of them after white space only, and then `rest`. -/
def CutsInto (t : Text) (segments : List Text) (rest : Text) : Prop :=
  ∃ gaps : List Text, gaps.length = segments.length ∧ (∀ gap ∈ gaps, Blank gap) ∧
    t = (List.zipWith (· ++ ·) gaps segments).flatten ++ rest

namespace CutsInto

variable {t rest : Text} {segments : List Text}

theorem nil (t : Text) : CutsInto t [] t := ⟨[], rfl, (fun _ h => nomatch h), rfl⟩

/-- More text comes after the segments. -/
theorem append (h : CutsInto t segments rest) (more : Text) : CutsInto (t ++ more) segments (rest ++ more) := by
  obtain ⟨gaps, hlength, hblank, rfl⟩ := h
  exact ⟨gaps, hlength, hblank, List.append_assoc _ _ _⟩

/-- One more segment is cut off. -/
theorem concat {gap segment : Text} (h : CutsInto t segments (gap ++ segment ++ rest)) (hgap : Blank gap) :
    CutsInto t (segments ++ [segment]) rest := by
  obtain ⟨gaps, hlength, hblank, rfl⟩ := h
  refine ⟨gaps ++ [gap], ?_, ?_, ?_⟩
  · rw [List.length_append, List.length_append, hlength]
    rfl
  · intro g hg
    rcases List.mem_append.mp hg with hg | hg
    · exact hblank g hg
    · rw [List.mem_singleton] at hg
      exact hg ▸ hgap
  · rw [List.zipWith_append hlength]
    simp

/-- The segments cut off first. -/
theorem of_append {more : List Text} (h : CutsInto t (segments ++ more) rest) : ∃ rest', CutsInto t segments rest' := by
  obtain ⟨gaps, hlength, hblank, rfl⟩ := h
  have htake : (gaps.take segments.length).length = segments.length := by
    rw [List.length_append] at hlength
    rw [List.length_take]
    omega
  refine ⟨(List.zipWith (· ++ ·) (gaps.drop segments.length) more).flatten ++ rest, gaps.take segments.length, htake,
    fun gap hgap => hblank gap (List.mem_of_mem_take hgap), ?_⟩
  conv_lhs => rw [← List.take_append_drop segments.length gaps, List.zipWith_append htake]
  simp

/-- A piece of the text is stripped; it is a segment unless nothing is left of it. -/
theorem strip {piece : Text} (h : ∃ w, Blank w ∧ CutsInto t segments (w ++ (piece ++ rest))) :
    ∃ w, Blank w ∧
      CutsInto t (segments ++ if Text.strip piece ≠ [] then [Text.strip piece] else []) (w ++ rest) := by
  obtain ⟨w, hw, hcuts⟩ := h
  obtain ⟨lead, trail, hlead, htrail, hpiece⟩ := exists_strip piece
  split
  · have hgap : CutsInto t segments ((w ++ lead) ++ Text.strip piece ++ (trail ++ rest)) := by
      rw [hpiece] at hcuts
      simpa using hcuts
    exact ⟨trail, htrail, hgap.concat (hw.append hlead)⟩
  · rename_i hempty
    rw [not_not] at hempty
    rw [hempty, List.append_nil] at hpiece
    refine ⟨w ++ piece, hw.append (hpiece ▸ hlead.append htrail), ?_⟩
    simpa using hcuts

end CutsInto

/-! ## The constructor `uuid.UUID` -/

/-- `t.replace(pattern, "")`; `fuel` bounds the scan, and the length of the text is enough. -/
def removeAll (pattern : Text) : Nat → Text → Text
  | 0, t => t
  | _, [] => []
  | fuel + 1, c :: t =>
      if pattern ≠ [] ∧ pattern.isPrefixOf (c :: t) then removeAll pattern fuel ((c :: t).drop pattern.length)
      else c :: removeAll pattern fuel t

/-- The zeros of the decimal digits of Unicode; the ten digits of a script stand in a row. -/
def decimalZeros : List Nat :=
  [0x30, 0x660, 0x6F0, 0x7C0, 0x966, 0x9E6, 0xA66, 0xAE6, 0xB66, 0xBE6, 0xC66, 0xCE6, 0xD66, 0xDE6, 0xE50, 0xED0,
    0xF20, 0x1040, 0x1090, 0x17E0, 0x1810, 0x1946, 0x19D0, 0x1A80, 0x1A90, 0x1B50, 0x1BB0, 0x1C40, 0x1C50, 0xA620,
    0xA8D0, 0xA900, 0xA9D0, 0xA9F0, 0xAA50, 0xABF0, 0xFF10, 0x104A0, 0x10D30, 0x11066, 0x110F0, 0x11136, 0x111D0,
    0x112F0, 0x11450, 0x114D0, 0x11650, 0x116C0, 0x11730, 0x118E0, 0x11950, 0x11C50, 0x11D50, 0x11DA0, 0x16A60,
    0x16AC0, 0x16B50, 0x1D7CE, 0x1D7D8, 0x1D7E2, 0x1D7EC, 0x1D7F6, 0x1E140, 0x1E2F0, 0x1E950, 0x1FBF0]

/-- What `int` reads a character as: beyond ASCII a white space is a blank and a decimal digit is its
ASCII digit. -/
def asciiOf (c : Char) : Char :=
  if c.toNat < 127 then c
  else if isSpace c then ' '
  else match decimalZeros.find? (fun z => z ≤ c.toNat && c.toNat < z + 10) with
    | some z => Char.ofNat ('0'.toNat + (c.toNat - z))
    | none => '?'

def isBlank (c : Char) : Bool := c == ' ' || (0x09 ≤ c.toNat && c.toNat ≤ 0x0D)

def hexDigit (c : Char) : Option Nat :=
  if '0' ≤ c ∧ c ≤ '9' then some (c.toNat - '0'.toNat)
  else if 'a' ≤ c ∧ c ≤ 'f' then some (c.toNat - 'a'.toNat + 10)
  else if 'A' ≤ c ∧ c ≤ 'F' then some (c.toNat - 'A'.toNat + 10)
  else none

/-- The digits of `int(t, 16)` after the value `n`; one underscore may stand before a digit. -/
def hexDigits (n : Nat) : Text → Option Nat
  | [] => some n
  | '_' :: c :: t => (hexDigit c).bind (fun d => hexDigits (16 * n + d) t)
  | c :: t => (hexDigit c).bind (fun d => hexDigits (16 * n + d) t)

/-- `int(t, 16)` of a text without a minus sign; `none` is a `ValueError`. -/
def hexInt (t : Text) : Option Nat :=
  let t := ((t.map asciiOf).dropWhile isBlank).rdropWhile isBlank
  let t := if t.head? = some '+' then t.tail else t
  match t with
  | '0' :: 'x' :: c :: t => hexDigits 0 (c :: t)
  | '0' :: 'X' :: c :: t => hexDigits 0 (c :: t)
  | [] => none
  | '_' :: _ => none
  | t => hexDigits 0 t

/-- What `uuid.UUID(t)` reads its 32 digits from: an `urn:` or `uuid:` prefix, the braces around
them and the hyphens among them are left out of account. -/
def uuidHex (t : Text) : Text :=
  let t := removeAll "urn:".toList t.length t
  let t := removeAll "uuid:".toList t.length t
  let brace := fun c => c == '{' || c == '}'
  let t := (t.dropWhile brace).rdropWhile brace
  t.filter (· != '-')

/-- The integer of `uuid.UUID(t)`; `none` is a `ValueError`. -/
def uuidInt (t : Text) : Option Nat :=
  if (uuidHex t).length = 32 then (hexInt (uuidHex t)).filter (· < 1 <<< 128) else none

/-- The texts `uuid.UUID(t)` takes. -/
def isUuid (t : Text) : Bool := (uuidInt t).isSome

theorem rdropWhile_append {p : Char → Bool} {x : Text} (hx : x ≠ []) (hlast : p (x.getLast hx) = false) (y : Text) :
    (x ++ y).rdropWhile p = x ++ y.rdropWhile p := by
  induction y using List.reverseRecOn with
  | nil =>
      rw [List.rdropWhile_nil, List.append_nil, List.rdropWhile_eq_self_iff]
      intro _
      simp [hlast]
  | append_singleton y a ih =>
      rw [← List.append_assoc, List.rdropWhile_concat, List.rdropWhile_concat]
      split
      · exact ih
      · rw [List.append_assoc]

/-- A text without the first character of the pattern is left as it is. -/
theorem removeAll_append (c : Char) (pattern : Text) {x : Text} (hx : c ∉ x) (y : Text) :
    removeAll (c :: pattern) (x ++ y).length (x ++ y) = x ++ removeAll (c :: pattern) y.length y := by
  induction x with
  | nil => rfl
  | cons d x ih =>
      have hne : c ≠ d := List.ne_of_not_mem_cons hx
      rw [List.cons_append, List.length_cons, removeAll, if_neg (by simp [hne]), ih (List.not_mem_of_not_mem_cons hx),
        List.cons_append]

/-- A character of `[0-9a-f-]`. -/
def isIdChar (c : Char) : Bool := ('0' ≤ c && c ≤ '9') || ('a' ≤ c && c ≤ 'f') || c == '-'

section Prefix

variable {x : Text}

/-- The digits of a text that begins with a lower-case id begin with the digits of the id. -/
theorem uuidHex_append (hx : x ≠ []) (hid : ∀ c ∈ x, isIdChar c = true) (y : Text) :
    ∃ z, (y = [] → z = []) ∧ uuidHex (x ++ y) = x.filter (· != '-') ++ z := by
  have hnot : ∀ c, isIdChar c = false → c ∉ x := by
    intro c hc hmem
    rw [hid c hmem] at hc
    cases hc
  have hbrace : ∀ c ∈ x, (c == '{' || c == '}') = false := by
    intro c hmem
    have hopen : c ≠ '{' := fun h => hnot '{' (by decide) (h ▸ hmem)
    have hclose : c ≠ '}' := fun h => hnot '}' (by decide) (h ▸ hmem)
    simp [hopen, hclose]
  have hleft : ∀ t : Text, (x ++ t).dropWhile (fun c => c == '{' || c == '}') = x ++ t := by
    intro t
    cases x with
    | nil => exact absurd rfl hx
    | cons c x => rw [List.cons_append, List.dropWhile_cons, hbrace c List.mem_cons_self]; rfl
  let y₁ := removeAll "urn:".toList y.length y
  let y₂ := removeAll "uuid:".toList y₁.length y₁
  refine ⟨(y₂.rdropWhile (fun c => c == '{' || c == '}')).filter (· != '-'), ?_, ?_⟩
  · intro hy
    have hy₁ : y₁ = [] := by show removeAll _ y.length y = []; rw [hy]; rfl
    have hy₂ : y₂ = [] := by show removeAll _ y₁.length y₁ = []; rw [hy₁]; rfl
    rw [hy₂]
    rfl
  · have hurn : removeAll "urn:".toList (x ++ y).length (x ++ y) = x ++ y₁ :=
      removeAll_append 'u' "rn:".toList (hnot 'u' (by decide)) y
    have huuid : removeAll "uuid:".toList (x ++ y₁).length (x ++ y₁) = x ++ y₂ :=
      removeAll_append 'u' "uid:".toList (hnot 'u' (by decide)) y₁
    unfold uuidHex
    simp only [hurn, huuid, hleft]
    rw [rdropWhile_append hx (hbrace _ (List.getLast_mem hx)), List.filter_append]

/-- A lower-case id at the beginning of a text settles what `uuid.UUID` makes of the whole text. -/
theorem uuidInt_append (hx : x ≠ []) (hid : ∀ c ∈ x, isIdChar c = true) {y : Text} {n m : Nat}
    (hn : uuidInt x = some n) (hm : uuidInt (x ++ y) = some m) : m = n := by
  obtain ⟨z₀, hz₀, hhex⟩ := uuidHex_append hx hid []
  rw [hz₀ rfl, List.append_nil, List.append_nil] at hhex
  obtain ⟨z, -, hhex'⟩ := uuidHex_append hx hid y
  rw [← hhex] at hhex'
  unfold uuidInt at hn hm
  split_ifs at hn hm with hlen hlen'
  have hz : z = [] := by
    apply List.length_eq_zero_iff.mp
    rw [hhex', List.length_append] at hlen'
    omega
  rw [hhex', hz, List.append_nil, hn] at hm
  exact (Option.some.inj hm).symm

end Prefix

end Text

end Voxera
