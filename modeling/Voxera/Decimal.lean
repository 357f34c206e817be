import Voxera.Text
import Mathlib.Data.Int.Order.Basic
import Mathlib.Logic.Function.Basic

/-!
# Integers as text

* `ofInt` : `str(n)`; `toInt` : the constructor `int` on a text, which takes many spellings of a number;
* `toInt_ofInt`, `ofInt_injective` : `int` reads `str(n)` back, and a text is the `str` of one number;
* `maxStrDigits` : the interpreter converts no number of more digits, in either direction.
-/

namespace Voxera.Text

/-- `sys.get_int_max_str_digits()` -/
def maxStrDigits : Nat := 4300

/-- `str(n)`, without the limit. -/
def ofInt (n : ℤ) : Text := (if n < 0 then ['-'] else []) ++ Nat.toDigits 10 n.natAbs

/-- The number has few enough digits for `str`. -/
def Renders (n : ℤ) : Prop := (Nat.toDigits 10 n.natAbs).length ≤ maxStrDigits

instance (n : ℤ) : Decidable (Renders n) := inferInstanceAs (Decidable (_ ≤ _))

def decDigit (c : Char) : Option Nat := if '0' ≤ c ∧ c ≤ '9' then some (c.toNat - '0'.toNat) else none

/-- The digits of `int(t)` after the value `n`; one underscore may stand before a digit. -/
def decDigits (n : Nat) : Text → Option Nat
  | [] => some n
  | '_' :: c :: t => (decDigit c).bind (fun d => decDigits (10 * n + d) t)
  | c :: t => (decDigit c).bind (fun d => decDigits (10 * n + d) t)

/-- `int(t)` of a text without blanks and sign. -/
def toNat (t : Text) : Option Nat :=
  if maxStrDigits < (t.filter (· != '_')).length then none
  else
    match t with
    | [] => none
    | '_' :: _ => none
    | t => decDigits 0 t

/-- `int(t)`; `none` is a `ValueError`. -/
def toInt (t : Text) : Option ℤ :=
  match ((t.map asciiOf).dropWhile isBlank).rdropWhile isBlank with
  | '-' :: t => (toNat t).map (fun n : Nat => -(n : ℤ))
  | '+' :: t => (toNat t).map (fun n : Nat => (n : ℤ))
  | t => (toNat t).map (fun n : Nat => (n : ℤ))

/-! ## What `str` writes -/

theorem isDigit_of_mem {n : Nat} {c : Char} (h : c ∈ Nat.toDigits 10 n) : c.isDigit = true :=
  Nat.isDigit_of_mem_toDigits (by decide) (by decide) h

theorem mem_ofInt {n : ℤ} {c : Char} (h : c ∈ ofInt n) : c = '-' ∨ c.isDigit = true := by
  unfold ofInt at h
  rcases List.mem_append.mp h with h | h
  · split at h
    · exact Or.inl (List.mem_singleton.mp h)
    · exact nomatch h
  · exact Or.inr (isDigit_of_mem h)

theorem not_mem_ofInt {c : Char} (hc : c ≠ '-') (hdigit : c.isDigit = false) (n : ℤ) : c ∉ ofInt n := by
  intro h
  rcases mem_ofInt h with rfl | h
  · exact hc rfl
  · rw [hdigit] at h
    cases h

theorem ofInt_injective : Function.Injective ofInt := by
  intro n m h
  have hdash : ∀ k : Nat, '-' ∉ Nat.toDigits 10 k := by
    intro k hk
    exact absurd (isDigit_of_mem hk) (by decide)
  have habs : ∀ {a b : Nat}, Nat.toDigits 10 a = Nat.toDigits 10 b → a = b := by
    intro a b hab
    have := congrArg (fun t => Nat.ofDigitChars 10 t 0) hab
    simpa using this
  unfold ofInt at h
  split_ifs at h with hn hm hm
  · have := habs (List.cons.inj h).2
    omega
  · have hmem : '-' ∈ ['-'] ++ Nat.toDigits 10 n.natAbs := by simp
    rw [h, List.nil_append] at hmem
    exact absurd hmem (hdash m.natAbs)
  · have hmem : '-' ∈ ['-'] ++ Nat.toDigits 10 m.natAbs := by simp
    rw [← h, List.nil_append] at hmem
    exact absurd hmem (hdash n.natAbs)
  · have := habs h
    omega

/-! ## `int` reads it back -/

theorem decDigits_of_isDigit {t : Text} (h : ∀ c ∈ t, c.isDigit = true) (n : Nat) :
    decDigits n t = some (Nat.ofDigitChars 10 t n) := by
  induction t generalizing n with
  | nil => simp [decDigits]
  | cons c t ih =>
      have hc : '0' ≤ c ∧ c ≤ '9' := by
        have := h c (by simp)
        simpa [Char.isDigit, Char.le_def] using this
      have hne : c ≠ '_' := by
        rintro rfl
        exact absurd (h '_' (by simp)) (by decide)
      rw [Nat.ofDigitChars_cons, ← ih (fun d hd => h d (by simp [hd]))]
      rw [decDigits.eq_3 _ _ _ (fun _ _ he => absurd he hne), decDigit, if_pos hc]
      rfl

theorem toNat_toDigits {n : Nat} (h : (Nat.toDigits 10 n).length ≤ maxStrDigits) :
    toNat (Nat.toDigits 10 n) = some n := by
  have hunder : ∀ c ∈ Nat.toDigits 10 n, c ≠ '_' := by
    rintro c hc rfl
    exact absurd (isDigit_of_mem hc) (by decide)
  have hall : (Nat.toDigits 10 n).filter (· != '_') = Nat.toDigits 10 n :=
    List.filter_eq_self.mpr (fun c hc => by simpa using hunder c hc)
  unfold toNat
  rw [hall, if_neg (not_lt.mpr h)]
  have hdigits := decDigits_of_isDigit (fun c (hc : c ∈ Nat.toDigits 10 n) => isDigit_of_mem hc) 0
  rw [Nat.ofDigitChars_ten_toDigits] at hdigits
  split
  · next heq => exact absurd heq Nat.toDigits_ne_nil
  · next rest heq => exact absurd rfl (hunder '_' (by rw [heq]; simp))
  · exact hdigits

theorem asciiOf_eq {c : Char} (h : c.toNat < 127) : asciiOf c = c := if_pos h

/-- Neither a digit nor the sign is touched before the number is read. -/
theorem trim_ofInt (n : ℤ) : (((ofInt n).map asciiOf).dropWhile isBlank).rdropWhile isBlank = ofInt n := by
  have hchar : ∀ c ∈ ofInt n, c.toNat < 127 ∧ isBlank c = false := by
    intro c hc
    rcases mem_ofInt hc with rfl | hdigit
    · exact ⟨by decide, by decide⟩
    · have hrange : 48 ≤ c.toNat ∧ c.toNat ≤ 57 := by
        simp only [Char.isDigit, Bool.and_eq_true, decide_eq_true_eq, UInt32.le_iff_toNat_le, ge_iff_le] at hdigit
        exact hdigit
      have hspace : c ≠ ' ' := by
        rintro rfl
        exact absurd hdigit (by decide)
      refine ⟨by omega, ?_⟩
      simp only [isBlank, Bool.or_eq_false_iff, Bool.and_eq_false_iff, decide_eq_false_iff_not]
      exact ⟨by simpa using hspace, Or.inr (by omega)⟩
  have hmap : (ofInt n).map asciiOf = ofInt n :=
    (List.map_congr_left (fun c hc => asciiOf_eq (hchar c hc).1)).trans (List.map_id _)
  have hlead : (ofInt n).dropWhile isBlank = ofInt n := by
    rw [List.dropWhile_eq_self_iff]
    intro hl
    simp [(hchar _ (List.getElem_mem hl)).2]
  have htrail : (ofInt n).rdropWhile isBlank = ofInt n := by
    rw [List.rdropWhile_eq_self_iff]
    intro hne
    simp [(hchar _ (List.getLast_mem hne)).2]
  rw [hmap, hlead, htrail]

/-- `int(str(n)) = n`, as far as `str` goes. -/
theorem toInt_ofInt {n : ℤ} (h : Renders n) : toInt (ofInt n) = some n := by
  have hread := toNat_toDigits h
  unfold toInt
  rw [trim_ofInt, ofInt]
  split_ifs with hn
  · rw [List.singleton_append]
    show (toNat (Nat.toDigits 10 n.natAbs)).map (fun k : Nat => -(k : ℤ)) = some n
    rw [hread, Option.map_some]
    congr 1
    omega
  · rw [List.nil_append]
    split
    · next heq => exact absurd (isDigit_of_mem (n := n.natAbs) (c := '-') (by rw [heq]; simp)) (by decide)
    · next heq => exact absurd (isDigit_of_mem (n := n.natAbs) (c := '+') (by rw [heq]; simp)) (by decide)
    · rw [hread, Option.map_some]
      congr 1
      omega

end Voxera.Text
