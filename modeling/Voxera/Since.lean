import Mathlib.Data.List.Induction

/-!
# What a history holds since the last mark

* `since p l` : the entries of `l` after the last one that satisfies `p`;
* `since_concat_of_pos`, `since_concat_of_neg` : what one more entry does to it;
* `since_suffix_of_mark` : it lies behind every mark.
-/

namespace Since

variable {α : Type*} {p : α → Bool} {l : List α} {a : α}

def since (p : α → Bool) (l : List α) : List α := l.foldl (fun acc a => if p a then [] else acc ++ [a]) []

theorem since_concat (p : α → Bool) (l : List α) (a : α) :
    since p (l ++ [a]) = if p a then [] else since p l ++ [a] := by
  unfold since
  rw [List.foldl_append]
  rfl

theorem since_concat_of_pos (h : p a = true) : since p (l ++ [a]) = [] := by
  rw [since_concat, if_pos h]

theorem since_concat_of_neg (h : p a = false) : since p (l ++ [a]) = since p l ++ [a] := by
  rw [since_concat, if_neg (Bool.eq_false_iff.mp h)]

/-- The entries since the last mark come after any mark. -/
theorem since_suffix_of_mark (h : p a = true) (front back : List α) : since p (front ++ a :: back) <:+ back := by
  induction back using List.reverseRecOn with
  | nil =>
      have hnil : since p (front ++ [a]) = [] := since_concat_of_pos h
      exact hnil.symm ▸ List.nil_suffix
  | append_singleton back b ih =>
      rw [← List.cons_append, ← List.append_assoc]
      cases hb : p b with
      | true =>
          rw [since_concat_of_pos hb]
          exact List.nil_suffix
      | false =>
          obtain ⟨rest, hrest⟩ := ih
          rw [since_concat_of_neg hb]
          exact ⟨rest, by rw [← List.append_assoc, hrest]⟩

end Since
