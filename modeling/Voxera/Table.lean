import Mathlib.Data.List.Induction
import Mathlib.Data.List.Nodup

/-!
# Tables in the order of insertion

* `upsert p f new rows` : the first row with `p` is changed, or `new` is added at the end (`upsert_cases`);
* `keys`, `values` : the keys of a log in the order of their first entries, and the values of one key;
* `table_eq` : the rows that a log builds by `upsert` are one for each key, built from the values of that key alone;
  `filter_table` : the row of one key.
-/

namespace Table

variable {ρ κ β : Type*}

/-- The first entry with `p`, and what is before and behind it. -/
theorem split_of_findIdx? {p : ρ → Bool} {rows : List ρ} {i : ℕ} (h : rows.findIdx? p = some i) :
    ∃ front r back, rows = front ++ r :: back ∧ front.length = i ∧ p r = true ∧ ∀ x ∈ front, p x = false := by
  induction rows generalizing i with
  | nil => cases h
  | cons r rows ih =>
      rw [List.findIdx?_cons] at h
      cases hp : p r with
      | true =>
          rw [hp, if_pos rfl] at h
          cases h
          exact ⟨[], r, rows, rfl, rfl, hp, nofun⟩
      | false =>
          rw [hp, if_neg Bool.false_ne_true] at h
          obtain ⟨j, hj, rfl⟩ := Option.map_eq_some_iff.mp h
          obtain ⟨front, x, back, rfl, rfl, hx, hfront⟩ := ih hj
          refine ⟨r :: front, x, back, rfl, rfl, hx, ?_⟩
          intro y hy
          rcases List.mem_cons.mp hy with rfl | hy
          · exact hp
          · exact hfront y hy

theorem modify_split (f : ρ → ρ) (front back : List ρ) (r : ρ) :
    (front ++ r :: back).modify front.length f = front ++ f r :: back := by
  induction front with
  | nil => rfl
  | cons x front ih => exact congrArg (x :: ·) ih

theorem eraseIdx_split (front back : List ρ) (r : ρ) : (front ++ r :: back).eraseIdx front.length = front ++ back := by
  induction front with
  | nil => rfl
  | cons x front ih => exact congrArg (x :: ·) ih

/-- The first row with `p` is changed by `f`; where there is none, `new` is added at the end. -/
def upsert (p : ρ → Bool) (f : ρ → ρ) (new : ρ) (rows : List ρ) : List ρ :=
  match rows.findIdx? p with
  | some i => rows.modify i f
  | none => rows ++ [new]

theorem upsert_split {p : ρ → Bool} {front : List ρ} {r : ρ} (hfront : ∀ x ∈ front, p x = false) (hr : p r = true) (f : ρ → ρ)
    (new : ρ) (back : List ρ) : upsert p f new (front ++ r :: back) = front ++ f r :: back := by
  have hidx : (front ++ r :: back).findIdx? p = some front.length := by
    rw [List.findIdx?_append, List.findIdx?_eq_none_iff.mpr (fun x hx => by simp [hfront x hx])]
    simp [List.findIdx?_cons, hr]
  unfold upsert
  rw [hidx]
  exact modify_split f front back r

theorem upsert_none {p : ρ → Bool} {rows : List ρ} (h : ∀ x ∈ rows, p x = false) (f : ρ → ρ) (new : ρ) :
    upsert p f new rows = rows ++ [new] := by
  unfold upsert
  rw [List.findIdx?_eq_none_iff.mpr (fun x hx => by simp [h x hx])]

theorem upsert_congr {p q : ρ → Bool} {rows : List ρ} (h : ∀ x ∈ rows, p x = q x) (f : ρ → ρ) (new : ρ) :
    upsert p f new rows = upsert q f new rows := by
  have hidx : rows.findIdx? p = rows.findIdx? q := by
    induction rows with
    | nil => rfl
    | cons r rows ih =>
        rw [List.findIdx?_cons, List.findIdx?_cons, h r List.mem_cons_self, ih (fun x hx => h x (List.mem_cons_of_mem _ hx))]
  unfold upsert
  rw [hidx]

theorem upsert_cases (p : ρ → Bool) (f : ρ → ρ) (new : ρ) (rows : List ρ) :
    (∃ front r back, rows = front ++ r :: back ∧ p r = true ∧ (∀ x ∈ front, p x = false) ∧
      upsert p f new rows = front ++ f r :: back) ∨
    (∀ x ∈ rows, p x = false) ∧ upsert p f new rows = rows ++ [new] := by
  cases h : rows.findIdx? p with
  | none =>
      have hnone : ∀ x ∈ rows, p x = false := fun x hx => by simpa using List.findIdx?_eq_none_iff.mp h x hx
      exact Or.inr ⟨hnone, upsert_none hnone f new⟩
  | some i =>
      obtain ⟨front, r, back, rfl, -, hr, hfront⟩ := split_of_findIdx? h
      exact Or.inl ⟨front, r, back, rfl, hr, hfront, upsert_split hfront hr f new back⟩

theorem forall_upsert {P : ρ → Prop} {p : ρ → Bool} {f : ρ → ρ} {new : ρ} {rows : List ρ} (h : ∀ x ∈ rows, P x)
    (hf : ∀ x ∈ rows, p x = true → P (f x)) (hnew : P new) : ∀ x ∈ upsert p f new rows, P x := by
  rcases upsert_cases p f new rows with ⟨front, r, back, rfl, hr, -, heq⟩ | ⟨-, heq⟩
  · obtain ⟨hfront, hback⟩ := List.forall_mem_append.mp h
    rw [heq]
    exact List.forall_mem_append.mpr
      ⟨hfront, List.forall_mem_cons.mpr ⟨hf r (by simp) hr, (List.forall_mem_cons.mp hback).2⟩⟩
  · rw [heq]
    exact List.forall_mem_append.mpr ⟨h, List.forall_mem_singleton.mpr hnew⟩

/-- Rows that `p` does not meet, and that it does not make, are left as they are. -/
theorem filter_upsert_of_neg {p q : ρ → Bool} {f : ρ → ρ} {new : ρ} {rows : List ρ} (hp : ∀ x ∈ rows, p x = true → q x = false ∧ q (f x) = false)
    (hnew : q new = false) : (upsert p f new rows).filter q = rows.filter q := by
  rcases upsert_cases p f new rows with ⟨front, r, back, rfl, hr, -, heq⟩ | ⟨-, heq⟩
  · obtain ⟨hq, hf⟩ := hp r (by simp) hr
    rw [heq, List.filter_append, List.filter_append, List.filter_cons_of_neg (by simp [hf]),
      List.filter_cons_of_neg (by simp [hq])]
  · rw [heq, List.filter_append, List.filter_cons_of_neg (by simp [hnew]), List.filter_nil, List.append_nil]

/-- Where `p` meets only rows with `q`, those are a table of their own. -/
theorem filter_upsert {p q : ρ → Bool} {f : ρ → ρ} {new : ρ} {rows : List ρ} (hp : ∀ x ∈ rows, p x = true → q x = true ∧ q (f x) = true)
    (hnew : q new = true) :
    (upsert p f new rows).filter q = upsert p f new (rows.filter q) := by
  rcases upsert_cases p f new rows with ⟨front, r, back, rfl, hr, hfront, heq⟩ | ⟨hnone, heq⟩
  · obtain ⟨hq, hf⟩ := hp r (by simp) hr
    rw [heq, List.filter_append, List.filter_append, List.filter_cons_of_pos hf, List.filter_cons_of_pos hq,
      upsert_split (fun x hx => hfront x (List.mem_of_mem_filter hx)) hr]
  · rw [heq, List.filter_append, List.filter_cons_of_pos hnew, List.filter_nil,
      upsert_none (fun x hx => hnone x (List.mem_of_mem_filter hx))]

section Build

variable (row : κ → β → ρ) (change : β → ρ → ρ)

/-- The row of a key with these values. -/
def build (k : κ) : List β → Option ρ
  | [] => none
  | b :: bs => some ((b :: bs).foldl (fun r b => change b r) (row k b))

variable {row change} {key : ρ → κ} {k : κ} {b : β} {bs : List β} {r : ρ}

theorem build_concat (h : build row change k bs = some r) :
    build row change k (bs ++ [b]) = some (change b r) := by
  cases bs with
  | nil => cases h
  | cons c bs =>
      cases h
      rw [List.cons_append, build, ← List.cons_append, List.foldl_append]
      rfl

theorem build_isSome (h : bs ≠ []) : ∃ r, build row change k bs = some r := by
  cases bs with
  | nil => exact absurd rfl h
  | cons c bs => exact ⟨_, rfl⟩

theorem key_build (hrow : ∀ k b, key (row k b) = k) (hchange : ∀ b r, key (change b r) = key r)
    (h : build row change k bs = some r) : key r = k := by
  have hfold : ∀ (cs : List β) (r : ρ), key (cs.foldl (fun r b => change b r) r) = key r := by
    intro cs
    induction cs with
    | nil => exact fun r => rfl
    | cons c cs ih => exact fun r => (ih _).trans (hchange c r)
  cases bs with
  | nil => cases h
  | cons c bs =>
      cases h
      rw [hfold, hrow]

end Build

section Log

variable [DecidableEq κ] (row : κ → β → ρ) (change : β → ρ → ρ) (key : ρ → κ)

/-- The keys of a log, in the order of their first entries. -/
def keys (log : List (κ × β)) : List κ := log.foldl (fun ks x => if x.1 ∈ ks then ks else ks ++ [x.1]) []

/-- The values that a log has for a key. -/
def values (k : κ) (log : List (κ × β)) : List β := (log.filter (fun x => x.1 = k)).map Prod.snd

/-- The rows that a log builds. -/
def table (log : List (κ × β)) : List ρ :=
  log.foldl (fun rows x => upsert (fun r => key r = x.1) (change x.2) (change x.2 (row x.1 x.2)) rows) []

variable {row change key} {log : List (κ × β)} {k : κ} {b : β}

theorem keys_concat (log : List (κ × β)) (x : κ × β) :
    keys (log ++ [x]) = if x.1 ∈ keys log then keys log else keys log ++ [x.1] := by
  unfold keys
  rw [List.foldl_append]
  rfl

theorem values_concat_self (log : List (κ × β)) (k : κ) (b : β) : values k (log ++ [(k, b)]) = values k log ++ [b] := by
  simp [values]

theorem values_concat_of_ne {k' : κ} (h : k' ≠ k) : values k (log ++ [(k', b)]) = values k log := by
  simp [values, h]

theorem mem_keys : k ∈ keys log ↔ values k log ≠ [] := by
  induction log using List.reverseRecOn with
  | nil => simp [keys, values]
  | append_singleton log x ih =>
      obtain ⟨k', b⟩ := x
      rw [keys_concat]
      by_cases hk : k' = k
      · subst hk
        rw [values_concat_self]
        split <;> simp_all
      · rw [values_concat_of_ne hk, ← ih]
        split
        · exact Iff.rfl
        · simp [Ne.symm hk]

theorem nodup_keys (log : List (κ × β)) : (keys log).Nodup := by
  induction log using List.reverseRecOn with
  | nil => exact List.nodup_nil
  | append_singleton log x ih =>
      rw [keys_concat]
      split
      · exact ih
      · rename_i hx
        exact List.nodup_append.mpr ⟨ih, List.nodup_singleton _, by rintro a ha _ hb rfl; exact hx (List.mem_singleton.mp hb ▸ ha)⟩

theorem table_concat (log : List (κ × β)) (x : κ × β) : table row change key (log ++ [x]) =
    upsert (fun r => key r = x.1) (change x.2) (change x.2 (row x.1 x.2)) (table row change key log) := by
  unfold table
  rw [List.foldl_append]
  rfl

/-- **Grouping**: one row for each key, in the order of the first entries, built from the values of that key alone. -/
theorem table_eq (hrow : ∀ k b, key (row k b) = k) (hchange : ∀ b r, key (change b r) = key r) (log : List (κ × β)) :
    table row change key log = (keys log).filterMap (fun k => build row change k (values k log)) := by
  induction log using List.reverseRecOn with
  | nil => rfl
  | append_singleton log x ih =>
      obtain ⟨k, b⟩ := x
      have hkey : ∀ r ∈ table row change key log, ∃ k' ∈ keys log, build row change k' (values k' log) = some r ∧ key r = k' := by
        intro r hr
        rw [ih] at hr
        obtain ⟨k', hk', hr⟩ := List.mem_filterMap.mp hr
        exact ⟨k', hk', hr, key_build hrow hchange hr⟩
      have hothers : ∀ ks : List κ, k ∉ ks → ks.filterMap (fun k' => build row change k' (values k' (log ++ [(k, b)]))) =
          ks.filterMap (fun k' => build row change k' (values k' log)) := by
        intro ks hks
        refine List.filterMap_congr (fun k' hk' => ?_)
        rw [values_concat_of_ne (fun heq : k = k' => hks (heq ▸ hk'))]
      rw [table_concat, keys_concat]
      by_cases hmem : k ∈ keys log
      · obtain ⟨before, after, hsplit⟩ := List.append_of_mem hmem
        have hnodup := nodup_keys log
        rw [hsplit] at hnodup
        have hbefore : k ∉ before := fun hk => (List.nodup_append.mp hnodup).2.2 k hk k List.mem_cons_self rfl
        have hafter : k ∉ after := (List.nodup_cons.mp (List.nodup_append.mp hnodup).2.1).1
        obtain ⟨r, hr⟩ : ∃ r, build row change k (values k log) = some r := build_isSome (mem_keys.mp hmem)
        have hrows : table row change key log =
            before.filterMap (fun k => build row change k (values k log)) ++
              r :: after.filterMap (fun k => build row change k (values k log)) := by
          rw [ih, hsplit, List.filterMap_append, List.filterMap_cons, hr]
        have hfront : ∀ x ∈ before.filterMap (fun k => build row change k (values k log)), decide (key x = k) = false := by
          intro x hx
          obtain ⟨k', hk', hx⟩ := List.mem_filterMap.mp hx
          rw [key_build hrow hchange hx]
          exact decide_eq_false (fun heq => hbefore (heq ▸ hk'))
        rw [if_pos hmem, hsplit, List.filterMap_append, List.filterMap_cons, hothers before hbefore, hothers after hafter,
          values_concat_self, build_concat hr, hrows,
          upsert_split hfront (decide_eq_true (key_build hrow hchange hr))]
      · rw [if_neg hmem, List.filterMap_append, hothers _ hmem, ← ih]
        have hnone : values k log = [] := by
          by_contra hne
          exact hmem (mem_keys.mpr hne)
        rcases upsert_cases (fun r => key r = k) (change b) (change b (row k b)) (table row change key log) with
          ⟨front, r, back, hrows, hr, -, -⟩ | ⟨-, heq⟩
        · obtain ⟨k', hk', -, hkr⟩ := hkey r (by rw [hrows]; simp)
          have hr : key r = k := of_decide_eq_true hr
          exact absurd (hr.symm.trans hkr ▸ hk') hmem
        · rw [heq, List.filterMap_cons, values_concat_self, hnone]
          rfl

/-- The rows with one key among rows of different keys. -/
theorem filter_filterMap_of_nodup {ks : List κ} (hks : ks.Nodup) {b : κ → Option ρ} (hb : ∀ k r, b k = some r → key r = k) (k : κ) :
    (ks.filterMap b).filter (fun r => key r = k) = if k ∈ ks then (b k).toList else [] := by
  induction ks with
  | nil => rfl
  | cons k' ks ih =>
      obtain ⟨hk', hks⟩ := List.nodup_cons.mp hks
      rw [List.filterMap_cons]
      by_cases heq : k' = k
      · subst heq
        have hrest : (ks.filterMap b).filter (fun r => key r = k') = [] := by rw [ih hks, if_neg hk']
        rw [if_pos List.mem_cons_self]
        cases hr : b k' with
        | none => exact hrest
        | some r =>
            dsimp only
            rw [List.filter_cons_of_pos (by simpa using hb k' r hr), hrest]
            rfl
      · have hmem : k ∈ k' :: ks ↔ k ∈ ks := by simp [Ne.symm heq]
        simp only [hmem]
        rw [← ih hks]
        cases hr : b k' with
        | none => rfl
        | some r =>
            dsimp only
            rw [List.filter_cons_of_neg (by simp [hb k' r hr, heq])]

/-- The row of a key in the table. -/
theorem filter_table (hrow : ∀ k b, key (row k b) = k) (hchange : ∀ b r, key (change b r) = key r) (log : List (κ × β)) (k : κ) :
    (table row change key log).filter (fun r => key r = k) = (build row change k (values k log)).toList := by
  rw [table_eq hrow hchange, filter_filterMap_of_nodup (nodup_keys log) (fun k r hr => key_build hrow hchange hr)]
  split
  · rfl
  · rename_i hk
    have hnone : values k log = [] := by
      by_contra hne
      exact hk (mem_keys.mpr hne)
    rw [hnone]
    rfl

end Log

end Table
