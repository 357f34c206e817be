import Mathlib.Data.List.TakeWhile

/-!
# Path templates

A template is a list of literal texts and of parameters. A parameter takes a non-empty text up to the next slash, and
the whole path must be used up; a line feed at its very end is overlooked, as `$` overlooks it in a regular expression.

* `capture` : the values of the parameters, for a path that matches;
* `capture_lit`, `capture_param` : how a path that matches begins;
* `map_fst_capture` : the parameters are those of the template.
-/

namespace PathTemplate

variable {ν : Type*}

inductive Piece (ν : Type*) where
  | lit (t : List Char)
  | param (name : ν)
  deriving DecidableEq

def capture : List (Piece ν) → List Char → Option (List (ν × List Char))
  | [], t => if t = [] ∨ t = ['\n'] then some [] else none
  | .lit u :: ps, t => if u.isPrefixOf t then capture ps (t.drop u.length) else none
  | .param n :: ps, t =>
      let value := t.takeWhile (· != '/')
      if value = [] then none else (capture ps (t.dropWhile (· != '/'))).map ((n, value) :: ·)

/-- The parameters of a template. -/
def names : List (Piece ν) → List ν
  | [] => []
  | .lit _ :: ps => names ps
  | .param n :: ps => n :: names ps

/-- The value of a parameter: a text without a slash, followed by a slash or by nothing. -/
structure IsValue (value rest : List Char) : Prop where
  ne_nil : value ≠ []
  noSlash : '/' ∉ value
  stops : ∀ c, rest.head? = some c → c = '/'

variable {ps : List (Piece ν)} {t u : List Char} {n : ν} {vs : List (ν × List Char)}

theorem capture_lit (h : capture (.lit u :: ps) t = some vs) :
    ∃ rest, t = u ++ rest ∧ capture ps rest = some vs := by
  unfold capture at h
  split_ifs at h with hprefix
  obtain ⟨rest, rfl⟩ := List.isPrefixOf_iff_prefix.mp hprefix
  rw [List.drop_left] at h
  exact ⟨rest, rfl, h⟩

theorem isValue_takeWhile (h : t.takeWhile (· != '/') ≠ []) :
    IsValue (t.takeWhile (· != '/')) (t.dropWhile (· != '/')) where
  ne_nil := h
  noSlash hmem := by simpa using List.mem_takeWhile_imp hmem
  stops c hc := by
    have hnot := List.head?_dropWhile_not (· != '/') t
    rw [hc] at hnot
    simpa using hnot

theorem capture_param (h : capture (.param n :: ps) t = some vs) :
    ∃ value rest ws, t = value ++ rest ∧ IsValue value rest ∧ capture ps rest = some ws ∧ vs = (n, value) :: ws := by
  simp only [capture] at h
  split_ifs at h with hvalue
  obtain ⟨ws, hws, heq⟩ := Option.map_eq_some_iff.mp h
  exact ⟨_, _, ws, (List.takeWhile_append_dropWhile).symm, isValue_takeWhile hvalue, hws, heq.symm⟩

theorem map_fst_capture (h : capture ps t = some vs) : vs.map Prod.fst = names ps := by
  induction ps generalizing t vs with
  | nil =>
      unfold capture at h
      split_ifs at h
      cases h
      rfl
  | cons p ps ih =>
      cases p with
      | lit u =>
          obtain ⟨rest, -, hrest⟩ := capture_lit h
          exact ih hrest
      | param n =>
          obtain ⟨value, rest, ws, -, -, hws, rfl⟩ := capture_param h
          exact congrArg (n :: ·) (ih hws)

end PathTemplate
