import Voxera.Telephony.TwilioStream
import Mathlib.Data.List.AList

/-!
# The registry of active calls

The `dict` of the active calls. No method of the registry awaits anything while it holds the registry's
lock, so that the lock is free whenever a task runs and each method is one step of its caller. The times
and the state that `heartbeat` and `update_state` write into a record are left out: nothing that a call
or the limit depends on reads them.

* `Key`, `Json.key?` : what the `dict` compares, and which values it takes;
* `CallSessionRegistry.register`, `CallSessionRegistry.unregister` (`none`: an error is raised);
* `register_inv`, `unregister_inv` : what they do to the records.
-/

namespace Voxera.Telephony

/-- A key of a `dict`: `True == 1` and `False == 0`. -/
inductive Key where
  | none
  | num (q : ℚ)
  | constant (c : Constant)
  | str (t : Text)
  deriving DecidableEq, Repr

/-- The key a value is; hashing a `list` or a `dict` is a `TypeError`. -/
def Json.key? : Json → Option Key
  | null => some .none
  | bool b => some (.num (if b then 1 else 0))
  | num q => some (.num q)
  | constant c => some (.constant c)
  | str t => some (.str t)
  | arr _ => Option.none
  | obj _ => Option.none

/-- `ActiveCallRecord`; the conversations are numbered. -/
structure ActiveCallRecord where
  callSid : Json
  streamSid : Json
  conversationId : Nat

/-- `CallSessionRegistry._sessions`. -/
abbrev CallSessionRegistry := AList (fun _ : Key => ActiveCallRecord)

namespace CallSessionRegistry

/-- `len(self._sessions)`. -/
def activeCalls (r : CallSessionRegistry) : Nat := r.entries.length

/-- `snapshot`. -/
def snapshot (r : CallSessionRegistry) : List ActiveCallRecord := r.entries.map Sigma.snd

/-- `self._sessions.get(call_sid)`; `none` when the value is no key. -/
def get (r : CallSessionRegistry) (callSid : Json) : Option (Option ActiveCallRecord) :=
  callSid.key?.map r.lookup

/-- `register`, under the limit `max`. -/
def register (max : Nat) (r : CallSessionRegistry) (record : ActiveCallRecord) : Option CallSessionRegistry :=
  if max ≤ r.activeCalls then none
  else record.callSid.key?.map (fun k => r.insert k record)

/-- `unregister`. -/
def unregister (r : CallSessionRegistry) (callSid : Json) : Option CallSessionRegistry :=
  callSid.key?.map r.erase

/-- Every record is filed under its own `call_sid`. -/
def Filed (r : CallSessionRegistry) : Prop := ∀ e ∈ r.entries, e.2.callSid.key? = some e.1

variable {max : Nat} {r r' : CallSessionRegistry} {record : ActiveCallRecord} {k : Key}

@[simp] theorem length_snapshot (r : CallSessionRegistry) : r.snapshot.length = r.activeCalls := by
  simp [snapshot, activeCalls]

/-- A record that is filed is found under its `call_sid`. -/
theorem Filed.lookup (h : r.Filed) (hr : record ∈ r.snapshot) (hk : record.callSid.key? = some k) :
    r.lookup k = some record := by
  obtain ⟨⟨k', record'⟩, he, heq⟩ := List.mem_map.mp hr
  have heq' : record' = record := heq
  subst heq'
  have hk' : record'.callSid.key? = some k' := h _ he
  have hkk : k' = k := Option.some.inj (hk'.symm.trans hk)
  subst hkk
  exact AList.mem_lookup_iff.mpr he

theorem filed_empty : Filed (∅ : CallSessionRegistry) := by
  intro e he
  simp at he

/-- A call registered under a new key is one more record. -/
theorem register_inv (h : r.register max record = some r') (hf : r.Filed)
    (hnew : ∀ k, record.callSid.key? = some k → k ∉ r) :
    r.activeCalls < max ∧ r'.Filed ∧ r'.snapshot = record :: r.snapshot := by
  unfold register at h
  split at h
  · cases h
  · rename_i hlt
    obtain ⟨k, hk, rfl⟩ := Option.map_eq_some_iff.mp h
    have hentries : (r.insert k record).entries = ⟨k, record⟩ :: r.entries :=
      AList.entries_insert_of_notMem (hnew k hk)
    refine ⟨not_le.mp hlt, ?_, by rw [snapshot, hentries, List.map_cons]; rfl⟩
    intro e he
    rw [hentries, List.mem_cons] at he
    obtain rfl | he := he
    · exact hk
    · exact hf e he

/-- A call taken out of the registry is one record less, its own. -/
theorem unregister_inv (h : r.unregister record.callSid = some r') (hf : r.Filed) (hr : record ∈ r.snapshot) :
    r.get record.callSid = some (some record) ∧ r'.Filed ∧ r.snapshot.Perm (record :: r'.snapshot) := by
  obtain ⟨k, hk, rfl⟩ := Option.map_eq_some_iff.mp h
  have hlookup := hf.lookup hr hk
  have hmem : k ∈ r.entries.keys := AList.mem_keys.mp (AList.lookup_isSome.mp (by simp [hlookup]))
  obtain ⟨record', l₁, l₂, -, hsplit, herase⟩ := List.exists_of_kerase hmem
  have hmem' : ⟨k, record'⟩ ∈ r.entries := by
    rw [hsplit]
    exact List.mem_append_right _ List.mem_cons_self
  have heq : record' = record := by
    have hlookup' : r.lookup k = some record' := AList.mem_lookup_iff.mpr hmem'
    exact Option.some.inj (hlookup'.symm.trans hlookup)
  subst heq
  have hentries : (r.erase k).entries = l₁ ++ l₂ := herase
  refine ⟨by simp [get, hk, hlookup], ?_, ?_⟩
  · intro e he
    rw [hentries, List.mem_append] at he
    apply hf
    rw [hsplit, List.mem_append, List.mem_cons]
    exact he.imp id Or.inr
  · unfold snapshot
    rw [hentries, hsplit, List.map_append, List.map_cons, List.map_append]
    exact List.perm_middle

end CallSessionRegistry

end Voxera.Telephony
