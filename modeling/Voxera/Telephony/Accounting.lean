import Voxera.Telephony.TwilioHandler

/-!
# The registry accounts for the live calls

* `Accounted` : one record for each live call and no other, records removed by their owners only, and no
  more live calls than the limit;
* `orderly` : the steps that keep it: no message whose event is literally `"stop"` while a call is up, and
  a call is registered under a new `call_sid` while there is room, once its `start` has returned;
* `Books` : the invariant, which holds between any two steps; `Books.move`, `Books.create`,
  `Books.register`, `Books.unregister` : the four things a handler does;
* `Books.step` : an orderly step keeps it.
-/

namespace Voxera.Telephony

open EventLoop

/-- Writing one element of a list changes what is selected from it by what is selected from that element. -/
theorem filterMap_set_perm {α β : Type*} (f : α → Option β) {l : List α} {n : Nat} {a : α} (b : α)
    (ha : l[n]? = some a) :
    ((f a).toList ++ (l.set n b).filterMap f).Perm ((f b).toList ++ l.filterMap f) := by
  induction l generalizing n with
  | nil => simp at ha
  | cons x l ih =>
      cases n with
      | zero =>
          have hx : x = a := by simpa using ha
          subst hx
          rw [List.set_cons_zero, List.filterMap_cons, List.filterMap_cons]
          cases f x <;> cases f b <;> simp [List.Perm.swap]
      | succ n =>
          have hrest := ih (n := n) (by simpa using ha)
          rw [List.set_cons_succ, List.filterMap_cons, List.filterMap_cons]
          cases f x with
          | none => exact hrest
          | some y =>
              have hcons := hrest.cons y
              exact (List.perm_middle.trans hcons).trans List.perm_middle.symm

namespace Server

/-- Every handler is between two messages, or gone. -/
def AtRest (s : Server) : Prop := ∀ h ∈ s.handlers, h.AtRest

/-- The registry's account of the calls. -/
structure Accounted (max : Nat) (s : Server) : Prop where
  /-- Between messages there is one record for each live call, and nothing else. -/
  records : s.AtRest → s.registry.snapshot.Perm (s.live.map Call.record)
  /-- Whoever removes a record has created its call. -/
  owner : ∀ n record, Event.removed n record ∈ s.trace →
    ∃ call, Event.created n call ∈ s.trace ∧ call.record = record
  limit : s.live.length ≤ max

/-- There is room for the call, and its `call_sid` is a key that is not in use. -/
def registrable (max : Nat) (s : Server) (call : Call) : Bool :=
  s.registry.activeCalls < max && call.callSid.key?.any (fun k => k ∉ s.registry)

end Server

/-- What the account asks of a step. -/
def orderly (max : Nat) (s : Server) : Label → Bool
  | .message n payload => !Server.isStop payload || (s.handlers[n]?.bind Handler.callSession).isNone
  | .resume n raised =>
      match s.handlers[n]? with
      | some ⟨_, _, some call, .starting _⟩ => !raised && s.registrable max call
      | _ => true
  | _ => true

/-- The account in the middle of the messages as well: a call that is being started has no record yet, and
one that is being stopped has none any more. -/
structure Books (max : Nat) (s : Server) : Prop where
  filed : s.registry.Filed
  records : s.registry.snapshot.Perm (s.live.map Call.record)
  limit : s.registry.activeCalls ≤ max
  created : ∀ n h call, s.handlers[n]? = some h → h.callSession = some call → Event.created n call ∈ s.trace
  owner : ∀ n record, Event.removed n record ∈ s.trace →
    ∃ call, Event.created n call ∈ s.trace ∧ call.record = record

namespace Books

variable {max n : Nat} {s t : Server} {h h' : Handler} {call : Call}

theorem init : Books max {} where
  filed := CallSessionRegistry.filed_empty
  records := List.Perm.nil
  limit := Nat.zero_le _
  created := by simp
  owner := by simp

theorem live_length (hb : Books max s) : s.live.length = s.registry.activeCalls := by
  have hlength := hb.records.length_eq
  rw [List.length_map, CallSessionRegistry.length_snapshot] at hlength
  exact hlength.symm

/-- The books balance, in particular while every handler is at rest. -/
theorem accounted (hb : Books max s) : s.Accounted max where
  records := fun _ => hb.records
  owner := hb.owner
  limit := by
    rw [hb.live_length]
    exact hb.limit

/-- The call that a handler has after one of its handlers was written. -/
theorem created_set (hb : Books max s) {trace : List Event} (htrace : ∀ e ∈ s.trace, e ∈ trace)
    (hcall : ∀ call, h'.callSession = some call → Event.created n call ∈ trace) (m : Nat) (g : Handler)
    (c : Call) (hg : (s.handlers.set n h')[m]? = some g) (hc : g.callSession = some c) :
    Event.created m c ∈ trace := by
  by_cases hm : n = m
  · subst hm
    obtain ⟨-, rfl⟩ : n < s.handlers.length ∧ h' = g := by
      rw [List.getElem?_set_self'] at hg
      cases hold : s.handlers[n]? with
      | none => simp [hold] at hg
      | some old => exact ⟨(List.getElem?_eq_some_iff.mp hold).1, by simpa [hold] using hg⟩
    exact hcall c hc
  · rw [List.getElem?_set_ne hm] at hg
    exact htrace _ (hb.created m g c hg hc)

theorem owner_mono {trace trace' : List Event} (htrace : ∀ e ∈ trace, e ∈ trace')
    (ho : ∀ n record, Event.removed n record ∈ trace → ∃ call, Event.created n call ∈ trace ∧ call.record = record)
    (n : Nat) (record : ActiveCallRecord) (hr : Event.removed n record ∈ trace) :
    ∃ call, Event.created n call ∈ trace' ∧ call.record = record := by
  obtain ⟨call, hcreated, hrecord⟩ := ho n record hr
  exact ⟨call, htrace _ hcreated, hrecord⟩

/-- A handler goes from one await to another, its live call the same. -/
theorem move (hb : Books max s) (hh : s.handlers[n]? = some h) (hlive : h'.live = h.live)
    (hcall : ∀ call, h'.callSession = some call → h.callSession = some call) : Books max (s.set n h') where
  filed := hb.filed
  records := by
    have hperm := filterMap_set_perm Handler.live h' hh
    rw [hlive] at hperm
    have hlive' : (s.set n h').live.Perm s.live := (List.perm_append_left_iff _).mp hperm
    exact hb.records.trans (hlive'.symm.map _)
  limit := hb.limit
  created := hb.created_set (fun _ he => he) (fun call hc => hb.created n h call hh (hcall call hc))
  owner := hb.owner

/-- A new call is not live before its `start` is over. -/
theorem create (hb : Books max s) (hh : s.handlers[n]? = some h) (hnone : h.live = none)
    (stream : TwilioStreamSession) (chunk : Option (List UInt8)) : Books max (s.create n h' stream chunk) where
  filed := hb.filed
  records := by
    have hperm := filterMap_set_perm Handler.live
      { h' with callSession := some ⟨stream.callSid, stream.streamSid, s.calls⟩, pc := .starting chunk } hh
    rw [hnone] at hperm
    exact hb.records.trans ((List.Perm.symm hperm).map _)
  limit := hb.limit
  created := by
    apply hb.created_set
    · intro e he
      exact List.mem_append_left _ he
    · intro call hc
      have heq : (⟨stream.callSid, stream.streamSid, s.calls⟩ : Call) = call := Option.some.inj hc
      rw [← heq]
      exact List.mem_append_right _ (List.mem_singleton.mpr rfl)
  owner := by
    intro m record hr
    have hr' : Event.removed m record ∈ s.trace := by simpa [Server.create] using hr
    exact owner_mono (fun e he => List.mem_append_left _ he) hb.owner m record hr'

/-- A call that is registered under a new key becomes live with its record. -/
theorem register (hb : Books max s) (hh : s.handlers[n]? = some h) (hnone : h.live = none)
    (hcall : h.callSession = some call) (hroom : s.registrable max call = true)
    (ht : s.register max n call.record = some t) : Books max (t.set n { h with pc := .receive }) := by
  obtain ⟨registry, hr, rfl⟩ := Option.map_eq_some_iff.mp ht
  obtain ⟨-, hkey⟩ := (Bool.and_eq_true _ _).mp hroom
  have hnew : ∀ k, call.record.callSid.key? = some k → k ∉ s.registry := by
    intro k hk
    have hk' : call.callSid.key? = some k := hk
    simpa [hk'] using hkey
  have hfresh : s.registry.get call.record.callSid = some none := by
    cases hk : call.record.callSid.key? with
    | none => simp [CallSessionRegistry.register, hk] at hr
    | some k =>
        have hlookup : s.registry.lookup k = none := AList.lookup_eq_none.mpr (hnew k hk)
        simp [CallSessionRegistry.get, hk, hlookup]
  obtain ⟨hlt, hfiled, hsnapshot⟩ := CallSessionRegistry.register_inv hr hb.filed hnew
  refine ⟨hfiled, ?_, ?_, ?_, ?_⟩
  · have hperm := filterMap_set_perm Handler.live { h with pc := .receive } hh
    have hlive : Handler.live { h with pc := .receive } = some call := hcall
    rw [hnone, hlive] at hperm
    have hrecords : (call.record :: s.registry.snapshot).Perm ((call :: s.live).map Call.record) :=
      hb.records.cons _
    show registry.snapshot.Perm _
    rw [hsnapshot]
    exact hrecords.trans (List.Perm.symm (hperm.map _))
  · show registry.activeCalls ≤ max
    have hlength := congrArg List.length hsnapshot
    rw [List.length_cons, CallSessionRegistry.length_snapshot, CallSessionRegistry.length_snapshot] at hlength
    omega
  · apply hb.created_set
    · intro e he
      exact List.mem_append_left _ he
    · intro c hc
      exact List.mem_append_left _ (hb.created n h c hh hc)
  · intro m record hr'
    have hr'' : Event.removed m record ∈ s.trace := by simpa [Server.set, hfresh] using hr'
    exact owner_mono (fun e he => List.mem_append_left _ he) hb.owner m record hr''

/-- A live call that its handler unregisters is not live any more, and the record was its own. -/
theorem unregister (hb : Books max s) (hh : s.handlers[n]? = some h) (hlive : h.live = some call)
    (hcall : h.callSession = some call) :
    ∃ t, s.unregister n call.callSid = some t ∧ ∀ h', h'.live = none →
      (∀ c, h'.callSession = some c → c = call) → Books max (t.set n h') := by
  have hmem : call.record ∈ s.registry.snapshot := by
    apply hb.records.mem_iff.mpr
    apply List.mem_map_of_mem
    exact List.mem_filterMap.mpr ⟨h, List.mem_of_getElem? hh, hlive⟩
  obtain ⟨e, he, heq⟩ := List.mem_map.mp hmem
  have hkey : call.callSid.key? = some e.1 := by
    have hfiled := hb.filed e he
    rwa [heq] at hfiled
  have hr : s.registry.unregister call.record.callSid = some (s.registry.erase e.1) :=
    Option.map_eq_some_iff.mpr ⟨e.1, hkey, rfl⟩
  obtain ⟨hget, hfiled, hsnapshot⟩ := CallSessionRegistry.unregister_inv hr hb.filed hmem
  refine ⟨_, Option.map_eq_some_iff.mpr ⟨_, hr, rfl⟩, fun h' hlive' hcall' => ?_⟩
  have hgone : s.registry.get call.callSid = some (some call.record) := hget
  refine ⟨hfiled, ?_, ?_, ?_, ?_⟩
  · have hperm := filterMap_set_perm Handler.live h' hh
    rw [hlive, hlive'] at hperm
    have hrecords := (hsnapshot.symm.trans hb.records).trans (List.Perm.symm (hperm.map Call.record))
    exact hrecords.cons_inv
  · have hlength := hsnapshot.length_eq
    rw [List.length_cons, CallSessionRegistry.length_snapshot, CallSessionRegistry.length_snapshot] at hlength
    have hlimit := hb.limit
    show CallSessionRegistry.activeCalls (s.registry.erase e.1) ≤ max
    omega
  · apply hb.created_set
    · intro e he
      exact List.mem_append_left _ he
    · intro c hc
      rw [hcall' c hc]
      exact List.mem_append_left _ (hb.created n h call hh hcall)
  · intro m record hr'
    rw [Server.set, hgone] at hr'
    have hr'' : Event.removed m record ∈ s.trace ∨ (m = n ∧ record = call.record) := by simpa using hr'
    obtain hold | ⟨rfl, rfl⟩ := hr''
    · exact owner_mono (fun e he => List.mem_append_left _ he) hb.owner m record hold
    · exact ⟨call, List.mem_append_left _ (hb.created m h call hh hcall), rfl⟩

/-! ## The pieces of a message -/

/-- The last piece: `h'` is the handler with the session that the message has left. -/
theorem teardown (hb : Books max s) (hh : s.handlers[n]? = some h) (hlive : h.live = h.callSession)
    (hcall : h'.callSession = h.callSession) : Books max (s.teardown n h') := by
  have hreceive : Books max (s.set n { h' with pc := .receive }) :=
    hb.move hh (hcall.trans hlive.symm) (fun c hc => hcall ▸ hc)
  unfold Server.teardown
  split
  · rename_i call _ hc
    obtain ⟨t, ht, hset⟩ := hb.unregister hh (hlive.trans (hcall.symm.trans hc)) (hcall.symm.trans hc)
    rw [ht]
    apply hset
    · rfl
    · intro c hc'
      exact Option.some.inj (hc'.symm.trans hc)
  · exact hreceive

theorem feed (hb : Books max s) (hh : s.handlers[n]? = some h) (hlive : h.live = h.callSession)
    (hcall : h'.callSession = h.callSession) (chunk : Option (List UInt8)) : Books max (s.feed n h' chunk) := by
  have hmove : ∀ pc, pc = .receive ∨ pc = .feeding → Books max (s.set n { h' with pc }) := by
    intro pc hpc
    refine hb.move hh ?_ (fun c hc => hcall ▸ hc)
    obtain rfl | rfl := hpc
    · exact hcall.trans hlive.symm
    · exact hcall.trans hlive.symm
  unfold Server.feed
  split
  · split
    · exact hmove _ (Or.inl rfl)
    · exact hmove _ (Or.inr rfl)
  · exact hb.teardown hh hlive hcall

theorem feed_set (s : Server) (n : Nat) (h h' : Handler) (chunk : Option (List UInt8)) :
    (s.set n h').feed n h chunk = s.feed n h chunk := by
  unfold Server.feed Server.teardown Server.unregister Server.set
  split
  · split <;> simp_all
  · split
    · cases s.registry.unregister _ <;> simp
    · simp

/-- The call is registered once its `start` has returned, and the message goes on. -/
theorem onStarted (hb : Books max s) (hh : s.handlers[n]? = some h) (hnone : h.live = none)
    (hcall : h.callSession = some call) (hroom : s.registrable max call = true) (chunk : Option (List UInt8)) :
    Books max (s.onStarted max n h chunk) := by
  obtain ⟨hlt, hkey⟩ := (Bool.and_eq_true _ _).mp hroom
  obtain ⟨k, hk, -⟩ := (Option.any_eq_true _ _).mp hkey
  obtain ⟨t, ht⟩ : ∃ t, s.register max n call.record = some t := by
    have hlt' : ¬ max ≤ s.registry.activeCalls := not_le.mpr (of_decide_eq_true hlt)
    have hk' : call.record.callSid.key? = some k := hk
    apply Option.isSome_iff_exists.mp
    simp [Server.register, CallSessionRegistry.register, if_neg hlt', hk']
  have hregister := hb.register hh hnone hcall hroom ht
  have hhandlers : t.handlers = s.handlers := by
    obtain ⟨_, _, rfl⟩ := Option.map_eq_some_iff.mp ht
    rfl
  have hh' : (t.set n { h with pc := .receive }).handlers[n]? = some { h with pc := .receive } := by
    show (t.handlers.set n _)[n]? = _
    rw [hhandlers]
    exact List.getElem?_set_self (List.getElem?_eq_some_iff.mp hh).1
  have hsame : h.callSession = ({ h with pc := .receive } : Handler).callSession := rfl
  have hfeed := hregister.feed hh' rfl hsame chunk
  rw [feed_set] at hfeed
  simpa only [Server.onStarted, hcall, ht] using hfeed

/-- The rest of a message whose event is `"stop"`, when there is no call. -/
theorem onStopped (hb : Books max s) (hh : s.handlers[n]? = some h) (hnone : h.live = none) (payload : Json) :
    Books max (s.onStopped n h payload) := by
  unfold Server.onStopped
  split
  · exact hb.move hh hnone.symm (by simp)
  · exact hb.move hh hnone.symm (by simp)

theorem onSession (hb : Books max s) (hh : s.handlers[n]? = some h) (hlive : h.live = h.callSession)
    (hcall : h'.callSession = h.callSession) (chunk : Option (List UInt8)) : Books max (s.onSession n h' chunk) := by
  unfold Server.onSession
  split
  · rename_i stream _ hnone
    have hnone' : h.live = none := hlive.trans (hcall.symm.trans hnone)
    split
    · have hlive' : Handler.live { h' with pc := .refusing } = h.live := by
        rw [hnone']
        exact hnone
      exact hb.move hh hlive' (fun c hc => hcall ▸ hc)
    · exact hb.create hh hnone' stream chunk
  · exact hb.feed hh hlive hcall chunk

theorem onMessage (hb : Books max s) (hh : s.handlers[n]? = some h) (hpc : h.pc = .receive) (payload : Json)
    (hstop : Server.isStop payload = true → h.callSession = none) : Books max (s.onMessage n h payload) := by
  have hlive : h.live = h.callSession := by simp [Handler.live, hpc]
  unfold Server.onMessage
  split
  · exact hb
  split
  · exact hb
  split
  · rename_i hs
    have hnone := hstop hs
    rw [hnone]
    exact hb.onStopped hh (hlive.trans hnone) payload
  · split
    · exact hb
    · apply hb.onSession hh hlive
      rfl

theorem leave (hb : Books max s) (hh : s.handlers[n]? = some h) (hpc : h.pc = .receive) :
    Books max (s.leave n h) := by
  have hlive : h.live = h.callSession := by simp [Handler.live, hpc]
  unfold Server.leave
  split
  · rename_i hcall
    exact hb.move hh (by rw [hlive, hcall]; rfl) (fun c hc => hc)
  · rename_i call hcall
    obtain ⟨t, ht, hset⟩ := hb.unregister hh (hlive.trans hcall) hcall
    rw [ht]
    apply hset
    · rfl
    · intro c hc
      exact Option.some.inj (hc.symm.trans hcall)

theorem onResume (hb : Books max s) (hh : s.handlers[n]? = some h) {raised : Bool}
    (hok : ∀ chunk call, h.pc = .starting chunk → h.callSession = some call →
      raised = false ∧ s.registrable max call = true)
    (ht : s.onResume max n h raised = some t) : Books max t := by
  -- a handler that goes on with the call it has, or with none
  have hkeep : ∀ pc, Handler.live { h with pc } = h.live → Books max (s.set n { h with pc }) :=
    fun pc hlive => hb.move hh hlive (fun c hc => hc)
  have hgone : ∀ pc, h.live = none → Books max (s.set n { h with callSession := none, pc }) := by
    intro pc hnone
    refine hb.move hh ?_ (by simp)
    rw [hnone]
    cases pc <;> rfl
  unfold Server.onResume at ht
  split at ht
  all_goals cases ht
  all_goals rename_i hpc
  · exact hkeep .done (by simp [Handler.live, hpc])
  · exact hkeep .receive (by simp [Handler.live, hpc])
  · rename_i chunk
    have hnone : h.live = none := by simp [Handler.live, hpc]
    cases hcall : h.callSession with
    | none =>
        have hstarted : s.onStarted max n h chunk = s.set n { h with pc := .receive } := by
          simp only [Server.onStarted, hcall]
        rw [hstarted]
        apply hkeep
        rw [hnone]
        exact hcall
    | some call => exact hb.onStarted hh hnone hcall (hok chunk call hpc hcall).2 chunk
  · rename_i chunk
    cases hcall : h.callSession with
    | none =>
        rw [← hcall]
        exact hkeep .receive (by simp [Handler.live, hpc, hcall])
    | some call => cases (hok chunk call hpc hcall).1
  · exact hb.teardown hh (by simp [Handler.live, hpc]) rfl
  · exact hkeep .receive (by simp [Handler.live, hpc])
  · exact hb.onStopped hh (by simp [Handler.live, hpc]) _
  · exact hgone .receive (by simp [Handler.live, hpc])
  · exact hgone .done (by simp [Handler.live, hpc])

/-- **An orderly step keeps the books.** -/
theorem step {l : Label} (hb : Books max s) (hl : orderly max s l = true) (ht : step max s l = some t) :
    Books max t := by
  unfold Telephony.step at ht
  split at ht
  · rename_i expected
    cases ht
    refine ⟨hb.filed, ?_, hb.limit, ?_, hb.owner⟩
    · show s.registry.snapshot.Perm (List.map Call.record (List.filterMap Handler.live (s.handlers ++ _)))
      have hlast : List.filterMap Handler.live [{ expectedCallSid := expected }] = [] := rfl
      rw [List.filterMap_append, hlast, List.append_nil]
      exact hb.records
    · intro m h call hm hcall
      have hm' : (s.handlers ++ [{ expectedCallSid := expected }])[m]? = some h := hm
      rw [List.getElem?_append] at hm'
      split at hm'
      · exact hb.created m h call hm' hcall
      · have hnew : h = { expectedCallSid := expected } := List.mem_singleton.mp (List.mem_of_getElem? hm')
        rw [hnew] at hcall
        cases hcall
  · rename_i m payload
    split at ht
    · rename_i expected session call hm
      cases ht
      apply hb.onMessage hm rfl
      intro hstop
      simpa [orderly, hstop, hm] using hl
    · cases ht
  · split at ht
    · cases ht
      exact hb
    · cases ht
  · split at ht
    · rename_i hm
      cases ht
      exact hb.leave hm rfl
    · cases ht
  · split at ht
    · rename_i m raised h hm
      refine hb.onResume hm ?_ ht
      intro chunk call hpc hcall
      obtain ⟨expected, session, call', pc⟩ := h
      simp only at hpc hcall
      subst hpc hcall
      simpa [orderly, hm] using hl
    · cases ht

end Books

/-- In a run of orderly steps the registry accounts for the live calls at every moment. -/
theorem accounted_of_orderly (max : Nat) {ls : List Label} {t : Server}
    (h : Run (step max) (fun s l => orderly max s l = true) {} ls t) : t.Accounted max := by
  have hbooks : Books max t := h.invariant Books.init (fun hb hl hu => hb.step hl hu)
  exact hbooks.accounted

/-! ## Two runs -/

instance (h : Handler) : Decidable h.AtRest := by
  unfold Handler.AtRest
  split <;> infer_instance

instance (s : Server) : Decidable s.AtRest := by
  unfold Server.AtRest
  infer_instance

/-- A message with the event, and the `call_sid` for a `"start"`. -/
def eventMessage (event callSid : String) : Json :=
  .obj [("event".toList, .str event.toList), ("start".toList, .obj [("callSid".toList, .str callSid.toList)])]

/-- Two calls; the first one's stream is stopped under another spelling, the second one hangs up, and a
third connection takes the first `call_sid` again. -/
def threeCalls : List Label :=
  [.connect none, .connect none,
    .message 0 (eventMessage "start" "CA1"), .message 1 (eventMessage "start" "CA2"),
    .resume 1 false, .resume 0 false, .garbled 0,
    .message 0 (eventMessage " Stop" ""), .resume 0 false, .disconnect 1, .resume 1 false,
    .connect none, .message 2 (eventMessage "start" "CA1"), .resume 2 false]

theorem accounted_threeCalls :
    ∃ t, Run (step 2) (fun s l => orderly 2 s l = true) {} threeCalls t ∧
      (t.AtRest ∧ t.registry.activeCalls = 1) ∧ t.Accounted 2 := by
  have hexec : (exec (step 2) (fun s l => orderly 2 s l = true) {} threeCalls).any
      (fun t => t.AtRest && t.registry.activeCalls = 1) = true := by decide +kernel
  obtain ⟨t, hrun, hrest⟩ := Run.exists_of_exec hexec
  exact ⟨t, hrun, by simpa using hrest, accounted_of_orderly 2 hrun⟩

/-- A call that the stream's `"stop"` ends. -/
def stoppedCall : List Label :=
  [.connect none, .message 0 (eventMessage "start" "CA1"), .resume 0 false, .message 0 (eventMessage "stop" ""),
    .resume 0 false]

/-- The call is over, and its record stays in the registry. -/
theorem stoppedCall_not_accounted :
    ∃ t, Run (step 1) (fun _ _ => True) {} stoppedCall t ∧ ¬ t.Accounted 1 := by
  have hexec : (exec (step 1) (fun _ _ => True) {} stoppedCall).any
      (fun t => t.AtRest && t.registry.activeCalls != t.live.length) = true := by decide +kernel
  obtain ⟨t, hrun, hrest⟩ := Run.exists_of_exec hexec
  obtain ⟨hat, hne⟩ : t.AtRest ∧ t.registry.activeCalls ≠ t.live.length := by simpa using hrest
  refine ⟨t, hrun, fun haccounted => hne ?_⟩
  have hlength := (haccounted.records hat).length_eq
  rwa [List.length_map, CallSessionRegistry.length_snapshot] at hlength

end Voxera.Telephony
