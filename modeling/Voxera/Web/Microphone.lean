import Voxera.Web.MicCapture

/-!
# A microphone is not left open

* `Start.Idle` : what the browser holds for a call whose graph is not stored; `Start.Running` : for the one whose graph is;
* `MicCapture.Sound` : the invariant, kept by `put`, `connect`, `stop`, `enter` and `message`;
* `sound_of_run` : it holds in every run;
* `released_of_run` : who holds a live microphone; `heard_of_run` : which calls the callbacks hear of.
-/

namespace Voxera.Web

open EventLoop Since

namespace Start

variable {st : Start}

/-- Nothing is held for the call any more. -/
structure Released (st : Start) : Prop where
  stream : ∀ stream ∈ st.stream, stream.live = false ∧ stream.listening = false
  ctx : ∀ ctx ∈ st.ctx, ctx.ended = true
  node : ∀ node ∈ st.node, node.listening = false

/-- The call has a stream to which nothing listens, and no graph. -/
structure Holding (st : Start) : Prop where
  stream : ∀ stream ∈ st.stream, stream.listening = false
  node : st.node = none

/-- What the browser holds for a call whose graph is not stored. -/
def Idle (st : Start) : Prop := if st.pc.inFlight then st.Holding ∧ (st.pc = .getUserMedia → st.stream = none ∧ st.ctx = none)
  else st.Released

/-- The graph of the call is stored. -/
structure Running (st : Start) : Prop where
  pc : st.pc = .settled none
  stream : ∀ stream ∈ st.stream, stream.listening = true
  node : ∀ node ∈ st.node, node.listening = true

theorem live_stop (stream : MediaStream) : stream.stop.live = false := by
  simp [MediaStream.stop, MediaStream.live]

theorem ended_close (ctx : CaptureContext) : ctx.close.ended = true := by
  unfold CaptureContext.close CaptureContext.ended
  split <;> simp_all

theorem Released.withPc (h : st.Released) (pc : Pc) : ({ st with pc } : Start).Released := ⟨h.stream, h.ctx, h.node⟩

theorem Holding.released_abandon (h : st.Holding) : st.abandon.Released := by
  refine ⟨?_, ?_, ?_⟩
  · intro stream hs
    obtain ⟨old, hold, rfl⟩ := Option.map_eq_some_iff.mp hs
    exact ⟨live_stop old, h.stream old hold⟩
  · intro ctx hc
    obtain ⟨old, -, rfl⟩ := Option.map_eq_some_iff.mp hc
    exact ended_close old
  · intro node hn
    rw [show st.abandon.node = none from h.node] at hn
    cases hn

theorem Holding.idle_fail (h : st.Holding) (err : Thrown) : (st.fail err).Idle := h.released_abandon.withPc _

theorem Holding.idle_overtaken (h : st.Holding) : st.overtaken.Idle := h.released_abandon.withPc _

theorem released_teardown (st : Start) : st.teardown.Released := by
  refine ⟨?_, ?_, ?_⟩
  · intro stream hs
    obtain ⟨old, -, rfl⟩ := Option.map_eq_some_iff.mp hs
    exact ⟨live_stop old, rfl⟩
  · intro ctx hc
    obtain ⟨old, -, rfl⟩ := Option.map_eq_some_iff.mp hc
    exact ended_close old
  · intro node hn
    obtain ⟨old, -, rfl⟩ := Option.map_eq_some_iff.mp hn
    rfl

theorem Released.idle (h : st.Released) (hpc : st.pc.inFlight = false) : st.Idle := by
  unfold Idle
  rw [hpc]
  exact h

theorem Running.idle_teardown (h : st.Running) : st.teardown.Idle :=
  (released_teardown st).idle (by rw [show st.teardown.pc = st.pc from rfl, h.pc]; rfl)

theorem Idle.holding (h : st.Idle) (hpc : st.pc.inFlight = true) : st.Holding := by
  unfold Idle at h
  rw [if_pos hpc] at h
  exact h.1

theorem Idle.released (h : st.Idle) (hpc : st.pc.inFlight = false) : st.Released := by
  unfold Idle at h
  rw [hpc] at h
  exact h

theorem Idle.node (h : st.Idle) {node : WorkletNode} (hn : st.node = some node) : node.listening = false := by
  cases hpc : st.pc.inFlight with
  | true =>
      rw [(h.holding hpc).node] at hn
      cases hn
  | false => exact (h.released hpc).node node hn

theorem Idle.stream (h : st.Idle) {stream : MediaStream} (hs : st.stream = some stream) : stream.listening = false := by
  cases hpc : st.pc.inFlight with
  | true => exact (h.holding hpc).stream stream hs
  | false => exact ((h.released hpc).stream stream hs).2

/-- A track ends or the context changes: nothing else is held than before. -/
theorem Idle.change {st' : Start} (h : st.Idle) (hpc : st'.pc = st.pc) (hnode : st'.node = st.node)
    (hstream : ∀ new ∈ st'.stream, ∃ old ∈ st.stream, new.listening = old.listening ∧ (old.live = false → new.live = false))
    (hctx : ∀ new ∈ st'.ctx, ∃ old ∈ st.ctx, old.ended = true → new.ended = true) : st'.Idle := by
  unfold Idle
  cases hflight : st.pc.inFlight with
  | true =>
      rw [hpc, if_pos hflight]
      have hhold := h.holding hflight
      unfold Idle at h
      rw [if_pos hflight] at h
      refine ⟨⟨?_, hnode.trans hhold.node⟩, fun heq => ⟨?_, ?_⟩⟩
      · intro new hnew
        obtain ⟨old, hold, hlisten, -⟩ := hstream new hnew
        rw [hlisten]
        exact hhold.stream old hold
      · refine Option.eq_none_iff_forall_not_mem.mpr (fun new hnew => ?_)
        obtain ⟨old, hold, -⟩ := hstream new hnew
        rw [(h.2 heq).1] at hold
        cases hold
      · refine Option.eq_none_iff_forall_not_mem.mpr (fun new hnew => ?_)
        obtain ⟨old, hold, -⟩ := hctx new hnew
        rw [(h.2 heq).2] at hold
        cases hold
  | false =>
      rw [hpc, hflight]
      have hrel := h.released hflight
      refine ⟨?_, ?_, ?_⟩
      · intro new hnew
        obtain ⟨old, hold, hlisten, hlive⟩ := hstream new hnew
        exact ⟨hlive (hrel.stream old hold).1, hlisten.trans (hrel.stream old hold).2⟩
      · intro new hnew
        obtain ⟨old, hold, hended⟩ := hctx new hnew
        exact hended (hrel.ctx old hold)
      · rw [hnode]
        exact hrel.node

theorem running_connected (st : Start) : st.connected.Running := by
  refine ⟨rfl, ?_, ?_⟩
  · intro stream hs
    obtain ⟨old, -, rfl⟩ := Option.map_eq_some_iff.mp hs
    rfl
  · intro node hn
    obtain ⟨old, -, rfl⟩ := Option.map_eq_some_iff.mp hn
    rfl

theorem Released.holds_eq_false (h : st.Released) : st.holds = false := by
  unfold holds
  rw [Bool.or_eq_false_iff, Option.any_eq_false, Option.any_eq_false]
  exact ⟨fun stream hs => by simp [(h.stream stream hs).1], fun ctx hc => by simp [h.ctx ctx hc]⟩

end Start

namespace MicCapture

variable {m m' : MicCapture} {call : ℕ} {st st' : Start}

/-- What the callbacks hear of a call. -/
def heard? : MicEvent → Option ℕ
  | .frame call _ | .level call _ | .ended call _ => some call
  | _ => none

/-- Behind a `stop` the callbacks only hear of calls that began behind it. -/
def Heard (trace : List MicEvent) : Prop :=
  ∀ front back, trace = front ++ .stopped :: back → ∀ e ∈ back, ∀ call, heard? e = some call → .started call ∈ back

theorem Heard.concat {trace : List MicEvent} {e : MicEvent} (h : Heard trace)
    (he : ∀ call, heard? e = some call → .started call ∈ since isStopped trace) : Heard (trace ++ [e]) := by
  intro front back heq e' he' call hcall
  rcases List.eq_nil_or_concat back with rfl | ⟨back', last, rfl⟩
  · cases he'
  · rw [List.concat_eq_append] at heq he' ⊢
    rw [← List.cons_append, ← List.append_assoc] at heq
    obtain ⟨rfl, hlast⟩ := List.append_inj' heq rfl
    cases hlast
    refine List.mem_append_left _ ?_
    rcases List.mem_append.mp he' with he' | he'
    · exact h front back' rfl e' he' call hcall
    · cases List.mem_singleton.mp he'
      exact (since_suffix_of_mark rfl front back').subset (he call hcall)

theorem Heard.silent {trace : List MicEvent} {e : MicEvent} (h : Heard trace) (he : heard? e = none) : Heard (trace ++ [e]) :=
  h.concat (fun call hcall => by rw [he] at hcall; cases hcall)

structure Sound (m : MicCapture) : Prop where
  idle : ∀ (call : ℕ) (st : Start), m.starts[call]? = some st → m.graph ≠ some call → st.Idle
  running : ∀ call, m.graph = some call → ∃ st, m.starts[call]? = some st ∧ st.Running
  numbered : ∀ call, .started call ∈ m.trace → call < m.starts.length
  bounded : ∀ (call : ℕ) (st : Start), m.starts[call]? = some st → st.generation ≤ m.generation
  /-- A call with the last generation is the last one, and nothing runs yet. -/
  current : ∀ (call : ℕ) (st : Start), m.starts[call]? = some st → st.pc.inFlight = true → st.generation = m.generation →
    m.graph = none ∧ call + 1 = m.starts.length ∧ .started call ∈ since isStopped m.trace
  overtaken : ∀ (call : ℕ) (st : Start), m.starts[call]? = some st → st.pc.inFlight = true → st.generation ≠ m.generation → m.Overtaken call
  fresh : ∀ call, m.graph = some call → .started call ∈ since isStopped m.trace
  resolved : ∀ (call : ℕ) (st : Start), m.starts[call]? = some st → st.pc = .settled none ∨ st.pc = .abandoning none →
    m.graph.isSome ∨ m.Overtaken call
  heard : Heard m.trace

section Steps

theorem getElem?_put (hlt : call < m.starts.length) {i : ℕ} {st₁ : Start} (hi : (m.put call st').starts[i]? = some st₁) :
    i = call ∧ st₁ = st' ∨ i ≠ call ∧ m.starts[i]? = some st₁ := by
  by_cases hic : i = call
  · subst hic
    rw [put, List.getElem?_set_self hlt] at hi
    exact Or.inl ⟨rfl, (Option.some.inj hi).symm⟩
  · rw [put, List.getElem?_set_ne (Ne.symm hic)] at hi
    exact Or.inr ⟨hic, hi⟩

/-- A call goes on, and holds what its place allows. -/
theorem Sound.put (h : m.Sound) (hst : m.starts[call]? = some st)
    (hgraph : m.graph = some call ∧ st'.Running ∨ m.graph ≠ some call ∧ st'.Idle)
    (hgen : st'.generation = st.generation) (hpc : st'.pc.inFlight = true → st.pc.inFlight = true)
    (hres : st'.pc = .settled none ∨ st'.pc = .abandoning none → m.graph.isSome ∨ m.Overtaken call) : (m.put call st').Sound := by
  have hlt : call < m.starts.length := (List.getElem?_eq_some_iff.mp hst).1
  have hlength : (m.put call st').starts.length = m.starts.length := List.length_set
  have hover : ∀ i, (m.put call st').Overtaken i ↔ m.Overtaken i := by
    intro i
    unfold Overtaken
    rw [hlength]
    exact Iff.rfl
  refine ⟨?_, ?_, ?_, ?_, ?_, ?_, h.fresh, ?_, h.heard⟩
  · intro i st₁ hi hne
    rcases getElem?_put hlt hi with ⟨rfl, rfl⟩ | ⟨-, hi⟩
    · exact (hgraph.resolve_left (fun hrun => hne hrun.1)).2
    · exact h.idle i st₁ hi hne
  · intro i hi
    by_cases hic : i = call
    · subst hic
      exact ⟨st', List.getElem?_set_self hlt, (hgraph.resolve_right (fun hidle => hidle.1 hi)).2⟩
    · obtain ⟨st₁, hst₁, hrun⟩ := h.running i hi
      exact ⟨st₁, (List.getElem?_set_ne (Ne.symm hic)).trans hst₁, hrun⟩
  · intro i hi
    rw [hlength]
    exact h.numbered i hi
  · intro i st₁ hi
    rcases getElem?_put hlt hi with ⟨rfl, rfl⟩ | ⟨-, hi⟩
    · exact hgen ▸ h.bounded i st hst
    · exact h.bounded i st₁ hi
  · intro i st₁ hi hflight hcur
    rw [hlength]
    rcases getElem?_put hlt hi with ⟨rfl, rfl⟩ | ⟨-, hi⟩
    · exact h.current i st hst (hpc hflight) (hgen ▸ hcur)
    · exact h.current i st₁ hi hflight hcur
  · intro i st₁ hi hflight hcur
    rw [hover]
    rcases getElem?_put hlt hi with ⟨rfl, rfl⟩ | ⟨-, hi⟩
    · exact h.overtaken i st hst (hpc hflight) (hgen ▸ hcur)
    · exact h.overtaken i st₁ hi hflight hcur
  · intro i st₁ hi hdone
    rw [hover]
    rcases getElem?_put hlt hi with ⟨rfl, rfl⟩ | ⟨-, hi⟩
    · exact hres hdone
    · exact h.resolved i st₁ hi hdone

/-- A call that holds a stream does not have its graph stored. -/
theorem Sound.graph_ne (h : m.Sound) (hst : m.starts[call]? = some st) (hpc : st.pc ≠ .settled none) : m.graph ≠ some call := by
  intro hgraph
  obtain ⟨st₁, hst₁, hrun⟩ := h.running call hgraph
  rw [hst] at hst₁
  cases hst₁
  exact hpc hrun.pc

theorem ne_settled_of_inFlight (hpc : st.pc.inFlight = true) : st.pc ≠ .settled none := by
  intro heq
  rw [heq] at hpc
  cases hpc

/-- A call fails. -/
theorem Sound.fail (h : m.Sound) (hst : m.starts[call]? = some st) (hpc : st.pc.inFlight = true)
    (hhold : st'.Holding) (hgen : st'.generation = st.generation) (err : Thrown) : (m.put call (st'.fail err)).Sound :=
  h.put hst (Or.inr ⟨h.graph_ne hst (ne_settled_of_inFlight hpc), hhold.idle_fail err⟩) hgen (fun hflight => nomatch hflight)
    (by rintro (hdone | hdone) <;> cases hdone)

/-- A call finds that it has been overtaken. -/
theorem Sound.putOvertaken (h : m.Sound) (hst : m.starts[call]? = some st) (hpc : st.pc.inFlight = true)
    (hhold : st'.Holding) (hgen : st'.generation = st.generation) (hne : st'.generation ≠ m.generation) :
    (m.put call st'.overtaken).Sound :=
  h.put hst (Or.inr ⟨h.graph_ne hst (ne_settled_of_inFlight hpc), hhold.idle_overtaken⟩) hgen (fun hflight => nomatch hflight)
    (fun _ => Or.inr (h.overtaken call st hst hpc (hgen ▸ hne)))

/-- The graph of a call is complete and is stored. -/
theorem Sound.connect (h : m.Sound) (hst : m.starts[call]? = some st) (hpc : st.pc.inFlight = true)
    (hgen : st.generation = m.generation) : ({ m.put call st.connected with graph := some call } : MicCapture).Sound := by
  obtain ⟨hgraph, hlast, hfresh⟩ := h.current call st hst hpc hgen
  have hlt : call < m.starts.length := (List.getElem?_eq_some_iff.mp hst).1
  have hlength : (m.starts.set call st.connected).length = m.starts.length := List.length_set
  refine ⟨?_, ?_, ?_, ?_, ?_, ?_, ?_, (fun _ _ _ _ => Or.inl rfl), h.heard⟩
  · intro i st₁ hi hne
    rcases getElem?_put hlt hi with ⟨rfl, -⟩ | ⟨-, hi⟩
    · exact absurd rfl hne
    · exact h.idle i st₁ hi (by rw [hgraph]; exact nofun)
  · rintro i ⟨⟩
    exact ⟨st.connected, List.getElem?_set_self hlt, Start.running_connected st⟩
  · intro i hi
    exact hlength.symm ▸ h.numbered i hi
  · intro i st₁ hi
    rcases getElem?_put hlt hi with ⟨rfl, rfl⟩ | ⟨-, hi⟩
    · exact h.bounded i st hst
    · exact h.bounded i st₁ hi
  · intro i st₁ hi hflight hcur
    rcases getElem?_put hlt hi with ⟨rfl, rfl⟩ | ⟨hne, hi⟩
    · cases hflight
    · exact absurd (Nat.succ.inj ((h.current i st₁ hi hflight hcur).2.1.trans hlast.symm)) hne
  · intro i st₁ hi hflight hcur
    rcases getElem?_put hlt hi with ⟨rfl, rfl⟩ | ⟨-, hi⟩
    · cases hflight
    · have hover := h.overtaken i st₁ hi hflight hcur
      unfold Overtaken at hover ⊢
      exact hlength.symm ▸ hover
  · rintro i ⟨⟩
    exact hfresh

theorem not_mem_since_stopped (trace : List MicEvent) (e : MicEvent) : e ∉ since isStopped (trace ++ [.stopped]) := by
  rw [since_concat_of_pos rfl]
  exact List.not_mem_nil

theorem stop_of_idle (hgraph : m.graph = none) :
    m.stop = { m with generation := m.generation + 1, trace := m.trace ++ [.stopped] } := by
  unfold stop teardown emit
  dsimp only
  rw [hgraph]

theorem stop_of_running (hgraph : m.graph = some call) (hst : m.starts[call]? = some st) :
    m.stop = { m.put call st.teardown with generation := m.generation + 1, graph := none, trace := m.trace ++ [.stopped] } := by
  have hmodify : m.starts.modify call Start.teardown = m.starts.set call st.teardown := by
    refine List.ext_getElem? (fun i => ?_)
    rw [List.getElem?_modify, List.getElem?_set]
    split
    · rename_i heq
      subst heq
      rw [hst, if_pos (List.getElem?_eq_some_iff.mp hst).1]
      rfl
    · rw [id_map']
  unfold stop teardown emit put
  dsimp only
  rw [hgraph]
  dsimp only
  rw [hmodify]

theorem Sound.stop (h : m.Sound) : m.stop.Sound := by
  have hnumbered : ∀ i, .started i ∈ m.trace ++ [.stopped] → i < m.starts.length := by
    intro i hi
    exact h.numbered i (by simpa using hi)
  have hheard : Heard (m.trace ++ [.stopped]) := h.heard.silent rfl
  cases hgraph : m.graph with
  | none =>
      rw [stop_of_idle hgraph]
      have hnone : ∀ {i}, m.graph ≠ some i := by
        intro i
        rw [hgraph]
        exact nofun
      refine ⟨fun i st₁ hi _ => h.idle i st₁ hi hnone, fun i hi => absurd hi hnone, hnumbered, ?_, ?_, ?_,
        fun i hi => absurd hi hnone, ?_, hheard⟩
      · exact fun i st₁ hi => Nat.le_succ_of_le (h.bounded i st₁ hi)
      · intro i st₁ hi _ hcur
        exact absurd (h.bounded i st₁ hi) (by rw [hcur]; exact Nat.not_succ_le_self _)
      · exact fun i _ _ _ _ => Or.inl (not_mem_since_stopped m.trace _)
      · exact fun i _ _ _ => Or.inr (Or.inl (not_mem_since_stopped m.trace _))
  | some active =>
      obtain ⟨st, hst, hrun⟩ := h.running active hgraph
      rw [stop_of_running hgraph hst]
      have hlt : active < m.starts.length := (List.getElem?_eq_some_iff.mp hst).1
      have hlength : (m.put active st.teardown).starts.length = m.starts.length := List.length_set
      have hbounded : ∀ (i : ℕ) (st₁ : Start), (m.put active st.teardown).starts[i]? = some st₁ → st₁.generation ≤ m.generation := by
        intro i st₁ hi
        rcases getElem?_put hlt hi with ⟨rfl, rfl⟩ | ⟨-, hi⟩
        · exact h.bounded i st hst
        · exact h.bounded i st₁ hi
      refine ⟨?_, (fun _ hi => nomatch hi), ?_, ?_, ?_, ?_, (fun _ hi => nomatch hi), ?_, hheard⟩
      · intro i st₁ hi _
        rcases getElem?_put hlt hi with ⟨rfl, rfl⟩ | ⟨hne, hi⟩
        · exact hrun.idle_teardown
        · exact h.idle i st₁ hi (fun heq => hne (Option.some.inj (heq.symm.trans hgraph)))
      · intro i hi
        exact hlength.symm ▸ hnumbered i hi
      · exact fun i st₁ hi => Nat.le_succ_of_le (hbounded i st₁ hi)
      · intro i st₁ hi _ hcur
        exact absurd (hbounded i st₁ hi) (by rw [hcur]; exact Nat.not_succ_le_self _)
      · exact fun i _ _ _ _ => Or.inl (not_mem_since_stopped m.trace _)
      · exact fun i _ _ _ => Or.inr (Or.inl (not_mem_since_stopped m.trace _))

/-- The callbacks hear of a call that no `stop` has overtaken. -/
theorem Sound.emit (h : m.Sound) {e : MicEvent} (hstop : isStopped e = false) (hstart : ∀ i, e ≠ .started i)
    (hheard : ∀ i, heard? e = some i → .started i ∈ since isStopped m.trace) : (m.emit [e]).Sound := by
  have hsince : ∀ i, .started i ∈ since isStopped (m.trace ++ [e]) ↔ .started i ∈ since isStopped m.trace := by
    intro i
    rw [since_concat_of_neg hstop]
    simp [(hstart i).symm]
  have hover : ∀ i, m.Overtaken i → (m.emit [e]).Overtaken i := by
    intro i
    exact Or.imp_left (mt (hsince i).mp)
  refine ⟨h.idle, h.running, ?_, h.bounded, ?_, ?_, fun i hi => (hsince i).mpr (h.fresh i hi), ?_, h.heard.concat hheard⟩
  · intro i hi
    refine h.numbered i ?_
    simpa [MicCapture.emit, (hstart i).symm] using hi
  · intro i st₁ hi hflight hcur
    obtain ⟨hgraph, hlast, hfresh⟩ := h.current i st₁ hi hflight hcur
    exact ⟨hgraph, hlast, (hsince i).mpr hfresh⟩
  · exact fun i st₁ hi hflight hcur => hover i (h.overtaken i st₁ hi hflight hcur)
  · exact fun i st₁ hi hdone => (h.resolved i st₁ hi hdone).imp_right (hover i)

theorem getElem?_enter {pc : Start.Pc} {i : ℕ} (hi : (m.enter pc).starts[i]? = some st) :
    i < m.starts.length ∧ m.starts[i]? = some st ∨ i = m.starts.length ∧ st = { generation := m.generation, pc } := by
  rcases lt_trichotomy i m.starts.length with hlt | rfl | hlt
  · rw [enter, List.getElem?_append_left hlt] at hi
    exact Or.inl ⟨hlt, hi⟩
  · rw [enter, List.getElem?_concat_length] at hi
    exact Or.inr ⟨rfl, (Option.some.inj hi).symm⟩
  · have hlength : (m.enter pc).starts.length = m.starts.length + 1 := List.length_append
    rw [List.getElem?_eq_none (hlength ▸ hlt)] at hi
    cases hi

/-- A call of `start` enters: with a new generation, unless a graph is stored. -/
theorem Sound.enter (h : m.Sound) {generation : ℕ} {pc : Start.Pc}
    (hnew : m.graph.isSome ∧ generation = m.generation ∧ pc = .settled none ∨
      m.graph = none ∧ m.generation < generation ∧ pc ≠ .settled none ∧ ∀ error, pc ≠ .abandoning error) :
    (({ m with generation } : MicCapture).enter pc).Sound := by
  have hidle : ({ generation, pc } : Start).Idle := by
    unfold Start.Idle
    split
    · exact ⟨⟨nofun, rfl⟩, fun _ => ⟨rfl, rfl⟩⟩
    · exact ⟨nofun, nofun, nofun⟩
  have hle : m.generation ≤ generation := hnew.elim (fun hold => hold.2.1.ge) (fun hfresh => hfresh.2.1.le)
  have hlength : (({ m with generation } : MicCapture).enter pc).starts.length = m.starts.length + 1 := List.length_append
  have hover : ∀ i < m.starts.length, (({ m with generation } : MicCapture).enter pc).Overtaken i := by
    intro i hi
    exact Or.inr (hlength.symm ▸ Nat.succ_lt_succ hi)
  have hsince : since isStopped (m.trace ++ [.started m.starts.length]) = since isStopped m.trace ++ [.started m.starts.length] :=
    since_concat_of_neg rfl
  refine ⟨?_, ?_, ?_, ?_, ?_, ?_, ?_, ?_, h.heard.silent rfl⟩
  · intro i st₁ hi hne
    rcases getElem?_enter hi with ⟨-, hi⟩ | ⟨-, rfl⟩
    · exact h.idle i st₁ hi hne
    · exact hidle
  · intro i hi
    obtain ⟨st₁, hst₁, hrun⟩ := h.running i hi
    exact ⟨st₁, (List.getElem?_append_left (List.getElem?_eq_some_iff.mp hst₁).1).trans hst₁, hrun⟩
  · intro i hi
    rw [hlength]
    rcases List.mem_append.mp hi with hi | hi
    · exact Nat.lt_succ_of_lt (h.numbered i hi)
    · cases List.mem_singleton.mp hi
      exact Nat.lt_succ_self _
  · intro i st₁ hi
    rcases getElem?_enter hi with ⟨-, hi⟩ | ⟨-, rfl⟩
    · exact (h.bounded i st₁ hi).trans hle
    · exact le_refl _
  · intro i st₁ hi hflight hcur
    rcases getElem?_enter hi with ⟨-, hi⟩ | ⟨rfl, rfl⟩
    · rcases hnew with ⟨hgraph, rfl, -⟩ | ⟨-, hlt, -⟩
      · rw [(h.current i st₁ hi hflight hcur).1] at hgraph
        cases hgraph
      · exact absurd ((h.bounded i st₁ hi).trans_lt hlt) (by rw [hcur]; exact lt_irrefl _)
    · rcases hnew with ⟨-, -, rfl⟩ | ⟨hgraph, -⟩
      · cases hflight
      · refine ⟨hgraph, hlength.symm, ?_⟩
        exact hsince.symm ▸ List.mem_append_right _ (List.mem_singleton_self _)
  · intro i st₁ hi hflight hcur
    rcases getElem?_enter hi with ⟨hlt, -⟩ | ⟨-, rfl⟩
    · exact hover i hlt
    · exact absurd rfl hcur
  · intro i hi
    exact hsince.symm ▸ List.mem_append_left _ (h.fresh i hi)
  · intro i st₁ hi hdone
    rcases getElem?_enter hi with ⟨hlt, -⟩ | ⟨-, rfl⟩
    · exact Or.inr (hover i hlt)
    · rcases hnew with ⟨hgraph, -⟩ | ⟨-, -, hsettled, habandon⟩
      · exact Or.inl hgraph
      · exact absurd hdone (not_or.mpr ⟨hsettled, habandon none⟩)

theorem Sound.start (h : m.Sound) (mediaDevices workletNode : Bool) : (m.start mediaDevices workletNode).Sound := by
  unfold MicCapture.start
  split
  · rename_i hgraph
    exact @Sound.enter m h m.generation _ (Or.inl ⟨hgraph, rfl, rfl⟩)
  · rename_i hgraph
    have hnone : m.graph = none := Option.not_isSome_iff_eq_none.mp hgraph
    dsimp only
    split
    · exact h.enter (Or.inr ⟨hnone, Nat.lt_succ_self _, nofun, nofun⟩)
    · split
      · exact h.enter (Or.inr ⟨hnone, Nat.lt_succ_self _, nofun, nofun⟩)
      · exact h.enter (Or.inr ⟨hnone, Nat.lt_succ_self _, nofun, nofun⟩)

/-! ## Each step -/

theorem waiting_eq_some {pc : Start.Pc} (h : m.waiting call pc = some st) : m.starts[call]? = some st ∧ st.pc = pc := by
  obtain ⟨hst, hpc⟩ := Option.filter_eq_some_iff.mp h
  exact ⟨hst, of_decide_eq_true hpc⟩

theorem Sound.complete (h : m.Sound) (hst : m.starts[call]? = some st) (hpc : st.pc.inFlight = true) (build : Option Thrown) :
    (m.complete call st build).Sound := by
  have hhold : st.Holding := (h.idle call st hst (h.graph_ne hst (ne_settled_of_inFlight hpc))).holding hpc
  unfold MicCapture.complete
  split
  · rename_i hgen
    exact h.putOvertaken hst hpc hhold rfl hgen
  · rename_i hgen
    cases build with
    | some err => exact h.fail hst hpc hhold rfl err
    | none => exact h.connect hst hpc (not_not.mp hgen)

theorem Sound.gotUserMedia (h : m.Sound) (hst : m.starts[call]? = some st) (hpc : st.pc = .getUserMedia)
    (result : Except Thrown ℕ) (ctor : Except Thrown CaptureContext) : (m.gotUserMedia call st result ctor).Sound := by
  have hflight : st.pc.inFlight = true := by rw [hpc]; rfl
  have hne := h.graph_ne hst (ne_settled_of_inFlight hflight)
  have hhold : st.Holding := (h.idle call st hst hne).holding hflight
  unfold MicCapture.gotUserMedia
  cases result with
  | error err => exact h.fail hst hflight hhold rfl err
  | ok tracks =>
      have hhold' : ({ st with stream := some { tracks := List.replicate tracks true } } : Start).Holding := by
        refine ⟨?_, hhold.node⟩
        rintro stream ⟨⟩
        rfl
      dsimp only
      split
      · rename_i hgen
        exact h.putOvertaken hst hflight hhold' rfl hgen
      · cases ctor with
        | error err => exact h.fail hst hflight hhold' rfl err
        | ok ctx =>
            refine h.put hst (Or.inr ⟨hne, ?_⟩) rfl (fun _ => hflight) (by rintro (hdone | hdone) <;> cases hdone)
            exact ⟨⟨hhold'.stream, hhold'.node⟩, nofun⟩

theorem Sound.moduleAdded (h : m.Sound) (hst : m.starts[call]? = some st) (hpc : st.pc = .addModule)
    (result : Except Thrown Unit) (build : Option Thrown) : (m.moduleAdded call st result build).Sound := by
  have hflight : st.pc.inFlight = true := by rw [hpc]; rfl
  have hne := h.graph_ne hst (ne_settled_of_inFlight hflight)
  have hhold : st.Holding := (h.idle call st hst hne).holding hflight
  unfold MicCapture.moduleAdded
  cases result with
  | error err => exact h.fail hst hflight hhold rfl err
  | ok =>
      dsimp only
      split
      · refine h.put hst (Or.inr ⟨hne, ?_⟩) rfl (fun _ => hflight) (by rintro (hdone | hdone) <;> cases hdone)
        exact ⟨⟨hhold.stream, hhold.node⟩, nofun⟩
      · exact h.complete hst hflight build

theorem Sound.resumed (h : m.Sound) (hst : m.starts[call]? = some st) (hpc : st.pc = .resume)
    (result : Except Thrown Unit) (build : Option Thrown) : (m.resumed call st result build).Sound := by
  have hflight : st.pc.inFlight = true := by rw [hpc]; rfl
  have hne := h.graph_ne hst (ne_settled_of_inFlight hflight)
  have hhold : st.Holding := (h.idle call st hst hne).holding hflight
  unfold MicCapture.resumed
  cases result with
  | error err => exact h.fail hst hflight hhold rfl err
  | ok => exact h.complete hst hflight build

/-- Only the worklet of the stored graph has its handlers set. -/
theorem Sound.graph_of_node (h : m.Sound) (hst : m.starts[call]? = some st) {node : WorkletNode} (hnode : st.node = some node)
    (hlisten : node.listening = true) : m.graph = some call := by
  by_contra hne
  rw [(h.idle call st hst hne).node hnode] at hlisten
  cases hlisten

/-- Only the tracks of the stored graph are listened to. -/
theorem Sound.graph_of_stream (h : m.Sound) (hst : m.starts[call]? = some st) {stream : MediaStream}
    (hstream : st.stream = some stream) (hlisten : stream.listening = true) : m.graph = some call := by
  by_contra hne
  rw [(h.idle call st hst hne).stream hstream] at hlisten
  cases hlisten

/-- `onEnded` hears of the stored graph, and the capture stops. -/
theorem Sound.ended (h : m.Sound) (hgraph : m.graph = some call) (reason : String) : (m.emit [.ended call reason]).stop.Sound := by
  have hone : (m.emit [.ended call reason]).Sound := by
    refine h.emit rfl nofun ?_
    rintro i ⟨⟩
    exact h.fresh call hgraph
  exact hone.stop

theorem Sound.processorError (h : m.Sound) (hst : m.starts[call]? = some st) {node : WorkletNode} (hnode : st.node = some node) :
    (m.processorError call node).Sound := by
  unfold MicCapture.processorError
  split
  · rename_i hlisten
    exact h.ended (h.graph_of_node hst hnode hlisten) _
  · exact h

theorem Sound.message (h : m.Sound) (hst : m.starts[call]? = some st) {node : WorkletNode} (hnode : st.node = some node)
    (isFrame : Bool) (pcm : Bytes) (rms : ℚ) : (m.message call node isFrame pcm rms).Sound := by
  unfold MicCapture.message
  split
  · rename_i hframe
    have hgraph := h.graph_of_node hst hnode hframe.1
    have hone : (m.emit [.frame call pcm]).Sound := by
      refine h.emit rfl nofun ?_
      rintro i ⟨⟩
      exact h.fresh call hgraph
    have htwo : ((m.emit [.frame call pcm]).emit [.level call rms]).Sound := by
      refine hone.emit rfl nofun ?_
      rintro i ⟨⟩
      exact hone.fresh call hgraph
    have heq : m.emit [.frame call pcm, .level call rms] = (m.emit [.frame call pcm]).emit [.level call rms] := by
      simp [MicCapture.emit]
    rw [heq]
    exact htwo
  · exact h

/-- A track or the context of a call changes by itself. -/
theorem Sound.change (h : m.Sound) (hst : m.starts[call]? = some st) (hpc : st'.pc = st.pc) (hgen : st'.generation = st.generation)
    (hrun : m.graph = some call → st'.Running) (hidle : m.graph ≠ some call → st'.Idle) : (m.put call st').Sound := by
  refine h.put hst ?_ hgen (fun hflight => hpc ▸ hflight) (fun hdone => h.resolved call st hst (hpc ▸ hdone))
  by_cases hgraph : m.graph = some call
  · exact Or.inl ⟨hgraph, hrun hgraph⟩
  · exact Or.inr ⟨hgraph, hidle hgraph⟩

theorem Sound.runningOf (h : m.Sound) (hst : m.starts[call]? = some st) (hgraph : m.graph = some call) : st.Running := by
  obtain ⟨st₁, hst₁, hrun⟩ := h.running call hgraph
  exact Option.some.inj (hst₁.symm.trans hst) ▸ hrun

theorem not_live_set {tracks : List Bool} (track : ℕ) (h : tracks.any id = false) : (tracks.set track false).any id = false := by
  rw [List.any_eq_false] at h ⊢
  intro b hb
  rcases List.mem_or_eq_of_mem_set hb with hb | rfl
  · exact h b hb
  · exact Bool.false_ne_true

theorem Sound.endTrack (h : m.Sound) (hst : m.starts[call]? = some st) {track : ℕ} {stream : MediaStream}
    (hstream : st.stream = some stream) (hm' : m.endTrack call track st stream = some m') : m'.Sound := by
  unfold MicCapture.endTrack at hm'
  split at hm'
  · cases hm'
    have hput : (m.put call { st with stream := some { stream with tracks := stream.tracks.set track false } }).Sound := by
      refine h.change hst rfl rfl (fun hgraph => ?_) (fun hgraph => ?_)
      · have hrun := h.runningOf hst hgraph
        refine ⟨hrun.pc, ?_, hrun.node⟩
        rintro new ⟨⟩
        exact hrun.stream stream hstream
      · refine (h.idle call st hst hgraph).change rfl rfl ?_ (fun ctx hctx => ⟨ctx, hctx, id⟩)
        rintro new ⟨⟩
        exact ⟨stream, hstream, rfl, not_live_set track⟩
    split
    · rename_i hlisten
      unfold handleTrackEnded
      split
      · exact hput
      · exact hput.ended (h.graph_of_stream hst hstream hlisten) _
    · exact hput
  · cases hm'

theorem Sound.context (h : m.Sound) (hst : m.starts[call]? = some st) {ctx : CaptureContext} (hctx : st.ctx = some ctx)
    (hopen : ctx.state ≠ .closed) (state : ContextState) : (m.put call { st with ctx := some { ctx with state } }).Sound := by
  refine h.change hst rfl rfl (fun hgraph => ?_) (fun hgraph => ?_)
  · have hrun := h.runningOf hst hgraph
    exact ⟨hrun.pc, hrun.stream, hrun.node⟩
  · refine (h.idle call st hst hgraph).change rfl rfl (fun stream hs => ⟨stream, hs, rfl, id⟩) ?_
    rintro new ⟨⟩
    refine ⟨ctx, hctx, fun hended => ?_⟩
    have hclosing : ctx.closing = true := by simpa [CaptureContext.ended, hopen] using hended
    simp [CaptureContext.ended, hclosing]

theorem Sound.step {l : MicLabel} (h : m.Sound) (hm' : m.step l = some m') : m'.Sound := by
  cases l with
  | start mediaDevices workletNode =>
      cases hm'
      exact h.start mediaDevices workletNode
  | stop =>
      cases hm'
      exact h.stop
  | userMedia call result ctor =>
      obtain ⟨st, hwait, rfl⟩ := Option.map_eq_some_iff.mp hm'
      obtain ⟨hst, hpc⟩ := waiting_eq_some hwait
      exact h.gotUserMedia hst hpc result ctor
  | moduleAdded call result build =>
      obtain ⟨st, hwait, rfl⟩ := Option.map_eq_some_iff.mp hm'
      obtain ⟨hst, hpc⟩ := waiting_eq_some hwait
      exact h.moduleAdded hst hpc result build
  | resumed call result build =>
      obtain ⟨st, hwait, rfl⟩ := Option.map_eq_some_iff.mp hm'
      obtain ⟨hst, hpc⟩ := waiting_eq_some hwait
      exact h.resumed hst hpc result build
  | abandoned call =>
      obtain ⟨st, hst, hm'⟩ := Option.bind_eq_some_iff.mp hm'
      split at hm'
      · rename_i error hpc
        cases hm'
        have hne : m.graph ≠ some call := h.graph_ne hst (by rw [hpc]; exact nofun)
        have hrel : st.Released := (h.idle call st hst hne).released (by rw [hpc]; rfl)
        refine h.put hst (Or.inr ⟨hne, (hrel.withPc _).idle rfl⟩) rfl (fun hflight => nomatch hflight) ?_
        rintro (hdone | hdone)
        · cases hdone
          exact h.resolved call st hst (Or.inr hpc)
        · cases hdone
      · cases hm'
  | trackEnded call track =>
      obtain ⟨st, hst, hm'⟩ := Option.bind_eq_some_iff.mp hm'
      obtain ⟨stream, hstream, hm'⟩ := Option.bind_eq_some_iff.mp hm'
      exact h.endTrack hst hstream hm'
  | processorError call =>
      obtain ⟨st, hst, hm'⟩ := Option.bind_eq_some_iff.mp hm'
      obtain ⟨node, hnode, rfl⟩ := Option.map_eq_some_iff.mp hm'
      exact h.processorError hst hnode
  | message call isFrame pcm rms =>
      obtain ⟨st, hst, hm'⟩ := Option.bind_eq_some_iff.mp hm'
      obtain ⟨node, hnode, rfl⟩ := Option.map_eq_some_iff.mp hm'
      exact h.message hst hnode isFrame pcm rms
  | context call state =>
      obtain ⟨st, hst, hm'⟩ := Option.bind_eq_some_iff.mp hm'
      obtain ⟨ctx, hctx, hm'⟩ := Option.bind_eq_some_iff.mp hm'
      split at hm'
      · cases hm'
      · rename_i hopen
        cases hm'
        exact h.context hst hctx hopen state

end Steps

theorem sound_new : ({} : MicCapture).Sound where
  idle := by simp
  running := by simp
  numbered := by simp
  bounded := by simp
  current := by simp
  overtaken := by simp
  fresh := by simp
  resolved := by simp
  heard := fun front back heq => by simp at heq

theorem sound_of_run {ok : MicCapture → MicLabel → Prop} {ls : List MicLabel} (h : Run step ok {} ls m) : m.Sound :=
  h.invariant sound_new (fun hs _ hm' => hs.step hm')

end MicCapture

/-- What may end the capture of the call: `stop`, and what happens to its own track, worklet and context. -/
def MicLabel.ends (call : ℕ) : MicLabel → Bool
  | .stop => true
  | .trackEnded call' _ | .processorError call' | .context call' _ => call' = call
  | _ => false

namespace MicCapture

variable {m m' : MicCapture} {call : ℕ} {st st' : Start}

/-! ## What holds in every run -/

theorem Sound.held (h : m.Sound) (hst : m.starts[call]? = some st) (hholds : st.holds = true) :
    m.graph = some call ∨ st.pc = .addModule ∨ st.pc = .resume := by
  by_cases hgraph : m.graph = some call
  · exact Or.inl hgraph
  · have hidle := h.idle call st hst hgraph
    have hflight : st.pc.inFlight = true := by
      by_contra hsettled
      rw [(hidle.released (Bool.eq_false_iff.mpr hsettled)).holds_eq_false] at hholds
      cases hholds
    unfold Start.Idle at hidle
    rw [if_pos hflight] at hidle
    cases hpc : st.pc with
    | getUserMedia =>
        obtain ⟨hstream, hctx⟩ := hidle.2 hpc
        rw [Start.holds, hstream, hctx] at hholds
        cases hholds
    | addModule => exact Or.inr (Or.inl rfl)
    | resume => exact Or.inr (Or.inr rfl)
    | abandoning error =>
        rw [hpc] at hflight
        cases hflight
    | settled error =>
        rw [hpc] at hflight
        cases hflight

/-- A live microphone or an open context belongs to the stored graph, or to a call of `start` that waits for its context; at
most one such call has not been overtaken, and then no graph is stored. With none stored and every call settled, all is
released. -/
theorem held_of_run {ls : List MicLabel} (h : Run step (fun _ _ => True) {} ls m) :
    (∀ call st, m.starts[call]? = some st → st.holds = true → m.graph = some call ∨ st.pc = .addModule ∨ st.pc = .resume) ∧
      (∀ call st, m.starts[call]? = some st → st.pc.inFlight = true →
        m.Overtaken call ∨ m.graph = none ∧ call + 1 = m.starts.length) ∧
      (m.graph = none → (∀ st ∈ m.starts, ∃ error, st.pc = .settled error) → ∀ st ∈ m.starts, st.holds = false) := by
  have hs := sound_of_run h
  refine ⟨fun call st hst hholds => hs.held hst hholds, ?_, ?_⟩
  · intro call st hst hflight
    by_cases hgen : st.generation = m.generation
    · obtain ⟨hgraph, hlast, -⟩ := hs.current call st hst hflight hgen
      exact Or.inr ⟨hgraph, hlast⟩
    · exact Or.inl (hs.overtaken call st hst hflight hgen)
  · intro hgraph hsettled st hmem
    obtain ⟨call, hst⟩ := List.mem_iff_getElem?.mp hmem
    obtain ⟨error, hpc⟩ := hsettled st hmem
    by_contra hholds
    rcases hs.held hst (Bool.not_eq_false _ ▸ hholds) with hactive | hwait | hwait
    · cases hgraph.symm.trans hactive
    · cases hpc.symm.trans hwait
    · cases hpc.symm.trans hwait

/-- `stop` while the permission prompt is open, with a new `start`; both microphones are given, the second call connects. -/
def promptedTwice : List MicLabel :=
  [.start true true, .stop, .start true true, .userMedia 0 (.ok 1) (.ok { state := .running, sampleRate := 48000 }),
    .userMedia 1 (.ok 1) (.ok { state := .running, sampleRate := 48000 }), .moduleAdded 1 (.ok ()) none, .abandoned 0,
    .message 1 true (List.replicate 640 0) 0, .trackEnded 1 0]

theorem held_of_run_promptedTwice : ∃ m, Run step (fun _ _ => True) {} promptedTwice m ∧
    (∀ st ∈ m.starts, st.holds = false) ∧ m.trace.length = 7 := by
  obtain ⟨m, hrun, hend⟩ := Run.exists_of_exec
    (P := fun m : MicCapture => decide (m.graph = none ∧ m.trace.length = 7 ∧
      m.starts.map Start.pc = [.settled none, .settled none])) (s := ({} : MicCapture))
    (show (exec step (fun _ _ => True) _ promptedTwice).any _ = true by decide +kernel)
  obtain ⟨hgraph, hlength, hpcs⟩ := of_decide_eq_true hend
  refine ⟨m, hrun, (held_of_run hrun).2.2 hgraph (fun st hst => ⟨none, ?_⟩), hlength⟩
  have hpc := List.mem_map_of_mem (f := Start.pc) hst
  rw [hpcs] at hpc
  simpa using hpc

/-- Behind a `stop` no frame, no level and no end is reported of a call that began before it; and a call resolves without
an error only when a graph is stored or when it has been overtaken. -/
theorem heard_of_run {ls : List MicLabel} (h : Run step (fun _ _ => True) {} ls m) :
    (∀ front back, m.trace = front ++ .stopped :: back → ∀ e ∈ back, ∀ call, heard? e = some call → .started call ∈ back) ∧
      ∀ call st, m.starts[call]? = some st → st.pc = .settled none → m.graph.isSome ∨ m.Overtaken call := by
  have hs := sound_of_run h
  exact ⟨hs.heard, fun call st hst hpc => hs.resolved call st hst (Or.inl hpc)⟩

theorem heard_of_run_promptedTwice : ∃ m, Run step (fun _ _ => True) {} promptedTwice m ∧
    ∃ front back, m.trace = front ++ .stopped :: back ∧ .started 1 ∈ back := by
  obtain ⟨m, hrun, hend⟩ := Run.exists_of_exec
    (P := fun m : MicCapture => decide (m.trace = [.started 0] ++ .stopped :: [.started 1,
      .frame 1 (List.replicate 640 0), .level 1 0, .ended 1 "The microphone was disconnected.", .stopped]))
    (s := ({} : MicCapture)) (show (exec step (fun _ _ => True) _ promptedTwice).any _ = true by decide +kernel)
  have htrace := of_decide_eq_true hend
  refine ⟨m, hrun, _, _, htrace, (heard_of_run hrun).1 _ _ htrace (.level 1 0) ?_ 1 rfl⟩
  exact List.mem_cons_of_mem _ (List.mem_cons_of_mem _ List.mem_cons_self)

theorem put_undisturbed {other : ℕ} (hgraph : m.graph = some call) (hne : other ≠ call) :
    (m.put other st').graph = some call ∧ (m.put other st').starts[call]? = m.starts[call]? :=
  ⟨hgraph, List.getElem?_set_ne hne⟩

theorem Sound.ne_of_waiting (h : m.Sound) {pc : Start.Pc} (hgraph : m.graph = some call) {other : ℕ}
    (hwait : m.waiting other pc = some st) (hpc : pc ≠ .settled none) : other ≠ call := by
  rintro rfl
  obtain ⟨hst, rfl⟩ := waiting_eq_some hwait
  exact h.graph_ne hst hpc hgraph

/-- No call is complete while a graph is stored. -/
theorem Sound.complete_eq (h : m.Sound) (hgraph : m.graph = some call) {other : ℕ} (hst : m.starts[other]? = some st)
    (hpc : st.pc.inFlight = true) (build : Option Thrown) : m.complete other st build = m.put other st.overtaken := by
  unfold MicCapture.complete
  rw [if_pos]
  intro hgen
  cases hgraph.symm.trans (h.current other st hst hpc hgen).1

/-- The capture that runs goes on, with all that is held for it, whatever the other calls of `start` do: only `stop` and what
happens to its own track, worklet and context can touch it. -/
theorem undisturbed_of_run {ls : List MicLabel} {l : MicLabel} (h : Run step (fun _ _ => True) {} ls m)
    (hgraph : m.graph = some call) (hl : l.ends call = false) (hm' : m.step l = some m') :
    m'.graph = some call ∧ m'.starts[call]? = m.starts[call]? := by
  have hs := sound_of_run h
  have hlt : call < m.starts.length := by
    obtain ⟨st, hst, -⟩ := hs.running call hgraph
    exact (List.getElem?_eq_some_iff.mp hst).1
  cases l with
  | start mediaDevices workletNode =>
      cases hm'
      unfold start
      rw [if_pos (by rw [hgraph]; rfl)]
      exact ⟨hgraph, List.getElem?_append_left hlt⟩
  | stop => cases hl
  | userMedia other result ctor =>
      obtain ⟨st, hwait, rfl⟩ := Option.map_eq_some_iff.mp hm'
      have hne := hs.ne_of_waiting hgraph hwait nofun
      unfold gotUserMedia
      cases result with
      | error err => exact put_undisturbed hgraph hne
      | ok tracks =>
          dsimp only
          split
          · exact put_undisturbed hgraph hne
          · cases ctor <;> exact put_undisturbed hgraph hne
  | moduleAdded other result build =>
      obtain ⟨st, hwait, rfl⟩ := Option.map_eq_some_iff.mp hm'
      have hne := hs.ne_of_waiting hgraph hwait nofun
      obtain ⟨hst, hpc⟩ := waiting_eq_some hwait
      unfold moduleAdded
      cases result with
      | error err => exact put_undisturbed hgraph hne
      | ok =>
          dsimp only
          split
          · exact put_undisturbed hgraph hne
          · rw [hs.complete_eq hgraph hst (by rw [hpc]; rfl)]
            exact put_undisturbed hgraph hne
  | resumed other result build =>
      obtain ⟨st, hwait, rfl⟩ := Option.map_eq_some_iff.mp hm'
      have hne := hs.ne_of_waiting hgraph hwait nofun
      obtain ⟨hst, hpc⟩ := waiting_eq_some hwait
      unfold resumed
      cases result with
      | error err => exact put_undisturbed hgraph hne
      | ok =>
          dsimp only
          rw [hs.complete_eq hgraph hst (by rw [hpc]; rfl)]
          exact put_undisturbed hgraph hne
  | abandoned other =>
      obtain ⟨st, hst, hm'⟩ := Option.bind_eq_some_iff.mp hm'
      split at hm'
      · rename_i error hpc
        cases hm'
        refine put_undisturbed hgraph ?_
        rintro rfl
        exact hs.graph_ne hst (by rw [hpc]; exact nofun) hgraph
      · cases hm'
  | trackEnded other track =>
      have hne : other ≠ call := of_decide_eq_false hl
      obtain ⟨st, hst, hm'⟩ := Option.bind_eq_some_iff.mp hm'
      obtain ⟨stream, hstream, hm'⟩ := Option.bind_eq_some_iff.mp hm'
      have hdeaf : stream.listening = false := by
        by_contra hlisten
        exact hne (Option.some.inj ((hs.graph_of_stream hst hstream (Bool.not_eq_false _ ▸ hlisten)).symm.trans hgraph))
      unfold endTrack at hm'
      split at hm'
      · rw [hdeaf] at hm'
        cases hm'
        exact put_undisturbed hgraph hne
      · cases hm'
  | processorError other =>
      have hne : other ≠ call := of_decide_eq_false hl
      obtain ⟨st, hst, hm'⟩ := Option.bind_eq_some_iff.mp hm'
      obtain ⟨node, hnode, rfl⟩ := Option.map_eq_some_iff.mp hm'
      unfold processorError
      split
      · rename_i hlisten
        exact absurd (Option.some.inj ((hs.graph_of_node hst hnode hlisten).symm.trans hgraph)) hne
      · exact ⟨hgraph, rfl⟩
  | message other isFrame pcm rms =>
      obtain ⟨st, hst, hm'⟩ := Option.bind_eq_some_iff.mp hm'
      obtain ⟨node, hnode, rfl⟩ := Option.map_eq_some_iff.mp hm'
      unfold message
      split
      · exact ⟨hgraph, rfl⟩
      · exact ⟨hgraph, rfl⟩
  | context other state =>
      have hne : other ≠ call := of_decide_eq_false hl
      obtain ⟨st, hst, hm'⟩ := Option.bind_eq_some_iff.mp hm'
      obtain ⟨ctx, hctx, hm'⟩ := Option.bind_eq_some_iff.mp hm'
      split at hm'
      · cases hm'
      · cases hm'
        exact put_undisturbed hgraph hne

/-- The first call gets its microphone when the second one runs already. -/
theorem undisturbed_of_run_late : ∃ m m' : MicCapture,
    m.step (.userMedia 0 (.ok 1) (.error (.other ""))) = some m' ∧ m'.graph = some 1 ∧ m'.starts[1]? = m.starts[1]? := by
  obtain ⟨m, hrun, hend⟩ := Run.exists_of_exec
    (P := fun m : MicCapture => decide (m.graph = some 1 ∧
      (m.step (.userMedia 0 (.ok 1) (.error (.other "")))).isSome = true)) (s := ({} : MicCapture))
    (show (exec step (fun _ _ => True) _ [.start true true, .start true true,
      .userMedia 1 (.ok 1) (.ok { state := .running, sampleRate := 48000 }), .moduleAdded 1 (.ok ()) none]).any _ = true by
        decide +kernel)
  obtain ⟨hgraph, hsome⟩ := of_decide_eq_true hend
  obtain ⟨m', hm'⟩ := Option.isSome_iff_exists.mp hsome
  exact ⟨m, m', hm', undisturbed_of_run hrun hgraph rfl hm'⟩

end MicCapture

end Voxera.Web
