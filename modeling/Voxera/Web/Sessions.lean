import Voxera.Web.Provider

/-!
# One session, one microphone

* `MicCapture.Effect` : what the browser can do to a capture; `MicCapture.Dead` : a capture that never hears anything again;
* `gate` : what the player of a session is told, as a function of the messages;
* `Provider.Change` : what a step does; `Provider.Sound` : the references of the provider and what they stand for;
* `MicMove` : what a step does to the captures; `Abandoned` : a capture that is not the one in `micRef`, which it never is again;
* `muted_of_run` : a microphone that is off is off.
-/

namespace Voxera.Web

open EventLoop Since

namespace MicCapture

variable {m m' : MicCapture} {l : MicLabel}

/-- Nothing runs, and every call of `start` that waits has been overtaken. -/
structure Dead (m : MicCapture) : Prop where
  graph : m.graph = none
  overtaken : ∀ (call : ℕ) (st : Start), m.starts[call]? = some st → st.pc.inFlight = true → st.generation ≠ m.generation

/-- The calls go on, and nothing is heard of them; a graph may be stored, of a call that has not been overtaken. -/
structure Quiet (m m' : MicCapture) : Prop where
  trace : m'.trace = m.trace
  generation : m'.generation = m.generation
  length : m'.starts.length = m.starts.length
  graph : m'.graph = m.graph ∨ m.graph = none ∧ ∃ (call : ℕ) (st : Start), m.starts[call]? = some st ∧ st.pc.inFlight = true ∧
    st.generation = m.generation
  starts : ∀ (call : ℕ) (st' : Start), m'.starts[call]? = some st' → ∃ st, m.starts[call]? = some st ∧
    st'.generation = st.generation ∧ (st'.pc.inFlight = true → st.pc.inFlight = true)

/-- What the browser can do to a capture. -/
inductive Effect (m m' : MicCapture) : Prop
  | quiet (h : Quiet m m')
  | frame (call : ℕ) (pcm : Bytes) (rms : ℚ) (hgraph : m.graph = some call) (hlength : pcm.length = frameBytes)
      (heq : m' = m.emit [.frame call pcm, .level call rms])
  | ended (call : ℕ) (reason : String) (hgraph : m.graph = some call) (hdead : m'.Dead)
      (htrace : m'.trace = m.trace ++ [.ended call reason, .stopped]) (hlength : m'.starts.length = m.starts.length)

theorem stop_trace (m : MicCapture) : m.stop.trace = m.trace ++ [.stopped] := by
  unfold stop teardown
  split <;> rfl

theorem stop_length (m : MicCapture) : m.stop.starts.length = m.starts.length := by
  unfold stop teardown
  split
  · rfl
  · exact List.length_modify ..

theorem stop_graph (m : MicCapture) : m.stop.graph = none := by
  unfold stop teardown
  split
  · assumption
  · rfl

theorem stop_generation (m : MicCapture) : m.stop.generation = m.generation + 1 := by
  unfold stop teardown
  split <;> rfl

theorem stop_starts {call : ℕ} {st' : Start} (h : m.stop.starts[call]? = some st') :
    ∃ st, m.starts[call]? = some st ∧ st'.generation = st.generation := by
  unfold stop teardown at h
  split at h
  · exact ⟨st', h, rfl⟩
  · rw [List.getElem?_modify] at h
    obtain ⟨st, hst, rfl⟩ := Option.map_eq_some_iff.mp h
    refine ⟨st, hst, ?_⟩
    split <;> rfl

/-- A capture that is stopped hears nothing any more. -/
theorem dead_stop (h : ∀ (call : ℕ) (st : Start), m.starts[call]? = some st → st.generation ≤ m.generation) : m.stop.Dead := by
  refine ⟨stop_graph m, ?_⟩
  intro call st' hst' _ hgen
  obtain ⟨st, hst, heq⟩ := stop_starts hst'
  rw [stop_generation, heq] at hgen
  exact absurd (h call st hst) (by rw [hgen]; exact Nat.not_succ_le_self _)

/-- `onEnded` is told, and the capture stops. -/
theorem Effect.of_stop {m₁ : MicCapture} {call : ℕ} {reason : String} (h : m.Sound) (hquiet : Quiet m m₁) (hgraph : m.graph = some call) :
    Effect m (m₁.emit [.ended call reason]).stop := by
  refine .ended call reason hgraph (dead_stop ?_) ?_ ?_
  · intro i st' hst'
    obtain ⟨st, hst, hgen, -⟩ := hquiet.starts i st' hst'
    rw [hgen]
    exact (h.bounded i st hst).trans hquiet.generation.ge
  · rw [stop_trace, show (m₁.emit [.ended call reason]).trace = m₁.trace ++ [.ended call reason] from rfl, hquiet.trace,
      List.append_assoc]
    rfl
  · rw [stop_length]
    exact hquiet.length

theorem Quiet.refl (m : MicCapture) : Quiet m m := ⟨rfl, rfl, rfl, Or.inl rfl, fun _ st h => ⟨st, h, rfl, id⟩⟩

theorem Quiet.put {call : ℕ} {st st' : Start} (hst : m.starts[call]? = some st) (hgen : st'.generation = st.generation)
    (hpc : st'.pc.inFlight = true → st.pc.inFlight = true) : Quiet m (m.put call st') := by
  refine ⟨rfl, rfl, List.length_set, Or.inl rfl, ?_⟩
  intro i st₁ hi
  rcases getElem?_put (List.getElem?_eq_some_iff.mp hst).1 hi with ⟨rfl, rfl⟩ | ⟨-, hi⟩
  · exact ⟨st, hst, hgen, hpc⟩
  · exact ⟨st₁, hi, rfl, id⟩

theorem Quiet.complete {call : ℕ} {st : Start} (h : m.Sound) (hst : m.starts[call]? = some st) (hpc : st.pc.inFlight = true)
    (build : Option Thrown) : Quiet m (m.complete call st build) := by
  unfold MicCapture.complete
  split
  · exact .put hst rfl (fun hflight => nomatch hflight)
  · rename_i hgen
    have hgen := not_not.mp hgen
    cases build with
    | some err => exact .put hst rfl (fun hflight => nomatch hflight)
    | none =>
        have hput : Quiet m (m.put call st.connected) := .put hst rfl (fun hflight => nomatch hflight)
        exact ⟨rfl, rfl, hput.length, Or.inr ⟨(h.current call st hst hpc hgen).1, call, st, hst, hpc, hgen⟩, hput.starts⟩

theorem effect_of_step (h : m.Sound) (hl : Provider.browser l = true) (hm' : m.step l = some m') : Effect m m' := by
  cases l with
  | start mediaDevices workletNode => cases hl
  | stop => cases hl
  | userMedia call result ctor =>
      obtain ⟨st, hwait, rfl⟩ := Option.map_eq_some_iff.mp hm'
      obtain ⟨hst, hpc⟩ := waiting_eq_some hwait
      have hflight : st.pc.inFlight = true := by rw [hpc]; rfl
      refine .quiet ?_
      unfold gotUserMedia
      cases result with
      | error err => exact .put hst rfl (fun _ => hflight)
      | ok tracks =>
          dsimp only
          split
          · exact .put hst rfl (fun _ => hflight)
          · cases ctor <;> exact .put hst rfl (fun _ => hflight)
  | moduleAdded call result build =>
      obtain ⟨st, hwait, rfl⟩ := Option.map_eq_some_iff.mp hm'
      obtain ⟨hst, hpc⟩ := waiting_eq_some hwait
      have hflight : st.pc.inFlight = true := by rw [hpc]; rfl
      refine .quiet ?_
      unfold moduleAdded
      cases result with
      | error err => exact .put hst rfl (fun _ => hflight)
      | ok =>
          dsimp only
          split
          · exact .put hst rfl (fun _ => hflight)
          · exact .complete h hst hflight build
  | resumed call result build =>
      obtain ⟨st, hwait, rfl⟩ := Option.map_eq_some_iff.mp hm'
      obtain ⟨hst, hpc⟩ := waiting_eq_some hwait
      have hflight : st.pc.inFlight = true := by rw [hpc]; rfl
      refine .quiet ?_
      unfold resumed
      cases result with
      | error err => exact .put hst rfl (fun _ => hflight)
      | ok => exact .complete h hst hflight build
  | abandoned call =>
      obtain ⟨st, hst, hm'⟩ := Option.bind_eq_some_iff.mp hm'
      split at hm'
      · cases hm'
        exact .quiet (.put hst rfl (fun hflight => nomatch hflight))
      · cases hm'
  | trackEnded call track =>
      obtain ⟨st, hst, hm'⟩ := Option.bind_eq_some_iff.mp hm'
      obtain ⟨stream, hstream, hm'⟩ := Option.bind_eq_some_iff.mp hm'
      unfold endTrack at hm'
      split at hm'
      · have hput : Quiet m (m.put call { st with stream := some { stream with tracks := stream.tracks.set track false } }) :=
          .put hst rfl id
        rw [Option.some.injEq] at hm'
        rw [← hm']
        split
        · rename_i hlisten
          have hgraph := h.graph_of_stream hst hstream hlisten
          unfold handleTrackEnded
          rw [if_neg (by rw [show (m.put call _).graph = m.graph from rfl, hgraph]; exact nofun)]
          exact .of_stop h hput hgraph
        · exact .quiet hput
      · cases hm'
  | processorError call =>
      obtain ⟨st, hst, hm'⟩ := Option.bind_eq_some_iff.mp hm'
      obtain ⟨node, hnode, rfl⟩ := Option.map_eq_some_iff.mp hm'
      unfold processorError
      split
      · rename_i hlisten
        exact .of_stop h (.refl m) (h.graph_of_node hst hnode hlisten)
      · exact .quiet (.refl m)
  | message call isFrame pcm rms =>
      obtain ⟨st, hst, hm'⟩ := Option.bind_eq_some_iff.mp hm'
      obtain ⟨node, hnode, rfl⟩ := Option.map_eq_some_iff.mp hm'
      unfold message
      split
      · rename_i hframe
        exact .frame call pcm rms (h.graph_of_node hst hnode hframe.1) hframe.2.2 rfl
      · exact .quiet (.refl m)
  | context call state =>
      obtain ⟨st, hst, hm'⟩ := Option.bind_eq_some_iff.mp hm'
      obtain ⟨ctx, hctx, hm'⟩ := Option.bind_eq_some_iff.mp hm'
      split at hm'
      · cases hm'
      · cases hm'
        exact .quiet (.put hst rfl id)

theorem Effect.length (h : Effect m m') : m'.starts.length = m.starts.length := by
  cases h with
  | quiet h => exact h.length
  | frame call pcm rms hgraph hlength heq => rw [heq]; rfl
  | ended call reason hgraph hdead htrace hlength => exact hlength

theorem Dead.effect (h : m.Dead) (heff : Effect m m') : m'.Dead ∧ m'.trace = m.trace := by
  cases heff with
  | quiet hq =>
      refine ⟨⟨?_, ?_⟩, hq.trace⟩
      · rcases hq.graph with hgraph | ⟨-, call, st, hst, hflight, hgen⟩
        · exact hgraph.trans h.graph
        · exact absurd hgen (h.overtaken call st hst hflight)
      · intro call st' hst' hflight
        obtain ⟨st, hst, hgen, hpc⟩ := hq.starts call st' hst'
        rw [hgen, hq.generation]
        exact h.overtaken call st hst (hpc hflight)
  | frame call pcm rms hgraph hlength heq => cases h.graph.symm.trans hgraph
  | ended call reason hgraph hdead htrace hlength => cases h.graph.symm.trans hgraph

end MicCapture

namespace Provider

variable {p p' : Provider} {l : ProviderLabel}

/-! ## The captures -/

/-- A capture that is not the one in `micRef` is dead. -/
structure MicSound (p : Provider) : Prop where
  mics : ∀ (m : ℕ) (mic : Mic), p.mics[m]? = some mic → mic.capture.Sound ∧ mic.capture.starts.length = 1
  dead : ∀ (m : ℕ) (mic : Mic), p.mics[m]? = some mic → p.micRef ≠ some m → mic.capture.Dead
  micRef : ∀ m, p.micRef = some m → ∃ mic, p.mics[m]? = some mic ∧ .started 0 ∈ since MicCapture.isStopped mic.capture.trace ∧
    (p.micStatus = .starting ∨ p.micStatus = .on ∧ mic.capture.graph.isSome)
  muted : p.micRef = none → p.micStatus = .off

theorem MicSound.congr (h : p.MicSound) (hmics : p'.mics = p.mics) (href : p'.micRef = p.micRef)
    (hstatus : p'.micStatus = p.micStatus) : p'.MicSound := by
  constructor
  · rw [hmics]
    exact h.mics
  · rw [hmics, href]
    exact h.dead
  · rw [hmics, href, hstatus]
    exact h.micRef
  · rw [href, hstatus]
    exact h.muted

theorem getElem?_modifyMic {f : Mic → Mic} {m i : ℕ} {mic' : Mic} (h : (p.mics.modify m f)[i]? = some mic') :
    ∃ mic, p.mics[i]? = some mic ∧ (i = m ∧ mic' = f mic ∨ i ≠ m ∧ mic' = mic) := by
  rw [List.getElem?_modify] at h
  obtain ⟨mic, hmic, rfl⟩ := Option.map_eq_some_iff.mp h
  refine ⟨mic, hmic, ?_⟩
  by_cases hi : m = i
  · exact Or.inl ⟨hi.symm, if_pos hi⟩
  · exact Or.inr ⟨Ne.symm hi, if_neg hi⟩

/-- The captures when the one in `micRef` has been stopped. -/
def silenced (p : Provider) : List Mic :=
  p.micRef.elim p.mics (fun m => p.mics.modify m (fun mic => { mic with capture := mic.capture.stop }))

theorem releaseMic_eq (p : Provider) : p.releaseMic = { p with mics := p.silenced, micRef := none } := by
  unfold releaseMic silenced
  cases href : p.micRef with
  | none =>
      show p = { p with mics := p.mics, micRef := none }
      rw [← href]
  | some m => rfl

/-- The microphone is turned off. -/
theorem MicSound.silenced (h : p.MicSound) (hmics : p'.mics = p.silenced) (href' : p'.micRef = none) (hstatus : p'.micStatus = .off) :
    p'.MicSound := by
  unfold Provider.silenced at hmics
  cases href : p.micRef with
  | none =>
      rw [href] at hmics
      exact h.congr hmics (href'.trans href.symm) (hstatus.trans (h.muted href).symm)
  | some active =>
      rw [href] at hmics
      refine ⟨?_, ?_, fun m hm => (nomatch href'.symm.trans hm), fun _ => hstatus⟩
      · intro m mic' hmic'
        rw [hmics] at hmic'
        obtain ⟨mic, hmic, ⟨-, rfl⟩ | ⟨-, rfl⟩⟩ := getElem?_modifyMic hmic'
        · exact ⟨(h.mics m mic hmic).1.stop, (MicCapture.stop_length _).trans (h.mics m mic hmic).2⟩
        · exact h.mics m mic' hmic
      · intro m mic' hmic' _
        rw [hmics] at hmic'
        obtain ⟨mic, hmic, ⟨-, rfl⟩ | ⟨hne, rfl⟩⟩ := getElem?_modifyMic hmic'
        · exact MicCapture.dead_stop (h.mics m mic hmic).1.bounded
        · exact h.dead m mic' hmic (fun heq => hne (Option.some.inj (href.symm.trans heq)).symm)

/-- A capture is made and started. -/
theorem MicSound.begun (h : p.MicSound) (href : p.micRef = none) (mediaDevices workletNode : Bool)
    (hmics : p'.mics = p.mics ++ [{ capture := ({} : MicCapture).start mediaDevices workletNode }])
    (href' : p'.micRef = some p.mics.length) (hstatus : p'.micStatus = .starting) : p'.MicSound := by
  have hone : (({} : MicCapture).start mediaDevices workletNode).starts.length = 1 ∧
      .started 0 ∈ since MicCapture.isStopped (({} : MicCapture).start mediaDevices workletNode).trace := by
    cases mediaDevices <;> cases workletNode <;> exact ⟨rfl, by decide⟩
  have hget : ∀ {m mic}, p'.mics[m]? = some mic →
      p.mics[m]? = some mic ∨ m = p.mics.length ∧ mic = { capture := ({} : MicCapture).start mediaDevices workletNode } := by
    intro m mic hmic
    rw [hmics, List.getElem?_append] at hmic
    split at hmic
    · exact Or.inl hmic
    · rename_i hle
      have hm : m - p.mics.length = 0 := by
        by_contra hne
        rw [List.getElem?_eq_none (by simpa using Nat.one_le_iff_ne_zero.mpr hne)] at hmic
        cases hmic
      rw [hm] at hmic
      exact Or.inr ⟨by omega, (Option.some.inj hmic).symm⟩
  refine ⟨?_, ?_, ?_, fun hnone => nomatch href'.symm.trans hnone⟩
  · intro m mic hmic
    rcases hget hmic with hmic | ⟨-, rfl⟩
    · exact h.mics m mic hmic
    · exact ⟨MicCapture.sound_new.start mediaDevices workletNode, hone.1⟩
  · intro m mic hmic hne
    rcases hget hmic with hmic | ⟨rfl, -⟩
    · exact h.dead m mic hmic (by rw [href]; exact nofun)
    · exact absurd href' hne
  · intro m hm
    cases href'.symm.trans hm
    exact ⟨_, by rw [hmics]; exact List.getElem?_concat_length, hone.2, Or.inl hstatus⟩

/-- The call of `startMic` goes on. -/
theorem MicSound.micStarted (h : p.MicSound) {m : ℕ} {mic : Mic} {error : Option String} (hmic : p.mics[m]? = some mic)
    (hpcs : mic.capture.starts.map Start.pc = [.settled error]) : (p.micStarted m error).MicSound := by
  have hget : ∀ {i : ℕ} {mic' : Mic}, (p.mics.modify m (fun mic => { mic with waiting := false }))[i]? = some mic' →
      ∃ mic : Mic, p.mics[i]? = some mic ∧ mic'.capture = mic.capture := by
    intro i mic' hmic'
    obtain ⟨old, hold, ⟨-, rfl⟩ | ⟨-, rfl⟩⟩ := getElem?_modifyMic hmic'
    · exact ⟨old, hold, rfl⟩
    · exact ⟨mic', hold, rfl⟩
  have hself : (p.mics.modify m (fun mic => { mic with waiting := false }))[m]? = some { mic with waiting := false } := by
    rw [List.getElem?_modify_eq, hmic]
    rfl
  have hmics : ∀ (i : ℕ) (mic' : Mic), (p.mics.modify m (fun mic => { mic with waiting := false }))[i]? = some mic' →
      mic'.capture.Sound ∧ mic'.capture.starts.length = 1 := by
    intro i mic' hmic'
    obtain ⟨old, hold, heq⟩ := hget hmic'
    rw [heq]
    exact h.mics i old hold
  have hpc : ∀ (i : ℕ) (st : Start), mic.capture.starts[i]? = some st → st.pc = .settled error := by
    intro i st hst
    have hmem := List.mem_map_of_mem (f := Start.pc) (List.mem_of_getElem? hst)
    rw [hpcs] at hmem
    exact List.mem_singleton.mp hmem
  unfold Provider.micStarted
  dsimp only
  split
  · rename_i hne
    refine ⟨hmics, ?_, ?_, h.muted⟩
    · intro i mic' hmic' hi
      obtain ⟨old, hold, heq⟩ := hget hmic'
      rw [heq]
      exact h.dead i old hold hi
    · intro i hi
      obtain ⟨old, hold, hfresh, hstatus⟩ := h.micRef i hi
      refine ⟨old, ?_, hfresh, hstatus⟩
      rw [List.getElem?_modify_ne _ _ (fun heq : m = i => hne (heq ▸ hi))]
      exact hold
  · rename_i href
    have href := not_not.mp href
    have hfresh : .started 0 ∈ since MicCapture.isStopped mic.capture.trace := by
      obtain ⟨old, hold, hfresh, -⟩ := h.micRef m href
      cases hmic.symm.trans hold
      exact hfresh
    obtain ⟨hsound, hone⟩ := h.mics m mic hmic
    cases error with
    | none =>
        have hgraph : mic.capture.graph.isSome := by
          obtain ⟨st, hst⟩ : ∃ st, mic.capture.starts[0]? = some st := ⟨_, List.getElem?_eq_getElem (by rw [hone]; exact Nat.one_pos)⟩
          refine (hsound.resolved 0 st hst (Or.inl (hpc 0 st hst))).resolve_right ?_
          rintro (hstopped | hlater)
          · exact hstopped hfresh
          · rw [hone] at hlater
            exact absurd hlater (lt_irrefl _)
        refine ⟨hmics, ?_, ?_, fun hnone => by cases href.symm.trans hnone⟩
        · intro i mic' hmic' hi
          obtain ⟨old, hold, heq⟩ := hget hmic'
          rw [heq]
          exact h.dead i old hold hi
        · intro i hi
          cases href.symm.trans hi
          exact ⟨_, hself, hfresh, Or.inr ⟨rfl, hgraph⟩⟩
    | some message =>
        refine ⟨hmics, ?_, nofun, fun _ => rfl⟩
        intro i mic' hmic' _
        obtain ⟨old, hold, heq⟩ := hget hmic'
        rw [heq]
        by_cases hi : i = m
        · subst hi
          cases hmic.symm.trans hold
          refine ⟨?_, fun j st hst hflight => ?_⟩
          · by_contra hne
            obtain ⟨j, hj⟩ := Option.ne_none_iff_exists'.mp hne
            obtain ⟨st, hst, hrun⟩ := hsound.running j hj
            cases (hpc j st hst).symm.trans hrun.pc
          · rw [hpc j st hst] at hflight
            cases hflight
        · exact h.dead i old hold (fun heq => hi (Option.some.inj (href.symm.trans heq)).symm)

/-- What the callbacks of a capture leave of the captures and of their status. -/
theorem micEvent_quiet (p : Provider) (m : ℕ) {old new : MicCapture} (h : new.trace = old.trace) :
    p.micEvent m old new = p.capture m (fun _ => new) := by
  unfold micEvent
  rw [h, List.drop_length]
  rfl

theorem micEvent_append (p : Provider) (m : ℕ) {old new : MicCapture} {es : List MicEvent} (h : new.trace = old.trace ++ es) :
    p.micEvent m old new = es.foldl (onMicEvent m) (p.capture m (fun _ => new)) := by
  unfold micEvent
  rw [h, List.drop_left]

/-- What happens to a capture that is `micRef`, or to a dead one. -/
theorem MicSound.capture (h : p.MicSound) {m : ℕ} {mic : Mic} {new : MicCapture} (hmic : p.mics[m]? = some mic)
    (hsound : new.Sound) (hone : new.starts.length = 1) (hdead : mic.capture.Dead → new.Dead)
    (hfresh : p.micRef = some m → .started 0 ∈ since MicCapture.isStopped new.trace)
    (hgraph : p.micRef = some m → mic.capture.graph.isSome → new.graph.isSome) : (p.capture m (fun _ => new)).MicSound := by
  refine ⟨?_, ?_, ?_, h.muted⟩
  · intro i mic' hmic'
    obtain ⟨old, hold, ⟨rfl, rfl⟩ | ⟨-, rfl⟩⟩ := getElem?_modifyMic hmic'
    · exact ⟨hsound, hone⟩
    · exact h.mics i mic' hold
  · intro i mic' hmic' hi
    obtain ⟨old, hold, ⟨rfl, rfl⟩ | ⟨-, rfl⟩⟩ := getElem?_modifyMic hmic'
    · exact hdead (Option.some.inj (hold.symm.trans hmic) ▸ h.dead i old hold hi)
    · exact h.dead i mic' hold hi
  · intro i hi
    obtain ⟨old, hold, holdFresh, hstatus⟩ := h.micRef i hi
    by_cases him : i = m
    · subst him
      cases hmic.symm.trans hold
      refine ⟨{ mic with capture := new }, ?_, hfresh hi, hstatus.imp_right (fun hon => ⟨hon.1, hgraph hi hon.2⟩)⟩
      show (p.mics.modify i _)[i]? = _
      rw [List.getElem?_modify_eq, hmic]
      rfl
    · refine ⟨old, ?_, holdFresh, hstatus⟩
      show (p.mics.modify m _)[i]? = _
      rw [List.getElem?_modify_ne _ _ (Ne.symm him)]
      exact hold

theorem MicSound.micEvent (h : p.MicSound) {m : ℕ} {mic : Mic} {l : MicLabel} {new : MicCapture} (hmic : p.mics[m]? = some mic)
    (hl : browser l = true) (hnew : mic.capture.step l = some new) : (p.micEvent m mic.capture new).MicSound := by
  obtain ⟨hsound, hone⟩ := h.mics m mic hmic
  have heff := MicCapture.effect_of_step hsound hl hnew
  have hsound' := hsound.step hnew
  have hone' := heff.length.trans hone
  have hself : p.micRef = some m → .started 0 ∈ since MicCapture.isStopped mic.capture.trace := by
    intro hm
    obtain ⟨old, hold, hfresh, -⟩ := h.micRef m hm
    cases hmic.symm.trans hold
    exact hfresh
  cases heff with
  | quiet hq =>
      rw [micEvent_quiet p m hq.trace]
      refine h.capture hmic hsound' hone' (fun hdead => (hdead.effect (.quiet hq)).1) (fun hm => ?_) (fun hm hgraph => ?_)
      · rw [hq.trace]
        exact hself hm
      · rcases hq.graph with heq | ⟨hnone, -⟩
        · rw [heq]
          exact hgraph
        · rw [hnone] at hgraph
          cases hgraph
  | frame call pcm rms hgraph hlength heq =>
      have htrace : new.trace = mic.capture.trace ++ [.frame call pcm, .level call rms] := by rw [heq]; rfl
      have hcap : (p.capture m (fun _ => new)).MicSound := by
        refine h.capture hmic hsound' hone' (fun hdead => ?_) (fun hm => ?_) (fun _ _ => ?_)
        · cases hdead.graph.symm.trans hgraph
        · have hsince : since MicCapture.isStopped new.trace =
              since MicCapture.isStopped mic.capture.trace ++ [.frame call pcm] ++ [.level call rms] := by
            rw [htrace, ← since_concat_of_neg (p := MicCapture.isStopped) (a := .frame call pcm) rfl,
              ← since_concat_of_neg (p := MicCapture.isStopped) (a := .level call rms) rfl, List.append_assoc]
            rfl
          rw [hsince]
          exact List.mem_append_left _ (List.mem_append_left _ (hself hm))
        · rw [heq]
          exact Option.isSome_iff_exists.mpr ⟨call, hgraph⟩
      rw [micEvent_append p m htrace]
      show ((onMicEvent m (p.capture m (fun _ => new)) (.frame call pcm))).MicSound
      unfold onMicEvent
      cases hws : (p.capture m (fun _ => new)).wsRef with
      | none => exact hcap
      | some k => exact hcap.congr rfl rfl rfl
  | ended call reason hgraph hdead htrace hlength =>
      have href : p.micRef = some m := by
        by_contra hne
        cases (h.dead m mic hmic hne).graph.symm.trans hgraph
      have hres : p.micEvent m mic.capture new =
          { p.capture m (fun _ => new) with micRef := none, micStatus := .off, micError := some reason } := by
        rw [micEvent_append p m htrace]
        exact if_neg (not_not.mpr href)
      rw [hres]
      refine ⟨?_, ?_, nofun, fun _ => rfl⟩
      · intro i mic' hmic'
        obtain ⟨old, hold, ⟨rfl, rfl⟩ | ⟨-, rfl⟩⟩ := getElem?_modifyMic hmic'
        · exact ⟨hsound', hone'⟩
        · exact h.mics i mic' hold
      · intro i mic' hmic' _
        obtain ⟨old, hold, ⟨rfl, rfl⟩ | ⟨hne, rfl⟩⟩ := getElem?_modifyMic hmic'
        · exact hdead
        · exact h.dead i mic' hold (fun heq => hne (Option.some.inj (href.symm.trans heq)).symm)

end Provider

/-! ## The sessions -/

/-- What a message does to `dropAudioRef`. -/
def dropNext (drop : Bool) : Inbound → Bool
  | .json .ttsStart => false
  | .json (.ttsClear _) => true
  | _ => drop

/-- What the player is told at a message. -/
def told (drop : Bool) : Inbound → List PlayerCall
  | .json .ttsStart => [.beginStream]
  | .json (.ttsClear _) => [.clear]
  | .binary bytes => if drop then [] else [.push bytes]
  | _ => []

/-- `dropAudioRef` after the messages. -/
def dropAfter (messages : List Inbound) : Bool := messages.foldl dropNext false

/-- What the player is told at the messages that come in, from `drop` on. -/
def gateFrom (drop : Bool) : List Inbound → List PlayerCall
  | [] => []
  | message :: messages => told drop message ++ gateFrom (dropNext drop message) messages

/-- What the player is told at the messages of a session. -/
def gate (messages : List Inbound) : List PlayerCall := gateFrom false messages

theorem gateFrom_append (drop : Bool) (messages more : List Inbound) :
    gateFrom drop (messages ++ more) = gateFrom drop messages ++ gateFrom (messages.foldl dropNext drop) more := by
  induction messages generalizing drop with
  | nil => rfl
  | cons message messages ih => rw [List.cons_append, gateFrom, gateFrom, ih, List.append_assoc, List.foldl_cons]

theorem gate_concat (messages : List Inbound) (message : Inbound) :
    gate (messages ++ [message]) = gate messages ++ told (dropAfter messages) message := by
  unfold gate
  rw [gateFrom_append, gateFrom, gateFrom, List.append_nil]
  rfl

theorem dropAfter_concat (messages : List Inbound) (message : Inbound) :
    dropAfter (messages ++ [message]) = dropNext (dropAfter messages) message := by
  unfold dropAfter
  rw [List.foldl_append]
  rfl

namespace Session

variable {s : Session} {drop : Bool}

/-- The calls of the player, but for those that the user makes. -/
def calls (s : Session) : List PlayerCall := s.player.filter (fun c => c ≠ .reset)

/-- The handlers of the session are set and its socket is not closed. -/
structure Live (s : Session) (drop : Bool) : Prop where
  attached : s.attached = true
  ws : s.ws = true
  readyState : s.readyState ≠ .closed
  told : s.calls = .init :: gate s.inbox
  drop : dropAfter s.inbox = drop

/-- The session is over: its handlers are gone or will not be called any more, and its player is closed. -/
structure Over (s : Session) : Prop where
  late : s.attached = false ∨ s.readyState = .closed
  told : s.calls = .init :: (gate s.inbox ++ [.close])

theorem calls_call (s : Session) {c : PlayerCall} (hc : c ≠ .reset) : (s.call c).calls = s.calls ++ [c] := by
  unfold calls call
  rw [List.filter_append, List.filter_cons_of_pos (by simpa using hc)]
  rfl

/-- Something is sent, the user resets the player, or the amount changes that waits to be sent. -/
structure Kept (s s' : Session) : Prop where
  attached : s'.attached = s.attached
  ws : s'.ws = s.ws
  readyState : s'.readyState = s.readyState
  calls : s'.calls = s.calls
  inbox : s'.inbox = s.inbox

theorem Kept.over {s' : Session} (h : s.Kept s') (hover : s.Over) : s'.Over := by
  refine ⟨by rw [h.attached, h.readyState]; exact hover.late, ?_⟩
  rw [h.calls, h.inbox, hover.told]

theorem kept_sendJson (s : Session) (text : Text) : s.Kept (s.sendJson text) := by
  unfold sendJson
  split <;> exact ⟨rfl, rfl, rfl, rfl, rfl⟩

theorem kept_sendBinary (s : Session) (mic : ℕ) (pcm : Bytes) : s.Kept (s.sendBinary mic pcm) := by
  unfold sendBinary
  split <;> exact ⟨rfl, rfl, rfl, rfl, rfl⟩

theorem kept_reset (s : Session) : s.Kept (s.call .reset) := by
  refine ⟨rfl, rfl, rfl, ?_, rfl⟩
  unfold calls call
  rw [List.filter_append]
  exact List.append_nil _

theorem Kept.live {s' : Session} (h : s.Kept s') (hlive : s.Live drop) : s'.Live drop := by
  refine ⟨h.attached.trans hlive.attached, h.ws.trans hlive.ws, h.readyState ▸ hlive.readyState, ?_, ?_⟩
  · rw [h.calls, h.inbox, hlive.told]
  · rw [h.inbox, hlive.drop]

theorem sent_sendJson (s : Session) (text : Text) : (s.sendJson text).sent = s.sent ∨
    s.isConnected = true ∧ ∃ text', (s.sendJson text).sent = s.sent ++ [.json text'] := by
  unfold sendJson
  split_ifs with hconn
  · exact Or.inr ⟨hconn, text, rfl⟩
  · exact Or.inl rfl

theorem sent_disconnect (s : Session) : (s.disconnect.call .close).sent = s.sent := by
  unfold disconnect
  split_ifs <;> rfl

theorem Live.new : ({} : Session).Live false := ⟨rfl, rfl, nofun, rfl, rfl⟩

/-- A message of the server, and what the player is told at it. -/
theorem Live.told_of (h : s.Live drop) {s' : Session} (message : Inbound) (hattached : s'.attached = s.attached)
    (hws : s'.ws = s.ws) (hready : s'.readyState = s.readyState) (hinbox : s'.inbox = s.inbox ++ [message])
    (hcalls : s'.calls = s.calls ++ Web.told drop message) : s'.Live (dropNext drop message) := by
  refine ⟨hattached.trans h.attached, hws.trans h.ws, hready ▸ h.readyState, ?_, ?_⟩
  · rw [hcalls, h.told, hinbox, gate_concat, h.drop]
    rfl
  · rw [hinbox, dropAfter_concat, h.drop]

/-- The browser tells something of the socket of a session, and no handler is called. -/
structure Aside (s s' : Session) : Prop where
  inbox : s'.inbox = s.inbox
  sent : s'.sent = s.sent
  player : s'.player = s.player
  live : ∀ {drop : Bool}, s.Live drop → s'.Live drop
  ended : s.Over → s'.Over

end Session

namespace Provider

variable {p p' : Provider} {k : ℕ} {l : ProviderLabel}

structure SessionSound (p : Provider) : Prop where
  active : ∀ k, p.wsRef = some k → ∃ s, p.sessions[k]? = some s ∧ s.Live p.dropAudio
  ended : ∀ (k : ℕ) (s : Session), p.sessions[k]? = some s → p.wsRef ≠ some k → s.Over
  player : p.playerRef = p.wsRef

theorem getElem?_modifySession {f : Session → Session} {i : ℕ} {s' : Session} (h : (p.sessions.modify k f)[i]? = some s') :
    ∃ s, p.sessions[i]? = some s ∧ (i = k ∧ s' = f s ∨ i ≠ k ∧ s' = s) := by
  rw [List.getElem?_modify] at h
  obtain ⟨s, hs, rfl⟩ := Option.map_eq_some_iff.mp h
  refine ⟨s, hs, ?_⟩
  by_cases hi : k = i
  · exact Or.inl ⟨hi.symm, if_pos hi⟩
  · exact Or.inr ⟨Ne.symm hi, if_neg hi⟩

/-- The session that is on changes, and stays live. -/
theorem SessionSound.update (h : p.SessionSound) (hws : p.wsRef = some k) {f : Session → Session}
    (hsessions : p'.sessions = p.sessions.modify k f) (hws' : p'.wsRef = p.wsRef) (hplayer : p'.playerRef = p.playerRef)
    (hf : ∀ s : Session, s.Live p.dropAudio → (f s).Live p'.dropAudio) : p'.SessionSound := by
  refine ⟨?_, ?_, by rw [hplayer, hws', h.player]⟩
  · intro i hi
    rw [hws'] at hi
    obtain ⟨s, hs, hlive⟩ := h.active i hi
    cases hws.symm.trans hi
    refine ⟨f s, ?_, hf s hlive⟩
    rw [hsessions, List.getElem?_modify_eq, hs]
    rfl
  · intro i s' hs' hne
    rw [hsessions] at hs'
    rw [hws'] at hne
    obtain ⟨s, hs, ⟨rfl, -⟩ | ⟨-, rfl⟩⟩ := getElem?_modifySession hs'
    · exact absurd hws hne
    · exact h.ended i s' hs hne

/-- The session that is on ends. -/
theorem SessionSound.leave (h : p.SessionSound) (hws : p.wsRef = some k) {f : Session → Session}
    (hsessions : p'.sessions = p.sessions.modify k f) (hws' : p'.wsRef = none) (hplayer : p'.playerRef = none)
    (hf : ∀ s : Session, s.Live p.dropAudio → (f s).Over) : p'.SessionSound := by
  refine ⟨fun i hi => (nomatch hws'.symm.trans hi), ?_, hplayer.trans hws'.symm⟩
  intro i s' hs' _
  rw [hsessions] at hs'
  obtain ⟨s, hs, ⟨rfl, rfl⟩ | ⟨hne, rfl⟩⟩ := getElem?_modifySession hs'
  · obtain ⟨old, hold, hlive⟩ := h.active i hws
    cases hs.symm.trans hold
    exact hf s hlive
  · exact h.ended i s' hs (fun heq => hne (Option.some.inj (hws.symm.trans heq)).symm)

theorem SessionSound.congr (h : p.SessionSound) (hsessions : p'.sessions = p.sessions) (hws : p'.wsRef = p.wsRef)
    (hplayer : p'.playerRef = p.playerRef) (hdrop : p'.dropAudio = p.dropAudio) : p'.SessionSound := by
  constructor
  · rw [hsessions, hws, hdrop]
    exact h.active
  · rw [hsessions, hws]
    exact h.ended
  · rw [hplayer, hws]
    exact h.player

/-- Something about a session changes that neither its handlers nor its player tell. -/
theorem SessionSound.touch (h : p.SessionSound) {s : Session} (hs : p.sessions[k]? = some s) {f : Session → Session}
    (hsessions : p'.sessions = p.sessions.modify k f) (hws : p'.wsRef = p.wsRef) (hplayer : p'.playerRef = p.playerRef)
    (hdrop : p'.dropAudio = p.dropAudio) (hlive : s.Live p.dropAudio → (f s).Live p.dropAudio) (hover : s.Over → (f s).Over) :
    p'.SessionSound := by
  refine ⟨?_, ?_, by rw [hplayer, hws, h.player]⟩
  · intro i hi
    rw [hws] at hi
    obtain ⟨old, hold, hl⟩ := h.active i hi
    rw [hsessions, hdrop, List.getElem?_modify]
    by_cases hik : k = i
    · subst hik
      cases hs.symm.trans hold
      exact ⟨f s, by simp [hs], hlive hl⟩
    · exact ⟨old, by simp [hold, hik], hl⟩
  · intro i s' hs' hne
    rw [hsessions] at hs'
    rw [hws] at hne
    obtain ⟨old, hold, ⟨rfl, rfl⟩ | ⟨-, rfl⟩⟩ := getElem?_modifySession hs'
    · cases hs.symm.trans hold
      exact hover (h.ended i s hs hne)
    · exact h.ended i s' hold hne

/-- A session whose handlers are called is the one that is on. -/
theorem SessionSound.on (h : p.SessionSound) {s : Session} (hs : p.sessions[k]? = some s) (hattached : s.attached = true)
    (hready : s.readyState ≠ .closed) : p.wsRef = some k := by
  by_contra hne
  rcases (h.ended k s hs hne).late with hlate | hlate
  · rw [hattached] at hlate
    cases hlate
  · exact hready hlate

theorem SessionSound.kept (h : p.SessionSound) {f : Session → Session} (hf : ∀ s : Session, s.Kept (f s))
    (hsessions : p'.sessions = p.sessions.modify k f) (hws : p'.wsRef = p.wsRef) (hplayer : p'.playerRef = p.playerRef)
    (hdrop : p'.dropAudio = p.dropAudio) : p'.SessionSound := by
  cases hs : p.sessions[k]? with
  | none =>
      refine h.congr (hsessions.trans (List.modify_eq_self ?_)) hws hplayer hdrop
      exact List.getElem?_eq_none_iff.mp hs
  | some s => exact h.touch hs hsessions hws hplayer hdrop (hf s).live (hf s).over

/-- A session is made. -/
theorem SessionSound.connected (h : p.SessionSound) (hws : p.wsRef = none) (hsessions : p'.sessions = p.sessions ++ [({} : Session)])
    (hws' : p'.wsRef = some p.sessions.length) (hplayer : p'.playerRef = some p.sessions.length) (hdrop : p'.dropAudio = false) :
    p'.SessionSound := by
  refine ⟨?_, ?_, hplayer.trans hws'.symm⟩
  · intro k hk
    cases hws'.symm.trans hk
    rw [hsessions, hdrop]
    exact ⟨{}, List.getElem?_concat_length, .new⟩
  · intro k s hs hne
    rw [hsessions] at hs
    rcases lt_trichotomy k p.sessions.length with hlt | rfl | hlt
    · rw [List.getElem?_append_left hlt] at hs
      exact h.ended k s hs (by rw [hws]; exact nofun)
    · exact absurd hws' hne
    · rw [List.getElem?_eq_none (by rw [List.length_append]; exact hlt)] at hs
      cases hs

/-! ## What a step does -/

structure Sound (p : Provider) : Prop where
  mic : p.MicSound
  session : p.SessionSound
  gone : p.wsRef = none → p.micRef = none ∧ p.connectionStatus = .disconnected

/-- The server announces no other status than `connected`. -/
def Fair : Inbound → Prop
  | .json (.connection status _) => status = "connected".toList
  | _ => True

theorem fair_of_serverFair {now : ℕ} {e : ServerEvent} (h : serverFair (.message k e now) = true) : Fair (.json e) := by
  cases e with
  | connection status conversationId =>
      have hstatus : decide (status = "connected".toList) = true := h
      exact (of_decide_eq_true hstatus : status = _)
  | _ => trivial

/-- The socket that an event is about. -/
def socketOf : ProviderLabel → Option ℕ
  | .opened k _ | .message k _ _ | .binary k _ | .closing k | .closed k _ | .buffered k _ => some k
  | _ => none

/-- What a step does, and the socket that it is about. -/
inductive Change (p : Provider) (l : ProviderLabel) : Option ℕ → Provider → Prop
  | same {socket : Option ℕ} : Change p l socket p
  | connected (hws : p.wsRef = none) :
      Change p l none { p with
        connectionStatus := .connecting
        connectionError := none
        sessions := p.sessions ++ [{}]
        wsRef := some p.sessions.length
        playerRef := some p.sessions.length
        dropAudio := false }
  | released (page : VoxeraState) (bargeInTimeout : Bool) (connectionError micError : Option String) :
      Change p l none { p with
        page, bargeInTimeout, connectionError, micError
        mics := p.silenced
        micRef := none
        micStatus := .off }
  | left {k : ℕ} {socket : Option ℕ} {f : Session → Session} (hws : p.wsRef = some k) (hsocket : socket = none ∨ socket = some k)
      (hover : ∀ s : Session, s.Live p.dropAudio → (f s).Over) (hsent : ∀ s : Session, (f s).sent = s.sent)
      (page : VoxeraState) (bargeInTimeout : Bool) (connectionError micError : Option String) :
      Change p l socket { p with
        page, bargeInTimeout, connectionError, micError
        sessions := p.sessions.modify k f
        wsRef := none
        playerRef := none
        connectionStatus := .disconnected
        mics := p.silenced
        micRef := none
        micStatus := .off }
  | begun (hws : p.wsRef ≠ none) (href : p.micRef = none) (mediaDevices workletNode : Bool) :
      Change p l none { p with
        mics := p.mics ++ [{ capture := ({} : MicCapture).start mediaDevices workletNode }]
        micRef := some p.mics.length
        micStatus := .starting
        micError := none }
  | told {f : Session → Session} (hkept : ∀ s : Session, s.Kept (f s)) (hsent : ∀ s : Session, (f s).sent = s.sent ∨
      s.isConnected = true ∧ ∃ text, (f s).sent = s.sent ++ [.json text]) (page : VoxeraState) :
      Change p l none (p.wsRef.elim { p with page } (fun k => { p with page }.session k f))
  | shown (page : VoxeraState) (bargeInTimeout : Bool) : Change p l none { p with page, bargeInTimeout }
  | aside {k : ℕ} {s : Session} {f : Session → Session} (hs : p.sessions[k]? = some s) (haside : s.Aside (f s)) :
      Change p l (some k) (p.session k f)
  | opened {k : ℕ} (hws : p.wsRef = some k) (page : VoxeraState) :
      Change p l (some k) { p.session k (fun s => { s with readyState := .opened, connecting := false, connected := true }) with
        page
        connectionStatus := .connected
        connectionError := none }
  | received {k : ℕ} (hws : p.wsRef = some k) (now : ℕ) {message : Inbound} (hfair : serverFair l = true → Fair message) :
      Change p l (some k) (p.receive k now message)
  | mic {m : ℕ} {mic : Mic} {lm : MicLabel} {new : MicCapture} (hmic : p.mics[m]? = some mic) (hl : browser lm = true)
      (hnew : mic.capture.step lm = some new) : Change p l none (p.micEvent m mic.capture new)
  | micStarted {m : ℕ} {mic : Mic} {error : Option String} (hmic : p.mics[m]? = some mic)
      (hpcs : mic.capture.starts.map Start.pc = [.settled error]) : Change p l none (p.micStarted m error)

theorem stopMic_eq (p : Provider) : p.stopMic = { p with mics := p.silenced, micRef := none, micStatus := .off } := by
  unfold Provider.stopMic
  rw [releaseMic_eq]

/-- The page ends the session that is on. -/
theorem over_disconnect {s : Session} {drop : Bool} (h : s.Live drop) : (s.disconnect.call .close).Over := by
  have heq : s.disconnect = { s with
      connecting := false, connected := false, ws := false, attached := false,
      readyState := if s.readyState = .closed then .closed else .closing } := if_pos h.ws
  refine ⟨Or.inl (by rw [heq]; rfl), ?_⟩
  rw [Session.calls_call _ (by decide)]
  have hcalls : s.disconnect.calls = s.calls := by rw [heq]; rfl
  have hinbox : (s.disconnect.call .close).inbox = s.inbox := by rw [heq]; rfl
  rw [hcalls, hinbox, h.told]
  rfl

theorem disconnect_of_none (hws : p.wsRef = none) (hplayer : p.playerRef = none) :
    p.disconnect = { p with
      bargeInTimeout := false, mics := p.silenced, micRef := none, connectionStatus := .disconnected,
      connectionError := none, micStatus := .off, micError := none, page := {} } := by
  unfold Provider.disconnect
  simp only [releaseMic_eq, hws, hplayer, Option.elim_none]
  rfl

theorem disconnect_of_some (hws : p.wsRef = some k) (hplayer : p.playerRef = some k) :
    p.disconnect = { p with
      bargeInTimeout := false, mics := p.silenced, micRef := none, wsRef := none, playerRef := none,
      sessions := p.sessions.modify k (fun s => s.disconnect.call .close), connectionStatus := .disconnected,
      connectionError := none, micStatus := .off, micError := none, page := {} } := by
  unfold Provider.disconnect
  simp only [releaseMic_eq, hws, hplayer, Option.elim_some, Provider.session, List.modify_modify_eq, Function.comp_def]
  rfl

/-- A session that its socket has closed, with its player. -/
theorem over_closed {s : Session} {drop : Bool} (h : s.Live drop) :
    (({ s with readyState := .closed, connecting := false, connected := false, ws := false } : Session).call .close).Over := by
  refine ⟨Or.inr rfl, ?_⟩
  rw [Session.calls_call _ (by decide)]
  exact congrArg (· ++ [.close]) h.told

theorem session_session (p : Provider) (k : ℕ) (f g : Session → Session) :
    (p.session k f).session k g = p.session k (fun s => g (f s)) :=
  congrArg (fun sessions => { p with sessions }) (List.modify_modify_eq ..)

theorem onJson_connected (p : Provider) (k now : ℕ) :
    p.onJson k now (.connection "connected".toList none) = { p with
      page := p.page.onJson now (.connection "connected".toList none)
      connectionStatus := .connected
      connectionError := none } := by
  unfold onJson
  exact if_neg (not_not.mpr rfl)

theorem onJson_disconnected (p : Provider) (k now : ℕ) (f : Session → Session) :
    (p.session k f).onJson k now (.connection "disconnected".toList none) = { p with
      page := p.page.onJson now (.connection "disconnected".toList none)
      sessions := p.sessions.modify k (fun s => (f s).call .close)
      wsRef := none
      playerRef := none
      connectionStatus := .disconnected
      connectionError := if p.connectionStatus = .connecting then some "Could not connect to server" else p.connectionError
      mics := p.silenced
      micRef := none
      micStatus := .off } := by
  have hstatus : "disconnected".toList ≠ "connected".toList := by decide
  unfold onJson
  dsimp only
  rw [if_pos hstatus, stopMic_eq]
  simp only [Provider.session, List.modify_modify_eq, Function.comp_def]
  rfl

theorem change_of_deliver (h : p.Sound) {now : ℕ} {message : Inbound} (hfair : serverFair l = true → Fair message)
    (hp' : p.deliver k now message = some p') : Change p l (some k) p' := by
  obtain ⟨s, hs, hp'⟩ := Option.bind_eq_some_iff.mp hp'
  split_ifs at hp' with hready hattached
  · cases hp'
    exact .received (h.session.on hs hattached (by rcases hready with hr | hr <;> rw [hr] <;> exact nofun)) now hfair
  · cases hp'
    exact .same

theorem change_of_opened (h : p.Sound) {now : ℕ} (hp' : p.opened k now = some p') : Change p l (some k) p' := by
  obtain ⟨s, hs, hp'⟩ := Option.bind_eq_some_iff.mp hp'
  dsimp only at hp'
  split_ifs at hp' with hready hattached
  · cases hp'
    rw [session_session, onJson_connected]
    exact .opened (h.session.on hs hattached (by rw [hready]; exact nofun)) _
  · cases hp'
    have hlate : s.attached = false := Bool.eq_false_iff.mpr hattached
    exact .aside hs ⟨rfl, rfl, rfl, fun hlive => (nomatch hlate.symm.trans hlive.attached), fun hover => ⟨Or.inl hlate, hover.told⟩⟩

theorem change_of_closed (h : p.Sound) {now : ℕ} (hp' : p.closed k now = some p') : Change p l (some k) p' := by
  obtain ⟨s, hs, hp'⟩ := Option.bind_eq_some_iff.mp hp'
  dsimp only at hp'
  split_ifs at hp' with hready hattached
  · cases hp'
    rw [session_session, onJson_disconnected]
    exact .left (h.session.on hs hattached hready) (Or.inr rfl) (fun s hlive => over_closed hlive) (fun s => rfl) _ _ _ _
  · cases hp'
    have hlate : s.attached = false := Bool.eq_false_iff.mpr hattached
    exact .aside hs ⟨rfl, rfl, rfl, fun hlive => (nomatch hlate.symm.trans hlive.attached), fun hover => ⟨Or.inl hlate, hover.told⟩⟩

theorem change_of_step (h : p.Sound) (hp' : p.step l = some p') : Change p l (socketOf l) p' := by
  cases l with
  | connect =>
      cases hp'
      unfold connect
      split_ifs with hon
      · exact .same
      · exact .connected (Option.not_isSome_iff_eq_none.mp hon)
  | disconnect =>
      cases hp'
      cases hws : p.wsRef with
      | none =>
          rw [disconnect_of_none hws (h.session.player.trans hws), ← (h.gone hws).2]
          exact .released {} false none none
      | some k =>
          rw [disconnect_of_some hws (h.session.player.trans hws)]
          exact .left hws (Or.inl rfl) (fun s hlive => over_disconnect hlive) Session.sent_disconnect {} false none none
  | startMic mediaDevices workletNode =>
      cases hp'
      unfold startMic
      split_ifs with hfree
      · exact .same
      · obtain ⟨hconn, href⟩ : p.isConnected = true ∧ p.micRef = none := by simpa using hfree
        refine .begun (fun hnone => ?_) href mediaDevices workletNode
        simp [isConnected, hnone] at hconn
  | stopMic =>
      cases hp'
      rw [stopMic_eq]
      exact .released p.page p.bargeInTimeout p.connectionError p.micError
  | sendJson text =>
      cases hp'
      exact .told (fun s => s.kept_sendJson text) (fun s => s.sent_sendJson text) p.page
  | devTestTranscript text now json =>
      cases hp'
      exact .told (fun s => s.kept_sendJson json) (fun s => s.sent_sendJson json) (p.page.devTestTranscript text now)
  | clearConversation =>
      cases hp'
      have hplayer (q : Provider) (f : ℕ → Provider) : p.playerRef.elim q f = p.wsRef.elim q f := by rw [h.session.player]
      show Change p _ none (p.playerRef.elim _ _)
      rw [hplayer]
      exact .told (fun s => s.kept_reset) (fun s => Or.inl rfl) p.page.clearConversation
  | dismissServerError =>
      cases hp'
      exact .shown { p.page with serverError := none } p.bargeInTimeout
  | opened k now => exact change_of_opened h hp'
  | message k e now => exact change_of_deliver h fair_of_serverFair hp'
  | binary k bytes => exact change_of_deliver h (fun _ => show Fair (.binary bytes) from trivial) hp'
  | closing k =>
      obtain ⟨s, hs, hp'⟩ := Option.bind_eq_some_iff.mp hp'
      split_ifs at hp' with hready
      cases hp'
      refine .aside hs ⟨rfl, rfl, rfl, fun hlive => ?_, fun hover => ?_⟩
      · exact ⟨hlive.attached, hlive.ws, nofun, hlive.told, hlive.drop⟩
      · exact ⟨Or.inl (hover.late.resolve_right hready), hover.told⟩
  | closed k now => exact change_of_closed h hp'
  | buffered k amount =>
      obtain ⟨s, hs, hp'⟩ := Option.bind_eq_some_iff.mp hp'
      split_ifs at hp' with hamount
      cases hp'
      have hkept : s.Kept { s with bufferedAmount := amount } := ⟨rfl, rfl, rfl, rfl, rfl⟩
      exact .aside hs ⟨rfl, rfl, rfl, hkept.live, hkept.over⟩
  | mic m lm =>
      obtain ⟨mic, hmic, hp'⟩ := Option.bind_eq_some_iff.mp hp'
      split_ifs at hp' with hl
      obtain ⟨new, hnew, rfl⟩ := Option.map_eq_some_iff.mp hp'
      exact .mic hmic hl hnew
  | micStarted m =>
      obtain ⟨mic, hmic, hp'⟩ := Option.bind_eq_some_iff.mp hp'
      split at hp'
      · rename_i error hwaiting hpcs
        cases hp'
        exact .micStarted hmic hpcs
      · cases hp'
  | bargeInOver =>
      simp only [Provider.step] at hp'
      split_ifs at hp' with htimer
      cases hp'
      exact .shown { p.page with bargeIn := false } false

/-! ## Each step -/

/-- A session that gets a message and tells its player. -/
def gets (drop : Bool) (message : Inbound) (s : Session) : Session :=
  { s with inbox := s.inbox ++ [message], player := s.player ++ told drop message }

theorem calls_gets (s : Session) (drop : Bool) (message : Inbound) : (gets drop message s).calls = s.calls ++ told drop message := by
  have hall : ∀ c ∈ told drop message, c ≠ .reset := by
    intro c hc
    unfold told at hc
    split at hc
    · cases List.mem_singleton.mp hc
      exact nofun
    · cases List.mem_singleton.mp hc
      exact nofun
    · split at hc
      · cases hc
      · cases List.mem_singleton.mp hc
        exact nofun
    · cases hc
  have hkept : (told drop message).filter (fun c => c ≠ .reset) = told drop message :=
    List.filter_eq_self.mpr (fun c hc => by simpa using hall c hc)
  unfold Session.calls gets
  rw [List.filter_append, hkept]

theorem gets_of_silent {drop : Bool} {message : Inbound} (h : told drop message = []) :
    gets drop message = fun s => { s with inbox := s.inbox ++ [message] } := by
  funext s
  unfold gets
  rw [h, List.append_nil]

theorem modify_gets {drop : Bool} {message : Inbound} {c : PlayerCall} (h : told drop message = [c]) (sessions : List Session) :
    (sessions.modify k (fun s => { s with inbox := s.inbox ++ [message] })).modify k (fun s => s.call c) =
      sessions.modify k (gets drop message) := by
  rw [List.modify_modify_eq]
  refine congrArg (sessions.modify k) (funext fun s => ?_)
  unfold gets
  rw [h]
  rfl

/-- What the handler of a message does, but for what is shown. -/
theorem receive_spec (p : Provider) (k now : ℕ) {message : Inbound} (hfair : Fair message) :
    let p' := p.receive k now message
    p'.sessions = p.sessions.modify k (gets p.dropAudio message) ∧ p'.wsRef = p.wsRef ∧ p'.playerRef = p.playerRef ∧
      p'.dropAudio = dropNext p.dropAudio message ∧ p'.mics = p.mics ∧ p'.micRef = p.micRef ∧ p'.micStatus = p.micStatus := by
  cases message with
  | binary bytes =>
      unfold receive
      dsimp only
      split
      · rename_i hdrop
        have hdrop : p.dropAudio = true := hdrop
        rw [gets_of_silent (by simp [told, hdrop])]
        exact ⟨rfl, rfl, rfl, rfl, rfl, rfl, rfl⟩
      · rename_i hdrop
        have hdrop : p.dropAudio = false := Bool.eq_false_iff.mpr hdrop
        exact ⟨modify_gets (by simp [told, hdrop]) p.sessions, rfl, rfl, rfl, rfl, rfl, rfl⟩
  | json e =>
      unfold receive onJson
      cases e with
      | connection status conversationId =>
          have hstatus : status = "connected".toList := hfair
          dsimp only
          rw [if_neg (not_not.mpr hstatus), gets_of_silent rfl]
          exact ⟨rfl, rfl, rfl, rfl, rfl, rfl, rfl⟩
      | ttsStart => exact ⟨modify_gets rfl p.sessions, rfl, rfl, rfl, rfl, rfl, rfl⟩
      | ttsClear reason =>
          dsimp only
          split
          · exact ⟨modify_gets rfl p.sessions, rfl, rfl, rfl, rfl, rfl, rfl⟩
          · exact ⟨modify_gets rfl p.sessions, rfl, rfl, rfl, rfl, rfl, rfl⟩
      | _ =>
          rw [gets_of_silent rfl]
          exact ⟨rfl, rfl, rfl, rfl, rfl, rfl, rfl⟩

theorem Sound.receive (h : p.Sound) (hws : p.wsRef = some k) (now : ℕ) {message : Inbound} (hfair : Fair message) :
    (p.receive k now message).Sound := by
  obtain ⟨hsessions, hws', hplayer, hdrop, hmics, href, hstatus⟩ := receive_spec p k now hfair
  refine ⟨h.mic.congr hmics href hstatus, h.session.update hws hsessions hws' hplayer (fun s hs => ?_), fun hnone => ?_⟩
  · rw [hdrop]
    exact hs.told_of message rfl rfl rfl rfl (calls_gets s _ _)
  · rw [hws', hws] at hnone
    cases hnone

/-- The same, for a session that is there only if a reference stands for one. -/
theorem Sound.keptOpt (h : p.Sound) {f : Session → Session} (hf : ∀ s : Session, s.Kept (f s)) (ref : Option ℕ) :
    (ref.elim p (fun k => p.session k f)).Sound := by
  cases ref with
  | none => exact h
  | some k => exact ⟨h.mic.congr rfl rfl rfl, h.session.kept hf rfl rfl rfl rfl, h.gone⟩

/-- What is shown changes, or the timer of the barge-in. -/
theorem Sound.shown (h : p.Sound) (page : VoxeraState) (bargeInTimeout : Bool) :
    ({ p with page, bargeInTimeout } : Provider).Sound :=
  ⟨h.mic.congr rfl rfl rfl, h.session.congr rfl rfl rfl rfl, h.gone⟩

theorem Sound.micStarted (h : p.Sound) {m : ℕ} {mic : Mic} {error : Option String} (hmic : p.mics[m]? = some mic)
    (hpcs : mic.capture.starts.map Start.pc = [.settled error]) : (p.micStarted m error).Sound := by
  refine ⟨h.mic.micStarted hmic hpcs, ?_, ?_⟩
  · unfold Provider.micStarted
    dsimp only
    split
    · exact h.session.congr rfl rfl rfl rfl
    · cases error <;> exact h.session.congr rfl rfl rfl rfl
  · unfold Provider.micStarted
    dsimp only
    split
    · exact h.gone
    · cases error with
      | none => exact h.gone
      | some message => exact fun hnone => ⟨rfl, (h.gone hnone).2⟩

/-- The sessions, and what is left when there is none. -/
def Attended (p : Provider) : Prop :=
  p.SessionSound ∧ (p.wsRef = none → p.micRef = none ∧ p.connectionStatus = .disconnected)

theorem Attended.onMicEvent (h : p.Attended) (m : ℕ) (e : MicEvent) : (onMicEvent m p e).Attended := by
  obtain ⟨hsession, hgone⟩ := h
  cases e with
  | frame call pcm =>
      show (p.wsRef.elim p (fun k => p.session k (fun s => s.sendBinary m pcm))).Attended
      cases hws : p.wsRef with
      | none => exact ⟨hsession, hgone⟩
      | some k => exact ⟨hsession.kept (fun s => s.kept_sendBinary m pcm) rfl rfl rfl rfl, hgone⟩
  | ended call reason =>
      show (if p.micRef ≠ some m then p else { p with micRef := none, micStatus := .off, micError := some reason }).Attended
      split
      · exact ⟨hsession, hgone⟩
      · exact ⟨hsession.congr rfl rfl rfl rfl, fun hnone => ⟨rfl, (hgone hnone).2⟩⟩
  | started call => exact ⟨hsession, hgone⟩
  | stopped => exact ⟨hsession, hgone⟩
  | level call rms => exact ⟨hsession, hgone⟩

theorem Sound.micEvent (h : p.Sound) {m : ℕ} {mic : Mic} {l : MicLabel} {new : MicCapture} (hmic : p.mics[m]? = some mic)
    (hl : browser l = true) (hnew : mic.capture.step l = some new) : (p.micEvent m mic.capture new).Sound := by
  have hall : ∀ (es : List MicEvent) (q : Provider), q.Attended → (es.foldl (Provider.onMicEvent m) q).Attended := by
    intro es
    induction es with
    | nil => exact fun q hq => hq
    | cons e es ih => exact fun q hq => ih _ (hq.onMicEvent m e)
  obtain ⟨hsession, hgone⟩ := hall (new.trace.drop mic.capture.trace.length) (p.capture m (fun _ => new))
    ⟨h.session.congr rfl rfl rfl rfl, h.gone⟩
  exact ⟨h.mic.micEvent hmic hl hnew, hsession, hgone⟩

theorem Sound.change {socket : Option ℕ} (h : p.Sound) (hfair : serverFair l = true) (hchange : Change p l socket p') : p'.Sound := by
  cases hchange with
  | same => exact h
  | connected hws => exact ⟨h.mic.congr rfl rfl rfl, h.session.connected hws rfl rfl rfl rfl, nofun⟩
  | released page bargeInTimeout connectionError micError =>
      exact ⟨h.mic.silenced rfl rfl rfl, h.session.congr rfl rfl rfl rfl, fun hnone => ⟨rfl, (h.gone hnone).2⟩⟩
  | left hws hsocket hover hsent page bargeInTimeout connectionError micError =>
      exact ⟨h.mic.silenced rfl rfl rfl, h.session.leave hws rfl rfl rfl hover, fun _ => ⟨rfl, rfl⟩⟩
  | begun hws href mediaDevices workletNode =>
      exact ⟨h.mic.begun href mediaDevices workletNode rfl rfl rfl, h.session.congr rfl rfl rfl rfl, fun hnone => absurd hnone hws⟩
  | told hkept hsent page => exact (h.shown page p.bargeInTimeout).keptOpt hkept p.wsRef
  | shown page bargeInTimeout => exact h.shown page bargeInTimeout
  | aside hs haside =>
      exact ⟨h.mic.congr rfl rfl rfl, h.session.touch hs rfl rfl rfl rfl haside.live haside.ended, h.gone⟩
  | opened hws page =>
      refine ⟨h.mic.congr rfl rfl rfl, h.session.update hws rfl rfl rfl ?_, fun hnone => nomatch hws.symm.trans hnone⟩
      exact fun s hlive => ⟨hlive.attached, hlive.ws, nofun, hlive.told, hlive.drop⟩
  | received hws now hmessage => exact h.receive hws now (hmessage hfair)
  | mic hmic hl hnew => exact h.micEvent hmic hl hnew
  | micStarted hmic hpcs => exact h.micStarted hmic hpcs

theorem Sound.step (h : p.Sound) (hfair : serverFair l = true) (hp' : p.step l = some p') : p'.Sound :=
  h.change hfair (change_of_step h hp')

theorem sound_new : ({} : Provider).Sound := by
  refine ⟨⟨?_, ?_, nofun, fun _ => rfl⟩, ⟨nofun, ?_, rfl⟩, fun _ => ⟨rfl, rfl⟩⟩
  · intro m mic hmic
    simp at hmic
  · intro m mic hmic
    simp at hmic
  · intro k s hs
    simp at hs

theorem sound_of_run {ls : List ProviderLabel} (h : Run step (fun _ l => serverFair l = true) {} ls p) : p.Sound :=
  h.invariant sound_new (fun hs hl hp' => hs.step hl hp')

/-! ## What becomes of the captures -/

/-- What a step does to the captures and to `micRef`. -/
inductive MicMove (p p' : Provider) : Prop
  | kept (hmics : p'.mics = p.mics) (href : p'.micRef = p.micRef)
  | silenced (hmics : p'.mics = p.silenced) (href : p'.micRef = none)
  | started (mic : Mic) (hmics : p'.mics = p.mics ++ [mic]) (href : p'.micRef = some p.mics.length)
  | settled (m : ℕ) (hmics : p'.mics = p.mics.modify m (fun mic => { mic with waiting := false }))
      (href : p'.micRef = p.micRef ∨ p'.micRef = none)
  | event (m : ℕ) (mic : Mic) (new : MicCapture) (hmic : p.mics[m]? = some mic) (heff : MicCapture.Effect mic.capture new)
      (hmics : p'.mics = p.mics.modify m (fun mic => { mic with capture := new })) (href : p'.micRef = p.micRef ∨ p'.micRef = none)

/-- The callbacks of a capture touch no capture, and clear `micRef` at most. -/
theorem foldl_onMicEvent (m : ℕ) (es : List MicEvent) : ∀ q : Provider,
    (es.foldl (onMicEvent m) q).mics = q.mics ∧
      ((es.foldl (onMicEvent m) q).micRef = q.micRef ∨ (es.foldl (onMicEvent m) q).micRef = none) := by
  induction es with
  | nil => exact fun q => ⟨rfl, Or.inl rfl⟩
  | cons e es ih =>
      intro q
      have hone : (onMicEvent m q e).mics = q.mics ∧
          ((onMicEvent m q e).micRef = q.micRef ∨ (onMicEvent m q e).micRef = none) := by
        unfold onMicEvent
        cases e with
        | frame call pcm => cases q.wsRef <;> exact ⟨rfl, Or.inl rfl⟩
        | ended call reason =>
            dsimp only
            split
            · exact ⟨rfl, Or.inl rfl⟩
            · exact ⟨rfl, Or.inr rfl⟩
        | started call => exact ⟨rfl, Or.inl rfl⟩
        | stopped => exact ⟨rfl, Or.inl rfl⟩
        | level call rms => exact ⟨rfl, Or.inl rfl⟩
      obtain ⟨hmics, href⟩ := ih (onMicEvent m q e)
      refine ⟨hmics.trans hone.1, ?_⟩
      rcases href with href | href
      · exact hone.2.imp href.trans href.trans
      · exact Or.inr href

theorem micMove_of_change {socket : Option ℕ} (h : p.Sound) (hfair : serverFair l = true) (hchange : Change p l socket p') :
    MicMove p p' := by
  cases hchange with
  | same => exact .kept rfl rfl
  | connected hws => exact .kept rfl rfl
  | released page bargeInTimeout connectionError micError => exact .silenced rfl rfl
  | left hws hsocket hover hsent page bargeInTimeout connectionError micError => exact .silenced rfl rfl
  | begun hws href mediaDevices workletNode => exact .started _ rfl rfl
  | told hkept hsent page => cases p.wsRef <;> exact .kept rfl rfl
  | shown page bargeInTimeout => exact .kept rfl rfl
  | aside hs haside => exact .kept rfl rfl
  | opened hws page => exact .kept rfl rfl
  | @received k hws now message hmessage =>
      obtain ⟨-, -, -, -, hmics, href, -⟩ := receive_spec p k now (hmessage hfair)
      exact .kept hmics href
  | @mic m mic lm new hmic hl hnew =>
      obtain ⟨hmics, href⟩ := foldl_onMicEvent m (new.trace.drop mic.capture.trace.length) (p.capture m (fun _ => new))
      exact .event m mic new hmic (MicCapture.effect_of_step (h.mic.mics m mic hmic).1 hl hnew) hmics href
  | @micStarted m mic error hmic hpcs =>
      unfold micStarted
      dsimp only
      split_ifs with hgone
      · exact .settled m rfl (Or.inl rfl)
      · cases error with
        | none => exact .settled m rfl (Or.inl rfl)
        | some message => exact .settled m rfl (Or.inr rfl)

/-- A capture that is not the one in `micRef`, and what has been heard of it. -/
def Abandoned (p : Provider) (m : ℕ) (trace : List MicEvent) : Prop :=
  p.micRef ≠ some m ∧ ∃ mic, p.mics[m]? = some mic ∧ mic.capture.trace = trace

/-- What has been abandoned is not taken up again, and nothing more is heard of it. -/
theorem MicMove.abandoned (hmove : MicMove p p') (h : p.MicSound) {m : ℕ} {trace : List MicEvent} (ha : p.Abandoned m trace) :
    p'.Abandoned m trace := by
  obtain ⟨hne, mic, hmic, htrace⟩ := ha
  have hleft : p'.micRef = p.micRef ∨ p'.micRef = none → p'.micRef ≠ some m := by
    rintro (href | href)
    · rwa [href]
    · rw [href]
      exact nofun
  cases hmove with
  | kept hmics href => exact ⟨hleft (Or.inl href), mic, hmics ▸ hmic, htrace⟩
  | silenced hmics href =>
      refine ⟨hleft (Or.inr href), mic, ?_, htrace⟩
      rw [hmics]
      unfold Provider.silenced
      cases hactive : p.micRef with
      | none => exact hmic
      | some active =>
          show (p.mics.modify active _)[m]? = _
          rw [List.getElem?_modify_ne _ _ (fun heq : active = m => hne (heq ▸ hactive))]
          exact hmic
  | started mic' hmics href =>
      have hlt := (List.getElem?_eq_some_iff.mp hmic).1
      refine ⟨?_, mic, ?_, htrace⟩
      · rw [href]
        exact fun heq => hlt.ne (Option.some.inj heq).symm
      · rw [hmics, List.getElem?_append_left hlt]
        exact hmic
  | settled i hmics href =>
      refine ⟨hleft href, ?_⟩
      rw [hmics, List.getElem?_modify, hmic]
      refine ⟨_, rfl, ?_⟩
      split <;> exact htrace
  | event i old new hold heff hmics href =>
      refine ⟨hleft href, ?_⟩
      rw [hmics, List.getElem?_modify, hmic]
      refine ⟨_, rfl, ?_⟩
      split
      · rename_i hi
        subst hi
        cases hmic.symm.trans hold
        exact ((h.dead i mic hmic hne).effect heff).2.trans htrace
      · exact htrace

theorem abandoned_of_run {ls : List ProviderLabel} (hs : p.Sound) (h : Run step (fun _ l => serverFair l = true) p ls p')
    {m : ℕ} {trace : List MicEvent} (ha : p.Abandoned m trace) : p'.Abandoned m trace :=
  (h.invariant (I := fun q => q.Sound ∧ q.Abandoned m trace) ⟨hs, ha⟩
    (fun hI hl hq => ⟨hI.1.step hl hq, (micMove_of_change hI.1 hl (change_of_step hI.1 hq)).abandoned hI.1.mic hI.2⟩)).2

/-! ## What holds in every run -/

/-- A session that is on is shown as one. -/
def Online (p : Provider) : Prop := p.wsRef ≠ none → p.connectionStatus ≠ .disconnected

theorem online_elim (h : p.Online) (ref : Option ℕ) (f : Session → Session) : (ref.elim p (fun k => p.session k f)).Online := by
  cases ref <;> exact h

theorem online_onMicEvent (h : p.Online) (m : ℕ) (e : MicEvent) : (onMicEvent m p e).Online := by
  cases e with
  | frame call pcm =>
      exact online_elim h p.wsRef (fun s => s.sendBinary m pcm)
  | ended call reason =>
      show (if p.micRef ≠ some m then p else { p with micRef := none, micStatus := .off, micError := some reason }).Online
      split <;> exact h
  | started call => exact h
  | stopped => exact h
  | level call rms => exact h

theorem online_onJson (h : p.Online) (k now : ℕ) (e : ServerEvent) : (p.onJson k now e).Online := by
  unfold onJson
  cases e with
  | connection status conversationId =>
      dsimp only
      split
      · rw [stopMic_eq]
        exact fun hne => absurd rfl hne
      · exact fun _ => nofun
  | ttsClear reason =>
      dsimp only
      split <;> exact h
  | _ => exact h

theorem online_receive (h : p.Online) (k now : ℕ) (message : Inbound) : (p.receive k now message).Online := by
  cases message with
  | json e =>
      refine online_onJson ?_ k now e
      exact h
  | binary bytes =>
      unfold receive
      dsimp only
      split_ifs <;> exact h

theorem online_micEvent (h : p.Online) (m : ℕ) (old new : MicCapture) : (p.micEvent m old new).Online := by
  have hall : ∀ (es : List MicEvent) (q : Provider), q.Online → (es.foldl (onMicEvent m) q).Online := by
    intro es
    induction es with
    | nil => exact fun q hq => hq
    | cons e es ih => exact fun q hq => ih _ (online_onMicEvent hq m e)
  exact hall _ _ h

theorem online_of_change {socket : Option ℕ} (h : p.Online) (hchange : Change p l socket p') : p'.Online := by
  cases hchange with
  | same => exact h
  | connected hws => exact fun _ => nofun
  | released page bargeInTimeout connectionError micError => exact h
  | left hws hsocket hover hsent page bargeInTimeout connectionError micError => exact fun hne => absurd rfl hne
  | begun hws href mediaDevices workletNode => exact h
  | told hkept hsent page =>
      refine online_elim ?_ p.wsRef _
      exact h
  | shown page bargeInTimeout => exact h
  | aside hs haside => exact h
  | opened hws page => exact fun _ => nofun
  | received hws now hmessage => exact online_receive h _ now _
  | mic hmic hl hnew => exact online_micEvent h _ _ _
  | @micStarted m mic error hmic hpcs =>
      unfold micStarted
      dsimp only
      split_ifs
      · exact h
      · cases error <;> exact h

theorem online_of_run {ls : List ProviderLabel} (h : Run step (fun _ l => serverFair l = true) {} ls p) : p.Online := by
  have hinv : p.Sound ∧ p.Online := by
    refine h.invariant (I := fun q => q.Sound ∧ q.Online) ⟨sound_new, fun hne => absurd rfl hne⟩ ?_
    intro q l q' ⟨hs, honline⟩ hl hq'
    have hchange := change_of_step hs hq'
    exact ⟨hs.change hl hchange, online_of_change honline hchange⟩
  exact hinv.2

/-- **The microphone of the page**: where it is shown as off, no capture runs, and none will hear anything again; a microphone
that is still live belongs to a call of `start` that waits for its context, which will stop it. Where it is shown as on, the
capture in `micRef` runs, and it is the only one. Without a session it is off. However the page goes on, a capture that is not
the one in `micRef` never is again, and nothing more is heard of it. -/
theorem muted_of_run {ls : List ProviderLabel} (h : Run step (fun _ l => serverFair l = true) {} ls p) :
    (p.connectionStatus = .disconnected → p.micStatus = .off) ∧
    (p.micStatus = .off → ∀ mic ∈ p.mics, mic.capture.Dead) ∧
    (p.micStatus = .on → ∃ m mic, p.micRef = some m ∧ p.mics[m]? = some mic ∧ mic.capture.graph.isSome) ∧
    ∀ (m : ℕ) (mic : Mic), p.mics[m]? = some mic → p.micRef ≠ some m → mic.capture.Dead ∧
      (∀ st ∈ mic.capture.starts, st.holds = true → st.pc = .addModule ∨ st.pc = .resume) ∧
      ∀ (more : List ProviderLabel) (q : Provider), Run step (fun _ l => serverFair l = true) p more q →
        q.micRef ≠ some m ∧ ∃ mic', q.mics[m]? = some mic' ∧ mic'.capture.Dead ∧ mic'.capture.trace = mic.capture.trace := by
  have hs := sound_of_run h
  have honline := online_of_run h
  have hoff : p.micRef ≠ none → p.micStatus ≠ .off := by
    intro hne
    obtain ⟨m, hm⟩ := Option.ne_none_iff_exists'.mp hne
    obtain ⟨mic, -, -, hstatus | ⟨hstatus, -⟩⟩ := hs.mic.micRef m hm
    · rw [hstatus]
      exact nofun
    · rw [hstatus]
      exact nofun
  refine ⟨?_, ?_, ?_, ?_⟩
  · intro hstatus
    have hws : p.wsRef = none := by
      by_contra hne
      exact honline hne hstatus
    exact hs.mic.muted (hs.gone hws).1
  · intro hstatus mic hmem
    obtain ⟨m, hmic⟩ := List.mem_iff_getElem?.mp hmem
    have href : p.micRef = none := by
      by_contra hne
      exact hoff hne hstatus
    exact hs.mic.dead m mic hmic (by rw [href]; exact nofun)
  · intro hstatus
    have href : p.micRef ≠ none := by
      intro hnone
      rw [hs.mic.muted hnone] at hstatus
      cases hstatus
    obtain ⟨m, hm⟩ := Option.ne_none_iff_exists'.mp href
    obtain ⟨mic, hmic, -, hstart | ⟨-, hgraph⟩⟩ := hs.mic.micRef m hm
    · rw [hstatus] at hstart
      cases hstart
    · exact ⟨m, mic, hm, hmic, hgraph⟩
  · intro m mic hmic hne
    have hdead := hs.mic.dead m mic hmic hne
    refine ⟨hdead, fun st hmem hholds => ?_, fun more q hmore => ?_⟩
    · obtain ⟨call, hst⟩ := List.mem_iff_getElem?.mp hmem
      refine ((hs.mic.mics m mic hmic).1.held hst hholds).resolve_left ?_
      rw [hdead.graph]
      exact nofun
    · have hsound : q.Sound := hmore.invariant hs (fun hs hl hq => hs.step hl hq)
      obtain ⟨hne', mic', hmic', htrace⟩ := abandoned_of_run hs hmore ⟨hne, mic, hmic, rfl⟩
      exact ⟨hne', mic', hmic', hsound.mic.dead m mic' hmic' hne', htrace⟩

/-- The call ends while the microphone is on. -/
def hungUp : List ProviderLabel :=
  [.connect, .opened 0 0, .startMic true true, .mic 0 (.userMedia 0 (.ok 1) (.ok { state := .running, sampleRate := 48000 })),
    .mic 0 (.moduleAdded 0 (.ok ()) none), .micStarted 0, .closed 0 1]

theorem muted_of_run_hungUp : ∃ p, Run step (fun _ l => serverFair l = true) {} hungUp p ∧ p.mics.length = 1 ∧
    ∀ mic ∈ p.mics, mic.capture.Dead := by
  obtain ⟨p, hrun, hend⟩ := Run.exists_of_exec
    (P := fun p : Provider => decide (p.mics.length = 1 ∧ p.connectionStatus = .disconnected)) (s := ({} : Provider))
    (show (exec step (fun _ l => serverFair l = true) _ hungUp).any _ = true by decide +kernel)
  obtain ⟨hlength, hstatus⟩ := of_decide_eq_true hend
  have hmuted := muted_of_run hrun
  exact ⟨p, hrun, hlength, hmuted.2.1 (hmuted.1 hstatus)⟩

end Provider

end Voxera.Web
