import Voxera.Web.InOrder
import Voxera.Web.Speaker

/-!
# What the page does to the audio

* `acts_step` : each step of the page is a few operations on the audio, and they come in turn where the step does;
* `sound_of_page` : the times, the state and `clear()` are right in every run of the page;
* `plays_of_inTurn` : in a run whose steps come in turn the listener hears what he is promised.

Nothing else is used of the page than that its context is one of those that have been created.
-/

namespace Voxera.Web

open EventLoop

/-- Operations that lead from one state of the audio to another; they come in turn if `strict`. -/
def Acts (strict : Prop) (sp t : Speaker) : Prop := ∃ acts, Run Speaker.act (fun sp a => strict → sp.inTurn a = true) sp acts t

section Acts

variable {strict : Prop} {sp t u : Speaker}

theorem Acts.refl (sp : Speaker) : Acts strict sp sp := ⟨[], .nil⟩

theorem Acts.single (a : Act) (hturn : strict → sp.inTurn a = true) (ht : sp.act a = some t) : Acts strict sp t :=
  ⟨[a], Run.nil.snoc hturn ht⟩

theorem Acts.trans (h : Acts strict sp t) (h' : Acts strict t u) : Acts strict sp u := by
  obtain ⟨acts, hrun⟩ := h
  obtain ⟨acts', hrun'⟩ := h'
  exact ⟨acts ++ acts', hrun.trans hrun'⟩

end Acts

namespace Page

variable {strict : Prop} {w w' : Page} {ctx : AudioContext}

/-! ## The context -/

def HasContext (w : Page) : Prop := ∀ i ∈ w.ctx, i < w.contexts.length

theorem HasContext.exists (h : w.HasContext) {i : ℕ} (hi : w.ctx = some i) : ∃ ctx, w.context = some ctx :=
  ⟨w.contexts.get ⟨i, h i hi⟩, by rw [context, hi, Option.bind_some, List.getElem?_eq_getElem (h i hi)]; rfl⟩

theorem HasContext.of_eq (h : w.HasContext) (hctx : w'.ctx = w.ctx) (hcontexts : w'.contexts = w.contexts) : w'.HasContext := by
  unfold HasContext
  rw [hctx, hcontexts]
  exact h

theorem foldl_schedule (chunks : List Chunk) (h : w.context = some ctx) :
    chunks.foldl schedule w = { w with toSpeaker := chunks.foldl (Speaker.schedule ctx w.performanceNow) w.toSpeaker } := by
  induction chunks generalizing w with
  | nil => rfl
  | cons c chunks ih =>
      have hone : w.schedule c = { w with toSpeaker := w.toSpeaker.schedule ctx w.performanceNow c } := by
        unfold schedule
        rw [h]
      rw [List.foldl_cons, hone]
      exact ih (w := { w with toSpeaker := w.toSpeaker.schedule ctx w.performanceNow c }) h

theorem flushPending_eq (h : w.context = some ctx) :
    w.flushPending = { w with toSpeaker := w.toSpeaker.flushPending ctx w.performanceNow } :=
  foldl_schedule (w := { w with pending := [] }) w.pending h

/-- A page with a context keeps it when it flushes. -/
theorem HasContext.flushPending (h : w.HasContext) {i : ℕ} (hi : w.ctx = some i) : w.flushPending.HasContext := by
  obtain ⟨ctx, hcontext⟩ := h.exists hi
  rw [flushPending_eq hcontext]
  exact h.of_eq rfl rfl

theorem acts_flushPending (h : w.HasContext) {i : ℕ} (hi : w.ctx = some i) :
    Acts strict w.toSpeaker w.flushPending.toSpeaker := by
  obtain ⟨ctx, hcontext⟩ := h.exists hi
  rw [flushPending_eq hcontext]
  exact Acts.single (.flush ctx w.performanceNow) (fun _ => rfl) rfl

/-! ## The functions of the player -/

theorem openContext_spec (strict : Prop) (h : w.HasContext) (ctor : Option AudioContext) (init : ℕ) :
    (w.openContext ctor init).HasContext ∧ Acts strict w.toSpeaker (w.openContext ctor init).toSpeaker := by
  unfold openContext
  split
  · exact ⟨h.of_eq rfl rfl, Acts.refl _⟩
  · cases ctor with
    | none => exact ⟨h.of_eq rfl rfl, Acts.refl _⟩
    | some ctx =>
        have hnew : ({ w with ctx := some w.contexts.length, contexts := w.contexts ++ [ctx] } : Page).HasContext := by
          intro i hi
          cases hi
          show w.contexts.length < (w.contexts ++ [ctx]).length
          rw [List.length_append, List.length_singleton]
          exact Nat.lt_succ_self _
        dsimp only
        split
        · exact ⟨hnew.of_eq rfl rfl, Acts.refl _⟩
        · exact ⟨(hnew.flushPending rfl).of_eq rfl rfl, acts_flushPending hnew rfl⟩

theorem init_spec (strict : Prop) (h : w.HasContext) (ctor : Option AudioContext) :
    (w.init ctor).2.HasContext ∧ Acts strict w.toSpeaker (w.init ctor).2.toSpeaker := by
  unfold init
  split
  · exact ⟨h, Acts.refl _⟩
  · obtain ⟨hctx, hacts⟩ :=
      openContext_spec strict (w := { w with inits := w.inits ++ [none] }) (h.of_eq rfl rfl) ctor w.inits.length
    exact ⟨hctx.of_eq rfl rfl, hacts⟩

theorem ensureRunning_spec (strict : Prop) (h : w.HasContext) (ctor : Option AudioContext) :
    (w.ensureRunning ctor).HasContext ∧ Acts strict w.toSpeaker (w.ensureRunning ctor).toSpeaker := by
  unfold ensureRunning
  split
  · obtain ⟨hctx, hacts⟩ := init_spec strict h ctor
    exact ⟨hctx.of_eq rfl rfl, hacts⟩
  · exact ⟨h.of_eq rfl rfl, Acts.refl _⟩

theorem exists_context_of_running (h : w.running = true) : ∃ ctx, w.context = some ctx := by
  obtain ⟨ctx, hcontext, -⟩ := (Option.any_eq_true _ _).mp h
  exact ⟨ctx, hcontext⟩

theorem push_spec (h : w.HasContext) {pcm16 : Bytes} {ctor : Option AudioContext}
    (hturn : strict → w.inTurn (.push pcm16 ctor) = true) :
    (w.push pcm16 ctor).HasContext ∧ Acts strict w.toSpeaker (w.push pcm16 ctor).toSpeaker := by
  unfold push
  split
  · exact ⟨h, Acts.refl _⟩
  · rename_i hopen
    split
    · rename_i hrunning
      obtain ⟨ctx, hcontext⟩ := exists_context_of_running hrunning
      have hplay : ({ w with toSpeaker := w.toSpeaker.arrive pcm16 } : Page).schedule (w.chunk pcm16) =
          { w with toSpeaker := Speaker.schedule ctx w.performanceNow (w.toSpeaker.arrive pcm16) (w.chunk pcm16) } :=
        foldl_schedule (w := { w with toSpeaker := w.toSpeaker.arrive pcm16 }) [w.chunk pcm16] hcontext
      have hempty : strict → w.toSpeaker.inTurn (.play pcm16 ctx w.performanceNow) = true := by
        intro hstrict
        simpa [inTurn, Speaker.inTurn, hrunning, (not_or.mp hopen).2] using hturn hstrict
      rw [hplay]
      exact ⟨h.of_eq rfl rfl, Acts.single (.play pcm16 ctx w.performanceNow) hempty rfl⟩
    · have hwait : Acts strict w.toSpeaker (w.toSpeaker.wait pcm16) := Acts.single (.wait pcm16) (fun _ => rfl) rfl
      obtain ⟨hctx, hacts⟩ :=
        ensureRunning_spec strict (w := { w with toSpeaker := w.toSpeaker.wait pcm16 }) (h.of_eq rfl rfl) ctor
      exact ⟨hctx, hwait.trans hacts⟩

theorem resume_spec (h : w.HasContext) {fulfilled : Bool} {task : Task} (hw : w.resume fulfilled task = some w') :
    w'.HasContext ∧ Acts strict w.toSpeaker w'.toSpeaker := by
  have hdrop : Acts strict w.toSpeaker w.drop := Acts.single .drop (fun _ => rfl) rfl
  cases task with
  | opening ctx init =>
      unfold resume at hw
      dsimp only at hw
      split at hw
      · cases hw
        split
        · exact ⟨h.of_eq rfl rfl, Acts.refl _⟩
        · rename_i hcurrent
          have hctx : w.ctx = some ctx := not_not.mp (not_or.mp hcurrent).2
          exact ⟨(h.flushPending hctx).of_eq rfl rfl, acts_flushPending h hctx⟩
      · cases hw
        exact ⟨h.of_eq rfl rfl, Acts.refl _⟩
  | failed init =>
      unfold resume at hw
      dsimp only at hw
      split at hw
      · cases hw
      · cases hw
        exact ⟨h.of_eq rfl rfl, Acts.refl _⟩
  | resuming ctx =>
      unfold resume at hw
      dsimp only at hw
      split at hw
      · cases hw
        split
        · rename_i hctx
          exact ⟨h.flushPending hctx, acts_flushPending h hctx⟩
        · exact ⟨h, Acts.refl _⟩
      · cases hw
        exact ⟨h.of_eq rfl rfl, hdrop⟩
  | awaiting init =>
      unfold resume at hw
      dsimp only at hw
      split at hw
      · cases hw
        split
        · exact ⟨h, Acts.refl _⟩
        · exact ⟨h.of_eq rfl rfl, hdrop⟩
      · cases hw

/-! ## Runs -/

theorem step_spec (h : w.HasContext) {l : PageLabel} (hturn : strict → w.inTurn l = true) (hw : w.step l = some w') :
    w'.HasContext ∧ Acts strict w.toSpeaker w'.toSpeaker := by
  have hclear : Acts strict w.toSpeaker w.clear := Acts.single .clear (fun _ => rfl) rfl
  cases l with
  | init ctor =>
      cases hw
      exact init_spec strict h ctor
  | push pcm16 ctor =>
      cases hw
      exact push_spec h hturn
  | beginStream =>
      cases hw
      exact ⟨h.of_eq rfl rfl, Acts.single .beginStream hturn rfl⟩
  | clear =>
      cases hw
      exact ⟨h.of_eq rfl rfl, hclear⟩
  | reset =>
      cases hw
      exact ⟨h.of_eq rfl rfl, hclear.trans (Acts.single .resetCount (fun _ => rfl) rfl)⟩
  | close =>
      cases hw
      exact ⟨(fun i hi => by cases hi), hclear⟩
  | settled i fulfilled =>
      obtain ⟨task, -, htask⟩ := Option.bind_eq_some_iff.mp hw
      exact resume_spec (w := { w with tasks := w.tasks.eraseIdx i }) (h.of_eq rfl rfl) htask
  | context i ctx =>
      obtain ⟨old, -, hnew⟩ := Option.bind_eq_some_iff.mp hw
      split at hnew
      · cases hnew
        refine ⟨?_, Acts.refl _⟩
        intro j hj
        show j < (w.contexts.set i ctx).length
        rw [List.length_set]
        exact h j hj
      · cases hnew
  | performance now =>
      unfold step at hw
      dsimp only at hw
      split at hw
      · cases hw
        exact ⟨h.of_eq rfl rfl, Acts.refl _⟩
      · cases hw
  | ended id =>
      obtain ⟨sp, hsp, rfl⟩ := Option.map_eq_some_iff.mp hw
      exact ⟨h.of_eq rfl rfl, Acts.single (.ended id) (fun _ => rfl) hsp⟩
  | timeout id =>
      obtain ⟨sp, hsp, rfl⟩ := Option.map_eq_some_iff.mp hw
      exact ⟨h.of_eq rfl rfl, Acts.single (.timeout id) (fun _ => rfl) hsp⟩

variable {ok : Page → PageLabel → Prop} {ls : List PageLabel}

theorem acts_of_run (strict : Prop) (h : Run step ok {} ls w) (hok : ∀ w l, ok w l → strict → w.inTurn l = true) :
    w.HasContext ∧ Acts strict {} w.toSpeaker := by
  refine h.invariant (I := fun w => w.HasContext ∧ Acts strict {} w.toSpeaker) ⟨(fun i hi => by cases hi), Acts.refl _⟩ ?_
  intro t u l hI hl hu
  obtain ⟨hctx, hacts⟩ := step_spec hI.1 (hok t l hl) hu
  exact ⟨hctx, hI.2.trans hacts⟩

/-- Whatever happens in whatever order, the sources follow one another, the state is right, and a `clear()` leaves nothing. -/
theorem sound_of_run (h : Run step ok {} ls w) : w.toSpeaker.Sound w.pending := by
  obtain ⟨-, acts, hrun⟩ := acts_of_run False h (fun _ _ _ hfalse => hfalse.elim)
  exact Speaker.sound_of_run hrun

end Page

theorem Speaker.Sound.plays {sp : Speaker} {done : List Chunk} (h : sp.Sound sp.pending)
    (horder : sp.feed.InOrder done sp.pending) : Plays sp where
  ordered := by
    have hdone : (sp.scheduled.map Source.chunk).Sublist done := by
      have hmap : sp.feed.scheduled.map Prod.fst = sp.scheduled.map Source.chunk := List.map_map
      exact hmap ▸ horder.ordered
    have hpushed : sp.pushed = done ++ sp.pending := horder.pushed
    rw [hpushed]
    exact hdone.trans (List.sublist_append_left _ _)
  apart := h.inTime.apart
  inTime := h.inTime.inTime
  made := h.traced.made
  decoded := by
    intro k hk
    have hpushed : sp.pushed = done ++ sp.pending := horder.pushed
    refine ⟨bytesIn k done, by rw [hpushed, bytesIn_append], ?_⟩
    rw [← samplesOf_map]
    exact horder.decoded k hk
  playing := h.audible.playing_iff
  dropped := fun _ _ htrace _ hc => h.traced.dropped htrace hc

/-- **Playback**: while nothing is pushed to a running context over what is pending, and no stream begins over a half
sample that is pending, the listener hears every stream in order and whole. -/
theorem plays_of_inTurn {ls : List PageLabel} {w : Page} (h : Run Page.step (fun w l => w.inTurn l = true) {} ls w) :
    Plays w.toSpeaker := by
  obtain ⟨-, acts, hrun⟩ := Page.acts_of_run True h (fun _ _ hl _ => hl)
  obtain ⟨done, horder⟩ := Speaker.inOrder_of_run (hrun.mono (fun _ _ hturn => hturn trivial))
  exact (Page.sound_of_run h).plays horder

/-- A reply of two chunks, the first with half a sample of the second, that wait for the context; then the first of them has
played, and the rest is cleared. -/
def resumedReply : List PageLabel :=
  [.init (some { state := .suspended }), .beginStream, .push [1] none, .push [0, 2, 0] none, .settled 0 true, .timeout 0,
    .ended 0, .clear]

theorem plays_of_inTurn_resumedReply : ∃ w, Run Page.step (fun w l => w.inTurn l = true) {} resumedReply w ∧
    Plays w.toSpeaker ∧ w.frameCount = 1 := by
  obtain ⟨w, hrun, hcount⟩ := Run.exists_of_exec (P := fun w : Page => decide (w.frameCount = 1)) (s := ({} : Page))
    (show (exec Page.step (fun w l => w.inTurn l = true) _ resumedReply).any _ = true by decide +kernel)
  exact ⟨w, hrun, plays_of_inTurn hrun, of_decide_eq_true hcount⟩

/-- The context runs before `resume()` is settled, and a chunk is pushed in between. -/
def overtakenChunk : List PageLabel :=
  [.init (some { state := .suspended }), .push [1, 0] none, .context 0 { state := .running, currentTime := 1 },
    .push [2, 0] none, .settled 0 true]

/-- A stream begins while a chunk of the one before it is pending, and that chunk ends in half a sample. -/
def leakedHalf : List PageLabel :=
  [.init (some { state := .suspended }), .beginStream, .push [1] none, .beginStream, .push [2, 0] none, .settled 0 true]

/-- The chunk pushed last is scheduled first; and the new stream begins with half a sample of the old one. -/
theorem overtakenChunk_not_plays :
    (∃ w, Run Page.step (fun _ _ => True) {} overtakenChunk w ∧ ¬ Plays w.toSpeaker) ∧
      ∃ w, Run Page.step (fun _ _ => True) {} leakedHalf w ∧ ¬ Plays w.toSpeaker := by
  constructor
  · obtain ⟨w, hrun, horder⟩ := Run.exists_of_exec
      (P := fun w : Page => !decide ((w.scheduled.map Source.chunk).Sublist w.pushed)) (s := ({} : Page))
      (show (exec Page.step (fun _ _ => True) _ overtakenChunk).any _ = true by decide +kernel)
    have hnot : ¬ (w.scheduled.map Source.chunk).Sublist w.pushed := by simpa using horder
    exact ⟨w, hrun, fun hplays => hnot hplays.ordered⟩
  · obtain ⟨w, hrun, hleak⟩ := Run.exists_of_exec
      (P := fun w : Page => decide (w.refusals = [] ∧ w.pending = [] ∧ bytesIn 2 w.pushed = [2, 0] ∧
        samplesIn 2 w.scheduled ≠ floats [2, 0])) (s := ({} : Page))
      (show (exec Page.step (fun _ _ => True) _ leakedHalf).any _ = true by decide +kernel)
    obtain ⟨hrefusals, hpending, hbytes, hsamples⟩ := of_decide_eq_true hleak
    refine ⟨w, hrun, fun hplays => hsamples ?_⟩
    obtain ⟨played, hplayed, hdecoded⟩ := hplays.decoded 2 (by rw [hrefusals]; exact List.not_mem_nil)
    have hall : played = [2, 0] := by
      rw [hbytes, hpending] at hplayed
      exact ((List.append_nil played).symm.trans hplayed.symm)
    rw [hdecoded, hall]

end Voxera.Web
