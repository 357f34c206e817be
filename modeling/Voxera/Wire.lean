import Voxera.Playback

/-!
# The messages about each reply

* `Grammar` : what the reply task itself sends, in every run: no audio before `tts_start`, one `tts_start`,
  `tts_end` only when everything has been spoken and played, and no audio after it.
* `Settled` : how a reply whose `tts_start` was sent is ended for the client; `Wired` is the invariant, in every
  run in which replies are stopped in time (`InTime`).
* `protocol_of_inTime` : the protocol of each reply.
-/

namespace Voxera.Tts

open EventLoop

variable {n : Nat} {s t : Speech n} {l : Label n} {me : Fin n}

/-! ## What a reply task sends -/

/-- The task may still send `tts_end`. -/
def Pc.onCourse : Pc Unit → Bool
  | .sendEnd | .sendError | .sendMetrics _ | .playbackEnd _ _ => false
  | _ => true

/-- `tts_start` has been sent, and the first frame may still be on its way. -/
def Pc.opening : Pc Unit → Bool
  | .sendStart _ | .sendBytes _ _ => true
  | _ => false

theorem Pc.cleanup_of_onCourse {pc : Pc Unit} (h : pc.onCourse = true) : pc.cleanup = false := by
  cases pc <;> first | rfl | cases h

/-- Neither `tts_start` nor `tts_end` nor audio. -/
def Event.plain : Event → Bool
  | .json .ttsStart | .json .ttsEnd | .audio _ => false
  | _ => true

/-- No audio before `tts_start`, one `tts_start` at most, and no audio after `tts_end`. -/
structure Lawful (wire : List Event) : Prop where
  once : wire.count (.json .ttsStart) ≤ 1
  audio : ∀ frame, .audio frame ∈ wire → .json .ttsStart ∈ wire
  order : ∀ frame, ¬ [.audio frame, .json .ttsStart].Sublist wire
  quiet : ∀ frame, ¬ [.json .ttsEnd, .audio frame].Sublist wire

namespace Lawful

variable {wire es : List Event}

theorem not_mem_of_plain (hes : ∀ e ∈ es, e.plain = true) :
    .json .ttsStart ∉ es ∧ .json .ttsEnd ∉ es ∧ ∀ frame, .audio frame ∉ es :=
  ⟨(fun hmem => nomatch hes _ hmem), (fun hmem => nomatch hes _ hmem), (fun _ hmem => nomatch hes _ hmem)⟩

theorem count_plain (wire : List Event) (hes : ∀ e ∈ es, e.plain = true) :
    (wire ++ es).count (.json .ttsStart) = wire.count (.json .ttsStart) := by
  rw [List.count_append, List.count_eq_zero_of_not_mem (not_mem_of_plain hes).1, Nat.add_zero]

/-- Messages that are none of these. -/
theorem plain (hw : Lawful wire) (hes : ∀ e ∈ es, e.plain = true) : Lawful (wire ++ es) := by
  obtain ⟨hstart, hend, haudio⟩ := not_mem_of_plain hes
  refine ⟨(count_plain wire hes).le.trans hw.once, ?_, ?_, ?_⟩
  · intro frame hmem
    rcases List.mem_append.mp hmem with hmem | hmem
    · exact List.mem_append_left _ (hw.audio frame hmem)
    · exact absurd hmem (haudio frame)
  · exact fun frame hsub => hw.order frame (pair_sublist_left hsub hstart)
  · exact fun frame hsub => hw.quiet frame (pair_sublist_left hsub (haudio frame))

theorem start (hw : Lawful wire) (hnone : wire.count (.json .ttsStart) = 0) : Lawful (wire ++ [.json .ttsStart]) := by
  have hno : ∀ frame, .audio frame ∉ wire := by
    intro frame hmem
    exact absurd (hw.audio frame hmem) (List.count_eq_zero.mp hnone)
  refine ⟨?_, ?_, ?_, ?_⟩
  · rw [List.count_append, hnone]
    exact le_rfl
  · intro frame hmem
    exact List.mem_append_right _ (List.mem_singleton_self _)
  · intro frame hsub
    rcases pair_sublist_append hsub with hsub | ⟨hmem, -⟩ | hsub
    · exact hw.order frame hsub
    · exact hno frame hmem
    · cases hsub.length_le with
      | step hle => cases hle
  · exact fun frame hsub => hw.quiet frame (pair_sublist_left hsub (by simp))

theorem frame (hw : Lawful wire) (hstart : .json .ttsStart ∈ wire) (hend : .json .ttsEnd ∉ wire) (bytes : Bytes) :
    Lawful (wire ++ [.audio bytes]) := by
  refine ⟨?_, ?_, ?_, ?_⟩
  · rw [List.count_append]
    exact hw.once
  · exact fun _ _ => List.mem_append_left _ hstart
  · exact fun frame hsub => hw.order frame (pair_sublist_left hsub (by simp))
  · intro frame hsub
    rcases pair_sublist_append hsub with hsub | ⟨hmem, -⟩ | hsub
    · exact hw.quiet frame hsub
    · exact hend hmem
    · simp at hsub

theorem finish (hw : Lawful wire) : Lawful (wire ++ [.json .ttsEnd]) := by
  refine ⟨?_, ?_, ?_, ?_⟩
  · rw [List.count_append]
    exact hw.once
  · intro frame hmem
    exact List.mem_append_left _ (hw.audio frame (by simpa using hmem))
  · exact fun frame hsub => hw.order frame (pair_sublist_left hsub (by simp))
  · exact fun frame hsub => hw.quiet frame (pair_sublist_left hsub (by simp))

end Lawful

/-- What a reply task has sent so far, and what it still may send. -/
structure Grammar (task : Coroutine (Pc Unit)) (r : Reply) (h : Heard) (wire : List Event) : Prop where
  lawful : Lawful wire
  tally : ∀ pc, task.pc? = some pc → Tally r h pc
  count : ∀ pc, task.pc? = some pc → pc.cleanup = false →
    wire.count (.json .ttsStart) = if r.frames ≠ 0 ∨ pc.opening = true then 1 else 0
  unended : ∀ pc, task.pc? = some pc → pc.onCourse = true → .json .ttsEnd ∉ wire
  spoken : .json .ttsEnd ∈ wire → h.SpokenOut ∧ h.played = true

namespace Grammar

variable {task : Coroutine (Pc Unit)} {r r' : Reply} {h h' : Heard} {pc pc' : Pc Unit} {cancelling : Bool}
  {next : Option (Pc Unit)} {wire es : List Event}

theorem new (utteranceId : Text) (items : List (Option Text)) :
    Grammar (.await .created) { utteranceId, queue := items } { queued := items } [] := by
  refine ⟨⟨Nat.zero_le _, (fun _ hmem => nomatch hmem), (fun _ hsub => nomatch hsub), (fun _ hsub => nomatch hsub)⟩, ?_, ?_,
    fun _ _ _ => List.not_mem_nil, (fun hmem => nomatch hmem)⟩
  · rintro pc ⟨⟩
    exact ⟨rfl, rfl⟩
  · rintro pc ⟨⟩ -
    rfl

theorem cancel (hg : Grammar task r h wire) : Grammar task.cancel r h wire where
  lawful := hg.lawful
  tally := by
    rw [Coroutine.pc?_cancel]
    exact hg.tally
  count := by
    rw [Coroutine.pc?_cancel]
    exact hg.count
  unended := by
    rw [Coroutine.pc?_cancel]
    exact hg.unended
  spoken := hg.spoken

theorem put (hg : Grammar task r h wire) (item : Option Text) :
    Grammar task { r with queue := r.queue ++ [item] } { h with queued := h.queued ++ [item] } wire :=
  { hg with
    tally := fun pc hpc => (hg.tally pc hpc).put item
    spoken := fun hmem => ⟨(hg.spoken hmem).1.put item, (hg.spoken hmem).2⟩ }

theorem clear (hg : Grammar .done r h wire) (reason : Text) : Grammar .done r h (wire ++ [.json (.ttsClear reason)]) := by
  have hplain : ∀ e ∈ [Event.json (.ttsClear reason)], e.plain = true := by simp [Event.plain]
  refine ⟨hg.lawful.plain hplain, (fun _ hpc => nomatch hpc), (fun _ hpc => nomatch hpc), (fun _ hpc => nomatch hpc), ?_⟩
  intro hmem
  exact hg.spoken (by simpa using hmem)

/-- The task is not on the course on which it may send `tts_end` any more. -/
theorem leaves (hg : Grammar (.suspended pc cancelling) r h wire) (hes : ∀ e ∈ es, e.plain = true)
    (hnext : ∀ pc', next = some pc' → pc'.cleanup = true ∧ Tally r' h' pc')
    (hheard : pc.onCourse = true ∨ h'.queued = h.queued ∧ h'.spoken = h.spoken ∧ h'.played = h.played) :
    Grammar (next.elim .done .await) r' h' (wire ++ es) := by
  have hpc : ∀ pc', (next.elim .done .await : Coroutine (Pc Unit)).pc? = some pc' → next = some pc' := by
    intro pc' hpc'
    cases next <;> exact hpc'
  refine ⟨hg.lawful.plain hes, fun pc' hpc' => (hnext pc' (hpc pc' hpc')).2, ?_, ?_, ?_⟩
  · intro pc' hpc' hcleanup
    rw [(hnext pc' (hpc pc' hpc')).1] at hcleanup
    cases hcleanup
  · intro pc' hpc' hcourse
    have hcleanup := (hnext pc' (hpc pc' hpc')).1
    rw [Pc.cleanup_of_onCourse hcourse] at hcleanup
    cases hcleanup
  · intro hmem
    have hold := (List.mem_append.mp hmem).resolve_right (Lawful.not_mem_of_plain hes).2.1
    rcases hheard with hcourse | ⟨hqueued, hspoken, hplayed⟩
    · exact absurd hold (hg.unended pc rfl hcourse)
    · obtain ⟨hout, hp⟩ := hg.spoken hold
      unfold Heard.SpokenOut at hout ⊢
      rw [hqueued, hspoken, hplayed]
      exact ⟨hout, hp⟩

/-- The task goes on, with nothing of the protocol sent. -/
theorem goesOn (hg : Grammar (.suspended pc cancelling) r h wire) (hpc : pc.onCourse = true) (hes : ∀ e ∈ es, e.plain = true)
    (htally : Tally r' h' pc')
    (hcount : (r'.frames ≠ 0 ∨ pc'.opening = true) ↔ (r.frames ≠ 0 ∨ pc.opening = true)) :
    Grammar (.await pc') r' h' (wire ++ es) := by
  have hend : .json .ttsEnd ∉ wire ++ es := fun hmem =>
    (List.mem_append.mp hmem).elim (hg.unended pc rfl hpc) (Lawful.not_mem_of_plain hes).2.1
  refine ⟨hg.lawful.plain hes, ?_, ?_, fun _ _ _ => hend, fun hmem => absurd hmem hend⟩
  · rintro pc'' ⟨⟩
    exact htally
  · rintro pc'' ⟨⟩ -
    rw [Lawful.count_plain wire hes, hg.count pc rfl (Pc.cleanup_of_onCourse hpc)]
    simp only [hcount]

/-- A frame is sent. -/
theorem frame (hg : Grammar (.suspended pc cancelling) r h wire) (hpc : pc.onCourse = true)
    (hstarted : r.frames ≠ 0 ∨ pc.opening = true) {bytes : Bytes} (htally : Tally r h (.sendBytes bytes ())) :
    Grammar (.await (.sendBytes bytes ())) r h (wire ++ [.audio bytes]) := by
  have hcount := hg.count pc rfl (Pc.cleanup_of_onCourse hpc)
  rw [if_pos hstarted] at hcount
  have hstart : .json .ttsStart ∈ wire := List.count_pos_iff.mp (by omega)
  have hend : .json .ttsEnd ∉ wire := hg.unended pc rfl hpc
  refine ⟨hg.lawful.frame hstart hend bytes, ?_, ?_, ?_, ?_⟩
  · rintro pc'' ⟨⟩
    exact htally
  · rintro pc'' ⟨⟩ -
    rw [List.count_append, hcount]
    simp [Pc.opening]
  · intro _ _ _ hmem
    exact hend (by simpa using hmem)
  · intro hmem
    exact absurd (by simpa using hmem) hend

/-- `tts_start` is sent. -/
theorem start (hg : Grammar (.suspended .engineNext cancelling) r h wire) (hframes : r.frames = 0) {bytes : Bytes}
    (htally : Tally r h (.sendStart bytes)) : Grammar (.await (.sendStart bytes)) r h (wire ++ [.json .ttsStart]) := by
  have hcount := hg.count .engineNext rfl rfl
  rw [if_neg (by simp [hframes, Pc.opening])] at hcount
  have hend : .json .ttsEnd ∉ wire := hg.unended .engineNext rfl rfl
  refine ⟨hg.lawful.start hcount, ?_, ?_, ?_, ?_⟩
  · rintro pc'' ⟨⟩
    exact htally
  · rintro pc'' ⟨⟩ -
    rw [List.count_append, hcount]
    simp [Pc.opening]
  · intro _ _ _ hmem
    exact hend (by simpa using hmem)
  · intro hmem
    exact absurd (by simpa using hmem) hend

/-- `tts_end` is sent. -/
theorem finish (hg : Grammar (.suspended .drain cancelling) r h wire) :
    Grammar (.await .sendEnd) r { h with played := true } (wire ++ [.json .ttsEnd]) := by
  refine ⟨hg.lawful.finish, ?_, ?_, ?_, fun _ => ⟨hg.tally .drain rfl, rfl⟩⟩
  · rintro pc'' ⟨⟩
    exact hg.tally .drain rfl
  · rintro pc'' ⟨⟩ -
    rw [List.count_append, hg.count .drain rfl rfl]
    simp [Pc.opening]
  · rintro pc'' ⟨⟩ hcourse
    cases hcourse

theorem advance (hg : Grammar (.suspended pc cancelling) r h wire) (hadv : Advance r h cancelling pc r' h' next es) :
    Grammar (next.elim .done .await) r' h' (wire ++ es) := by
  have htally := (hg.tally pc rfl).advance hadv
  have htakes : ∀ {h₀ : Heard} {pc₁ : Pc Unit}, next = some pc₁ → Takes r h₀ r' h' pc₁ es → pc.onCourse = true →
      pc.opening = false → Grammar (next.elim .done .await) r' h' (wire ++ es) := by
    rintro h₀ pc₁ rfl htakes hpc hopening
    cases htakes with
    | waits | segment | last =>
        refine hg.goesOn hpc (fun _ he => nomatch he) (htally _ rfl) ?_
        rw [hopening]
        exact Iff.rfl
    | silent =>
        refine hg.leaves (by simp [Event.plain]) ?_ (Or.inl hpc)
        rintro pc' ⟨⟩
        exact ⟨rfl, htally _ rfl⟩
  have hleaves : ∀ {pc₁ : Pc Unit}, next = some pc₁ → pc₁.cleanup = true → (∀ e ∈ es, e.plain = true) →
      h'.queued = h.queued ∧ h'.spoken = h.spoken ∧ h'.played = h.played →
      Grammar (next.elim .done .await) r' h' (wire ++ es) := by
    rintro pc₁ rfl hcleanup hes hheard
    refine hg.leaves hes ?_ (Or.inr hheard)
    rintro pc' ⟨⟩
    exact ⟨hcleanup, htally _ rfl⟩
  cases hadv with
  | starts ht | gets ht | spoken ht => exact htakes rfl ht rfl rfl
  | skips | paced => exact hg.goesOn rfl (fun _ he => nomatch he) (htally _ rfl) (by simp [Pc.opening])
  | firstFrame bytes hframes => exact hg.start hframes (htally _ rfl)
  | frame bytes hframes => exact hg.frame rfl (Or.inl hframes) (htally _ rfl)
  | started bytes => exact hg.frame rfl (Or.inr rfl) (htally _ rfl)
  | sent bytes => exact hg.goesOn rfl (fun _ he => nomatch he) (htally _ rfl) (by simp [Pc.opening])
  | drained => exact hg.finish
  | completed | fails | failed | interrupted => exact hleaves rfl rfl (by simp [Event.plain]) ⟨rfl, rfl, rfl⟩
  | closes => exact hleaves rfl rfl (fun _ he => nomatch he) ⟨rfl, rfl, rfl⟩
  | dropped | cut | returns =>
      exact hg.leaves (fun _ he => nomatch he) (fun _ hnext => nomatch hnext) (Or.inr ⟨rfl, rfl, rfl⟩)

end Grammar

/-- What every reply sends, in every run. -/
theorem grammar {ok : Playback n → Label n → Prop} {ls : List (Label n)} {p : Playback n} {r : Nat}
    (h : Run Playback.step ok {} ls p) (hr : r < p.speech.tts.count) :
    Grammar (p.speech.tts.task r) (p.speech.tts.reply r) (p.heard r) (p.speech.wire r) :=
  Playback.each (P := Grammar) (Q := fun _ => True) (fun _ _ => trivial) Grammar.new (fun hg _ => hg.cancel)
    (fun item hg => hg.put item) (fun reason hg => hg.clear reason) (fun hg hadv => hg.advance hadv) h hr

/-- Only an exception takes a reply from its course to the error message. -/
theorem Reply.raised_of_sendError {r : Reply} {pc : Pc Unit} {w : Wake Item}
    (h : (r.resume pc w).2 = some .sendError) : w = .raised := by
  have hget : (@Reply.getNext Unit r).2 ≠ some .sendError := by
    obtain ⟨pc', hnext, hpc'⟩ := @Reply.getNext_snd Unit r
    rw [hnext]
    rintro ⟨⟩
    cases hpc'
  cases w with
  | raised => rfl
  | cancelled => cases pc <;> cases h
  | ok item =>
      cases pc with
      | created | queueGet => exact absurd h hget
      | engineNext =>
          cases item with
          | none => exact absurd h hget
          | frame bytes =>
              simp only [Reply.resume] at h
              split_ifs at h <;> cases h
      | _ => cases h

/-! ## Replies stopped in time -/

namespace Speech

variable (s : Speech n)

def started (r : Nat) : Bool := (s.wire r).contains (.json .ttsStart)

/-- The task of the reply may still send `tts_end`, and has not been asked to cancel. -/
def onCourse (r : Nat) : Bool :=
  match s.tts.task r with
  | .suspended pc false => pc.onCourse
  | _ => false

/-- The step creates a reply. -/
def opening : Label n → Bool
  | .call _ call => call.begins && s.tts.active.isNone
  | .caller me (.ok _) => match (s.caller me).pc? with
    | some (.stopping _ false _ k) | some (.clearing k) => k.begins
    | _ => false
  | _ => false

/-- Once `tts_start` of a reply has been sent, the reply is stopped only when its first frame has been sent and
`tts_end` has not, not a second time, and by a caller that is not cancelled itself; no exception ends it before
`tts_end`; and no reply is created before `tts_clear` of the one before it has been sent. -/
def inTime (l : Label n) : Bool :=
  (match l with
    | .call _ _ => (s.asks l).all fun r => !s.started r || (s.onCourse r && s.tts.audioSent)
    | .cancel me => (s.owes me).all fun r => !s.started r
    | .caller _ _ => true
    | .reply r .raised => !s.started r || !(s.tts.task r).pc?.any Pc.onCourse
    | .reply _ _ => true) &&
  (!s.opening l || decide (∀ me, s.owes me = none))

end Speech

/-- `tts_end` has been sent. -/
def ends (wire : List Event) : Nat := wire.count (.json .ttsEnd)

def Event.isClear : Event → Bool
  | .json (.ttsClear _) => true
  | _ => false

def clears (wire : List Event) : Nat := wire.countP Event.isClear

@[simp] theorem ends_append (wire es : List Event) : ends (wire ++ es) = ends wire + ends es := List.count_append

@[simp] theorem clears_append (wire es : List Event) : clears (wire ++ es) = clears wire + clears es := List.countP_append

/-- Where a step takes a reply that may still send `tts_end`: it goes on, sends `tts_end`, or ends without it,
after an exception or because it has no audio. A reply that may not any more never comes back. -/
inductive Course (r : Reply) (cancelling : Bool) (pc : Pc Unit) : Option (Pc Unit) → List Event → Prop
  | goesOn {pc' : Pc Unit} {es : List Event} : pc.onCourse = true → cancelling = false → pc'.onCourse = true →
      ends es = 0 → clears es = 0 → Course r cancelling pc (some pc') es
  | ends : pc = .drain → cancelling = false → Course r cancelling pc (some .sendEnd) [.json .ttsEnd]
  | fails : pc.onCourse = true → cancelling = false → Course r cancelling pc (some .sendError) [.json .error]
  | silent (segments audioBytes : Nat) : pc.onCourse = true → cancelling = false → pc.opening = false → r.frames = 0 →
      Course r cancelling pc (some (.sendMetrics false)) [.json (.ttsMetrics r.frames segments audioBytes false)]
  | off {next : Option (Pc Unit)} {es : List Event} : (pc.onCourse = false ∨ cancelling = true) →
      (∀ pc', next = some pc' → pc'.onCourse = false) → (∀ e ∈ es, e.plain = true) → clears es = 0 →
      Course r cancelling pc next es

theorem Advance.course {r r' : Reply} {h h' : Heard} {cancelling : Bool} {pc : Pc Unit} {next : Option (Pc Unit)}
    {es : List Event} (hadv : Advance r h cancelling pc r' h' next es) : Course r cancelling pc next es := by
  have htakes : ∀ {h₀ : Heard} {pc₁ : Pc Unit}, Takes r h₀ r' h' pc₁ es → pc.onCourse = true → pc.opening = false →
      cancelling = false → Course r cancelling pc (some pc₁) es := by
    intro h₀ pc₁ ht hpc hopening hgoes
    cases ht with
    | waits | segment | last => exact .goesOn hpc hgoes rfl rfl rfl
    | silent queue hqueue hframes => exact .silent _ _ hpc hgoes hopening hframes
  cases hadv with
  | starts ht | gets ht | spoken ht => exact htakes ht rfl rfl rfl
  | skips | firstFrame | frame | started | sent | paced => exact .goesOn rfl rfl rfl rfl rfl
  | drained => exact .ends rfl rfl
  | fails hraises =>
      cases pc with
      | sendEnd => exact .off (Or.inl rfl) (by rintro _ ⟨⟩; rfl) (by simp [Event.plain]) rfl
      | engineNext | sendStart | sendBytes => exact .fails rfl rfl
      | _ => cases hraises
  | completed | failed => exact .off (Or.inl rfl) (by rintro _ ⟨⟩; rfl) (by simp [Event.plain]) rfl
  | interrupted => exact .off (Or.inr rfl) (by rintro _ ⟨⟩; rfl) (by simp [Event.plain]) rfl
  | closes => exact .off (Or.inl rfl) (by rintro _ ⟨⟩; rfl) (fun _ he => nomatch he) rfl
  | dropped => exact .off (Or.inr rfl) (fun _ hnext => nomatch hnext) (fun _ he => nomatch he) rfl
  | cut | returns => exact .off (Or.inl rfl) (fun _ hnext => nomatch hnext) (fun _ he => nomatch he) rfl

/-- How the client has been told, or is being told, that the reply is over. -/
inductive Settled (s : Speech n) (r : Nat) : Prop
  | ended : ends (s.wire r) = 1 → clears (s.wire r) = 0 → (∀ me, s.owes me ≠ some r) → Settled s r
  | cleared : ends (s.wire r) = 0 → clears (s.wire r) = 1 → (∀ me, s.owes me ≠ some r) → Settled s r
  | owed (me : Fin n) : ends (s.wire r) = 0 → clears (s.wire r) = 0 → s.owes me = some r →
      (∀ me', s.owes me' = some r → me' = me) → Settled s r

theorem Settled.congr {r : Nat} (h : Settled s r) (hends : ends (t.wire r) = ends (s.wire r))
    (hclears : clears (t.wire r) = clears (s.wire r)) (howes : ∀ me, t.owes me = some r ↔ s.owes me = some r) :
    Settled t r := by
  cases h with
  | ended he hc hnone => exact .ended (hends.trans he) (hclears.trans hc) (fun me ho => hnone me ((howes me).mp ho))
  | cleared he hc hnone => exact .cleared (hends.trans he) (hclears.trans hc) (fun me ho => hnone me ((howes me).mp ho))
  | owed me he hc howe honly =>
      exact .owed me (hends.trans he) (hclears.trans hc) ((howes me).mpr howe) (fun me' ho => honly me' ((howes me').mp ho))

structure Wired (s : Speech n) : Prop where
  last : ∀ r, s.tts.current = some r → r + 1 = s.tts.count
  mentioned : ∀ r e, (r, e) ∈ s.sent → r < s.tts.count
  stopping : ∀ me r hadAudio reason k, (s.caller me).pc? = some (.stopping r hadAudio reason k) → s.onCourse r = false
  waiting : ∀ me r, s.owes me = some r → r + 1 = s.tts.count
  uncalled : ∀ me pc r, s.caller me = .suspended pc true → s.owes me = some r → s.started r = false
  before : ∀ r, s.onCourse r = true → ends (s.wire r) = 0 ∧ clears (s.wire r) = 0
  settled : ∀ r, s.started r = true → s.onCourse r = false → Settled s r
  order : ∀ r r' reason, [(r', .json .ttsStart), (r, .json (.ttsClear reason))].Sublist s.sent → r' ≤ r

namespace Wired

theorem owes_iff {r : Nat} : s.owes me = some r ↔ ∃ reason k, (s.caller me).pc? = some (.stopping r true reason k) := by
  unfold Speech.owes
  constructor
  · intro h
    split at h
    · rename_i pc reason k c hpc
      cases h
      exact ⟨reason, k, by rw [hpc]; rfl⟩
    · cases h
  · rintro ⟨reason, k, hpc⟩
    cases hc : s.caller me with
    | done => simp [hc] at hpc
    | suspended pc c =>
        rw [hc, Coroutine.pc?_suspended, Option.some.injEq] at hpc
        subst hpc
        rfl

theorem wire_eq_nil {r : Nat} (h : ∀ e, (r, e) ∉ s.sent) : s.wire r = [] := by
  unfold Speech.wire
  rw [List.filterMap_eq_nil_iff]
  rintro ⟨r', e⟩ hmem
  dsimp only
  split
  · rename_i heq
    subst heq
    exact absurd hmem (h e)
  · rfl

theorem init (n : Nat) : Wired ({} : Speech n) where
  last := fun _ h => nomatch h
  mentioned := fun _ _ h => nomatch h
  stopping := fun _ _ _ _ _ h => nomatch h
  waiting := fun _ _ h => nomatch h
  uncalled := fun _ _ _ h => nomatch h
  before := fun _ h => nomatch h
  settled := fun _ h => nomatch h
  order := fun _ _ _ h => nomatch h

theorem onCourse_of_task {r : Nat} (h : t.tts.task r = s.tts.task r) : t.onCourse r = s.onCourse r := by
  unfold Speech.onCourse
  rw [h]

theorem onCourse_cancel {m : Nat} (h : t.tts = s.tts.cancel m) (r : Nat) :
    t.onCourse r = if r = m then false else s.onCourse r := by
  have htask : t.tts.task r = if r = m then (s.tts.task r).cancel else s.tts.task r := by
    rw [h, Consumer.cancel_task]
  by_cases heq : r = m
  · rw [if_pos heq] at htask ⊢
    unfold Speech.onCourse
    rw [htask]
    cases s.tts.task r <;> rfl
  · rw [if_neg heq] at htask ⊢
    exact onCourse_of_task htask

theorem started_of_sent (h : t.sent = s.sent) (r : Nat) : t.started r = s.started r := by
  unfold Speech.started
  rw [Speech.wire_of_sent h]

/-- Nothing is sent, nobody's place changes and no task leaves its course. -/
theorem congr (h : Wired s) (hcurrent : t.tts.current = s.tts.current) (hcount : t.tts.count = s.tts.count)
    (hsent : t.sent = s.sent) (hcourse : ∀ r, t.onCourse r = s.onCourse r)
    (hpc : ∀ me, (t.caller me).pc? = (s.caller me).pc?)
    (huncalled : ∀ me pc r, t.caller me = .suspended pc true → s.owes me = some r → s.started r = false) : Wired t := by
  have howes : ∀ me, t.owes me = s.owes me := by
    intro me
    refine Option.ext (fun r => ?_)
    rw [owes_iff, owes_iff, hpc]
  refine ⟨?_, ?_, ?_, ?_, ?_, ?_, ?_, ?_⟩
  · rw [hcurrent, hcount]
    exact h.last
  · rw [hsent, hcount]
    exact h.mentioned
  · intro me r hadAudio reason k hme
    rw [hcourse]
    exact h.stopping me r hadAudio reason k (hpc me ▸ hme)
  · intro me r ho
    rw [hcount]
    exact h.waiting me r (howes me ▸ ho)
  · intro me pc r hme ho
    rw [started_of_sent hsent]
    exact huncalled me pc r hme (howes me ▸ ho)
  · intro r hr
    rw [Speech.wire_of_sent hsent]
    exact h.before r (hcourse r ▸ hr)
  · intro r hstarted hr
    rw [started_of_sent hsent] at hstarted
    have hwire := Speech.wire_of_sent hsent r
    exact (h.settled r hstarted (hcourse r ▸ hr)).congr (by rw [hwire]) (by rw [hwire]) (fun me => by rw [howes])
  · rw [hsent]
    exact h.order

/-- A call returns that owes no `tts_clear` for a reply whose `tts_start` was sent. -/
theorem leaves (h : Wired s) (hme : ∀ r, s.owes me = some r → s.started r = false) (htts : t.tts = s.tts)
    (hcaller : t.caller = Function.update s.caller me .done) (hsent : t.sent = s.sent) : Wired t := by
  have hpc : ∀ me' pc, (t.caller me').pc? = some pc → (s.caller me').pc? = some pc ∧ me' ≠ me := by
    intro me' pc hpc
    rw [hcaller] at hpc
    by_cases heq : me' = me
    · subst heq
      rw [Function.update_self] at hpc
      cases hpc
    · rw [Function.update_of_ne heq] at hpc
      exact ⟨hpc, heq⟩
  have howes : ∀ me' r, t.owes me' = some r → s.owes me' = some r := by
    intro me' r ho
    obtain ⟨reason, k, hp⟩ := owes_iff.mp ho
    exact owes_iff.mpr ⟨reason, k, (hpc me' _ hp).1⟩
  have hother : ∀ me', me' ≠ me → t.owes me' = s.owes me' := by
    intro me' hne
    unfold Speech.owes
    rw [hcaller, Function.update_of_ne hne]
  have hcourse : ∀ r, t.onCourse r = s.onCourse r := fun r => onCourse_of_task (by rw [htts])
  refine ⟨?_, ?_, ?_, ?_, ?_, ?_, ?_, ?_⟩
  · rw [htts]
    exact h.last
  · rw [hsent, htts]
    exact h.mentioned
  · intro me' r hadAudio reason k hme'
    rw [hcourse]
    exact h.stopping me' r hadAudio reason k (hpc me' _ hme').1
  · intro me' r ho
    rw [htts]
    exact h.waiting me' r (howes me' r ho)
  · intro me' pc r hme' ho
    rw [started_of_sent hsent]
    refine h.uncalled me' pc r ?_ (howes me' r ho)
    have hne := (hpc me' pc (by rw [hme']; rfl)).2
    rwa [hcaller, Function.update_of_ne hne] at hme'
  · intro r hr
    rw [Speech.wire_of_sent hsent]
    exact h.before r (hcourse r ▸ hr)
  · intro r hstarted hr
    rw [started_of_sent hsent] at hstarted
    have hwire := Speech.wire_of_sent hsent r
    refine (h.settled r hstarted (hcourse r ▸ hr)).congr (by rw [hwire]) (by rw [hwire])
      (fun me' => ⟨howes me' r, fun ho => ?_⟩)
    have hne : me' ≠ me := by
      rintro rfl
      rw [hme r ho] at hstarted
      cases hstarted
    exact (hother me' hne).trans ho
  · rw [hsent]
    exact h.order

/-- `stop` is called in time. -/
theorem stops (h : Wired s) {r : Nat} {reason : Text} {k : StopFor} (hactive : s.tts.active = some r)
    (hok : s.started r = true → s.onCourse r = true ∧ s.tts.audioSent = true) (hidle : (s.caller me).isDone = true)
    (htts : t.tts = s.tts.cancel r) (hcaller : t.caller = Function.update s.caller me (.await (.stopping r s.tts.audioSent reason k)))
    (hsent : t.sent = s.sent) : Wired t := by
  have hcourse := onCourse_cancel htts
  have hlast : r + 1 = s.tts.count := h.last r (Consumer.active_eq_some.mp hactive).1
  have hother : ∀ me', me' ≠ me → t.caller me' = s.caller me' := by
    intro me' hne
    rw [hcaller, Function.update_of_ne hne]
  have hself : t.caller me = .await (.stopping r s.tts.audioSent reason k) := by rw [hcaller, Function.update_self]
  have howesSelf : ∀ m, t.owes me = some m → m = r ∧ s.tts.audioSent = true := by
    intro m ho
    obtain ⟨reason', k', hp⟩ := owes_iff.mp ho
    rw [hself] at hp
    simp only [Coroutine.await, Coroutine.pc?_suspended, Option.some.injEq, CallPc.stopping.injEq] at hp
    exact ⟨hp.1.symm, hp.2.1⟩
  have howesOther : ∀ me', me' ≠ me → t.owes me' = s.owes me' := by
    intro me' hne
    unfold Speech.owes
    rw [hother me' hne]
  have hnone : s.owes me = none := by
    unfold Speech.owes
    rw [Coroutine.isDone_iff.mp hidle]
  refine ⟨?_, ?_, ?_, ?_, ?_, ?_, ?_, ?_⟩
  · rw [htts]
    exact h.last
  · rw [hsent, htts]
    exact h.mentioned
  · intro me' m hadAudio reason' k' hp
    rw [hcourse]
    split
    · rfl
    · rename_i hne
      by_cases heq : me' = me
      · subst heq
        rw [hself] at hp
        cases hp
        exact absurd rfl hne
      · rw [hother me' heq] at hp
        exact h.stopping me' m hadAudio reason' k' hp
  · intro me' m ho
    rw [htts]
    by_cases heq : me' = me
    · subst heq
      rw [(howesSelf m ho).1]
      exact hlast
    · rw [howesOther me' heq] at ho
      exact h.waiting me' m ho
  · intro me' pc m hme' ho
    rw [started_of_sent hsent]
    by_cases heq : me' = me
    · subst heq
      rw [hself] at hme'
      cases hme'
    · rw [hother me' heq] at hme'
      rw [howesOther me' heq] at ho
      exact h.uncalled me' pc m hme' ho
  · intro m hm
    rw [hcourse] at hm
    split at hm
    · cases hm
    · rw [Speech.wire_of_sent hsent]
      exact h.before m hm
  · intro m hstarted hm
    rw [started_of_sent hsent] at hstarted
    have hwire := Speech.wire_of_sent hsent m
    rw [hcourse] at hm
    split at hm
    · rename_i heq
      subst heq
      -- the caller now owes the `tts_clear`, and nobody did before
      obtain ⟨hr, haudio⟩ := hok hstarted
      obtain ⟨hends, hclears⟩ := h.before m hr
      refine .owed me (hwire ▸ hends) (hwire ▸ hclears) ?_ (fun me' ho => ?_)
      · rw [owes_iff, hself, haudio]
        exact ⟨reason, k, rfl⟩
      · by_contra hne
        rw [howesOther me' hne] at ho
        obtain ⟨reason', k', hp⟩ := owes_iff.mp ho
        rw [h.stopping me' m true reason' k' hp] at hr
        cases hr
    · rename_i hne
      refine (h.settled m hstarted hm).congr (by rw [hwire]) (by rw [hwire]) (fun me' => ?_)
      by_cases heq : me' = me
      · subst heq
        rw [hnone]
        exact ⟨fun ho => absurd (howesSelf m ho).1 hne, by simp⟩
      · rw [howesOther me' heq]
  · rw [hsent]
    exact h.order

/-- `begin` creates a reply when nobody owes a `tts_clear`. -/
theorem opens (h : Wired s) {utteranceId : Text} {items : List (Option Text)} (hnone : ∀ me, s.owes me = none)
    (hstopped : ∀ me r hadAudio reason k, (s.caller me).pc? = some (.stopping r hadAudio reason k) → r < s.tts.count)
    (htts : t.tts = s.tts.opened utteranceId items)
    (hcaller : t.caller = Function.update s.caller me .done) (hsent : t.sent = s.sent) : Wired t := by
  have hnew : t.wire s.tts.count = [] := by
    rw [Speech.wire_of_sent hsent]
    exact wire_eq_nil (fun e hmem => absurd (h.mentioned _ e hmem) (Nat.lt_irrefl _))
  have hcourse : ∀ r, r ≠ s.tts.count → t.onCourse r = s.onCourse r := by
    intro r hne
    refine onCourse_of_task ?_
    rw [htts]
    exact Function.update_of_ne hne _ _
  have howes : ∀ me', t.owes me' = none := by
    intro me'
    have hpc : (t.caller me').pc? = none ∨ (t.caller me').pc? = (s.caller me').pc? := by
      rw [hcaller]
      by_cases heq : me' = me
      · subst heq
        exact Or.inl (by rw [Function.update_self]; rfl)
      · exact Or.inr (by rw [Function.update_of_ne heq])
    by_contra hsome
    obtain ⟨r, ho⟩ := Option.ne_none_iff_exists'.mp hsome
    obtain ⟨reason, k, hp⟩ := owes_iff.mp ho
    rcases hpc with hpc | hpc
    · simp [hpc] at hp
    · rw [hpc] at hp
      have hold : s.owes me' = some r := owes_iff.mpr ⟨reason, k, hp⟩
      rw [hnone] at hold
      cases hold
  refine ⟨?_, ?_, ?_, ?_, ?_, ?_, ?_, ?_⟩
  · rw [htts]
    rintro r ⟨⟩
    rfl
  · rw [hsent, htts]
    exact fun r e hmem => Nat.lt_succ_of_lt (h.mentioned r e hmem)
  · intro me' r hadAudio reason k hp
    have hold : (s.caller me').pc? = some (.stopping r hadAudio reason k) := by
      rw [hcaller] at hp
      by_cases heq : me' = me
      · subst heq
        rw [Function.update_self] at hp
        cases hp
      · rwa [Function.update_of_ne heq] at hp
    rw [hcourse r (Nat.ne_of_lt (hstopped me' r hadAudio reason k hold))]
    exact h.stopping me' r hadAudio reason k hold
  · intro me' r ho
    rw [howes] at ho
    cases ho
  · intro me' pc r _ ho
    rw [howes] at ho
    cases ho
  · intro r hr
    by_cases heq : r = s.tts.count
    · rw [heq, hnew]
      exact ⟨rfl, rfl⟩
    · rw [Speech.wire_of_sent hsent]
      exact h.before r (hcourse r heq ▸ hr)
  · intro r hstarted hr
    by_cases heq : r = s.tts.count
    · subst heq
      unfold Speech.started at hstarted
      rw [hnew] at hstarted
      cases hstarted
    · rw [started_of_sent hsent] at hstarted
      have hwire := Speech.wire_of_sent hsent r
      refine (h.settled r hstarted (hcourse r heq ▸ hr)).congr (by rw [hwire]) (by rw [hwire]) (fun me' => ?_)
      rw [howes, hnone]
  · rw [hsent]
    exact h.order

/-- `tts_clear` is sent, for the reply that was created last. -/
theorem clearSent (h : Wired s) {r : Nat} {reason : Text} {k : StopFor}
    (hme : s.caller me = .suspended (.stopping r true reason k) false) (htts : t.tts = s.tts)
    (hcaller : t.caller = Function.update s.caller me (.await (.clearing k)))
    (hsent : t.sent = s.sent ++ [(r, .json (.ttsClear reason))]) : Wired t := by
  have howe : s.owes me = some r := owes_iff.mpr ⟨reason, k, by rw [hme]; rfl⟩
  have hlast : r + 1 = s.tts.count := h.waiting me r howe
  have hsent' : t.sent = s.sent ++ [Event.json (.ttsClear reason)].map (r, ·) := hsent
  have hwire := fun m => Speech.wire_append hsent' m
  have hcourse : ∀ m, t.onCourse m = s.onCourse m := fun m => onCourse_of_task (by rw [htts])
  have hoff : s.onCourse r = false := h.stopping me r true reason k (by rw [hme]; rfl)
  have hstarted : ∀ m, t.started m = s.started m := by
    intro m
    unfold Speech.started
    rw [hwire]
    split <;> simp
  have hother : ∀ me', me' ≠ me → t.caller me' = s.caller me' := by
    intro me' hne
    rw [hcaller, Function.update_of_ne hne]
  have hself : t.caller me = .await (.clearing k) := by rw [hcaller, Function.update_self]
  have howes : ∀ me', t.owes me' = if me' = me then none else s.owes me' := by
    intro me'
    by_cases heq : me' = me
    · rw [if_pos heq, heq, Speech.owes, hself]
      rfl
    · rw [if_neg heq, Speech.owes, hother me' heq]
      rfl
  have hpc : ∀ me' pc, (t.caller me').pc? = some pc → pc = .clearing k ∨ (s.caller me').pc? = some pc := by
    intro me' pc hp
    by_cases heq : me' = me
    · rw [heq, hself] at hp
      cases hp
      exact Or.inl rfl
    · rw [hother me' heq] at hp
      exact Or.inr hp
  refine ⟨?_, ?_, ?_, ?_, ?_, ?_, ?_, ?_⟩
  · rw [htts]
    exact h.last
  · rw [hsent, htts]
    intro m e hmem
    rcases List.mem_append.mp hmem with hmem | hmem
    · exact h.mentioned m e hmem
    · rw [List.mem_singleton, Prod.mk.injEq] at hmem
      omega
  · intro me' m hadAudio reason' k' hp
    rw [hcourse]
    rcases hpc me' _ hp with heq | hp
    · cases heq
    · exact h.stopping me' m hadAudio reason' k' hp
  · intro me' m ho
    rw [htts]
    rw [howes] at ho
    split at ho
    · cases ho
    · exact h.waiting me' m ho
  · intro me' pc m hme' ho
    rw [hstarted]
    rw [howes] at ho
    split at ho
    · cases ho
    · rename_i hne
      rw [hother me' hne] at hme'
      exact h.uncalled me' pc m hme' ho
  · intro m hm
    rw [hcourse] at hm
    have hne : r ≠ m := by
      rintro rfl
      rw [hoff] at hm
      cases hm
    rw [hwire, if_neg hne, List.append_nil]
    exact h.before m hm
  · intro m hm hoff'
    rw [hstarted] at hm
    rw [hcourse] at hoff'
    have hsettled := h.settled m hm hoff'
    by_cases heq : r = m
    · subst heq
      have hw := hwire r
      rw [if_pos rfl] at hw
      cases hsettled with
      | ended _ _ hnone => exact absurd howe (hnone me)
      | cleared _ _ hnone => exact absurd howe (hnone me)
      | owed me' hends hclears howe' honly =>
          refine .cleared ?_ ?_ (fun me'' ho => ?_)
          · rw [hw]
            unfold ends at hends ⊢
            rw [List.count_append, hends]
            rfl
          · rw [hw]
            unfold clears at hclears ⊢
            rw [List.countP_append, hclears]
            rfl
          · rw [howes] at ho
            split at ho
            · cases ho
            · rename_i hne
              exact hne ((honly me'' ho).trans (honly me howe).symm)
    · have hw : t.wire m = s.wire m := by rw [hwire, if_neg heq, List.append_nil]
      refine hsettled.congr (by rw [hw]) (by rw [hw]) (fun me' => ?_)
      rw [howes]
      split
      · rename_i hme'
        rw [hme', howe]
        simp [heq]
      · exact Iff.rfl
  · rw [hsent]
    intro m m' reason' hsub
    rcases pair_sublist_append hsub with hsub | ⟨hmem, hmem'⟩ | hsub
    · exact h.order m m' reason' hsub
    · rw [List.mem_singleton, Prod.mk.injEq] at hmem'
      have hlt := h.mentioned m' _ hmem
      omega
    · simp at hsub

/-- A caller is asked to cancel that owes no `tts_clear` for a reply whose `tts_start` was sent. -/
theorem asks (h : Wired s) (hme : ∀ r, s.owes me = some r → s.started r = false)
    (htts : t.tts = s.tts ∨ ∃ r hadAudio reason k c, s.caller me = .suspended (.stopping r hadAudio reason k) c ∧ t.tts = s.tts.cancel r)
    (hcaller : t.caller = Function.update s.caller me (s.caller me).cancel) (hsent : t.sent = s.sent) : Wired t := by
  have hpc : ∀ me', (t.caller me').pc? = (s.caller me').pc? := by
    intro me'
    rw [hcaller]
    by_cases heq : me' = me
    · subst heq
      rw [Function.update_self, Coroutine.pc?_cancel]
    · rw [Function.update_of_ne heq]
  have huncalled : ∀ me' pc r, t.caller me' = .suspended pc true → s.owes me' = some r → s.started r = false := by
    intro me' pc r hme' ho
    by_cases heq : me' = me
    · exact hme r (heq ▸ ho)
    · rw [hcaller, Function.update_of_ne heq] at hme'
      exact h.uncalled me' pc r hme' ho
  rcases htts with htts | ⟨r, hadAudio, reason, k, c, hat, htts⟩
  · refine h.congr (by rw [htts]) (by rw [htts]) hsent (fun r => onCourse_of_task (by rw [htts])) hpc huncalled
  · have hoff : s.onCourse r = false := h.stopping me r hadAudio reason k (by rw [hat]; rfl)
    refine h.congr (by rw [htts]; rfl) (by rw [htts]; rfl) hsent (fun m => ?_) hpc huncalled
    rw [onCourse_cancel htts]
    split
    · rename_i heq
      rw [heq, hoff]
    · rfl

/-- A reply takes a step, and is not ended by an exception once `tts_start` was sent. -/
theorem reply (h : Wired s) {r : Nat} {pc : Pc Unit} {cancelling : Bool} {next : Option (Pc Unit)} {es : List Event}
    (hpc : s.tts.task r = .suspended pc cancelling) (hstep : Course (s.tts.reply r) cancelling pc next es)
    (hsilent : pc.onCourse = true → pc.opening = false → (s.tts.reply r).frames = 0 → s.started r = false)
    (hfails : s.started r = true → pc.onCourse = true → next ≠ some .sendError) (hlt : r < s.tts.count)
    (hcurrent : t.tts.current = s.tts.current) (hcount : t.tts.count = s.tts.count)
    (htask : t.tts.task = Function.update s.tts.task r (next.elim .done .await)) (hcaller : t.caller = s.caller)
    (hsent : t.sent = s.sent ++ es.map (r, ·)) : Wired t := by
  have hwire := fun m => Speech.wire_append hsent m
  have hself : t.wire r = s.wire r ++ es := by rw [hwire, if_pos rfl]
  have hother : ∀ m, m ≠ r → t.wire m = s.wire m := by
    intro m hne
    rw [hwire, if_neg (Ne.symm hne), List.append_nil]
  have hcourse : ∀ m, m ≠ r → t.onCourse m = s.onCourse m := by
    intro m hne
    refine onCourse_of_task ?_
    rw [htask, Function.update_of_ne hne]
  have hwas : s.onCourse r = (!cancelling && pc.onCourse) := by
    unfold Speech.onCourse
    rw [hpc]
    cases cancelling <;> rfl
  have his : t.onCourse r = next.any Pc.onCourse := by
    unfold Speech.onCourse
    rw [htask, Function.update_self]
    cases next <;> rfl
  have howes : ∀ me, t.owes me = s.owes me := by
    intro me
    unfold Speech.owes
    rw [hcaller]
  have hplain : (∀ e ∈ es, e.plain = true) → t.started r = s.started r ∧ ends (t.wire r) = ends (s.wire r) := by
    intro hes
    obtain ⟨hstart, hend, -⟩ := Lawful.not_mem_of_plain hes
    unfold Speech.started
    rw [hself, ends_append]
    constructor
    · simp [hstart]
    · rw [show ends es = 0 from List.count_eq_zero_of_not_mem hend, Nat.add_zero]
  have hnoClear : ∀ reason, .json (.ttsClear reason) ∉ es := by
    intro reason hmem
    have hpos : 0 < clears es := List.countP_pos_iff.mpr ⟨_, hmem, rfl⟩
    cases hstep with
    | goesOn _ _ _ _ hclears => omega
    | ends | fails | silent => simp at hmem
    | off _ _ _ hclears => omega
  refine ⟨?_, ?_, ?_, ?_, ?_, ?_, ?_, ?_⟩
  · rw [hcurrent, hcount]
    exact h.last
  · rw [hsent, hcount]
    intro m e hmem
    rcases List.mem_append.mp hmem with hmem | hmem
    · exact h.mentioned m e hmem
    · obtain ⟨e', -, heq⟩ := List.mem_map.mp hmem
      cases heq
      exact hlt
  · intro me m hadAudio reason k hp
    rw [hcaller] at hp
    have hoff := h.stopping me m hadAudio reason k hp
    by_cases heq : m = r
    · subst heq
      rw [his]
      rw [hwas] at hoff
      cases hstep with
      | goesOn hon hgoes => simp [hon, hgoes] at hoff
      | ends | fails | silent => rfl
      | off _ hnext =>
          cases next with
          | none => rfl
          | some pc' => exact hnext pc' rfl
    · rw [hcourse m heq]
      exact hoff
  · intro me m ho
    rw [hcount]
    exact h.waiting me m (howes me ▸ ho)
  · intro me pc' m hme ho
    rw [hcaller] at hme
    rw [howes] at ho
    have hnot := h.uncalled me pc' m hme ho
    by_cases heq : m = r
    · subst heq
      obtain ⟨reason, k, hp⟩ := owes_iff.mp ho
      have hoff := h.stopping me m true reason k hp
      rw [hwas] at hoff
      rw [(hplain ?_).1, hnot]
      cases hstep with
      | goesOn hon hgoes => simp [hon, hgoes] at hoff
      | ends hdrain hgoes => simp [hdrain, hgoes, Pc.onCourse] at hoff
      | fails | silent => simp [Event.plain]
      | off _ _ hes => exact hes
    · unfold Speech.started at hnot ⊢
      rw [hother m heq]
      exact hnot
  · intro m hm
    by_cases heq : m = r
    · subst heq
      rw [his] at hm
      cases hstep with
      | goesOn hon hgoes _ hends hclears =>
          obtain ⟨he, hc⟩ := h.before m (by rw [hwas, hon, hgoes]; rfl)
          rw [hself, ends_append, clears_append, he, hc, hends, hclears]
          exact ⟨rfl, rfl⟩
      | ends | fails | silent => cases hm
      | off _ hnext =>
          cases next with
          | none => cases hm
          | some pc' => rw [Option.any_some, hnext pc' rfl] at hm; cases hm
    · rw [hother m heq]
      exact h.before m (hcourse m heq ▸ hm)
  · intro m hstarted hoff
    by_cases heq : m = r
    · subst heq
      cases hstep with
      | goesOn _ _ hon' =>
          rw [his, Option.any_some, hon'] at hoff
          cases hoff
      | ends hdrain hgoes =>
          have hon : s.onCourse m = true := by
            rw [hwas, hdrain, hgoes]
            rfl
          obtain ⟨he, hc⟩ := h.before m hon
          refine .ended ?_ ?_ (fun me ho => ?_)
          · rw [hself, ends_append, he]
            rfl
          · rw [hself, clears_append, hc]
            rfl
          · rw [howes] at ho
            obtain ⟨reason, k, hp⟩ := owes_iff.mp ho
            rw [h.stopping me m true reason k hp] at hon
            cases hon
      | fails hon hgoes =>
          rw [(hplain (by simp [Event.plain])).1] at hstarted
          exact absurd rfl (hfails hstarted hon)
      | silent segments audioBytes hon hgoes hopening hframes =>
          rw [(hplain (by simp [Event.plain])).1, hsilent hon hopening hframes] at hstarted
          cases hstarted
      | off hwasOff hnext hes hclears =>
          obtain ⟨hst, he⟩ := hplain hes
          rw [hst] at hstarted
          have hoff' : s.onCourse m = false := by
            rw [hwas]
            rcases hwasOff with hw | hw <;> simp [hw]
          refine (h.settled m hstarted hoff').congr he ?_ (fun me => by rw [howes])
          rw [hself, clears_append, hclears, Nat.add_zero]
    · have hst : s.started m = true := by
        unfold Speech.started at hstarted ⊢
        rwa [hother m heq] at hstarted
      exact (h.settled m hst (hcourse m heq ▸ hoff)).congr (by rw [hother m heq]) (by rw [hother m heq])
        (fun me => by rw [howes])
  · rw [hsent]
    intro m m' reason hsub
    have hnew : (m, Event.json (.ttsClear reason)) ∉ es.map (r, ·) := by
      intro hmem
      obtain ⟨e, he, heq⟩ := List.mem_map.mp hmem
      cases heq
      exact hnoClear reason he
    exact h.order m m' reason (pair_sublist_left hsub hnew)

/-- **A step that stops replies in time keeps the invariant.** -/
theorem step {p q : Playback n} (h : Wired p.speech) (hfresh : p.Fresh)
    (hgrammar : ∀ r < p.speech.tts.count,
      Grammar (p.speech.tts.task r) (p.speech.tts.reply r) (p.heard r) (p.speech.wire r))
    (hok : p.speech.inTime l = true) (hstep : p.step l = some q) : Wired q.speech := by
  unfold Speech.inTime at hok
  rw [Bool.and_eq_true] at hok
  obtain ⟨htime, hopening⟩ := hok
  cases Speech.Move.of_step (Playback.of_step hstep) with
  | idle htts hcaller hsent =>
      refine h.congr (by rw [htts]) (by rw [htts]) hsent (fun r => onCourse_of_task (by rw [htts])) (fun me => by rw [hcaller]) ?_
      rw [hcaller]
      exact h.uncalled
  | puts r item hactive htts hcaller hsent =>
      refine h.congr (by rw [htts]; rfl) (by rw [htts]; rfl) hsent (fun r => onCourse_of_task (by rw [htts]; rfl))
        (fun me => by rw [hcaller]) ?_
      rw [hcaller]
      exact h.uncalled
  | leaves me howes htts hcaller hsent =>
      refine h.leaves (fun r ho => ?_) htts hcaller hsent
      rcases howes with hnone | ⟨pc, hpc⟩
      · rw [hnone] at ho
        cases ho
      · exact h.uncalled me pc r hpc ho
  | stops me r reason k call hlabel hcall hme hactive htts hcaller hsent =>
      refine h.stops hactive (fun hstarted => ?_) hme htts hcaller hsent
      subst hlabel
      have hasks : p.speech.asks (.call me call) = some r := by
        rcases hcall with rfl | hbegins
        · exact hactive
        · cases call <;> first | exact hactive | cases hbegins
      simpa [hasks, hstarted] using htime
  | opens me k hk hcause htts hcaller hsent =>
      have hopens : p.speech.opening l = true := by
        rcases hcause with ⟨call, rfl, hbegins, hactive, -⟩ | ⟨pc, a, rfl, hpc, hcall⟩
        · simp [Speech.opening, hbegins, hactive]
        · rcases hcall with ⟨r, reason, rfl⟩ | rfl <;> simp [Speech.opening, hpc, hk]
      have hnone : ∀ me, p.speech.owes me = none := by simpa [hopens] using hopening
      exact h.opens hnone hfresh.stopped htts hcaller hsent
  | clears me r reason k hme hdone htts hcaller hsent => exact h.clearSent hme htts hcaller hsent
  | asks me hlabel htts hcaller hsent =>
      refine h.asks (fun r ho => ?_) htts hcaller hsent
      subst hlabel
      simpa [ho] using htime
  | reply r w pc cancelling hlabel hpc henabled htts hcaller hsent =>
      subst hlabel
      have hlt : r < p.speech.tts.count := by
        by_contra hle
        rw [(hfresh.idle r (Nat.le_of_not_lt hle)).1] at hpc
        cases hpc
      refine h.reply hpc ((p.speech.tts.reply r).advance (p.heard r) henabled).course ?_ ?_ hlt (by rw [htts]) (by rw [htts])
        (by rw [htts]) hcaller hsent
      · intro hon hopen hframes
        have hcount := (hgrammar r hlt).count pc (by rw [hpc]; rfl) (Pc.cleanup_of_onCourse hon)
        rw [if_neg (by simp [hframes, hopen])] at hcount
        simpa [Speech.started] using List.count_eq_zero.mp hcount
      · intro hstarted hon hnext
        obtain rfl := Reply.raised_of_sendError hnext
        simp [hstarted, hpc, hon] at htime

end Wired

/-- The protocol of the messages about one reply. -/
structure Protocol (p : Playback n) (r : Nat) : Prop where
  lawful : Lawful (p.speech.wire r)
  closed : .json .ttsStart ∈ p.speech.wire r → (p.speech.tts.task r).isDone = true →
    (∀ me hadAudio reason k, (p.speech.caller me).pc? ≠ some (.stopping r hadAudio reason k)) →
      ends (p.speech.wire r) + clears (p.speech.wire r) = 1
  ended : .json .ttsEnd ∈ p.speech.wire r → (p.heard r).SpokenOut ∧ (p.heard r).played = true
  order : ∀ later reason, r < later →
    ¬ [(later, Event.json .ttsStart), (r, .json (.ttsClear reason))].Sublist p.speech.sent

/-- **The protocol of every reply**, in every run in which replies are stopped in time. -/
theorem protocol_of_inTime (n : Nat) {ls : List (Label n)} {p : Playback n} {r : Nat}
    (h : Run Playback.step (fun p l => p.speech.inTime l = true) {} ls p) (hr : r < p.speech.tts.count) : Protocol p r := by
  have hinv : Run Playback.step (fun p l => p.speech.inTime l = true) {} ls p ∧ p.Fresh ∧ Wired p.speech := by
    refine h.invariant₂ (I := fun ls p => Run Playback.step (fun p l => p.speech.inTime l = true) {} ls p ∧ p.Fresh ∧
      Wired p.speech) ⟨.nil, .init n, .init n⟩ ?_
    rintro ls p q l ⟨hrun, hfresh, hwired⟩ hok hstep
    exact ⟨hrun.snoc hok hstep, hfresh.step hstep, hwired.step hfresh (fun r hr => grammar hrun hr) hok hstep⟩
  obtain ⟨-, -, hwired⟩ := hinv
  have hgrammar := grammar h hr
  refine ⟨hgrammar.lawful, ?_, hgrammar.spoken, ?_⟩
  · intro hstart hdone hnobody
    have hoff : p.speech.onCourse r = false := by
      unfold Speech.onCourse
      rw [Coroutine.isDone_iff.mp hdone]
    cases hwired.settled r (by simpa [Speech.started] using hstart) hoff with
    | ended hends hclears => omega
    | cleared hends hclears => omega
    | owed me hends hclears howe =>
        obtain ⟨reason, k, hp⟩ := Wired.owes_iff.mp howe
        exact absurd hp (hnobody me true reason k)
  · intro later reason hlt hsub
    exact absurd (hwired.order r later reason hsub) (Nat.not_le_of_lt hlt)

/-- A reply is superseded after its first frame, and the next one starts. -/
def clearedReply : List (Label 2) :=
  [.call first (.startSpeaking hello "a".toList), .reply 0 (.ok .none), .reply 0 (.ok (.frame [1, 2])),
    .reply 0 (.ok .none), .reply 0 (.ok .none), .call second (.startSpeaking hello "b".toList), .reply 0 .cancelled,
    .reply 0 (.ok .none), .reply 0 (.ok .none), .caller second (.ok ()), .caller second (.ok ()), .reply 1 (.ok .none),
    .reply 1 (.ok (.frame [3, 4]))]

theorem protocol_clearedReply :
    ∃ p : Playback 2, Run Playback.step (fun p l => p.speech.inTime l = true) {} clearedReply p ∧ Protocol p 0 ∧
      clears (p.speech.wire 0) = 1 := by
  obtain ⟨p, hrun, hp⟩ := Run.exists_of_exec
    (P := fun p : Playback 2 => decide (0 < p.speech.tts.count) && decide (clears (p.speech.wire 0) = 1)) (s := {})
    (show (exec Playback.step (fun p l => p.speech.inTime l = true) _ clearedReply).any _ = true by decide +kernel)
  simp only [Bool.and_eq_true, decide_eq_true_eq] at hp
  exact ⟨p, hrun, protocol_of_inTime 2 hrun hp.1, hp.2⟩

/-- `stop` while the first frame of the reply is being sent. -/
def stoppedInFirstFrame : List (Label 2) :=
  [.call first (.startSpeaking hello "a".toList), .reply 0 (.ok .none), .reply 0 (.ok (.frame [1, 2])), .reply 0 (.ok .none),
    .call first (.stop "barge_in".toList), .reply 0 .cancelled, .reply 0 (.ok .none), .reply 0 (.ok .none), .caller first (.ok ())]

/-- `tts_start` and audio were sent, but neither `tts_end` nor `tts_clear`. -/
theorem stoppedInFirstFrame_not_protocol :
    ∃ p : Playback 2, Run Playback.step (fun _ _ => True) {} stoppedInFirstFrame p ∧ 0 < p.speech.tts.count ∧
      ¬ Protocol p 0 := by
  obtain ⟨p, hrun, hp⟩ := Run.exists_of_exec
    (P := fun p : Playback 2 => decide (0 < p.speech.tts.count) && p.speech.started 0 && (p.speech.tts.task 0).isDone &&
      decide (∀ me, (p.speech.caller me).isDone = true) && decide (ends (p.speech.wire 0) + clears (p.speech.wire 0) = 0)) (s := {})
    (show (exec Playback.step (fun _ _ => True) _ stoppedInFirstFrame).any _ = true by decide +kernel)
  simp only [Bool.and_eq_true, decide_eq_true_eq] at hp
  obtain ⟨⟨⟨⟨hcount, hstarted⟩, hdone⟩, hcaller⟩, hnone⟩ := hp
  refine ⟨p, hrun, hcount, fun hprotocol => ?_⟩
  have hone := hprotocol.closed (by simpa [Speech.started] using hstarted) hdone ?_
  · omega
  · intro me hadAudio reason k hpc
    rw [Coroutine.isDone_iff.mp (hcaller me)] at hpc
    cases hpc

end Voxera.Tts
