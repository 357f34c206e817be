import Voxera.Voice.Steps
import Voxera.Voice.Tasks

/-!
# After an interruption

From the moment `handle_interruption` is called, the replies that were begun before hand over no frame
and the generations that were started before hand out no segment, as long as two things do not happen:

* the system is interrupted while a call of `tts.begin` waits, which then opens its reply nevertheless;
* a reply is begun while another call of `tts.begin` waits, so that two replies are at work and only the
  later one is stopped.

`Cutoff s c` says what the interruption `c` has cut off, `Silent` is the invariant.
-/

namespace Voxera.Voice

open EventLoop
open Session

variable {cfg : Config} {me : Handler} {s t : Session}

/-! ## Who waits in `tts.begin`, and who interrupts -/

def Pc.ticket? (pc : Pc) : Option Nat := pc.stop?.bind StopFor.ticket?

/-- The interruption that the call is in. -/
def Pc.cut? : Pc → Option Cut
  | .stopping _ _ (.interruption _ cut) | .clearing (.interruption _ cut) | .bargeIn _ cut => some cut
  | _ => none

/-- The call of `tts.begin` in which the task waits. -/
def Session.beginsAt (s : Session) (me : Handler) : Option Nat := (s.handler me).pc?.bind Pc.ticket?

/-- The interruption that the task is in. -/
def Session.cutAt (s : Session) (me : Handler) : Option Cut := (s.handler me).pc?.bind Pc.cut?

theorem Pc.speech_of_ticket {pc : Pc} {k : Nat} (h : pc.ticket? = some k) : pc.speech = true := by
  cases pc <;> first | rfl | cases h

theorem Pc.speech_of_cut {pc : Pc} {c : Cut} (h : pc.cut? = some c) : pc.speech = true := by
  cases pc <;> first | rfl | cases h

theorem Hushed.beginsAt (h : Hushed s t) {k : Nat} (hk : t.beginsAt me = some k) : s.beginsAt me = some k := by
  obtain ⟨pc, hpc, hticket⟩ := Option.bind_eq_some_iff.mp hk
  exact Option.bind_eq_some_iff.mpr ⟨pc, (h.handler me pc (Pc.speech_of_ticket hticket)).mp hpc, hticket⟩

theorem Hushed.cutAt (h : Hushed s t) {c : Cut} (hc : t.cutAt me = some c) : s.cutAt me = some c := by
  obtain ⟨pc, hpc, hcut⟩ := Option.bind_eq_some_iff.mp hc
  exact Option.bind_eq_some_iff.mpr ⟨pc, (h.handler me pc (Pc.speech_of_cut hcut)).mp hpc, hcut⟩

theorem beginsAt_update {pc : Coroutine Pc} (hhandler : t.handler = Function.update s.handler me pc) (other : Handler) :
    t.beginsAt other = if other = me then pc.pc?.bind Pc.ticket? else s.beginsAt other := by
  unfold Session.beginsAt
  by_cases heq : other = me <;> simp [hhandler, heq]

theorem cutAt_update {pc : Coroutine Pc} (hhandler : t.handler = Function.update s.handler me pc) (other : Handler) :
    t.cutAt other = if other = me then pc.pc?.bind Pc.cut? else s.cutAt other := by
  unfold Session.cutAt
  by_cases heq : other = me <;> simp [hhandler, heq]

/-! ## The invariant -/

/-- The interruption whose call or return the event is. -/
def Event.cut? : Event → Option Cut
  | .interruption cut | .interruptionReturned cut => some cut
  | _ => none

/-- What the interruption has cut off: the replies begun and the generations started before it. -/
structure Cutoff (s : Session) (c : Cut) : Prop where
  begun : c.begun ≤ s.begun
  generations : c.generations ≤ s.llm.count
  replies : ∀ k r, .opened k r ∈ s.trace → k < c.begun → s.tts.Dying r
  pending : ∀ me k, s.beginsAt me = some k → c.begun ≤ k
  live : ∀ g < c.generations, ¬ s.llm.Live g

structure Silent (s : Session) : Prop where
  sounding : ∀ r, ¬ s.tts.Dying r → s.tts.current = some r ∧ ∀ me, s.beginsAt me = none
  oneBegin : ∀ me me' k k', s.beginsAt me = some k → s.beginsAt me' = some k' → me = me'
  pending : ∀ me k, s.beginsAt me = some k → k < s.begun
  opened : ∀ k r, .opened k r ∈ s.trace → k < s.begun ∧ r < s.tts.count
  below : ∀ r, s.tts.current = some r → r < s.tts.count
  audio : ∀ r frame, .tts r (.audio frame) ∈ s.trace → r < s.tts.count
  current : ∀ g, s.llm.Live g → s.llm.current = some g
  known : ∀ me c, s.cutAt me = some c → .interruption c ∈ s.trace
  returned : ∀ e ∈ s.trace, ∀ c, e.cut? = some c → .interruption c ∈ s.trace
  cut : ∀ c, .interruption c ∈ s.trace → Cutoff s c
  frames : ∀ e c r frame k, [e, .tts r (.audio frame)].Sublist s.trace → e.cut? = some c → .opened k r ∈ s.trace →
    c.begun ≤ k
  segments : ∀ e c r g text, [e, .queued r (some g) (some text)].Sublist s.trace → e.cut? = some c →
    c.generations ≤ g

/-- Neither the opening of a reply nor an interruption. -/
def Event.minor : Event → Bool
  | .opened _ _ | .interruption _ => false
  | _ => true

/-- Neither a frame nor a segment. -/
def Event.mute : Event → Bool
  | .tts _ (.audio _) | .queued _ (some _) (some _) => false
  | _ => true

namespace Silent

theorem fresh (cfg : Config) : Silent (fresh cfg) where
  sounding := fun r h => absurd (fun _ _ hpc => nomatch hpc) h
  oneBegin := fun _ _ _ _ h => nomatch h
  pending := fun _ _ h => nomatch h
  opened := by simp [Session.fresh]
  below := fun _ h => nomatch h
  audio := by simp [Session.fresh]
  current := by
    rintro g ⟨pc, hpc, -⟩
    cases hpc
  known := fun _ _ h => nomatch h
  returned := by simp [Session.fresh]
  cut := by simp [Session.fresh]
  frames := by simp [Session.fresh]
  segments := by simp [Session.fresh]

/-- Replies and generations may only die, and what is added to the trace respects the interruptions. -/
theorem congr (h : Silent s) (hcurrent : t.tts.current = s.tts.current) (hcount : t.tts.count = s.tts.count)
    (hdying : ∀ r, s.tts.Dying r → t.tts.Dying r) (hbegun : s.begun ≤ t.begun)
    (hllm : t.llm.current = s.llm.current) (hgenerations : t.llm.count = s.llm.count)
    (hlive : ∀ g, t.llm.Live g → s.llm.Live g)
    (hbegins : ∀ me k, t.beginsAt me = some k → s.beginsAt me = some k)
    (hcuts : ∀ me c, t.cutAt me = some c → .interruption c ∈ s.trace)
    {es : List Event} (htrace : t.trace = s.trace ++ es) (hminor : ∀ e ∈ es, e.minor = true)
    (hes : ∀ e ∈ es, ∀ c, e.cut? = some c → .interruption c ∈ s.trace)
    (hframes : ∀ r frame, .tts r (.audio frame) ∈ es → r < s.tts.count ∧ ¬ s.tts.Dying r)
    (hsegments : ∀ r g text, .queued r (some g) (some text) ∈ es → s.llm.Live g) : Silent t := by
  have hold : ∀ e : Event, e.minor = false → e ∈ t.trace → e ∈ s.trace := by
    intro e he hmem
    rw [htrace] at hmem
    rcases List.mem_append.mp hmem with hmem | hmem
    · exact hmem
    · rw [hminor e hmem] at he
      cases he
  have hcutof : ∀ e ∈ t.trace, ∀ c, e.cut? = some c → .interruption c ∈ s.trace := by
    intro e he c hc
    rw [htrace] at he
    rcases List.mem_append.mp he with he | he
    · exact h.returned e he c hc
    · exact hes e he c hc
  have hpair : ∀ e e' : Event, [e, e'].Sublist t.trace → [e, e'].Sublist s.trace ∨ e ∈ t.trace ∧ e' ∈ es := by
    intro e e' hsub
    have hmem : e ∈ t.trace := hsub.subset (by simp)
    rw [htrace] at hsub
    rcases pair_sublist_append hsub with hsub | ⟨-, he'⟩ | hsub
    · exact Or.inl hsub
    · exact Or.inr ⟨hmem, he'⟩
    · exact Or.inr ⟨hmem, hsub.subset (by simp)⟩
  have hnone : ∀ me, s.beginsAt me = none → t.beginsAt me = none := by
    intro me hme
    by_contra hsome
    obtain ⟨k, hk⟩ := Option.ne_none_iff_exists'.mp hsome
    simp [hbegins me k hk] at hme
  constructor
  · intro r hr
    obtain ⟨hc, hall⟩ := h.sounding r (fun hd => hr (hdying r hd))
    exact ⟨hcurrent.trans hc, fun me => hnone me (hall me)⟩
  · intro me me' k k' hk hk'
    exact h.oneBegin me me' k k' (hbegins me k hk) (hbegins me' k' hk')
  · intro me k hk
    exact lt_of_lt_of_le (h.pending me k (hbegins me k hk)) hbegun
  · intro k r hmem
    obtain ⟨hk, hr⟩ := h.opened k r (hold _ rfl hmem)
    rw [hcount]
    exact ⟨lt_of_lt_of_le hk hbegun, hr⟩
  · intro r hr
    rw [hcount]
    exact h.below r (hcurrent ▸ hr)
  · intro r frame hmem
    rw [hcount]
    rw [htrace] at hmem
    rcases List.mem_append.mp hmem with hmem | hmem
    · exact h.audio r frame hmem
    · exact (hframes r frame hmem).1
  · intro g hg
    exact hllm.trans (h.current g (hlive g hg))
  · intro me c hc
    rw [htrace]
    exact List.mem_append_left _ (hcuts me c hc)
  · intro e he c hc
    rw [htrace]
    exact List.mem_append_left _ (hcutof e he c hc)
  · intro c hc
    have hs := h.cut c (hold _ rfl hc)
    refine ⟨le_trans hs.begun hbegun, hgenerations ▸ hs.generations, ?_, ?_, ?_⟩
    · intro k r hmem hk
      exact hdying r (hs.replies k r (hold _ rfl hmem) hk)
    · intro me k hk
      exact hs.pending me k (hbegins me k hk)
    · intro g hg hl
      exact hs.live g hg (hlive g hl)
  · intro e c r frame k hsub hc hmem
    have hopened := hold _ rfl hmem
    rcases hpair _ _ hsub with hsub | ⟨he, he'⟩
    · exact h.frames e c r frame k hsub hc hopened
    · by_contra hk
      exact (hframes r frame he').2 ((h.cut c (hcutof e he c hc)).replies k r hopened (by omega))
  · intro e c r g text hsub hc
    rcases hpair _ _ hsub with hsub | ⟨he, he'⟩
    · exact h.segments e c r g text hsub hc
    · by_contra hg
      exact (h.cut c (hcutof e he c hc)).live g (by omega) (hsegments r g text he')

/-- A step of a call that neither begins a reply nor interrupts the system. -/
theorem of_mute (h : Silent s) (htts : t.tts = s.tts) (hbegun : s.begun ≤ t.begun)
    (hllm : t.llm = s.llm ∨ t.llm = s.llm.cancel)
    (hbegins : ∀ me k, t.beginsAt me = some k → s.beginsAt me = some k)
    (hcuts : ∀ me c, t.cutAt me = some c → .interruption c ∈ s.trace)
    {es : List Event} (htrace : t.trace = s.trace ++ es) (hminor : ∀ e ∈ es, e.minor = true ∧ e.mute = true)
    (hes : ∀ e ∈ es, ∀ c, e.cut? = some c → .interruption c ∈ s.trace) : Silent t := by
  refine h.congr (by rw [htts]) (by rw [htts]) (by rw [htts]; exact fun _ hd => hd) hbegun ?_ ?_ ?_ hbegins hcuts htrace
    (fun e he => (hminor e he).1) hes ?_ ?_
  · rcases hllm with hllm | hllm <;> simp [hllm]
  · rcases hllm with hllm | hllm <;> simp [hllm]
  · intro g hg
    rcases hllm with hllm | hllm
    · exact hllm ▸ hg
    · rw [hllm] at hg
      exact hg.of_cancel.1
  · intro r frame hmem
    cases (hminor _ hmem).2
  · intro r g text hmem
    cases (hminor _ hmem).2

theorem hushed (h : Silent s) (hs : Hushed s t) : Silent t := by
  obtain ⟨es, htrace, hes⟩ := hs.trace
  have hheld : ∀ e ∈ es, e.minor = true ∧ e.mute = true ∧ e.cut? = none := by
    intro e he
    obtain ⟨utteranceId, rfl⟩ := hes e he
    exact ⟨rfl, rfl, rfl⟩
  refine h.of_mute hs.tts (by rw [hs.begun]) hs.llm (fun _ _ => hs.beginsAt) (fun me c hc => h.known me c (hs.cutAt hc)) htrace
    (fun e he => ⟨(hheld e he).1, (hheld e he).2.1⟩) ?_
  intro e he c hc
  rw [(hheld e he).2.2] at hc
  cases hc

/-- The system is interrupted: the reply at work and the current generation are cancelled. -/
theorem interrupted (h : Silent s) (hnone : ∀ me, s.beginsAt me = none) (hcurrent : t.tts.current = s.tts.current)
    (hcount : t.tts.count = s.tts.count) (hdying : ∀ r, t.tts.Dying r) (hbegun : t.begun = s.begun)
    (hllm : t.llm = s.llm.cancel) (hbegins : ∀ me k, t.beginsAt me = some k → s.beginsAt me = some k)
    (hcuts : ∀ me c, t.cutAt me = some c → .interruption c ∈ s.trace ∨ c = s.cut)
    (htrace : t.trace = s.trace ++ [.interruption s.cut]) : Silent t := by
  have hno : ∀ me, t.beginsAt me = none := by
    intro me
    by_contra hsome
    obtain ⟨k, hk⟩ := Option.ne_none_iff_exists'.mp hsome
    have hk' := hbegins me k hk
    simp [hnone me] at hk'
  have hlive : ∀ g, ¬ t.llm.Live g := by
    intro g hg
    rw [hllm] at hg
    exact hg.of_cancel.2 (h.current g hg.of_cancel.1)
  have hold : ∀ e ∈ t.trace, e ≠ .interruption s.cut → e ∈ s.trace := by
    intro e he hne
    rw [htrace] at he
    exact (List.mem_append.mp he).resolve_right (fun hmem => hne (List.mem_singleton.mp hmem))
  have hpair : ∀ e e' : Event, e' ≠ .interruption s.cut → [e, e'].Sublist t.trace → [e, e'].Sublist s.trace := by
    intro e e' hne hsub
    rw [htrace] at hsub
    exact pair_sublist_left hsub (fun hmem => hne (List.mem_singleton.mp hmem))
  have hknown : ∀ c, .interruption c ∈ s.trace ∨ c = s.cut → .interruption c ∈ t.trace := by
    rintro c (hc | rfl) <;> rw [htrace]
    · exact List.mem_append_left _ hc
    · exact List.mem_append_right _ (List.mem_singleton_self _)
  constructor
  · intro r hr
    exact absurd (hdying r) hr
  · intro me me' k k' hk
    simp [hno me] at hk
  · intro me k hk
    simp [hno me] at hk
  · intro k r hmem
    rw [hbegun, hcount]
    exact h.opened k r (hold _ hmem (by simp))
  · intro r hr
    rw [hcount]
    exact h.below r (hcurrent ▸ hr)
  · intro r frame hmem
    rw [hcount]
    exact h.audio r frame (hold _ hmem (by simp))
  · intro g hg
    exact absurd hg (hlive g)
  · intro me c hc
    exact hknown c (hcuts me c hc)
  · intro e he c hc
    by_cases heq : e = .interruption s.cut
    · subst heq
      cases hc
      exact hknown _ (Or.inr rfl)
    · exact hknown c (Or.inl (h.returned e (hold e he heq) c hc))
  · intro c hc
    refine ⟨?_, ?_, fun _ r _ _ => hdying r, ?_, fun g _ => hlive g⟩
    · rw [hbegun]
      by_cases heq : c = s.cut
      · exact heq ▸ le_rfl
      · exact (h.cut c (hold _ hc (by simpa using heq))).begun
    · rw [hllm, Llm.Consumer.cancel_count]
      by_cases heq : c = s.cut
      · exact heq ▸ le_rfl
      · exact (h.cut c (hold _ hc (by simpa using heq))).generations
    · intro me k hk
      simp [hno me] at hk
  · intro e c r frame k hsub hc hmem
    have hsub' := hpair _ _ (by simp) hsub
    exact h.frames e c r frame k hsub' hc (hold _ hmem (by simp))
  · intro e c r g text hsub hc
    exact h.segments e c r g text (hpair _ _ (by simp) hsub) hc

/-- A call of `tts.begin` waits for the reply at work, which has been cancelled. -/
theorem waits (h : Silent s) (me : Handler) (hcurrent : t.tts.current = s.tts.current) (hcount : t.tts.count = s.tts.count)
    (hdying : ∀ r, t.tts.Dying r) (hbegun : t.begun = s.begun + 1) (hllm : t.llm = s.llm)
    (hbegins : ∀ other k, t.beginsAt other = some k → other = me ∧ k = s.begun)
    (hcuts : ∀ me c, t.cutAt me = some c → s.cutAt me = some c)
    {es : List Event} (htrace : t.trace = s.trace ++ es) (hes : ∀ e ∈ es, e.minor = true ∧ e.mute = true ∧ e.cut? = none) :
    Silent t := by
  have hold : ∀ e ∈ t.trace, e.minor = false ∨ e.mute = false ∨ e.cut? ≠ none → e ∈ s.trace := by
    intro e he hne
    rw [htrace] at he
    rcases List.mem_append.mp he with he | he
    · exact he
    · obtain ⟨h₁, h₂, h₃⟩ := hes e he
      simp [h₁, h₂, h₃] at hne
  have hpair : ∀ e e' : Event, e'.mute = false → [e, e'].Sublist t.trace → [e, e'].Sublist s.trace := by
    intro e e' hmute hsub
    rw [htrace] at hsub
    have hnot : e' ∉ es := fun hmem => by simp [(hes e' hmem).2.1] at hmute
    exact pair_sublist_left hsub hnot
  have hknown : ∀ c, .interruption c ∈ s.trace → .interruption c ∈ t.trace := by
    intro c hc
    rw [htrace]
    exact List.mem_append_left _ hc
  constructor
  · intro r hr
    exact absurd (hdying r) hr
  · intro other other' k k' hk hk'
    rw [(hbegins other k hk).1, (hbegins other' k' hk').1]
  · intro other k hk
    obtain ⟨-, rfl⟩ := hbegins other k hk
    omega
  · intro k r hmem
    obtain ⟨hk, hr⟩ := h.opened k r (hold _ hmem (Or.inl rfl))
    rw [hbegun, hcount]
    exact ⟨by omega, hr⟩
  · intro r hr
    rw [hcount]
    exact h.below r (hcurrent ▸ hr)
  · intro r frame hmem
    rw [hcount]
    exact h.audio r frame (hold _ hmem (Or.inr (Or.inl rfl)))
  · rw [hllm]
    exact h.current
  · intro other c hc
    exact hknown c (h.known other c (hcuts other c hc))
  · intro e he c hc
    exact hknown c (h.returned e (hold e he (Or.inr (Or.inr (by simp [hc])))) c hc)
  · intro c hc
    have hs := h.cut c (hold _ hc (Or.inl rfl))
    refine ⟨by have := hs.begun; omega, hllm ▸ hs.generations, fun _ r _ _ => hdying r, ?_, by rw [hllm]; exact hs.live⟩
    intro other k hk
    obtain ⟨-, rfl⟩ := hbegins other k hk
    exact hs.begun
  · intro e c r frame k hsub hc hmem
    exact h.frames e c r frame k (hpair _ _ rfl hsub) hc (hold _ hmem (Or.inl rfl))
  · intro e c r g text hsub hc
    exact h.segments e c r g text (hpair _ _ rfl hsub) hc

/-- The call `k` of `tts.begin` may open its reply: nothing is at work, and no interruption came after it. -/
structure MayOpen (s : Session) (k : Nat) : Prop where
  dying : ∀ r, s.tts.Dying r
  next : k < s.begun
  cuts : ∀ c, .interruption c ∈ s.trace → c.begun ≤ k

/-- A reply is opened, alone or with a generation. -/
theorem opens (h : Silent s) {k : Nat} (hopen : MayOpen s k) (hcurrent : t.tts.current = some s.tts.count)
    (hcount : t.tts.count = s.tts.count + 1)
    (htask : t.tts.task = Function.update s.tts.task s.tts.count (.await .created)) (hbegun : t.begun = s.begun)
    (hgenerations : s.llm.count ≤ t.llm.count) (hlive : ∀ g, t.llm.Live g → t.llm.current = some g)
    (hlive' : ∀ g, t.llm.Live g → s.llm.Live g ∨ g = s.llm.count)
    (hbegins : ∀ me, t.beginsAt me = none) (hcuts : ∀ me c, t.cutAt me = some c → s.cutAt me = some c)
    {es : List Event} (htrace : t.trace = s.trace ++ .opened k s.tts.count :: es)
    (hes : ∀ e ∈ es, e.minor = true ∧ e.mute = true ∧ e.cut? = none) : Silent t := by
  have hold : ∀ e ∈ t.trace, (e.minor = false ∧ ∀ r, e ≠ .opened k r) ∨ e.mute = false ∨ e.cut? ≠ none →
      e ∈ s.trace := by
    intro e he hne
    rw [htrace] at he
    rcases List.mem_append.mp he with he | he
    · exact he
    · rcases List.mem_cons.mp he with rfl | he
      · rcases hne with ⟨-, hne⟩ | hne | hne
        · exact absurd rfl (hne _)
        · cases hne
        · exact absurd rfl hne
      · obtain ⟨h₁, h₂, h₃⟩ := hes e he
        simp [h₁, h₂, h₃] at hne
  have hopened : ∀ k' r, .opened k' r ∈ t.trace → .opened k' r ∈ s.trace ∨ k' = k ∧ r = s.tts.count := by
    intro k' r hmem
    rw [htrace] at hmem
    rcases List.mem_append.mp hmem with hmem | hmem
    · exact Or.inl hmem
    · rcases List.mem_cons.mp hmem with heq | hmem
      · cases heq
        exact Or.inr ⟨rfl, rfl⟩
      · cases (hes _ hmem).1
  have hpair : ∀ e e' : Event, e'.mute = false → [e, e'].Sublist t.trace → [e, e'].Sublist s.trace := by
    intro e e' hmute hsub
    rw [htrace] at hsub
    have hnot : e' ∉ Event.opened k s.tts.count :: es := by
      intro hmem
      rcases List.mem_cons.mp hmem with rfl | hmem
      · cases hmute
      · simp [(hes e' hmem).2.1] at hmute
    exact pair_sublist_left hsub hnot
  have hknown : ∀ c, .interruption c ∈ s.trace → .interruption c ∈ t.trace := by
    intro c hc
    rw [htrace]
    exact List.mem_append_left _ hc
  have hdying : ∀ r, r ≠ s.tts.count → t.tts.Dying r := by
    intro r hr pc cancelling hpc
    rw [htask, Function.update_of_ne hr] at hpc
    exact hopen.dying r pc cancelling hpc
  constructor
  · intro r hr
    have heq : r = s.tts.count := by
      by_contra hne
      exact hr (hdying r hne)
    exact ⟨heq ▸ hcurrent, hbegins⟩
  · intro other other' k' k'' hk'
    simp [hbegins other] at hk'
  · intro other k' hk'
    simp [hbegins other] at hk'
  · intro k' r hmem
    rw [hbegun, hcount]
    rcases hopened k' r hmem with hmem | ⟨rfl, rfl⟩
    · obtain ⟨hk', hr⟩ := h.opened k' r hmem
      exact ⟨hk', by omega⟩
    · exact ⟨hopen.next, by omega⟩
  · intro r hr
    rw [hcurrent, Option.some.injEq] at hr
    omega
  · intro r frame hmem
    have := h.audio r frame (hold _ hmem (Or.inr (Or.inl rfl)))
    omega
  · exact hlive
  · intro other c hc
    exact hknown c (h.known other c (hcuts other c hc))
  · intro e he c hc
    exact hknown c (h.returned e (hold e he (Or.inr (Or.inr (by simp [hc])))) c hc)
  · intro c hc
    have hc' := hold _ hc (Or.inl ⟨rfl, by simp⟩)
    have hs := h.cut c hc'
    refine ⟨hbegun ▸ hs.begun, le_trans hs.generations hgenerations, ?_, ?_, ?_⟩
    · intro k' r hmem hk'
      rcases hopened k' r hmem with hmem | ⟨rfl, -⟩
      · exact hdying r (by have := (h.opened k' r hmem).2; omega)
      · have := hopen.cuts c hc'
        omega
    · intro other k' hk'
      simp [hbegins other] at hk'
    · intro g hg hl
      rcases hlive' g hl with hl | rfl
      · exact hs.live g hg hl
      · have := hs.generations
        omega
  · intro e c r frame k' hsub hc hmem
    have hsub' := hpair _ _ rfl hsub
    rcases hopened k' r hmem with hmem | ⟨-, rfl⟩
    · exact h.frames e c r frame k' hsub' hc hmem
    · have := h.audio s.tts.count frame (hsub'.subset (by simp))
      omega
  · intro e c r g text hsub hc
    exact h.segments e c r g text (hpair _ _ rfl hsub) hc

/-! ## The steps of the calls -/

theorem dying_all (h : Silent s) (hactive : s.tts.active = none) (r : Nat) : s.tts.Dying r :=
  Tts.Consumer.dying_of_active (fun hn => (h.sounding r hn).1) hactive

theorem dying_cancel (h : Silent s) {r : Nat} (hactive : s.tts.active = some r) (r' : Nat) :
    (s.tts.cancel r).Dying r' := by
  by_cases heq : r' = r
  · exact heq ▸ Tts.Consumer.dying_cancel s.tts r'
  · refine Tts.Consumer.Dying.cancel ?_ r
    by_contra hn
    have hcurrent := (h.sounding r' hn).1
    rw [(Tts.Consumer.active_eq_some.mp hactive).1, Option.some.injEq] at hcurrent
    exact heq hcurrent.symm

/-- The call that waits in `tts.begin` opens its reply. -/
theorem mayOpen (h : Silent s) {k : Nat} (hk : s.beginsAt me = some k) : MayOpen s k where
  dying := by
    intro r
    by_contra hn
    simp [(h.sounding r hn).2 me] at hk
  next := h.pending me k hk
  cuts := fun c hc => (h.cut c hc).pending me k hk

/-- A call that waits for nothing calls `tts.begin`: nothing is at work, and it opens its reply at once. -/
theorem mayOpen_idle (h : Silent s) (hactive : s.tts.active = none) {es : List Event} (htts : t.tts = s.tts)
    (hbegun : t.begun = s.begun + 1) (htrace : t.trace = s.trace ++ es) (hes : ∀ e ∈ es, e.minor = true) :
    MayOpen t s.begun where
  dying := by
    rw [htts]
    exact h.dying_all hactive
  next := by omega
  cuts := by
    intro c hc
    rw [htrace] at hc
    rcases List.mem_append.mp hc with hc | hc
    · exact (h.cut c hc).begun
    · cases hes _ hc

theorem replyBegun (h : Silent s) {turn : UserTurnCompleted} {history : List Llm.Entry} {ticket : Nat}
    (hopen : MayOpen s ticket) (hnone : ∀ other, (s.replyBegun me turn history ticket).beginsAt other = none) :
    Silent (s.replyBegun me turn history ticket) := by
  have hnew : ∀ g, (s.replyBegun me turn history ticket).llm.Live g → g = s.llm.count := by
    intro g hg
    exact Llm.Consumer.Live.of_startGeneration h.current hg
  have htrace : (s.replyBegun me turn history ticket).trace = s.trace ++ .opened ticket s.tts.count ::
      [.generation s.llm.count s.tts.count (Text.strip turn.transcript) history s.state.isUserSpeaking] := by
    simp [Session.replyBegun]
  refine h.opens hopen rfl rfl rfl rfl (Nat.le_succ _) ?_ (fun g hg => Or.inr (hnew g hg)) hnone ?_ htrace ?_
  · intro g hg
    rw [hnew g hg]
    rfl
  · intro other c hc
    rw [cutAt_update (s := s) rfl] at hc
    split at hc
    · cases hc
    · exact hc
  · simp [Event.minor, Event.mute, Event.cut?]

theorem speechOpened (h : Silent s) {ticket : Nat} (ho : SpeechOpened me ticket s t) (hopen : MayOpen s ticket)
    (hnone : ∀ other, t.beginsAt other = none) : Silent t := by
  obtain ⟨es, htrace, hes⟩ := ho.trace
  refine h.opens hopen ho.current ho.count ho.task ho.begun (by rw [ho.llm]) (by rw [ho.llm]; exact h.current)
    (by rw [ho.llm]; exact fun g hg => Or.inl hg) hnone ?_ htrace ?_
  · intro other c hc
    rw [cutAt_update ho.handler] at hc
    split at hc
    · cases hc
    · exact hc
  · intro e he
    obtain ⟨r, item, rfl⟩ := hes e he
    cases item <;> exact ⟨rfl, rfl, rfl⟩

theorem reply (h : Silent s) (hnone : ∀ other, s.beginsAt other = none) (turn : UserTurnCompleted) :
    Silent (s.reply cfg me turn) := by
  have htrace : (s.replyBegins cfg turn).trace =
      s.trace ++ [.reply turn s.state.isUserSpeaking, .begin s.begun s.state.isUserSpeaking] := by simp
  unfold Session.reply Session.ttsStop
  simp only
  split
  · rename_i hactive
    have hbegins : Silent (s.replyBegins cfg turn) := by
      refine h.of_mute rfl (Nat.le_succ _) (Or.inl rfl) (fun _ _ hk => hk) h.known htrace ?_ ?_
      · simp [Event.minor, Event.mute]
      · simp [Event.cut?]
    refine hbegins.replyBegun (h.mayOpen_idle hactive rfl rfl htrace (by simp [Event.minor])) ?_
    intro other
    rw [beginsAt_update (s := s) rfl]
    split
    · rfl
    · exact hnone other
  · rename_i r hactive
    refine h.waits me rfl rfl (h.dying_cancel hactive) rfl rfl ?_ ?_ htrace ?_
    · intro other k hk
      rw [beginsAt_update (s := s) rfl] at hk
      split at hk
      · rename_i heq
        exact ⟨heq, (Option.some.inj hk).symm⟩
      · simp [hnone other] at hk
    · intro other c hc
      rw [cutAt_update (s := s) rfl] at hc
      split at hc
      · cases hc
      · exact hc
    · simp [Event.minor, Event.mute, Event.cut?]

theorem answers (h : Silent s) {calls : Prop} (hnone : calls → ∀ other, s.beginsAt other = none)
    (ha : Answers cfg me calls s t) : Silent t := by
  cases ha with
  | hushed hs => exact h.hushed hs
  | replies hcalls hs _ turn =>
      refine (h.hushed hs).reply (fun other => ?_) turn
      by_contra hsome
      obtain ⟨k, hk⟩ := Option.ne_none_iff_exists'.mp hsome
      have hk' := hs.beginsAt hk
      simp [hnone hcalls other] at hk'

end Silent

/-! ## The steps in question -/

/-- A call of `tts.begin` waits for the reply before it to end. -/
def Session.beginWaits (s : Session) : Bool := s.callers.any fun h => (s.handler h).pc?.any fun pc => pc.ticket?.isSome

/-- The step calls `tts.begin`. -/
def Session.callsBegin (cfg : Config) (s : Session) (l : Label) : Bool := s.callsReply cfg l || l.usesSpeakText

/-- Neither is the system interrupted nor a reply begun while a call of `tts.begin` waits. -/
def BeginUndisturbed (cfg : Config) (s : Session) (l : Label) : Bool :=
  !(s.beginWaits && (s.interrupts l || s.callsBegin cfg l))

theorem Typed.beginsAt_eq_none (h : Typed s) (hw : s.beginWaits = false) (me : Handler) : s.beginsAt me = none := by
  by_contra hsome
  obtain ⟨k, hk⟩ := Option.ne_none_iff_exists'.mp hsome
  obtain ⟨pc, hpc, hticket⟩ := Option.bind_eq_some_iff.mp hk
  have hnot := List.any_eq_false.mp hw me (h.mem_callers hpc)
  simp [hpc, hticket] at hnot

theorem Typed.noBegin (h : Typed s) {l : Label} (hok : BeginUndisturbed cfg s l = true)
    (hl : s.interrupts l = true ∨ s.callsReply cfg l = true ∨ l.usesSpeakText = true) (me : Handler) :
    s.beginsAt me = none := by
  refine h.beginsAt_eq_none ?_ me
  rcases hl with hl | hl | hl <;> simpa [BeginUndisturbed, Session.callsBegin, hl] using hok

namespace Silent

/-- A call goes on, and neither begins a reply nor interrupts the system. -/
theorem goesOn (h : Silent s) {pc : Coroutine Pc} (hhandler : t.handler = Function.update s.handler me pc)
    (htts : t.tts = s.tts) (hbegun : t.begun = s.begun) (hllm : t.llm = s.llm)
    (hticket : ∀ k, pc.pc?.bind Pc.ticket? = some k → s.beginsAt me = some k)
    (hcut : ∀ c, pc.pc?.bind Pc.cut? = some c → .interruption c ∈ s.trace) {es : List Event}
    (htrace : t.trace = s.trace ++ es) (hes : ∀ e ∈ es, e.minor = true ∧ e.mute = true)
    (hknown : ∀ e ∈ es, ∀ c, e.cut? = some c → .interruption c ∈ s.trace) : Silent t := by
  refine h.of_mute htts (by rw [hbegun]) (Or.inl hllm) ?_ ?_ htrace hes hknown
  · intro other k hk
    rw [beginsAt_update hhandler] at hk
    split at hk
    · rename_i heq
      exact heq ▸ hticket k hk
    · exact hk
  · intro other c hc
    rw [cutAt_update hhandler] at hc
    split at hc
    · exact hcut c hc
    · exact h.known other c hc

theorem leave (h : Silent s) (me : Handler) : Silent (s.leave me) := by
  have hhandler : (s.leave me).handler = Function.update s.handler me .done := rfl
  refine h.goesOn hhandler rfl rfl rfl ?_ ?_ (List.append_nil _).symm (by simp) (by simp)
  · intro k hk
    cases hk
  · intro c hc
    cases hc

theorem noBegin_leave (h : Silent s) {k : Nat} (hk : s.beginsAt me = some k) {pc : Coroutine Pc}
    (hhandler : t.handler = Function.update s.handler me pc) (hpc : pc.pc?.bind Pc.ticket? = none) (other : Handler) :
    t.beginsAt other = none := by
  rw [beginsAt_update hhandler]
  split
  · exact hpc
  · rename_i hne
    by_contra hsome
    obtain ⟨k', hk'⟩ := Option.ne_none_iff_exists'.mp hsome
    exact hne (h.oneBegin other me k' k hk' hk)

theorem called (h : Silent s) (ht : Typed s) {l : Label} (hok : BeginUndisturbed cfg s l = true)
    (hc : Called cfg s l t) : Silent t := by
  have hreply : s.callsReply cfg l = true → ∀ me, s.beginsAt me = none := fun hl => ht.noBegin hok (Or.inr (Or.inl hl))
  have hat : ∀ {me pc cancelling}, s.handler me = .suspended pc cancelling →
      s.beginsAt me = pc.ticket? ∧ s.cutAt me = pc.cut? := by
    intro me pc cancelling hpc
    simp [Session.beginsAt, Session.cutAt, hpc]
  cases hc with
  | answers _ ha => exact h.answers hreply ha
  | @interruptReturns me vad state _ hinterrupts hidle _ hactive ha =>
      have hnone := ht.noBegin hok (Or.inl hinterrupts)
      have hcut : Silent ({ s with vad }.interrupted state) :=
        h.interrupted hnone rfl rfl (h.dying_all hactive) rfl rfl (fun _ _ hk => hk)
          (fun me c hc => Or.inl (h.known me c hc)) (trace_interrupted vad state)
      have hreturned : Silent (({ s with vad }.interrupted state).emit (.interruptionReturned s.cut)) := by
        refine hcut.of_mute rfl le_rfl (Or.inl rfl) (fun _ _ hk => hk) hcut.known rfl ?_ ?_
        · simp [Event.minor, Event.mute]
        · intro e he c hc
          rw [List.mem_singleton.mp he, Event.cut?, Option.some.injEq] at hc
          rw [trace_interrupted, hc]
          exact List.mem_append_right _ (List.mem_singleton_self _)
      exact hreturned.answers (fun _ => hnone) ha
  | @interruptStops me vad state k r hinterrupts hidle _ hactive =>
      have hnone := ht.noBegin hok (Or.inl hinterrupts)
      refine h.interrupted hnone rfl rfl (h.dying_cancel hactive) rfl rfl ?_ ?_ (trace_interrupted vad state)
      · intro other k' hk'
        rw [beginsAt_update (s := s) rfl] at hk'
        split at hk'
        · cases hk'
        · exact hk'
      · intro other c hc
        rw [cutAt_update (s := s) rfl] at hc
        split at hc
        · exact Or.inr (Option.some.inj hc).symm
        · exact Or.inl (h.known other c hc)
  | @clears me r k cancelling hpc _ =>
      have hhandler : (((s.leave me).emit (.tts r (.json (.ttsClear (StopFor.reason k))))).park me (.clearing k)).handler =
          Function.update s.handler me (.await (.clearing k)) := Function.update_idem _ _ _
      refine h.goesOn hhandler rfl rfl rfl ?_ ?_ rfl ?_ ?_
      · intro k' hk'
        rw [(hat hpc).1]
        exact hk'
      · intro c hc
        refine h.known me c ?_
        rw [(hat hpc).2]
        cases k <;> exact hc
      · simp [Event.minor, Event.mute]
      · simp [Event.cut?]
  | @bargesIn me pc k cut cancelling hpc hreturns =>
      have hhandler : (((s.leave me).emit .bargeIn).park me (.bargeIn k cut)).handler =
          Function.update s.handler me (.await (.bargeIn k cut)) := Function.update_idem _ _ _
      refine h.goesOn hhandler rfl rfl rfl ?_ ?_ rfl ?_ ?_
      · intro k' hk'
        cases hk'
      · intro c hc
        refine h.known me c ?_
        rw [(hat hpc).2]
        cases hreturns <;> exact hc
      · simp [Event.minor, Event.mute]
      · simp [Event.cut?]
  | @returns me k cut cancelling _ hpc ha =>
      have hreturned : Silent ((s.leave me).emit (.interruptionReturned cut)) := by
        refine (h.leave me).of_mute rfl le_rfl (Or.inl rfl) (fun _ _ hk => hk) (h.leave me).known rfl ?_ ?_
        · simp [Event.minor, Event.mute]
        · intro e he c hc
          rw [List.mem_singleton.mp he, Event.cut?, Option.some.injEq] at hc
          exact hc ▸ h.known me cut (by rw [(hat hpc).2]; rfl)
      refine hreturned.answers (fun hl other => ?_) ha
      rw [beginsAt_update (s := s) (t := (s.leave me).emit (.interruptionReturned cut)) rfl]
      split
      · rfl
      · exact hreply hl other
  | @begins me pc turn history ticket cancelling _ hpc hreturns =>
      have hk : s.beginsAt me = some ticket := by
        rw [(hat hpc).1, Pc.ticket?, hreturns.stop?]
        rfl
      have hopen : MayOpen (s.leave me) ticket := ⟨(h.mayOpen hk).dying, (h.mayOpen hk).next, (h.mayOpen hk).cuts⟩
      have hhandler : ((s.leave me).replyBegun me turn history ticket).handler = Function.update s.handler me .done :=
        Function.update_idem _ _ _
      exact (h.leave me).replyBegun hopen (h.noBegin_leave hk hhandler rfl)
  | @speakBegins me pc text utteranceId ticket cancelling _ hpc hreturns =>
      have hk : s.beginsAt me = some ticket := by
        rw [(hat hpc).1, Pc.ticket?, hreturns.stop?]
        rfl
      have hopen : MayOpen (s.leave me) ticket := ⟨(h.mayOpen hk).dying, (h.mayOpen hk).next, (h.mayOpen hk).cuts⟩
      have hopened := speakTextBegun_opened me text utteranceId ticket (s.leave me)
      have hhandler : ((s.leave me).speakTextBegun me text utteranceId ticket).handler = Function.update s.handler me .done :=
        Function.update_idem _ _ _
      exact (h.leave me).speechOpened hopened hopen (h.noBegin_leave hk hhandler rfl)
  | @closes me pc cancelling hpc hreturns =>
      have hclosed : Silent { s.leave me with closed := true } :=
        (h.leave me).of_mute rfl le_rfl (Or.inl rfl) (fun _ _ hk => hk) (h.leave me).known (List.append_nil _).symm
          (by simp) (by simp)
      exact hclosed.leave me
  | @speakText text utteranceId hl hidle hopen =>
      have hnone := ht.noBegin hok (Or.inr (Or.inr (by rw [hl]; rfl)))
      unfold Session.speakText
      simp only
      have hbegins : Silent ({ s with timing := none, state := s.state.startSystemTurn, begun := s.begun + 1 }.emit
          (.begin s.begun s.state.startSystemTurn.isUserSpeaking)) :=
        h.of_mute rfl (Nat.le_succ _) (Or.inl rfl) (fun _ _ hk => hk) h.known rfl (by simp [Event.minor, Event.mute])
          (by simp [Event.cut?])
      unfold Session.ttsStop
      split
      · rename_i hactive
        have hmay : MayOpen ({ s with timing := none, state := s.state.startSystemTurn, begun := s.begun + 1 }.emit
            (.begin s.begun s.state.startSystemTurn.isUserSpeaking)) s.begun :=
          h.mayOpen_idle hactive rfl rfl rfl (by simp [Event.minor])
        refine hbegins.speechOpened (speakTextBegun_opened .endpoint text utteranceId s.begun _) hmay (fun other => ?_)
        rw [beginsAt_update (s := s) rfl]
        split
        · rfl
        · exact hnone other
      · rename_i r hactive
        refine h.waits .endpoint rfl rfl (h.dying_cancel hactive) rfl rfl ?_ ?_ rfl ?_
        · intro other k hk
          rw [beginsAt_update (s := s) rfl] at hk
          split at hk
          · rename_i heq
            exact ⟨heq, (Option.some.inj hk).symm⟩
          · simp [hnone other] at hk
        · intro other c hc
          rw [cutAt_update (s := s) rfl] at hc
          split at hc
          · cases hc
          · exact hc
        · simp [Event.minor, Event.mute, Event.cut?]
  | @closesSpeech u hl hs hidle =>
      have hu : Silent u := h.hushed hs
      unfold Session.closeTts Session.ttsStop
      split
      · have hclosed : Silent { u with closed := true } :=
          hu.of_mute rfl le_rfl (Or.inl rfl) (fun _ _ hk => hk) hu.known (List.append_nil _).symm (by simp) (by simp)
        exact hclosed.leave .endpoint
      · rename_i r hactive
        refine hu.congr rfl rfl (fun r' _ => hu.dying_cancel hactive r') le_rfl rfl rfl (fun _ hg => hg) ?_ ?_
          (List.append_nil _).symm (by simp) (by simp) (by simp) (by simp)
        · intro other k hk
          rw [beginsAt_update (s := u) rfl] at hk
          split at hk
          · cases hk
          · exact hk
        · intro other c hc
          rw [cutAt_update (s := u) rfl] at hc
          split at hc
          · cases hc
          · exact hu.known other c hc

theorem generation (h : Silent s) (hhandler : t.handler = s.handler) (hbegun : t.begun = s.begun) {g : Nat}
    {pc : Llm.Pc Unit} {cancelling : Bool} {items : List (Option Text)} {next : Coroutine (Llm.Pc Unit)}
    (hg : GenerationStep g pc cancelling items next s t) : Silent t := by
  obtain ⟨es, htrace, hes⟩ := hg.puts.trace
  have hlive : ∀ g', t.llm.Live g' → s.llm.Live g' := by
    rintro g' ⟨pc', hpc', hl⟩
    rw [hg.task] at hpc'
    by_cases heq : g' = g
    · subst heq
      rw [Function.update_self] at hpc'
      obtain ⟨hl', rfl⟩ := hg.live pc' hpc' hl
      exact ⟨pc, hg.at_pc, hl'⟩
    · exact ⟨pc', by rwa [Function.update_of_ne heq] at hpc', hl⟩
  refine h.congr hg.puts.current hg.puts.count ?_ (by rw [hbegun]) hg.current hg.count hlive ?_ ?_ htrace ?_ ?_ ?_ ?_
  · intro r hd pc' c hpc'
    rw [hg.puts.task] at hpc'
    exact hd pc' c hpc'
  · intro me k hk
    unfold Session.beginsAt at hk ⊢
    rwa [hhandler] at hk
  · intro me c hc
    refine h.known me c ?_
    unfold Session.cutAt at hc ⊢
    rwa [hhandler] at hc
  · intro e he
    rcases hes e he with ⟨r, item, rfl, -⟩ | ⟨m, rfl⟩ <;> rfl
  · intro e he c hc
    rcases hes e he with ⟨r, item, rfl, -⟩ | ⟨m, rfl⟩ <;> cases hc
  · intro r frame hmem
    rcases hes _ hmem with ⟨r', item, heq, -⟩ | ⟨m, heq⟩ <;> cases heq
  · intro r g' text hmem
    rcases hes _ hmem with ⟨r', item, heq, hitem, -⟩ | ⟨m, heq⟩
    · cases heq
      obtain ⟨hl, rfl⟩ := hg.segment text hitem
      exact ⟨pc, hg.at_pc, hl⟩
    · cases heq

theorem spoken (h : Silent s) (hhandler : t.handler = s.handler) (hbegun : t.begun = s.begun) {r : Nat}
    {pc : Tts.Pc Unit} {cancelling : Bool} {w : Wake Tts.Item} {next : Coroutine (Tts.Pc Unit)}
    (hr : ReplyStep r pc cancelling w next s t) : Silent t := by
  obtain ⟨es, htrace, hes⟩ := hr.trace
  rw [List.append_assoc] at htrace
  have hcalm := Tts.Consumer.cancelling_of_enabled hr.enabled
  have hkind : ∀ e ∈ (((s.tts.reply r).resume pc w).1.calls ((s.tts.reply r).resume pc w).2).map (Event.tts r) ++ es,
      e.minor = true ∧ e.cut? = none ∧ ∀ r' g text, e ≠ .queued r' (some g) (some text) := by
    intro e he
    rcases List.mem_append.mp he with he | he
    · obtain ⟨call, -, rfl⟩ := List.mem_map.mp he
      exact ⟨rfl, rfl, by simp⟩
    · obtain ⟨timing, rfl⟩ := hes e he
      exact ⟨rfl, rfl, by simp⟩
  refine h.congr hr.current hr.count ?_ (by rw [hbegun]) (by rw [hr.llm]) (by rw [hr.llm]) (by rw [hr.llm]; exact fun _ hg => hg)
    ?_ ?_ htrace (fun e he => (hkind e he).1) ?_ ?_ ?_
  · intro r' hd pc' c hpc'
    rw [hr.task] at hpc'
    by_cases heq : r' = r
    · subst heq
      rw [Function.update_self] at hpc'
      have hending := hr.ending
      have hclean : ∀ pc'', ((s.tts.reply r').resume pc w).2 = some pc'' → pc''.cleanup = true := by
        intro pc'' hnext
        refine Tts.Reply.resume_cleanup _ ?_ hnext
        rcases hd pc cancelling hr.at_pc with hc | hc
        · exact Or.inr (hcalm.mpr hc)
        · exact Or.inl hc
      generalize ((s.tts.reply r').resume pc w).2 = pc'', t.state = state at hending hclean
      cases hending with
      | awaits pc'' =>
          simp only [Coroutine.await, Coroutine.suspended.injEq] at hpc'
          exact Or.inr (hpc'.1 ▸ hclean pc'' rfl)
      | _ => cases hpc'
    · rw [Function.update_of_ne heq] at hpc'
      exact hd pc' c hpc'
  · intro me k hk
    unfold Session.beginsAt at hk ⊢
    rwa [hhandler] at hk
  · intro me c hc
    refine h.known me c ?_
    unfold Session.cutAt at hc ⊢
    rwa [hhandler] at hc
  · intro e he c hc
    rw [(hkind e he).2.1] at hc
    cases hc
  · intro r' frame hmem
    rcases List.mem_append.mp hmem with hmem | hmem
    · obtain ⟨call, hcall, heq⟩ := List.mem_map.mp hmem
      cases heq
      obtain ⟨inner, hnext⟩ := Tts.Reply.audio_of_calls hcall
      obtain ⟨hcleanup, item, rfl⟩ := Tts.Reply.resume_sendBytes _ hnext
      have hno : ¬ s.tts.Dying r := by
        intro hd
        rcases hd pc cancelling hr.at_pc with hc | hc
        · exact absurd (hcalm.mpr hc) (by simp)
        · rw [hcleanup] at hc
          cases hc
      exact ⟨h.below r (h.sounding r hno).1, hno⟩
    · obtain ⟨timing, heq⟩ := hes _ hmem
      cases heq
  · intro r' g text hmem
    exact absurd rfl ((hkind _ hmem).2.2 r' g text)

/-- **A step that leaves the calls of `tts.begin` undisturbed keeps the silence.** -/
theorem step (h : Silent s) (ht : Typed s) {l : Label} (hok : BeginUndisturbed cfg s l = true)
    (hstep : step cfg s l = some t) : Silent t := by
  cases Stepped.of_step ht hstep with
  | called hc => exact h.called ht hok hc
  | generation hgen =>
      obtain ⟨pc, cancelling, items, next, hg⟩ := GenerationStep.of_resume hgen
      have haside := resumeGeneration_aside hgen
      exact h.generation haside.handler haside.begun hg
  | reply hreply =>
      obtain ⟨pc, cancelling, next, hr⟩ := ReplyStep.of_resume hreply
      have haside := resumeReply_aside hreply
      exact h.spoken haside.handler haside.begun hr

end Silent

end Voxera.Voice
