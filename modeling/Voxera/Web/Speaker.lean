import Voxera.Web.Feed
import Mathlib.Algebra.Order.Field.Rat
import Mathlib.Data.List.Nodup
import Mathlib.Tactic.Linarith
import Mathlib.Tactic.NormNum

/-!
# What holds of the player's audio in every run

* `InTime` : the sources follow one another, and none starts in the past;
* `Audible` : `sources` are the nodes that still play, and the state says whether there is one;
* `Reporting` : the one timer that can run is the one that `clear()` cancels;
* `Traced` : everything that is queued, plays or waits to be reported was pushed since the last `clear()`;
* `Sound` : all of these, with the chunks that are still to be scheduled (`Sound.act`, `sound_of_run`).
-/

namespace Voxera.Web

open EventLoop Since

/-- The chunk that an event is about. -/
def Event.about : Event → Option Chunk
  | .scheduled source => some source.chunk
  | .firstAudio chunk _ => some chunk
  | _ => none

/-- All the chunks pushed. -/
def pushesOf (trace : List Event) : List Chunk := trace.filterMap Event.pushed?

/-- No event after a `clear()` is about a chunk from before it. -/
def Fresh (trace : List Event) : Prop :=
  ∀ front back, trace = front ++ .cleared :: back → ∀ e ∈ back, ∀ c ∈ e.about, c ∉ pushesOf front

theorem Source.Made.mono {s : Source} {pushed more : List Chunk} (h : s.Made pushed) (hmore : ∀ c ∈ pushed, c ∈ more) :
    s.Made more := by
  obtain ⟨hchunk, half, hhalf, hbuffer⟩ := h
  refine ⟨hmore _ hchunk, half, ?_, hbuffer⟩
  intro b hb
  obtain ⟨c, hc, hmem⟩ := hhalf b hb
  exact ⟨c, hmore c hc, hmem⟩

namespace Speaker

structure InTime (sp : Speaker) : Prop where
  apart : sp.scheduled.Pairwise (fun a b => a.finish ≤ b.start)
  inTime : ∀ s ∈ sp.scheduled, s.now ≤ s.start
  finish : ∀ s ∈ sp.scheduled, s.finish ≤ sp.nextStartTime

/-- The ids of the nodes that have not been stopped. -/
def outstanding (nodes : List Node) : List ℕ := (nodes.filter (fun node => !node.stopped)).map Node.id

structure Audible (sp : Speaker) : Prop where
  sources : sp.sources = outstanding sp.nodes
  nodup : (sp.nodes.map Node.id).Nodup
  made : ∀ node ∈ sp.nodes, node.id < sp.nodesMade
  onended : ∀ node ∈ sp.nodes, node.onended = !node.stopped
  playing : sp.state = .playing ↔ sp.sources ≠ []

structure Reporting (sp : Speaker) : Prop where
  timers : sp.timers.map Timer.id = sp.firstAudioTimer.toList
  awaiting : sp.awaitingFirstAudio = true → sp.firstAudioTimer = none

structure Traced (sp : Speaker) (owed : List Chunk) : Prop where
  nodup : (pushesOf sp.trace).Nodup
  numbers : ∀ c ∈ pushesOf sp.trace, c.number < sp.pushes
  fresh : Fresh sp.trace
  owed : ∀ c ∈ owed, c ∈ sp.pushed
  carry : ∀ b ∈ sp.carry, ∃ c ∈ sp.pushed, b ∈ c.bytes
  made : ∀ s ∈ sp.scheduled, s.Made sp.pushed
  nodes : ∀ node ∈ sp.nodes, node.stopped = false → node.source.chunk ∈ sp.pushed
  timers : ∀ timer ∈ sp.timers, timer.chunk ∈ sp.pushed

/-- `owed` are the chunks that have been pushed and are still to be scheduled. -/
structure Sound (sp : Speaker) (owed : List Chunk) : Prop where
  inTime : sp.InTime
  audible : sp.Audible
  reporting : sp.Reporting
  traced : sp.Traced owed

variable {sp t : Speaker} {a : Act} {acts : List Act} {owed : List Chunk} {e : Event} {c : Chunk}

/-! ## What the parts depend on -/

theorem InTime.congr (h : sp.InTime) (htrace : t.trace = sp.trace) (hnext : t.nextStartTime = sp.nextStartTime) : t.InTime := by
  have hscheduled : t.scheduled = sp.scheduled := by rw [scheduled, scheduled, htrace]
  refine ⟨hscheduled ▸ h.apart, hscheduled ▸ h.inTime, ?_⟩
  rw [hscheduled, hnext]
  exact h.finish

theorem Audible.congr (h : sp.Audible) (hsources : t.sources = sp.sources) (hnodes : t.nodes = sp.nodes)
    (hmade : t.nodesMade = sp.nodesMade) (hstate : t.state = sp.state) : t.Audible := by
  refine ⟨?_, hnodes ▸ h.nodup, ?_, hnodes ▸ h.onended, ?_⟩
  · rw [hsources, hnodes]
    exact h.sources
  · rw [hnodes, hmade]
    exact h.made
  · rw [hstate, hsources]
    exact h.playing

theorem Reporting.congr (h : sp.Reporting) (htimers : t.timers = sp.timers) (htimer : t.firstAudioTimer = sp.firstAudioTimer)
    (hawaiting : t.awaitingFirstAudio = sp.awaitingFirstAudio) : t.Reporting := by
  refine ⟨?_, ?_⟩
  · rw [htimers, htimer]
    exact h.timers
  · rw [hawaiting, htimer]
    exact h.awaiting

/-! ## The record -/

theorem pushesOf_emit : pushesOf (sp.emit e).trace = pushesOf sp.trace ++ e.pushed?.toList := by
  unfold pushesOf
  rw [emit_trace, List.filterMap_append]
  cases e <;> rfl

/-- What has been pushed since the last `clear()` was not pushed before any. -/
theorem not_mem_front (h : (pushesOf sp.trace).Nodup) {front back : List Event} (htrace : sp.trace = front ++ .cleared :: back)
    (hc : c ∈ sp.pushed) : c ∉ pushesOf front := by
  intro hfront
  have hsuffix := since_suffix_of_mark (p := Event.isCleared) (a := .cleared) rfl front back
  rw [← htrace] at hsuffix
  have hback : c ∈ pushesOf back := (hsuffix.sublist.filterMap _).subset hc
  rw [htrace, pushesOf, List.filterMap_append, List.filterMap_cons_none rfl] at h
  exact (List.nodup_append.mp h).2.2 c hfront c hback rfl

/-- Only what has been pushed since the last `clear()` is spoken of. -/
theorem fresh_emit (h : Fresh sp.trace) (hnodup : (pushesOf sp.trace).Nodup) (habout : ∀ c ∈ e.about, c ∈ sp.pushed) :
    Fresh (sp.emit e).trace := by
  intro front back heq e' he' c hc hpast
  rcases List.eq_nil_or_concat back with rfl | ⟨back', last, rfl⟩
  · cases he'
  · rw [List.concat_eq_append, ← List.cons_append, ← List.append_assoc] at heq
    obtain ⟨htrace, hlast⟩ := List.append_inj' heq rfl
    rw [List.concat_eq_append, List.mem_append, List.mem_singleton] at he'
    rcases he' with he' | rfl
    · exact h front back' htrace e' he' c hc hpast
    · rw [List.singleton_inj] at hlast
      subst hlast
      exact not_mem_front hnodup htrace (habout c hc) hpast

/-- An event that is neither a push nor a source nor a `clear()`. -/
theorem Traced.emit (h : sp.Traced owed) (hcleared : e.isCleared = false) (hpushed : e.pushed? = none)
    (hscheduled : e.scheduled? = none) (habout : ∀ c ∈ e.about, c ∈ sp.pushed) : (sp.emit e).Traced owed := by
  have hp : (sp.emit e).pushed = sp.pushed := by rw [pushed_emit hcleared, hpushed, Option.toList_none, List.append_nil]
  have hs : (sp.emit e).scheduled = sp.scheduled := by
    rw [scheduled_emit hcleared, hscheduled, Option.toList_none, List.append_nil]
  have hall : pushesOf (sp.emit e).trace = pushesOf sp.trace := by
    rw [pushesOf_emit, hpushed, Option.toList_none, List.append_nil]
  exact ⟨hall ▸ h.nodup, hall ▸ h.numbers, fresh_emit h.fresh h.nodup habout, hp ▸ h.owed, hp ▸ h.carry,
    by rw [hs, hp]; exact h.made, hp ▸ h.nodes, hp ▸ h.timers⟩

theorem InTime.emit (h : sp.InTime) (hcleared : e.isCleared = false) (hscheduled : e.scheduled? = none) :
    (sp.emit e).InTime := by
  have hs : (sp.emit e).scheduled = sp.scheduled := by
    rw [scheduled_emit hcleared, hscheduled, Option.toList_none, List.append_nil]
  exact ⟨hs ▸ h.apart, hs ▸ h.inTime, hs ▸ h.finish⟩

/-! ## `setState` -/

theorem InTime.setState (h : sp.InTime) (state : PlaybackState) : (sp.setState state).InTime := by
  have hstate : ({ sp with state } : Speaker).InTime := ⟨h.apart, h.inTime, h.finish⟩
  rcases setState_eq sp state with heq | heq
  · exact heq ▸ hstate
  · exact heq ▸ hstate.emit rfl rfl

theorem Traced.setState (h : sp.Traced owed) (state : PlaybackState) : (sp.setState state).Traced owed := by
  have hstate : ({ sp with state } : Speaker).Traced owed :=
    ⟨h.nodup, h.numbers, h.fresh, h.owed, h.carry, h.made, h.nodes, h.timers⟩
  rcases setState_eq sp state with heq | heq
  · exact heq ▸ hstate
  · exact heq ▸ hstate.emit rfl rfl rfl (fun c hc => by cases hc)

theorem Reporting.setState (h : sp.Reporting) (state : PlaybackState) : (sp.setState state).Reporting := by
  rcases setState_eq sp state with heq | heq
  · exact heq ▸ ⟨h.timers, h.awaiting⟩
  · exact heq ▸ ⟨h.timers, h.awaiting⟩

/-- The nodes are looked after, and the state is told afterwards. -/
theorem Audible.of_setState {state : PlaybackState} (hsources : sp.sources = outstanding sp.nodes)
    (hnodup : (sp.nodes.map Node.id).Nodup) (hmade : ∀ node ∈ sp.nodes, node.id < sp.nodesMade)
    (honended : ∀ node ∈ sp.nodes, node.onended = !node.stopped) (hplaying : state = .playing ↔ sp.sources ≠ []) :
    (sp.setState state).Audible := by
  rcases setState_eq sp state with heq | heq
  · exact heq ▸ ⟨hsources, hnodup, hmade, honended, hplaying⟩
  · exact heq ▸ ⟨hsources, hnodup, hmade, honended, hplaying⟩

/-! ## A chunk is scheduled -/

theorem source_now (sp : Speaker) (ctx : AudioContext) (c : Chunk) (buffer : List ℚ) :
    (sp.source ctx c buffer).now ≤ (sp.source ctx c buffer).start := by
  unfold source
  dsimp only
  split
  · unfold jitterBufferS
    linarith
  · rename_i h
    exact not_lt.mp h

theorem source_start (sp : Speaker) (ctx : AudioContext) (c : Chunk) (buffer : List ℚ) :
    sp.nextStartTime ≤ (sp.source ctx c buffer).start := by
  unfold source
  dsimp only
  split
  · unfold jitterBufferS
    linarith
  · exact le_refl _

theorem start_le_finish (s : Source) : s.start ≤ s.finish := by
  have hnonneg : (0 : ℚ) ≤ s.buffer.length / sampleRate := by
    unfold sampleRate
    positivity
  unfold Source.finish Source.duration
  linarith

theorem InTime.play (h : sp.InTime) {s : Source} (hnow : s.now ≤ s.start) (hnext : sp.nextStartTime ≤ s.start) :
    (sp.play s).InTime := by
  have hscheduled := scheduled_addSource sp s
  have hbefore : ∀ a ∈ sp.scheduled, a.finish ≤ s.start := fun a ha => (h.finish a ha).trans hnext
  apply InTime.setState
  refine ⟨?_, ?_, ?_⟩
  · rw [hscheduled]
    refine List.pairwise_append.mpr ⟨h.apart, List.pairwise_singleton _ _, ?_⟩
    exact fun a ha b hb => List.mem_singleton.mp hb ▸ hbefore a ha
  · rw [hscheduled]
    intro a ha
    rcases List.mem_append.mp ha with ha | ha
    · exact h.inTime a ha
    · exact List.mem_singleton.mp ha ▸ hnow
  · rw [hscheduled]
    intro a ha
    show a.finish ≤ s.finish
    rcases List.mem_append.mp ha with ha | ha
    · exact (hbefore a ha).trans (start_le_finish s)
    · rw [List.mem_singleton.mp ha]

theorem Audible.play (h : sp.Audible) (s : Source) : (sp.play s).Audible := by
  have hlast : ∀ node ∈ sp.nodes ++ [({ id := sp.nodesMade, source := s } : Node)],
      node ∈ sp.nodes ∨ node = { id := sp.nodesMade, source := s } := by
    intro node hnode
    rcases List.mem_append.mp hnode with hnode | hnode
    · exact Or.inl hnode
    · exact Or.inr (List.mem_singleton.mp hnode)
  apply Audible.of_setState
  · show sp.sources ++ [sp.nodesMade] = outstanding (sp.nodes ++ [_])
    rw [h.sources, outstanding, outstanding, List.filter_append, List.map_append]
    rfl
  · show ((sp.nodes ++ [_]).map Node.id).Nodup
    rw [List.map_append, List.nodup_append]
    refine ⟨h.nodup, List.pairwise_singleton _ _, ?_⟩
    intro id hid other hother
    obtain ⟨node, hnode, rfl⟩ := List.mem_map.mp hid
    rw [List.map_singleton, List.mem_singleton] at hother
    exact hother ▸ (h.made node hnode).ne
  · intro node hnode
    rcases hlast node hnode with hnode | rfl
    · exact Nat.lt_succ_of_lt (h.made node hnode)
    · exact Nat.lt_succ_self _
  · intro node hnode
    rcases hlast node hnode with hnode | rfl
    · exact h.onended node hnode
    · rfl
  · exact iff_of_true rfl (List.append_ne_nil_of_right_ne_nil _ (List.cons_ne_nil _ _))

theorem Traced.play (h : sp.Traced owed) {s : Source} (hmade : s.Made sp.pushed) : (sp.play s).Traced owed := by
  have hscheduled := scheduled_addSource sp s
  have hpushed := pushed_addSource sp s
  have hall : pushesOf ((sp.addSource s).emit (.scheduled s)).trace = pushesOf sp.trace := by
    rw [pushesOf_emit]
    exact List.append_nil _
  apply Traced.setState
  refine ⟨hall ▸ h.nodup, hall ▸ h.numbers, ?_, hpushed ▸ h.owed, hpushed ▸ h.carry, ?_, ?_, hpushed ▸ h.timers⟩
  · apply fresh_emit h.fresh h.nodup
    intro c hc
    cases hc
    exact hmade.1
  · rw [hpushed, hscheduled]
    intro a ha
    rcases List.mem_append.mp ha with ha | ha
    · exact h.made a ha
    · exact List.mem_singleton.mp ha ▸ hmade
  · rw [hpushed]
    intro node hnode hstopped
    rcases List.mem_append.mp hnode with hnode | hnode
    · exact h.nodes node hnode hstopped
    · exact List.mem_singleton.mp hnode ▸ hmade.1

theorem Reporting.play (h : sp.Reporting) (s : Source) : (sp.play s).Reporting :=
  have hadded : ((sp.addSource s).emit (.scheduled s)).Reporting := h.congr rfl rfl rfl
  hadded.setState .playing

/-- The first source of a stream sets the timer, and no other one runs then. -/
theorem Sound.reportFirstAudio (h : sp.Sound owed) {s : Source} (hs : s.chunk ∈ sp.pushed) (ctx : AudioContext)
    (performanceNow : ℚ) : (sp.reportFirstAudio ctx performanceNow s).Sound owed := by
  unfold Speaker.reportFirstAudio
  split
  · rename_i hawaiting
    have hnone : sp.firstAudioTimer = none := h.reporting.awaiting hawaiting
    have htimers : sp.timers = [] := by
      have hmap := h.reporting.timers
      rw [hnone] at hmap
      exact List.map_eq_nil_iff.mp hmap
    refine ⟨h.inTime.congr rfl rfl,
      h.audible.congr rfl rfl rfl rfl, ⟨?_, fun hfalse => by cases hfalse⟩,
      ⟨h.traced.nodup, h.traced.numbers, h.traced.fresh, h.traced.owed, h.traced.carry, h.traced.made, h.traced.nodes, ?_⟩⟩
    · dsimp only
      rw [htimers]
      rfl
    · dsimp only
      rw [htimers]
      intro timer htimer
      obtain rfl := List.mem_singleton.mp htimer
      exact hs
  · exact h

theorem Sound.schedule (h : sp.Sound owed) (hc : c ∈ sp.pushed) (ctx : AudioContext) (performanceNow : ℚ) :
    (Speaker.schedule ctx performanceNow sp c).Sound owed := by
  have hcarry : ∀ b ∈ (decode sp.carry c.bytes).2, ∃ c ∈ sp.pushed, b ∈ c.bytes := by
    intro b hb
    rcases mem_decode hb with hb | hb
    · exact h.traced.carry b hb
    · exact ⟨c, hc, hb⟩
  have hdecoded : ({ sp with carry := (decode sp.carry c.bytes).2 } : Speaker).Sound owed :=
    ⟨h.inTime.congr rfl rfl,
      h.audible.congr rfl rfl rfl rfl,
      h.reporting.congr rfl rfl rfl,
      ⟨h.traced.nodup, h.traced.numbers, h.traced.fresh, h.traced.owed, hcarry, h.traced.made, h.traced.nodes, h.traced.timers⟩⟩
  unfold Speaker.schedule
  dsimp only
  split
  · exact hdecoded
  · generalize ht : ({ sp with carry := (decode sp.carry c.bytes).2 } : Speaker) = t at hdecoded
    have hpushed : t.pushed = sp.pushed := ht ▸ rfl
    generalize hs : t.source ctx c (decode sp.carry c.bytes).1 = s
    have hmade : s.Made t.pushed := by
      rw [← hs, hpushed]
      exact ⟨hc, sp.carry, h.traced.carry, decode_fst _ _⟩
    have hplay : (t.play s).Sound owed :=
      ⟨hdecoded.inTime.play (hs ▸ source_now t ctx c _) (hs ▸ source_start t ctx c _), hdecoded.audible.play s,
        hdecoded.reporting.play s, hdecoded.traced.play hmade⟩
    have hplayed : (t.play s).pushed = t.pushed := congrArg Feed.pushed (feed_play t s)
    exact hplay.reportFirstAudio (hplayed ▸ hmade.1) ctx performanceNow

theorem Sound.withPending (h : sp.Sound owed) (pending : List Chunk) : ({ sp with pending } : Speaker).Sound owed :=
  ⟨h.inTime.congr rfl rfl,
    h.audible.congr rfl rfl rfl rfl,
    h.reporting.congr rfl rfl rfl,
    ⟨h.traced.nodup, h.traced.numbers, h.traced.fresh, h.traced.owed, h.traced.carry, h.traced.made, h.traced.nodes,
      h.traced.timers⟩⟩

/-- Chunks may be scheduled or given up. -/
theorem Sound.of_subset {owed' : List Chunk} (h : sp.Sound owed) (hsub : ∀ c ∈ owed', c ∈ owed) : sp.Sound owed' :=
  ⟨h.inTime, h.audible, h.reporting,
    ⟨h.traced.nodup, h.traced.numbers, h.traced.fresh, fun c hc => h.traced.owed c (hsub c hc), h.traced.carry, h.traced.made,
      h.traced.nodes, h.traced.timers⟩⟩

theorem Sound.foldl_schedule (h : sp.Sound owed) (ctx : AudioContext) (performanceNow : ℚ) :
    (owed.foldl (Speaker.schedule ctx performanceNow) sp).Sound [] := by
  induction owed generalizing sp with
  | nil => exact h
  | cons c owed ih =>
      have hc : c ∈ sp.pushed := h.traced.owed c List.mem_cons_self
      exact ih ((h.schedule hc ctx performanceNow).of_subset (fun _ => List.mem_cons_of_mem _))

theorem Sound.flushPending (h : sp.Sound sp.pending) (ctx : AudioContext) (performanceNow : ℚ) :
    (sp.flushPending ctx performanceNow).Sound [] := (h.withPending []).foldl_schedule ctx performanceNow

/-! ## The other operations -/

theorem InTime.arrive (h : sp.InTime) (bytes : Bytes) : (sp.arrive bytes).InTime := by
  have hcounted : ({ sp with pushes := sp.pushes + 1 } : Speaker).InTime := h.congr rfl rfl
  exact hcounted.emit rfl rfl

theorem Traced.arrive (h : sp.Traced owed) (bytes : Bytes) : (sp.arrive bytes).Traced (owed ++ [sp.chunk bytes]) := by
  have hpushed : (sp.arrive bytes).pushed = sp.pushed ++ [sp.chunk bytes] := congrArg Feed.pushed (feed_arrive sp bytes)
  have hscheduled : (sp.arrive bytes).scheduled = sp.scheduled := (scheduled_emit rfl).trans (List.append_nil _)
  have hall : pushesOf (sp.arrive bytes).trace = pushesOf sp.trace ++ [sp.chunk bytes] := pushesOf_emit
  have hmore : ∀ c ∈ sp.pushed, c ∈ (sp.arrive bytes).pushed := by
    intro c hc
    rw [hpushed]
    exact List.mem_append_left _ hc
  have hnew : sp.chunk bytes ∈ (sp.arrive bytes).pushed := by
    rw [hpushed]
    exact List.mem_append_right _ (List.mem_singleton_self _)
  refine ⟨?_, ?_, ?_, ?_, ?_, ?_, ?_, ?_⟩
  · rw [hall, List.nodup_append]
    refine ⟨h.nodup, List.pairwise_singleton _ _, ?_⟩
    rintro c hc d hd rfl
    have hlt := h.numbers c hc
    rw [List.mem_singleton.mp hd] at hlt
    exact lt_irrefl _ hlt
  · rw [hall]
    intro c hc
    rcases List.mem_append.mp hc with hc | hc
    · exact Nat.lt_succ_of_lt (h.numbers c hc)
    · rw [List.mem_singleton.mp hc]
      exact Nat.lt_succ_self _
  · exact fresh_emit h.fresh h.nodup (fun c hc => by cases hc)
  · intro c hc
    rcases List.mem_append.mp hc with hc | hc
    · exact hmore c (h.owed c hc)
    · exact List.mem_singleton.mp hc ▸ hnew
  · intro b hb
    obtain ⟨c, hc, hmem⟩ := h.carry b hb
    exact ⟨c, hmore c hc, hmem⟩
  · rw [hscheduled]
    exact fun s hs => (h.made s hs).mono hmore
  · exact fun node hnode hstopped => hmore _ (h.nodes node hnode hstopped)
  · exact fun timer htimer => hmore _ (h.timers timer htimer)

theorem Sound.arrive (h : sp.Sound owed) (bytes : Bytes) : (sp.arrive bytes).Sound (owed ++ [sp.chunk bytes]) :=
  ⟨h.inTime.arrive bytes, h.audible.congr rfl rfl rfl rfl, h.reporting.congr rfl rfl rfl, h.traced.arrive bytes⟩

theorem Sound.drop (h : sp.Sound owed) : sp.drop.Sound [] := by
  have hinTime : (sp.emit (.refused (sp.streams :: sp.pending.map Chunk.stream))).InTime := h.inTime.emit rfl rfl
  have htraced : (sp.emit (.refused (sp.streams :: sp.pending.map Chunk.stream))).Traced owed :=
    h.traced.emit rfl rfl rfl (fun c hc => by cases hc)
  exact ⟨hinTime.congr rfl rfl,
    h.audible.congr rfl rfl rfl rfl,
    h.reporting.congr rfl rfl rfl,
    ⟨htraced.nodup, htraced.numbers, htraced.fresh, List.forall_mem_nil _, htraced.carry, htraced.made, htraced.nodes,
      htraced.timers⟩⟩

theorem Sound.beginStream (h : sp.Sound owed) : sp.beginStream.Sound owed := by
  refine ⟨h.inTime.congr rfl rfl,
    h.audible.congr rfl rfl rfl rfl, ⟨h.reporting.timers, ?_⟩,
    ⟨h.traced.nodup, h.traced.numbers, h.traced.fresh, h.traced.owed, (fun b hb => by cases hb), h.traced.made, h.traced.nodes,
      h.traced.timers⟩⟩
  intro hawaiting
  rcases Bool.or_eq_true_iff.mp hawaiting with hawaiting | hnone
  · exact h.reporting.awaiting hawaiting
  · exact Option.isNone_iff_eq_none.mp hnone

theorem mem_sources (h : sp.Audible) {node : Node} (hnode : node ∈ sp.nodes) (hstopped : node.stopped = false) :
    node.id ∈ sp.sources := by
  rw [h.sources]
  exact List.mem_map_of_mem (List.mem_filter.mpr ⟨hnode, by rw [hstopped]; rfl⟩)

/-- `clear()` stops every node that still plays. -/
theorem silence_stopped (h : sp.Audible) {node : Node} (hnode : node ∈ sp.nodes) :
    (sp.silence node).stopped = true ∧ (sp.silence node).onended = false := by
  unfold silence
  split
  · exact ⟨rfl, rfl⟩
  · rename_i hid
    have hstopped : node.stopped = true := by
      by_contra hplays
      exact hid (mem_sources h hnode (Bool.eq_false_iff.mpr hplays))
    exact ⟨hstopped, by rw [h.onended node hnode, hstopped]; rfl⟩

theorem silence_id (sp : Speaker) (node : Node) : (sp.silence node).id = node.id := by
  unfold silence
  split <;> rfl

theorem Audible.clear (h : sp.Audible) : sp.clear.Audible := by
  have hsilent : ∀ node ∈ sp.nodes.map sp.silence, node.stopped = true ∧ node.onended = false := by
    intro node hnode
    obtain ⟨before, hbefore, rfl⟩ := List.mem_map.mp hnode
    exact silence_stopped h hbefore
  have hids : (sp.nodes.map sp.silence).map Node.id = sp.nodes.map Node.id := by
    rw [List.map_map]
    exact List.map_congr_left (fun node _ => silence_id sp node)
  apply Audible.of_setState
  · show [] = outstanding (sp.nodes.map sp.silence)
    rw [outstanding, List.filter_eq_nil_iff.mpr (fun node hnode => by simp [(hsilent node hnode).1]), List.map_nil]
  · exact (congrArg List.Nodup hids).mpr h.nodup
  · intro node hnode
    obtain ⟨before, hbefore, rfl⟩ := List.mem_map.mp hnode
    rw [silence_id]
    exact h.made before hbefore
  · intro node hnode
    rw [(hsilent node hnode).1, (hsilent node hnode).2]
    rfl
  · exact iff_of_false (fun hidle => by cases hidle) (fun hne => hne rfl)

theorem Reporting.timer_eq (h : sp.Reporting) {timer : Timer} (htimer : timer ∈ sp.timers) :
    sp.firstAudioTimer = some timer.id := by
  have hid : timer.id ∈ sp.firstAudioTimer.toList := by
    rw [← h.timers]
    exact List.mem_map_of_mem htimer
  exact Option.mem_toList.mp hid

/-- `clear()` cancels every timer that runs. -/
theorem Reporting.timers_stopAll (h : sp.Reporting) : sp.stopAll.timers = [] :=
  List.filter_eq_nil_iff.mpr (fun timer htimer => by simp [h.timer_eq htimer])

theorem Traced.clear (h : sp.Traced owed) (haudible : sp.Audible) (hreporting : sp.Reporting) : sp.clear.Traced [] := by
  have hscheduled : (sp.stopAll.emit .cleared).scheduled = [] := scheduled_cleared
  have hall : pushesOf (sp.stopAll.emit .cleared).trace = pushesOf sp.trace := by
    rw [pushesOf_emit]
    exact List.append_nil _
  have htimers : (sp.stopAll.emit .cleared).timers = [] := hreporting.timers_stopAll
  apply Traced.setState
  refine ⟨hall ▸ h.nodup, hall ▸ h.numbers, ?_, List.forall_mem_nil _, ?_, hscheduled ▸ List.forall_mem_nil _, ?_,
    htimers ▸ List.forall_mem_nil _⟩
  · exact fresh_emit h.fresh h.nodup (fun c hc => by cases hc)
  · exact fun b hb => by cases hb
  · intro node hnode hstopped
    obtain ⟨before, hbefore, rfl⟩ := List.mem_map.mp hnode
    rw [(silence_stopped haudible hbefore).1] at hstopped
    cases hstopped

/-- Nothing is left of what came before. -/
theorem Sound.clear (h : sp.Sound owed) : sp.clear.Sound [] := by
  have hscheduled : (sp.stopAll.emit .cleared).scheduled = [] := scheduled_cleared
  have htimers : (sp.stopAll.emit .cleared).timers = [] := h.reporting.timers_stopAll
  have hinTime : (sp.stopAll.emit .cleared).InTime :=
    ⟨hscheduled ▸ List.Pairwise.nil, hscheduled ▸ List.forall_mem_nil _, hscheduled ▸ List.forall_mem_nil _⟩
  have hreporting : (sp.stopAll.emit .cleared).Reporting := ⟨by rw [htimers]; rfl, fun hfalse => by cases hfalse⟩
  exact ⟨hinTime.setState .idle, h.audible.clear, hreporting.setState .idle, h.traced.clear h.audible h.reporting⟩

/-! ## A source ends, and the timer runs out -/

theorem outstanding_filter (nodes : List Node) (id : ℕ) :
    outstanding (nodes.filter (fun node => node.id ≠ id)) = (outstanding nodes).filter (fun other => other ≠ id) := by
  unfold outstanding
  rw [List.filter_filter, List.filter_map, List.filter_filter]
  congr 1
  apply List.filter_congr
  intro node _
  exact Bool.and_comm _ _

theorem nodup_outstanding (h : sp.Audible) : (outstanding sp.nodes).Nodup :=
  h.nodup.sublist (List.filter_sublist.map Node.id)

/-- The node with its id is the only one. -/
theorem eq_of_id (h : sp.Audible) {node other : Node} (hnode : node ∈ sp.nodes) (hother : other ∈ sp.nodes)
    (hid : other.id = node.id) : other = node := List.inj_on_of_nodup_map h.nodup hother hnode hid

/-- The node is gone, and the player forgets it where its handler is set. -/
theorem ended_cases {id : ℕ} (ht : sp.ended id = some t) : ∃ node ∈ sp.nodes, node.id = id ∧ ∃ sources frameCount,
    let left : Speaker := { sp with nodes := sp.nodes.filter (fun node => node.id ≠ id), sources, frameCount }
    (node.onended = true ∧ id ∈ sp.sources ∧ sources = sp.sources.erase id ∧
        (sources = [] ∧ t = left.setState .idle ∨ sources ≠ [] ∧ t = left)) ∨
      ((node.onended = false ∨ id ∉ sp.sources) ∧ sources = sp.sources ∧ t = left) := by
  obtain ⟨node, hfind, rfl⟩ := Option.map_eq_some_iff.mp ht
  refine ⟨node, List.mem_of_find?_eq_some hfind, by simpa using List.find?_some hfind, ?_⟩
  dsimp only
  split
  · rename_i hhandler
    unfold Speaker.onended
    dsimp only
    split
    · rename_i hmem
      refine ⟨sp.sources.erase id, sp.frameCount + 1, Or.inl ⟨hhandler, hmem, rfl, ?_⟩⟩
      split
      · rename_i hempty
        exact Or.inl ⟨hempty, rfl⟩
      · rename_i hne
        exact Or.inr ⟨hne, rfl⟩
    · rename_i hmem
      exact ⟨sp.sources, sp.frameCount, Or.inr ⟨Or.inr hmem, rfl, rfl⟩⟩
  · rename_i hhandler
    exact ⟨sp.sources, sp.frameCount, Or.inr ⟨Or.inl (Bool.eq_false_iff.mpr hhandler), rfl, rfl⟩⟩

theorem Audible.ended (h : sp.Audible) {id : ℕ} (ht : sp.ended id = some t) : t.Audible := by
  obtain ⟨node, hnode, hid, sources, frameCount, hcases⟩ := ended_cases ht
  have hnodup : ((sp.nodes.filter (fun node => node.id ≠ id)).map Node.id).Nodup := h.nodup.sublist (List.filter_sublist.map _)
  have hmade : ∀ node ∈ sp.nodes.filter (fun node => node.id ≠ id), node.id < sp.nodesMade :=
    fun node hnode => h.made node (List.mem_of_mem_filter hnode)
  have honended : ∀ node ∈ sp.nodes.filter (fun node => node.id ≠ id), node.onended = !node.stopped :=
    fun node hnode => h.onended node (List.mem_of_mem_filter hnode)
  rcases hcases with ⟨-, hmem, rfl, hstate⟩ | ⟨hquiet, rfl, rfl⟩
  · have hsources : sp.sources.erase id = outstanding (sp.nodes.filter (fun node => node.id ≠ id)) := by
      rw [outstanding_filter, ← h.sources]
      rw [(h.sources ▸ nodup_outstanding h : sp.sources.Nodup).erase_eq_filter id]
      exact List.filter_congr (fun other _ => (decide_not (p := other = id)).symm)
    rcases hstate with ⟨hempty, rfl⟩ | ⟨hne, rfl⟩
    · apply Audible.of_setState hsources hnodup hmade honended
      exact iff_of_false (fun hidle => by cases hidle) (fun hne => hne hempty)
    · exact ⟨hsources, hnodup, hmade, honended, iff_of_true (h.playing.mpr (List.ne_nil_of_mem hmem)) hne⟩
  · have hmem : id ∉ outstanding sp.nodes := by
      intro hmem
      obtain ⟨other, hother, hsame⟩ := List.mem_map.mp hmem
      obtain ⟨hother, hplays⟩ := List.mem_filter.mp hother
      rcases hquiet with hquiet | hquiet
      · rw [eq_of_id h hnode hother (hsame.trans hid.symm), ← h.onended node hnode, hquiet] at hplays
        cases hplays
      · exact hquiet (h.sources ▸ hmem)
    have hsources : sp.sources = outstanding (sp.nodes.filter (fun node => node.id ≠ id)) := by
      rw [outstanding_filter, h.sources]
      refine (List.filter_eq_self.mpr (fun other hother => ?_)).symm
      exact decide_eq_true (fun hsame => hmem (hsame ▸ hother))
    exact ⟨hsources, hnodup, hmade, honended, h.playing⟩

theorem Sound.ended (h : sp.Sound owed) {id : ℕ} (ht : sp.ended id = some t) : t.Sound owed := by
  have haudible := h.audible.ended ht
  obtain ⟨node, -, -, sources, frameCount, hcases⟩ := ended_cases ht
  let left : Speaker := { sp with nodes := sp.nodes.filter (fun node => node.id ≠ id), sources, frameCount }
  have hinTime : left.InTime := h.inTime.congr rfl rfl
  have hreporting : left.Reporting := h.reporting.congr rfl rfl rfl
  have htraced : left.Traced owed :=
    ⟨h.traced.nodup, h.traced.numbers, h.traced.fresh, h.traced.owed, h.traced.carry, h.traced.made,
      fun node hnode => h.traced.nodes node (List.mem_of_mem_filter hnode), h.traced.timers⟩
  rcases hcases with ⟨-, -, -, ⟨-, rfl⟩ | ⟨-, rfl⟩⟩ | ⟨-, -, rfl⟩
  · exact ⟨hinTime.setState .idle, haudible, hreporting.setState .idle, htraced.setState .idle⟩
  · exact ⟨hinTime, haudible, hreporting, htraced⟩
  · exact ⟨hinTime, haudible, hreporting, htraced⟩

theorem Sound.timeout (h : sp.Sound owed) {id : ℕ} (ht : sp.timeout id = some t) : t.Sound owed := by
  obtain ⟨timer, hfind, rfl⟩ := Option.map_eq_some_iff.mp ht
  have htimer : timer ∈ sp.timers := List.mem_of_find?_eq_some hfind
  have hid : timer.id = id := by simpa using List.find?_some hfind
  have hnone : sp.timers.filter (fun timer => timer.id ≠ id) = [] := by
    refine List.filter_eq_nil_iff.mpr (fun other hother => ?_)
    have hsame : some other.id = some timer.id := (h.reporting.timer_eq hother).symm.trans (h.reporting.timer_eq htimer)
    simp [Option.some.inj hsame, hid]
  let left : Speaker := { sp with firstAudioTimer := none, timers := sp.timers.filter (fun timer => timer.id ≠ id) }
  have hinTime : left.InTime := h.inTime.congr rfl rfl
  have htraced : left.Traced owed :=
    ⟨h.traced.nodup, h.traced.numbers, h.traced.fresh, h.traced.owed, h.traced.carry, h.traced.made, h.traced.nodes,
      fun timer htimer => h.traced.timers timer (List.mem_of_mem_filter htimer)⟩
  refine ⟨hinTime.emit rfl rfl, h.audible.congr rfl rfl rfl rfl, ⟨?_, fun _ => rfl⟩, htraced.emit rfl rfl rfl ?_⟩
  · exact congrArg (List.map Timer.id) hnone
  · intro c hc
    cases hc
    exact h.traced.timers timer htimer

/-! ## Runs -/

theorem sound_new : ({} : Speaker).Sound [] :=
  ⟨⟨List.Pairwise.nil, List.forall_mem_nil _, List.forall_mem_nil _⟩,
    ⟨rfl, List.Pairwise.nil, List.forall_mem_nil _, List.forall_mem_nil _, by decide⟩, ⟨rfl, fun hfalse => by cases hfalse⟩,
    ⟨List.Pairwise.nil, List.forall_mem_nil _, fun front back heq => absurd heq (by simp), List.forall_mem_nil _,
      (fun b hb => by cases hb), List.forall_mem_nil _, List.forall_mem_nil _, List.forall_mem_nil _⟩⟩

theorem Sound.act (h : sp.Sound sp.pending) (ht : sp.act a = some t) : t.Sound t.pending := by
  cases a with
  | wait bytes =>
      cases ht
      exact (h.arrive bytes).withPending _
  | play bytes ctx performanceNow =>
      cases ht
      have hleft : (Speaker.schedule ctx performanceNow (sp.arrive bytes) (sp.chunk bytes)).pending = sp.pending :=
        congrArg Feed.pending (feed_schedule (sp.arrive bytes) ctx performanceNow (sp.chunk bytes))
      have harrived := h.arrive bytes
      have hnew : sp.chunk bytes ∈ (sp.arrive bytes).pushed :=
        harrived.traced.owed _ (List.mem_append_right _ (List.mem_singleton_self _))
      rw [hleft]
      exact (harrived.schedule hnew ctx performanceNow).of_subset (fun _ => List.mem_append_left _)
  | flush ctx performanceNow =>
      cases ht
      have hleft : (sp.flushPending ctx performanceNow).pending = [] :=
        (congrArg Feed.pending (feed_flushPending sp ctx performanceNow)).trans (Feed.pending_flushPending _)
      rw [hleft]
      exact h.flushPending ctx performanceNow
  | drop =>
      cases ht
      exact h.drop
  | beginStream =>
      cases ht
      exact h.beginStream
  | clear =>
      cases ht
      have hleft : sp.clear.pending = [] := congrArg Feed.pending (feed_clear sp)
      rw [hleft]
      exact h.clear
  | resetCount =>
      cases ht
      exact ⟨h.inTime.congr rfl rfl, h.audible.congr rfl rfl rfl rfl, h.reporting.congr rfl rfl rfl,
        ⟨h.traced.nodup, h.traced.numbers, h.traced.fresh, h.traced.owed, h.traced.carry, h.traced.made, h.traced.nodes,
          h.traced.timers⟩⟩
  | ended id =>
      have hleft : t.pending = sp.pending := congrArg Feed.pending (feed_ended ht)
      rw [hleft]
      exact h.ended ht
  | timeout id =>
      have hleft : t.pending = sp.pending := congrArg Feed.pending (feed_timeout ht)
      rw [hleft]
      exact h.timeout ht

theorem sound_of_run {ok : Speaker → Act → Prop} (h : Run act ok {} acts sp) : sp.Sound sp.pending :=
  h.invariant (I := fun sp => sp.Sound sp.pending) sound_new (fun hI _ ht => hI.act ht)

/-! ## What a listener makes of it -/

theorem Audible.playing_iff (h : sp.Audible) : sp.state = .playing ↔ ∃ node ∈ sp.nodes, node.stopped = false := by
  rw [h.playing, h.sources, outstanding]
  constructor
  · intro hne
    obtain ⟨id, hid⟩ := List.exists_mem_of_ne_nil _ hne
    obtain ⟨node, hnode, -⟩ := List.mem_map.mp hid
    obtain ⟨hmem, hplays⟩ := List.mem_filter.mp hnode
    exact ⟨node, hmem, (Bool.not_eq_true' _).mp hplays⟩
  · rintro ⟨node, hmem, hplays⟩
    have hnode : node ∈ sp.nodes.filter (fun node => !node.stopped) := List.mem_filter.mpr ⟨hmem, by rw [hplays]; rfl⟩
    exact List.ne_nil_of_mem (List.mem_map_of_mem hnode)

/-- What was pushed before a `clear()` is heard no more. -/
theorem Traced.dropped (h : sp.Traced owed) {front back : List Event} (htrace : sp.trace = front ++ .cleared :: back)
    (hc : .pushed c ∈ front) :
    (∀ s, .scheduled s ∈ back → s.chunk ≠ c) ∧ (∀ heardAtMs, .firstAudio c heardAtMs ∉ back) ∧
      ∀ node ∈ sp.nodes, node.stopped = false → node.source.chunk ≠ c := by
  have hfront : c ∈ pushesOf front := List.mem_filterMap.mpr ⟨_, hc, rfl⟩
  refine ⟨?_, ?_, ?_⟩
  · rintro s hs rfl
    exact h.fresh front back htrace _ hs _ rfl hfront
  · intro heardAtMs hheard
    exact h.fresh front back htrace _ hheard _ rfl hfront
  · rintro node hnode hstopped rfl
    exact not_mem_front h.nodup htrace (h.nodes node hnode hstopped) hfront

end Speaker

end Voxera.Web
