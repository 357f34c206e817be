import Voxera.Web.Pcm16Player

/-!
# The player's audio without its clock

* `Feed` : what has been pushed and scheduled since the last `clear()`, without the times, the nodes and the timers;
* `feed_schedule`, `feed_flushPending` and so on : what the operations of the player do to it;
* `floats_append`, `oddTail_append` : the chunks of a stream are decoded as the whole of it is.
-/

namespace Voxera.Web

open EventLoop Since

structure Feed where
  pushed : List Chunk
  /-- The chunks with the samples that are played for them. -/
  scheduled : List (Chunk × List ℚ)
  refusals : List ℕ
  pending : List Chunk
  carry : Option UInt8
  pushes : ℕ
  streams : ℕ

namespace Feed

def chunk (f : Feed) (bytes : Bytes) : Chunk := { number := f.pushes, stream := f.streams, bytes }

def arrive (f : Feed) (bytes : Bytes) : Feed := { f with pushes := f.pushes + 1, pushed := f.pushed ++ [f.chunk bytes] }

def schedule (f : Feed) (pcm16 : Chunk) : Feed :=
  let decoded := decode f.carry pcm16.bytes
  { f with carry := decoded.2, scheduled := f.scheduled ++ if decoded.1 = [] then [] else [(pcm16, decoded.1)] }

def flushPending (f : Feed) : Feed := f.pending.foldl schedule { f with pending := [] }

theorem pending_foldl_schedule (chunks : List Chunk) (f : Feed) : (chunks.foldl Feed.schedule f).pending = f.pending := by
  induction chunks generalizing f with
  | nil => rfl
  | cons c chunks ih => exact ih (f.schedule c)

theorem pending_flushPending (f : Feed) : f.flushPending.pending = [] := pending_foldl_schedule _ _

def drop (f : Feed) : Feed :=
  { f with refusals := f.refusals ++ f.streams :: f.pending.map Chunk.stream, pending := [] }

def beginStream (f : Feed) : Feed := { f with carry := none, streams := f.streams + 1 }

def clear (f : Feed) : Feed :=
  { f with pushed := [], scheduled := [], pending := [], carry := none, streams := f.streams + 1 }

end Feed

namespace Speaker

def feed (sp : Speaker) : Feed :=
  { pushed := sp.pushed
    scheduled := sp.scheduled.map (fun s => (s.chunk, s.buffer))
    refusals := sp.refusals
    pending := sp.pending
    carry := sp.carry
    pushes := sp.pushes
    streams := sp.streams }

variable {sp t : Speaker} {e : Event}

/-! ## The record -/

theorem emit_trace : (sp.emit e).trace = sp.trace ++ [e] := rfl

theorem pushed_emit (h : e.isCleared = false) : (sp.emit e).pushed = sp.pushed ++ e.pushed?.toList := by
  unfold pushed
  rw [emit_trace, since_concat_of_neg h, List.filterMap_append]
  cases e <;> rfl

theorem scheduled_emit (h : e.isCleared = false) : (sp.emit e).scheduled = sp.scheduled ++ e.scheduled?.toList := by
  unfold scheduled
  rw [emit_trace, since_concat_of_neg h, List.filterMap_append]
  cases e <;> rfl

theorem pushed_cleared : (sp.emit .cleared).pushed = [] := by
  unfold pushed
  rw [emit_trace, since_concat_of_pos rfl]
  rfl

theorem scheduled_cleared : (sp.emit .cleared).scheduled = [] := by
  unfold scheduled
  rw [emit_trace, since_concat_of_pos rfl]
  rfl

theorem refusals_emit : (sp.emit e).refusals = sp.refusals ++ e.refusals := by
  unfold refusals
  rw [emit_trace, List.flatMap_append, List.flatMap_singleton]

/-! ## The operations -/

theorem setState_eq (sp : Speaker) (state : PlaybackState) :
    sp.setState state = { sp with state } ∨ sp.setState state = ({ sp with state } : Speaker).emit (.stateChange state) := by
  unfold setState
  split
  · rename_i h
    exact Or.inl (by rw [← h])
  · exact Or.inr rfl

/-- An event that the feed does not show. -/
theorem feed_emit (hcleared : e.isCleared = false) (hpushed : e.pushed? = none) (hscheduled : e.scheduled? = none)
    (hrefusals : e.refusals = []) : (sp.emit e).feed = sp.feed := by
  have hp : (sp.emit e).pushed = sp.pushed := by rw [pushed_emit hcleared, hpushed, Option.toList_none, List.append_nil]
  have hs : (sp.emit e).scheduled = sp.scheduled := by
    rw [scheduled_emit hcleared, hscheduled, Option.toList_none, List.append_nil]
  have hr : (sp.emit e).refusals = sp.refusals := by rw [refusals_emit, hrefusals, List.append_nil]
  rw [feed, hp, hs, hr]
  rfl

theorem feed_setState (sp : Speaker) (state : PlaybackState) : (sp.setState state).feed = sp.feed := by
  rcases setState_eq sp state with heq | heq
  · rw [heq]
    rfl
  · rw [heq, feed_emit rfl rfl rfl rfl]
    rfl

theorem feed_reportFirstAudio (sp : Speaker) (ctx : AudioContext) (performanceNow : ℚ) (s : Source) :
    (sp.reportFirstAudio ctx performanceNow s).feed = sp.feed := by
  unfold reportFirstAudio
  split <;> rfl

theorem scheduled_addSource (sp : Speaker) (s : Source) :
    ((sp.addSource s).emit (.scheduled s)).scheduled = sp.scheduled ++ [s] := scheduled_emit rfl

theorem pushed_addSource (sp : Speaker) (s : Source) : ((sp.addSource s).emit (.scheduled s)).pushed = sp.pushed := by
  rw [pushed_emit rfl]
  exact List.append_nil _

theorem feed_play (sp : Speaker) (s : Source) :
    (sp.play s).feed = { sp.feed with scheduled := sp.feed.scheduled ++ [(s.chunk, s.buffer)] } := by
  have hrefusals : ((sp.addSource s).emit (.scheduled s)).refusals = sp.refusals := refusals_emit.trans (List.append_nil _)
  rw [play, feed_setState, feed, scheduled_addSource, pushed_addSource, hrefusals, List.map_append]
  rfl

theorem feed_schedule (sp : Speaker) (ctx : AudioContext) (performanceNow : ℚ) (pcm16 : Chunk) :
    (schedule ctx performanceNow sp pcm16).feed = sp.feed.schedule pcm16 := by
  have hcarry : sp.feed.carry = sp.carry := rfl
  unfold schedule Feed.schedule
  dsimp only
  rw [hcarry]
  split
  · rw [List.append_nil]
    rfl
  · rw [feed_reportFirstAudio, feed_play]
    rfl

theorem feed_foldl_schedule (chunks : List Chunk) (ctx : AudioContext) (performanceNow : ℚ) (sp : Speaker) :
    (chunks.foldl (schedule ctx performanceNow) sp).feed = chunks.foldl Feed.schedule sp.feed := by
  induction chunks generalizing sp with
  | nil => rfl
  | cons c chunks ih => rw [List.foldl_cons, ih, feed_schedule, List.foldl_cons]

theorem feed_flushPending (sp : Speaker) (ctx : AudioContext) (performanceNow : ℚ) :
    (sp.flushPending ctx performanceNow).feed = sp.feed.flushPending := feed_foldl_schedule _ _ _ _

theorem feed_arrive (sp : Speaker) (bytes : Bytes) : (sp.arrive bytes).feed = sp.feed.arrive bytes := by
  have hpushed : (sp.arrive bytes).pushed = sp.pushed ++ [sp.chunk bytes] := pushed_emit rfl
  have hscheduled : (sp.arrive bytes).scheduled = sp.scheduled := (scheduled_emit rfl).trans (List.append_nil _)
  have hrefusals : (sp.arrive bytes).refusals = sp.refusals := refusals_emit.trans (List.append_nil _)
  rw [feed, hpushed, hscheduled, hrefusals]
  rfl

theorem feed_drop (sp : Speaker) : sp.drop.feed = sp.feed.drop := by
  have hpushed : sp.drop.pushed = sp.pushed := (pushed_emit rfl).trans (List.append_nil _)
  have hscheduled : sp.drop.scheduled = sp.scheduled := (scheduled_emit rfl).trans (List.append_nil _)
  have hrefusals : sp.drop.refusals = sp.refusals ++ sp.streams :: sp.pending.map Chunk.stream := refusals_emit
  rw [feed, hpushed, hscheduled, hrefusals]
  rfl

theorem feed_beginStream (sp : Speaker) : sp.beginStream.feed = sp.feed.beginStream := rfl

theorem feed_clear (sp : Speaker) : sp.clear.feed = sp.feed.clear := by
  have hrefusals : (sp.stopAll.emit .cleared).refusals = sp.refusals := refusals_emit.trans (List.append_nil _)
  rw [clear, feed_setState, feed, pushed_cleared, scheduled_cleared, hrefusals]
  rfl

theorem feed_ended {id : ℕ} (ht : sp.ended id = some t) : t.feed = sp.feed := by
  obtain ⟨node, -, rfl⟩ := Option.map_eq_some_iff.mp ht
  dsimp only
  split
  · unfold onended
    dsimp only
    split
    · split
      · exact feed_setState _ _
      · rfl
    · rfl
  · rfl

theorem feed_timeout {id : ℕ} (ht : sp.timeout id = some t) : t.feed = sp.feed := by
  obtain ⟨timer, -, rfl⟩ := Option.map_eq_some_iff.mp ht
  exact feed_emit rfl rfl rfl rfl

end Speaker

/-! ## Decoding in pieces -/

/-- The byte behind the whole samples. -/
def oddTail (bytes : Bytes) : Option UInt8 := (splitOdd bytes).2.head?

theorem floats_splitOdd (bytes : Bytes) : floats (splitOdd bytes).1 = floats bytes := by
  obtain ⟨hjoin, heven, hodd⟩ := splitOdd_spec bytes
  have hrest : samples (splitOdd bytes).2 = [] := by
    match (splitOdd bytes).2, hodd with
    | [], _ => rfl
    | [_], _ => rfl
  have hall : samples bytes = samples (splitOdd bytes).1 := by
    conv => lhs; rw [← hjoin, samples_append heven, hrest, List.append_nil]
  rw [floats, floats, hall]

theorem decode_fst (carry : Option UInt8) (pcm16 : Bytes) : (decode carry pcm16).1 = floats (carry.toList ++ pcm16) :=
  floats_splitOdd _

/-- What is carried on comes from the chunk, or was carried before. -/
theorem mem_decode {carry : Option UInt8} {pcm16 : Bytes} {b : UInt8} (h : b ∈ (decode carry pcm16).2) :
    b ∈ carry ∨ b ∈ pcm16 := by
  have hodd : b ∈ (splitOdd (carry.toList ++ pcm16)).2 := List.mem_of_mem_head? h
  have hmem : b ∈ carry.toList ++ pcm16 := by
    rw [← (splitOdd_spec (carry.toList ++ pcm16)).1]
    exact List.mem_append_right _ hodd
  rcases List.mem_append.mp hmem with hmem | hmem
  · exact Or.inl (Option.mem_toList.mp hmem)
  · exact Or.inr hmem

theorem toList_oddTail (bytes : Bytes) : (oddTail bytes).toList = (splitOdd bytes).2 := by
  unfold oddTail
  match (splitOdd bytes).2, (splitOdd_spec bytes).2.2 with
  | [], _ => rfl
  | [_], _ => rfl

theorem oddTail_of_even {bytes : Bytes} (h : bytes.length % 2 = 0) : oddTail bytes = none := by
  rw [oddTail, splitOdd, if_neg (by omega)]
  rfl

theorem floats_append (data more : Bytes) : floats (data ++ more) = floats data ++ (decode (oddTail data) more).1 := by
  have heven := (splitOdd_spec data).2.1
  rw [← floats_splitOdd (data ++ more), splitOdd_append, decode, toList_oddTail, ← floats_splitOdd data]
  unfold floats
  rw [samples_append heven, List.map_append]

theorem oddTail_append (data more : Bytes) : oddTail (data ++ more) = (decode (oddTail data) more).2 := by
  rw [oddTail, splitOdd_append, decode, toList_oddTail]

end Voxera.Web
