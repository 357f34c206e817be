import Voxera.Web.Feed

/-!
# Chunks in the order in which they were pushed

* `Feed.InOrder` : the chunks are scheduled in order, and each stream is decoded as one piece, as far as it is not pending;
* `inOrder_of_run` : so it is in every run whose pushes and streams come in turn.

`carried` is what carries the induction: wherever a stream goes on, the byte that is carried then is its own.
-/

namespace Voxera.Web

open EventLoop

variable {c : Chunk} {chunks more done owed : List Chunk} {scheduled : List (Chunk × List ℚ)} {k : ℕ}

/-! ## The bytes and the samples of a stream -/

/-- `samplesIn`, of chunks with their samples. -/
def samplesOf (stream : ℕ) (scheduled : List (Chunk × List ℚ)) : List ℚ :=
  (scheduled.filter (fun x => x.1.stream = stream)).flatMap Prod.snd

theorem samplesOf_map (stream : ℕ) (sources : List Source) :
    samplesOf stream (sources.map (fun s => (s.chunk, s.buffer))) = samplesIn stream sources := by
  rw [samplesOf, List.filter_map, List.flatMap_map]
  rfl

theorem bytesIn_append : bytesIn k (chunks ++ more) = bytesIn k chunks ++ bytesIn k more := by
  rw [bytesIn, List.filter_append, List.flatMap_append]
  rfl

theorem bytesIn_concat (h : c.stream = k) : bytesIn k (chunks ++ [c]) = bytesIn k chunks ++ c.bytes := by
  rw [bytesIn_append]
  simp [bytesIn, h]

theorem bytesIn_of_ne (h : ∀ c ∈ chunks, c.stream ≠ k) : bytesIn k chunks = [] := by
  rw [bytesIn, List.filter_eq_nil_iff.mpr (fun c hc => by simpa using h c hc), List.flatMap_nil]

theorem samplesOf_append {more : List (Chunk × List ℚ)} :
    samplesOf k (scheduled ++ more) = samplesOf k scheduled ++ samplesOf k more := by
  rw [samplesOf, List.filter_append, List.flatMap_append]
  rfl

/-- A chunk without a sample gets no source. -/
theorem samplesOf_chunk (h : c.stream = k) (buffer : List ℚ) :
    samplesOf k (if buffer = [] then [] else [(c, buffer)]) = buffer := by
  split
  · rename_i hempty
    rw [hempty]
    rfl
  · simp [samplesOf, h]

theorem samplesOf_chunk_of_ne (h : c.stream ≠ k) (buffer : List ℚ) :
    samplesOf k (if buffer = [] then [] else [(c, buffer)]) = [] := by
  split
  · rfl
  · simp [samplesOf, h]

/-- What is carried behind the chunks. -/
def carryAfter (carry : Option UInt8) (chunks : List Chunk) : Option UInt8 :=
  chunks.foldl (fun carry c => (decode carry c.bytes).2) carry

theorem carryAfter_concat (carry : Option UInt8) (chunks : List Chunk) (c : Chunk) :
    carryAfter carry (chunks ++ [c]) = (decode (carryAfter carry chunks) c.bytes).2 := by
  rw [carryAfter, List.foldl_append]
  rfl

theorem carryAfter_oddTail (data : Bytes) (chunks : List Chunk) :
    carryAfter (oddTail data) chunks = oddTail (data ++ chunks.flatMap Chunk.bytes) := by
  induction chunks generalizing data with
  | nil => rw [List.flatMap_nil, List.append_nil, carryAfter, List.foldl_nil]
  | cons c chunks ih =>
      rw [List.flatMap_cons, ← List.append_assoc, ← ih, oddTail_append]
      rfl

/-- Even bytes leave nothing behind. -/
theorem carryAfter_of_even (h : (chunks.flatMap Chunk.bytes).length % 2 = 0) : carryAfter none chunks = none :=
  (carryAfter_oddTail [] chunks).trans (oddTail_of_even h)

/-- The stream of the chunk that is scheduled next. -/
def nextStream (current : ℕ) : List Chunk → ℕ
  | [] => current
  | c :: _ => c.stream

theorem nextStream_concat (chunks : List Chunk) (c : Chunk) :
    nextStream c.stream (chunks ++ [c]) = nextStream c.stream chunks := by
  cases chunks <;> rfl

/-! ## One operation -/

namespace Feed

/-- Of what was pushed, `done` has been scheduled and `owed` is still to be scheduled. -/
structure InOrder (f : Feed) (done owed : List Chunk) : Prop where
  pushed : f.pushed = done ++ owed
  ordered : (f.scheduled.map Prod.fst).Sublist done
  decoded : ∀ k, k ∉ f.refusals → samplesOf k f.scheduled = floats (bytesIn k done)
  carried : ∀ before after, owed = before ++ after → nextStream f.streams after ∉ f.refusals →
    carryAfter f.carry before = oddTail (bytesIn (nextStream f.streams after) (done ++ before))
  begun : ∀ c ∈ f.pushed, c.stream ≤ f.streams

variable {f : Feed}

theorem InOrder.withPending (h : f.InOrder done owed) (pending : List Chunk) : ({ f with pending } : Feed).InOrder done owed :=
  ⟨h.pushed, h.ordered, h.decoded, h.carried, h.begun⟩

/-- The samples of a chunk go on where those of its stream ended. -/
theorem InOrder.schedule (h : f.InOrder done (c :: owed)) : (f.schedule c).InOrder (done ++ [c]) owed := by
  have hassoc : ∀ before, done ++ [c] ++ before = done ++ c :: before := fun before => by rw [List.append_assoc]; rfl
  have hscheduled : (f.schedule c).scheduled = f.scheduled ++
      if (decode f.carry c.bytes).1 = [] then [] else [(c, (decode f.carry c.bytes).1)] := rfl
  refine ⟨?_, ?_, ?_, ?_, h.begun⟩
  · rw [hassoc]
    exact h.pushed
  · rw [hscheduled, List.map_append]
    refine h.ordered.append ?_
    split
    · exact List.nil_sublist _
    · exact List.Sublist.refl _
  · intro k hk
    rw [hscheduled, samplesOf_append, h.decoded k hk]
    by_cases hc : c.stream = k
    · have hcarry : f.carry = oddTail (bytesIn k done) := by
        have hcarried := h.carried [] (c :: owed) rfl (by rw [nextStream, hc]; exact hk)
        rw [nextStream, List.append_nil, hc] at hcarried
        exact hcarried
      rw [samplesOf_chunk hc, bytesIn_concat hc, floats_append, ← hcarry]
    · have hnone : bytesIn k [c] = [] := bytesIn_of_ne (fun d hd => List.mem_singleton.mp hd ▸ hc)
      rw [samplesOf_chunk_of_ne hc, List.append_nil, bytesIn_append, hnone, List.append_nil]
  · intro before after heq hnext
    rw [hassoc]
    exact h.carried (c :: before) after (by rw [heq, List.cons_append]) hnext

theorem InOrder.foldl_schedule (h : f.InOrder done owed) : (owed.foldl Feed.schedule f).InOrder (done ++ owed) [] := by
  induction owed generalizing f done with
  | nil =>
      rw [List.append_nil]
      exact h
  | cons c owed ih =>
      rw [List.append_cons done c owed]
      exact ih h.schedule

theorem InOrder.flushPending (h : f.InOrder done f.pending) : f.flushPending.InOrder (done ++ f.pending) [] :=
  (h.withPending []).foldl_schedule

theorem InOrder.arrive (h : f.InOrder done owed) (bytes : Bytes) :
    (f.arrive bytes).InOrder done (owed ++ [f.chunk bytes]) := by
  refine ⟨?_, h.ordered, h.decoded, ?_, ?_⟩
  · show f.pushed ++ [f.chunk bytes] = _
    rw [h.pushed, List.append_assoc]
  · intro before after heq hnext
    rcases List.eq_nil_or_concat after with rfl | ⟨after', last, rfl⟩
    · rw [List.append_nil] at heq
      subst heq
      have hcarried : carryAfter f.carry owed = oddTail (bytesIn f.streams (done ++ owed)) :=
        h.carried owed [] (List.append_nil _).symm hnext
      have hbytes : bytesIn f.streams (done ++ (owed ++ [f.chunk bytes])) = bytesIn f.streams (done ++ owed) ++ bytes := by
        rw [← List.append_assoc]
        exact bytesIn_concat rfl
      show carryAfter f.carry (owed ++ [f.chunk bytes]) = oddTail (bytesIn f.streams _)
      rw [carryAfter_concat, hcarried, hbytes, oddTail_append]
      rfl
    · rw [List.concat_eq_append, ← List.append_assoc] at heq
      obtain ⟨howed, hlast⟩ := List.append_inj' heq rfl
      rw [List.singleton_inj] at hlast
      subst hlast
      have hstream : nextStream f.streams (after' ++ [f.chunk bytes]) = nextStream f.streams after' :=
        nextStream_concat after' (f.chunk bytes)
      rw [List.concat_eq_append] at hnext ⊢
      show carryAfter f.carry before = oddTail (bytesIn (nextStream f.streams (after' ++ [f.chunk bytes])) _)
      rw [hstream]
      exact h.carried before after' howed (hstream ▸ hnext)
  · intro c hc
    rcases List.mem_append.mp hc with hc | hc
    · exact h.begun c hc
    · rw [List.mem_singleton.mp hc]
      exact le_refl _

/-- What was pending is given up, and nothing more is said of its streams. -/
theorem InOrder.drop (h : f.InOrder done f.pending) : f.drop.InOrder (done ++ f.pending) [] := by
  refine ⟨?_, h.ordered.trans (List.sublist_append_left _ _), ?_, ?_, h.begun⟩
  · rw [List.append_nil]
    exact h.pushed
  · intro k hk
    obtain ⟨hbefore, hdropped⟩ := not_or.mp (mt List.mem_append.mpr hk)
    have hnone : bytesIn k f.pending = [] := by
      refine bytesIn_of_ne (fun c hc heq => hdropped ?_)
      exact List.mem_cons_of_mem _ (List.mem_map.mpr ⟨c, hc, heq⟩)
    rw [bytesIn_append, hnone, List.append_nil]
    exact h.decoded k hbefore
  · intro before after heq hnext
    obtain ⟨rfl, rfl⟩ := List.append_eq_nil_iff.mp heq.symm
    exact absurd (List.mem_append_right _ List.mem_cons_self) hnext

/-- A new stream begins without a byte of the old one. -/
theorem InOrder.beginStream (h : f.InOrder done f.pending)
    (hturn : f.pending = [] ∨ f.carry = none ∧ (f.pending.flatMap Chunk.bytes).length % 2 = 0) :
    f.beginStream.InOrder done f.pending := by
  have hbegun : ∀ c ∈ f.pushed, c.stream < f.streams + 1 := fun c hc => Nat.lt_succ_of_le (h.begun c hc)
  refine ⟨h.pushed, h.ordered, h.decoded, ?_, fun c hc => (hbegun c hc).le⟩
  intro before after heq hnext
  show carryAfter none before = oddTail (bytesIn (nextStream (f.streams + 1) after) _)
  cases after with
  | nil =>
      rw [List.append_nil] at heq
      have hnew : bytesIn (f.streams + 1) (done ++ before) = [] := by
        rw [← heq, ← h.pushed]
        exact bytesIn_of_ne (fun c hc => (hbegun c hc).ne)
      have heven : (before.flatMap Chunk.bytes).length % 2 = 0 := by
        rw [← heq]
        rcases hturn with hempty | ⟨-, heven⟩
        · rw [hempty]
          rfl
        · exact heven
      rw [nextStream, hnew, carryAfter_of_even heven]
      rfl
  | cons c after =>
      have hcarry : f.carry = none := by
        rcases hturn with hempty | ⟨hcarry, -⟩
        · rw [hempty] at heq
          exact absurd heq.symm (List.append_ne_nil_of_right_ne_nil _ (List.cons_ne_nil _ _))
        · exact hcarry
      rw [← hcarry]
      exact h.carried before (c :: after) heq hnext

/-- Nothing has been pushed, and nothing is carried. -/
theorem InOrder.of_nothing (hpushed : f.pushed = []) (hscheduled : f.scheduled = []) (hcarry : f.carry = none) :
    f.InOrder [] [] := by
  refine ⟨hpushed, ?_, ?_, ?_, hpushed ▸ List.forall_mem_nil _⟩
  · rw [hscheduled]
    exact List.Sublist.refl _
  · intro k _
    rw [hscheduled]
    rfl
  · intro before after heq _
    obtain ⟨rfl, rfl⟩ := List.append_eq_nil_iff.mp heq.symm
    rw [hcarry]
    rfl

theorem InOrder.clear (f : Feed) : f.clear.InOrder [] [] := InOrder.of_nothing rfl rfl rfl

end Feed

/-! ## Runs -/

namespace Speaker

variable {sp t : Speaker} {a : Act} {acts : List Act}

theorem feed_wait (sp : Speaker) (bytes : Bytes) :
    (sp.wait bytes).feed = { sp.feed.arrive bytes with pending := sp.pending ++ [sp.chunk bytes] } := by
  rw [← feed_arrive]
  rfl

theorem feed_play_act (sp : Speaker) (bytes : Bytes) (ctx : AudioContext) (performanceNow : ℚ) :
    (schedule ctx performanceNow (sp.arrive bytes) (sp.chunk bytes)).feed =
      (sp.feed.arrive bytes).schedule (sp.feed.chunk bytes) := by
  rw [feed_schedule, feed_arrive]
  rfl

theorem pending_or_of_inTurn (h : sp.inTurn .beginStream = true) :
    sp.pending = [] ∨ sp.carry = none ∧ (sp.pending.flatMap Chunk.bytes).length % 2 = 0 := by
  rcases Bool.or_eq_true_iff.mp h with hempty | hhalf
  · exact Or.inl (of_decide_eq_true hempty)
  · obtain ⟨hcarry, heven⟩ := Bool.or_eq_false_iff.mp ((Bool.not_eq_true' _).mp hhalf)
    have hne := of_decide_eq_false heven
    exact Or.inr ⟨Option.not_isSome_iff_eq_none.mp (by rw [hcarry]; exact Bool.false_ne_true), by omega⟩

theorem inOrder_act (h : sp.feed.InOrder done sp.pending) (hturn : sp.inTurn a = true) (ht : sp.act a = some t) :
    ∃ done, t.feed.InOrder done t.pending := by
  have hpending : ∀ t : Speaker, t.pending = t.feed.pending := fun _ => rfl
  rw [hpending]
  cases a with
  | wait bytes =>
      cases ht
      rw [feed_wait]
      exact ⟨done, (h.arrive bytes).withPending _⟩
  | play bytes ctx performanceNow =>
      cases ht
      have hempty : sp.pending = [] := of_decide_eq_true hturn
      have hleft : ((sp.feed.arrive bytes).schedule (sp.feed.chunk bytes)).pending = [] := hempty
      rw [hempty] at h
      rw [feed_play_act, hleft]
      exact ⟨_, (h.arrive bytes).schedule⟩
  | flush ctx performanceNow =>
      cases ht
      rw [feed_flushPending, Feed.pending_flushPending]
      exact ⟨_, Feed.InOrder.flushPending h⟩
  | drop =>
      cases ht
      rw [feed_drop]
      exact ⟨_, h.drop⟩
  | beginStream =>
      cases ht
      rw [feed_beginStream]
      exact ⟨done, h.beginStream (pending_or_of_inTurn hturn)⟩
  | clear =>
      cases ht
      rw [feed_clear]
      exact ⟨[], Feed.InOrder.clear _⟩
  | resetCount =>
      cases ht
      exact ⟨done, h⟩
  | ended id =>
      rw [feed_ended ht]
      exact ⟨done, h⟩
  | timeout id =>
      rw [feed_timeout ht]
      exact ⟨done, h⟩

theorem inOrder_new : ({} : Speaker).feed.InOrder [] [] := Feed.InOrder.of_nothing rfl rfl rfl

theorem inOrder_of_run (h : Run act (fun sp a => sp.inTurn a = true) {} acts sp) :
    ∃ done, sp.feed.InOrder done sp.pending :=
  h.invariant (I := fun sp => ∃ done, sp.feed.InOrder done sp.pending) ⟨[], inOrder_new⟩
    (fun ⟨_, hI⟩ hturn ht => inOrder_act hI hturn ht)

end Speaker

end Voxera.Web
