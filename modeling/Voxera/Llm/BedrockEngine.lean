import Voxera.EventLoop.Run
import Voxera.Text

/-!
# `BedrockStreamingLLMEngine`

The stream of the provider is read on a thread of its own, which hands the texts to the event loop with
`loop.call_soon_threadsafe`; the loop puts them into the queue that the generator reads. The thread, the loop and the generator take
their steps in any order.

* `Worker` : where the thread is; `Generator` : where the generator is;
* `Bedrock.step` : one step of one of the three; `Change` : what a step does;
* `streamed` : the texts that the stream gives, `streamed_of_run` : what becomes of them in the thread;
* `tokens_of_run` : the tokens are the texts of the stream, all of them where the generator ends by itself, and the generator is never
  left waiting;
* `stopped_of_run` : what the thread still does when the generator is gone.

`texts` and `put` are records that the source does not have and nothing reads.
-/

namespace Voxera.Llm

open EventLoop

/-- What the thread puts into the queue. -/
inductive QueueItem where
  | text (text : Text)
  | exception
  /-- `_DONE` -/
  | done
  deriving DecidableEq, Repr

def QueueItem.isText : QueueItem → Bool
  | .text _ => true
  | _ => false

def QueueItem.text? : QueueItem → Option Text
  | .text t => some t
  | _ => none

/-- `worker` -/
inductive Worker where
  /-- In `converse_stream`. -/
  | calling
  /-- In `for event in response["stream"]`. -/
  | reading
  /-- Past the check of `stop`, with an event that has a text or has none. -/
  | handing (text : Option Text)
  /-- In the `except` block. -/
  | excepting
  /-- In the `finally` block. -/
  | finishing
  | over
  deriving DecidableEq, Repr

/-- `stream` : in `queue.get()`, at its `yield`, or ended. -/
inductive Generator where
  | getting
  | yielding
  | returned
  | raised
  /-- It was cancelled or closed. -/
  | cancelled
  deriving DecidableEq, Repr

def Generator.ended : Generator → Bool
  | .getting | .yielding => false
  | _ => true

structure Bedrock where
  worker : Worker := .calling
  generator : Generator := .getting
  /-- The callbacks that the loop has yet to run. -/
  posted : List QueueItem := []
  queue : List QueueItem := []
  stop : Bool := false
  tokens : List Text := []
  texts : List Text := []
  put : List QueueItem := []
  deriving DecidableEq, Repr

inductive BedrockLabel where
  /-- `converse_stream` returns, or raises. -/
  | called (ok : Bool)
  /-- The next event of the stream, with the text of its delta. -/
  | event (text : Option Text)
  /-- The event is handed over. -/
  | handed
  /-- The stream ends, or raises; so it does when it has been closed. -/
  | streamEnded
  | streamRaised
  | excepted
  | finished
  /-- The loop runs a callback. -/
  | looped
  /-- `queue.get()` gives an item. -/
  | got
  /-- The consumer asks for the next token. -/
  | next
  /-- The task of the consumer is cancelled, or the generator is closed. -/
  | cancelled
  deriving DecidableEq, Repr

namespace Bedrock

/-- `loop.call_soon_threadsafe(queue.put_nowait, item)` -/
def post (b : Bedrock) (item : QueueItem) : Bedrock := { b with posted := b.posted ++ [item], put := b.put ++ [item] }

/-- The `finally` of the generator -/
def finish (b : Bedrock) (generator : Generator) : Bedrock := { b with generator, stop := true }

def step (b : Bedrock) : BedrockLabel → Option Bedrock
  | .called ok => if b.worker = .calling then some { b with worker := if ok then .reading else .excepting } else none
  | .event text =>
    if b.worker = .reading then
      some { b with worker := if b.stop then .finishing else .handing (text.filter (fun t => !t.isEmpty)) }
    else none
  | .handed =>
    match b.worker with
    | .handing none => some { b with worker := .reading }
    | .handing (some text) => some { b.post (.text text) with worker := .reading, texts := b.texts ++ [text] }
    | _ => none
  | .streamEnded => if b.worker = .reading then some { b with worker := .finishing } else none
  | .streamRaised => if b.worker = .reading then some { b with worker := .excepting } else none
  | .excepted => if b.worker = .excepting then some { b.post .exception with worker := .finishing } else none
  | .finished => if b.worker = .finishing then some { b.post .done with worker := .over } else none
  | .looped =>
    match b.posted with
    | [] => none
    | item :: posted => some { b with posted, queue := b.queue ++ [item] }
  | .got =>
    match b.generator, b.queue with
    | .getting, .text text :: queue => some { b with queue, generator := .yielding, tokens := b.tokens ++ [text] }
    | .getting, .exception :: queue => some ({ b with queue }.finish .raised)
    | .getting, .done :: queue => some ({ b with queue }.finish .returned)
    | _, _ => none
  | .next => if b.generator = .yielding then some { b with generator := .getting } else none
  | .cancelled => if b.generator.ended then none else some (b.finish .cancelled)

/-! ## What is put, and what is taken -/

/-- The last items that the thread has put. -/
inductive Tail : Worker → List QueueItem → Prop
  | calling : Tail .calling []
  | reading : Tail .reading []
  | handing (text : Option Text) : Tail (.handing text) []
  | excepting : Tail .excepting []
  | ended : Tail .finishing []
  | failed : Tail .finishing [.exception]
  | gone : Tail .over [.done]
  | goneFailed : Tail .over [.exception, .done]

/-- The item that has ended the generator. -/
inductive Last : Generator → List QueueItem → Prop
  | getting : Last .getting []
  | yielding : Last .yielding []
  | returned : Last .returned [.done]
  | raised : Last .raised [.exception]
  | cancelled : Last .cancelled []

structure Sound (b : Bedrock) : Prop where
  put : ∃ tail, Tail b.worker tail ∧ b.put = b.texts.map .text ++ tail
  taken : ∃ last, Last b.generator last ∧ b.put = b.tokens.map .text ++ (last ++ (b.queue ++ b.posted))
  stop : b.stop = b.generator.ended

variable {b b' : Bedrock}

theorem taken_post (h : ∃ last, Last b.generator last ∧ b.put = b.tokens.map .text ++ (last ++ (b.queue ++ b.posted)))
    (item : QueueItem) :
    ∃ last, Last b.generator last ∧
      (b.post item).put = b.tokens.map .text ++ (last ++ (b.queue ++ (b.post item).posted)) := by
  obtain ⟨last, hlast, hput⟩ := h
  refine ⟨last, hlast, ?_⟩
  show b.put ++ [item] = b.tokens.map .text ++ (last ++ (b.queue ++ (b.posted ++ [item])))
  rw [hput]
  simp only [List.append_assoc]

/-- The thread goes on with nothing in its hands, and puts nothing. -/
inductive Passes : Worker → Worker → Prop
  | called : Passes .calling .reading
  | failed : Passes .calling .excepting
  | skipped : Passes (.handing none) .reading
  | ended : Passes .reading .finishing
  | raised : Passes .reading .excepting

/-- What a step does. -/
inductive Change (b : Bedrock) : BedrockLabel → Bedrock → Prop
  | passed {l : BedrockLabel} {worker : Worker} (hl : ∀ text, l ≠ .event text) (hpass : Passes b.worker worker) :
      Change b l { b with worker }
  | stopped (hworker : b.worker = .reading) (hstop : b.stop = true) (text : Option Text) :
      Change b (.event text) { b with worker := .finishing }
  | event (hworker : b.worker = .reading) (hstop : b.stop = false) (text : Option Text) :
      Change b (.event text) { b with worker := .handing (text.filter (fun t => !t.isEmpty)) }
  | handed {text : Text} (hworker : b.worker = .handing (some text)) :
      Change b .handed { b.post (.text text) with worker := .reading, texts := b.texts ++ [text] }
  | excepted (hworker : b.worker = .excepting) : Change b .excepted { b.post .exception with worker := .finishing }
  | finished (hworker : b.worker = .finishing) : Change b .finished { b.post .done with worker := .over }
  | looped {item : QueueItem} {posted : List QueueItem} (hposted : b.posted = item :: posted) :
      Change b .looped { b with posted, queue := b.queue ++ [item] }
  | got {text : Text} {queue : List QueueItem} (hgen : b.generator = .getting) (hqueue : b.queue = .text text :: queue) :
      Change b .got { b with queue, generator := .yielding, tokens := b.tokens ++ [text] }
  | ended {item : QueueItem} {queue : List QueueItem} {generator : Generator} (hgen : b.generator = .getting)
      (hqueue : b.queue = item :: queue) (hlast : Last generator [item]) : Change b .got ({ b with queue }.finish generator)
  | next (hgen : b.generator = .yielding) : Change b .next { b with generator := .getting }
  | cancelled (hgen : b.generator.ended = false) : Change b .cancelled (b.finish .cancelled)

theorem change_of_step {l : BedrockLabel} (h : b.step l = some b') : Change b l b' := by
  cases l with
  | called ok =>
      simp only [Bedrock.step] at h
      split_ifs at h with hworker hok
      · cases h
        exact .passed nofun (hworker ▸ .called)
      · cases h
        exact .passed nofun (hworker ▸ .failed)
  | event text =>
      simp only [Bedrock.step] at h
      split_ifs at h with hworker hstop
      · cases h
        exact .stopped hworker hstop text
      · cases h
        exact .event hworker (Bool.not_eq_true _ ▸ hstop) text
  | handed =>
      simp only [Bedrock.step] at h
      split at h
      · rename_i hworker
        cases h
        exact .passed nofun (hworker ▸ .skipped)
      · rename_i text hworker
        cases h
        exact .handed hworker
      · cases h
  | streamEnded =>
      simp only [Bedrock.step] at h
      split_ifs at h with hworker
      cases h
      exact .passed nofun (hworker ▸ .ended)
  | streamRaised =>
      simp only [Bedrock.step] at h
      split_ifs at h with hworker
      cases h
      exact .passed nofun (hworker ▸ .raised)
  | excepted =>
      simp only [Bedrock.step] at h
      split_ifs at h with hworker
      cases h
      exact .excepted hworker
  | finished =>
      simp only [Bedrock.step] at h
      split_ifs at h with hworker
      cases h
      exact .finished hworker
  | looped =>
      simp only [Bedrock.step] at h
      split at h
      · cases h
      · rename_i item posted hposted
        cases h
        exact .looped hposted
  | got =>
      simp only [Bedrock.step] at h
      split at h
      · rename_i hgen hqueue
        cases h
        exact .got hgen hqueue
      · rename_i hgen hqueue
        cases h
        exact .ended hgen hqueue .raised
      · rename_i hgen hqueue
        cases h
        exact .ended hgen hqueue .returned
      · cases h
  | next =>
      simp only [Bedrock.step] at h
      split_ifs at h with hgen
      cases h
      exact .next hgen
  | cancelled =>
      simp only [Bedrock.step] at h
      split_ifs at h with hgen
      cases h
      exact .cancelled (Bool.not_eq_true _ ▸ hgen)

theorem Passes.tail {w w' : Worker} (h : Passes w w') {tail : List QueueItem} (ht : Tail w tail) : Tail w' tail := by
  cases h <;> cases ht
  · exact .reading
  · exact .excepting
  · exact .reading
  · exact .ended
  · exact .excepting

theorem Sound.change {l : BedrockLabel} (h : b.Sound) (hchange : Change b l b') : b'.Sound := by
  obtain ⟨tail, ht, hput⟩ := h.put
  obtain ⟨last, hlast, htaken⟩ := h.taken
  cases hchange with
  | passed hl hpass => exact ⟨⟨tail, hpass.tail ht, hput⟩, h.taken, h.stop⟩
  | stopped hworker hstop text =>
      rw [hworker] at ht
      cases ht
      exact ⟨⟨[], .ended, hput⟩, h.taken, h.stop⟩
  | event hworker hstop text =>
      rw [hworker] at ht
      cases ht
      exact ⟨⟨[], .handing _, hput⟩, h.taken, h.stop⟩
  | @handed text hworker =>
      rw [hworker] at ht
      cases ht
      refine ⟨⟨[], .reading, ?_⟩, taken_post h.taken (.text text), h.stop⟩
      show b.put ++ [.text text] = (b.texts ++ [text]).map .text ++ []
      rw [hput, List.map_append]
      simp
  | excepted hworker =>
      rw [hworker] at ht
      cases ht
      refine ⟨⟨[.exception], .failed, ?_⟩, taken_post h.taken .exception, h.stop⟩
      show b.put ++ [.exception] = b.texts.map .text ++ [.exception]
      rw [hput, List.append_nil]
  | finished hworker =>
      rw [hworker] at ht
      refine ⟨⟨tail ++ [.done], ?_, ?_⟩, taken_post h.taken .done, h.stop⟩
      · cases ht
        · exact .gone
        · exact .goneFailed
      · show b.put ++ [.done] = b.texts.map .text ++ (tail ++ [.done])
        rw [hput, List.append_assoc]
  | @looped item posted hposted =>
      refine ⟨h.put, ⟨last, hlast, ?_⟩, h.stop⟩
      show b.put = b.tokens.map .text ++ (last ++ ((b.queue ++ [item]) ++ posted))
      rw [htaken, hposted, List.append_cons]
  | @got text queue hgen hqueue =>
      rw [hgen] at hlast
      cases hlast
      refine ⟨h.put, ⟨[], .yielding, ?_⟩, h.stop.trans (by rw [hgen]; rfl)⟩
      show b.put = (b.tokens ++ [text]).map .text ++ ([] ++ (queue ++ b.posted))
      rw [htaken, hqueue, List.map_append]
      simp
  | @ended item queue generator hgen hqueue hend =>
      rw [hgen] at hlast
      cases hlast
      refine ⟨h.put, ⟨[item], hend, ?_⟩, ?_⟩
      · show b.put = b.tokens.map .text ++ ([item] ++ (queue ++ b.posted))
        rw [htaken, hqueue]
        rfl
      · cases hend <;> rfl
  | next hgen =>
      rw [hgen] at hlast
      cases hlast
      exact ⟨h.put, ⟨[], .getting, htaken⟩, h.stop.trans (by rw [hgen]; rfl)⟩
  | cancelled hgen =>
      have hnil : last = [] := by
        generalize b.generator = generator at hlast hgen
        cases hlast <;> first | rfl | cases hgen
      refine ⟨h.put, ⟨[], .cancelled, ?_⟩, rfl⟩
      show b.put = b.tokens.map .text ++ ([] ++ (b.queue ++ b.posted))
      rw [htaken, hnil]

theorem sound_of_run {ls : List BedrockLabel} (h : Run step (fun _ _ => True) {} ls b) : b.Sound :=
  h.invariant ⟨⟨[], .calling, rfl⟩, ⟨[], .getting, rfl⟩, rfl⟩ (fun hs _ hb' => hs.change (change_of_step hb'))

/-! ## The texts of the stream -/

/-- The first item that is no text divides a list in one way only. -/
theorem map_text_append {texts texts' : List Text} {item item' : QueueItem} {rest rest' : List QueueItem}
    (hitem : item.isText = false) (hitem' : item'.isText = false)
    (h : texts.map .text ++ item :: rest = texts'.map .text ++ item' :: rest') : texts = texts' ∧ item = item' ∧ rest = rest' := by
  induction texts generalizing texts' with
  | nil =>
      cases texts' with
      | nil => exact ⟨rfl, (List.cons.inj h).1, (List.cons.inj h).2⟩
      | cons text' texts' =>
          obtain rfl : item = .text text' := (List.cons.inj h).1
          cases hitem
  | cons text texts ih =>
      cases texts' with
      | nil =>
          obtain rfl : .text text = item' := (List.cons.inj h).1
          cases hitem'
      | cons text' texts' =>
          obtain ⟨htext, hrest⟩ := List.cons.inj h
          obtain ⟨rfl, hitems⟩ := ih hrest
          cases htext
          exact ⟨rfl, hitems⟩

theorem not_mem_map_text {texts : List Text} {item : QueueItem} (hitem : item.isText = false) : item ∉ texts.map .text := by
  rintro hmem
  obtain ⟨text, -, rfl⟩ := List.mem_map.mp hmem
  cases hitem

/-- The generator has taken an item that is no text: it has yielded every text that was put. -/
theorem Sound.of_taken (h : b.Sound) {item : QueueItem} {rest : List QueueItem} (hitem : item.isText = false)
    (hput : b.put = b.tokens.map .text ++ item :: rest) :
    b.tokens = b.texts ∧ ∃ tail, Tail b.worker (item :: tail) := by
  obtain ⟨tail, htail, htexts⟩ := h.put
  cases tail with
  | nil =>
      rw [htexts, List.append_nil] at hput
      exact absurd (hput ▸ List.mem_append_right _ List.mem_cons_self) (not_mem_map_text hitem)
  | cons first tail =>
      have hfirst : first.isText = false := by
        generalize b.worker = worker at htail
        cases htail <;> rfl
      obtain ⟨hsame, rfl, -⟩ := map_text_append hitem hfirst (hput.symm.trans htexts)
      exact ⟨hsame, tail, htail⟩

/-- The text that the thread has in its hands. -/
def inHand (b : Bedrock) : List Text :=
  match b.worker with
  | .handing text => text.toList
  | _ => []

/-- The text of an event, if it has one. -/
def eventText? : BedrockLabel → Option Text
  | .event text => text.filter (fun t => !t.isEmpty)
  | _ => none

/-- The texts of the events that the stream has given. -/
def streamed (ls : List BedrockLabel) : List Text := ls.filterMap eventText?

/-- The thread has stopped at an event, with the text of it. -/
def StoppedAt (b : Bedrock) (lost : List Text) : Prop :=
  lost = [] ∨ lost.length = 1 ∧ b.generator = .cancelled ∧ (b.worker = .finishing ∨ b.worker = .over)

/-- While the thread reads, only a cancellation can have stopped it. -/
theorem Sound.cancelled_of_reading (h : b.Sound) (hworker : b.worker = .reading) (hstop : b.stop = true) :
    b.generator = .cancelled := by
  obtain ⟨last, hlast, hput⟩ := h.taken
  have hended : b.generator.ended = true := h.stop.symm.trans hstop
  have hnot : ∀ {item : QueueItem} {rest : List QueueItem}, item.isText = false → b.put = b.tokens.map .text ++ item :: rest → False := by
    intro item rest hitem hput'
    obtain ⟨-, tail, htail⟩ := h.of_taken hitem hput'
    rw [hworker] at htail
    cases htail
  generalize hgen : b.generator = generator at hlast hended
  cases hlast with
  | getting => cases hended
  | yielding => cases hended
  | returned => exact absurd hput (hnot rfl)
  | raised => exact absurd hput (hnot rfl)
  | cancelled => rfl

theorem Passes.not_stopped {w w' : Worker} (h : Passes w w') : ¬ (w = .finishing ∨ w = .over) := by cases h <;> simp

theorem Passes.inHand_eq {worker : Worker} (h : Passes b.worker worker) : b.inHand = [] ∧ ({ b with worker } : Bedrock).inHand = [] := by
  unfold inHand
  generalize b.worker = before at h
  cases h <;> exact ⟨rfl, rfl⟩

/-- What a step adds to the texts. -/
theorem streamed_of_change {l : BedrockLabel} {lost : List Text} (h : b.Sound) (hlost : b.StoppedAt lost) (hchange : Change b l b') :
    ∃ lost', b'.StoppedAt lost' ∧ b.texts ++ b.inHand ++ lost ++ (eventText? l).toList = b'.texts ++ b'.inHand ++ lost' := by
  have hnone : ¬ (b.worker = .finishing ∨ b.worker = .over) → lost = [] :=
    fun hreading => hlost.resolve_right (fun hstopped => hreading hstopped.2.2)
  cases hchange with
  | @passed l worker hl hpass =>
      have htext : eventText? l = none := by
        unfold eventText?
        split
        · exact absurd rfl (hl _)
        · rfl
      obtain ⟨hbefore, hafter⟩ := hpass.inHand_eq
      refine ⟨[], Or.inl rfl, ?_⟩
      rw [hbefore, hafter, hnone hpass.not_stopped, htext]
      simp
  | stopped hworker hstop text =>
      rw [hnone (by rw [hworker]; simp)]
      refine ⟨(eventText? (.event text)).toList, ?_, by simp [inHand, hworker]⟩
      cases htext : eventText? (.event text) with
      | none => exact Or.inl rfl
      | some t => exact Or.inr ⟨rfl, h.cancelled_of_reading hworker hstop, Or.inl rfl⟩
  | event hworker hstop text =>
      refine ⟨[], Or.inl rfl, ?_⟩
      rw [hnone (by rw [hworker]; simp)]
      simp [inHand, hworker, eventText?]
  | handed hworker =>
      refine ⟨[], Or.inl rfl, ?_⟩
      rw [hnone (by rw [hworker]; simp)]
      simp [inHand, hworker, eventText?]
  | excepted hworker =>
      refine ⟨[], Or.inl rfl, ?_⟩
      rw [hnone (by rw [hworker]; simp)]
      simp [inHand, hworker, eventText?, post]
  | finished hworker =>
      refine ⟨lost, hlost.imp_right (fun ⟨hone, hgen, _⟩ => ⟨hone, hgen, Or.inr rfl⟩), ?_⟩
      simp [inHand, hworker, eventText?, post]
  | looped hposted => exact ⟨lost, hlost, by simp [inHand, eventText?]⟩
  | got hgen hqueue =>
      refine ⟨lost, hlost.imp_right (fun ⟨_, hcancelled, _⟩ => nomatch hgen.symm.trans hcancelled), ?_⟩
      simp [inHand, eventText?]
  | ended hgen hqueue hend =>
      refine ⟨lost, hlost.imp_right (fun ⟨_, hcancelled, _⟩ => nomatch hgen.symm.trans hcancelled), ?_⟩
      simp [inHand, eventText?, finish]
  | next hgen =>
      refine ⟨lost, hlost.imp_right (fun ⟨_, hcancelled, _⟩ => nomatch hgen.symm.trans hcancelled), ?_⟩
      simp [inHand, eventText?]
  | cancelled hgen =>
      refine ⟨lost, hlost.imp_right (fun ⟨hone, hcancelled, hover⟩ => ?_), by simp [inHand, eventText?, finish]⟩
      exact ⟨hone, rfl, hover⟩

/-- What the stream has given is what the thread has handed over, what it has in its hands, and where it was stopped one text
more at most. -/
theorem streamed_of_run {ls : List BedrockLabel} (h : Run step (fun _ _ => True) {} ls b) :
    ∃ lost, b.StoppedAt lost ∧ streamed ls = b.texts ++ b.inHand ++ lost := by
  have hinv : b.Sound ∧ ∃ lost, b.StoppedAt lost ∧ streamed ls = b.texts ++ b.inHand ++ lost := by
    refine h.invariant₂ (I := fun ls (b : Bedrock) =>
      b.Sound ∧ ∃ lost, b.StoppedAt lost ∧ streamed ls = b.texts ++ b.inHand ++ lost) ⟨sound_of_run .nil, [], Or.inl rfl, rfl⟩ ?_
    rintro ls b b' l ⟨hs, lost, hlost, hstream⟩ - hb'
    have hchange := change_of_step hb'
    obtain ⟨lost', hlost', heq⟩ := streamed_of_change hs hlost hchange
    refine ⟨hs.change hchange, lost', hlost', ?_⟩
    rw [← heq, ← hstream, streamed, streamed, List.filterMap_append]
    cases htext : eventText? l <;> simp [htext]
  exact hinv.2

/-! ## What holds in every run -/

theorem filterMap_map_text (texts : List Text) : (texts.map .text).filterMap QueueItem.text? = texts := by
  rw [List.filterMap_map]
  exact List.filterMap_some

theorem Sound.tokens_prefix (h : b.Sound) : b.tokens <+: b.texts := by
  obtain ⟨last, -, hput⟩ := h.taken
  obtain ⟨tail, htail, htexts⟩ := h.put
  have hfilter := congrArg (List.filterMap QueueItem.text?) (htexts.symm.trans hput)
  have hnone : tail.filterMap QueueItem.text? = [] := by
    generalize b.worker = worker at htail
    cases htail <;> rfl
  rw [List.filterMap_append, List.filterMap_append, filterMap_map_text, filterMap_map_text, hnone, List.append_nil] at hfilter
  exact hfilter ▸ List.prefix_append _ _

theorem Sound.returned (h : b.Sound) (hgen : b.generator = .returned) :
    b.tokens = b.texts ∧ b.worker = .over ∧ .exception ∉ b.put := by
  obtain ⟨last, hlast, hput⟩ := h.taken
  rw [hgen] at hlast
  cases hlast
  obtain ⟨hsame, tail, htail⟩ := h.of_taken rfl hput
  have hlate : b.worker = .over ∧ tail = [] := by
    generalize b.worker = worker at htail
    cases htail
    exact ⟨rfl, rfl⟩
  obtain ⟨last', htail', htexts⟩ := h.put
  refine ⟨hsame, hlate.1, fun hmem => ?_⟩
  rw [htexts] at hmem
  have hexception := (List.mem_append.mp hmem).resolve_left (not_mem_map_text rfl)
  rw [hlate.1] at htail'
  cases htail' with
  | gone => exact absurd hexception (by decide)
  | goneFailed =>
      rw [htexts] at hput
      cases (map_text_append rfl rfl hput).2.1

theorem Sound.raised (h : b.Sound) (hgen : b.generator = .raised) :
    b.tokens = b.texts ∧ (b.worker = .finishing ∨ b.worker = .over) ∧ .exception ∈ b.put := by
  obtain ⟨last, hlast, hput⟩ := h.taken
  rw [hgen] at hlast
  cases hlast
  obtain ⟨hsame, tail, htail⟩ := h.of_taken rfl hput
  refine ⟨hsame, ?_, ?_⟩
  · generalize b.worker = worker at htail
    cases htail
    · exact Or.inl rfl
    · exact Or.inr rfl
  · rw [hput]
    exact List.mem_append_right _ List.mem_cons_self

/-- While the generator waits, the end of the thread is still to come. -/
theorem Sound.waiting (h : b.Sound) (hgen : b.generator = .getting) (hworker : b.worker = .over) : .done ∈ b.queue ++ b.posted := by
  obtain ⟨last, hlast, hput⟩ := h.taken
  obtain ⟨tail, htail, htexts⟩ := h.put
  rw [hgen] at hlast
  cases hlast
  rw [hworker] at htail
  have hdone : .done ∈ b.put := by
    rw [htexts]
    cases htail <;> simp
  rw [hput, List.nil_append] at hdone
  exact (List.mem_append.mp hdone).resolve_left (not_mem_map_text rfl)

/-- A generator that has ended by itself has taken everything. -/
theorem Sound.all_taken (h : b.Sound) (hgen : b.generator = .returned ∨ b.generator = .raised) :
    b.tokens = b.texts ∧ b.inHand = [] := by
  obtain ⟨last, hlast, hput⟩ := h.taken
  have hend : ∃ item, item.isText = false ∧ last = [item] := by
    generalize b.generator = generator at hlast hgen
    cases hlast with
    | returned => exact ⟨_, rfl, rfl⟩
    | raised => exact ⟨_, rfl, rfl⟩
    | _ => exact hgen.elim nofun nofun
  obtain ⟨item, hitem, rfl⟩ := hend
  obtain ⟨hsame, tail, htail⟩ := h.of_taken hitem hput
  refine ⟨hsame, ?_⟩
  unfold inHand
  generalize b.worker = worker at htail
  cases htail <;> rfl

/-- **The tokens** in every run: they are the texts of the stream, from the first one on and in their order; where the generator
ends by itself they are all of them, and it raises only behind the last one, when the stream or the call has raised; while it
waits and the thread is over, there is an item for it; and of what the stream has given, the thread has handed over everything but
a text in its hands and, after a cancellation, the one that it was stopped at. -/
theorem tokens_of_run {ls : List BedrockLabel} (h : Run step (fun _ _ => True) {} ls b) :
    b.tokens <+: b.texts ∧
    (b.generator = .returned → b.tokens = b.texts ∧ b.worker = .over ∧ .exception ∉ b.put) ∧
    (b.generator = .raised → b.tokens = b.texts ∧ (b.worker = .finishing ∨ b.worker = .over) ∧ .exception ∈ b.put) ∧
    (b.generator = .getting → b.worker = .over → .done ∈ b.queue ++ b.posted) ∧
    ∃ lost, streamed ls = b.texts ++ b.inHand ++ lost ∧ lost.length ≤ 1 ∧ (b.generator ≠ .cancelled → lost = []) ∧
      (b.generator = .returned ∨ b.generator = .raised → b.tokens = streamed ls) := by
  have hs := sound_of_run h
  obtain ⟨lost, hlost, hstream⟩ := streamed_of_run h
  have hnil : b.generator ≠ .cancelled → lost = [] :=
    fun hne => hlost.resolve_right (fun hcancelled => hne hcancelled.2.1)
  refine ⟨hs.tokens_prefix, hs.returned, hs.raised, hs.waiting, lost, hstream, ?_, hnil, fun hgen => ?_⟩
  · rcases hlost with rfl | ⟨hone, -⟩
    · exact Nat.zero_le _
    · exact hone.le
  · have hne : b.generator ≠ .cancelled := by
      intro hcancelled
      rw [hcancelled] at hgen
      exact hgen.elim nofun nofun
    obtain ⟨htokens, hempty⟩ := hs.all_taken hgen
    rw [hstream, hnil hne, hempty, htokens, List.append_nil, List.append_nil]

/-- The stream fails behind its second text. -/
def failedStream : List BedrockLabel :=
  [.called true, .event (some "Hel".toList), .handed, .event none, .handed, .event (some "lo".toList), .looped, .handed, .got,
    .streamRaised, .excepted, .next, .looped, .got, .next, .looped, .finished, .got]

theorem tokens_of_run_failedStream : ∃ b, Run step (fun _ _ => True) {} failedStream b ∧ b.generator = .raised ∧
    b.tokens = b.texts ∧ b.tokens = ["Hel".toList, "lo".toList] := by
  obtain ⟨b, hrun, hend⟩ := Run.exists_of_exec
    (P := fun b : Bedrock => decide (b.generator = .raised)) (s := ({} : Bedrock))
    (show (exec step (fun _ _ => True) _ failedStream).any _ = true by decide +kernel)
  have hgen := of_decide_eq_true hend
  obtain ⟨-, -, hraised, -, lost, -, -, -, hall⟩ := tokens_of_run hrun
  exact ⟨b, hrun, hgen, (hraised hgen).1, (hall (Or.inr hgen)).trans (by decide +kernel)⟩

/-! ## The thread behind a generator that has ended -/

/-- The generator has ended, and the thread takes no other text. -/
structure Stopped (b t : Bedrock) : Prop where
  ended : t.generator.ended = true
  stop : t.stop = true
  generator : t.generator = b.generator
  tokens : t.tokens = b.tokens
  texts : t.texts ++ t.inHand = b.texts ++ b.inHand

theorem Stopped.change {t u : Bedrock} {l : BedrockLabel} (h : Stopped b t) (hchange : Change t l u) : Stopped b u := by
  have hended := h.ended
  have hkeep : ∀ {u : Bedrock}, u.generator = t.generator → u.stop = t.stop → u.tokens = t.tokens →
      u.texts ++ u.inHand = t.texts ++ t.inHand → Stopped b u :=
    fun hgen hstop htokens htexts => ⟨hgen ▸ h.ended, hstop.trans h.stop, hgen.trans h.generator, htokens.trans h.tokens,
      htexts.trans h.texts⟩
  cases hchange with
  | passed hl hpass =>
      obtain ⟨hbefore, hafter⟩ := hpass.inHand_eq
      exact hkeep rfl rfl rfl (congrArg (t.texts ++ ·) (hafter.trans hbefore.symm))
  | stopped hworker hstop text => exact hkeep rfl rfl rfl (by simp [inHand, hworker])
  | event hworker hstop text => cases h.stop.symm.trans hstop
  | handed hworker => exact hkeep rfl rfl rfl (by simp [inHand, hworker])
  | excepted hworker => exact hkeep rfl rfl rfl (by simp [inHand, hworker, post])
  | finished hworker => exact hkeep rfl rfl rfl (by simp [inHand, hworker, post])
  | looped hposted => exact hkeep rfl rfl rfl rfl
  | got hgen hqueue =>
      rw [hgen] at hended
      cases hended
  | ended hgen hqueue hend =>
      rw [hgen] at hended
      cases hended
  | next hgen =>
      rw [hgen] at hended
      cases hended
  | cancelled hgen => cases hended.symm.trans hgen

/-- **Behind the end** of the generator, however it has ended: no token is yielded any more, and of the stream the thread hands over
the text that it has in its hands, if it has one, and no other. -/
theorem stopped_of_run {ls more : List BedrockLabel} {t : Bedrock} (h : Run step (fun _ _ => True) {} ls b)
    (hended : b.generator.ended = true) (h' : Run step (fun _ _ => True) b more t) :
    t.generator = b.generator ∧ t.tokens = b.tokens ∧ t.texts ++ t.inHand = b.texts ++ b.inHand := by
  have hstop : b.stop = true := (sound_of_run h).stop.trans hended
  have hstopped : Stopped b t :=
    h'.invariant (I := Stopped b) ⟨hended, hstop, rfl, rfl, rfl⟩ (fun ht _ hu => ht.change (change_of_step hu))
  exact ⟨hstopped.generator, hstopped.tokens, hstopped.texts⟩

/-- The user interrupts while the thread has a text in its hands. -/
def interruptedStream : List BedrockLabel :=
  [.called true, .event (some "Hel".toList), .handed, .looped, .got, .event (some "lo".toList), .cancelled]

theorem stopped_of_run_interruptedStream : ∃ b t : Bedrock, Run step (fun _ _ => True) {} interruptedStream b ∧
    Run step (fun _ _ => True) b [.handed, .looped, .event (some "!".toList), .finished, .looped] t ∧
    t.texts = ["Hel".toList, "lo".toList] ∧ t.tokens = ["Hel".toList] := by
  obtain ⟨b, hrun, hend⟩ := Run.exists_of_exec
    (P := fun b : Bedrock => decide (b.generator.ended = true ∧ b.texts = ["Hel".toList] ∧ b.inHand = ["lo".toList] ∧
      b.tokens = ["Hel".toList]) && (exec step (fun _ _ => True) b [.handed, .looped, .event (some "!".toList), .finished,
        .looped]).any (fun t : Bedrock => decide (t.inHand = []))) (s := ({} : Bedrock))
    (show (exec step (fun _ _ => True) _ interruptedStream).any _ = true by decide +kernel)
  obtain ⟨hstate, hmore⟩ := Bool.and_eq_true_iff.mp hend
  obtain ⟨hended, htexts, hinHand, htokens⟩ := of_decide_eq_true hstate
  obtain ⟨t, hrun', hempty⟩ := Run.exists_of_exec hmore
  obtain ⟨-, hsame, hall⟩ := stopped_of_run hrun hended hrun'
  refine ⟨b, t, hrun, hrun', ?_, hsame.trans htokens⟩
  rw [of_decide_eq_true hempty, htexts, hinHand, List.append_nil] at hall
  exact hall

end Bedrock

end Voxera.Llm
