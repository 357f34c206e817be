import Voxera.Generation
import Voxera.Web.Turns

/-!
# A reply from the generation to its bubble

* `texts` : the texts of the messages that a generation has sent;
* `Mirrored` : each is a beginning of what was generated, and the last one is all of it; kept by every step of a generation;
* `shown_as_generated` : so the bubble of the page shows a beginning of what was generated, and all of it once all messages
  have come.
-/

namespace Voxera.Llm

open EventLoop

/-- The text of the reply that a message carries. -/
def Message.text? : Message → Option Text
  | .llmPartial _ _ accumulated => some accumulated
  | .llmFinal text | .llmCancelled text => some text
  | .error => none

/-- A call of `send_json` and its message. -/
def Event.sending? : Event → Option Message
  | .sending message => some message
  | _ => none

/-- The messages of a generation. -/
def messages (log : List Event) : List Message := log.filterMap Event.sending?

def texts (log : List Event) : List Text := (messages log).filterMap Message.text?

@[simp] theorem texts_append (log es : List Event) : texts (log ++ es) = texts log ++ texts es := by
  simp [texts, messages]

/-- What was sent of a text. -/
structure Mirrored (g : Gen) (log : List Event) : Prop where
  received : received log = g.text
  last : (texts log).getLast?.getD [] = g.text
  begins : ∀ text ∈ texts log, text <+: g.text

namespace Mirrored

variable {g g' : Gen} {log es : List Event}

/-- Nothing is received, and what is sent is the text. -/
theorem same (h : Mirrored g log) (htext : g'.text = g.text) (hreceived : Llm.received es = [])
    (htexts : ∀ text ∈ texts es, text = g.text) : Mirrored g' (log ++ es) := by
  refine ⟨?_, ?_, ?_⟩
  · rw [received_append, h.received, hreceived, htext, List.append_nil]
  · rw [texts_append, htext]
    rcases List.eq_nil_or_concat (texts es) with hnone | ⟨front, text, hes⟩
    · rw [hnone, List.append_nil, h.last]
    · have hlast := htexts text (by simp [hes])
      rw [hes, List.concat_eq_append, ← List.append_assoc, List.getLast?_concat, hlast]
      rfl
  · intro text hmem
    rw [texts_append] at hmem
    rw [htext]
    rcases List.mem_append.mp hmem with hmem | hmem
    · exact h.begins text hmem
    · exact (htexts text hmem).symm ▸ List.prefix_refl text

/-- A token is received and the text up to it is sent. -/
theorem token (h : Mirrored g log) (token : Text) (htext : g'.text = g.text ++ token) (hreceived : Llm.received es = token)
    (htexts : texts es = [g'.text]) : Mirrored g' (log ++ es) := by
  refine ⟨?_, ?_, ?_⟩
  · rw [received_append, h.received, hreceived, htext]
  · rw [texts_append, htexts, List.getLast?_concat]
    rfl
  · intro text hmem
    rw [texts_append, htexts] at hmem
    rcases List.mem_append.mp hmem with hmem | hmem
    · exact (h.begins text hmem).trans (htext ▸ List.prefix_append _ _)
    · exact List.mem_singleton.mp hmem ▸ List.prefix_refl text

end Mirrored

/-- The calls that a generation makes next send its text. -/
theorem Gen.go_sends (g : Gen) (next : Next Unit) : received (g.go next).2 = [] ∧ ∀ text ∈ texts (g.go next).2, text = g.text := by
  have hsuspend : ∀ pc, received (g.suspend pc).2 = [] ∧ ∀ text ∈ texts (g.suspend pc).2, text = g.text := by
    intro pc
    cases pc <;> simp [suspend, calls, received, texts, messages, Event.token?, Event.sending?, Message.text?]
  cases next with
  | await pc => exact hsuspend pc
  | segments segments flushed =>
      cases segments with
      | nil => exact hsuspend _
      | cons segment rest => simp [go, received, texts, messages, Event.token?, Event.sending?]
  | complete outcome => simp [go, received, texts, messages, Event.token?, Event.sending?]
  | ended => simp [go, received, texts, messages]

/-- What has come back is no call. -/
theorem Gen.texts_returned (g : Gen) (pc : Pc Unit) (w : Wake Item) : texts (g.returned pc w) = [] := by
  have hsent : ∀ ms : List Message, texts (ms.map .sent) = [] := by
    intro ms
    simp [texts, messages, Event.sending?]
  unfold returned
  split
  · rfl
  · rfl
  · exact hsent _
  · rfl

theorem mirrored_resume {g : Gen} {log : List Event} (h : Mirrored g log) (pc : Pc Unit) (w : Wake Item) :
    Mirrored (g.resume pc w).1 (log ++ (g.returned pc w ++ ((g.resume pc w).1.go (g.resume pc w).2).2)) := by
  obtain ⟨hgo, hsends⟩ := (g.resume pc w).1.go_sends (g.resume pc w).2
  have hcases : (∃ token index, pc = .engineNext ∧ w = .ok (.token token index)) ∨
      (g.resume pc w).1.text = g.text ∧ received (g.returned pc w) = [] := by
    have hsent : ∀ ms : List Message, received (ms.map .sent) = [] := by
      intro ms
      simp [received, Event.token?]
    cases pc with
    | engineNext =>
        cases w with
        | ok item =>
            cases item with
            | token token index => exact Or.inl ⟨token, index, rfl, rfl⟩
            | none => exact Or.inr ⟨rfl, rfl⟩
            | other => exact Or.inr ⟨rfl, hsent _⟩
        | raised => exact Or.inr ⟨rfl, rfl⟩
        | cancelled => exact Or.inr ⟨rfl, rfl⟩
    | _ => cases w <;> exact Or.inr ⟨rfl, rfl⟩
  rcases hcases with ⟨token, index, rfl, rfl⟩ | ⟨htext, hreturned⟩
  · refine h.token token (g.text_concat token) ?_ ?_
    · rw [received_append, hgo, List.append_nil]
      simp [Gen.returned, received, Event.token?]
    · rfl
  · refine h.same htext ?_ ?_
    · rw [received_append, hreturned, hgo]
      rfl
    · intro text hmem
      rw [texts_append, Gen.texts_returned, List.nil_append] at hmem
      rw [hsends text hmem, htext]

section Runs

variable {s t : Generations} {ls : List Label} {l : Label} {ok : Generations → Label → Prop}

/-- What a step leaves of a generation: all, or nothing yet, or its own step. -/
theorem mirrored_step (hfresh : s.Unstarted) (h : ∀ n, Mirrored (s.llm.gen n) (s.log n)) (hstep : step s l = some t) (n : Nat) :
    Mirrored (t.llm.gen n) (t.log n) := by
  cases l with
  | start prompt utteranceId history =>
      cases hstep
      by_cases hn : n = s.llm.count
      · subst hn
        have hgen : (s.llm.startGeneration prompt utteranceId history).gen s.llm.count = { prompt, utteranceId, history } :=
          Function.update_self ..
        show Mirrored ((s.llm.startGeneration prompt utteranceId history).gen s.llm.count) (s.log s.llm.count)
        rw [hgen, (hfresh _ le_rfl).2]
        exact ⟨rfl, rfl, nofun⟩
      · have hgen : (s.llm.startGeneration prompt utteranceId history).gen n = s.llm.gen n := Function.update_of_ne hn _ _
        show Mirrored ((s.llm.startGeneration prompt utteranceId history).gen n) (s.log n)
        rw [hgen]
        exact h n
  | cancel =>
      cases hstep
      show Mirrored (s.llm.cancel.gen n) (s.log n)
      rw [s.llm.cancel_gen]
      exact h n
  | aclose =>
      cases hstep
      unfold Generations.aclose
      split
      · show Mirrored (s.llm.cancel.gen n) (s.log n)
        rw [s.llm.cancel_gen]
        exact h n
      · exact h n
  | closed m =>
      simp only [step, Option.ite_none_right_eq_some, Option.some.injEq] at hstep
      obtain ⟨-, rfl⟩ := hstep
      exact h n
  | closeCancelled m =>
      simp only [step, Option.ite_none_right_eq_some, Option.some.injEq] at hstep
      obtain ⟨-, rfl⟩ := hstep
      exact h n
  | generation m w =>
      unfold step Generations.resumeGeneration at hstep
      dsimp only at hstep
      split at hstep
      · cases hstep
      · rename_i pc cancelling hpc
        simp only [Option.ite_none_right_eq_some, Option.some.injEq] at hstep
        obtain ⟨-, rfl⟩ := hstep
        by_cases hn : n = m
        · subst hn
          simp only [Function.update_self, List.append_assoc]
          exact mirrored_resume (h n) pc w
        · simp only [Function.update_of_ne hn]
          exact h n

theorem mirrored_of_run (h : Run step ok {} ls s) (n : Nat) : Mirrored (s.llm.gen n) (s.log n) := by
  have hall : s.Unstarted ∧ ∀ n, Mirrored (s.llm.gen n) (s.log n) :=
    h.invariant (I := fun s => s.Unstarted ∧ ∀ n, Mirrored (s.llm.gen n) (s.log n))
      ⟨fun _ _ => ⟨rfl, rfl⟩, fun _ => ⟨rfl, rfl, nofun⟩⟩
      (fun hI _ hstep => ⟨hI.1.step hstep, fun n => mirrored_step hI.1 hI.2 hstep n⟩)
  exact hall.2 n

end Runs

end Voxera.Llm

namespace Voxera.Web

open EventLoop

/-- What the page makes of a message of a generation. -/
def patch? : Llm.Message → Option Patch
  | .llmPartial _ _ accumulated => some (.token accumulated)
  | .llmFinal text => some (.final text)
  | .llmCancelled text => some (.cancelled text)
  | .error => none

/-- The messages of a generation that change its bubble. -/
def patches (log : List Llm.Event) : List Patch := (Llm.messages log).filterMap patch?

def Patch.text : Patch → Text
  | .token text | .final text | .cancelled text => text

theorem map_text_patches (log : List Llm.Event) : (patches log).map Patch.text = Llm.texts log := by
  unfold patches Llm.texts
  rw [List.map_filterMap]
  refine List.filterMap_congr (fun message _ => ?_)
  cases message <;> rfl

theorem text_apply (patch : Patch) (t : Turn) : (patch.apply t).text = patch.text := by cases patch <;> rfl

/-- A bubble shows the text that came last. -/
theorem text_bubble {u : Text} {entries : List (Patch × ℕ)} {t : Turn} (h : bubble u entries = some t) :
    ((entries.map Prod.fst).map Patch.text).getLast? = some t.text := by
  induction entries using List.reverseRecOn generalizing t with
  | nil => cases h
  | append_singleton entries entry ih =>
      have htext : t.text = entry.1.text := by
        cases entries with
        | nil =>
            cases h
            exact text_apply _ _
        | cons first rest =>
            obtain ⟨old, hold⟩ : ∃ old, bubble u (first :: rest) = some old := Table.build_isSome (List.cons_ne_nil _ _)
            have hnew : bubble u (first :: rest ++ [entry]) = some (entry.1.apply old) := Table.build_concat hold
            rw [hnew] at h
            cases h
            exact text_apply _ _
      rw [List.map_append, List.map_append, List.map_singleton, List.map_singleton, List.getLast?_concat, htext]

/-- **A reply, from the generation to the page**: where the page has got a beginning of the messages of a generation about an
utterance, it shows a bubble for it if there is any message, and only one; its text is a beginning of what the engine has
generated, and all of it once all the messages have come. -/
theorem shown_as_generated {gls : List Llm.Label} {server : Llm.Generations} {n : ℕ} {ls : List StateLabel} {page : VoxeraState}
    {u : Text} (hserver : Run Llm.step (fun _ _ => True) {} gls server)
    (hpage : Run VoxeraState.step (fun _ _ => True) {} ls page)
    (hwire : (Table.values u (replies ls)).map Prod.fst <+: patches (server.log n)) :
    ∃ shown : Option Turn, page.turns.filter (fun t => t.id = systemId u) = shown.toList ∧
      (shown = none ↔ Table.values u (replies ls) = []) ∧
      ∀ t ∈ shown, t.text <+: Llm.received (server.log n) ∧
        ((Table.values u (replies ls)).map Prod.fst = patches (server.log n) → t.text = Llm.received (server.log n)) := by
  have hmirror := Llm.mirrored_of_run hserver n
  refine ⟨_, bubble_of_run hpage u, ?_, ?_⟩
  · cases hvalues : Table.values u (replies ls) with
    | nil => exact iff_of_true rfl rfl
    | cons entry entries => exact iff_of_false nofun (List.cons_ne_nil _ _)
  · intro t ht
    have hlast := text_bubble ht
    have hbegin : ((Table.values u (replies ls)).map Prod.fst).map Patch.text <+: Llm.texts (server.log n) := by
      rw [← map_text_patches]
      exact hwire.map Patch.text
    rw [hmirror.received]
    constructor
    · exact hmirror.begins t.text (hbegin.subset (List.mem_of_getLast? hlast))
    · intro hall
      rw [hall, map_text_patches] at hlast
      have htext := hmirror.last
      rw [hlast] at htext
      exact htext

/-- A generation of two tokens that is interrupted, and the page that has got the first of its messages. -/
theorem shown_as_generated_firstToken : ∃ (server : Llm.Generations) (page : VoxeraState) (shown : Option Turn),
    page.turns.filter (fun t => t.id = systemId ['a']) = shown.toList ∧ shown ≠ none ∧
      ∀ t ∈ shown, t.text <+: Llm.received (server.log 0) := by
  obtain ⟨server, hserver, hlog⟩ := Run.exists_of_exec
    (P := fun s : Llm.Generations => decide (patches (s.log 0) = [.token ['W'], .token ['W', 'e'], .cancelled ['W', 'e']]))
    (s := ({} : Llm.Generations)) (show (exec Llm.step (fun _ _ => True) _ [.start [] ['a'] [], .generation 0 (.ok .none),
      .generation 0 (.ok (.token ['W'] 0)), .generation 0 (.ok .none), .generation 0 (.ok (.token ['e'] 1)), .cancel,
      .generation 0 .cancelled]).any _ = true by decide +kernel)
  obtain ⟨page, hpage, -⟩ := Run.exists_of_exec (P := fun _ : VoxeraState => true) (s := ({} : VoxeraState))
    (show (exec VoxeraState.step (fun _ _ => True) _ [.json (.llmToken ['a'] ['W']) 1]).any _ = true by decide +kernel)
  have hlog := of_decide_eq_true hlog
  obtain ⟨shown, hshown, hnone, htext⟩ := shown_as_generated (u := ['a']) (n := 0) hserver hpage
    (hlog ▸ (by decide +kernel : (Table.values ['a'] (replies [.json (.llmToken ['a'] ['W']) 1])).map Prod.fst <+:
      [Patch.token ['W'], .token ['W', 'e'], .cancelled ['W', 'e']]))
  exact ⟨server, page, shown, hshown, fun h => absurd (hnone.mp h) (by decide +kernel), fun t ht => (htext t ht).1⟩

end Voxera.Web
