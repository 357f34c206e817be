import Voxera.Web.VoxeraState

/-!
# The bubbles of the conversation

* `replies`, `spoken` : what the server has said of the replies and of the user since the conversation was emptied;
* `Labelled` : the ids of the bubbles; no message about the user touches the bubble of a reply;
* `replies_of_run` : one bubble for each reply, made of the messages about that reply alone;
* `spoken_of_run` : each final transcript is shown once, whatever bubbles were live.
-/

namespace Voxera.Web

open EventLoop Since

/-- The conversation is emptied. -/
def StateLabel.empties : StateLabel → Bool
  | .clearConversation | .disconnect => true
  | _ => false

/-- What is said about a reply: its utterance, the change of its bubble, and when. -/
def StateLabel.reply? : StateLabel → Option (Text × Patch × ℕ)
  | .json (.llmToken u accumulated) now => some (u, .token accumulated, now)
  | .json (.llmFinal u text _) now => some (u, .final text, now)
  | .json (.llmCancelled u text _) now => some (u, .cancelled text, now)
  | _ => none

/-- A final text of the user. -/
def StateLabel.spoken? : StateLabel → Option Text
  | .json (.transcriptFinal _ text) _ => if blank text then none else some text
  | .devTestTranscript text _ => some text
  | _ => none

/-- What was said about the replies since the conversation was emptied. -/
def replies (ls : List StateLabel) : List (Text × Patch × ℕ) := (since StateLabel.empties ls).filterMap StateLabel.reply?

/-- What the user has said since the conversation was emptied. -/
def spoken (ls : List StateLabel) : List Text := (since StateLabel.empties ls).filterMap StateLabel.spoken?

/-- The bubble of a reply about which this has been said. -/
def bubble (utteranceId : Text) (entries : List (Patch × ℕ)) : Option Turn :=
  Table.build (fun u entry => systemTurn u entry.2) (fun entry turn => entry.1.apply turn) utteranceId entries

def Turn.isSystem (t : Turn) : Bool := t.role = .system

/-- A final text of the user. -/
def Turn.isFinal (t : Turn) : Bool := t.role = .user && !t.isPartial

/-! ## The ids -/

/-- The id of a bubble says whose it is. -/
def Turn.Labelled (t : Turn) : Prop :=
  t.role = .system ∧ (∃ u, t.utteranceId = some u ∧ t.id = systemId u) ∨ t.role = .user ∧ ∃ v, t.id = userId v

theorem systemId_ne_userId (u v : Text) : systemId u ≠ userId v := by
  intro h
  exact absurd (congrArg List.head? h) (by show some 's' ≠ some 'u'; decide)

theorem systemId_inj {u v : Text} (h : systemId u = systemId v) : u = v := List.append_cancel_left h

theorem partialId_eq (u : Text) : partialId u = userId ("partial-".toList ++ u) := by
  unfold partialId userId
  rw [← List.append_assoc]
  exact congrArg (· ++ u) (by decide)

namespace Turn.Labelled

variable {t : Turn} {u v : Text}

theorem of_user (h : t.Labelled) (hid : t.id = userId v) : t.role = .user := by
  rcases h with ⟨-, u, -, hsys⟩ | ⟨hrole, -⟩
  · exact absurd (hsys.symm.trans hid) (systemId_ne_userId u v)
  · exact hrole

theorem of_system (h : t.Labelled) (hid : t.id = systemId u) : t.role = .system ∧ t.utteranceId = some u := by
  rcases h with ⟨hrole, u', hutt, hsys⟩ | ⟨-, v, huser⟩
  · rw [systemId_inj (hid.symm.trans hsys)]
    exact ⟨hrole, hutt⟩
  · exact absurd (hid.symm.trans huser) (systemId_ne_userId u v)

theorem patched (h : t.Labelled) (patch : Patch) : (patch.apply t).Labelled := by
  cases patch <;> exact h

theorem systemTurn (u : Text) (now : ℕ) : (systemTurn u now).Labelled := Or.inl ⟨rfl, u, rfl, rfl⟩

end Turn.Labelled

theorem role_apply (patch : Patch) (t : Turn) : (patch.apply t).role = t.role := by cases patch <;> rfl

theorem utteranceId_apply (patch : Patch) (t : Turn) : (patch.apply t).utteranceId = t.utteranceId := by cases patch <;> rfl

theorem finalId_eq (turns : List Turn) (u : Text) :
    finalId turns u = userId u ∨ ∃ digits, finalId turns u = userId (u ++ '-' :: digits) := by
  unfold finalId
  split
  · exact Or.inr ⟨_, by unfold userId; rw [List.append_assoc]⟩
  · exact Or.inl rfl

theorem exists_finalId (turns : List Turn) (u : Text) : ∃ v, finalId turns u = userId v := by
  rcases finalId_eq turns u with h | ⟨digits, h⟩
  · exact ⟨_, h⟩
  · exact ⟨_, h⟩

/-! ## What each message does to the bubbles -/

variable {turns : List Turn} {u text : Text} {now : ℕ}

/-- The bubble that a final transcript replaces is a live one of the user. -/
theorem liveBubble_split {i : ℕ} (hlab : ∀ t ∈ turns, t.Labelled) (h : liveBubble turns u = some i) :
    ∃ front old back, turns = front ++ old :: back ∧ front.length = i ∧ old.role = .user ∧
      (old.id = partialId u ∨ old.isPartial = true) := by
  unfold liveBubble at h
  cases hown : turns.findIdx? (fun t => t.id = partialId u) with
  | some j =>
      rw [hown] at h
      cases h
      obtain ⟨front, old, back, rfl, hi, hid, -⟩ := Table.split_of_findIdx? hown
      have hid : old.id = partialId u := of_decide_eq_true hid
      refine ⟨front, old, back, rfl, hi, ?_, Or.inl hid⟩
      exact (hlab old (by simp)).of_user (hid.trans (partialId_eq u))
  | none =>
      rw [hown] at h
      obtain ⟨front, old, back, rfl, hi, hlive, -⟩ := Table.split_of_findIdx? h
      obtain ⟨hrole, hpart⟩ := of_decide_eq_true hlive
      exact ⟨front, old, back, rfl, hi, hrole, Or.inr hpart⟩

/-- A final transcript takes a live bubble away, or takes its place; or it gets a bubble of its own. -/
theorem applyFinal_cases (hlab : ∀ t ∈ turns, t.Labelled) (u text : Text) (now : ℕ) :
    (∃ front old back, turns = front ++ old :: back ∧ old.role = .user ∧ (old.id = partialId u ∨ old.isPartial = true) ∧
      (blank text = true ∧ applyFinal turns u text now = front ++ back ∨
        blank text = false ∧ ∃ time, applyFinal turns u text now = front ++
          { id := finalId turns u, role := .user, text, utteranceId := some u, timestamp := time } :: back)) ∨
    blank text = true ∧ applyFinal turns u text now = turns ∨
    blank text = false ∧ applyFinal turns u text now =
      turns ++ [{ id := finalId turns u, role := .user, text, utteranceId := some u, timestamp := now }] := by
  unfold applyFinal
  cases hlive : liveBubble turns u with
  | some i =>
      obtain ⟨front, old, back, heq, rfl, hrole, hpart⟩ := liveBubble_split hlab hlive
      refine Or.inl ⟨front, old, back, heq, hrole, hpart, ?_⟩
      cases hblank : blank text with
      | true =>
          refine Or.inl ⟨rfl, ?_⟩
          rw [if_pos rfl, heq]
          exact Table.eraseIdx_split front back old
      | false =>
          refine Or.inr ⟨rfl, old.timestamp, ?_⟩
          have hmodify := Table.modify_split (fun old : Turn =>
            { id := finalId turns u, role := .user, text, utteranceId := some u, timestamp := old.timestamp }) front back old
          rw [← heq] at hmodify
          exact hmodify
  | none =>
      cases hblank : blank text with
      | true => exact Or.inr (Or.inl ⟨rfl, rfl⟩)
      | false => exact Or.inr (Or.inr ⟨rfl, rfl⟩)

theorem labelled_applyFinal (hlab : ∀ t ∈ turns, t.Labelled) (u text : Text) (now : ℕ) :
    ∀ t ∈ applyFinal turns u text now, t.Labelled := by
  have hnew : ∀ time, ({ id := finalId turns u, role := .user, text, utteranceId := some u, timestamp := time } : Turn).Labelled :=
    fun time => Or.inr ⟨rfl, exists_finalId turns u⟩
  rcases applyFinal_cases hlab u text now with ⟨front, old, back, rfl, -, -, hcase⟩ | ⟨-, heq⟩ | ⟨-, heq⟩
  · obtain ⟨hfront, hback⟩ := List.forall_mem_append.mp hlab
    have hback := (List.forall_mem_cons.mp hback).2
    rcases hcase with ⟨-, heq⟩ | ⟨-, time, heq⟩
    · rw [heq]
      exact List.forall_mem_append.mpr ⟨hfront, hback⟩
    · rw [heq]
      exact List.forall_mem_append.mpr ⟨hfront, List.forall_mem_cons.mpr ⟨hnew time, hback⟩⟩
  · rw [heq]
    exact hlab
  · rw [heq]
    exact List.forall_mem_append.mpr ⟨hlab, List.forall_mem_singleton.mpr (hnew now)⟩

/-- A final transcript leaves the bubbles of the replies as they are. -/
theorem system_applyFinal (hlab : ∀ t ∈ turns, t.Labelled) (u text : Text) (now : ℕ) :
    (applyFinal turns u text now).filter Turn.isSystem = turns.filter Turn.isSystem := by
  rcases applyFinal_cases hlab u text now with ⟨front, old, back, rfl, hrole, -, hcase⟩ | ⟨-, heq⟩ | ⟨-, heq⟩
  · have hold : ¬ old.isSystem = true := by simp [Turn.isSystem, hrole]
    rcases hcase with ⟨-, heq⟩ | ⟨-, time, heq⟩
    · rw [heq, List.filter_append, List.filter_append, List.filter_cons_of_neg hold]
    · rw [heq, List.filter_append, List.filter_append, List.filter_cons_of_neg hold,
        List.filter_cons_of_neg (by simp [Turn.isSystem])]
  · rw [heq]
  · rw [heq, List.filter_append, List.filter_cons_of_neg (by simp [Turn.isSystem]), List.filter_nil, List.append_nil]

theorem labelled_upsertPartial (hlab : ∀ t ∈ turns, t.Labelled) (u : Option Text) (text : Text) (now : ℕ) :
    ∀ t ∈ upsertPartial turns u text now, t.Labelled :=
  Table.forall_upsert hlab (fun t ht _ => hlab t ht) (Or.inr ⟨rfl, _, partialId_eq _⟩)

/-- A partial transcript leaves the bubbles of the replies as they are. -/
theorem system_upsertPartial (hlab : ∀ t ∈ turns, t.Labelled) (u : Option Text) (text : Text) (now : ℕ) :
    (upsertPartial turns u text now).filter Turn.isSystem = turns.filter Turn.isSystem := by
  refine Table.filter_upsert_of_neg (fun t ht hid => ?_) rfl
  have hrole := (hlab t ht).of_user ((of_decide_eq_true hid).trans (partialId_eq _))
  simp [Turn.isSystem, hrole]

theorem labelled_upsertSystemTurn (hlab : ∀ t ∈ turns, t.Labelled) (u : Text) (patch : Patch) (now : ℕ) :
    ∀ t ∈ upsertSystemTurn turns u patch now, t.Labelled :=
  Table.forall_upsert hlab (fun t ht _ => (hlab t ht).patched patch) ((Turn.Labelled.systemTurn u now).patched patch)

/-- A message about a reply changes the bubbles of the replies as a table of their own. -/
theorem system_upsertSystemTurn (hlab : ∀ t ∈ turns, t.Labelled) (u : Text) (patch : Patch) (now : ℕ) :
    (upsertSystemTurn turns u patch now).filter Turn.isSystem =
      Table.upsert (fun t => t.utteranceId.getD [] = u) patch.apply (patch.apply (systemTurn u now))
        (turns.filter Turn.isSystem) := by
  unfold upsertSystemTurn
  rw [Table.filter_upsert]
  · refine Table.upsert_congr (fun t ht => ?_) _ _
    obtain ⟨hmem, hsys⟩ := List.mem_filter.mp ht
    have hrole : t.role = .system := of_decide_eq_true hsys
    rcases hlab t hmem with ⟨-, v, hutt, hid⟩ | ⟨huser, -⟩
    · rw [hutt, hid]
      exact decide_eq_decide.mpr ⟨fun h => systemId_inj h, fun h => congrArg systemId h⟩
    · rw [huser] at hrole
      cases hrole
  · intro t ht hid
    have hrole := ((hlab t ht).of_system (of_decide_eq_true hid)).1
    simp [Turn.isSystem, role_apply, hrole]
  · simp [Turn.isSystem, role_apply, systemTurn]

/-- It leaves what the user said as it is. -/
theorem final_upsertSystemTurn (hlab : ∀ t ∈ turns, t.Labelled) (u : Text) (patch : Patch) (now : ℕ) :
    (upsertSystemTurn turns u patch now).filter Turn.isFinal = turns.filter Turn.isFinal := by
  refine Table.filter_upsert_of_neg (fun t ht hid => ?_) ?_
  · have hrole := ((hlab t ht).of_system (of_decide_eq_true hid)).1
    simp [Turn.isFinal, role_apply, hrole]
  · simp [Turn.isFinal, role_apply, systemTurn]

/-! ## The bubbles of the replies -/

section Runs

variable {s s' : VoxeraState} {ls : List StateLabel} {l : StateLabel} {ok : VoxeraState → StateLabel → Prop}

theorem turns_llmMetrics (s : VoxeraState) (metrics : Option LlmMetrics) : (s.llmMetrics metrics).turns = s.turns := by
  cases metrics <;> rfl

/-- What one event does to the bubbles: it empties them, changes the bubble of a reply, or says something of the user. -/
inductive Said (turns : List Turn) (l : StateLabel) (turns' : List Turn) : Prop
  | emptied (hl : l.empties = true) (heq : turns' = [])
  | reply (u : Text) (patch : Patch) (now : ℕ) (hl : l.reply? = some (u, patch, now)) (hspoken : l.spoken? = none)
      (hempties : l.empties = false) (heq : turns' = upsertSystemTurn turns u patch now)
  | live (u : Option Text) (text : Text) (now : ℕ) (hl : l.reply? = none) (hspoken : l.spoken? = none)
      (hempties : l.empties = false) (heq : turns' = upsertPartial turns u text now)
  | final (u text : Text) (now : ℕ) (hl : l = .json (.transcriptFinal u text) now) (heq : turns' = applyFinal turns u text now)
  | typed (text : Text) (now : ℕ) (hl : l = .devTestTranscript text now) (heq : turns' = turns ++
      [{ id := userId (Nat.toDigits 10 now), role := .user, text, timestamp := now }])
  | kept (hl : l.reply? = none) (hspoken : l.spoken? = none) (hempties : l.empties = false) (heq : turns' = turns)

theorem said_of_step (h : s.step l = some s') : Said s.turns l s'.turns := by
  cases l with
  | json e now =>
      cases h
      cases e with
      | connection status conversationId =>
          refine .kept rfl rfl rfl ?_
          unfold VoxeraState.onJson
          dsimp only
          split <;> rfl
      | llmToken u accumulated => exact .reply u _ now rfl rfl rfl rfl
      | llmFinal u text metrics => exact .reply u _ now rfl rfl rfl (turns_llmMetrics _ metrics)
      | llmCancelled u text metrics => exact .reply u _ now rfl rfl rfl (turns_llmMetrics _ metrics)
      | ttsStart => exact .kept rfl rfl rfl rfl
      | ttsEnd => exact .kept rfl rfl rfl rfl
      | ttsClear reason =>
          refine .kept rfl rfl rfl ?_
          unfold VoxeraState.onJson
          dsimp only
          split <;> rfl
      | ttsMetrics m =>
          refine .kept rfl rfl rfl ?_
          unfold VoxeraState.onJson
          dsimp only
          split <;> rfl
      | turnMetrics m => exact .kept rfl rfl rfl rfl
      | error code message => exact .kept rfl rfl rfl rfl
      | transcriptPartial u transcript =>
          cases transcript with
          | none => exact .kept rfl rfl rfl rfl
          | some text =>
              unfold VoxeraState.onJson
              dsimp only
              split
              · exact .kept rfl rfl rfl rfl
              · exact .live u text now rfl rfl rfl rfl
      | transcriptFinal u text => exact .final u text now rfl rfl
      | other => exact .kept rfl rfl rfl rfl
  | devTestTranscript text now =>
      cases h
      exact .typed text now rfl rfl
  | clearConversation =>
      cases h
      exact .emptied rfl rfl
  | disconnect =>
      cases h
      exact .emptied rfl rfl
  | bargeInOver =>
      cases h
      exact .kept rfl rfl rfl rfl
  | dismissServerError =>
      cases h
      exact .kept rfl rfl rfl rfl

theorem replies_concat (hl : l.empties = false) : replies (ls ++ [l]) = replies ls ++ l.reply?.toList := by
  unfold replies
  rw [since_concat_of_neg hl, List.filterMap_append]
  cases h : l.reply? <;> simp [h]

theorem spoken_concat (hl : l.empties = false) : spoken (ls ++ [l]) = spoken ls ++ l.spoken?.toList := by
  unfold spoken
  rw [since_concat_of_neg hl, List.filterMap_append]
  cases h : l.spoken? <;> simp [h]

theorem labelled_of_said {turns' : List Turn} (hlab : ∀ t ∈ turns, t.Labelled) (h : Said turns l turns') :
    ∀ t ∈ turns', t.Labelled := by
  cases h with
  | emptied _ heq => exact heq ▸ nofun
  | reply u patch now _ _ _ heq => exact heq ▸ labelled_upsertSystemTurn hlab u patch now
  | live u text now _ _ _ heq => exact heq ▸ labelled_upsertPartial hlab u text now
  | final u text now _ heq => exact heq ▸ labelled_applyFinal hlab u text now
  | typed text now _ heq =>
      rw [heq]
      exact List.forall_mem_append.mpr ⟨hlab, List.forall_mem_singleton.mpr (Or.inr ⟨rfl, _, rfl⟩)⟩
  | kept _ _ _ heq => exact heq ▸ hlab

theorem labelled_of_run (h : Run VoxeraState.step ok {} ls s) : ∀ t ∈ s.turns, t.Labelled :=
  h.invariant (fun _ ht => nomatch ht) (fun hlab _ hstep => labelled_of_said hlab (said_of_step hstep))

/-- The bubbles of the replies, as the table of what was said about them. -/
def replyTable (log : List (Text × Patch × ℕ)) : List Turn :=
  Table.table (fun u entry => systemTurn u entry.2) (fun entry turn => entry.1.apply turn) (fun t => t.utteranceId.getD []) log

theorem system_of_run (h : Run VoxeraState.step ok {} ls s) : s.turns.filter Turn.isSystem = replyTable (replies ls) := by
  have htable : (∀ t ∈ s.turns, t.Labelled) ∧ s.turns.filter Turn.isSystem = replyTable (replies ls) := by
    refine h.invariant₂ (I := fun ls s => (∀ t ∈ s.turns, t.Labelled) ∧ s.turns.filter Turn.isSystem = replyTable (replies ls))
      ⟨nofun, rfl⟩ ?_
    rintro ls t v l ⟨hlab, ih⟩ - hstep
    have hsaid := said_of_step hstep
    refine ⟨labelled_of_said hlab hsaid, ?_⟩
    cases hsaid with
    | emptied hl heq =>
        rw [heq, replies, since_concat_of_pos hl]
        rfl
    | reply u patch now hl _ hempties heq =>
        rw [heq, system_upsertSystemTurn hlab, ih, replies_concat hempties, hl, Option.toList_some, replyTable, replyTable,
          Table.table_concat]
    | live u text now hl _ hempties heq =>
        rw [heq, system_upsertPartial hlab, ih, replies_concat hempties, hl, Option.toList_none, List.append_nil]
    | final u text now hl heq =>
        subst hl
        rw [heq, system_applyFinal hlab, ih, replies_concat rfl]
        exact congrArg replyTable (List.append_nil _).symm
    | typed text now hl heq =>
        subst hl
        rw [heq, List.filter_append, ih, replies_concat rfl]
        exact (List.append_nil _).trans (congrArg replyTable (List.append_nil _).symm)
    | kept hl _ hempties heq =>
        rw [heq, ih, replies_concat hempties, hl, Option.toList_none, List.append_nil]
  exact htable.2

/-- **The replies**: the page shows one bubble for each reply that was spoken of since the conversation was emptied, in the
order in which they began, and each as the messages about it alone make it. -/
theorem replies_of_run (h : Run VoxeraState.step ok {} ls s) :
    s.turns.filter Turn.isSystem =
      (Table.keys (replies ls)).filterMap (fun u => bubble u (Table.values u (replies ls))) := by
  rw [system_of_run h]
  exact Table.table_eq (fun _ _ => rfl) (fun entry turn => by rw [utteranceId_apply]) (replies ls)

/-- A turn: the user is heard, and the reply is cut off. -/
def interruptedTurn : List StateLabel :=
  [.json (.transcriptPartial (some ['a']) ['h', 'i']) 1, .json (.llmToken ['a'] ['W']) 2,
    .json (.transcriptFinal ['a'] ['h', 'i']) 3, .json (.llmToken ['a'] ['W', 'e']) 4,
    .json (.llmCancelled ['a'] ['W', 'e'] none) 5]

theorem replies_of_run_interruptedTurn : ∃ s, Run VoxeraState.step (fun _ _ => True) {} interruptedTurn s ∧
    s.turns.filter Turn.isSystem =
      [{ id := systemId ['a'], role := .system, text := ['W', 'e'], cancelled := true, utteranceId := some ['a'], timestamp := 2 }] := by
  obtain ⟨s, hrun, -⟩ := Run.exists_of_exec (P := fun _ : VoxeraState => true) (s := ({} : VoxeraState))
    (show (exec VoxeraState.step (fun _ _ => True) _ interruptedTurn).any _ = true by decide +kernel)
  exact ⟨s, hrun, (replies_of_run hrun).trans (by decide +kernel)⟩

/-- The bubble of a reply on the page. -/
theorem bubble_of_run (h : Run VoxeraState.step ok {} ls s) (u : Text) :
    s.turns.filter (fun t => t.id = systemId u) = (bubble u (Table.values u (replies ls))).toList := by
  have hlab := labelled_of_run h
  have hown : s.turns.filter (fun t => t.id = systemId u) =
      (s.turns.filter Turn.isSystem).filter (fun t => t.utteranceId.getD [] = u) := by
    rw [List.filter_filter]
    refine List.filter_congr (fun t ht => ?_)
    rcases hlab t ht with ⟨hrole, v, hutt, hid⟩ | ⟨hrole, v, hid⟩
    · have hiff : systemId v = systemId u ↔ v = u := ⟨systemId_inj, congrArg systemId⟩
      simp [Turn.isSystem, hrole, hutt, hid, hiff]
    · simp [Turn.isSystem, hrole, hid, (systemId_ne_userId u v).symm]
  rw [hown, system_of_run h]
  exact Table.filter_table (fun _ _ => rfl) (fun entry turn => by rw [utteranceId_apply]) (replies ls) u

/-! ## What the user has said -/

theorem partialId_ne_finalId {u : Text} (hu : ¬ "partial".toList <+: u) (turns : List Turn) (w : Text) :
    finalId turns u ≠ partialId w := by
  have hletters : ∀ n < 7, ("partial-".toList)[n]? ≠ some '-' := by decide
  rw [partialId_eq]
  intro h
  rcases finalId_eq turns u with heq | ⟨digits, heq⟩
  · rw [heq] at h
    have hprefix : "partial-".toList <+: u := ⟨w, (List.append_cancel_left h).symm⟩
    exact hu (List.IsPrefix.trans (by decide) hprefix)
  · rw [heq] at h
    have happ : "partial-".toList ++ w = u ++ '-' :: digits := (List.append_cancel_left h).symm
    by_cases hlen : u.length < 7
    · have hchar := congrArg (fun l : List Char => l[u.length]?) happ
      simp only [List.getElem?_append_right (le_refl u.length), Nat.sub_self, List.getElem?_cons_zero] at hchar
      rw [List.getElem?_append_left (hlen.trans (by decide))] at hchar
      exact hletters _ hlen hchar
    · have hfirst : "partial".toList <+: u ++ '-' :: digits :=
        List.IsPrefix.trans (by decide) (⟨w, happ⟩ : "partial-".toList <+: u ++ '-' :: digits)
      exact hu (List.prefix_of_prefix_length_le hfirst (List.prefix_append _ _) (not_lt.mp hlen))

theorem partialId_ne_digits (n : ℕ) (w : Text) : userId (Nat.toDigits 10 n) ≠ partialId w := by
  rw [partialId_eq]
  intro h
  have happ : Nat.toDigits 10 n = "partial-".toList ++ w := List.append_cancel_left h
  have hdigit : 'p'.isDigit = true :=
    Nat.isDigit_of_mem_toDigits (b := 10) (by decide) (by decide) (by rw [happ]; exact List.mem_cons_self)
  exact absurd hdigit (by decide)

/-- No final bubble has the id of a live one. -/
def Apart (turns : List Turn) : Prop := ∀ t ∈ turns, t.isFinal = true → ∀ w, t.id ≠ partialId w

/-- The id of the utterance of a final transcript is not taken for that of a live bubble. -/
def StateLabel.wellNamed : StateLabel → Prop
  | .json (.transcriptFinal u _) _ => ¬ "partial".toList <+: u
  | _ => True

instance : DecidablePred StateLabel.wellNamed
  | .json (.transcriptFinal u _) _ => inferInstanceAs (Decidable (¬ "partial".toList <+: u))
  | .json (.connection _ _) _ | .json (.llmToken _ _) _ | .json (.llmFinal _ _ _) _ | .json (.llmCancelled _ _ _) _
  | .json .ttsStart _ | .json .ttsEnd _ | .json (.ttsClear _) _ | .json (.ttsMetrics _) _ | .json (.turnMetrics _) _
  | .json (.error _ _) _ | .json (.transcriptPartial _ _) _ | .json .other _ | .devTestTranscript _ _ | .clearConversation
  | .disconnect | .bargeInOver | .dismissServerError => .isTrue trivial

theorem live_of_id {t : Turn} (happ : Apart turns) (ht : t ∈ turns)
    (hlive : t.id = partialId u ∨ t.isPartial = true) : t.isFinal = false := by
  rcases hlive with hid | hpart
  · by_contra hfinal
    exact happ t ht (Bool.not_eq_false _ ▸ hfinal) u hid
  · simp [Turn.isFinal, hpart]

theorem apart_of_said {turns' : List Turn} (hlab : ∀ t ∈ turns, t.Labelled) (happ : Apart turns) (hname : l.wellNamed)
    (h : Said turns l turns') : Apart turns' := by
  cases h with
  | emptied _ heq => exact heq ▸ nofun
  | reply u patch now _ _ _ heq =>
      rw [heq]
      refine Table.forall_upsert happ ?_ ?_
      · intro t ht hid hfinal
        have hrole := ((hlab t ht).of_system (of_decide_eq_true hid)).1
        simp [Turn.isFinal, role_apply, hrole] at hfinal
      · intro hfinal
        simp [Turn.isFinal, role_apply, systemTurn] at hfinal
  | live u text now _ _ _ heq =>
      rw [heq]
      refine Table.forall_upsert happ ?_ ?_
      · intro t _ _ hfinal
        simp [Turn.isFinal] at hfinal
      · intro hfinal
        simp [Turn.isFinal] at hfinal
  | final u text now hl heq =>
      subst hl
      rcases applyFinal_cases hlab u text now with ⟨front, old, back, rfl, -, -, hcase⟩ | ⟨-, hres⟩ | ⟨-, hres⟩
      · obtain ⟨hfront, hback⟩ := List.forall_mem_append.mp happ
        have hback := (List.forall_mem_cons.mp hback).2
        rcases hcase with ⟨-, hres⟩ | ⟨-, time, hres⟩
        · rw [heq, hres]
          exact List.forall_mem_append.mpr ⟨hfront, hback⟩
        · rw [heq, hres]
          exact List.forall_mem_append.mpr
            ⟨hfront, List.forall_mem_cons.mpr ⟨fun _ w => partialId_ne_finalId hname _ w, hback⟩⟩
      · rw [heq, hres]
        exact happ
      · rw [heq, hres]
        exact List.forall_mem_append.mpr
          ⟨happ, List.forall_mem_singleton.mpr (fun _ w => partialId_ne_finalId hname _ w)⟩
  | typed text now _ heq =>
      rw [heq]
      exact List.forall_mem_append.mpr ⟨happ, List.forall_mem_singleton.mpr (fun _ w => partialId_ne_digits now w)⟩
  | kept _ _ _ heq => exact heq ▸ happ

/-- The final texts on the page. -/
def shown (turns : List Turn) : List Text := (turns.filter Turn.isFinal).map Turn.text

theorem shown_append (turns more : List Turn) : shown (turns ++ more) = shown turns ++ shown more := by
  unfold shown
  rw [List.filter_append, List.map_append]

theorem shown_cons_of_live {t : Turn} (h : t.isFinal = false) (turns : List Turn) : shown (t :: turns) = shown turns := by
  unfold shown
  rw [List.filter_cons_of_neg (by rw [h]; exact Bool.false_ne_true)]

theorem shown_of_said {turns' : List Turn} (hlab : ∀ t ∈ turns, t.Labelled) (happ : Apart turns) (h : Said turns l turns') :
    l.empties = true ∧ turns' = [] ∨ l.empties = false ∧ (shown turns').Perm (shown turns ++ l.spoken?.toList) := by
  cases h with
  | emptied hl heq => exact Or.inl ⟨hl, heq⟩
  | reply u patch now _ hspoken hempties heq =>
      refine Or.inr ⟨hempties, ?_⟩
      rw [heq, shown, final_upsertSystemTurn hlab, hspoken, Option.toList_none, List.append_nil, shown]
  | live u text now _ hspoken hempties heq =>
      refine Or.inr ⟨hempties, ?_⟩
      have hkept : (upsertPartial turns u text now).filter Turn.isFinal = turns.filter Turn.isFinal := by
        refine Table.filter_upsert_of_neg (fun t ht hid => ?_) (by simp [Turn.isFinal])
        have hrole := (hlab t ht).of_user ((of_decide_eq_true hid).trans (partialId_eq _))
        exact ⟨live_of_id happ ht (Or.inl (of_decide_eq_true hid)), by simp [Turn.isFinal]⟩
      rw [heq, shown, hkept, hspoken, Option.toList_none, List.append_nil, shown]
  | final u text now hl heq =>
      subst hl
      refine Or.inr ⟨rfl, ?_⟩
      have hnew : ∀ time, shown [{ id := finalId turns u, role := .user, text, utteranceId := some u, timestamp := time }] =
          [text] := fun time => by simp [shown, Turn.isFinal]
      rcases applyFinal_cases hlab u text now with ⟨front, old, back, rfl, hrole, hlive, hcase⟩ | ⟨hblank, hres⟩ | ⟨hblank, hres⟩
      · have hold : old.isFinal = false := live_of_id happ (by simp) hlive
        rcases hcase with ⟨hblank, hres⟩ | ⟨hblank, time, hres⟩
        · rw [heq, hres, shown_append, shown_append, shown_cons_of_live hold]
          simp [StateLabel.spoken?, hblank]
        · rw [heq, hres, ← List.singleton_append, shown_append, shown_append, hnew, shown_append, shown_cons_of_live hold]
          simp only [StateLabel.spoken?, hblank, Bool.false_eq_true, if_false, Option.toList_some]
          rw [List.append_assoc]
          exact List.Perm.append_left _ List.perm_append_comm
      · rw [heq, hres]
        simp [StateLabel.spoken?, hblank]
      · rw [heq, hres, shown_append, hnew]
        simp [StateLabel.spoken?, hblank]
  | typed text now hl heq =>
      subst hl
      refine Or.inr ⟨rfl, ?_⟩
      rw [heq, shown_append]
      exact List.Perm.refl _
  | kept _ hspoken hempties heq =>
      refine Or.inr ⟨hempties, ?_⟩
      rw [heq, hspoken, Option.toList_none, List.append_nil]

/-- **The user**: what is final on the page is what the user has said since the conversation was emptied, each text once,
whatever bubbles were live when it came. -/
theorem spoken_of_run (h : Run VoxeraState.step (fun _ l => l.wellNamed) {} ls s) : (shown s.turns).Perm (spoken ls) := by
  have hall : (∀ t ∈ s.turns, t.Labelled) ∧ Apart s.turns ∧ (shown s.turns).Perm (spoken ls) := by
    refine h.invariant₂ (I := fun ls s => (∀ t ∈ s.turns, t.Labelled) ∧ Apart s.turns ∧ (shown s.turns).Perm (spoken ls))
      ⟨nofun, nofun, List.Perm.refl _⟩ ?_
    rintro ls t v l ⟨hlab, happ, ih⟩ hname hstep
    have hsaid := said_of_step hstep
    refine ⟨labelled_of_said hlab hsaid, apart_of_said hlab happ hname hsaid, ?_⟩
    rcases shown_of_said hlab happ hsaid with ⟨hempties, heq⟩ | ⟨hempties, hperm⟩
    · rw [heq, spoken, since_concat_of_pos hempties]
      exact List.Perm.refl _
    · rw [spoken_concat hempties]
      exact hperm.trans (ih.append_right _)
  exact hall.2.2

theorem spoken_of_run_interruptedTurn : ∃ s, Run VoxeraState.step (fun _ l => l.wellNamed) {} interruptedTurn s ∧
    (shown s.turns).Perm [['h', 'i']] := by
  obtain ⟨s, hrun, -⟩ := Run.exists_of_exec (P := fun _ : VoxeraState => true) (s := ({} : VoxeraState))
    (show (exec VoxeraState.step (fun _ l => l.wellNamed) _ interruptedTurn).any _ = true by decide +kernel)
  exact ⟨s, hrun, spoken_of_run hrun⟩

end Runs

end Voxera.Web
