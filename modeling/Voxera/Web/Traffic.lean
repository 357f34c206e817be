import Voxera.Web.Sessions

/-!
# What goes in and out of a session

* `SendsNothing` : the steps at which nothing is sent; `sends_of_run` : what is sent, from where and to whom;
* `Idle` : the steps that a session does not see; `late_of_run` : a session that is over stays so, and is seen nowhere else;
* `gate_of_run` : what the player is told; no audio from a `tts_clear` to the next `tts_start`.
-/

namespace Voxera.Web

open EventLoop

namespace Provider

variable {p p' : Provider} {k : ℕ}

/-! ## What is sent -/

/-- Nothing is sent to any session. -/
def SendsNothing (p p' : Provider) : Prop :=
  ∀ (k : ℕ) (s s' : Session), p.sessions[k]? = some s → p'.sessions[k]? = some s' → s'.sent = s.sent

theorem SendsNothing.of_eq (h : p'.sessions = p.sessions) : SendsNothing p p' := by
  intro k s s' hs hs'
  rw [h, hs] at hs'
  exact Option.some.inj hs' ▸ rfl

theorem SendsNothing.of_session {s : Session} {f : Session → Session} (hs : p.sessions[k]? = some s)
    (h : p'.sessions = p.sessions.modify k f) (hf : (f s).sent = s.sent) : SendsNothing p p' := by
  intro i t t' ht ht'
  rw [h] at ht'
  obtain ⟨old, hold, ⟨rfl, rfl⟩ | ⟨-, rfl⟩⟩ := getElem?_modifySession ht'
  · cases ht.symm.trans hold
    cases hs.symm.trans hold
    exact hf
  · cases ht.symm.trans hold
    rfl

theorem SendsNothing.of_modify {f : Session → Session} (h : p'.sessions = p.sessions.modify k f) (hf : ∀ s, (f s).sent = s.sent) :
    SendsNothing p p' := by
  cases hs : p.sessions[k]? with
  | none => exact .of_eq (h.trans (List.modify_eq_self (List.getElem?_eq_none_iff.mp hs)))
  | some s => exact .of_session hs h (hf s)

theorem SendsNothing.trans {p'' : Provider} (h : SendsNothing p p') (h' : SendsNothing p' p'')
    (hlength : p'.sessions.length = p.sessions.length) : SendsNothing p p'' := by
  intro k s s'' hs hs''
  have hlt : k < p'.sessions.length := hlength ▸ (List.getElem?_eq_some_iff.mp hs).1
  exact (h' k _ s'' (List.getElem?_eq_getElem hlt) hs'').trans (h k s _ hs (List.getElem?_eq_getElem hlt))

theorem sessions_stopMic (p : Provider) : p.stopMic.sessions = p.sessions := by rw [stopMic_eq]

theorem SendsNothing.onJson (p : Provider) (k now : ℕ) (e : ServerEvent) : SendsNothing p (p.onJson k now e) := by
  unfold Provider.onJson
  cases e with
  | connection status conversationId =>
      dsimp only
      split
      · exact .of_modify (sessions_stopMic _) (fun s => rfl)
      · exact .of_eq rfl
  | ttsStart => exact .of_modify rfl (fun s => rfl)
  | ttsClear reason =>
      dsimp only
      split <;> exact .of_modify rfl (fun s => rfl)
  | _ => exact .of_eq rfl

theorem SendsNothing.receive (p : Provider) (k now : ℕ) (message : Inbound) : SendsNothing p (p.receive k now message) := by
  unfold Provider.receive
  cases message with
  | json e =>
      have hinbox : SendsNothing p (p.session k (fun s => { s with inbox := s.inbox ++ [.json e] })) := .of_modify rfl (fun s => rfl)
      exact hinbox.trans (.onJson _ k now e) (List.length_modify ..)
  | binary bytes =>
      have hinbox : SendsNothing p (p.session k (fun s => { s with inbox := s.inbox ++ [.binary bytes] })) :=
        .of_modify rfl (fun s => rfl)
      dsimp only
      split
      · exact hinbox
      · exact hinbox.trans (.of_modify rfl (fun s => rfl)) (List.length_modify ..)

theorem SendsNothing.onMicEvent (p : Provider) (m : ℕ) {e : MicEvent} (he : ∀ call pcm, e ≠ .frame call pcm) :
    SendsNothing p (onMicEvent m p e) := by
  cases e with
  | frame call pcm => exact absurd rfl (he call pcm)
  | ended call reason =>
      show SendsNothing p (if p.micRef ≠ some m then p else { p with micRef := none, micStatus := .off, micError := some reason })
      split <;> exact .of_eq rfl
  | started call => exact .of_eq rfl
  | stopped => exact .of_eq rfl
  | level call rms => exact .of_eq rfl

/-- The page is connected, and the microphone is on. -/
def talking : List ProviderLabel :=
  [.connect, .opened 0 0, .startMic true true, .mic 0 (.userMedia 0 (.ok 1) (.ok { state := .running, sampleRate := 48000 })),
    .mic 0 (.moduleAdded 0 (.ok ()) none), .micStarted 0]

/-- Nothing comes to the session any more, nothing is sent to it, and its player is told nothing. -/
structure Idle (k : ℕ) (p p' : Provider) : Prop where
  wsRef : p'.wsRef ≠ some k
  session : ∀ s, p.sessions[k]? = some s → ∃ s', p'.sessions[k]? = some s' ∧ s'.inbox = s.inbox ∧ s'.sent = s.sent ∧
    s'.player = s.player

theorem Idle.refl (h : p.wsRef ≠ some k) : Idle k p p := ⟨h, fun s hs => ⟨s, hs, rfl, rfl, rfl⟩⟩

theorem Idle.trans {p'' : Provider} (h : Idle k p p') (h' : Idle k p' p'') : Idle k p p'' := by
  refine ⟨h'.wsRef, fun s hs => ?_⟩
  obtain ⟨s', hs', hinbox, hsent, hplayer⟩ := h.session s hs
  obtain ⟨s'', hs'', hinbox', hsent', hplayer'⟩ := h'.session s' hs'
  exact ⟨s'', hs'', hinbox'.trans hinbox, hsent'.trans hsent, hplayer'.trans hplayer⟩

theorem Idle.of_eq (hws : p'.wsRef ≠ some k) (h : p'.sessions = p.sessions) : Idle k p p' :=
  ⟨hws, fun s hs => ⟨s, by rw [h, hs], rfl, rfl, rfl⟩⟩

theorem Idle.of_ne {i : ℕ} {f : Session → Session} (hws : p'.wsRef ≠ some k) (h : p'.sessions = p.sessions.modify i f) (hi : i ≠ k) :
    Idle k p p' :=
  ⟨hws, fun s hs => ⟨s, by rw [h, List.getElem?_modify_ne _ _ hi, hs], rfl, rfl, rfl⟩⟩

/-- Only what the browser tells of the socket changes. -/
theorem Idle.aside {i : ℕ} {s : Session} {f : Session → Session} (h : p.wsRef ≠ some k) (hs : p.sessions[i]? = some s)
    (haside : s.Aside (f s)) : Idle k p (p.session i f) := by
  by_cases hi : i = k
  · subst hi
    refine ⟨h, fun t ht => ⟨f s, ?_, ?_⟩⟩
    · exact (List.getElem?_modify_eq ..).trans (by rw [hs]; rfl)
    · cases hs.symm.trans ht
      exact ⟨haside.inbox, haside.sent, haside.player⟩
  · exact .of_ne h rfl hi

/-- The session that a reference stands for, which is another one. -/
theorem Idle.elim {ref : Option ℕ} {f : Session → Session} (hws : p.wsRef ≠ some k) (href : ref ≠ some k) :
    Idle k p (ref.elim p (fun i => p.session i f)) := by
  cases ref with
  | none => exact .refl hws
  | some i => exact .of_ne hws rfl (fun hi => href (hi ▸ rfl))

theorem Idle.onJson (h : p.wsRef ≠ some k) {i now : ℕ} (hi : i ≠ k) (e : ServerEvent) : Idle k p (p.onJson i now e) := by
  unfold Provider.onJson
  cases e with
  | connection status conversationId =>
      dsimp only
      split
      · rw [stopMic_eq]
        exact .of_ne nofun rfl hi
      · exact .of_eq h rfl
  | ttsStart => exact .of_ne h rfl hi
  | ttsClear reason =>
      dsimp only
      split <;> exact .of_ne h rfl hi
  | _ => exact .of_eq h rfl

theorem Idle.receive (h : p.wsRef ≠ some k) {i now : ℕ} (hi : i ≠ k) (message : Inbound) : Idle k p (p.receive i now message) := by
  have hinbox : Idle k p (p.session i (fun s => { s with inbox := s.inbox ++ [message] })) := .of_ne h rfl hi
  unfold Provider.receive
  cases message with
  | json e =>
      have hws : (p.session i (fun s => { s with inbox := s.inbox ++ [.json e] })).wsRef ≠ some k := h
      exact hinbox.trans (.onJson hws hi e)
  | binary bytes =>
      dsimp only
      split
      · exact hinbox
      · exact hinbox.trans (.of_ne h rfl hi)

theorem Idle.onMicEvent (h : p.wsRef ≠ some k) (m : ℕ) (e : MicEvent) : Idle k p (onMicEvent m p e) := by
  cases e with
  | frame call pcm => exact .elim h h
  | ended call reason =>
      show Idle k p (if p.micRef ≠ some m then p else { p with micRef := none, micStatus := .off, micError := some reason })
      split <;> exact .of_eq h rfl
  | started call => exact .refl h
  | stopped => exact .refl h
  | level call rms => exact .refl h

theorem Idle.micEvent (h : p.wsRef ≠ some k) (m : ℕ) (old new : MicCapture) : Idle k p (p.micEvent m old new) := by
  have hall : ∀ (es : List MicEvent) (q : Provider), q.wsRef ≠ some k → Idle k q (es.foldl (Provider.onMicEvent m) q) := by
    intro es
    induction es with
    | nil => exact fun q hq => .refl hq
    | cons e es ih =>
        intro q hq
        have he : Idle k q (Provider.onMicEvent m q e) := .onMicEvent hq m e
        exact he.trans (ih _ he.wsRef)
  have hcapture : Idle k p (p.capture m (fun _ => new)) := .of_eq h rfl
  exact hcapture.trans (hall _ _ h)

theorem Idle.of_change {l : ProviderLabel} {socket : Option ℕ} (hlength : k < p.sessions.length) (h : p.wsRef ≠ some k)
    (hchange : Change p l socket p') : Idle k p p' := by
  have hne : ∀ {i : ℕ}, p.wsRef = some i → i ≠ k := fun hws hi => h (hi ▸ hws)
  cases hchange with
  | same => exact .refl h
  | connected hws =>
      refine ⟨fun heq => hlength.ne (Option.some.inj heq).symm, fun s hs => ⟨s, ?_, rfl, rfl, rfl⟩⟩
      exact (List.getElem?_append_left hlength).trans hs
  | released page bargeInTimeout connectionError micError => exact .of_eq h rfl
  | left hws hsocket hover hsent page bargeInTimeout connectionError micError => exact .of_ne nofun rfl (hne hws)
  | begun hws href mediaDevices workletNode => exact .of_eq h rfl
  | told hkept hsent page =>
      have hpage : Idle k p { p with page } := .of_eq h rfl
      exact hpage.trans (.elim h h)
  | shown page bargeInTimeout => exact .of_eq h rfl
  | aside hs haside => exact .aside h hs haside
  | opened hws page => exact .of_ne h rfl (hne hws)
  | received hws now hfair => exact .receive h (hne hws) _
  | @mic m mic lm new hmic hl hnew => exact .micEvent h m _ new
  | @micStarted m mic error hmic hpcs =>
      unfold micStarted
      dsimp only
      split_ifs
      · exact .of_eq h rfl
      · cases error <;> exact .of_eq h rfl

theorem Idle.length (h : Idle k p p') (hlength : k < p.sessions.length) : k < p'.sessions.length := by
  obtain ⟨s', hs', -⟩ := h.session _ (List.getElem?_eq_getElem hlength)
  exact (List.getElem?_eq_some_iff.mp hs').1

/-- What happens to the socket of a session that is over is seen nowhere else. -/
theorem unseen_of_change {l : ProviderLabel} (h : p.wsRef ≠ some k) (hchange : Change p l (some k) p') :
    { p' with sessions := p.sessions } = p ∧ ∀ i ≠ k, p'.sessions[i]? = p.sessions[i]? := by
  cases hchange with
  | same => exact ⟨rfl, fun _ _ => rfl⟩
  | left hws hsocket hover hsent page bargeInTimeout connectionError micError =>
      exact absurd ((hsocket.resolve_left nofun).symm ▸ hws) h
  | aside hs haside => exact ⟨rfl, fun i hi => List.getElem?_modify_ne _ _ (Ne.symm hi)⟩
  | opened hws page => exact absurd hws h
  | received hws now hfair => exact absurd hws h

/-- **A session that is over** stays so: its messages are not read, nothing is sent to it and its player is told nothing,
whatever happens later; and what still happens to its socket changes nothing else, of the page or of another session. -/
theorem late_of_run {ls more : List ProviderLabel} (h : Run step (fun _ l => serverFair l = true) {} ls p)
    (hlength : k < p.sessions.length) (hws : p.wsRef ≠ some k) (h' : Run step (fun _ l => serverFair l = true) p more p') :
    Idle k p p' ∧ ∀ (l : ProviderLabel) (p'' : Provider), socketOf l = some k → p'.step l = some p'' →
      { p'' with sessions := p'.sessions } = p' ∧ ∀ i ≠ k, p''.sessions[i]? = p'.sessions[i]? := by
  have hidle : p'.Sound ∧ Idle k p p' := by
    refine h'.invariant (I := fun q => q.Sound ∧ Idle k p q) ⟨sound_of_run h, .refl hws⟩ ?_
    intro q l q' ⟨hsound, hq⟩ hl hq'
    have hchange := change_of_step hsound hq'
    exact ⟨hsound.change hl hchange, hq.trans (.of_change (hq.length hlength) hq.wsRef hchange)⟩
  exact ⟨hidle.2, fun l p'' hl hp'' => unseen_of_change hidle.2.wsRef (hl ▸ change_of_step hidle.1 hp'')⟩

/-- The page connects again, and only then the first socket closes. -/
def reconnected : List ProviderLabel := talking ++ [.disconnect, .connect, .opened 1 2]

theorem late_of_run_reconnected : ∃ p p' : Provider, Run step (fun _ l => serverFair l = true) {} reconnected p ∧
    p.step (.closed 0 3) = some p' ∧ p.connectionStatus = .connected ∧ { p' with sessions := p.sessions } = p := by
  obtain ⟨p, hrun, hend⟩ := Run.exists_of_exec
    (P := fun p : Provider => (p.step (.closed 0 3)).any (fun _ =>
      decide (p.sessions.length = 2 ∧ p.wsRef = some 1 ∧ p.connectionStatus = .connected)))
    (s := ({} : Provider)) (show (exec step (fun _ l => serverFair l = true) _ reconnected).any _ = true by decide +kernel)
  obtain ⟨p', hp', hend⟩ := (Option.any_eq_true _ _).mp hend
  obtain ⟨hlength, hws, hstatus⟩ := of_decide_eq_true hend
  have hlate := late_of_run (k := 0) hrun (by rw [hlength]; exact Nat.two_pos) (by rw [hws]; exact nofun) .nil
  exact ⟨p, p', hrun, hp', hstatus, (hlate.2 (.closed 0 3) p' rfl hp').1⟩

/-! ## What the player is told -/

/-- What the player is told at one message, and what it does to `dropAudioRef`. -/
theorem told_cases (drop : Bool) (message : Inbound) :
    told drop message = [] ∧ dropNext drop message = drop ∨
    told drop message = [.beginStream] ∧ dropNext drop message = false ∨
    told drop message = [.clear] ∧ dropNext drop message = true ∨
    ∃ bytes, message = .binary bytes ∧ told drop message = [.push bytes] ∧ drop = false ∧ dropNext drop message = false := by
  cases message with
  | binary bytes =>
      cases drop with
      | true => exact Or.inl ⟨rfl, rfl⟩
      | false => exact Or.inr (Or.inr (Or.inr ⟨bytes, rfl, rfl, rfl, rfl⟩))
  | json e =>
      cases e with
      | ttsStart => exact Or.inr (Or.inl ⟨rfl, rfl⟩)
      | ttsClear reason => exact Or.inr (Or.inr (Or.inl ⟨rfl, rfl⟩))
      | _ => exact Or.inl ⟨rfl, rfl⟩

section

variable {messages : List Inbound} {before between after ends : List PlayerCall} {bytes : Bytes}

/-- Nothing is pushed while audio is dropped, before a stream begins. -/
theorem begin_of_dropped (hends : ∀ bytes, .push bytes ∉ ends)
    (h : gateFrom true messages ++ ends = before ++ .push bytes :: after) : .beginStream ∈ before := by
  induction messages generalizing before with
  | nil => exact absurd ((show ends = _ from h) ▸ List.mem_append_right before List.mem_cons_self) (hends bytes)
  | cons message messages ih =>
      rw [gateFrom, List.append_assoc] at h
      rcases told_cases true message with ⟨htold, hnext⟩ | ⟨htold, -⟩ | ⟨htold, hnext⟩ | ⟨_, -, -, hdrop, -⟩
      · rw [htold, hnext] at h
        exact ih h
      · rw [htold] at h
        cases before with
        | nil => cases h
        | cons first before => exact (List.cons.inj h).1 ▸ List.mem_cons_self
      · rw [htold, hnext] at h
        cases before with
        | nil => cases h
        | cons first before => exact List.mem_cons_of_mem _ (ih (List.cons.inj h).2)
      · cases hdrop

/-- From a `clear` to the next stream nothing is pushed. -/
theorem begin_of_cleared {drop : Bool} (hends : ∀ bytes, .push bytes ∉ ends)
    (h : gateFrom drop messages ++ ends = before ++ .clear :: (between ++ .push bytes :: after)) : .beginStream ∈ between := by
  induction messages generalizing drop before with
  | nil =>
      have hmem : .push bytes ∈ before ++ .clear :: (between ++ .push bytes :: after) := by simp
      exact absurd ((show ends = _ from h) ▸ hmem) (hends bytes)
  | cons message messages ih =>
      rw [gateFrom, List.append_assoc] at h
      cases before with
      | nil =>
          rcases told_cases drop message with ⟨htold, -⟩ | ⟨htold, -⟩ | ⟨htold, hnext⟩ | ⟨_, -, htold, -⟩
          · rw [htold] at h
            have hrest : gateFrom _ messages ++ ends = [] ++ .clear :: (between ++ .push bytes :: after) := h
            exact ih hrest
          · rw [htold] at h
            cases h
          · rw [htold, hnext] at h
            exact begin_of_dropped hends (List.cons.inj h).2
          · rw [htold] at h
            cases h
      | cons first before =>
          rcases told_cases drop message with ⟨htold, -⟩ | ⟨htold, -⟩ | ⟨htold, -⟩ | ⟨_, -, htold, -⟩
          · rw [htold] at h
            have hrest : gateFrom _ messages ++ ends = (first :: before) ++ .clear :: (between ++ .push bytes :: after) := h
            exact ih hrest
          all_goals
            rw [htold] at h
            exact ih (List.cons.inj h).2

end

/-- The bytes that the player is given. -/
def pushed : PlayerCall → Option Bytes
  | .push bytes => some bytes
  | _ => none

/-- The bytes of a binary message. -/
def received : Inbound → Option Bytes
  | .binary bytes => some bytes
  | .json _ => none

theorem pushed_gateFrom (drop : Bool) (messages : List Inbound) :
    ((gateFrom drop messages).filterMap pushed).Sublist (messages.filterMap received) := by
  induction messages generalizing drop with
  | nil => exact .slnil
  | cons message messages ih =>
      have hrest : ((gateFrom (dropNext drop message) messages).filterMap pushed).Sublist ((message :: messages).filterMap received) :=
        (ih _).trans (List.sublist_cons_self message messages |>.filterMap received)
      rw [gateFrom]
      rcases told_cases drop message with ⟨htold, -⟩ | ⟨htold, -⟩ | ⟨htold, -⟩ | ⟨bytes, rfl, htold, -⟩
      · rw [htold]
        exact hrest
      · rw [htold]
        exact hrest
      · rw [htold]
        exact hrest
      · rw [htold]
        exact (ih _).cons_cons bytes

/-- **What a player is told** in every run, the resets by the user apart: what its session's messages tell it, in their order,
and at the end, once, to close. From a `tts_clear` to the next `tts_start` it is given no audio, and all that it is given came
in, in that order. -/
theorem gate_of_run {ls : List ProviderLabel} (h : Run step (fun _ l => serverFair l = true) {} ls p) {s : Session}
    (hs : p.sessions[k]? = some s) :
    s.calls = .init :: (gate s.inbox ++ if p.wsRef = some k then [] else [.close]) ∧
    (∀ before between after bytes, s.calls = before ++ .clear :: (between ++ .push bytes :: after) → .beginStream ∈ between) ∧
    (s.calls.filterMap pushed).Sublist (s.inbox.filterMap received) := by
  have hsession := (sound_of_run h).session
  have htold : s.calls = .init :: (gate s.inbox ++ if p.wsRef = some k then [] else [.close]) := by
    by_cases hws : p.wsRef = some k
    · obtain ⟨old, hold, hlive⟩ := hsession.active k hws
      cases hs.symm.trans hold
      rw [if_pos hws, List.append_nil, hlive.told]
    · rw [if_neg hws, (hsession.ended k s hs hws).told]
  have hends : ∀ bytes, .push bytes ∉ (if p.wsRef = some k then [] else [.close] : List PlayerCall) := by
    intro bytes
    split <;> simp
  refine ⟨htold, ?_, ?_⟩
  · intro before between after bytes heq
    rw [htold] at heq
    cases before with
    | nil => cases heq
    | cons first before => exact begin_of_cleared hends (List.cons.inj heq).2
  · have hnone : (if p.wsRef = some k then [] else [.close] : List PlayerCall).filterMap pushed = [] := by
      split <;> rfl
    rw [htold, List.filterMap_cons_none rfl, List.filterMap_append, hnone, List.append_nil]
    exact pushed_gateFrom false s.inbox

/-- The user interrupts the answer: what comes in late of it is dropped. -/
def interrupted : List ProviderLabel :=
  [.connect, .opened 0 0, .message 0 .ttsStart 1, .binary 0 [1, 2], .message 0 (.ttsClear (some "barge_in".toList)) 2, .binary 0 [3, 4],
    .message 0 .ttsStart 3, .binary 0 [5, 6]]

theorem gate_of_run_interrupted : ∃ (p : Provider) (s : Session),
    Run step (fun _ l => serverFair l = true) {} interrupted p ∧ p.sessions[0]? = some s ∧
    s.calls = [.init, .beginStream, .push [1, 2], .clear, .beginStream, .push [5, 6]] ∧
    (s.calls.filterMap pushed).Sublist (s.inbox.filterMap received) := by
  obtain ⟨p, hrun, hend⟩ := Run.exists_of_exec
    (P := fun p : Provider => decide (p.sessions.map Session.calls =
      [[.init, .beginStream, .push [1, 2], .clear, .beginStream, .push [5, 6]]]))
    (s := ({} : Provider)) (show (exec step (fun _ l => serverFair l = true) _ interrupted).any _ = true by decide +kernel)
  obtain ⟨s, hs, hcalls⟩ := List.map_eq_singleton_iff.mp (of_decide_eq_true hend)
  have hget : p.sessions[0]? = some s := by rw [hs]; rfl
  exact ⟨p, s, hrun, hget, hcalls, (gate_of_run hrun hget).2.2⟩

end Provider

end Voxera.Web
