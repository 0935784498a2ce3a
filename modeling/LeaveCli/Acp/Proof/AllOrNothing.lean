import LeaveCli.Acp.Proof.Retry

/-!
# Accepting a prompt, completely or not at all

`accept_all_or_nothing`: a call of `accept_prompt` that replies with an error leaves the claims and
the session as they were exactly when none of its steps past the claim fails; and over a history in
which no step between a claim and its `user_prompt` fails, is cut off or crashes, `duplicate = true`
is the answer only for a command whose prompt is on record. Nothing undoes a claim: a call that
breaks off after it has used the command up.
-/

namespace LeaveCli.Acp

open Lib LeaveCli.Core

/-- The claims and the session read as they did in `h`. -/
def Unchanged (h : Host) (sessionId : Str) (t : Transition Host Action Output) : Prop :=
  t.after.store.claimed = h.store.claimed ∧
    t.after.store.stateOf sessionId = h.store.stateOf sessionId

/-- The state update, the event append or the task spawn fails. -/
def FailsAfterClaim (t : Transition Host Action Output) : Prop :=
  (∃ p, t.before.handler = some (.marking p) ∨ t.before.handler = some (.recording p) ∨
    t.before.handler = some (.launching p)) ∧ ∃ fault, t.input = .proceed (some fault)

/-- The call breaks off between its claim and its `user_prompt`. -/
def LosesClaim (t : Transition Host Action Output) : Prop :=
  (∃ p, t.before.handler = some (.marking p) ∨ t.before.handler = some (.recording p)) ∧
    (t.input = .crash ∨ (∃ message, t.input = .stop message) ∨
      ∃ fault, t.input = .proceed (some fault))

/-! ## One call -/

/-- The states of one call for `p` that began in `h`. -/
structure InCall (h : Host) (p : Prompt) (s : Host) : Prop where
  only : ∀ handler, s.handler = some handler → handler.prompt = some p
  reading : s.handler = some (.prompting p) ∨ s.handler = some (.claiming p) → s.store = h.store
  found : s.handler = some (.claiming p) ∨ s.handler = some (.marking p) →
    (s.store.stateOf p.sessionId).isSome
  claimed : ∀ handler, s.handler = some handler → handler.holds p.commandId →
    p.commandId ∈ s.store.claimed ∧ p.commandId ∉ h.store.claimed

theorem inCall_none {h s : Host} {p : Prompt} (hnone : s.handler = none) : InCall h p s where
  only := by simp [hnone]
  reading := by simp [hnone]
  found := by simp [hnone]
  claimed := by simp [hnone]

theorem step_receive {h : Host} {w : Worker} {command : WorkerCommand}
    (hworker : h.worker = some w) (hidle : w.stage = .serving none) :
    h.step (.receive command) =
      (.none, ⟨h.store, some { w with stage := .serving (some command.handler) }⟩) := by
  simp [Host.step, hworker, Host.act, hidle]

theorem inCall_receive {h : Host} {w : Worker} {p : Prompt} (hworker : h.worker = some w)
    (hidle : w.stage = .serving none) : InCall h p (h.step (.receive (.prompt p))).2 := by
  rw [step_receive hworker hidle]
  refine ⟨?_, fun _ => rfl, ?_, ?_⟩
  · intro handler hh
    cases hh
    rfl
  · intro hh
    rcases hh with hh | hh <;> cases hh
  · intro handler hh hholds
    cases hh
    cases hholds

theorem inCall_proceed {h s s' : Host} {p : Prompt} {fault : Option Str} {o : Output}
    (hI : InCall h p s) (hmove : Move s (.proceed fault) o s') : InCall h p s' := by
  cases hmove with
  | idle => exact hI
  | proceed w handler fault effect hworker hstage heffect =>
    have hhandler : s.handler = some handler := handler_of_stage hworker hstage
    have hprompt := hI.only handler hhandler
    cases call_of_proceed heffect with
    | read q session htext hsession hworking =>
      cases hprompt
      refine ⟨?_, ?_, ?_, ?_⟩
      · intro next hnext
        cases hnext
        rfl
      · intro _
        exact hI.reading (.inl hhandler)
      · intro _
        obtain ⟨hrow, -⟩ := EventStore.getSession_eq_some.1 hsession
        simp [EventStore.stateOf, Effect.andThen, hrow]
      · intro next hnext hholds
        cases hnext
        cases hholds
    | claim q hopen =>
      cases hprompt
      have hsame := hI.reading (.inr hhandler)
      refine ⟨?_, ?_, ?_, ?_⟩
      · intro next hnext
        cases hnext
        rfl
      · intro hnext
        rcases hnext with hnext | hnext <;> cases hnext
      · intro _
        exact hI.found (.inl hhandler)
      · intro next _ _
        exact ⟨Finset.mem_insert_self .., hsame ▸ hopen⟩
    | mark q hsession =>
      cases hprompt
      have hclaimed := hI.claimed _ hhandler (by simp [Handler.holds])
      refine ⟨?_, ?_, ?_, ?_⟩
      · intro next hnext
        cases hnext
        rfl
      · intro hnext
        rcases hnext with hnext | hnext <;> cases hnext
      · intro hnext
        rcases hnext with hnext | hnext <;> cases hnext
      · intro next _ _
        simpa [Effect.andThen] using hclaimed
    | record q =>
      cases hprompt
      have hclaimed := hI.claimed _ hhandler (by simp [Handler.holds])
      refine ⟨?_, ?_, ?_, ?_⟩
      · intro next hnext
        cases hnext
        rfl
      · intro hnext
        rcases hnext with hnext | hnext <;> cases hnext
      · intro hnext
        rcases hnext with hnext | hnext <;> cases hnext
      · intro next _ _
        exact hclaimed
    | fail handler fault error => exact inCall_none rfl
    | refuse q fault error => exact inCall_none rfl
    | vanish q error hgone => exact inCall_none rfl
    | duplicate q hclaimed => exact inCall_none rfl
    | launch q => exact inCall_none rfl
    | _ => cases hprompt

/-- `accept_prompt` never waits for the agent. -/
theorem exists_effect {handler : Handler} {p : Prompt} (hprompt : handler.prompt = some p)
    (workspace : WorkspaceRecord) (store : EventStore) (fault : Option Str) :
    ∃ effect, handler.proceed workspace store fault = some effect := by
  cases handler with
  | prompting q =>
    simp only [Handler.proceed]
    split <;> exact ⟨_, rfl⟩
  | claiming q => exact ⟨_, rfl⟩
  | marking q => exact ⟨_, rfl⟩
  | recording q => exact ⟨_, rfl⟩
  | launching q => exact ⟨_, rfl⟩
  | _ => cases hprompt

theorem failsAfterClaim_iff {s s' : Host} {handler : Handler} {fault : Option Str} {o : Output}
    (hhandler : s.handler = some handler) :
    FailsAfterClaim ⟨s, .proceed fault, o, s'⟩ ↔ (∃ c, handler.holds c) ∧ fault.isSome := by
  have hfault : (∃ error, Action.proceed fault = .proceed (some error)) ↔ fault.isSome := by
    cases fault <;> simp
  unfold FailsAfterClaim
  refine and_congr ?_ hfault
  constructor
  · intro hcase
    obtain ⟨p, hp | hp | hp⟩ := hcase <;> cases hhandler.symm.trans hp <;>
      exact ⟨p.commandId, by simp [Handler.holds]⟩
  · intro hcase
    obtain ⟨c, hholds⟩ := hcase
    cases handler with
    | marking p => exact ⟨p, .inl hhandler⟩
    | recording p => exact ⟨p, .inr (.inl hhandler)⟩
    | launching p => exact ⟨p, .inr (.inr hhandler)⟩
    | _ => cases hholds

theorem step_idle {s : Host} {fault : Option Str} (hnone : s.handler = none) :
    (s.step (.proceed fault)).1 = .none := by
  unfold Host.step
  split
  · rename_i w hworker
    have hw : w.handler = none := by rwa [handler_some hworker] at hnone
    simp [Host.act, hw, Host.handle]
  · rfl

/-- Before its claim, a call of `accept_prompt` is about to read or to claim. -/
theorem reading_of_prompt {s : Host} {handler : Handler} {p : Prompt}
    (hhandler : s.handler = some handler) (hprompt : handler.prompt = some p)
    (hholds : ¬ handler.holds p.commandId) :
    s.handler = some (.prompting p) ∨ s.handler = some (.claiming p) := by
  cases handler with
  | prompting q =>
    cases hprompt
    exact .inl hhandler
  | claiming q =>
    cases hprompt
    exact .inr hhandler
  | marking q =>
    cases hprompt
    simp [Handler.holds] at hholds
  | recording q =>
    cases hprompt
    simp [Handler.holds] at hholds
  | launching q =>
    cases hprompt
    simp [Handler.holds] at hholds
  | _ => cases hprompt

/-- A step of the call that replies with an error leaves no trace, unless it fails past the
claim. -/
theorem unchanged_iff {h s : Host} {p : Prompt} {fault : Option Str} (hI : InCall h p s) :
    (∀ error, (host.fire s (.proceed fault)).output.reply = some (.error error) →
        Unchanged h p.sessionId (host.fire s (.proceed fault))) ↔
      ¬ FailsAfterClaim (host.fire s (.proceed fault)) := by
  cases hhandler : s.handler with
  | none =>
    refine iff_of_true ?_ ?_
    · intro error herror
      have hnone : (s.step (.proceed fault)).1.reply = some (.error error) := herror
      rw [step_idle hhandler] at hnone
      cases hnone
    · intro hcase
      obtain ⟨⟨p, hp⟩, -⟩ := hcase
      rcases hp with hp | hp | hp <;> cases hhandler.symm.trans hp
  | some handler =>
    have hprompt := hI.only handler hhandler
    obtain ⟨w, hworker, hstage⟩ := worker_of_handler hhandler
    obtain ⟨effect, heffect⟩ := exists_effect hprompt w.workspace s.store fault
    have hstep := step_proceed _ hworker hstage heffect
    have hfire : host.fire s (.proceed fault) = ⟨s, .proceed fault, ⟨effect.reply, none⟩,
        ⟨effect.store, some (w.handled effect none)⟩⟩ := by
      show (⟨s, _, (s.step _).1, (s.step _).2⟩ : Transition Host Action Output) = _
      rw [hstep]
    rw [hfire, failsAfterClaim_iff hhandler]
    cases call_of_proceed heffect with
    | fail handler fault error =>
      by_cases hholds : handler.holds p.commandId
      · obtain ⟨hclaimed, hopen⟩ := hI.claimed handler hhandler hholds
        refine iff_of_false ?_ (not_not.2 ⟨⟨_, hholds⟩, rfl⟩)
        intro hunchanged
        exact hopen ((hunchanged error rfl).1 ▸ hclaimed)
      · have hsame : s.store = h.store := hI.reading (reading_of_prompt hhandler hprompt hholds)
        refine iff_of_true ?_ ?_
        · intro _ _
          exact ⟨by rw [← hsame]; rfl, by rw [← hsame]; rfl⟩
        · intro hcase
          obtain ⟨⟨c, hc⟩, -⟩ := hcase
          obtain ⟨q, hq, rfl⟩ := prompt_of_holds hc
          obtain rfl : q = p := Option.some.inj (hq.symm.trans hprompt)
          exact hholds hc
    | refuse q fault error =>
      cases hprompt
      have hsame := hI.reading (.inl hhandler)
      refine iff_of_true ?_ ?_
      · intro _ _
        exact ⟨by rw [← hsame]; rfl, by rw [← hsame]; rfl⟩
      · intro hcase
        obtain ⟨⟨c, hholds⟩, -⟩ := hcase
        cases hholds
    | vanish q error hgone =>
      cases hprompt
      have hfound := hI.found (.inr hhandler)
      rw [hgone] at hfound
      cases hfound
    | _ => 
      refine iff_of_true ?_ ?_
      · intro _ herror
        cases herror
      · intro hcase
        obtain ⟨-, hfault⟩ := hcase
        cases hfault

/-- A call by itself, with any of its calls failing. -/
theorem call_unchanged_iff {h : Host} {w : Worker} {p : Prompt} (hworker : h.worker = some w)
    (hidle : w.stage = .serving none) (faults : List (Option Str)) :
    (∀ t ∈ host.run h (.receive (.prompt p) :: faults.map .proceed), ∀ error,
        t.output.reply = some (.error error) → Unchanged h p.sessionId t) ↔
      ∀ t ∈ host.run h (.receive (.prompt p) :: faults.map .proceed), ¬ FailsAfterClaim t := by
  have hproceeds : ∀ a ∈ faults.map Action.proceed, ∃ fault, a = .proceed fault := by
    intro a ha
    obtain ⟨fault, -, rfl⟩ := List.mem_map.1 ha
    exact ⟨fault, rfl⟩
  have hrest := Machine.forall_run_iff (M := host) (I := InCall h p)
    (J := fun a => ∃ fault, a = .proceed fault)
    (P := fun t => ∀ error, t.output.reply = some (.error error) → Unchanged h p.sessionId t)
    (Q := fun t => ¬ FailsAfterClaim t)
    (by
      intro s a hI hcase
      obtain ⟨fault, rfl⟩ := hcase
      exact unchanged_iff hI)
    (by
      intro s a hI hcase _ _
      obtain ⟨fault, rfl⟩ := hcase
      exact inCall_proceed hI (step_move s _))
    (inCall_receive hworker hidle) hproceeds
  rw [host_run_cons, List.forall_mem_cons, List.forall_mem_cons]
  refine and_congr (iff_of_true ?_ ?_) hrest
  · intro error herror
    have hnone : (h.step (.receive (.prompt p))).1.reply = some (.error error) := herror
    rw [step_receive hworker hidle] at hnone
    cases hnone
  · intro hcase
    obtain ⟨-, fault, hinput⟩ := hcase
    cases hinput

/-! ## Duplicates -/

/-- Every claimed command is on record, but the one whose call is on its way there. -/
def Documented (h : Host) : Prop :=
  ∀ c ∈ h.store.claimed, h.store.promptEvents c ≠ [] ∨ ∃ p, h.Unrecorded p ∧ p.commandId = c

/-- The log is only appended to. -/
theorem prompted_move {h h' : Host} {a : Action} {o : Output} (hmove : Move h a o h') {c : Uuid}
    (hprompted : h.store.promptEvents c ≠ []) : h'.store.promptEvents c ≠ [] := by
  have happend : ∀ (workspaceId : Uuid) (sessionId : Option Str) (payload : Payload),
      (h.store.appendEvent workspaceId sessionId payload).1.promptEvents c ≠ [] := by
    intro workspaceId sessionId payload
    rw [EventStore.promptEvents_appendEvent]
    simp [hprompted]
  cases hmove with
  | idle a => exact hprompted
  | start workspace hworker => exact hprompted
  | crash => exact hprompted
  | startup w fault hworker =>
    show (w.startup h.store fault).1.promptEvents c ≠ []
    rw [startup_promptEvents]
    exact hprompted
  | stop w message hworker hstage => exact hprompted
  | receive w command hworker hstage => exact hprompted
  | proceed w handler fault effect hworker hstage heffect =>
    cases call_of_proceed heffect with
    | record p => exact happend _ _ _
    | recordCreated sessionId title => exact happend _ _ _
    | recordResumed sessionId => exact happend _ _ _
    | recordCancelled sessionId => exact happend _ _ _
    | claim p hopen => exact hprompted
    | _ => simpa [Effect.andThen, Effect.done, Effect.bail] using hprompted
  | answer w handler result effect hworker hstage heffect =>
    obtain ⟨hstore, -⟩ := (answer_of_answer heffect).spec
    rw [hstore]
    exact hprompted
  | progress w i task fault effect hworker htask heffect =>
    rw [promptEvents_taskCall (taskCall_of_progress heffect)]
    exact hprompted
  | complete w i task result next hworker htask hnext => exact hprompted
  | observe w sessionId notice fault hworker =>
    rw [publish_promptEvents h.store _ _ (commandId_notice notice)]
    exact hprompted

/-- No row of a session is ever deleted. -/
theorem row_move {h h' : Host} {a : Action} {o : Output} (hmove : Move h a o h') {sessionId : Str}
    (hrow : (h.store.stateOf sessionId).isSome) : (h'.store.stateOf sessionId).isSome := by
  have hupdate : ∀ (other : Str) (state : SessionState),
      ((h.store.updateSessionState other state).1.stateOf sessionId).isSome := by
    intro other state
    rw [EventStore.stateOf_updateSessionState]
    split
    · rename_i hother
      rw [← hother]
      simpa using hrow
    · exact hrow
  have hsame : ∀ store : EventStore, store.sessions = h.store.sessions →
      (store.stateOf sessionId).isSome := by
    intro store hsessions
    unfold EventStore.stateOf at hrow ⊢
    rwa [hsessions]
  cases hmove with
  | idle a => exact hrow
  | start workspace hworker => exact hrow
  | crash => exact hrow
  | startup w fault hworker =>
    unfold Worker.startup
    split
    · dsimp only
      split
      · exact hrow
      · rw [EventStore.stateOf_markWorkspaceSessionsOffline]
        simpa [EventStore.stateOf] using hrow
    · split <;> exact hrow
    · exact hsame _ (publish_sessions ..)
    · exact hsame _ (publish_sessions ..)
    · exact hrow
  | stop w message hworker hstage => exact hrow
  | receive w command hworker hstage => exact hrow
  | proceed w handler fault effect hworker hstage heffect =>
    cases call_of_proceed heffect with
    | register other title =>
      show ((h.store.upsertSession _).stateOf sessionId).isSome
      rw [EventStore.stateOf_upsertSession]
      split
      · rfl
      · exact hrow
    | resume other => exact hupdate other .idle
    | mark p hsession => exact hupdate p.sessionId .working
    | cancel other => exact hupdate other .idle
    | _ => exact hsame _ rfl
  | answer w handler result effect hworker hstage heffect =>
    obtain ⟨hstore, -⟩ := (answer_of_answer heffect).spec
    rw [hstore]
    exact hrow
  | progress w i task fault effect hworker htask heffect =>
    obtain ⟨p, phase⟩ := task
    cases taskCall_of_progress heffect with
    | send => exact hrow
    | unsent error => exact hrow
    | reset result => exact hupdate p.sessionId .idle
    | unreset result error => exact hrow
    | record result fault => exact hsame _ (publish_sessions ..)
  | complete w i task result next hworker htask hnext => exact hrow
  | observe w sessionId notice fault hworker => exact hsame _ (publish_sessions ..)

/-- The session of a prompt that was read has a row. -/
def Known (h : Host) : Prop :=
  ∀ p, h.handler = some (.claiming p) ∨ h.handler = some (.marking p) →
    (h.store.stateOf p.sessionId).isSome

theorem known_move {h h' : Host} {a : Action} {o : Output} (hK : Known h) (hmove : Move h a o h') :
    Known h' := by
  intro p hp
  refine hp.elim (fun hp => ?_) (fun hp => ?_)
  · cases advance_of_move hmove hp rfl with
    | same handler hbefore => exact row_move hmove (hK p (.inl hbefore))
    | read w session hworker hbefore htext hsession hworking =>
      obtain ⟨hrow, -⟩ := EventStore.getSession_eq_some.1 hsession
      exact row_move hmove (by simp [EventStore.stateOf, hrow])
  · cases advance_of_move hmove hp rfl with
    | same handler hbefore => exact row_move hmove (hK p (.inr hbefore))
    | claimed hbefore hopen => exact row_move hmove (hK p (.inl hbefore))

/-- A claim that is not lost is on record with the next step, or still on its way. -/
theorem unrecorded_move {h h' : Host} {a : Action} {o : Output} {p : Prompt} (hK : Known h)
    (hmove : Move h a o h') (hkept : ¬ LosesClaim ⟨h, a, o, h'⟩) (hp : h.Unrecorded p) :
    h'.store.promptEvents p.commandId ≠ [] ∨ h'.Unrecorded p := by
  cases hmove with
  | idle a => exact .inr hp
  | start workspace hworker =>
    simp [Host.Unrecorded, Host.handler, hworker] at hp
  | crash => exact absurd ⟨⟨p, hp⟩, .inl rfl⟩ hkept
  | stop w message hworker hstage => exact absurd ⟨⟨p, hp⟩, .inr (.inl ⟨message, rfl⟩)⟩ hkept
  | startup w fault hworker =>
    refine .inr ?_
    rw [unrecorded_iff rfl, handler_startup]
    exact (unrecorded_iff hworker).1 hp
  | receive w command hworker hstage =>
    simp [unrecorded_iff hworker, Worker.handler, hstage] at hp
  | answer w handler result effect hworker hstage heffect =>
    obtain ⟨-, -, hcalm, -⟩ := (answer_of_answer heffect).spec
    have hhandler : w.handler = some handler := handler_eq_some.2 hstage
    rcases (unrecorded_iff hworker).1 hp with hp | hp <;> rw [hp] at hhandler <;>
      cases hhandler <;> cases hcalm
  | proceed w handler fault effect hworker hstage heffect =>
    have hhandler : h.handler = some handler := handler_of_stage hworker hstage
    have hthis : handler = .marking p ∨ handler = .recording p :=
      hp.imp (fun hp => Option.some.inj (hhandler.symm.trans hp))
        fun hp => Option.some.inj (hhandler.symm.trans hp)
    cases call_of_proceed heffect with
    | fail handler fault error => exact absurd ⟨⟨p, hp⟩, .inr (.inr ⟨fault, rfl⟩)⟩ hkept
    | vanish q error hgone =>
      have hrow := hK q (.inr hhandler)
      rw [hgone] at hrow
      cases hrow
    | mark q hsession =>
      rcases hthis with hq | hq <;> cases hq
      exact .inr (.inr rfl)
    | record q =>
      rcases hthis with hq | hq <;> cases hq
      refine .inl ?_
      simp [Effect.andThen, EventStore.promptEvents_appendEvent, Payload.commandId]
    | _ => rcases hthis with hq | hq <;> cases hq
  | progress w i task fault effect hworker htask heffect =>
    refine .inr ?_
    rw [unrecorded_iff rfl]
    exact (unrecorded_iff hworker).1 hp
  | complete w i task result next hworker htask hnext =>
    refine .inr ?_
    rw [unrecorded_iff rfl]
    exact (unrecorded_iff hworker).1 hp
  | observe w sessionId notice fault hworker =>
    refine .inr ?_
    rw [unrecorded_iff rfl]
    exact (unrecorded_iff hworker).1 hp

theorem documented_move {h h' : Host} {a : Action} {o : Output} (hD : Documented h) (hK : Known h)
    (hmove : Move h a o h') (hkept : ¬ LosesClaim ⟨h, a, o, h'⟩) : Documented h' := by
  have hbefore : ∀ c ∈ h.store.claimed, h'.store.promptEvents c ≠ [] ∨
      ∃ p, h'.Unrecorded p ∧ p.commandId = c := by
    intro c hc
    rcases hD c hc with hprompted | ⟨p, hp, rfl⟩
    · exact .inl (prompted_move hmove hprompted)
    · rcases unrecorded_move hK hmove hkept hp with hprompted | hp
      · exact .inl hprompted
      · exact .inr ⟨p, hp, rfl⟩
  intro c hc
  rcases claimed_move hmove with hsame | ⟨p, -, hmarking, hinsert⟩
  · exact hbefore c (hsame ▸ hc)
  · rw [hinsert] at hc
    rcases Finset.mem_insert.1 hc with rfl | hc
    · exact .inr ⟨p, .inl hmarking, rfl⟩
    · exact hbefore c hc

theorem documented_of_duplicate {h h' : Host} {a : Action} {o : Output} {c : Uuid}
    (hD : Documented h) (hmove : Move h a o h')
    (hreply : o.reply = some (.ok (.accepted c true))) : h.store.promptEvents c ≠ [] := by
  cases hmove with
  | proceed w handler fault effect hworker hstage heffect =>
    have hhandler : h.handler = some handler := handler_of_stage hworker hstage
    cases call_of_proceed heffect with
    | duplicate p hclaimed =>
      cases hreply
      rcases hD p.commandId hclaimed with hprompted | ⟨q, hq | hq, -⟩
      · exact hprompted
      · cases hhandler.symm.trans hq
      · cases hhandler.symm.trans hq
    | _ => cases hreply
  | answer w handler result effect hworker hstage heffect =>
    have hanswer := answer_of_answer heffect
    generalize handler.attaches result = attached at hanswer
    cases hanswer <;> cases hreply
  | _ => cases hreply

/-- In a history that loses no claim, `duplicate = true` is the answer only for a command that is
on record. -/
theorem duplicates_documented {actions : List Action}
    (hkept : ∀ t ∈ host.run .fresh actions, ¬ LosesClaim t) {t : Transition Host Action Output}
    (ht : t ∈ host.run .fresh actions) {c : Uuid}
    (hreply : t.output.reply = some (.ok (.accepted c true))) :
    t.before.store.promptEvents c ≠ [] := by
  have hfresh : Documented .fresh ∧ Known .fresh := by
    refine ⟨?_, ?_⟩
    · intro c hc
      cases hc
    · intro p hp
      rcases hp with hp | hp <;> cases hp
  have hinvariant := Machine.run_invariant_of (M := host) (P := fun h => Documented h ∧ Known h)
    (C := fun t => ¬ LosesClaim t) (fun h a hI hlost =>
      ⟨documented_move hI.1 hI.2 (step_move h a) hlost, known_move hI.2 (step_move h a)⟩)
    hfresh hkept ht
  exact documented_of_duplicate hinvariant.1.1 (run_move ht) hreply

/-- An error leaves no trace unless a step past the claim fails; and where no claim is lost, a
duplicate is on record. -/
theorem accept_all_or_nothing (h : Host) (w : Worker) (p : Prompt) (faults : List (Option Str))
    (hworker : h.worker = some w) (hidle : w.stage = .serving none) :
    ((∀ t ∈ host.run h (.receive (.prompt p) :: faults.map .proceed), ∀ error,
        t.output.reply = some (.error error) → Unchanged h p.sessionId t) ↔
      ∀ t ∈ host.run h (.receive (.prompt p) :: faults.map .proceed), ¬ FailsAfterClaim t) ∧
    ∀ actions, (∀ t ∈ host.run .fresh actions, ¬ LosesClaim t) →
      ∀ t ∈ host.run .fresh actions, ∀ c, t.output.reply = some (.ok (.accepted c true)) →
        t.before.store.promptEvents c ≠ [] :=
  ⟨call_unchanged_iff hworker hidle faults, fun _ hkept _ ht _ hreply =>
    duplicates_documented hkept ht hreply⟩

/-! ## A claim that is lost -/

/-- The host with its session, idle. -/
def setUpHost : Host := setUp.foldl (fun h a => (h.step a).2) .fresh

/-- The statement that marks the session fails. -/
def lockedOnMark : List (Option Str) := [none, none, some "database is locked"]

/-- The call fails with the command used up, and the next call takes it for accepted. -/
theorem lost_claim_answers_duplicate :
    (∃ t ∈ host.run setUpHost (.receive (.prompt hello) :: lockedOnMark.map .proceed),
      t.output.reply = some (.error "database is locked") ∧
        ¬ (t.after.store.claimed = setUpHost.store.claimed ∧
          t.after.store.stateOf hello.sessionId = setUpHost.store.stateOf hello.sessionId)) ∧
    ∃ t ∈ host.run .fresh (setUp ++ .receive (.prompt hello) :: lockedOnMark.map .proceed ++
        [.receive (.prompt hello), .proceed none, .proceed none]),
      t.output.reply = some (.ok (.accepted hello.commandId true)) ∧
        t.before.store.promptEvents hello.commandId = [] := by
  decide

theorem accept_all_or_nothing_setUp :
    ∃ w, setUpHost.worker = some w ∧ w.stage = .serving none ∧
      (((∀ t ∈ host.run setUpHost (.receive (.prompt hello) :: lockedOnMark.map .proceed), ∀ error,
          t.output.reply = some (.error error) → Unchanged setUpHost hello.sessionId t) ↔
        ∀ t ∈ host.run setUpHost (.receive (.prompt hello) :: lockedOnMark.map .proceed),
          ¬ FailsAfterClaim t) ∧
      ∀ actions, (∀ t ∈ host.run .fresh actions, ¬ LosesClaim t) →
        ∀ t ∈ host.run .fresh actions, ∀ c, t.output.reply = some (.ok (.accepted c true)) →
          t.before.store.promptEvents c ≠ []) :=
  ⟨_, rfl, rfl, accept_all_or_nothing setUpHost _ hello lockedOnMark rfl rfl⟩

end LeaveCli.Acp
