import LeaveCli.Acp.Worker

/-!
# What an action does

`Move h a o h'`: the ways one action can change the host, with everything that is known of each;
`step_move` is the inversion of `Host.step` that the invariants argue from. `Host.load` counts the
prompts in hand, in the handler and in the tasks, by predicates on both.
-/

namespace LeaveCli.Acp

open Lib LeaveCli.Core

/-- One action, by what it does. -/
inductive Move (h : Host) : Action → Output → Host → Prop
  | idle (a : Action) : Move h a .none h
  | start (workspace : WorkspaceRecord) :
      h.worker = none → Move h (.start workspace) .none ⟨h.store, some (.start workspace)⟩
  | crash : Move h .crash .none ⟨h.store, none⟩
  | startup (w : Worker) (fault : Option Str) :
      h.worker = some w → Move h (.startup fault) .none
        ⟨(w.startup h.store fault).1, some { w with stage := (w.startup h.store fault).2 }⟩
  | stop (w : Worker) (message : Str) :
      h.worker = some w → w.stage ≠ .marking → Move h (.stop message) .none
        ⟨h.store, some { w with stage := .failing message, tasks := [] }⟩
  | receive (w : Worker) (command : WorkerCommand) :
      h.worker = some w → w.stage = .serving none → Move h (.receive command) .none
        ⟨h.store, some { w with stage := .serving (some command.handler) }⟩
  | proceed (w : Worker) (handler : Handler) (fault : Option Str) (effect : Effect) :
      h.worker = some w → w.stage = .serving (some handler) →
      handler.proceed w.workspace h.store fault = some effect →
      Move h (.proceed fault) ⟨effect.reply, none⟩ ⟨effect.store, some (w.handled effect none)⟩
  | answer (w : Worker) (handler : Handler) (result : Except Str Str) (effect : Effect) :
      h.worker = some w → w.stage = .serving (some handler) →
      handler.answer h.store result = some effect →
      Move h (.answer result) ⟨effect.reply, none⟩
        ⟨effect.store, some (w.handled effect (handler.attaches result))⟩
  | progress (w : Worker) (i : Nat) (task : Task) (fault : Option Str) (effect : TaskEffect) :
      h.worker = some w → w.tasks[i]? = some task →
      task.progress w.workspace h.store fault = some effect →
      Move h (.progress i fault) ⟨none, effect.sent⟩
        ⟨effect.store, some (w.worked i effect.next)⟩
  | complete (w : Worker) (i : Nat) (task : Task) (result : Except Str Unit) (next : Task) :
      h.worker = some w → w.tasks[i]? = some task → task.complete result = some next →
      Move h (.complete i result) .none ⟨h.store, some (w.worked i (some next))⟩
  | observe (w : Worker) (sessionId : Str) (notice : Notice) (fault : Option Str) :
      h.worker = some w → Move h (.observe sessionId notice fault) .none
        ⟨publish h.store w.workspace.id (some sessionId) notice.payload fault, some w⟩

theorem handler_eq_some {w : Worker} {handler : Handler} :
    w.handler = some handler ↔ w.stage = .serving (some handler) := by
  unfold Worker.handler
  split
  · rename_i hstage
    simp [hstage]
  · rename_i hstage
    simp only [reduceCtorEq, false_iff]
    exact hstage (some handler)

theorem step_move (h : Host) (a : Action) : Move h a (h.step a).1 (h.step a).2 := by
  unfold Host.step
  split
  · rename_i w hw
    cases a with
    | start workspace => exact .idle _
    | crash => exact .crash
    | startup fault => exact .startup w fault hw
    | stop message =>
      simp only [Host.act]
      split
      · rename_i hstage
        exact .stop w message hw (by simp [hstage])
      · rename_i hstage
        exact .stop w message hw (by simp [hstage])
      · rename_i hstage
        exact .stop w message hw (by simp [hstage])
      · exact .idle _
    | receive command =>
      simp only [Host.act]
      split
      · rename_i hstage
        exact .receive w command hw hstage
      · exact .idle _
    | proceed fault =>
      simp only [Host.act, Host.handle]
      split
      · exact .idle _
      · rename_i effect heffect
        obtain ⟨handler, hhandler, heffect⟩ := Option.bind_eq_some_iff.1 heffect
        exact .proceed w handler fault effect hw (handler_eq_some.1 hhandler) heffect
    | answer result =>
      simp only [Host.act, Host.handle]
      split
      · exact .idle _
      · rename_i effect heffect
        obtain ⟨handler, hhandler, heffect⟩ := Option.bind_eq_some_iff.1 heffect
        rw [hhandler]
        exact .answer w handler result effect hw (handler_eq_some.1 hhandler) heffect
    | progress i fault =>
      simp only [Host.act]
      split
      · exact .idle _
      · rename_i effect heffect
        obtain ⟨task, htask, heffect⟩ := Option.bind_eq_some_iff.1 heffect
        exact .progress w i task fault effect hw htask heffect
    | complete i result =>
      simp only [Host.act]
      split
      · exact .idle _
      · rename_i next hnext
        obtain ⟨task, htask, hnext⟩ := Option.bind_eq_some_iff.1 hnext
        exact .complete w i task result next hw htask hnext
    | observe sessionId notice fault =>
      simp only [Host.act]
      split
      · exact .observe w sessionId notice fault hw
      · exact .observe w sessionId notice fault hw
      · exact .observe w sessionId notice fault hw
      · exact .idle _
  · rename_i hw
    cases a with
    | start workspace => exact .start workspace hw
    | _ => exact .idle _

theorem step_proceed {h : Host} {w : Worker} {handler : Handler} (fault : Option Str)
    {effect : Effect} (hworker : h.worker = some w) (hstage : w.stage = .serving (some handler))
    (heffect : handler.proceed w.workspace h.store fault = some effect) :
    h.step (.proceed fault) =
      (⟨effect.reply, none⟩, ⟨effect.store, some (w.handled effect none)⟩) := by
  simp [Host.step, hworker, Host.act, handler_eq_some.2 hstage, heffect, Host.handle]

theorem step_progress {h : Host} {w : Worker} {i : Nat} {task : Task} {fault : Option Str}
    {effect : TaskEffect} (hworker : h.worker = some w) (htask : w.tasks[i]? = some task)
    (heffect : task.progress w.workspace h.store fault = some effect) :
    h.step (.progress i fault) =
      (⟨none, effect.sent⟩, ⟨effect.store, some (w.worked i effect.next)⟩) := by
  simp [Host.step, hworker, Host.act, htask, heffect]

theorem host_run_cons (h : Host) (a : Action) (actions : List Action) :
    host.run h (a :: actions) = host.fire h a :: host.run (h.step a).2 actions := rfl

theorem run_move {h : Host} {actions : List Action} {t : Transition Host Action Output}
    (ht : t ∈ host.run h actions) : Move t.before t.input t.output t.after := by
  rw [Machine.eq_fire_of_mem_run ht]
  exact step_move t.before t.input

@[simp] theorem publish_sessions (store : EventStore) (workspaceId : Uuid) (sessionId : Option Str)
    (payload : Payload) (fault : Option Str) :
    (publish store workspaceId sessionId payload fault).sessions = store.sessions := by
  unfold publish
  split <;> rfl

@[simp] theorem publish_claimed (store : EventStore) (workspaceId : Uuid) (sessionId : Option Str)
    (payload : Payload) (fault : Option Str) :
    (publish store workspaceId sessionId payload fault).claimed = store.claimed := by
  unfold publish
  split <;> rfl

@[simp] theorem startup_claimed (w : Worker) (store : EventStore) (fault : Option Str) :
    (w.startup store fault).1.claimed = store.claimed := by
  unfold Worker.startup
  split
  · split <;> rfl
  · split <;> rfl
  · simp
  · simp
  · rfl

/-- Starting up, the worker has no command under way; in the loop nothing is left to start. -/
@[simp] theorem handler_startup (w : Worker) (store : EventStore) (fault : Option Str) :
    ({ w with stage := (w.startup store fault).2 } : Worker).handler = w.handler := by
  unfold Worker.startup Worker.handler
  cases w.stage with
  | connecting => cases fault <;> rfl
  | _ => rfl

/-! ## Calls of a handler -/

/-- A call of a handler that succeeds or stops the command, by what it does. -/
inductive Call (workspace : WorkspaceRecord) (store : EventStore) :
    Handler → Option Str → Effect → Prop
  | fail (handler : Handler) (fault error : Str) :
      Call workspace store handler (some fault) (.bail store error)
  | refuse (p : Prompt) (fault : Option Str) (error : Str) :
      Call workspace store (.prompting p) fault (.bail store error)
  | vanish (p : Prompt) (error : Str) :
      store.stateOf p.sessionId = none →
      Call workspace store (.marking p) none (.bail store error)
  | register (sessionId title : Str) :
      Call workspace store (.registering sessionId title) none
        (.andThen (store.upsertSession (newSession workspace sessionId title))
          (.recordingCreated sessionId title))
  | recordCreated (sessionId title : Str) :
      Call workspace store (.recordingCreated sessionId title) none
        (.done (store.appendEvent workspace.id (some sessionId)
          (.sessionCreated (newSession workspace sessionId title))).1
          (.created (newSession workspace sessionId title)))
  | resume (sessionId : Str) :
      Call workspace store (.resumed sessionId) none
        (.andThen (store.updateSessionState sessionId .idle).1 (.recordingResumed sessionId))
  | recordResumed (sessionId : Str) :
      Call workspace store (.recordingResumed sessionId) none
        (.done (store.appendEvent workspace.id (some sessionId) (.sessionResumed sessionId)).1
          .resumed)
  | read (p : Prompt) (session : SessionRecord) :
      ¬ p.text.trim.isEmpty → store.getSession workspace.id p.sessionId = some session →
      session.state ≠ .working →
      Call workspace store (.prompting p) none (.andThen store (.claiming p))
  | duplicate (p : Prompt) :
      p.commandId ∈ store.claimed →
      Call workspace store (.claiming p) none (.done store (.accepted p.commandId true))
  | claim (p : Prompt) :
      p.commandId ∉ store.claimed →
      Call workspace store (.claiming p) none
        (.andThen { store with claimed := insert p.commandId store.claimed } (.marking p))
  | mark (p : Prompt) :
      (store.stateOf p.sessionId).isSome →
      Call workspace store (.marking p) none
        (.andThen (store.updateSessionState p.sessionId .working).1 (.recording p))
  | record (p : Prompt) :
      Call workspace store (.recording p) none
        (.andThen (store.appendEvent workspace.id (some p.sessionId)
          (.userPrompt p.commandId p.text)).1 (.launching p))
  | launch (p : Prompt) :
      Call workspace store (.launching p) none
        ⟨store, none, some (.ok (.accepted p.commandId false)), some p⟩
  | notify (sessionId : Str) :
      Call workspace store (.notifying sessionId) none (.andThen store (.cancelling sessionId))
  | cancel (sessionId : Str) :
      Call workspace store (.cancelling sessionId) none
        (.andThen (store.updateSessionState sessionId .idle).1 (.recordingCancelled sessionId))
  | recordCancelled (sessionId : Str) :
      Call workspace store (.recordingCancelled sessionId) none
        (.done (store.appendEvent workspace.id (some sessionId) (.sessionCancelled sessionId)).1
          .cancelled)

theorem call_attempt {workspace : WorkspaceRecord} {store : EventStore} {handler : Handler}
    {fault : Option Str} {effect : Effect}
    (h : fault = none → Call workspace store handler none effect) :
    Call workspace store handler fault (.attempt store fault effect) := by
  cases fault with
  | none => exact h rfl
  | some error => exact .fail handler error error

theorem call_of_proceed {workspace : WorkspaceRecord} {store : EventStore} {handler : Handler}
    {fault : Option Str} {effect : Effect}
    (h : handler.proceed workspace store fault = some effect) :
    Call workspace store handler fault effect := by
  cases handler with
  | creating title => cases h
  | resuming sessionId => cases h
  | registering sessionId title =>
    cases h
    exact call_attempt fun _ => .register sessionId title
  | recordingCreated sessionId title =>
    cases h
    exact call_attempt fun _ => .recordCreated sessionId title
  | resumed sessionId =>
    cases h
    exact call_attempt fun _ => .resume sessionId
  | recordingResumed sessionId =>
    cases h
    exact call_attempt fun _ => .recordResumed sessionId
  | prompting p =>
    simp only [Handler.proceed] at h
    split at h
    · cases h
      exact .refuse p fault _
    · rename_i htext
      cases h
      refine call_attempt fun _ => ?_
      split
      · exact .refuse p none _
      · rename_i session hsession
        split
        · exact .refuse p none _
        · rename_i hworking
          exact .read p session htext hsession hworking
  | claiming p =>
    cases h
    refine call_attempt fun _ => ?_
    unfold EventStore.claimCommand
    by_cases hclaimed : p.commandId ∈ store.claimed
    · rw [if_pos hclaimed]
      exact .duplicate p hclaimed
    · rw [if_neg hclaimed]
      exact .claim p hclaimed
  | marking p =>
    cases h
    refine call_attempt fun _ => ?_
    have hfound := store.updateSessionState_snd p.sessionId .working
    split
    · rename_i store' hupdate
      rw [hupdate] at hfound
      have hsame : store' = store := by
        unfold EventStore.updateSessionState at hupdate
        split at hupdate <;> simp_all
      rw [hsame]
      exact .vanish p _ (by simpa using hfound.symm)
    · rename_i store' hupdate
      rw [hupdate] at hfound
      have hstore : store' = (store.updateSessionState p.sessionId .working).1 := by
        rw [hupdate]
      rw [hstore]
      exact .mark p hfound.symm
  | recording p =>
    cases h
    exact call_attempt fun _ => .record p
  | launching p =>
    cases h
    exact call_attempt fun _ => .launch p
  | notifying sessionId =>
    cases h
    cases fault with
    | none => exact .notify sessionId
    | some error => exact .fail _ error _
  | cancelling sessionId =>
    cases h
    exact call_attempt fun _ => .cancel sessionId
  | recordingCancelled sessionId =>
    cases h
    exact call_attempt fun _ => .recordCancelled sessionId

/-- The prompt of an `accept_prompt` under way. -/
def Handler.prompt : Handler → Option Prompt
  | prompting p | claiming p | marking p | recording p | launching p => some p
  | _ => none

/-- The agent's answer writes nothing. -/
inductive Answer (store : EventStore) :
    Handler → Except Str Str → Effect → Option Str → Prop
  | bail (handler : Handler) (error message : Str) :
      handler.prompt = none → Answer store handler (.error error) (.bail store message) none
  | created (title sessionId : Str) :
      Answer store (.creating title) (.ok sessionId) (.andThen store (.registering sessionId title))
        (some sessionId)
  | resumed (sessionId text : Str) :
      Answer store (.resuming sessionId) (.ok text) (.andThen store (.resumed sessionId))
        (some sessionId)

theorem answer_of_answer {store : EventStore} {handler : Handler} {result : Except Str Str}
    {effect : Effect} (h : handler.answer store result = some effect) :
    Answer store handler result effect (handler.attaches result) := by
  unfold Handler.answer at h
  split at h
  · split at h
    · cases h
      exact .bail _ _ _ rfl
    · cases h
      exact .created _ _
  · split at h
    · cases h
      exact .bail _ _ _ rfl
    · cases h
      exact .resumed _ _
  · cases h

theorem Answer.spec {store : EventStore} {handler : Handler} {result : Except Str Str}
    {effect : Effect} {attached : Option Str}
    (h : Answer store handler result effect attached) :
    effect.store = store ∧ effect.launched = none ∧ handler.prompt = none ∧
      ∀ next, effect.next = some next → next.prompt = none := by
  cases h with
  | bail handler error message hprompt =>
    refine ⟨rfl, rfl, hprompt, ?_⟩
    intro next hnext
    cases hnext
  | created title sessionId =>
    refine ⟨rfl, rfl, rfl, ?_⟩
    intro next hnext
    cases hnext
    rfl
  | resumed sessionId text =>
    refine ⟨rfl, rfl, rfl, ?_⟩
    intro next hnext
    cases hnext
    rfl

/-- A call of a task, by what it does. -/
inductive TaskCall (workspace : WorkspaceRecord) (store : EventStore) (p : Prompt) :
    Phase → Option Str → TaskEffect → Prop
  | send : TaskCall workspace store p .sending none ⟨store, some ⟨p, .waiting⟩, some p⟩
  | unsent (error : Str) :
      TaskCall workspace store p .sending (some error)
        ⟨store, some ⟨p, .resetting (.error error)⟩, none⟩
  | reset (result : Except Str Unit) :
      TaskCall workspace store p (.resetting result) none
        ⟨(store.updateSessionState p.sessionId .idle).1, some ⟨p, .recording result⟩, none⟩
  | unreset (result : Except Str Unit) (error : Str) :
      TaskCall workspace store p (.resetting result) (some error)
        ⟨store, some ⟨p, .recording result⟩, none⟩
  | record (result : Except Str Unit) (fault : Option Str) :
      TaskCall workspace store p (.recording result) fault
        ⟨publish store workspace.id (some p.sessionId) (turnPayload result) fault, none, none⟩

theorem taskCall_of_progress {workspace : WorkspaceRecord} {store : EventStore} {task : Task}
    {fault : Option Str} {effect : TaskEffect}
    (h : task.progress workspace store fault = some effect) :
    TaskCall workspace store task.prompt task.phase fault effect := by
  obtain ⟨p, phase⟩ := task
  cases phase with
  | sending =>
    cases fault with
    | none =>
      cases h
      exact .send
    | some error =>
      cases h
      exact .unsent error
  | waiting => cases h
  | resetting result =>
    cases fault with
    | none =>
      cases h
      exact .reset result
    | some error =>
      cases h
      exact .unreset result error
  | recording result =>
    cases h
    exact .record result fault

theorem TaskCall.next_phase {workspace : WorkspaceRecord} {store : EventStore} {p : Prompt}
    {phase : Phase} {fault : Option Str} {effect : TaskEffect}
    (h : TaskCall workspace store p phase fault effect) :
    ∀ next, effect.next = some next → next.prompt = p ∧ next.phase ≠ .sending := by
  intro next hnext
  cases h with
  | send =>
    cases hnext
    simp
  | unsent error =>
    cases hnext
    simp
  | reset result =>
    cases hnext
    simp
  | unreset result error =>
    cases hnext
    simp
  | record result fault => cases hnext

theorem complete_eq_some {task next : Task} {result : Except Str Unit} :
    task.complete result = some next ↔
      task.phase = .waiting ∧ next = ⟨task.prompt, .resetting result⟩ := by
  unfold Task.complete
  split
  · rename_i hphase
    simp [hphase, eq_comm]
  · rename_i hphase
    simp only [reduceCtorEq, false_iff, not_and]
    intro hwaiting
    exact absurd hwaiting hphase

/-! ## The command under way -/

theorem handler_some {h : Host} {w : Worker} (hworker : h.worker = some w) :
    h.handler = w.handler := by
  simp [Host.handler, hworker]

theorem worker_of_handler {h : Host} {handler : Handler} (hhandler : h.handler = some handler) :
    ∃ w, h.worker = some w ∧ w.stage = .serving (some handler) := by
  obtain ⟨w, hworker, hw⟩ := Option.bind_eq_some_iff.1 hhandler
  exact ⟨w, hworker, handler_eq_some.1 hw⟩

theorem handler_of_stage {h : Host} {w : Worker} {handler : Handler} (hworker : h.worker = some w)
    (hstage : w.stage = .serving (some handler)) : h.handler = some handler :=
  (handler_some hworker).trans (handler_eq_some.2 hstage)

/-- How a call of `accept_prompt` for `p` came to stand at a handler. -/
inductive Advance (h : Host) (p : Prompt) : Handler → Prop
  | same (handler : Handler) : h.handler = some handler → Advance h p handler
  | received : Advance h p (.prompting p)
  | read (w : Worker) (session : SessionRecord) :
      h.worker = some w → h.handler = some (.prompting p) → ¬ p.text.trim.isEmpty →
      h.store.getSession w.workspace.id p.sessionId = some session → session.state ≠ .working →
      Advance h p (.claiming p)
  | claimed : h.handler = some (.claiming p) → p.commandId ∉ h.store.claimed →
      Advance h p (.marking p)
  | marked : h.handler = some (.marking p) → Advance h p (.recording p)
  | recorded : h.handler = some (.recording p) → Advance h p (.launching p)

theorem advance_of_move {h h' : Host} {a : Action} {o : Output} (hmove : Move h a o h')
    {next : Handler} {p : Prompt} (hnext : h'.handler = some next)
    (hprompt : next.prompt = some p) : Advance h p next := by
  cases hmove with
  | idle a => exact .same next hnext
  | start workspace hworker => cases hnext
  | crash => cases hnext
  | startup w fault hworker =>
    rw [handler_some rfl, handler_startup] at hnext
    exact .same next ((handler_some hworker).trans hnext)
  | stop w message hworker hstage => cases hnext
  | receive w command hworker hstage =>
    cases hnext
    cases command with
    | prompt q =>
      cases hprompt
      exact .received
    | _ => cases hprompt
  | proceed w handler fault effect hworker hstage heffect =>
    have hhandler : h.handler = some handler := handler_of_stage hworker hstage
    cases call_of_proceed heffect with
    | read q session htext hsession hworking =>
      cases hnext
      cases hprompt
      exact .read w session hworker hhandler htext hsession hworking
    | claim q hopen =>
      cases hnext
      cases hprompt
      exact .claimed hhandler hopen
    | mark q hsession =>
      cases hnext
      cases hprompt
      exact .marked hhandler
    | record q =>
      cases hnext
      cases hprompt
      exact .recorded hhandler
    | _ => cases hnext <;> cases hprompt
  | answer w handler result effect hworker hstage heffect =>
    obtain ⟨-, -, -, hcalm⟩ := (answer_of_answer heffect).spec
    rw [hcalm next hnext] at hprompt
    cases hprompt
  | progress w i task fault effect hworker htask heffect =>
    exact .same next ((handler_some hworker).trans hnext)
  | complete w i task result next hworker htask hcomplete =>
    exact .same _ ((handler_some hworker).trans hnext)
  | observe w sessionId notice fault hworker =>
    exact .same next ((handler_some hworker).trans hnext)

/-- Claims are taken by `claiming` alone, and never given back. -/
theorem claimed_move {h h' : Host} {a : Action} {o : Output} (hmove : Move h a o h') :
    h'.store.claimed = h.store.claimed ∨ ∃ p, h.handler = some (.claiming p) ∧
      h'.handler = some (.marking p) ∧
        h'.store.claimed = insert p.commandId h.store.claimed := by
  cases hmove with
  | startup w fault hworker => exact .inl (startup_claimed w h.store fault)
  | proceed w handler fault effect hworker hstage heffect =>
    have hhandler : h.handler = some handler := handler_of_stage hworker hstage
    cases call_of_proceed heffect with
    | claim p hopen => exact .inr ⟨p, hhandler, rfl, rfl⟩
    | _ => exact .inl (by simp [Effect.andThen, Effect.done, Effect.bail])
  | answer w handler result effect hworker hstage heffect =>
    obtain ⟨hstore, -⟩ := (answer_of_answer heffect).spec
    exact .inl (by rw [hstore])
  | progress w i task fault effect hworker htask heffect =>
    refine .inl ?_
    obtain ⟨p, phase⟩ := task
    cases taskCall_of_progress heffect <;> simp
  | observe w sessionId notice fault hworker => exact .inl (publish_claimed ..)
  | _ => exact .inl rfl

/-! ## Prompts in hand -/

/-- How many prompts the worker has in hand that satisfy `f` in the handler, `g` in a task. -/
def Worker.load (f : Handler → Bool) (g : Task → Bool) (w : Worker) : Nat :=
  (w.handler.toList.countP f) + w.tasks.countP g

def Host.load (f : Handler → Bool) (g : Task → Bool) (h : Host) : Nat :=
  h.worker.elim 0 (Worker.load f g)

section

variable {f : Handler → Bool} {g : Task → Bool} {w : Worker}

theorem load_handled (effect : Effect) (attached : Option Str) :
    (w.handled effect attached).load f g =
      effect.next.toList.countP f + ((effect.launched.map fun p => ⟨p, .sending⟩).toList.countP g +
        w.tasks.countP g) := by
  simp [Worker.load, Worker.handled, Worker.handler, List.countP_append]

/-- A step of a task changes what is in hand by that task alone. -/
theorem load_worked {i : Nat} {task : Task} (htask : w.tasks[i]? = some task)
    (next : Option Task) :
    (w.worked i next).load f g + [task].countP g = w.load f g + next.toList.countP g := by
  obtain ⟨hi, rfl⟩ := List.getElem?_eq_some_iff.1 htask
  have hcount := (List.getElem_cons_eraseIdx_perm hi).countP_eq g
  rw [← List.singleton_append, List.countP_append] at hcount
  have hhandler : (w.worked i next).handler = w.handler := rfl
  have htasks : (w.worked i next).tasks = next.toList ++ w.tasks.eraseIdx i := rfl
  simp only [Worker.load, hhandler, htasks, List.countP_append]
  omega

theorem load_of_serving {handler : Handler} (hstage : w.stage = .serving (some handler)) :
    w.load f g = [handler].countP f + w.tasks.countP g := by
  simp [Worker.load, Worker.handler, hstage]

end

end LeaveCli.Acp
