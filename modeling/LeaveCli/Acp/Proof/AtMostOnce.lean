import LeaveCli.Acp.Proof.Moves

/-!
# At most one send for a command

`host_sends_once`: whatever happens from the first start on, a command identifier makes the host
send at most one `PromptRequest`, and when it is sent the log has exactly one `user_prompt` of that
identifier, with its session and text.

A send is paid for: `Host.budget c` counts the claim of `c` that is still open and the prompts in
hand that have claimed it and are not sent yet. No action raises it, a send lowers it.
-/

namespace LeaveCli.Acp

open Lib LeaveCli.Core

/-! ## The budget of a command -/

/-- The handler has claimed `c` and not handed its prompt on. -/
def Handler.holds (c : Uuid) : Handler → Bool
  | marking p | recording p | launching p => p.commandId = c
  | _ => false

def Task.unsent (c : Uuid) (task : Task) : Bool :=
  task.phase = .sending ∧ task.prompt.commandId = c

/-- One claim of `c` is open until it is taken. -/
def openClaim (c : Uuid) (claimed : Finset Uuid) : Nat := if c ∈ claimed then 0 else 1

def Host.budget (c : Uuid) (h : Host) : Nat :=
  openClaim c h.store.claimed + h.load (Handler.holds c) (Task.unsent c)

/-- The prompts of command `c` an output sends. -/
def Output.sends (c : Uuid) (o : Output) : List Prompt :=
  (o.sent.filter fun p => p.commandId = c).toList

@[simp] theorem sends_none (c : Uuid) : Output.none.sends c = [] := rfl

@[simp] theorem sends_reply (c : Uuid) (reply : Option (Except Str Reply)) :
    (⟨reply, none⟩ : Output).sends c = [] := rfl

@[simp] theorem sends_sent (c : Uuid) (p : Prompt) :
    (⟨none, some p⟩ : Output).sends c = if p.commandId = c then [p] else [] := by
  unfold Output.sends
  by_cases hp : p.commandId = c <;> simp [Option.filter, hp]

theorem prompt_of_holds {c : Uuid} {handler : Handler} (hholds : handler.holds c) :
    ∃ p, handler.prompt = some p ∧ p.commandId = c := by
  cases handler with
  | marking p => exact ⟨p, rfl, by simpa [Handler.holds] using hholds⟩
  | recording p => exact ⟨p, rfl, by simpa [Handler.holds] using hholds⟩
  | launching p => exact ⟨p, rfl, by simpa [Handler.holds] using hholds⟩
  | _ => cases hholds

theorem holds_command (c : Uuid) (command : WorkerCommand) :
    command.handler.holds c = false := by
  cases command <;> rfl

/-- A step of the handler that claims nothing and hands nothing on. -/
theorem budget_handled_le {h : Host} {w : Worker} {handler : Handler} {effect : Effect}
    {attached : Option Str} (c : Uuid) (hworker : h.worker = some w)
    (hstage : w.stage = .serving (some handler)) (hclaimed : effect.store.claimed = h.store.claimed)
    (hnext : ∀ next ∈ effect.next, next.holds c → handler.holds c)
    (hlaunched : effect.launched = none) :
    Host.budget c ⟨effect.store, some (w.handled effect attached)⟩ ≤ h.budget c := by
  have hcount : effect.next.toList.countP (Handler.holds c) ≤
      [handler].countP (Handler.holds c) := by
    cases hn : effect.next with
    | none => simp
    | some next =>
      have hmono := hnext next hn
      by_cases hholds : next.holds c
      · simp [hholds, hmono hholds]
      · simp [hholds]
  simp only [Host.budget, Host.load, hworker, Option.elim_some, load_handled,
    load_of_serving hstage, hclaimed, hlaunched, Option.map_none, Option.toList_none,
    List.countP_nil]
  omega

/-- No action raises the budget of a command, and a send is paid from it. -/
theorem move_pays {h h' : Host} {a : Action} {o : Output} (hmove : Move h a o h') (c : Uuid) :
    (o.sends c).length + h'.budget c ≤ h.budget c := by
  cases hmove with
  | idle a => simp
  | start workspace hworker =>
    simp [Host.budget, Host.load, Worker.load, Worker.start, Worker.handler]
  | crash => simp [Host.budget, Host.load]
  | startup w fault hworker => simp [Host.budget, Host.load, hworker, Worker.load]
  | stop w message hworker hstage =>
    simp [Host.budget, Host.load, hworker, Worker.load, Worker.handler]
  | receive w command hworker hstage =>
    simp [Host.budget, Host.load, hworker, Worker.load, Worker.handler, hstage, holds_command]
  | observe w sessionId notice fault hworker => simp [Host.budget, Host.load, hworker]
  | complete w i task result next hworker htask hnext =>
    obtain ⟨hphase, rfl⟩ := complete_eq_some.1 hnext
    have hload := load_worked (f := Handler.holds c) (g := Task.unsent c) htask
      (some ⟨task.prompt, .resetting result⟩)
    simp [Task.unsent, hphase] at hload
    simp [Host.budget, Host.load, hworker, hload]
  | progress w i task fault effect hworker htask heffect =>
    have hload := load_worked (f := Handler.holds c) (g := Task.unsent c) htask effect.next
    have hcall := taskCall_of_progress heffect
    obtain ⟨p, phase⟩ := task
    simp only [Host.budget, Host.load, hworker, Option.elim_some]
    cases hcall with
    | send =>
      by_cases hp : p.commandId = c
      · simp [Task.unsent, hp] at hload
        simp [hp]
        omega
      · simp [Task.unsent, hp] at hload
        simp [hp, hload]
    | unsent error =>
      simp [Task.unsent] at hload
      simp
      omega
    | reset result =>
      simp [Task.unsent] at hload
      simp [hload]
    | unreset result error =>
      simp [Task.unsent] at hload
      simp [hload]
    | record result fault =>
      simp [Task.unsent] at hload
      simp [hload]
  | answer w handler result effect hworker hstage heffect =>
    rw [sends_reply, List.length_nil, Nat.zero_add]
    have hanswer := answer_of_answer heffect
    refine budget_handled_le c hworker hstage ?_ ?_ ?_
    all_goals
      generalize handler.attaches result = attached at hanswer
      cases hanswer <;> simp [Effect.bail, Effect.andThen, Handler.holds]
  | proceed w handler fault effect hworker hstage heffect =>
    rw [sends_reply, List.length_nil, Nat.zero_add]
    have hcall := call_of_proceed heffect
    cases hcall with
    | claim p hclaimed =>
      simp only [Host.budget, Host.load, hworker, Option.elim_some, load_handled,
        load_of_serving hstage]
      by_cases hp : p.commandId = c
      · subst hp
        simp [openClaim, Effect.andThen, Handler.holds, hclaimed]
      · simp [openClaim, Effect.andThen, Handler.holds, hp, Ne.symm hp]
    | launch p =>
      simp only [Host.budget, Host.load, hworker, Option.elim_some, load_handled,
        load_of_serving hstage]
      simp [Handler.holds, Task.unsent]
    | mark p hsession =>
      exact budget_handled_le c hworker hstage (by simp [Effect.andThen])
        (by simp [Effect.andThen, Handler.holds]) rfl
    | _ =>
      exact budget_handled_le c hworker hstage
        (by simp [Effect.andThen, Effect.done, Effect.bail])
        (by simp [Effect.andThen, Effect.done, Effect.bail, Handler.holds]) rfl

/-! ## The log -/

@[simp] theorem publish_promptEvents (store : EventStore) (workspaceId : Uuid)
    (sessionId : Option Str) {payload : Payload} (hpayload : payload.commandId = none)
    (fault : Option Str) (c : Uuid) :
    (publish store workspaceId sessionId payload fault).promptEvents c = store.promptEvents c := by
  unfold publish
  split
  · rfl
  · simp [EventStore.promptEvents_appendEvent, hpayload]

theorem startup_promptEvents (w : Worker) (store : EventStore) (fault : Option Str) (c : Uuid) :
    (w.startup store fault).1.promptEvents c = store.promptEvents c := by
  unfold Worker.startup
  split
  · split <;> simp
  · split <;> rfl
  · exact publish_promptEvents store _ _ rfl fault c
  · exact publish_promptEvents store _ _ rfl fault c
  · rfl

theorem commandId_turnPayload (result : Except Str Unit) :
    (turnPayload result).commandId = none := by
  cases result <;> rfl

theorem commandId_notice (notice : Notice) : notice.payload.commandId = none := by
  cases notice <;> rfl

/-- The handler has claimed `p` and not recorded it yet. -/
def Host.Unrecorded (h : Host) (p : Prompt) : Prop :=
  h.handler = some (.marking p) ∨ h.handler = some (.recording p)

/-- `p` is about to be sent: only its task has to be spawned, or to run. -/
def Host.Ready (h : Host) (p : Prompt) : Prop :=
  ∃ w, h.worker = some w ∧ (w.handler = some (.launching p) ∨ ⟨p, .sending⟩ ∈ w.tasks)

/-- The log has exactly one `user_prompt` of this command, and it is about this prompt. -/
def Recorded (store : EventStore) (p : Prompt) : Prop :=
  ∃ event, store.promptEvents p.commandId = [event] ∧ event.sessionId = some p.sessionId ∧
    event.payload = .userPrompt p.commandId p.text

/-- What holds of the log and of the prompts in hand. -/
structure Audited (h : Host) : Prop where
  once : ∀ c, h.budget c ≤ 1
  unclaimed : ∀ c, c ∉ h.store.claimed → h.store.promptEvents c = []
  unrecorded : ∀ p, h.Unrecorded p → h.store.promptEvents p.commandId = []
  recorded : ∀ p, h.Ready p → Recorded h.store p

theorem Recorded.congr {store store' : EventStore} {p : Prompt} (hp : Recorded store p)
    (hevents : store'.promptEvents p.commandId = store.promptEvents p.commandId) :
    Recorded store' p := by
  obtain ⟨event, hone, hevent⟩ := hp
  exact ⟨event, hevents.trans hone, hevent⟩

theorem fresh_audited : Audited .fresh where
  once c := by simp [Host.budget, Host.fresh, Host.load, openClaim, EventStore.empty]
  unclaimed c _ := rfl
  unrecorded := by
    intro p hp
    rcases hp with hp | hp <;> cases hp
  recorded := by
    intro p hcase
    obtain ⟨w, hworker, -⟩ := hcase
    cases hworker

section

variable {h h' : Host} {a : Action} {o : Output}

/-- An action that records no prompt and takes no new one in hand. -/
theorem Audited.of_quiet (hA : Audited h) (hmove : Move h a o h')
    (hevents : ∀ c, h'.store.promptEvents c = h.store.promptEvents c)
    (hclaimed : h'.store.claimed = h.store.claimed)
    (hunrecorded : ∀ p, h'.Unrecorded p → h.Unrecorded p)
    (hready : ∀ p, h'.Ready p → h.Ready p) : Audited h' where
  once c := by
    have hpays := move_pays hmove c
    have hone := hA.once c
    omega
  unclaimed c hc := by
    rw [hevents]
    exact hA.unclaimed c (hclaimed ▸ hc)
  unrecorded p hp := by
    rw [hevents]
    exact hA.unrecorded p (hunrecorded p hp)
  recorded p hp := (hA.recorded p (hready p hp)).congr (hevents _)

theorem unrecorded_iff {w : Worker} (hworker : h.worker = some w) {p : Prompt} :
    h.Unrecorded p ↔ w.handler = some (.marking p) ∨ w.handler = some (.recording p) := by
  simp [Host.Unrecorded, handler_some hworker]

theorem ready_iff {w : Worker} (hworker : h.worker = some w) {p : Prompt} :
    h.Ready p ↔ w.handler = some (.launching p) ∨ ⟨p, .sending⟩ ∈ w.tasks := by
  simp [Host.Ready, hworker]

/-- What a step of the handler takes in hand. -/
theorem unrecorded_handled {w : Worker} {effect : Effect} {attached : Option Str} {p : Prompt} :
    Host.Unrecorded ⟨effect.store, some (w.handled effect attached)⟩ p ↔
      effect.next = some (.marking p) ∨ effect.next = some (.recording p) := by
  rw [unrecorded_iff rfl]
  exact Iff.rfl

theorem ready_handled {w : Worker} {effect : Effect} {attached : Option Str} {p : Prompt} :
    Host.Ready ⟨effect.store, some (w.handled effect attached)⟩ p ↔
      effect.next = some (.launching p) ∨ effect.launched = some p ∨ ⟨p, .sending⟩ ∈ w.tasks := by
  rw [ready_iff rfl]
  refine or_congr Iff.rfl ?_
  simp [Worker.handled]

/-- A prompt in the handler past its claim has its command claimed. -/
theorem Audited.claimed (hA : Audited h) {w : Worker} {handler : Handler} {c : Uuid}
    (hworker : h.worker = some w) (hstage : w.stage = .serving (some handler))
    (hholds : handler.holds c) : c ∈ h.store.claimed := by
  by_contra hopen
  have hone := hA.once c
  simp only [Host.budget, Host.load, hworker, Option.elim_some, load_of_serving hstage,
    List.countP_singleton, hholds, if_true, openClaim, hopen, if_false] at hone
  omega

/-- Two prompts of one command are never in hand together. -/
theorem Audited.distinct (hA : Audited h) {w : Worker} {handler : Handler} {p q : Prompt}
    (hworker : h.worker = some w) (hstage : w.stage = .serving (some handler))
    (hholds : handler.holds p.commandId) (hq : ⟨q, .sending⟩ ∈ w.tasks) :
    q.commandId ≠ p.commandId := by
  intro heq
  have hone := hA.once p.commandId
  have htask : 0 < w.tasks.countP (Task.unsent p.commandId) :=
    List.countP_pos_iff.2 ⟨_, hq, by simp [Task.unsent, heq]⟩
  simp only [Host.budget, Host.load, hworker, Option.elim_some, load_of_serving hstage,
    List.countP_singleton, hholds, if_true] at hone
  omega

/-- A call of the handler keeps the log in step with the prompts in hand. -/
theorem audited_proceed (hA : Audited h) {w : Worker} {handler : Handler} {fault : Option Str}
    {effect : Effect} (hworker : h.worker = some w) (hstage : w.stage = .serving (some handler))
    (heffect : handler.proceed w.workspace h.store fault = some effect) :
    Audited ⟨effect.store, some (w.handled effect none)⟩ := by
  have hmove : Move h (.proceed fault) _ _ := .proceed w handler fault effect hworker hstage heffect
  have htasks : ∀ p, ⟨p, .sending⟩ ∈ w.tasks → h.Ready p := fun p hp => ⟨w, hworker, .inr hp⟩
  have hhandler : w.handler = some handler := handler_eq_some.2 hstage
  have honce : ∀ c, Host.budget c ⟨effect.store, some (w.handled effect none)⟩ ≤ 1 := by
    intro c
    have hpays := move_pays hmove c
    have hone := hA.once c
    omega
  cases call_of_proceed heffect with
  | claim p hclaimed =>
    refine ⟨honce, ?_, ?_, ?_⟩
    · intro c hc
      refine hA.unclaimed c fun hmem => hc ?_
      exact Finset.mem_insert_of_mem hmem
    · intro q hq
      rcases unrecorded_handled.1 hq with hq | hq <;> cases hq
      exact hA.unclaimed p.commandId hclaimed
    · intro q hq
      rcases ready_handled.1 hq with hq | hq | hq
      · cases hq
      · cases hq
      · exact hA.recorded q (htasks q hq)
  | record p =>
    have hnone := hA.unrecorded p ((unrecorded_iff hworker).2 (.inr hhandler))
    refine ⟨honce, ?_, ?_, ?_⟩
    · intro c hc
      have hne : c ≠ p.commandId := by
        intro heq
        subst heq
        exact hc (hA.claimed hworker hstage (by simp [Handler.holds]))
      simp [Effect.andThen, EventStore.promptEvents_appendEvent, Payload.commandId, Ne.symm hne]
      exact hA.unclaimed c hc
    · intro q hq
      rcases unrecorded_handled.1 hq with hq | hq <;> cases hq
    · intro q hq
      rcases ready_handled.1 hq with hq | hq | hq
      · cases hq
        refine ⟨⟨h.store.events.length + 1, w.workspace.id, some p.sessionId,
          .userPrompt p.commandId p.text⟩, ?_, rfl, rfl⟩
        simp [Effect.andThen, EventStore.promptEvents_appendEvent, hnone, Payload.commandId]
      · cases hq
      · refine (hA.recorded q (htasks q hq)).congr ?_
        have hne := hA.distinct (p := p) hworker hstage (by simp [Handler.holds]) hq
        simp [Effect.andThen, EventStore.promptEvents_appendEvent, Payload.commandId, Ne.symm hne]
  | mark p hsession =>
    refine hA.of_quiet hmove (by simp [Effect.andThen]) (by simp [Effect.andThen]) ?_ ?_
    · intro q hq
      rcases unrecorded_handled.1 hq with hq | hq <;> cases hq
      exact (unrecorded_iff hworker).2 (.inl hhandler)
    · intro q hq
      rcases ready_handled.1 hq with hq | hq | hq
      · cases hq
      · cases hq
      · exact htasks q hq
  | launch p =>
    refine hA.of_quiet hmove (fun _ => rfl) rfl ?_ ?_
    · intro q hq
      rcases unrecorded_handled.1 hq with hq | hq <;> cases hq
    · intro q hq
      rcases ready_handled.1 hq with hq | hq | hq
      · cases hq
      · cases hq
        exact ⟨w, hworker, .inl hhandler⟩
      · exact htasks q hq
  | _ =>
    refine hA.of_quiet hmove
      (by simp [Effect.andThen, Effect.done, Effect.bail, EventStore.promptEvents_appendEvent,
        Payload.commandId])
      (by simp [Effect.andThen, Effect.done, Effect.bail]) ?_ ?_
    · intro q hq
      rcases unrecorded_handled.1 hq with hq | hq <;> cases hq
    · intro q hq
      rcases ready_handled.1 hq with hq | hq | hq
      · cases hq
      · cases hq
      · exact htasks q hq

theorem promptEvents_taskCall {workspace : WorkspaceRecord} {store : EventStore} {p : Prompt}
    {phase : Phase} {fault : Option Str} {effect : TaskEffect}
    (hcall : TaskCall workspace store p phase fault effect) (c : Uuid) :
    effect.store.promptEvents c = store.promptEvents c := by
  cases hcall with
  | send => rfl
  | unsent error => rfl
  | reset result => simp
  | unreset result error => rfl
  | record result fault => exact publish_promptEvents store _ _ (commandId_turnPayload result) _ c

theorem claimed_taskCall {workspace : WorkspaceRecord} {store : EventStore} {p : Prompt}
    {phase : Phase} {fault : Option Str} {effect : TaskEffect}
    (hcall : TaskCall workspace store p phase fault effect) :
    effect.store.claimed = store.claimed := by
  cases hcall <;> simp

/-- A step of a task makes no prompt ready. -/
theorem ready_worked {w : Worker} {store : EventStore} {i : Nat} {next : Option Task} {p : Prompt}
    (hworker : h.worker = some w) (hnext : ∀ task, next = some task → task.phase ≠ .sending)
    (hp : Host.Ready ⟨store, some (w.worked i next)⟩ p) : h.Ready p := by
  rw [ready_iff hworker]
  rcases (ready_iff rfl).1 hp with hp | hp
  · exact .inl hp
  · rcases List.mem_append.1 hp with hp | hp
    · exact absurd rfl (hnext _ (by simpa using hp))
    · exact .inr (List.mem_of_mem_eraseIdx hp)

theorem audited_move (hA : Audited h) (hmove : Move h a o h') : Audited h' := by
  cases hmove with
  | idle a => exact hA
  | start workspace hworker =>
    refine hA.of_quiet (.start workspace hworker) (fun _ => rfl) rfl ?_ ?_
    · intro p hp
      simp [unrecorded_iff, Worker.start, Worker.handler] at hp
    · intro p hp
      simp [ready_iff, Worker.start, Worker.handler] at hp
  | crash =>
    refine hA.of_quiet .crash (fun _ => rfl) rfl ?_ ?_
    · intro p hp
      rcases hp with hp | hp <;> cases hp
    · intro p hcase
      obtain ⟨w, hworker, -⟩ := hcase
      cases hworker
  | startup w fault hworker =>
    refine hA.of_quiet (.startup w fault hworker) (startup_promptEvents w h.store fault)
      (startup_claimed w h.store fault) ?_ ?_
    · intro p hp
      rw [unrecorded_iff rfl, handler_startup] at hp
      exact (unrecorded_iff hworker).2 hp
    · intro p hp
      rw [ready_iff rfl, handler_startup] at hp
      exact (ready_iff hworker).2 hp
  | stop w message hworker hstage =>
    refine hA.of_quiet (.stop w message hworker hstage) (fun _ => rfl) rfl ?_ ?_
    · intro p hp
      simp [unrecorded_iff, Worker.handler] at hp
    · intro p hp
      simp [ready_iff, Worker.handler] at hp
  | receive w command hworker hstage =>
    refine hA.of_quiet (.receive w command hworker hstage) (fun _ => rfl) rfl ?_ ?_
    · intro p hp
      cases command <;> simp [unrecorded_iff, Worker.handler, WorkerCommand.handler] at hp
    · intro p hp
      refine (ready_iff hworker).2 (.inr ?_)
      cases command <;> simpa [ready_iff, Worker.handler, WorkerCommand.handler] using hp
  | proceed w handler fault effect hworker hstage heffect =>
    exact audited_proceed hA hworker hstage heffect
  | answer w handler result effect hworker hstage heffect =>
    obtain ⟨hstore, hlaunched, -, hnext⟩ := (answer_of_answer heffect).spec
    refine hA.of_quiet (.answer w handler result effect hworker hstage heffect)
      (fun _ => by rw [hstore]) (by rw [hstore]) ?_ ?_
    · intro p hp
      rcases unrecorded_handled.1 hp with hp | hp <;> cases hnext _ hp
    · intro p hp
      rcases ready_handled.1 hp with hp | hp | hp
      · cases hnext _ hp
      · rw [hlaunched] at hp
        cases hp
      · exact (ready_iff hworker).2 (.inr hp)
  | progress w i task fault effect hworker htask heffect =>
    have hcall := taskCall_of_progress heffect
    refine hA.of_quiet (.progress w i task fault effect hworker htask heffect)
      (promptEvents_taskCall hcall) (claimed_taskCall hcall) ?_ ?_
    · intro p hp
      rw [unrecorded_iff rfl] at hp
      exact (unrecorded_iff hworker).2 hp
    · intro p hp
      exact ready_worked hworker (fun next hnext => (hcall.next_phase next hnext).2) hp
  | complete w i task result next hworker htask hnext =>
    obtain ⟨-, rfl⟩ := complete_eq_some.1 hnext
    refine hA.of_quiet (.complete w i task result _ hworker htask hnext) (fun _ => rfl) rfl ?_ ?_
    · intro p hp
      rw [unrecorded_iff rfl] at hp
      exact (unrecorded_iff hworker).2 hp
    · intro p hp
      exact ready_worked hworker (by simp) hp
  | observe w sessionId notice fault hworker =>
    refine hA.of_quiet (.observe w sessionId notice fault hworker)
      (publish_promptEvents h.store _ _ (commandId_notice notice) fault) (publish_claimed ..) ?_ ?_
    · intro p hp
      exact (unrecorded_iff hworker).2 ((unrecorded_iff rfl).1 hp)
    · intro p hp
      exact (ready_iff hworker).2 ((ready_iff rfl).1 hp)

/-- What is sent was ready. -/
theorem ready_of_sent (hmove : Move h a o h') {p : Prompt} (hsent : o.sent = some p) :
    h.Ready p := by
  cases hmove with
  | progress w i task fault effect hworker htask heffect =>
    have hmem := List.mem_of_getElem? htask
    obtain ⟨q, phase⟩ := task
    cases taskCall_of_progress heffect with
    | send =>
      cases hsent
      exact ⟨w, hworker, .inr hmem⟩
    | unsent error => cases hsent
    | reset result => cases hsent
    | unreset result error => cases hsent
    | record result fault => cases hsent
  | _ => cases hsent

end

theorem run_audited {actions : List Action} {t : Transition Host Action Output}
    (ht : t ∈ host.run .fresh actions) : Audited t.before ∧ Audited t.after :=
  Machine.run_invariant (fun h a hA => audited_move hA (step_move h a)) fresh_audited ht

/-- Over any history, a command is sent at most once, and what is sent is on record. -/
theorem host_sends_once (actions : List Action) :
    (∀ c, ((host.run .fresh actions).flatMap fun t => t.output.sends c).length ≤ 1) ∧
      ∀ t ∈ host.run .fresh actions, ∀ p, t.output.sent = some p → Recorded t.before.store p := by
  constructor
  · intro c
    have hpays : ∀ h a, ((host.fire h a).output.sends c).length + (host.step h a).2.budget c ≤
        h.budget c := fun h a => move_pays (step_move h a) c
    exact (Machine.length_emitted_le _ hpays Host.fresh actions).trans (fresh_audited.once c)
  · intro t ht p hsent
    exact (run_audited ht).1.recorded p (ready_of_sent (run_move ht) hsent)

end LeaveCli.Acp
