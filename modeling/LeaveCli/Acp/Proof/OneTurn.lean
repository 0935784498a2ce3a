import LeaveCli.Acp.Proof.Moves

/-!
# One turn of a session at a time

A turn is in flight from the statement that marks its session working until the agent completes it;
the reset that follows is the completion's own. `turns_exclusive_iff`: on a connection where nothing
but the agent's answers goes wrong, a session never has two turns in flight and its stored state is
`working` exactly while one is, if and only if no step writes `idle` to a session that has a turn in
flight. Such steps exist: `cancel_session`, `resume_session` and the task of an earlier turn reset a
session without asking whether a turn is running.
-/

namespace LeaveCli.Acp

open Lib LeaveCli.Core

/-! ## Turns in flight -/

def Handler.drives (sessionId : Str) : Handler → Bool
  | recording p | launching p => p.sessionId = sessionId
  | _ => false

def Task.inFlight (sessionId : Str) (task : Task) : Bool :=
  (task.phase = .sending ∨ task.phase = .waiting) ∧ task.prompt.sessionId = sessionId

/-- How many turns of a session are in flight. -/
def Host.turns (sessionId : Str) (h : Host) : Nat :=
  h.load (Handler.drives sessionId) (Task.inFlight sessionId)

/-- A turn of the session is complete and has not reset it yet. -/
def Host.Resetting (sessionId : Str) (h : Host) : Prop :=
  ∃ w task result, h.worker = some w ∧ task ∈ w.tasks ∧ task.phase = .resetting result ∧
    task.prompt.sessionId = sessionId

/-- The session is one of the worker's workspace, and its stored state is `working`. -/
def Host.Works (sessionId : Str) (h : Host) : Prop :=
  ∃ w row, h.worker = some w ∧ h.store.sessions sessionId = some row ∧
    row.workspaceId = w.workspace.id ∧ row.state = .working

structure OneTurn (sessionId : Str) (h : Host) : Prop where
  one : h.turns sessionId ≤ 1
  working : 0 < h.turns sessionId → h.store.stateOf sessionId = some .working
  turn : h.Works sessionId → 0 < h.turns sessionId ∨ h.Resetting sessionId

/-! ## Steps that write `idle` -/

inductive WritesIdle (h : Host) : Action → Str → Prop
  | register (w : Worker) (sessionId title : Str) :
      h.worker = some w → w.stage = .serving (some (.registering sessionId title)) →
      WritesIdle h (.proceed none) sessionId
  | resume (w : Worker) (sessionId : Str) :
      h.worker = some w → w.stage = .serving (some (.resumed sessionId)) →
      WritesIdle h (.proceed none) sessionId
  | cancel (w : Worker) (sessionId : Str) :
      h.worker = some w → w.stage = .serving (some (.cancelling sessionId)) →
      WritesIdle h (.proceed none) sessionId
  | reset (w : Worker) (i : Nat) (task : Task) (result : Except Str Unit) :
      h.worker = some w → w.tasks[i]? = some task → task.phase = .resetting result →
      WritesIdle h (.progress i none) task.prompt.sessionId

/-- The step writes `idle` to no session that has a turn in flight. -/
def Undisturbed (t : Transition Host Action Output) : Prop :=
  ∀ sessionId, WritesIdle t.before t.input sessionId → t.before.turns sessionId = 0

/-- Commands, the agent and the host's own steps, where every call to the store and to the
connection succeeds. -/
def Action.Faultless : Action → Prop
  | .receive _ | .answer _ | .complete _ _ => True
  | .proceed fault | .progress _ fault | .observe _ _ fault => fault = none
  | .start _ | .crash | .startup _ | .stop _ => False

/-- The host when its worker starts to take commands. -/
def Host.started (store : EventStore) (workspace : WorkspaceRecord) : Host :=
  ⟨((store.markWorkspaceSessionsOffline workspace.id).appendEvent workspace.id none .acpReady).1,
    some ⟨workspace, .serving none, [], ∅⟩⟩

/-! ## The invariant -/

/-- Every session has one turn at most, and none while a prompt for it is being accepted. -/
structure Turns (h : Host) : Prop where
  oneTurn : ∀ sessionId, OneTurn sessionId h
  free : ∀ w p, h.worker = some w →
    w.handler = some (.claiming p) ∨ w.handler = some (.marking p) → h.turns p.sessionId = 0

theorem started_turns (store : EventStore) (workspace : WorkspaceRecord) :
    Turns (.started store workspace) := by
  have hnone : ∀ sessionId, (Host.started store workspace).turns sessionId = 0 := fun _ => rfl
  refine ⟨fun sessionId => ⟨?_, ?_, ?_⟩, ?_⟩
  · rw [hnone]
    exact Nat.zero_le 1
  · intro hpos
    rw [hnone] at hpos
    cases hpos
  · intro hcase
    obtain ⟨w, row, hw, hrow, hworkspace, hworking⟩ := hcase
    cases hw
    simp only [Host.started, EventStore.appendEvent_sessions,
      EventStore.markWorkspaceSessionsOffline, Option.map_eq_some_iff] at hrow
    obtain ⟨row, -, rfl⟩ := hrow
    split at hworking
    · cases hworking
    · rename_i hother
      rw [if_neg hother] at hworkspace
      exact absurd hworkspace hother
  · intro w p hw hhandler
    exact hnone p.sessionId

/-! ## What a step leaves of a session -/

section

variable {h h' : Host} {w w' : Worker} {sessionId : Str}

/-- A step that leaves the session and its turns alone. -/
theorem OneTurn.of_frame (hone : OneTurn sessionId h) (hworker : h.worker = some w)
    (hworker' : h'.worker = some w') (hworkspace : w'.workspace = w.workspace)
    (hturns : h'.turns sessionId = h.turns sessionId)
    (hsessions : h'.store.sessions sessionId = h.store.sessions sessionId)
    (hresetting : h.Resetting sessionId → h'.Resetting sessionId) : OneTurn sessionId h' where
  one := hturns ▸ hone.one
  working hpos := by
    have hstate := hone.working (hturns ▸ hpos)
    unfold EventStore.stateOf at hstate ⊢
    rw [hsessions, hstate]
  turn := by
    intro hcase
    obtain ⟨_, row, hw, hrow, hrowWorkspace, hworking⟩ := hcase
    obtain rfl : w' = _ := Option.some.inj (hworker'.symm.trans hw)
    have hworks : h.Works sessionId :=
      ⟨w, row, hworker, hsessions ▸ hrow, hworkspace ▸ hrowWorkspace, hworking⟩
    rcases hone.turn hworks with hpos | hres
    · exact .inl (hturns ▸ hpos)
    · exact .inr (hresetting hres)

/-- A session that is not `working` and has no turn in flight. -/
theorem OneTurn.of_quiet (hturns : h'.turns sessionId = 0)
    (hstate : h'.store.stateOf sessionId ≠ some .working) : OneTurn sessionId h' where
  one := by omega
  working hpos := by omega
  turn := by
    intro hcase
    obtain ⟨w, row, hw, hrow, hworkspace, hworking⟩ := hcase
    refine absurd ?_ hstate
    simp [EventStore.stateOf, hrow, hworking]

theorem turns_serving {handler : Handler} (hworker : h.worker = some w)
    (hstage : w.stage = .serving (some handler)) :
    h.turns sessionId =
      [handler].countP (Handler.drives sessionId) + w.tasks.countP (Task.inFlight sessionId) := by
  simp only [Host.turns, Host.load, hworker, Option.elim_some, load_of_serving hstage]

theorem turns_handled {store : EventStore} {effect : Effect} {attached : Option Str} :
    Host.turns sessionId ⟨store, some (w.handled effect attached)⟩ =
      effect.next.toList.countP (Handler.drives sessionId) +
        ((effect.launched.map fun p => ⟨p, .sending⟩).toList.countP (Task.inFlight sessionId) +
          w.tasks.countP (Task.inFlight sessionId)) := by
  simp only [Host.turns, Host.load, Option.elim_some, load_handled]

theorem resetting_handled {store : EventStore} {effect : Effect} {attached : Option Str}
    (hworker : h.worker = some w) (hres : h.Resetting sessionId) :
    Host.Resetting sessionId ⟨store, some (w.handled effect attached)⟩ := by
  obtain ⟨_, task, result, hw, hmem, hphase, hsession⟩ := hres
  obtain rfl : w = _ := Option.some.inj (hworker.symm.trans hw)
  exact ⟨_, task, result, rfl, List.mem_append_right _ hmem, hphase, hsession⟩

theorem turns_handled_eq {store : EventStore} {handler : Handler} {effect : Effect}
    {attached : Option Str} (hworker : h.worker = some w)
    (hstage : w.stage = .serving (some handler))
    (hload : effect.next.toList.countP (Handler.drives sessionId) +
      (effect.launched.map fun p => ⟨p, .sending⟩).toList.countP (Task.inFlight sessionId) =
        [handler].countP (Handler.drives sessionId)) :
    Host.turns sessionId ⟨store, some (w.handled effect attached)⟩ = h.turns sessionId := by
  rw [turns_handled, turns_serving hworker hstage]
  omega

/-- A step that starts and ends no turn: what it writes is `idle`, where no turn is in flight. -/
theorem Turns.of_same (hT : Turns h) (hworker : h.worker = some w) (hworker' : h'.worker = some w')
    (hworkspace : w'.workspace = w.workspace)
    (hturns : ∀ sessionId, h'.turns sessionId = h.turns sessionId)
    (hkeeps : ∀ sessionId,
      h'.store.sessions sessionId = h.store.sessions sessionId ∧
        (h.Resetting sessionId → h'.Resetting sessionId) ∨
      h.turns sessionId = 0 ∧ h'.store.stateOf sessionId ≠ some .working)
    (hfree : ∀ p, w'.handler = some (.claiming p) ∨ w'.handler = some (.marking p) →
      h.turns p.sessionId = 0) : Turns h' where
  oneTurn sessionId := by
    rcases hkeeps sessionId with ⟨hsessions, hresetting⟩ | ⟨hzero, hstate⟩
    · exact (hT.oneTurn sessionId).of_frame hworker hworker' hworkspace (hturns sessionId)
        hsessions hresetting
    · exact .of_quiet ((hturns sessionId).trans hzero) hstate
  free := by
    intro v p hv hhandler
    obtain rfl : w' = v := Option.some.inj (hworker'.symm.trans hv)
    exact (hturns p.sessionId).trans (hfree p hhandler)

theorem stateOf_idle_ne {store : EventStore} :
    (store.updateSessionState sessionId .idle).1.stateOf sessionId ≠ some .working := by
  rw [EventStore.stateOf_updateSessionState, if_pos rfl]
  simp

/-- A call of the handler, or the agent's answer, that starts no turn. -/
theorem Turns.of_handled (hT : Turns h) {handler : Handler} {effect : Effect}
    {attached : Option Str} (hworker : h.worker = some w)
    (hstage : w.stage = .serving (some handler))
    (hload : ∀ sessionId, effect.next.toList.countP (Handler.drives sessionId) +
      (effect.launched.map fun p => ⟨p, .sending⟩).toList.countP (Task.inFlight sessionId) =
        [handler].countP (Handler.drives sessionId))
    (hstore : ∀ sessionId, effect.store.sessions sessionId = h.store.sessions sessionId ∨
      h.turns sessionId = 0 ∧ effect.store.stateOf sessionId ≠ some .working)
    (hfree : ∀ p, effect.next = some (.claiming p) ∨ effect.next = some (.marking p) →
      h.turns p.sessionId = 0) :
    Turns ⟨effect.store, some (w.handled effect attached)⟩ := by
  refine hT.of_same hworker rfl rfl ?_ ?_ hfree
  · intro sessionId
    exact turns_handled_eq hworker hstage (hload sessionId)
  · intro sessionId
    rcases hstore sessionId with hsame | hidle
    · exact .inl ⟨hsame, resetting_handled hworker⟩
    · exact .inr hidle

/-- A write of `idle` where no turn is in flight. -/
theorem keeps_idle (hzero : h.turns sessionId = 0) (other : Str) :
    (h.store.updateSessionState sessionId .idle).1.sessions other = h.store.sessions other ∨
      h.turns other = 0 ∧
        (h.store.updateSessionState sessionId .idle).1.stateOf other ≠ some .working := by
  by_cases hother : other = sessionId
  · subst hother
    exact .inr ⟨hzero, stateOf_idle_ne⟩
  · refine .inl ?_
    rw [EventStore.updateSessionState_sessions, if_neg hother]

theorem keeps_new {workspace : WorkspaceRecord} {title : Str} (hzero : h.turns sessionId = 0)
    (other : Str) :
    (h.store.upsertSession (newSession workspace sessionId title)).sessions other =
        h.store.sessions other ∨
      h.turns other = 0 ∧ (h.store.upsertSession (newSession workspace sessionId title)).stateOf
        other ≠ some .working := by
  by_cases hother : other = sessionId
  · subst hother
    refine .inr ⟨hzero, ?_⟩
    simp [EventStore.stateOf_upsertSession, newSession]
  · refine .inl ?_
    simp [EventStore.upsertSession, newSession, hother]

/-- Marking a session that has no turn in flight starts its one turn. -/
theorem turns_mark (hT : Turns h) {p : Prompt} (hworker : h.worker = some w)
    (hstage : w.stage = .serving (some (.marking p)))
    (hsession : (h.store.stateOf p.sessionId).isSome) :
    Turns ⟨(h.store.updateSessionState p.sessionId .working).1,
      some (w.handled (.andThen (h.store.updateSessionState p.sessionId .working).1
        (.recording p)) none)⟩ := by
  have hzero : h.turns p.sessionId = 0 := hT.free w p hworker (.inr (handler_eq_some.2 hstage))
  have hbefore : ∀ sessionId, h.turns sessionId = w.tasks.countP (Task.inFlight sessionId) := by
    intro sessionId
    rw [turns_serving hworker hstage]
    simp [Handler.drives]
  have hafter : ∀ sessionId, Host.turns sessionId ⟨(h.store.updateSessionState p.sessionId
      .working).1, some (w.handled (.andThen (h.store.updateSessionState p.sessionId .working).1
        (.recording p)) none)⟩ =
      (if p.sessionId = sessionId then 1 else 0) + h.turns sessionId := by
    intro sessionId
    rw [turns_handled, hbefore]
    simp [Effect.andThen, Handler.drives, List.countP_singleton]
  refine ⟨fun sessionId => ?_, ?_⟩
  · by_cases hother : sessionId = p.sessionId
    · subst hother
      have hone := hafter p.sessionId
      rw [if_pos rfl, hzero] at hone
      refine ⟨by omega, ?_, ?_⟩
      · intro _
        obtain ⟨state, hstate⟩ := Option.isSome_iff_exists.1 hsession
        simp [EventStore.stateOf_updateSessionState, hstate]
      · intro _
        exact .inl (by omega)
    · refine (hT.oneTurn sessionId).of_frame hworker rfl rfl ?_ ?_ (resetting_handled hworker)
      · rw [hafter, if_neg (Ne.symm hother), Nat.zero_add]
      · rw [EventStore.updateSessionState_sessions, if_neg hother]
  · intro v q hv hhandler
    cases hv
    rcases hhandler with hq | hq <;> cases hq

theorem turns_proceed (hT : Turns h) {handler : Handler} {effect : Effect}
    (hworker : h.worker = some w) (hstage : w.stage = .serving (some handler))
    (heffect : handler.proceed w.workspace h.store none = some effect)
    (hundisturbed : ∀ sessionId, WritesIdle h (.proceed none) sessionId →
      h.turns sessionId = 0) :
    Turns ⟨effect.store, some (w.handled effect none)⟩ := by
  have hhandler : w.handler = some handler := handler_eq_some.2 hstage
  cases call_of_proceed heffect with
  | mark p hsession => exact turns_mark hT hworker hstage hsession
  | register sessionId title =>
    refine hT.of_handled hworker hstage (fun _ => rfl)
      (keeps_new (hundisturbed _ (.register w sessionId title hworker hstage))) ?_
    intro q hq
    rcases hq with hq | hq <;> cases hq
  | resume sessionId =>
    refine hT.of_handled hworker hstage (fun _ => rfl)
      (keeps_idle (hundisturbed _ (.resume w sessionId hworker hstage))) ?_
    intro q hq
    rcases hq with hq | hq <;> cases hq
  | cancel sessionId =>
    refine hT.of_handled hworker hstage (fun _ => rfl)
      (keeps_idle (hundisturbed _ (.cancel w sessionId hworker hstage))) ?_
    intro q hq
    rcases hq with hq | hq <;> cases hq
  | read p session htext hsession hworking =>
    refine hT.of_handled hworker hstage (fun _ => rfl) (fun _ => .inl rfl) ?_
    intro q hq
    rcases hq with hq | hq <;> cases hq
    by_contra hturn
    have hstate := (hT.oneTurn p.sessionId).working (by omega)
    obtain ⟨hrow, -⟩ := EventStore.getSession_eq_some.1 hsession
    exact hworking (by simpa [EventStore.stateOf, hrow] using hstate)
  | claim p hclaimed =>
    refine hT.of_handled hworker hstage (fun _ => rfl) (fun _ => .inl rfl) ?_
    intro q hq
    rcases hq with hq | hq <;> cases hq
    exact hT.free w p hworker (.inl hhandler)
  | launch p =>
    refine hT.of_handled hworker hstage ?_ (fun _ => .inl rfl) ?_
    · intro sessionId
      simp [Handler.drives, Task.inFlight, List.countP_singleton]
    · intro q hq
      rcases hq with hq | hq <;> cases hq
  | _ =>
    refine hT.of_handled hworker hstage (fun _ => rfl) (fun _ => .inl rfl) ?_
    intro q hq
    rcases hq with hq | hq <;> cases hq

/-- A step of a task changes the turns in flight by that task alone. -/
theorem turns_worked (store : EventStore) (sessionId : Str) {i : Nat} {task : Task}
    (hworker : h.worker = some w) (htask : w.tasks[i]? = some task) (next : Option Task) :
    Host.turns sessionId ⟨store, some (w.worked i next)⟩ +
        [task].countP (Task.inFlight sessionId) =
      h.turns sessionId + next.toList.countP (Task.inFlight sessionId) := by
  have hload :=
    load_worked (f := Handler.drives sessionId) (g := Task.inFlight sessionId) htask next
  simpa [Host.turns, Host.load, hworker] using hload

/-- A step of a task that is not about to reset its session. -/
theorem resetting_worked {store : EventStore} {i : Nat} {task : Task} {next : Option Task}
    (hworker : h.worker = some w) (htask : w.tasks[i]? = some task)
    (hphase : task.prompt.sessionId = sessionId → ∀ result, task.phase ≠ .resetting result)
    (hres : h.Resetting sessionId) :
    Host.Resetting sessionId ⟨store, some (w.worked i next)⟩ := by
  obtain ⟨_, other, result, hw, hmem, hreset, hsession⟩ := hres
  obtain rfl : w = _ := Option.some.inj (hworker.symm.trans hw)
  refine ⟨_, other, result, rfl, List.mem_append_right _ ?_, hreset, hsession⟩
  obtain ⟨hi, rfl⟩ := List.getElem?_eq_some_iff.1 htask
  rcases List.mem_cons.1 ((List.getElem_cons_eraseIdx_perm hi).mem_iff.2 hmem) with rfl | hmem
  · exact absurd hreset (hphase hsession result)
  · exact hmem

theorem turns_progress (hT : Turns h) {i : Nat} {task : Task} {effect : TaskEffect}
    (hworker : h.worker = some w) (htask : w.tasks[i]? = some task)
    (heffect : task.progress w.workspace h.store none = some effect)
    (hundisturbed : ∀ sessionId, WritesIdle h (.progress i none) sessionId →
      h.turns sessionId = 0) :
    Turns ⟨effect.store, some (w.worked i effect.next)⟩ := by
  have hturns := fun sessionId => turns_worked effect.store sessionId
    hworker htask effect.next
  have hfree : ∀ p, (w.worked i effect.next).handler = some (.claiming p) ∨
      (w.worked i effect.next).handler = some (.marking p) → h.turns p.sessionId = 0 :=
    fun p hp => hT.free w p hworker hp
  obtain ⟨p, phase⟩ := task
  cases taskCall_of_progress heffect with
  | send =>
    refine hT.of_same hworker rfl rfl ?_ ?_ hfree
    · intro sessionId
      have hsame := hturns sessionId
      simp only [Option.toList_some, List.countP_singleton, Task.inFlight] at hsame
      simpa using hsame
    · intro sessionId
      exact .inl ⟨rfl, resetting_worked hworker htask (by simp)⟩
  | reset result =>
    have hzero := hundisturbed p.sessionId (.reset w i _ result hworker htask rfl)
    refine hT.of_same hworker rfl rfl ?_ ?_ hfree
    · intro sessionId
      have hsame := hturns sessionId
      simp only [Option.toList_some, List.countP_singleton, Task.inFlight] at hsame
      simpa using hsame
    · intro sessionId
      by_cases hother : sessionId = p.sessionId
      · subst hother
        exact .inr ⟨hzero, stateOf_idle_ne⟩
      · refine .inl ⟨?_, resetting_worked hworker htask fun heq => absurd heq.symm hother⟩
        rw [EventStore.updateSessionState_sessions, if_neg hother]
  | record result fault =>
    refine hT.of_same hworker rfl rfl ?_ ?_ hfree
    · intro sessionId
      have hsame := hturns sessionId
      simp only [Option.toList_none, List.countP_nil, List.countP_singleton, Task.inFlight] at hsame
      simpa using hsame
    · intro sessionId
      refine .inl ⟨?_, resetting_worked hworker htask (by simp)⟩
      rw [publish_sessions]

theorem turns_complete (hT : Turns h) {i : Nat} {task : Task} {result : Except Str Unit}
    (hworker : h.worker = some w) (htask : w.tasks[i]? = some task)
    (hphase : task.phase = .waiting) :
    Turns ⟨h.store, some (w.worked i (some ⟨task.prompt, .resetting result⟩))⟩ := by
  have hturns : ∀ sessionId, Host.turns sessionId ⟨h.store, some (w.worked i
      (some ⟨task.prompt, .resetting result⟩))⟩ +
      (if task.prompt.sessionId = sessionId then 1 else 0) = h.turns sessionId := by
    intro sessionId
    have hworked := turns_worked h.store sessionId hworker htask
      (some ⟨task.prompt, .resetting result⟩)
    simp only [Option.toList_some, List.countP_singleton, Task.inFlight, hphase] at hworked
    simpa using hworked
  refine ⟨fun sessionId => ?_, ?_⟩
  · have hcount := hturns sessionId
    have hone := hT.oneTurn sessionId
    by_cases hother : task.prompt.sessionId = sessionId
    · refine ⟨?_, ?_, ?_⟩
      · have hle := hone.one
        omega
      · intro hpos
        exact hone.working (by omega)
      · intro _
        exact .inr ⟨_, ⟨task.prompt, .resetting result⟩, result, rfl, by simp [Worker.worked], rfl,
          hother⟩
    · rw [if_neg hother, Nat.add_zero] at hcount
      refine hone.of_frame hworker rfl rfl hcount rfl ?_
      exact resetting_worked hworker htask fun heq => absurd heq hother
  · intro v p hv hhandler
    cases hv
    have hcount := hturns p.sessionId
    have hzero := hT.free w p hworker hhandler
    omega

theorem drives_of_prompt (sessionId : Str) {handler : Handler} (hprompt : handler.prompt = none) :
    handler.drives sessionId = false := by
  cases handler <;> first | rfl | cases hprompt

/-- On a connection where every call succeeds, a step that disturbs no turn keeps the turns of
every session in order. -/
theorem turns_move (hT : Turns h) {a : Action} {o : Output} (hmove : Move h a o h')
    (hfaultless : a.Faultless)
    (hundisturbed : ∀ sessionId, WritesIdle h a sessionId → h.turns sessionId = 0) : Turns h' := by
  cases hmove with
  | idle a => exact hT
  | start workspace hworker => exact hfaultless.elim
  | crash => exact hfaultless.elim
  | startup w fault hworker => exact hfaultless.elim
  | stop w message hworker hstage => exact hfaultless.elim
  | receive w command hworker hstage =>
    refine hT.of_same hworker rfl rfl ?_ ?_ ?_
    · intro sessionId
      cases command <;>
        simp [Host.turns, Host.load, hworker, Worker.load, Worker.handler, hstage,
          WorkerCommand.handler, Handler.drives]
    · intro sessionId
      refine .inl ⟨rfl, ?_⟩
      intro hcase
      obtain ⟨_, task, result, hw, hres⟩ := hcase
      obtain rfl : w = _ := Option.some.inj (hworker.symm.trans hw)
      exact ⟨_, task, result, rfl, hres⟩
    · intro p hp
      cases command <;> rcases hp with hp | hp <;> cases hp
  | proceed w handler fault effect hworker hstage heffect =>
    obtain rfl : fault = none := hfaultless
    exact turns_proceed hT hworker hstage heffect hundisturbed
  | answer w handler result effect hworker hstage heffect =>
    obtain ⟨hstore, hlaunched, hprompt, hnext⟩ := (answer_of_answer heffect).spec
    refine hT.of_handled hworker hstage ?_ ?_ ?_
    · intro sessionId
      have hbefore := drives_of_prompt sessionId hprompt
      have hafter : effect.next.toList.countP (Handler.drives sessionId) = 0 := by
        rw [List.countP_eq_zero]
        intro next hmem
        simp [drives_of_prompt sessionId (hnext next (by simpa using hmem))]
      simp [hafter, hlaunched, hbefore]
    · intro sessionId
      exact .inl (by rw [hstore])
    · intro p hp
      rcases hp with hp | hp <;> cases hnext _ hp
  | progress w i task fault effect hworker htask heffect =>
    obtain rfl : fault = none := hfaultless
    exact turns_progress hT hworker htask heffect hundisturbed
  | complete w i task result next hworker htask hnext =>
    obtain ⟨hphase, rfl⟩ := complete_eq_some.1 hnext
    exact turns_complete hT hworker htask hphase
  | observe w sessionId notice fault hworker =>
    refine hT.of_same hworker rfl rfl ?_ ?_ ?_
    · intro sessionId
      simp [Host.turns, Host.load, hworker]
    · intro other
      refine .inl ⟨by rw [publish_sessions], ?_⟩
      intro hcase
      obtain ⟨_, task, result, hw, hres⟩ := hcase
      exact ⟨w, task, result, rfl, by
        obtain rfl : w = _ := Option.some.inj (hworker.symm.trans hw)
        exact hres⟩
    · intro p hp
      exact hT.free w p hworker hp

/-- Where a step writes `idle`, the session reads `idle` and its turns stay in flight. -/
theorem writesIdle_spec {a : Action} (hidle : WritesIdle h a sessionId) :
    (h.step a).2.store.stateOf sessionId ≠ some .working ∧
      (h.step a).2.turns sessionId = h.turns sessionId := by
  cases hidle with
  | register w sessionId title hworker hstage =>
    rw [step_proceed _ hworker hstage rfl]
    refine ⟨?_, turns_handled_eq hworker hstage rfl⟩
    simp [Effect.attempt, Effect.andThen, EventStore.stateOf_upsertSession, newSession]
  | resume w sessionId hworker hstage =>
    rw [step_proceed _ hworker hstage rfl]
    exact ⟨stateOf_idle_ne, turns_handled_eq hworker hstage rfl⟩
  | cancel w sessionId hworker hstage =>
    rw [step_proceed _ hworker hstage rfl]
    exact ⟨stateOf_idle_ne, turns_handled_eq hworker hstage rfl⟩
  | reset w i task result hworker htask hphase =>
    obtain ⟨p, phase⟩ := task
    obtain rfl : phase = .resetting result := hphase
    rw [step_progress hworker htask rfl]
    refine ⟨stateOf_idle_ne, ?_⟩
    have hturns := turns_worked (h.store.updateSessionState p.sessionId .idle).1 p.sessionId hworker
      htask (some ⟨p, .recording result⟩)
    simp only [Option.toList_some, List.countP_singleton, Task.inFlight] at hturns
    simpa using hturns

end

/-- One turn of a session at a time, `working` exactly while it is in flight: this holds over a run
of a connection if and only if no step of the run writes `idle` under a turn. -/
theorem turns_exclusive_iff (store : EventStore) (workspace : WorkspaceRecord)
    (actions : List Action) (hfaultless : ∀ a ∈ actions, a.Faultless) :
    (∀ t ∈ host.run (.started store workspace) actions, ∀ sessionId, OneTurn sessionId t.after) ↔
      ∀ t ∈ host.run (.started store workspace) actions, Undisturbed t := by
  refine Machine.forall_run_iff ?_ ?_ (started_turns store workspace) hfaultless
  · intro h a hT ha
    constructor
    · intro hone sessionId hidle
      by_contra hturn
      obtain ⟨hstate, hturns⟩ := writesIdle_spec (h := h) (a := a) hidle
      have hpos : 0 < (h.step a).2.turns sessionId := by
        rw [hturns]
        exact Nat.pos_of_ne_zero hturn
      exact hstate ((hone sessionId).working hpos)
    · intro hundisturbed
      exact (turns_move hT (step_move h a) ha hundisturbed).oneTurn
  · intro h a hT ha hundisturbed _
    exact turns_move hT (step_move h a) ha hundisturbed

/-! ## Two turns at once -/

/-- A workspace `/repo`. -/
def repo : WorkspaceRecord := ⟨7, "repo", "/repo", false, true, false⟩

def prompts (sessionId text : Str) (commandId : Uuid) : List Action :=
  [.receive (.prompt ⟨sessionId, text, commandId⟩), .proceed none, .proceed none, .proceed none,
    .proceed none, .proceed none, .progress 0 none]

def cancels (sessionId : Str) : List Action :=
  [.receive (.cancel sessionId), .proceed none, .proceed none, .proceed none]

/-- A session is created, prompted, cancelled and prompted again, before the agent has ended the
first turn. -/
def cancelAndPrompt : List Action :=
  [.receive (.createSession "t"), .answer (.ok "s"), .proceed none, .proceed none] ++
    prompts "s" "a" 1 ++ cancels "s" ++ prompts "s" "b" 2

theorem cancel_lets_second_turn :
    (∀ a ∈ cancelAndPrompt, a.Faultless) ∧
      ¬ ∀ t ∈ host.run (.started .empty repo) cancelAndPrompt, ∀ sessionId,
        OneTurn sessionId t.after := by
  constructor
  · simp [cancelAndPrompt, prompts, cancels, Action.Faultless]
  · intro hone
    have htwo : ∃ t ∈ host.run (.started .empty repo) cancelAndPrompt, 1 < t.after.turns "s" := by
      decide
    obtain ⟨t, ht, hturns⟩ := htwo
    have hle := (hone t ht "s").one
    omega

theorem turns_exclusive_cancelAndPrompt :
    (∀ t ∈ host.run (.started .empty repo) cancelAndPrompt, ∀ sessionId,
        OneTurn sessionId t.after) ↔
      ∀ t ∈ host.run (.started .empty repo) cancelAndPrompt, Undisturbed t :=
  turns_exclusive_iff .empty repo cancelAndPrompt (by
    simp [cancelAndPrompt, prompts, cancels, Action.Faultless])

end LeaveCli.Acp
