import LeaveCli.Acp.Proof.Retry

/-!
# Sessions of an earlier run

`attached_driven`: a prompt is sent only for a session that the current connection created or
resumed, and a session leaves `offline` only through a successful resume, in every history whose
steps the missing check admits: no prompt is accepted for, no cancel resets and no creation replaces
a session that is offline, and no prompt is accepted for one that is not attached. `accept_prompt`
asks only whether the session is `working`, and `cancel_session` asks nothing.
-/

namespace LeaveCli.Acp

open Lib LeaveCli.Core

/-- What is sent is for a session of this connection. -/
def DrivesAttached (t : Transition Host Action Output) : Prop :=
  ∀ p, t.output.sent = some p → p.sessionId ∈ t.before.attached

def LeavesOffline (sessionId : Str) (t : Transition Host Action Output) : Prop :=
  t.before.store.stateOf sessionId = some .offline ∧
    t.after.store.stateOf sessionId ≠ some .offline

/-- `resume_session` writes what the agent has agreed to. -/
def ResumeStep (sessionId : Str) (t : Transition Host Action Output) : Prop :=
  t.before.handler = some (.resumed sessionId) ∧ t.input = .proceed none

/-- The check that is missing, at the steps that overwrite a session's state. -/
def Host.admits (h : Host) : Action → Bool
  | .proceed none =>
    match h.handler with
    | some (.marking p) =>
      p.sessionId ∈ h.attached ∧ h.store.stateOf p.sessionId ≠ some .offline
    | some (.cancelling sessionId) => h.store.stateOf sessionId ≠ some .offline
    | some (.registering sessionId _) => h.store.stateOf sessionId ≠ some .offline
    | _ => true
  | _ => true

/-! ## What the worker drives -/

/-- `p` is past its mark: in the handler, or in a task. -/
def Worker.Drives (w : Worker) (p : Prompt) : Prop :=
  w.handler = some (.recording p) ∨ w.handler = some (.launching p) ∨
    ∃ task ∈ w.tasks, task.prompt = p

/-- Whatever the worker drives is attached and not offline. -/
structure Driven (h : Host) : Prop where
  starting : ∀ w, h.worker = some w → w.stage = .marking → w.tasks = []
  driven : ∀ w p, h.worker = some w → w.Drives p →
    p.sessionId ∈ w.attached ∧ h.store.stateOf p.sessionId ≠ some .offline

section

variable {h h' : Host} {w w' : Worker} {a : Action} {o : Output}

theorem driven_of_no_worker (hnone : h.worker = none) : Driven h where
  starting := by
    intro w hw
    cases hnone.symm.trans hw
  driven := by
    intro w p hw
    cases hnone.symm.trans hw

/-- A step that takes nothing new to drive and puts nothing offline. -/
theorem Driven.of_mono (hD : Driven h) (hworker : h.worker = some w)
    (hworker' : h'.worker = some w') (hstage : w'.stage ≠ .marking)
    (hattached : w.attached ⊆ w'.attached)
    (honline : ∀ sessionId, h.store.stateOf sessionId ≠ some .offline →
      h'.store.stateOf sessionId ≠ some .offline)
    (hdrives : ∀ p, w'.Drives p → w.Drives p) : Driven h' where
  starting := by
    intro v hv hmarking
    obtain rfl : w' = v := Option.some.inj (hworker'.symm.trans hv)
    exact absurd hmarking hstage
  driven := by
    intro v p hv hp
    obtain rfl : w' = v := Option.some.inj (hworker'.symm.trans hv)
    obtain ⟨hmem, hstate⟩ := hD.driven w p hworker (hdrives p hp)
    exact ⟨hattached hmem, honline p.sessionId hstate⟩

theorem online_update {store : EventStore} {sessionId other : Str} {state : SessionState}
    (hstate : state ≠ .offline) (honline : store.stateOf sessionId ≠ some .offline) :
    (store.updateSessionState other state).1.stateOf sessionId ≠ some .offline := by
  rw [EventStore.stateOf_updateSessionState]
  split
  · cases store.stateOf other with
    | none => simp
    | some before => simpa using hstate
  · exact honline

theorem online_new {store : EventStore} {workspace : WorkspaceRecord} {sessionId other title : Str}
    (honline : store.stateOf sessionId ≠ some .offline) :
    (store.upsertSession (newSession workspace other title)).stateOf sessionId ≠
      some .offline := by
  rw [EventStore.stateOf_upsertSession]
  split
  · simp [newSession]
  · exact honline

theorem drives_handled {effect : Effect} {attached : Option Str} {p : Prompt}
    (hp : (w.handled effect attached).Drives p) :
    effect.next = some (.recording p) ∨ effect.next = some (.launching p) ∨
      effect.launched = some p ∨ w.Drives p := by
  rcases hp with hp | hp | ⟨task, hmem, rfl⟩
  · exact .inl hp
  · exact .inr (.inl hp)
  · rcases List.mem_append.1 hmem with hmem | hmem
    · obtain ⟨q, hq, rfl⟩ : ∃ q, effect.launched = some q ∧ (⟨q, .sending⟩ : Task) = task := by
        simpa using hmem
      exact .inr (.inr (.inl hq))
    · exact .inr (.inr (.inr (.inr (.inr ⟨task, hmem, rfl⟩))))

/-- A call that takes nothing new to drive and puts nothing offline. -/
theorem Driven.of_handled (hD : Driven h) {effect : Effect} {attached : Option Str}
    (hworker : h.worker = some w)
    (honline : ∀ sessionId, h.store.stateOf sessionId ≠ some .offline →
      effect.store.stateOf sessionId ≠ some .offline)
    (hdrives : ∀ p, effect.next = some (.recording p) ∨ effect.next = some (.launching p) ∨
      effect.launched = some p → w.Drives p) :
    Driven ⟨effect.store, some (w.handled effect attached)⟩ := by
  refine hD.of_mono hworker rfl (by simp [Worker.handled]) ?_ honline ?_
  · intro sessionId hmem
    cases attached with
    | none => exact hmem
    | some other => exact Finset.mem_insert_of_mem hmem
  · intro p hp
    rcases drives_handled hp with hp | hp | hp | hp
    · exact hdrives p (.inl hp)
    · exact hdrives p (.inr (.inl hp))
    · exact hdrives p (.inr (.inr hp))
    · exact hp

/-- Marking an attached session that is not offline gives the worker a turn it may drive. -/
theorem driven_mark (hD : Driven h) {p : Prompt} (hworker : h.worker = some w)
    (hmem : p.sessionId ∈ w.attached) :
    Driven ⟨(h.store.updateSessionState p.sessionId .working).1,
      some (w.handled (.andThen (h.store.updateSessionState p.sessionId .working).1
        (.recording p)) none)⟩ where
  starting := by
    intro v hv hmarking
    cases hv
    cases hmarking
  driven := by
    intro v q hv hq
    cases hv
    rcases drives_handled hq with hq | hq | hq | hq
    · cases hq
      refine ⟨hmem, ?_⟩
      rw [EventStore.stateOf_updateSessionState, if_pos rfl]
      simp
    · cases hq
    · cases hq
    · obtain ⟨hold, hstate⟩ := hD.driven w q hworker hq
      exact ⟨hold, online_update (by simp) hstate⟩

theorem driven_proceed (hD : Driven h) {handler : Handler} {fault : Option Str} {effect : Effect}
    (hworker : h.worker = some w) (hstage : w.stage = .serving (some handler))
    (heffect : handler.proceed w.workspace h.store fault = some effect)
    (hadmits : h.admits (.proceed fault)) :
    Driven ⟨effect.store, some (w.handled effect none)⟩ := by
  have hhandler : w.handler = some handler := handler_eq_some.2 hstage
  cases call_of_proceed heffect with
  | mark p hsession =>
    refine driven_mark hD hworker ?_
    simp [Host.admits, handler_some hworker, hhandler, Host.attached, hworker] at hadmits
    exact hadmits.1
  | register sessionId title =>
    refine hD.of_handled hworker (fun _ => online_new) ?_
    intro p hp
    rcases hp with hp | hp | hp <;> cases hp
  | resume sessionId =>
    refine hD.of_handled hworker (fun _ => online_update (by simp)) ?_
    intro p hp
    rcases hp with hp | hp | hp <;> cases hp
  | cancel sessionId =>
    refine hD.of_handled hworker (fun _ => online_update (by simp)) ?_
    intro p hp
    rcases hp with hp | hp | hp <;> cases hp
  | record p =>
    refine hD.of_handled hworker (fun _ => id) ?_
    intro q hq
    rcases hq with hq | hq | hq <;> cases hq
    exact .inl hhandler
  | launch p =>
    refine hD.of_handled hworker (fun _ => id) ?_
    intro q hq
    rcases hq with hq | hq | hq <;> cases hq
    exact .inr (.inl hhandler)
  | _ =>
    refine hD.of_handled hworker (fun _ => id) ?_
    intro q hq
    rcases hq with hq | hq | hq <;> cases hq

theorem drives_worked {i : Nat} {task : Task} {next : Option Task} {p : Prompt}
    (htask : w.tasks[i]? = some task) (hnext : ∀ t, next = some t → t.prompt = task.prompt)
    (hp : (w.worked i next).Drives p) : w.Drives p := by
  rcases hp with hp | hp | ⟨other, hmem, rfl⟩
  · exact .inl hp
  · exact .inr (.inl hp)
  · refine .inr (.inr ?_)
    rcases List.mem_append.1 hmem with hmem | hmem
    · exact ⟨task, List.mem_of_getElem? htask, (hnext other (by simpa using hmem)).symm⟩
    · exact ⟨other, List.mem_of_mem_eraseIdx hmem, rfl⟩

theorem startup_stage_ne (w : Worker) (store : EventStore) (fault : Option Str) :
    (w.startup store fault).2 ≠ .marking := by
  unfold Worker.startup
  split
  · simp
  · split <;> simp
  · simp
  · simp
  · assumption

theorem Driven.not_marking (hD : Driven h) {i : Nat} {task : Task} (hworker : h.worker = some w)
    (htask : w.tasks[i]? = some task) : w.stage ≠ .marking := by
  intro hmarking
  rw [hD.starting w hworker hmarking] at htask
  cases htask

theorem not_marking_of_drives (hD : Driven h) {p : Prompt} (hworker : h.worker = some w)
    (hp : w.Drives p) : w.stage ≠ .marking := by
  intro hmarking
  rcases hp with hp | hp | ⟨task, hmem, -⟩
  · simp [Worker.handler, hmarking] at hp
  · simp [Worker.handler, hmarking] at hp
  · rw [hD.starting w hworker hmarking] at hmem
    cases hmem

/-- Only the first step of a start writes to the sessions. -/
theorem startup_stateOf {store : EventStore} {fault : Option Str} {sessionId : Str}
    (hstage : w.stage ≠ .marking) :
    (w.startup store fault).1.stateOf sessionId = store.stateOf sessionId := by
  unfold Worker.startup EventStore.stateOf
  split
  · exact absurd ‹_› hstage
  · split <;> rfl
  · simp
  · simp
  · rfl

theorem driven_move (hD : Driven h) (hmove : Move h a o h') (hadmits : h.admits a) :
    Driven h' := by
  cases hmove with
  | idle a => exact hD
  | start workspace hworker =>
    constructor
    · intro w hw _
      cases hw
      rfl
    · intro w p hw hp
      cases hw
      rcases hp with hp | hp | ⟨task, hmem, -⟩ <;> cases ‹_›
  | crash => exact driven_of_no_worker rfl
  | startup w fault hworker =>
    constructor
    · intro v hv hmarking
      cases hv
      exact absurd hmarking (startup_stage_ne w h.store fault)
    · intro v p hv hp
      cases hv
      have hdrives : w.Drives p := by
        unfold Worker.Drives at hp
        rwa [handler_startup] at hp
      obtain ⟨hmem, hstate⟩ := hD.driven w p hworker hdrives
      refine ⟨hmem, ?_⟩
      rwa [startup_stateOf (not_marking_of_drives hD hworker hdrives)]
  | stop w message hworker hstage =>
    constructor
    · intro w hw _
      cases hw
      rfl
    · intro w p hw hp
      cases hw
      rcases hp with hp | hp | ⟨task, hmem, -⟩ <;> cases ‹_›
  | receive w command hworker hstage =>
    refine hD.of_mono hworker rfl (by simp) (Finset.Subset.refl _) (fun _ => id) ?_
    intro p hp
    rcases hp with hp | hp | hp
    · cases command <;> cases hp
    · cases command <;> cases hp
    · exact .inr (.inr hp)
  | proceed w handler fault effect hworker hstage heffect =>
    exact driven_proceed hD hworker hstage heffect hadmits
  | answer w handler result effect hworker hstage heffect =>
    obtain ⟨hstore, hlaunched, -, hnext⟩ := (answer_of_answer heffect).spec
    refine hD.of_handled hworker (fun _ => by rw [hstore]; exact id) ?_
    intro p hp
    rcases hp with hp | hp | hp
    · cases hnext _ hp
    · cases hnext _ hp
    · rw [hlaunched] at hp
      cases hp
  | progress w i task fault effect hworker htask heffect =>
    have hstage := hD.not_marking hworker htask
    have hcall := taskCall_of_progress heffect
    refine hD.of_mono hworker rfl hstage (Finset.Subset.refl _) ?_ ?_
    · intro sessionId honline
      obtain ⟨p, phase⟩ := task
      cases hcall with
      | send => exact honline
      | unsent error => exact honline
      | reset result => exact online_update (by simp) honline
      | unreset result error => exact honline
      | record result fault =>
        unfold EventStore.stateOf at honline ⊢
        rwa [publish_sessions]
    · intro p hp
      exact drives_worked htask (fun t ht => (hcall.next_phase t ht).1) hp
  | complete w i task result next hworker htask hnext =>
    obtain ⟨-, rfl⟩ := complete_eq_some.1 hnext
    have hstage := hD.not_marking hworker htask
    refine hD.of_mono hworker rfl hstage (Finset.Subset.refl _) (fun _ => id) ?_
    intro p hp
    refine drives_worked htask ?_ hp
    intro t ht
    cases ht
    rfl
  | observe w sessionId notice fault hworker =>
    constructor
    · intro v hv hmarking
      cases hv
      exact hD.starting w hworker hmarking
    · intro v p hv hp
      cases hv
      obtain ⟨hmem, hstate⟩ := hD.driven w p hworker hp
      refine ⟨hmem, ?_⟩
      unfold EventStore.stateOf at hstate ⊢
      rwa [publish_sessions]

/-! ## What a step does to an offline session -/

theorem offline_update {store : EventStore} {sessionId other : Str} {state : SessionState}
    (hother : store.stateOf other ≠ some .offline)
    (hoffline : store.stateOf sessionId = some .offline) :
    (store.updateSessionState other state).1.stateOf sessionId = some .offline := by
  rw [EventStore.stateOf_updateSessionState, if_neg]
  · exact hoffline
  · intro heq
    subst heq
    exact hother hoffline

/-- An admitted step takes a session out of `offline` only when it resumes it. -/
theorem offline_move (hD : Driven h) (hmove : Move h a o h') (hadmits : h.admits a)
    {sessionId : Str} (hoffline : h.store.stateOf sessionId = some .offline) :
    h'.store.stateOf sessionId = some .offline ∨
      h.handler = some (.resumed sessionId) ∧ a = .proceed none := by
  cases hmove with
  | startup w fault hworker =>
    refine .inl ?_
    by_cases hstage : w.stage = .marking
    · simp only [Worker.startup, hstage]
      split
      · exact hoffline
      · rw [EventStore.stateOf_markWorkspaceSessionsOffline]
        obtain ⟨row, hrow, hstate⟩ := Option.map_eq_some_iff.1 hoffline
        simp [hrow, hstate]
    · rwa [startup_stateOf hstage]
  | proceed w handler fault effect hworker hstage heffect =>
    have hhandler : h.handler = some handler := handler_of_stage hworker hstage
    cases call_of_proceed heffect with
    | mark p hsession =>
      simp [Host.admits, hhandler] at hadmits
      exact .inl (offline_update hadmits.2 hoffline)
    | cancel other =>
      simp [Host.admits, hhandler] at hadmits
      exact .inl (offline_update hadmits hoffline)
    | register other title =>
      simp [Host.admits, hhandler] at hadmits
      refine .inl ?_
      show (h.store.upsertSession _).stateOf sessionId = _
      rw [EventStore.stateOf_upsertSession, if_neg]
      · exact hoffline
      · intro heq
        subst heq
        exact hadmits hoffline
    | resume other =>
      by_cases hother : sessionId = other
      · subst hother
        exact .inr ⟨hhandler, rfl⟩
      · refine .inl ?_
        show (h.store.updateSessionState other .idle).1.stateOf sessionId = _
        rw [EventStore.stateOf_updateSessionState, if_neg hother]
        exact hoffline
    | _ => exact .inl hoffline
  | answer w handler result effect hworker hstage heffect =>
    obtain ⟨hstore, -⟩ := (answer_of_answer heffect).spec
    refine .inl ?_
    rwa [hstore]
  | progress w i task fault effect hworker htask heffect =>
    have hdrives : w.Drives task.prompt := .inr (.inr ⟨task, List.mem_of_getElem? htask, rfl⟩)
    obtain ⟨-, hstate⟩ := hD.driven w task.prompt hworker hdrives
    obtain ⟨p, phase⟩ := task
    refine .inl ?_
    cases taskCall_of_progress heffect with
    | send => exact hoffline
    | unsent error => exact hoffline
    | reset result => exact offline_update hstate hoffline
    | unreset result error => exact hoffline
    | record result fault =>
      unfold EventStore.stateOf at hoffline ⊢
      rwa [publish_sessions]
  | observe w sessionId notice fault hworker =>
    refine .inl ?_
    unfold EventStore.stateOf at hoffline ⊢
    rwa [publish_sessions]
  | _ => exact .inl hoffline

theorem attached_of_sent (hD : Driven h) (hmove : Move h a o h') {p : Prompt}
    (hsent : o.sent = some p) : p.sessionId ∈ h.attached := by
  obtain ⟨w, hworker, hready⟩ := ready_of_sent hmove hsent
  have hdrives : w.Drives p := by
    rcases hready with hlaunching | hmem
    · exact .inr (.inl hlaunching)
    · exact .inr (.inr ⟨_, hmem, rfl⟩)
  obtain ⟨hattached, -⟩ := hD.driven w p hworker hdrives
  simpa [Host.attached, hworker] using hattached

end

/-- Over any history of starts that the missing check admits: what is sent is for a session of the
connection, and a session leaves `offline` by a resume alone. -/
theorem attached_driven (store : EventStore) (actions : List Action)
    (hadmits : ∀ t ∈ host.run ⟨store, none⟩ actions, t.before.admits t.input) :
    ∀ t ∈ host.run ⟨store, none⟩ actions, DrivesAttached t ∧
      ∀ sessionId, LeavesOffline sessionId t → ResumeStep sessionId t := by
  intro t ht
  have hdriven := (Machine.run_invariant_of (M := host) (P := Driven)
    (C := fun t => t.before.admits t.input) (fun h a hD ha => driven_move hD (step_move h a) ha)
    (driven_of_no_worker rfl) hadmits ht).1
  refine ⟨fun p hsent => attached_of_sent hdriven (run_move ht) hsent, ?_⟩
  intro sessionId hcase
  obtain ⟨hoffline, hleft⟩ := hcase
  rcases offline_move hdriven (run_move ht) (hadmits t ht) hoffline with hstays | hresumed
  · exact absurd hstays hleft
  · exact hresumed

/-! ## A prompt after a restart -/

/-- The host dies and is started again; the session is not resumed. -/
def restart : List Action :=
  [.crash, .start ⟨7, "repo", "/repo", false, true, false⟩, .startup none, .startup none,
    .startup none]

theorem offline_session_prompted :
    ∃ t ∈ host.run .fresh (setUp ++ restart ++ accept hello ++ [.progress 0 none]),
      t.output.sent = some hello ∧ hello.sessionId ∉ t.before.attached := by
  decide

/-- Resumed first, the session may be prompted. -/
theorem attached_driven_resumed :
    (∀ t ∈ host.run ⟨.empty, none⟩ (setUp ++ restart ++ [.receive (.resumeSession "s"),
        .answer (.ok []), .proceed none, .proceed none] ++ accept hello ++ [.progress 0 none]),
      t.before.admits t.input) ∧
    ∀ t ∈ host.run ⟨.empty, none⟩ (setUp ++ restart ++ [.receive (.resumeSession "s"),
        .answer (.ok []), .proceed none, .proceed none] ++ accept hello ++ [.progress 0 none]),
      DrivesAttached t ∧ ∀ sessionId, LeavesOffline sessionId t → ResumeStep sessionId t := by
  have hadmits : ∀ t ∈ host.run ⟨.empty, none⟩ (setUp ++ restart ++
      [.receive (.resumeSession "s"), .answer (.ok []), .proceed none, .proceed none] ++
        accept hello ++ [.progress 0 none]), t.before.admits t.input := by
    decide
  exact ⟨hadmits, attached_driven .empty _ hadmits⟩

end LeaveCli.Acp
