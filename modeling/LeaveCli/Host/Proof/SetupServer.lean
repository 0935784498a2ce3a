import LeaveCli.Host.SetupServer

/-!
# One foreground host, and none after the shutdown

`launch` reads the slot under one lock and fills it under another, and only a launch that still
waits empties it. `Admitted` says when that does no harm: who reads a slot finds no process there
that has exited, and launches and the shutdown come one after the other. `Tracked` is what the
admitted steps keep: every host that runs is in the slot, about to be put there, or in the hands of
the shutdown.
-/

namespace LeaveCli.Host.SetupServer

open Lib

variable {s : SetupServer} {id : Nat}

/-- No foreground launch stands between its check of the slot and its store. -/
def Settled (s : SetupServer) : Prop :=
  ∀ other stage, s.launches other = some stage → stage.inFlight = false

/-- The processes in the slots run when a request reads them; a foreground launch passes its check,
and the shutdown begins, while no launch is in flight, and no launch passes after that. -/
structure Admitted (t : Transition SetupServer SetupAction SetupReply) : Prop where
  host : ∀ id checks request host, t.input = .launch id checks request →
    t.before.launches id = none → t.before.child = some host → t.before.hostRuns host = true
  login : ∀ id login, t.input = .connect id → t.before.connects id = none →
    t.before.tailscaleLogin = some login → t.before.loginRuns login = true
  pass : ∀ id checks request, t.input = .launch id checks request → request.background = false →
    checks.refusal request = none → t.before.child = none →
    Settled t.before ∧ t.before.shutdown = .serving
  shutdown : t.input = .shutdownTakes → t.before.shutdown = .serving → Settled t.before

/-- A request is refused only while the process in its slot runs. -/
def RefusesRunning (t : Transition SetupServer SetupAction SetupReply) : Prop :=
  (∀ id checks request, t.input = .launch id checks request →
    t.output = .refused alreadyLaunched →
      ∃ host, t.before.child = some host ∧ t.before.hostRuns host = true) ∧
  ∀ id, t.input = .connect id → t.output = .refused alreadyWaiting →
    ∃ login, t.before.tailscaleLogin = some login ∧ t.before.loginRuns login = true

/-- At most one foreground host runs, and none once the shutdown has killed. -/
structure SingleHost (s : SetupServer) : Prop where
  one : ∀ host other, s.hostRuns host = true → s.hostRuns other = true → host = other
  killed : s.shutdown = .down → ∀ host, s.hostRuns host = false

/-! ## What the admitted steps keep -/

structure Tracked (s : SetupServer) : Prop where
  tracked : ∀ {host}, s.hostRuns host = true →
    s.child = some host ∨ s.launches host = some .started ∨ s.shutdown = .holding (some host)
  single : ∀ {id other stage stage'}, s.launches id = some stage →
    s.launches other = some stage' → stage.inFlight = true → stage'.inFlight = true → id = other
  empty : ∀ {id stage}, s.launches id = some stage → stage.inFlight = true →
    s.child = none ∧ s.shutdown = .serving
  stopped : s.shutdown ≠ .serving → s.child = none

theorem tracked_start : Tracked start where
  tracked := by simp [start]
  single := by simp [start]
  empty := by simp [start]
  stopped := by simp [start]

theorem Tracked.singleHost (h : Tracked s) : SingleHost s where
  one host other hhost hother := by
    rcases h.tracked hhost with hslot | hstarted | hheld
    · rcases h.tracked hother with hslot' | hstarted' | hheld'
      · exact Option.some.inj (hslot.symm.trans hslot')
      · have hempty := (h.empty hstarted' rfl).1
        rw [hslot] at hempty
        cases hempty
      · have hempty := h.stopped (by simp [hheld'])
        rw [hslot] at hempty
        cases hempty
    · have hserving := h.empty hstarted rfl
      rcases h.tracked hother with hslot' | hstarted' | hheld'
      · rw [hserving.1] at hslot'
        cases hslot'
      · exact h.single hstarted hstarted' rfl rfl
      · rw [hserving.2] at hheld'
        cases hheld'
    · rcases h.tracked hother with hslot' | hstarted' | hheld'
      · have hempty := h.stopped (by simp [hheld])
        rw [hslot'] at hempty
        cases hempty
      · have hserving := (h.empty hstarted' rfl).2
        rw [hheld] at hserving
        cases hserving
      · rw [hheld] at hheld'
        cases hheld'
        rfl
  killed hdown host := by
    by_contra hruns
    rcases h.tracked (eq_true_of_ne_false hruns) with hslot | hstarted | hheld
    · rw [h.stopped (by simp [hdown])] at hslot
      cases hslot
    · have hserving := (h.empty hstarted rfl).2
      rw [hdown] at hserving
      cases hserving
    · rw [hdown] at hheld
      cases hheld

/-- Only the slot, the hosts, the launches and the shutdown count. -/
theorem Tracked.congr (h : Tracked s) {s' : SetupServer} (hchild : s'.child = s.child)
    (hlaunches : s'.launches = s.launches) (hruns : s'.hostRuns = s.hostRuns)
    (hshutdown : s'.shutdown = s.shutdown) : Tracked s' where
  tracked hhost := by
    rw [hchild, hlaunches, hshutdown]
    exact h.tracked (hruns ▸ hhost)
  single hstage hother := h.single (hlaunches ▸ hstage) (hlaunches ▸ hother)
  empty hstage hflight := by
    rw [hchild, hshutdown]
    exact h.empty (hlaunches ▸ hstage) hflight
  stopped hdown := by
    rw [hchild]
    exact h.stopped (hshutdown ▸ hdown)

theorem withLaunch_cases {stage after : LaunchStage} {other : Nat}
    (h : (s.withLaunch id after).launches other = some stage) :
    (other = id ∧ stage = after) ∨ (other ≠ id ∧ s.launches other = some stage) := by
  change Function.update s.launches id (some after) other = some stage at h
  by_cases heq : other = id
  · left
    rw [heq, Function.update_self] at h
    exact ⟨heq, (Option.some.inj h).symm⟩
  · right
    rw [Function.update_of_ne heq] at h
    exact ⟨heq, h⟩

/-- A launch that has no host of its own goes on, and is not in flight. -/
theorem Tracked.withLaunch (h : Tracked s) {stage : LaunchStage}
    (hold : s.launches id ≠ some .started) (hstage : stage.inFlight = false) :
    Tracked (s.withLaunch id stage) where
  tracked {host} hhost := by
    rcases h.tracked hhost with hslot | hstarted | hheld
    · exact .inl hslot
    · have hne : host ≠ id := fun heq => hold (heq ▸ hstarted)
      exact .inr (.inl ((Function.update_of_ne hne _ _).trans hstarted))
    · exact .inr (.inr hheld)
  single hfirst hother hflight hflight' := by
    rcases withLaunch_cases hfirst with ⟨-, rfl⟩ | ⟨-, hfirst⟩
    · exact absurd (hstage.symm.trans hflight) Bool.false_ne_true
    · rcases withLaunch_cases hother with ⟨-, rfl⟩ | ⟨-, hother⟩
      · exact absurd (hstage.symm.trans hflight') Bool.false_ne_true
      · exact h.single hfirst hother hflight hflight'
  empty hfirst hflight := by
    rcases withLaunch_cases hfirst with ⟨-, rfl⟩ | ⟨-, hfirst⟩
    · exact absurd (hstage.symm.trans hflight) Bool.false_ne_true
    · exact h.empty hfirst hflight
  stopped := h.stopped

/-- A launch passes its check. -/
theorem Tracked.pass (h : Tracked s) (hnew : s.launches id = none) (hsettled : Settled s)
    (hslot : s.child = none) (hserving : s.shutdown = .serving) :
    Tracked (s.withLaunch id .checked) where
  tracked {host} hhost := by
    rcases h.tracked hhost with hslot' | hstarted | hheld
    · exact .inl hslot'
    · exact absurd (hsettled _ _ hstarted) (by decide)
    · exact .inr (.inr hheld)
  single hfirst hother hflight hflight' := by
    rcases withLaunch_cases hfirst with ⟨rfl, -⟩ | ⟨-, hfirst⟩
    · rcases withLaunch_cases hother with ⟨rfl, -⟩ | ⟨-, hother⟩
      · rfl
      · exact absurd ((hsettled _ _ hother).symm.trans hflight') Bool.false_ne_true
    · exact absurd ((hsettled _ _ hfirst).symm.trans hflight) Bool.false_ne_true
  empty _ _ := ⟨hslot, hserving⟩
  stopped _ := hslot

theorem Tracked.startHost (h : Tracked s) (hchecked : s.launches id = some .checked) :
    Tracked ((s.withHost id true).withLaunch id .started) where
  tracked {host} hhost := by
    change Function.update s.hostRuns id true host = true at hhost
    by_cases heq : host = id
    · exact .inr (.inl (heq ▸ Function.update_self ..))
    · rw [Function.update_of_ne heq] at hhost
      rcases h.tracked hhost with hslot | hstarted | hheld
      · exact .inl hslot
      · exact .inr (.inl ((Function.update_of_ne heq _ _).trans hstarted))
      · exact .inr (.inr hheld)
  single hfirst hother hflight hflight' := by
    rcases withLaunch_cases hfirst with ⟨rfl, -⟩ | ⟨-, hfirst⟩ <;>
      rcases withLaunch_cases hother with ⟨rfl, -⟩ | ⟨-, hother⟩
    · rfl
    · exact h.single hchecked hother rfl hflight'
    · exact h.single hfirst hchecked hflight rfl
    · exact h.single hfirst hother hflight hflight'
  empty _ _ := h.empty hchecked rfl
  stopped := h.stopped

/-- The slot was empty, so nothing is overwritten. -/
theorem Tracked.storeHost (h : Tracked s) (hstarted : s.launches id = some .started) (looks : Nat) :
    Tracked ({ s with child := some id }.withLaunch id (.waiting looks)) where
  tracked {host} hhost := by
    obtain ⟨hslot, hserving⟩ := h.empty hstarted rfl
    rcases h.tracked hhost with hslot' | hstarted' | hheld
    · rw [hslot] at hslot'
      cases hslot'
    · exact .inl (congrArg some (h.single hstarted hstarted' rfl rfl))
    · rw [hserving] at hheld
      cases hheld
  single hfirst hother hflight hflight' := by
    rcases withLaunch_cases hfirst with ⟨-, rfl⟩ | ⟨-, hfirst⟩
    · cases hflight
    · rcases withLaunch_cases hother with ⟨-, rfl⟩ | ⟨-, hother⟩
      · cases hflight'
      · exact h.single hfirst hother hflight hflight'
  empty hfirst hflight := by
    rcases withLaunch_cases hfirst with ⟨-, rfl⟩ | ⟨hne, hfirst⟩
    · cases hflight
    · exact absurd (h.single hfirst hstarted hflight rfl) hne
  stopped hdown := absurd (h.empty hstarted rfl).2 hdown

/-- What is taken out of the slot does not run. -/
theorem Tracked.emptySlot (h : Tracked s)
    (hexited : ∀ host, s.child = some host → s.hostRuns host = false) :
    Tracked { s with child := none } where
  tracked {host} hhost := by
    rcases h.tracked hhost with hslot | hstarted | hheld
    · exact absurd ((hexited host hslot).symm.trans hhost) Bool.false_ne_true
    · exact .inr (.inl hstarted)
    · exact .inr (.inr hheld)
  single := h.single
  empty hstage hflight := ⟨rfl, (h.empty hstage hflight).2⟩
  stopped _ := rfl

theorem Tracked.hostExits (h : Tracked s) (id : Nat) : Tracked (s.withHost id false) where
  tracked {host} hhost := by
    change Function.update s.hostRuns id false host = true at hhost
    by_cases heq : host = id
    · rw [heq, Function.update_self] at hhost
      cases hhost
    · rw [Function.update_of_ne heq] at hhost
      exact h.tracked hhost
  single := h.single
  empty := h.empty
  stopped := h.stopped

theorem Tracked.shutdownTakes (h : Tracked s) (hserving : s.shutdown = .serving)
    (hsettled : Settled s) : Tracked { s with child := none, shutdown := .holding s.child } where
  tracked {host} hhost := by
    rcases h.tracked hhost with hslot | hstarted | hheld
    · exact .inr (.inr (congrArg ShutdownStage.holding hslot))
    · exact absurd (hsettled _ _ hstarted) (by decide)
    · rw [hserving] at hheld
      cases hheld
  single := h.single
  empty hstage hflight := absurd ((hsettled _ _ hstage).symm.trans hflight) Bool.false_ne_true
  stopped _ := rfl

theorem Tracked.shutdownKills (h : Tracked s) {held : Option Nat}
    (hholding : s.shutdown = .holding held) :
    Tracked { held.elim s (s.withHost · false) with shutdown := .down } := by
  have hslot := h.stopped (by simp [hholding])
  have hsettled : ∀ {id stage}, s.launches id = some stage → stage.inFlight = true → False := by
    intro id stage hstage hflight
    have hserving := (h.empty hstage hflight).2
    rw [hholding] at hserving
    cases hserving
  have hheld : ∀ host, s.hostRuns host = true → held = some host := by
    intro host hhost
    rcases h.tracked hhost with hslot' | hstarted | hheld
    · rw [hslot] at hslot'
      cases hslot'
    · exact (hsettled hstarted rfl).elim
    · exact ShutdownStage.holding.inj (hholding.symm.trans hheld)
  cases held with
  | none =>
    exact {
      tracked hhost := absurd (hheld _ hhost) (by simp)
      single := h.single
      empty hstage hflight := (hsettled hstage hflight).elim
      stopped _ := hslot }
  | some killed =>
    exact {
      tracked {host} hhost := by
        change Function.update s.hostRuns killed false host = true at hhost
        by_cases heq : host = killed
        · rw [heq, Function.update_self] at hhost
          cases hhost
        · rw [Function.update_of_ne heq] at hhost
          exact absurd (Option.some.inj (hheld host hhost)).symm heq
      single := h.single
      empty hstage hflight := (hsettled hstage hflight).elim
      stopped _ := hslot }

theorem Tracked.look (h : Tracked s) {looks : Nat}
    (hwaiting : s.launches id = some (.waiting looks)) (next : Nat) (answers fails : Bool) :
    Tracked (s.look id next answers fails) := by
  have hold : s.launches id ≠ some .started := by
    rw [hwaiting]
    simp
  unfold SetupServer.look
  split
  · exact h.withLaunch hold rfl
  · split
    · rename_i hany
      cases fails with
      | true => exact h.withLaunch hold rfl
      | false =>
        refine (h.emptySlot fun host hslot => ?_).withLaunch hold rfl
        rw [hslot] at hany
        simpa using hany
    · refine h.withLaunch hold ?_
      split <;> rfl

theorem Tracked.launch (h : Tracked s) {checks : LaunchChecks} {request : LaunchRequest}
    (hnew : s.launches id = none)
    (hpass : request.background = false → checks.refusal request = none → s.child = none →
      Settled s ∧ s.shutdown = .serving) : Tracked (s.launch id checks request).2 := by
  unfold SetupServer.launch
  cases hrefusal : checks.refusal request with
  | some error => exact h
  | none =>
    show Tracked (if _ then _ else _ : SetupReply × SetupServer).2
    split
    · exact h
    · rename_i hslot
      have hempty : s.child = none := by simpa using hslot
      cases hbackground : request.background with
      | true => exact h.withLaunch (by simp [hnew]) rfl
      | false =>
        obtain ⟨hsettled, hserving⟩ := hpass hbackground hrefusal hempty
        exact h.pass hnew hsettled hempty hserving

theorem tracked_step (h : Tracked s) (action : SetupAction)
    (hadmitted : Admitted (machine.fire s action)) : Tracked (machine.step s action).2 := by
  show Tracked (s.step action).2
  cases action with
  | launch id checks request =>
    simp only [step]
    split
    · rename_i hnew
      exact h.launch hnew (hadmitted.pass id checks request rfl)
    · exact h
  | launchFails id =>
    simp only [step]
    split
    · rename_i hstage
      exact h.withLaunch (by simp [hstage]) rfl
    · rename_i hstage
      exact h.withLaunch (by simp [hstage]) rfl
    · exact h
  | startHost id =>
    simp only [step]
    split
    · rename_i hstage
      exact h.startHost hstage
    · exact h
  | storeHost id =>
    simp only [step]
    split
    · rename_i hstage
      exact h.storeHost hstage lookCount
    · exact h
  | installed id =>
    simp only [step]
    split
    · rename_i hstage
      exact h.withLaunch (by simp [hstage]) rfl
    · exact h
  | look id answers fails =>
    simp only [step]
    split
    · rename_i looks hstage
      exact h.look hstage looks answers fails
    · exact h
  | hostExits id => exact h.hostExits id
  | connect id =>
    simp only [step]
    split
    · unfold connect
      split
      · exact h
      · exact h.congr rfl rfl rfl rfl
    · exact h
  | storeLogin id =>
    simp only [step]
    split
    · exact h.congr rfl rfl rfl rfl
    · exact h
  | loginEnds id =>
    simp only [step]
    split
    · exact h.congr rfl rfl rfl rfl
    · exact h
  | loginExits id => exact h.congr rfl rfl rfl rfl
  | shutdownTakes =>
    simp only [step]
    split
    · rename_i hserving
      exact h.shutdownTakes hserving (hadmitted.shutdown rfl hserving)
    · exact h
  | shutdownKills =>
    simp only [step]
    split
    · rename_i held hholding
      exact h.shutdownKills hholding
    · exact h
  | shutdownKillsLogin =>
    simp only [step]
    split
    · cases s.tailscaleLogin with
      | none => exact h.congr rfl rfl rfl rfl
      | some login => exact h.congr rfl rfl rfl rfl
    · exact h

/-! ## Refusals -/

theorem refusal_ne (checks : LaunchChecks) (request : LaunchRequest) :
    checks.refusal request ≠ some alreadyLaunched := by
  unfold LaunchChecks.refusal
  repeat' split
  all_goals decide +kernel

theorem refuses_running {action : SetupAction} (hadmitted : Admitted (machine.fire s action)) :
    RefusesRunning (machine.fire s action) := by
  refine ⟨fun id checks request hinput houtput => ?_, fun id hinput houtput => ?_⟩
  · change action = .launch id checks request at hinput
    subst hinput
    change (s.step (.launch id checks request)).1 = .refused alreadyLaunched at houtput
    simp only [step] at houtput
    split at houtput
    · rename_i hnew
      unfold SetupServer.launch at houtput
      cases hrefusal : checks.refusal request with
      | some error =>
        rw [hrefusal] at houtput
        exact absurd (hrefusal.trans (congrArg some (SetupReply.refused.inj houtput)))
          (refusal_ne checks request)
      | none =>
        simp only [hrefusal] at houtput
        split at houtput
        · rename_i hslot
          obtain ⟨host, hhost⟩ := Option.isSome_iff_exists.1 hslot
          exact ⟨host, hhost, hadmitted.host id checks request host rfl hnew hhost⟩
        · cases houtput
    · cases houtput
  · change action = .connect id at hinput
    subst hinput
    change (s.step (.connect id)).1 = .refused alreadyWaiting at houtput
    simp only [step] at houtput
    split at houtput
    · rename_i hnew
      unfold connect at houtput
      split at houtput
      · rename_i hslot
        obtain ⟨login, hlogin⟩ := Option.isSome_iff_exists.1 hslot
        exact ⟨login, hlogin, hadmitted.login id login rfl hnew hlogin⟩
      · cases houtput
    · cases houtput

/-- In a run whose steps are admitted, a request is refused only while the process in its slot runs,
one foreground host runs at a time, and none is left once the shutdown has killed. -/
theorem guards_exact {actions : List SetupAction}
    (hadmitted : ∀ t ∈ machine.run start actions, Admitted t) :
    ∀ t ∈ machine.run start actions,
      RefusesRunning t ∧ SingleHost t.before ∧ SingleHost t.after := by
  intro t ht
  obtain ⟨hbefore, hafter⟩ := Machine.run_invariant_of (P := Tracked)
    (fun s action h => tracked_step h action) tracked_start hadmitted ht
  have hfire := Machine.eq_fire_of_mem_run ht
  have hreply := hadmitted t ht
  rw [hfire] at hreply
  refine ⟨?_, hbefore.singleHost, hafter.singleHost⟩
  rw [hfire]
  exact refuses_running hreply

/-- Everything is ready. -/
def readyChecks : LaunchChecks := ⟨4310, true, true, true, true⟩

def foreground : LaunchRequest := ⟨4242, false, false, false⟩

/-- The action reads a slot, or begins the shutdown. -/
def readsSlot : SetupAction → Bool
  | .launch _ _ _ => true
  | .connect _ => true
  | .shutdownTakes => true
  | _ => false

theorem admitted_of_readsSlot {action : SetupAction} (h : readsSlot action = false) :
    Admitted (machine.fire s action) where
  host id checks request host hinput := by
    change action = _ at hinput
    subst hinput
    cases h
  login id login hinput := by
    change action = _ at hinput
    subst hinput
    cases h
  pass id checks request hinput := by
    change action = _ at hinput
    subst hinput
    cases h
  shutdown hinput := by
    change action = _ at hinput
    subst hinput
    cases h

/-- A host and a sign-in, two refusals, and the shutdown. -/
def guardedRun : List SetupAction := [.launch 0 readyChecks foreground, .startHost 0,
  .storeHost 0, .look 0 true false, .launch 1 readyChecks foreground, .connect 2, .storeLogin 2,
  .connect 3, .shutdownTakes, .shutdownKills, .shutdownKillsLogin]

theorem guards_exact_shutdown :
    (∃ t ∈ machine.run start guardedRun, t.after.shutdown = .down) ∧
    ∀ t ∈ machine.run start guardedRun,
      RefusesRunning t ∧ SingleHost t.before ∧ SingleHost t.after := by
  have hdown : (machine.run start guardedRun)[10]?.map (·.after.shutdown) = some .down := rfl
  obtain ⟨t, ht, hshutdown⟩ := Option.map_eq_some_iff.1 hdown
  refine ⟨⟨t, List.mem_of_getElem? ht, hshutdown⟩, guards_exact ?_⟩
  simp only [guardedRun, Machine.run, machine, Bool.false_eq_true, if_false, List.forall_mem_cons]
  have hquiet (s : SetupServer) (action : SetupAction) (h : readsSlot action = false) :
      Admitted (machine.fire s action) := admitted_of_readsSlot h
  refine ⟨?launch, hquiet _ _ rfl, hquiet _ _ rfl, hquiet _ _ rfl, ?refused, ?connect,
    hquiet _ _ rfl, ?waiting, ?shutdown, hquiet _ _ rfl, hquiet _ _ rfl, by simp⟩
  case launch =>
    exact ⟨fun _ _ _ _ _ _ hslot => (nomatch hslot), fun _ _ hinput => (nomatch hinput),
      fun _ _ _ _ _ _ _ => ⟨fun _ _ hstage => (nomatch hstage), rfl⟩,
      fun hinput => (nomatch hinput)⟩
  case refused =>
    refine ⟨fun _ _ _ host _ _ hslot => ?_, fun _ _ hinput => (nomatch hinput),
      fun _ _ _ _ _ _ hslot => (nomatch hslot), fun hinput => (nomatch hinput)⟩
    cases hslot
    rfl
  case connect =>
    exact ⟨fun _ _ _ _ hinput => (nomatch hinput), fun _ _ _ _ hslot => (nomatch hslot),
      fun _ _ _ hinput => (nomatch hinput), fun hinput => (nomatch hinput)⟩
  case waiting =>
    refine ⟨fun _ _ _ _ hinput => (nomatch hinput), fun _ login _ _ hslot => ?_,
      fun _ _ _ hinput => (nomatch hinput), fun hinput => (nomatch hinput)⟩
    cases hslot
    rfl
  case shutdown =>
    refine ⟨fun _ _ _ _ hinput => (nomatch hinput), fun _ _ hinput => (nomatch hinput),
      fun _ _ _ hinput => (nomatch hinput), fun _ _ other stage hstage => ?_⟩
    by_cases heq : other = 0
    · subst heq
      cases hstage
      rfl
    · have hone : Function.update (Function.update (Function.update (Function.update
          (fun _ => none) 0 (some LaunchStage.checked)) 0 (some .started)) 0
          (some (.waiting lookCount))) 0 (some .ended) other = some stage := hstage
      simp [heq] at hone

/-- The host exits when no launch waits any more. -/
def exitedHost : List SetupAction := [.launch 0 readyChecks foreground, .startHost 0, .storeHost 0,
  .look 0 true false, .hostExits 0, .launch 1 readyChecks foreground]

/-- Two launches read the slot before either fills it. -/
def twoLaunches : List SetupAction := [.launch 0 readyChecks foreground,
  .launch 1 readyChecks foreground, .startHost 0, .startHost 1]

/-- The shutdown begins between the check of a launch and the start of its host. -/
def launchAtShutdown : List SetupAction := [.launch 0 readyChecks foreground, .shutdownTakes,
  .shutdownKills, .startHost 0, .storeHost 0]

theorem guards_inexact :
    (¬ ∀ actions, ∀ t ∈ machine.run start actions, RefusesRunning t) ∧
    (¬ ∀ actions, ∀ t ∈ machine.run start actions, ∀ host other, t.after.hostRuns host = true →
      t.after.hostRuns other = true → host = other) ∧
    ¬ ∀ actions, ∀ t ∈ machine.run start actions, t.after.shutdown = .down →
      ∀ host, t.after.hostRuns host = false := by
  refine ⟨fun h => ?_, fun h => ?_, fun h => ?_⟩
  · have hrun := h exitedHost
    simp only [exitedHost, Machine.run, machine, Bool.false_eq_true, if_false,
      List.forall_mem_cons] at hrun
    obtain ⟨-, -, -, -, -, hrefuses, -⟩ := hrun
    obtain ⟨host, hslot, hruns⟩ := hrefuses.1 1 readyChecks foreground rfl rfl
    have hhost : 0 = host := Option.some.inj hslot
    subst hhost
    exact absurd hruns (by decide)
  · have hrun := h twoLaunches
    simp only [twoLaunches, Machine.run, machine, Bool.false_eq_true, if_false,
      List.forall_mem_cons] at hrun
    obtain ⟨-, -, -, hone, -⟩ := hrun
    exact absurd (hone 0 1 rfl rfl) (by decide)
  · have hrun := h launchAtShutdown
    simp only [launchAtShutdown, Machine.run, machine, Bool.false_eq_true, if_false,
      List.forall_mem_cons] at hrun
    obtain ⟨-, -, -, -, hkilled, -⟩ := hrun
    exact absurd (hkilled rfl 0) (by decide)

end LeaveCli.Host.SetupServer
