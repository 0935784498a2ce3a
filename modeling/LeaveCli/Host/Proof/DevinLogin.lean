import LeaveCli.Host.DevinLogin

/-!
# A sign-in attempt and the next one

The generation is compared when a watchdog wakes up and when it has done its work, and by no stream.
So an attempt is alone with its report and its process as long as two steps come late enough
(`Admitted`): the report is replaced only when the output of every earlier attempt has ended, and a
running process is stored only when no other watchdog stands between its check and the slot. `Alone`
is what the admitted steps keep, and `attempts_alone` what follows for every run.
-/

namespace LeaveCli.Host.DevinLogin

open Lib

variable {s : DevinLogin} {id other : Nat} {stage : LoginStage}

/-- A later attempt has replaced the report. -/
def Superseded (s : DevinLogin) (id : Nat) : Prop :=
  ∃ stage g other stage' g', s.attempts id = some stage ∧ stage.generation? = some g ∧
    s.attempts other = some stage' ∧ stage'.generation? = some g' ∧ g < g'

/-- The steps that start an attempt come after the steps of the earlier ones. -/
structure Admitted (t : Transition DevinLogin LoginAction LoginReply) : Prop where
  replace : ∀ id, t.input = .replace id → t.before.attempts id = some .spawned →
    ∀ other stage, t.before.attempts other = some stage → ¬ stage.OutputOpen
  store : ∀ id generation, t.input = .store id →
    t.before.attempts id = some (.replaced generation) → t.before.exited id = false →
    ∀ other stage, t.before.attempts other = some stage → ¬ stage.Passed

/-! ## What a step can do -/

/-- One task of an attempt goes on. -/
inductive Moves (s : DevinLogin) (id : Nat) (g : Nat) :
    LoginStage → LoginAction → LoginReply → DevinLogin → LoginStage → Prop
  | stream {action : LoginAction} (haction : action.stream? = some id) (stream after : StreamStage)
    (watchdog : WatchdogStage) (report : DevinLoginReport) (hreading : stream ≠ .ended)
    (hreport : report.generation = s.report.generation) :
    Moves s id g (.stored g stream watchdog) action .silent { s with report }
      (.stored g after watchdog)
  | pass (stream : StreamStage) (hcheck : s.report.generation = g) :
    Moves s id g (.stored g stream .sleeping) (.timer id) .silent s (.stored g stream .passed)
  | giveUp (stream : StreamStage) :
    Moves s id g (.stored g stream .sleeping) (.timer id) .silent s (.stored g stream .done)
  | take (stream : StreamStage) (attempt : Nat) (hslot : s.slot = some attempt) :
    Moves s id g (.stored g stream .passed) (.take id) .silent { s with slot := none }
      (.stored g stream (.holding attempt))
  | takeNothing (stream : StreamStage) :
    Moves s id g (.stored g stream .passed) (.take id) .silent { s with slot := none }
      (.stored g stream .stopped)
  | kill (stream : StreamStage) (attempt : Nat) (reply : LoginReply)
    (hreply : reply = .silent ∨ reply = .killed attempt ∧ s.exited attempt = false) :
    Moves s id g (.stored g stream (.holding attempt)) (.kill id) reply (s.ends attempt)
      (.stored g stream .stopped)
  | finish (stream : StreamStage) (report : DevinLoginReport)
    (hreport : report.generation = s.report.generation) :
    Moves s id g (.stored g stream .stopped) (.finish id) .silent { s with report }
      (.stored g stream .done)

/-- Processes end, and the slot may be emptied. -/
structure Fades (s s' : DevinLogin) : Prop where
  report : s'.report = s.report
  attempts : s'.attempts = s.attempts
  slot : ∀ attempt, s'.slot = some attempt → s.slot = some attempt
  exited : ∀ attempt, s.exited attempt = true → s'.exited attempt = true

inductive Does (s : DevinLogin) : LoginAction → LoginReply → DevinLogin → Prop
  | fades {action : LoginAction} {reply : LoginReply} {s' : DevinLogin} (hfades : Fades s s')
    (hreply : ∀ attempt, reply ≠ .killed attempt) : Does s action reply s'
  | request (id : Nat) (fails : Bool) {faded : DevinLogin} (hfades : Fades s faded)
    (hnew : s.attempts id = none) :
    Does s (.request id fails) .silent (faded.withStage id .spawned)
  | replace (id : Nat) (hstage : s.attempts id = some .spawned) :
    Does s (.replace id) .silent (s.replace id)
  | store (id g : Nat) {faded : DevinLogin} (hfades : Fades s faded)
    (hstage : s.attempts id = some (.replaced g)) :
    Does s (.store id) .silent
      ({ faded with slot := some id }.withStage id (.stored g .reading .sleeping))
  | moves (id g : Nat) (stage after : LoginStage) {action : LoginAction} {reply : LoginReply}
    {moved : DevinLogin} (hstage : s.attempts id = some stage)
    (hmoves : Moves s id g stage action reply moved after) :
    Does s action reply (moved.withStage id after)

theorem Fades.refl (s : DevinLogin) : Fades s s :=
  ⟨rfl, rfl, fun _ h => h, fun _ h => h⟩

theorem exited_ends {s : DevinLogin} {attempt other : Nat} (h : s.exited other = true) :
    (s.ends attempt).exited other = true := by
  show Function.update s.exited attempt true other = true
  by_cases heq : other = attempt
  · rw [heq, Function.update_self]
  · rw [Function.update_of_ne heq]
    exact h

theorem fades_ends (s : DevinLogin) (attempt : Nat) : Fades s (s.ends attempt) :=
  ⟨rfl, rfl, fun _ h => h, fun _ => exited_ends⟩

theorem fades_dropSlot (s : DevinLogin) : Fades s s.dropSlot := by
  unfold dropSlot
  cases s.slot with
  | none => exact ⟨rfl, rfl, fun _ h => (nomatch h), fun _ h => h⟩
  | some attempt => exact ⟨rfl, rfl, fun _ h => (nomatch h), fun _ => exited_ends⟩

theorem step_does (s : DevinLogin) (action : LoginAction) :
    Does s action (s.step action).1 (s.step action).2 := by
  have hnothing : ∀ action, Does s action .silent s := fun _ =>
    .fades (.refl s) (by simp)
  cases action with
  | request id fails =>
    simp only [step]
    cases hnew : s.attempts id with
    | some stage => exact hnothing _
    | none =>
      simp only [request]
      split
      · exact .fades (.refl s) (by simp)
      · exact .request id fails (fades_dropSlot s) hnew
  | replace id =>
    simp only [step]
    split
    · rename_i hstage
      exact .replace id hstage
    · exact hnothing _
  | store id =>
    simp only [step]
    split
    · rename_i g hstage
      exact .store id g (fades_dropSlot s) hstage
    · exact hnothing _
  | look fails =>
    simp only [step]
    refine .fades ?_ (by simp)
    split
    · exact .refl s
    · exact fades_dropSlot s
  | exit id => exact .fades (fades_ends s id) (by simp [step])
  | line id line =>
    simp only [step]
    split
    · rename_i g watchdog hstage
      exact .moves id g _ _ hstage (.stream rfl _ _ watchdog _ (by simp) rfl)
    · exact hnothing _
  | writeUrl id =>
    simp only [step]
    split
    · rename_i g url watchdog hstage
      exact .moves id g _ _ hstage (.stream rfl _ _ watchdog _ (by simp) rfl)
    · exact hnothing _
  | endOfOutput id =>
    simp only [step]
    split
    · rename_i g watchdog hstage
      exact .moves id g _ _ hstage (.stream rfl _ _ watchdog _ (by simp) rfl)
    · exact hnothing _
  | timer id =>
    simp only [step]
    split
    · rename_i g stream hstage
      unfold timer
      split
      · rename_i hcheck
        have hcurrent : s.report.generation = g ∧ s.report.finished = false := by
          simpa using hcheck
        exact .moves id g _ _ hstage (.pass stream hcurrent.1)
      · exact .moves id g _ _ hstage (.giveUp stream)
    · exact hnothing _
  | take id =>
    simp only [step]
    split
    · rename_i g stream hstage
      unfold take
      cases hslot : s.slot with
      | none => exact .moves id g _ _ hstage (.takeNothing stream)
      | some attempt => exact .moves id g _ _ hstage (.take stream attempt hslot)
    · exact hnothing _
  | kill id =>
    simp only [step]
    split
    · rename_i g stream attempt hstage
      refine .moves id g _ _ hstage (.kill stream attempt _ ?_)
      simp only [kill]
      split
      · exact .inl rfl
      · rename_i hrunning
        exact .inr ⟨rfl, by simpa using hrunning⟩
    · exact hnothing _
  | finish id =>
    simp only [step]
    split
    · rename_i g stream hstage
      refine .moves id g _ _ hstage (.finish stream _ ?_)
      split <;> rfl
    · exact hnothing _
  | shutdown => exact .fades (fades_dropSlot s) (by simp [step])

/-! ## What the admitted steps keep -/

/-- Every attempt has the report and the process to itself. -/
structure Alone (s : DevinLogin) : Prop where
  generation_le : ∀ {id stage g}, s.attempts id = some stage → stage.generation? = some g →
    g ≤ s.report.generation
  unique : ∀ {id other stage stage' g}, s.attempts id = some stage →
    s.attempts other = some stage' → stage.generation? = some g → stage'.generation? = some g →
    id = other
  ended : ∀ {id stage g}, s.attempts id = some stage → stage.generation? = some g →
    g < s.report.generation → ¬ stage.OutputOpen
  current : ∀ {id stream watchdog attempt},
    s.attempts id = some (.stored s.report.generation stream watchdog) → s.slot = some attempt →
    attempt = id
  passed : ∀ {id g stream attempt}, s.attempts id = some (.stored g stream .passed) →
    s.slot = some attempt → attempt = id ∨ s.exited attempt = true
  holding : ∀ {id g stream attempt}, s.attempts id = some (.stored g stream (.holding attempt)) →
    attempt = id ∨ s.exited attempt = true

theorem alone_start : Alone start where
  generation_le := by simp [start]
  unique := by simp [start]
  ended := by simp [start]
  current := by simp [start]
  passed := by simp [start]
  holding := by simp [start]

theorem withStage_cases {after : LoginStage}
    (h : (s.withStage id after).attempts other = some stage) :
    (other = id ∧ stage = after) ∨ (other ≠ id ∧ s.attempts other = some stage) := by
  change Function.update s.attempts id (some after) other = some stage at h
  by_cases heq : other = id
  · left
    rw [heq, Function.update_self] at h
    exact ⟨heq, (Option.some.inj h).symm⟩
  · right
    rw [Function.update_of_ne heq] at h
    exact ⟨heq, h⟩

theorem Alone.fades {s' : DevinLogin} (h : Alone s) (hfades : Fades s s') : Alone s' where
  generation_le hstage hg := by
    rw [hfades.report]
    exact h.generation_le (hfades.attempts ▸ hstage) hg
  unique hstage hother hg hg' :=
    h.unique (hfades.attempts ▸ hstage) (hfades.attempts ▸ hother) hg hg'
  ended hstage hg hlt :=
    h.ended (hfades.attempts ▸ hstage) hg (hfades.report ▸ hlt)
  current hstage hslot := by
    rw [hfades.report, hfades.attempts] at hstage
    exact h.current hstage (hfades.slot _ hslot)
  passed hstage hslot :=
    (h.passed (hfades.attempts ▸ hstage) (hfades.slot _ hslot)).imp_right (hfades.exited _)
  holding hstage := (h.holding (hfades.attempts ▸ hstage)).imp_right (hfades.exited _)

theorem Alone.request (h : Alone s) (id : Nat) : Alone (s.withStage id .spawned) where
  generation_le hstage hg := by
    rcases withStage_cases hstage with ⟨-, rfl⟩ | ⟨-, hold⟩
    · cases hg
    · exact h.generation_le hold hg
  unique hstage hother hg hg' := by
    rcases withStage_cases hstage with ⟨-, rfl⟩ | ⟨-, hold⟩
    · cases hg
    · rcases withStage_cases hother with ⟨-, rfl⟩ | ⟨-, hold'⟩
      · cases hg'
      · exact h.unique hold hold' hg hg'
  ended hstage hg hlt := by
    rcases withStage_cases hstage with ⟨-, rfl⟩ | ⟨-, hold⟩
    · cases hg
    · exact h.ended hold hg hlt
  current hstage hslot := by
    rcases withStage_cases hstage with ⟨-, hnew⟩ | ⟨-, hold⟩
    · cases hnew
    · exact h.current hold hslot
  passed hstage hslot := by
    rcases withStage_cases hstage with ⟨-, hnew⟩ | ⟨-, hold⟩
    · cases hnew
    · exact h.passed hold hslot
  holding hstage := by
    rcases withStage_cases hstage with ⟨-, hnew⟩ | ⟨-, hold⟩
    · cases hnew
    · exact h.holding hold

/-- The report of the next generation has no attempt yet, and no output to come. -/
theorem Alone.replace (h : Alone s)
    (hclosed : ∀ other stage, s.attempts other = some stage → ¬ stage.OutputOpen) :
    Alone (s.replace id) where
  generation_le hstage hg := by
    rcases withStage_cases hstage with ⟨-, rfl⟩ | ⟨-, hold⟩
    · exact (Option.some.inj hg).ge
    · exact (h.generation_le hold hg).trans (Nat.le_succ _)
  unique hstage hother hg hg' := by
    rcases withStage_cases hstage with ⟨rfl, rfl⟩ | ⟨-, hold⟩ <;>
      rcases withStage_cases hother with ⟨rfl, rfl⟩ | ⟨-, hold'⟩
    · rfl
    · have hle := h.generation_le hold' hg'
      rw [← Option.some.inj hg] at hle
      exact absurd hle (Nat.not_succ_le_self _)
    · have hle := h.generation_le hold hg
      rw [← Option.some.inj hg'] at hle
      exact absurd hle (Nat.not_succ_le_self _)
    · exact h.unique hold hold' hg hg'
  ended hstage hg hlt := by
    rcases withStage_cases hstage with ⟨-, rfl⟩ | ⟨-, hold⟩
    · exact absurd (Option.some.inj hg) (Nat.ne_of_gt hlt)
    · exact hclosed _ _ hold
  current hstage hslot := by
    rcases withStage_cases hstage with ⟨-, hnew⟩ | ⟨-, hold⟩
    · cases hnew
    · have hle := h.generation_le hold rfl
      exact absurd hle (Nat.not_succ_le_self _)
  passed hstage hslot := by
    rcases withStage_cases hstage with ⟨-, hnew⟩ | ⟨-, hold⟩
    · cases hnew
    · exact h.passed hold hslot
  holding hstage := by
    rcases withStage_cases hstage with ⟨-, hnew⟩ | ⟨-, hold⟩
    · cases hnew
    · exact h.holding hold

/-- An attempt stores its process while it is the last one. -/
theorem Alone.store (h : Alone s) {g : Nat} (hreplaced : s.attempts id = some (.replaced g))
    (hpassed : s.exited id = false →
      ∀ other stage, s.attempts other = some stage → ¬ stage.Passed) :
    Alone ({ s with slot := some id }.withStage id (.stored g .reading .sleeping)) := by
  have hlast : g = s.report.generation := by
    have hle := h.generation_le hreplaced rfl
    by_contra hne
    exact h.ended hreplaced rfl (by omega) trivial
  have hstored : ∀ {other stage g'},
      ({ s with slot := some id }.withStage id (.stored g .reading .sleeping)).attempts other =
        some stage → stage.generation? = some g' →
      ∃ old, s.attempts other = some old ∧ old.generation? = some g' := by
    intro other stage g' hstage hg
    rcases withStage_cases hstage with ⟨rfl, rfl⟩ | ⟨-, hold⟩
    · exact ⟨_, hreplaced, hg⟩
    · exact ⟨stage, hold, hg⟩
  exact {
    generation_le hstage hg := by
      obtain ⟨old, hold, hg⟩ := hstored hstage hg
      exact h.generation_le hold hg
    unique hstage hother hg hg' := by
      obtain ⟨old, hold, hg⟩ := hstored hstage hg
      obtain ⟨old', hold', hg'⟩ := hstored hother hg'
      exact h.unique hold hold' hg hg'
    ended hstage hg hlt := by
      rcases withStage_cases hstage with ⟨-, rfl⟩ | ⟨-, hold⟩
      · cases hg
        exact absurd hlast (Nat.ne_of_lt hlt)
      · exact h.ended hold hg hlt
    current hstage hslot := by
      obtain ⟨old, hold, hg⟩ := hstored hstage rfl
      cases hslot
      exact h.unique hreplaced hold rfl (hlast ▸ hg)
    passed hstage hslot := by
      cases hslot
      rcases withStage_cases hstage with ⟨-, hnew⟩ | ⟨-, hold⟩
      · cases hnew
      · right
        by_contra hrunning
        exact hpassed (eq_false_of_ne_true hrunning) _ _ hold rfl
    holding hstage := by
      rcases withStage_cases hstage with ⟨-, hnew⟩ | ⟨-, hold⟩
      · cases hnew
      · exact h.holding hold }

/-- What a task that goes on leaves as it was. -/
structure Moves.Frame (s : DevinLogin) (g : Nat) (stage : LoginStage) (moved : DevinLogin)
    (after : LoginStage) : Prop where
  before : stage.generation? = some g
  generation : after.generation? = some g
  stored : ∀ {g' stream watchdog}, after = .stored g' stream watchdog →
    ∃ stream' watchdog', stage = .stored g' stream' watchdog'
  outputOpen : after.OutputOpen → stage.OutputOpen
  report : moved.report.generation = s.report.generation
  attempts : moved.attempts = s.attempts
  slot : ∀ attempt, moved.slot = some attempt → s.slot = some attempt
  exited : ∀ attempt, s.exited attempt = true → moved.exited attempt = true

theorem Moves.frame {g : Nat} {after : LoginStage} {action : LoginAction} {reply : LoginReply}
    {moved : DevinLogin} (h : Moves s id g stage action reply moved after) :
    Frame s g stage moved after := by
  cases h with
  | stream haction stream after watchdog report hreading hreport =>
    exact ⟨rfl, rfl, fun h => ⟨stream, watchdog, by cases h; rfl⟩, fun _ => hreading, hreport, rfl,
      fun _ h => h, fun _ h => h⟩
  | pass stream hcheck =>
    exact ⟨rfl, rfl, fun h => ⟨stream, _, by cases h; rfl⟩, fun h => h, rfl, rfl, fun _ h => h,
      fun _ h => h⟩
  | giveUp stream =>
    exact ⟨rfl, rfl, fun h => ⟨stream, _, by cases h; rfl⟩, fun h => h, rfl, rfl, fun _ h => h,
      fun _ h => h⟩
  | take stream attempt hslot =>
    exact ⟨rfl, rfl, fun h => ⟨stream, _, by cases h; rfl⟩, fun h => h, rfl, rfl,
      fun _ h => (nomatch h), fun _ h => h⟩
  | takeNothing stream =>
    exact ⟨rfl, rfl, fun h => ⟨stream, _, by cases h; rfl⟩, fun h => h, rfl, rfl,
      fun _ h => (nomatch h), fun _ h => h⟩
  | kill stream attempt reply hreply =>
    exact ⟨rfl, rfl, fun h => ⟨stream, _, by cases h; rfl⟩, fun h => h, rfl, rfl, fun _ h => h,
      fun _ => exited_ends⟩
  | finish stream report hreport =>
    exact ⟨rfl, rfl, fun h => ⟨stream, _, by cases h; rfl⟩, fun h => h, hreport, rfl, fun _ h => h,
      fun _ h => h⟩

theorem Alone.moves (h : Alone s) {g : Nat} {after : LoginStage} {action : LoginAction}
    {reply : LoginReply} {moved : DevinLogin} (hstage : s.attempts id = some stage)
    (hmoves : Moves s id g stage action reply moved after) : Alone (moved.withStage id after) := by
  have hframe := hmoves.frame
  have hold : ∀ {other stage'}, (moved.withStage id after).attempts other = some stage' →
      (other = id ∧ stage' = after) ∨ s.attempts other = some stage' := by
    intro other stage' hother
    rcases withStage_cases hother with hnew | ⟨-, hold⟩
    · exact .inl hnew
    · exact .inr (hframe.attempts ▸ hold)
  have hgeneration : ∀ {other stage' g'}, (moved.withStage id after).attempts other = some stage' →
      stage'.generation? = some g' → ∃ old, s.attempts other = some old ∧
        old.generation? = some g' ∧ (stage'.OutputOpen → old.OutputOpen) := by
    intro other stage' g' hother hg
    rcases hold hother with ⟨rfl, rfl⟩ | hold
    · exact ⟨stage, hstage, by rw [hframe.before, ← hframe.generation, hg], hframe.outputOpen⟩
    · exact ⟨stage', hold, hg, fun h => h⟩
  exact {
    generation_le hother hg := by
      obtain ⟨old, hold, hg, -⟩ := hgeneration hother hg
      exact (h.generation_le hold hg).trans_eq hframe.report.symm
    unique hother hother' hg hg' := by
      obtain ⟨old, hold, hg, -⟩ := hgeneration hother hg
      obtain ⟨old', hold', hg', -⟩ := hgeneration hother' hg'
      exact h.unique hold hold' hg hg'
    ended hother hg hlt hopen := by
      obtain ⟨old, hold, hg, hopens⟩ := hgeneration hother hg
      exact h.ended hold hg (hlt.trans_eq hframe.report) (hopens hopen)
    current hother hslot := by
      have hbefore := hframe.slot _ hslot
      rcases hold hother with ⟨rfl, hafter⟩ | hold
      · obtain ⟨stream', watchdog', hstored⟩ := hframe.stored hafter.symm
        rw [hstored] at hstage
        exact h.current (hframe.report ▸ hstage) hbefore
      · exact h.current (hframe.report ▸ hold) hbefore
    passed hother hslot := by
      have hslot := hframe.slot _ hslot
      rcases hold hother with ⟨rfl, hafter⟩ | hold
      · refine Or.imp_right (hframe.exited _) ?_
        cases hmoves with
        | stream haction stream after watchdog report hreading hreport =>
          cases hafter
          exact h.passed hstage hslot
        | pass stream hcheck =>
          subst hcheck
          exact .inl (h.current hstage hslot)
        | _ => cases hafter
      · exact (h.passed hold hslot).imp_right (hframe.exited _)
    holding hother := by
      rcases hold hother with ⟨rfl, hafter⟩ | hold
      · refine Or.imp_right (hframe.exited _) ?_
        cases hmoves with
        | stream haction stream after watchdog report hreading hreport =>
          cases hafter
          exact h.holding hstage
        | take stream attempt hslot =>
          cases hafter
          exact h.passed hstage hslot
        | _ => cases hafter
      · exact (h.holding hold).imp_right (hframe.exited _) }

theorem alone_step (h : Alone s) (action : LoginAction)
    (hadmitted : Admitted (machine.fire s action)) : Alone (machine.step s action).2 := by
  have hdoes := step_does s action
  have hreplace := hadmitted.replace
  have hstore := hadmitted.store
  change ∀ id, action = .replace id → _ at hreplace
  change ∀ id g, action = .store id → _ at hstore
  show Alone (s.step action).2
  generalize (s.step action).1 = reply at hdoes
  generalize (s.step action).2 = s' at hdoes
  cases hdoes with
  | fades hfades hreply => exact h.fades hfades
  | request id fails hfades hnew => exact (h.fades hfades).request id
  | replace id hstage => exact h.replace (hreplace id rfl hstage)
  | @store id g faded hfades hstage =>
    have hpassed : faded.exited id = false →
        ∀ other stage, faded.attempts other = some stage → ¬ stage.Passed := by
      intro hrunning other stage hother
      have hbefore : s.exited id = false := by
        by_contra hexited
        rw [hfades.exited id (by simpa using hexited)] at hrunning
        cases hrunning
      exact hstore id g rfl hstage hbefore other stage (hfades.attempts ▸ hother)
    exact (h.fades hfades).store (hfades.attempts.symm ▸ hstage) hpassed
  | moves id g stage after hstage hmoves => exact h.moves hstage hmoves

/-- A watchdog kills its own attempt's process. -/
theorem Alone.killed (h : Alone s) {attempt : Nat} {s' : DevinLogin}
    (hdoes : Does s (.kill id) (.killed attempt) s') : attempt = id := by
  cases hdoes with
  | fades hfades hreply => exact absurd rfl (hreply attempt)
  | moves id' g stage after hstage hmoves =>
    cases hmoves with
    | kill stream attempt reply hreply =>
      rcases hreply with hsilent | ⟨hkilled, hrunning⟩
      · cases hsilent
      · cases hkilled
        rcases h.holding hstage with hown | hexited
        · exact hown
        · exact absurd (hrunning.symm.trans hexited) Bool.false_ne_true

/-- The output of an attempt that lost the report has ended. -/
theorem Alone.report_of_stream (h : Alone s) {action : LoginAction} {reply : LoginReply}
    {s' : DevinLogin} (hdoes : Does s action reply s') (hstream : action.stream? = some id)
    (hsuperseded : Superseded s id) : s'.report = s.report := by
  obtain ⟨stage, g, other, stage', g', hstage, hg, hother, hg', hlt⟩ := hsuperseded
  have hended := h.ended hstage hg (hlt.trans_le (h.generation_le hother hg'))
  cases hdoes with
  | fades hfades hreply => exact hfades.report
  | request => cases hstream
  | replace => cases hstream
  | store => cases hstream
  | moves id' g stage' after hstage' hmoves =>
    cases hmoves with
    | stream haction stream after watchdog report hreading hreport =>
      have hid : id = id' := Option.some.inj (hstream.symm.trans haction)
      subst hid
      rw [Option.some.inj (hstage.symm.trans hstage')] at hended
      exact absurd hreading hended
    | _ => cases hstream

/-- In a run whose steps are admitted, a watchdog kills no process but its own attempt's, and the
stream of an attempt leaves the report alone once a later attempt has replaced it. -/
theorem attempts_alone {actions : List LoginAction}
    (hadmitted : ∀ t ∈ machine.run start actions, Admitted t) :
    ∀ t ∈ machine.run start actions,
      (∀ id attempt, t.input = .kill id → t.output = .killed attempt → attempt = id) ∧
      (∀ id, t.input.stream? = some id → Superseded t.before id →
        t.after.report = t.before.report) := by
  intro t ht
  obtain ⟨h, -⟩ := Machine.run_invariant_of (P := Alone) (fun s action h => alone_step h action)
    alone_start hadmitted ht
  have hdoes : Does t.before t.input t.output t.after := by
    rw [Machine.eq_fire_of_mem_run ht]
    exact step_does t.before t.input
  refine ⟨fun id attempt hinput hkilled => ?_, fun id hstream hsuperseded => ?_⟩
  · rw [hinput, hkilled] at hdoes
    exact h.killed hdoes
  · exact h.report_of_stream hdoes hstream hsuperseded

/-- Two attempts, one after the other; the watchdog of the second stops it. -/
def twoAttempts : List LoginAction := [.request 0 false, .replace 0, .store 0, .exit 0,
  .endOfOutput 0, .look false, .request 1 false, .replace 1, .store 1, .timer 1, .take 1, .kill 1,
  .finish 1]

theorem attempts_alone_two :
    (∃ t ∈ machine.run start twoAttempts, t.output = .killed 1) ∧
    ∀ t ∈ machine.run start twoAttempts,
      (∀ id attempt, t.input = .kill id → t.output = .killed attempt → attempt = id) ∧
      (∀ id, t.input.stream? = some id → Superseded t.before id →
        t.after.report = t.before.report) := by
  have hkill : (machine.run start twoAttempts)[11]?.map (·.output) = some (.killed 1) := rfl
  obtain ⟨t, ht, houtput⟩ := Option.map_eq_some_iff.1 hkill
  refine ⟨⟨t, List.mem_of_getElem? ht, houtput⟩, attempts_alone ?_⟩
  simp only [twoAttempts, Machine.run, machine, Bool.false_eq_true, if_false, List.forall_mem_cons]
  refine ⟨?_, ?_, ?_, ?_, ?_, ?_, ?_, ?_, ?_, ?_, ?_, ?_, ?_, by simp⟩
  all_goals
    constructor
    all_goals simp [Machine.fire, step, start, request, replace, store, ends, endOfOutput, busy,
      dropSlot, withStage, Function.update_apply, LoginStage.OutputOpen, LoginStage.Passed]
  -- only the second attempt meets another one
  case refine_8.replace =>
    intro other stage hother
    split_ifs at hother <;> cases hother <;> simp
  case refine_9.store =>
    intro _ _ _ _ _ other stage hother
    split_ifs at hother <;> cases hother <;> simp

/-- The first attempt exits while its watchdog stands between its check and the slot; the second
replaces the report before the output of the first has ended. -/
def overlapping : List LoginAction := [.request 0 false, .replace 0, .store 0, .timer 0, .exit 0,
  .look false, .request 1 false, .replace 1, .store 1, .endOfOutput 0, .take 0, .kill 0]

/-- The first attempt finishes the report of the second and kills its process. -/
theorem overlapping_touches :
    (¬ ∀ actions, ∀ t ∈ machine.run start actions, ∀ id attempt, t.input = .kill id →
      t.output = .killed attempt → attempt = id) ∧
    ¬ ∀ actions, ∀ t ∈ machine.run start actions, ∀ id, t.input.stream? = some id →
      Superseded t.before id → t.after.report = t.before.report := by
  refine ⟨fun h => ?_, fun h => ?_⟩
  · have hrun := h overlapping
    simp only [overlapping, Machine.run, machine, Bool.false_eq_true, if_false,
      List.forall_mem_cons] at hrun
    obtain ⟨-, -, -, -, -, -, -, -, -, -, -, hkill, -⟩ := hrun
    exact absurd (hkill 0 1 rfl rfl) (by decide)
  · have hrun := h overlapping
    simp only [overlapping, Machine.run, machine, Bool.false_eq_true, if_false,
      List.forall_mem_cons] at hrun
    obtain ⟨-, -, -, -, -, -, -, -, -, hend, -⟩ := hrun
    have hreport := hend 0 rfl ⟨.stored 1 .reading .passed, 1, 1, .stored 2 .reading .sleeping, 2,
      rfl, rfl, rfl, rfl, by decide⟩
    exact absurd (congrArg DevinLoginReport.finished hreport) (by decide)

end LeaveCli.Host.DevinLogin
