import LeaveCli.Acp.Proof.Cancelling

/-!
# A visible permission request can be acted on

The event of a request is broadcast before its entry is in the map. A call that looks an open
request up finds it, and is obeyed, if and only if the entry is there, and a `cancel_session` gets
as far as its look-up if and only if its notification is sent: `actionable_iff`.
-/

namespace LeaveCli.Acp.Permissions

open Lib LeaveCli.Core

/-- What a step owes the open requests. -/
structure Actionable (t : Transition Permissions Action Output) : Prop where
  /-- A decision for an offered option is not refused. -/
  decide : ∀ r a optionId, Open t.before r a → optionId ∈ a.request.optionIds →
    t.input = .decide r (some optionId) →
    t.output = .none ∧ (r, some optionId) ∈ t.after.deciding
  /-- A decision that was not refused is in time until the timer runs out. -/
  send : ∀ r a optionId, t.before.requests.lookup r = some a → a.phase.visible →
    (r, optionId) ∈ t.before.deciding → t.input = .send r optionId →
    t.output = .decided r optionId (.ok ())
  /-- The command loop starts a cancel when it has none under way. -/
  start : ∀ sessionId, t.input = .cancel sessionId → t.before.cancelling = none →
    t.after.cancelling = some ⟨sessionId, .notifying⟩
  /-- A cancel of the session of an open request goes on to its look-up. -/
  notify : ∀ r a requestIds fault, Open t.before r a →
    t.before.cancelling = some ⟨a.request.sessionId, .notifying⟩ →
    t.input = .pursue requestIds fault →
    t.after.cancelling = some ⟨a.request.sessionId, .collecting⟩
  /-- A cancel finds the request, and when it is through its list the request is closed; the answer
  is `Cancelled` unless a client has decided meanwhile. -/
  cancel : ∀ r a requestIds, Open t.before r a → Collects t a.request.sessionId requestIds →
    r ∈ requestIds ∧ ∀ more,
      ((permissions.final t.after more).looping = none →
        ∀ a', ¬ Open (permissions.final t.after more) r a') ∧
      ((∀ optionId, Action.decide r (some optionId) ∉ more) →
        ∀ outcome ∈ responses r (permissions.outputs t.after more), outcome = .cancelled)
  /-- A cancel that is pursued without a fault returns `Ok`. -/
  finish : ∀ c, t.after.cancelling = some c → Pursuable c.sessionId t.after

/-- Whenever `cancel_session` returns, it has closed every request of its session that was open when
it was called. -/
def CancelsClose (run : List (Transition Permissions Action Output)) : Prop :=
  ∀ pre call mid ret post, run = pre ++ call :: (mid ++ ret :: post) →
    ∀ sessionId, call.input = .cancel sessionId → call.before.cancelling = none →
      (∀ t ∈ mid, ¬ Returns t) → Returns ret →
      ∀ r a, Open call.before r a → a.request.sessionId = sessionId → ∀ a', ¬ Open ret.after r a'

/-- A call looks a request up after its event and before its entry. -/
def Premature (t : Transition Permissions Action Output) : Prop :=
  ∃ r a, t.before.requests.lookup r = some a ∧ a.phase = .registering ∧
    ((∃ optionId ∈ a.request.optionIds, t.input = .decide r (some optionId)) ∨
      ∃ requestIds, Collects t a.request.sessionId requestIds)

theorem Premature.of_misses {t : Transition Permissions Action Output} (h : Misses t) :
    Premature t := by
  obtain ⟨r, a, requestIds, ha, hphase, hcollects⟩ := h
  exact ⟨r, a, ha, hphase, .inr ⟨requestIds, hcollects⟩⟩

/-! ## No option without a decision -/

/-- No option is on its way to the agent. -/
def OptionFree (s : Standing) : Prop :=
  ∃ a, s.handling = some a ∧ ∀ optionId, a.channel ≠ .sent (some optionId) ∧
    a.phase ≠ .removing (some optionId) ∧ a.phase ≠ .responding (some optionId)

/-- A call of `decide_permission` comes from a client. -/
theorem deciding_step {h : Permissions} {x : Action} {call : Uuid × Option Str}
    (hcall : call ∈ (h.step x).2.deciding) : call ∈ h.deciding ∨ x = .decide call.1 call.2 := by
  cases x with
  | request r request fault =>
    simp only [step] at hcall
    rw [(ask_cancelling h r request fault).2] at hcall
    exact .inl hcall
  | proceed r elapsed fault =>
    simp only [step] at hcall
    split at hcall
    · rw [(advance_cancelling h r _ elapsed fault).2] at hcall
      exact .inl hcall
    · exact .inl hcall
  | decide r optionId =>
    simp only [step, Permissions.decide] at hcall
    split at hcall
    · exact .inl hcall
    split at hcall
    · exact .inl hcall
    · rcases Multiset.mem_cons.1 hcall with rfl | hcall
      · exact .inr rfl
      · exact .inl hcall
  | send r optionId =>
    exact .inl (Multiset.mem_of_le (send_cancelling h r optionId).2 hcall)
  | cancel sessionId =>
    simp only [step] at hcall
    split at hcall <;> exact .inl hcall
  | pursue requestIds fault =>
    simp only [step] at hcall
    split at hcall
    · rename_i c hc
      refine .inl ?_
      unfold cancelSession at hcall
      repeat' split at hcall
      all_goals first
        | exact hcall
        | rwa [(deliver_cancelling _ _ _).2.2] at hcall
    · exact .inl hcall

theorem optionFree_ended (a : Handling) (entry : Option PendingPermission)
    (held : Multiset (Option Str)) : OptionFree ⟨some a.ended, entry, held⟩ :=
  ⟨a.ended, rfl, fun _ => by simp [Handling.ended]⟩

theorem OptionFree.step {r : Uuid} {s s' : Standing} {o : Output} (h : OptionFree s)
    (hstep : Change r s o s' ∨ Mishap r s o s') (hheld : ∀ optionId, some optionId ∉ s.held) :
    OptionFree s' ∧ ∀ outcome ∈ o.response r, outcome = .cancelled := by
  obtain ⟨a, ha, hfree⟩ := h
  rcases hstep with hchange | hmishap
  · cases hchange with
    | stay hquiet => exact ⟨⟨a, ha, hfree⟩, by simp [hquiet.1]⟩
    | take => exact ⟨⟨a, ha, hfree⟩, by simp [Output.response]⟩
    | fail _ _ hquiet => exact ⟨⟨a, ha, hfree⟩, by simp [hquiet.1]⟩
    | ask => cases ha
    | refuse => cases ha
    | send decision =>
      cases ha
      obtain rfl : decision = none := by
        by_contra hsome
        obtain ⟨optionId, rfl⟩ := Option.ne_none_iff_exists'.1 hsome
        exact hheld optionId (Multiset.mem_cons_self _ _)
      exact ⟨⟨_, rfl, fun optionId => ⟨by simp, (hfree optionId).2⟩⟩, by simp [Output.response]⟩
    | receive decision _ hchannel =>
      cases ha
      refine ⟨⟨_, rfl, fun optionId => ⟨by simp, ?_, by simp⟩⟩, by simp [Output.response]⟩
      intro hphase
      obtain rfl : decision = some optionId := by simpa using hphase
      exact (hfree optionId).1 hchannel
    | remove selected hphase =>
      cases ha
      refine ⟨⟨_, rfl, fun optionId => ⟨(hfree optionId).1, by simp, ?_⟩⟩,
        by simp [Output.response]⟩
      intro hresponding
      obtain rfl : selected = some optionId := by simpa using hresponding
      exact (hfree optionId).2.1 hphase
    | respond selected hphase =>
      cases ha
      have hnone : selected = none := by
        by_contra hsome
        obtain ⟨optionId, rfl⟩ := Option.ne_none_iff_exists'.1 hsome
        exact (hfree optionId).2.2 hphase
      subst hnone
      exact ⟨⟨_, rfl, fun optionId => ⟨(hfree optionId).1, by simp, by simp⟩⟩,
        by simp [Output.response, outcome]⟩
    | record _ _ hquiet =>
      cases ha
      exact ⟨optionFree_ended _ _ _, by simp [hquiet.1]⟩
    | reject =>
      cases ha
      exact ⟨optionFree_ended _ _ _, by simp [Output.response]⟩
    | cancel =>
      cases ha
      exact ⟨⟨_, rfl, fun optionId => ⟨by simp, (hfree optionId).2⟩⟩, by simp [Output.response]⟩
    | drop =>
      cases ha
      exact ⟨⟨_, rfl, fun _ => ⟨by simp, by simp, by simp⟩⟩, by simp [Output.response]⟩
    | _ =>
      cases ha
      exact ⟨⟨_, rfl, fun optionId => ⟨(hfree optionId).1, by simp, by simp⟩⟩,
        by simp [Output.response]⟩
  · cases hmishap with
    | late optionId => exact absurd (Multiset.mem_cons_self _ _) (hheld optionId)
    | cut =>
      cases ha
      exact ⟨optionFree_ended _ _ _, by simp [Output.response]⟩

theorem some_mem_held {h : Permissions} {r : Uuid} {optionId : Str}
    (hmem : some optionId ∈ h.held r) : (r, some optionId) ∈ h.deciding := by
  simp only [held, Multiset.mem_add] at hmem
  rcases hmem with hmem | hmem
  · simp only [callsOf, Multiset.mem_map, Multiset.mem_filter] at hmem
    obtain ⟨⟨r', o⟩, ⟨hcall, rfl⟩, rfl⟩ := hmem
    exact hcall
  · exfalso
    cases hc : h.cancelling with
    | none => simp [hc] at hmem
    | some c =>
      obtain ⟨sessionId, stage⟩ := c
      cases stage <;> simp only [hc, Option.elim_some, Cancel.held, Multiset.notMem_zero] at hmem
      split at hmem <;> simp at hmem

/-- Unless a client decides, the answer is `Cancelled`. -/
theorem cancelled_of_undecided {h : Permissions} {r : Uuid} (hfree : OptionFree (h.standing r))
    (hheld : ∀ optionId, (r, some optionId) ∉ h.deciding) {actions : List Action}
    (hundecided : ∀ optionId, Action.decide r (some optionId) ∉ actions) :
    ∀ outcome ∈ responses r (permissions.outputs h actions), outcome = .cancelled := by
  induction actions generalizing h with
  | nil => simp [responses, Machine.outputs, Machine.run]
  | cons x actions ih =>
    obtain ⟨hnext, hcancelled⟩ := hfree.step ((step_standing h x r).imp_right And.left)
      fun optionId hmem => hheld optionId (some_mem_held hmem)
    have hdeciding : ∀ optionId, (r, some optionId) ∉ (h.step x).2.deciding := by
      intro optionId hcall
      rcases deciding_step hcall with hcall | rfl
      · exact hheld optionId hcall
      · exact hundecided optionId List.mem_cons_self
    have hrest := ih hnext hdeciding fun optionId hmem =>
      hundecided optionId (List.mem_cons_of_mem _ hmem)
    have houtputs : permissions.outputs h (x :: actions) =
        (h.step x).1 :: permissions.outputs (h.step x).2 actions := rfl
    intro outcome houtcome
    rw [houtputs, responses, List.flatMap_cons] at houtcome
    rcases List.mem_append.1 houtcome with houtcome | houtcome
    · exact hcancelled outcome houtcome
    · exact hrest outcome houtcome

section
variable {h : Permissions} {x : Action}

/-- A call that comes after the entry, or before the event, is obeyed. -/
theorem actionable_of_punctual (hI : ∀ r, Sound (h.standing r))
    (hpunctual : ¬ Premature (permissions.fire h x)) (hsent : ¬ Unsent (permissions.fire h x)) :
    Actionable (permissions.fire h x) := by
  constructor
  · intro r a optionId hopen hoffered heq
    subst heq
    have hphase : a.phase ≠ .registering := fun hphase =>
      hpunctual ⟨r, a, hopen.handling, hphase, .inl ⟨optionId, hoffered, rfl⟩⟩
    have hentry : h.pending.lookup r = some a.entry := hopen.entry hI hphase
    have hvalid : (some optionId).any (fun o => o ∉ a.entry.optionIds) = false := by
      rw [Option.any_some]
      exact decide_eq_false (not_not.2 hoffered)
    show (h.decide r (some optionId)).1 = _ ∧ _ ∈ (h.decide r (some optionId)).2.deciding
    simp only [Permissions.decide, hentry, hvalid]
    exact ⟨rfl, Multiset.mem_cons_self _ _⟩
  · intro r a optionId ha hvisible hcall heq
    subst heq
    change h.requests.lookup r = some a at ha
    change (r, optionId) ∈ h.deciding at hcall
    have hempty : a.channel = .empty := by
      have hrank : 4 < a.phase.rank := by
        rcases hvisible with h | h | h <;> simp [h, Phase.rank]
      obtain ⟨given, told, hkept⟩ := (hI r).kept ha hrank
      rw [standing_of_lookup ha] at hkept
      rcases hvisible with hphase | hlistens
      · exact (hkept.of_unregistered (.inr (.inl hphase))).2.2.2.2
      · exact (hkept.of_listening (hlistens.elim .inl fun h => .inr (.inl h))).2.empty_of_mem
          (mem_held hcall)
    obtain ⟨_, -, hok, -⟩ := send_empty hcall ha hempty
    exact hok
  · intro sessionId heq hc
    subst heq
    change h.cancelling = none at hc
    show (h.step (.cancel sessionId)).2.cancelling = _
    simp only [step, hc]
  · intro r a requestIds fault hopen hc heq
    subst heq
    change h.cancelling = _ at hc
    cases fault with
    | some error => exact absurd ⟨r, a, hopen, hc, requestIds, error, rfl⟩ hsent
    | none =>
      show (h.step (.pursue requestIds none)).2.cancelling = _
      simp only [step, hc, cancelSession]
      rfl
  · intro r a requestIds hopen hcollects
    have hphase : a.phase ≠ .registering := fun hphase =>
      hpunctual ⟨r, a, hopen.handling, hphase, .inr ⟨requestIds, hcollects⟩⟩
    have hentry : h.pending.lookup r = some a.entry := hopen.entry hI hphase
    obtain ⟨hc, hids, fault, rfl⟩ := hcollects
    change h.cancelling = _ at hc
    change _ = (h.pendingOf a.request.sessionId).val at hids
    have hmem : r ∈ requestIds := by
      rw [← Multiset.mem_coe, hids, Finset.mem_val, pendingOf, Finset.mem_filter]
      refine ⟨Finmap.mem_keys.2 (Finmap.mem_of_lookup_eq_some hentry), ?_⟩
      simp [hentry, Handling.entry]
    have hafter : (h.step (.pursue requestIds fault)).2 =
        h.toStage ⟨a.request.sessionId, .collecting⟩ (.removing requestIds) := by
      simp only [step, hc, cancelSession, if_pos hids]
    have hstanding : (h.step (.pursue requestIds fault)).2.standing r = h.standing r := by
      rw [hafter]
      exact standing_cancelling hc rfl rfl
    have hstill : (h.step (.pursue requestIds fault)).2.requests.lookup r = some a :=
      (congrArg Standing.handling hstanding).trans hopen.handling
    refine ⟨hmem, fun more => ⟨?_, ?_⟩⟩
    · have hpursued : Pursued r (h.step (.pursue requestIds fault)).2 := by
        refine .inr ⟨a, requestIds, hstill, ?_, ?_, hmem⟩
        · rcases hopen.visible.resolve_left hphase with h | h <;> simp [h, Phase.rank]
        · rw [hafter]
          rfl
      exact closed_of_pursued (sound_step h _ hI) hpursued more
    · refine cancelled_of_undecided ?_ ?_
      · refine ⟨a, hstill, fun optionId => ⟨by simp [hopen.channel], ?_⟩⟩
        rcases hopen.visible with h | h | h <;> simp [h]
      · intro optionId hcall
        change (r, some optionId) ∈ (h.step (.pursue requestIds fault)).2.deciding at hcall
        have hheld := mem_held hcall
        rw [show held _ r = 0 from (congrArg Standing.held hstanding).trans hopen.held] at hheld
        simp at hheld
  · exact fun c hc => exists_pursuing hc

/-- A call between the event and the entry is refused, or misses the request. -/
theorem not_actionable_of_premature (hI : ∀ r, Sound (h.standing r))
    (hpremature : Premature (permissions.fire h x)) : ¬ Actionable (permissions.fire h x) := by
  intro hactionable
  obtain ⟨r, a, ha, hphase, hcall⟩ := hpremature
  obtain ⟨hopen, hnone⟩ := open_of_registering hI ha hphase
  rcases hcall with ⟨optionId, hoffered, rfl⟩ | ⟨requestIds, hcollects⟩
  · have hquiet := (hactionable.decide r a optionId hopen hoffered rfl).1
    have hrefused : (h.decide r (some optionId)).1 = .decided r (some optionId)
        (.error "permission request is no longer pending") := by
      simp only [Permissions.decide, hnone]
    rw [show (permissions.fire h (.decide r (some optionId))).output = _ from hrefused] at hquiet
    cases hquiet
  · have hmem := (hactionable.cancel r a requestIds hopen hcollects).1
    rw [← Multiset.mem_coe, hcollects.2.1, Finset.mem_val, pendingOf, Finset.mem_filter] at hmem
    obtain ⟨pending, hsome⟩ := Finmap.mem_iff.1 (Finmap.mem_keys.1 hmem.1)
    rw [show (permissions.fire h x).before.pending.lookup r = _ from hnone] at hsome
    cases hsome

/-- A cancel whose notification fails does not get to its look-up. -/
theorem not_actionable_of_unsent (hunsent : Unsent (permissions.fire h x)) :
    ¬ Actionable (permissions.fire h x) := by
  intro hactionable
  obtain ⟨r, a, hopen, hc, requestIds, error, rfl⟩ := hunsent
  have hnext := hactionable.notify r a requestIds (some error) hopen hc rfl
  change h.cancelling = _ at hc
  change (h.step (.pursue requestIds (some error))).2.cancelling = _ at hnext
  simp only [step, hc, cancelSession] at hnext
  cases hnext

end

/-- A run without early look-ups and failed notifications follows every cancel to its return. -/
theorem cancelsClose_of_punctual {actions : List Action}
    (hpunctual : ∀ t ∈ permissions.run fresh actions, ¬ Premature t ∧ ¬ Unsent t) :
    CancelsClose (permissions.run fresh actions) := by
  intro pre call mid ret post hrun sessionId hcall hfree hmid hret r a hopen hsession a'
  have hmem : ∀ t ∈ call :: (mid ++ ret :: post), ¬ Premature t ∧ ¬ Unsent t := by
    intro t ht
    exact hpunctual t (hrun ▸ List.mem_append_right pre ht)
  have hsound : ∀ r, Sound (call.before.standing r) := by
    have hfresh : ∀ r, Sound (fresh.standing r) := fun r => .inl ⟨[], [], .unasked⟩
    have hcalled : call ∈ permissions.run fresh actions :=
      hrun ▸ List.mem_append_right pre List.mem_cons_self
    exact (Machine.run_invariant (M := permissions)
      (P := fun h : Permissions => ∀ r, Sound (h.standing r)) sound_step hfresh hcalled).1
  obtain ⟨h, xs, hfrom⟩ := Machine.exists_run_of_append hrun
  cases xs with
  | nil => cases hfrom
  | cons x xs =>
    rw [Machine.run_cons, List.cons.injEq] at hfrom
    obtain ⟨rfl, hrest⟩ := hfrom
    have hrest : permissions.run (h.step x).2 xs = mid ++ ret :: post := hrest.symm
    obtain rfl : x = .cancel sessionId := hcall
    change h.cancelling = none at hfree
    -- From the call on the request is followed, and nothing returns before `ret`.
    have hstart : (∀ r, Sound ((h.step (.cancel sessionId)).2.standing r)) ∧
        Tracked r sessionId (h.step (.cancel sessionId)).2 := by
      have hstage : CancelStage.notifying = .notifying ∨ CancelStage.notifying = .collecting :=
        .inl rfl
      refine ⟨sound_step h _ hsound, .inr (.of_same hopen.handling hsession ?_ ?_ hstage)⟩
      · rcases hopen.visible with h | h | h <;> simp [h, Phase.rank]
      · simp only [step, hfree]
    obtain ⟨⟨hsound', htracked⟩, hfire⟩ := Machine.segment_invariant (M := permissions)
      (P := fun h : Permissions => (∀ r, Sound (h.standing r)) ∧ Tracked r sessionId h)
      (C := fun t => (¬ Premature t ∧ ¬ Unsent t) ∧ ¬ Returns t)
      (fun h x hP hC => ⟨sound_step h x hP.1, (tracked_step hP.1 hP.2
        (fun hmisses => hC.1.1 (.of_misses hmisses)) hC.1.2).resolve_right fun hr => hC.2 hr.1⟩)
      hstart hrest fun t ht => ⟨hmem t (by simp [ht]), hmid t ht⟩
    obtain ⟨hearly, hsent⟩ := hmem ret (by simp)
    rw [hfire] at hearly hsent hret ⊢
    rcases tracked_step hsound' htracked (fun hmisses => hearly (.of_misses hmisses)) hsent with
      hstill | ⟨-, hclosed⟩
    · exact hstill.not_open (sound_step _ _ hsound') (cancelling_of_returns hret) a'
    · exact hclosed a'

theorem actionable_iff_punctual (actions : List Action) :
    (∀ t ∈ permissions.run fresh actions, Actionable t) ↔
      ∀ t ∈ permissions.run fresh actions, ¬ Premature t ∧ ¬ Unsent t := by
  have hfresh : ∀ r, Sound (fresh.standing r) := fun r => .inl ⟨[], [], .unasked⟩
  refine Machine.forall_run_iff (I := fun (h : Permissions) => ∀ r, Sound (h.standing r))
    (J := fun _ => True) ?_ ?_ hfresh (fun _ _ => trivial)
  · intro h x hI _
    refine ⟨fun hactionable => ⟨fun hpremature => ?_, fun hunsent => ?_⟩,
      fun hpunctual => actionable_of_punctual hI hpunctual.1 hpunctual.2⟩
    · exact not_actionable_of_premature hI hpremature hactionable
    · exact not_actionable_of_unsent hunsent hactionable
  · intro h x hI _ _ _
    exact sound_step h x hI

/-- The client answers as soon as it sees the event. -/
def promptDecision : List Action :=
  [.request 1 ⟨"session", [allow]⟩ none, .proceed 1 false none, .decide 1 (some allow)]

end LeaveCli.Acp.Permissions
