import LeaveCli.Acp.Proof.Resolution

/-!
# What a cancel comes to

`Open h r a`: the event of request `r` is out, and nobody has decided or cancelled the request and
its time has not run out. A `cancel_session` that is called while a request of its session is open
is followed up to its return: `Tracked` says that it is still to look the request up, or has it on
its list, or that the request is not open any more. `tracked_step` keeps that up unless the look-up
comes before the entry of the request or the notification fails, and `exists_pursuing` says that a
cancel that is left to itself returns.
-/

namespace LeaveCli.Acp.Permissions

open Lib LeaveCli.Core

/-- The event is out, the timer has not run out. -/
def Phase.visible (phase : Phase) : Prop :=
  phase = .registering ∨ phase = .spawning ∨ phase = .waiting

/-- The event of request `r` is out, and it is not decided, cancelled or timed out. -/
structure Open (h : Permissions) (r : Uuid) (a : Handling) : Prop where
  handling : h.requests.lookup r = some a
  visible : a.phase.visible
  held : h.held r = 0
  channel : a.channel = .empty

/-- A `cancel_session` is in its loop over the `request_ids`. -/
def CancelStage.looping : CancelStage → Option (List Uuid)
  | .removing requestIds => some requestIds
  | .sending _ requestIds => some requestIds
  | _ => none

def looping (h : Permissions) : Option (List Uuid) :=
  h.cancelling.bind fun c => c.stage.looping

/-- `cancel_session` looks the pending requests of its session up. -/
def Collects (t : Transition Permissions Action Output) (sessionId : Str)
    (requestIds : List Uuid) : Prop :=
  t.before.cancelling = some ⟨sessionId, .collecting⟩ ∧
    ↑requestIds = (t.before.pendingOf sessionId).val ∧ ∃ fault, t.input = .pursue requestIds fault

/-! ## The invariant -/

/-- A request whose time has not run out stands as `Kept` says. -/
def Sound (s : Standing) : Prop :=
  (∃ given told, Kept given told s) ∨ ∃ a, s.handling = some a ∧ a.phase.rank ≤ 4

theorem Sound.step {r : Uuid} {s s' : Standing} {o : Output} (h : Sound s)
    (hstep : Change r s o s' ∨ Mishap r s o s') : Sound s' := by
  rcases h with ⟨given, told, hkept⟩ | ⟨a, ha, hrank⟩
  · rcases hstep with hchange | hmishap
    · exact .inl ⟨_, _, hkept.step hchange⟩
    · cases hmishap with
      | late optionId hphase => exact .inr ⟨_, rfl, by simp [hphase, Phase.rank]⟩
      | cut => exact .inr ⟨_, rfl, Nat.zero_le _⟩
  · obtain ⟨a', ha', hle⟩ := rank_step hstep ha
    exact .inr ⟨a', ha', hle.trans hrank⟩

theorem Sound.kept {s : Standing} {a : Handling} (h : Sound s) (ha : s.handling = some a)
    (hrank : 4 < a.phase.rank) : ∃ given told, Kept given told s := by
  rcases h with hkept | ⟨b, hb, hle⟩
  · exact hkept
  · rw [ha] at hb
    cases hb
    omega

section
variable {h : Permissions} {r : Uuid} {a : Handling}

/-- Between the event and the entry nobody has got hold of the request. -/
theorem open_of_registering (hI : ∀ r, Sound (h.standing r)) (ha : h.requests.lookup r = some a)
    (hphase : a.phase = .registering) : Open h r a ∧ h.pending.lookup r = none := by
  obtain ⟨given, told, hkept⟩ := (hI r).kept ha (by simp [hphase, Phase.rank])
  rw [standing_of_lookup ha] at hkept
  obtain ⟨-, -, hentry, hheld, hempty⟩ := hkept.of_unregistered (.inr (.inl hphase))
  exact ⟨⟨ha, .inl hphase, hheld, hempty⟩, hentry⟩

/-- An open request is in the map from its registration on. -/
theorem Open.entry (hI : ∀ r, Sound (h.standing r)) (hopen : Open h r a)
    (hphase : a.phase ≠ .registering) : h.pending.lookup r = some a.entry := by
  have hlistens : a.phase = .spawning ∨ a.phase = .waiting := hopen.visible.resolve_left hphase
  have hrank : 4 < a.phase.rank := by rcases hlistens with h | h <;> simp [h, Phase.rank]
  obtain ⟨given, told, hkept⟩ := (hI r).kept hopen.handling hrank
  rw [standing_of_lookup hopen.handling, hopen.held] at hkept
  obtain ⟨-, hlive⟩ := hkept.of_listening (hlistens.elim .inl fun h => .inr (.inl h))
  generalize hentry : h.pending.lookup r = entry at hlive
  generalize hheld : (0 : Multiset (Option Str)) = held at hlive
  cases hlive with
  | pending => rfl
  | taken => exact absurd hheld.symm (Multiset.singleton_ne_zero _)
  | decided d _ hsent => simp [hopen.channel] at hsent

end

/-! ## The cancel closes what it has collected -/

/-- A registered request that is not open any more. -/
def Spent (s : Standing) : Prop :=
  ∃ a, s.handling = some a ∧ a.phase.rank ≤ 6 ∧ (a.phase.rank ≤ 4 ∨ s.entry = none)

theorem Spent.step {r : Uuid} {s s' : Standing} {o : Output} (h : Spent s)
    (hstep : Change r s o s' ∨ Mishap r s o s') : Spent s' := by
  obtain ⟨a, ha, hregistered, hspent⟩ := h
  obtain ⟨a', ha', hle⟩ := rank_step hstep ha
  refine ⟨a', ha', by omega, ?_⟩
  rcases hspent with hrank | hentry
  · exact .inl (by omega)
  · rcases hstep with hchange | hmishap
    · cases hchange with
      | register hphase =>
        cases ha
        simp [hphase, Phase.rank] at hregistered
      | take => cases hentry
      | remove => exact .inr rfl
      | _ => exact .inr hentry
    · cases hmishap <;> exact .inr hentry

theorem Spent.not_open {h : Permissions} {r : Uuid} (hspent : Spent (h.standing r))
    (hI : ∀ r, Sound (h.standing r)) (a : Handling) : ¬ Open h r a := by
  intro hopen
  obtain ⟨b, hb, hregistered, hclosed⟩ := hspent
  obtain rfl : a = b := by
    have ha : (h.standing r).handling = some a := hopen.handling
    rw [hb] at ha
    simpa [eq_comm] using ha
  have hphase : a.phase ≠ .registering := by
    intro hphase
    simp [hphase, Phase.rank] at hregistered
  rcases hclosed with hrank | hentry
  · rcases hopen.visible with h | h | h <;> simp [h, Phase.rank] at hrank
  · have hsome := hopen.entry hI hphase
    rw [show h.pending.lookup r = none from hentry] at hsome
    cases hsome

/-- The cancel is still to reach the request, or it is not open any more. -/
def Pursued (r : Uuid) (h : Permissions) : Prop :=
  Spent (h.standing r) ∨ ∃ a requestIds, h.requests.lookup r = some a ∧ a.phase.rank ≤ 6 ∧
    h.looping = some requestIds ∧ r ∈ requestIds

theorem deliver_cancelling (h : Permissions) (r : Uuid) (decision : Option Str) :
    (h.deliver r decision).2.cancelling = h.cancelling ∧
      (h.deliver r decision).2.pending = h.pending ∧
      (h.deliver r decision).2.deciding = h.deciding := by
  rcases deliver_cases h r decision with ⟨a, -, -, hdeliver⟩ | ⟨-, hdeliver⟩ <;> rw [hdeliver] <;>
    exact ⟨rfl, rfl, rfl⟩

theorem advance_cancelling (h : Permissions) (r : Uuid) (a : Handling) (elapsed : Bool)
    (fault : Option Str) :
    (h.advance r a elapsed fault).2.cancelling = h.cancelling ∧
      (h.advance r a elapsed fault).2.deciding = h.deciding := by
  unfold advance
  repeat' split
  all_goals exact ⟨rfl, rfl⟩

theorem send_cancelling (h : Permissions) (r : Uuid) (optionId : Option Str) :
    (h.send r optionId).2.cancelling = h.cancelling ∧
      (h.send r optionId).2.deciding ≤ h.deciding := by
  unfold send
  split
  · have hdeliver := deliver_cancelling
      { h with deciding := h.deciding.erase (r, optionId) } r optionId
    split <;> rename_i heq <;> rw [heq] at hdeliver <;>
      exact ⟨hdeliver.1, hdeliver.2.2 ▸ Multiset.erase_le _ _⟩
  · exact ⟨rfl, le_rfl⟩

theorem ask_cancelling (h : Permissions) (r : Uuid) (request : PermissionRequest)
    (fault : Option Str) :
    (h.ask r request fault).2.cancelling = h.cancelling ∧
      (h.ask r request fault).2.deciding = h.deciding := by
  unfold ask
  repeat' split
  all_goals exact ⟨rfl, rfl⟩

/-- Only the cancel's own step moves it on. -/
theorem cancelling_step (h : Permissions) {x : Action} (hx : ∀ requestIds fault,
    x ≠ .pursue requestIds fault) {c : Cancel} (hc : h.cancelling = some c) :
    (h.step x).2.cancelling = some c := by
  cases x with
  | request r request fault => exact (ask_cancelling h r request fault).1.trans hc
  | proceed r elapsed fault =>
    simp only [step]
    split
    · exact (advance_cancelling h r _ elapsed fault).1.trans hc
    · exact hc
  | decide r optionId =>
    simp only [step, Permissions.decide]
    repeat' split
    all_goals exact hc
  | send r optionId => exact (send_cancelling h r optionId).1.trans hc
  | cancel sessionId => simp only [step, hc]
  | pursue requestIds fault => exact absurd rfl (hx requestIds fault)

theorem looping_step {h : Permissions} (x : Action) {requestIds : List Uuid}
    (hlooping : h.looping = some requestIds) :
    (h.step x).2.looping = some requestIds ∨
      (∃ r rest, requestIds = r :: rest ∧ (h.step x).2.looping = some rest ∧
        (h.step x).2.pending.lookup r = none) ∨
      requestIds = [] := by
  obtain ⟨⟨sessionId, stage⟩, hc, hstage⟩ := Option.bind_eq_some_iff.1 hlooping
  by_cases hx : ∀ ids fault, x ≠ .pursue ids fault
  · have hsame := cancelling_step h hx hc
    exact .inl (by rw [looping, hsame]; exact hstage)
  push Not at hx
  obtain ⟨ids, fault, rfl⟩ := hx
  simp only [step, hc]
  cases stage with
  | removing left =>
    obtain rfl : left = requestIds := by simpa [CancelStage.looping] using hstage
    cases left with
    | nil => exact .inr (.inr rfl)
    | cons r rest =>
      refine .inr (.inl ⟨r, rest, rfl, ?_⟩)
      simp only [cancelSession]
      split
      · exact ⟨rfl, Finmap.lookup_erase _ _⟩
      · rename_i hmem
        exact ⟨rfl, Finmap.lookup_eq_none.2 hmem⟩
  | sending r left =>
    refine .inl ?_
    have hcancelling := (deliver_cancelling (h.toStage ⟨sessionId, .sending r left⟩
      (.removing left)) r none).1
    simp only [cancelSession]
    rw [looping, hcancelling]
    exact hstage
  | _ => cases hstage

theorem pursued_step {r : Uuid} {h : Permissions} (hpursued : Pursued r h) (x : Action) :
    Pursued r (h.step x).2 := by
  have hstep := (step_standing h x r).imp_right And.left
  rcases hpursued with hspent | ⟨a, requestIds, ha, hregistered, hlooping, hmem⟩
  · exact .inl (hspent.step hstep)
  obtain ⟨a', ha', hle⟩ := rank_step hstep ha
  rcases looping_step x hlooping with hsame | ⟨r', rest, rfl, hrest, hnone⟩ | rfl
  · exact .inr ⟨a', requestIds, ha', by omega, hsame, hmem⟩
  · by_cases hr : r = r'
    · subst hr
      exact .inl ⟨a', ha', by omega, .inr hnone⟩
    · exact .inr ⟨a', rest, ha', by omega, hrest, (List.mem_cons.1 hmem).resolve_left hr⟩
  · simp at hmem

theorem sound_step (h : Permissions) (x : Action) (hI : ∀ r, Sound (h.standing r)) (r : Uuid) :
    Sound ((h.step x).2.standing r) :=
  (hI r).step ((step_standing h x r).imp_right And.left)

/-- What the cancel has collected is closed when its loop is over. -/
theorem closed_of_pursued {h : Permissions} {r : Uuid} (hI : ∀ r, Sound (h.standing r))
    (hpursued : Pursued r h) (actions : List Action)
    (hover : (permissions.final h actions).looping = none) (a : Handling) :
    ¬ Open (permissions.final h actions) r a := by
  have hsound : ∀ r, Sound ((permissions.final h actions).standing r) :=
    Machine.final_invariant (P := fun (h : Permissions) => ∀ r, Sound (h.standing r)) sound_step
      hI actions
  have hend : Pursued r (permissions.final h actions) :=
    Machine.final_invariant (P := Pursued r) (fun _ x hp => pursued_step hp x) hpursued actions
  rcases hend with hspent | ⟨_, _, _, _, hlooping, _⟩
  · exact hspent.not_open hsound a
  · rw [hover] at hlooping
    cases hlooping

/-! ## From the call to the return -/

/-- `cancel_session` is still to look the requests of the session of `r` up. -/
def Awaits (r : Uuid) (sessionId : Str) (h : Permissions) : Prop :=
  ∃ a stage, h.requests.lookup r = some a ∧ a.request.sessionId = sessionId ∧ a.phase.rank ≤ 7 ∧
    h.cancelling = some ⟨sessionId, stage⟩ ∧ (stage = .notifying ∨ stage = .collecting)

def Tracked (r : Uuid) (sessionId : Str) (h : Permissions) : Prop :=
  Pursued r h ∨ Awaits r sessionId h

/-- `cancel_session` returns. -/
def Returns (t : Transition Permissions Action Output) : Prop :=
  ∃ sessionId result, t.output = .cancelled sessionId result

/-- `cancel_session` looks the requests of a session up when the event of one of them is out and its
entry is not in the map. -/
def Misses (t : Transition Permissions Action Output) : Prop :=
  ∃ r a requestIds, t.before.requests.lookup r = some a ∧ a.phase = .registering ∧
    Collects t a.request.sessionId requestIds

/-- The notification of a cancel is not sent, when a request of its session is open. -/
def Unsent (t : Transition Permissions Action Output) : Prop :=
  ∃ r a, Open t.before r a ∧ t.before.cancelling = some ⟨a.request.sessionId, .notifying⟩ ∧
    ∃ requestIds error, t.input = .pursue requestIds (some error)

theorem Awaits.of_same {r : Uuid} {sessionId : Str} {h : Permissions} {x : Action}
    {a : Handling} {stage : CancelStage} (ha : h.requests.lookup r = some a)
    (hsession : a.request.sessionId = sessionId) (hrank : a.phase.rank ≤ 7)
    (hc : (h.step x).2.cancelling = some ⟨sessionId, stage⟩)
    (hstage : stage = .notifying ∨ stage = .collecting) : Awaits r sessionId (h.step x).2 := by
  obtain ⟨a', ha', hrequest, hle⟩ :=
    handling_step ((step_standing h x r).imp_right And.left) (s := h.standing r) ha
  exact ⟨a', stage, ha', by rw [hrequest, hsession], hle.trans hrank, hc, hstage⟩

/-- A request that the look-up finds is on the list, and one that it does not find is not open. -/
theorem pursued_of_collects {r : Uuid} {h : Permissions} (hI : ∀ r, Sound (h.standing r))
    {a : Handling} (ha : h.requests.lookup r = some a) (hrank : a.phase.rank ≤ 7)
    (hphase : a.phase ≠ .registering) {requestIds : List Uuid} {fault : Option Str}
    (hc : h.cancelling = some ⟨a.request.sessionId, .collecting⟩)
    (hids : ↑requestIds = (h.pendingOf a.request.sessionId).val) :
    Pursued r (h.step (.pursue requestIds fault)).2 := by
  have hafter : (h.step (.pursue requestIds fault)).2 =
      h.toStage ⟨a.request.sessionId, .collecting⟩ (.removing requestIds) := by
    simp only [step, hc, cancelSession, if_pos hids]
  have hstanding : (h.step (.pursue requestIds fault)).2.standing r = h.standing r := by
    rw [hafter]
    exact standing_cancelling hc rfl rfl
  have hregistered : a.phase.rank ≤ 6 := by
    cases hphase' : a.phase <;> simp_all [Phase.rank]
  by_cases hsettled : a.phase.rank ≤ 4
  · exact .inl ⟨a, hstanding ▸ ha, hregistered, .inl hsettled⟩
  by_cases hentry : h.pending.lookup r = none
  · exact .inl ⟨a, hstanding ▸ ha, hregistered, .inr (hstanding ▸ hentry)⟩
  obtain ⟨pending, hpending⟩ := Option.ne_none_iff_exists'.1 hentry
  obtain ⟨given, told, hkept⟩ := (hI r).kept ha (by omega)
  have hlistens : a.phase.listens := by
    cases hphase' : a.phase <;> simp_all [Phase.rank, Phase.listens]
  rw [standing_of_lookup ha] at hkept
  obtain ⟨-, hlive⟩ := hkept.of_listening hlistens
  obtain rfl : pending = a.entry := by
    rw [hpending] at hlive
    generalize hheld : h.held r = held at hlive
    generalize hentry' : some pending = entry at hlive
    cases hlive with
    | pending => exact Option.some.inj hentry'
    | taken => cases hentry'
    | decided => cases hentry'
  have hmem : r ∈ requestIds := by
    rw [← Multiset.mem_coe, hids, Finset.mem_val, pendingOf, Finset.mem_filter]
    refine ⟨Finmap.mem_keys.2 (Finmap.mem_of_lookup_eq_some hpending), ?_⟩
    simp [hpending, Handling.entry]
  refine .inr ⟨a, requestIds, ?_, hregistered, ?_, hmem⟩
  · exact (congrArg Standing.handling hstanding).trans ha
  · rw [hafter]
    rfl

/-- One step of anyone, from the call of the cancel to its return. -/
theorem tracked_step {r : Uuid} {sessionId : Str} {h : Permissions} {x : Action}
    (hI : ∀ r, Sound (h.standing r)) (htracked : Tracked r sessionId h)
    (hfound : ¬ Misses (permissions.fire h x)) (hsent : ¬ Unsent (permissions.fire h x)) :
    Tracked r sessionId (h.step x).2 ∨
      (Returns (permissions.fire h x) ∧ ∀ a, ¬ Open (h.step x).2 r a) := by
  rcases htracked with hpursued | ⟨a, stage, ha, hsession, hrank, hc, hstage⟩
  · exact .inl (.inl (pursued_step hpursued x))
  by_cases hx : ∀ ids fault, x ≠ .pursue ids fault
  · have hsame := cancelling_step h hx hc
    exact .inl (.inr (.of_same ha hsession hrank hsame hstage))
  push Not at hx
  obtain ⟨ids, fault, rfl⟩ := hx
  subst hsession
  rcases hstage with rfl | rfl
  · cases fault with
    | none =>
      have hnext : (h.step (.pursue ids none)).2.cancelling =
          some ⟨a.request.sessionId, .collecting⟩ := by
        simp only [step, hc, cancelSession]
        rfl
      exact .inl (.inr (.of_same ha rfl hrank hnext (.inr rfl)))
    | some error =>
      have hnext : h.step (.pursue ids (some error)) = (.cancelled a.request.sessionId
          (.error "could not send ACP cancellation"), { h with cancelling := none }) := by
        simp only [step, hc, cancelSession]
      refine .inr ⟨⟨_, _, congrArg Prod.fst hnext⟩, fun a' hopen => ?_⟩
      have hstanding : (h.step (.pursue ids (some error))).2.standing r = h.standing r := by
        rw [hnext]
        exact standing_cancelling hc rfl rfl
      have ha' : a' = a := by
        have hhandling := hopen.handling
        rw [hnext] at hhandling
        exact Option.some.inj (hhandling.symm.trans ha)
      subst ha'
      have hbefore : Open h r a' := ⟨ha, hopen.visible,
        (congrArg Standing.held hstanding).symm.trans hopen.held, hopen.channel⟩
      exact hsent ⟨r, a', hbefore, hc, ids, error, rfl⟩
  · by_cases hids : ↑ids = (h.pendingOf a.request.sessionId).val
    · have hphase : a.phase ≠ .registering := fun hphase =>
        hfound ⟨r, a, ids, ha, hphase, hc, hids, fault, rfl⟩
      exact .inl (.inl (pursued_of_collects hI ha hrank hphase hc hids))
    · have hnext : (h.step (.pursue ids fault)).2 = h := by
        simp only [step, hc, cancelSession, if_neg hids]
      rw [hnext]
      exact .inl (.inr ⟨a, .collecting, ha, rfl, hrank, hc, .inr rfl⟩)

theorem cancelSession_returns {h : Permissions} {c : Cancel} {requestIds : List Uuid}
    {fault : Option Str} {sessionId : Str} {result : Except Str Unit}
    (hout : (h.cancelSession c requestIds fault).1 = .cancelled sessionId result) :
    (h.cancelSession c requestIds fault).2.cancelling = none := by
  obtain ⟨session, stage⟩ := c
  cases stage with
  | collecting =>
    simp only [cancelSession] at hout
    split at hout <;> cases hout
  | removing ids =>
    cases ids with
    | nil => cases hout
    | cons r ids =>
      simp only [cancelSession] at hout
      split at hout <;> cases hout
  | sending r ids => cases hout
  | replying => rfl
  | _ =>
    cases fault with
    | none => cases hout
    | some error => rfl

theorem cancelling_of_returns {h : Permissions} {x : Action}
    (hreturns : Returns (permissions.fire h x)) : (h.step x).2.cancelling = none := by
  obtain ⟨sessionId, result, hout⟩ := hreturns
  change (h.step x).1 = _ at hout
  cases x with
  | request r request fault =>
    simp only [step, ask] at hout
    repeat' split at hout
    all_goals cases hout
  | proceed r elapsed fault =>
    simp only [step] at hout
    split at hout
    · unfold advance at hout
      repeat' split at hout
      all_goals cases hout
    · cases hout
  | decide r optionId =>
    simp only [step, Permissions.decide] at hout
    repeat' split at hout
    all_goals cases hout
  | send r optionId =>
    simp only [step, Permissions.send] at hout
    repeat' split at hout
    all_goals cases hout
  | cancel sessionId =>
    simp only [step] at hout
    split at hout <;> cases hout
  | pursue requestIds fault =>
    simp only [step] at hout ⊢
    split at hout
    · exact cancelSession_returns hout
    · cases hout

/-- A cancel that has returned left no request open that was open when it was called. -/
theorem Tracked.not_open {r : Uuid} {sessionId : Str} {h : Permissions}
    (hI : ∀ r, Sound (h.standing r)) (htracked : Tracked r sessionId h)
    (hc : h.cancelling = none) (a : Handling) : ¬ Open h r a := by
  rcases htracked with hspent | ⟨_, _, _, _, _, hcancelling, _⟩
  · rcases hspent with hspent | ⟨_, _, _, _, hlooping, _⟩
    · exact hspent.not_open hI a
    · simp [looping, hc] at hlooping
  · simp [hc] at hcancelling

/-! ## The cancel by itself -/

/-- Pursued by itself and without a fault, the cancel of `sessionId` returns `Ok`. -/
def Pursuable (sessionId : Str) (h : Permissions) : Prop :=
  ∃ pursuing : List Action, (∀ x ∈ pursuing, ∃ requestIds, x = .pursue requestIds none) ∧
    .cancelled sessionId (.ok ()) ∈ permissions.outputs h pursuing

theorem Pursuable.of_step {sessionId : Str} {h : Permissions} (requestIds : List Uuid)
    (hnext : Pursuable sessionId (h.step (.pursue requestIds none)).2) :
    Pursuable sessionId h := by
  obtain ⟨pursuing, hpursuing, hout⟩ := hnext
  refine ⟨.pursue requestIds none :: pursuing, ?_, List.mem_cons_of_mem _ hout⟩
  intro x hx
  rcases List.mem_cons.1 hx with rfl | hx
  · exact ⟨requestIds, rfl⟩
  · exact hpursuing x hx

section
variable {h : Permissions} {sessionId : Str}

theorem pursuable_updating (hc : h.cancelling = some ⟨sessionId, .updating⟩) :
    Pursuable sessionId h := by
  refine ⟨List.replicate 3 (.pursue [] none), fun x hx => ⟨[], List.eq_of_mem_replicate hx⟩, ?_⟩
  simp [List.replicate, Machine.outputs, Machine.run, Machine.fire, permissions, step, hc,
    cancelSession, toStage]

theorem pursuable_sending {r : Uuid} {requestIds : List Uuid}
    (hremoving : ∀ h : Permissions, h.cancelling = some ⟨sessionId, .removing requestIds⟩ →
      Pursuable sessionId h)
    (hc : h.cancelling = some ⟨sessionId, .sending r requestIds⟩) : Pursuable sessionId h := by
  refine .of_step [] (hremoving _ ?_)
  simp only [step, hc, cancelSession]
  exact (deliver_cancelling _ r none).1

/-- The loop over the `request_ids` ends. -/
theorem pursuable_removing {requestIds : List Uuid}
    (hc : h.cancelling = some ⟨sessionId, .removing requestIds⟩) : Pursuable sessionId h := by
  induction requestIds generalizing h with
  | nil =>
    refine .of_step [] (pursuable_updating ?_)
    simp only [step, hc, cancelSession]
    rfl
  | cons r requestIds ih =>
    refine .of_step [] ?_
    simp only [step, hc, cancelSession]
    split
    · exact pursuable_sending (r := r) (fun h => ih) rfl
    · exact ih rfl

theorem exists_pursuing {c : Cancel} (hc : h.cancelling = some c) : Pursuable c.sessionId h := by
  obtain ⟨sessionId, stage⟩ := c
  have hcollecting : ∀ {h : Permissions}, h.cancelling = some ⟨sessionId, .collecting⟩ →
      Pursuable sessionId h := by
    intro h hc
    obtain ⟨ids, hids⟩ := Quot.exists_rep (h.pendingOf sessionId).val
    have hnext : (h.step (.pursue ids none)).2.cancelling = some ⟨sessionId, .removing ids⟩ := by
      have hmatches : ↑ids = (h.pendingOf sessionId).val := hids
      simp only [step, hc, cancelSession, if_pos hmatches]
      rfl
    exact .of_step ids (pursuable_removing hnext)
  cases stage with
  | notifying =>
    refine .of_step [] (hcollecting ?_)
    simp only [step, hc, cancelSession]
    rfl
  | collecting => exact hcollecting hc
  | removing requestIds => exact pursuable_removing hc
  | sending r requestIds => exact pursuable_sending (fun _ => pursuable_removing) hc
  | updating => exact pursuable_updating hc
  | recording =>
    refine ⟨List.replicate 2 (.pursue [] none), fun x hx => ⟨[], List.eq_of_mem_replicate hx⟩, ?_⟩
    simp [List.replicate, Machine.outputs, Machine.run, Machine.fire, permissions, step, hc,
      cancelSession, toStage]
  | replying =>
    refine ⟨[.pursue [] none], fun x hx => ⟨[], List.mem_singleton.1 hx⟩, ?_⟩
    simp [Machine.outputs, Machine.run, Machine.fire, permissions, step, hc, cancelSession]

end

end LeaveCli.Acp.Permissions
