import LeaveCli.Host.Proof.ServeStep
import LeaveCli.Host.SmallPlatform
import LeaveCli.Lib.Monitor

/-!
# The relay tunnel is a reference monitor

Every transition of `serve_route` describes one event of a monitor whose subjects are the device
identifiers, whose grants are the registry's and whose operations are the tunnelled requests
(`tunnel_refines_monitor`): a pairing enrolls, a revocation expels, a dispatched request performs,
and everything else touches no grant. `serveRoute_authorized` reads the authorization of a whole
run off that and off `FrameStep`.
-/

namespace LeaveCli.Host

open Lib Lib.Monitor Protocol Crypto Transport

variable {D : Platform}

variable (D) in
/-- One transition of `serve_route`. -/
abbrev RouteTransition := Transition (RouteService D) Incoming Outcome

/-- The frame opened as a message of the group. -/
def OpenedAs (t : RouteTransition D) (opened : OpenedMessage) : Prop :=
  isPairingFrame t.input.frame = false ∧
    (t.before.session.openFrame t.input.frame).2 = .ok opened

/-- A request of `d`'s reached the workspace router. -/
def DispatchesFor (t : RouteTransition D) (d : Str) : Prop :=
  ∃ opened, OpenedAs t opened ∧ opened.senderDeviceId = d ∧ t.output.dispatched.isSome = true

/-- A revocation of `d` was answered 204. -/
def Revokes (t : RouteTransition D) (d : Str) : Prop :=
  ∃ opened, OpenedAs t opened ∧ revocationTarget D.wire opened = some d ∧
    ∃ response, t.output.answer = some response ∧ response.status = 204

/-- A pairing gave `d` its grant. -/
def Pairs (t : RouteTransition D) (d : Str) : Prop :=
  isPairingFrame t.input.frame = true ∧ t.before.pairing.isSome = true ∧
    t.before.registry.get d = none ∧ t.after.registry.get d = some .newlyPaired

/-- What the monitor of the tunnel lets a grant do. -/
def tunnelPolicy : Policy DeviceGrant TunnelRequest where
  allows grant request :=
    authorize grant.role grant.capabilities (actionFor request.method request.path) = true
  manages grant := authorize grant.role grant.capabilities .manageMembers = true

/-- The monitor event a transition is. -/
def Describes (t : RouteTransition D) : Event Str DeviceGrant TunnelRequest → Prop
  | .enroll d grant => t.output.dispatched = none ∧ Pairs t d ∧ grant = .newlyPaired
  | .expel b d => t.output.dispatched = none ∧
    ∃ opened, OpenedAs t opened ∧ opened.senderDeviceId = b ∧
      revocationTarget D.wire opened = some d
  | .perform d request => ∃ opened httpRequest, OpenedAs t opened ∧ opened.senderDeviceId = d ∧
    revocationTarget D.wire opened = none ∧ D.wire.decode opened.plaintext = .ok request ∧
    request.validate = .ok () ∧ t.output.dispatched = some httpRequest ∧
    buildRequest D.http request = .ok httpRequest
  | .silent => t.output.dispatched = none ∧ ∀ d, ¬ Revokes t d

/-! ## Opened frames -/

theorem OpenedAs.unique {t : RouteTransition D} {o o' : OpenedMessage} (h : OpenedAs t o)
    (h' : OpenedAs t o') : o = o' := by
  have he := h.2.symm.trans h'.2
  cases he
  rfl

theorem Opens.openedAs {s s₁ : RouteService D} {x : Incoming} {opened : OpenedMessage}
    (h : Opens s x opened s₁) : OpenedAs ((serveRoute D).fire s x) opened :=
  ⟨h.frame, congrArg Prod.snd h.opened⟩

theorem not_revokes_of_answer {t : RouteTransition D} (h : t.output.answer = none) (d : Str) :
    ¬ Revokes t d := by
  intro hcase
  obtain ⟨opened, -, -, response, ha, -⟩ := hcase
  exact absurd (h.symm.trans ha) (by simp)

/-! ## Refinement -/

theorem newestDevice_spec {M : Mls} {session : WorkspaceSession M} {registry : DeviceRegistry}
    {d : Str} (h : newestDevice session registry = some d) :
    registry.get d = none ∧ d ≠ session.deviceId := by
  unfold newestDevice at h
  split at h
  · cases h
  · have hp := List.find?_some h
    simp only [ne_eq, Bool.decide_and, Bool.and_eq_true, decide_eq_true_eq] at hp
    exact ⟨hp.2, hp.1⟩

theorem get_registerPaired {M : Mls} (session : WorkspaceSession M) (registry : DeviceRegistry) :
    (newestDevice session registry = none ∧ registerPaired session registry = registry) ∨
      ∃ d, newestDevice session registry = some d ∧
        (registerPaired session registry).get =
          Function.update registry.get d (some .newlyPaired) := by
  unfold registerPaired
  cases hn : newestDevice session registry with
  | none => exact .inl ⟨rfl, rfl⟩
  | some d =>
    refine .inr ⟨d, rfl, funext fun d' => ?_⟩
    rw [DeviceRegistry.get_set, Function.update_apply]
    simp only [eq_comm]

theorem get_remove_update (registry : DeviceRegistry) (d : Str) :
    (registry.remove d).1.get = Function.update registry.get d none := by
  funext d'
  rw [DeviceRegistry.get_remove, Function.update_apply]
  simp only [eq_comm]

section
variable (hM : D.mls.Lawful)
include hM

/-- One transition is one event of the monitor. -/
theorem describes_step (s : RouteService D) (x : Incoming) :
    ∃ e, Describes ((serveRoute D).fire s x) e ∧
      Step tunnelPolicy s.registry.get e ((serveRoute D).step s x).2.registry.get := by
  have hstep : FrameStep s x ((serveRoute D).step s x).1 ((serveRoute D).step s x).2 :=
    serveFrame_step hM s x
  have hsilent : ∀ registry : DeviceRegistry, registry = s.registry →
      Step tunnelPolicy s.registry.get .silent registry.get := by
    intro _ heq
    subst heq
    exact .silent
  cases hstep with
  | ignored ho hq hr =>
    exact ⟨.silent, ⟨congrArg Outcome.dispatched ho,
      not_revokes_of_answer (congrArg Outcome.answer ho)⟩, hsilent _ hq.registry⟩
  | unsent secret keyPackage k invitation hjoins ho hfailed hs =>
    have hreg : ((serveRoute D).step s x).2.registry = s.registry := by rw [hs]
    exact ⟨.silent, ⟨congrArg Outcome.dispatched ho,
      not_revokes_of_answer (congrArg Outcome.answer ho)⟩, hsilent _ hreg⟩
  | paired secret keyPackage k invitation envelope hjoins hsend ho hs =>
    have hreg : ((serveRoute D).step s x).2.registry =
      registerPaired ((serveRoute D).step s x).2.session s.registry :=
      congrArg RouteService.registry hs
    rcases get_registerPaired ((serveRoute D).step s x).2.session s.registry with
      ⟨-, hsame⟩ | ⟨d, hnew, hset⟩
    · exact ⟨.silent, ⟨congrArg Outcome.dispatched ho,
        not_revokes_of_answer (congrArg Outcome.answer ho)⟩, hsilent _ (hreg.trans hsame)⟩
    · have hafter := (congrArg DeviceRegistry.get hreg).trans hset
      refine ⟨.enroll d .newlyPaired, ⟨congrArg Outcome.dispatched ho,
        ⟨hjoins.frame, ?_, (newestDevice_spec hnew).1, ?_⟩, rfl⟩, ?_⟩
      · exact hjoins.open_ ▸ rfl
      · exact (congrFun hafter d).trans (Function.update_self ..)
      · rw [hafter]
        exact .enroll d DeviceGrant.newlyPaired
  | revoked opened target m s₁ commit session hopen hexpels hremove hremoved ho hq =>
    obtain ⟨grant, hg, ha⟩ := managesMembers_iff.1 hexpels.manages
    refine ⟨.expel opened.senderDeviceId target,
      ⟨ho.1, opened, hopen.openedAs, rfl, hexpels.names⟩, ?_⟩
    rw [hq.registry, get_remove_update]
    exact .expel _ target hg ha hexpels.notSelf.symm
  | refused opened target s₁ hopen htarget ho hq hr =>
    refine ⟨.silent, ⟨ho.1, ?_⟩, hsilent _ hq.registry⟩
    intro d hcase
    obtain ⟨opened', -, -, response, ha, hstatus⟩ := hcase
    obtain ⟨-, response', ha', hrefused⟩ := ho
    exact hrefused.ne (by rw [Option.some.inj (ha'.symm.trans ha)]; exact hstatus)
  | handled opened s₁ hopen htarget ho hq hr =>
    cases hd : (handle s.router s.registry opened : Handled D).dispatched with
    | none =>
      refine ⟨.silent, ⟨ho.1.trans hd, ?_⟩, hsilent _ hq.registry⟩
      intro d hcase
      obtain ⟨opened', ho', ht', -⟩ := hcase
      rw [ho'.unique hopen.openedAs, htarget] at ht'
      cases ht'
    | some httpRequest =>
      obtain ⟨request, hdec, hval, hperm, hbuild⟩ := handle_dispatched_iff.1 hd
      obtain ⟨grant, hg, ha⟩ := permitted_iff.1 hperm
      refine ⟨.perform opened.senderDeviceId request, ⟨opened, httpRequest, hopen.openedAs, rfl,
        htarget, hdec, hval, ho.1.trans hd, hbuild⟩, ?_⟩
      rw [hq.registry]
      exact .perform _ request hg ha

/-- A run of `serve_route` is a run of the monitor. -/
theorem tunnel_refines_monitor (s : RouteService D) (xs : List Incoming) :
    ∃ es G, List.Forall₂ Describes ((serveRoute D).run s xs) es ∧
      Trace tunnelPolicy s.registry.get es G :=
  Trace.of_run (describes_step hM) s xs

/-! ## Authorization over a run -/

/-- What reaches the router in one transition was sealed by a device whose grant allows it. -/
theorem dispatched_step {s : RouteService D} {x : Incoming} {httpRequest : HttpRequest}
    (h : ((serveRoute D).fire s x).output.dispatched = some httpRequest) :
    ∃ opened request grant, OpenedAs ((serveRoute D).fire s x) opened ∧
      D.wire.decode opened.plaintext = .ok request ∧ request.validate = .ok () ∧
      buildRequest D.http request = .ok httpRequest ∧
      s.registry.get opened.senderDeviceId = some grant ∧
      authorize grant.role grant.capabilities (actionFor request.method request.path) = true := by
  obtain ⟨e, hd, hstep⟩ := describes_step hM s x
  cases e with
  | enroll d grant => exact absurd (hd.1.symm.trans h) (by simp)
  | expel b d => exact absurd (hd.1.symm.trans h) (by simp)
  | silent => exact absurd (hd.1.symm.trans h) (by simp)
  | perform d request =>
    obtain ⟨opened, httpRequest', ho, rfl, -, hdec, hval, hout, hbuild⟩ := hd
    obtain ⟨grant, hg, ha⟩ := hstep.performed
    cases hout.symm.trans h
    exact ⟨opened, request, grant, ho, hdec, hval, hbuild, hg, ha⟩

/-- Only a revocation takes a member out, and it takes out the first that carries its target. -/
theorem removed_step {s : RouteService D} {x : Incoming} {m : Member}
    (hm : m ∈ s.session.view.members) (hgone : m ∉ (serveFrame s x).2.session.view.members) :
    ∃ opened target, Expels s x opened target m := by
  have hstays : Quiet s (serveFrame s x).2 → False := fun hq => hgone (hq.view hM ▸ hm)
  have hstep := serveFrame_step hM s x
  cases hstep with
  | ignored ho hq => exact (hstays hq).elim
  | unsent secret keyPackage k invitation hjoins =>
    exact absurd (hjoins.added.view ▸ mem_added.2 (.inl hm)) hgone
  | paired secret keyPackage k invitation envelope hjoins =>
    exact absurd (hjoins.added.view ▸ mem_added.2 (.inl hm)) hgone
  | refused opened target s₁ hopen htarget ho hq => exact (hstays hq).elim
  | handled opened s₁ hopen htarget ho hq => exact (hstays hq).elim
  | revoked opened target m' s₁ commit session hopen hexpels hremove hremoved ho hq =>
    have hindex : m.index = m'.index := by
      by_contra hne
      exact hgone (hq.view hM ▸ hremoved.view ▸ mem_removed.2 ⟨hm, hne⟩)
    obtain rfl : m = m' := hM.index_inj hm (firstWith_spec hexpels.first).1 hindex
    exact ⟨opened, target, hexpels⟩

end

/-- A revocation answered 204 is the monitor's expulsion. -/
theorem expel_of_revokes {t : RouteTransition D} {d : Str} {e : Event Str DeviceGrant TunnelRequest}
    (hd : Describes t e) (h : Revokes t d) : ∃ b, e = .expel b d := by
  obtain ⟨opened, ho, htarget, hanswer⟩ := h
  cases e with
  | enroll d' grant =>
    obtain ⟨-, ⟨hf, -⟩, -⟩ := hd
    exact absurd (hf.symm.trans ho.1) (by simp)
  | expel b d' =>
    obtain ⟨-, opened', ho', -, htarget'⟩ := hd
    rw [ho'.unique ho, htarget] at htarget'
    cases htarget'
    exact ⟨b, rfl⟩
  | perform d' request =>
    obtain ⟨opened', -, ho', -, hnone, -⟩ := hd
    rw [ho'.unique ho, htarget] at hnone
    cases hnone
  | silent => exact absurd ⟨opened, ho, htarget, hanswer⟩ (hd.2 d)

/-- A dispatch for a device is the monitor's operation of that subject. -/
theorem perform_of_dispatchesFor {t : RouteTransition D} {d : Str}
    {e : Event Str DeviceGrant TunnelRequest} (hd : Describes t e) (h : DispatchesFor t d) :
    ∃ request, e = .perform d request := by
  obtain ⟨opened, ho, rfl, hout⟩ := h
  cases e with
  | enroll d' grant => rw [hd.1] at hout; cases hout
  | expel b d' => rw [hd.1] at hout; cases hout
  | silent => rw [hd.1] at hout; cases hout
  | perform d' request =>
    obtain ⟨opened', -, ho', rfl, -⟩ := hd
    exact ⟨request, by rw [ho'.unique ho]⟩

/-- What authorization guarantees over a run of `serve_route`. -/
structure Authorized (run : List (RouteTransition D)) : Prop where
  /-- A dispatched request was valid, and the grant its sender held allows it. -/
  dispatched : ∀ t ∈ run, ∀ httpRequest, t.output.dispatched = some httpRequest →
    ∃ opened request grant, OpenedAs t opened ∧ D.wire.decode opened.plaintext = .ok request ∧
      request.validate = .ok () ∧ buildRequest D.http request = .ok httpRequest ∧
      t.before.registry.get opened.senderDeviceId = some grant ∧
      authorize grant.role grant.capabilities (actionFor request.method request.path) = true
  /-- A removed member was revoked by another device whose grant manages members. -/
  removed : ∀ t ∈ run, ∀ m ∈ t.before.session.view.members,
    m ∉ t.after.session.view.members →
    ∃ opened target grant, OpenedAs t opened ∧ revocationTarget D.wire opened = some target ∧
      identityOf m.credential = .ok target ∧ opened.senderDeviceId ≠ target ∧
      t.before.registry.get opened.senderDeviceId = some grant ∧
      authorize grant.role grant.capabilities .manageMembers = true
  /-- A revoked device has nothing dispatched until a pairing gives it a grant. -/
  revoked : ∀ pre t mid u post d, run = pre ++ t :: (mid ++ u :: post) → Revokes t d →
    DispatchesFor u d → ∃ v ∈ mid, Pairs v d

/-- The relay tunnel authorizes every run, whatever frames it is fed. -/
theorem serveRoute_authorized (hM : D.mls.Lawful) (s : RouteService D) (xs : List Incoming) :
    Authorized ((serveRoute D).run s xs) where
  dispatched t ht httpRequest h := by
    have heq := Machine.eq_fire_of_mem_run ht
    rw [heq] at h ⊢
    exact dispatched_step hM h
  removed t ht m hm hgone := by
    have heq := Machine.eq_fire_of_mem_run ht
    rw [heq] at hgone
    obtain ⟨opened, target, hexpels⟩ := removed_step hM hm hgone
    obtain ⟨grant, hg, ha⟩ := managesMembers_iff.1 hexpels.manages
    exact ⟨opened, target, grant, ⟨hexpels.frame, hexpels.opens⟩, hexpels.names,
      (firstWith_spec hexpels.first).2, hexpels.notSelf.symm, hg, ha⟩
  revoked pre t mid u post d hrun ht hu := by
    obtain ⟨es, G, hes, htrace⟩ := tunnel_refines_monitor hM s xs
    rw [hrun] at hes
    obtain ⟨v, hv, grant, hdesc⟩ := Trace.enrolled_between hes htrace
      (fun e he => expel_of_revokes he ht) (fun e he => perform_of_dispatchesFor he hu)
    exact ⟨v, hv, hdesc.2.1⟩

open SmallPlatform in
/-- A phone's request is dispatched, an owner revokes the phone, and the phone's next request is
not dispatched. -/
theorem serveRoute_authorized_revoked_phone :
    let status := request "GET" "/api/v1/local/status"
    let revocation := request "DELETE" "/api/v1/local/devices/phone"
    let s := service [status, revocation] (group ["laptop", "phone"])
      [("laptop", ⟨.owner, ∅⟩), ("phone", .newlyPaired)] none
    let run := (serveRoute _).run s
      [sealedBy 3 "phone" status, sealedBy 3 "laptop" revocation, sealedBy 4 "phone" status]
    Authorized run ∧ run.map (fun t => (t.output.answer.map (·.status))) =
      [some 200, some 204, some 403] :=
  ⟨serveRoute_authorized SmallGroup.lawful _ _, by decide +kernel⟩

end LeaveCli.Host
