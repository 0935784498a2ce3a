import LeaveCli.Host.Proof.TunnelMonitor

/-!
# Revocations

A revocation takes a route of its own through the loop, before validation, and finds its device by
the identifier in the path. `revocation_complete_iff` says for which devices an owner's revocation
is complete. `isOwn_step` is the invariant behind it: the host stays a member of its group.
-/

namespace LeaveCli.Host

open Lib Protocol Crypto Transport

variable {D : Platform}

/-! ## Answers -/

/-- The pass forms an answer with a status, which may or may not get through. -/
def Responds (o : Outcome) (status : Nat) : Prop := ∃ r, o.answer = some r ∧ r.status = status

theorem Responds.unique {o : Outcome} {m n : Nat} (h : Responds o m) (h' : Responds o n) :
    m = n := by
  obtain ⟨r, ha, rfl⟩ := h
  obtain ⟨r', ha', rfl⟩ := h'
  rw [Option.some.inj (ha.symm.trans ha')]

/-- An answer with a status was sealed and sent. -/
def Answers (o : Outcome) (s' : RouteService D) (status : Nat) : Prop :=
  Responds o status ∧ ∃ g, SealedIn g o s'

/-- Every frame that opens is answered. -/
theorem serveFrame_answered {s : RouteService D} {x : Incoming} {opened : OpenedMessage}
    (hframe : isPairingFrame x.frame = false)
    (hopen : (s.session.openFrame x.frame).2 = .ok opened) :
    ∃ r, (serveFrame s x).1.answer = some r := by
  rw [serveFrame, if_neg (by simp [hframe])]
  split
  · rename_i ho
    rw [ho] at hopen
    cases hopen
  · split
    · exact ⟨_, (answerWith_spec _ _ _ _).2.2.2.1⟩
    · exact ⟨_, (answerWith_spec _ _ _ _).2.2.2.1⟩

/-! ## Complete revocations -/

section
variable (hM : D.mls.Lawful)
include hM

/-- The host stays the member of its group that it is. -/
theorem isOwn_step (s : RouteService D) (x : Incoming) {own : Member} (hown : IsOwn s.session own) :
    IsOwn (serveFrame s x).2.session own := by
  have hquiet : ∀ {s₁ s₂ : RouteService D}, Quiet s₁ s₂ → IsOwn s₁.session own →
      IsOwn s₂.session own := by
    intro s₁ s₂ hq h
    rw [IsOwn, hq.view hM]
    exact h
  have hstep := serveFrame_step hM s x
  cases hstep with
  | ignored ho hq => exact hquiet hq hown
  | unsent secret keyPackage k invitation hjoins => exact hjoins.added.isOwn hown
  | paired secret keyPackage k invitation envelope hjoins => exact hjoins.added.isOwn hown
  | revoked opened target m s₁ commit session hopen hexpels hremove hremoved ho hq =>
    exact hquiet hq (hremoved.isOwn hown)
  | refused opened target s₁ hopen htarget ho hq => exact hquiet hq hown
  | handled opened s₁ hopen htarget ho hq => exact hquiet hq hown

theorem active_step (s : RouteService D) (x : Incoming) (hactive : s.session.Active) :
    (serveFrame s x).2.session.Active := by
  obtain ⟨own, hown⟩ := hactive
  exact ⟨own, isOwn_step hM s x hown⟩

/-- A revocation its sender may make, of a member other than the host, is carried out. -/
theorem expels_step {s : RouteService D} {x : Incoming} {opened : OpenedMessage} {target : Str}
    {m : Member} (hactive : s.session.Active) (h : Expels s x opened target m) :
    Responds (serveFrame s x).1 204 ∧
      ((serveFrame s x).1.failed = none → ∃ g, SealedIn g (serveFrame s x).1 (serveFrame s x).2) ∧
      (serveFrame s x).2.session.view = s.session.view.removed m.index ∧
      (serveFrame s x).2.registry = (s.registry.remove target).1 := by
  have hopened : ∀ {opened' s₁}, Opens s x opened' s₁ → opened' = opened := by
    intro opened' s₁ hopen
    exact hopen.openedAs.unique ⟨h.frame, h.opens⟩
  have hstep := serveFrame_step hM s x
  cases hstep with
  | ignored ho =>
    obtain ⟨r, ha⟩ := serveFrame_answered h.frame h.opens
    exact absurd ((congrArg Outcome.answer ho).symm.trans ha) (by simp)
  | unsent secret keyPackage k invitation hjoins =>
    exact absurd (h.frame.symm.trans hjoins.frame) (by simp)
  | paired secret keyPackage k invitation envelope hjoins =>
    exact absurd (h.frame.symm.trans hjoins.frame) (by simp)
  | handled opened' s₁ hopen hnone =>
    obtain rfl := hopened hopen
    exact absurd (hnone.symm.trans h.names) (by simp)
  | refused opened' target' s₁ hopen htarget ho =>
    obtain rfl := hopened hopen
    obtain rfl := Option.some.inj (h.names.symm.trans htarget)
    obtain ⟨-, r, ha, ⟨hrefused, -⟩ | ⟨-, ⟨hself, -⟩ | ⟨-, ⟨e, he⟩, -⟩⟩⟩ := ho
    · rw [hopen.quiet.registry, h.manages] at hrefused
      cases hrefused
    · exact absurd hself h.notSelf
    · have hview := hopen.quiet.view hM
      have hactive₁ : s₁.session.Active := by
        rw [WorkspaceSession.Active, hview]
        exact hactive
      obtain ⟨s', commit, hremove, -⟩ :=
        removeDevice_ok hM hactive₁ (hview ▸ h.first) (hview ▸ h.notOwn)
      rw [hremove] at he
      cases he
  | revoked opened' target' m' s₁ commit session hopen hexpels hremove hremoved ho hq hr hsent =>
    obtain rfl := hopened hopen
    obtain rfl := Option.some.inj (h.names.symm.trans hexpels.names)
    obtain rfl := Option.some.inj (h.first.symm.trans hexpels.first)
    exact ⟨ho.2, fun halive => ⟨_, hsent halive⟩, (hq.view hM).trans hremoved.view, hq.registry⟩

end

/-- The path of a revocation names its device. -/
theorem revocationTarget_eq {wire : Wire} {opened : OpenedMessage} {request : TunnelRequest}
    {d : Str} (hdecode : wire.decode opened.plaintext = .ok request)
    (hmethod : request.method = ("DELETE" : Str))
    (hpath : request.path = ("/api/v1/local/devices/" : Str) ++ d) :
    revocationTarget wire opened = if d ≠ [] ∧ '/' ∉ d then some d else none := by
  rw [revocationTarget, hdecode]
  simp only [hmethod, ne_eq, not_true_eq_false, if_false, hpath, Str.stripPrefix_append]

/-- After an owner's request to revoke `d`, the answer is 204, it was sent unless the route ended
over it, and neither the group nor the registry knows `d`. -/
structure RevokedFully (s : RouteService D) (x : Incoming) (d : Str) : Prop where
  responds : Responds (serveFrame s x).1 204
  sent : (serveFrame s x).1.failed = none → Answers (serveFrame s x).1 (serveFrame s x).2 204
  members : ∀ m ∈ (serveFrame s x).2.session.view.members, identityOf m.credential ≠ .ok d
  registry : (serveFrame s x).2.registry.get d = none

/-- An owner's revocation of a member is complete exactly when its path can name the member's
identifier and no other member carries it. -/
theorem revocation_complete_iff (hM : D.mls.Lawful) {s₀ s : RouteService D} {x : Incoming}
    {opened : OpenedMessage} {request : TunnelRequest} {m : Member} {d : Str} {grant : DeviceGrant}
    (hactive : s₀.session.Active) (hreach : (serveRoute D).Reachable s₀ s)
    (hm : m ∈ s.session.view.members) (hother : m.index ≠ s.session.view.ownLeaf)
    (hid : identityOf m.credential = .ok d) (hframe : isPairingFrame x.frame = false)
    (hopen : (s.session.openFrame x.frame).2 = .ok opened)
    (hdecode : D.wire.decode opened.plaintext = .ok request)
    (hmethod : request.method = ("DELETE" : Str))
    (hpath : request.path = ("/api/v1/local/devices/" : Str) ++ d)
    (hsender : opened.senderDeviceId ≠ d)
    (hgrant : s.registry.get opened.senderDeviceId = some grant) (howner : grant.role = .owner) :
    RevokedFully s x d ↔
      (d ≠ [] ∧ '/' ∉ d) ∧
        ∀ m' ∈ s.session.view.members, identityOf m'.credential = .ok d → m' = m := by
  have htarget := revocationTarget_eq hdecode hmethod hpath
  refine ⟨fun hfully => ?_, fun ⟨hname, hunique⟩ => ?_⟩
  · -- every member that carries `d` is the one the revocation takes out
    have hgone : ∀ m' ∈ s.session.view.members, identityOf m'.credential = .ok d →
        revocationTarget D.wire opened = some d ∧ firstWith s.session.view.members d = some m' := by
      intro m' hm' hid'
      obtain ⟨opened', target, hexpels⟩ :=
        removed_step hM hm' fun hstays => hfully.members m' hstays hid'
      obtain rfl : opened' = opened := by
        have he := hexpels.opens.symm.trans hopen
        cases he
        rfl
      have hid'' := (firstWith_spec hexpels.first).2
      rw [hid'] at hid''
      cases hid''
      exact ⟨hexpels.names, hexpels.first⟩
    refine ⟨?_, fun m' hm' hid' => ?_⟩
    · by_contra hname
      rw [if_neg hname] at htarget
      exact absurd (htarget.symm.trans (hgone m hm hid).1) (by simp)
    · exact Option.some.inj ((hgone m' hm' hid').2.symm.trans (hgone m hm hid).2)
  · rw [if_pos hname] at htarget
    have hexpels : Expels s x opened d m := ⟨hframe, hopen, htarget,
      managesMembers_iff.2 ⟨grant, hgrant, (authorize_manageMembers _ _).2 howner⟩, hsender.symm,
      firstWith_of_unique hm hid hunique, hother⟩
    have hactive' := hreach.invariant (P := fun s => s.session.Active) (active_step hM) hactive
    obtain ⟨hresponds, hsent, hview, hregistry⟩ := expels_step hM hactive' hexpels
    refine ⟨hresponds, fun halive => ⟨hresponds, hsent halive⟩, fun m' hm' hid' => ?_, ?_⟩
    · rw [hview] at hm'
      obtain ⟨hmem, hne⟩ := mem_removed.1 hm'
      exact hne (congrArg Member.index (hunique m' hmem hid'))
    · rw [hregistry, DeviceRegistry.get_remove, if_pos rfl]

section
open SmallPlatform

def phoneRevocation : TunnelRequest := request "DELETE" "/api/v1/local/devices/phone"

/-- The laptop's workspace with the phone in it and a code open. -/
def openWorkspace : RouteService (platform [phoneRevocation]) :=
  service _ (group ["laptop", "phone"])
    [("laptop", ⟨.owner, ∅⟩), ("phone", .newlyPaired)] (some secret)

theorem active_openWorkspace : openWorkspace.session.Active :=
  ⟨member 0 "host", by decide, rfl⟩

theorem revocation_complete_iff_phone :
    RevokedFully openWorkspace (sealedBy 3 "laptop" phoneRevocation) "phone" ↔
      (("phone" : Str) ≠ [] ∧ '/' ∉ ("phone" : Str)) ∧
        ∀ m' ∈ openWorkspace.session.view.members,
          identityOf m'.credential = .ok ("phone" : Str) → m' = member 2 "phone" :=
  have howner : openWorkspace.registry.get "laptop" = some ⟨.owner, ∅⟩ := by decide
  revocation_complete_iff SmallGroup.lawful active_openWorkspace (.inl rfl) (by decide +kernel)
    (by decide +kernel) (by decide +kernel) (by decide +kernel)
    (openFrame_sealedBy openWorkspace.session phoneRevocation (by decide +kernel))
    (decode_head phoneRevocation []) rfl (by decide) (by decide) howner rfl

/-- A second device that joins as `phone` stays when the owner revokes `phone`. -/
theorem revocation_leaves_namesake : ¬ ∀ (s₀ s : RouteService (platform [phoneRevocation]))
    (x : Incoming) (opened : OpenedMessage) (request : TunnelRequest) (m : Member) (d : Str)
    (grant : DeviceGrant), s₀.session.Active → (serveRoute _).Reachable s₀ s →
    m ∈ s.session.view.members → m.index ≠ s.session.view.ownLeaf →
    identityOf m.credential = .ok d → isPairingFrame x.frame = false →
    (s.session.openFrame x.frame).2 = .ok opened →
    (platform [phoneRevocation]).wire.decode opened.plaintext = .ok request →
    request.method = ("DELETE" : Str) →
    request.path = ("/api/v1/local/devices/" : Str) ++ d → opened.senderDeviceId ≠ d →
    s.registry.get opened.senderDeviceId = some grant → grant.role = .owner →
    RevokedFully s x d := by
  intro h
  let s := (serveFrame openWorkspace (pairingFrom "phone")).2
  have hreach : (serveRoute _).Reachable openWorkspace s :=
    .inr ⟨[pairingFrom "phone"], _, List.mem_cons_self, rfl⟩
  have hid : identityOf (.basic (ascii "laptop")) = .ok ("laptop" : Str) := by decide
  have hopen := openFrame_sealedBy s.session phoneRevocation hid
  have hfully := h openWorkspace s _ _ phoneRevocation (member 2 "phone") "phone" ⟨.owner, ∅⟩
    active_openWorkspace hreach (by decide +kernel) (by decide +kernel) (by decide +kernel)
    (by decide +kernel) hopen (decode_head phoneRevocation []) rfl (by decide +kernel)
    (by decide +kernel) (by decide +kernel) rfl
  exact hfully.members (member 3 "phone") (by decide +kernel) (by decide +kernel)

end

end LeaveCli.Host
