import LeaveCli.Crypto.Proof.SessionSpec
import LeaveCli.Host.RelayTunnel

/-!
# What one frame does to a route

`serveFrame_step` says once what one pass of the loop can do, over a lawful MLS: `FrameStep` has a
constructor for each branch, and every invariant of a route is read off it. `Quiet` is the frame
condition of the branches that change no membership, no grant and no pairing code.
-/

namespace LeaveCli.Host

open Lib Protocol Crypto Transport

variable {D : Platform}

/-- `s'` differs from `s` in its MLS secrets and the state behind the router alone. -/
structure Quiet (s s' : RouteService D) : Prop where
  client : s'.client = s.client
  identity : s'.session.identity = s.session.identity
  group : Evolves s.session.group s'.session.group
  registry : s'.registry = s.registry
  pairing : s'.pairing = s.pairing

theorem Quiet.refl (s : RouteService D) : Quiet s s := ⟨rfl, rfl, .refl, rfl, rfl⟩

theorem Quiet.trans {s₁ s₂ s₃ : RouteService D} (h₁ : Quiet s₁ s₂) (h₂ : Quiet s₂ s₃) :
    Quiet s₁ s₃ where
  client := h₂.client.trans h₁.client
  identity := h₂.identity.trans h₁.identity
  group := h₁.group.trans h₂.group
  registry := h₂.registry.trans h₁.registry
  pairing := h₂.pairing.trans h₁.pairing

theorem Quiet.view (hM : D.mls.Lawful) {s s' : RouteService D} (h : Quiet s s') :
    s'.session.view = s.session.view := h.group.view hM

/-! ## Checks of the tunnel -/

theorem permitted_iff {registry : DeviceRegistry} {d method path : Str} :
    permitted registry d method path = true ↔ ∃ grant, registry.get d = some grant ∧
      authorize grant.role grant.capabilities (actionFor method path) = true := by
  unfold permitted
  cases registry.get d <;> simp

theorem managesMembers_iff {registry : DeviceRegistry} {d : Str} :
    managesMembers registry d = true ↔ ∃ grant, registry.get d = some grant ∧
      authorize grant.role grant.capabilities .manageMembers = true := by
  simp [managesMembers, Option.any_eq_true]

/-- What reaches the router is a valid request that its sender may make, as `dispatch` builds it. -/
theorem handle_dispatched_iff {router : D.Router} {registry : DeviceRegistry}
    {opened : OpenedMessage} {httpRequest : HttpRequest} :
    (handle router registry opened : Handled D).dispatched = some httpRequest ↔
      ∃ request, D.wire.decode opened.plaintext = .ok request ∧ request.validate = .ok () ∧
        permitted registry opened.senderDeviceId request.method request.path = true ∧
        buildRequest D.http request = .ok httpRequest := by
  unfold handle
  cases hdecode : D.wire.decode opened.plaintext with
  | error e => simp
  | ok request =>
    simp only [Except.ok.injEq, exists_eq_left']
    cases hvalid : request.validate with
    | error e => simp
    | ok u =>
      cases hperm : permitted registry opened.senderDeviceId request.method request.path with
      | false => simp
      | true =>
        have hdispatched : (dispatch router request).2.1 = some httpRequest ↔
            buildRequest D.http request = .ok httpRequest := by
          unfold dispatch
          cases buildRequest D.http request with
          | error e => simp
          | ok built => simp
        rw [← hdispatched]
        simp only [Bool.not_true, Bool.false_eq_true, if_false, true_and]
        split
        · rename_i he
          rw [he]
        · rename_i he
          rw [he]

/-! ## Answers -/

/-- The answer went out sealed in `g`, which leaves `s'`. -/
def SealedIn (g : D.mls.Group) (o : Outcome) (s' : RouteService D) : Prop :=
  ∃ response payload message envelope, o.answer = some response ∧
    D.wire.encode response = .ok payload ∧
    (D.mls.createMessage g payload).2 = .ok message ∧
    D.mls.serialize message = .ok envelope.ciphertext ∧ o.sent = some envelope ∧
    s'.session.group = (D.mls.createMessage g payload).1

/-- Sealing and sending an answer changes nothing a later frame is judged by. Whether or not it
gets through, the answer is the one given. -/
theorem answerWith_spec (s : RouteService D) (x : Incoming) (d : Option HttpRequest)
    (response : TunnelResponse) :
    Quiet s (answerWith s x d response).2 ∧ (answerWith s x d response).2.router = s.router ∧
      (answerWith s x d response).1.dispatched = d ∧
      (answerWith s x d response).1.answer = some response ∧
      ((answerWith s x d response).1.failed = none →
        SealedIn s.session.group (answerWith s x d response).1
          (answerWith s x d response).2) := by
  unfold answerWith
  split
  · exact ⟨.refl s, rfl, rfl, rfl, nofun⟩
  rename_i payload hencode
  have hq : Quiet s { s with session := (s.session.sealFrame payload).1 } :=
    ⟨rfl, rfl, .create _ _ .refl, rfl, rfl⟩
  split
  · rename_i hs
    rw [hs] at hq
    exact ⟨hq, rfl, rfl, rfl, nofun⟩
  rename_i session frame hs
  obtain ⟨message, hcreate, hserialize⟩ := sealFrame_eq_ok.1 (congrArg Prod.snd hs)
  have hgroup : session.group = (D.mls.createMessage s.session.group payload).1 :=
    congrArg (fun sealed => sealed.1.group) hs.symm
  rw [hs] at hq
  split
  · exact ⟨hq, rfl, rfl, rfl, nofun⟩
  rename_i envelope hsend
  refine ⟨hq, rfl, rfl, rfl, fun _ => ⟨response, payload, message, envelope, rfl, hencode, hcreate,
    ?_, rfl, hgroup⟩⟩
  rw [(RelayClient.send_eq_ok hsend).1]
  exact hserialize

/-- A pass that sends ends no route, and the connection took what it sent. -/
theorem answerWith_sent (s : RouteService D) (x : Incoming) (d : Option HttpRequest)
    (response : TunnelResponse) : (answerWith s x d response).1.sent = none ∨
      (answerWith s x d response).1.failed = none ∧ x.connected = true := by
  unfold answerWith
  split
  · exact .inl rfl
  split
  · exact .inl rfl
  split
  · exact .inl rfl
  · rename_i hsend
    exact .inr ⟨rfl, (RelayClient.send_eq_ok hsend).2.2.2⟩

theorem serveFrame_sent (s : RouteService D) (x : Incoming) : (serveFrame s x).1.sent = none ∨
    (serveFrame s x).1.failed = none ∧ x.connected = true := by
  unfold serveFrame
  split
  · unfold servePairing
    split
    · exact .inl rfl
    split
    · exact .inl rfl
    split
    · exact .inl rfl
    · rename_i hsend
      exact .inr ⟨rfl, (RelayClient.send_eq_ok hsend).2.2.2⟩
  split
  · exact .inl rfl
  split
  · exact answerWith_sent _ _ _ _
  · exact answerWith_sent _ _ _ _

/-- What was sent was sent by a pass that ends no route, over a connection that is up. -/
theorem alive_of_sent {s : RouteService D} {x : Incoming} {envelope : RelayEnvelope}
    (h : (serveFrame s x).1.sent = some envelope) :
    (serveFrame s x).1.failed = none ∧ x.connected = true := by
  refine (serveFrame_sent s x).resolve_left fun hnone => ?_
  rw [hnone] at h
  cases h

/-! ## One pass of the loop -/

/-- A pairing request that carries the tag of its key package, and the device it let in. -/
structure Admits (s : RouteService D) (x : Incoming) (secret : PairingSecret) (keyPackage : Bytes)
    (k : D.mls.KeyPackage) (invitation : Invitation) (session : WorkspaceSession D.mls) :
    Prop where
  frame : isPairingFrame x.frame = true
  open_ : s.pairing = some secret
  requests : Requests x.frame keyPackage (secret.tag D.hash keyPackage)
  parsed : parseKeyPackage D.mls keyPackage = .ok k
  accepted : acceptPairing D.hash s.session x.frame secret = (session, .ok invitation)
  added : Added s.session session k

/-- A frame that opened, and the session after opening it. -/
structure Opens (s : RouteService D) (x : Incoming) (opened : OpenedMessage)
    (s₁ : RouteService D) : Prop where
  frame : isPairingFrame x.frame = false
  opened : s.session.openFrame x.frame = (s₁.session, .ok opened)
  quiet : Quiet s s₁
  heeds : Heeds s.session.group s₁.session.group
  router : s₁.router = s.router

/-- A revocation its sender may make, of a member other than the host. -/
structure Expels (s : RouteService D) (x : Incoming) (opened : OpenedMessage) (target : Str)
    (m : Member) : Prop where
  frame : isPairingFrame x.frame = false
  opens : (s.session.openFrame x.frame).2 = .ok opened
  names : revocationTarget D.wire opened = some target
  manages : managesMembers s.registry opened.senderDeviceId = true
  notSelf : target ≠ opened.senderDeviceId
  first : firstWith s.session.view.members target = some m
  notOwn : m.index ≠ s.session.view.ownLeaf

/-- Why a revocation of `target` was refused in `s`, and with which status. -/
def RefusedWith (s : RouteService D) (opened : OpenedMessage) (target : Str) (status : Nat) :
    Prop :=
  managesMembers s.registry opened.senderDeviceId = false ∧ status = 403 ∨
    managesMembers s.registry opened.senderDeviceId = true ∧
      (target = opened.senderDeviceId ∧ status = 400 ∨
        target ≠ opened.senderDeviceId ∧ (∃ e, (s.session.removeDevice target).2 = .error e) ∧
          status = 404)

theorem RefusedWith.ne {s : RouteService D} {opened : OpenedMessage} {target : Str} {status : Nat}
    (h : RefusedWith s opened target status) : status ≠ 204 := by
  rcases h with ⟨-, h⟩ | ⟨-, ⟨-, h⟩ | ⟨-, -, h⟩⟩
  · omega
  · omega
  · omega

/-- What one pass of the loop can do. -/
inductive FrameStep (s : RouteService D) (x : Incoming) (o : Outcome) (s' : RouteService D) : Prop
  /-- A pairing frame without an open code or without its tag, or a frame that does not open. -/
  | ignored (ho : o = {}) (hq : Quiet s s') (hg : Heeds s.session.group s'.session.group)
      (hr : s'.router = s.router)
  /-- A device joined, and the welcome did not get through. -/
  | unsent (secret : PairingSecret) (keyPackage : Bytes) (k : D.mls.KeyPackage)
      (invitation : Invitation) (hjoins : Admits s x secret keyPackage k invitation s'.session)
      (ho : o = { failed := o.failed }) (hfailed : o.failed.isSome = true)
      (hs : s' = { s with session := s'.session })
  /-- A device joined, and the code closed. -/
  | paired (secret : PairingSecret) (keyPackage : Bytes) (k : D.mls.KeyPackage)
      (invitation : Invitation) (envelope : RelayEnvelope)
      (hjoins : Admits s x secret keyPackage k invitation s'.session)
      (hsend : s.client.send x.connected (pairingWelcome invitation) = .ok envelope)
      (ho : o = { sent := some envelope })
      (hs : s' = { s with
        session := s'.session, registry := registerPaired s'.session s.registry, pairing := none })
  /-- A revocation took a member out. -/
  | revoked (opened : OpenedMessage) (target : Str) (m : Member) (s₁ : RouteService D)
      (commit : Bytes) (session : WorkspaceSession D.mls) (hopen : Opens s x opened s₁)
      (hexpels : Expels s x opened target m)
      (hremove : s₁.session.removeDevice target = (session, .ok commit))
      (hremoved : Removed s.session session m)
      (ho : o.dispatched = none ∧ ∃ r, o.answer = some r ∧ r.status = 204)
      (hq : Quiet { s with session, registry := (s.registry.remove target).1 } s')
      (hr : s'.router = s.router) (hsent : o.failed = none → SealedIn session.group o s')
  /-- A revocation was refused. -/
  | refused (opened : OpenedMessage) (target : Str) (s₁ : RouteService D)
      (hopen : Opens s x opened s₁) (htarget : revocationTarget D.wire opened = some target)
      (ho : o.dispatched = none ∧ ∃ r, o.answer = some r ∧ RefusedWith s₁ opened target r.status)
      (hq : Quiet s s') (hr : s'.router = s.router)
      (hsent : o.failed = none → SealedIn s₁.session.group o s')
  /-- Any other request was answered. -/
  | handled (opened : OpenedMessage) (s₁ : RouteService D) (hopen : Opens s x opened s₁)
      (htarget : revocationTarget D.wire opened = none)
      (ho : o.dispatched = (handle s.router s.registry opened : Handled D).dispatched ∧
        o.answer = some (handle s.router s.registry opened : Handled D).response)
      (hq : Quiet s s')
      (hr : s'.router = (handle s.router s.registry opened : Handled D).router)
      (hsent : o.failed = none → SealedIn s₁.session.group o s')

theorem serveRequest_step {s s₁ : RouteService D} {x : Incoming} {opened : OpenedMessage}
    (hopen : Opens s x opened s₁) (htarget : revocationTarget D.wire opened = none) :
    FrameStep s x (serveRequest s₁ x opened).1 (serveRequest s₁ x opened).2 := by
  have hhandle : (handle s₁.router s₁.registry opened : Handled D) =
      handle s.router s.registry opened := by rw [hopen.router, hopen.quiet.registry]
  unfold serveRequest
  simp only [hhandle]
  obtain ⟨hq, hr, hd, ha, hsent⟩ := answerWith_spec
    { s₁ with router := (handle s.router s.registry opened : Handled D).router } x
    (handle s.router s.registry opened : Handled D).dispatched
    (handle s.router s.registry opened : Handled D).response
  exact .handled opened s₁ hopen htarget ⟨hd, ha⟩
    (hopen.quiet.trans ⟨hq.client, hq.identity, hq.group, hq.registry, hq.pairing⟩) hr hsent

section
variable (hM : D.mls.Lawful)
include hM

theorem servePairing_step (s : RouteService D) (x : Incoming) (hf : isPairingFrame x.frame = true) :
    FrameStep s x (servePairing s x).1 (servePairing s x).2 := by
  unfold servePairing
  split
  · exact .ignored rfl (.refl s) .refl rfl
  rename_i secret hp
  rcases acceptPairing_cases hM D.hash s.session x.frame secret with
    ⟨e, he⟩ | ⟨keyPackage, k, session, invitation, hr, hk, ha, hadd⟩
  · simp only [he]
    exact .ignored rfl (.refl s) .refl rfl
  simp only [ha]
  have hjoins : Admits s x secret keyPackage k invitation session := ⟨hf, hp, hr, hk, ha, hadd⟩
  split
  · exact .unsent secret keyPackage k invitation hjoins rfl rfl rfl
  · rename_i envelope hsend
    exact .paired secret keyPackage k invitation envelope hjoins hsend rfl rfl

theorem serveRevocation_step {s s₁ : RouteService D} {x : Incoming} {opened : OpenedMessage}
    {target : Str} (hopen : Opens s x opened s₁)
    (htarget : revocationTarget D.wire opened = some target) :
    FrameStep s x (serveRevocation s₁ x opened target).1
      (serveRevocation s₁ x opened target).2 := by
  have hrefuse : ∀ response : TunnelResponse, RefusedWith s₁ opened target response.status →
      FrameStep s x (answerWith s₁ x none response).1 (answerWith s₁ x none response).2 := by
    intro response hstatus
    obtain ⟨hq, hr, hd, ha, hsent⟩ := answerWith_spec s₁ x none response
    exact .refused opened target s₁ hopen htarget ⟨hd, response, ha, hstatus⟩
      (hopen.quiet.trans hq) (hr.trans hopen.router) hsent
  unfold serveRevocation revoke
  by_cases hm : managesMembers s₁.registry opened.senderDeviceId = true
  case neg =>
    simp only [hm, Bool.not_false, if_true]
    exact hrefuse _ (.inl ⟨by simpa using hm, rfl⟩)
  by_cases hself : target = opened.senderDeviceId
  · simp only [hm, Bool.not_true, Bool.false_eq_true, if_false, if_pos hself]
    exact hrefuse _ (.inr ⟨hm, .inl ⟨hself, rfl⟩⟩)
  simp only [hm, Bool.not_true, Bool.false_eq_true, if_false, if_neg hself]
  have hview := hopen.quiet.view hM
  rcases removeDevice_cases hM s₁.session target with
    ⟨e, he⟩ | ⟨m, session, commit, hf, hremove, hremoved⟩
  · simp only [he]
    exact hrefuse _ (.inr ⟨hm, .inr ⟨hself, ⟨e, by rw [he]⟩, rfl⟩⟩)
  simp only [hremove]
  rw [hopen.quiet.registry] at hm
  rw [hview] at hf
  have hremoved' : Removed s.session session m := ⟨hremoved.identity.trans hopen.quiet.identity,
    hview ▸ hremoved.view, hview ▸ hremoved.notOwn⟩
  have hexpels : Expels s x opened target m := ⟨hopen.frame, congrArg Prod.snd hopen.opened,
    htarget, hm, hself, hf, hremoved'.notOwn⟩
  obtain ⟨hq, hr, hd, ha, hsent⟩ := answerWith_spec
    { s₁ with session, registry := (s₁.registry.remove target).1 } x none
    { version := tunnelVersion, exchangeId := exchangeIdOf D.wire opened, status := 204,
      headers := ∅, body := [] }
  refine .revoked opened target m s₁ commit session hopen hexpels hremove hremoved' ⟨hd, _, ha, rfl⟩
    ⟨?_, hq.identity, hq.group, ?_, ?_⟩ (hr.trans hopen.router) hsent
  · exact hq.client.trans hopen.quiet.client
  · exact hq.registry.trans (by rw [hopen.quiet.registry])
  · exact hq.pairing.trans hopen.quiet.pairing

/-- Every pass of the loop is one of the steps of `FrameStep`. -/
theorem serveFrame_step (s : RouteService D) (x : Incoming) :
    FrameStep s x (serveFrame s x).1 (serveFrame s x).2 := by
  unfold serveFrame
  by_cases hf : isPairingFrame x.frame = true
  · rw [if_pos hf]
    exact servePairing_step hM s x hf
  rw [if_neg hf]
  obtain ⟨hgroup, hid⟩ := openFrame_heeds s.session x.frame
  have hq : Quiet s { s with session := (s.session.openFrame x.frame).1 } :=
    ⟨rfl, hid, hgroup.evolves, rfl, rfl⟩
  split
  · rename_i session e ho
    rw [ho] at hq hgroup
    exact .ignored rfl hq hgroup rfl
  rename_i session opened ho
  rw [ho] at hq hgroup
  have hopen : Opens s x opened { s with session } := ⟨by simpa using hf, ho, hq, hgroup, rfl⟩
  split
  · rename_i target htarget
    exact serveRevocation_step hM hopen htarget
  · rename_i htarget
    exact serveRequest_step hopen htarget

end

end LeaveCli.Host
