import LeaveCli.Host.Proof.AnswerSize

/-!
# Invalid requests

A revocation is carried out before its request is validated. `invalid_request_inert_iff` says which
invalid requests are answered 400, with an answer that gets through, and change nothing.
-/

namespace LeaveCli.Host

open Lib Protocol Crypto Transport

variable {D : Platform}

/-- The plaintext is no request, or one that `validate` refuses. -/
def Invalid (D : Platform) (opened : OpenedMessage) : Prop :=
  ∀ request, D.wire.decode opened.plaintext = .ok request → request.validate ≠ .ok ()

/-- Group, grants, pairing code and router are left as they were. -/
def Inert (s s' : RouteService D) : Prop := Quiet s s' ∧ s'.router = s.router

theorem handle_invalid (router : D.Router) (registry : DeviceRegistry) {opened : OpenedMessage}
    (h : Invalid D opened) :
    (handle router registry opened : Handled D).router = router ∧
      (handle router registry opened : Handled D).response.status = 400 := by
  unfold handle
  cases hdecode : D.wire.decode opened.plaintext with
  | error e => exact ⟨rfl, rfl⟩
  | ok request =>
    cases hvalid : request.validate with
    | error e => exact ⟨by simp only [hvalid], by simp only [hvalid, refusal_status]⟩
    | ok u => exact absurd hvalid (h request hdecode)

/-- The answer to an invalid request is 400 and nothing changes exactly when it does not look like a
revocation, or is an owner's of its own device: `revoke` runs before `validate`. -/
theorem responds_inert_iff (hM : D.mls.Lawful) {s : RouteService D} {x : Incoming}
    {opened : OpenedMessage} (hframe : isPairingFrame x.frame = false)
    (hopen : (s.session.openFrame x.frame).2 = .ok opened) (hinvalid : Invalid D opened) :
    (Responds (serveFrame s x).1 400 ∧ Inert s (serveFrame s x).2) ↔
      revocationTarget D.wire opened = none ∨
        managesMembers s.registry opened.senderDeviceId = true ∧
          revocationTarget D.wire opened = some opened.senderDeviceId := by
  have hsame : ∀ {opened' s₁}, Opens s x opened' s₁ → opened' = opened := by
    intro opened' s₁ h
    have he := (congrArg Prod.snd h.opened).symm.trans hopen
    cases he
    rfl
  have hstep := serveFrame_step hM s x
  cases hstep with
  | ignored ho =>
    obtain ⟨r, ha⟩ := serveFrame_answered hframe hopen
    exact absurd ((congrArg Outcome.answer ho).symm.trans ha) (by simp)
  | unsent secret keyPackage k invitation hjoins =>
    exact absurd (hframe.symm.trans hjoins.frame) (by simp)
  | paired secret keyPackage k invitation envelope hjoins =>
    exact absurd (hframe.symm.trans hjoins.frame) (by simp)
  | handled opened' s₁ h htarget ho hq hr =>
    obtain rfl := hsame h
    obtain ⟨hrouter, hstatus⟩ := handle_invalid s.router s.registry hinvalid
    exact iff_of_true ⟨⟨_, ho.2, hstatus⟩, hq, hr.trans hrouter⟩ (.inl htarget)
  | refused opened' target s₁ h htarget ho hq hr =>
    obtain rfl := hsame h
    obtain ⟨-, r, ha, hrefused⟩ := ho
    have hresponds : Responds (serveFrame s x).1 400 ↔ r.status = 400 :=
      ⟨fun h => h.unique ⟨r, ha, rfl⟩ ▸ rfl, fun h => ⟨r, ha, h⟩⟩
    rw [hresponds, htarget, and_iff_left ⟨hq, hr⟩]
    unfold RefusedWith at hrefused
    rw [h.quiet.registry] at hrefused
    rcases hrefused with ⟨hm, hr⟩ | ⟨hm, ⟨hself, hr⟩ | ⟨hself, -, hr⟩⟩
    · simp [hr, hm]
    · simp [hr, hm, hself]
    · simp [hr, hself]
  | revoked opened' target m s₁ commit session h hexpels hremove hremoved ho =>
    obtain rfl := hsame h
    refine iff_of_false ?_ ?_
    · intro hcase
      obtain ⟨h400, -⟩ := hcase
      exact absurd (h400.unique ho.2) (by decide)
    · simp [hexpels.names, hexpels.notSelf]

section
variable (hM : D.mls.Lawful)
  (hwire : ∀ response, D.wire.encode response = .ok (encodeResponse response))
  {overhead : Nat → Nat} (hseal : D.mls.Seals overhead) {s : RouteService D} {x : Incoming}
  {opened : OpenedMessage}
include hM hwire hseal

/-- The answer to a frame that opens gets through exactly when the connection takes it and it fits
the relay. -/
theorem sealedIn_iff (hactive : s.session.Active) (hframe : isPairingFrame x.frame = false)
    (hopen : (s.session.openFrame x.frame).2 = .ok opened) :
    (∃ g, SealedIn g (serveFrame s x).1 (serveFrame s x).2) ↔ x.connected = true ∧
      answerLength s opened + overhead (answerLength s opened) ≤ maxCiphertextBytes := by
  constructor
  · rintro ⟨g, response, payload, message, envelope, -, -, -, -, hsent, -⟩
    obtain ⟨halive, hup⟩ := alive_of_sent hsent
    have hfits := (serveFrame_served_iff hM hwire hseal hactive hup).1 (served_of_alive hM halive)
    exact ⟨hup, hfits.answer hframe opened hopen⟩
  · rintro ⟨hup, hlength⟩
    have hfits : Fits overhead s x := by
      refine ⟨fun _ opened' hopen' => ?_, fun secret keyPackage k staged commit welcome w hsecret
        hr => ?_⟩
      · cases hopen.symm.trans hopen'
        exact hlength
      · exact absurd (hframe.symm.trans hr.isPairingFrame) (by simp)
    have hserved := (serveFrame_served_iff hM hwire hseal hactive hup).2 hfits
    exact sealedIn_of_alive hM hserved.alive hframe hopen

/-- An invalid request is answered 400 and changes nothing exactly when it does not look like a
revocation, or is an owner's of its own device, and its answer gets through. -/
theorem invalid_request_inert_iff (hactive : s.session.Active)
    (hframe : isPairingFrame x.frame = false)
    (hopen : (s.session.openFrame x.frame).2 = .ok opened) (hinvalid : Invalid D opened) :
    (Answers (serveFrame s x).1 (serveFrame s x).2 400 ∧ Inert s (serveFrame s x).2) ↔
      (revocationTarget D.wire opened = none ∨
        managesMembers s.registry opened.senderDeviceId = true ∧
          revocationTarget D.wire opened = some opened.senderDeviceId) ∧
      x.connected = true ∧
        answerLength s opened + overhead (answerLength s opened) ≤ maxCiphertextBytes := by
  rw [← responds_inert_iff hM hframe hopen hinvalid,
    ← sealedIn_iff hM hwire hseal hactive hframe hopen, Answers]
  exact and_right_comm

end

section
open SmallPlatform

/-- The phone asks for a path outside the local API, and is answered 400. -/
theorem invalid_request_inert_iff_phone :
    let s := framedService (rootRequest "1")
    let x := framedBy (rootRequest "1")
    let opened : OpenedMessage := ⟨"phone", encodeRequest (rootRequest "1")⟩
    ((Answers (serveFrame s x).1 (serveFrame s x).2 400 ∧ Inert s (serveFrame s x).2) ↔
      (revocationTarget (framed (rootRequest "1")).wire opened = none ∨
        managesMembers s.registry opened.senderDeviceId = true ∧
          revocationTarget (framed (rootRequest "1")).wire opened =
            some opened.senderDeviceId) ∧
      x.connected = true ∧
        answerLength s opened + SmallFrames.overhead (answerLength s opened) ≤
          maxCiphertextBytes) ∧
      revocationTarget (framed (rootRequest "1")).wire opened = none ∧
        answerLength s opened = 160 := by
  intro s x opened
  have hdecode : (framed (rootRequest "1")).wire.decode opened.plaintext = .ok (rootRequest "1") :=
    if_pos rfl
  have hinvalid : Invalid (framed (rootRequest "1")) opened := by
    intro request h
    cases hdecode.symm.trans h
    decide
  exact ⟨invalid_request_inert_iff SmallFrames.lawful (fun _ => rfl) SmallFrames.seals
    (framedService_active _) (isPairingFrame_framedBy _) (openFrame_framedBy (by decide +kernel))
    hinvalid, by decide +kernel, by decide +kernel⟩

/-- An owner's revocation of the phone, in a tunnel version to come. -/
def futureRevocation : TunnelRequest :=
  { request "DELETE" "/api/v1/local/devices/phone" with version := 99 }

def laptopAndPhone : RouteService (platform [futureRevocation]) :=
  service _ (group ["laptop", "phone"])
    [("laptop", ⟨.owner, ∅⟩), ("phone", .newlyPaired)] none

theorem invalid_futureRevocation {deviceId : Str} :
    Invalid (platform [futureRevocation]) ⟨deviceId, jsonRequest futureRevocation⟩ := by
  intro request hdecode
  have hrequest : futureRevocation = request :=
    Except.ok.inj ((decode_head futureRevocation []).symm.trans hdecode)
  rw [← hrequest]
  decide

/-- The owner's revocation of an unsupported version is carried out and answered 204. -/
theorem invalid_revocation_served : ¬ ∀ (s : RouteService (platform [futureRevocation]))
    (x : Incoming) (opened : OpenedMessage), s.session.Active → x.connected = true →
    isPairingFrame x.frame = false → (s.session.openFrame x.frame).2 = .ok opened →
    Invalid (platform [futureRevocation]) opened →
    Answers (serveFrame s x).1 (serveFrame s x).2 400 ∧ Inert s (serveFrame s x).2 := by
  intro h
  have hinert := h laptopAndPhone (sealedBy 3 "laptop" futureRevocation) _
    ⟨member 0 "host", List.mem_cons_self, rfl⟩ rfl (by decide +kernel)
    (openFrame_sealedBy laptopAndPhone.session futureRevocation (by decide +kernel))
    invalid_futureRevocation
  have hmembers := congrArg (fun v => v.members.length) (hinert.2.1.view SmallGroup.lawful)
  exact absurd hmembers (by decide +kernel)

end

end LeaveCli.Host
