import LeaveCli.Crypto.SmallFrames
import LeaveCli.Host.Proof.Revocation
import LeaveCli.Protocol.Json

/-!
# Answers that fit the relay

An answer repeats the exchange id of its request and is encoded and sealed again, and `send` takes
at most `maxCiphertextBytes` bytes. `answerLength` is the length of the answer a route gives to an
opened frame, as a function of the request and of what the router answers: the escaped exchange
id, the router's headers, the base64 text of the body. `route_answers_iff` says in which runs every
opened frame is answered and no pass ends the route.
-/

namespace LeaveCli.Host

open Lib Protocol Crypto Transport

variable {D : Platform}

/-! ## The length of an answer -/

/-- The length of a refusal of the given exchange. -/
def refusalLength (exchangeId : Str) (status : Nat) (message : Str) : Nat :=
  responseLength exchangeId status (refusal [] status message).headers
    (refusal [] status message).body.length

theorem refusalLength_eq (exchangeId : Str) (status : Nat) (message : Str) :
    refusalLength exchangeId status message =
      escapedLength exchangeId + refusalLength [] status message := by
  have hempty : escapedLength [] = 0 := escapedLength_of_plain (fun _ hc => nomatch hc)
  simp only [refusalLength, responseLength, hempty]
  omega

/-- The length of what `handle` answers. -/
def handledLength (s : RouteService D) (opened : OpenedMessage) : Nat :=
  match D.wire.decode opened.plaintext with
  | .error _ => refusalLength "unknown" 400 "malformed request"
  | .ok request => match request.validate with
    | .error error => refusalLength request.exchangeId 400 error.message
    | .ok () =>
      if !permitted s.registry opened.senderDeviceId request.method request.path then
        refusalLength request.exchangeId 403 "this device is not allowed to do that"
      else match (dispatch s.router request).2.2 with
        | .ok answer =>
          responseLength request.exchangeId answer.status answer.headers answer.body.length
        | .error _ =>
          refusalLength request.exchangeId 500 "the host could not complete that request"

/-- `remove_device` can take out the device: its first leaf is not the host's own. -/
def removable {M : Mls} (session : WorkspaceSession M) (target : Str) : Bool :=
  (firstWith session.view.members target).any fun m => m.index ≠ session.view.ownLeaf

/-- The length of what `revoke` answers. -/
def revokedLength (s : RouteService D) (opened : OpenedMessage) (target : Str) : Nat :=
  let exchangeId := exchangeIdOf D.wire opened
  if !managesMembers s.registry opened.senderDeviceId then
    refusalLength exchangeId 403 "only a workspace owner may revoke a device"
  else if target = opened.senderDeviceId then
    refusalLength exchangeId 400 "a device cannot revoke itself"
  else if removable s.session target then responseLength exchangeId 204 ∅ 0
  else refusalLength exchangeId 404 "that device is not a member of this workspace"

/-- The length of the answer to an opened frame. -/
def answerLength (s : RouteService D) (opened : OpenedMessage) : Nat :=
  match revocationTarget D.wire opened with
  | some target => revokedLength s opened target
  | none => handledLength s opened

/-- What a frame asks of `s` goes through the relay: the answer to it, or the welcome of the device
it lets in. -/
structure Fits (overhead : Nat → Nat) (s : RouteService D) (x : Incoming) : Prop where
  answer : isPairingFrame x.frame = false → ∀ opened,
    (s.session.openFrame x.frame).2 = .ok opened →
    answerLength s opened + overhead (answerLength s opened) ≤ maxCiphertextBytes
  welcome : ∀ secret keyPackage k staged commit welcome w, s.pairing = some secret →
    Requests x.frame keyPackage (secret.tag D.hash keyPackage) →
    parseKeyPackage D.mls keyPackage = .ok k →
    D.mls.addMembers s.session.group k = .ok (staged, commit, welcome) →
    D.mls.serialize welcome = .ok w → w.length + 14 ≤ maxCiphertextBytes

/-- The pass ended no route, and answered what it opened. -/
structure Served (s : RouteService D) (x : Incoming) (o : Outcome) : Prop where
  alive : o.failed = none
  answered : isPairingFrame x.frame = false → ∀ opened,
    (s.session.openFrame x.frame).2 = .ok opened →
    ∃ response envelope, o.answer = some response ∧ o.sent = some envelope

/-! ## What is answered has that length -/

theorem encodeResponse_refusal (exchangeId : Str) (status : Nat) (message : Str) :
    (encodeResponse (refusal exchangeId status message)).length =
      refusalLength exchangeId status message :=
  encodeResponse_length rfl

theorem dispatch_ok {router : D.Router} {request : TunnelRequest} {response : TunnelResponse}
    (h : (dispatch router request).2.2 = .ok response) :
    response.version = tunnelVersion ∧ response.exchangeId = request.exchangeId := by
  unfold dispatch at h
  split at h
  · cases h
  dsimp only at h
  split at h
  · cases h
  split at h
  · cases h
  · cases h
    exact ⟨rfl, rfl⟩

theorem handle_length (s : RouteService D) (opened : OpenedMessage) :
    (encodeResponse (handle s.router s.registry opened : Handled D).response).length =
      handledLength s opened := by
  unfold handle handledLength
  cases D.wire.decode opened.plaintext with
  | error e => exact encodeResponse_refusal _ _ _
  | ok request =>
    dsimp only
    cases request.validate with
    | error e => exact encodeResponse_refusal _ _ _
    | ok u =>
      dsimp only
      split
      · exact encodeResponse_refusal _ _ _
      rcases hdispatch : dispatch s.router request with ⟨router, dispatched, answer⟩
      cases answer with
      | error e => exact encodeResponse_refusal _ _ _
      | ok response =>
        obtain ⟨hversion, hid⟩ := dispatch_ok (congrArg (fun p => p.2.2) hdispatch)
        rw [← hid]
        exact encodeResponse_length hversion

/-- The host answers at the length `revokedLength` says, opens the frame or not before. -/
theorem revoke_length (hM : D.mls.Lawful) {s s₁ : RouteService D} (hq : Quiet s s₁)
    (hactive : s.session.Active) (opened : OpenedMessage) (target : Str) :
    (encodeResponse (revoke s₁.session s₁.registry opened target).2.2).length =
      revokedLength s opened target := by
  have hview := hq.view hM
  unfold revoke revokedLength
  rw [hq.registry]
  dsimp only
  split
  · exact encodeResponse_refusal _ _ _
  split
  · exact encodeResponse_refusal _ _ _
  rcases removeDevice_cases hM s₁.session target with
    ⟨e, he⟩ | ⟨m, session, commit, hf, hremove, hremoved⟩
  · have hno : removable s.session target = false := by
      by_contra hyes
      obtain ⟨m, hf, hown⟩ : ∃ m, firstWith s.session.view.members target = some m ∧
          m.index ≠ s.session.view.ownLeaf := by
        simpa [removable, Option.any_eq_true] using hyes
      have hactive₁ : s₁.session.Active := by
        rw [WorkspaceSession.Active, hview]
        exact hactive
      obtain ⟨s', commit, hremove, -⟩ := removeDevice_ok hM hactive₁ (hview ▸ hf) (hview ▸ hown)
      rw [hremove] at he
      cases he
    rw [he, hno]
    exact encodeResponse_refusal _ _ _
  · have hyes : removable s.session target = true := by
      rw [hview] at hf
      have hown := hremoved.notOwn
      rw [hview] at hown
      simp [removable, hf, hown]
    rw [hremove, hyes]
    exact encodeResponse_length rfl

/-! ## One pass of the loop -/

/-- What opens is answered unless the route ends over it. -/
theorem sealedIn_of_alive (hM : D.mls.Lawful) {s : RouteService D} {x : Incoming}
    {opened : OpenedMessage} (halive : (serveFrame s x).1.failed = none)
    (hframe : isPairingFrame x.frame = false)
    (hopen : (s.session.openFrame x.frame).2 = .ok opened) :
    ∃ g, SealedIn g (serveFrame s x).1 (serveFrame s x).2 := by
  have hstep := serveFrame_step hM s x
  cases hstep with
  | ignored ho =>
    obtain ⟨r, ha⟩ := serveFrame_answered hframe hopen
    exact absurd ((congrArg Outcome.answer ho).symm.trans ha) (by simp)
  | unsent secret keyPackage k invitation hjoins =>
    exact absurd (hframe.symm.trans hjoins.frame) (by simp)
  | paired secret keyPackage k invitation envelope hjoins =>
    exact absurd (hframe.symm.trans hjoins.frame) (by simp)
  | revoked opened' target m s₁ commit session h hexpels hremove hremoved ho hq hr hsent =>
    exact ⟨_, hsent halive⟩
  | refused opened' target s₁ h htarget ho hq hr hsent => exact ⟨_, hsent halive⟩
  | handled opened' s₁ h htarget ho hq hr hsent => exact ⟨_, hsent halive⟩

/-- A pass that ends no route answers what it opens. -/
theorem served_of_alive (hM : D.mls.Lawful) {s : RouteService D} {x : Incoming}
    (halive : (serveFrame s x).1.failed = none) : Served s x (serveFrame s x).1 := by
  refine ⟨halive, fun hframe opened hopen => ?_⟩
  obtain ⟨g, response, -, -, envelope, ha, -, -, -, hs, -⟩ :=
    sealedIn_of_alive hM halive hframe hopen
  exact ⟨response, envelope, ha, hs⟩

theorem encodeResponse_ne_nil (response : TunnelResponse) : encodeResponse response ≠ [] := by
  intro hnil
  unfold encodeResponse responseText at hnil
  simp only [Str.utf8_append, List.append_eq_nil_iff] at hnil
  have hclose : (Str.utf8 ("\x7d" : Str)).length = 1 := Str.length_utf8_of_ascii (by decide)
  rw [hnil.2] at hclose
  cases hclose

theorem length_pairingWelcome (invitation : Invitation) :
    (pairingWelcome invitation).length = invitation.welcome.length + 14 := by
  simp only [pairingWelcome, putBytes, putHeader, magic, toBeBytes, List.length_append,
    List.length_cons, List.length_nil]
  omega

/-- While the connection is up, the length decides whether a frame goes out. -/
theorem send_ok_iff (client : RelayClient) {frame : Bytes} (hne : frame ≠ []) :
    (∃ envelope, client.send true frame = .ok envelope) ↔ frame.length ≤ maxCiphertextBytes := by
  unfold RelayClient.send
  rw [if_neg hne]
  by_cases hsize : frame.length > maxCiphertextBytes
  · rw [if_pos hsize]
    simp only [reduceCtorEq, exists_false, false_iff]
    omega
  · rw [if_neg hsize]
    simp only [Bool.not_true, Bool.false_eq_true, if_false, Except.ok.injEq, exists_eq', true_iff]
    omega

section
variable (hM : D.mls.Lawful)
  (hwire : ∀ response, D.wire.encode response = .ok (encodeResponse response))
  {overhead : Nat → Nat} (hseal : D.mls.Seals overhead)

include hwire hseal in
/-- An answer goes out exactly when it fits the relay. -/
theorem answerWith_alive_iff {s : RouteService D} {x : Incoming} (hactive : s.session.Active)
    (hup : x.connected = true) (d : Option HttpRequest) (response : TunnelResponse) :
    (answerWith s x d response).1.failed = none ↔
      (encodeResponse response).length + overhead (encodeResponse response).length ≤
        maxCiphertextBytes := by
  obtain ⟨message, frame, hcreate, hserialize, hlength⟩ :=
    hseal.seals s.session.group (encodeResponse response) hactive
  have hframe : frame ≠ [] := by
    intro hnil
    have hne := List.length_pos_iff.2 (encodeResponse_ne_nil response)
    rw [hnil, List.length_nil] at hlength
    omega
  have hsealed : (s.session.sealFrame (encodeResponse response)).2 = .ok frame :=
    sealFrame_eq_ok.2 ⟨message, hcreate, hserialize⟩
  rcases hs : s.session.sealFrame (encodeResponse response) with ⟨session, sealed⟩
  rw [hs] at hsealed
  dsimp only at hsealed
  subst hsealed
  unfold answerWith
  simp only [hwire, hs, hup]
  rw [← hlength, ← send_ok_iff s.client hframe]
  cases s.client.send true frame with
  | error e => simp
  | ok envelope => simp

/-- A pairing request with the open code's tag for a key package the group takes is accepted, with
the welcome OpenMLS wrote for it. -/
theorem acceptPairing_welcome (hM : D.mls.Lawful) {s : WorkspaceSession D.mls}
    {frame keyPackage w : Bytes} {secret : PairingSecret} {k : D.mls.KeyPackage} {staged}
    {commit welcome : D.mls.MessageOut}
    (hr : Requests frame keyPackage (secret.tag D.hash keyPackage))
    (hk : parseKeyPackage D.mls keyPackage = .ok k)
    (ha : D.mls.addMembers s.group k = .ok (staged, commit, welcome))
    (hw : D.mls.serialize welcome = .ok w) :
    ∃ s' commit, acceptPairing D.hash s frame secret = (s', .ok ⟨commit, w⟩) := by
  obtain ⟨g', c, w', hmerge, -, hc, hw'⟩ := hM.add_ok _ _ _ _ _ ha
  obtain rfl : w' = w := Except.ok.inj (hw'.symm.trans hw)
  refine ⟨{ s with group := g' }, c, ?_⟩
  rw [acceptPairing_of_requests hr, WorkspaceSession.addDevice, hk]
  simp only [ha, hmerge, encodeMessage_ok.2 hc, encodeMessage_ok.2 hw']

include hM in
/-- A pairing frame ends the route exactly when the welcome it earns does not fit. -/
theorem servePairing_alive_iff {s : RouteService D} {x : Incoming} (hup : x.connected = true)
    (hframe : isPairingFrame x.frame = true) :
    (servePairing s x).1.failed = none ↔ Fits overhead s x := by
  have hanswer : isPairingFrame x.frame = false → ∀ opened,
      (s.session.openFrame x.frame).2 = .ok opened →
      answerLength s opened + overhead (answerLength s opened) ≤ maxCiphertextBytes := by
    intro hno
    rw [hframe] at hno
    cases hno
  unfold servePairing
  cases hp : s.pairing with
  | none =>
    refine iff_of_true rfl ⟨hanswer, fun secret _ _ _ _ _ _ hsecret => ?_⟩
    rw [hp] at hsecret
    cases hsecret
  | some secret =>
    rcases acceptPairing_cases hM D.hash s.session x.frame secret with
      ⟨e, he⟩ | ⟨keyPackage, k, session, invitation, hr, hk, ha, hadd⟩
    · simp only [he]
      refine iff_of_true trivial ⟨hanswer, fun secret' _ _ _ _ _ _ hsecret hr hk hadd hw => ?_⟩
      obtain rfl : secret = secret' := Option.some.inj (hp.symm.trans hsecret)
      obtain ⟨s', c, haccept⟩ := acceptPairing_welcome hM hr hk hadd hw
      rw [he] at haccept
      cases haccept
    simp only [ha, hup]
    have hne : pairingWelcome invitation ≠ [] := by
      have hlength := length_pairingWelcome invitation
      intro hnil
      rw [hnil, List.length_nil] at hlength
      omega
    have hsize := send_ok_iff s.client hne
    rw [length_pairingWelcome] at hsize
    cases hsend : s.client.send true (pairingWelcome invitation) with
    | error e =>
      refine iff_of_false (by simp) fun hfits => ?_
      have hdevice := (acceptPairing_of_requests hr).symm.trans ha
      obtain ⟨k', staged, commit, welcome, hk', hadd', -, hw⟩ := addDevice_eq_ok hdevice
      obtain ⟨envelope, hok⟩ :=
        hsize.2 (hfits.welcome secret keyPackage k' staged commit welcome _ hp hr hk' hadd' hw)
      rw [hsend] at hok
      cases hok
    | ok envelope =>
      refine iff_of_true rfl ⟨hanswer, ?_⟩
      intro secret' keyPackage' k' staged commit welcome w hsecret hr' hk' hadd' hw'
      obtain rfl : secret = secret' := Option.some.inj (hp.symm.trans hsecret)
      obtain ⟨s', c, haccept⟩ := acceptPairing_welcome hM hr' hk' hadd' hw'
      rw [ha] at haccept
      cases haccept
      exact hsize.1 ⟨envelope, hsend⟩

include hM hwire hseal in
/-- A pass ends no route and answers what it opens exactly when what the frame asks for fits. -/
theorem serveFrame_served_iff {s : RouteService D} {x : Incoming} (hactive : s.session.Active)
    (hup : x.connected = true) :
    Served s x (serveFrame s x).1 ↔ Fits overhead s x := by
  have halive : Served s x (serveFrame s x).1 ↔ (serveFrame s x).1.failed = none :=
    ⟨fun h => h.alive, served_of_alive hM⟩
  rw [halive]
  by_cases hframe : isPairingFrame x.frame = true
  · rw [serveFrame, if_pos hframe]
    exact servePairing_alive_iff hM hup hframe
  have hframe' : isPairingFrame x.frame = false := by simpa using hframe
  have hwelcome : ∀ secret keyPackage k staged commit welcome w, s.pairing = some secret →
      Requests x.frame keyPackage (secret.tag D.hash keyPackage) →
      parseKeyPackage D.mls keyPackage = .ok k →
      D.mls.addMembers s.session.group k = .ok (staged, commit, welcome) →
      D.mls.serialize welcome = .ok w → w.length + 14 ≤ maxCiphertextBytes := by
    intro secret keyPackage k staged commit welcome w hsecret hr
    exact absurd hr.isPairingFrame hframe
  rw [serveFrame, if_neg hframe]
  rcases ho : s.session.openFrame x.frame with ⟨session, e | opened⟩
  · dsimp only
    refine iff_of_true rfl ⟨fun _ opened hopened => ?_, hwelcome⟩
    rw [ho] at hopened
    cases hopened
  obtain ⟨hgroup, hid⟩ := openFrame_heeds s.session x.frame
  rw [ho] at hgroup hid
  have hq : Quiet s { s with session } := ⟨rfl, hid, hgroup.evolves, rfl, rfl⟩
  have hactive₁ : session.Active := by
    have hview : session.view = s.session.view := hq.view hM
    rw [WorkspaceSession.Active, hview]
    exact hactive
  have hanswered : ∀ (s₁ : RouteService D) (d : Option HttpRequest) (response : TunnelResponse),
      s₁.session.Active → (encodeResponse response).length = answerLength s opened →
      ((answerWith s₁ x d response).1.failed = none ↔ Fits overhead s x) := by
    intro s₁ d response hactive' hlength
    rw [answerWith_alive_iff hwire hseal hactive' hup d response, hlength]
    refine ⟨fun h => ⟨fun _ opened' hopened' => ?_, hwelcome⟩, fun h => ?_⟩
    · rw [ho] at hopened'
      cases hopened'
      exact h
    · exact h.answer hframe' opened (by rw [ho])
  dsimp only
  cases htarget : revocationTarget D.wire opened with
  | none =>
    refine hanswered _ _ _ hactive₁ ?_
    rw [handle_length { s with session } opened, answerLength, htarget]
    rfl
  | some target =>
    have hlength := revoke_length hM hq hactive opened target
    have hremoved : (revoke session s.registry opened target).1.Active := by
      unfold revoke
      dsimp only
      split
      · exact hactive₁
      split
      · exact hactive₁
      rcases removeDevice_cases hM session target with
        ⟨e, he⟩ | ⟨m, session', commit, hf, hremove, hremoved⟩
      · rw [he]
        exact hactive₁
      · rw [hremove]
        exact hremoved.active hactive₁
    refine hanswered _ none _ hremoved ?_
    rw [answerLength, htarget]
    exact hlength

/-! ## Whole routes -/

include hM hwire hseal in
/-- Over a connection that stays up, a route answers every frame it opens and never ends with an
error exactly when every frame asks for what fits the relay. -/
theorem route_answers_iff {s : RouteService D} (hactive : s.session.Active) {xs : List Incoming}
    (hup : ∀ x ∈ xs, x.connected = true) :
    (∀ t ∈ (serveRoute D).run s xs, Served t.before t.input t.output) ↔
      ∀ t ∈ (serveRoute D).run s xs, Fits overhead t.before t.input := by
  refine Machine.forall_run_iff (I := fun s => s.session.Active) (J := fun x => x.connected = true)
    (fun s x h hx => ?_) (fun s x h _ _ _ => ?_) hactive hup
  · exact serveFrame_served_iff hM hwire hseal h hx
  · exact active_step hM s x h

end

/-! ## A long exchange id -/

section
open SmallPlatform

/-- The tunnel over `SmallFrames.mls`, with a wire that reads the JSON text of one request. -/
def framed (request : TunnelRequest) : Platform where
  mls := SmallFrames.mls
  hash := hash
  wire := {
    decode := fun bytes => if bytes = encodeRequest request then .ok request else .error .malformed
    encode := fun response => .ok (encodeResponse response) }
  http := http
  Router := Unit
  oneshot router _ := (router, .ok ⟨200, [], .ok []⟩)

/-- The host with a paired phone, and no code open. -/
def framedService (request : TunnelRequest) : RouteService (framed request) where
  client := ⟨"route"⟩
  session := ⟨⟨"host", ()⟩, (group ["phone"])⟩
  registry := (⟨∅⟩ : DeviceRegistry).set "phone" .newlyPaired
  router := ()
  pairing := none

theorem framedService_active (request : TunnelRequest) : (framedService request).session.Active :=
  ⟨member 0 "host", List.mem_cons_self, rfl⟩

/-- The request, sealed by the phone. -/
def framedBy (request : TunnelRequest) : Incoming :=
  ⟨SmallFrames.frame 1 (encodeRequest request), true⟩

theorem isPairingFrame_framedBy (request : TunnelRequest) :
    isPairingFrame (framedBy request).frame = false := by
  have hheader : ∃ e, takeHeader (framedBy request).frame = .error e := by
    unfold takeHeader splitAtChecked
    split
    · exact ⟨_, rfl⟩
    rename_i header rest hsplit
    split at hsplit
    · cases hsplit
      exact ⟨_, if_pos (by simp [framedBy, SmallFrames.frame, magic])⟩
    · cases hsplit
  obtain ⟨e, he⟩ := hheader
  rw [isPairingFrame, he]

theorem openFrame_framedBy {request : TunnelRequest}
    (h : (encodeRequest request).length < UInt32.size) :
    ((framedService request).session.openFrame (framedBy request).frame).2 =
      .ok ⟨"phone", encodeRequest request⟩ := by
  have hread := SmallFrames.readFrame_frame (show 1 < UInt32.size by decide) h
  have hphone : identityOf (member 1 "phone").credential = .ok ("phone" : Str) := by decide
  have hfound : (group ["phone"]).1.members.find? (fun m => m.index = 1) =
    some (member 1 "phone") := by decide
  have hprocess : SmallFrames.processMessage (framedService request).session.group
      (framedBy request).frame =
        .ok ((member 1 "phone").credential, .application (encodeRequest request)) := by
    unfold SmallFrames.processMessage
    simp only [framedBy, hread, framedService, hfound]
  have hmls : (framedService request).session.process (framedBy request).frame =
      ((framedService request).session, (SmallFrames.processMessage
        (framedService request).session.group (framedBy request).frame).mapError .open_) := rfl
  rw [WorkspaceSession.openFrame, hmls, hprocess]
  simp only [Except.mapError, hphone]

/-- A request of the phone. -/
def phoneStatus : TunnelRequest := request "GET" "/api/v1/local/status"

theorem route_answers_iff_phone :
    let run := (serveRoute (framed phoneStatus)).run (framedService phoneStatus)
      [framedBy phoneStatus]
    ((∀ t ∈ run, Served t.before t.input t.output) ↔
      ∀ t ∈ run, Fits SmallFrames.overhead t.before t.input) ∧
      run.map (fun t => t.output.sent.isSome) = [true] :=
  ⟨route_answers_iff SmallFrames.lawful (fun _ => rfl) SmallFrames.seals
    (framedService_active phoneStatus) (by simp [framedBy]), by decide +kernel⟩

/-- A request for a path outside the local API. -/
def rootRequest (exchangeId : Str) : TunnelRequest := { request "GET" "/" with exchangeId }

theorem rootRequest_length (exchangeId : Str) :
    (encodeRequest (rootRequest exchangeId)).length = escapedLength exchangeId + 79 := by
  have hrest : (encodeRequest { rootRequest exchangeId with exchangeId := [] }).length = 79 := by
    show (encodeRequest (rootRequest [])).length = 79
    decide +kernel
  rw [encodeRequest_length, hrest]
  rfl

theorem rootRequest_answerLength (exchangeId : Str) :
    answerLength (framedService (rootRequest exchangeId))
      ⟨"phone", encodeRequest (rootRequest exchangeId)⟩ = escapedLength exchangeId + 159 := by
  have hdecode : (framed (rootRequest exchangeId)).wire.decode
      (encodeRequest (rootRequest exchangeId)) = .ok (rootRequest exchangeId) := if_pos rfl
  have hmethod : (rootRequest exchangeId).method ≠ "DELETE" := by
    show ("GET" : Str) ≠ "DELETE"
    decide
  have hinvalid : (rootRequest exchangeId).validate = .error .invalidPath := rfl
  have hrest : refusalLength [] 400 TunnelError.invalidPath.message = 159 := by decide +kernel
  simp only [answerLength, revocationTarget, hdecode, if_pos hmethod, handledLength, hinvalid]
  rw [refusalLength_eq, hrest]
  rfl

/-- The refusal of an exchange whose identifier nearly fills a frame is not sent: it is longer than
the request by more than what is left of the frame. -/
theorem rootRequest_ends_route {exchangeId : Str}
    (h : escapedLength exchangeId = maxCiphertextBytes - 450) :
    let s := framedService (rootRequest exchangeId)
    let x := framedBy (rootRequest exchangeId)
    s.session.Active ∧ x.frame.length ≤ maxCiphertextBytes ∧
      (s.session.openFrame x.frame).2 = .ok ⟨"phone", encodeRequest (rootRequest exchangeId)⟩ ∧
      ∃ t ∈ (serveRoute (framed (rootRequest exchangeId))).run s [x], t.output.failed ≠ none := by
  have hlength : (encodeRequest (rootRequest exchangeId)).length = maxCiphertextBytes - 371 := by
    rw [rootRequest_length, h]
    rfl
  have hopen := openFrame_framedBy
    (by rw [hlength]; decide)
  refine ⟨framedService_active _, ?_, hopen,
    (serveRoute (framed (rootRequest exchangeId))).fire _ _, List.mem_cons_self, fun halive => ?_⟩
  · rw [framedBy, SmallFrames.length_frame, hlength]
    decide
  · have hserved := (serveFrame_served_iff SmallFrames.lawful (fun _ => rfl) SmallFrames.seals
      (framedService_active _) rfl).1 (served_of_alive SmallFrames.lawful halive)
    have hanswer := hserved.answer (isPairingFrame_framedBy _) _ hopen
    rw [rootRequest_answerLength, h] at hanswer
    exact absurd hanswer (by decide)

theorem escapedLength_replicate (n : Nat) : escapedLength (List.replicate n 'a') = n := by
  have hplain : ∀ c ∈ List.replicate n 'a', Plain c := by
    intro c hc
    rw [List.eq_of_mem_replicate hc]
    decide
  rw [escapedLength_of_plain hplain, List.length_replicate]

/-- An exchange identifier that nearly fills a frame. -/
def longId : Str := List.replicate (maxCiphertextBytes - 450) 'a'

/-- A member's request in a frame the relay carries is opened and refused, and the refusal, which
repeats its exchange id, is too long to send: the route ends. -/
theorem long_exchange_ends_route :
    let s := framedService (rootRequest longId)
    let x := framedBy (rootRequest longId)
    s.session.Active ∧ x.frame.length ≤ maxCiphertextBytes ∧
      (s.session.openFrame x.frame).2 = .ok ⟨"phone", encodeRequest (rootRequest longId)⟩ ∧
      ∃ t ∈ (serveRoute (framed (rootRequest longId))).run s [x], t.output.failed ≠ none := by
  exact rootRequest_ends_route (escapedLength_replicate _)

end

end LeaveCli.Host
