import LeaveCli.Crypto.FramedGroup
import LeaveCli.Crypto.Proof.Endpoints
import LeaveCli.Host.Proof.Revocation
import LeaveCli.Host.Workspace

/-!
# Group agreement

A member opens what the host seals while it is in the host's epoch and follows its ratchet. The
host's loop moves to the next epoch with every pairing and every revocation, and sends the commit of
neither: `group_agreement_iff` says that a route keeps its members in agreement exactly as long as
no such step leaves one behind. `InStep` is the invariant.
-/

namespace LeaveCli.Host

open Lib Protocol Crypto Transport

variable {D : Platform} {Reads : D.mls.Reading} {Peer : D.mls.Group → D.mls.Group → Prop}
  {Holds : D.mls.Provider → D.mls.KeyPackage → Prop}

/-! ## One device -/

/-- The session of the member at a leaf reads what `g` seals, and is no farther behind than it
ratchets. -/
structure Follows (Reads : D.mls.Reading) (g : D.mls.Group) (leaf : Nat)
    (device : WorkspaceSession D.mls) : Prop where
  leaf : D.mls.ownLeaf device.group = leaf
  reads : ∃ taken ahead, Reads g device.group taken ahead ∧ ahead.length ≤ maximumForwardDistance

/-- The session of the member at a leaf of the group `g`, in some epoch. -/
structure Endpoint (Peer : D.mls.Group → D.mls.Group → Prop) (g : D.mls.Group) (leaf epoch : Nat)
    (device : WorkspaceSession D.mls) : Prop where
  peer : Peer g device.group
  leaf : D.mls.ownLeaf device.group = leaf
  epoch : D.mls.epoch device.group = epoch

section
variable (hD : D.mls.Delivers Reads Holds) {g g' : D.mls.Group} {leaf : Nat}
  {device : WorkspaceSession D.mls} {payload frame : Bytes} {message : D.mls.MessageOut}
include hD

theorem Follows.heeds (h : Follows Reads g leaf device) (hg : Heeds g g') :
    Follows Reads g' leaf device := by
  obtain ⟨taken, ahead, hreads, hnear⟩ := h.reads
  exact ⟨h.leaf, taken, ahead, reads_heeds hD hreads hg, hnear⟩

/-- A device that follows opens what is sealed next, and goes on following. -/
theorem Follows.seal (hM : D.mls.Lawful) (h : Follows Reads g leaf device) {d : Str}
    (hnamed : Named D.mls g d) (hcreate : (D.mls.createMessage g payload).2 = .ok message)
    (hserialize : D.mls.serialize message = .ok frame) :
    (device.openFrame frame).2 = .ok ⟨d, payload⟩ ∧
      Follows Reads (D.mls.createMessage g payload).1 leaf (receive device frame) := by
  obtain ⟨taken, ahead, hreads, hnear⟩ := h.reads
  have hsealed := hD.reads_seal hreads hcreate hserialize
  have hnamed' := hnamed.evolves hM (.create g payload .refl)
  obtain ⟨credential, hid, hprocess, hreads'⟩ := process_ahead hD hM hnamed' hsealed hnear
  have hreceive : receive device frame = (device.process frame).1 := by
    have hpair : device.process frame =
        ((device.process frame).1, .ok (credential, .application payload)) := Prod.ext rfl hprocess
    rw [receive, not_isPairingFrame (hD.framed hserialize), if_neg Bool.false_ne_true,
      WorkspaceSession.applyCommit, hpair]
  refine ⟨(openFrame_ahead hD hM hnamed' hsealed hnear).1, ?_, ?_⟩
  · have hview := (process_heeds device frame).1.evolves.view hM
    rw [hreceive]
    exact (congrArg GroupView.ownLeaf hview).trans h.leaf
  · rw [hreceive]
    exact ⟨_, _, hreads', Nat.zero_le _⟩

end

section
variable (hE : D.mls.Epochs Peer Reads) {g g' : D.mls.Group} {leaf epoch : Nat}
  {device : WorkspaceSession D.mls} {payload frame : Bytes} {message : D.mls.MessageOut}
include hE

theorem Follows.endpoint (h : Follows Reads g leaf device) :
    Endpoint Peer g leaf (D.mls.epoch g) device := by
  obtain ⟨taken, ahead, hreads, -⟩ := h.reads
  exact ⟨hE.reads_peer hreads, h.leaf, hE.reads_epoch hreads⟩

theorem Endpoint.evolves (h : Endpoint Peer g leaf epoch device) (hg : Evolves g g') :
    Endpoint Peer g' leaf epoch device := by
  refine ⟨?_, h.leaf, h.epoch⟩
  induction hg with
  | refl => exact h.peer
  | process g' message _ ih => exact hE.peer_process message ih
  | create g' payload _ ih => exact hE.peer_create payload ih

/-- A device in another epoch does not open what is sealed. -/
theorem Endpoint.openFrame_error (h : Endpoint Peer g leaf epoch device)
    (hepoch : epoch ≠ D.mls.epoch g) (hcreate : (D.mls.createMessage g payload).2 = .ok message)
    (hserialize : D.mls.serialize message = .ok frame) :
    ∃ e, (device.openFrame frame).2 = .error e := by
  obtain ⟨received, protocol, e, hreceived, hprotocol, hprocess⟩ :=
    hE.other_epoch h.peer hcreate hserialize fun he => hepoch (h.epoch.symm.trans he)
  rw [WorkspaceSession.openFrame, process_eq device hreceived hprotocol, hprocess]
  exact ⟨.open_ e, rfl⟩

/-- Nor does it move on with it. -/
theorem Endpoint.receive (hM : D.mls.Lawful) (h : Endpoint Peer g leaf epoch device)
    (hsealer : Endpoint Peer g' leaf epoch device) (hepoch : epoch ≠ D.mls.epoch g')
    (hcreate : (D.mls.createMessage g' payload).2 = .ok message)
    (hserialize : D.mls.serialize message = .ok frame) :
    Endpoint Peer g leaf epoch (receive device frame) := by
  unfold Host.receive
  split
  · exact h
  obtain ⟨received, protocol, e, hreceived, hprotocol, hprocess⟩ :=
    hE.other_epoch hsealer.peer hcreate hserialize fun he => hepoch (h.epoch.symm.trans he)
  have hgroup : (device.applyCommit frame).1.group =
      (D.mls.processMessage device.group protocol).1 := by
    rw [WorkspaceSession.applyCommit, process_eq device hreceived hprotocol, hprocess]
    rfl
  have hview := hM.process_view device.group protocol
  refine ⟨hgroup ▸ hE.peer_receive protocol h.peer, ?_, ?_⟩
  · rw [hgroup]
    exact (congrArg GroupView.ownLeaf hview).trans h.leaf
  · rw [hgroup]
    exact (congrArg GroupView.epoch hview).trans h.epoch

/-- A commit of the host's that adds a member leaves the others where they are. -/
theorem Endpoint.added {s s' : WorkspaceSession D.mls} {keyPackage : Bytes}
    {invitation : Invitation} (h : Endpoint Peer s.group leaf epoch device)
    (hadd : s.addDevice keyPackage = (s', .ok invitation)) :
    Endpoint Peer s'.group leaf epoch device := by
  obtain ⟨k, staged, commit, welcome, -, hmembers, hmerge, -⟩ := addDevice_eq_ok hadd
  exact ⟨hE.peer_add h.peer hmembers hmerge, h.leaf, h.epoch⟩

/-- A commit of the host's that removes another member leaves the rest where they are. -/
theorem Endpoint.removed {s s' : WorkspaceSession D.mls} {target : Str} {commit : Bytes}
    {m : Member} (h : Endpoint Peer s.group leaf epoch device)
    (hremove : s.removeDevice target = (s', .ok commit))
    (hfirst : firstWith s.view.members target = some m) (hne : leaf ≠ m.index) :
    Endpoint Peer s'.group leaf epoch device := by
  obtain ⟨m', staged, message, hfirst', hmembers, hmerge⟩ := removeDevice_eq_ok hremove
  obtain rfl := Option.some.inj (hfirst.symm.trans hfirst')
  exact ⟨hE.peer_remove h.peer hmembers hmerge (h.leaf ▸ hne), h.leaf, h.epoch⟩

end

/-! ## All devices -/

/-- Every member other than the host opens the next frame the host seals. -/
def Agreement (w : Workspace D) : Prop :=
  ∀ m ∈ w.host.session.view.members, m.index ≠ w.host.session.view.ownLeaf →
    ∃ device, w.devices m.index = some device ∧ ∀ payload frame,
      (w.host.session.sealFrame payload).2 = .ok frame →
      ∃ opened, (device.openFrame frame).2 = .ok opened ∧ opened.plaintext = payload

/-- Every member other than the host opens the answer that was sent. -/
def Heard (w : Workspace D) (o : Outcome) (w' : Workspace D) : Prop :=
  ∀ response envelope, o.answer = some response → o.sent = some envelope →
    ∀ m ∈ w'.host.session.view.members, m.index ≠ w'.host.session.view.ownLeaf →
    ∃ device opened, w.devices m.index = some device ∧
      (device.openFrame envelope.ciphertext).2 = .ok opened ∧
      D.wire.encode response = .ok opened.plaintext

/-- The host is a member with a readable credential, and every other member follows it. -/
structure InStep (Reads : D.mls.Reading) (w : Workspace D) : Prop where
  own : ∃ d, Named D.mls w.host.session.group d
  devices : ∀ m ∈ w.host.session.view.members, m.index ≠ w.host.session.view.ownLeaf →
    ∃ device, w.devices m.index = some device ∧
      Follows Reads w.host.session.group m.index device

theorem InStep.active {w : Workspace D} (h : InStep Reads w) : w.host.session.Active := by
  obtain ⟨d, own, hown, hleaf, -⟩ := h.own
  exact ⟨own, hown, hleaf⟩

section
variable (hM : D.mls.Lawful) (hD : D.mls.Delivers Reads Holds) {w : Workspace D}
include hD

include hM in
theorem InStep.agreement (h : InStep Reads w) : Agreement w := by
  intro m hm hother
  obtain ⟨device, hdevice, hfollows⟩ := h.devices m hm hother
  obtain ⟨d, hnamed⟩ := h.own
  refine ⟨device, hdevice, fun payload frame hseal => ?_⟩
  obtain ⟨message, hcreate, hserialize⟩ := sealFrame_eq_ok.1 hseal
  exact ⟨⟨d, payload⟩, (hfollows.seal hD hM hnamed hcreate hserialize).1, rfl⟩

/-- A member in another epoch than the host ends the agreement. -/
theorem not_agreement (hE : D.mls.Epochs Peer Reads) {m : Member} {epoch : Nat}
    {device : WorkspaceSession D.mls} (hactive : w.host.session.Active)
    (hm : m ∈ w.host.session.view.members) (hother : m.index ≠ w.host.session.view.ownLeaf)
    (hdevice : w.devices m.index = some device)
    (hendpoint : Endpoint Peer w.host.session.group m.index epoch device)
    (hepoch : epoch ≠ w.host.session.view.epoch) : ¬ Agreement w := by
  intro h
  obtain ⟨device', hdevice', hopens⟩ := h m hm hother
  obtain rfl := Option.some.inj (hdevice.symm.trans hdevice')
  obtain ⟨message, frame, hcreate, hserialize⟩ :=
    hD.seals w.host.session.group [] hactive (by decide)
  obtain ⟨opened, hopened, -⟩ := hopens [] frame (sealFrame_eq_ok.2 ⟨message, hcreate, hserialize⟩)
  obtain ⟨e, he⟩ := hendpoint.openFrame_error hE hepoch hcreate hserialize
  rw [he] at hopened
  cases hopened

end

/-! ## Steps that strand a member -/

/-- A pairing request with the tag of the open code, which the group can take. -/
structure Enters (s : RouteService D) (x : Incoming) (secret : PairingSecret) (keyPackage : Bytes)
    (k : D.mls.KeyPackage) : Prop where
  open_ : s.pairing = some secret
  requests : Requests x.frame keyPackage (secret.tag D.hash keyPackage)
  parsed : parseKeyPackage D.mls keyPackage = .ok k
  taken : ∃ staged, D.mls.addMembers s.session.group k = .ok staged

/-- Nobody but the host is in the group when a device joins, and nobody but the host is left when
a revocation takes a member out. -/
structure StrandsNobody (s : RouteService D) (x : Incoming) : Prop where
  pairing : ∀ secret keyPackage k, Enters s x secret keyPackage k →
    ∀ m ∈ s.session.view.members, m.index = s.session.view.ownLeaf
  revocation : ∀ opened target m, Expels s x opened target m →
    ∀ m' ∈ s.session.view.members, m'.index = s.session.view.ownLeaf ∨ m' = m

section
variable {s : RouteService D} {x : Incoming}

theorem strandsNobody_of_admits {secret : PairingSecret} {keyPackage : Bytes}
    {k : D.mls.KeyPackage} {invitation : Invitation} {session : WorkspaceSession D.mls}
    (h : Admits s x secret keyPackage k invitation session) :
    StrandsNobody s x ↔ ∀ m ∈ s.session.view.members, m.index = s.session.view.ownLeaf := by
  have haccepted := (acceptPairing_of_requests h.requests).symm.trans h.accepted
  obtain ⟨k', staged, commit, welcome, hparsed, hadd, -⟩ := addDevice_eq_ok haccepted
  cases h.parsed.symm.trans hparsed
  refine ⟨fun hs => hs.pairing secret keyPackage k ⟨h.open_, h.requests, h.parsed, _, hadd⟩,
    fun hall => ⟨fun _ _ _ _ => hall, fun _ _ _ hexpels => ?_⟩⟩
  exact absurd (h.frame.symm.trans hexpels.frame) (by simp)

theorem strandsNobody_of_expels {opened : OpenedMessage} {target : Str} {m : Member}
    (h : Expels s x opened target m) :
    StrandsNobody s x ↔
      ∀ m' ∈ s.session.view.members, m'.index = s.session.view.ownLeaf ∨ m' = m := by
  refine ⟨fun hs => hs.revocation opened target m h, fun hall => ⟨fun _ _ _ henters => ?_,
    fun opened' target' m' hexpels => ?_⟩⟩
  · exact absurd (henters.requests.isPairingFrame.symm.trans h.frame) (by simp)
  · cases h.opens.symm.trans hexpels.opens
    cases h.names.symm.trans hexpels.names
    cases h.first.symm.trans hexpels.first
    exact hall

variable (hM : D.mls.Lawful)
include hM

theorem enters_step {secret : PairingSecret} {keyPackage : Bytes} {k : D.mls.KeyPackage}
    (h : Enters s x secret keyPackage k) :
    (serveFrame s x).2.session.view = s.session.view.added (D.mls.credential k) := by
  obtain ⟨⟨staged, commit, welcome⟩, htaken⟩ := h.taken
  obtain ⟨g', c, w, hmerge, hview, hc, hw⟩ := hM.add_ok _ _ _ _ _ htaken
  have haccepted : acceptPairing D.hash s.session x.frame secret =
      ({ s.session with group := g' }, .ok ⟨c, w⟩) := by
    rw [acceptPairing_of_requests h.requests, WorkspaceSession.addDevice, h.parsed]
    simp only [htaken, hmerge, encodeMessage_ok.2 hc, encodeMessage_ok.2 hw]
  rw [serveFrame, if_pos h.requests.isPairingFrame, servePairing, h.open_]
  simp only [haccepted]
  split
  · exact hview
  · exact hview

/-- A step that stays in its epoch strands nobody. -/
theorem strandsNobody_of_quiet (hactive : s.session.Active) (hq : Quiet s (serveFrame s x).2) :
    StrandsNobody s x := by
  have hepoch := congrArg GroupView.epoch (hq.view hM)
  refine ⟨fun secret keyPackage k h => ?_, fun opened target m h => ?_⟩
  · rw [enters_step hM h] at hepoch
    exact absurd hepoch (Nat.succ_ne_self _)
  · rw [(expels_step hM hactive h).2.2.1] at hepoch
    exact absurd hepoch (Nat.succ_ne_self _)

end

/-! ## One step -/

section
variable {w : Workspace D} {a : Arrival D Holds}

theorem devices_unsent (hsent : (w.serve a).1.sent = none) : (w.serve a).2.devices = w.devices := by
  have hsent' : (serveFrame w.host a.incoming).1.sent = none := hsent
  simp only [Workspace.serve, hsent']

/-- What is sent outside a pairing is taken by the devices there are. -/
theorem devices_answered {envelope : RelayEnvelope} {leaf : Nat}
    (hframe : isPairingFrame a.incoming.frame = false)
    (hsent : (w.serve a).1.sent = some envelope) :
    (w.serve a).2.devices leaf =
      (w.devices leaf).map fun device => receive device envelope.ciphertext := by
  have hsent' : (serveFrame w.host a.incoming).1.sent = some envelope := hsent
  simp [Workspace.serve, hsent', Workspace.deliver, hframe]

variable (hD : D.mls.Delivers Reads Holds)
include hD

/-- A joining device reads its welcome, at its leaf, and follows the host; the members there were
take nothing. -/
theorem devices_paired {keyPackage : Bytes} {k : D.mls.KeyPackage} {tag : Bytes}
    {session : WorkspaceSession D.mls} {invitation : Invitation} {envelope : RelayEnvelope}
    (hrequest : Requests a.incoming.frame keyPackage tag)
    (hparsed : parseKeyPackage D.mls keyPackage = .ok k)
    (hadd : w.host.session.addDevice keyPackage = (session, .ok invitation))
    (hsend : w.host.client.send a.incoming.connected (pairingWelcome invitation) = .ok envelope)
    (hsent : (w.serve a).1.sent = some envelope) :
    ∃ device, (w.serve a).2.devices = Function.update w.devices
        (beforeBlank 0 w.host.session.view.members).length (some device) ∧
      Follows Reads session.group (beforeBlank 0 w.host.session.view.members).length device := by
  obtain ⟨k', staged, commit, welcome, hparsed', hmembers, hmerge, hserialize⟩ :=
    addDevice_eq_ok hadd
  cases hparsed.symm.trans hparsed'
  obtain ⟨received, body, p, hreceived, hextract, hjoin, hleaf, -, hreads, -⟩ :=
    hD.welcomes (a.holds _ _ _ hrequest hparsed) hmembers hmerge hserialize
  obtain ⟨hcipher, -, hsize, -⟩ := RelayClient.send_eq_ok hsend
  have hlength : invitation.welcome.length < UInt32.size := by
    have hshort : invitation.welcome.length ≤ (pairingWelcome invitation).length := by
      simp only [pairingWelcome, putBytes, List.length_append]
      omega
    have hmax : maxCiphertextBytes < UInt32.size := by decide
    omega
  have hcomplete : complete a.joiner envelope.ciphertext = .ok ⟨a.joiner, p⟩ := by
    rw [complete, hcipher, readPairingWelcome_pairingWelcome hlength]
    simp [WorkspaceSession.join, hreceived, hextract, hjoin]
  refine ⟨⟨a.joiner, p⟩, ?_, hleaf, [], [], hreads, Nat.zero_le _⟩
  have hskip : (fun leaf => (w.devices leaf).map fun device =>
      receive device envelope.ciphertext) = w.devices := by
    funext leaf
    have hid :
        (fun device : WorkspaceSession D.mls => receive device envelope.ciphertext) = id := by
      funext device
      rw [receive, hcipher, if_pos (isPairingFrame_pairingWelcome invitation)]
      rfl
    rw [hid, Option.map_id_fun, id]
  have hsent' : (serveFrame w.host a.incoming).1.sent = some envelope := hsent
  simp only [Workspace.serve, hsent', Workspace.deliver, hrequest.isPairingFrame, if_true,
    hcomplete, hskip]
  rw [hleaf]
  rfl

variable (hM : D.mls.Lawful)
include hM

/-- A frame that is answered in the epoch it came in keeps everyone in step. -/
theorem inStep_answered (h : InStep Reads w) (hframe : isPairingFrame a.incoming.frame = false)
    (hq : Quiet w.host (w.serve a).2.host) {g : D.mls.Group}
    (hg : Heeds w.host.session.group g) (hsealed : SealedIn g (w.serve a).1 (w.serve a).2.host) :
    InStep Reads (w.serve a).2 ∧ Heard w (w.serve a).1 (w.serve a).2 := by
  obtain ⟨response, payload, message, envelope, hanswer, hencode, hcreate, hserialize, hsent,
    hgroup⟩ := hsealed
  obtain ⟨d, hnamed⟩ := h.own
  have hview := hq.view hM
  have hdevices : ∀ m ∈ (w.serve a).2.host.session.view.members,
      m.index ≠ (w.serve a).2.host.session.view.ownLeaf → ∃ device,
        w.devices m.index = some device ∧ Follows Reads g m.index device := by
    rw [hview]
    intro m hm hother
    obtain ⟨device, hdevice, hfollows⟩ := h.devices m hm hother
    exact ⟨device, hdevice, hfollows.heeds hD hg⟩
  have hnamed' : Named D.mls g d := hnamed.evolves hM hg.evolves
  refine ⟨⟨⟨d, hnamed.evolves hM hq.group⟩, fun m hm hother => ?_⟩, ?_⟩
  · obtain ⟨device, hdevice, hfollows⟩ := hdevices m hm hother
    refine ⟨receive device envelope.ciphertext, ?_, ?_⟩
    · rw [devices_answered hframe hsent, hdevice]
      rfl
    · rw [hgroup]
      exact (hfollows.seal hD hM hnamed' hcreate hserialize).2
  · intro response' envelope' hanswer' hsent' m hm hother
    obtain rfl := Option.some.inj (hanswer.symm.trans hanswer')
    obtain rfl := Option.some.inj (hsent.symm.trans hsent')
    obtain ⟨device, hdevice, hfollows⟩ := hdevices m hm hother
    exact ⟨device, ⟨d, payload⟩, hdevice, (hfollows.seal hD hM hnamed' hcreate hserialize).1,
      hencode⟩

variable (hE : D.mls.Epochs Peer Reads)
include hE

/-- A pairing keeps everyone in step when nobody else is in the group, and else strands them. -/
theorem agreement_paired (h : InStep Reads w) {secret : PairingSecret} {keyPackage : Bytes}
    {k : D.mls.KeyPackage} {invitation : Invitation} {envelope : RelayEnvelope}
    (hjoins : Admits w.host a.incoming secret keyPackage k invitation (w.serve a).2.host.session)
    (hsend : w.host.client.send a.incoming.connected (pairingWelcome invitation) = .ok envelope)
    (hsent : (w.serve a).1.sent = some envelope) :
    (StrandsNobody w.host a.incoming → InStep Reads (w.serve a).2) ∧
      (Agreement (w.serve a).2 → StrandsNobody w.host a.incoming) := by
  have hadd := (acceptPairing_of_requests hjoins.requests).symm.trans hjoins.accepted
  obtain ⟨joined, hdevices, hjoined⟩ :=
    devices_paired hD hjoins.requests hjoins.parsed hadd hsend hsent
  have hview := hjoins.added.view
  rw [strandsNobody_of_admits hjoins]
  refine ⟨fun halone => ⟨?_, fun m hm hother => ?_⟩, fun hagree m hm => ?_⟩
  · obtain ⟨d, own, hown, hleaf, hid⟩ := h.own
    obtain ⟨hown', hleaf'⟩ := hjoins.added.isOwn ⟨hown, hleaf⟩
    exact ⟨d, own, hown', hleaf', hid⟩
  · rw [hview] at hm hother
    rcases mem_added.1 hm with hm | rfl
    · exact absurd (halone m hm) hother
    · refine ⟨joined, ?_, hjoined⟩
      rw [hdevices]
      exact Function.update_self ..
  · by_contra hother
    obtain ⟨device, hdevice, hfollows⟩ := h.devices m hm hother
    have hfresh := index_ne_length_beforeBlank (hM.sorted w.host.session.group) hm
    have hdevice' : (w.serve a).2.devices m.index = some device := by
      rw [hdevices]
      exact (Function.update_of_ne hfresh ..).trans hdevice
    refine not_agreement hD hE (hjoins.added.active h.active) (m := m) ?_ ?_ hdevice'
      ((hfollows.endpoint hE).added hE hadd) ?_ hagree
    · rw [hview]
      exact mem_added.2 (.inl hm)
    · rw [hview]
      exact hother
    · rw [hview]
      exact (Nat.succ_ne_self _).symm

/-- A revocation keeps everyone in step when it leaves nobody but the host, and else strands the
members it leaves. -/
theorem agreement_revoked (h : InStep Reads w) {opened : OpenedMessage} {target : Str} {m : Member}
    {s₁ : RouteService D} {commit : Bytes} {session : WorkspaceSession D.mls}
    (hopen : Opens w.host a.incoming opened s₁) (hexpels : Expels w.host a.incoming opened target m)
    (hremove : s₁.session.removeDevice target = (session, .ok commit))
    (hremoved : Removed w.host.session session m)
    (hq : Quiet { w.host with session, registry := (w.host.registry.remove target).1 }
      (w.serve a).2.host) (hsealed : SealedIn session.group (w.serve a).1 (w.serve a).2.host) :
    (StrandsNobody w.host a.incoming →
        InStep Reads (w.serve a).2 ∧ Heard w (w.serve a).1 (w.serve a).2) ∧
      (Agreement (w.serve a).2 → StrandsNobody w.host a.incoming) := by
  have hview : (w.serve a).2.host.session.view = w.host.session.view.removed m.index :=
    (hq.view hM).trans hremoved.view
  obtain ⟨response, payload, message, envelope, -, -, hcreate, hserialize, hsent, -⟩ := hsealed
  rw [strandsNobody_of_expels hexpels]
  refine ⟨fun halone => ?_, fun hagree m' hm' => ?_⟩
  · have hnobody : ∀ m' ∈ (w.serve a).2.host.session.view.members,
        m'.index = (w.serve a).2.host.session.view.ownLeaf := by
      intro m' hm'
      rw [hview] at hm' ⊢
      obtain ⟨hmem, hne⟩ := mem_removed.1 hm'
      exact (halone m' hmem).resolve_right fun he => hne (congrArg Member.index he)
    refine ⟨⟨?_, fun m' hm' hother => absurd (hnobody m' hm') hother⟩,
      fun _ _ _ _ m' hm' hother => absurd (hnobody m' hm') hother⟩
    obtain ⟨d, own, hown, hleaf, hid⟩ := h.own
    obtain ⟨hown', hleaf'⟩ := hremoved.isOwn ⟨hown, hleaf⟩
    exact ⟨d, Named.evolves (g := session.group) hM ⟨own, hown', hleaf', hid⟩ hq.group⟩
  · by_contra hleft
    obtain ⟨hother, hne⟩ := not_or.1 hleft
    have hindex : m'.index ≠ m.index := fun he =>
      hne (hM.index_inj hm' (firstWith_spec hexpels.first).1 he)
    obtain ⟨device, hdevice, hfollows⟩ := h.devices m' hm' hother
    have hbefore := ((hfollows.endpoint hE).evolves hE hopen.quiet.group).removed hE hremove
      (hopen.quiet.view hM ▸ hexpels.first) hindex
    have hepoch : D.mls.epoch w.host.session.group ≠ D.mls.epoch session.group := by
      have hnext : D.mls.epoch session.group = D.mls.epoch w.host.session.group + 1 :=
        congrArg GroupView.epoch hremoved.view
      rw [hnext]
      exact (Nat.succ_ne_self _).symm
    have hafter := (hbefore.evolves hE hq.group).receive hE hM hbefore hepoch hcreate hserialize
    have hactive : (w.serve a).2.host.session.Active := active_step hM w.host a.incoming h.active
    have hdevice' : (w.serve a).2.devices m'.index = some (receive device envelope.ciphertext) := by
      rw [devices_answered hexpels.frame hsent, hdevice]
      rfl
    refine not_agreement hD hE hactive (m := m') ?_ ?_ hdevice' hafter ?_ hagree
    · rw [hview]
      exact mem_removed.2 ⟨hm', hindex⟩
    · rw [hview]
      exact hother
    · rw [hview]
      exact (Nat.succ_ne_self _).symm

/-- A pass of the loop that ended no route keeps the members in agreement exactly when it strands
nobody, and then everyone stays in step. -/
theorem agreement_step (h : InStep Reads w) (hgoes : (w.serve a).1.failed = none) :
    (Agreement (w.serve a).2 ∧ Heard w (w.serve a).1 (w.serve a).2 ↔
        StrandsNobody w.host a.incoming) ∧
      (StrandsNobody w.host a.incoming → InStep Reads (w.serve a).2) := by
  have hquiet : Quiet w.host (w.serve a).2.host →
      InStep Reads (w.serve a).2 ∧ Heard w (w.serve a).1 (w.serve a).2 →
      (Agreement (w.serve a).2 ∧ Heard w (w.serve a).1 (w.serve a).2 ↔
          StrandsNobody w.host a.incoming) ∧
        (StrandsNobody w.host a.incoming → InStep Reads (w.serve a).2) := by
    intro hq ⟨hstep, hheard⟩
    have hstrands := strandsNobody_of_quiet hM h.active hq
    exact ⟨iff_of_true ⟨hstep.agreement hM hD, hheard⟩ hstrands, fun _ => hstep⟩
  have hframe : FrameStep w.host a.incoming (w.serve a).1 (w.serve a).2.host :=
    serveFrame_step hM w.host a.incoming
  cases hframe with
  | ignored ho hq hg =>
    obtain ⟨d, hnamed⟩ := h.own
    refine hquiet hq ⟨⟨⟨d, hnamed.evolves hM hq.group⟩, fun m hm hother => ?_⟩,
      fun response _ hanswer => ?_⟩
    · rw [hq.view hM] at hm hother
      obtain ⟨device, hdevice, hfollows⟩ := h.devices m hm hother
      rw [devices_unsent (congrArg Outcome.sent ho)]
      exact ⟨device, hdevice, hfollows.heeds hD hg⟩
    · exact absurd ((congrArg Outcome.answer ho).symm.trans hanswer) (by simp)
  | unsent secret keyPackage k invitation hjoins ho hfailed =>
    rw [hgoes] at hfailed
    cases hfailed
  | paired secret keyPackage k invitation envelope hjoins hsend ho =>
    have hheard : Heard w (w.serve a).1 (w.serve a).2 := fun response _ hanswer =>
      absurd ((congrArg Outcome.answer ho).symm.trans hanswer) (by simp)
    obtain ⟨hkeeps, hneeds⟩ := agreement_paired hD hM hE h hjoins hsend (congrArg Outcome.sent ho)
    exact ⟨⟨fun hagree => hneeds hagree.1, fun hs => ⟨(hkeeps hs).agreement hM hD, hheard⟩⟩, hkeeps⟩
  | revoked opened target m s₁ commit session hopen hexpels hremove hremoved ho hq hr hsent =>
    obtain ⟨hkeeps, hneeds⟩ :=
      agreement_revoked hD hM hE h hopen hexpels hremove hremoved hq (hsent hgoes)
    exact ⟨⟨fun hagree => hneeds hagree.1,
      fun hs => ⟨(hkeeps hs).1.agreement hM hD, (hkeeps hs).2⟩⟩, fun hs => (hkeeps hs).1⟩
  | refused opened target s₁ hopen htarget ho hq hr hsent =>
    exact hquiet hq (inStep_answered hD hM h hopen.frame hq hopen.heeds (hsent hgoes))
  | handled opened s₁ hopen htarget ho hq hr hsent =>
    exact hquiet hq (inStep_answered hD hM h hopen.frame hq hopen.heeds (hsent hgoes))

end

/-! ## Whole routes -/

/-- After every pass of the loop that ended no route, the members agree with the host and have
heard its answer, exactly when no such pass strands a member. -/
theorem group_agreement_iff (hM : D.mls.Lawful) (hD : D.mls.Delivers Reads Holds)
    (hE : D.mls.Epochs Peer Reads) {w : Workspace D} (hstart : InStep Reads w)
    (arrivals : List (Arrival D Holds)) :
    (∀ t ∈ (Workspace.route D Holds).run w arrivals, t.output.failed = none →
        Agreement t.after ∧ Heard t.before t.output t.after) ↔
      ∀ t ∈ (Workspace.route D Holds).run w arrivals, t.output.failed = none →
        StrandsNobody t.before.host t.input.incoming := by
  refine Machine.forall_run_iff (I := InStep Reads) (J := fun _ => True) (fun w a h _ => ?_)
    (fun w a h _ hq hgoes => ?_) hstart (fun _ _ => trivial)
  · exact imp_congr_right fun hgoes => (agreement_step hD hM hE h hgoes).1
  · have hsome : (w.serve a).1.failed.isSome = false := hgoes
    have hgoes' : (w.serve a).1.failed = none := by simpa using hsome
    exact (agreement_step hD hM hE h hgoes').2 (hq hgoes')

section
open SmallPlatform

/-- An arrival whose joiner keeps what its key package needs. -/
abbrev SmallArrival (requests : List TunnelRequest) :=
  Arrival (ratcheted requests) fun _ _ => True

def statusRequest : TunnelRequest := request "GET" "/api/v1/local/status"

/-- The host alone, with a code open. -/
def newWorkspace : Workspace (ratcheted [statusRequest]) where
  host := ratchetedService _ [] [] (some secret)
  devices := fun _ => none

/-- A laptop joins, and asks for the status twice. -/
def laptopArrives : List (SmallArrival [statusRequest]) :=
  [⟨pairingOf "laptop", ⟨"laptop", ()⟩, fun _ _ _ _ _ => trivial⟩,
    ⟨sealedAt 4 0 1 statusRequest, ⟨"laptop", ()⟩, fun _ _ _ _ _ => trivial⟩,
    ⟨sealedAt 4 1 1 statusRequest, ⟨"laptop", ()⟩, fun _ _ _ _ _ => trivial⟩]

theorem inStep_newWorkspace : InStep FramedGroup.Reads newWorkspace where
  own := ⟨"host", member 0 "host", by decide, rfl, by decide⟩
  devices := by
    have hmembers : newWorkspace.host.session.view.members = [member 0 "host"] := rfl
    intro m hm hother
    rw [hmembers, List.mem_singleton] at hm
    exact absurd (congrArg Member.index hm) hother

theorem group_agreement_iff_laptop :
    let run := (Workspace.route _ _).run newWorkspace laptopArrives
    ((∀ t ∈ run, t.output.failed = none →
        Agreement t.after ∧ Heard t.before t.output t.after) ↔
      ∀ t ∈ run, t.output.failed = none → StrandsNobody t.before.host t.input.incoming) ∧
    run.map (fun t => t.output.answer.map (·.status)) = [none, some 200, some 200] :=
  ⟨group_agreement_iff FramedGroup.lawful FramedGroup.delivers FramedGroup.epochs
    inStep_newWorkspace laptopArrives, by decide +kernel⟩

/-- The sessions of the host, of the laptop and of the phone at the beginning of an epoch. -/
def epochOf (leaf : Nat) : FramedGroup.Ratcheted :=
  .fresh ⟨{ groupOf ["laptop", "phone"] with ownLeaf := leaf }, groupOf_sorted _⟩

/-- The host with an owner's laptop and a phone, all in one epoch. -/
def sharedWorkspace : Workspace (ratcheted [phoneRevocation]) where
  host := ratchetedService _ ["laptop", "phone"]
    [("laptop", ⟨.owner, ∅⟩), ("phone", .newlyPaired)] none
  devices leaf :=
    if leaf = 1 then some ⟨⟨"laptop", ()⟩, epochOf 1⟩
    else if leaf = 2 then some ⟨⟨"phone", ()⟩, epochOf 2⟩
    else none

/-- The laptop revokes the phone. -/
def laptopRevokes : SmallArrival [phoneRevocation] :=
  ⟨sealedAt 3 0 1 phoneRevocation, ⟨"phone", ()⟩, fun _ _ _ _ _ => trivial⟩

theorem inStep_sharedWorkspace : InStep FramedGroup.Reads sharedWorkspace where
  own := ⟨"host", member 0 "host", by decide, rfl, by decide⟩
  devices := by
    have hmembers : sharedWorkspace.host.session.view.members =
      [member 0 "host", member 1 "laptop", member 2 "phone"] := rfl
    have hreads (leaf : Nat) :
        FramedGroup.Reads sharedWorkspace.host.session.group (epochOf leaf) [] [] :=
      FramedGroup.reads_fresh rfl rfl ⟨member 0 "host", by decide, rfl⟩
    intro m hm hother
    simp only [hmembers, List.mem_cons, List.not_mem_nil, or_false] at hm
    rcases hm with rfl | rfl | rfl
    · exact absurd rfl hother
    · exact ⟨_, rfl, rfl, [], [], hreads 1, Nat.zero_le _⟩
    · exact ⟨_, rfl, rfl, [], [], hreads 2, Nat.zero_le _⟩

/-- After an owner revoked the phone, the owner's laptop opens neither the 204 nor what the host
seals next. -/
theorem revocation_strands_owner : InStep FramedGroup.Reads sharedWorkspace ∧
    ∃ t ∈ (Workspace.route _ _).run sharedWorkspace [laptopRevokes], t.output.failed = none ∧
      Responds t.output 204 ∧ ¬ Agreement t.after ∧ ¬ Heard t.before t.output t.after := by
  let t := (Workspace.route _ _).fire sharedWorkspace laptopRevokes
  let laptop := member 1 "laptop"
  have hmember : laptop ∈ t.after.host.session.view.members := by decide +kernel
  have hother : laptop.index ≠ t.after.host.session.view.ownLeaf := by decide +kernel
  have hanswer : t.output.answer.map (·.status) = some 204 := by decide +kernel
  obtain ⟨response, hresponse, hstatus⟩ := Option.map_eq_some_iff.1 hanswer
  refine ⟨inStep_sharedWorkspace, t, List.mem_cons_self, by decide +kernel,
    ⟨response, hresponse, hstatus⟩, fun hagree => ?_, fun hheard => ?_⟩
  · let next := FramedGroup.encode (.application 4 1 0 [])
    have hseal : (t.after.host.session.sealFrame []).2 = .ok next := by decide +kernel
    have hclosed : (t.after.devices laptop.index).any
        (fun device => (device.openFrame next).2.isOk) = false := by decide +kernel
    obtain ⟨device, hdevice, hopens⟩ := hagree laptop hmember hother
    obtain ⟨opened, hopened, -⟩ := hopens [] next hseal
    rw [hdevice, Option.any_some, hopened] at hclosed
    cases hclosed
  · have hclosed : t.output.sent.all (fun envelope => !(t.before.devices laptop.index).any
        fun device => (device.openFrame envelope.ciphertext).2.isOk) = true := by decide +kernel
    have hsome : t.output.sent.isSome = true := by decide +kernel
    obtain ⟨envelope, hsent⟩ := Option.isSome_iff_exists.1 hsome
    obtain ⟨device, opened, hdevice, hopened, -⟩ :=
      hheard response envelope hresponse hsent laptop hmember hother
    rw [hsent, Option.all_some, hdevice, Option.any_some, hopened] at hclosed
    cases hclosed

end

end LeaveCli.Host
