import LeaveCli.Crypto.Devices
import LeaveCli.Crypto.Proof.SessionSpec

/-!
# Two endpoints of one group

What `Mls.Delivers` makes of the session: a frame that lies ahead of an endpoint opens to its
payload and its sender, and is taken (`openFrame_ahead`); one that was taken does not open again
(`openFrame_taken`). `join_welcome` is how a device that was added comes to read the group.
-/

namespace LeaveCli.Crypto

open Lib

variable {M : Mls} {Reads : M.Reading} {Holds : M.Provider → M.KeyPackage → Prop}

theorem identityOf_basic (d : Str) : identityOf (.basic d.utf8) = .ok d := by
  obtain ⟨text, htext, rfl⟩ := Option.map_eq_some_iff.1 (Str.fromUtf8_utf8 d)
  rw [identityOf, htext]

/-- The endpoint's own credential says it is this device. -/
def Named (M : Mls) (g : M.Group) (deviceId : Str) : Prop :=
  ∃ own ∈ M.members g, own.index = M.ownLeaf g ∧ identityOf own.credential = .ok deviceId

theorem Named.evolves (hM : M.Lawful) {g g' : M.Group} {d : Str} (h : Named M g d)
    (hg : Evolves g g') : Named M g' d := by
  obtain ⟨own, hown, hleaf, hid⟩ := h
  have hview := hg.view hM
  have hmembers : M.members g' = M.members g := congrArg GroupView.members hview
  have hownLeaf : M.ownLeaf g' = M.ownLeaf g := congrArg GroupView.ownLeaf hview
  exact ⟨own, hmembers ▸ hown, hleaf.trans hownLeaf.symm, hid⟩

/-- The bytes are a message of some group. -/
def isProtocolMessage (M : Mls) (bytes : Bytes) : Bool :=
  match M.deserialize bytes with
  | .error _ => false
  | .ok message => (M.toProtocol message).isOk

/-- Nothing else reaches the group. -/
theorem openFrame_foreign (s : WorkspaceSession M) {frame : Bytes}
    (h : isProtocolMessage M frame = false) : ∃ e, s.openFrame frame = (s, .error e) := by
  unfold isProtocolMessage at h
  unfold WorkspaceSession.openFrame WorkspaceSession.process
  cases hreceived : M.deserialize frame with
  | error e => exact ⟨_, rfl⟩
  | ok received =>
    simp only [hreceived] at h ⊢
    cases hprotocol : M.toProtocol received with
    | error e => exact ⟨_, rfl⟩
    | ok protocol =>
      rw [hprotocol] at h
      cases h

section
variable (hD : M.Delivers Reads Holds) {g g' p : M.Group} {s : WorkspaceSession M} {d : Str}
  {taken : List Bytes} {passed ahead : List (Bytes × Bytes)} {payload frame : Bytes}
include hD

/-- What the sealing endpoint processes leaves its ratchet where it is. -/
theorem reads_heeds (h : Reads g p taken ahead) (hg : Heeds g g') : Reads g' p taken ahead := by
  induction hg with
  | refl => exact h
  | process g' message _ ih => exact hD.reads_process message ih

theorem sealFrame_ok (hnamed : Named M s.group d) (hlength : payload.length < vectorBound) :
    ∃ frame, (s.sealFrame payload).2 = .ok frame := by
  obtain ⟨own, hown, hleaf, -⟩ := hnamed
  obtain ⟨message, frame, hcreate, hserialize⟩ :=
    hD.seals s.group payload ⟨own, hown, hleaf⟩ hlength
  exact ⟨frame, sealFrame_eq_ok.2 ⟨message, hcreate, hserialize⟩⟩

/-- What an endpoint seals lies ahead of the other one. -/
theorem sealFrame_reads (h : Reads s.group p taken ahead)
    (hseal : (s.sealFrame payload).2 = .ok frame) :
    Reads (s.sealFrame payload).1.group p taken (ahead ++ [(payload, frame)]) := by
  obtain ⟨message, hcreate, hserialize⟩ := sealFrame_eq_ok.1 hseal
  exact hD.reads_seal h hcreate hserialize

theorem process_ahead (hM : M.Lawful) (hnamed : Named M g d)
    (h : Reads g s.group taken (passed ++ (payload, frame) :: ahead))
    (hnear : passed.length ≤ maximumForwardDistance) :
    ∃ credential, identityOf credential = .ok d ∧
      (s.process frame).2 = .ok (credential, .application payload) ∧
      Reads g (s.process frame).1.group (taken ++ [frame]) ahead := by
  obtain ⟨own, hown, hleaf, hid⟩ := hnamed
  obtain ⟨received, protocol, hreceived, hprotocol, ⟨own', hown', hleaf', hprocess⟩, hreads⟩ :=
    hD.reads_open h hnear
  obtain rfl : own' = own := hM.index_inj hown' hown (hleaf'.trans hleaf.symm)
  rw [process_eq s hreceived hprotocol, hprocess]
  exact ⟨own'.credential, hid, rfl, hreads⟩

/-- A frame that lies ahead opens, and those before it are passed. -/
theorem openFrame_ahead (hM : M.Lawful) (hnamed : Named M g d)
    (h : Reads g s.group taken (passed ++ (payload, frame) :: ahead))
    (hnear : passed.length ≤ maximumForwardDistance) :
    (s.openFrame frame).2 = .ok ⟨d, payload⟩ ∧
      Reads g (s.openFrame frame).1.group (taken ++ [frame]) ahead := by
  obtain ⟨credential, hid, hprocess, hreads⟩ := process_ahead hD hM hnamed h hnear
  refine ⟨?_, openFrame_fst s frame ▸ hreads⟩
  have hpair : s.process frame = ((s.process frame).1, .ok (credential, .application payload)) :=
    Prod.ext rfl hprocess
  rw [WorkspaceSession.openFrame, hpair]
  simp only [hid]

/-- A frame does not open twice. -/
theorem openFrame_taken (h : Reads g s.group taken ahead) (htaken : frame ∈ taken) :
    (∃ e, (s.openFrame frame).2 = .error e) ∧
      Reads g (s.openFrame frame).1.group taken ahead := by
  obtain ⟨received, protocol, e, hreceived, hprotocol, hprocess, hreads⟩ := hD.reads_again h htaken
  rw [WorkspaceSession.openFrame, process_eq s hreceived hprotocol, hprocess]
  exact ⟨⟨.open_ e, rfl⟩, hreads⟩

/-- A device that keeps the keys of the key package it was added with joins the group, and the two
endpoints read each other. -/
theorem join_welcome (hM : M.Lawful) {s s' : WorkspaceSession M} (identity : DeviceIdentity M)
    {keyPackage : Bytes} {k : M.KeyPackage} {invitation : Invitation}
    (hparsed : parseKeyPackage M keyPackage = .ok k) (hholds : Holds identity.provider k)
    (hid : identityOf (M.credential k) = .ok d)
    (hadd : s.addDevice keyPackage = (s', .ok invitation)) :
    ∃ p, WorkspaceSession.join identity invitation.welcome = .ok ⟨identity, p⟩ ∧ Named M p d ∧
      Reads s'.group p [] [] ∧ Reads p s'.group [] [] := by
  obtain ⟨k', staged, commit, welcome, hparsed', hmembers, hmerge, hserialize⟩ :=
    addDevice_eq_ok hadd
  cases hparsed.symm.trans hparsed'
  obtain ⟨g', -, -, hmerge', hview, -, -⟩ := hM.add_ok _ _ _ _ _ hmembers
  cases hmerge.symm.trans hmerge'
  obtain ⟨received, body, p, hreceived, hextract, hjoin, hleaf, hjoined, hreads⟩ :=
    hD.welcomes hholds hmembers hmerge hserialize
  have hgroup : M.members s'.group = ((M.view s.group).added (M.credential k)).members :=
    congrArg GroupView.members hview
  refine ⟨p, by simp [WorkspaceSession.join, hreceived, hextract, hjoin],
    ⟨⟨(beforeBlank 0 (M.members s.group)).length, M.credential k⟩, ?_, hleaf.symm, hid⟩, hreads⟩
  rw [hjoined, hgroup]
  exact mem_added.2 (.inr rfl)

end

end LeaveCli.Crypto
