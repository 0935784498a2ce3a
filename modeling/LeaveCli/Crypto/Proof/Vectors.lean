import LeaveCli.Crypto.FramedGroup
import LeaveCli.Crypto.Proof.Endpoints
import LeaveCli.Crypto.Proof.RoundTrip
import LeaveCli.Crypto.Vectors
import LeaveCli.Lib.Utf8

/-!
# Golden vectors agree across builds

`reads_take` is the format of a vector; `restore_exportState` says that a build loads the session
another build saved, and `openFrame_of_produce` that the frame of a produced vector opens in it.
-/

namespace LeaveCli.Crypto

open Lib

variable {M : Mls} {Reads : M.Reading} {Holds : M.Provider → M.KeyPackage → Prop}

/-! ## The format -/

namespace InteropVector

/-- The four fields are shorter than 2^32 bytes. -/
structure Fits (vector : InteropVector) : Prop where
  receiverState : vector.receiverState.length < UInt32.size
  sealedFrame : vector.sealedFrame.length < UInt32.size
  expectedPlaintext : vector.expectedPlaintext.length < UInt32.size
  expectedSender : vector.expectedSender.utf8.length < UInt32.size

/-- What a build is given: the session and the frame. -/
def given (vector : InteropVector) : Bytes :=
  putHeader [] ++ (putBytes [] vector.receiverState ++ putBytes [] vector.sealedFrame)

/-- What it has to find: the plaintext and the sender. -/
def expected (vector : InteropVector) : Bytes :=
  putBytes [] vector.expectedPlaintext ++ putBytes [] vector.expectedSender.utf8

theorem encode_eq (vector : InteropVector) : vector.encode = vector.given ++ vector.expected := by
  rw [encode, putBytes_eq, putBytes_eq _ vector.expectedPlaintext, putBytes_eq _ vector.sealedFrame,
    putBytes_eq _ vector.receiverState, given, expected]
  simp only [List.append_assoc]

theorem reads_take {vector : InteropVector} (hfits : vector.Fits) :
    Reader.Reads take vector.encode vector := by
  rw [encode_eq, given, expected, List.append_assoc, List.append_assoc,
    ← List.append_nil (putBytes [] vector.expectedSender.utf8)]
  refine Reader.Reads.bind reads_header (Reader.Reads.bind (reads_takeBytes hfits.receiverState) ?_)
  refine Reader.Reads.bind (reads_takeBytes hfits.sealedFrame) ?_
  refine Reader.Reads.bind (reads_takeBytes hfits.expectedPlaintext) ?_
  refine Reader.Reads.bind (reads_takeBytes hfits.expectedSender) ?_
  rw [Str.fromUtf8_utf8]
  exact Reader.Reads.pure vector

theorem takeHeader_of_run {bytes rest : Bytes} {u : Unit}
    (h : takeHeaderUnit.run bytes = .ok (u, rest)) : takeHeader bytes = .ok rest := by
  rw [run_takeHeaderUnit, map_eq_ok] at h
  obtain ⟨rest', hheader, heq⟩ := h
  cases heq
  exact hheader

/-- The fields are read off the front, and nothing else is accepted. -/
theorem decode_eq_ok {bytes : Bytes} {vector : InteropVector} :
    decode bytes = .ok vector ↔ vector.Fits ∧ vector.encode <+: bytes := by
  constructor
  · intro h
    rw [decode, map_eq_ok] at h
    obtain ⟨⟨read, rest⟩, h, rfl⟩ := h
    simp only [take, Reader.run_bind_eq_ok] at h
    obtain ⟨_, c, hheader, state, c₁, hstate, frame, c₂, hframe, plaintext, c₃, hplaintext, sender,
      c₄, hsender, sender', c₅, hutf8, h⟩ := h
    obtain rfl := takeHeader_eq_ok.1 (takeHeader_of_run hheader)
    obtain ⟨hstateFits, rfl⟩ := takeBytes_iff.1 hstate
    obtain ⟨hframeFits, rfl⟩ := takeBytes_iff.1 hframe
    obtain ⟨hplaintextFits, rfl⟩ := takeBytes_iff.1 hplaintext
    obtain ⟨hsenderFits, rfl⟩ := takeBytes_iff.1 hsender
    cases htext : Str.fromUtf8 sender with
    | none =>
      rw [htext] at hutf8
      cases hutf8
    | some text =>
      rw [htext] at hutf8
      cases hutf8
      cases h
      obtain rfl := Str.fromUtf8_eq_some.1 htext
      refine ⟨⟨hstateFits, hframeFits, hplaintextFits, hsenderFits⟩, rest, ?_⟩
      simp only [encode_eq, given, expected, List.append_assoc]
  · rintro ⟨hfits, rest, rfl⟩
    rw [decode, (reads_take hfits).accepts rest]
    rfl

theorem refuses_cut {vector : InteropVector} (hfits : vector.Fits) {cut : Bytes}
    (hcut : cut <+: vector.encode) (hne : cut ≠ vector.encode) : ∃ e, decode cut = .error e := by
  obtain ⟨e, he⟩ := (reads_take hfits).refuses cut hcut hne
  exact ⟨e, by rw [decode, he]; rfl⟩

end InteropVector

/-- What is written can be taken off in one way. -/
theorem putBytes_append_inj {a b rest rest' : Bytes} (ha : a.length < UInt32.size)
    (hb : b.length < UInt32.size) (h : putBytes [] a ++ rest = putBytes [] b ++ rest') :
    a = b ∧ rest = rest' := by
  have hread : takeBytes (putBytes [] a ++ rest) = .ok (a, rest) := takeBytes_iff.2 ⟨ha, rfl⟩
  have hread' : takeBytes (putBytes [] a ++ rest) = .ok (b, rest') := takeBytes_iff.2 ⟨hb, h⟩
  cases hread.symm.trans hread'
  exact ⟨rfl, rfl⟩

/-! ## The session -/

theorem length_le_putBytes (value : Bytes) : value.length ≤ (putBytes [] value).length := by
  simp [putBytes]

/-- The entries a map is saved as are no longer, and no more, than their bytes. -/
theorem length_le_flatMap_encodeEntry (entries : List (Σ _ : Bytes, Bytes)) :
    entries.length ≤ (entries.flatMap encodeEntry).length ∧ ∀ entry ∈ entries,
      entry.1.length ≤ (entries.flatMap encodeEntry).length ∧
        entry.2.length ≤ (entries.flatMap encodeEntry).length := by
  induction entries with
  | nil => simp
  | cons entry entries ih =>
    have hlength : (encodeEntry entry).length = entry.1.length + entry.2.length + 8 := by
      simp [encodeEntry, putBytes, toBeBytes]
      omega
    rw [List.flatMap_cons, List.length_append, List.length_cons, hlength, List.forall_mem_cons]
    refine ⟨by omega, by omega, fun later hlater => ?_⟩
    obtain ⟨hkey, hvalue⟩ := ih.2 later hlater
    omega

/-- What a build exports in fewer than 2^32 bytes is read back. -/
theorem fits_of_exportState {session : SavedSession} {bytes : Bytes}
    (h : session.exportState = .ok bytes) (hlength : bytes.length < UInt32.size) :
    session.Fits := by
  obtain ⟨-, rfl⟩ := SavedSession.exportState_eq_ok.1 h
  simp only [SavedSession.encodeValues, List.length_append] at hlength
  have hdevice := length_le_putBytes session.deviceId.utf8
  have hgroup := length_le_putBytes session.groupId
  have hkey := length_le_putBytes session.signaturePublicKey
  obtain ⟨hcount, hentries⟩ :=
    length_le_flatMap_encodeEntry (LeaveProvider.sortedEntries session.provider.storage.values)
  have hperm := sortedEntries_perm session.provider.storage.values
  refine ⟨by omega, by omega, by omega, ?_, ?_⟩
  · rw [← hperm.length_eq]
    omega
  · intro entry hentry
    obtain ⟨hkey, hvalue⟩ := hentries entry (hperm.mem_iff.2 hentry)
    omega

/-- What OpenMLS documents about a group it makes: its founder is the only member. -/
def Build.Founds (B : Build M) : Prop :=
  ∀ {draw identity workspaceId g}, B.newGroup draw identity workspaceId = .ok g →
    M.members g = [⟨M.ownLeaf g, .basic identity.deviceId.utf8⟩]

/-- `B'` loads a session out of what `B` keeps of it. -/
def Build.Loads (B B' : Build M) : Prop :=
  ∀ s parts, SavedSession.Same parts (B.saved s) → parts.provider.storage.poisoned = false →
    B'.load parts = .ok s

section
variable {B B' : Build M}

theorem restore_exportState (hloads : B.Loads B') {s : WorkspaceSession M} {state : Bytes}
    (h : (B.saved s).exportState = .ok state) (hlength : state.length < UInt32.size) :
    WorkspaceSession.restore B' state = .ok s := by
  have hreads := SavedSession.reads_restoreParts (fits_of_exportState h hlength)
  rw [← (SavedSession.exportState_eq_ok.1 h).2] at hreads
  have hrun := hreads.accepts []
  rw [List.append_nil] at hrun
  have hsame : SavedSession.Same { B.saved s with
      provider := SavedSession.reloaded (B.saved s).provider.storage.values } (B.saved s) :=
    ⟨rfl, rfl, rfl, toFinmap_ofEntries (sortedEntries_perm _)⟩
  rw [WorkspaceSession.restore, hrun]
  exact hloads s _ hsame rfl

theorem create_eq_ok {draw : B.Draw} {identity : DeviceIdentity M} {workspaceId : Str}
    {s : WorkspaceSession M} (h : WorkspaceSession.create B draw identity workspaceId = .ok s) :
    s.identity = identity ∧ B.newGroup draw identity workspaceId.utf8 = .ok s.group := by
  unfold WorkspaceSession.create at h
  split at h
  · cases h
  · rename_i group hgroup
    cases h
    exact ⟨rfl, hgroup⟩

/-- The calls behind a vector. -/
theorem produce_eq_ok {senderDraw receiverDraw : B.Draw} {senderId receiverId : Str}
    {plaintext : Bytes}
    {vector : InteropVector}
    (h : InteropVector.produce B senderDraw receiverDraw senderId receiverId plaintext =
      .ok vector) :
    ∃ senderProvider founder receiverProvider keyPackage sender invitation receiver,
      B.newProvider senderDraw senderId = .ok senderProvider ∧
      WorkspaceSession.create B senderDraw ⟨senderId, senderProvider⟩ "interop-workspace" =
        .ok founder ∧
      B.newProvider receiverDraw receiverId = .ok receiverProvider ∧
      (B.buildKeyPackage receiverDraw ⟨receiverId, receiverProvider⟩).2 = .ok keyPackage ∧
      founder.addDevice keyPackage = (sender, .ok invitation) ∧
      WorkspaceSession.join
        ⟨receiverId, (B.buildKeyPackage receiverDraw ⟨receiverId, receiverProvider⟩).1⟩
        invitation.welcome = .ok receiver ∧
      (B.saved receiver).exportState = .ok vector.receiverState ∧
      (sender.sealFrame plaintext).2 = .ok vector.sealedFrame ∧
      vector.expectedPlaintext = plaintext ∧ vector.expectedSender = senderId := by
  simp only [InteropVector.produce, bind_eq_ok] at h
  obtain ⟨identity, hidentity, founder, hfounder, receiver₀, hreceiver, keyPackage, hpublish,
    invitation, hadd, receiver, hjoin, state, hstate, frame, hframe, h⟩ := h
  cases h
  obtain ⟨senderProvider, hsender, rfl⟩ := (generate_eq_ok B.toDevices).1 hidentity
  obtain ⟨receiverProvider, hprovider, rfl⟩ := (generate_eq_ok B.toDevices).1 hreceiver
  have hbuild : (B.buildKeyPackage receiverDraw ⟨receiverId, receiverProvider⟩).2 =
      .ok keyPackage := by
    cases hbuilt : (B.buildKeyPackage receiverDraw ⟨receiverId, receiverProvider⟩).2 with
    | error e => simp [DeviceIdentity.publishKeyPackage, hbuilt, Except.mapError] at hpublish
    | ok built => simpa [DeviceIdentity.publishKeyPackage, hbuilt, Except.mapError] using hpublish
  exact ⟨senderProvider, founder, receiverProvider, keyPackage, (founder.addDevice keyPackage).1,
    invitation, receiver, hsender, hfounder, hprovider, hbuild, Prod.ext rfl hadd, hjoin, hstate,
    hframe, rfl, rfl⟩

/-- Who founds a group and adds a device is named in it by the identifier it has. -/
theorem named_of_addDevice (hM : M.Lawful) (hfounds : B.Founds) {draw : B.Draw}
    {identity : DeviceIdentity M} {workspaceId : Str} {founder sender : WorkspaceSession M}
    {keyPackage : Bytes} {invitation : Invitation}
    (hcreate : WorkspaceSession.create B draw identity workspaceId = .ok founder)
    (hadd : founder.addDevice keyPackage = (sender, .ok invitation)) :
    Named M sender.group identity.deviceId := by
  obtain ⟨-, hgroup⟩ := create_eq_ok hcreate
  have hmembers := hfounds hgroup
  let own : Member := ⟨M.ownLeaf founder.group, .basic identity.deviceId.utf8⟩
  have hown : IsOwn founder own := by
    refine ⟨?_, rfl⟩
    show own ∈ M.members founder.group
    rw [hmembers]
    exact List.mem_singleton_self _
  have hafter : IsOwn sender own := by
    rcases addDevice_cases hM founder keyPackage with ⟨e, he⟩ | ⟨k, s', invitation', -, hs', hadded⟩
    · rw [hadd] at he
      cases he
    · rw [hadd] at hs'
      cases hs'
      exact hadded.isOwn hown
  exact ⟨own, hafter.1, hafter.2, identityOf_basic identity.deviceId⟩

/-- What the founder of a group seals for the device it added opens to that plaintext. -/
theorem openFrame_of_produce (hM : M.Lawful) (hD : M.Delivers Reads Holds)
    (hK : B.toDevices.Lawful Holds) (hfounds : B.Founds) (hloads : B.Loads B')
    {senderDraw receiverDraw : B.Draw} {senderId receiverId : Str} {plaintext : Bytes}
    {vector : InteropVector}
    (h : InteropVector.produce B senderDraw receiverDraw senderId receiverId plaintext =
      .ok vector) (hlength : vector.receiverState.length < UInt32.size) :
    ∃ receiver, WorkspaceSession.restore B' vector.receiverState = .ok receiver ∧
      (receiver.openFrame vector.sealedFrame).2 =
        .ok ⟨vector.expectedSender, vector.expectedPlaintext⟩ := by
  obtain ⟨senderProvider, founder, receiverProvider, keyPackage, sender, invitation, receiver,
    hsender, hfounder, hreceiver, hbuild, hadd, hjoin, hstate, hframe, hplaintext, hid⟩ :=
    produce_eq_ok h
  refine ⟨receiver, restore_exportState hloads hstate hlength, ?_⟩
  have hnamed := named_of_addDevice hM hfounds hfounder hadd
  obtain ⟨k, hparsed, hcredential, hholds⟩ := hK.publishes hreceiver hbuild
  have hkeyId : identityOf (M.credential k) = .ok receiverId := by
    rw [hcredential, identityOf_basic]
  obtain ⟨p, hjoined, -, hreads, -⟩ := join_welcome hD hM
    ⟨receiverId, (B.buildKeyPackage receiverDraw ⟨receiverId, receiverProvider⟩).1⟩ hparsed hholds
    hkeyId hadd
  cases hjoin.symm.trans hjoined
  have hsealed := sealFrame_reads hD hreads hframe
  have hnamed' : Named M (sender.sealFrame plaintext).1.group senderId :=
    hnamed.evolves hM (.create _ _ .refl)
  rw [hplaintext, hid]
  exact (openFrame_ahead hD hM hnamed' hsealed (Nat.zero_le _)).1

theorem verify_eq_ok {vector : InteropVector} : vector.verify B = .ok () ↔
    ∃ receiver, WorkspaceSession.restore B vector.receiverState = .ok receiver ∧
      (receiver.openFrame vector.sealedFrame).2 =
        .ok ⟨vector.expectedSender, vector.expectedPlaintext⟩ := by
  simp only [InteropVector.verify, bind_eq_ok]
  constructor
  · rintro ⟨receiver, hrestore, ⟨sender, plaintext⟩, hopened, h⟩
    split at h
    · cases h
    split at h
    · cases h
    rename_i hplaintext hsender
    simp only [ne_eq, not_not] at hplaintext hsender
    exact ⟨receiver, hrestore, by rw [hopened, hplaintext, hsender]⟩
  · rintro ⟨receiver, hrestore, hopened⟩
    exact ⟨receiver, hrestore, _, hopened, by simp; rfl⟩

/-- A vector is about one plaintext and one sender. -/
theorem verify_unique {vector other : InteropVector} (hverify : vector.verify B = .ok ())
    (hother : other.verify B = .ok ()) (hstate : other.receiverState = vector.receiverState)
    (hframe : other.sealedFrame = vector.sealedFrame) : other = vector := by
  obtain ⟨receiver, hrestore, hopened⟩ := verify_eq_ok.1 hverify
  obtain ⟨receiver', hrestore', hopened'⟩ := verify_eq_ok.1 hother
  rw [hstate, hrestore] at hrestore'
  cases hrestore'
  rw [hframe, hopened] at hopened'
  simp only [Except.ok.injEq, OpenedMessage.mk.injEq] at hopened'
  cases vector
  cases other
  simp_all

/-- A vector one build produces is read back and checks on the other build. A build passes no
damaged expectations: whatever stands behind the session and the frame, it checks only when they
begin with the ones of the vector, and a vector that is cut off is refused. -/
theorem vector_agrees (hM : M.Lawful) (hD : M.Delivers Reads Holds)
    (hK : B.toDevices.Lawful Holds) (hfounds : B.Founds) (hloads : B.Loads B')
    {senderDraw receiverDraw : B.Draw} {senderId receiverId : Str} {plaintext : Bytes}
    {vector : InteropVector}
    (h : InteropVector.produce B senderDraw receiverDraw senderId receiverId plaintext =
      .ok vector) (hfits : vector.Fits) :
    InteropVector.decode vector.encode = .ok vector ∧ vector.verify B' = .ok () ∧
      (∀ tail other, InteropVector.decode (vector.given ++ tail) = .ok other →
        other.verify B' = .ok () → other = vector ∧ vector.expected <+: tail) ∧
      ∀ cut, cut <+: vector.encode → cut ≠ vector.encode →
        ∃ e, InteropVector.decode cut = .error e := by
  have hverify : vector.verify B' = .ok () :=
    verify_eq_ok.2 (openFrame_of_produce hM hD hK hfounds hloads h hfits.receiverState)
  refine ⟨InteropVector.decode_eq_ok.2 ⟨hfits, List.prefix_refl _⟩, hverify, ?_,
    fun cut => InteropVector.refuses_cut hfits⟩
  intro tail other hdecode hother
  obtain ⟨hotherFits, rest, hrest⟩ := InteropVector.decode_eq_ok.1 hdecode
  rw [InteropVector.encode_eq] at hrest
  simp only [InteropVector.given, List.append_assoc] at hrest
  -- the session and the frame are read off the same bytes
  obtain ⟨hstate, hrest⟩ :=
    putBytes_append_inj hotherFits.receiverState hfits.receiverState (List.append_cancel_left hrest)
  obtain ⟨hframe, htail⟩ := putBytes_append_inj hotherFits.sealedFrame hfits.sealedFrame hrest
  obtain rfl := verify_unique hverify hother hstate hframe
  exact ⟨rfl, rest, htail⟩

end

namespace FramedGroup

theorem build_founds : build.Founds := by
  intro draw identity workspaceId g h
  cases h
  rfl

theorem build_loads : build.Loads build := by
  intro s parts hsame _
  have hlookup : parts.provider.storage.values.lookup [0] = some (saveGroup s.group) := by
    rw [← Finmap.lookup_toFinmap, hsame.values]
    rfl
  have hid : parts.deviceId = s.identity.deviceId := hsame.deviceId
  simp only [build, hlookup, Option.bind_some, hid]
  exact congrArg (fun loaded => Option.elim loaded _ _) (loadGroup_saveGroup s.group)

end FramedGroup

/-- A vector from a host to a phone. -/
theorem exists_produced : ∃ vector : InteropVector,
    InteropVector.produce FramedGroup.build () () "host" "phone" [1, 2] = .ok vector ∧
      vector.Fits := by
  have hlengths : ((InteropVector.produce FramedGroup.build () () "host" "phone"
      [1, 2]).toOption.any fun vector =>
        [vector.receiverState, vector.sealedFrame, vector.expectedPlaintext,
          vector.expectedSender.utf8].all fun field => field.length < UInt32.size) = true := by
    decide +kernel
  cases hproduce : InteropVector.produce FramedGroup.build () () "host" "phone" [1, 2] with
  | error e =>
    rw [hproduce] at hlengths
    cases hlengths
  | ok vector =>
    rw [hproduce] at hlengths
    simp only [Except.toOption, Option.any_some, List.all_cons, List.all_nil, Bool.and_eq_true,
      decide_eq_true_eq, and_true] at hlengths
    obtain ⟨hstate, hframe, hplaintext, hsender⟩ := hlengths
    exact ⟨vector, rfl, hstate, hframe, hplaintext, hsender⟩

theorem vector_agrees_host : ∃ vector : InteropVector,
    InteropVector.decode vector.encode = .ok vector ∧
      vector.verify FramedGroup.build = .ok () ∧
      (∀ tail other, InteropVector.decode (vector.given ++ tail) = .ok other →
        other.verify FramedGroup.build = .ok () → other = vector ∧ vector.expected <+: tail) ∧
      ∀ cut, cut <+: vector.encode → cut ≠ vector.encode →
        ∃ e, InteropVector.decode cut = .error e := by
  obtain ⟨vector, hproduce, hfits⟩ := exists_produced
  exact ⟨vector, vector_agrees FramedGroup.lawful FramedGroup.delivers
    FramedGroup.devices_lawful FramedGroup.build_founds FramedGroup.build_loads hproduce hfits⟩

end LeaveCli.Crypto
