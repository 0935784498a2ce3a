import LeaveCli.Crypto.Codec

/-!
# The MLS group behind one workspace channel (`crates/leave-crypto/src/session.rs`, `identity.rs`)

OpenMLS is not part of this repository: `Mls` is the parameter that stands for the functions
`WorkspaceSession` calls, over an endpoint's `MlsGroup` together with the provider storage it
keeps. A call that fails leaves the group as it was, so `addMembers` and `removeMembers` return
the group with its staged commit only on success, and `mergePendingCommit` takes that.

`Mls.Lawful` is what the documentation of OpenMLS says about the group the host sees: reading and
sealing messages change no membership, a merged commit adds or removes exactly the member it
names and advances the epoch. `Mls.Delivers` is what it says about frames and the other endpoints: a
member opens each frame of its epoch once, and ratchets no farther ahead than
`maximumForwardDistance`. `Mls.Epochs` says that it opens none of another epoch, and that only a
commit moves it on.
-/

namespace LeaveCli.Crypto

open Lib

/-- A member's credential: a basic credential carries the identity bytes. -/
inductive Credential
  | basic (identity : Bytes)
  | other
  deriving DecidableEq, Repr

/-- A group member, at its leaf of the ratchet tree. -/
structure Member where
  index : Nat
  credential : Credential
  deriving DecidableEq, Repr

/-- What `MlsMessageIn::extract` finds. -/
inductive MessageBody (KeyPackageIn Welcome : Type)
  | keyPackage (keyPackage : KeyPackageIn)
  | welcome (welcome : Welcome)
  | other

/-- What `process_message` finds. -/
inductive MessageContent (StagedCommit : Type)
  | application (plaintext : Bytes)
  | stagedCommit (commit : StagedCommit)
  | other

/-- The OpenMLS functions the session calls. -/
structure Mls where
  Provider : Type
  Group : Type
  /-- A group with a staged commit of its own. -/
  Staged : Type
  MessageIn : Type
  KeyPackageIn : Type
  KeyPackage : Type
  Welcome : Type
  ProtocolMessage : Type
  StagedCommit : Type
  MessageOut : Type
  members : Group → List Member
  epoch : Group → Nat
  ownLeaf : Group → Nat
  /-- `MlsMessageIn::tls_deserialize_exact` -/
  deserialize : Bytes → Except Str MessageIn
  extract : MessageIn → MessageBody KeyPackageIn Welcome
  /-- `try_into_protocol_message` -/
  toProtocol : MessageIn → Except Str ProtocolMessage
  /-- `KeyPackageIn::validate` -/
  validate : KeyPackageIn → Except Str KeyPackage
  ciphersuite : KeyPackage → Nat
  /-- The credential of a key package's leaf node. -/
  credential : KeyPackage → Credential
  addMembers : Group → KeyPackage → Except Str (Staged × MessageOut × MessageOut)
  removeMembers : Group → Nat → Except Str (Staged × MessageOut)
  mergePendingCommit : Staged → Except Str Group
  processMessage : Group → ProtocolMessage →
    Group × Except Str (Credential × MessageContent StagedCommit)
  mergeStagedCommit : Group → StagedCommit → Group × Except Str Unit
  createMessage : Group → Bytes → Group × Except Str MessageOut
  /-- `tls_serialize_detached` -/
  serialize : MessageOut → Except Str Bytes
  /-- `StagedWelcome::new_from_welcome` and `into_group` -/
  newFromWelcome : Provider → Welcome → Except Str Group

/-- `MLS_128_DHKEMX25519_AES128GCM_SHA256_Ed25519`, the ciphersuite every workspace uses. -/
def ciphersuite : Nat := 0x0001

/-- Read the device identifier out of a basic credential. -/
def identityOf : Credential → Except CryptoError Str
  | .basic identity => match String.fromUTF8? ⟨identity.toArray⟩ with
    | some s => .ok s.toList
    | none => .error .malformedIdentity
  | .other => .error .malformedIdentity

/-- An invitation produced when a device is added to a workspace. -/
structure Invitation where
  commit : Bytes
  welcome : Bytes

/-- A decrypted application message and the device that actually sent it. -/
structure OpenedMessage where
  senderDeviceId : Str
  plaintext : Bytes

variable (M : Mls)

structure DeviceIdentity where
  deviceId : Str
  provider : M.Provider

/-- One device's view of a workspace's MLS group. -/
structure WorkspaceSession where
  identity : DeviceIdentity M
  group : M.Group

variable {M}

/-- Read a published key package and check it before it reaches a group. -/
def parseKeyPackage (M : Mls) (bytes : Bytes) : Except CryptoError M.KeyPackage :=
  match M.deserialize bytes with
  | .error e => .error (.keyPackage e)
  | .ok message => match M.extract message with
    | .keyPackage keyPackage => match M.validate keyPackage with
      | .error e => .error (.keyPackage e)
      | .ok keyPackage =>
        if M.ciphersuite keyPackage ≠ ciphersuite then
          .error (.keyPackage "the device offered an unsupported ciphersuite")
        else .ok keyPackage
    | _ => .error (.keyPackage "the invitation did not contain a key package")

/-- The free function `encode` of `session.rs`. -/
def encodeMessage (message : M.MessageOut) : Except CryptoError Bytes :=
  (M.serialize message).mapError .encode

namespace WorkspaceSession

/-- This device's own identifier. -/
def deviceId (s : WorkspaceSession M) : Str := s.identity.deviceId

/-- Join a workspace from the welcome produced by `addDevice`. -/
def join (identity : DeviceIdentity M) (welcome : Bytes) :
    Except CryptoError (WorkspaceSession M) :=
  match M.deserialize welcome with
  | .error e => .error (.group e)
  | .ok message => match M.extract message with
    | .welcome welcome => match M.newFromWelcome identity.provider welcome with
      | .error e => .error (.group e)
      | .ok group => .ok ⟨identity, group⟩
    | _ => .error .unexpectedMessage

/-- Add a device using the key package it published. -/
def addDevice (s : WorkspaceSession M) (keyPackage : Bytes) :
    WorkspaceSession M × Except CryptoError Invitation :=
  match parseKeyPackage M keyPackage with
  | .error e => (s, .error e)
  | .ok keyPackage => match M.addMembers s.group keyPackage with
    | .error e => (s, .error (.group e))
    | .ok (staged, commit, welcome) => match M.mergePendingCommit staged with
      | .error e => (s, .error (.group e))
      | .ok group =>
        -- merged: a failure from here on leaves the device in the group
        let s := { s with group }
        match encodeMessage commit, encodeMessage welcome with
        | .error e, _ => (s, .error e)
        | .ok _, .error e => (s, .error e)
        | .ok commit, .ok welcome => (s, .ok ⟨commit, welcome⟩)

/-- Remove a device, the first member that carries the identifier, and rotate the group past it. -/
def removeDevice (s : WorkspaceSession M) (deviceId : Str) :
    WorkspaceSession M × Except CryptoError Bytes :=
  match (M.members s.group).find? fun member => identityOf member.credential = .ok deviceId with
  | none => (s, .error .unknownDevice)
  | some member => match M.removeMembers s.group member.index with
    | .error e => (s, .error (.group e))
    | .ok (staged, commit) => match M.mergePendingCommit staged with
      | .error e => (s, .error (.group e))
      | .ok group => ({ s with group }, encodeMessage commit)

/-- The private `process` of `session.rs`. -/
def process (s : WorkspaceSession M) (bytes : Bytes) :
    WorkspaceSession M × Except CryptoError (Credential × MessageContent M.StagedCommit) :=
  match M.deserialize bytes with
  | .error e => (s, .error (.open_ e))
  | .ok message => match M.toProtocol message with
    | .error e => (s, .error (.open_ e))
    | .ok protocol =>
      ({ s with group := (M.processMessage s.group protocol).1 },
        (M.processMessage s.group protocol).2.mapError .open_)

/-- Apply a commit produced by another member. -/
def applyCommit (s : WorkspaceSession M) (commit : Bytes) :
    WorkspaceSession M × Except CryptoError Unit :=
  match s.process commit with
  | (s, .error e) => (s, .error e)
  | (s, .ok (_, .stagedCommit staged)) =>
    ({ s with group := (M.mergeStagedCommit s.group staged).1 },
      (M.mergeStagedCommit s.group staged).2.mapError .group)
  | (s, .ok _) => (s, .error .unexpectedMessage)

/-- `seal`: encrypt one application payload for the workspace. -/
def sealFrame (s : WorkspaceSession M) (plaintext : Bytes) :
    WorkspaceSession M × Except CryptoError Bytes :=
  ({ s with group := (M.createMessage s.group plaintext).1 },
    match (M.createMessage s.group plaintext).2 with
    | .error e => .error (.seal_ e)
    | .ok message => encodeMessage message)

/-- `open`: decrypt one application frame and report its authenticated sender. -/
def openFrame (s : WorkspaceSession M) (ciphertext : Bytes) :
    WorkspaceSession M × Except CryptoError OpenedMessage :=
  match s.process ciphertext with
  | (s, .error e) => (s, .error e)
  | (s, .ok (credential, content)) => match identityOf credential, content with
    | .error e, _ => (s, .error e)
    | .ok senderDeviceId, .application plaintext => (s, .ok ⟨senderDeviceId, plaintext⟩)
    | .ok _, _ => (s, .error .unexpectedMessage)

/-- Device identifiers of every current member. -/
def memberDeviceIds (s : WorkspaceSession M) : Except CryptoError (List Str) :=
  (M.members s.group).mapM fun member => identityOf member.credential

end WorkspaceSession

/-! ## What OpenMLS documents -/

/-- The part of a group every member agrees on, and where this member sits in it. -/
structure GroupView where
  members : List Member
  epoch : Nat
  ownLeaf : Nat

/-- The members before the leftmost blank leaf, counting leaves from `i`. -/
def beforeBlank : Nat → List Member → List Member
  | _, [] => []
  | i, m :: ms => if m.index = i then m :: beforeBlank (i + 1) ms else []

/-- The group after a commit that adds a member, which takes the leftmost blank leaf. -/
def GroupView.added (v : GroupView) (credential : Credential) : GroupView where
  members := beforeBlank 0 v.members ++ ⟨(beforeBlank 0 v.members).length, credential⟩ ::
    v.members.drop (beforeBlank 0 v.members).length
  epoch := v.epoch + 1
  ownLeaf := v.ownLeaf

/-- The group after a commit that removes the member at a leaf. -/
def GroupView.removed (v : GroupView) (index : Nat) : GroupView where
  members := v.members.filter fun member => member.index ≠ index
  epoch := v.epoch + 1
  ownLeaf := v.ownLeaf

/-- `MlsGroup::members`, `epoch` and `own_leaf_index`. -/
def Mls.view (M : Mls) (g : M.Group) : GroupView := ⟨M.members g, M.epoch g, M.ownLeaf g⟩

/-- What OpenMLS documents about the group an endpoint sees. -/
structure Mls.Lawful (M : Mls) : Prop where
  /-- `members` lists the leaves from left to right. -/
  sorted : ∀ g, ((M.members g).map (·.index)).Pairwise (· < ·)
  /-- Processing a message stages what it carries and merges nothing. -/
  process_view : ∀ g p, M.view (M.processMessage g p).1 = M.view g
  create_view : ∀ g p, M.view (M.createMessage g p).1 = M.view g
  add_ok : ∀ g k staged commit welcome, M.addMembers g k = .ok (staged, commit, welcome) →
    ∃ g' c w, M.mergePendingCommit staged = .ok g' ∧
      M.view g' = (M.view g).added (M.credential k) ∧
      M.serialize commit = .ok c ∧ M.serialize welcome = .ok w
  remove_ok : ∀ g i staged commit, M.removeMembers g i = .ok (staged, commit) →
    ∃ g' c, M.mergePendingCommit staged = .ok g' ∧ M.view g' = (M.view g).removed i ∧
      M.serialize commit = .ok c
  /-- A member does not commit its own removal. -/
  remove_own : ∀ g staged, M.removeMembers g (M.ownLeaf g) ≠ .ok staged
  /-- A member of the group can remove any other one. -/
  remove_other : ∀ g m, (∃ h ∈ M.members g, h.index = M.ownLeaf g) → m ∈ M.members g →
    m.index ≠ M.ownLeaf g → ∃ staged, M.removeMembers g m.index = .ok staged

/-! ## What OpenMLS documents about two endpoints

Every member seals on a ratchet of its own, which begins anew with each epoch, and every other
member follows it. A frame opens once; one that lies farther ahead than a member ratchets does not
open. A ratchet is taken to be endless: OpenMLS ends it after 2^32 frames of one epoch. -/

/-- `MAXIMUM_FORWARD_DISTANCE`: how far ahead of the current position a receiver will ratchet. -/
def maximumForwardDistance : Nat := 2000

/-- TLS vectors are shorter than this. -/
def vectorBound : Nat := 0x40000000

/-- Between two endpoints: the frames that were opened, and those ahead with their payloads. -/
abbrev Mls.Reading (M : Mls) := M.Group → M.Group → List Bytes → List (Bytes × Bytes) → Prop

/-- What OpenMLS documents about what one endpoint seals for another. `Reads g p taken ahead` says
that `p` is another member's endpoint of the group of `g`, in its epoch; `taken` are frames of `g`
it has opened, and `ahead` are, with their payloads and the oldest first, the frames `g` has sealed
since the last one of them. `Holds provider k` says that the provider keeps the private keys of the
key package `k`. -/
structure Mls.Delivers (M : Mls) (Reads : M.Reading) (Holds : M.Provider → M.KeyPackage → Prop) :
    Prop where
  /-- A message begins with the version of the protocol, `mls10`. -/
  framed : ∀ {message b}, M.serialize message = .ok b → [0x00, 0x01] <+: b
  /-- A member can seal a message. -/
  seals : ∀ g payload, (∃ h ∈ M.members g, h.index = M.ownLeaf g) → payload.length < vectorBound →
    ∃ message b, (M.createMessage g payload).2 = .ok message ∧ M.serialize message = .ok b
  reads_seal : ∀ {g p taken ahead payload message b}, Reads g p taken ahead →
    (M.createMessage g payload).2 = .ok message → M.serialize message = .ok b →
    Reads (M.createMessage g payload).1 p taken (ahead ++ [(payload, b)])
  /-- Of the frames that lie ahead, each that is near enough opens; those before it are passed. -/
  reads_open : ∀ {g p taken passed payload b ahead},
    Reads g p taken (passed ++ (payload, b) :: ahead) → passed.length ≤ maximumForwardDistance →
    ∃ received protocol, M.deserialize b = .ok received ∧ M.toProtocol received = .ok protocol ∧
      (∃ h ∈ M.members g, h.index = M.ownLeaf g ∧
        (M.processMessage p protocol).2 = .ok (h.credential, .application payload)) ∧
      Reads g (M.processMessage p protocol).1 (taken ++ [b]) ahead
  /-- A frame does not open twice. -/
  reads_again : ∀ {g p taken ahead b}, Reads g p taken ahead → b ∈ taken →
    ∃ received protocol e, M.deserialize b = .ok received ∧ M.toProtocol received = .ok protocol ∧
      (M.processMessage p protocol).2 = .error e ∧
      Reads g (M.processMessage p protocol).1 taken ahead
  /-- What the sealing endpoint processes and the other one seals is on other ratchets. -/
  reads_process : ∀ {g p taken ahead} message, Reads g p taken ahead →
    Reads (M.processMessage g message).1 p taken ahead
  reads_create : ∀ {g p taken ahead} payload, Reads g p taken ahead →
    Reads g (M.createMessage p payload).1 taken ahead
  /-- The welcome of a new member opens for the keys of its key package, at its leaf; it knows the
  members there are after the commit, and the two endpoints read each other. -/
  welcomes : ∀ {g k staged commit welcome g' w provider}, Holds provider k →
    M.addMembers g k = .ok (staged, commit, welcome) → M.mergePendingCommit staged = .ok g' →
    M.serialize welcome = .ok w → ∃ received body p, M.deserialize w = .ok received ∧
      M.extract received = .welcome body ∧ M.newFromWelcome provider body = .ok p ∧
      M.ownLeaf p = (beforeBlank 0 (M.members g)).length ∧ M.members p = M.members g' ∧
      Reads g' p [] [] ∧ Reads p g' [] []

/-- What OpenMLS documents about epochs. `Peer g p` says that `p` is another member's endpoint of
the group of `g`, whatever epoch it is in. -/
structure Mls.Epochs (M : Mls) (Peer : M.Group → M.Group → Prop) (Reads : M.Reading) : Prop where
  reads_peer : ∀ {g p taken ahead}, Reads g p taken ahead → Peer g p
  reads_epoch : ∀ {g p taken ahead}, Reads g p taken ahead → M.epoch p = M.epoch g
  /-- In no other epoch than the one it was sealed in a frame opens. -/
  other_epoch : ∀ {g p payload message b}, Peer g p →
    (M.createMessage g payload).2 = .ok message → M.serialize message = .ok b →
    M.epoch p ≠ M.epoch g → ∃ received protocol e, M.deserialize b = .ok received ∧
      M.toProtocol received = .ok protocol ∧ (M.processMessage p protocol).2 = .error e
  /-- Endpoints stay peers through the messages they process and seal and through the commits of
  one of them that keep the other in. -/
  peer_process : ∀ {g p} message, Peer g p → Peer (M.processMessage g message).1 p
  peer_receive : ∀ {g p} message, Peer g p → Peer g (M.processMessage p message).1
  peer_create : ∀ {g p} payload, Peer g p → Peer (M.createMessage g payload).1 p
  peer_add : ∀ {g p k staged commit welcome g'}, Peer g p →
    M.addMembers g k = .ok (staged, commit, welcome) → M.mergePendingCommit staged = .ok g' →
    Peer g' p
  peer_remove : ∀ {g p i staged commit g'}, Peer g p →
    M.removeMembers g i = .ok (staged, commit) → M.mergePendingCommit staged = .ok g' →
    M.ownLeaf p ≠ i → Peer g' p

/-- Every member of the sealing epoch opens what is sealed. `Peer g p` says that `p` is another
member's endpoint of the group of `g` which has not taken what `g` seals next. -/
structure Mls.FansOut (M : Mls) (Peer : M.Group → M.Group → Prop) : Prop where
  opens : ∀ {g p payload message b}, Peer g p → (M.createMessage g payload).2 = .ok message →
    M.serialize message = .ok b → ∃ received protocol, M.deserialize b = .ok received ∧
      M.toProtocol received = .ok protocol ∧
      (M.epoch p = M.epoch g → ∃ h ∈ M.members g, h.index = M.ownLeaf g ∧
        (M.processMessage p protocol).2 = .ok (h.credential, .application payload)) ∧
      (M.epoch p ≠ M.epoch g → ∃ e, (M.processMessage p protocol).2 = .error e)
  peer_process : ∀ {g p} message, Peer g p → Peer (M.processMessage g message).1 p

namespace WorkspaceSession

/-- What this device sees of the group. -/
def view (s : WorkspaceSession M) : GroupView := M.view s.group

/-- This device is a member of the group. -/
def Active (s : WorkspaceSession M) : Prop := ∃ h ∈ s.view.members, h.index = s.view.ownLeaf

end WorkspaceSession

end LeaveCli.Crypto
