import LeaveCli.Crypto.Devices
import LeaveCli.Crypto.SmallGroup
import LeaveCli.Crypto.Vectors

/-!
# A small lawful MLS with ratchets

`FramedGroup.mls` keeps the groups of `SmallGroup.mls`, and with each how many frames it has sealed
in its epoch and which one of every member it expects next. Messages begin with the version of the
protocol, and welcomes list the members. It satisfies what this development asks of OpenMLS
(`FramedGroup.lawful`, `FramedGroup.delivers`, `FramedGroup.epochs`), so those laws are consistent.
-/

namespace LeaveCli.Crypto.FramedGroup

open Lib SmallGroup

/-! ## Messages -/

inductive Message
  | application (epoch generation leaf : Nat) (plaintext : Bytes)
  | commit (epoch : Nat)
  | keyPackage (credential : Credential)
  | welcome (members : List Member) (epoch leaf : Nat)

def putMembers (members : List Member) (rest : Bytes) : Bytes :=
  putNat members.length
    (members.foldr (fun m rest => putNat m.index (putCredential m.credential rest)) rest)

def takeMembers : Nat → Bytes → List Member × Bytes
  | 0, bs => ([], bs)
  | n + 1, bs =>
    let index := takeNat bs
    let credential := takeCredential index.2
    let more := takeMembers n credential.2
    (⟨index.1, credential.1⟩ :: more.1, more.2)

theorem takeMembers_foldr (members : List Member) (rest : Bytes) :
    takeMembers members.length (members.foldr (fun m rest =>
      putNat m.index (putCredential m.credential rest)) rest) = (members, rest) := by
  induction members with
  | nil => rfl
  | cons m members ih =>
    rw [List.foldr_cons, List.length_cons, takeMembers]
    simp only [takeNat_putNat, takeCredential_putCredential, ih]

def encode : Message → Bytes
  | .application epoch generation leaf plaintext =>
    0x00 :: 0x01 :: 1 :: putNat epoch (putNat generation (putNat leaf plaintext))
  | .commit epoch => 0x00 :: 0x01 :: 2 :: putNat epoch []
  | .keyPackage credential => 0x00 :: 0x01 :: 3 :: putCredential credential []
  | .welcome members epoch leaf =>
    0x00 :: 0x01 :: 4 :: putMembers members (putNat epoch (putNat leaf []))

def decode : Bytes → Except Str Message
  | 0x00 :: 0x01 :: kind :: bs =>
    let first := takeNat bs
    let second := takeNat first.2
    let third := takeNat second.2
    let members := takeMembers first.1 first.2
    let epoch := takeNat members.2
    if kind = 1 then .ok (.application first.1 second.1 third.1 third.2)
    else if kind = 2 then .ok (.commit first.1)
    else if kind = 3 then .ok (.keyPackage (takeCredential bs).1)
    else .ok (.welcome members.1 epoch.1 (takeNat epoch.2).1)
  | _ => .error "unknown version"

theorem decode_encode (message : Message) : decode (encode message) = .ok message := by
  cases message with
  | application epoch generation leaf plaintext => simp [encode, decode, takeNat_putNat]
  | commit epoch => simp [encode, decode, takeNat_putNat]
  | keyPackage credential => simp [encode, decode, takeCredential_putCredential]
  | welcome members epoch leaf =>
    simp [encode, decode, putMembers, takeNat_putNat, takeMembers_foldr]

/-! ## Groups -/

/-- A group, and how far its ratchets are. -/
structure Ratcheted where
  group : SmallGroup.Group
  /-- How many frames this endpoint has sealed. -/
  sent : Nat
  /-- The next frame of the member at a leaf; what stands first counts. -/
  heard : List (Nat × Nat)

namespace Ratcheted

def members (g : Ratcheted) : List Member := g.group.1.members

def epoch (g : Ratcheted) : Nat := g.group.1.epoch

def ownLeaf (g : Ratcheted) : Nat := g.group.1.ownLeaf

/-- The next frame of the member at a leaf. -/
def next (g : Ratcheted) (leaf : Nat) : Nat := (g.heard.lookup leaf).getD 0

/-- A group at the beginning of an epoch. -/
def fresh (group : SmallGroup.Group) : Ratcheted := ⟨group, 0, []⟩

/-- Processing checks the epoch and takes a frame once. -/
def process (g : Ratcheted) : Message → Ratcheted × Except Str (Credential × MessageContent Unit)
  | .application epoch generation leaf plaintext =>
    if epoch ≠ g.epoch then (g, .error "wrong epoch")
    else if generation < g.next leaf then (g, .error "the secret was used")
    else if g.next leaf + maximumForwardDistance < generation then (g, .error "too far ahead")
    else (g.members.find? fun m => m.index = leaf).elim (g, .error "unknown sender") fun sender =>
      ({ g with heard := (leaf, generation + 1) :: g.heard },
        .ok (sender.credential, .application plaintext))
  | .commit epoch =>
    (g, if epoch = g.epoch then .ok (.other, .stagedCommit ()) else .error "wrong epoch")
  | _ => (g, .error "not a protocol message")

def create (g : Ratcheted) (payload : Bytes) : Ratcheted × Except Str Message :=
  g.group.own.elim (g, .error "not a member") fun own =>
    ({ g with sent := g.sent + 1 }, .ok (.application g.epoch g.sent own.index payload))

theorem process_eq (g : Ratcheted) (message : Message) :
    (g.process message).1.group = g.group ∧ (g.process message).1.sent = g.sent := by
  cases message with
  | application epoch generation leaf plaintext =>
    simp only [process]
    split
    · exact ⟨rfl, rfl⟩
    split
    · exact ⟨rfl, rfl⟩
    split
    · exact ⟨rfl, rfl⟩
    cases g.members.find? fun m => m.index = leaf with
    | none => exact ⟨rfl, rfl⟩
    | some sender => exact ⟨rfl, rfl⟩
  | commit epoch => exact ⟨rfl, rfl⟩
  | keyPackage credential => exact ⟨rfl, rfl⟩
  | welcome members epoch leaf => exact ⟨rfl, rfl⟩

theorem create_eq (g : Ratcheted) (payload : Bytes) :
    (g.create payload).1.group = g.group ∧ (g.create payload).1.heard = g.heard := by
  unfold create
  cases g.group.own with
  | none => exact ⟨rfl, rfl⟩
  | some own => exact ⟨rfl, rfl⟩

theorem own_eq_some {g : Ratcheted} {own : Member} (h : g.group.own = some own) :
    own ∈ g.members ∧ own.index = g.ownLeaf :=
  ⟨List.mem_of_find?_eq_some h, of_decide_eq_true (List.find?_some h :)⟩

theorem create_eq_ok {g : Ratcheted} {payload : Bytes} {message : Message}
    (h : (g.create payload).2 = .ok message) :
    message = .application g.epoch g.sent g.ownLeaf payload ∧
      (g.create payload).1.sent = g.sent + 1 := by
  unfold create at h ⊢
  cases hown : g.group.own with
  | none =>
    rw [hown] at h
    cases h
  | some own =>
    rw [hown] at h
    cases h
    exact ⟨by rw [(own_eq_some hown).2], rfl⟩

theorem own_isSome {g : Ratcheted} (h : ∃ m ∈ g.members, m.index = g.ownLeaf) :
    g.group.own.isSome = true := by
  obtain ⟨m, hm, hleaf⟩ := h
  exact List.find?_isSome.2 ⟨m, hm, decide_eq_true hleaf⟩

theorem create_ok {g : Ratcheted} (h : ∃ m ∈ g.members, m.index = g.ownLeaf) (payload : Bytes) :
    ∃ message, (g.create payload).2 = .ok message := by
  obtain ⟨own, hown⟩ := Option.isSome_iff_exists.1 (own_isSome h)
  rw [create, hown]
  exact ⟨_, rfl⟩

end Ratcheted

/-- The welcome of the commit that adds a member. -/
def joiningWelcome (g : Ratcheted) (credential : Credential) : Message :=
  .welcome (g.group.added credential).1.members (g.epoch + 1) (beforeBlank 0 g.members).length

/-- The MLS of this module. -/
def mls : Mls where
  Provider := Unit
  Group := Ratcheted
  Staged := Ratcheted
  MessageIn := Message
  KeyPackageIn := Credential
  KeyPackage := Credential
  Welcome := List Member × Nat × Nat
  ProtocolMessage := Message
  StagedCommit := Unit
  MessageOut := Message
  members := Ratcheted.members
  epoch := Ratcheted.epoch
  ownLeaf := Ratcheted.ownLeaf
  deserialize := decode
  extract
    | .keyPackage credential => .keyPackage credential
    | .welcome members epoch leaf => .welcome (members, epoch, leaf)
    | _ => .other
  toProtocol
    | .keyPackage _ => .error "not a protocol message"
    | .welcome .. => .error "not a protocol message"
    | message => .ok message
  validate credential := .ok credential
  ciphersuite _ := ciphersuite
  credential credential := credential
  addMembers g credential :=
    if g.group.own.isSome then
      .ok (.fresh (g.group.added credential), .commit g.epoch, joiningWelcome g credential)
    else .error "not a member"
  removeMembers g i :=
    if i = g.ownLeaf then .error "a member does not remove itself"
    else .ok (.fresh (g.group.removed i), .commit g.epoch)
  mergePendingCommit staged := .ok staged
  processMessage := Ratcheted.process
  mergeStagedCommit g _ :=
    (.fresh ⟨{ g.group.1 with epoch := g.epoch + 1 }, g.group.2⟩, .ok ())
  createMessage := Ratcheted.create
  serialize message := .ok (encode message)
  newFromWelcome _ welcome :=
    if h : (welcome.1.map (·.index)).Pairwise (· < ·) then
      .ok (.fresh ⟨⟨welcome.1, welcome.2.1, welcome.2.2⟩, h⟩)
    else .error "not a group"

theorem view_eq {g g' : Ratcheted} (h : g'.group = g.group) : mls.view g' = mls.view g := by
  simp only [Mls.view, mls, Ratcheted.members, Ratcheted.epoch, Ratcheted.ownLeaf, h]

theorem addMembers_eq_ok {g : Ratcheted} {k : Credential} {staged : Ratcheted}
    {commit welcome : Message} (h : mls.addMembers g k = .ok (staged, commit, welcome)) :
    g.group.own.isSome = true ∧ staged = .fresh (g.group.added k) ∧ commit = .commit g.epoch ∧
      welcome = joiningWelcome g k := by
  have h' : (if g.group.own.isSome then
      .ok (Ratcheted.fresh (g.group.added k), Message.commit g.epoch, joiningWelcome g k)
    else Except.error ("not a member" : Str)) = .ok (staged, commit, welcome) := h
  split at h'
  · rename_i hown
    cases h'
    exact ⟨hown, rfl, rfl, rfl⟩
  · cases h'

theorem lawful : mls.Lawful where
  sorted g := g.group.2
  process_view g message := view_eq (g.process_eq message).1
  create_view g payload := view_eq (g.create_eq payload).1
  add_ok g k staged commit welcome h := by
    obtain ⟨-, rfl, rfl, rfl⟩ := addMembers_eq_ok h
    exact ⟨_, _, _, rfl, rfl, rfl, rfl⟩
  remove_ok g i staged commit h := by
    have h' : (if i = g.ownLeaf then Except.error ("a member does not remove itself" : Str)
      else .ok (Ratcheted.fresh (g.group.removed i), Message.commit g.epoch)) =
        .ok (staged, commit) := h
    split at h'
    · cases h'
    · cases h'
      exact ⟨_, _, rfl, rfl, rfl⟩
  remove_own g staged := by simp [mls]
  remove_other g m _ _ hne := ⟨_, if_neg hne⟩

/-! ## Reading -/

/-- The frames from the `n`th on that carry the payloads. -/
def frames (epoch leaf : Nat) : Nat → List Bytes → List (Bytes × Bytes)
  | _, [] => []
  | n, payload :: payloads =>
    (payload, encode (.application epoch n leaf payload)) :: frames epoch leaf (n + 1) payloads

theorem frames_append (epoch leaf n : Nat) (payloads payloads' : List Bytes) :
    frames epoch leaf n (payloads ++ payloads') =
      frames epoch leaf n payloads ++ frames epoch leaf (n + payloads.length) payloads' := by
  induction payloads generalizing n with
  | nil => rfl
  | cons payload payloads ih =>
    rw [List.cons_append, frames, ih, frames, List.length_cons, List.cons_append]
    congr 3
    omega

/-- A frame of the list, with what is before it and behind it. -/
theorem frames_split {epoch leaf n : Nat} {payloads : List Bytes}
    {passed ahead : List (Bytes × Bytes)} {payload b : Bytes}
    (h : frames epoch leaf n payloads = passed ++ (payload, b) :: ahead) :
    b = encode (.application epoch (n + passed.length) leaf payload) ∧
      ∃ later, ahead = frames epoch leaf (n + passed.length + 1) later ∧
        payloads.length = passed.length + 1 + later.length := by
  induction passed generalizing n payloads with
  | nil =>
    cases payloads with
    | nil => cases h
    | cons first payloads =>
      simp only [frames, List.nil_append, List.cons.injEq, Prod.mk.injEq] at h
      obtain ⟨⟨rfl, rfl⟩, rfl⟩ := h
      exact ⟨rfl, payloads, rfl, by simp [Nat.add_comm]⟩
  | cons _ passed ih =>
    cases payloads with
    | nil => cases h
    | cons first payloads =>
      rw [frames, List.cons_append, List.cons.injEq] at h
      obtain ⟨hb, later, hahead, hlength⟩ := ih h.2
      have hn : n + 1 + passed.length = n + (passed.length + 1) := by omega
      rw [hn] at hb hahead
      refine ⟨hb, later, hahead, ?_⟩
      simp only [List.length_cons, hlength]
      omega

/-- `p` follows the ratchet of `g`: what it took is behind, and the frames ahead are the rest. -/
structure Reads (g p : Ratcheted) (taken : List Bytes) (ahead : List (Bytes × Bytes)) : Prop where
  epoch : p.epoch = g.epoch
  members : p.members = g.members
  own : g.group.own.isSome = true
  taken : ∀ b ∈ taken, ∃ n payload, n < p.next g.ownLeaf ∧
    b = encode (.application g.epoch n g.ownLeaf payload)
  ahead : ∃ payloads, ahead = frames g.epoch g.ownLeaf (p.next g.ownLeaf) payloads ∧
    g.sent = p.next g.ownLeaf + payloads.length

/-- Whether `p` reads `g` is about the group and the ratchet of `g`, and about what `p` heard. -/
theorem Reads.congr {g g' p p' : Ratcheted} {taken : List Bytes} {ahead : List (Bytes × Bytes)}
    (h : Reads g p taken ahead) (hg : g'.group = g.group) (hsent : g'.sent = g.sent)
    (hp : p'.group = p.group) (hheard : p'.heard = p.heard) : Reads g' p' taken ahead := by
  obtain ⟨group, sent, heard⟩ := g
  obtain ⟨group', sent', heard'⟩ := g'
  obtain ⟨joined, own, next⟩ := p
  obtain ⟨joined', own', next'⟩ := p'
  obtain rfl := hg
  obtain rfl := hsent
  obtain rfl := hp
  obtain rfl := hheard
  exact ⟨h.epoch, h.members, h.own, h.taken, h.ahead⟩

theorem next_heard (p : Ratcheted) (leaf n : Nat) :
    ({ p with heard := (leaf, n) :: p.heard } : Ratcheted).next leaf = n := by
  simp [Ratcheted.next]

theorem reads_fresh {group joined : SmallGroup.Group} (hepoch : joined.1.epoch = group.1.epoch)
    (hmembers : joined.1.members = group.1.members)
    (hown : ∃ m ∈ group.1.members, m.index = group.1.ownLeaf) :
    Reads (.fresh group) (.fresh joined) [] [] where
  epoch := hepoch
  members := hmembers
  own := Ratcheted.own_isSome (g := .fresh group) hown
  taken := nofun
  ahead := ⟨[], rfl, rfl⟩

section
variable {g p : Ratcheted} {taken : List Bytes} {passed ahead : List (Bytes × Bytes)}
  {payload b : Bytes}

theorem reads_sealed (h : Reads g p taken ahead) {message : Message}
    (hcreate : (g.create payload).2 = .ok message) :
    Reads (g.create payload).1 p taken (ahead ++ [(payload, encode message)]) := by
  obtain ⟨rfl, hsent⟩ := Ratcheted.create_eq_ok hcreate
  obtain ⟨hgroup, -⟩ := g.create_eq payload
  obtain ⟨payloads, rfl, hlength⟩ := h.ahead
  have hview := view_eq hgroup
  have hepoch : (g.create payload).1.epoch = g.epoch := congrArg GroupView.epoch hview
  have hleaf : (g.create payload).1.ownLeaf = g.ownLeaf := congrArg GroupView.ownLeaf hview
  refine ⟨h.epoch.trans hepoch.symm, h.members.trans (congrArg GroupView.members hview).symm, ?_,
    ?_, payloads ++ [payload], ?_, ?_⟩
  · rw [hgroup]
    exact h.own
  · rw [hleaf, hepoch]
    exact h.taken
  · rw [hleaf, hepoch, frames_append, ← hlength]
    rfl
  · rw [hleaf, hsent, hlength, List.length_append]
    rfl

/-- A frame that is near enough opens. -/
theorem reads_opened (h : Reads g p taken (passed ++ (payload, b) :: ahead))
    (hnear : passed.length ≤ maximumForwardDistance) : ∃ message own,
      b = encode message ∧ mls.toProtocol message = .ok message ∧ own ∈ g.members ∧
      own.index = g.ownLeaf ∧ (p.process message).2 = .ok (own.credential, .application payload) ∧
      Reads g (p.process message).1 (taken ++ [b]) ahead := by
  obtain ⟨payloads, hframes, hlength⟩ := h.ahead
  obtain ⟨rfl, later, rfl, hlater⟩ := frames_split hframes.symm
  obtain ⟨own, hown⟩ := Option.isSome_iff_exists.1 h.own
  obtain ⟨hmember, hleaf⟩ := Ratcheted.own_eq_some hown
  let n := p.next g.ownLeaf + passed.length
  have hsender : (p.members.find? fun m => m.index = g.ownLeaf) = some own := by
    rw [h.members]
    exact hown
  have hprocess : p.process (.application g.epoch n g.ownLeaf payload) =
      ({ p with heard := (g.ownLeaf, n + 1) :: p.heard },
        .ok (own.credential, .application payload)) := by
    simp only [Ratcheted.process, hsender]
    rw [if_neg (not_not.2 h.epoch.symm), if_neg (by omega), if_neg (by omega)]
    rfl
  refine ⟨.application g.epoch n g.ownLeaf payload, own, rfl, rfl, hmember, hleaf,
    congrArg Prod.snd hprocess, ?_⟩
  rw [hprocess]
  refine ⟨h.epoch, h.members, h.own, fun b hb => ?_, later, ?_, ?_⟩
  · rw [next_heard]
    rcases List.mem_append.1 hb with hb | hb
    · obtain ⟨m, payload', hm, rfl⟩ := h.taken b hb
      exact ⟨m, payload', by omega, rfl⟩
    · exact ⟨n, payload, Nat.lt_succ_self n, List.mem_singleton.1 hb⟩
  · rw [next_heard]
  · rw [next_heard]
    omega

theorem process_other_epoch {n : Nat} (h : g.epoch ≠ p.epoch) (payload : Bytes) :
    p.process (.application g.epoch n g.ownLeaf payload) = (p, .error "wrong epoch") := by
  rw [Ratcheted.process, if_pos h]

/-- A frame that was taken does not open again, and moves nothing. -/
theorem reads_taken (h : Reads g p taken ahead) (hb : b ∈ taken) : ∃ message,
    b = encode message ∧ mls.toProtocol message = .ok message ∧
      p.process message = (p, .error "the secret was used") := by
  obtain ⟨n, payload, hn, rfl⟩ := h.taken b hb
  refine ⟨.application g.epoch n g.ownLeaf payload, rfl, rfl, ?_⟩
  rw [Ratcheted.process, if_neg (not_not.2 h.epoch.symm), if_pos hn]

end

theorem delivers : mls.Delivers Reads fun _ _ => True where
  framed {message _} hser := by
    cases hser
    cases message with
    | application epoch generation leaf plaintext => exact ⟨_, rfl⟩
    | commit epoch => exact ⟨_, rfl⟩
    | keyPackage credential => exact ⟨_, rfl⟩
    | welcome members epoch leaf => exact ⟨_, rfl⟩
  seals g payload hactive _ := by
    obtain ⟨message, hcreate⟩ := Ratcheted.create_ok hactive payload
    exact ⟨message, _, hcreate, rfl⟩
  reads_seal h hcreate hser := by
    cases hser
    exact reads_sealed h hcreate
  reads_open h hnear := by
    obtain ⟨message, own, rfl, hprotocol, hmember, hleaf, hprocess, hreads⟩ := reads_opened h hnear
    exact ⟨message, message, decode_encode message, hprotocol, ⟨own, hmember, hleaf, hprocess⟩,
      hreads⟩
  reads_again {g p taken ahead _} h hb := by
    obtain ⟨message, rfl, hprotocol, hprocess⟩ := reads_taken h hb
    refine ⟨message, message, _, decode_encode message, hprotocol, congrArg Prod.snd hprocess, ?_⟩
    show Reads g (Ratcheted.process p message).1 taken ahead
    rw [hprocess]
    exact h
  reads_process {g _ _ _} message h :=
    h.congr (Ratcheted.process_eq g message).1 (Ratcheted.process_eq g message).2 rfl rfl
  reads_create {_ p _ _} payload h :=
    h.congr rfl rfl (Ratcheted.create_eq p payload).1 (Ratcheted.create_eq p payload).2
  welcomes {g k _ _ _ _ _ _} _ hadd hmerge hser := by
    obtain ⟨hown, rfl, rfl, rfl⟩ := addMembers_eq_ok hadd
    cases hmerge
    cases hser
    obtain ⟨own, hown⟩ := Option.isSome_iff_exists.1 hown
    obtain ⟨hmember, hleaf⟩ := Ratcheted.own_eq_some hown
    exact ⟨_, _, _, decode_encode (joiningWelcome g k), rfl,
      dif_pos (Group.added (Ratcheted.group g) k).2, rfl, rfl,
      reads_fresh rfl rfl ⟨own, mem_added.2 (.inl hmember), hleaf⟩,
      reads_fresh rfl rfl ⟨_, mem_added.2 (.inr rfl), rfl⟩⟩

theorem epochs : mls.Epochs (fun _ _ => True) Reads where
  reads_peer _ := trivial
  reads_epoch h := h.epoch
  other_epoch {g p payload _ _} _ hcreate hser hepoch := by
    obtain ⟨rfl, -⟩ := Ratcheted.create_eq_ok hcreate
    cases hser
    let message : Message :=
      .application (Ratcheted.epoch g) (Ratcheted.sent g) (Ratcheted.ownLeaf g) payload
    exact ⟨message, message, _, decode_encode message, rfl,
      congrArg Prod.snd (process_other_epoch (Ne.symm hepoch) payload)⟩
  peer_process _ _ := trivial
  peer_receive _ _ := trivial
  peer_create _ _ := trivial
  peer_add _ _ _ := trivial
  peer_remove _ _ _ _ := trivial

/-! ## Devices -/

def devices : Devices mls where
  Draw := Unit
  newProvider _ _ := .ok ()
  buildKeyPackage _ identity := ((), .ok (encode (.keyPackage (.basic identity.deviceId.utf8))))

theorem devices_lawful : devices.Lawful fun _ _ => True where
  publishes {_ deviceId _ _} _ hbuild := by
    cases hbuild
    have hdecode := decode_encode (.keyPackage (.basic deviceId.utf8))
    refine ⟨.basic deviceId.utf8, ?_, rfl, trivial⟩
    simp [parseKeyPackage, mls, hdecode]

/-! ## Saved sessions -/

def putHeard (heard : List (Nat × Nat)) : Bytes :=
  putNat heard.length
    (heard.foldr (fun entry rest => putNat entry.1 (putNat entry.2 rest)) [])

def takeHeard : Nat → Bytes → List (Nat × Nat)
  | 0, _ => []
  | n + 1, bs =>
    let leaf := takeNat bs
    let next := takeNat leaf.2
    (leaf.1, next.1) :: takeHeard n next.2

theorem takeHeard_foldr (heard : List (Nat × Nat)) (rest : Bytes) :
    takeHeard heard.length (heard.foldr (fun entry rest =>
      putNat entry.1 (putNat entry.2 rest)) rest) = heard := by
  induction heard with
  | nil => rfl
  | cons entry heard ih =>
    rw [List.foldr_cons, List.length_cons, takeHeard]
    simp only [takeNat_putNat, ih]

/-- What is kept of a group. -/
def saveGroup (g : Ratcheted) : Bytes :=
  putMembers g.members (putNat g.epoch (putNat g.ownLeaf (putNat g.sent (putHeard g.heard))))

def loadGroup (bytes : Bytes) : Option Ratcheted :=
  let count := takeNat bytes
  let members := takeMembers count.1 count.2
  let epoch := takeNat members.2
  let leaf := takeNat epoch.2
  let sent := takeNat leaf.2
  let heard := takeNat sent.2
  if h : (members.1.map (·.index)).Pairwise (· < ·) then
    some ⟨⟨⟨members.1, epoch.1, leaf.1⟩, h⟩, sent.1, takeHeard heard.1 heard.2⟩
  else none

theorem loadGroup_saveGroup (g : Ratcheted) : loadGroup (saveGroup g) = some g := by
  obtain ⟨⟨⟨members, epoch, leaf⟩, hsorted⟩, sent, heard⟩ := g
  simp only [loadGroup, saveGroup, putMembers, putHeard, Ratcheted.members, Ratcheted.epoch,
    Ratcheted.ownLeaf, takeNat_putNat, takeMembers_foldr, takeHeard_foldr]
  exact dif_pos hsorted

/-- A session is kept under one key. -/
def build : Build mls where
  toDevices := devices
  newGroup _ identity _ := .ok (.fresh ⟨⟨[⟨0, .basic identity.deviceId.utf8⟩], 0, 0⟩, by simp⟩)
  saved s :=
    ⟨s.identity.deviceId, [], [], ⟨false, AList.singleton [0] (saveGroup s.group)⟩⟩
  load parts := ((parts.provider.storage.values.lookup [0]).bind loadGroup).elim
    (.error (.group "no group")) fun group => .ok ⟨⟨parts.deviceId, ()⟩, group⟩

end LeaveCli.Crypto.FramedGroup
