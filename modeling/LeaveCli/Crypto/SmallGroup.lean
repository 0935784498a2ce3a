import LeaveCli.Crypto.Proof.SessionSpec

/-!
# A small lawful MLS

`SmallGroup.mls` keeps the membership and the epoch of a group and has neither secrets nor ratchets:
a frame says in the clear who sealed it and in which epoch. Routes over it can be run.
-/

namespace LeaveCli.Crypto.SmallGroup

open Lib

/-! ## Messages -/

inductive Message
  | application (epoch : Nat) (sender : Credential) (plaintext : Bytes)
  | commit (epoch : Nat)
  | keyPackage (credential : Credential)
  | welcome (epoch leaf : Nat)

def putNat (n : Nat) (rest : Bytes) : Bytes := List.replicate n 1 ++ 0 :: rest

def takeNat : Bytes → Nat × Bytes
  | [] => (0, [])
  | b :: bs => if b = 1 then ((takeNat bs).1 + 1, (takeNat bs).2) else (0, bs)

def putCredential (credential : Credential) (rest : Bytes) : Bytes :=
  match credential with
  | .basic identity => 1 :: putNat identity.length (identity ++ rest)
  | .other => 0 :: rest

def takeCredential : Bytes → Credential × Bytes
  | [] => (.other, [])
  | b :: bs =>
    if b = 1 then (.basic ((takeNat bs).2.take (takeNat bs).1), (takeNat bs).2.drop (takeNat bs).1)
    else (.other, bs)

def encode : Message → Bytes
  | .application epoch sender plaintext => 1 :: putNat epoch (putCredential sender plaintext)
  | .commit epoch => 2 :: putNat epoch []
  | .keyPackage credential => 3 :: putCredential credential []
  | .welcome epoch leaf => 4 :: putNat epoch (putNat leaf [])

def decode : Bytes → Except Str Message
  | [] => .error "empty message"
  | kind :: bs =>
    if kind = 1 then
      .ok (.application (takeNat bs).1 (takeCredential (takeNat bs).2).1
        (takeCredential (takeNat bs).2).2)
    else if kind = 2 then .ok (.commit (takeNat bs).1)
    else if kind = 3 then .ok (.keyPackage (takeCredential bs).1)
    else if kind = 4 then .ok (.welcome (takeNat bs).1 (takeNat (takeNat bs).2).1)
    else .error "unknown message"

theorem takeNat_putNat (n : Nat) (rest : Bytes) : takeNat (putNat n rest) = (n, rest) := by
  induction n with
  | zero => rfl
  | succ n ih =>
    have hcons : putNat (n + 1) rest = 1 :: putNat n rest := by
      rw [putNat, List.replicate_succ]
      rfl
    rw [hcons, takeNat, if_pos rfl, ih]

theorem takeCredential_putCredential (credential : Credential) (rest : Bytes) :
    takeCredential (putCredential credential rest) = (credential, rest) := by
  cases credential with
  | basic identity => simp [putCredential, takeCredential, takeNat_putNat]
  | other => rfl

theorem decode_encode (message : Message) : decode (encode message) = .ok message := by
  cases message <;> simp [encode, decode, takeNat_putNat, takeCredential_putCredential]

/-! ## Groups -/

/-- A view whose members stand in the order of their leaves. -/
abbrev Group := { v : GroupView // (v.members.map (·.index)).Pairwise (· < ·) }

theorem added_sorted {v : GroupView} (hs : (v.members.map (·.index)).Pairwise (· < ·))
    (c : Credential) : ((v.added c).members.map (·.index)).Pairwise (· < ·) := by
  have hsplit := hs
  rw [← beforeBlank_append_drop 0 v.members, List.map_append, List.pairwise_append] at hsplit
  obtain ⟨hbefore, hafter, hcross⟩ := hsplit
  simp only [GroupView.added, List.map_append, List.map_cons, List.pairwise_append,
    List.pairwise_cons, List.mem_map, List.mem_cons]
  refine ⟨hbefore, ⟨?_, hafter⟩, ?_⟩
  · intro _ hcase
    obtain ⟨m, hm, rfl⟩ := hcase
    have := lt_index_of_mem_drop hs (fun _ _ => Nat.zero_le _) hm
    omega
  · rintro _ ⟨m, hm, rfl⟩ j (rfl | ⟨m', hm', rfl⟩)
    · have := index_le_of_mem_beforeBlank hm
      omega
    · exact hcross _ (List.mem_map_of_mem hm) _ (List.mem_map_of_mem hm')

theorem removed_sorted {v : GroupView} (hs : (v.members.map (·.index)).Pairwise (· < ·))
    (i : Nat) : ((v.removed i).members.map (·.index)).Pairwise (· < ·) := by
  rw [List.pairwise_map] at hs ⊢
  exact hs.filter _

def Group.added (g : Group) (c : Credential) : Group := ⟨g.1.added c, added_sorted g.2 c⟩

def Group.removed (g : Group) (i : Nat) : Group := ⟨g.1.removed i, removed_sorted g.2 i⟩

/-- The credential at a group's own leaf. -/
def Group.own (g : Group) : Option Member := g.1.members.find? fun m => m.index = g.1.ownLeaf

/-- A group a member joined: it knows the epoch and its leaf. -/
def Group.joined (epoch leaf : Nat) : Group := ⟨⟨[], epoch, leaf⟩, .nil⟩

/-- Processing checks the epoch. -/
def processMessage (g : Group) : Message → Except Str (Credential × MessageContent Unit)
  | .application epoch sender plaintext =>
    if epoch = g.1.epoch then .ok (sender, .application plaintext) else .error "wrong epoch"
  | .commit epoch =>
    if epoch = g.1.epoch then .ok (.other, .stagedCommit ()) else .error "wrong epoch"
  | _ => .error "not a protocol message"

/-- The MLS of this module. -/
def mls : Mls where
  Provider := Unit
  Group := Group
  Staged := Group
  MessageIn := Message
  KeyPackageIn := Credential
  KeyPackage := Credential
  Welcome := Nat × Nat
  ProtocolMessage := Message
  StagedCommit := Unit
  MessageOut := Message
  members g := g.1.members
  epoch g := g.1.epoch
  ownLeaf g := g.1.ownLeaf
  deserialize := decode
  extract
    | .keyPackage credential => .keyPackage credential
    | .welcome epoch leaf => .welcome (epoch, leaf)
    | _ => .other
  toProtocol message := .ok message
  validate credential := .ok credential
  ciphersuite _ := ciphersuite
  credential credential := credential
  addMembers g credential := .ok (g.added credential, .commit g.1.epoch,
    .welcome (g.1.epoch + 1) (beforeBlank 0 g.1.members).length)
  removeMembers g i :=
    if i = g.1.ownLeaf then .error "a member does not remove itself"
    else .ok (g.removed i, .commit g.1.epoch)
  mergePendingCommit staged := .ok staged
  processMessage g message := (g, processMessage g message)
  mergeStagedCommit g _ := (⟨{ g.1 with epoch := g.1.epoch + 1 }, g.2⟩, .ok ())
  createMessage g payload := (g, match g.own with
    | some own => .ok (.application g.1.epoch own.credential payload)
    | none => .error "not a member")
  serialize message := .ok (encode message)
  newFromWelcome _ welcome := .ok (.joined welcome.1 welcome.2)

theorem lawful : mls.Lawful where
  sorted g := g.2
  process_view _ _ := rfl
  create_view _ _ := rfl
  add_ok g k staged commit welcome h := by
    cases h
    exact ⟨_, _, _, rfl, rfl, rfl, rfl⟩
  remove_ok g i staged commit h := by
    have h' : (if i = g.1.ownLeaf then Except.error ("a member does not remove itself" : Str)
      else .ok (g.removed i, Message.commit g.1.epoch)) = .ok (staged, commit) := h
    split at h'
    · cases h'
    · cases h'
      exact ⟨_, _, rfl, rfl, rfl⟩
  remove_own g staged := by simp [mls]
  remove_other g m _ _ hne := ⟨_, if_neg hne⟩

theorem parseKeyPackage_encode (credential : Credential) :
    parseKeyPackage mls (encode (.keyPackage credential)) = .ok credential := by
  have hdecode := decode_encode (.keyPackage credential)
  simp [parseKeyPackage, mls, hdecode]

theorem addDevice_encode (s : WorkspaceSession mls) (credential : Credential) :
    s.addDevice (encode (.keyPackage credential)) =
      ({ s with group := s.group.added credential }, .ok ⟨encode (.commit s.group.1.epoch),
        encode (.welcome (s.group.1.epoch + 1) (beforeBlank 0 s.group.1.members).length)⟩) := by
  rw [WorkspaceSession.addDevice, parseKeyPackage_encode]
  rfl

theorem fansOut : mls.FansOut fun _ _ => True where
  opens {g _ payload message _} _ hcreate hser := by
    cases hown : Group.own g with
    | none => simp [mls, hown] at hcreate
    | some own =>
      have hmessage : Except.ok (.application g.1.epoch own.credential payload) =
          (Except.ok message : Except Str Message) := by simpa [mls, hown] using hcreate
      cases hmessage
      cases hser
      refine ⟨_, _, decode_encode (.application g.1.epoch own.credential payload), rfl,
        fun he => ?_, fun he => ?_⟩
      · have hindex : own.index = g.1.ownLeaf := by simpa using List.find?_some hown
        exact ⟨own, List.mem_of_find?_eq_some hown, hindex, if_pos he.symm⟩
      · exact ⟨_, if_neg (Ne.symm he)⟩
  peer_process _ _ := trivial

end LeaveCli.Crypto.SmallGroup
