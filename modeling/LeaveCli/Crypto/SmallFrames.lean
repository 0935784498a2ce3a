import LeaveCli.Crypto.SmallGroup

/-!
# A small MLS with padded frames

`SmallFrames.mls` keeps the groups of `SmallGroup.mls`, but a frame has the size of an MLS frame. It
names its sender by the leaf, and the session pads what it seals to a multiple of `paddingSize`: the
payload with its length and its signature, `contentOverhead` bytes, is padded, and the rest of the
frame, `frameOverhead` bytes, does not depend on the payload. Sealing adds 223 to 478 bytes.
-/

namespace LeaveCli.Crypto

open Lib

/-- Every member can seal, and sealing `n` bytes adds `overhead n` bytes, which is bounded. -/
structure Mls.Seals (M : Mls) (overhead : Nat → Nat) : Prop where
  seals : ∀ g payload, (∃ h ∈ M.members g, h.index = M.ownLeaf g) →
    ∃ message b, (M.createMessage g payload).2 = .ok message ∧ M.serialize message = .ok b ∧
      b.length = payload.length + overhead payload.length
  bounded : ∃ bound, ∀ n, overhead n ≤ bound

namespace SmallFrames

/-- `PADDING_SIZE`. -/
def paddingSize : Nat := 256

/-- The length and the signature that are padded with a payload. -/
def contentOverhead : Nat := 70

/-- The frame around the padded content. -/
def frameOverhead : Nat := 153

/-- The padding of a payload of `n` bytes. -/
def padding (n : Nat) : Nat := (paddingSize - (n + contentOverhead) % paddingSize) % paddingSize

/-- A frame: its kind, the sender's leaf and the payload's length in four bytes each, what stands
for the rest of the framing, the payload and its padding. -/
def frame (leaf : Nat) (payload : Bytes) : Bytes :=
  1 :: (toBeBytes (UInt32.ofNat leaf) ++ (toBeBytes (UInt32.ofNat payload.length) ++
    (List.replicate (contentOverhead + frameOverhead - 9) 0 ++
      (payload ++ List.replicate (padding payload.length) 0))))

def readFrame : Bytes → Except Str (Nat × Bytes)
  | kind :: b₀ :: b₁ :: b₂ :: b₃ :: l₀ :: l₁ :: l₂ :: l₃ :: rest =>
    let length := (fromBeBytes l₀ l₁ l₂ l₃).toNat
    let content := rest.drop (contentOverhead + frameOverhead - 9)
    if kind = 1 ∧ length ≤ content.length then
      .ok ((fromBeBytes b₀ b₁ b₂ b₃).toNat, content.take length)
    else .error "not a message"
  | _ => .error "not a message"

/-- A frame opens for the member at the leaf it names. -/
def processMessage (g : SmallGroup.Group) (message : Bytes) :
    Except Str (Credential × MessageContent Unit) :=
  match readFrame message with
  | .error e => .error e
  | .ok (leaf, payload) => match g.1.members.find? fun m => m.index = leaf with
    | none => .error "unknown sender"
    | some m => .ok (m.credential, .application payload)

/-- The MLS of this module. -/
def mls : Mls where
  Provider := Unit
  Group := SmallGroup.Group
  Staged := SmallGroup.Group
  MessageIn := Bytes
  KeyPackageIn := Credential
  KeyPackage := Credential
  Welcome := Unit
  ProtocolMessage := Bytes
  StagedCommit := Unit
  MessageOut := Bytes
  members g := g.1.members
  epoch g := g.1.epoch
  ownLeaf g := g.1.ownLeaf
  deserialize b := .ok b
  extract
    | 2 :: identity => .keyPackage (.basic identity)
    | [4] => .welcome ()
    | _ => .other
  toProtocol message := .ok message
  validate credential := .ok credential
  ciphersuite _ := ciphersuite
  credential credential := credential
  addMembers g credential := .ok (g.added credential, [3], [4])
  removeMembers g i :=
    if i = g.1.ownLeaf then .error "a member does not remove itself" else .ok (g.removed i, [3])
  mergePendingCommit staged := .ok staged
  processMessage g message := (g, processMessage g message)
  mergeStagedCommit := SmallGroup.mls.mergeStagedCommit
  createMessage g payload :=
    (g, g.own.elim (.error "not a member") fun own => .ok (frame own.index payload))
  serialize message := .ok message
  newFromWelcome _ _ := .error "no keys"

theorem lawful : mls.Lawful where
  sorted g := g.2
  process_view _ _ := rfl
  create_view _ _ := rfl
  add_ok g k staged commit welcome h := by
    cases h
    exact ⟨_, _, _, rfl, rfl, rfl, rfl⟩
  remove_ok g i staged commit h := by
    have h' : (if i = g.1.ownLeaf then Except.error ("a member does not remove itself" : Str)
      else .ok (g.removed i, ([3] : Bytes))) = .ok (staged, commit) := h
    split at h'
    · cases h'
    · cases h'
      exact ⟨_, _, rfl, rfl, rfl⟩
  remove_own g staged := by simp [mls]
  remove_other g m _ _ hne := ⟨_, if_neg hne⟩

/-- What sealing a payload of `n` bytes adds to it. -/
def overhead (n : Nat) : Nat := contentOverhead + frameOverhead + padding n

theorem length_frame (leaf : Nat) (payload : Bytes) :
    (frame leaf payload).length = payload.length + overhead payload.length := by
  simp only [frame, overhead, toBeBytes, List.length_cons, List.length_append,
    List.length_replicate, List.length_nil, contentOverhead, frameOverhead]
  omega

theorem overhead_le (n : Nat) : overhead n ≤ 478 := by
  simp only [overhead, padding, contentOverhead, frameOverhead, paddingSize]
  omega

theorem seals : mls.Seals overhead where
  seals g payload hactive := by
    obtain ⟨h, hh, hi⟩ := hactive
    cases hown : SmallGroup.Group.own g with
    | none =>
      have := List.find?_eq_none.1 hown h hh
      simp only [decide_eq_true_eq] at this
      exact absurd hi this
    | some own =>
      exact ⟨frame own.index payload, _, by simp [mls, hown], rfl, length_frame own.index payload⟩
  bounded := ⟨478, overhead_le⟩

theorem readFrame_frame {leaf : Nat} (h : leaf < UInt32.size) {payload : Bytes}
    (hpayload : payload.length < UInt32.size) :
    readFrame (frame leaf payload) = .ok (leaf, payload) := by
  have hleaf : (UInt32.ofNat leaf).toNat = leaf := UInt32.toNat_ofNat_of_lt h
  have hlength : (UInt32.ofNat payload.length).toNat = payload.length :=
    UInt32.toNat_ofNat_of_lt hpayload
  have hcontent (rest : Bytes) : (List.replicate (contentOverhead + frameOverhead - 9) 0 ++
      rest).drop (contentOverhead + frameOverhead - 9) = rest :=
    List.drop_left' List.length_replicate
  have hpadded :
      payload.length ≤ (payload ++ List.replicate (padding payload.length) 0).length := by
    simp
  simp only [frame, toBeBytes, List.cons_append, List.nil_append, readFrame,
    fromBeBytes_toBeBytes, hleaf, hlength, hcontent, hpadded, and_self, if_true, List.take_left]

end SmallFrames

end LeaveCli.Crypto
