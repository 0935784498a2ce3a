import LeaveCli.Crypto.Pairing
import Mathlib.Data.List.Nodup

/-!
# What the session operations do to the group

One lemma for each operation of `WorkspaceSession` and for `acceptPairing`, over a lawful MLS:
opening and sealing change no membership (`Evolves.view`), adding a device either changes nothing or
puts the one device in (`addDevice_cases`), and removing takes out the first member that carries
the identifier (`removeDevice_cases`). A pairing request is accepted only with the tag of its key
package (`acceptPairing_cases`).
-/

namespace LeaveCli.Crypto

open Lib

variable {M : Mls}

/-! ## Opening and sealing -/

/-- `g'` comes from `g` by processing messages. -/
inductive Heeds (g : M.Group) : M.Group → Prop
  | refl : Heeds g g
  | process (g' : M.Group) (message : M.ProtocolMessage) (h : Heeds g g') :
      Heeds g (M.processMessage g' message).1

/-- `g'` comes from `g` by processing and sealing messages. -/
inductive Evolves (g : M.Group) : M.Group → Prop
  | refl : Evolves g g
  | process (g' : M.Group) (message : M.ProtocolMessage) (h : Evolves g g') :
      Evolves g (M.processMessage g' message).1
  | create (g' : M.Group) (payload : Bytes) (h : Evolves g g') :
      Evolves g (M.createMessage g' payload).1

theorem Heeds.evolves {g g' : M.Group} (h : Heeds g g') : Evolves g g' := by
  induction h with
  | refl => exact .refl
  | process g' message _ ih => exact .process g' message ih

theorem Evolves.trans {g₁ g₂ g₃ : M.Group} (h₁ : Evolves g₁ g₂) (h₂ : Evolves g₂ g₃) :
    Evolves g₁ g₃ := by
  induction h₂ with
  | refl => exact h₁
  | process g' message _ ih => exact .process g' message ih
  | create g' payload _ ih => exact .create g' payload ih

/-- Processing and sealing messages change no membership. -/
theorem Evolves.view (hM : M.Lawful) {g g' : M.Group} (h : Evolves g g') :
    M.view g' = M.view g := by
  induction h with
  | refl => rfl
  | process g' message _ ih => rw [hM.process_view, ih]
  | create g' payload _ ih => rw [hM.create_view, ih]

theorem process_eq (s : WorkspaceSession M) {bytes : Bytes} {received : M.MessageIn}
    {protocol : M.ProtocolMessage} (hreceived : M.deserialize bytes = .ok received)
    (hprotocol : M.toProtocol received = .ok protocol) :
    s.process bytes = ({ s with group := (M.processMessage s.group protocol).1 },
      (M.processMessage s.group protocol).2.mapError .open_) := by
  simp only [WorkspaceSession.process, hreceived, hprotocol]

theorem process_heeds (s : WorkspaceSession M) (bytes : Bytes) :
    Heeds s.group (s.process bytes).1.group ∧ (s.process bytes).1.identity = s.identity := by
  unfold WorkspaceSession.process
  split
  · exact ⟨.refl, rfl⟩
  · split
    · exact ⟨.refl, rfl⟩
    · exact ⟨.process _ _ .refl, rfl⟩

theorem openFrame_fst (s : WorkspaceSession M) (bytes : Bytes) :
    (s.openFrame bytes).1 = (s.process bytes).1 := by
  unfold WorkspaceSession.openFrame
  split
  · rename_i h
    rw [h]
  · rename_i h
    rw [h]
    split
    · rfl
    · rfl
    · rfl

/-- Opening a frame processes a message at most. -/
theorem openFrame_heeds (s : WorkspaceSession M) (bytes : Bytes) :
    Heeds s.group (s.openFrame bytes).1.group ∧ (s.openFrame bytes).1.identity = s.identity := by
  rw [openFrame_fst]
  exact process_heeds s bytes

theorem encodeMessage_ok {message : M.MessageOut} {b : Bytes} :
    encodeMessage message = .ok b ↔ M.serialize message = .ok b := by
  unfold encodeMessage
  cases M.serialize message with
  | error e => simp [Except.mapError]
  | ok b' => simp [Except.mapError]

theorem sealFrame_eq_ok {s : WorkspaceSession M} {payload frame : Bytes} :
    (s.sealFrame payload).2 = .ok frame ↔ ∃ message,
      (M.createMessage s.group payload).2 = .ok message ∧ M.serialize message = .ok frame := by
  unfold WorkspaceSession.sealFrame
  cases (M.createMessage s.group payload).2 with
  | error e => simp
  | ok message => simp [encodeMessage_ok]

/-! ## Adding and removing -/

/-- The device of key package `k` joined: what `addDevice` does when it succeeds. -/
structure Added (s s' : WorkspaceSession M) (k : M.KeyPackage) : Prop where
  identity : s'.identity = s.identity
  view : s'.view = s.view.added (M.credential k)

theorem Added.deviceId {s s' : WorkspaceSession M} {k : M.KeyPackage} (h : Added s s' k) :
    s'.deviceId = s.deviceId := by
  rw [WorkspaceSession.deviceId, h.identity]
  rfl

/-- Adding a device either fails and changes nothing, or puts the one device in. -/
theorem addDevice_cases (hM : M.Lawful) (s : WorkspaceSession M) (keyPackage : Bytes) :
    (∃ e, s.addDevice keyPackage = (s, .error e)) ∨
      ∃ k s' invitation, parseKeyPackage M keyPackage = .ok k ∧
        s.addDevice keyPackage = (s', .ok invitation) ∧ Added s s' k := by
  unfold WorkspaceSession.addDevice
  split
  · exact .inl ⟨_, rfl⟩
  rename_i k hk
  split
  · exact .inl ⟨_, rfl⟩
  rename_i staged commit welcome ha
  obtain ⟨g', c, w, hmerge, hview, hc, hw⟩ := hM.add_ok _ _ _ _ _ ha
  refine .inr ⟨k, { s with group := g' }, ⟨c, w⟩, hk, ?_, ⟨rfl, hview⟩⟩
  simp only [hmerge, encodeMessage_ok.2 hc, encodeMessage_ok.2 hw]

/-- The calls behind a device that was added. -/
theorem addDevice_eq_ok {s s' : WorkspaceSession M} {keyPackage : Bytes} {invitation : Invitation}
    (h : s.addDevice keyPackage = (s', .ok invitation)) :
    ∃ k staged commit welcome, parseKeyPackage M keyPackage = .ok k ∧
      M.addMembers s.group k = .ok (staged, commit, welcome) ∧
      M.mergePendingCommit staged = .ok s'.group ∧
      M.serialize welcome = .ok invitation.welcome := by
  unfold WorkspaceSession.addDevice at h
  split at h
  · cases h
  rename_i k hk
  split at h
  · cases h
  rename_i staged commit welcome ha
  split at h
  · cases h
  rename_i group hmerge
  split at h
  · cases h
  · cases h
  rename_i w hw
  cases h
  exact ⟨k, staged, commit, welcome, hk, ha, hmerge, encodeMessage_ok.1 hw⟩

/-- The first member that carries `deviceId`, which is the one `removeDevice` picks. -/
def firstWith (ms : List Member) (deviceId : Str) : Option Member :=
  ms.find? fun member => identityOf member.credential = .ok deviceId

/-- The member `m` left: what `removeDevice` does when it succeeds. -/
structure Removed (s s' : WorkspaceSession M) (m : Member) : Prop where
  identity : s'.identity = s.identity
  view : s'.view = s.view.removed m.index
  notOwn : m.index ≠ s.view.ownLeaf

/-- Removing a device either fails and changes nothing, or takes out the first member that
carries the identifier. -/
theorem removeDevice_cases (hM : M.Lawful) (s : WorkspaceSession M) (deviceId : Str) :
    (∃ e, s.removeDevice deviceId = (s, .error e)) ∨
      ∃ m s' commit, firstWith s.view.members deviceId = some m ∧
        s.removeDevice deviceId = (s', .ok commit) ∧ Removed s s' m := by
  unfold WorkspaceSession.removeDevice
  split
  · exact .inl ⟨_, rfl⟩
  rename_i m hf
  split
  · exact .inl ⟨_, rfl⟩
  rename_i staged commit hr
  obtain ⟨g', c, hmerge, hview, hc⟩ := hM.remove_ok _ _ _ _ hr
  refine .inr ⟨m, { s with group := g' }, c, hf, ?_, ⟨rfl, hview, fun h => ?_⟩⟩
  · simp only [hmerge, encodeMessage_ok.2 hc]
  · exact hM.remove_own _ _ (show M.removeMembers s.group (M.ownLeaf s.group) = _ from h ▸ hr)

/-- The calls behind a device that was removed. -/
theorem removeDevice_eq_ok {s s' : WorkspaceSession M} {deviceId : Str} {commit : Bytes}
    (h : s.removeDevice deviceId = (s', .ok commit)) :
    ∃ m staged message, firstWith s.view.members deviceId = some m ∧
      M.removeMembers s.group m.index = .ok (staged, message) ∧
      M.mergePendingCommit staged = .ok s'.group := by
  unfold WorkspaceSession.removeDevice at h
  split at h
  · cases h
  rename_i m hf
  split at h
  · cases h
  rename_i staged message hr
  split at h
  · cases h
  rename_i group hmerge
  obtain ⟨rfl, -⟩ := Prod.mk.inj h
  exact ⟨m, staged, message, hf, hr, hmerge⟩

/-- Removing the first member that carries the identifier succeeds when that member is not the
device itself. -/
theorem removeDevice_ok (hM : M.Lawful) {s : WorkspaceSession M} {deviceId : Str} {m : Member}
    (hactive : s.Active) (hf : firstWith s.view.members deviceId = some m)
    (hown : m.index ≠ s.view.ownLeaf) :
    ∃ s' commit, s.removeDevice deviceId = (s', .ok commit) ∧ Removed s s' m := by
  obtain ⟨⟨staged, commit⟩, hr⟩ :=
    hM.remove_other s.group m hactive (List.mem_of_find?_eq_some hf) hown
  obtain ⟨g', c, hmerge, hview, hc⟩ := hM.remove_ok _ _ _ _ hr
  refine ⟨{ s with group := g' }, c, ?_, ⟨rfl, hview, hown⟩⟩
  have hf' : ((M.members s.group).find? fun member =>
    identityOf member.credential = .ok deviceId) = some m := hf
  simp only [WorkspaceSession.removeDevice, hf', hr, hmerge, encodeMessage_ok.2 hc]

/-! ## Membership -/

theorem beforeBlank_append_drop (i : Nat) (ms : List Member) :
    beforeBlank i ms ++ ms.drop (beforeBlank i ms).length = ms := by
  induction ms generalizing i with
  | nil => rfl
  | cons m ms ih =>
    unfold beforeBlank
    split
    · simp [ih]
    · rfl

/-- A joining device is the only new member. -/
theorem mem_added {v : GroupView} {c : Credential} {m : Member} :
    m ∈ (v.added c).members ↔ m ∈ v.members ∨ m = ⟨(beforeBlank 0 v.members).length, c⟩ := by
  have hsplit : m ∈ v.members ↔ m ∈ beforeBlank 0 v.members ∨
      m ∈ v.members.drop (beforeBlank 0 v.members).length := by
    rw [← List.mem_append, beforeBlank_append_drop]
  simp only [GroupView.added, List.mem_append, List.mem_cons, hsplit]
  tauto

theorem index_le_of_mem_beforeBlank {i : Nat} {ms : List Member} {m : Member}
    (h : m ∈ beforeBlank i ms) : m.index < i + (beforeBlank i ms).length := by
  induction ms generalizing i with
  | nil => cases h
  | cons m' ms ih =>
    unfold beforeBlank at h ⊢
    split at h
    · rename_i hi
      rw [if_pos hi, List.length_cons]
      rcases List.mem_cons.1 h with rfl | h
      · omega
      · have := ih h
        omega
    · cases h

/-- Behind the leftmost blank leaf, every leaf is farther right than it. -/
theorem lt_index_of_mem_drop {i : Nat} {ms : List Member} {m : Member}
    (hs : (ms.map (·.index)).Pairwise (· < ·)) (hi : ∀ m ∈ ms, i ≤ m.index)
    (h : m ∈ ms.drop (beforeBlank i ms).length) : i + (beforeBlank i ms).length < m.index := by
  induction ms generalizing i with
  | nil => simp at h
  | cons m' ms ih =>
    rw [List.map_cons, List.pairwise_cons] at hs
    have hlt : ∀ m ∈ ms, m'.index < m.index := fun m hm =>
      hs.1 m.index (List.mem_map_of_mem hm)
    unfold beforeBlank at h ⊢
    split at h
    · rename_i hidx
      rw [if_pos hidx, List.length_cons]
      rw [List.length_cons, List.drop_succ_cons] at h
      have := ih hs.2 (fun m hm => by have := hlt m hm; omega) h
      omega
    · rename_i hidx
      rw [if_neg hidx]
      have hle := hi m' List.mem_cons_self
      simp only [List.length_nil, List.drop_zero] at h ⊢
      rcases List.mem_cons.1 h with rfl | h
      · omega
      · have := hlt m h
        omega

/-- The leaf a new member takes is nobody's. -/
theorem index_ne_length_beforeBlank {ms : List Member} {m : Member}
    (hs : (ms.map (·.index)).Pairwise (· < ·)) (hm : m ∈ ms) :
    m.index ≠ (beforeBlank 0 ms).length := by
  rw [← beforeBlank_append_drop 0 ms] at hm
  rcases List.mem_append.1 hm with hm | hm
  · have hlt := index_le_of_mem_beforeBlank hm
    omega
  · have hlt := lt_index_of_mem_drop hs (fun _ _ => Nat.zero_le _) hm
    omega

theorem mem_removed {v : GroupView} {i : Nat} {m : Member} :
    m ∈ (v.removed i).members ↔ m ∈ v.members ∧ m.index ≠ i := by
  simp [GroupView.removed]

/-- Two members at one leaf are one member. -/
theorem Mls.Lawful.index_inj (hM : M.Lawful) {g : M.Group} {m m' : Member}
    (h : m ∈ M.members g) (h' : m' ∈ M.members g) (hi : m.index = m'.index) : m = m' := by
  have hnodup : ((M.members g).map (·.index)).Nodup :=
    (hM.sorted g).imp fun hlt => Nat.ne_of_lt hlt
  exact List.inj_on_of_nodup_map hnodup h h' hi

/-- The member of the group that the session is. -/
def IsOwn (s : WorkspaceSession M) (own : Member) : Prop :=
  own ∈ s.view.members ∧ own.index = s.view.ownLeaf

/-- A device that adds another one stays the member it is. -/
theorem Added.isOwn {s s' : WorkspaceSession M} {k : M.KeyPackage} {own : Member}
    (h : Added s s' k) (hown : IsOwn s own) : IsOwn s' own := by
  obtain ⟨hmem, hleaf⟩ := hown
  rw [IsOwn, h.view]
  exact ⟨mem_added.2 (.inl hmem), hleaf⟩

/-- A device that removes another one stays the member it is. -/
theorem Removed.isOwn {s s' : WorkspaceSession M} {m own : Member} (h : Removed s s' m)
    (hown : IsOwn s own) : IsOwn s' own := by
  obtain ⟨hmem, hleaf⟩ := hown
  rw [IsOwn, h.view]
  exact ⟨mem_removed.2 ⟨hmem, fun he => h.notOwn (he ▸ hleaf)⟩, hleaf⟩

theorem Added.active {s s' : WorkspaceSession M} {k : M.KeyPackage} (h : Added s s' k)
    (hactive : s.Active) : s'.Active := by
  obtain ⟨own, hown⟩ := hactive
  exact ⟨own, h.isOwn hown⟩

theorem Removed.active {s s' : WorkspaceSession M} {m : Member} (h : Removed s s' m)
    (hactive : s.Active) : s'.Active := by
  obtain ⟨own, hown⟩ := hactive
  exact ⟨own, h.isOwn hown⟩

theorem firstWith_spec {ms : List Member} {deviceId : Str} {m : Member}
    (h : firstWith ms deviceId = some m) : m ∈ ms ∧ identityOf m.credential = .ok deviceId :=
  ⟨List.mem_of_find?_eq_some h, by simpa using List.find?_some h⟩

/-- The only member that carries the identifier is the first one. -/
theorem firstWith_of_unique {ms : List Member} {deviceId : Str} {m : Member} (hm : m ∈ ms)
    (hid : identityOf m.credential = .ok deviceId)
    (hunique : ∀ m' ∈ ms, identityOf m'.credential = .ok deviceId → m' = m) :
    firstWith ms deviceId = some m := by
  cases hf : firstWith ms deviceId with
  | none =>
    have hnone := List.find?_eq_none.1 hf m hm
    exact absurd hid (by simpa using hnone)
  | some m' =>
    obtain ⟨hm', hid'⟩ := firstWith_spec hf
    rw [hunique m' hm' hid']

/-! ## Pairing requests -/

theorem subtleEq_iff {left right : Bytes} : subtleEq left right = true ↔ left = right := by
  unfold subtleEq
  by_cases h : left.length = right.length
  · simp [h]
  · simp only [h, ne_eq, not_false_eq_true, ↓reduceIte, Bool.false_eq_true, false_iff]
    exact fun he => h (he ▸ rfl)

/-- A frame carries one key package and one tag. -/
theorem Requests.unique {frame keyPackage presented keyPackage' presented' : Bytes}
    (h : Requests frame keyPackage presented) (h' : Requests frame keyPackage' presented') :
    keyPackage = keyPackage' ∧ presented = presented' := by
  obtain ⟨rest, rest₁, rest₂, hh, hk, hp⟩ := h
  obtain ⟨rest', rest₁', rest₂', hh', hk', hp'⟩ := h'
  cases hh.symm.trans hh'
  cases hk.symm.trans hk'
  cases hp.symm.trans hp'
  exact ⟨rfl, rfl⟩

theorem Requests.isPairingFrame {frame keyPackage presented : Bytes}
    (h : Requests frame keyPackage presented) : isPairingFrame frame = true := by
  obtain ⟨rest, -, -, hh, -, -⟩ := h
  simp [Crypto.isPairingFrame, hh]

/-- The encoding of a request. -/
def requestBytes (keyPackage presented : Bytes) : Bytes :=
  putBytes (putBytes (putHeader [] ++ [kindRequest]) keyPackage) presented

theorem requestBytes_eq (keyPackage presented : Bytes) : requestBytes keyPackage presented =
    putHeader [] ++ kindRequest :: (putBytes [] keyPackage ++ putBytes [] presented) := by
  rw [requestBytes, putBytes_eq, putBytes_eq (putHeader [] ++ [kindRequest])]
  simp only [List.append_assoc, List.singleton_append]
  rfl

/-- What a request is read as is what it starts with. -/
theorem requests_iff {frame keyPackage presented : Bytes} : Requests frame keyPackage presented ↔
    keyPackage.length < UInt32.size ∧ presented.length < UInt32.size ∧
      requestBytes keyPackage presented <+: frame := by
  rw [requestBytes_eq]
  constructor
  · intro h
    obtain ⟨rest, rest', rest'', hheader, hkeyPackage, hpresented⟩ := h
    obtain ⟨hlength, hrest⟩ := takeBytes_iff.1 hkeyPackage
    obtain ⟨hlength', hrest'⟩ := takeBytes_iff.1 hpresented
    refine ⟨hlength, hlength', rest'', ?_⟩
    rw [takeHeader_eq_ok.1 hheader, hrest, hrest']
    simp only [List.append_assoc, List.cons_append]
  · intro hcase
    obtain ⟨hlength, hlength', rest, rfl⟩ := hcase
    refine ⟨putBytes [] keyPackage ++ (putBytes [] presented ++ rest), _, rest,
      takeHeader_eq_ok.2 ?_, takeBytes_iff.2 ⟨hlength, rfl⟩, takeBytes_iff.2 ⟨hlength', rfl⟩⟩
    simp only [List.append_assoc, List.cons_append]

theorem requests_requestBytes {keyPackage presented : Bytes} (h : keyPackage.length < UInt32.size)
    (h' : presented.length < UInt32.size) :
    Requests (requestBytes keyPackage presented) keyPackage presented :=
  requests_iff.2 ⟨h, h', List.prefix_refl _⟩

/-- What `pairingRequest` writes is read back as a request with the tag of its key package. -/
theorem requests_pairingRequest {hash : KeyedHash} {keyPackage : Bytes} {secret : PairingSecret}
    (hk : keyPackage.length < UInt32.size)
    (ht : (secret.tag hash keyPackage).length < UInt32.size) :
    Requests (pairingRequest hash keyPackage secret) keyPackage (secret.tag hash keyPackage) :=
  requests_requestBytes hk ht

theorem isPairingFrame_pairingWelcome (invitation : Invitation) :
    isPairingFrame (pairingWelcome invitation) = true := by
  have hheader := takeHeader_putHeader
    (kindWelcome :: (toBeBytes (lengthWord invitation.welcome.length) ++ invitation.welcome))
  simp [isPairingFrame, pairingWelcome, putBytes, hheader]

/-- The welcome a pairing sends is read back. -/
theorem readPairingWelcome_pairingWelcome {invitation : Invitation}
    (h : invitation.welcome.length < UInt32.size) :
    readPairingWelcome (pairingWelcome invitation) = .ok invitation.welcome := by
  have hheader := takeHeader_putHeader
    (kindWelcome :: (toBeBytes (lengthWord invitation.welcome.length) ++ invitation.welcome))
  have hbytes := takeBytes_putBytes h []
  rw [List.append_nil] at hbytes
  simp [readPairingWelcome, pairingWelcome, putBytes, hheader, hbytes]

/-- A request with the tag of its key package is left to the group. -/
theorem acceptPairing_of_requests {hash : KeyedHash} {s : WorkspaceSession M}
    {frame keyPackage : Bytes} {secret : PairingSecret}
    (h : Requests frame keyPackage (secret.tag hash keyPackage)) :
    acceptPairing hash s frame secret = s.addDevice keyPackage := by
  obtain ⟨rest, rest₁, rest₂, hh, hk, hp⟩ := h
  simp [acceptPairing, hh, hk, hp, subtleEq_iff.2]

/-- A pairing frame is accepted only when it carries the tag of its key package under the secret;
then the device of that key package is added, and any other frame changes nothing. -/
theorem acceptPairing_cases (hM : M.Lawful) (hash : KeyedHash) (s : WorkspaceSession M)
    (request : Bytes) (secret : PairingSecret) :
    (∃ e, acceptPairing hash s request secret = (s, .error e)) ∨
      ∃ keyPackage k s' invitation, Requests request keyPackage (secret.tag hash keyPackage) ∧
        parseKeyPackage M keyPackage = .ok k ∧
        acceptPairing hash s request secret = (s', .ok invitation) ∧ Added s s' k := by
  unfold acceptPairing
  split
  · exact .inl ⟨_, rfl⟩
  · exact .inl ⟨_, rfl⟩
  rename_i kind rest hh
  split
  · exact .inl ⟨_, rfl⟩
  rename_i hkind
  split
  · exact .inl ⟨_, rfl⟩
  rename_i keyPackage rest' hb
  split
  · exact .inl ⟨_, rfl⟩
  rename_i presented rest'' hb'
  split
  · exact .inl ⟨_, rfl⟩
  rename_i ht
  simp only [ne_eq, not_not] at hkind
  simp only [Bool.not_eq_true, Bool.not_eq_false', subtleEq_iff] at ht
  subst hkind ht
  rcases addDevice_cases hM s keyPackage with he | ⟨k, s', invitation, hk, ha, hadd⟩
  · exact .inl he
  · refine .inr ⟨keyPackage, k, s', invitation, ⟨rest, rest', rest'', hh, hb, hb'⟩, hk, ha, hadd⟩

end LeaveCli.Crypto
