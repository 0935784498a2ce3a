import LeaveCli.Crypto.Vault
import LeaveCli.Lib.Results
import Mathlib.Data.Set.Insert

/-!
# What opens as sealed state

With an ideal cipher nothing decrypts but what was encrypted, so all depends on the framing. Every
field is read back from exactly one encoding (`takeBytes_iff`), but the bytes after the ciphertext
are not looked at: `openState_eq_ok` says that what opens are the sealed blobs and whatever starts
with one.
-/

namespace LeaveCli.Crypto

open Lib

variable {cipher : Aead} {key : StateKey} {calls : Set (Nonce × Bytes)} {nonce : Nonce}
  {state blob : Bytes}

/-- A cipher that decrypts nothing under a key but what these calls have encrypted under it: each
has a nonce and a state. -/
structure Ideal (cipher : Aead) (key : StateKey) (calls : Set (Nonce × Bytes)) : Prop where
  /-- A text within the limit of the cipher is encrypted. -/
  encrypts : ∀ nonce : Nonce, ∀ state : Bytes, state.length < UInt32.size →
    ∃ ciphertext, cipher.encrypt key.bytes nonce.bytes state = some ciphertext
  /-- The tag is appended. -/
  length : ∀ nonce : Nonce, ∀ state ciphertext : Bytes,
    cipher.encrypt key.bytes nonce.bytes state = some ciphertext →
      ciphertext.length = state.length + 16
  decrypts : ∀ call ∈ calls, ∀ ciphertext,
    cipher.encrypt key.bytes call.1.bytes call.2 = some ciphertext →
      cipher.decrypt key.bytes call.1.bytes ciphertext = some call.2
  only : ∀ nonce : Nonce, ∀ ciphertext state : Bytes,
    cipher.decrypt key.bytes nonce.bytes ciphertext = some state →
      ∃ call ∈ calls, call.1 = nonce ∧
        cipher.encrypt key.bytes nonce.bytes call.2 = some ciphertext

/-- The blobs that `seal_state` has returned. -/
def blobs (cipher : Aead) (key : StateKey) (calls : Set (Nonce × Bytes)) : Set Bytes :=
  {blob | ∃ call ∈ calls, sealState cipher key call.1 call.2 = .ok blob}

/-- The encoding of a nonce and a ciphertext. -/
def frame (nonce : Nonce) (ciphertext : Bytes) : Bytes :=
  putHeader [] ++ putBytes [] nonce.bytes ++ putBytes [] ciphertext

theorem sealState_eq_ok : sealState cipher key nonce state = .ok blob ↔
    ∃ ciphertext, cipher.encrypt key.bytes nonce.bytes state = some ciphertext ∧
      blob = frame nonce ciphertext := by
  have hframe : ∀ ciphertext, putBytes (putBytes (putHeader []) nonce.bytes) ciphertext =
      frame nonce ciphertext := by
    intro ciphertext
    rw [putBytes_eq, putBytes_eq (putHeader [])]
    rfl
  rw [sealState]
  cases hencrypt : cipher.encrypt key.bytes nonce.bytes state with
  | none => simp
  | some ciphertext =>
    rw [Option.elim_some, hframe, Except.ok.injEq]
    simp [eq_comm]

/-- What is read off a blob is one frame, and anything may follow. -/
theorem openState_eq_ok : openState cipher key blob = .ok state ↔
    ∃ nonce ciphertext rest, ciphertext.length < UInt32.size ∧
      blob = frame nonce ciphertext ++ rest ∧
        cipher.decrypt key.bytes nonce.bytes ciphertext = some state := by
  constructor
  · intro h
    obtain ⟨cursor, hheader, hcursor⟩ := bind_eq_ok.1 h
    obtain ⟨⟨nonce, cursor'⟩, hnonce, hcursor'⟩ := bind_eq_ok.1 hcursor
    obtain ⟨hlength, hrest⟩ := ite_error_eq_ok.1 hcursor'
    obtain ⟨⟨ciphertext, rest⟩, hciphertext, hdecrypt⟩ := bind_eq_ok.1 hrest
    obtain ⟨-, hnonce⟩ := takeBytes_iff.1 hnonce
    obtain ⟨hsize, hciphertext⟩ := takeBytes_iff.1 hciphertext
    refine ⟨⟨nonce, not_not.1 hlength⟩, ciphertext, rest, hsize, ?_, elim_eq_ok.1 hdecrypt⟩
    rw [takeHeader_eq_ok.1 hheader, hnonce, hciphertext, frame, List.append_assoc,
      List.append_assoc]
  · intro h
    obtain ⟨nonce, ciphertext, rest, hsize, rfl, hdecrypt⟩ := h
    have hnonce : nonce.bytes.length < UInt32.size := by
      rw [nonce.length_eq]
      decide
    rw [frame, List.append_assoc, List.append_assoc]
    refine bind_eq_ok.2 ⟨_, takeHeader_putHeader _, bind_eq_ok.2
      ⟨_, takeBytes_iff.2 ⟨hnonce, rfl⟩, ite_error_eq_ok.2 ⟨not_not.2 nonce.length_eq, ?_⟩⟩⟩
    exact bind_eq_ok.2 ⟨_, takeBytes_iff.2 ⟨hsize, rfl⟩, elim_eq_ok.2 hdecrypt⟩

/-- A state that fits the framing opens again. -/
theorem Ideal.openState_sealState (h : Ideal cipher key calls) (hcall : (nonce, state) ∈ calls)
    (hsize : state.length + 16 < UInt32.size) :
    ∃ blob, sealState cipher key nonce state = .ok blob ∧
      openState cipher key blob = .ok state := by
  obtain ⟨ciphertext, hencrypt⟩ := h.encrypts nonce state (by omega)
  refine ⟨_, sealState_eq_ok.2 ⟨ciphertext, hencrypt, rfl⟩, openState_eq_ok.2
    ⟨nonce, ciphertext, [], ?_, (List.append_nil _).symm, h.decrypts _ hcall ciphertext hencrypt⟩⟩
  rw [h.length nonce state ciphertext hencrypt]
  exact hsize

/-- What opens under an ideal cipher starts with a sealed blob. -/
theorem Ideal.opens_iff (h : Ideal cipher key calls) (blob : Bytes) :
    (∃ state, openState cipher key blob = .ok state) ↔
      ∃ call ∈ calls, call.2.length + 16 < UInt32.size ∧
        ∃ sealedBlob, sealState cipher key call.1 call.2 = .ok sealedBlob ∧
          sealedBlob <+: blob := by
  constructor
  · intro hopens
    obtain ⟨state, hopens⟩ := hopens
    obtain ⟨nonce, ciphertext, rest, hsize, hblob, hdecrypt⟩ := openState_eq_ok.1 hopens
    obtain ⟨call, hcall, hnonce, hencrypt⟩ := h.only nonce ciphertext state hdecrypt
    rw [← hnonce] at hencrypt hblob
    refine ⟨call, hcall, ?_, _, sealState_eq_ok.2 ⟨ciphertext, hencrypt, rfl⟩, ?_⟩
    · rwa [← h.length _ _ _ hencrypt]
    · rw [hblob]
      exact List.prefix_append _ _
  · intro hstarts
    obtain ⟨call, hcall, hsize, sealedBlob, hseal, hprefix⟩ := hstarts
    obtain ⟨rest, rfl⟩ := hprefix
    obtain ⟨ciphertext, hencrypt, rfl⟩ := sealState_eq_ok.1 hseal
    refine ⟨call.2, openState_eq_ok.2 ⟨call.1, ciphertext, rest, ?_, rfl,
      h.decrypts call hcall ciphertext hencrypt⟩⟩
    rwa [h.length _ _ _ hencrypt]

/-- Sealed states open again, and a changed blob is refused unless it goes on after a sealed one. -/
theorem openState_refuses_iff (h : Ideal cipher key calls) :
    (∀ blob, blob ∉ blobs cipher key calls →
      ((∃ e, openState cipher key blob = .error e) ↔
        ∀ call ∈ calls, call.2.length + 16 < UInt32.size →
          ∀ sealedBlob, sealState cipher key call.1 call.2 = .ok sealedBlob →
            ¬ sealedBlob <+: blob)) ∧
      ∀ call ∈ calls, call.2.length + 16 < UInt32.size → ∃ sealedBlob,
        sealState cipher key call.1 call.2 = .ok sealedBlob ∧
          openState cipher key sealedBlob = .ok call.2 := by
  refine ⟨fun blob _ => ?_, fun call hcall hsize => h.openState_sealState hcall hsize⟩
  have hopens := h.opens_iff blob
  constructor
  · intro herror call hcall hsize sealedBlob hseal hprefix
    obtain ⟨e, herror⟩ := herror
    obtain ⟨state, hstate⟩ := hopens.2 ⟨call, hcall, hsize, sealedBlob, hseal, hprefix⟩
    rw [herror] at hstate
    cases hstate
  · intro hnone
    cases hblob : openState cipher key blob with
    | error e => exact ⟨e, rfl⟩
    | ok state =>
      obtain ⟨call, hcall, hsize, sealedBlob, hseal, hprefix⟩ := hopens.1 ⟨state, hblob⟩
      exact absurd hprefix (hnone call hcall hsize sealedBlob hseal)

def oneKey : StateKey := ⟨List.replicate 32 1, rfl⟩

def oneNonce : Nonce := ⟨List.replicate 24 7, rfl⟩

/-- A cipher that has encrypted one state. -/
def oneAead : Aead where
  encrypt _ _ state := some (state ++ List.replicate 16 0)
  decrypt _ nonce ciphertext :=
    if nonce = List.replicate 24 7 ∧ ciphertext = [1, 2] ++ List.replicate 16 0 then some [1, 2]
    else none

theorem ideal_oneAead : Ideal oneAead oneKey {(oneNonce, [1, 2])} := by
  refine ⟨fun nonce state _ => ⟨_, rfl⟩, fun nonce state ciphertext h => ?_,
    fun call hcall ciphertext h => ?_, fun nonce ciphertext state h => ?_⟩
  · rw [← Option.some.inj h, List.length_append, List.length_replicate]
  · obtain rfl := Set.mem_singleton_iff.1 hcall
    rw [← Option.some.inj h]
    rfl
  · unfold oneAead at h
    simp only at h
    split at h
    · rename_i hpair
      obtain ⟨hnonce, rfl⟩ := hpair
      refine ⟨_, Set.mem_singleton _, ?_, rfl⟩
      cases nonce
      cases hnonce
      rfl
    · cases h

/-- What it was sealed as. -/
def oneBlob : Bytes := frame oneNonce ([1, 2] ++ List.replicate 16 0)

theorem sealState_oneAead : sealState oneAead oneKey oneNonce [1, 2] = .ok oneBlob :=
  sealState_eq_ok.2 ⟨_, rfl, rfl⟩

theorem eq_oneBlob {call : Nonce × Bytes} (hcall : call ∈ ({(oneNonce, [1, 2])} : Set _))
    (hseal : sealState oneAead oneKey call.1 call.2 = .ok blob) : blob = oneBlob := by
  obtain rfl := Set.mem_singleton_iff.1 hcall
  exact Except.ok.inj (hseal.symm.trans sealState_oneAead)

/-- A sealed state opens; with a byte of its ciphertext changed, or cut off before its last byte, it
is refused. -/
theorem openState_refuses_one : openState oneAead oneKey oneBlob = .ok [1, 2] ∧
    (∃ e, openState oneAead oneKey (frame oneNonce ([1, 3] ++ List.replicate 16 0)) = .error e) ∧
      ∃ e, openState oneAead oneKey oneBlob.dropLast = .error e := by
  obtain ⟨hrefuses, hopens⟩ := openState_refuses_iff ideal_oneAead
  have hdamaged : ∀ blob, ¬ oneBlob <+: blob → ∃ e, openState oneAead oneKey blob = .error e := by
    intro blob hblob
    refine (hrefuses blob fun hsealed => ?_).2 fun call hcall _ sealedBlob hseal hprefix => ?_
    · obtain ⟨call, hcall, hseal⟩ := hsealed
      exact hblob (eq_oneBlob hcall hseal ▸ List.prefix_refl _)
    · exact hblob (eq_oneBlob hcall hseal ▸ hprefix)
  obtain ⟨sealedBlob, hseal, hopen⟩ := hopens (oneNonce, [1, 2]) (Set.mem_singleton _) (by decide)
  refine ⟨?_, hdamaged _ (by decide), hdamaged _ (by decide)⟩
  rwa [eq_oneBlob (Set.mem_singleton _) hseal] at hopen

/-- A byte after a sealed blob is not noticed. -/
theorem openState_refuses_not :
    Ideal oneAead oneKey {(oneNonce, [1, 2])} ∧
      sealState oneAead oneKey oneNonce [1, 2] = .ok oneBlob ∧
        oneBlob ++ [0] ∉ blobs oneAead oneKey {(oneNonce, [1, 2])} ∧
          openState oneAead oneKey (oneBlob ++ [0]) = .ok [1, 2] := by
  refine ⟨ideal_oneAead, sealState_oneAead, fun hblob => ?_, by decide⟩
  obtain ⟨call, hcall, hseal⟩ := hblob
  exact absurd (List.append_right_eq_self.1 (eq_oneBlob hcall hseal)) (List.cons_ne_nil _ _)

end LeaveCli.Crypto
