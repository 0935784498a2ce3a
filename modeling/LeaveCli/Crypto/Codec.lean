import LeaveCli.Lib.Text

/-!
# The length-prefixed encoding (`crates/leave-crypto/src/codec.rs`, `error.rs`)

Saved session state and pairing frames share one framing: a header (magic and version), then
byte strings behind a big-endian `u32` length, and counts. A reader takes the bytes it has not
read yet and returns the value with the rest. `takeBytes_putBytes` and `takeHeader_putHeader` are
the round trips; `takeBytes_iff` says that a reader accepts exactly what the writer writes.
-/

namespace LeaveCli.Crypto

open Lib

/-- A failure inside Leave's MLS boundary. -/
inductive CryptoError
  | identity (detail : Str)
  | keyPackage (detail : Str)
  | group (detail : Str)
  | seal_ (detail : Str)
  | open_ (detail : Str)
  | unexpectedMessage
  | unknownDevice
  | malformedIdentity
  | encode (detail : Str)
  deriving DecidableEq, Repr

/-- Marks the encoding: `LEAVEMLS`. -/
def magic : Bytes := [76, 69, 65, 86, 69, 77, 76, 83]

/-- Version of the state encoding. -/
def version : UInt8 := 1

/-- `u32::to_be_bytes`. -/
def toBeBytes (n : UInt32) : Bytes :=
  [(n >>> 24).toUInt8, (n >>> 16).toUInt8, (n >>> 8).toUInt8, n.toUInt8]

/-- `u32::from_be_bytes`. -/
def fromBeBytes (b₀ b₁ b₂ b₃ : UInt8) : UInt32 :=
  (b₀.toUInt32 <<< 24) ||| (b₁.toUInt32 <<< 16) ||| (b₂.toUInt32 <<< 8) ||| b₃.toUInt32

/-- `u32::try_from(length).unwrap_or(u32::MAX)`. -/
def lengthWord (n : Nat) : UInt32 := UInt32.ofNat (min n 0xffffffff)

/-- Append a length-prefixed byte string. -/
def putBytes (buffer value : Bytes) : Bytes :=
  buffer ++ toBeBytes (lengthWord value.length) ++ value

/-- `split_at_checked`. -/
def splitAtChecked (n : Nat) (cursor : Bytes) : Option (Bytes × Bytes) :=
  if n ≤ cursor.length then some (cursor.take n, cursor.drop n) else none

/-- Read a length-prefixed byte string, advancing the cursor. -/
def takeBytes (cursor : Bytes) : Except CryptoError (Bytes × Bytes) :=
  match cursor with
  | b₀ :: b₁ :: b₂ :: b₃ :: rest =>
    match splitAtChecked (fromBeBytes b₀ b₁ b₂ b₃).toNat rest with
    | some (value, rest) => .ok (value, rest)
    | none => .error (.group "saved session ended inside a value")
  | _ => .error (.group "saved session ended inside a length")

/-- Append a count. -/
def putCount (buffer : Bytes) (count : Nat) : Bytes := buffer ++ toBeBytes (lengthWord count)

/-- Read a count, advancing the cursor. -/
def takeCount (cursor : Bytes) : Except CryptoError (Nat × Bytes) :=
  match cursor with
  | b₀ :: b₁ :: b₂ :: b₃ :: rest => .ok ((fromBeBytes b₀ b₁ b₂ b₃).toNat, rest)
  | _ => .error (.group "saved session ended inside a count")

/-- Check and consume the header. -/
def takeHeader (cursor : Bytes) : Except CryptoError Bytes :=
  match splitAtChecked (magic.length + 1) cursor with
  | none => .error (.group "saved session is truncated")
  | some (header, rest) =>
    if header.take magic.length ≠ magic then .error (.group "not a Leave session state")
    else if header[magic.length]? ≠ some version then
      .error (.group "saved session uses an unsupported state version")
    else .ok rest

/-- Write the header. -/
def putHeader (buffer : Bytes) : Bytes := buffer ++ magic ++ [version]

/-! ## Round trips -/

theorem fromBeBytes_toBeBytes (n : UInt32) :
    fromBeBytes (n >>> 24).toUInt8 (n >>> 16).toUInt8 (n >>> 8).toUInt8 n.toUInt8 = n := by
  apply UInt32.eq_of_toBitVec_eq
  simp only [fromBeBytes, UInt32.toBitVec_or, UInt32.toBitVec_shiftLeft, UInt8.toBitVec_toUInt32,
    UInt32.toBitVec_toUInt8, UInt32.toBitVec_shiftRight]
  apply BitVec.eq_of_getLsbD_eq
  intro i hi
  simp
  grind

theorem toNat_lengthWord {n : Nat} (h : n < UInt32.size) : (lengthWord n).toNat = n := by
  have hsize : UInt32.size = 0xffffffff + 1 := rfl
  have hm : min n 0xffffffff = n := by omega
  rw [lengthWord, hm, UInt32.toNat_ofNat_of_lt' h]

theorem toBeBytes_fromBeBytes (b₀ b₁ b₂ b₃ : UInt8) :
    toBeBytes (fromBeBytes b₀ b₁ b₂ b₃) = [b₀, b₁, b₂, b₃] := by
  have hbyte : ∀ {x y : UInt8}, (∀ i < 8, x.toBitVec.getLsbD i = y.toBitVec.getLsbD i) → x = y := by
    intro x y h
    exact UInt8.eq_of_toBitVec_eq (BitVec.eq_of_getLsbD_eq fun i hi => h i hi)
  simp only [toBeBytes, fromBeBytes, List.cons.injEq, and_true]
  refine ⟨hbyte fun i hi => ?_, hbyte fun i hi => ?_, hbyte fun i hi => ?_, hbyte fun i hi => ?_⟩
  all_goals simp only [UInt32.toBitVec_or, UInt32.toBitVec_shiftLeft, UInt8.toBitVec_toUInt32,
    UInt32.toBitVec_toUInt8, UInt32.toBitVec_shiftRight]
  all_goals simp
  all_goals grind

theorem lengthWord_fromBeBytes {b₀ b₁ b₂ b₃ : UInt8} {n : Nat}
    (h : (fromBeBytes b₀ b₁ b₂ b₃).toNat = n) : lengthWord n = fromBeBytes b₀ b₁ b₂ b₃ := by
  have hlt := UInt32.toNat_lt_size (fromBeBytes b₀ b₁ b₂ b₃)
  rw [← UInt32.toNat_inj, toNat_lengthWord (h ▸ hlt), h]

theorem splitAtChecked_append (a b : Bytes) : splitAtChecked a.length (a ++ b) = some (a, b) := by
  simp [splitAtChecked]

theorem splitAtChecked_eq_some {n : Nat} {c a b : Bytes} :
    splitAtChecked n c = some (a, b) ↔ c = a ++ b ∧ a.length = n := by
  constructor
  · intro h
    unfold splitAtChecked at h
    split at h
    · rename_i hn
      simp only [Option.some.injEq, Prod.mk.injEq] at h
      obtain ⟨rfl, rfl⟩ := h
      exact ⟨(List.take_append_drop n c).symm, List.length_take_of_le hn⟩
    · cases h
  · intro hcase
    obtain ⟨rfl, rfl⟩ := hcase
    exact splitAtChecked_append a b

/-- The reader accepts a length word with that many bytes behind it, and nothing else. -/
theorem takeBytes_eq_ok {c v rest : Bytes} :
    takeBytes c = .ok (v, rest) ↔ ∃ b₀ b₁ b₂ b₃, c = b₀ :: b₁ :: b₂ :: b₃ :: (v ++ rest) ∧
      (fromBeBytes b₀ b₁ b₂ b₃).toNat = v.length := by
  constructor
  · intro h
    unfold takeBytes at h
    split at h
    · rename_i b₀ b₁ b₂ b₃ tail
      split at h
      · rename_i v' rest' hs
        obtain ⟨rfl, hl⟩ := splitAtChecked_eq_some.1 hs
        cases h
        exact ⟨b₀, b₁, b₂, b₃, rfl, hl.symm⟩
      · cases h
    · cases h
  · intro hcase
    obtain ⟨b₀, b₁, b₂, b₃, rfl, hl⟩ := hcase
    simp only [takeBytes, hl, splitAtChecked_append]

theorem putBytes_eq (buffer v : Bytes) : putBytes buffer v = buffer ++ putBytes [] v := by
  simp [putBytes]

theorem takeBytes_putBytes {v : Bytes} (hv : v.length < UInt32.size) (rest : Bytes) :
    takeBytes (toBeBytes (lengthWord v.length) ++ v ++ rest) = .ok (v, rest) := by
  let n := lengthWord v.length
  refine takeBytes_eq_ok.2 ⟨(n >>> 24).toUInt8, (n >>> 16).toUInt8, (n >>> 8).toUInt8, n.toUInt8,
    by simp [toBeBytes, n], ?_⟩
  rw [fromBeBytes_toBeBytes, toNat_lengthWord hv]

/-- The reader accepts exactly what the writer writes. -/
theorem takeBytes_iff {c v rest : Bytes} :
    takeBytes c = .ok (v, rest) ↔ v.length < UInt32.size ∧ c = putBytes [] v ++ rest := by
  constructor
  · intro h
    obtain ⟨b₀, b₁, b₂, b₃, rfl, hlength⟩ := takeBytes_eq_ok.1 h
    refine ⟨hlength ▸ UInt32.toNat_lt_size _, ?_⟩
    rw [putBytes, lengthWord_fromBeBytes hlength, toBeBytes_fromBeBytes]
    rfl
  · intro hcase
    obtain ⟨hlength, rfl⟩ := hcase
    exact takeBytes_putBytes hlength rest
theorem takeHeader_putHeader (rest : Bytes) : takeHeader (putHeader [] ++ rest) = .ok rest := by
  simp [takeHeader, putHeader, splitAtChecked, magic]

theorem takeHeader_eq_ok {c rest : Bytes} :
    takeHeader c = .ok rest ↔ c = putHeader [] ++ rest := by
  constructor
  · intro h
    unfold takeHeader at h
    split at h
    · cases h
    · rename_i header rest' hs
      obtain ⟨rfl, hl⟩ := splitAtChecked_eq_some.1 hs
      split at h
      · cases h
      · rename_i hm
        split at h
        · cases h
        · rename_i hv
          cases h
          simp only [ne_eq, not_not] at hm hv
          have hd : header = header.take magic.length ++ header.drop magic.length :=
            (List.take_append_drop _ _).symm
          have hone : header.drop magic.length = [version] := by
            rw [List.drop_eq_getElem?_toList_append, hv]
            simp [hl]
          rw [hm, hone] at hd
          rw [hd]
          rfl
  · intro heq
    subst heq
    exact takeHeader_putHeader rest

end LeaveCli.Crypto
