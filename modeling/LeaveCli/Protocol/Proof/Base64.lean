import LeaveCli.Protocol.Decode
import LeaveCli.Lib.Utf8
import LeaveCli.Lib.Results

/-!
# `serde_bytes_vec` reads back what it writes

`deserialize` shifts every character into a register of 32 bits and never clears it, so the oldest
bits fall out at the top. `deserializeUnbounded` is the same loop over a register that loses
nothing: `Truncates` relates the two from one character to the next, and a byte is always cut from
the part of the register they share. Over the unbounded register a chunk of three bytes is read
back whatever the register held before it (`run_chunk`), which is what the induction over the
chunks of `serialize` needs.
-/

namespace LeaveCli.Protocol

open Lib

/-! ## A register that loses nothing -/

/-- `Decoding`, with a natural number for its register. -/
structure Unbounded where
  accumulator : Nat
  bits : Nat
  decoded : Bytes

def Unbounded.start : Unbounded := ⟨0, 0, []⟩

def Unbounded.push (u : Unbounded) (position : Nat) : Unbounded :=
  let accumulator := u.accumulator * 64 + position
  let bits := u.bits + 6
  if 8 ≤ bits then
    ⟨accumulator, bits - 8, u.decoded ++ [UInt8.ofNat (accumulator / 2 ^ (bits - 8))]⟩
  else ⟨accumulator, bits, u.decoded⟩

def Unbounded.run (u : Unbounded) : Bytes → Except SerdeError Bytes
  | [] => .ok u.decoded
  | character :: text =>
    if character = 61 then .ok u.decoded
    else (alphabet.utf8.idxOf? character).elim (.error (.custom "invalid base64")) fun position =>
      (u.push position).run text

def deserializeUnbounded (text : Str) : Except SerdeError Bytes := Unbounded.start.run text.utf8

/-- `d` has what the last 32 bits of the register of `u` are. -/
structure Truncates (d : Decoding) (u : Unbounded) : Prop where
  accumulator : d.accumulator.toNat = u.accumulator % 2 ^ 32
  bits : d.bits = u.bits
  few : u.bits < 8
  decoded : d.decoded = u.decoded

theorem toNat_shiftIn (accumulator : UInt32) {position : Nat} (h : position < 64) :
    (accumulator <<< 6 ||| UInt32.ofNat position).toNat =
      (accumulator.toNat * 64 + position) % 2 ^ 32 := by
  have hshift : (accumulator <<< 6).toNat = (accumulator.toNat % 2 ^ 26) <<< 6 := by
    rw [UInt32.toNat_shiftLeft]
    show accumulator.toNat <<< 6 % 2 ^ 32 = _
    rw [Nat.shiftLeft_eq, Nat.shiftLeft_eq]
    omega
  have hposition : (UInt32.ofNat position).toNat = position :=
    UInt32.toNat_ofNat_of_lt' (Nat.lt_trans h (by decide))
  rw [UInt32.toNat_or, hshift, hposition, ← Nat.shiftLeft_add_eq_or_of_lt (by omega),
    Nat.shiftLeft_eq]
  omega

/-- A byte is cut from the last 13 bits of the register. -/
theorem cutByte_eq (accumulator : UInt32) {n bits : Nat} (h : accumulator.toNat = n % 2 ^ 32)
    (hbits : bits < 6) :
    ((accumulator >>> UInt32.ofNat bits) &&& 0xff).toUInt8 = UInt8.ofNat (n / 2 ^ bits) := by
  apply UInt8.toNat_inj.1
  have hshift : (UInt32.ofNat bits).toNat % 32 = bits := by
    rw [UInt32.toNat_ofNat_of_lt' (Nat.lt_trans hbits (by decide))]
    omega
  have hmask : (0xff : UInt32).toNat = 2 ^ 8 - 1 := by decide
  rw [UInt32.toNat_toUInt8, UInt32.toNat_and, UInt32.toNat_shiftRight, hshift, hmask,
    Nat.and_two_pow_sub_one_eq_mod, Nat.shiftRight_eq_div_pow, h, UInt8.toNat_ofNat']
  have hsplit : 2 ^ 32 = 2 ^ bits * 2 ^ (32 - bits) := by
    rw [← Nat.pow_add, Nat.add_sub_cancel' (by omega)]
  rw [hsplit, Nat.mod_mul_right_div_self, Nat.mod_mod,
    Nat.mod_mod_of_dvd _ (Nat.pow_dvd_pow 2 (by omega))]

theorem Truncates.start : Truncates Decoding.start Unbounded.start :=
  ⟨rfl, rfl, by decide, rfl⟩

theorem Truncates.push {d : Decoding} {u : Unbounded} (h : Truncates d u) {position : Nat}
    (hposition : position < 64) : Truncates (d.push position) (u.push position) := by
  have hfew := h.few
  have haccumulator : (d.accumulator <<< 6 ||| UInt32.ofNat position).toNat =
      (u.accumulator * 64 + position) % 2 ^ 32 := by
    rw [toNat_shiftIn d.accumulator hposition, h.accumulator]
    omega
  unfold Decoding.push Unbounded.push
  rw [h.bits]
  by_cases hfull : 8 ≤ u.bits + 6
  · simp only [if_pos hfull]
    refine ⟨haccumulator, rfl, ?_, ?_⟩
    · show u.bits + 6 - 8 < 8
      omega
    · show d.decoded ++ _ = u.decoded ++ _
      rw [h.decoded, cutByte_eq _ haccumulator (by omega)]
  · simp only [if_neg hfull]
    refine ⟨haccumulator, rfl, ?_, h.decoded⟩
    show u.bits + 6 < 8
    omega

theorem length_alphabet : alphabet.utf8.length = 64 := Str.length_utf8_of_ascii (by decide)

theorem Truncates.run {d : Decoding} {u : Unbounded} (h : Truncates d u) (text : Bytes) :
    d.run text = u.run text := by
  induction text generalizing d u with
  | nil => exact congrArg Except.ok h.decoded
  | cons character text ih =>
    rw [Decoding.run, Unbounded.run, h.decoded]
    split
    · rfl
    · cases hfound : alphabet.utf8.idxOf? character with
      | none => rfl
      | some position =>
        have hlt : position < alphabet.utf8.length := (List.idxOf?_eq_some_iff.1 hfound).1
        rw [length_alphabet] at hlt
        exact ih (h.push hlt)

/-- The bits that fall out of the register are never part of a byte. -/
theorem deserializeBytes_eq (text : Str) : deserializeBytes text = deserializeUnbounded text :=
  Truncates.start.run text.utf8

/-! ## The characters of a chunk -/

/-- The number a chunk stands for, filled up with zero bytes. -/
def chunkValue (chunk : Bytes) : Nat :=
  (chunk.getD 0 0).toNat * 65536 + (chunk.getD 1 0).toNat * 256 + (chunk.getD 2 0).toNat

theorem toNat_chunkWord (b₀ b₁ b₂ : UInt8) :
    (b₀.toUInt32 <<< 16 ||| b₁.toUInt32 <<< 8 ||| b₂.toUInt32).toNat =
      b₀.toNat * 65536 + b₁.toNat * 256 + b₂.toNat := by
  have h₀ := b₀.toNat_lt
  have h₁ := b₁.toNat_lt
  have h₂ := b₂.toNat_lt
  have hhigh : (b₀.toUInt32 <<< 16).toNat = b₀.toNat <<< 16 := by
    rw [UInt32.toNat_shiftLeft, UInt8.toNat_toUInt32]
    show b₀.toNat <<< 16 % 2 ^ 32 = _
    rw [Nat.shiftLeft_eq]
    omega
  have hmiddle : (b₁.toUInt32 <<< 8).toNat = b₁.toNat <<< 8 := by
    rw [UInt32.toNat_shiftLeft, UInt8.toNat_toUInt32]
    show b₁.toNat <<< 8 % 2 ^ 32 = _
    rw [Nat.shiftLeft_eq]
    omega
  have hjoin : b₀.toNat <<< 16 ||| b₁.toNat <<< 8 = (b₀.toNat * 256 + b₁.toNat) <<< 8 := by
    rw [← Nat.shiftLeft_add_eq_or_of_lt (by rw [Nat.shiftLeft_eq]; omega)]
    simp only [Nat.shiftLeft_eq]
    omega
  rw [UInt32.toNat_or, UInt32.toNat_or, hhigh, hmiddle, UInt8.toNat_toUInt32, hjoin,
    ← Nat.shiftLeft_add_eq_or_of_lt (by omega), Nat.shiftLeft_eq]
  omega

/-- The character of a digit of six bits. -/
def digitChar (position : Nat) : Char := alphabet.getD position '='

theorem encodeChunk_eq (chunk : Bytes) :
    encodeChunk chunk = (List.range 4).map fun index =>
      if index ≤ chunk.length then digitChar (chunkValue chunk / 2 ^ (18 - index * 6) % 64)
      else '=' := by
  unfold encodeChunk
  apply List.map_congr_left
  intro index hindex
  have hlt : index < 4 := List.mem_range.1 hindex
  have hshift : (UInt32.ofNat (18 - index * 6)).toNat % 32 = 18 - index * 6 := by
    rw [UInt32.toNat_ofNat_of_lt' (Nat.lt_of_le_of_lt (Nat.sub_le ..) (by decide))]
    omega
  have hmask : (0x3f : UInt32).toNat = 2 ^ 6 - 1 := by decide
  rw [UInt32.toNat_and, UInt32.toNat_shiftRight, toNat_chunkWord, hshift, hmask,
    Nat.and_two_pow_sub_one_eq_mod, Nat.shiftRight_eq_div_pow]
  rfl

/-- Every digit is found where the alphabet has it, and none is the filling character. -/
theorem utf8_digitChar {position : Nat} (h : position < 64) :
    ∃ character, Str.utf8 [digitChar position] = [character] ∧ character ≠ 61 ∧
      alphabet.utf8.idxOf? character = some position := by
  have hall : ∀ position < 64, String.utf8EncodeChar (digitChar position) =
      [(digitChar position).toNat.toUInt8] ∧ (digitChar position).toNat.toUInt8 ≠ 61 ∧
      alphabet.utf8.idxOf? (digitChar position).toNat.toUInt8 = some position := by
    decide +kernel
  obtain ⟨hchar, hne, hfound⟩ := hall position h
  refine ⟨_, ?_, hne, hfound⟩
  rw [Str.utf8_cons, Str.utf8_nil, List.append_nil, hchar]

theorem run_digit (u : Unbounded) {position : Nat} (h : position < 64) (s : Str) :
    u.run (Str.utf8 (digitChar position :: s)) = (u.push position).run s.utf8 := by
  obtain ⟨character, hchar, hne, hfound⟩ := utf8_digitChar h
  have hcons : Str.utf8 (digitChar position :: s) = character :: s.utf8 := by
    rw [← List.singleton_append, Str.utf8_append, hchar]
    rfl
  rw [hcons, Unbounded.run, if_neg hne, hfound]
  rfl

theorem run_filling (u : Unbounded) (s : Str) : u.run (Str.utf8 ('=' :: s)) = .ok u.decoded := by
  have hcons : Str.utf8 ('=' :: s) = 61 :: s.utf8 := by
    rw [Str.utf8_cons, Str.utf8EncodeChar_ascii (by decide)]
    rfl
  rw [hcons, Unbounded.run, if_pos rfl]

/-! ## Reading a chunk -/

/-- The digit of six bits at `shift`. -/
def digit (n shift : Nat) : Nat := n / 2 ^ shift % 64

theorem digit_lt (n shift : Nat) : digit n shift < 64 := Nat.mod_lt _ (by decide)

theorem encodeChunk_one (b₀ : UInt8) : encodeChunk [b₀] =
    [digitChar (digit (chunkValue [b₀]) 18), digitChar (digit (chunkValue [b₀]) 12), '=', '='] := by
  rw [encodeChunk_eq]
  rfl

theorem encodeChunk_two (b₀ b₁ : UInt8) : encodeChunk [b₀, b₁] =
    [digitChar (digit (chunkValue [b₀, b₁]) 18), digitChar (digit (chunkValue [b₀, b₁]) 12),
      digitChar (digit (chunkValue [b₀, b₁]) 6), '='] := by
  rw [encodeChunk_eq]
  rfl

theorem encodeChunk_three (b₀ b₁ b₂ : UInt8) : encodeChunk [b₀, b₁, b₂] =
    [digitChar (digit (chunkValue [b₀, b₁, b₂]) 18), digitChar (digit (chunkValue [b₀, b₁, b₂]) 12),
      digitChar (digit (chunkValue [b₀, b₁, b₂]) 6),
      digitChar (digit (chunkValue [b₀, b₁, b₂]) 0)] := by
  rw [encodeChunk_eq]
  rfl

theorem ofNat_eq_of_mod {n m : Nat} (h : n % 256 = m % 256) : UInt8.ofNat n = UInt8.ofNat m := by
  apply UInt8.toNat_inj.1
  rw [UInt8.toNat_ofNat', UInt8.toNat_ofNat']
  exact h

theorem Unbounded.push_of_lt (accumulator position : Nat) {bits : Nat} (h : bits < 2)
    (decoded : Bytes) : Unbounded.push ⟨accumulator, bits, decoded⟩ position =
      ⟨accumulator * 64 + position, bits + 6, decoded⟩ :=
  if_neg (show ¬ 8 ≤ bits + 6 by omega)

theorem Unbounded.push_of_le (accumulator position bits : Nat) (decoded : Bytes) :
    Unbounded.push ⟨accumulator, bits + 2, decoded⟩ position =
      ⟨accumulator * 64 + position, bits,
        decoded ++ [UInt8.ofNat ((accumulator * 64 + position) / 2 ^ bits)]⟩ := by
  have hfull : 8 ≤ bits + 2 + 6 := by omega
  unfold Unbounded.push
  simp only [if_pos hfull]
  rfl

/-- Two digits make a byte and leave four bits. -/
theorem run_two (accumulator : Nat) (decoded : Bytes) (n : Nat) (s : Str) :
    Unbounded.run ⟨accumulator, 0, decoded⟩
        (Str.utf8 (digitChar (digit n 18) :: digitChar (digit n 12) :: s)) =
      Unbounded.run ⟨accumulator * 2 ^ 12 + n / 2 ^ 12 % 2 ^ 12, 4,
        decoded ++ [UInt8.ofNat (n / 2 ^ 16)]⟩ s.utf8 := by
  rw [run_digit _ (digit_lt n 18), Unbounded.push_of_lt _ _ (by decide),
    run_digit _ (digit_lt n 12), Unbounded.push_of_le _ _ 4]
  have haccumulator : (accumulator * 64 + digit n 18) * 64 + digit n 12 =
      accumulator * 2 ^ 12 + n / 2 ^ 12 % 2 ^ 12 := by
    unfold digit
    omega
  have hbyte : UInt8.ofNat (((accumulator * 64 + digit n 18) * 64 + digit n 12) / 2 ^ 4) =
      UInt8.ofNat (n / 2 ^ 16) := by
    apply ofNat_eq_of_mod
    unfold digit
    omega
  rw [hbyte, haccumulator]

/-- A third digit makes a second byte and leaves two bits. -/
theorem run_third (accumulator : Nat) (decoded : Bytes) (n : Nat) (s : Str) :
    Unbounded.run ⟨accumulator * 2 ^ 12 + n / 2 ^ 12 % 2 ^ 12, 4, decoded⟩
        (Str.utf8 (digitChar (digit n 6) :: s)) =
      Unbounded.run ⟨accumulator * 2 ^ 18 + n / 2 ^ 6 % 2 ^ 18, 2,
        decoded ++ [UInt8.ofNat (n / 2 ^ 8)]⟩ s.utf8 := by
  rw [run_digit _ (digit_lt n 6), Unbounded.push_of_le _ _ 2]
  have haccumulator : (accumulator * 2 ^ 12 + n / 2 ^ 12 % 2 ^ 12) * 64 + digit n 6 =
      accumulator * 2 ^ 18 + n / 2 ^ 6 % 2 ^ 18 := by
    unfold digit
    omega
  have hbyte : UInt8.ofNat ((accumulator * 2 ^ 18 + n / 2 ^ 6 % 2 ^ 18) / 2 ^ 2) =
      UInt8.ofNat (n / 2 ^ 8) := by
    apply ofNat_eq_of_mod
    omega
  rw [haccumulator, hbyte]

/-- A fourth digit makes a third byte and leaves no bit. -/
theorem run_fourth (accumulator : Nat) (decoded : Bytes) (n : Nat) (s : Str) :
    Unbounded.run ⟨accumulator * 2 ^ 18 + n / 2 ^ 6 % 2 ^ 18, 2, decoded⟩
        (Str.utf8 (digitChar (digit n 0) :: s)) =
      Unbounded.run ⟨accumulator * 2 ^ 24 + n % 2 ^ 24, 0, decoded ++ [UInt8.ofNat n]⟩ s.utf8 := by
  rw [run_digit _ (digit_lt n 0), Unbounded.push_of_le _ _ 0]
  have haccumulator : (accumulator * 2 ^ 18 + n / 2 ^ 6 % 2 ^ 18) * 64 + digit n 0 =
      accumulator * 2 ^ 24 + n % 2 ^ 24 := by
    unfold digit
    omega
  have hbyte : UInt8.ofNat ((accumulator * 2 ^ 24 + n % 2 ^ 24) / 2 ^ 0) = UInt8.ofNat n := by
    apply ofNat_eq_of_mod
    omega
  rw [haccumulator, hbyte]

/-- The bytes of a chunk, from the number it stands for. -/
theorem chunkValue_bytes (chunk : Bytes) :
    UInt8.ofNat (chunkValue chunk / 2 ^ 16) = chunk.getD 0 0 ∧
      UInt8.ofNat (chunkValue chunk / 2 ^ 8) = chunk.getD 1 0 ∧
      UInt8.ofNat (chunkValue chunk) = chunk.getD 2 0 := by
  unfold chunkValue
  have h₁ := (chunk.getD 1 0).toNat_lt
  have h₂ := (chunk.getD 2 0).toNat_lt
  refine ⟨?_, ?_, ?_⟩
  · rw [← UInt8.ofNat_toNat (x := chunk.getD 0 0)]
    apply ofNat_eq_of_mod
    rw [UInt8.ofNat_toNat]
    omega
  · rw [← UInt8.ofNat_toNat (x := chunk.getD 1 0)]
    apply ofNat_eq_of_mod
    rw [UInt8.ofNat_toNat]
    omega
  · rw [← UInt8.ofNat_toNat (x := chunk.getD 2 0)]
    apply ofNat_eq_of_mod
    rw [UInt8.ofNat_toNat]
    omega

/-- A register with no bit waiting reads the text of any bytes, whatever it held before. -/
theorem run_base64 (accumulator : Nat) (decoded bytes : Bytes) :
    Unbounded.run ⟨accumulator, 0, decoded⟩ (base64 bytes).utf8 = .ok (decoded ++ bytes) := by
  fun_induction base64 bytes generalizing accumulator decoded with
  | case1 => rw [Str.utf8_nil, Unbounded.run, List.append_nil]
  | case2 b₀ b₁ b₂ bytes ih =>
    obtain ⟨h₀, h₁, h₂⟩ := chunkValue_bytes [b₀, b₁, b₂]
    rw [encodeChunk_three]
    simp only [List.cons_append, List.nil_append]
    rw [run_two, run_third, run_fourth, ih, h₀, h₁, h₂, List.append_assoc, List.append_assoc,
      List.append_assoc]
    rfl
  | case3 chunk hnil hlong =>
    rcases chunk with _ | ⟨b₀, _ | ⟨b₁, _ | ⟨b₂, bytes⟩⟩⟩
    · exact absurd rfl hnil
    · obtain ⟨h₀, -, -⟩ := chunkValue_bytes [b₀]
      rw [encodeChunk_one, run_two, run_filling, h₀]
      rfl
    · obtain ⟨h₀, h₁, -⟩ := chunkValue_bytes [b₀, b₁]
      rw [encodeChunk_two, run_two, run_third, run_filling, h₀, h₁, List.append_assoc]
      rfl
    · exact absurd rfl (hlong b₀ b₁ b₂ bytes)

theorem deserializeBytes_base64 (bytes : Bytes) : deserializeBytes (base64 bytes) = .ok bytes := by
  rw [deserializeBytes_eq]
  exact run_base64 0 [] bytes

end LeaveCli.Protocol
