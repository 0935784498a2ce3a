import LeaveCli.Lib.Text

/-!
# The Protobuf wire format

A message is a sequence of fields; a field is a number and a payload, a varint or bytes behind
their length. `takeVarint_putVarint` and `takeField_putField` are the round trips of the parts,
`fields_message` is that of a message.
-/

namespace Lib.Protobuf

open Lib

/-- Seven bits a byte, lowest first; every byte but the last has its high bit set. -/
def varintDigits : Nat → Nat → Bytes
  | 0, n => [UInt8.ofNat n]
  | fuel + 1, n =>
    if n < 128 then [UInt8.ofNat n] else UInt8.ofNat (n % 128 + 128) :: varintDigits fuel (n / 128)

def putVarint (n : Nat) : Bytes := varintDigits n n

/-- The number at the front of the input, unless the input ends inside it. -/
def takeVarint : Bytes → Option (Nat × Bytes)
  | [] => none
  | byte :: rest =>
    if byte.toNat < 128 then some (byte.toNat, rest)
    else (takeVarint rest).map fun read => (byte.toNat - 128 + 128 * read.1, read.2)

inductive Payload
  | varint (n : Nat)
  | bytes (value : Bytes)
  deriving DecidableEq, Repr

structure Field where
  number : Nat
  payload : Payload
  deriving DecidableEq, Repr

def putField (field : Field) : Bytes :=
  match field.payload with
  | .varint n => putVarint (field.number * 8) ++ putVarint n
  | .bytes value => putVarint (field.number * 8 + 2) ++ putVarint value.length ++ value

/-- The field at the front of the input. -/
def takeField (input : Bytes) : Option (Field × Bytes) :=
  (takeVarint input).bind fun key =>
    if key.1 % 8 = 0 then
      (takeVarint key.2).map fun read => (⟨key.1 / 8, .varint read.1⟩, read.2)
    else if key.1 % 8 = 2 then
      (takeVarint key.2).bind fun length =>
        if length.1 ≤ length.2.length then
          some (⟨key.1 / 8, .bytes (length.2.take length.1)⟩, length.2.drop length.1)
        else none
    else none

def message (parts : List Field) : Bytes := parts.flatMap putField

/-- The fields of a message with at most `fuel` of them. -/
def fieldsWith : Nat → Bytes → Option (List Field)
  | _, [] => some []
  | 0, _ :: _ => none
  | fuel + 1, input =>
    (takeField input).bind fun read => (fieldsWith fuel read.2).map (read.1 :: ·)

/-- The fields of a message, each of which takes at least one byte. -/
def fields (input : Bytes) : Option (List Field) := fieldsWith input.length input

/-! ## Round trips -/

theorem toNat_ofNat {n : Nat} (h : n < 256) : (UInt8.ofNat n).toNat = n := by
  rw [UInt8.toNat_ofNat']
  omega

theorem takeVarint_small {n : Nat} (h : n < 128) (rest : Bytes) :
    takeVarint (UInt8.ofNat n :: rest) = some (n, rest) := by
  have hbyte : (UInt8.ofNat n).toNat = n := toNat_ofNat (by omega)
  rw [takeVarint, hbyte, if_pos h]

theorem takeVarint_varintDigits {fuel n : Nat} (h : n ≤ fuel) (rest : Bytes) :
    takeVarint (varintDigits fuel n ++ rest) = some (n, rest) := by
  induction fuel generalizing n with
  | zero =>
    have hn : n = 0 := by omega
    subst hn
    exact takeVarint_small (by omega) rest
  | succ fuel ih =>
    rw [varintDigits]
    split
    · rename_i hsmall
      exact takeVarint_small hsmall rest
    · rename_i hlarge
      have hbyte : (UInt8.ofNat (n % 128 + 128)).toNat = n % 128 + 128 := toNat_ofNat (by omega)
      have hsum : n % 128 + 128 - 128 + 128 * (n / 128) = n := by omega
      rw [List.cons_append, takeVarint, hbyte, if_neg (by omega), ih (by omega), Option.map_some,
        hsum]

theorem takeVarint_putVarint (n : Nat) (rest : Bytes) :
    takeVarint (putVarint n ++ rest) = some (n, rest) :=
  takeVarint_varintDigits (Nat.le_refl n) rest

theorem takeField_putField (field : Field) (rest : Bytes) :
    takeField (putField field ++ rest) = some (field, rest) := by
  obtain ⟨number, payload⟩ := field
  cases payload with
  | varint n =>
    have hkey : number * 8 % 8 = 0 := by omega
    have hnumber : number * 8 / 8 = number := by omega
    rw [takeField, putField, List.append_assoc, takeVarint_putVarint, Option.bind_some, if_pos hkey,
      takeVarint_putVarint, Option.map_some, hnumber]
  | bytes value =>
    have hkey : (number * 8 + 2) % 8 = 2 := by omega
    have hnumber : (number * 8 + 2) / 8 = number := by omega
    have hlength : value.length ≤ (value ++ rest).length := by
      rw [List.length_append]
      omega
    rw [takeField, putField, List.append_assoc, List.append_assoc, takeVarint_putVarint,
      Option.bind_some, if_neg (by omega), if_pos hkey, takeVarint_putVarint, Option.bind_some,
      if_pos hlength, List.take_left, List.drop_left, hnumber]

theorem putField_ne_nil (field : Field) : putField field ≠ [] := by
  intro hnil
  have hread := takeField_putField field []
  rw [hnil] at hread
  cases hread

theorem fieldsWith_message {parts : List Field} {fuel : Nat} (h : parts.length ≤ fuel) :
    fieldsWith fuel (message parts) = some parts := by
  induction parts generalizing fuel with
  | nil => cases fuel <;> rfl
  | cons field parts ih =>
    rw [List.length_cons] at h
    obtain ⟨fuel, rfl⟩ := Nat.exists_eq_add_one_of_ne_zero (show fuel ≠ 0 by omega)
    have hread := takeField_putField field (message parts)
    rw [message, List.flatMap_cons]
    cases hbytes : putField field ++ parts.flatMap putField with
    | nil => exact absurd (List.append_eq_nil_iff.1 hbytes).1 (putField_ne_nil field)
    | cons byte rest =>
      rw [fieldsWith, ← hbytes]
      · rw [show parts.flatMap putField = message parts from rfl, hread, Option.bind_some,
          ih (by omega), Option.map_some]
      · simp

theorem length_le_message (parts : List Field) : parts.length ≤ (message parts).length := by
  induction parts with
  | nil => exact Nat.le_refl 0
  | cons field parts ih =>
    have hpos : 0 < (putField field).length := List.length_pos_of_ne_nil (putField_ne_nil field)
    rw [message, List.flatMap_cons, List.length_append, List.length_cons]
    rw [message] at ih
    omega

/-- What a message is made of is what it reads as. -/
theorem fields_message (parts : List Field) : fields (message parts) = some parts :=
  fieldsWith_message (length_le_message parts)

end Lib.Protobuf
