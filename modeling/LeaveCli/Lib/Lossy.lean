import LeaveCli.Lib.Text
import Mathlib.Algebra.Group.Nat.Defs

/-!
# Bytes as text, with replacement characters

`String::from_utf8_lossy`: every maximal part of the bytes that is not the encoding of a character
becomes one U+FFFD.
-/

namespace Lib.Str

/-- How many bytes continue a first byte, and the range of the first of them. -/
def continuations (first : UInt8) : Option (Nat × UInt8 × UInt8) :=
  if 0xc2 ≤ first ∧ first ≤ 0xdf then some (1, 0x80, 0xbf)
  else if first = 0xe0 then some (2, 0xa0, 0xbf)
  else if first = 0xed then some (2, 0x80, 0x9f)
  else if 0xe1 ≤ first ∧ first ≤ 0xef then some (2, 0x80, 0xbf)
  else if first = 0xf0 then some (3, 0x90, 0xbf)
  else if first = 0xf4 then some (3, 0x80, 0x8f)
  else if 0xf1 ≤ first ∧ first ≤ 0xf3 then some (3, 0x80, 0xbf)
  else none

/-- How many of the bytes continue a character. -/
def continued : Nat → UInt8 → UInt8 → Bytes → Nat
  | 0, _, _, _ => 0
  | _ + 1, _, _, [] => 0
  | count + 1, low, high, byte :: rest =>
    if low ≤ byte ∧ byte ≤ high then continued count 0x80 0xbf rest + 1 else 0

/-- The bits a first byte with `count` continuations adds to its character. -/
def leadBits (count : Nat) (first : UInt8) : Nat := first.toNat % 2 ^ (6 - count)

/-- The character at the front and its length, or the length of the part that is none. -/
def frontChar (first : UInt8) (rest : Bytes) : Option Char × Nat :=
  if first < 0x80 then (some (Char.ofNat first.toNat), 1)
  else
    (continuations first).elim (none, 1) fun expected =>
      let found := continued expected.1 expected.2.1 expected.2.2 rest
      if found = expected.1 then
        (some (Char.ofNat ((rest.take found).foldl (fun bits byte => bits * 64 + byte.toNat % 64)
          (leadBits expected.1 first))), found + 1)
      else (none, found + 1)

def lossyWith : Nat → Bytes → Str
  | 0, _ => []
  | _ + 1, [] => []
  | fuel + 1, first :: rest =>
    let front := frontChar first rest
    front.1.getD '\ufffd' :: lossyWith fuel ((first :: rest).drop front.2)

/-- `String::from_utf8_lossy`. -/
def fromUtf8Lossy (bytes : Bytes) : Str := lossyWith bytes.length bytes

end Lib.Str
