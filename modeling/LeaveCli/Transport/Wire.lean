import LeaveCli.Lib.Protobuf
import LeaveCli.Transport.Envelope

/-!
# The encoding of an envelope (`proto/leave.proto`)

A concrete `EnvelopeWire`: `RelayEnvelope` in Protobuf, with the fields that are not at their
default in the order of their numbers, and message identifiers in hyphenated hexadecimal. Fields
of fixed width, which the schema does not have, are refused here. `wire_lawful` is what the crates
document.
-/

namespace LeaveCli.Transport

open Lib Protobuf LeaveCli.Core

def emptyEnvelope : Envelope := ⟨0, [], [], []⟩

/-- The fields of an envelope that are not at their default. -/
def Envelope.fields (envelope : Envelope) : List Field :=
  (if envelope.protocolVersion = 0 then [] else [⟨1, .varint envelope.protocolVersion⟩]) ++
  (if envelope.routeId = [] then [] else [⟨2, .bytes envelope.routeId.utf8⟩]) ++
  (if envelope.messageId = [] then [] else [⟨3, .bytes envelope.messageId.utf8⟩]) ++
  (if envelope.ciphertext = [] then [] else [⟨4, .bytes envelope.ciphertext⟩])

/-- Merge one field into an envelope; a field of another number is skipped. -/
def Envelope.merge (envelope : Envelope) (field : Field) : Option Envelope :=
  match field.number, field.payload with
  | 1, .varint n => some { envelope with protocolVersion := n % UInt32.size }
  | 2, .bytes value => (Str.fromUtf8 value).map fun routeId => { envelope with routeId }
  | 3, .bytes value => (Str.fromUtf8 value).map fun messageId => { envelope with messageId }
  | 4, .bytes value => some { envelope with ciphertext := value }
  | 1, .bytes _ => none
  | 2, .varint _ => none
  | 3, .varint _ => none
  | 4, .varint _ => none
  | _, _ => some envelope

def encodeEnvelope (envelope : Envelope) : Bytes := message envelope.fields

def decodeEnvelope (frame : Bytes) : Option Envelope :=
  (fields frame).bind fun parts => parts.foldlM Envelope.merge emptyEnvelope

/-! ## Message identifiers -/

def hexDigit (n : Nat) : Char := if n < 10 then Char.ofNat (48 + n) else Char.ofNat (87 + n)

def isHexDigit (c : Char) : Bool :=
  ('0' ≤ c ∧ c ≤ '9') ∨ ('a' ≤ c ∧ c ≤ 'f') ∨ ('A' ≤ c ∧ c ≤ 'F')

/-- `count` digits of an identifier, from the digit `start`. -/
def hexDigits (uuid : Uuid) (start count : Nat) : Str :=
  (List.range count).map fun i => hexDigit ((uuid >>> (4 * (31 - (start + i)))).toNat % 16)

def hexGroups (uuid : Uuid) : List Str :=
  [hexDigits uuid 0 8, hexDigits uuid 8 4, hexDigits uuid 12 4, hexDigits uuid 16 4,
    hexDigits uuid 20 12]

def hyphenated (uuid : Uuid) : Str := ['-'].intercalate (hexGroups uuid)

/-- Digits in the five groups of an identifier. -/
def isHyphenated (s : Str) : Bool :=
  let groups := s.splitOn '-'
  groups.map List.length = [8, 4, 4, 4, 12] ∧ groups.all (·.all isHexDigit)

/-- The forms `Uuid::parse_str` takes. -/
def parsesAsUuid (s : Str) : Bool :=
  (s.length = 32 ∧ s.all isHexDigit) ∨ isHyphenated s ∨
    (Str.stripPrefix "urn:uuid:" s).any isHyphenated ∨
    (s.head? = some '\x7b' ∧ s.getLast? = some '\x7d' ∧ isHyphenated s.tail.dropLast)

def wire : EnvelopeWire := ⟨encodeEnvelope, decodeEnvelope, hyphenated, parsesAsUuid⟩

/-! ## The laws -/

variable {envelope : Envelope}

theorem merge_version (h : envelope.protocolVersion = 0) {n : Nat} (hn : n < UInt32.size) :
    (if n = 0 then [] else [⟨1, .varint n⟩]).foldlM Envelope.merge envelope =
      some { envelope with protocolVersion := n } := by
  split
  · rename_i hzero
    rw [hzero, ← h]
    rfl
  · simp [List.foldlM, Envelope.merge, Nat.mod_eq_of_lt hn]

theorem merge_routeId (h : envelope.routeId = []) (routeId : Str) :
    (if routeId = [] then [] else [⟨2, .bytes routeId.utf8⟩]).foldlM Envelope.merge envelope =
      some { envelope with routeId } := by
  split
  · rename_i hnil
    rw [hnil, ← h]
    rfl
  · simp [List.foldlM, Envelope.merge, Str.fromUtf8_utf8]

theorem merge_messageId (h : envelope.messageId = []) (messageId : Str) :
    (if messageId = [] then [] else [⟨3, .bytes messageId.utf8⟩]).foldlM Envelope.merge envelope =
      some { envelope with messageId } := by
  split
  · rename_i hnil
    rw [hnil, ← h]
    rfl
  · simp [List.foldlM, Envelope.merge, Str.fromUtf8_utf8]

theorem merge_ciphertext (h : envelope.ciphertext = []) (ciphertext : Bytes) :
    (if ciphertext = [] then [] else [⟨4, .bytes ciphertext⟩]).foldlM Envelope.merge envelope =
      some { envelope with ciphertext } := by
  split
  · rename_i hnil
    rw [hnil, ← h]
    rfl
  · simp [List.foldlM, Envelope.merge]

theorem decodeEnvelope_encodeEnvelope (h : envelope.protocolVersion < UInt32.size) :
    decodeEnvelope (encodeEnvelope envelope) = some envelope := by
  rw [decodeEnvelope, encodeEnvelope, fields_message, Option.bind_some, Envelope.fields,
    List.foldlM_append, List.foldlM_append, List.foldlM_append, merge_version rfl h]
  simp only [Option.bind_eq_bind, Option.bind_some]
  rw [merge_routeId rfl, Option.bind_some, merge_messageId rfl, Option.bind_some,
    merge_ciphertext rfl]

theorem isHexDigit_hexDigit : ∀ n < 16, isHexDigit (hexDigit n) = true := by decide

theorem all_hexDigits (uuid : Uuid) (start count : Nat) :
    (hexDigits uuid start count).all isHexDigit = true := by
  rw [List.all_eq_true]
  intro c hc
  obtain ⟨i, -, rfl⟩ := List.mem_map.1 hc
  exact isHexDigit_hexDigit _ (Nat.mod_lt _ (by omega))

theorem not_mem_hexDigits (uuid : Uuid) (start count : Nat) :
    '-' ∉ hexDigits uuid start count := by
  intro hmem
  have hdigit := List.all_eq_true.1 (all_hexDigits uuid start count) '-' hmem
  revert hdigit
  decide

theorem length_hexDigits (uuid : Uuid) (start count : Nat) :
    (hexDigits uuid start count).length = count := by
  rw [hexDigits, List.length_map, List.length_range]

theorem isHyphenated_hyphenated (uuid : Uuid) : isHyphenated (hyphenated uuid) = true := by
  have hsplit : (hyphenated uuid).splitOn '-' = hexGroups uuid := by
    apply List.splitOn_intercalate
    · simp [hexGroups, not_mem_hexDigits]
    · simp [hexGroups]
  simp only [isHyphenated, hsplit, hexGroups, List.map_cons, List.map_nil, length_hexDigits,
    List.all_cons, all_hexDigits, List.all_nil, Bool.and_self, and_self, decide_true]

theorem wire_lawful : wire.Lawful where
  decode_encode := fun _ => decodeEnvelope_encodeEnvelope
  isUuid_uuidText := fun uuid => by
    show parsesAsUuid (hyphenated uuid) = true
    simp [parsesAsUuid, isHyphenated_hyphenated]

end LeaveCli.Transport
