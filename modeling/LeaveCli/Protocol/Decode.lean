import LeaveCli.Protocol.Json

/-!
# Reading tunnelled messages (`crates/leave-protocol/src/tunnel.rs`, `decode`)

`decode` reads a message with `serde_json::from_slice`. What `serde_json` finds in the bytes is a
parameter of type `Bytes → Except SerdeError JsonDocument`; what `derive(Deserialize)` makes of it
is modelled here, with `serde_bytes_vec::deserialize` for the body: unknown fields are skipped, a
known one may not repeat, and a missing one is an error unless it has a default.
-/

namespace LeaveCli.Protocol

open Lib

/-! ## Bodies (`serde_bytes_vec`) -/

/-- Why `serde` refuses a text. -/
inductive SerdeError
  | custom (text : Str)
  | missingField (name : Str)
  | duplicateField (name : Str)
  | invalidType
  | invalidLength
  | malformed
  deriving DecidableEq, Repr

/-- What the loop of `serde_bytes_vec::deserialize` carries from one character to the next. -/
structure Decoding where
  accumulator : UInt32
  bits : Nat
  decoded : Bytes

def Decoding.start : Decoding := ⟨0, 0, []⟩

/-- One turn of the loop, with the character at `position` of the alphabet. -/
def Decoding.push (d : Decoding) (position : Nat) : Decoding :=
  let accumulator := d.accumulator <<< 6 ||| UInt32.ofNat position
  let bits := d.bits + 6
  if 8 ≤ bits then
    let byte := ((accumulator >>> UInt32.ofNat (bits - 8)) &&& 0xff).toUInt8
    ⟨accumulator, bits - 8, d.decoded ++ [byte]⟩
  else ⟨accumulator, bits, d.decoded⟩

/-- The loop: it stops at the first `=`. -/
def Decoding.run (d : Decoding) : Bytes → Except SerdeError Bytes
  | [] => .ok d.decoded
  | character :: text =>
    if character = 61 then .ok d.decoded
    else (alphabet.utf8.idxOf? character).elim (.error (.custom "invalid base64")) fun position =>
      (d.push position).run text

/-- `serde_bytes_vec::deserialize`, of the text that `String::deserialize` returns. -/
def deserializeBytes (text : Str) : Except SerdeError Bytes := Decoding.start.run text.utf8

/-! ## Values -/

/-- A value of a JSON object, as far as a tunnelled message has them. -/
inductive JsonValue
  | text (s : Str)
  | number (n : Nat)
  | map (entries : List (Str × Str))
  /-- Any other value, by its text. -/
  | other (source : Str)
  deriving DecidableEq, Repr

/-- What `serde_json` finds in a text: an object is given field by field, in the text's order. -/
inductive JsonDocument
  | object (fields : List (Str × JsonValue))
  | array (items : List JsonValue)
  | scalar
  deriving DecidableEq, Repr

/-- `String::deserialize`. -/
def readString : JsonValue → Except SerdeError Str
  | .text s => .ok s
  | _ => .error .invalidType

/-- An unsigned integer that is less than `bound`. -/
def readNat (bound : Nat) : JsonValue → Except SerdeError Nat
  | .number n => if n < bound then .ok n else .error .invalidType
  | _ => .error .invalidType

/-- `u32::deserialize`. -/
def readU32 (value : JsonValue) : Except SerdeError UInt32 :=
  (readNat 4294967296 value).map UInt32.ofNat

/-- `u16::deserialize`. -/
def readU16 : JsonValue → Except SerdeError Nat := readNat 65536

/-- The entries of a map, inserted one after the other. -/
def insertAll (entries : List (Str × Str)) : Std.TreeMap Str Str :=
  entries.foldl (fun map entry => map.insert entry.1 entry.2) ∅

/-- `BTreeMap::<String, String>::deserialize`. -/
def readMap : JsonValue → Except SerdeError (Std.TreeMap Str Str)
  | .map entries => .ok (insertAll entries)
  | _ => .error .invalidType

/-- `Vec<u8>` with `serde_bytes_vec`. -/
def readBytes (value : JsonValue) : Except SerdeError Bytes :=
  readString value >>= deserializeBytes

/-! ## Messages -/

/-- The value of a known field, which may stand in an object once. -/
def fieldOf (fields : List (Str × JsonValue)) (name : Str) : Except SerdeError (Option JsonValue) :=
  match fields.filter (fun field => field.1 = name) with
  | [] => .ok none
  | [field] => .ok (some field.2)
  | _ => .error (.duplicateField name)

/-- A field without a default. -/
def required {α : Type} (fields : List (Str × JsonValue)) (name : Str)
    (read : JsonValue → Except SerdeError α) : Except SerdeError α := do
  let value ← fieldOf fields name
  value.elim (.error (.missingField name)) read

/-- A field with `#[serde(default)]`. -/
def defaulted {α : Type} (fields : List (Str × JsonValue)) (name : Str) (default : α)
    (read : JsonValue → Except SerdeError α) : Except SerdeError α := do
  let value ← fieldOf fields name
  value.elim (.ok default) read

/-- The fields of a struct with the names `names`: an array gives them in the order of the
struct. -/
def structFields (names : List Str) : JsonDocument → Except SerdeError (List (Str × JsonValue))
  | .object fields => .ok fields
  | .array items =>
    if items.length ≤ names.length then .ok (names.zip items) else .error .invalidLength
  | .scalar => .error .invalidType

/-- `TunnelRequest::deserialize`. -/
def TunnelRequest.deserialize (document : JsonDocument) : Except SerdeError TunnelRequest := do
  let fields ← structFields ["version", "exchange_id", "method", "path", "headers", "body"] document
  let version ← required fields "version" readU32
  let exchangeId ← required fields "exchange_id" readString
  let method ← required fields "method" readString
  let path ← required fields "path" readString
  let headers ← defaulted fields "headers" ∅ readMap
  let body ← defaulted fields "body" [] readBytes
  .ok ⟨version, exchangeId, method, path, headers, body⟩

/-- `TunnelResponse::deserialize`. -/
def TunnelResponse.deserialize (document : JsonDocument) : Except SerdeError TunnelResponse := do
  let fields ← structFields ["version", "exchange_id", "status", "headers", "body"] document
  let version ← required fields "version" readU32
  let exchangeId ← required fields "exchange_id" readString
  let status ← required fields "status" readU16
  let headers ← defaulted fields "headers" ∅ readMap
  let body ← defaulted fields "body" [] readBytes
  .ok ⟨version, exchangeId, status, headers, body⟩

section Decode

variable (fromSlice : Bytes → Except SerdeError JsonDocument)

/-- `decode::<TunnelRequest>`, as the host runs it. -/
def decodeRequest (bytes : Bytes) : Except TunnelError TunnelRequest :=
  (fromSlice bytes >>= TunnelRequest.deserialize).mapError fun _ => .malformed

/-- `decode::<TunnelResponse>`, as a device runs it. -/
def decodeResponse (bytes : Bytes) : Except TunnelError TunnelResponse :=
  (fromSlice bytes >>= TunnelResponse.deserialize).mapError fun _ => .malformed

end Decode

/-! ## What the encoder writes, as an object -/

def jsonValue : JsonValue → Str
  | .text s => jsonString s
  | .number n => jsonNat n
  | .map entries => ("\x7b" : Str) ++ jsonEntries entries ++ ("\x7d" : Str)
  | .other source => source

/-- The fields of an object, with a comma between them. -/
def jsonFields : List (Str × JsonValue) → Str
  | [] => []
  | [field] => jsonString field.1 ++ (":" : Str) ++ jsonValue field.2
  | field :: fields => jsonString field.1 ++ (":" : Str) ++ jsonValue field.2 ++ ("," : Str) ++
      jsonFields fields

/-- The text `serde_json` writes for an object. -/
def jsonObject (fields : List (Str × JsonValue)) : Str :=
  ("\x7b" : Str) ++ jsonFields fields ++ ("\x7d" : Str)

def TunnelRequest.fields (request : TunnelRequest) : List (Str × JsonValue) :=
  [("version", .number request.version.toNat), ("exchange_id", .text request.exchangeId),
    ("method", .text request.method), ("path", .text request.path),
    ("headers", .map request.headers.toList), ("body", .text (base64 request.body))]

def TunnelResponse.fields (response : TunnelResponse) : List (Str × JsonValue) :=
  [("version", .number response.version.toNat), ("exchange_id", .text response.exchangeId),
    ("status", .number response.status), ("headers", .map response.headers.toList),
    ("body", .text (base64 response.body))]

/-- A key as `requestText` and `responseText` have it, with its quotes and its colon. -/
theorem jsonString_key {name : Str} (h : name.all (fun c => decide (Plain c)) = true) :
    jsonString name ++ (":" : Str) = ("\"" : Str) ++ (name ++ ("\":" : Str)) := by
  have hplain : ∀ c ∈ name, Plain c := fun c hc => of_decide_eq_true (List.all_eq_true.1 h c hc)
  rw [jsonString, jsonEscaped_of_plain hplain, List.append_assoc, List.append_assoc]
  rfl

/-- The keys the two messages share, and what stands before them. -/
theorem openVersion : ("\x7b\"version\":" : Str) =
    ("\x7b" : Str) ++ (jsonString "version" ++ (":" : Str)) := by
  rw [jsonString_key (by decide)]
  rfl

theorem commaExchangeId : (",\"exchange_id\":" : Str) =
    ("," : Str) ++ (jsonString "exchange_id" ++ (":" : Str)) := by
  rw [jsonString_key (by decide)]
  rfl

theorem commaHeaders : (",\"headers\":" : Str) =
    ("," : Str) ++ (jsonString "headers" ++ (":" : Str)) := by
  rw [jsonString_key (by decide)]
  rfl

theorem commaBody : (",\"body\":" : Str) =
    ("," : Str) ++ (jsonString "body" ++ (":" : Str)) := by
  rw [jsonString_key (by decide)]
  rfl

theorem commaMethod : (",\"method\":" : Str) =
    ("," : Str) ++ (jsonString "method" ++ (":" : Str)) := by
  rw [jsonString_key (by decide)]
  rfl

theorem commaPath : (",\"path\":" : Str) = ("," : Str) ++ (jsonString "path" ++ (":" : Str)) := by
  rw [jsonString_key (by decide)]
  rfl

theorem requestText_eq (request : TunnelRequest) :
    requestText request = jsonObject request.fields := by
  unfold requestText jsonMap
  simp only [openVersion, commaExchangeId, commaMethod, commaPath, commaHeaders, commaBody,
    List.append_assoc]
  simp only [jsonObject, TunnelRequest.fields, jsonFields, jsonValue, List.append_assoc]

theorem commaStatus : (",\"status\":" : Str) =
    ("," : Str) ++ (jsonString "status" ++ (":" : Str)) := by
  rw [jsonString_key (by decide)]
  rfl

theorem responseText_eq (response : TunnelResponse) :
    responseText response = jsonObject response.fields := by
  unfold responseText jsonMap
  simp only [openVersion, commaExchangeId, commaStatus, commaHeaders, commaBody,
    List.append_assoc]
  simp only [jsonObject, TunnelResponse.fields, jsonFields, jsonValue, List.append_assoc]

end LeaveCli.Protocol
