import LeaveCli.Protocol.Tunnel

/-!
# The JSON text of tunnelled messages (`crates/leave-protocol/src/tunnel.rs`, `encode`)

`encode` writes a message with `serde_json::to_vec`: fields in the order of the struct, strings
escaped as `serde_json` escapes them, maps in the order of their keys, and a body as the base64
text of `serde_bytes_vec`. `encodeResponse_length` says how long an answer is.
-/

namespace LeaveCli.Protocol

open Lib

/-! ## Strings, numbers and maps -/

/-- A character inside a JSON string: `serde_json` escapes the quote, the backslash and the control
characters, and writes every other character as it is. -/
def jsonChar (c : Char) : Str :=
  if c = '"' then "\\\""
  else if c = '\\' then "\\\\"
  else if c.toNat = 8 then "\\b"
  else if c.toNat = 9 then "\\t"
  else if c.toNat = 10 then "\\n"
  else if c.toNat = 12 then "\\f"
  else if c.toNat = 13 then "\\r"
  else if c.toNat < 32 then
    ("\\u00" : Str) ++ [Nat.digitChar (c.toNat / 16), Nat.digitChar (c.toNat % 16)]
  else [c]

/-- The body of a JSON string. -/
def jsonEscaped (s : Str) : Str := s.flatMap jsonChar

def jsonString (s : Str) : Str := ("\"" : Str) ++ jsonEscaped s ++ ("\"" : Str)

def jsonNat (n : Nat) : Str := (toString n).toList

/-- The entries of a map, with a comma between them. -/
def jsonEntries : List (Str × Str) → Str
  | [] => []
  | [entry] => jsonString entry.1 ++ (":" : Str) ++ jsonString entry.2
  | entry :: entries => jsonString entry.1 ++ (":" : Str) ++ jsonString entry.2 ++ ("," : Str) ++
      jsonEntries entries

def jsonMap (map : Std.TreeMap Str Str) : Str :=
  ("\x7b" : Str) ++ jsonEntries map.toList ++ ("\x7d" : Str)

/-! ## Bodies (`serde_bytes_vec`) -/

/-- Alphabet of standard base64. -/
def alphabet : Str := "ABCDEFGHIJKLMNOPQRSTUVWXYZabcdefghijklmnopqrstuvwxyz0123456789+/"

/-- The four characters of a chunk of one to three bytes. -/
def encodeChunk (chunk : Bytes) : Str :=
  let value : UInt32 := (chunk.getD 0 0).toUInt32 <<< 16 ||| (chunk.getD 1 0).toUInt32 <<< 8 |||
    (chunk.getD 2 0).toUInt32
  (List.range 4).map fun index =>
    if index ≤ chunk.length then
      alphabet.getD ((value >>> UInt32.ofNat (18 - index * 6)) &&& 0x3f).toNat '='
    else '='

/-- `serde_bytes_vec::serialize`: the chunks of three bytes, the last one filled up. -/
def base64 : Bytes → Str
  | [] => []
  | b₀ :: b₁ :: b₂ :: bytes => encodeChunk [b₀, b₁, b₂] ++ base64 bytes
  | chunk => encodeChunk chunk

/-! ## Messages -/

def requestText (request : TunnelRequest) : Str :=
  ("\x7b\"version\":" : Str) ++ jsonNat request.version.toNat ++ (",\"exchange_id\":" : Str) ++
    jsonString request.exchangeId ++ (",\"method\":" : Str) ++ jsonString request.method ++
    (",\"path\":" : Str) ++ jsonString request.path ++ (",\"headers\":" : Str) ++
    jsonMap request.headers ++ (",\"body\":" : Str) ++ jsonString (base64 request.body) ++
    ("\x7d" : Str)

def responseText (response : TunnelResponse) : Str :=
  ("\x7b\"version\":" : Str) ++ jsonNat response.version.toNat ++ (",\"exchange_id\":" : Str) ++
    jsonString response.exchangeId ++ (",\"status\":" : Str) ++ jsonNat response.status ++
    (",\"headers\":" : Str) ++ jsonMap response.headers ++ (",\"body\":" : Str) ++
    jsonString (base64 response.body) ++ ("\x7d" : Str)

/-- `encode::<TunnelRequest>`, as a device runs it. -/
def encodeRequest (request : TunnelRequest) : Bytes := (requestText request).utf8

/-- `encode::<TunnelResponse>`. -/
def encodeResponse (response : TunnelResponse) : Bytes := (responseText response).utf8

/-! ## Lengths -/

theorem length_encodeChunk (chunk : Bytes) : (encodeChunk chunk).length = 4 := by
  simp [encodeChunk]

theorem length_base64 (bytes : Bytes) : (base64 bytes).length = 4 * ((bytes.length + 2) / 3) := by
  fun_induction base64 bytes with
  | case1 => rfl
  | case2 b₀ b₁ b₂ bytes ih =>
    rw [List.length_append, length_encodeChunk, ih]
    simp only [List.length_cons]
    omega
  | case3 chunk hnil hlong =>
    rw [length_encodeChunk]
    match chunk, hnil, hlong with
    | [_], _, _ => simp
    | [_, _], _, _ => simp
    | b₀ :: b₁ :: b₂ :: bytes, _, hlong => exact absurd rfl (hlong b₀ b₁ b₂ bytes)

/-- Printable ASCII that a JSON string does not escape. -/
def Plain (c : Char) : Prop := c ≠ '"' ∧ c ≠ '\\' ∧ 32 ≤ c.toNat ∧ c.toNat < 128

instance (c : Char) : Decidable (Plain c) := inferInstanceAs (Decidable (_ ∧ _))

theorem length_utf8_of_plain {s : Str} (h : ∀ c ∈ s, Plain c) : s.utf8.length = s.length := by
  apply Str.length_utf8_of_ascii
  rw [List.all_eq_true]
  intro c hc
  obtain ⟨-, -, -, hlt⟩ := h c hc
  exact decide_eq_true hlt

theorem jsonEscaped_of_plain {s : Str} (h : ∀ c ∈ s, Plain c) : jsonEscaped s = s := by
  induction s with
  | nil => rfl
  | cons c s ih =>
    have hc := h c List.mem_cons_self
    have hchar : jsonChar c = [c] := by
      obtain ⟨hquote, hslash, hprint, -⟩ := hc
      simp only [jsonChar, if_neg hquote, if_neg hslash]
      repeat rw [if_neg (by omega)]
    have hs : jsonEscaped s = s := ih fun d hd => h d (List.mem_cons_of_mem c hd)
    rw [jsonEscaped] at hs ⊢
    rw [List.flatMap_cons, hchar, hs]
    rfl

/-- The bytes of a text inside a JSON string. -/
def escapedLength (s : Str) : Nat := (jsonEscaped s).utf8.length

theorem escapedLength_of_plain {s : Str} (h : ∀ c ∈ s, Plain c) : escapedLength s = s.length := by
  rw [escapedLength, jsonEscaped_of_plain h, length_utf8_of_plain h]

theorem encodeChunk_plain {chunk : Bytes} {c : Char} (h : c ∈ encodeChunk chunk) : Plain c := by
  have halphabet : ∀ c ∈ alphabet, Plain c := by
    intro c hc
    have hall : alphabet.all (fun c => decide (Plain c)) = true := by decide
    exact of_decide_eq_true (List.all_eq_true.1 hall c hc)
  simp only [encodeChunk, List.mem_map] at h
  obtain ⟨index, -, rfl⟩ := h
  split
  · rw [List.getD_eq_getElem?_getD]
    generalize hget : alphabet[((chunk.getD 0 0).toUInt32 <<< 16 |||
      (chunk.getD 1 0).toUInt32 <<< 8 ||| (chunk.getD 2 0).toUInt32) >>>
      UInt32.ofNat (18 - index * 6) &&& 0x3f |>.toNat]? = found
    cases found with
    | none => decide
    | some d => exact halphabet d (List.mem_of_getElem? hget)
  · decide

theorem base64_plain {bytes : Bytes} {c : Char} (h : c ∈ base64 bytes) : Plain c := by
  fun_induction base64 bytes with
  | case1 => cases h
  | case2 b₀ b₁ b₂ bytes ih =>
    rcases List.mem_append.1 h with hchunk | hrest
    · exact encodeChunk_plain hchunk
    · exact ih hrest
  | case3 => exact encodeChunk_plain h

/-- The exchange id adds its own length to a request. -/
theorem encodeRequest_length (request : TunnelRequest) :
    (encodeRequest request).length = escapedLength request.exchangeId +
      (encodeRequest { request with exchangeId := [] }).length := by
  have hempty : (jsonEscaped []).utf8.length = 0 := escapedLength_of_plain (fun _ hc => nomatch hc)
  unfold encodeRequest requestText jsonString escapedLength
  simp only [Str.utf8_append, List.length_append, hempty]
  ac_rfl

/-- The length of an answer with the given exchange id, status and headers and with a body of
`bodyLength` bytes. -/
def responseLength (exchangeId : Str) (status : Nat) (headers : Std.TreeMap Str Str)
    (bodyLength : Nat) : Nat :=
  61 + escapedLength exchangeId + (jsonNat status).utf8.length + (jsonMap headers).utf8.length +
    4 * ((bodyLength + 2) / 3)

/-- What the host encodes has version 1. -/
theorem encodeResponse_length {response : TunnelResponse} (h : response.version = tunnelVersion) :
    (encodeResponse response).length =
      responseLength response.exchangeId response.status response.headers response.body.length := by
  have hbody : (jsonEscaped (base64 response.body)).utf8.length =
      4 * ((response.body.length + 2) / 3) := by
    have hplain : ∀ c ∈ base64 response.body, Plain c := fun c hc => base64_plain hc
    rw [jsonEscaped_of_plain hplain, length_utf8_of_plain hplain, length_base64]
  have hversion : (jsonNat tunnelVersion.toNat).utf8.length = 1 :=
    Str.length_utf8_of_ascii (by decide)
  have hopen : (Str.utf8 "\x7b\"version\":").length = 11 := Str.length_utf8_of_ascii (by decide)
  have hexchange : (Str.utf8 ",\"exchange_id\":").length = 15 :=
    Str.length_utf8_of_ascii (by decide)
  have hstatus : (Str.utf8 ",\"status\":").length = 10 := Str.length_utf8_of_ascii (by decide)
  have hheaders : (Str.utf8 ",\"headers\":").length = 11 :=
    Str.length_utf8_of_ascii (by decide)
  have hfield : (Str.utf8 ",\"body\":").length = 8 := Str.length_utf8_of_ascii (by decide)
  have hclose : (Str.utf8 "\x7d").length = 1 := Str.length_utf8_of_ascii (by decide)
  have hquote : (Str.utf8 "\"").length = 1 := Str.length_utf8_of_ascii (by decide)
  unfold encodeResponse responseText jsonString responseLength escapedLength
  rw [h]
  simp only [Str.utf8_append, List.length_append, hbody, hversion, hopen, hexchange, hstatus,
    hheaders, hfield, hclose, hquote]
  omega

end LeaveCli.Protocol
