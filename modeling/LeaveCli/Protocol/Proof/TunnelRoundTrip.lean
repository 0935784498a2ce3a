import LeaveCli.Protocol.Proof.Base64

/-!
# Tunnelled messages survive their encoding

The JSON of `serde_json` is a parameter: `ReadsBack` says that it finds in the text of an object of
strings, integers and string maps the fields that were written. The rest is the repository's: the
text `encode` writes is that of such an object (`requestText_eq`, `responseText_eq`), its names are
distinct, every integer is in the range of its field, the entries of a map are inserted into an
equal map (`toList_insertAll`), and a body is the base64 text that `deserialize` reads back.
-/

namespace LeaveCli.Protocol

open Lib

/-- `serde_json` reads back the fields it wrote. -/
def ReadsBack (fromSlice : Bytes → Except SerdeError JsonDocument)
    (fields : List (Str × JsonValue)) : Prop :=
  fromSlice (jsonObject fields).utf8 = .ok (.object fields)

/-! ## Maps -/

/-- A map is built again from its entries. -/
theorem toList_insertAll (map : Std.TreeMap Str Str) :
    (insertAll map.toList).toList = map.toList := by
  have hfold : (Std.TreeMap.ofList map.toList).Equiv (insertAll map.toList) :=
    Std.TreeMap.ofList_equiv_foldl
  have hentries : (Std.TreeMap.ofList map.toList).Equiv map := by
    apply Std.TreeMap.Equiv.of_forall_constGet?_eq
    intro key
    cases hget : map[key]? with
    | some value =>
      exact Std.TreeMap.getElem?_ofList_of_mem Std.ReflCmp.compare_self
        Std.TreeMap.distinct_keys_toList (Std.TreeMap.mem_toList_iff_getElem?_eq_some.2 hget)
    | none =>
      apply Std.TreeMap.getElem?_eq_none
      rw [Std.TreeMap.mem_ofList, List.contains_iff_mem]
      intro hmem
      obtain ⟨entry, hentry, rfl⟩ := List.mem_map.1 hmem
      have hsome : map[entry.1]? = some entry.2 :=
        Std.TreeMap.mem_toList_iff_getElem?_eq_some.1 hentry
      rw [hget] at hsome
      cases hsome
  rw [← Std.TreeMap.equiv_iff_toList_eq.1 hfold, Std.TreeMap.equiv_iff_toList_eq.1 hentries]

/-! ## Fields -/

section Fields

variable {fields : List (Str × JsonValue)} {name : Str} {value : JsonValue}

theorem filter_of_mem (hnodup : (fields.map Prod.fst).Nodup) (h : (name, value) ∈ fields) :
    fields.filter (fun field => field.1 = name) = [(name, value)] := by
  induction fields with
  | nil => cases h
  | cons field fields ih =>
    obtain ⟨hnew, hnodup⟩ := List.nodup_cons.1 hnodup
    rcases List.mem_cons.1 h with rfl | htail
    · have hnone : fields.filter (fun field => field.1 = name) = [] := by
        rw [List.filter_eq_nil_iff]
        intro field hfield hname
        apply hnew
        show name ∈ fields.map Prod.fst
        rw [← of_decide_eq_true hname]
        exact List.mem_map_of_mem hfield
      rw [List.filter_cons_of_pos (by simp), hnone]
    · have hne : ¬ field.1 = name := by
        intro hname
        apply hnew
        rw [hname]
        exact List.mem_map_of_mem htail
      rw [List.filter_cons_of_neg (by simpa using hne), ih hnodup htail]

theorem fieldOf_at (hnodup : (fields.map Prod.fst).Nodup) (index : Nat)
    (h : fields[index]? = some (name, value)) : fieldOf fields name = .ok (some value) := by
  rw [fieldOf, filter_of_mem hnodup (List.mem_of_getElem? h)]

variable {α : Type} {read : JsonValue → Except SerdeError α} {a : α}

theorem required_at (hnodup : (fields.map Prod.fst).Nodup) (index : Nat)
    (h : fields[index]? = some (name, value)) (hread : read value = .ok a) :
    required fields name read = .ok a := by
  rw [required, fieldOf_at hnodup index h]
  exact hread

theorem defaulted_at (hnodup : (fields.map Prod.fst).Nodup) (index : Nat)
    (h : fields[index]? = some (name, value)) (default : α) (hread : read value = .ok a) :
    defaulted fields name default read = .ok a := by
  rw [defaulted, fieldOf_at hnodup index h]
  exact hread

end Fields

theorem readU32_toNat (n : UInt32) : readU32 (.number n.toNat) = .ok n := by
  have hlt : n.toNat < 4294967296 := n.toNat_lt
  rw [readU32, readNat, if_pos hlt]
  show Except.ok (UInt32.ofNat n.toNat) = _
  rw [UInt32.ofNat_toNat]

theorem readU16_of_lt {n : Nat} (h : n < 65536) : readU16 (.number n) = .ok n := if_pos h

theorem readBytes_base64 (bytes : Bytes) : readBytes (.text (base64 bytes)) = .ok bytes :=
  deserializeBytes_base64 bytes

/-! ## Messages -/

theorem TunnelRequest.deserialize_fields (request : TunnelRequest) :
    TunnelRequest.deserialize (.object request.fields) =
      .ok { request with headers := insertAll request.headers.toList } := by
  have hnodup : (request.fields.map Prod.fst).Nodup :=
    show (["version", "exchange_id", "method", "path", "headers", "body"] : List Str).Nodup by
      decide
  have hversion : required request.fields "version" readU32 = .ok request.version :=
    required_at hnodup 0 rfl (readU32_toNat request.version)
  have hexchange : required request.fields "exchange_id" readString = .ok request.exchangeId :=
    required_at hnodup 1 rfl rfl
  have hmethod : required request.fields "method" readString = .ok request.method :=
    required_at hnodup 2 rfl rfl
  have hpath : required request.fields "path" readString = .ok request.path :=
    required_at hnodup 3 rfl rfl
  have hheaders : defaulted request.fields "headers" ∅ readMap =
      .ok (insertAll request.headers.toList) := defaulted_at hnodup 4 rfl ∅ rfl
  have hbody : defaulted request.fields "body" [] readBytes = .ok request.body :=
    defaulted_at hnodup 5 rfl [] (readBytes_base64 request.body)
  simp only [TunnelRequest.deserialize, structFields, bind, Except.bind, hversion, hexchange,
    hmethod, hpath, hheaders, hbody]

theorem TunnelResponse.deserialize_fields {response : TunnelResponse}
    (hstatus : response.status < 65536) :
    TunnelResponse.deserialize (.object response.fields) =
      .ok { response with headers := insertAll response.headers.toList } := by
  have hnodup : (response.fields.map Prod.fst).Nodup :=
    show (["version", "exchange_id", "status", "headers", "body"] : List Str).Nodup by decide
  have hversion : required response.fields "version" readU32 = .ok response.version :=
    required_at hnodup 0 rfl (readU32_toNat response.version)
  have hexchange : required response.fields "exchange_id" readString = .ok response.exchangeId :=
    required_at hnodup 1 rfl rfl
  have hstatus : required response.fields "status" readU16 = .ok response.status :=
    required_at hnodup 2 rfl (readU16_of_lt hstatus)
  have hheaders : defaulted response.fields "headers" ∅ readMap =
      .ok (insertAll response.headers.toList) := defaulted_at hnodup 3 rfl ∅ rfl
  have hbody : defaulted response.fields "body" [] readBytes = .ok response.body :=
    defaulted_at hnodup 4 rfl [] (readBytes_base64 response.body)
  simp only [TunnelResponse.deserialize, structFields, bind, Except.bind, hversion, hexchange,
    hstatus, hheaders, hbody]

section Decode

variable {fromSlice : Bytes → Except SerdeError JsonDocument}

theorem decodeRequest_encodeRequest {request : TunnelRequest}
    (h : ReadsBack fromSlice request.fields) :
    decodeRequest fromSlice (encodeRequest request) =
      .ok { request with headers := insertAll request.headers.toList } := by
  have hread : fromSlice (encodeRequest request) = .ok (.object request.fields) := by
    rw [encodeRequest, requestText_eq]
    exact h
  rw [decodeRequest, mapError_eq_ok, bind_eq_ok]
  exact ⟨_, hread, request.deserialize_fields⟩

theorem decodeResponse_encodeResponse {response : TunnelResponse}
    (h : ReadsBack fromSlice response.fields) (hstatus : response.status < 65536) :
    decodeResponse fromSlice (encodeResponse response) =
      .ok { response with headers := insertAll response.headers.toList } := by
  have hread : fromSlice (encodeResponse response) = .ok (.object response.fields) := by
    rw [encodeResponse, responseText_eq]
    exact h
  rw [decodeResponse, mapError_eq_ok, bind_eq_ok]
  exact ⟨_, hread, TunnelResponse.deserialize_fields hstatus⟩

end Decode

/-- Bodies and messages come back as they were written, and a text is read as over a register
without a bound. A decoded message has every field of the encoded one, its headers as the same
map. -/
theorem tunnel_roundTrip (fromSlice : Bytes → Except SerdeError JsonDocument) :
    (∀ bytes, deserializeBytes (base64 bytes) = .ok bytes ∧
      (base64 bytes).utf8.length = 4 * ((bytes.length + 2) / 3)) ∧
      (∀ text, deserializeBytes text = deserializeUnbounded text) ∧
      (∀ request : TunnelRequest, ReadsBack fromSlice request.fields →
        ∃ headers, headers.toList = request.headers.toList ∧
          decodeRequest fromSlice (encodeRequest request) =
            .ok { request with headers := headers }) ∧
      ∀ response : TunnelResponse, ReadsBack fromSlice response.fields → response.status < 65536 →
        ∃ headers, headers.toList = response.headers.toList ∧
          decodeResponse fromSlice (encodeResponse response) =
            .ok { response with headers := headers } := by
  refine ⟨?_, deserializeBytes_eq, ?_, ?_⟩
  · intro bytes
    refine ⟨deserializeBytes_base64 bytes, ?_⟩
    rw [length_utf8_of_plain fun c hc => base64_plain hc, length_base64]
  · intro request h
    exact ⟨_, toList_insertAll request.headers, decodeRequest_encodeRequest h⟩
  · intro response h hstatus
    exact ⟨_, toList_insertAll response.headers, decodeResponse_encodeResponse h hstatus⟩

/-- A request with a header and a body of two bytes, the answer to it, and a `serde_json` that knows
these two texts. -/
def smallRequest : TunnelRequest :=
  ⟨1, "ab", "PUT", "/api/v1/local/file", Std.TreeMap.empty.insert "content-type" "text/plain",
    [0xff, 0x00]⟩

def smallResponse : TunnelResponse := ⟨1, "ab", 204, ∅, []⟩

def smallFromSlice (bytes : Bytes) : Except SerdeError JsonDocument :=
  if bytes = (jsonObject smallRequest.fields).utf8 then .ok (.object smallRequest.fields)
  else if bytes = (jsonObject smallResponse.fields).utf8 then .ok (.object smallResponse.fields)
  else .error .malformed

theorem smallFromSlice_response : ReadsBack smallFromSlice smallResponse.fields := by
  have hne : ¬ (jsonObject smallResponse.fields).utf8 = (jsonObject smallRequest.fields).utf8 := by
    decide +kernel
  rw [ReadsBack, smallFromSlice, if_neg hne, if_pos rfl]

theorem tunnel_roundTrip_small :
    (∃ headers, headers.toList = smallRequest.headers.toList ∧
      decodeRequest smallFromSlice (encodeRequest smallRequest) =
        .ok { smallRequest with headers := headers }) ∧
      ∃ headers, headers.toList = smallResponse.headers.toList ∧
        decodeResponse smallFromSlice (encodeResponse smallResponse) =
          .ok { smallResponse with headers := headers } :=
  ⟨(tunnel_roundTrip smallFromSlice).2.2.1 smallRequest (if_pos rfl),
    (tunnel_roundTrip smallFromSlice).2.2.2 smallResponse smallFromSlice_response (by decide)⟩

end LeaveCli.Protocol
