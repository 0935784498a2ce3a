import Mathlib.Data.List.Basic

/-!
# Text and bytes

Rust's `str` as the list of its Unicode scalar values and `[u8]` as a list of bytes, with the
`str` methods that no `List` function covers. `starts_with`, `ends_with` and `contains` are the
list relations `<+:`, `<:+` and `<:+:`, `split(c)` is `List.splitOn c`.
-/

namespace Lib

abbrev Str := List Char

abbrev Bytes := List UInt8

instance : Coe String Str := ⟨String.toList⟩

instance : LawfulBEq Str := inferInstance

/-- Only the characters of the text are looked at, not all there are. -/
instance decidableForallMem (p : Char → Prop) [DecidablePred p] (s : Str) :
    Decidable (∀ c ∈ s, p c) := List.decidableBAll p s

instance decidableForallMemOption (p : Char → Prop) [DecidablePred p] (c : Option Char) :
    Decidable (∀ x ∈ c, p x) := Option.decidableForallMem c

namespace Str

/-- `str::as_bytes`. -/
def utf8 (s : Str) : Bytes := (String.ofList s).toUTF8.toList

/-- `String::from_utf8`. -/
def fromUtf8 (bytes : Bytes) : Option Str := (String.fromUTF8? ⟨bytes.toArray⟩).map String.toList

/-- `str::to_ascii_lowercase`. -/
def toAsciiLowercase (s : Str) : Str := s.map Char.toLower

/-- `str::strip_prefix`. -/
def stripPrefix (p s : Str) : Option Str := if p <+: s then some (s.drop p.length) else none

/-- `str::split_once`: the text before the first `c` and the text after it. -/
def splitOnce (c : Char) : Str → Option (Str × Str)
  | [] => none
  | x :: s => if x = c then some ([], s) else (splitOnce c s).map fun p => (x :: p.1, p.2)

/-- `char::is_whitespace`: the Unicode property `White_Space`. -/
def isWhiteSpace (c : Char) : Bool :=
  (9 ≤ c.toNat ∧ c.toNat ≤ 13) ∨ c.toNat = 0x20 ∨ c.toNat = 0x85 ∨ c.toNat = 0xa0 ∨
    c.toNat = 0x1680 ∨ (0x2000 ≤ c.toNat ∧ c.toNat ≤ 0x200a) ∨ c.toNat = 0x2028 ∨
    c.toNat = 0x2029 ∨ c.toNat = 0x202f ∨ c.toNat = 0x205f ∨ c.toNat = 0x3000

/-- `str::trim`. -/
def trim (s : Str) : Str := ((s.dropWhile isWhiteSpace).reverse.dropWhile isWhiteSpace).reverse

theorem stripPrefix_eq_some {p s t : Str} : stripPrefix p s = some t ↔ s = p ++ t := by
  unfold stripPrefix
  constructor
  · intro h
    split at h
    · rename_i hp
      obtain ⟨r, rfl⟩ := hp
      simpa using h
    · cases h
  · intro heq
    subst heq
    simp

theorem stripPrefix_append (p t : Str) : stripPrefix p (p ++ t) = some t :=
  stripPrefix_eq_some.2 rfl

/-- The text before the first `c` is what `splitOnce` puts in front. -/
theorem takeWhile_eq_splitOnce (c : Char) (s : Str) :
    s.takeWhile (· ≠ c) = ((splitOnce c s).map (·.1)).getD s := by
  induction s with
  | nil => rfl
  | cons x s ih =>
    by_cases hx : x = c
    · simp [splitOnce, hx]
    · rw [List.takeWhile_cons_of_pos (by simpa using hx), ih]
      cases h : splitOnce c s <;> simp [splitOnce, hx, h]

/-! ## UTF-8 -/

theorem byteArray_toList_loop (bs : ByteArray) (i : Nat) (r : List UInt8) :
    ByteArray.toList.loop bs i r = r.reverse ++ bs.data.toList.drop i := by
  fun_induction ByteArray.toList.loop bs i r with
  | case1 i r hlt ih =>
    have hlt : i < bs.data.toList.length := hlt
    have hget : bs.get! i = bs.data.toList[i] := getElem!_pos bs.data i hlt
    rw [ih, hget, List.drop_eq_getElem_cons (i := i) hlt, List.reverse_cons, List.append_assoc]
    rfl
  | case2 i r hge =>
    have hlen : bs.data.toList.length ≤ i := Nat.le_of_not_lt hge
    rw [List.drop_eq_nil_of_le hlen, List.append_nil]

/-- The bytes of a text, character by character. -/
theorem utf8_eq_flatMap (s : Str) : utf8 s = s.flatMap String.utf8EncodeChar := by
  rw [utf8, ByteArray.toList, byteArray_toList_loop, String.toUTF8_eq_toByteArray,
    String.toByteArray_ofList, List.utf8Encode, List.toList_data_toByteArray]
  rfl

theorem utf8_append (s t : Str) : utf8 (s ++ t) = utf8 s ++ utf8 t := by
  simp only [utf8_eq_flatMap, List.flatMap_append]

theorem utf8_cons (c : Char) (s : Str) : utf8 (c :: s) = String.utf8EncodeChar c ++ utf8 s := by
  simp only [utf8_eq_flatMap, List.flatMap_cons]

theorem fromUtf8_utf8 (s : Str) : fromUtf8 (utf8 s) = some s := by
  have hbytes : (⟨(utf8 s).toArray⟩ : ByteArray) = (String.ofList s).toByteArray := by
    rw [utf8, ByteArray.toList, byteArray_toList_loop]
    simp [String.toUTF8_eq_toByteArray]
  have hvalid : (String.ofList s).toByteArray.IsValidUTF8 := (String.ofList s).isValidUTF8
  rw [fromUtf8, hbytes, String.fromUTF8?, dif_pos hvalid]
  exact congrArg some String.toList_ofList

theorem utf8_injective : Function.Injective utf8 := by
  intro s t h
  have hsome := congrArg fromUtf8 h
  rw [fromUtf8_utf8, fromUtf8_utf8, Option.some.injEq] at hsome
  exact hsome

/-- A text in ASCII takes one byte a character. -/
theorem length_utf8_of_ascii {s : Str} (h : s.all (fun c => c.toNat < 128) = true) :
    (utf8 s).length = s.length := by
  induction s with
  | nil => simp [utf8_eq_flatMap]
  | cons c s ih =>
    rw [List.all_cons, Bool.and_eq_true, decide_eq_true_eq] at h
    obtain ⟨hc, hs⟩ := h
    have hsize : c.utf8Size = 1 := by
      rw [Char.utf8Size_eq_one_iff, UInt32.le_iff_toNat_le]
      exact Nat.le_of_lt_succ hc
    rw [utf8_cons, List.length_append, String.length_utf8EncodeChar, hsize, ih hs,
      List.length_cons, Nat.add_comm]

/-- Neither text starts the other. -/
def Apart (a b : Str) : Prop := ¬ a <+: b ∧ ¬ b <+: a

instance (a b : Str) : Decidable (Apart a b) := inferInstanceAs (Decidable (_ ∧ _))

theorem Apart.not_starts {a b s : Str} (h : Apart a b) (hb : b <+: s) : ¬ a <+: s := by
  intro ha
  rcases List.prefix_or_prefix_of_prefix ha hb with hab | hba
  · exact h.1 hab
  · exact h.2 hba

theorem Apart.ne {a b s : Str} (h : Apart a b) (hb : b <+: s) : s ≠ a := by
  intro heq
  subst heq
  exact h.2 hb

end Str

end Lib
