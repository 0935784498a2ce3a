import LeaveCli.Host.Files
import LeaveCli.Core.Proof.SavedFile

/-!
# When a saved file opens again

`write_file` checks the size of the content it is sent, `read_text` the size of the file, and
between them the line feeds of the content become CRLF where the file had CRLF. `Reopens` is what a
saved file needs besides: a path that does not end in a slash, and permission to read it where it is
new (`writeFile_reopens_iff`). A request that fails so fits the router's limit on its body
(`writeFile_reopens_not`).
-/

namespace LeaveCli.Host

open Lib LeaveCli.Core Protocol

variable {env : FsEnv} {tree after : FileTree} {root : WorkspaceRoot} {body : WriteFileBody}
  {s : FileSnapshot} {fromSlice : Bytes → Except SerdeError JsonDocument} {sent : Bytes}

/-- The file that a write replaces. -/
def replaced (tree : FileTree) (root : WorkspaceRoot) (relative : OsStr) : Option Bytes :=
  (root.resolveForWrite tree relative).toOption.bind fun path => (tree.read path).toOption

/-- What a request has to be for its file to be read again. -/
structure Reopens (env : FsEnv) (tree : FileTree) (root : WorkspaceRoot) (body : WriteFileBody) :
    Prop where
  path : (osComponents body.path.utf8).getLast? ≠ some dot
  size : crlf <:+: (replaced tree root body.path.utf8).getD [] →
    body.content.utf8.length + bareLfs body.content ≤ 2 * 1024 * 1024
  created : replaced tree root body.path.utf8 = none → env.created.readable = true

theorem writeFileBody_eq_ok : writeFileBody env tree root body = (.ok s, after) ↔
    body.content.utf8.length ≤ 2 * 1024 * 1024 ∧
      writeText env tree root body.path.utf8 body.baseHash body.content = (.ok s, after) := by
  rw [writeFileBody]
  split
  · rename_i hsize
    exact iff_of_false (fun h => nomatch h) fun h => absurd h.1 (Nat.not_le.2 hsize)
  · rename_i hsize
    rw [and_iff_right (Nat.not_lt.1 hsize), Prod.mk.injEq, mapError_eq_ok, ← Prod.mk.injEq]

theorem writeFile_of_body
    (hbody : extractJson fromSlice WriteFileBody.deserialize sent = .ok body) :
    writeFile env tree root fromSlice sent = writeFileBody env tree root body := by
  rw [writeFile, hbody]

theorem readFile_eq_ok {path : Str} :
    readFile env tree root path = .ok s ↔ readText env tree root path.utf8 = .ok s :=
  mapError_eq_ok

/-- The snapshot of a write is what is read next, exactly for such a request. -/
theorem writeFile_reopens_iff
    (hbody : extractJson fromSlice WriteFileBody.deserialize sent = .ok body)
    (h : writeFile env tree root fromSlice sent = (.ok s, after)) :
    readFile env after root body.path = .ok s ↔ Reopens env tree root body := by
  rw [writeFile_of_body hbody] at h
  obtain ⟨hlimit, hwrite⟩ := writeFileBody_eq_ok.1 h
  obtain ⟨path, existing, permissions, hsaved⟩ := writeText_eq_ok hwrite
  have hreplaced : replaced tree root body.path.utf8 = existing := by
    rw [replaced, hsaved.path_eq]
    exact hsaved.existing_eq
  have hreadable : permissions.readable = true ↔
      (existing = none → env.created.readable = true) := by
    cases hsaved.found with
    | nothing hfree => exact ⟨fun hcreated _ => hcreated, fun hcreated => hcreated rfl⟩
    | file hfile hpermissions => exact iff_of_true hpermissions fun hnone => nomatch hnone
  rw [readFile_eq_ok, hsaved.readText_iff, hreadable, hsaved.size_le_iff hlimit, ← hreplaced]
  constructor
  · intro hcond
    obtain ⟨hpath, hcreated, hsize⟩ := hcond
    exact ⟨hpath, hsize, hcreated⟩
  · intro hcond
    exact ⟨hcond.path, hcond.created, hcond.size⟩

/-! ## Requests as clients send them -/

/-- The text a client sends. -/
def WriteFileBody.json (body : WriteFileBody) : Bytes := (jsonObject body.fields).utf8

/-- A `serde_json` that knows one text. -/
def knows (body : WriteFileBody) (bytes : Bytes) : Except SerdeError JsonDocument :=
  if bytes = body.json then .ok (.object body.fields) else .error .malformed

theorem WriteFileBody.deserialize_fields (body : WriteFileBody) :
    WriteFileBody.deserialize (.object body.fields) = .ok body := rfl

theorem WriteFileBody.length_json (body : WriteFileBody) : body.json.length =
    escapedLength body.path + escapedLength body.baseHash + escapedLength body.content + 38 := by
  have hkeys : (jsonString "path").utf8.length = 6 ∧ (jsonString "baseHash").utf8.length = 10 ∧
      (jsonString "content").utf8.length = 9 ∧ (Str.utf8 ":").length = 1 ∧
      (Str.utf8 ",").length = 1 ∧ (Str.utf8 "\x7b").length = 1 ∧ (Str.utf8 "\x7d").length = 1 ∧
      (Str.utf8 "\"").length = 1 := by
    decide +kernel
  obtain ⟨hpath, hbaseHash, hcontent, hcolon, hcomma, hopens, hcloses, hquote⟩ := hkeys
  have htext (s : Str) : (jsonString s).utf8.length = escapedLength s + 2 := by
    simp only [jsonString, escapedLength, Str.utf8_append, List.length_append, hquote]
    omega
  simp only [json, jsonObject, fields, jsonFields, jsonValue, Str.utf8_append,
    List.length_append, hpath, hbaseHash, hcontent, hcolon, hcomma, hopens, hcloses, htext]
  omega

/-- A request that fits the router's limit reaches the handler. -/
theorem extractJson_json (hfits : body.json.length ≤ bodyLimit) :
    extractJson (knows body) WriteFileBody.deserialize body.json = .ok body := by
  rw [extractJson, if_neg (Nat.not_lt.2 hfits), knows, if_pos rfl]
  rfl

/-- The file in CRLF of `linkedTree`, written in LF. -/
def shortWrite : WriteFileBody := ⟨"notes", "one\r\n", "two\n"⟩

theorem writeFile_reopens_linked :
    ∃ s after, writeFile plainEnv linkedTree ⟨[Str.utf8 "work"]⟩ (knows shortWrite)
        shortWrite.json = (.ok s, after) ∧
      readFile plainEnv after ⟨[Str.utf8 "work"]⟩ "notes" = .ok s := by
  have hbody : extractJson (knows shortWrite) WriteFileBody.deserialize shortWrite.json =
      .ok shortWrite := extractJson_json (by decide +kernel)
  obtain ⟨s, hs⟩ : ∃ s, (writeFile plainEnv linkedTree ⟨[Str.utf8 "work"]⟩ (knows shortWrite)
      shortWrite.json).1 = .ok s :=
    ⟨snapshot plainEnv "two\r\n" (some ⟨0o100600, true⟩), by decide +kernel⟩
  refine ⟨s, _, Prod.ext hs rfl, (writeFile_reopens_iff hbody (Prod.ext hs rfl)).2 ?_⟩
  exact ⟨by decide +kernel, fun _ => by decide +kernel, fun _ => rfl⟩

/-! ## A text that grows -/

/-- Lines of one letter. -/
def shortLines : Nat → Str
  | 0 => []
  | n + 1 => 'a' :: '\n' :: shortLines n

theorem bareLfs_shortLines (n : Nat) : bareLfs (shortLines n) = n := by
  induction n with
  | zero => rfl
  | succ n ih =>
    rw [shortLines, bareLfs_cons (by simp), bareLfs_cons (by simp), ih, if_neg (by decide),
      if_pos rfl]
    omega

theorem length_utf8_shortLines (n : Nat) : (Str.utf8 (shortLines n)).length = 2 * n := by
  induction n with
  | zero => decide +kernel
  | succ n ih =>
    have hline : (Str.utf8 ['a', '\n']).length = 2 := by decide +kernel
    have hcons : shortLines (n + 1) = ['a', '\n'] ++ shortLines n := rfl
    rw [hcons, Str.utf8_append, List.length_append, hline, ih]
    omega

theorem escapedLength_shortLines (n : Nat) : escapedLength (shortLines n) = 3 * n := by
  induction n with
  | zero => decide +kernel
  | succ n ih =>
    have hline : (jsonEscaped ['a', '\n']).utf8.length = 3 := by decide +kernel
    have hcons : jsonEscaped (shortLines (n + 1)) =
        jsonEscaped ['a', '\n'] ++ jsonEscaped (shortLines n) := rfl
    rw [escapedLength] at ih
    rw [escapedLength, hcons, Str.utf8_append, List.length_append, hline, ih]
    omega

/-- Lines of one letter, for the file in CRLF. -/
def longWrite (n : Nat) : WriteFileBody := ⟨"notes", "one\r\n", shortLines n⟩

theorem longWrite_fits {n : Nat} (h : 3 * n + 50 ≤ bodyLimit) :
    (longWrite n).json.length ≤ bodyLimit := by
  have hpath : escapedLength "notes" = 5 := by decide +kernel
  have hhash : escapedLength "one\r\n" = 7 := by decide +kernel
  rw [WriteFileBody.length_json, longWrite, hpath, hhash, escapedLength_shortLines]
  omega

/-- Two bytes a line are within the limit for writing, three are not within that for reading. -/
theorem longWrite_not_reopened {n : Nat} (hfits : 3 * n + 50 ≤ bodyLimit)
    (hlimit : 2 * n ≤ 2 * 1024 * 1024) (hgrows : 2 * 1024 * 1024 < 3 * n) :
    ∃ s after, writeFile plainEnv linkedTree ⟨[Str.utf8 "work"]⟩ (knows (longWrite n))
        (longWrite n).json = (.ok s, after) ∧
      readFile plainEnv after ⟨[Str.utf8 "work"]⟩ "notes" ≠ .ok s := by
  have hopen : (openAtomic plainEnv linkedTree [Str.utf8 "work", Str.utf8 "notes"]).toBool =
      true := by
    decide +kernel
  have hpath : WorkspaceRoot.resolveForWrite ⟨[Str.utf8 "work"]⟩ linkedTree (Str.utf8 "notes") =
      .ok [Str.utf8 "work", Str.utf8 "notes"] := by
    decide +kernel
  have hread : linkedTree.read [Str.utf8 "work", Str.utf8 "notes"] = .ok (Str.utf8 "one\r\n") := by
    decide +kernel
  have hhash : plainEnv.contentHash (Str.utf8 "one\r\n") = "one\r\n" := by decide +kernel
  have hcontent : (Str.utf8 (shortLines n)).length ≤ 2 * 1024 * 1024 := by
    rw [length_utf8_shortLines]
    exact hlimit
  obtain ⟨s, after, hwrite⟩ := writeText_succeeds (shortLines n) hpath hread hhash
    ⟨toBool_eq_true.1 hopen, fun stage => rfl⟩
  have hwritten : writeFile plainEnv linkedTree ⟨[Str.utf8 "work"]⟩ (knows (longWrite n))
      (longWrite n).json = (.ok s, after) := by
    rw [writeFile_of_body (extractJson_json (longWrite_fits hfits))]
    exact writeFileBody_eq_ok.2 ⟨hcontent, hwrite⟩
  refine ⟨s, after, hwritten, fun hreopened => ?_⟩
  obtain ⟨path, existing, permissions, hsaved⟩ := writeText_eq_ok hwrite
  obtain rfl : _ = path := Except.ok.inj (hpath.symm.trans hsaved.path_eq)
  obtain rfl : some (Str.utf8 "one\r\n") = existing := by
    rw [← hsaved.existing_eq, hread]
    rfl
  obtain ⟨-, -, hsize⟩ := hsaved.readText_iff.1 (readFile_eq_ok.1 hreopened)
  have hgrown := (hsaved.size_le_iff hcontent).1 hsize (by decide +kernel)
  rw [length_utf8_shortLines, bareLfs_shortLines] at hgrown
  omega

/-- A million lines are within both limits of the endpoint, and what is stored is not read back. -/
theorem writeFile_reopens_not :
    (longWrite 1000000).json.length ≤ bodyLimit ∧
      ∃ s after, writeFile plainEnv linkedTree ⟨[Str.utf8 "work"]⟩ (knows (longWrite 1000000))
          (longWrite 1000000).json = (.ok s, after) ∧
        readFile plainEnv after ⟨[Str.utf8 "work"]⟩ "notes" ≠ .ok s :=
  ⟨longWrite_fits (by decide), longWrite_not_reopened (by decide) (by decide) (by decide)⟩

end LeaveCli.Host
