import LeaveCli.Host.Proof.ServiceFiles
import LeaveCli.Lib.Plist

/-!
# What launchd starts

The launch agent is a property list: `launchAgentFile_read` reads it, whatever the paths are.
`xmlEscape` escapes what character data needs, so no path ends its element or adds a key. What is
left is what XML itself does: a file with a character that XML has no place for is not read at all,
and every line end becomes a line feed. `launchAgent_faithful_iff` puts the two together.
-/

namespace LeaveCli.Host

open Lib LeaveCli.Core

variable {world : World} {binary : OsStr} {options : ServiceInstall}

/-! ## The text of the file -/

theorem xmlEscape_eq (value : Str) : xmlEscape value = Plist.escape value := by
  rw [xmlEscape, replace_singleton, replace_singleton, replace_singleton, replace_singleton,
    replace_singleton, List.flatMap_assoc, List.flatMap_assoc, List.flatMap_assoc,
    List.flatMap_assoc, Plist.escape]
  refine List.flatMap_congr fun c _ => ?_
  rw [Plist.escapeChar]
  by_cases hand : c = '&'
  · subst hand; rfl
  by_cases hless : c = '<'
  · subst hless; rfl
  by_cases hgreater : c = '>'
  · subst hgreater; rfl
  by_cases hquote : c = '"'
  · subst hquote; rfl
  by_cases hsingle : c = '\''
  · subst hsingle; rfl
  · rw [if_neg hand, if_neg hless, if_neg hgreater, if_neg hquote, if_neg hsingle, if_neg hand,
      List.flatMap_singleton, if_neg hless, List.flatMap_singleton, if_neg hgreater,
      List.flatMap_singleton, if_neg hquote, List.flatMap_singleton, if_neg hsingle]

theorem launchAgentArguments_eq (world : World) (binary : OsStr) (options : ServiceInstall) :
    '\n' :: launchAgentArguments world binary options =
      Plist.stringLines "\n    "
        (Str.fromUtf8Lossy binary :: serviceArguments world options) := by
  have hline (value : Str) : '\n' :: (("    <string>" : Str) ++ xmlEscape value ++
      ("</string>" : Str)) = ("\n    " : Str) ++ Plist.stringElement value := by
    rw [xmlEscape_eq]
    rfl
  have hjoin (line : Str → Str) (first : Str) (more : List Str) :
      '\n' :: ['\n'].intercalate ((first :: more).map line) =
        (first :: more).flatMap fun value => '\n' :: line value := by
    induction more generalizing first with
    | nil => simp [List.intercalate]
    | cons next more ih =>
      rw [List.flatMap_cons, ← ih]
      simp [List.intercalate]
  exact (hjoin _ _ _).trans (List.flatMap_congr fun value _ => hline value)

/-! ## What is read -/

/-- The service as the property list has it. -/
def launchAgentValue (arguments : List Plist.Value) : Plist.Value :=
  .dict [("Label", .string "com.leave.host"), ("ProgramArguments", .array arguments),
    ("RunAtLoad", .boolean true), ("KeepAlive", .dict [("SuccessfulExit", .boolean false)]),
    ("ProcessType", .string "Background")]

theorem scan_launchAgentHead : Plist.scan (.content []) launchAgentHead = some
    ([.chars "\n", .chars "\n", .start "plist", .start "dict", .chars "\n", .start "key",
      .chars "Label", .finish "key", .start "string", .chars "com.leave.host", .finish "string",
      .chars "\n", .start "key", .chars "ProgramArguments", .finish "key", .start "array"],
      .content []) := by
  decide +kernel

theorem scan_launchAgentTail : Plist.scan (.content []) launchAgentTail = some
    ([.chars "\n", .finish "array", .chars "\n", .start "key", .chars "RunAtLoad", .finish "key",
      .start "true", .finish "true", .chars "\n", .start "key", .chars "KeepAlive", .finish "key",
      .start "dict", .start "key", .chars "SuccessfulExit", .finish "key", .start "false",
      .finish "false", .finish "dict", .chars "\n", .start "key", .chars "ProcessType",
      .finish "key", .start "string", .chars "Background", .finish "string", .chars "\n",
      .finish "dict", .finish "plist"], .content "\n") := by
  decide +kernel

/-- What is read is the program and its arguments, their line ends made line feeds, in a service
that is otherwise fixed; with a character that XML does not have, nothing is read. -/
theorem read_launchAgentFile (world : World) (binary : OsStr) (options : ServiceInstall) :
    Plist.read (launchAgentFile world binary options) =
      if (Str.fromUtf8Lossy binary :: serviceArguments world options).all
          (fun value => value.all Plist.isXmlChar) then
        some (launchAgentValue (((Str.fromUtf8Lossy binary ::
          serviceArguments world options).map Plist.normalize).map .string))
      else none := by
  rw [launchAgentFile, launchAgentArguments_eq]
  exact Plist.read_stringLines launchAgentValue (by decide +kernel) (by decide +kernel)
    scan_launchAgentHead scan_launchAgentTail rfl (fun _ => rfl) _

/-! ## What is started -/

/-- What launchd starts: the texts under `ProgramArguments`. -/
def programArguments (service : Plist.Value) : Option (List Str) :=
  (service.field "ProgramArguments").bind Plist.Value.texts

/-- launchd starts what was meant. -/
def AgentFaithful (world : World) (binary : OsStr) (options : ServiceInstall) : Prop :=
  ((Plist.read (launchAgentFile world binary options)).bind programArguments).map
    (List.map Str.utf8) = some (programAndArguments world binary options)

theorem programArguments_launchAgentValue (arguments : List Str) :
    programArguments (launchAgentValue (arguments.map .string)) = some arguments :=
  Plist.texts_strings arguments

theorem plistSound_of_isPlain {s : Str} (h : IsPlain s) : Plist.Sound s := by
  refine ⟨List.all_eq_true.2 fun c hc => ?_, fun hmem => absurd (h _ hmem) (by decide)⟩
  have hplain : (decide (65 ≤ c.val ∧ c.val ≤ 90) ||
      decide (97 ≤ c.val) && decide (c.val ≤ 122) ||
      decide (48 ≤ c.val) && decide (c.val ≤ 57) || decide (c = '-')) = true := h c hc
  simp only [Bool.or_eq_true, Bool.and_eq_true, decide_eq_true_eq,
    UInt32.le_iff_toNat_le] at hplain
  have hrange : 0x20 ≤ c.toNat ∧ c.toNat ≤ 0x7a := by
    rcases hplain with ((hupper | hlower) | hdigit) | rfl
    · have hbounds : 0x41 ≤ c.toNat ∧ c.toNat ≤ 0x5a := hupper
      omega
    · have hbounds : 0x61 ≤ c.toNat ∧ c.toNat ≤ 0x7a := hlower
      omega
    · have hbounds : 0x30 ≤ c.toNat ∧ c.toNat ≤ 0x39 := hdigit
      omega
    · decide
  have hafter : c.toNat ≠ 0xfffe ∧ c.toNat ≠ 0xffff := by omega
  simp [Plist.isXmlChar, hrange.1, hafter]

theorem agentFaithful_iff (huuid : IsPlain (world.uuidText options.workspace)) :
    AgentFaithful world binary options ↔
      ∃ program, binary = Str.utf8 program ∧ Plist.Sound program ∧
        ∀ path ∈ options.paths, Plist.Sound path := by
  rw [AgentFaithful, programAndArguments, read_launchAgentFile,
    ← forall_serviceArguments_iff (fun s => plistSound_of_isPlain (s := s)) huuid]
  generalize serviceArguments world options = arguments
  constructor
  · intro h
    split at h
    · rename_i hchars
      rw [Option.bind_some, programArguments_launchAgentValue, Option.map_some,
        Option.some.injEq, map_utf8_eq_iff] at h
      obtain ⟨hbinary, hwords⟩ := h
      have hsound : ∀ s ∈ Str.fromUtf8Lossy binary :: arguments, Plist.Sound s := by
        intro s hs
        exact ⟨List.all_eq_true.1 hchars s hs, Plist.map_normalize_eq_self_iff.1 hwords s hs⟩
      obtain ⟨hprogram, hrest⟩ := List.forall_mem_cons.1 hsound
      exact ⟨_, hbinary, hprogram, hrest⟩
    · cases h
  · rintro ⟨program, rfl, hprogram, hrest⟩
    have hsound := List.forall_mem_cons.2 ⟨hprogram, hrest⟩
    have hself : (program :: arguments).map Plist.normalize = program :: arguments :=
      Plist.map_normalize_eq_self_iff.2 fun s hs => (hsound s hs).2
    rw [Str.fromUtf8Lossy_utf8, hself, if_pos (List.all_eq_true.2 fun s hs => (hsound s hs).1),
      Option.bind_some, programArguments_launchAgentValue]
    rfl

/-- What the launch agent says is the program with its arguments and nothing else, up to line ends,
or no property list at all; launchd starts what was meant when the program's path is text and the
paths have only characters of XML and no carriage return. -/
theorem launchAgent_faithful_iff (world : World) (binary : OsStr) (options : ServiceInstall)
    (huuid : IsPlain (world.uuidText options.workspace)) :
    Plist.read (launchAgentFile world binary options) =
      (if (Str.fromUtf8Lossy binary :: serviceArguments world options).all
          (fun value => value.all Plist.isXmlChar) then
        some (launchAgentValue (((Str.fromUtf8Lossy binary ::
          serviceArguments world options).map Plist.normalize).map .string))
      else none) ∧
    (AgentFaithful world binary options ↔
      ∃ program, binary = Str.utf8 program ∧ Plist.Sound program ∧
        ∀ path ∈ options.paths, Plist.Sound path) :=
  ⟨read_launchAgentFile world binary options, agentFaithful_iff huuid⟩

/-- A data directory with every character that needs an escape. -/
theorem launchAgent_faithful_iff_ampersand :
    Plist.read (launchAgentFile serviceWorld (Str.utf8 "/usr/bin/leave")
        (serviceAt "/a&b/<'c'>/\"d\"")) =
      (if (Str.fromUtf8Lossy (Str.utf8 "/usr/bin/leave") ::
          serviceArguments serviceWorld (serviceAt "/a&b/<'c'>/\"d\"")).all
            (fun value => value.all Plist.isXmlChar) then
        some (launchAgentValue (((Str.fromUtf8Lossy (Str.utf8 "/usr/bin/leave") ::
          serviceArguments serviceWorld (serviceAt "/a&b/<'c'>/\"d\"")).map
            Plist.normalize).map .string))
      else none) ∧
    (AgentFaithful serviceWorld (Str.utf8 "/usr/bin/leave") (serviceAt "/a&b/<'c'>/\"d\"") ↔
      ∃ program, Str.utf8 "/usr/bin/leave" = Str.utf8 program ∧ Plist.Sound program ∧
        ∀ path ∈ (serviceAt "/a&b/<'c'>/\"d\"").paths, Plist.Sound path) :=
  launchAgent_faithful_iff serviceWorld _ _ (isPlain_uuidText 7)

end LeaveCli.Host
