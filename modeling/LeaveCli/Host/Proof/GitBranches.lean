import LeaveCli.Host.Git
import LeaveCli.Lib.Results
import Mathlib.Data.List.DropRight

/-!
# The branches Git lists

`printed` is what `git for-each-ref` prints for the format `branches` asks for. Reading it back
takes off the white space around the whole listing: in front that is the mark of a branch that is
not checked out, and at the end the listing's last line feed, with whatever white space the last
upstream ends in. `branches_iff` says when the branches are the ones Git listed.
-/

namespace LeaveCli.Host

open Lib Lib.Str

/-! ## What Git prints -/

/-- Git puts no control character into a name. -/
structure RefName where
  text : Str
  nonempty : text ≠ []
  noControl : ∀ c ∈ text, c ≠ '\x00' ∧ c ≠ '\n' ∧ c ≠ '\r'

structure BranchRef where
  name : RefName
  current : Bool
  upstream : Option RefName

/-- The three fields of a line. -/
structure RefFields where
  head : Str
  name : Str
  upstream : Str

namespace RefFields

variable (fields : RefFields)

def text : Str := fields.head ++ '\x00' :: (fields.name ++ '\x00' :: fields.upstream)

def shown : GitBranch :=
  ⟨fields.name, fields.head = "*", if fields.upstream = [] then none else some fields.upstream⟩

/-- No field has a separator in it. -/
structure Clean : Prop where
  head : ∀ c ∈ fields.head, c ≠ '\x00' ∧ c ≠ '\n' ∧ c ≠ '\r'
  name : ∀ c ∈ fields.name, c ≠ '\x00' ∧ c ≠ '\n' ∧ c ≠ '\r'
  upstream : ∀ c ∈ fields.upstream, c ≠ '\x00' ∧ c ≠ '\n' ∧ c ≠ '\r'

end RefFields

namespace BranchRef

variable (ref : BranchRef)

def fields : RefFields :=
  ⟨if ref.current then "*" else " ", ref.name.text, ref.upstream.elim [] (·.text)⟩

/-- The branch it should be shown as. -/
def shown : GitBranch := ⟨ref.name.text, ref.current, ref.upstream.map (·.text)⟩

end BranchRef

def printed (refs : List BranchRef) : Bytes :=
  utf8 (records '\n' (refs.map fun ref => ref.fields.text))

/-- A Git that lists these branches, and warns of something or not. -/
def listing (refs : List BranchRef) (warning : Bytes) : Git := fun _ =>
  some ⟨printed refs, warning, true, "exit status: 0"⟩

/-! ## Lines -/

variable {fields : RefFields}

theorem RefFields.Clean.text (h : fields.Clean) {c : Char} (hc : c ∈ fields.text) :
    c ≠ '\n' ∧ c ≠ '\r' := by
  rw [RefFields.text, List.mem_append, List.mem_cons, List.mem_append, List.mem_cons] at hc
  rcases hc with hc | rfl | hc | rfl | hc
  · exact (h.head c hc).2
  · decide
  · exact (h.name c hc).2
  · decide
  · exact (h.upstream c hc).2

theorem RefFields.text_ne_nil (fields : RefFields) : fields.text ≠ [] := by
  simp [RefFields.text]

theorem branchRecord_text (h : fields.Clean) : branchRecord fields.text = .ok fields.shown := by
  have hhead : '\x00' ∉ fields.head := fun hmem => (h.head _ hmem).1 rfl
  have hname : '\x00' ∉ fields.name := fun hmem => (h.name _ hmem).1 rfl
  have hupstream : '\x00' ∉ fields.upstream := fun hmem => (h.upstream _ hmem).1 rfl
  have hsplit : fields.text.splitOn '\x00' = [fields.head, fields.name, fields.upstream] := by
    rw [RefFields.text, List.splitOn_append_cons_self, List.splitOn_append_cons_self,
      List.splitOn_eq_singleton hhead, List.splitOn_eq_singleton hname,
      List.splitOn_eq_singleton hupstream]
    rfl
  rw [branchRecord, hsplit]
  rfl

/-- Whole lines, and one that no line feed ends. -/
theorem lines_records {whole : List RefFields} {last : RefFields}
    (hwhole : ∀ fields ∈ whole, fields.Clean) (hlast : last.Clean) :
    lines (records '\n' (whole.map RefFields.text) ++ last.text) =
      whole.map RefFields.text ++ [last.text] := by
  have hnoFeed : ∀ fields : RefFields, fields.Clean → '\n' ∉ fields.text :=
    fun fields hclean hmem => (hclean.text hmem).1 rfl
  have hkept : ∀ line ∈ whole.map RefFields.text,
      (if line.getLast? = some '\r' then line.dropLast else line) = line := by
    intro line hline
    obtain ⟨fields, hfields, rfl⟩ := List.mem_map.1 hline
    rw [if_neg]
    intro hreturn
    exact ((hwhole fields hfields).text (List.mem_of_getLast? hreturn)).2 rfl
  have hsplit := splitOn_records_append
    (List.forall_mem_map.2 fun fields hfields => hnoFeed fields (hwhole fields hfields))
    (hnoFeed last hlast)
  rw [lines, hsplit]
  simp only [List.dropLast_concat, List.getLast?_concat, Option.toList_some]
  rw [List.map_congr_left hkept, List.map_id']
  simp [last.text_ne_nil]

theorem branchRecords_records {whole : List RefFields} {last : RefFields}
    (hwhole : ∀ fields ∈ whole, fields.Clean) (hlast : last.Clean) :
    branchRecords (records '\n' (whole.map RefFields.text) ++ last.text) =
      .ok (whole.map RefFields.shown ++ [last.shown]) := by
  have hall : ∀ fields ∈ whole ++ [last], fields.Clean := by
    intro fields hmem
    rcases List.mem_append.1 hmem with hmem | hmem
    · exact hwhole fields hmem
    · exact List.mem_singleton.1 hmem ▸ hlast
  have hmap : ∀ all : List RefFields, (∀ fields ∈ all, fields.Clean) →
      (all.map RefFields.text).mapM branchRecord = .ok (all.map RefFields.shown) := by
    intro all hclean
    induction all with
    | nil => rfl
    | cons fields all ih =>
      obtain ⟨hfields, hrest⟩ := List.forall_mem_cons.1 hclean
      rw [List.map_cons, List.mapM_cons, branchRecord_text hfields, ih hrest]
      rfl
  have hfilter : ((whole ++ [last]).map RefFields.text).filter (· ≠ []) =
      (whole ++ [last]).map RefFields.text := by
    rw [List.filter_eq_self]
    intro line hline
    obtain ⟨fields, -, rfl⟩ := List.mem_map.1 hline
    simp [fields.text_ne_nil]
  have hlines := lines_records hwhole hlast
  rw [← List.map_singleton, ← List.map_append] at hlines
  rw [branchRecords, hlines, hfilter, hmap _ hall, List.map_append]
  rfl

/-! ## White space around the listing -/

theorem trim_eq (s : Str) :
    trim s = (s.dropWhile isWhiteSpace).rdropWhile isWhiteSpace := rfl

/-- White space at the end is behind the last character that is none. -/
theorem rdropWhile_append_cons {c : Char} (hc : isWhiteSpace c = false) (before after : Str) :
    (before ++ c :: after).rdropWhile isWhiteSpace =
      before ++ c :: after.rdropWhile isWhiteSpace := by
  induction after using List.reverseRecOn with
  | nil => exact List.rdropWhile_concat_neg _ _ _ (by simp [hc])
  | append_singleton after x ih =>
    rw [← List.cons_append, ← List.append_assoc, List.rdropWhile_concat, List.rdropWhile_concat, ih]
    split
    · rfl
    · rw [List.append_assoc, List.cons_append]

namespace RefFields

/-- Without white space in front. -/
def unmarked (fields : RefFields) : RefFields :=
  { fields with head := fields.head.dropWhile isWhiteSpace }

/-- Without white space at the end. -/
def cut (fields : RefFields) : RefFields :=
  { fields with upstream := fields.upstream.rdropWhile isWhiteSpace }

theorem Clean.unmarked (h : fields.Clean) : fields.unmarked.Clean :=
  ⟨fun c hc => h.head c (List.dropWhile_subset _ hc), h.name, h.upstream⟩

theorem Clean.cut (h : fields.Clean) : fields.cut.Clean := by
  refine ⟨h.head, h.name, fun c hc => h.upstream c ?_⟩
  exact (List.rdropWhile_prefix _ _).subset hc

theorem dropWhile_text (fields : RefFields) (rest : Str) :
    (fields.text ++ rest).dropWhile isWhiteSpace = fields.unmarked.text ++ rest := by
  obtain ⟨head, name, upstream⟩ := fields
  have hnul : isWhiteSpace '\x00' = false := by decide
  simp only [text, unmarked, List.append_assoc, List.cons_append]
  induction head with
  | nil => simp [hnul]
  | cons x head ih =>
    cases hx : isWhiteSpace x with
    | true => simpa [hx] using ih
    | false => simp [hx]

theorem rdropWhile_text (fields : RefFields) (before : Str) :
    (before ++ (fields.text ++ ['\n'])).rdropWhile isWhiteSpace = before ++ fields.cut.text := by
  have hnul : isWhiteSpace '\x00' = false := by decide
  have hfeed : isWhiteSpace '\n' = true := by decide
  have hsplit : before ++ (fields.text ++ ['\n']) =
      (before ++ fields.head ++ '\x00' :: fields.name) ++
        '\x00' :: (fields.upstream ++ ['\n']) := by
    simp [text]
  rw [hsplit, rdropWhile_append_cons hnul, List.rdropWhile_concat_pos _ _ _ hfeed]
  simp [text, cut]

theorem shown_cut (fields : RefFields) : fields.cut.shown = fields.shown ↔
    ∀ c ∈ fields.upstream.getLast?, isWhiteSpace c = false := by
  have hself : fields.upstream.rdropWhile isWhiteSpace = fields.upstream ↔
      ∀ c ∈ fields.upstream.getLast?, isWhiteSpace c = false := by
    rw [List.rdropWhile_eq_self_iff]
    constructor
    · intro h c hc
      have hne : fields.upstream ≠ [] := List.ne_nil_of_mem (List.mem_of_getLast? hc)
      rw [List.getLast?_eq_some_getLast hne, Option.mem_some_iff] at hc
      exact hc ▸ Bool.eq_false_iff.2 (h hne)
    · intro h hne
      exact Bool.eq_false_iff.1 (h _ (List.getLast?_eq_some_getLast hne))
  rw [← hself]
  constructor
  · intro h
    have hupstream : (if fields.cut.upstream = [] then none else some fields.cut.upstream) =
        if fields.upstream = [] then none else some fields.upstream := congrArg GitBranch.upstream h
    split at hupstream
    · rename_i hnone
      split at hupstream
      · rename_i hempty
        exact hnone.trans hempty.symm
      · cases hupstream
    · split at hupstream
      · cases hupstream
      · exact Option.some.inj hupstream
  · intro h
    rw [shown, cut, h]
    rfl

end RefFields

/-- The listing without the white space around it: all lines but the last are whole. -/
theorem trim_records {whole : List RefFields} {first last : RefFields} {fields : List RefFields}
    (h : first.unmarked :: fields = whole ++ [last]) :
    trim (records '\n' ((first :: fields).map RefFields.text)) =
      records '\n' (whole.map RefFields.text) ++ last.cut.text := by
  have hfront : (records '\n' ((first :: fields).map RefFields.text)).dropWhile isWhiteSpace =
      records '\n' ((first.unmarked :: fields).map RefFields.text) := by
    rw [List.map_cons, records, List.flatMap_cons, List.append_assoc, RefFields.dropWhile_text,
      ← List.append_assoc]
    rfl
  have hone : records '\n' [last.text] = last.text ++ ['\n'] := List.flatMap_singleton _ _
  rw [trim_eq, hfront, h, List.map_append, records_append, List.map_singleton, hone,
    RefFields.rdropWhile_text]

/-- What is read of a listing that is not empty. -/
theorem branchRecords_trim (whole : List RefFields) (first last : RefFields)
    (fields : List RefFields) (h : first.unmarked :: fields = whole ++ [last])
    (hclean : ∀ f ∈ first :: fields, f.Clean) :
    branchRecords (trim (records '\n' ((first :: fields).map RefFields.text))) =
      .ok (whole.map RefFields.shown ++ [last.cut.shown]) := by
  obtain ⟨hfirst, hfields⟩ := List.forall_mem_cons.1 hclean
  have hall : ∀ f ∈ whole ++ [last], f.Clean := by
    rw [← h]
    exact List.forall_mem_cons.2 ⟨hfirst.unmarked, hfields⟩
  have hlast : last.Clean := hall last (by simp)
  rw [trim_records h]
  exact branchRecords_records (fun f hf => hall f (List.mem_append_left _ hf)) hlast.cut

/-! ## The listing -/

namespace BranchRef

variable (ref : BranchRef)

theorem clean_fields : ref.fields.Clean := by
  refine ⟨?_, ref.name.noControl, ?_⟩
  · show ∀ c ∈ if ref.current then ("*" : Str) else " ", _
    cases ref.current <;> decide
  · show ∀ c ∈ ref.upstream.elim [] (·.text), _
    cases ref.upstream with
    | none => exact fun c hc => nomatch hc
    | some upstream => exact upstream.noControl

theorem shown_of_head {head : Str} (h : decide (head = "*") = ref.current) :
    RefFields.shown ⟨head, ref.name.text, ref.upstream.elim [] (·.text)⟩ = ref.shown := by
  have hupstream : (if ref.upstream.elim [] (·.text) = [] then none
      else some (ref.upstream.elim [] (·.text))) = ref.upstream.map (·.text) := by
    cases ref.upstream with
    | none => rfl
    | some upstream => exact if_neg upstream.nonempty
  rw [RefFields.shown, shown, hupstream, h]

theorem shown_fields : ref.fields.shown = ref.shown :=
  ref.shown_of_head (by cases ref.current <;> decide)

/-- A branch that is not checked out is none either when its mark is gone. -/
theorem shown_unmarked : ref.fields.unmarked.shown = ref.shown := by
  have hcurrent : decide ((if ref.current then ("*" : Str) else " ").dropWhile isWhiteSpace = "*") =
      ref.current := by
    cases ref.current <;> decide
  exact ref.shown_of_head hcurrent

/-- The last line loses the white space its upstream ends in. -/
theorem shown_cut_iff {fields : RefFields} (hshown : fields.shown = ref.shown)
    (hupstream : fields.upstream = ref.fields.upstream) : fields.cut.shown = ref.shown ↔
      ∀ upstream ∈ ref.upstream, ∀ c ∈ upstream.text.getLast?, isWhiteSpace c = false := by
  rw [← hshown, RefFields.shown_cut, hupstream]
  show (∀ c ∈ (ref.upstream.elim [] (·.text)).getLast?, _) ↔ _
  cases ref.upstream with
  | none => simp
  | some upstream => simp

end BranchRef

/-- When what is read of a listing that is not empty is what Git listed. -/
theorem branchRecords_eq_iff {refs : List BranchRef} {last : BranchRef}
    (hlast : refs.getLast? = some last) :
    branchRecords (trim (records '\n' (refs.map fun ref => ref.fields.text))) =
        .ok (refs.map BranchRef.shown) ↔
      ∀ upstream ∈ last.upstream, ∀ c ∈ upstream.text.getLast?, isWhiteSpace c = false := by
  obtain ⟨init, rfl⟩ := List.getLast?_eq_some_iff.1 hlast
  have hclean : ∀ fields ∈ (init ++ [last]).map BranchRef.fields, fields.Clean :=
    List.forall_mem_map.2 fun ref _ => ref.clean_fields
  have htexts : (init ++ [last]).map (fun ref => ref.fields.text) =
      ((init ++ [last]).map BranchRef.fields).map RefFields.text := by
    rw [List.map_map]
    rfl
  rw [htexts, List.map_append, List.map_singleton]
  cases init with
  | nil =>
    have hread := branchRecords_trim [] last.fields last.fields.unmarked [] rfl hclean
    rw [List.map_nil, List.nil_append] at hread
    rw [List.map_nil, List.nil_append, hread, List.nil_append, List.map_singleton, Except.ok.injEq,
      List.cons.injEq, and_iff_left rfl]
    exact last.shown_cut_iff last.shown_unmarked rfl
  | cons first init =>
    have hread := branchRecords_trim (first.fields.unmarked :: init.map BranchRef.fields)
      first.fields last.fields (init.map BranchRef.fields ++ [last.fields]) (by simp)
      (by simpa using hclean)
    have hwhole : (first.fields.unmarked :: init.map BranchRef.fields).map RefFields.shown =
        (first :: init).map BranchRef.shown := by
      rw [List.map_cons, List.map_map, first.shown_unmarked, List.map_cons]
      exact congrArg _ (List.map_congr_left fun ref _ => ref.shown_fields)
    rw [hwhole] at hread
    rw [List.map_cons, List.cons_append, hread, Except.ok.injEq, List.map_append,
      List.append_cancel_left_eq, List.map_singleton, List.cons.injEq, and_iff_left rfl]
    exact last.shown_cut_iff last.shown_fields rfl

/-! ## No branches -/

theorem head_trim (text : Str) : ∀ c ∈ (trim text).head?, isWhiteSpace c = false := by
  intro c hc
  obtain ⟨rest, htrim⟩ := List.head?_eq_some_iff.1 hc
  obtain ⟨after, hprefix⟩ := List.rdropWhile_prefix isWhiteSpace (text.dropWhile isWhiteSpace)
  rw [← trim_eq, htrim] at hprefix
  have hfront := List.head?_dropWhile_not isWhiteSpace text
  rw [← hprefix] at hfront
  simpa using hfront

theorem trim_ne_nil {text : Str} {c : Char} (hmem : c ∈ text) (hc : isWhiteSpace c = false) :
    trim text ≠ [] := by
  intro htrim
  rw [← List.takeWhile_append_dropWhile (p := isWhiteSpace) (l := text), List.mem_append] at hmem
  rcases hmem with hmem | hmem
  · exact absurd (List.mem_takeWhile_imp hmem) (by simp [hc])
  · exact absurd (List.rdropWhile_eq_nil_iff.1 htrim c hmem) (by simp [hc])

/-- A text that does not begin with white space has a line with something in it. -/
theorem exists_mem_lines {c : Char} (hc : isWhiteSpace c = false) (rest : Str) :
    ∃ line ∈ lines (c :: rest), line ≠ [] := by
  have hfeed : (c == '\n') = false := by
    rw [beq_eq_false_iff_ne]
    rintro rfl
    exact absurd hc (by decide)
  obtain ⟨first, more, hparts⟩ := List.exists_cons_of_ne_nil (List.splitOn_ne_nil '\n' rest)
  have hsplit : (c :: rest).splitOn '\n' = (c :: first) :: more := by
    rw [List.splitOn_cons_eq_if_modifyHead, hfeed, hparts]
    rfl
  cases more with
  | nil => exact ⟨c :: first, by simp [lines, hsplit], List.cons_ne_nil _ _⟩
  | cons second more =>
    refine ⟨_, by rw [lines, hsplit]; exact List.mem_cons_self, ?_⟩
    dsimp only
    split
    · rename_i hreturn
      intro hnone
      -- only a carriage return would be left of the line
      cases first with
      | nil =>
        obtain rfl : c = '\r' := Option.some.inj hreturn
        exact absurd hc (by decide)
      | cons d first => cases hnone
    · exact List.cons_ne_nil _ _

theorem branchRecords_eq_nil {text : Str} (hstart : ∀ c ∈ text.head?, isWhiteSpace c = false) :
    branchRecords text = .ok [] ↔ text = [] := by
  constructor
  · intro h
    cases text with
    | nil => rfl
    | cons c rest =>
      obtain ⟨line, hline, hne⟩ := exists_mem_lines (hstart c rfl) rest
      rw [branchRecords, mapM_eq_ok, List.forall₂_nil_right_iff, List.filter_eq_nil_iff] at h
      exact absurd (h line hline) (by simp [hne])
  · rintro rfl
    rfl

/-! ## What is printed -/

/-- With nothing printed it is the warning that is read. -/
theorem outputText_nil {warning : Bytes} {status text : Str} :
    outputText ⟨[], warning, true, status⟩ = .ok text ↔
      ∃ t, fromUtf8 warning = some t ∧ trim t = text := by
  have hnone : fromUtf8 [] = some [] := fromUtf8_eq_some.2 utf8_nil
  rw [outputText, hnone, Option.elim_some, bind_eq_ok]
  simp only [Except.ok.injEq, exists_eq_left']
  split
  · simp only [bind_eq_ok, elim_eq_ok, Except.ok.injEq]
  · rename_i hwarning
    obtain rfl : warning = [] := by simpa [trim] using hwarning
    simp only [bind_eq_ok, hnone, Except.ok.injEq, Option.some.injEq]

theorem outputText_utf8 {text : Str} (htext : trim text ≠ []) {warning : Bytes} {status : Str} :
    outputText ⟨utf8 text, warning, true, status⟩ = .ok (trim text) := by
  rw [outputText, fromUtf8_utf8]
  exact if_neg fun h => htext h.1

theorem result_run_listing {refs : List BranchRef} {warning : Bytes} {root : OsStr}
    {arguments : List Str} {output : ProcessOutput} :
    (run (listing refs warning) root arguments).result = .ok output ↔
      (printed refs).length + warning.length ≤ maxGitOutput ∧
        output = ⟨printed refs, warning, true, "exit status: 0"⟩ := by
  simp only [run, listing, Traced.result_bind_eq_ok, Traced.result_emit, Traced.result_context,
    Traced.result_bailIf, Traced.result_pure, Except.ok.injEq, exists_const, true_and,
    Option.some.injEq, exists_eq_left', decide_eq_false_iff_not, Nat.not_lt, Bool.not_true]
  rw [eq_comm]

/-- The branches are the ones Git listed when Git did not print more than Leave reads, the last
upstream does not end in white space and, where Git listed none, it warned of nothing. -/
theorem branches_iff (root : OsStr) (refs : List BranchRef) (warning : Bytes) :
    (Git.branches (listing refs warning) root).result = .ok (refs.map BranchRef.shown) ↔
      (printed refs).length + warning.length ≤ maxGitOutput ∧
        (refs = [] → ∃ text, fromUtf8 warning = some text ∧ trim text = []) ∧
        ∀ last ∈ refs.getLast?, ∀ upstream ∈ last.upstream, ∀ c ∈ upstream.text.getLast?,
          isWhiteSpace c = false := by
  have hread : (Git.branches (listing refs warning) root).result = .ok (refs.map BranchRef.shown) ↔
      (printed refs).length + warning.length ≤ maxGitOutput ∧
        ∃ text, outputText ⟨printed refs, warning, true, "exit status: 0"⟩ = .ok text ∧
          branchRecords text = .ok (refs.map BranchRef.shown) := by
    simp only [Git.branches, Traced.result_bind_eq_ok, Traced.result_lift, result_run_listing,
      and_assoc, exists_and_left, exists_eq_left]
  rw [hread, and_congr_right_iff]
  intro _
  rcases List.eq_nil_or_concat refs with rfl | ⟨init, last, rfl⟩
  · have hprinted : printed [] = [] := utf8_nil
    simp only [hprinted, outputText_nil, List.map_nil]
    constructor
    · rintro ⟨_, ⟨text, htext, rfl⟩, hnone⟩
      refine ⟨fun _ => ⟨text, htext, (branchRecords_eq_nil (head_trim text)).1 hnone⟩, ?_⟩
      simp
    · rintro ⟨hwarning, -⟩
      obtain ⟨text, htext, htrim⟩ := hwarning trivial
      exact ⟨[], ⟨text, htext, htrim⟩, rfl⟩
  · have hlast : (init.concat last).getLast? = some last := by simp
    have hmark : trim (records '\n' ((init.concat last).map fun ref => ref.fields.text)) ≠ [] := by
      refine trim_ne_nil (c := '\x00') ?_ (by decide)
      refine List.mem_flatMap.2 ⟨last.fields.text, ?_, ?_⟩
      · exact List.mem_map.2 ⟨last, by simp, rfl⟩
      · simp [RefFields.text]
    rw [printed, outputText_utf8 hmark, hlast]
    constructor
    · rintro ⟨_, htext, hshown⟩
      cases htext
      refine ⟨fun hnone => absurd hnone (by simp), fun _ hmem => ?_⟩
      obtain rfl := Option.some.inj hmem
      exact (branchRecords_eq_iff hlast).1 hshown
    · rintro ⟨-, hupstream⟩
      exact ⟨_, rfl, (branchRecords_eq_iff hlast).2 (hupstream last rfl)⟩

end LeaveCli.Host
