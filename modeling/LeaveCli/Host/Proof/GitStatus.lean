import LeaveCli.Host.Git

/-!
# What `git status` prints is decoded

`Listing` is what Git prints: the branch headers and a record for each changed path. Every record
but two kinds becomes the entry it stands for (`parseRecords_texts`): a rename or copy has one field
more than the decoder splits off, so its score stays at the front of the path, and an unmerged path
has no entry. `parseStatus_iff` says that, with a detached head and counts beyond `u32`, these are
the listings that are not decoded to what they say.
-/

namespace LeaveCli.Host

open Lib Lib.Str

/-! ## What Git prints -/

/-- A field of a record. -/
structure Word where
  text : Str
  noSpace : ' ' ∉ text
  noNul : '\x00' ∉ text

/-- A path, or another name that Git does not take apart. -/
structure GitPath where
  text : Str
  nonempty : text ≠ []
  noNul : '\x00' ∉ text

/-- What happened to a path, in the index or in the worktree. -/
inductive StatusCode
  | unmodified
  | modified
  | typeChanged
  | added
  | deleted
  | renamed
  | copied
  | unmerged
  deriving DecidableEq

def StatusCode.letter : StatusCode → Char
  | .unmodified => '.'
  | .modified => 'M'
  | .typeChanged => 'T'
  | .added => 'A'
  | .deleted => 'D'
  | .renamed => 'R'
  | .copied => 'C'
  | .unmerged => 'U'

/-- The `XY` field. -/
structure Codes where
  index : StatusCode
  worktree : StatusCode

def Codes.text (codes : Codes) : Str := [codes.index.letter, codes.worktree.letter]

/-- The submodule state, the modes in `HEAD`, the index and the worktree and the object names in
`HEAD` and the index. -/
structure Columns where
  sub : Word
  modeHead : Word
  modeIndex : Word
  modeWorktree : Word
  nameHead : Word
  nameIndex : Word

def Columns.texts (columns : Columns) : List Str :=
  [columns.sub.text, columns.modeHead.text, columns.modeIndex.text, columns.modeWorktree.text,
    columns.nameHead.text, columns.nameIndex.text]

/-- The submodule state, the modes and object names of three stages and the worktree's mode. -/
structure Stages where
  sub : Word
  modes : Word × Word × Word
  modeWorktree : Word
  names : Word × Word × Word

def Stages.texts (stages : Stages) : List Str :=
  [stages.sub.text, stages.modes.1.text, stages.modes.2.1.text, stages.modes.2.2.text,
    stages.modeWorktree.text, stages.names.1.text, stages.names.2.1.text, stages.names.2.2.text]

/-- A changed path. -/
inductive Change
  | ordinary (codes : Codes) (columns : Columns) (path : GitPath)
  /-- A rename or a copy. -/
  | renamed (codes : Codes) (columns : Columns) (score : Word) (path source : GitPath)
  | unmerged (codes : Codes) (stages : Stages) (path : GitPath)
  | untracked (path : GitPath)

/-- The records of a changed path. -/
def Change.texts : Change → List Str
  | .ordinary codes columns path =>
    [fields ' ' ("1".toList :: codes.text :: columns.texts) path.text]
  | .renamed codes columns score path source =>
    [fields ' ' ("2".toList :: codes.text :: columns.texts ++ [score.text]) path.text, source.text]
  | .unmerged codes stages path =>
    [fields ' ' ("u".toList :: codes.text :: stages.texts) path.text]
  | .untracked path => [fields ' ' ["?"] path.text]

/-- The entry a changed path should have. -/
def Change.entry : Change → GitStatusEntry
  | .ordinary codes _ path => ⟨path.text, none, [codes.index.letter], [codes.worktree.letter]⟩
  | .renamed codes _ _ path source =>
    ⟨path.text, some source.text, [codes.index.letter], [codes.worktree.letter]⟩
  | .unmerged codes _ path => ⟨path.text, none, [codes.index.letter], [codes.worktree.letter]⟩
  | .untracked path => ⟨path.text, none, "?", "?"⟩

inductive Head
  | branch (name : GitPath)
  | detached

def Head.text : Head → Str
  | .branch name => name.text
  | .detached => "(detached)"

/-- What the status should show for it. -/
def Head.shown : Head → Str
  | .branch name => name.text
  | .detached => "HEAD"

structure Upstream where
  name : GitPath
  /-- The commits ahead and behind, when the upstream branch is there. -/
  counts : Option (Nat × Nat)

structure Listing where
  oid : GitPath
  head : Head
  upstream : Option Upstream
  changes : List Change

namespace Listing

variable (listing : Listing)

def counts : Option (Nat × Nat) := listing.upstream.bind (·.counts)

def headers : List Str :=
  ("# branch.oid ".toList ++ listing.oid.text) :: ("# branch.head ".toList ++ listing.head.text) ::
    (listing.upstream.elim [] fun upstream =>
      ["# branch.upstream ".toList ++ upstream.name.text]) ++
    listing.counts.elim [] fun counts =>
      ["# branch.ab ".toList ++ ('+' :: counts.1.repr.toList ++ ' ' :: '-' :: counts.2.repr.toList)]

/-- Every record with a NUL byte after it. -/
def bytes : Bytes :=
  records 0 ((listing.headers ++ listing.changes.flatMap Change.texts).map Str.utf8)

/-- The status says what the listing says. -/
structure Decoded (status : GitStatus) : Prop where
  branch : status.branch = listing.head.shown
  ahead : status.ahead.toNat = (listing.counts.getD (0, 0)).1
  behind : status.behind.toNat = (listing.counts.getD (0, 0)).2
  entries : status.entries = listing.changes.map Change.entry

end Listing

/-! ## One record -/

/-- The entry that the decoder makes of a changed path. -/
def Change.decoded : Change → Option GitStatusEntry
  | .ordinary codes columns path => some (Change.ordinary codes columns path).entry
  | .renamed codes _ score path source =>
    some ⟨score.text ++ ' ' :: path.text, some source.text, [codes.index.letter],
      [codes.worktree.letter]⟩
  | .unmerged _ _ _ => none
  | .untracked path => some (Change.untracked path).entry

theorem stripPrefix_of_apart {a b s : Str} (h : Apart a b) (hb : b <+: s) :
    stripPrefix a s = none :=
  if_neg (h.not_starts hb)

theorem statusLetter_codes (codes : Codes) :
    statusLetter (Str.utf8 codes.text) 0 = [codes.index.letter] ∧
      statusLetter (Str.utf8 codes.text) 1 = [codes.worktree.letter] := by
  obtain ⟨index, worktree⟩ := codes
  cases index <;> cases worktree <;> decide +kernel

variable (rest : List Bytes) (status : GitStatus)

/-- The decoder at a record that is a text. -/
theorem parseRecords_text (record : Str) :
    parseRecords (Str.utf8 record :: rest) status =
      if record = [] then parseRecords rest status
      else (stripPrefix "# branch.head " record).elim
        ((stripPrefix "# branch.ab " record).elim
          (if ("1 " : Str) <+: record ∨ ("2 " : Str) <+: record then
            if (splitn 9 ' ' record).length < 9 then
              .error "Git returned an invalid status record"
            else if ("2 " : Str) <+: record then
              rest.head?.elim (.error "Git omitted a rename source") fun source =>
                parseRecords rest.tail (status.push
                  (changedEntry (splitn 9 ' ' record) (some (fromUtf8Lossy source))))
            else parseRecords rest (status.push (changedEntry (splitn 9 ' ' record) none))
          else
            (stripPrefix "? " record).elim (parseRecords rest status) fun path =>
              parseRecords rest (status.push (untrackedEntry path)))
          fun value => parseRecords rest ((splitWhitespace value).foldl .readCount status))
        fun value => parseRecords rest { status with branch := value } := by
  rw [parseRecords, fromUtf8Lossy_utf8]
  cases rest <;> rfl

theorem parseRecords_empty : parseRecords ([] :: rest) status = parseRecords rest status := by
  have hempty : Str.utf8 [] = [] := by decide +kernel
  have hrecord := parseRecords_text rest status []
  rwa [hempty, if_pos rfl] at hrecord

theorem parseRecords_head (name : Str) :
    parseRecords (Str.utf8 ("# branch.head ".toList ++ name) :: rest) status =
      parseRecords rest { status with branch := name } := by
  rw [parseRecords_text, if_neg (by simp), stripPrefix_append, Option.elim_some]

theorem parseRecords_ab (value : Str) :
    parseRecords (Str.utf8 ("# branch.ab ".toList ++ value) :: rest) status =
      parseRecords rest ((splitWhitespace value).foldl .readCount status) := by
  have hhead : stripPrefix "# branch.head " ("# branch.ab ".toList ++ value) = none :=
    stripPrefix_of_apart (by decide) (List.prefix_append _ _)
  rw [parseRecords_text, if_neg (by simp), hhead, Option.elim_none, stripPrefix_append,
    Option.elim_some]

/-- What the decoder looks for at the front of a record. -/
def recordPrefixes : List Str := ["# branch.head ", "# branch.ab ", "1 ", "2 ", "? "]

/-- A record that starts with none of them is left out. -/
theorem parseRecords_skip {text kind : Str} (hne : kind ≠ [])
    (hapart : ∀ p ∈ recordPrefixes, Apart p kind) (hkind : kind <+: text) :
    parseRecords (Str.utf8 text :: rest) status = parseRecords rest status := by
  have hnone : ∀ p ∈ recordPrefixes, stripPrefix p text = none := by
    intro p hp
    exact stripPrefix_of_apart (hapart p hp) hkind
  have hnot : ∀ p ∈ recordPrefixes, ¬ p <+: text := by
    intro p hp
    exact (hapart p hp).not_starts hkind
  have htext : text ≠ [] := by
    intro heq
    subst heq
    exact hne (List.prefix_nil.1 hkind)
  rw [parseRecords_text, if_neg htext, hnone _ (by simp [recordPrefixes]), Option.elim_none,
    hnone _ (by simp [recordPrefixes]), Option.elim_none,
    if_neg (not_or.2 ⟨hnot _ (by simp [recordPrefixes]), hnot _ (by simp [recordPrefixes])⟩),
    hnone _ (by simp [recordPrefixes]), Option.elim_none]

theorem parseRecords_untracked (path : Str) :
    parseRecords (Str.utf8 (fields ' ' ["?"] path) :: rest) status =
      parseRecords rest (status.push (untrackedEntry path)) := by
  have hfields : fields ' ' ["?"] path = "? ".toList ++ path := rfl
  have hkind : "? ".toList <+: "? ".toList ++ path := List.prefix_append _ _
  have hnot : ∀ p : Str, Apart p "? " → ¬ p <+: "? ".toList ++ path :=
    fun p h => h.not_starts hkind
  rw [hfields, parseRecords_text, if_neg (by simp), stripPrefix_of_apart (by decide) hkind,
    Option.elim_none, stripPrefix_of_apart (by decide) hkind, Option.elim_none,
    if_neg (not_or.2 ⟨hnot _ (by decide), hnot _ (by decide)⟩), stripPrefix_append,
    Option.elim_some]

/-- Eight fields are split off the front of a record. -/
theorem splitn_record {kind : Str} {words : List Str} (hkind : ' ' ∉ kind)
    (hlength : words.length = 7) (hspace : ∀ word ∈ words, ' ' ∉ word) (path : Str) :
    splitn 9 ' ' (fields ' ' (kind :: words) path) = kind :: words ++ [path] := by
  have hwords : ∀ word ∈ kind :: words, ' ' ∉ word := List.forall_mem_cons.2 ⟨hkind, hspace⟩
  have hnine : 9 = (kind :: words).length + 1 := by rw [List.length_cons, hlength]
  rw [hnine]
  exact splitn_fields hwords path

theorem parseRecords_ordinary {words : List Str} (hlength : words.length = 7)
    (hspace : ∀ word ∈ words, ' ' ∉ word) (path : Str) :
    parseRecords (Str.utf8 (fields ' ' ("1".toList :: words) path) :: rest) status =
      parseRecords rest (status.push (changedEntry ("1".toList :: words ++ [path]) none)) := by
  have hkind : "1 ".toList <+: fields ' ' ("1".toList :: words) path := List.prefix_append _ _
  have hnot : ¬ "2 ".toList <+: fields ' ' ("1".toList :: words) path :=
    Apart.not_starts (by decide) hkind
  rw [parseRecords_text, if_neg (by simp [fields]), stripPrefix_of_apart (by decide) hkind,
    Option.elim_none, stripPrefix_of_apart (by decide) hkind, Option.elim_none, if_pos (.inl hkind),
    splitn_record (by decide) hlength hspace, if_neg (by simp [hlength]), if_neg hnot]

/-- A record of a rename takes the next one. -/
theorem parseRecords_renamed {words : List Str} (hlength : words.length = 7)
    (hspace : ∀ word ∈ words, ' ' ∉ word) (path source : Str) :
    parseRecords (Str.utf8 (fields ' ' ("2".toList :: words) path) :: source.utf8 :: rest) status =
      parseRecords rest
        (status.push (changedEntry ("2".toList :: words ++ [path]) (some source))) := by
  have hkind : "2 ".toList <+: fields ' ' ("2".toList :: words) path := List.prefix_append _ _
  rw [parseRecords_text, if_neg (by simp [fields]), stripPrefix_of_apart (by decide) hkind,
    Option.elim_none, stripPrefix_of_apart (by decide) hkind, Option.elim_none, if_pos (.inr hkind),
    splitn_record (by decide) hlength hspace, if_neg (by simp [hlength]), if_pos hkind,
    List.head?_cons, Option.elim_some, List.tail_cons, fromUtf8Lossy_utf8]

/-! ## All records -/

theorem Codes.noSpace (codes : Codes) : ' ' ∉ codes.text := by
  obtain ⟨index, worktree⟩ := codes
  cases index <;> cases worktree <;> decide

theorem Columns.noSpace (columns : Columns) : ∀ word ∈ columns.texts, ' ' ∉ word := by
  simp only [Columns.texts, List.forall_mem_cons]
  exact ⟨columns.sub.noSpace, columns.modeHead.noSpace, columns.modeIndex.noSpace,
    columns.modeWorktree.noSpace, columns.nameHead.noSpace, columns.nameIndex.noSpace,
    List.forall_mem_nil _⟩

/-- What the decoder makes of the records of a change, and goes on with. -/
theorem parseRecords_change (change : Change) :
    parseRecords (change.texts.map Str.utf8 ++ rest) status =
      parseRecords rest (change.decoded.elim status status.push) := by
  cases change with
  | ordinary codes columns path =>
    have hwords : ∀ word ∈ codes.text :: columns.texts, ' ' ∉ word :=
      List.forall_mem_cons.2 ⟨codes.noSpace, columns.noSpace⟩
    have hentry : changedEntry ("1".toList :: (codes.text :: columns.texts) ++ [path.text]) none =
        (Change.ordinary codes columns path).entry := by
      obtain ⟨hindex, hworktree⟩ := statusLetter_codes codes
      show GitStatusEntry.mk _ _ (statusLetter (Str.utf8 codes.text) 0)
        (statusLetter (Str.utf8 codes.text) 1) = _
      rw [hindex, hworktree]
      rfl
    rw [Change.decoded, Option.elim_some, ← hentry]
    exact parseRecords_ordinary rest status rfl hwords path.text
  | renamed codes columns score path source =>
    have hwords : ∀ word ∈ codes.text :: columns.texts, ' ' ∉ word :=
      List.forall_mem_cons.2 ⟨codes.noSpace, columns.noSpace⟩
    have hentry : changedEntry ("2".toList :: (codes.text :: columns.texts) ++
        [score.text ++ ' ' :: path.text]) (some source.text) = ⟨score.text ++ ' ' :: path.text,
          some source.text, [codes.index.letter], [codes.worktree.letter]⟩ := by
      obtain ⟨hindex, hworktree⟩ := statusLetter_codes codes
      show GitStatusEntry.mk _ _ (statusLetter (Str.utf8 codes.text) 0)
        (statusLetter (Str.utf8 codes.text) 1) = _
      rw [hindex, hworktree]
      rfl
    rw [Change.decoded, Option.elim_some, ← hentry]
    exact parseRecords_renamed rest status rfl hwords (score.text ++ ' ' :: path.text) source.text
  | unmerged codes stages path =>
    have hkind : "u ".toList <+: fields ' ' ("u".toList :: codes.text :: stages.texts) path.text :=
      List.prefix_append _ _
    exact parseRecords_skip rest status (by simp) (by decide) hkind
  | untracked path => exact parseRecords_untracked rest status path.text

/-- Every change becomes the entry that the decoder makes of it. -/
theorem parseRecords_changes (changes : List Change) :
    parseRecords ((changes.flatMap Change.texts).map Str.utf8 ++ rest) status =
      parseRecords rest { status with
        entries := status.entries ++ changes.filterMap Change.decoded } := by
  induction changes generalizing status with
  | nil =>
    rw [List.filterMap_nil, List.append_nil]
    rfl
  | cons change changes ih =>
    rw [List.flatMap_cons, List.map_append, List.append_assoc, parseRecords_change, ih]
    cases hdecoded : change.decoded with
    | none => rw [List.filterMap_cons_none hdecoded, Option.elim_none]
    | some entry =>
      rw [List.filterMap_cons_some hdecoded, Option.elim_some, GitStatus.push, List.append_assoc]
      rfl

/-- A count as the decoder reads it. -/
def readU32 (n : Nat) : UInt32 := if n < UInt32.size then UInt32.ofNat n else 0

theorem parseU32_getD (n : Nat) : (parseU32 n.repr.toList).getD 0 = readU32 n := by
  rw [parseU32_repr, readU32]
  split <;> rfl

theorem toNat_readU32_iff {n : Nat} : (readU32 n).toNat = n ↔ n < UInt32.size := by
  rw [readU32]
  split
  · rename_i h
    exact iff_of_true (UInt32.toNat_ofNat_of_lt' h) h
  · rename_i h
    refine iff_of_false (fun hzero => h ?_) h
    rw [← hzero]
    decide

theorem readCounts (ahead behind : Nat) :
    (splitWhitespace ('+' :: ahead.repr.toList ++ ' ' :: '-' :: behind.repr.toList)).foldl
      GitStatus.readCount status =
        { status with ahead := readU32 ahead, behind := readU32 behind } := by
  have hsign : ∀ (sign : Char) (n : Nat), isWhiteSpace sign = false →
      ∀ c ∈ sign :: n.repr.toList, isWhiteSpace c = false := by
    intro sign n hsign
    exact List.forall_mem_cons.2 ⟨hsign, fun c hc => isWhiteSpace_of_mem_repr hc⟩
  have hplus : stripPrefix "+" ('+' :: ahead.repr.toList) = some ahead.repr.toList :=
    stripPrefix_append "+" _
  have hminus : stripPrefix "-" ('-' :: behind.repr.toList) = some behind.repr.toList :=
    stripPrefix_append "-" _
  have hnot : stripPrefix "+" ('-' :: behind.repr.toList) = none :=
    stripPrefix_of_apart (by decide) (List.prefix_append "-".toList behind.repr.toList)
  rw [splitWhitespace_pair (hsign '+' ahead rfl) (hsign '-' behind rfl) (by simp) (by simp)]
  simp only [List.foldl_cons, List.foldl_nil, GitStatus.readCount, hplus, hnot, hminus,
    Option.elim_some, Option.elim_none, parseU32_getD]

/-- The headers give the branch and the counts. -/
theorem parseRecords_headers (listing : Listing) :
    parseRecords (listing.headers.map Str.utf8 ++ rest) .initial =
      parseRecords rest ⟨listing.head.text, readU32 (listing.counts.getD (0, 0)).1,
        readU32 (listing.counts.getD (0, 0)).2, []⟩ := by
  obtain ⟨oid, head, upstream, changes⟩ := listing
  have hstart : ∀ more : List Bytes, parseRecords (Str.utf8 ("# branch.oid ".toList ++ oid.text) ::
      Str.utf8 ("# branch.head ".toList ++ head.text) :: more) .initial =
        parseRecords more { GitStatus.initial with branch := head.text } := by
    intro more
    rw [parseRecords_skip _ _ (by simp) (by decide) (List.prefix_append "# branch.oid ".toList _),
      parseRecords_head]
  cases upstream with
  | none => exact hstart rest
  | some upstream =>
    obtain ⟨name, counts⟩ := upstream
    have hupstream : ∀ more : List Bytes, ∀ status : GitStatus,
        parseRecords (Str.utf8 ("# branch.upstream ".toList ++ name.text) :: more) status =
          parseRecords more status := by
      intro more status
      exact parseRecords_skip more status (by simp) (by decide)
        (List.prefix_append "# branch.upstream ".toList _)
    cases counts with
    | none => exact (hstart _).trans (hupstream rest _)
    | some counts =>
      refine (hstart _).trans ((hupstream _ _).trans ((parseRecords_ab rest _ _).trans ?_))
      rw [readCounts]
      rfl

/-! ## The listing -/

theorem nul_mem_utf8 {s : Str} : 0 ∈ s.utf8 ↔ '\x00' ∈ s := mem_utf8_iff (by decide)

theorem fields_noNul {words : List Str} {last : Str} (hwords : ∀ word ∈ words, '\x00' ∉ word)
    (hlast : '\x00' ∉ last) : '\x00' ∉ fields ' ' words last := by
  induction words with
  | nil => exact hlast
  | cons word words ih =>
    obtain ⟨hword, hrest⟩ := List.forall_mem_cons.1 hwords
    have hfields : fields ' ' (word :: words) last = word ++ ' ' :: fields ' ' words last := rfl
    rw [hfields, List.mem_append, List.mem_cons, not_or, not_or]
    exact ⟨hword, by decide, ih hrest⟩

theorem Codes.noNul (codes : Codes) : '\x00' ∉ codes.text := by
  obtain ⟨index, worktree⟩ := codes
  cases index <;> cases worktree <;> decide

theorem Columns.noNul (columns : Columns) : ∀ word ∈ columns.texts, '\x00' ∉ word := by
  simp only [Columns.texts, List.forall_mem_cons]
  exact ⟨columns.sub.noNul, columns.modeHead.noNul, columns.modeIndex.noNul,
    columns.modeWorktree.noNul, columns.nameHead.noNul, columns.nameIndex.noNul,
    List.forall_mem_nil _⟩

theorem Stages.noNul (stages : Stages) : ∀ word ∈ stages.texts, '\x00' ∉ word := by
  simp only [Stages.texts, List.forall_mem_cons]
  exact ⟨stages.sub.noNul, stages.modes.1.noNul, stages.modes.2.1.noNul, stages.modes.2.2.noNul,
    stages.modeWorktree.noNul, stages.names.1.noNul, stages.names.2.1.noNul,
    stages.names.2.2.noNul, List.forall_mem_nil _⟩

theorem Change.noNul (change : Change) : ∀ text ∈ change.texts, '\x00' ∉ text := by
  cases change with
  | ordinary codes columns path =>
    refine List.forall_mem_singleton.2 (fields_noNul ?_ path.noNul)
    exact List.forall_mem_cons.2 ⟨by decide, List.forall_mem_cons.2 ⟨codes.noNul, columns.noNul⟩⟩
  | renamed codes columns score path source =>
    refine List.forall_mem_cons.2 ⟨fields_noNul ?_ path.noNul,
      List.forall_mem_singleton.2 source.noNul⟩
    refine List.forall_mem_append.2 ⟨?_, List.forall_mem_singleton.2 score.noNul⟩
    exact List.forall_mem_cons.2 ⟨by decide, List.forall_mem_cons.2 ⟨codes.noNul, columns.noNul⟩⟩
  | unmerged codes stages path =>
    refine List.forall_mem_singleton.2 (fields_noNul ?_ path.noNul)
    exact List.forall_mem_cons.2 ⟨by decide, List.forall_mem_cons.2 ⟨codes.noNul, stages.noNul⟩⟩
  | untracked path =>
    refine List.forall_mem_singleton.2 (fields_noNul ?_ path.noNul)
    exact List.forall_mem_singleton.2 (by decide)

theorem repr_noNul (n : Nat) : '\x00' ∉ n.repr.toList := not_mem_repr rfl

theorem Head.noNul (head : Head) : '\x00' ∉ head.text := by
  cases head with
  | branch name => exact name.noNul
  | detached => decide

theorem Listing.noNul (listing : Listing) : ∀ text ∈ listing.headers, '\x00' ∉ text := by
  obtain ⟨oid, head, upstream, changes⟩ := listing
  have happend : ∀ s t : Str, '\x00' ∉ s → '\x00' ∉ t → '\x00' ∉ s ++ t := by
    intro s t hs ht
    rw [List.mem_append, not_or]
    exact ⟨hs, ht⟩
  have hoid := happend "# branch.oid ".toList _ (by decide) oid.noNul
  have hhead := happend "# branch.head ".toList _ (by decide) head.noNul
  cases upstream with
  | none =>
    exact List.forall_mem_cons.2 ⟨hoid, List.forall_mem_cons.2 ⟨hhead, List.forall_mem_nil _⟩⟩
  | some upstream =>
    obtain ⟨name, counts⟩ := upstream
    have hname := happend "# branch.upstream ".toList _ (by decide) name.noNul
    cases counts with
    | none =>
      exact List.forall_mem_cons.2 ⟨hoid, List.forall_mem_cons.2 ⟨hhead,
        List.forall_mem_singleton.2 hname⟩⟩
    | some counts =>
      have hbehind := happend " -".toList _ (by decide) (repr_noNul counts.2)
      have hcounts := happend "# branch.ab +".toList _ (by decide)
        (happend _ _ (repr_noNul counts.1) hbehind)
      exact List.forall_mem_cons.2 ⟨hoid, List.forall_mem_cons.2 ⟨hhead,
        List.forall_mem_cons.2 ⟨hname, List.forall_mem_singleton.2 hcounts⟩⟩⟩

/-- What the decoder returns for a listing. -/
theorem parseStatus_bytes (listing : Listing) :
    parseStatus listing.bytes = .ok ⟨listing.head.text, readU32 (listing.counts.getD (0, 0)).1,
      readU32 (listing.counts.getD (0, 0)).2, listing.changes.filterMap Change.decoded⟩ := by
  have hnul : ∀ item ∈ (listing.headers ++ listing.changes.flatMap Change.texts).map Str.utf8,
      0 ∉ item := by
    intro item hitem
    obtain ⟨text, htext, rfl⟩ := List.mem_map.1 hitem
    rw [nul_mem_utf8]
    rcases List.mem_append.1 htext with hheader | hchange
    · exact listing.noNul text hheader
    · obtain ⟨change, -, hmem⟩ := List.mem_flatMap.1 hchange
      exact change.noNul text hmem
  rw [parseStatus, Listing.bytes, splitOn_records hnul, List.map_append, List.append_assoc,
    parseRecords_headers, parseRecords_changes, parseRecords_empty, parseRecords]
  rfl

/-- A list is as long as what it is mapped to, so nothing is left out. -/
theorem filterMap_eq_map_iff {α β : Type} {f : α → Option β} {g : α → β} {items : List α} :
    items.filterMap f = items.map g ↔ ∀ item ∈ items, f item = some (g item) := by
  induction items with
  | nil => exact iff_of_true rfl (List.forall_mem_nil _)
  | cons item items ih =>
    rw [List.forall_mem_cons, List.map_cons]
    cases hitem : f item with
    | none =>
      rw [List.filterMap_cons_none hitem]
      refine iff_of_false (fun h => ?_) fun h => nomatch h.1
      have hlength := congrArg List.length h
      have hle := List.length_filterMap_le f items
      rw [List.length_cons, List.length_map] at hlength
      omega
    | some entry =>
      rw [List.filterMap_cons_some hitem, List.cons.injEq, ih, Option.some.injEq]

/-- The listings that the decoder reads right: the head is not detached, the counts fit and every
path is an ordinary change or untracked. -/
structure Listing.Plain (listing : Listing) : Prop where
  head : listing.head ≠ .detached
  ahead : (listing.counts.getD (0, 0)).1 < UInt32.size
  behind : (listing.counts.getD (0, 0)).2 < UInt32.size
  changes : ∀ change ∈ listing.changes, (∃ codes columns path,
    change = .ordinary codes columns path) ∨ ∃ path, change = .untracked path

theorem Change.decoded_iff (change : Change) : change.decoded = some change.entry ↔
    (∃ codes columns path, change = .ordinary codes columns path) ∨
      ∃ path, change = .untracked path := by
  cases change with
  | ordinary codes columns path => exact iff_of_true rfl (.inl ⟨codes, columns, path, rfl⟩)
  | renamed codes columns score path source =>
    refine iff_of_false (fun h => ?_) (by simp)
    -- the score and a space are left in front of the path
    have hpath := congrArg List.length (congrArg GitStatusEntry.path (Option.some.inj h))
    simp only [Change.entry, List.length_append, List.length_cons] at hpath
    omega
  | unmerged codes stages path => exact iff_of_false (by simp [Change.decoded]) (by simp)
  | untracked path => exact iff_of_true rfl (.inr ⟨path, rfl⟩)

theorem Head.text_eq_shown_iff (head : Head) : head.text = head.shown ↔ head ≠ .detached := by
  cases head with
  | branch name => exact iff_of_true rfl (by simp)
  | detached => exact iff_of_false (by decide) (by simp)

/-- A listing is decoded to what it says exactly when it is plain. -/
theorem parseStatus_iff (listing : Listing) :
    (∃ status, parseStatus listing.bytes = .ok status ∧ listing.Decoded status) ↔
      listing.Plain := by
  rw [parseStatus_bytes]
  constructor
  · intro h
    obtain ⟨status, hstatus, hbranch, hahead, hbehind, hentries⟩ := h
    cases hstatus
    exact ⟨(Head.text_eq_shown_iff _).1 hbranch, toNat_readU32_iff.1 hahead,
      toNat_readU32_iff.1 hbehind, fun change hchange => (Change.decoded_iff change).1
        (filterMap_eq_map_iff.1 hentries change hchange)⟩
  · intro h
    exact ⟨_, rfl, (Head.text_eq_shown_iff _).2 h.head, toNat_readU32_iff.2 h.ahead,
      toNat_readU32_iff.2 h.behind, filterMap_eq_map_iff.2 fun change hchange =>
        (Change.decoded_iff change).2 (h.changes change hchange)⟩

/-- A renamed file on `main`. -/
def renamedListing : Listing where
  oid := ⟨"4a1c", by decide, by decide⟩
  head := .branch ⟨"main", by decide, by decide⟩
  upstream := none
  changes :=
    let name : Word := ⟨"4a1c", by decide, by decide⟩
    let mode : Word := ⟨"100644", by decide, by decide⟩
    [.renamed ⟨.renamed, .unmodified⟩ ⟨⟨"N...", by decide, by decide⟩, mode, mode, mode, name, name⟩
      ⟨"R100", by decide, by decide⟩ ⟨"new.rs", by decide, by decide⟩
      ⟨"old.rs", by decide, by decide⟩]

/-- The score is taken for a part of the path. -/
theorem renamed_misread :
    parseStatus renamedListing.bytes =
        .ok ⟨"main", 0, 0, [⟨"R100 new.rs", some "old.rs", "R", "."⟩]⟩ ∧
      ¬ renamedListing.Decoded ⟨"main", 0, 0, [⟨"R100 new.rs", some "old.rs", "R", "."⟩]⟩ := by
  refine ⟨by decide +kernel, fun h => ?_⟩
  have hentries : [GitStatusEntry.mk "R100 new.rs" (some "old.rs") "R" "."] =
      [⟨"new.rs", some "old.rs", "R", "."⟩] := h.entries
  exact absurd hentries (by decide)

end LeaveCli.Host
