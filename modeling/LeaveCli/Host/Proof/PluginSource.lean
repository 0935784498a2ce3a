import LeaveCli.Host.Customization
import LeaveCli.Lib.Results
import Mathlib.Data.List.TakeWhile

/-!
# Plugin sources

What `validate_name` and `validate_plugin_source` let through to `devin plugins install`. A source
is meant to be a GitHub label (`GithubLabel`) or a remote URL without credentials (`RemoteUrl`). The
checks let two more kinds through: labels with `.` or `..` for a part (`DotLabel`), and HTTPS URLs
with a password but no user name (`PasswordUrl`). `pluginSource_iff` says that there is no other.
-/

namespace LeaveCli.Host

open Lib

/-- One part of an `owner/repo` label. -/
def IsLabelPart (part : Str) : Prop := part ≠ [] ∧ part.all isLabelChar = true

/-- A part that is a path of its own. -/
def IsDots (part : Str) : Prop := part = "." ∨ part = ".."

/-- The part before the first `#` is `owner/repo`. -/
def IsLabel (value owner repo : Str) : Prop :=
  value.takeWhile (· ≠ '#') = owner ++ '/' :: repo ∧ IsLabelPart owner ∧ IsLabelPart repo

/-- A GitHub `owner/repo` label. -/
def GithubLabel (value : Str) : Prop :=
  ∃ owner repo, IsLabel value owner repo ∧ ¬ IsDots owner ∧ ¬ IsDots repo

/-- Has the form of a label, and a part of it is `.` or `..`. -/
def DotLabel (value : Str) : Prop :=
  ∃ owner repo, IsLabel value owner repo ∧ (IsDots owner ∨ IsDots repo)

section

variable (parseUrl : Str → Option ParsedUrl)

/-- An HTTPS URL with a host and without a user name. -/
def HttpsUrl (value : Str) (password : Option Str) : Prop :=
  ∃ url, parseUrl value = some url ∧ url.scheme = "https" ∧ url.hostStr.isSome ∧
    url.username = [] ∧ url.password = password

/-- An HTTPS URL with a host and without credentials. -/
def RemoteUrl (value : Str) : Prop := HttpsUrl parseUrl value none

/-- An HTTPS URL whose only credential is a password. -/
def PasswordUrl (value : Str) : Prop := ∃ password, HttpsUrl parseUrl value (some password)

/-- A relative path, by its first component. -/
def RelativePath (value : Str) : Prop := ("./" : Str) <+: value ∨ ("../" : Str) <+: value

/-- Both checks pass. -/
def Accepted (value : Str) : Prop :=
  validateName value = .ok () ∧ validatePluginSource parseUrl value = .ok ()

/-- `Url::parse` reads absolute URLs only: a scheme comes first, and a colon ends it. -/
def ReadsAbsolute : Prop :=
  ∀ value url, parseUrl value = some url → ':' ∈ value.takeWhile fun c => c ≠ '/' ∧ c ≠ '#'

end

/-! ## Labels -/

theorem slash_notMem_part {part : Str} (h : IsLabelPart part) : '/' ∉ part := by
  intro hmem
  have hchar := List.all_eq_true.1 h.2 '/' hmem
  exact absurd hchar (by decide)

theorem splitOn_label {owner repo : Str} (howner : IsLabelPart owner) (hrepo : IsLabelPart repo) :
    (owner ++ '/' :: repo).splitOn '/' = [owner, repo] := by
  rw [List.splitOn_append_cons_self, List.splitOn_eq_singleton (slash_notMem_part howner),
    List.splitOn_eq_singleton (slash_notMem_part hrepo)]
  rfl

/-- The label check of `validate_plugin_source`. -/
theorem ownerRepo_iff (label : Str) :
    ((label.splitOn '/').length = 2 ∧
      ∀ part ∈ label.splitOn '/', part ≠ [] ∧ part.all isLabelChar) ↔
    ∃ owner repo, label = owner ++ '/' :: repo ∧ IsLabelPart owner ∧ IsLabelPart repo := by
  constructor
  · intro h
    obtain ⟨hlength, hparts⟩ := h
    obtain ⟨owner, repo, hsplit⟩ := List.length_eq_two.1 hlength
    rw [hsplit] at hparts
    refine ⟨owner, repo, ?_, hparts owner (by simp), hparts repo (by simp)⟩
    have hjoined : ['/'].intercalate (label.splitOn '/') = label := List.intercalate_splitOn '/'
    rw [hsplit] at hjoined
    simpa [List.intercalate] using hjoined.symm
  · intro h
    obtain ⟨owner, repo, rfl, howner, hrepo⟩ := h
    rw [splitOn_label howner hrepo]
    refine ⟨rfl, fun part hpart => ?_⟩
    rcases List.mem_pair.1 hpart with rfl | rfl
    · exact howner
    · exact hrepo

theorem IsLabel.unique {value owner repo owner' repo' : Str} (h : IsLabel value owner repo)
    (h' : IsLabel value owner' repo') : owner' = owner ∧ repo' = repo := by
  have hsplit := splitOn_label h'.2.1 h'.2.2
  rw [← h'.1, h.1, splitOn_label h.2.1 h.2.2] at hsplit
  simp only [List.cons.injEq, and_true] at hsplit
  exact ⟨hsplit.1.symm, hsplit.2.symm⟩

theorem GithubLabel.not_dotLabel {value : Str} (h : GithubLabel value) : ¬ DotLabel value := by
  intro hdots
  obtain ⟨owner, repo, hlabel, howner, hrepo⟩ := h
  obtain ⟨owner', repo', hlabel', hcase⟩ := hdots
  obtain ⟨rfl, rfl⟩ := hlabel.unique hlabel'
  exact hcase.elim howner hrepo

/-- What comes before the first slash or hash of a label is its owner. -/
theorem IsLabel.takeWhile_eq {value owner repo : Str} (h : IsLabel value owner repo) :
    (value.takeWhile fun c => c ≠ '/' ∧ c ≠ '#') = owner := by
  have hstop : (owner ++ '/' :: repo).takeWhile (· ≠ '/') = owner := by
    rw [List.takeWhile_append_of_pos]
    · simp
    · intro c hc
      simpa using fun heq : c = '/' => slash_notMem_part h.2.1 (heq ▸ hc)
  rw [← h.1, List.takeWhile_takeWhile] at hstop
  simpa using hstop

theorem RelativePath.takeWhile_dots {value : Str} (h : RelativePath value) :
    IsDots (value.takeWhile fun c => c ≠ '/' ∧ c ≠ '#') := by
  rcases h with ⟨rest, rfl⟩ | ⟨rest, rfl⟩
  · exact .inl (by simp)
  · exact .inr (by simp)

theorem GithubLabel.not_relative {value : Str} (h : GithubLabel value) : ¬ RelativePath value := by
  intro hrelative
  obtain ⟨owner, repo, hlabel, howner, -⟩ := h
  have hdots := hrelative.takeWhile_dots
  rw [hlabel.takeWhile_eq] at hdots
  exact howner hdots

/-! ## URLs -/

section

variable {parseUrl : Str → Option ParsedUrl} {value : Str} {password : Option Str}

theorem HttpsUrl.colon_mem (h : HttpsUrl parseUrl value password)
    (hparse : ReadsAbsolute parseUrl) :
    ':' ∈ value.takeWhile fun c => c ≠ '/' ∧ c ≠ '#' := by
  obtain ⟨url, hurl, -⟩ := h
  exact hparse value url hurl

theorem HttpsUrl.not_label (h : HttpsUrl parseUrl value password) (hparse : ReadsAbsolute parseUrl)
    {owner repo : Str} : ¬ IsLabel value owner repo := by
  intro hlabel
  have hcolon := h.colon_mem hparse
  rw [hlabel.takeWhile_eq] at hcolon
  exact absurd (List.all_eq_true.1 hlabel.2.1.2 ':' hcolon) (by decide)

theorem HttpsUrl.not_relative (h : HttpsUrl parseUrl value password)
    (hparse : ReadsAbsolute parseUrl) : ¬ RelativePath value := by
  intro hrelative
  have hcolon := h.colon_mem hparse
  rcases hrelative.takeWhile_dots with hdots | hdots <;> rw [hdots] at hcolon <;>
    exact absurd hcolon (by decide)

theorem HttpsUrl.unique {password' : Option Str} (h : HttpsUrl parseUrl value password)
    (h' : HttpsUrl parseUrl value password') : password = password' := by
  obtain ⟨url, hurl, -, -, -, rfl⟩ := h
  obtain ⟨url', hurl', -, -, -, rfl⟩ := h'
  rw [hurl, Option.some.injEq] at hurl'
  rw [hurl']

/-! ## What is accepted -/

theorem validHttps_iff : ((parseUrl value).any fun url =>
    url.scheme = ("https" : Str) ∧ url.hostStr.isSome ∧ url.username = []) = true ↔
      RemoteUrl parseUrl value ∨ PasswordUrl parseUrl value := by
  rw [Option.any_eq_true]
  constructor
  · intro h
    obtain ⟨url, hurl, hchecks⟩ := h
    simp only [decide_eq_true_eq] at hchecks
    obtain ⟨hscheme, hhost, husername⟩ := hchecks
    cases hpassword : url.password with
    | none => exact .inl ⟨url, hurl, hscheme, hhost, husername, hpassword⟩
    | some password => exact .inr ⟨password, url, hurl, hscheme, hhost, husername, hpassword⟩
  · intro h
    rcases h with ⟨url, hurl, hscheme, hhost, husername, -⟩ |
      ⟨_, url, hurl, hscheme, hhost, husername, -⟩
    · exact ⟨url, hurl, decide_eq_true ⟨hscheme, hhost, husername⟩⟩
    · exact ⟨url, hurl, decide_eq_true ⟨hscheme, hhost, husername⟩⟩

theorem exists_isLabel_iff :
    (∃ owner repo, IsLabel value owner repo) ↔ GithubLabel value ∨ DotLabel value := by
  constructor
  · intro h
    obtain ⟨owner, repo, hlabel⟩ := h
    by_cases hdots : IsDots owner ∨ IsDots repo
    · exact .inr ⟨owner, repo, hlabel, hdots⟩
    · rw [not_or] at hdots
      exact .inl ⟨owner, repo, hlabel, hdots⟩
  · intro h
    rcases h with ⟨owner, repo, hlabel, -⟩ | ⟨owner, repo, hlabel, -⟩
    · exact ⟨owner, repo, hlabel⟩
    · exact ⟨owner, repo, hlabel⟩

theorem validatePluginSource_eq_ok : validatePluginSource parseUrl value = .ok () ↔
    (GithubLabel value ∨ DotLabel value) ∨
      RemoteUrl parseUrl value ∨ PasswordUrl parseUrl value := by
  rw [← exists_isLabel_iff, ← validHttps_iff]
  have hlabel := ownerRepo_iff (value.takeWhile (· ≠ '#'))
  simp only [validatePluginSource]
  split
  · rename_i hneither
    obtain ⟨hnolabel, hnourl⟩ := hneither
    refine iff_of_false (by simp) ?_
    rw [not_or]
    exact ⟨fun h => hnolabel (hlabel.2 h), by simpa using hnourl⟩
  · rename_i hsome
    refine iff_of_true rfl ?_
    rw [not_and_or, not_not, Bool.not_eq_true', Bool.not_eq_false] at hsome
    exact hsome.imp hlabel.1 id

end

/-- What the checks let through is a label or a remote URL without credentials, and no relative
path, unless it is a label of dots or a URL with a password. -/
theorem pluginSource_iff (parseUrl : Str → Option ParsedUrl) (hparse : ReadsAbsolute parseUrl)
    (value : Str) :
    (Accepted parseUrl value →
      (GithubLabel value ∨ RemoteUrl parseUrl value) ∧ ¬ RelativePath value) ↔
    (validateName value = .ok () → ¬ DotLabel value ∧ ¬ PasswordUrl parseUrl value) := by
  unfold Accepted
  rw [validatePluginSource_eq_ok, and_imp]
  refine imp_congr_right fun _ => ?_
  constructor
  · intro hmeant
    constructor
    · intro hdots
      obtain ⟨hlabel | ⟨url, hremote⟩, -⟩ := hmeant (.inl (.inr hdots))
      · exact hlabel.not_dotLabel hdots
      · obtain ⟨owner, repo, hform, -⟩ := hdots
        exact HttpsUrl.not_label ⟨url, hremote⟩ hparse hform
    · intro hcase
      obtain ⟨password, hurl⟩ := hcase
      obtain ⟨⟨owner, repo, hform, -⟩ | hremote, -⟩ := hmeant (.inr (.inr ⟨password, hurl⟩))
      · exact hurl.not_label hparse hform
      · exact absurd (hurl.unique hremote) (by simp)
  · intro hneither haccepted
    obtain ⟨hdots, hpassword⟩ := hneither
    rcases haccepted with (hlabel | hcase) | hremote | hcase
    · exact ⟨.inl hlabel, hlabel.not_relative⟩
    · exact absurd hcase hdots
    · exact ⟨.inr hremote, hremote.not_relative hparse⟩
    · exact absurd hcase hpassword

/-- `Url::parse` on one URL. -/
def parseGitUrl (value : Str) : Option ParsedUrl :=
  if value = "https://:token@git.example/plugin" then
    some ⟨"https", some "git.example", [], some "token"⟩
  else none

theorem readsAbsolute_parseGitUrl : ReadsAbsolute parseGitUrl := by
  intro value url h
  unfold parseGitUrl at h
  split at h
  · rename_i hvalue
    rw [hvalue]
    decide
  · cases h

theorem pluginSource_iff_parent :
    (Accepted parseGitUrl "../plugin" →
      (GithubLabel "../plugin" ∨ RemoteUrl parseGitUrl "../plugin") ∧
        ¬ RelativePath "../plugin") ↔
    (validateName "../plugin" = .ok () →
      ¬ DotLabel "../plugin" ∧ ¬ PasswordUrl parseGitUrl "../plugin") :=
  pluginSource_iff parseGitUrl readsAbsolute_parseGitUrl "../plugin"

/-- A sibling directory is accepted, and so is an URL with a password. -/
theorem parent_accepted :
    (Accepted parseGitUrl "../plugin" ∧ RelativePath "../plugin") ∧
    Accepted parseGitUrl "https://:token@git.example/plugin" ∧
      ¬ RemoteUrl parseGitUrl "https://:token@git.example/plugin" := by
  refine ⟨⟨⟨by decide +kernel, by decide +kernel⟩, .inr (by decide)⟩,
    ⟨by decide +kernel, by decide +kernel⟩, fun hremote => ?_⟩
  obtain ⟨url, hurl, -, -, -, hpassword⟩ := hremote
  rw [parseGitUrl, if_pos rfl, Option.some.injEq] at hurl
  rw [← hurl] at hpassword
  cases hpassword

end LeaveCli.Host
