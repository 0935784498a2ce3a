import LeaveCli.Lib.Fields
import Mathlib.Data.List.DropRight

/-!
# The parts of a URL

The generic syntax of a URL with an authority: the scheme ends at the first colon, two slashes
follow, and the authority ends at the first slash, question mark or hash. What is left of the URL is
its target. `split_text` reads back what `UrlParts.text` writes.
-/

namespace Lib

/-- A character that ends the authority. -/
def endsAuthority (c : Char) : Bool := c = '/' || c = '?' || c = '#'

structure UrlParts where
  scheme : Str
  authority : Str
  /-- Path, query and fragment. -/
  target : Str
  deriving DecidableEq, Repr

namespace UrlParts

def text (parts : UrlParts) : Str :=
  parts.scheme ++ ("://" : Str) ++ parts.authority ++ parts.target

def split (url : Str) : Option UrlParts :=
  (Str.splitOnce ':' url).bind fun p => (Str.stripPrefix "//" p.2).map fun rest =>
    ⟨p.1, rest.takeWhile fun c => !endsAuthority c, rest.dropWhile fun c => !endsAuthority c⟩

/-- What a URL is written from. -/
structure WellFormed (parts : UrlParts) : Prop where
  scheme : ':' ∉ parts.scheme
  authority : ∀ c ∈ parts.authority, endsAuthority c = false
  target : ∀ c ∈ parts.target.head?, endsAuthority c = true

theorem split_text {parts : UrlParts} (h : parts.WellFormed) : split parts.text = some parts := by
  obtain ⟨scheme, authority, target⟩ := parts
  have honce : Str.splitOnce ':' (text ⟨scheme, authority, target⟩) =
      some (scheme, ("//" : Str) ++ (authority ++ target)) := by
    rw [text, List.append_assoc, List.append_assoc]
    exact Str.splitOnce_append h.scheme _
  have htarget : (target.takeWhile fun c => !endsAuthority c) = [] ∧
      (target.dropWhile fun c => !endsAuthority c) = target := by
    cases target with
    | nil => exact ⟨rfl, rfl⟩
    | cons c target =>
      have hc := h.target c rfl
      simp [hc]
  have hpasses : ∀ c ∈ authority, (!endsAuthority c) = true := fun c hc => by
    rw [h.authority c hc]
    rfl
  rw [split, honce, Option.bind_some, Str.stripPrefix_append, Option.map_some,
    List.takeWhile_append_of_pos hpasses, List.dropWhile_append_of_pos hpasses, htarget.1,
    htarget.2, List.append_nil]

end UrlParts

end Lib
