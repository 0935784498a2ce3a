import LeaveCli.Lib.Log
import Mathlib.Data.List.Sort

/-!
# Merging items into an ordered list

`mergeIn` puts an item into a list, unless one with its key is there, and sorts the list by rank.
Where key and rank each identify an item, what a list of items is merged into depends on the set of
these items only: `mem_mergeAll` and `increasing_mergeAll` say which list it is, and
`mergeAll_congr` that neither the order of the items nor their repetitions matter.
-/

namespace Lib

variable {α β κ ρ : Type*} [DecidableEq κ] [LinearOrder ρ]

section Definitions

variable (key : α → κ) (rank : α → ρ)

def mergeIn (items : List α) (item : α) : List α :=
  if items.any fun existing => key existing = key item then items
  else (items ++ [item]).insertionSort fun left right => rank left ≤ rank right

def mergeAll (items new : List α) : List α := new.foldl (mergeIn key rank) items

/-- An item is known by its key, and by its rank. -/
structure Identified (items : List α) : Prop where
  ofKey : ∀ a ∈ items, ∀ b ∈ items, key a = key b → a = b
  ofRank : ∀ a ∈ items, ∀ b ∈ items, rank a = rank b → a = b

end Definitions

variable {key : α → κ} {rank : α → ρ} {items new new' : List α} {item : α}

omit [DecidableEq κ] [LinearOrder ρ] in
theorem Identified.mono (h : Identified key rank items) (hsub : new ⊆ items) :
    Identified key rank new :=
  ⟨fun a ha b hb => h.ofKey a (hsub ha) b (hsub hb),
    fun a ha b hb => h.ofRank a (hsub ha) b (hsub hb)⟩

/-! ## One item -/

theorem mem_mergeIn (h : Identified key rank (item :: items)) {a : α} :
    a ∈ mergeIn key rank items item ↔ a = item ∨ a ∈ items := by
  unfold mergeIn
  split
  · rename_i hknown
    obtain ⟨existing, hexisting, hkey⟩ := List.any_eq_true.1 hknown
    have heq : existing = item := h.ofKey existing (List.mem_cons_of_mem item hexisting) item
      List.mem_cons_self (of_decide_eq_true hkey)
    rw [heq] at hexisting
    constructor
    · exact Or.inr
    · intro ha
      rcases ha with rfl | ha
      · exact hexisting
      · exact ha
  · rw [List.mem_insertionSort, List.mem_append, List.mem_singleton, or_comm]

theorem increasing_mergeIn (h : Identified key rank (item :: items))
    (hitems : Log.Increasing rank items) : Log.Increasing rank (mergeIn key rank items item) := by
  unfold mergeIn
  split
  · exact hitems
  · rename_i hnew
    have hranks : ((items ++ [item]).map rank).Nodup := by
      rw [List.map_append, List.map_singleton, List.nodup_append']
      refine ⟨?_, List.nodup_singleton _, ?_⟩
      · rw [List.Nodup, List.pairwise_map]
        exact hitems.imp fun hlt => hlt.ne
      · rw [List.disjoint_singleton]
        intro hmem
        obtain ⟨existing, hexisting, hrank⟩ := List.mem_map.1 hmem
        have heq : existing = item := h.ofRank existing (List.mem_cons_of_mem item hexisting) item
          List.mem_cons_self hrank
        apply hnew
        rw [List.any_eq_true]
        exact ⟨existing, hexisting, decide_eq_true (congrArg key heq)⟩
    have hsorted := List.pairwise_insertionSort (fun left right : α => rank left ≤ rank right)
      (items ++ [item])
    have hdistinct : ((items ++ [item]).insertionSort fun left right =>
        rank left ≤ rank right).Pairwise fun left right => rank left ≠ rank right := by
      rw [← List.pairwise_map]
      exact ((List.perm_insertionSort _ _).map rank).nodup_iff.2 hranks
    exact hsorted.imp₂ (fun _ _ hle hne => lt_of_le_of_ne hle hne) hdistinct

/-! ## A list of items -/

theorem Identified.mergeIn (h : Identified key rank (items ++ item :: new)) :
    Identified key rank (mergeIn key rank items item ++ new) := by
  have hitem : Identified key rank (item :: items) := h.mono (by simp)
  apply h.mono
  intro a ha
  rcases List.mem_append.1 ha with ha | ha
  · rcases (mem_mergeIn hitem).1 ha with rfl | ha
    · simp
    · exact List.mem_append_left _ ha
  · exact List.mem_append_right _ (List.mem_cons_of_mem item ha)

theorem mem_mergeAll (h : Identified key rank (items ++ new)) {a : α} :
    a ∈ mergeAll key rank items new ↔ a ∈ items ∨ a ∈ new := by
  induction new generalizing items with
  | nil => simp [mergeAll]
  | cons item new ih =>
    have hitem : Identified key rank (item :: items) := h.mono (by simp)
    show a ∈ mergeAll key rank (mergeIn key rank items item) new ↔ _
    rw [ih h.mergeIn, mem_mergeIn hitem, List.mem_cons]
    tauto

theorem increasing_mergeAll (h : Identified key rank (items ++ new))
    (hitems : Log.Increasing rank items) : Log.Increasing rank (mergeAll key rank items new) := by
  induction new generalizing items with
  | nil => exact hitems
  | cons item new ih =>
    have hitem : Identified key rank (item :: items) := h.mono (by simp)
    exact ih h.mergeIn (increasing_mergeIn hitem hitems)

/-- Merging depends on the set of the items only. -/
theorem mergeAll_congr (h : Identified key rank (items ++ new))
    (hitems : Log.Increasing rank items) (hsame : ∀ a, a ∈ new ↔ a ∈ new') :
    mergeAll key rank items new = mergeAll key rank items new' := by
  have h' : Identified key rank (items ++ new') := by
    apply h.mono
    intro a ha
    rw [List.mem_append] at ha ⊢
    exact ha.imp_right (hsame a).2
  have hless : Std.Irrefl fun left right : α => rank left < rank right := ⟨fun _ => lt_irrefl _⟩
  have hanti : Std.Antisymm fun left right : α => rank left < rank right :=
    ⟨fun _ _ hlt hgt => absurd hgt hlt.asymm⟩
  apply List.Pairwise.eq_of_mem_iff (increasing_mergeAll h hitems) (increasing_mergeAll h' hitems)
  intro a
  rw [mem_mergeAll h, mem_mergeAll h', hsame]

/-! ## The image of a merge -/

theorem map_mergeIn {key' : β → κ} {rank' : β → ρ} (f : α → β) (hkey : ∀ a, key' (f a) = key a)
    (hrank : ∀ a, rank' (f a) = rank a) :
    (mergeIn key rank items item).map f = mergeIn key' rank' (items.map f) (f item) := by
  have hany : ((items.map f).any fun existing => key' existing = key' (f item)) =
      items.any fun existing => key existing = key item := by
    rw [List.any_map]
    exact congrArg items.any (funext fun existing => by simp only [Function.comp, hkey])
  unfold mergeIn
  rw [hany]
  split
  · rfl
  · rw [List.map_insertionSort _ (fun left right => rank' left ≤ rank' right) f _
      (fun a _ b _ => by rw [hrank, hrank]), List.map_append, List.map_singleton]

theorem map_mergeAll {key' : β → κ} {rank' : β → ρ} (f : α → β) (hkey : ∀ a, key' (f a) = key a)
    (hrank : ∀ a, rank' (f a) = rank a) :
    (mergeAll key rank items new).map f = mergeAll key' rank' (items.map f) (new.map f) := by
  induction new generalizing items with
  | nil => rfl
  | cons item new ih =>
    show (mergeAll key rank (mergeIn key rank items item) new).map f = _
    rw [ih, map_mergeIn f hkey hrank]
    rfl

end Lib
