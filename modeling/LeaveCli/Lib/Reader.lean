import LeaveCli.Lib.Results
import Mathlib.Data.List.Basic

/-!
# Readers

A reader takes a value off the front of its input or fails. `Reads P c v` says that `c` is exactly
what `P` consumes for `v`: whatever follows `c` is left over, and an input that ends inside `c` is
refused. The rules give `Reads` of a reader from `Reads` of its parts: `Reads.pure`, `Reads.bind`
and, for a loop, `Reads.times`.
-/

namespace Lib

/-- Takes a value off the front of a list of `β`, or fails. -/
abbrev Reader (β ε : Type) := StateT (List β) (Except ε)

namespace Reader

variable {β ε α γ σ : Type}

/-- `for _ in 0..n`: run `body` on the accumulator `n` times. -/
def times (body : σ → Reader β ε σ) : Nat → σ → Reader β ε σ
  | 0, s => pure s
  | n + 1, s => do
    let s ← body s
    times body n s

/-- One reader after another. -/
theorem run_bind_eq_ok {P : Reader β ε α} {f : α → Reader β ε γ} {c : List β} {r : γ × List β} :
    (P >>= f).run c = .ok r ↔ ∃ v rest, P.run c = .ok (v, rest) ∧ (f v).run rest = .ok r := by
  rw [StateT.run_bind, bind_eq_ok, Prod.exists]

/-- `P` consumes `c` for `v`, and no strict prefix of `c` is enough for it. -/
structure Reads (P : Reader β ε α) (c : List β) (v : α) : Prop where
  accepts : ∀ rest, P.run (c ++ rest) = .ok (v, rest)
  refuses : ∀ p, p <+: c → p ≠ c → ∃ e, P.run p = .error e

namespace Reads

/-- A reader that does not look beyond what it takes consumes all of an input it uses up. -/
theorem of_extends {P : Reader β ε α} {c : List β} {v : α}
    (hextends : ∀ p w rest t, P.run p = .ok (w, rest) → P.run (p ++ t) = .ok (w, rest ++ t))
    (h : P.run c = .ok (v, [])) : Reads P c v := by
  constructor
  · intro rest
    exact hextends c v [] rest h
  · intro p hp hne
    obtain ⟨t, rfl⟩ := hp
    cases hrun : P.run p with
    | error e => exact ⟨e, rfl⟩
    | ok read =>
      exfalso
      obtain ⟨w, rest⟩ := read
      have hlong := hextends p w rest t hrun
      rw [h] at hlong
      simp only [Except.ok.injEq, Prod.mk.injEq] at hlong
      have ht : t = [] := (List.append_eq_nil_iff.1 hlong.2.symm).2
      rw [ht, List.append_nil] at hne
      exact hne rfl

theorem pure (v : α) : Reads (Pure.pure v : Reader β ε α) [] v := by
  constructor
  · intro rest
    rfl
  · intro p hp hne
    exact absurd (List.prefix_nil.1 hp) hne

theorem bind {P : Reader β ε α} {f : α → Reader β ε γ} {c d : List β} {v : α} {w : γ}
    (hP : Reads P c v) (hf : Reads (f v) d w) : Reads (P >>= f) (c ++ d) w := by
  have hthen : ∀ rest, (P >>= f).run (c ++ rest) = (f v).run rest := by
    intro rest
    rw [StateT.run_bind, hP.accepts rest]
    rfl
  constructor
  · intro rest
    rw [List.append_assoc, hthen]
    exact hf.accepts rest
  · intro p hp hne
    -- the input ends inside what `P` reads, or inside what comes after it
    rcases List.prefix_or_prefix_of_prefix hp (List.prefix_append c d) with hpc | hcp
    · by_cases heq : p = c
      · subst heq
        have hd : d ≠ [] := by
          intro heq
          subst heq
          simp at hne
        obtain ⟨e, he⟩ := hf.refuses [] List.nil_prefix hd.symm
        have hrun := hthen []
        rw [List.append_nil] at hrun
        exact ⟨e, hrun.trans he⟩
      · obtain ⟨e, he⟩ := hP.refuses p hpc heq
        refine ⟨e, ?_⟩
        rw [StateT.run_bind, he]
        rfl
    · obtain ⟨q, rfl⟩ := hcp
      have hq : q <+: d := (List.prefix_append_right_inj c).1 hp
      have hqne : q ≠ d := by
        intro heq
        subst heq
        exact hne rfl
      obtain ⟨e, he⟩ := hf.refuses q hq hqne
      exact ⟨e, (hthen q).trans he⟩

/-- A reader that goes on without reading more. -/
theorem map {P : Reader β ε α} {c : List β} {v : α} (hP : Reads P c v) (g : α → γ) :
    Reads (P >>= fun a => Pure.pure (g a)) c (g v) := by
  have hbind := hP.bind (f := fun a => Pure.pure (g a)) (Reads.pure (g v))
  rwa [List.append_nil] at hbind

/-- A loop whose body reads one item and folds it in reads a list of items. -/
theorem times {ι : Type} {body : σ → Reader β ε σ} {encode : ι → List β} {add : σ → ι → σ}
    {items : List ι} (hbody : ∀ item ∈ items, ∀ s, Reads (body s) (encode item) (add s item))
    (s : σ) :
    Reads (Reader.times body items.length s) (items.flatMap encode) (items.foldl add s) := by
  induction items generalizing s with
  | nil => exact Reads.pure s
  | cons item items ih =>
    obtain ⟨hfirst, hrest⟩ := List.forall_mem_cons.1 hbody
    rw [List.length_cons, List.flatMap_cons, List.foldl_cons]
    exact (hfirst s).bind (ih hrest (add s item))

end Reads

end Reader

end Lib
