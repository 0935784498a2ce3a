import Mathlib.Data.List.Basic

/-!
# Computations that leave a trace

`Traced ε ω α`: a computation that emits `ω`s as it goes and ends in a value or an error. What was
emitted before an error stays emitted. `mem_emitted_bind` and `result_bind_eq_ok` take a sequence of
steps apart; `Guarded grant need` says that a trace needs nothing before it was granted.
-/

namespace Lib

/-- What a computation emitted, and how it ended. -/
structure Traced (ε ω α : Type) where
  emitted : List ω
  result : Except ε α

namespace Traced

variable {ε ω α β : Type}

def pure (a : α) : Traced ε ω α := ⟨[], .ok a⟩

def bind (x : Traced ε ω α) (f : α → Traced ε ω β) : Traced ε ω β :=
  match x.result with
  | .error e => ⟨x.emitted, .error e⟩
  | .ok a => ⟨x.emitted ++ (f a).emitted, (f a).result⟩

instance : Monad (Traced ε ω) where
  pure := Traced.pure
  bind := Traced.bind

/-- A step that emits nothing. -/
def lift (r : Except ε α) : Traced ε ω α := ⟨[], r⟩

def emit (w : ω) : Traced ε ω Unit := ⟨[w], .ok ()⟩

def bail (e : ε) : Traced ε ω α := ⟨[], .error e⟩

/-- A check on the way: `bail` if `c`. -/
def bailIf (c : Bool) (e : ε) : Traced ε ω Unit := if c then bail e else pure ()

/-- A missing value is an error. -/
def context (o : Option α) (e : ε) : Traced ε ω α := lift (o.elim (.error e) .ok)

@[simp] theorem emitted_pure (a : α) : (Pure.pure a : Traced ε ω α).emitted = [] := rfl

@[simp] theorem emitted_lift (r : Except ε α) : (lift r : Traced ε ω α).emitted = [] := rfl

@[simp] theorem emitted_emit (w : ω) : (emit w : Traced ε ω Unit).emitted = [w] := rfl

@[simp] theorem emitted_bail (e : ε) : (bail e : Traced ε ω α).emitted = [] := rfl

@[simp] theorem emitted_context (o : Option α) (e : ε) :
    (context o e : Traced ε ω α).emitted = [] := rfl

@[simp] theorem result_pure (a : α) : (Pure.pure a : Traced ε ω α).result = .ok a := rfl

@[simp] theorem result_lift (r : Except ε α) : (lift r : Traced ε ω α).result = r := rfl

@[simp] theorem result_emit (w : ω) : (emit w : Traced ε ω Unit).result = .ok () := rfl

@[simp] theorem result_bail (e : ε) : (bail e : Traced ε ω α).result = .error e := rfl

@[simp] theorem emitted_bailIf (c : Bool) (e : ε) :
    (bailIf c e : Traced ε ω Unit).emitted = [] := by
  cases c <;> rfl

@[simp] theorem result_bailIf {c : Bool} {e : ε} {a : Unit} :
    (bailIf c e : Traced ε ω Unit).result = .ok a ↔ c = false := by
  cases c <;> simp [bailIf, bail, pure]

@[simp] theorem result_context {o : Option α} {e : ε} {a : α} :
    (context o e : Traced ε ω α).result = .ok a ↔ o = some a := by
  cases o <;> simp [context]

@[simp] theorem mem_emitted_bind {x : Traced ε ω α} {f : α → Traced ε ω β} {w : ω} :
    w ∈ (x >>= f).emitted ↔ w ∈ x.emitted ∨ ∃ a, x.result = .ok a ∧ w ∈ (f a).emitted := by
  show w ∈ (x.bind f).emitted ↔ _
  unfold bind
  split
  · rename_i h
    simp [h]
  · rename_i h
    simp [h]

@[simp] theorem result_bind_eq_ok {x : Traced ε ω α} {f : α → Traced ε ω β} {b : β} :
    (x >>= f).result = .ok b ↔ ∃ a, x.result = .ok a ∧ (f a).result = .ok b := by
  show (x.bind f).result = .ok b ↔ _
  unfold bind
  split
  · rename_i h
    simp [h]
  · rename_i h
    simp [h]

/-- What comes after a step that emits nothing, if the step goes well. -/
theorem emitted_bind_of_nil {x : Traced ε ω α} (hx : x.emitted = []) (f : α → Traced ε ω β) :
    (x >>= f).emitted = x.result.toOption.elim [] fun a => (f a).emitted := by
  show (x.bind f).emitted = _
  unfold bind
  split
  · rename_i h
    rw [h]
    exact hx
  · rename_i h
    rw [h, hx]
    rfl

/-- Steps that emit nothing add nothing. -/
theorem emitted_bind_of_forall {x : Traced ε ω α} {f : α → Traced ε ω β}
    (hf : ∀ a, (f a).emitted = []) : (x >>= f).emitted = x.emitted := by
  show (x.bind f).emitted = _
  unfold bind
  split
  · rfl
  · rw [hf, List.append_nil]

/-- What a check lets through is what comes after it. -/
theorem emitted_lift_bind {check : Except ε Unit} {next : Traced ε ω α}
    [Decidable (check = .ok ())] :
    (lift check >>= fun _ => next).emitted = if check = .ok () then next.emitted else [] := by
  rw [emitted_bind_of_nil (emitted_lift check), result_lift]
  cases check with
  | error e => rw [if_neg (fun h => nomatch h)]; rfl
  | ok _ => rw [if_pos rfl]; rfl

theorem emitted_bailIf_bind {c : Bool} {e : ε} {next : Traced ε ω α} :
    (bailIf c e >>= fun _ => next).emitted = if c then [] else next.emitted := by
  cases c <;> rfl

/-- Nothing that needs a grant comes before one. -/
def Guarded (grant need : ω → Prop) (trace : List ω) : Prop :=
  ∀ before w after, trace = before ++ w :: after → need w → ∃ g ∈ before, grant g

/-- What grants nothing is guarded when it needs nothing. -/
theorem guarded_iff_of_no_grant {grant need : ω → Prop} {trace : List ω}
    (h : ∀ w ∈ trace, ¬ grant w) : Guarded grant need trace ↔ ∀ w ∈ trace, ¬ need w := by
  constructor
  · intro hguarded w hw hneed
    obtain ⟨before, after, rfl⟩ := List.append_of_mem hw
    obtain ⟨g, hg, hgrant⟩ := hguarded before w after rfl hneed
    exact h g (List.mem_append_left _ hg) hgrant
  · intro hnone before w after htrace hneed
    subst htrace
    exact absurd hneed (hnone w (by simp))

end Traced

end Lib
