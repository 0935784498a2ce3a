import Mathlib.Data.List.Basic

/-!
# Broadcast channels

`tokio::sync::broadcast`: every receiver gets every value sent after it subscribed, in order, or is
told that it lagged once more than the capacity is pending; it then goes on with the oldest value
the channel still keeps. A channel is the list of all values ever sent to it, a receiver its
position in that list. (A value sent while there is no receiver is in the list too; no receiver
ever gets to it.) `segment a b` is what lies between two positions; `recv_value` says that a value
extends the segment a receiver has read, `segment_send` that sending leaves it alone.
-/

namespace Lib

structure Broadcast (α : Type*) where
  capacity : Nat
  sent : List α

/-- What `recv` returns; `empty` is a `recv` that waits. -/
inductive Broadcast.Received (α : Type*)
  | value (a : α)
  | lagged (skipped : Nat)
  | empty
  deriving DecidableEq

namespace Broadcast

variable {α : Type*}

def new (capacity : Nat) : Broadcast α := ⟨capacity, []⟩

def send (c : Broadcast α) (a : α) : Broadcast α := { c with sent := c.sent ++ [a] }

/-- The position of a receiver that subscribes now. -/
def subscribe (c : Broadcast α) : Nat := c.sent.length

/-- The next value of a receiver, and where it goes on. -/
def recv (c : Broadcast α) (next : Nat) : Received α × Nat :=
  if next + c.capacity < c.sent.length then
    (.lagged (c.sent.length - c.capacity - next), c.sent.length - c.capacity)
  else c.sent[next]?.elim (.empty, next) fun a => (.value a, next + 1)

/-- The values from position `a` up to position `b`. -/
def segment (a b : Nat) (sent : List α) : List α := (sent.take b).drop a

@[simp] theorem send_capacity (c : Broadcast α) (a : α) : (c.send a).capacity = c.capacity := rfl

@[simp] theorem send_sent (c : Broadcast α) (a : α) : (c.send a).sent = c.sent ++ [a] := rfl

theorem segment_self (a : Nat) (sent : List α) : segment a a sent = [] :=
  List.drop_eq_nil_of_le (by rw [List.length_take]; omega)

theorem segment_append {a b : Nat} {sent : List α} (hb : b ≤ sent.length) (new : List α) :
    segment a b (sent ++ new) = segment a b sent := by
  rw [segment, segment, List.take_append_of_le_length hb]

theorem segment_succ {a b : Nat} {sent : List α} {x : α} (hab : a ≤ b) (hx : sent[b]? = some x) :
    segment a (b + 1) sent = segment a b sent ++ [x] := by
  have hlt : b < sent.length := (List.getElem?_eq_some_iff.1 hx).1
  rw [segment, segment, List.take_add_one, hx]
  exact List.drop_append_of_le_length (by rw [List.length_take]; omega)

theorem take_eq_append_segment {a b : Nat} (hab : a ≤ b) (sent : List α) :
    sent.take b = sent.take a ++ segment a b sent := by
  have hfront : (sent.take b).take a = sent.take a := by rw [List.take_take, Nat.min_eq_left hab]
  rw [segment, ← hfront, List.take_append_drop]

theorem drop_eq_segment_append {a b : Nat} (hab : a ≤ b) (sent : List α) :
    sent.drop a = segment a b sent ++ sent.drop b := by
  rw [segment, List.drop_take]
  conv_lhs => rw [← List.take_append_drop (b - a) (sent.drop a), List.drop_drop]
  rw [Nat.add_sub_cancel' hab]

theorem mem_segment {a b : Nat} {sent : List α} {x : α} (h : x ∈ segment a b sent) : x ∈ sent :=
  List.mem_of_mem_take (List.mem_of_mem_drop h)

/-- A receiver that gets a value has read one more. -/
theorem recv_value {c : Broadcast α} {next next' : Nat} {a : α}
    (h : c.recv next = (.value a, next')) : c.sent[next]? = some a ∧ next' = next + 1 := by
  unfold recv at h
  split at h
  · cases h
  · cases hget : c.sent[next]? with
    | none =>
      rw [hget] at h
      cases h
    | some x =>
      rw [hget] at h
      simp only [Option.elim_some, Prod.mk.injEq, Received.value.injEq] at h
      exact ⟨congrArg some h.1, h.2.symm⟩

/-- A receiver never goes back. -/
theorem le_recv (c : Broadcast α) (next : Nat) : next ≤ (c.recv next).2 := by
  unfold recv
  split
  · show next ≤ c.sent.length - c.capacity
    omega
  · cases c.sent[next]? with
    | none => exact Nat.le_refl next
    | some x => exact Nat.le_succ next

/-- A receiver never passes the end. -/
theorem recv_le {c : Broadcast α} {next : Nat} (h : next ≤ c.sent.length) :
    (c.recv next).2 ≤ c.sent.length := by
  unfold recv
  split
  · exact Nat.sub_le _ _
  · cases hget : c.sent[next]? with
    | none => exact h
    | some x => exact (List.getElem?_eq_some_iff.1 hget).1

end Broadcast

end Lib
