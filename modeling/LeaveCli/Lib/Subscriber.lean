import LeaveCli.Lib.Broadcast
import Mathlib.Order.Nat

/-!
# Subscribers of a broadcast channel

A `Subscriber` is a receiver with the place where it subscribed and all it has read since. However
sending and receiving alternate, it `Follows` the channel (`follows_subscribe`, `Follows.send`,
`Follows.receive`): what it read is what was sent since it subscribed, in order and with nothing
twice, and as long as it was never told that it lagged there is no gap in it (`Follows.whole`).
-/

namespace Lib

structure Subscriber (α : Type*) where
  /-- Where it subscribed. -/
  first : Nat
  /-- Position of its receiver. -/
  next : Nat
  /-- What it has read. -/
  got : List α
  /-- It was told that it lagged. -/
  lagged : Bool

namespace Subscriber

variable {α : Type*}

/-- `Sender::subscribe` -/
def subscribe (c : Broadcast α) : Subscriber α := ⟨c.subscribe, c.subscribe, [], false⟩

/-- One `Receiver::recv`; one that would wait changes nothing. -/
def receive (c : Broadcast α) (s : Subscriber α) : Subscriber α :=
  match c.recv s.next with
  | (.value a, next) => { s with next, got := s.got ++ [a] }
  | (.lagged _, next) => { s with next, lagged := true }
  | (.empty, _) => s

structure Follows (c : Broadcast α) (s : Subscriber α) : Prop where
  reads : s.first ≤ s.next
  bounded : s.next ≤ c.sent.length
  ordered : s.got.Sublist (Broadcast.segment s.first s.next c.sent)
  whole : s.lagged = false → s.got = Broadcast.segment s.first s.next c.sent

variable {c : Broadcast α} {s : Subscriber α}

theorem follows_subscribe (c : Broadcast α) : Follows c (subscribe c) :=
  ⟨Nat.le_refl _, Nat.le_refl _, List.nil_sublist _,
    fun _ => (Broadcast.segment_self _ _).symm⟩

theorem Follows.send (h : Follows c s) (a : α) : Follows (c.send a) s := by
  have hsame := Broadcast.segment_append (a := s.first) h.bounded [a]
  refine ⟨h.reads, ?_, ?_, fun hlagged => ?_⟩
  · rw [Broadcast.send_sent, List.length_append]
    exact h.bounded.trans (Nat.le_add_right _ _)
  · rw [Broadcast.send_sent, hsame]
    exact h.ordered
  · rw [Broadcast.send_sent, hsame]
    exact h.whole hlagged

theorem Follows.receive (h : Follows c s) : Follows c (s.receive c) := by
  unfold Subscriber.receive
  split
  · rename_i a next hrecv
    obtain ⟨hget, rfl⟩ := Broadcast.recv_value hrecv
    have hmore := Broadcast.segment_succ h.reads hget
    refine ⟨h.reads.trans (Nat.le_succ _), (List.getElem?_eq_some_iff.1 hget).1, ?_, ?_⟩
    · show (s.got ++ [a]).Sublist _
      rw [hmore]
      exact h.ordered.append_right [a]
    · intro hlagged
      show s.got ++ [a] = _
      rw [hmore, h.whole hlagged]
  · rename_i skipped next hrecv
    have hforth := Broadcast.le_recv c s.next
    have hend := Broadcast.recv_le h.bounded
    rw [hrecv] at hforth hend
    refine ⟨h.reads.trans hforth, hend, h.ordered.trans ?_, fun hlagged => nomatch hlagged⟩
    exact (List.take_sublist_take_left hforth).drop _
  · exact h

/-- A subscriber that follows has read part of what was sent since it subscribed, in order. -/
theorem Follows.got_sublist (h : Follows c s) : s.got.Sublist (c.sent.drop s.first) :=
  h.ordered.trans ((List.take_sublist _ _).drop _)

/-- Without a gap, what a subscriber has read starts where it subscribed. -/
theorem Follows.got_isPrefix (h : Follows c s) (hlagged : s.lagged = false) :
    s.got <+: c.sent.drop s.first := by
  rw [h.whole hlagged, Broadcast.drop_eq_segment_append h.reads]
  exact List.prefix_append _ _

end Subscriber

end Lib
