import Mathlib.Data.List.Basic
import Mathlib.Data.List.Nodup
import Mathlib.Order.Lattice

/-!
# Logs read from a position

A log is a list whose keys strictly increase; `between key a b log` is the part after `a` up to and
including `b`. The rules are for a reader that follows the log: parts next to each other join
(`between_append_between`), the first entries after a position are a part (`take_eq_between`), and
what is appended after `b` is in no part up to `b` (`between_append`).
-/

namespace Lib.Log

variable {ρ κ : Type*} [LinearOrder κ] (key : ρ → κ)

/-- The keys strictly increase. -/
def Increasing (log : List ρ) : Prop := log.Pairwise fun a b => key a < key b

/-- The entries after `a`. -/
def after (a : κ) (log : List ρ) : List ρ := log.filter fun r => a < key r

/-- The entries after `a`, up to and including `b`. -/
def between (a b : κ) (log : List ρ) : List ρ := log.filter fun r => a < key r ∧ key r ≤ b

variable {key} {log : List ρ} {a b c : κ}

theorem mem_after {r : ρ} : r ∈ after key a log ↔ r ∈ log ∧ a < key r := by
  simp [after]

theorem mem_between {r : ρ} : r ∈ between key a b log ↔ r ∈ log ∧ a < key r ∧ key r ≤ b := by
  simp [between]

/-- Entries of a log with one key are one. -/
theorem Increasing.eq_of_key_eq (h : Increasing key log) {r r' : ρ} (hr : r ∈ log) (hr' : r' ∈ log)
    (heq : key r = key r') : r = r' := by
  have hnodup : (log.map key).Nodup := by
    rw [List.Nodup, List.pairwise_map]
    exact h.imp fun hlt => hlt.ne
  exact List.inj_on_of_nodup_map hnodup hr hr' heq

theorem between_self : between key a a log = [] := by
  rw [between, List.filter_eq_nil_iff]
  intro r _ hr
  rw [decide_eq_true_eq] at hr
  exact absurd hr.1 (not_lt.2 hr.2)

/-- What is appended after `b` is in no part up to `b`. -/
theorem between_append {new : List ρ} (hnew : ∀ r ∈ new, b < key r) :
    between key a b (log ++ new) = between key a b log := by
  have hnone : between key a b new = [] := by
    rw [between, List.filter_eq_nil_iff]
    intro r hr hin
    rw [decide_eq_true_eq] at hin
    exact absurd (hnew r hr) (not_lt.2 hin.2)
  rw [between, List.filter_append]
  exact (congrArg _ hnone).trans (List.append_nil _)

/-- Two parts next to each other are one. -/
theorem between_append_between (hlog : Increasing key log) (hab : a ≤ b) (hbc : b ≤ c) :
    between key a b log ++ between key b c log = between key a c log := by
  induction log with
  | nil => rfl
  | cons r log ih =>
    obtain ⟨hfirst, hrest⟩ := List.pairwise_cons.1 hlog
    have hjoin := ih hrest
    simp only [between, List.filter_cons, decide_eq_true_eq] at hjoin ⊢
    by_cases hra : a < key r
    · by_cases hrb : key r ≤ b
      · simp only [hra, hrb, true_and, if_true, not_lt.2 hrb, false_and, if_false,
          hrb.trans hbc, List.cons_append, hjoin]
      · -- nothing after `r` is in the first part either
        have hnone : log.filter (fun r => a < key r ∧ key r ≤ b) = [] := by
          rw [List.filter_eq_nil_iff]
          intro r' hr' hin
          rw [decide_eq_true_eq] at hin
          exact hrb ((hfirst r' hr').le.trans hin.2)
        rw [hnone, List.nil_append] at hjoin
        simp only [hrb, and_false, if_false, hnone, List.nil_append, hra, true_and,
          not_le.1 hrb, hjoin]
    · have hrb : ¬ b < key r := fun h => hra (hab.trans_lt h)
      simp only [hra, hrb, false_and, if_false, hjoin]

/-- A part and what comes after it are all that comes after its start. -/
theorem between_append_after (hlog : Increasing key log) (hab : a ≤ b) :
    between key a b log ++ after key b log = after key a log := by
  induction log with
  | nil => rfl
  | cons r log ih =>
    obtain ⟨hfirst, hrest⟩ := List.pairwise_cons.1 hlog
    have hjoin := ih hrest
    simp only [between, after, List.filter_cons, decide_eq_true_eq] at hjoin ⊢
    by_cases hrb : key r ≤ b
    · by_cases hra : a < key r
      · simp only [hra, hrb, true_and, if_true, not_lt.2 hrb, if_false, List.cons_append, hjoin]
      · simp only [hra, false_and, if_false, not_lt.2 hrb, hjoin]
    · have hnone : log.filter (fun r => a < key r ∧ key r ≤ b) = [] := by
        rw [List.filter_eq_nil_iff]
        intro r' hr' hin
        rw [decide_eq_true_eq] at hin
        exact hrb ((hfirst r' hr').le.trans hin.2)
      have hra : a < key r := hab.trans_lt (not_le.1 hrb)
      rw [hnone, List.nil_append] at hjoin
      simp only [hrb, and_false, if_false, hnone, List.nil_append, hra, not_le.1 hrb, if_true,
        hjoin]

/-- The first entries after a position are the part up to the last of them. -/
theorem take_eq_between (hlog : Increasing key log) {n : Nat} {last : ρ}
    (hlast : ((after key a log).take n).getLast? = some last) :
    (after key a log).take n = between key a (key last) log := by
  have hafter : Increasing key (after key a log) := hlog.sublist List.filter_sublist
  have hsplit : between key a (key last) log =
      (after key a log).filter fun r => key r ≤ key last := by
    rw [between, after, List.filter_filter]
    exact List.filter_congr fun r _ => by simp [Bool.and_comm]
  rw [hsplit]
  generalize after key a log = rows at hafter hlast
  rw [← List.take_append_drop n rows, Increasing, List.pairwise_append] at hafter
  obtain ⟨htaken, -, hcross⟩ := hafter
  have hmem : last ∈ rows.take n := List.mem_of_getLast? hlast
  conv_rhs => rw [← List.take_append_drop n rows, List.filter_append]
  rw [List.filter_eq_self.2, List.filter_eq_nil_iff.2, List.append_nil]
  · intro r hr hle
    rw [decide_eq_true_eq] at hle
    exact absurd (hcross last hmem r hr) (not_lt.2 hle)
  · intro r hr
    rw [decide_eq_true_eq]
    obtain ⟨front, hfront⟩ := List.getLast?_eq_some_iff.1 hlast
    rw [hfront] at hr htaken
    rcases List.mem_append.1 hr with hr | hr
    · exact ((List.pairwise_append.1 htaken).2.2 r hr last (List.mem_singleton_self last)).le
    · rw [List.mem_singleton.1 hr]

end Lib.Log
