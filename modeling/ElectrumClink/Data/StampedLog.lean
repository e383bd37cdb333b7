import Mathlib.Algebra.BigOperators.Group.List.Basic
import Mathlib.Algebra.Order.BigOperators.Group.List

/-!
# Logs of stamped amounts

A log lists what was spent, and when. `StampedLog.total p log` is what was spent at the stamps that
meet `p`; a span of time is one such `p`.

`total_le_total` compares two spans, and `total_filter` says what forgetting the entries outside a
span does to the totals.
-/

namespace StampedLog

variable {τ μ : Type*} [AddCommMonoid μ]

/-- What was spent at the stamps that meet `p`. -/
def total (p : τ → Prop) [DecidablePred p] (log : List (τ × μ)) : μ :=
  ((log.filter fun e => p e.1).map Prod.snd).sum

variable {p q : τ → Prop} [DecidablePred p] [DecidablePred q] {log : List (τ × μ)}

@[simp]
theorem total_nil : total p ([] : List (τ × μ)) = 0 := rfl

theorem total_append (log log' : List (τ × μ)) :
    total p (log ++ log') = total p log + total p log' := by
  simp [total]

theorem total_append_of_pos {stamp : τ} (amount : μ) (h : p stamp) :
    total p (log ++ [(stamp, amount)]) = total p log + amount := by
  simp [total, h]

theorem total_append_of_neg {stamp : τ} (amount : μ) (h : ¬ p stamp) :
    total p (log ++ [(stamp, amount)]) = total p log := by
  simp [total, h]

/-- Spans that agree on the stamps of the log hold the same. -/
theorem total_congr (h : ∀ e ∈ log, (p e.1 ↔ q e.1)) : total p log = total q log := by
  refine congrArg (fun l : List (τ × μ) => (l.map Prod.snd).sum) (List.filter_congr fun e he => ?_)
  simp [h e he]

/-- What is left inside a span after the entries outside another one were forgotten. -/
theorem total_filter : total p (log.filter fun e => q e.1) =
    total (fun stamp => p stamp ∧ q stamp) log := by
  unfold total
  rw [List.filter_filter]
  simp

/-- Inside a span nothing is lost by forgetting what lies outside it. -/
theorem total_filter_of_imp (h : ∀ stamp, p stamp → q stamp) :
    total p (log.filter fun e => q e.1) = total p log := by
  rw [total_filter]
  exact total_congr fun e _ => and_iff_left_of_imp (h e.1)

/-- A shorter span holds no more, when no amount is negative. -/
theorem total_le_total [PartialOrder μ] [IsOrderedAddMonoid μ] (hnonneg : ∀ e ∈ log, 0 ≤ e.2)
    (h : ∀ e ∈ log, p e.1 → q e.1) : total p log ≤ total q log := by
  induction log with
  | nil => exact le_rfl
  | cons e log ih =>
    have ih := ih (fun e' he' => hnonneg e' (List.mem_cons_of_mem e he'))
      fun e' he' => h e' (List.mem_cons_of_mem e he')
    have hcons : ∀ (r : τ → Prop) [DecidablePred r],
        total r (e :: log) = (if r e.1 then e.2 else 0) + total r log := by
      intro r _
      by_cases hr : r e.1 <;> simp [total, hr]
    rw [hcons p, hcons q]
    refine add_le_add ?_ ih
    by_cases hp : p e.1
    · rw [if_pos hp, if_pos (h e List.mem_cons_self hp)]
    · rw [if_neg hp]
      split
      · exact hnonneg e List.mem_cons_self
      · exact le_rfl

/-- Forgetting entries leaves no more than the span that was kept held. -/
theorem total_filter_le [PartialOrder μ] [IsOrderedAddMonoid μ] (hnonneg : ∀ e ∈ log, 0 ≤ e.2) :
    total p (log.filter fun e => q e.1) ≤ total q log := by
  rw [total_filter]
  exact total_le_total hnonneg fun e _ h => h.2

end StampedLog
