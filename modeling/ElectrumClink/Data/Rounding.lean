import Mathlib.Algebra.Order.Ring.Nat
import Mathlib.Order.Bounds.Basic
import Mathlib.Order.OrderDual
import Mathlib.Order.Monotone.Defs

/-!
# Rounding in an order

A function rounds down to a set when it takes each element to the greatest one of the set that is
not above it, and rounds up when it takes it to the least one that is not below. What follows from
this alone, that rounding twice is rounding once and that it keeps the order, is proved for any
order and any set to round to; the rules of the one are those of the other in the dual order.

`roundUp c` rounds a natural number up to a positive multiple of `c`. `roundsUp_of_chunk` is for a
step `chunk n` that grows with the number: as long as it only grows by whole factors and is still
the same at the rounded number, the result is the least number that is a multiple of its own step.
-/

/-! ## Rounding down -/

/-- On `D`, `f` takes each element to the greatest one of `S` that is not above it. -/
def RoundsDown {α : Type*} [LE α] (D S : Set α) (f : α → α) : Prop :=
  ∀ v ∈ D, IsGreatest {n | n ≤ v ∧ n ∈ S} (f v)

namespace RoundsDown

variable {α : Type*} [PartialOrder α] {D S : Set α} {f : α → α}

theorem le (h : RoundsDown D S f) {v : α} (hv : v ∈ D) : f v ≤ v := (h v hv).1.1

theorem mem (h : RoundsDown D S f) {v : α} (hv : v ∈ D) : f v ∈ S := (h v hv).1.2

/-- What is in the set and not above `v` is not above the rounded `v`. -/
theorem le_of_le (h : RoundsDown D S f) {n v : α} (hv : v ∈ D) (hn : n ∈ S) (hle : n ≤ v) :
    n ≤ f v :=
  (h v hv).2 ⟨hle, hn⟩

theorem monotoneOn (h : RoundsDown D S f) : MonotoneOn f D := by
  intro v hv w hw hle
  apply h.le_of_le hw (h.mem hv)
  exact (h.le hv).trans hle

/-- Rounding twice is rounding once. -/
theorem idempotent (h : RoundsDown D S f) {v : α} (hv : v ∈ D) (hfv : f v ∈ D) :
    f (f v) = f v := by
  apply le_antisymm
  · exact h.le hfv
  · exact h.le_of_le hfv (h.mem hv) le_rfl

end RoundsDown

/-! ## Rounding up -/

/-- On `D`, `f` takes each element to the least one of `S` that is not below it. -/
def RoundsUp {α : Type*} [LE α] (D S : Set α) (f : α → α) : Prop :=
  ∀ v ∈ D, IsLeast {n | v ≤ n ∧ n ∈ S} (f v)

namespace RoundsUp

variable {α : Type*} [PartialOrder α] {D S : Set α} {f : α → α}

/-- Rounding up is rounding down in the dual order. -/
theorem dual (h : RoundsUp D S f) : @RoundsDown αᵒᵈ _ D S f := h

theorem le (h : RoundsUp D S f) {v : α} (hv : v ∈ D) : v ≤ f v := h.dual.le hv

/-- What is in the set and not below `v` is not below the rounded `v`. -/
theorem le_of_le (h : RoundsUp D S f) {n v : α} (hv : v ∈ D) (hn : n ∈ S) (hle : v ≤ n) :
    f v ≤ n :=
  h.dual.le_of_le hv hn hle

theorem monotoneOn (h : RoundsUp D S f) : MonotoneOn f D := by
  intro v hv w hw hle
  exact h.dual.monotoneOn hw hv hle

/-- Rounding twice is rounding once. -/
theorem idempotent (h : RoundsUp D S f) {v : α} (hv : v ∈ D) (hfv : f v ∈ D) : f (f v) = f v :=
  h.dual.idempotent hv hfv

end RoundsUp

/-! ## Rounding up to multiples -/

/-- The least positive multiple of `c` that is not below `n`. -/
def roundUp (c n : ℕ) : ℕ := c * ((n - 1) / c + 1)

section RoundUp

variable {c n : ℕ}

theorem le_roundUp (hc : 0 < c) : n ≤ roundUp c n := by
  have hlt := Nat.lt_mul_div_succ (n - 1) hc
  rw [roundUp]
  omega

theorem roundUp_pos (hc : 0 < c) : 0 < roundUp c n := Nat.mul_pos hc (Nat.succ_pos _)

theorem dvd_roundUp (c n : ℕ) : c ∣ roundUp c n := Dvd.intro _ rfl

/-- Less than one step is added. -/
theorem roundUp_lt (hn : 0 < n) : roundUp c n < n + c := by
  have hle := Nat.mul_div_le (n - 1) c
  rw [roundUp, Nat.mul_succ]
  omega

/-- No positive multiple lies in between. -/
theorem roundUp_le {m : ℕ} (hm : 0 < m) (hdvd : c ∣ m) (hle : n ≤ m) : roundUp c n ≤ m := by
  obtain ⟨q, rfl⟩ := hdvd
  have hc : 0 < c := Nat.pos_of_mul_pos_right hm
  have hlt : (n - 1) / c < q := by
    rw [Nat.div_lt_iff_lt_mul hc, mul_comm]
    omega
  exact Nat.mul_le_mul_left c hlt

end RoundUp

/-- A step that grows by whole factors, and does not grow between a number and the rounded one,
rounds up to the positive numbers that are multiples of their own step. -/
theorem roundsUp_of_chunk {chunk : ℕ → ℕ} (hpos : ∀ n, 0 < chunk n)
    (hdvd : ∀ n m, n ≤ m → chunk n ∣ chunk m)
    (hsame : ∀ n, chunk (roundUp (chunk n) n) = chunk n) :
    RoundsUp Set.univ {m | 0 < m ∧ chunk m ∣ m} fun n => roundUp (chunk n) n := by
  intro n _
  refine ⟨⟨le_roundUp (hpos n), roundUp_pos (hpos n), ?_⟩, ?_⟩
  · rw [hsame]
    exact dvd_roundUp _ _
  · rintro m ⟨hle, hm, hown⟩
    -- a multiple of the longer step is one of the shorter
    exact roundUp_le hm ((hdvd n m hle).trans hown) hle
