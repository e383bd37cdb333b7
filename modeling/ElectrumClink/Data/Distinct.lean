import Mathlib.Data.List.Nodup

/-!
# Collecting distinct values

A loop over a list that computes a value from each element and appends it to the output when it is
to be kept and is not there yet. `mem_collect` says what is collected and `nodup_collect` that
nothing is twice.
-/

namespace Distinct

variable {α β : Type*} [DecidableEq β] {keep : β → Prop} [DecidablePred keep] {f : α → β}
  {out : List β} {x y : β}

/-- Append a value that is to be kept, unless it is there. -/
def insertNew (keep : β → Prop) [DecidablePred keep] (out : List β) (y : β) : List β :=
  if keep y ∧ y ∉ out then out ++ [y] else out

/-- The values of the elements that are to be kept, each where it comes first. -/
def collect (keep : β → Prop) [DecidablePred keep] (f : α → β) (xs : List α) : List β :=
  xs.foldl (fun out x => insertNew keep out (f x)) []

theorem mem_insertNew : x ∈ insertNew keep out y ↔ x ∈ out ∨ keep y ∧ x = y := by
  rw [insertNew]
  split
  next hnew => simp [hnew.1]
  next hold =>
    constructor
    · exact .inl
    · rintro (hout | ⟨hkeep, rfl⟩)
      · exact hout
      · by_contra hnot
        exact hold ⟨hkeep, hnot⟩

theorem nodup_insertNew (h : out.Nodup) : (insertNew keep out y).Nodup := by
  rw [insertNew]
  split
  next hnew => exact h.append (List.nodup_singleton y) (by simpa using hnew.2)
  next => exact h

theorem mem_foldl_insertNew (xs : List α) :
    y ∈ xs.foldl (fun out x => insertNew keep out (f x)) out ↔
      y ∈ out ∨ keep y ∧ ∃ x ∈ xs, y = f x := by
  induction xs generalizing out with
  | nil => simp
  | cons x xs ih =>
    have hexists : (∃ z ∈ x :: xs, y = f z) ↔ y = f x ∨ ∃ z ∈ xs, y = f z := by
      simp only [List.mem_cons, exists_eq_or_imp]
    rw [List.foldl_cons, ih, mem_insertNew, hexists]
    constructor
    · rintro ((hout | ⟨hkeep, rfl⟩) | ⟨hkeep, hmem⟩)
      · exact .inl hout
      · exact .inr ⟨hkeep, .inl rfl⟩
      · exact .inr ⟨hkeep, .inr hmem⟩
    · rintro (hout | ⟨hkeep, rfl | hmem⟩)
      · exact .inl (.inl hout)
      · exact .inl (.inr ⟨hkeep, rfl⟩)
      · exact .inr ⟨hkeep, hmem⟩

/-- The values of elements are collected that are to be kept. -/
theorem mem_collect {xs : List α} : y ∈ collect keep f xs ↔ keep y ∧ ∃ x ∈ xs, y = f x := by
  rw [collect, mem_foldl_insertNew]
  simp

theorem nodup_foldl_insertNew (xs : List α) (h : out.Nodup) :
    (xs.foldl (fun out x => insertNew keep out (f x)) out).Nodup := by
  induction xs generalizing out with
  | nil => exact h
  | cons x xs ih => exact ih (nodup_insertNew h)

/-- No value is collected twice. -/
theorem nodup_collect (xs : List α) : (collect keep f xs).Nodup :=
  nodup_foldl_insertNew xs List.nodup_nil

theorem foldl_insertNew_eq_append {xs : List β} (hkeep : ∀ x ∈ xs, keep x) {f : β → β}
    (hf : ∀ x ∈ xs, f x = x) (h : (out ++ xs).Nodup) :
    xs.foldl (fun out x => insertNew keep out (f x)) out = out ++ xs := by
  induction xs generalizing out with
  | nil => rw [List.foldl_nil, List.append_nil]
  | cons x xs ih =>
    have hnew : x ∉ out := fun hx => List.disjoint_of_nodup_append h hx List.mem_cons_self
    have hinsert : insertNew keep out (f x) = out ++ [x] := by
      rw [hf x List.mem_cons_self, insertNew, if_pos ⟨hkeep x List.mem_cons_self, hnew⟩]
    rw [List.foldl_cons, hinsert, ih (fun y hy => hkeep y (List.mem_cons_of_mem x hy))
      (fun y hy => hf y (List.mem_cons_of_mem x hy)) (by simpa using h), List.append_assoc]
    rfl

/-- Distinct values that are to be kept are collected as they are. -/
theorem collect_eq_self {xs : List β} (hkeep : ∀ x ∈ xs, keep x) {f : β → β}
    (hf : ∀ x ∈ xs, f x = x) (h : xs.Nodup) : collect keep f xs = xs :=
  foldl_insertNew_eq_append hkeep hf h

end Distinct
