import Mathlib.Data.List.Basic
import Mathlib.Order.Nat

/-!
# Lists whose entries change and that grow at the end

What a list holds after one of its entries was replaced or another was appended, entry by entry:
the table of things that are known by the order of their creation. And where an entry of a longer
list stands, for the logs that are read from any of their entries.
-/

namespace GrowingList

variable {α β : Type*} {l l' : List α} {i j : ℕ} {x y z : α}

/-- A list in which an entry is replaced by one with the same image has the same images. -/
theorem map_set_of_eq {f : α → β} (hx : l[i]? = some x) (hy : f y = f x) :
    (l.set i y).map f = l.map f := by
  obtain ⟨hi, rfl⟩ := List.getElem?_eq_some_iff.1 hx
  have hlt : i < (l.map f).length := by simpa using hi
  have hget : (l.map f)[i] = f y := by
    rw [List.getElem_map, hy]
  rw [List.map_set, ← hget]
  exact List.set_getElem_self _

/-- The entries after one of them was replaced. -/
theorem getElem?_set_iff (hx : l[i]? = some x) :
    (l.set i y)[j]? = some z ↔ j = i ∧ z = y ∨ j ≠ i ∧ l[j]? = some z := by
  obtain ⟨hi, -⟩ := List.getElem?_eq_some_iff.1 hx
  rw [List.getElem?_set]
  by_cases hj : i = j
  · subst hj
    simp [hi, eq_comm]
  · simp [hj, Ne.symm hj]

/-- The entries after one was appended. -/
theorem getElem?_concat_iff :
    (l ++ [y])[j]? = some z ↔ l[j]? = some z ∨ j = l.length ∧ z = y := by
  rcases lt_trichotomy j l.length with hj | rfl | hj
  · rw [List.getElem?_append_left hj]
    simp [hj.ne]
  · simp [eq_comm]
  · rw [List.getElem?_eq_none (by rw [List.length_append]; exact hj), List.getElem?_eq_none hj.le]
    simp [hj.ne']

/-- A longer list has the entries of the shorter. -/
theorem getElem?_of_isPrefix (h : l <+: l') (hx : l[i]? = some x) : l'[i]? = some x := by
  obtain ⟨hi, hget⟩ := List.getElem?_eq_some_iff.1 hx
  rw [List.prefix_iff_getElem?.1 h i hi, hget]

/-- An element of a concatenation lies in the first or in the second part. -/
theorem eq_append_cons_cases {m earlier later : List α} (h : l ++ m = earlier ++ x :: later) :
    (∃ rest, l = earlier ++ x :: rest ∧ later = rest ++ m) ∨
      ∃ rest, earlier = l ++ rest ∧ m = rest ++ x :: later := by
  rcases List.append_eq_append_iff.1 h with ⟨rest, hearlier, hm⟩ | ⟨rest, hl, hlater⟩
  · exact .inr ⟨rest, hearlier, hm⟩
  · rcases rest with _ | ⟨y, rest⟩
    · exact .inr ⟨[], by simpa using hl.symm, by simpa using hlater.symm⟩
    · obtain ⟨rfl, rfl⟩ := List.cons.inj hlater
      exact .inl ⟨rest, hl, rfl⟩

/-- The same for one more element at the end. -/
theorem eq_append_cons_cases_singleton {earlier later : List α}
    (h : l ++ [y] = earlier ++ x :: later) :
    (∃ rest, l = earlier ++ x :: rest ∧ later = rest ++ [y]) ∨
      earlier = l ∧ x = y ∧ later = [] := by
  rcases eq_append_cons_cases h with hold | ⟨rest, rfl, hlast⟩
  · exact .inl hold
  · rcases rest with _ | ⟨z, rest⟩
    · obtain ⟨rfl, rfl⟩ := List.cons.inj hlast
      exact .inr ⟨List.append_nil _, rfl, rfl⟩
    · simp at hlast

end GrowingList
