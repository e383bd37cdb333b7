import Mathlib.Data.List.Sort

/-!
# The oldest entries of a list

`oldest stamp n l` is the first `n` elements of `l` in the stable order of their stamps: equal
stamps keep their places. A bounded container that makes room drops such a prefix; when the stamps
never decrease along the list, it is a prefix of the list itself (`oldest_of_pairwise`).

`mem_oldest_append_singleton` says when the element added last is among the oldest: exactly when
fewer than `n` of the elements before it have a stamp at most its own. `stamp_le_of_mem_oldest`
compares the oldest with the elements that stay.
-/

namespace List

variable {α T : Type*} [LinearOrder T]

/-- The first `n` elements of `l`, stably sorted by `stamp`. -/
def oldest (stamp : α → T) (n : ℕ) (l : List α) : List α :=
  (l.insertionSort fun a b => stamp a ≤ stamp b).take n

theorem mem_of_mem_oldest {stamp : α → T} {n : ℕ} {l : List α} {a : α}
    (h : a ∈ oldest stamp n l) : a ∈ l :=
  (mem_insertionSort _).1 (mem_of_mem_take h)

theorem length_oldest (stamp : α → T) (n : ℕ) (l : List α) :
    (oldest stamp n l).length = min n l.length := by
  rw [oldest, length_take, length_insertionSort]

/-- No element that stays has a smaller stamp than one of the oldest. -/
theorem stamp_le_of_mem_oldest {stamp : α → T} {n : ℕ} {l : List α} {a b : α}
    (ha : a ∈ oldest stamp n l) (hb : b ∈ l) (hnot : b ∉ oldest stamp n l) :
    stamp a ≤ stamp b := by
  set sorted := l.insertionSort fun a b => stamp a ≤ stamp b with hsorted
  -- the elements that stay are those after the first `n` of the sorted list
  have hrest : b ∈ sorted.drop n := by
    have hmem : b ∈ sorted := (mem_insertionSort _).2 hb
    rw [← take_append_drop n sorted, mem_append] at hmem
    exact hmem.resolve_left hnot
  have : Std.Total fun a b : α => stamp a ≤ stamp b := ⟨fun a b => le_total (stamp a) (stamp b)⟩
  have : IsTrans α fun a b => stamp a ≤ stamp b := ⟨fun _ _ _ => le_trans⟩
  have hpairwise : sorted.Pairwise fun a b => stamp a ≤ stamp b := pairwise_insertionSort _ l
  rw [← take_append_drop n sorted, pairwise_append] at hpairwise
  exact hpairwise.2.2 a ha b hrest

/-- The oldest of a list in the order of its stamps are its first elements. -/
theorem oldest_of_pairwise {stamp : α → T} {l : List α}
    (h : l.Pairwise fun a b => stamp a ≤ stamp b) (n : ℕ) : oldest stamp n l = l.take n := by
  rw [oldest, h.insertionSort_eq]

/-- Inserting an element into a sorted list around a pivot: before the pivot when its stamp is at
most the pivot's, after it otherwise. -/
private theorem orderedInsert_around (stamp : α → T) (a x : α) (l r : List α)
    (hl : ∀ b ∈ l, stamp b ≤ stamp x) :
    (l ++ x :: r).orderedInsert (fun a b => stamp a ≤ stamp b) a =
      if stamp a ≤ stamp x then
        l.orderedInsert (fun a b => stamp a ≤ stamp b) a ++ x :: r
      else l ++ x :: r.orderedInsert (fun a b => stamp a ≤ stamp b) a := by
  induction l with
  | nil =>
    by_cases h : stamp a ≤ stamp x <;> simp [h]
  | cons b l ih =>
    have ih := ih fun c hc => hl c (mem_cons_of_mem _ hc)
    by_cases hab : stamp a ≤ stamp b
    · have hax : stamp a ≤ stamp x := hab.trans (hl b mem_cons_self)
      simp [hab, hax]
    · rw [cons_append, orderedInsert_cons, if_neg hab, ih, orderedInsert_cons, if_neg hab]
      split <;> simp

/-- Stable sorting of a list with a last element `x`: what is not newer than `x` comes before it,
what is newer comes after. -/
theorem insertionSort_append_singleton (stamp : α → T) (l : List α) (x : α) :
    (l ++ [x]).insertionSort (fun a b => stamp a ≤ stamp b) =
      (l.filter fun a => stamp a ≤ stamp x).insertionSort (fun a b => stamp a ≤ stamp b) ++
        x :: (l.filter fun a => stamp x < stamp a).insertionSort
          (fun a b => stamp a ≤ stamp b) := by
  induction l with
  | nil => simp
  | cons a l ih =>
    rw [cons_append, insertionSort_cons, ih, orderedInsert_around]
    · by_cases h : stamp a ≤ stamp x
      · simp [h, not_lt.2 h]
      · simp [h, not_le.1 h]
    · intro b hb
      simpa using (mem_filter.1 ((mem_insertionSort _).1 hb)).2

/-- The element added last is among the `n` oldest exactly when fewer than `n` elements before it
have a stamp at most its own. -/
theorem mem_oldest_append_singleton {stamp : α → T} {n : ℕ} {l : List α} {x : α} (hx : x ∉ l) :
    x ∈ oldest stamp n (l ++ [x]) ↔ l.countP (fun a => stamp a ≤ stamp x) < n := by
  have hnot : ∀ p : α → Bool, x ∉ (l.filter p).insertionSort (fun a b => stamp a ≤ stamp b) :=
    fun p h => hx (mem_of_mem_filter ((mem_insertionSort _).1 h))
  rw [oldest, insertionSort_append_singleton, countP_eq_length_filter,
    ← length_insertionSort (fun a b => stamp a ≤ stamp b)]
  generalize hleft : (l.filter fun a => stamp a ≤ stamp x).insertionSort
    (fun a b => stamp a ≤ stamp b) = left
  have hxleft : x ∉ left := hleft ▸ hnot _
  rw [take_append, mem_append]
  constructor
  · rintro (h | h)
    · exact absurd (mem_of_mem_take h) hxleft
    · by_contra hge
      rw [Nat.sub_eq_zero_of_le (not_lt.1 hge)] at h
      simp at h
  · intro hlt
    right
    obtain ⟨m, hm⟩ : ∃ m, n - left.length = m + 1 := ⟨n - left.length - 1, by omega⟩
    rw [hm, take_succ_cons]
    exact mem_cons_self

/-- The same for the keys of a key-value list, where only the last entry has the key `k`. -/
theorem mem_map_fst_oldest_append_singleton {κ β : Type*} {stamp : κ × β → T} {n : ℕ}
    {l : List (κ × β)} {k : κ} {v : β} (hk : ∀ w, (k, w) ∉ l) :
    k ∈ ((l ++ [(k, v)]).oldest stamp n).map Prod.fst ↔
      l.countP (fun e => stamp e ≤ stamp (k, v)) < n := by
  rw [← mem_oldest_append_singleton (hk v), mem_map]
  refine ⟨?_, fun h => ⟨_, h, rfl⟩⟩
  rintro ⟨⟨k', w⟩, hmem, rfl⟩
  rcases mem_append.1 (mem_of_mem_oldest hmem) with h | h
  · exact absurd h (hk w)
  · rwa [mem_singleton.1 h] at hmem

end List
