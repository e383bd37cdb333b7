import Mathlib.Data.List.DropRight

/-!
# Bounded first-in-first-out buffers

A buffer of at most `cap` items that drops its oldest one when a new item does not fit. Pushing
a sequence into an empty buffer leaves the last `cap` items of that sequence, so an item that is
gone was followed by at least `cap` others.
-/

/-- At most `cap` items, oldest first. -/
structure BoundedFifo (α : Type*) (cap : ℕ) where
  items : List α
  /-- The buffer never overflows. -/
  length_le : items.length ≤ cap

namespace BoundedFifo

variable {α : Type*} {cap : ℕ}

/-- The buffer without items. -/
def empty : BoundedFifo α cap := ⟨[], Nat.zero_le _⟩

instance : EmptyCollection (BoundedFifo α cap) := ⟨empty⟩

instance : Inhabited (BoundedFifo α cap) := ⟨∅⟩

@[simp]
theorem items_empty : (∅ : BoundedFifo α cap).items = [] := rfl

/-- Append an item, and drop the oldest one when there was no room. -/
def push (b : BoundedFifo α cap) (a : α) : BoundedFifo α cap where
  items := if b.items.length < cap then b.items ++ [a] else (b.items ++ [a]).tail
  length_le := by
    have := b.length_le
    split
    · rw [List.length_append, List.length_singleton]
      omega
    · rw [List.length_tail, List.length_append, List.length_singleton]
      omega

/-- A push keeps the last `cap` items. -/
theorem items_push (b : BoundedFifo α cap) (a : α) :
    (b.push a).items = (b.items ++ [a]).rtake cap := by
  have hle := b.length_le
  have hlen : (b.items ++ [a]).length = b.items.length + 1 := by simp
  rw [List.rtake, hlen]
  by_cases h : b.items.length < cap
  · have hzero : b.items.length + 1 - cap = 0 := by omega
    simp [push, h, hzero]
  · have hone : b.items.length + 1 - cap = 1 := by omega
    simp [push, h, hone]

/-- Keeping the last `cap` items twice, with an item appended in between, is keeping them once. -/
theorem rtake_rtake_append (l : List α) (a : α) :
    (l.rtake cap ++ [a]).rtake cap = (l ++ [a]).rtake cap := by
  rcases Nat.le_total l.length cap with hle | hge
  · have hall : l.rtake cap = l := by simp [List.rtake, Nat.sub_eq_zero_of_le hle]
    rw [hall]
  · have hlen : (l.rtake cap).length = cap := by
      simp only [List.rtake, List.length_drop]
      omega
    rw [List.rtake, List.rtake, List.rtake]
    rw [List.rtake] at hlen
    rcases Nat.eq_zero_or_pos cap with rfl | hpos
    · simp
    · rw [List.length_append, hlen, List.length_append, List.length_singleton,
        Nat.add_sub_cancel_left, ← List.drop_append_of_le_length (by omega), List.drop_drop]
      congr 1
      omega

/-- The items after one more push, when they were the last `cap` items of `log` before it. -/
theorem items_push_eq_rtake {b : BoundedFifo α cap} {log : List α} (a : α)
    (h : b.items = log.rtake cap) : (b.push a).items = (log ++ [a]).rtake cap := by
  rw [items_push, h, rtake_rtake_append]

/-- An item of `log` that is not among its last `cap` ones is followed by at least `cap` others. -/
theorem length_le_of_notMem_rtake {pre post : List α} {a : α}
    (h : a ∉ (pre ++ a :: post).rtake cap) : cap ≤ post.length := by
  by_contra hlt
  refine h ?_
  have hdrop : (pre ++ a :: post).length - cap ≤ pre.length := by
    simp only [List.length_append, List.length_cons]
    omega
  rw [List.rtake, List.drop_append_of_le_length hdrop]
  simp

/-! ## Refusing what is still in the buffer -/

/-- The last `cap` items of a list are those of its end, when that is long enough. -/
theorem rtake_append_of_le {pre post : List α} (h : cap ≤ post.length) :
    (pre ++ post).rtake cap = post.rtake cap := by
  have hlen : (pre ++ post).length - cap = pre.length + (post.length - cap) := by
    rw [List.length_append]
    omega
  rw [List.rtake, List.rtake, hlen, ← List.drop_drop, List.drop_left]

/-- The logs of a buffer that takes an item only when it does not hold it already. -/
inductive Deduplicated (cap : ℕ) : List α → Prop
  | nil : Deduplicated cap []
  | snoc {log : List α} {a : α} (h : Deduplicated cap log) (hnew : a ∉ log.rtake cap) :
      Deduplicated cap (log ++ [a])

namespace Deduplicated

/-- What was logged first is a log too. -/
theorem of_append {pre post : List α} (h : Deduplicated cap (pre ++ post)) :
    Deduplicated cap pre := by
  induction post using List.reverseRecOn with
  | nil => rwa [List.append_nil] at h
  | append_singleton post a ih =>
    rw [← List.append_assoc] at h
    generalize hlog : pre ++ post ++ [a] = log at h
    cases h with
    | nil => simp at hlog
    | snoc h' =>
      obtain ⟨hlog, -⟩ := List.append_inj' hlog rfl
      exact ih (hlog ▸ h')

/-- An item was not in the buffer when it was taken. -/
theorem notMem_rtake {pre post : List α} {a : α} (h : Deduplicated cap (pre ++ a :: post)) :
    a ∉ pre.rtake cap := by
  have hprefix : Deduplicated cap (pre ++ [a]) := by
    rw [← List.singleton_append, ← List.append_assoc] at h
    exact h.of_append
  generalize hlog : pre ++ [a] = log at hprefix
  cases hprefix with
  | nil => simp at hlog
  | snoc _ hnew =>
    obtain ⟨rfl, ha⟩ := List.append_inj' hlog rfl
    rwa [List.singleton_inj.1 ha]

/-- The buffer never holds an item twice. -/
theorem nodup_rtake {log : List α} (h : Deduplicated cap log) : (log.rtake cap).Nodup := by
  induction h with
  | nil => simp
  | @snoc log a _ hnew ih =>
    rw [← rtake_rtake_append]
    have hnodup : (log.rtake cap ++ [a]).Nodup := by
      refine List.nodup_append.2 ⟨ih, by simp, fun b hb c hc hbc => hnew ?_⟩
      rwa [← List.mem_singleton.1 hc, ← hbc]
    exact hnodup.sublist (List.drop_sublist _ _)

/-- Between two occurrences of an item the buffer took `cap` distinct other ones. -/
theorem distinct_between {pre mid post : List α} {a : α}
    (h : Deduplicated cap (pre ++ a :: mid ++ a :: post)) :
    (mid.rtake cap).Nodup ∧ (mid.rtake cap).length = cap ∧ a ∉ mid.rtake cap := by
  have hgone : a ∉ (pre ++ a :: mid).rtake cap := h.notMem_rtake
  have hle : cap ≤ mid.length := length_le_of_notMem_rtake hgone
  have hrecent : (pre ++ a :: mid).rtake cap = mid.rtake cap := by
    rw [← List.singleton_append, ← List.append_assoc, rtake_append_of_le hle]
  refine ⟨hrecent ▸ h.of_append.nodup_rtake, ?_, hrecent ▸ hgone⟩
  rw [List.rtake, List.length_drop]
  omega

end Deduplicated

end BoundedFifo
