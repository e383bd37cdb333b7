import Mathlib.Algebra.BigOperators.Group.Finset.Basic
import Mathlib.Algebra.Order.BigOperators.Group.Finset
import Mathlib.Data.List.Nodup

/-!
# Insertion-ordered dictionaries

A finite map that remembers the order in which its keys were first inserted: assigning to a
present key keeps the key's place, assigning to an absent key appends it. The keys are distinct
by construction.

* `Dict.get?_eq_some_iff` identifies lookups with membership in the entry list; every other
  lookup lemma goes through it.
* `Dict.sum` totals a quantity over the entries, and `Dict.sum_le_sum` compares two totals key by
  key.
-/

/-- A finite map with distinct keys, listed in insertion order. -/
structure Dict (K V : Type*) where
  /-- The key-value pairs, oldest first. -/
  entries : List (K × V)
  /-- No key occurs twice. -/
  nodup_keys : (entries.map Prod.fst).Nodup

namespace Dict

variable {K V : Type*}

/-- The keys, oldest first. -/
def keys (d : Dict K V) : List K := d.entries.map Prod.fst

/-- The number of entries. -/
def size (d : Dict K V) : ℕ := d.entries.length

/-- The dictionary without entries. -/
def empty : Dict K V := ⟨[], by simp⟩

instance : EmptyCollection (Dict K V) := ⟨empty⟩

instance : Inhabited (Dict K V) := ⟨∅⟩

instance : Membership K (Dict K V) := ⟨fun d k => k ∈ d.keys⟩

/-- Two dictionaries with the same entries in the same order are equal. -/
@[ext]
theorem ext {d e : Dict K V} (h : d.entries = e.entries) : d = e := by
  cases d
  cases e
  simpa using h

theorem mem_def {d : Dict K V} {k : K} : k ∈ d ↔ k ∈ d.keys := Iff.rfl

theorem mem_of_mem_entries {d : Dict K V} {k : K} {v : V} (h : (k, v) ∈ d.entries) : k ∈ d :=
  List.mem_map.2 ⟨(k, v), h, rfl⟩

@[simp]
theorem entries_empty : (∅ : Dict K V).entries = [] := rfl

@[simp]
theorem notMem_empty (k : K) : k ∉ (∅ : Dict K V) := by
  simp [mem_def, keys]

@[simp]
theorem size_empty : (∅ : Dict K V).size = 0 := rfl

theorem length_keys (d : Dict K V) : d.keys.length = d.size := List.length_map _

/-- A map whose keys are all found in another one is no larger. -/
theorem size_le_of_forall_mem {d e : Dict K V} (h : ∀ k ∈ d, k ∈ e) : d.size ≤ e.size := by
  rw [← length_keys, ← length_keys]
  exact (List.subperm_of_subset d.nodup_keys h).length_le

/-- The entries satisfying `p`, in their order. -/
def filter (d : Dict K V) (p : K → V → Bool) : Dict K V :=
  ⟨d.entries.filter fun e => p e.1 e.2, d.nodup_keys.sublist (List.filter_sublist.map _)⟩

@[simp]
theorem entries_filter (d : Dict K V) (p : K → V → Bool) :
    (d.filter p).entries = d.entries.filter fun e => p e.1 e.2 := rfl

variable [DecidableEq K]

instance (k : K) (d : Dict K V) : Decidable (k ∈ d) :=
  inferInstanceAs (Decidable (k ∈ d.keys))

/-- The value stored under `k`, if any. -/
def get? (d : Dict K V) (k : K) : Option V := d.entries.lookup k

/-- Remove the entry of `k`, if any. -/
def erase (d : Dict K V) (k : K) : Dict K V := d.filter fun k' _ => decide (k' ≠ k)

/-- Assign `v` to `k`: in place when `k` is present, as the newest entry otherwise. -/
def set (d : Dict K V) (k : K) (v : V) : Dict K V :=
  if h : k ∈ d then
    ⟨d.entries.map fun e => if e.1 = k then (k, v) else e, by
      have hkeys : (d.entries.map fun e => if e.1 = k then (k, v) else e).map Prod.fst =
          d.entries.map Prod.fst := by
        rw [List.map_map]
        refine List.map_congr_left fun e _ => ?_
        by_cases he : e.1 = k <;> simp [he]
      rw [hkeys]
      exact d.nodup_keys⟩
  else
    ⟨d.entries ++ [(k, v)], by
      rw [List.map_append, List.nodup_append]
      refine ⟨d.nodup_keys, by simp, fun a ha b hb => ?_⟩
      have hbk : b = k := by simpa using hb
      subst hbk
      exact fun hab => h (hab ▸ ha)⟩

/-! ## Lookups -/

omit [DecidableEq K] in
/-- A key has at most one value among the entries. -/
theorem value_unique {d : Dict K V} {k : K} {v w : V} (hv : (k, v) ∈ d.entries)
    (hw : (k, w) ∈ d.entries) : v = w := by
  have h := List.inj_on_of_nodup_map d.nodup_keys hv hw rfl
  exact congrArg Prod.snd h

/-- Lookups read the entry list. -/
theorem get?_eq_some_iff {d : Dict K V} {k : K} {v : V} :
    d.get? k = some v ↔ (k, v) ∈ d.entries := by
  constructor
  · intro h
    obtain ⟨l₁, l₂, hl, -⟩ := List.lookup_eq_some_iff.1 h
    simp [hl]
  · intro h
    cases hw : d.get? k with
    | none =>
      have := List.lookup_eq_none_iff.1 hw (k, v) h
      simp at this
    | some w =>
      obtain ⟨l₁, l₂, hl, -⟩ := List.lookup_eq_some_iff.1 hw
      rw [value_unique h (w := w) (by simp [hl])]

theorem get?_eq_none_iff {d : Dict K V} {k : K} : d.get? k = none ↔ k ∉ d := by
  rw [get?, List.lookup_eq_none_iff, mem_def, keys, List.mem_map]
  constructor
  · rintro h ⟨e, he, rfl⟩
    simpa using h e he
  · intro h e he
    simp only [bne_iff_ne, ne_eq]
    rintro rfl
    exact h ⟨e, he, rfl⟩

theorem mem_iff_exists_get? {d : Dict K V} {k : K} : k ∈ d ↔ ∃ v, d.get? k = some v := by
  rw [← Option.ne_none_iff_exists', ne_eq, get?_eq_none_iff, not_not]

theorem mem_of_get? {d : Dict K V} {k : K} {v : V} (h : d.get? k = some v) : k ∈ d :=
  mem_iff_exists_get?.2 ⟨v, h⟩

@[simp]
theorem get?_empty (k : K) : (∅ : Dict K V).get? k = none := rfl

/-- Two dictionaries agree on a key whose entries are the same pairs. -/
theorem get?_congr {d e : Dict K V} {k : K} (h : ∀ v, (k, v) ∈ d.entries ↔ (k, v) ∈ e.entries) :
    d.get? k = e.get? k := by
  ext v
  rw [get?_eq_some_iff, get?_eq_some_iff, h]

theorem get?_filter_eq_some {d : Dict K V} {p : K → V → Bool} {k : K} {v : V} :
    (d.filter p).get? k = some v ↔ d.get? k = some v ∧ p k v = true := by
  simp only [get?_eq_some_iff, entries_filter, List.mem_filter]

/-- Filtering keeps the entry of `k` when it satisfies the predicate and drops it otherwise. -/
theorem get?_filter (d : Dict K V) (p : K → V → Bool) (k : K) :
    (d.filter p).get? k = (d.get? k).filter (p k) := by
  ext v
  rw [get?_filter_eq_some, Option.filter_eq_some_iff]

theorem mem_filter {d : Dict K V} {p : K → V → Bool} {k : K} :
    k ∈ d.filter p ↔ ∃ v, d.get? k = some v ∧ p k v = true := by
  simp only [mem_iff_exists_get?, get?_filter_eq_some]

@[simp]
theorem get?_erase_self (d : Dict K V) (k : K) : (d.erase k).get? k = none := by
  rw [erase, get?_filter]
  cases d.get? k <;> simp [Option.filter]

theorem get?_erase_of_ne (d : Dict K V) {k k' : K} (h : k' ≠ k) :
    (d.erase k).get? k' = d.get? k' := by
  rw [erase, get?_filter]
  cases d.get? k' <;> simp [Option.filter, h]

/-- What is found after an erasure was there before. -/
theorem get?_of_get?_erase {d : Dict K V} {k k' : K} {v : V}
    (h : (d.erase k).get? k' = some v) : d.get? k' = some v :=
  (get?_filter_eq_some.1 h).1

@[simp]
theorem notMem_erase_self (d : Dict K V) (k : K) : k ∉ d.erase k :=
  get?_eq_none_iff.1 (get?_erase_self d k)

theorem mem_erase {d : Dict K V} {k k' : K} : k' ∈ d.erase k ↔ k' ≠ k ∧ k' ∈ d := by
  by_cases h : k' = k
  · simp [h]
  · rw [mem_iff_exists_get?, get?_erase_of_ne d h, ← mem_iff_exists_get?]
    simp [h]

/-- Removing an absent key changes nothing. -/
theorem erase_of_notMem {d : Dict K V} {k : K} (h : k ∉ d) : d.erase k = d := by
  ext1
  rw [erase, entries_filter, List.filter_eq_self]
  intro e he
  rw [decide_eq_true_eq]
  rintro rfl
  exact h (mem_of_mem_entries he)

theorem keys_erase (d : Dict K V) (k : K) :
    (d.erase k).keys = d.keys.filter fun k' => decide (k' ≠ k) := by
  rw [keys, erase, entries_filter, keys, List.filter_map]
  rfl

/-- Remove the entries of `ks`, one after the other. -/
def eraseAll (d : Dict K V) (ks : List K) : Dict K V := ks.foldl erase d

/-- Removing several keys leaves the lookups of the others alone. -/
theorem get?_eraseAll (d : Dict K V) (ks : List K) (k : K) :
    (d.eraseAll ks).get? k = if k ∈ ks then none else d.get? k := by
  induction ks generalizing d with
  | nil => simp [eraseAll]
  | cons a ks ih =>
    have hstep : d.eraseAll (a :: ks) = (d.erase a).eraseAll ks := rfl
    rw [hstep, ih]
    by_cases hk : k ∈ ks
    · simp [hk]
    · by_cases hka : k = a
      · simp [hka]
      · simp [hk, hka, get?_erase_of_ne d hka]

theorem mem_eraseAll {d : Dict K V} {ks : List K} {k : K} :
    k ∈ d.eraseAll ks ↔ k ∈ d ∧ k ∉ ks := by
  rw [mem_iff_exists_get?, get?_eraseAll, mem_iff_exists_get?]
  by_cases h : k ∈ ks <;> simp [h]

/-- The other entries keep their places. -/
theorem entries_eraseAll (d : Dict K V) (ks : List K) :
    (d.eraseAll ks).entries = d.entries.filter fun e => decide (e.1 ∉ ks) := by
  induction ks generalizing d with
  | nil => simp [eraseAll]
  | cons a ks ih =>
    have hstep : d.eraseAll (a :: ks) = (d.erase a).eraseAll ks := rfl
    rw [hstep, ih, erase, entries_filter, List.filter_filter]
    refine List.filter_congr fun e _ => ?_
    simp [Bool.and_comm]

theorem size_erase {d : Dict K V} {k : K} (h : k ∈ d) : (d.erase k).size + 1 = d.size := by
  have hnodup : d.keys.Nodup := d.nodup_keys
  have hkeys : (d.erase k).keys = d.keys.erase k := by
    rw [keys_erase, hnodup.erase_eq_filter]
    exact List.filter_congr fun k' _ => decide_not
  rw [← length_keys, ← length_keys, hkeys]
  exact List.length_erase_add_one (mem_def.1 h)

/-- Removing distinct keys that are there removes as many entries. -/
theorem size_eraseAll {d : Dict K V} {ks : List K} (hnodup : ks.Nodup) (hmem : ∀ k ∈ ks, k ∈ d) :
    (d.eraseAll ks).size + ks.length = d.size := by
  induction ks generalizing d with
  | nil => rfl
  | cons k ks ih =>
    obtain ⟨hk, hnodup⟩ := List.nodup_cons.1 hnodup
    have hrest : ∀ k' ∈ ks, k' ∈ d.erase k := fun k' hk' =>
      mem_erase.2 ⟨ne_of_mem_of_not_mem hk' hk, hmem k' (List.mem_cons_of_mem _ hk')⟩
    rw [List.length_cons, ← Nat.add_assoc, ← size_erase (hmem k List.mem_cons_self)]
    exact congrArg (· + 1) (ih hnodup hrest)

/-- Removing the first keys leaves the entries after them. -/
theorem entries_eraseAll_take (d : Dict K V) (n : ℕ) :
    (d.eraseAll ((d.entries.take n).map Prod.fst)).entries = d.entries.drop n := by
  have hnodup := d.nodup_keys
  rw [← List.take_append_drop n d.entries, List.map_append, List.nodup_append] at hnodup
  rw [entries_eraseAll]
  conv_lhs => rw [← List.take_append_drop n d.entries]
  rw [List.filter_append, List.filter_eq_nil_iff.2, List.filter_eq_self.2, List.nil_append]
  · intro e he
    rw [decide_eq_true_eq, List.take_append_drop]
    intro hmem
    exact hnodup.2.2 _ hmem _ (List.mem_map_of_mem he) rfl
  · intro e he
    rw [decide_eq_true_eq, List.take_append_drop, not_not]
    exact List.mem_map_of_mem he

/-- Assigning to an absent key appends the new entry. -/
theorem entries_set_of_notMem {d : Dict K V} {k : K} (h : k ∉ d) (v : V) :
    (d.set k v).entries = d.entries ++ [(k, v)] := by
  rw [set, dif_neg h]

/-- Assigning to a present key rewrites its entry in place. -/
theorem entries_set_of_mem {d : Dict K V} {k : K} (h : k ∈ d) (v : V) :
    (d.set k v).entries = d.entries.map fun e => if e.1 = k then (k, v) else e := by
  rw [set, dif_pos h]

theorem keys_set (d : Dict K V) (k : K) (v : V) :
    (d.set k v).keys = if k ∈ d.keys then d.keys else d.keys ++ [k] := by
  split
  next h =>
    rw [keys, entries_set_of_mem (mem_def.2 h), List.map_map, keys]
    refine List.map_congr_left fun e _ => ?_
    by_cases he : e.1 = k <;> simp [he]
  next h => rw [keys, entries_set_of_notMem h, List.map_append, keys, List.map_singleton]

@[simp]
theorem get?_set_self (d : Dict K V) (k : K) (v : V) : (d.set k v).get? k = some v := by
  rw [get?_eq_some_iff]
  by_cases h : k ∈ d
  · rw [entries_set_of_mem h, List.mem_map]
    obtain ⟨w, hw⟩ := mem_iff_exists_get?.1 h
    exact ⟨(k, w), get?_eq_some_iff.1 hw, by simp⟩
  · simp [entries_set_of_notMem h]

theorem get?_set_of_ne (d : Dict K V) {k k' : K} (h : k' ≠ k) (v : V) :
    (d.set k v).get? k' = d.get? k' := by
  apply get?_congr
  intro w
  by_cases hk : k ∈ d
  · rw [entries_set_of_mem hk, List.mem_map]
    constructor
    · rintro ⟨e, he, heq⟩
      split at heq
      · exact absurd (congrArg Prod.fst heq).symm h
      · rwa [← heq]
    · intro hmem
      exact ⟨(k', w), hmem, by simp [h]⟩
  · simp [entries_set_of_notMem hk, h]

theorem get?_set (d : Dict K V) (k k' : K) (v : V) :
    (d.set k v).get? k' = if k' = k then some v else d.get? k' := by
  split
  next h => rw [h, get?_set_self]
  next h => exact get?_set_of_ne d h v

@[simp]
theorem mem_set {d : Dict K V} {k k' : K} {v : V} : k' ∈ d.set k v ↔ k' = k ∨ k' ∈ d := by
  rw [mem_iff_exists_get?, mem_iff_exists_get?, get?_set]
  by_cases h : k' = k <;> simp [h]

theorem size_set_of_notMem {d : Dict K V} {k : K} (h : k ∉ d) (v : V) :
    (d.set k v).size = d.size + 1 := by
  simp [size, entries_set_of_notMem h]

/-- Assigning new keys one after the other appends the entries. -/
theorem entries_foldl_set {l : List (K × V)} {d : Dict K V} (hnodup : (l.map Prod.fst).Nodup)
    (hfresh : ∀ e ∈ l, e.1 ∉ d) :
    (l.foldl (fun d e => d.set e.1 e.2) d).entries = d.entries ++ l := by
  induction l generalizing d with
  | nil => rw [List.foldl_nil, List.append_nil]
  | cons e l ih =>
    rw [List.map_cons, List.nodup_cons] at hnodup
    have hd : e.1 ∉ d := hfresh e List.mem_cons_self
    rw [List.foldl_cons, ih hnodup.2, entries_set_of_notMem hd, List.append_assoc]
    · rfl
    · intro e' he' hmem
      rcases mem_set.1 hmem with heq | hold
      · exact hnodup.1 (heq ▸ List.mem_map_of_mem he')
      · exact hfresh e' (List.mem_cons_of_mem e he') hold

/-- A dictionary is rebuilt from its entries. -/
theorem foldl_set_entries (d : Dict K V) :
    d.entries.foldl (fun d e => d.set e.1 e.2) ∅ = d := by
  apply ext
  rw [entries_foldl_set d.nodup_keys fun e _ => notMem_empty e.1, entries_empty, List.nil_append]

/-! ## Changing the values -/

omit [DecidableEq K] in
/-- Every value changed by `f`, the keys in their places. -/
def mapValues (d : Dict K V) (f : V → V) : Dict K V :=
  ⟨d.entries.map fun e => (e.1, f e.2), by
    rw [List.map_map]
    exact d.nodup_keys⟩

omit [DecidableEq K] in
@[simp]
theorem entries_mapValues (d : Dict K V) (f : V → V) :
    (d.mapValues f).entries = d.entries.map fun e => (e.1, f e.2) := rfl

theorem get?_mapValues (d : Dict K V) (f : V → V) (k : K) :
    (d.mapValues f).get? k = (d.get? k).map f := by
  rcases h : d.get? k with _ | v
  · -- a key that is missing stays missing
    rw [get?_eq_none_iff] at h
    rw [Option.map_none, get?_eq_none_iff]
    intro hk
    have hkeys : (d.mapValues f).keys = d.keys := List.map_map ..
    exact h (mem_def.2 (hkeys ▸ mem_def.1 hk))
  · rw [Option.map_some, get?_eq_some_iff, entries_mapValues]
    exact List.mem_map.2 ⟨(k, v), get?_eq_some_iff.1 h, rfl⟩

/-! ## Totals -/

section Sum

variable {M : Type*} [AddCommMonoid M]

omit [DecidableEq K] in
/-- The total of `f` over the entries. -/
def sum (d : Dict K V) (f : K → V → M) : M := (d.entries.map fun e => f e.1 e.2).sum

omit [DecidableEq K] in
@[simp]
theorem sum_empty (f : K → V → M) : (∅ : Dict K V).sum f = 0 := rfl

/-- A total is a sum over the set of keys. -/
theorem sum_eq_finset_sum (d : Dict K V) (f : K → V → M) :
    d.sum f = ∑ k ∈ d.keys.toFinset, ((d.get? k).map (f k)).getD 0 := by
  rw [keys, List.sum_toFinset _ d.nodup_keys, sum, List.map_map]
  congr 1
  refine List.map_congr_left fun e he => ?_
  have hget : d.get? e.1 = some e.2 := get?_eq_some_iff.2 he
  simp [hget]

theorem sum_set_of_notMem {d : Dict K V} {k : K} (h : k ∉ d) (v : V) (f : K → V → M) :
    (d.set k v).sum f = d.sum f + f k v := by
  simp [sum, entries_set_of_notMem h]

/-- Dictionaries with the same lookups have the same totals, in whatever order they list them. -/
theorem sum_eq_of_get? {d e : Dict K V} (h : ∀ k, d.get? k = e.get? k) (f : K → V → M) :
    d.sum f = e.sum f := by
  have hkeys : d.keys.toFinset = e.keys.toFinset := by
    ext k
    rw [List.mem_toFinset, List.mem_toFinset, ← mem_def, ← mem_def, mem_iff_exists_get?,
      mem_iff_exists_get?, h]
  rw [sum_eq_finset_sum, sum_eq_finset_sum, hkeys]
  exact Finset.sum_congr rfl fun k _ => by rw [h]

/-- Totals of pointwise equal quantities are equal. -/
theorem sum_congr {d : Dict K V} {f g : K → V → M}
    (h : ∀ k v, d.get? k = some v → f k v = g k v) : d.sum f = d.sum g :=
  congrArg List.sum (List.map_congr_left fun e he => h e.1 e.2 (get?_eq_some_iff.2 he))

omit [DecidableEq K] in
theorem sum_add (d : Dict K V) (f g : K → V → M) :
    d.sum (fun k v => f k v + g k v) = d.sum f + d.sum g :=
  List.sum_map_add

/-- A quantity that is zero but for one key totals to its value there. -/
theorem sum_ite_eq {d : Dict K V} {k : K} {v : V} (h : d.get? k = some v) (f : K → V → M) :
    (d.sum fun k' v' => if k' = k then f k' v' else 0) = f k v := by
  rw [sum_eq_finset_sum, Finset.sum_eq_single k]
  · simp [h]
  · intro k' _ hne
    cases d.get? k' <;> simp [hne]
  · intro hk
    exact absurd (List.mem_toFinset.2 (mem_of_get? h)) hk

variable [PartialOrder M] [IsOrderedAddMonoid M]

/-- If every entry that counts towards `d`'s total has an entry under the same key of `e` that
counts at least as much, and nothing counts negatively towards `e`'s total, then `d`'s total is at
most `e`'s. -/
theorem sum_le_sum {W : Type*} {d : Dict K V} {e : Dict K W} {f : K → V → M} {g : K → W → M}
    (hg : ∀ k w, e.get? k = some w → 0 ≤ g k w)
    (hle : ∀ k v, d.get? k = some v → f k v = 0 ∨ ∃ w, e.get? k = some w ∧ f k v ≤ g k w) :
    d.sum f ≤ e.sum g := by
  rw [sum_eq_finset_sum, sum_eq_finset_sum]
  -- a key that is absent contributes nothing to either total
  have hgetD : ∀ k, 0 ≤ ((e.get? k).map (g k)).getD 0 := by
    intro k
    cases hk : e.get? k with
    | none => simp
    | some w => simpa using hg k w hk
  have hkey : ∀ k, ((d.get? k).map (f k)).getD 0 ≤ ((e.get? k).map (g k)).getD 0 := by
    intro k
    cases hk : d.get? k with
    | none => simpa using hgetD k
    | some v =>
      obtain h0 | ⟨w, hw, hvw⟩ := hle k v hk
      · simpa [h0] using hgetD k
      · simpa [hw] using hvw
  calc
    -- compare key by key, then let the other keys of `e` in and the foreign ones out
    ∑ k ∈ d.keys.toFinset, ((d.get? k).map (f k)).getD 0
      ≤ ∑ k ∈ d.keys.toFinset, ((e.get? k).map (g k)).getD 0 :=
        Finset.sum_le_sum fun k _ => hkey k
    _ ≤ ∑ k ∈ d.keys.toFinset ∪ e.keys.toFinset, ((e.get? k).map (g k)).getD 0 :=
        Finset.sum_le_sum_of_subset_of_nonneg Finset.subset_union_left fun k _ _ => hgetD k
    _ = ∑ k ∈ e.keys.toFinset, ((e.get? k).map (g k)).getD 0 := by
        refine (Finset.sum_subset Finset.subset_union_right fun k _ hk => ?_).symm
        have hnone : e.get? k = none := get?_eq_none_iff.2 fun hmem =>
          hk (List.mem_toFinset.2 hmem)
        simp [hnone]

end Sum

end Dict
