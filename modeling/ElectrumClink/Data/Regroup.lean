import Mathlib.Data.List.Basic
import Mathlib.Data.List.Induction
import Mathlib.Tactic.Ring

/-!
# Regrouping bits

Numbers of `w` bits, written one after the other, read again as numbers of `v` bits: the step
between byte strings and the digits of base32 and base64 texts. When bits are left over at the end,
the last number is filled up with zeros.

`ungroup_regroup` shows that reading the new numbers back in the old width, dropping what is left
over, gives the old numbers.
-/

namespace Regroup

/-- The last `width` bits of a number, highest first. -/
def bitsOf : ℕ → ℕ → List Bool
  | 0, _ => []
  | width + 1, n => bitsOf width (n / 2) ++ [decide (n % 2 = 1)]

/-- The number with these bits, highest first. -/
def ofBits (bits : List Bool) : ℕ := bits.foldl (fun n bit => 2 * n + bit.toNat) 0

@[simp]
theorem length_bitsOf (width n : ℕ) : (bitsOf width n).length = width := by
  induction width generalizing n with
  | zero => rfl
  | succ width ih => simp [bitsOf, ih]

theorem ofBits_append_singleton (bits : List Bool) (bit : Bool) :
    ofBits (bits ++ [bit]) = 2 * ofBits bits + bit.toNat := by
  simp [ofBits]

/-- A number that fits the width is read back. -/
theorem ofBits_bitsOf {width n : ℕ} (h : n < 2 ^ width) : ofBits (bitsOf width n) = n := by
  induction width generalizing n with
  | zero =>
    rw [pow_zero, Nat.lt_one_iff] at h
    rw [h]
    rfl
  | succ width ih =>
    have hdiv : n / 2 < 2 ^ width := by
      rw [Nat.div_lt_iff_lt_mul (by decide)]
      rwa [pow_succ] at h
    rw [bitsOf, ofBits_append_singleton, ih hdiv]
    rcases Nat.mod_two_eq_zero_or_one n with hmod | hmod
    · simp only [hmod, Nat.zero_ne_one, decide_false, Bool.toNat_false]
      omega
    · simp only [hmod, decide_true, Bool.toNat_true]
      omega

theorem ofBits_lt (bits : List Bool) : ofBits bits < 2 ^ bits.length := by
  induction bits using List.reverseRecOn with
  | nil => decide
  | append_singleton bits bit ih =>
    rw [ofBits_append_singleton, List.length_append, List.length_singleton, pow_succ]
    have hbit : bit.toNat ≤ 1 := Bool.toNat_le bit
    omega

/-- Bits that are read as a number are its bits. -/
theorem bitsOf_ofBits (bits : List Bool) : bitsOf bits.length (ofBits bits) = bits := by
  induction bits using List.reverseRecOn with
  | nil => rfl
  | append_singleton bits bit ih =>
    have hbit : bit.toNat ≤ 1 := Bool.toNat_le bit
    have hdiv : (2 * ofBits bits + bit.toNat) / 2 = ofBits bits := by omega
    have hmod : decide ((2 * ofBits bits + bit.toNat) % 2 = 1) = bit := by
      cases bit <;> simp
    rw [ofBits_append_singleton, List.length_append, List.length_singleton, bitsOf, hdiv, ih, hmod]

/-- The first `k` elements, the next `k` and so on, and what is left over. -/
def groups {α : Type} (k : ℕ) (l : List α) : List (List α) × List α :=
  if 0 < k ∧ k ≤ l.length then
    (l.take k :: (groups k (l.drop k)).1, (groups k (l.drop k)).2)
  else ([], l)
termination_by l.length
decreasing_by
  all_goals
    simp only [List.length_drop]
    omega

section Groups

variable {α : Type} {k : ℕ}

/-- Whole groups come out as they went in. -/
theorem groups_flatten_append {gs : List (List α)} (hgs : ∀ g ∈ gs, g.length = k) {rest : List α}
    (hrest : rest.length < k) : groups k (gs.flatten ++ rest) = (gs, rest) := by
  induction gs with
  | nil =>
    rw [List.flatten_nil, List.nil_append, groups, if_neg]
    omega
  | cons g gs ih =>
    have hg : g.length = k := hgs g List.mem_cons_self
    have ih := ih fun g' hg' => hgs g' (List.mem_cons_of_mem _ hg')
    rw [List.flatten_cons, List.append_assoc, groups, if_pos, List.take_left' hg,
      List.drop_left' hg, ih]
    rw [List.length_append]
    omega

/-- A list is its groups and what is left over. -/
theorem groups_spec (hk : 0 < k) (l : List α) :
    (groups k l).1.flatten ++ (groups k l).2 = l ∧ (∀ g ∈ (groups k l).1, g.length = k) ∧
      (groups k l).2.length < k := by
  induction hn : l.length using Nat.strong_induction_on generalizing l with
  | _ n ih =>
    rw [groups]
    by_cases h : 0 < k ∧ k ≤ l.length
    · rw [if_pos h]
      obtain ⟨hflat, hlen, hrest⟩ := ih (l.drop k).length (by rw [List.length_drop]; omega)
        (l.drop k) rfl
      refine ⟨?_, ?_, hrest⟩
      · rw [List.flatten_cons, List.append_assoc, hflat, List.take_append_drop]
      · intro g hg
        rcases List.mem_cons.1 hg with rfl | hg
        · rw [List.length_take]
          omega
        · exact hlen g hg
    · rw [if_neg h]
      refine ⟨rfl, by simp, ?_⟩
      show l.length < k
      omega

end Groups

/-- The numbers of `v` bits that numbers of `w` bits make up, the last one filled up. -/
def regroup (w v : ℕ) (data : List ℕ) : List ℕ :=
  let (gs, rest) := groups v (data.flatMap (bitsOf w))
  (if rest.isEmpty then gs else gs ++ [rest ++ List.replicate (v - rest.length) false]).map ofBits

/-- The numbers of `v` bits that numbers of `w` bits make up, and the bits left over. -/
def ungroup (w v : ℕ) (data : List ℕ) : List ℕ × List Bool :=
  let (gs, rest) := groups v (data.flatMap (bitsOf w))
  (gs.map ofBits, rest)

theorem length_flatMap_bitsOf (w : ℕ) (data : List ℕ) :
    (data.flatMap (bitsOf w)).length = w * data.length := by
  induction data with
  | nil => rfl
  | cons n data ih =>
    rw [List.flatMap_cons, List.length_append, length_bitsOf, ih, List.length_cons]
    ring

/-- The bits of the new numbers are the old bits and some zeros. -/
theorem flatMap_bitsOf_regroup {w v : ℕ} (hv : 0 < v) (data : List ℕ) :
    (∀ n ∈ regroup w v data, n < 2 ^ v) ∧ ∃ p < v,
      (regroup w v data).flatMap (bitsOf v) =
        data.flatMap (bitsOf w) ++ List.replicate p false := by
  obtain ⟨hflat, hlen, hrest⟩ := groups_spec hv (data.flatMap (bitsOf w))
  set gs := (groups v (data.flatMap (bitsOf w))).1
  set rest := (groups v (data.flatMap (bitsOf w))).2
  -- the padded groups all have the full width
  have hflatMap : ∀ gs' : List (List Bool), (∀ g ∈ gs', g.length = v) →
      (∀ n ∈ gs'.map ofBits, n < 2 ^ v) ∧ (gs'.map ofBits).flatMap (bitsOf v) = gs'.flatten := by
    intro gs' hgs'
    constructor
    · intro n hn
      obtain ⟨g, hg, rfl⟩ := List.mem_map.1 hn
      exact hgs' g hg ▸ ofBits_lt g
    · rw [List.flatMap_map, List.flatten_eq_flatMap]
      refine List.flatMap_congr fun g hg => ?_
      exact hgs' g hg ▸ bitsOf_ofBits g
  by_cases hempty : rest.isEmpty = true
  · have hregroup : regroup w v data = gs.map ofBits :=
      congrArg (List.map ofBits) (if_pos hempty)
    obtain ⟨hsmall, hbits⟩ := hflatMap gs hlen
    refine ⟨hregroup ▸ hsmall, 0, hv, ?_⟩
    rw [hregroup, hbits, List.replicate_zero, List.append_nil, ← hflat,
      List.isEmpty_iff.1 hempty, List.append_nil]
  · have hregroup : regroup w v data =
        (gs ++ [rest ++ List.replicate (v - rest.length) false]).map ofBits :=
      congrArg (List.map ofBits) (if_neg hempty)
    have hall : ∀ g ∈ gs ++ [rest ++ List.replicate (v - rest.length) false],
        g.length = v := by
      intro g hg
      rcases List.mem_append.1 hg with hg | hg
      · exact hlen g hg
      · rw [List.mem_singleton.1 hg, List.length_append, List.length_replicate]
        omega
    obtain ⟨hsmall, hbits⟩ := hflatMap _ hall
    have hpos : 0 < rest.length := List.length_pos_iff.2 (mt List.isEmpty_iff.2 hempty)
    refine ⟨hregroup ▸ hsmall, v - rest.length, by omega, ?_⟩
    rw [hregroup, hbits, List.flatten_append, List.flatten_singleton, ← List.append_assoc, hflat]

/-- Reading the new numbers back in the old width gives the old ones, and less than a new number of
zeros is left over. -/
theorem ungroup_regroup {w v : ℕ} (hv : 0 < v) (hle : v ≤ w) {data : List ℕ}
    (hdata : ∀ n ∈ data, n < 2 ^ w) :
    ∃ p < v, ungroup v w (regroup w v data) = (data, List.replicate p false) := by
  obtain ⟨-, p, hp, hbits⟩ := flatMap_bitsOf_regroup (w := w) hv data
  refine ⟨p, hp, ?_⟩
  have hgroups : groups w ((data.map (bitsOf w)).flatten ++ List.replicate p false) =
      (data.map (bitsOf w), List.replicate p false) := by
    refine groups_flatten_append (by simp) ?_
    rw [List.length_replicate]
    omega
  rw [ungroup, hbits, List.flatMap_def, hgroups]
  refine Prod.ext ?_ rfl
  show (data.map (bitsOf w)).map ofBits = data
  rw [List.map_map]
  conv_rhs => rw [← List.map_id data]
  exact List.map_congr_left fun n hn => ofBits_bitsOf (hdata n hn)

end Regroup
