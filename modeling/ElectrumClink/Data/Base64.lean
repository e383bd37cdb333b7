import ElectrumClink.Data.Regroup
import Mathlib.Data.List.DropRight
import Mathlib.Data.List.GetD

/-!
# Base64

The standard base64 text of a byte string, and its strict reading. `decode_encode` says that nothing
is lost, and `mem_encode` which characters such a text has.
-/

namespace Base64

/-- The digits. -/
def alphabet : List Char :=
  "ABCDEFGHIJKLMNOPQRSTUVWXYZabcdefghijklmnopqrstuvwxyz0123456789+/".toList

/-- Digits of six bits, filled up with `=` to a multiple of four characters. -/
def encode (data : List UInt8) : String :=
  String.ofList ((Regroup.regroup 8 6 (data.map UInt8.toNat)).map (alphabet.getD · '=') ++
    List.replicate ((3 - data.length % 3) % 3) '=')

/-- Whether so many `=` may follow so many digits. -/
def fills (digits fill : ℕ) : Bool :=
  if digits % 4 = 1 then false
  -- nothing counts the `=` after a full group of digits, but a text does not begin with one
  else if digits % 4 = 0 then digits ≠ 0 || fill = 0
  else digits % 4 + fill = 4

/-- The bytes of a base64 text; foreign characters and a wrong filling are refused. -/
def decode (s : String) : Option (List UInt8) :=
  let digits := s.toList.rdropWhile (· = '=')
  if fills digits.length (s.toList.length - digits.length) then
    (digits.mapM alphabet.idxOf?).map fun values =>
      (Regroup.ungroup 6 8 values).1.map UInt8.ofNat
  else none

example : encode [77, 97] = "TWE=" := by decide +kernel

/-- A digit is found at its place, and is no filling. -/
theorem idxOf?_alphabet {n : ℕ} (h : n < 64) :
    alphabet.idxOf? (alphabet.getD n '=') = some n ∧ alphabet.getD n '=' ≠ '=' := by
  have hall : ∀ n < 64, alphabet.idxOf? (alphabet.getD n '=') = some n ∧
      alphabet.getD n '=' ≠ '=' := by decide +kernel
  exact hall n h

theorem mapM_idxOf?_alphabet {values : List ℕ} (h : ∀ n ∈ values, n < 64) :
    (values.map (alphabet.getD · '=')).mapM alphabet.idxOf? = some values := by
  induction values with
  | nil => rfl
  | cons n values ih =>
    have hn := (idxOf?_alphabet (h n List.mem_cons_self)).1
    have ih := ih fun m hm => h m (List.mem_cons_of_mem _ hm)
    rw [List.map_cons, List.mapM_cons, hn, ih]
    rfl

/-- The characters of a base64 text are digits and fillings. -/
theorem mem_encode {data : List UInt8} {c : Char} (h : c ∈ (encode data).toList) :
    c ∈ alphabet ∨ c = '=' := by
  rw [encode, String.toList_ofList, List.mem_append] at h
  rcases h with h | h
  · obtain ⟨n, -, rfl⟩ := List.mem_map.1 h
    by_cases hn : n < alphabet.length
    · rw [List.getD_eq_getElem _ _ hn]
      exact .inl (List.getElem_mem hn)
    · exact .inr (List.getD_eq_default _ _ (not_lt.1 hn))
  · exact .inr (List.eq_of_mem_replicate h)

/-- The digits of `length` bytes, of which the last one may be padded with zero bits, are filled up
as they should be. -/
theorem fills_of_regroup {digits length p : ℕ} (hcount : 6 * digits = 8 * length + p)
    (hp : p < 6) : fills digits ((3 - length % 3) % 3) = true := by
  have hcases : length % 3 = 0 ∨ length % 3 = 1 ∨ length % 3 = 2 := by omega
  unfold fills
  rcases hcases with hmod | hmod | hmod
  · -- full groups, and no filling
    have hdigits : digits % 4 = 0 := by omega
    simp [hmod, hdigits]
  · have hdigits : digits % 4 = 2 := by omega
    simp [hmod, hdigits]
  · have hdigits : digits % 4 = 3 := by omega
    simp [hmod, hdigits]

/-- Reading a base64 text gives back the bytes. -/
theorem decode_encode (data : List UInt8) : decode (encode data) = some data := by
  have hbytes : ∀ n ∈ data.map UInt8.toNat, n < 2 ^ 8 := by
    intro n hn
    obtain ⟨d, -, rfl⟩ := List.mem_map.1 hn
    exact d.toNat_lt
  obtain ⟨hsmall, p, hp, hbits⟩ :=
    Regroup.flatMap_bitsOf_regroup (w := 8) (v := 6) (by decide) (data.map UInt8.toNat)
  obtain ⟨_, -, hback⟩ := Regroup.ungroup_regroup (w := 8) (v := 6) (by decide) (by decide) hbytes
  set values := Regroup.regroup 8 6 (data.map UInt8.toNat) with hvalues
  set fill := (3 - data.length % 3) % 3 with hfill
  set digits := values.map (alphabet.getD · '=') with hdigits
  have hencode : (encode data).toList = digits ++ List.replicate fill '=' := by
    rw [encode, String.toList_ofList]
  -- the digits end where the filling begins
  have hdrop : (digits ++ List.replicate fill '=').rdropWhile (· = '=') = digits := by
    have hkeep : digits.reverse.dropWhile (· = '=') = digits.reverse := by
      rcases hrev : digits.reverse with _ | ⟨c, cs⟩
      · rfl
      · have hc : c ∈ digits := List.mem_reverse.1 (hrev ▸ List.mem_cons_self)
        obtain ⟨n, hn, rfl⟩ := List.mem_map.1 hc
        exact List.dropWhile_cons_of_neg (by simpa using (idxOf?_alphabet (hsmall n hn)).2)
    have hfilling : ∀ c ∈ (List.replicate fill '=').reverse, decide (c = '=') = true := by
      simp
    rw [List.rdropWhile, List.reverse_append, List.dropWhile_append_of_pos hfilling, hkeep,
      List.reverse_reverse]
  have hlength : 6 * values.length = 8 * data.length + p := by
    have hcount := congrArg List.length hbits
    rwa [List.length_append, Regroup.length_flatMap_bitsOf, Regroup.length_flatMap_bitsOf,
      List.length_map, List.length_replicate] at hcount
  have hfills : fills digits.length ((digits ++ List.replicate fill '=').length - digits.length) =
      true := by
    rw [List.length_append, List.length_replicate, Nat.add_sub_cancel_left]
    have hcount : 6 * digits.length = 8 * data.length + p := by
      rwa [hdigits, List.length_map]
    exact fills_of_regroup hcount hp
  rw [decode]
  simp only [hencode, hdrop]
  rw [if_pos hfills, hdigits, mapM_idxOf?_alphabet hsmall, Option.map_some, hback]
  refine congrArg some ?_
  rw [List.map_map]
  exact List.map_id'' (fun d => UInt8.ofNat_toNat) data

end Base64
