import ElectrumClink.Data.Regroup
import Mathlib.Data.List.DropRight

/-!
# Bech32

The bech32 text format for lowercase texts of any length: a human-readable part, the separator `1`
and digits of five bits each, of which the last six are a checksum.

`decode_encode` says that decoding gives back what was encoded, and `convertbits_convertbits` that
bytes survive the regrouping into digits.
-/

namespace Bech32Text

/-- The digits. -/
def charset : List Char := "qpzry9x8gf2tvdw0s3jn54khce6mua7l".toList

/-- The two variants of the checksum. -/
inductive Encoding
  | bech32
  | bech32m
deriving DecidableEq

/-- What the checksum is to come out as. -/
def Encoding.const : Encoding → ℕ
  | bech32 => 1
  | bech32m => 0x2bc830a3

/-- One step of the checksum's polynomial division. -/
def polymodStep (chk value : ℕ) : ℕ :=
  let top := chk >>> 25
  let next := ((chk &&& 0x1ffffff) <<< 5) ^^^ value
  [0x3b6a57b2, 0x26508e6d, 0x1ea119fa, 0x3d4233dd, 0x2a1462b3].zipIdx.foldl
    (fun next g => if top.testBit g.2 then next ^^^ g.1 else next) next

def polymod (values : List ℕ) : ℕ := values.foldl polymodStep 1

/-- The human-readable part as it enters the checksum. -/
def hrpExpand (hrp : String) : List ℕ :=
  hrp.toList.map (fun c => c.toNat >>> 5) ++ [0] ++ hrp.toList.map (fun c => c.toNat &&& 31)

/-- The six digits of the checksum. -/
def checksum (hrp : String) (data : List ℕ) (spec : Encoding) : List ℕ :=
  let p := polymod (hrpExpand hrp ++ data ++ List.replicate 6 0) ^^^ spec.const
  (List.range 6).map fun i => (p >>> (5 * (5 - i))) &&& 31

def encode (hrp : String) (data : List ℕ) (spec : Encoding) : String :=
  String.ofList (hrp.toList ++ '1' :: (data ++ checksum hrp data spec).map (charset.getD · 'q'))

/-- The digits after the last separator, when they are digits and the checksum agrees. -/
def decode (s : String) : Option (String × List ℕ × Encoding) :=
  let digits := s.toList.rtakeWhile (· ≠ '1')
  let hrp := String.ofList (s.toList.take (s.toList.length - digits.length - 1))
  (digits.mapM charset.idxOf?).bind fun values =>
    let data := values.take (values.length - 6)
    if encode hrp data .bech32 = s then some (hrp, data, .bech32)
    else if encode hrp data .bech32m = s then some (hrp, data, .bech32m)
    else none

/-- Regroup bits; without padding the rest has to be short and zero. -/
def convertbits (data : List ℕ) (frombits tobits : ℕ) (pad : Bool) : Option (List ℕ) :=
  if ∃ n ∈ data, 2 ^ frombits ≤ n then none
  else if pad then some (Regroup.regroup frombits tobits data)
  else
    let (values, rest) := Regroup.ungroup frombits tobits data
    if frombits ≤ rest.length ∨ true ∈ rest then none else some values

example : encode "a" [] .bech32 = "a12uel5l" := by decide +kernel

theorem checksum_lt (hrp : String) (data : List ℕ) (spec : Encoding) :
    ∀ w ∈ checksum hrp data spec, w < 32 := by
  intro w hw
  obtain ⟨i, -, rfl⟩ := List.mem_map.1 hw
  exact Nat.and_lt_two_pow (n := 5) _ (by decide)

@[simp]
theorem length_checksum (hrp : String) (data : List ℕ) (spec : Encoding) :
    (checksum hrp data spec).length = 6 := by
  simp [checksum]

/-- A digit is found at its place, and is not the separator. -/
theorem idxOf?_charset {w : ℕ} (h : w < 32) :
    charset.idxOf? (charset.getD w 'q') = some w ∧ charset.getD w 'q' ≠ '1' := by
  have hall : ∀ w < 32, charset.idxOf? (charset.getD w 'q') = some w ∧
      charset.getD w 'q' ≠ '1' := by decide +kernel
  exact hall w h

theorem mapM_idxOf?_charset {values : List ℕ} (h : ∀ w ∈ values, w < 32) :
    (values.map (charset.getD · 'q')).mapM charset.idxOf? = some values := by
  induction values with
  | nil => rfl
  | cons w values ih =>
    have hw := (idxOf?_charset (h w List.mem_cons_self)).1
    have ih := ih fun v hv => h v (List.mem_cons_of_mem _ hv)
    rw [List.map_cons, List.mapM_cons, hw, ih]
    rfl

/-- Decoding gives back what was encoded, whatever its length. -/
theorem decode_encode (hrp : String) {data : List ℕ} (h : ∀ w ∈ data, w < 32) :
    decode (encode hrp data .bech32) = some (hrp, data, .bech32) := by
  set digits := (data ++ checksum hrp data .bech32).map (charset.getD · 'q') with hdigits
  have hsmall : ∀ w ∈ data ++ checksum hrp data .bech32, w < 32 := by
    intro w hw
    rcases List.mem_append.1 hw with hw | hw
    · exact h w hw
    · exact checksum_lt hrp data .bech32 w hw
  have hencode : (encode hrp data .bech32).toList = hrp.toList ++ '1' :: digits := by
    rw [encode, String.toList_ofList]
  -- no digit is the separator, so the last one stands before the digits
  have htake : (hrp.toList ++ '1' :: digits).rtakeWhile (· ≠ '1') = digits := by
    have hnot : ∀ c ∈ digits.reverse, decide (c ≠ '1') = true := by
      intro c hc
      obtain ⟨w, hw, rfl⟩ := List.mem_map.1 (List.mem_reverse.1 hc)
      exact decide_eq_true (idxOf?_charset (hsmall w hw)).2
    rw [List.rtakeWhile, List.reverse_append, List.reverse_cons, List.append_assoc,
      List.takeWhile_append_of_pos hnot]
    simp
  have hhrp : String.ofList ((hrp.toList ++ '1' :: digits).take
      ((hrp.toList ++ '1' :: digits).length - digits.length - 1)) = hrp := by
    have hlength : (hrp.toList ++ '1' :: digits).length - digits.length - 1 =
        hrp.toList.length := by
      rw [List.length_append, List.length_cons]
      omega
    rw [hlength, List.take_left, String.ofList_toList]
  have hdata : (data ++ checksum hrp data .bech32).take
      ((data ++ checksum hrp data .bech32).length - 6) = data := by
    rw [List.length_append, length_checksum, Nat.add_sub_cancel, List.take_left]
  rw [decode]
  simp only [hencode, htake, hhrp]
  rw [hdigits, mapM_idxOf?_charset hsmall, Option.bind_some, hdata, if_pos rfl]

/-- Bytes survive the regrouping into digits of five bits. -/
theorem convertbits_convertbits {data : List ℕ} (h : ∀ n ∈ data, n < 256) :
    ∃ words, convertbits data 8 5 true = some words ∧ (∀ w ∈ words, w < 32) ∧
      convertbits words 5 8 false = some data := by
  obtain ⟨hsmall, -⟩ := Regroup.flatMap_bitsOf_regroup (w := 8) (v := 5) (by decide) data
  obtain ⟨p, hp, hback⟩ := Regroup.ungroup_regroup (w := 8) (v := 5) (by decide) (by decide) h
  refine ⟨Regroup.regroup 8 5 data, ?_, hsmall, ?_⟩
  · rw [convertbits, if_neg, if_pos rfl]
    rintro ⟨n, hn, hle⟩
    exact absurd (h n hn) (not_lt.2 hle)
  · have hrest : ¬ (5 ≤ (List.replicate p false).length ∨ true ∈ List.replicate p false) := by
      simp [hp]
    rw [convertbits, if_neg, if_neg Bool.false_ne_true, hback]
    · exact if_neg hrest
    · rintro ⟨n, hn, hle⟩
      exact absurd (hsmall n hn) (not_lt.2 hle)

end Bech32Text
