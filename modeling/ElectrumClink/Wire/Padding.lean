import ElectrumClink.Data.Rounding
import ElectrumClink.Wire.Nip44
import Mathlib.Data.Nat.Cast.Order.Field

/-!
# The padding of NIP-44

`_calc_padded_len` rounds a length up to a multiple of a chunk that grows with the power of two
above the length. `roundsUp_calcPaddedLen` says what it rounds to: the lengths that are multiples of
their own chunk. That it keeps the order and that rounding twice is rounding once follow from that.

`padding_format` adds the bounds on the padded length, and what `_unpad` accepts.
-/

namespace ElectrumClink

namespace Nip44

/-! ## The chunk -/

/-- The exponent of the least power of two that is not below a length. -/
def nextExponent (unpaddedLen : ℕ) : ℕ := (unpaddedLen - 1).size

/-- The chunk of a length is this power of two: an eighth of the next power, and 32 at least. -/
def chunkExponent (unpaddedLen : ℕ) : ℕ := max 5 (nextExponent unpaddedLen - 3)

/-- The chunk that a length is padded by. -/
def chunk (unpaddedLen : ℕ) : ℕ := 2 ^ chunkExponent unpaddedLen

theorem nextExponent_le_iff {n : ℕ} (hn : 0 < n) {k : ℕ} : nextExponent n ≤ k ↔ n ≤ 2 ^ k := by
  rw [nextExponent, Nat.size_le]
  omega

theorem isLeast_two_pow_nextExponent {n : ℕ} (hn : 0 < n) :
    IsLeast {q | (∃ k, q = 2 ^ k) ∧ n ≤ q} (2 ^ nextExponent n) := by
  refine ⟨⟨⟨nextExponent n, rfl⟩, (nextExponent_le_iff hn).1 le_rfl⟩, ?_⟩
  rintro q ⟨⟨k, rfl⟩, hle⟩
  exact Nat.pow_le_pow_right two_pos ((nextExponent_le_iff hn).2 hle)

theorem nextExponent_mono {n m : ℕ} (h : n ≤ m) : nextExponent n ≤ nextExponent m :=
  Nat.size_le_size (Nat.sub_le_sub_right h 1)

theorem chunk_pos (n : ℕ) : 0 < chunk n := Nat.two_pow_pos _

/-- The branches of `_calc_padded_len` are one rounding. -/
theorem calcPaddedLen_eq_roundUp (n : ℕ) : calcPaddedLen n = roundUp (chunk n) n := by
  unfold calcPaddedLen
  split
  next hshort =>
    -- the chunk of a short length is 32, and one chunk is enough
    have hexp : chunkExponent n = 5 := by
      have hsize : nextExponent n ≤ 5 := by
        rw [nextExponent, Nat.size_le]
        omega
      rw [chunkExponent]
      omega
    rw [roundUp, chunk, hexp, Nat.div_eq_of_lt (by omega)]
    rfl
  next hlong =>
    have hchunk : (if 1 <<< (n - 1).size ≤ 256 then 32 else 1 <<< (n - 1).size / 8) = chunk n := by
      rw [Nat.one_shiftLeft, chunk, chunkExponent, nextExponent]
      split
      next hsmall =>
        have hsize : (n - 1).size ≤ 8 := (Nat.pow_le_pow_iff_right one_lt_two).1 hsmall
        have hexp : max 5 ((n - 1).size - 3) = 5 := by omega
        rw [hexp]
        rfl
      next hlarge =>
        have hsize : 8 < (n - 1).size := by
          by_contra hle
          exact hlarge (Nat.pow_le_pow_right two_pos (not_lt.1 hle))
        have hexp : max 5 ((n - 1).size - 3) = (n - 1).size - 3 := by omega
        rw [hexp]
        have hle : 3 ≤ (n - 1).size := by omega
        exact Nat.pow_div hle two_pos
    simp only [hchunk, roundUp]

/-- A padded length has the chunk of the length that was padded. -/
theorem chunk_roundUp (n : ℕ) : chunk (roundUp (chunk n) n) = chunk n := by
  have hpos : 0 < roundUp (chunk n) n := roundUp_pos (chunk_pos n)
  -- the power of two above the length is a multiple of the chunk, or the chunk is 32
  have hle : roundUp (chunk n) n ≤ 2 ^ max 5 (nextExponent n) := by
    apply roundUp_le (Nat.two_pow_pos _)
    · rw [chunk, chunkExponent]
      exact pow_dvd_pow 2 (by omega)
    · rcases Nat.eq_zero_or_pos n with rfl | hn
      · exact Nat.zero_le _
      · exact (nextExponent_le_iff hn).1 (le_max_right _ _)
  have hexp : nextExponent (roundUp (chunk n) n) ≤ max 5 (nextExponent n) :=
    (nextExponent_le_iff hpos).2 hle
  have hmono : nextExponent n ≤ nextExponent (roundUp (chunk n) n) :=
    nextExponent_mono (le_roundUp (chunk_pos n))
  have hsame : chunkExponent (roundUp (chunk n) n) = chunkExponent n := by
    unfold chunkExponent
    omega
  exact congrArg (2 ^ ·) hsame

/-- Padding rounds up to the lengths that are multiples of their own chunk. -/
theorem roundsUp_calcPaddedLen :
    RoundsUp Set.univ {m | 0 < m ∧ chunk m ∣ m} calcPaddedLen := by
  have heq : calcPaddedLen = fun n => roundUp (chunk n) n := funext calcPaddedLen_eq_roundUp
  rw [heq]
  apply roundsUp_of_chunk chunk_pos _ chunk_roundUp
  intro n m hle
  have hexp := nextExponent_mono hle
  rw [chunk, chunk, chunkExponent, chunkExponent]
  exact pow_dvd_pow 2 (by omega)

/-! ## Bounds -/

theorem dvd_calcPaddedLen (n : ℕ) : 32 ∣ calcPaddedLen n := by
  have hchunk : 2 ^ 5 ∣ chunk n := pow_dvd_pow 2 (le_max_left _ _)
  rw [calcPaddedLen_eq_roundUp]
  exact hchunk.trans (dvd_roundUp _ _)

/-- The longest padded text fits exactly. -/
theorem calcPaddedLen_le_of_le {n : ℕ} (h : n ≤ maxPlaintext) : calcPaddedLen n ≤ 65536 := by
  apply roundsUp_calcPaddedLen.le_of_le (Set.mem_univ n)
  · exact ⟨by decide, by decide⟩
  · unfold maxPlaintext at h
    omega

/-- Less than an eighth of the next power of two is added, or less than 32. -/
theorem calcPaddedLen_lt {n : ℕ} (hn : 0 < n) :
    calcPaddedLen n < n + max 32 (2 ^ nextExponent n / 8) := by
  have hchunk : chunk n ≤ max 32 (2 ^ nextExponent n / 8) := by
    rw [chunk, chunkExponent]
    rcases le_total (nextExponent n - 3) 5 with hsmall | hlarge
    · rw [max_eq_left hsmall]
      exact le_max_left _ _
    · rw [max_eq_right hlarge]
      have hle : 3 ≤ nextExponent n := by omega
      exact le_max_of_le_right (Nat.pow_div hle two_pos).ge
  have hlt : roundUp (chunk n) n < n + chunk n := roundUp_lt hn
  rw [calcPaddedLen_eq_roundUp]
  omega

/-! ## The format -/

/-- `_unpad` accepts a length of 1 to 65535 in two bytes, followed by as many bytes as that length
is padded to, and returns that many of them. -/
theorem unpad_eq_ok_iff {padded plaintext : Bytes} :
    unpad padded = .ok plaintext ↔
      ∃ n body, 1 ≤ n ∧ n ≤ 65535 ∧ padded = Bytes.toBigEndian 2 n ++ body ∧
        body.length = calcPaddedLen n ∧ plaintext = body.take n := by
  constructor
  · intro h
    unfold unpad at h
    split at h
    next => cases h
    next hlong =>
      dsimp only at h
      split at h
      next => cases h
      next hchecks =>
        obtain rfl := Except.ok.inj h
        push Not at hchecks
        obtain ⟨-, ⟨hmin, hmax⟩, hlength⟩ := hchecks
        have htwo : (padded.take 2).length = 2 := by
          rw [List.length_take]
          omega
        refine ⟨Bytes.ofBigEndian (padded.take 2), padded.drop 2, hmin, hmax, ?_, ?_, rfl⟩
        · have hwritten := Bytes.toBigEndian_ofBigEndian (padded.take 2)
          rw [htwo] at hwritten
          rw [hwritten, List.take_append_drop]
        · rw [List.length_drop, hlength]
          omega
  · rintro ⟨n, body, hmin, hmax, rfl, hbody, rfl⟩
    have hheader : (Bytes.toBigEndian 2 n ++ body).take 2 = Bytes.toBigEndian 2 n :=
      List.take_left' (Bytes.length_toBigEndian 2 n)
    have hrest : (Bytes.toBigEndian 2 n ++ body).drop 2 = body :=
      List.drop_left' (Bytes.length_toBigEndian 2 n)
    have hlength : (Bytes.toBigEndian 2 n ++ body).length = 2 + calcPaddedLen n := by
      rw [List.length_append, Bytes.length_toBigEndian, hbody]
    have hfits : n < 256 ^ 2 := by omega
    -- the text is not cut short, as padding never shortens
    have htext : (body.take n).length = n := by
      have hle := (le_calcPaddedLen n).1
      rw [List.length_take]
      omega
    have hshort : ¬ (Bytes.toBigEndian 2 n ++ body).length < 2 := by omega
    rw [unpad, if_neg hshort]
    simp only [hheader, hrest, Bytes.ofBigEndian_toBigEndian hfits]
    apply if_neg
    rintro (hne | hbounds | hne)
    · exact hne htext
    · exact hbounds ⟨hmin, hmax⟩
    · exact hne hlength

/-- The padding of NIP-44: a length of 1 to 65535 is padded to a multiple of 32 that is neither
shorter nor above 65536, longer lengths not to shorter ones, padded lengths to themselves, and less
than 32 or an eighth of the next power of two is added. `_unpad` accepts exactly a length of 1 to
65535 followed by as many bytes as it is padded to, and returns the text of that length. -/
theorem padding_format :
    (∀ n, 1 ≤ n → n ≤ 65535 →
      32 ∣ calcPaddedLen n ∧ n ≤ calcPaddedLen n ∧ calcPaddedLen n ≤ 65536 ∧
        (∀ m, n ≤ m → m ≤ 65535 → calcPaddedLen n ≤ calcPaddedLen m) ∧
        calcPaddedLen (calcPaddedLen n) = calcPaddedLen n ∧
        ∀ p, IsLeast {q | (∃ k, q = 2 ^ k) ∧ n ≤ q} p →
          (calcPaddedLen n : ℚ) - n < max 32 ((p : ℚ) / 8)) ∧
      ∀ padded plaintext, unpad padded = .ok plaintext ↔
        ∃ n body, 1 ≤ n ∧ n ≤ 65535 ∧ padded = Bytes.toBigEndian 2 n ++ body ∧
          body.length = calcPaddedLen n ∧ plaintext = body.take n := by
  have hround := roundsUp_calcPaddedLen
  refine ⟨fun n hn hmax => ?_, fun padded plaintext => unpad_eq_ok_iff⟩
  refine ⟨dvd_calcPaddedLen n, hround.le (Set.mem_univ n), calcPaddedLen_le_of_le hmax, ?_, ?_, ?_⟩
  · intro m hle _
    exact hround.monotoneOn (Set.mem_univ n) (Set.mem_univ m) hle
  · exact hround.idempotent (Set.mem_univ n) (Set.mem_univ _)
  · intro p hp
    obtain rfl := hp.unique (isLeast_two_pow_nextExponent hn)
    have hlt : calcPaddedLen n < n + max 32 (2 ^ nextExponent n / 8) := calcPaddedLen_lt hn
    -- an eighth is rounded down among the naturals
    have hdiv : ((2 ^ nextExponent n / 8 : ℕ) : ℚ) ≤ ((2 ^ nextExponent n : ℕ) : ℚ) / 8 :=
      Nat.cast_div_le
    calc (calcPaddedLen n : ℚ) - n
        < max 32 ((2 ^ nextExponent n / 8 : ℕ) : ℚ) := sub_lt_iff_lt_add'.2 (by exact_mod_cast hlt)
      _ ≤ max 32 (((2 ^ nextExponent n : ℕ) : ℚ) / 8) := max_le_max_left _ hdiv

/-- A text of 37 bytes is padded to 64, as is one of 64, and read from the 66 bytes that it is sent
in. -/
theorem padding_format_letters :
    calcPaddedLen (calcPaddedLen 37) = calcPaddedLen 37 ∧ calcPaddedLen 37 = 64 ∧
      unpad (Bytes.toBigEndian 2 37 ++ List.replicate 64 97) = .ok (List.replicate 37 97) := by
  refine ⟨(padding_format.1 37 (by decide) (by decide)).2.2.2.2.1, by decide, ?_⟩
  apply (padding_format.2 _ _).2
  exact ⟨37, List.replicate 64 97, by decide, by decide, rfl, by decide, by decide⟩

end Nip44

end ElectrumClink
