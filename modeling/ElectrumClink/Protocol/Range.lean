import ElectrumClink.Data.SigFigs
import ElectrumClink.Protocol.Fields

/-!
# The advertised range

An amount that cannot be invoiced is refused with the range that can. The gate compares with the
exact capacity, and the range that the payer reads has it rounded down to two significant figures.

`advertised_range_honoured` says that the rounding promises nothing that the gate or the parser of
amounts would refuse, and `errors_reveal_two_figures` that the errors tell no more than these two
figures.
-/

namespace ElectrumClink

open SigFigs

variable {req : Request} {offer : Offer} {availableSat minSat amountSat : ℤ} {sigFigs : ℕ}

/-! ## Rounding the capacity -/

/-- Where there is capacity, it is rounded down in base ten. -/
theorem quantizeAvailableSat_eq (h : 0 < availableSat) :
    quantizeAvailableSat availableSat sigFigs = roundDown 10 sigFigs availableSat := by
  have hnat : availableSat.toNat = availableSat.natAbs := by omega
  rw [quantizeAvailableSat, if_neg (not_le.2 h), hnat]
  dsimp only
  split
  next hlen => exact (roundDown_of_length_le hlen).symm
  next => rfl

/-- Rounding never promises more than there is. -/
theorem quantizeAvailableSat_le (h : 0 ≤ availableSat) :
    quantizeAvailableSat availableSat sigFigs ≤ availableSat := by
  rcases h.eq_or_lt with rfl | hpos
  · rfl
  · rw [quantizeAvailableSat_eq hpos]
    exact roundDown_le (by decide)

/-- The capacity is rounded to the greatest number of so many significant figures below it. -/
theorem roundsDown_quantizeAvailableSat (hs : 1 ≤ sigFigs) :
    RoundsDown {v : ℤ | 0 < v} {n | HasSigFigs 10 sigFigs n}
      (quantizeAvailableSat · sigFigs) := by
  intro v hv
  show IsGreatest _ (quantizeAvailableSat v sigFigs)
  rw [quantizeAvailableSat_eq hv]
  exact roundsDown_roundDown (by decide) hs v hv

theorem quantizeAvailableSat_pos (hs : 1 ≤ sigFigs) (h : 0 < availableSat) :
    0 < quantizeAvailableSat availableSat sigFigs := by
  rw [quantizeAvailableSat_eq h]
  exact roundDown_pos (by decide) hs h

/-! ## Amounts as payers write them -/

/-- The request names this amount, as an integer or in decimal. -/
def AsksFor (req : Request) (amountSat : ℤ) : Prop :=
  amountField req = some (.int amountSat) ∨ amountField req = some (.str (toString amountSat))

/-- The digits of a number are read back as that number. -/
theorem digitsValue_repr (n : ℕ) : digitsValue n.repr = n := by
  rw [digitsValue, Nat.toList_repr]
  calc (Nat.toDigits 10 n).foldl (fun n c => n * 10 + (c.toNat - '0'.toNat)) 0
      = Nat.ofDigitChars 10 (Nat.toDigits 10 n) 0 := by
        simp only [Nat.ofDigitChars_eq_foldl, Nat.mul_comm]
    _ = n := Nat.ofDigitChars_ten_toDigits

/-- No amount up to the total supply is too long to be read. -/
theorem length_repr_le {n : ℕ} (h : (n : ℤ) ≤ maxAmountSat) : n.repr.length ≤ 16 := by
  rw [← String.length_toList, Nat.toList_repr,
    Nat.length_toDigits_le_iff (by decide) (by decide)]
  have hmax : maxAmountSat < 10 ^ 16 := by decide
  zify
  exact h.trans_lt hmax

/-- Every amount in range is understood as it is asked for. -/
theorem AsksFor.requestAmountSat (h : AsksFor req amountSat) (hpos : 0 < amountSat)
    (hmax : amountSat ≤ maxAmountSat) : requestAmountSat req = some amountSat := by
  apply requestAmountSat_eq_some_iff.2
  refine ⟨?_, hpos, hmax⟩
  rcases h with hint | hstr
  · exact .inl hint
  · -- a positive number is written without a sign
    obtain ⟨n, rfl⟩ := Int.eq_ofNat_of_zero_le hpos.le
    right
    refine ⟨n.repr, hstr, ?_, length_repr_le hmax, ?_, ?_⟩
    · exact one_le_length_iff.2 Nat.repr_ne_empty
    · intro c hc
      rw [Nat.toList_repr] at hc
      exact Nat.isDigit_of_mem_toDigits (by decide) (by decide) hc
    · rw [digitsValue_repr]

/-- The advertised range is honoured: once a request was refused with a range, every request for an
amount within it is answered with an invoice, as long as the capacity stays the same. And no
invoice is issued for more than the capacity. -/
theorem advertised_range_honoured (hactive : offer.active = true)
    (htype : offer.priceType = .spontaneous) (hnonneg : 0 ≤ availableSat)
    (hmax : availableSat ≤ maxAmountSat) (hmin : 1 ≤ minSat) :
    (∀ req lo hi,
      resolveRequest req (some offer) availableSat minSat =
          .sendError (invalidAmountPayload lo hi) →
        ∀ amountSat, lo ≤ amountSat → amountSat ≤ hi → ∀ next, AsksFor next amountSat →
          resolveRequest next (some offer) availableSat minSat = .issueInvoice amountSat) ∧
      ∀ req amountSat,
        resolveRequest req (some offer) availableSat minSat = .issueInvoice amountSat →
          1 ≤ amountSat ∧ amountSat ≤ availableSat := by
  constructor
  · intro req lo hi hrefused amountSat hlo hhi next hasks
    -- the range of the error is the minimum and the rounded capacity
    obtain ⟨rfl, rfl⟩ : lo = minSat ∧ hi = quantizeAvailableSat availableSat 2 := by
      rcases payload_of_resolveRequest hrefused with ⟨hinactive, -⟩ | ⟨o, ho, -, hpayload⟩
      · rw [hinactive offer rfl] at hactive
        cases hactive
      · obtain rfl := Option.some.inj ho
        rcases hpayload with ⟨hother, -⟩ | ⟨-, hpayload⟩
        · exact absurd htype hother
        · injection hpayload with _ _ hrange
          exact Prod.mk.inj (Option.some.inj hrange)
    -- and what it promises is within the exact capacity, which the gate compares with
    have hle : amountSat ≤ availableSat := hhi.trans (quantizeAvailableSat_le hnonneg)
    have hpos : 0 < amountSat := hmin.trans hlo
    apply resolveRequest_eq_issueInvoice_iff.2
    exact ⟨⟨offer, rfl, hactive, htype⟩, hasks.requestAmountSat hpos (hle.trans hmax), hlo, hle⟩
  · intro req amountSat hissued
    obtain ⟨-, hamount, -, hle⟩ := resolveRequest_eq_issueInvoice_iff.1 hissued
    exact ⟨(requestAmountSat_bounds hamount).1, hle⟩

/-- With 1234567 sats to receive, an empty request is told of 1200000, and may then ask for them in
decimal. -/
theorem advertised_range_honoured_decimal :
    resolveRequest ∅ (some { offerId := "5f1c" }) 1234567 1 =
        .sendError (invalidAmountPayload 1 1200000) ∧
      resolveRequest ((∅ : Request).set "amount" (.str "1200000")) (some { offerId := "5f1c" })
        1234567 1 = .issueInvoice 1200000 := by
  have hrefused : resolveRequest ∅ (some { offerId := "5f1c" }) 1234567 1 =
      .sendError (invalidAmountPayload 1 1200000) := by decide
  refine ⟨hrefused, ?_⟩
  apply (advertised_range_honoured rfl rfl (by decide) (by decide) (by decide)).1 ∅ 1 1200000
    hrefused 1200000 (by decide) (by decide)
  exact .inr rfl

/-! ## What errors reveal -/

/-- Error replies reveal two figures of the capacity: rounding keeps the leading figures and
nothing else, and two capacities that are rounded alike are refused alike. -/
theorem errors_reveal_two_figures :
    (∀ v : ℤ, 0 < v → ∀ sigFigs, 1 ≤ sigFigs →
      IsGreatest {n | n ≤ v ∧ HasSigFigs 10 sigFigs n} (quantizeAvailableSat v sigFigs) ∧
        quantizeAvailableSat (quantizeAvailableSat v sigFigs) sigFigs =
          quantizeAvailableSat v sigFigs ∧
        ∀ w, v ≤ w → quantizeAvailableSat v sigFigs ≤ quantizeAvailableSat w sigFigs) ∧
      ∀ req offer minSat v w payload payload',
        quantizeAvailableSat v 2 = quantizeAvailableSat w 2 →
          resolveRequest req offer v minSat = .sendError payload →
            resolveRequest req offer w minSat = .sendError payload' → payload = payload' := by
  constructor
  · intro v hv sigFigs hs
    have hround := roundsDown_quantizeAvailableSat hs
    refine ⟨hround v hv, hround.idempotent hv (quantizeAvailableSat_pos hs hv), ?_⟩
    intro w hle
    exact hround.monotoneOn hv (hv.trans_le hle) hle
  · intro req offer minSat v w payload payload' heq hv hw
    -- what the offer is decides which of the errors both runs end with
    rcases payload_of_resolveRequest hv with ⟨hinactive, rfl⟩ | ⟨o, rfl, hactive, hcase⟩
    · rcases payload_of_resolveRequest hw with ⟨-, rfl⟩ | ⟨o, ho, hactive, -⟩
      · rfl
      · rw [hinactive o ho] at hactive
        cases hactive
    · rcases payload_of_resolveRequest hw with ⟨hinactive, -⟩ | ⟨o', ho', -, hcase'⟩
      · rw [hinactive o rfl] at hactive
        cases hactive
      · obtain rfl := Option.some.inj ho'
        rcases hcase with ⟨hother, rfl⟩ | ⟨htype, rfl⟩
        · rcases hcase' with ⟨-, rfl⟩ | ⟨htype, -⟩
          · rfl
          · exact absurd htype hother
        · rcases hcase' with ⟨hother, -⟩ | ⟨-, rfl⟩
          · exact absurd htype hother
          · rw [heq]

/-- With 1234567 and with 1299999 sats to receive, an empty request is refused with one payload. -/
theorem errors_reveal_two_figures_alike :
    resolveRequest ∅ (some { offerId := "5f1c" }) 1234567 1 =
      resolveRequest ∅ (some { offerId := "5f1c" }) 1299999 1 := by
  obtain ⟨payload, hv⟩ : ∃ payload, resolveRequest ∅ (some { offerId := "5f1c" }) 1234567 1 =
      .sendError payload := ⟨_, rfl⟩
  obtain ⟨payload', hw⟩ : ∃ payload', resolveRequest ∅ (some { offerId := "5f1c" }) 1299999 1 =
      .sendError payload' := ⟨_, rfl⟩
  rw [hv, hw, errors_reveal_two_figures.2 _ _ _ _ _ _ _ (by decide) hv hw]

end ElectrumClink
