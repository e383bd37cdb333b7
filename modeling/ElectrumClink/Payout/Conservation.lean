import ElectrumClink.Payout.Steps

/-!
# No fee is lost and none is paid twice

The balance is debited after the payment, two waits after the amount was settled, and fees go on
accruing in between. Nothing else debits it: the lock keeps every other call out. So what the call
inside the lock is about to pay stays covered by the balance and by the daily cap (`FundsInv`), and
`payout_conserves_fees` follows: the balance is what accrued less what was recorded as paid, and
every payment was within the limits when it was made.
-/

namespace ElectrumClink

namespace DevFeeLedger

/-- The amount is worth paying, owed, and left under the daily cap whenever that is read. -/
structure Covers (ledger : DevFeeLedger) (amountSat : ℤ) : Prop where
  enough : minPayoutSat ≤ amountSat
  owed : amountSat ≤ ledger.owedSat
  capped : ∀ t, amountSat + StampedLog.total (InLastDay t) ledger.payments ≤ dailyCapSat

/-- No recorded payout is negative. -/
def PaymentsNonneg (ledger : DevFeeLedger) : Prop := ∀ p ∈ ledger.payments, 0 ≤ p.2

theorem PaymentsNonneg.prune {ledger : DevFeeLedger} (h : ledger.PaymentsNonneg) (now : Time) :
    (ledger.prune now).PaymentsNonneg :=
  fun p hp => h p (List.mem_of_mem_filter hp)

theorem PaymentsNonneg.recordSuccess {ledger : DevFeeLedger} (h : ledger.PaymentsNonneg)
    {amountSat : ℤ} (hamount : 0 ≤ amountSat) (windowNow stampNow attemptNow : Time) :
    (ledger.recordSuccess amountSat windowNow stampNow attemptNow).PaymentsNonneg := by
  rw [recordSuccess_eq]
  intro p hp
  rcases List.mem_append.1 hp with hp | hp
  · exact h.prune windowNow p hp
  · rw [List.mem_singleton.1 hp]
    exact hamount

/-- Forgetting payouts uncovers nothing. -/
theorem Covers.prune {ledger : DevFeeLedger} {amountSat : ℤ} (h : ledger.Covers amountSat)
    (hnonneg : ledger.PaymentsNonneg) (now : Time) : (ledger.prune now).Covers amountSat := by
  refine ⟨h.enough, h.owed, fun t => ?_⟩
  have hle : StampedLog.total (InLastDay t) (ledger.prune now).payments ≤
      StampedLog.total (InLastDay now) ledger.payments :=
    StampedLog.total_filter_le hnonneg
  have hcapped := h.capped now
  omega

/-- A smaller amount that is still worth paying is covered too. -/
theorem Covers.of_le {ledger : DevFeeLedger} {amountSat amountSat' : ℤ}
    (h : ledger.Covers amountSat) (henough : minPayoutSat ≤ amountSat')
    (hle : amountSat' ≤ amountSat) : ledger.Covers amountSat' := by
  refine ⟨henough, hle.trans h.owed, fun t => ?_⟩
  have hcapped := h.capped t
  omega

/-- What the ledger offers to pay, right after it decided for an attempt, is covered: pruning
between the two readings can only have left more room under the cap. -/
theorem covers_payableSat {ledger : DevFeeLedger} (hnonneg : ledger.PaymentsNonneg)
    {windowNow payableNow : Time} (howed : minPayoutSat ≤ ledger.owedSat)
    (hpayable : minPayoutSat ≤ (ledger.payableSat windowNow).1) :
    ((ledger.prune windowNow).prune payableNow).Covers
      ((ledger.prune windowNow).payableSat payableNow).1 := by
  -- at the second reading there is at least as much room as at the first
  have hroom : StampedLog.total (InLastDay payableNow) (ledger.prune windowNow).payments ≤
      StampedLog.total (InLastDay windowNow) ledger.payments :=
    StampedLog.total_filter_le hnonneg
  have hfirst := payableSat_bounds hpayable
  have howed' : (ledger.prune windowNow).owedSat = ledger.owedSat := rfl
  have henough : minPayoutSat ≤ ((ledger.prune windowNow).payableSat payableNow).1 := by
    rw [payableSat_eq, howed']
    omega
  have hsecond := payableSat_bounds henough
  refine ⟨henough, hsecond.1, fun t => ?_⟩
  have hle : StampedLog.total (InLastDay t) ((ledger.prune windowNow).prune payableNow).payments ≤
      StampedLog.total (InLastDay payableNow) (ledger.prune windowNow).payments :=
    StampedLog.total_filter_le (hnonneg.prune windowNow)
  omega

/-- A fee that accrues uncovers nothing. -/
theorem Covers.accrue {ledger : DevFeeLedger} {amountSat : ℤ} (h : ledger.Covers amountSat)
    (enabled : Bool) (ratePercent : ℚ) (receivedSat : ℤ) :
    (ledger.accrue enabled ratePercent receivedSat).2.Covers amountSat := by
  obtain ⟨balance, hle, heq⟩ := ledger.accrue_snd enabled ratePercent receivedSat
  rw [heq]
  have howed : amountSat ≤ ledger.accruedMsat / 1000 := h.owed
  refine ⟨h.enough, ?_, h.capped⟩
  show amountSat ≤ balance / 1000
  omega

/-- A covered payout is debited in full: the clamp at zero does not act. -/
theorem Covers.accruedMsat_recordSuccess {ledger : DevFeeLedger} {amountSat : ℤ}
    (h : ledger.Covers amountSat) (windowNow stampNow attemptNow : Time) :
    (ledger.recordSuccess amountSat windowNow stampNow attemptNow).accruedMsat =
      ledger.accruedMsat - amountSat * 1000 := by
  have howed : amountSat ≤ ledger.accruedMsat / 1000 := h.owed
  rw [recordSuccess_eq]
  exact max_eq_right (by omega)

end DevFeeLedger

/-- What the call inside the lock is about to pay, at most. -/
def PayoutStage.amountSat : PayoutStage → ℤ
  | resolving payable => payable
  | requesting _ amountSat => amountSat
  | paying amountSat => amountSat

/-- The amount is what the endpoint takes. -/
def LnurlPay.Accepts (lnurl : LnurlPay) (amountSat : ℤ) : Prop :=
  lnurl.minSendableSat ≤ amountSat ∧ amountSat ≤ lnurl.maxSendableSat

/-- What is handed to `pay_invoice` is worth paying, and at most what the endpoint takes and what is
owed and left under the cap at the time. -/
def PayCall.WithinLimits (c : PayCall) : Prop :=
  minPayoutSat ≤ c.amountSat ∧ c.lnurl.Accepts c.amountSat ∧ c.amountSat ≤ c.ledger.owedSat ∧
    c.amountSat ≤ (c.ledger.capRemainingSat c.time).1

namespace Treasurer

variable {s s' : Treasurer} {a : Action}

/-- The endpoints that the runs resolve have a minimum no larger than their maximum. -/
def LimitsOrdered (_ : Treasurer) : Action → Prop
  | .resolved (.ok lnurl) _ => lnurl.minSendableSat ≤ lnurl.maxSendableSat
  | _ => True

instance (s : Treasurer) : (a : Action) → Decidable (s.LimitsOrdered a)
  | .resolved (.ok lnurl) _ =>
    inferInstanceAs (Decidable (lnurl.minSendableSat ≤ lnurl.maxSendableSat))
  | .resolved (.error _) _ | .advance _ | .accrue _ | .configure .. | .status .. | .schedule _
  | .openListener | .online | .cancelListener | .acquire .. | .invoiced .. | .settled .. =>
    inferInstanceAs (Decidable True)

/-! ## The money of the call inside the lock -/

/-- The call inside the lock pays no more than the ledger covers. -/
structure FundsInv (s : Treasurer) : Prop where
  nonneg : s.ledger.PaymentsNonneg
  covers : ∀ call stage, s.holder = some ⟨call, stage⟩ → s.ledger.Covers stage.amountSat

/-- Pruning at any moments keeps what the ledger covers. -/
theorem FundsInv.foldl_prune (h : FundsInv s) (times : List Time) :
    (times.foldl DevFeeLedger.prune s.ledger).PaymentsNonneg ∧
      ∀ call stage, s.holder = some ⟨call, stage⟩ →
        (times.foldl DevFeeLedger.prune s.ledger).Covers stage.amountSat := by
  obtain ⟨hnonneg, hcovers⟩ := h
  generalize s.ledger = ledger at hnonneg hcovers
  induction times generalizing ledger with
  | nil => exact ⟨hnonneg, hcovers⟩
  | cons now times ih =>
    exact ih (ledger.prune now) (hnonneg.prune now) fun call stage hholder =>
      (hcovers call stage hholder).prune hnonneg now

theorem fundsInv_step (hinv : FundsInv s) (h : s.step a = some s') : FundsInv s' := by
  have heffect := step_effect h
  have hnonneg := hinv.nonneg
  generalize hledger : s'.ledger = ledger at heffect
  generalize hholder : s'.holder = holder at heffect
  generalize s'.log = log at heffect
  suffices hsuff : ledger.PaymentsNonneg ∧
      ∀ call stage, holder = some ⟨call, stage⟩ → ledger.Covers stage.amountSat by
    exact ⟨hledger ▸ hsuff.1, hledger ▸ hholder ▸ hsuff.2⟩
  cases heffect with
  | quiet times htimes _ hsame =>
    obtain ⟨hprune, hcovers⟩ := hinv.foldl_prune times
    refine ⟨hprune, ?_⟩
    rcases hsame with rfl | rfl
    · exact hcovers
    · simp
  | accrued enabled ratePercent receivedSat =>
    obtain ⟨balance, -, hpayments⟩ := s.ledger.accrue_snd enabled ratePercent receivedSat
    refine ⟨by rw [hpayments]; exact hnonneg, fun call stage hbefore => ?_⟩
    exact (hinv.covers call stage hbefore).accrue enabled ratePercent receivedSat
  | decided call dueNow windowNow payableNow _ _ howed hpayable _ =>
    refine ⟨(hnonneg.prune windowNow).prune payableNow, ?_⟩
    rintro _ _ ⟨⟩
    exact DevFeeLedger.covers_payableSat hnonneg howed hpayable
  | sized call payable lnurl now _ hbefore _ hmax =>
    refine ⟨hnonneg, ?_⟩
    rintro _ _ ⟨⟩
    have hcovers := hinv.covers call _ hbefore
    exact hcovers.of_le (le_min hcovers.enough hmax) (min_le_left _ _)
  | called call lnurl amountSat now _ hbefore =>
    refine ⟨hnonneg, ?_⟩
    rintro _ _ ⟨⟩
    -- the amount is the one the invoice was requested for
    have hcovers : s.ledger.Covers amountSat := hinv.covers call _ hbefore
    exact hcovers
  | failed call stage now _ hbefore results => exact ⟨hnonneg, by simp⟩
  | paid call amountSat windowNow stampNow attemptNow _ hbefore results =>
    have hcovers : s.ledger.Covers amountSat := hinv.covers call _ hbefore
    have hamount : 0 ≤ amountSat := le_trans (by decide) hcovers.enough
    exact ⟨hnonneg.recordSuccess hamount _ _ _, by simp⟩

/-! ## The balance -/

/-- What a balance of `opening` has become: fees were added and recorded payouts taken off. -/
structure Balanced (opening : ℤ) (s : Treasurer) : Prop where
  nonneg : 0 ≤ s.ledger.accruedMsat
  balance : s.ledger.accruedMsat =
    opening + s.log.feesMsat.sum - 1000 * (s.log.payouts.map Prod.snd).sum

theorem accruedMsat_foldl_prune (ledger : DevFeeLedger) (times : List Time) :
    (times.foldl DevFeeLedger.prune ledger).accruedMsat = ledger.accruedMsat := by
  induction times generalizing ledger with
  | nil => rfl
  | cons now times ih => exact ih (ledger.prune now)

theorem balanced_step {opening : ℤ} (hinv : FundsInv s) (hbalanced : s.Balanced opening)
    (h : s.step a = some s') : s'.Balanced opening := by
  have heffect := step_effect h
  obtain ⟨hnonneg, hbalance⟩ := hbalanced
  generalize hledger : s'.ledger = ledger at heffect
  generalize s'.holder = holder at heffect
  generalize hlog : s'.log = log at heffect
  suffices hsuff : 0 ≤ ledger.accruedMsat ∧ ledger.accruedMsat =
      opening + log.feesMsat.sum - 1000 * (log.payouts.map Prod.snd).sum by
    exact ⟨hledger ▸ hsuff.1, hledger ▸ hlog ▸ hsuff.2⟩
  cases heffect with
  | quiet times =>
    rw [accruedMsat_foldl_prune]
    exact ⟨hnonneg, hbalance⟩
  | accrued enabled ratePercent receivedSat =>
    obtain ⟨hfee, haccrue⟩ := s.ledger.accrue_eq enabled ratePercent receivedSat hnonneg
    rw [haccrue, List.sum_append, List.sum_singleton]
    exact ⟨add_nonneg hnonneg hfee, by linarith⟩
  | decided | sized | called | failed => exact ⟨hnonneg, hbalance⟩
  | paid call amountSat windowNow stampNow attemptNow _ hbefore results =>
    have hcovers : s.ledger.Covers amountSat := hinv.covers call _ hbefore
    -- what was owed when the amount was settled is still owed: fees only add to it
    have howed : amountSat ≤ s.ledger.accruedMsat / 1000 := hcovers.owed
    rw [hcovers.accruedMsat_recordSuccess, List.map_append, List.sum_append, List.map_singleton,
      List.sum_singleton]
    exact ⟨by omega, by linarith⟩

/-! ## The limits of a payment -/

/-- The amount that was settled suits the endpoint, and so did every payment. -/
structure LimitsInv (s : Treasurer) : Prop where
  settled : ∀ call lnurl amountSat, s.holder = some ⟨call, .requesting lnurl amountSat⟩ →
    lnurl.Accepts amountSat
  paid : ∀ c ∈ s.log.payCalls, c.WithinLimits

theorem limitsInv_step (hfunds : FundsInv s) (hinv : LimitsInv s) (hlimits : s.LimitsOrdered a)
    (h : s.step a = some s') : LimitsInv s' := by
  have heffect := step_effect h
  obtain ⟨hsettled, hpaid⟩ := hinv
  generalize hledger : s'.ledger = ledger at heffect
  generalize hholder : s'.holder = holder at heffect
  generalize hlog : s'.log = log at heffect
  suffices hsuff : (∀ call lnurl amountSat, holder = some ⟨call, .requesting lnurl amountSat⟩ →
      lnurl.Accepts amountSat) ∧ ∀ c ∈ log.payCalls, c.WithinLimits by
    exact ⟨hholder ▸ hsuff.1, hlog ▸ hsuff.2⟩
  cases heffect with
  | quiet times htimes _ hsame =>
    refine ⟨?_, hpaid⟩
    rcases hsame with rfl | rfl
    · exact hsettled
    · simp
  | accrued => exact ⟨hsettled, hpaid⟩
  | decided | failed => exact ⟨by simp, hpaid⟩
  | sized call payable lnurl now haction hbefore hmin =>
    subst haction
    refine ⟨?_, hpaid⟩
    rintro _ _ _ ⟨⟩
    -- the amount is the smaller of two numbers that are at least the minimum
    exact ⟨le_min hmin hlimits, min_le_right _ _⟩
  | called call lnurl amountSat now _ hbefore =>
    refine ⟨by simp, ?_⟩
    intro c hc
    rcases List.mem_append.1 hc with hc | hc
    · exact hpaid c hc
    · rw [List.mem_singleton.1 hc]
      have hcovers : s.ledger.Covers amountSat := hfunds.covers call _ hbefore
      refine ⟨hcovers.enough, hsettled call lnurl amountSat hbefore, hcovers.owed, ?_⟩
      -- the cap leaves room for the amount, at whatever moment it is read
      have hcapped := hcovers.capped now
      show amountSat ≤ (s.ledger.capRemainingSat now).1
      rw [DevFeeLedger.capRemainingSat_eq]
      exact le_max_of_le_right (by omega)
  | paid => exact ⟨by simp, hpaid⟩

/-! ## Whole runs -/

theorem fundsInv_start {now : Time} {ledger : DevFeeLedger} {enabled : Bool} {ratePercent : ℚ}
    {dest : String} (h : ledger.PaymentsNonneg) :
    FundsInv (start now ledger enabled ratePercent dest) :=
  ⟨h, by simp [start]⟩

/-- In every run, whatever the order in which calls, fees, settings and cancellations come: the
balance is what it was, plus the fees that accrued, less what was recorded as paid; and every
payment was worth making, suited the endpoint, and was no more than was owed and left under the
daily cap when `pay_invoice` was called. -/
theorem payout_conserves_balance {now : Time} {ledger : DevFeeLedger} {enabled : Bool}
    {ratePercent : ℚ} {dest : String} {s : Treasurer} (hnonneg : 0 ≤ ledger.accruedMsat)
    (hpayments : ledger.PaymentsNonneg)
    (h : Reachable LimitsOrdered (start now ledger enabled ratePercent dest) s) :
    s.ledger.accruedMsat = ledger.accruedMsat + s.log.feesMsat.sum -
        1000 * (s.log.payouts.map Prod.snd).sum ∧
      ∀ c ∈ s.log.payCalls, minPayoutSat ≤ c.amountSat ∧
        c.lnurl.minSendableSat ≤ c.amountSat ∧ c.amountSat ≤ c.lnurl.maxSendableSat ∧
        c.amountSat ≤ c.ledger.owedSat ∧ c.amountSat ≤ (c.ledger.capRemainingSat c.time).1 := by
  have hinv : FundsInv s ∧ s.Balanced ledger.accruedMsat ∧ LimitsInv s := by
    -- the three invariants go together: the steps of the last two use the first
    refine h.invariant (I := fun s => FundsInv s ∧ s.Balanced ledger.accruedMsat ∧ LimitsInv s)
      ⟨fundsInv_start hpayments, ⟨hnonneg, by simp [start]⟩, ?_⟩ ?_
    · exact ⟨by simp [start], by simp [start]⟩
    · rintro s a t ⟨hfunds, hbalanced, hlimits⟩ hordered hstep
      exact ⟨fundsInv_step hfunds hstep, balanced_step hfunds hbalanced hstep,
        limitsInv_step hfunds hlimits hordered hstep⟩
  obtain ⟨-, hbalanced, hlimits⟩ := hinv
  refine ⟨hbalanced.balance, fun c hc => ?_⟩
  obtain ⟨henough, haccepts, howed, hcapped⟩ := hlimits.paid c hc
  exact ⟨henough, haccepts.1, haccepts.2, howed, hcapped⟩

/-- A payout of 3000 sat, during which twice 500 sat accrue. -/
theorem payout_conserves_balance_one_payout :
    ∃ s, Reachable LimitsOrdered (start 0 ⟨4500000, 0, [], ∅⟩ true 1 "dev@example.com") s ∧
      s.log.payouts = [(100000, 3000)] ∧
      s.ledger.accruedMsat = 4500000 + s.log.feesMsat.sum -
        1000 * (s.log.payouts.map Prod.snd).sum := by
  have hrun : (Transition.exec (Transition.guarded step LimitsOrdered)
      (start 0 ⟨4500000, 0, [], ∅⟩ true 1 "dev@example.com") (onePayout false 3000 100000)).any
        (fun s => decide (s.log.payouts = [(100000, 3000)])) = true := by
    decide +kernel
  obtain ⟨s, hreach, hpayouts⟩ := Transition.exists_reachable_of_exec_guarded hrun
  exact ⟨s, hreach, of_decide_eq_true hpayouts,
    (payout_conserves_balance (by decide) (by simp [DevFeeLedger.PaymentsNonneg]) hreach).1⟩

end Treasurer

end ElectrumClink
