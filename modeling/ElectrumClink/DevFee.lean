import ElectrumClink.Basic
import ElectrumClink.Data.Dict
import ElectrumClink.Data.StableSort
import ElectrumClink.Data.StampedLog

/-!
# Dev-fee accounting

The ledger remembers the payment hash of every invoice the plugin issues, with the whole second it
was issued in. When a remembered hash is reported paid it is consumed, and a fraction of the
received amount accrues in millisats. The map of unpaid hashes is bounded: the oldest go first.

What has accrued is paid out in whole sats: not before a minimum is owed, at most so much in a day,
and at most one attempt in a day. A function that reads the clock several times takes one moment for
each reading, in the order of the readings.

* `mem_markIssued_self_iff` says when the bound drops the very hash that was just marked.
* `Orderly.entries_markIssued` says which hashes it drops while the clock does not go back.
* `shouldAttempt_eq_true` is what the ledger has checked before a payout is attempted.
* `paidLast24hSat_eq` reads what was paid in a day off the log of payouts.
-/

namespace ElectrumClink

/-- Don't bother paying out until at least this much has accrued. -/
def minPayoutSat : ℤ := 1000

/-- Never forward more than this within any rolling 24h window. -/
def dailyCapSat : ℤ := 10000

/-- At most one payout attempt per this interval. -/
def attemptIntervalSec : ℤ := 24 * 60 * 60

/-- Bound on remembered unpaid invoice hashes. -/
def pendingMax : ℕ := 1000

/-- The persisted dev-fee state. -/
structure DevFeeLedger where
  accruedMsat : ℤ
  lastAttemptTs : ℤ
  /-- Recorded payouts, `[ts, amount_sat]`. -/
  payments : List (ℤ × ℤ)
  /-- Clink-issued, unpaid invoice hashes with the second each was issued in. -/
  pending : Dict PaymentHash ℤ

namespace DevFeeLedger

/-- The ledger over an empty storage. -/
def empty : DevFeeLedger := ⟨0, 0, [], ∅⟩

/-- Store the accrued balance, clamped at zero. -/
def setAccruedMsat (ledger : DevFeeLedger) (value : ℤ) : DevFeeLedger :=
  { ledger with accruedMsat := max 0 value }

/-- Whole sats currently owed; the fractional remainder stays accrued. -/
def owedSat (ledger : DevFeeLedger) : ℤ := ledger.accruedMsat / 1000

/-- Add an inbound payment's share to the balance. Returns the msat added. The product is exact;
that of floats may be rounded to the other side of an integer, and the share be off by one msat. -/
def accrue (ledger : DevFeeLedger) (enabled : Bool) (ratePercent : ℚ) (receivedSat : ℤ) :
    ℤ × DevFeeLedger :=
  if !enabled || decide (receivedSat ≤ 0) then (0, ledger)
  -- a rate of zero or less switches the fee off as well
  else if ratePercent ≤ 0 then (0, ledger)
  else
    let feeMsat := wholeSeconds (receivedSat * 1000 * ratePercent / 100)
    if feeMsat ≤ 0 then (0, ledger)
    else (feeMsat, ledger.setAccruedMsat (ledger.accruedMsat + feeMsat))

/-- Remember the hash of an issued invoice, evicting the oldest hashes over the bound. -/
def markIssued (ledger : DevFeeLedger) (now : Time) (rhash : PaymentHash) : DevFeeLedger :=
  let pending := ledger.pending.set rhash (wholeSeconds now)
  -- `sorted` is stable: among equal stamps the hash that was inserted first goes first
  let old :=
    if pending.size > pendingMax then
      (pending.entries.oldest Prod.snd (pending.size - pendingMax)).map Prod.fst
    else []
  { ledger with pending := pending.eraseAll old }

/-- Consume a remembered hash; `true` iff it was ours. -/
def takeIssued (ledger : DevFeeLedger) (rhash : PaymentHash) : Bool × DevFeeLedger :=
  if rhash ∈ ledger.pending then
    (true, { ledger with pending := ledger.pending.erase rhash })
  else (false, ledger)

/-! ## The payout policy -/

/-- Recorded payouts within the last 24h, pruned of older entries. -/
def paymentsWindow (ledger : DevFeeLedger) (now : Time) : List (ℤ × ℤ) × DevFeeLedger :=
  let window := ledger.payments.filter fun p => now - p.1 < attemptIntervalSec
  -- every reading of the window forgets the older payouts for good
  (window, if window ≠ ledger.payments then { ledger with payments := window } else ledger)

def paidLast24hSat (ledger : DevFeeLedger) (now : Time) : ℤ × DevFeeLedger :=
  let (window, ledger) := ledger.paymentsWindow now
  ((window.map Prod.snd).sum, ledger)

def capRemainingSat (ledger : DevFeeLedger) (now : Time) : ℤ × DevFeeLedger :=
  let (paid, ledger) := ledger.paidLast24hSat now
  (max 0 (dailyCapSat - paid), ledger)

/-- How much we'd send right now: owed, clamped to the 24h cap. -/
def payableSat (ledger : DevFeeLedger) (now : Time) : ℤ × DevFeeLedger :=
  let (capRemaining, ledger') := ledger.capRemainingSat now
  (max 0 (min ledger.owedSat capRemaining), ledger')

/-- True once the once-per-24h attempt gate has elapsed. -/
def attemptDue (ledger : DevFeeLedger) (now : Time) : Bool :=
  decide ((ledger.lastAttemptTs + attemptIntervalSec : ℤ) ≤ now)

/-- Whether a payout attempt should be made now. `ignoreInterval` skips only the gate. -/
def shouldAttempt (ledger : DevFeeLedger) (enabled ignoreInterval : Bool)
    (dueNow windowNow : Time) : Bool × DevFeeLedger :=
  if !enabled then (false, ledger)
  else if ledger.owedSat < minPayoutSat then (false, ledger)
  else if !ignoreInterval && !ledger.attemptDue dueNow then (false, ledger)
  else
    let (payable, ledger) := ledger.payableSat windowNow
    (decide (payable ≥ minPayoutSat), ledger)

/-- A payout cleared: debit it and stamp the window. -/
def recordSuccess (ledger : DevFeeLedger) (amountSat : ℤ) (windowNow stampNow attemptNow : Time) :
    DevFeeLedger :=
  let ledger := ledger.setAccruedMsat (ledger.accruedMsat - amountSat * 1000)
  let (window, ledger) := ledger.paymentsWindow windowNow
  let ledger := { ledger with payments := window ++ [(wholeSeconds stampNow, amountSat)] }
  { ledger with lastAttemptTs := wholeSeconds attemptNow }

/-- A payout attempt failed: stamp the clock so we wait a full day. -/
def recordFailure (ledger : DevFeeLedger) (now : Time) : DevFeeLedger :=
  { ledger with lastAttemptTs := wholeSeconds now }

/-- What `status` reports. -/
structure Status where
  enabled : Bool
  ratePercent : ℚ
  owedSat : ℤ
  accruedMsat : ℤ
  paidLast24hSat : ℤ
  capRemainingSat : ℤ
  lastAttemptTs : ℤ
  attemptDue : Bool
  pendingInvoices : ℕ

/-- The ledger for display. -/
def status (ledger : DevFeeLedger) (enabled : Bool) (ratePercent : ℚ)
    (paidNow capNow dueNow : Time) : Status × DevFeeLedger :=
  let (paid, ledger₁) := ledger.paidLast24hSat paidNow
  let (capRemaining, ledger₂) := ledger₁.capRemainingSat capNow
  (⟨enabled, ratePercent, ledger.owedSat, ledger.accruedMsat, paid, capRemaining,
    ledger₂.lastAttemptTs, ledger₂.attemptDue dueNow, ledger₂.pending.size⟩, ledger₂)

/-- The stamp lies less than a day before `now`. -/
def InLastDay (now : Time) (stamp : ℤ) : Prop := now - stamp < attemptIntervalSec

instance (now : Time) : DecidablePred (InLastDay now) := fun stamp =>
  inferInstanceAs (Decidable (now - stamp < attemptIntervalSec))

/-- The ledger without the payouts that are a day old. -/
def prune (ledger : DevFeeLedger) (now : Time) : DevFeeLedger :=
  { ledger with payments := ledger.payments.filter fun p => InLastDay now p.1 }

theorem paymentsWindow_eq (ledger : DevFeeLedger) (now : Time) :
    ledger.paymentsWindow now = ((ledger.prune now).payments, ledger.prune now) := by
  have hwindow : (ledger.payments.filter fun p => now - p.1 < attemptIntervalSec) =
      (ledger.prune now).payments := rfl
  unfold paymentsWindow
  simp only [hwindow]
  split
  next => rfl
  next h =>
    -- nothing was old: storing the window would change nothing
    have hsame : ledger.prune now = ledger := by
      rw [not_not] at h
      show { ledger with payments := (ledger.prune now).payments } = ledger
      rw [h]
    rw [hsame]

/-- What was paid in the last day is read off the log of payouts. -/
theorem paidLast24hSat_eq (ledger : DevFeeLedger) (now : Time) :
    ledger.paidLast24hSat now =
      (StampedLog.total (InLastDay now) ledger.payments, ledger.prune now) := by
  unfold paidLast24hSat
  rw [paymentsWindow_eq]
  rfl

theorem capRemainingSat_eq (ledger : DevFeeLedger) (now : Time) :
    ledger.capRemainingSat now =
      (max 0 (dailyCapSat - StampedLog.total (InLastDay now) ledger.payments),
        ledger.prune now) := by
  unfold capRemainingSat
  rw [paidLast24hSat_eq]

theorem payableSat_eq (ledger : DevFeeLedger) (now : Time) :
    ledger.payableSat now =
      (max 0 (min ledger.owedSat
        (max 0 (dailyCapSat - StampedLog.total (InLastDay now) ledger.payments))),
        ledger.prune now) := by
  unfold payableSat
  rw [capRemainingSat_eq]

/-- A payable amount above zero is owed, and left under the cap. -/
theorem payableSat_bounds {ledger : DevFeeLedger} {now : Time}
    (h : minPayoutSat ≤ (ledger.payableSat now).1) :
    (ledger.payableSat now).1 ≤ ledger.owedSat ∧ (ledger.payableSat now).1 +
      StampedLog.total (InLastDay now) ledger.payments ≤ dailyCapSat := by
  rw [payableSat_eq] at h ⊢
  simp only [minPayoutSat] at h
  constructor <;> omega

/-- An attempt is made only when the fee is on, the minimum is owed and left under the cap, and, for
an attempt that was not forced, the last one is a day old. -/
theorem shouldAttempt_eq_true {ledger ledger' : DevFeeLedger} {enabled ignoreInterval : Bool}
    {dueNow windowNow : Time}
    (h : ledger.shouldAttempt enabled ignoreInterval dueNow windowNow = (true, ledger')) :
    ledger' = ledger.prune windowNow ∧ minPayoutSat ≤ ledger.owedSat ∧
      minPayoutSat ≤ (ledger.payableSat windowNow).1 ∧
      (ignoreInterval = true ∨ ledger.attemptDue dueNow = true) := by
  unfold shouldAttempt at h
  split at h
  next => simp at h
  next =>
    split at h
    next => simp at h
    next howed =>
      split at h
      next => simp at h
      next hdue =>
        have hsnd : (ledger.payableSat windowNow).2 = ledger.prune windowNow := by
          rw [payableSat_eq]
        simp only [Prod.mk.injEq, decide_eq_true_eq, ge_iff_le] at h
        refine ⟨by rw [← h.2, hsnd], not_lt.1 howed, h.1, ?_⟩
        cases ignoreInterval
        · exact .inr (by simpa using hdue)
        · exact .inl rfl

/-- Deciding about an attempt changes nothing but the old payouts. -/
theorem shouldAttempt_snd (ledger : DevFeeLedger) (enabled ignoreInterval : Bool)
    (dueNow windowNow : Time) :
    (ledger.shouldAttempt enabled ignoreInterval dueNow windowNow).2 = ledger ∨
      (ledger.shouldAttempt enabled ignoreInterval dueNow windowNow).2 =
        ledger.prune windowNow := by
  unfold shouldAttempt
  split
  next => exact .inl rfl
  next =>
    split
    next => exact .inl rfl
    next =>
      split
      next => exact .inl rfl
      next =>
        right
        show (ledger.payableSat windowNow).2 = ledger.prune windowNow
        rw [payableSat_eq]

theorem recordSuccess_eq (ledger : DevFeeLedger) (amountSat : ℤ)
    (windowNow stampNow attemptNow : Time) :
    ledger.recordSuccess amountSat windowNow stampNow attemptNow =
      { ledger with
        accruedMsat := max 0 (ledger.accruedMsat - amountSat * 1000)
        payments := (ledger.prune windowNow).payments ++ [(wholeSeconds stampNow, amountSat)]
        lastAttemptTs := wholeSeconds attemptNow } := by
  unfold recordSuccess
  simp only [paymentsWindow_eq]
  rfl

/-- Reading the status changes nothing but the old payouts. -/
theorem status_snd (ledger : DevFeeLedger) (enabled : Bool) (ratePercent : ℚ)
    (paidNow capNow dueNow : Time) :
    (ledger.status enabled ratePercent paidNow capNow dueNow).2 =
      (ledger.prune paidNow).prune capNow := by
  unfold status
  simp only [paidLast24hSat_eq, capRemainingSat_eq]

/-- What accrues is what `accrue` returns, and nothing else of the ledger changes. -/
theorem accrue_eq (ledger : DevFeeLedger) (enabled : Bool) (ratePercent : ℚ) (receivedSat : ℤ)
    (hnonneg : 0 ≤ ledger.accruedMsat) :
    0 ≤ (ledger.accrue enabled ratePercent receivedSat).1 ∧
      (ledger.accrue enabled ratePercent receivedSat).2 =
        { ledger with accruedMsat :=
            ledger.accruedMsat + (ledger.accrue enabled ratePercent receivedSat).1 } := by
  unfold accrue
  split
  next => exact ⟨le_rfl, by simp⟩
  next =>
    split
    next => exact ⟨le_rfl, by simp⟩
    next =>
      simp only
      split
      next => exact ⟨le_rfl, by simp⟩
      next hfee =>
        rw [not_le] at hfee
        refine ⟨hfee.le, ?_⟩
        -- the clamp at zero does not act on a sum of a balance and a fee
        rw [setAccruedMsat, max_eq_right (by omega)]

/-- Accruing raises the balance, if it changes anything at all. -/
theorem accrue_snd (ledger : DevFeeLedger) (enabled : Bool) (ratePercent : ℚ) (receivedSat : ℤ) :
    ∃ balance, ledger.accruedMsat ≤ balance ∧
      (ledger.accrue enabled ratePercent receivedSat).2 =
        { ledger with accruedMsat := balance } := by
  unfold accrue
  split
  next => exact ⟨_, le_rfl, rfl⟩
  next =>
    split
    next => exact ⟨_, le_rfl, rfl⟩
    next =>
      simp only
      split
      next => exact ⟨_, le_rfl, rfl⟩
      next hfee =>
        rw [not_le] at hfee
        exact ⟨_, le_max_of_le_right (by omega), rfl⟩

/-! ## Which hashes stay remembered -/

/-- The hashes issued no later than `now`, whole seconds compared. -/
def issuedBy (ledger : DevFeeLedger) (now : Time) : ℕ :=
  ledger.pending.entries.countP fun e => e.2 ≤ wholeSeconds now

/-- The bound drops the hash that was just marked exactly when the overflow reaches past every
hash issued no later. -/
theorem mem_markIssued_self_iff (ledger : DevFeeLedger) (now : Time) {rhash : PaymentHash}
    (hfresh : rhash ∉ ledger.pending) :
    rhash ∈ (ledger.markIssued now rhash).pending ↔
      ledger.pending.size + 1 ≤ ledger.issuedBy now + pendingMax := by
  have hnot : ∀ ts, (rhash, ts) ∉ ledger.pending.entries := fun ts h =>
    hfresh (Dict.mem_of_mem_entries h)
  -- the new hash is the last entry, so it is evicted only after every stamp up to its own
  have hevicted : rhash ∈ ((ledger.pending.entries ++ [(rhash, wholeSeconds now)]).oldest
        Prod.snd (ledger.pending.size + 1 - pendingMax)).map Prod.fst ↔
      ledger.issuedBy now < ledger.pending.size + 1 - pendingMax := by
    rw [List.mem_map_fst_oldest_append_singleton hnot]
    rfl
  simp only [markIssued, Dict.size_set_of_notMem hfresh, Dict.entries_set_of_notMem hfresh,
    Dict.mem_eraseAll, Dict.mem_set, true_or, true_and]
  split
  next =>
    rw [hevicted]
    omega
  next =>
    simp only [List.not_mem_nil, not_false_eq_true, true_iff]
    omega

/-! ## The order of the remembered hashes -/

/-- The remembered hashes stand in the order they were issued in, not later than `now`, and there
are not too many of them. -/
structure Orderly (ledger : DevFeeLedger) (now : Time) : Prop where
  sorted : ledger.pending.entries.Pairwise fun a b => a.2 ≤ b.2
  stamped : ∀ e ∈ ledger.pending.entries, e.2 ≤ wholeSeconds now
  bounded : ledger.pending.size ≤ pendingMax

theorem orderly_of_pending_eq_empty {ledger : DevFeeLedger} (h : ledger.pending = ∅) (now : Time) :
    ledger.Orderly now := by
  constructor <;> simp [h]

theorem Orderly.mono {ledger : DevFeeLedger} {now now' : Time} (h : ledger.Orderly now)
    (hnow : now ≤ now') : ledger.Orderly now' :=
  ⟨h.sorted, fun e he => (h.stamped e he).trans (wholeSeconds_mono hnow), h.bounded⟩

/-- Forgetting hashes disturbs no order. -/
theorem Orderly.sublist {ledger ledger' : DevFeeLedger} {now : Time} (h : ledger.Orderly now)
    (hsub : ledger'.pending.entries.Sublist ledger.pending.entries) : ledger'.Orderly now :=
  ⟨h.sorted.sublist hsub, fun e he => h.stamped e (hsub.subset he),
    hsub.length_le.trans h.bounded⟩

/-- A hash that is issued now comes last. -/
theorem Orderly.pairwise_append {ledger : DevFeeLedger} {now : Time} (h : ledger.Orderly now)
    (rhash : PaymentHash) :
    (ledger.pending.entries ++ [(rhash, wholeSeconds now)]).Pairwise fun a b => a.2 ≤ b.2 := by
  rw [List.pairwise_append]
  refine ⟨h.sorted, List.pairwise_singleton _ _, fun a ha b hb => ?_⟩
  rw [List.mem_singleton.1 hb]
  exact h.stamped a ha

/-- As long as the clock does not go back, the bound drops the hashes that were issued first. -/
theorem Orderly.entries_markIssued {ledger : DevFeeLedger} {now : Time} (h : ledger.Orderly now)
    {rhash : PaymentHash} (hfresh : rhash ∉ ledger.pending) :
    (ledger.markIssued now rhash).pending.entries =
      (ledger.pending.entries ++ [(rhash, wholeSeconds now)]).drop
        (ledger.pending.size + 1 - pendingMax) := by
  have hentries := Dict.entries_set_of_notMem hfresh (wholeSeconds now)
  have hsorted : (ledger.pending.set rhash (wholeSeconds now)).entries.Pairwise
      fun a b => a.2 ≤ b.2 := hentries ▸ h.pairwise_append rhash
  rw [← hentries]
  simp only [markIssued, Dict.size_set_of_notMem hfresh]
  split
  next => rw [List.oldest_of_pairwise hsorted, Dict.entries_eraseAll_take]
  next hle => rw [Nat.sub_eq_zero_of_le (not_lt.1 hle), List.drop_zero]; rfl

theorem Orderly.markIssued {ledger : DevFeeLedger} {now : Time} (h : ledger.Orderly now)
    {rhash : PaymentHash} (hfresh : rhash ∉ ledger.pending) :
    (ledger.markIssued now rhash).Orderly now := by
  have hentries := h.entries_markIssued hfresh
  constructor
  · rw [hentries]
    exact (h.pairwise_append rhash).sublist (List.drop_sublist _ _)
  · intro e he
    rw [hentries] at he
    rcases List.mem_append.1 (List.mem_of_mem_drop he) with he | he
    · exact h.stamped e he
    · rw [List.mem_singleton.1 he]
  · rw [Dict.size, hentries, List.length_drop, List.length_append, List.length_singleton]
    have hbounded := h.bounded
    unfold Dict.size at hbounded ⊢
    omega

end DevFeeLedger

end ElectrumClink
