import ElectrumClink.Payout.Model

/-!
# What a step of the payout does

`Effect` lists what one action makes of the ledger, the lock and the log, and `step_effect` finds
every step in the list. The invariants of the payout are proved from it, without a second look at
the definitions of the actions.
-/

namespace ElectrumClink

namespace Treasurer

variable {s s' : Treasurer} {a : Action}

/-- What one action makes of the ledger, the lock and the log. -/
inductive Effect (s : Treasurer) (a : Action) :
    DevFeeLedger → Option PayoutHolder → PayoutLog → Prop
  /-- Old payouts are forgotten, and the call inside the lock may leave without an outcome. -/
  | quiet (times : List Time) (htimes : times ⊆ a.readings) (holder : Option PayoutHolder)
      (hholder : holder = s.holder ∨ holder = none)
      (hleft : holder = s.holder ∨ (∃ call payable, s.holder = some ⟨call, .resolving payable⟩) ∨
        a = .cancelListener ∧ ∃ call stage, s.holder = some ⟨call, stage⟩ ∧ call.grouped = true)
      (results : List PayoutResult) :
      Effect s a (times.foldl DevFeeLedger.prune s.ledger) holder { s.log with results := results }
  /-- A fee accrues. -/
  | accrued (enabled : Bool) (ratePercent : ℚ) (receivedSat : ℤ) :
      Effect s a (s.ledger.accrue enabled ratePercent receivedSat).2 s.holder
        { s.log with feesMsat :=
            s.log.feesMsat ++ [(s.ledger.accrue enabled ratePercent receivedSat).1] }
  /-- A call acquires the lock and decides to pay. -/
  | decided (call : PayoutCall) (dueNow windowNow payableNow : Time)
      (hreadings : a.readings = [dueNow, windowNow, payableNow]) (hfree : s.holder = none)
      (howed : minPayoutSat ≤ s.ledger.owedSat)
      (hpayable : minPayoutSat ≤ (s.ledger.payableSat windowNow).1)
      (hdue : call.force = true ∨ s.ledger.attemptDue dueNow = true) :
      Effect s a ((s.ledger.prune windowNow).prune payableNow)
        (some ⟨call, .resolving ((s.ledger.prune windowNow).payableSat payableNow).1⟩) s.log
  /-- The endpoint's limits settle the amount. -/
  | sized (call : PayoutCall) (payable : ℤ) (lnurl : LnurlPay) (now : Time)
      (haction : a = .resolved (.ok lnurl) now)
      (hbefore : s.holder = some ⟨call, .resolving payable⟩)
      (hmin : lnurl.minSendableSat ≤ payable) (hmax : minPayoutSat ≤ lnurl.maxSendableSat) :
      Effect s a s.ledger
        (some ⟨call, .requesting lnurl (min payable lnurl.maxSendableSat)⟩) s.log
  /-- `pay_invoice` is called. -/
  | called (call : PayoutCall) (lnurl : LnurlPay) (amountSat : ℤ) (now : Time)
      (hreadings : a.readings = [now])
      (hbefore : s.holder = some ⟨call, .requesting lnurl amountSat⟩) :
      Effect s a s.ledger (some ⟨call, .paying amountSat⟩)
        { s.log with
          payCalls := s.log.payCalls ++ [⟨now, call, amountSat, lnurl, s.ledger⟩] }
  /-- The attempt failed. -/
  | failed (call : PayoutCall) (stage : PayoutStage) (now : Time)
      (hnow : a.readings.getLastD s.now = now)
      (hpaying : ∀ amountSat, stage = .paying amountSat → ∃ answer windowNow stampNow,
        a = .settled answer windowNow stampNow now)
      (hbefore : s.holder = some ⟨call, stage⟩) (results : List PayoutResult) :
      Effect s a (s.ledger.recordFailure now) none { s.log with results := results }
  /-- The payment cleared. -/
  | paid (call : PayoutCall) (amountSat : ℤ) (windowNow stampNow attemptNow : Time)
      (haction : a = .settled (.ok true) windowNow stampNow attemptNow)
      (hbefore : s.holder = some ⟨call, .paying amountSat⟩) (results : List PayoutResult) :
      Effect s a (s.ledger.recordSuccess amountSat windowNow stampNow attemptNow) none
        { s.log with
          payouts := s.log.payouts ++ [(wholeSeconds stampNow, amountSat)]
          results := results }

/-- A call that leaves without an outcome. -/
theorem Effect.leave (times : List Time) (htimes : times ⊆ a.readings)
    (hleft : s.holder = none ∨ ∃ call payable, s.holder = some ⟨call, .resolving payable⟩)
    (results : List PayoutResult) :
    Effect s a (times.foldl DevFeeLedger.prune s.ledger) none { s.log with results := results } :=
  .quiet times htimes none (.inr rfl) (hleft.imp Eq.symm .inl) results

/-- An action that touches neither the ledger nor the lock nor the log. -/
theorem Effect.refl : Effect s a s.ledger s.holder s.log :=
  .quiet [] (List.nil_subset _) s.holder (.inl rfl) (.inl rfl) s.log.results

/-- A call with the lock either leaves, or has decided to pay. -/
theorem enter_effect {call : PayoutCall} {i : ℕ} {dueNow windowNow payableNow : Time}
    (ha : a = .acquire i dueNow windowNow payableNow) (hfree : s.holder = none)
    (waiting : List PayoutCall) :
    Effect s a
      ({ s with waiting := waiting }.enter call dueNow windowNow payableNow).ledger
      ({ s with waiting := waiting }.enter call dueNow windowNow payableNow).holder
      ({ s with waiting := waiting }.enter call dueNow windowNow payableNow).log := by
  have hreadings : a.readings = [dueNow, windowNow, payableNow] := by rw [ha]; rfl
  -- a call that leaves has at most pruned the payouts
  have hleave : ∀ ledger, ledger = s.ledger ∨ ledger = s.ledger.prune windowNow →
      ∀ results, Effect s a ledger none { s.log with results := results } := by
    rintro ledger (rfl | rfl) results
    · exact .leave [] (List.nil_subset _) (.inl hfree) results
    · exact .leave [windowNow] (by simp [hreadings]) (.inl hfree) results
  have hsnd := s.ledger.shouldAttempt_snd s.devfeeEnabled call.force dueNow windowNow
  unfold enter
  rcases hattempt : s.ledger.shouldAttempt s.devfeeEnabled call.force dueNow windowNow with
    ⟨attempt, ledger⟩
  rw [hattempt] at hsnd
  cases attempt with
  | false => exact hleave ledger hsnd _
  | true =>
    obtain ⟨rfl, howed, hpayable, hdue⟩ := DevFeeLedger.shouldAttempt_eq_true hattempt
    simp only [Bool.not_true, Bool.false_eq_true, if_false]
    split
    next => exact hleave _ (.inr rfl) _
    next =>
      have hledger : ((s.ledger.prune windowNow).payableSat payableNow).2 =
          (s.ledger.prune windowNow).prune payableNow := by
        rw [DevFeeLedger.payableSat_eq]
      show Effect s a ((s.ledger.prune windowNow).payableSat payableNow).2
        (some ⟨call, .resolving ((s.ledger.prune windowNow).payableSat payableNow).1⟩) s.log
      rw [hledger]
      exact .decided call dueNow windowNow payableNow hreadings hfree howed hpayable hdue

/-- A payout that waits for the endpoint fails, leaves, or goes on to ask for an invoice. -/
theorem resolve_effect {call : PayoutCall} {payable : ℤ}
    (hbefore : s.holder = some ⟨call, .resolving payable⟩) (answer : Except String LnurlPay)
    (now : Time) :
    Effect s (.resolved answer now) (s.resolve call payable answer now).ledger
      (s.resolve call payable answer now).holder (s.resolve call payable answer now).log := by
  cases answer with
  | error e => exact .failed call _ now rfl (by simp) hbefore _
  | ok lnurl =>
    unfold resolve
    simp only
    split
    next => exact .leave [] (List.nil_subset _) (.inr ⟨call, payable, hbefore⟩) _
    next hlimits =>
      rw [not_or, not_lt, not_lt] at hlimits
      exact .sized call payable lnurl now rfl hbefore hlimits.1 hlimits.2

/-- A payout that waits for its invoice fails, or pays exactly the amount it asked for. -/
theorem invoice_effect {call : PayoutCall} {lnurl : LnurlPay} {amountSat : ℤ}
    (hbefore : s.holder = some ⟨call, .requesting lnurl amountSat⟩) (answer : InvoiceAnswer)
    (now : Time) :
    Effect s (.invoiced answer now) (s.invoice call lnurl amountSat answer now).ledger
      (s.invoice call lnurl amountSat answer now).holder
      (s.invoice call lnurl amountSat answer now).log := by
  cases answer with
  | failed e | undecodable e => exact .failed call _ now rfl (by simp) hbefore _
  | decoded invoiceSat =>
    unfold invoice
    simp only
    split
    next => exact .failed call _ now rfl (by simp) hbefore _
    next => exact .called call lnurl amountSat now rfl hbefore

/-- A payment that returns has cleared or failed. -/
theorem settle_effect {call : PayoutCall} {amountSat : ℤ}
    (hbefore : s.holder = some ⟨call, .paying amountSat⟩) (answer : Except String Bool)
    (windowNow stampNow attemptNow : Time) :
    Effect s (.settled answer windowNow stampNow attemptNow)
      (s.settle amountSat answer windowNow stampNow attemptNow).ledger
      (s.settle amountSat answer windowNow stampNow attemptNow).holder
      (s.settle amountSat answer windowNow stampNow attemptNow).log := by
  have hsettled : ∃ answer' windowNow' stampNow', Action.settled answer windowNow stampNow
      attemptNow = .settled answer' windowNow' stampNow' attemptNow :=
    ⟨answer, windowNow, stampNow, rfl⟩
  rcases answer with e | _ | _
  · exact .failed call _ attemptNow rfl (fun _ _ => hsettled) hbefore _
  · exact .failed call _ attemptNow rfl (fun _ _ => hsettled) hbefore _
  · exact .paid call amountSat windowNow stampNow attemptNow rfl hbefore _

/-- A cancelled taskgroup takes the lock from a call of its own, and leaves any other alone. -/
theorem cancelTasks_effect :
    Effect s .cancelListener s.cancelTasks.ledger s.cancelTasks.holder s.cancelTasks.log := by
  show Effect s _ s.ledger (s.holder.filter fun holder => !holder.call.grouped) s.log
  cases hholder : s.holder with
  | none => exact .quiet [] (List.nil_subset _) none (.inr rfl) (.inl hholder.symm) _
  | some holder =>
    cases hgrouped : holder.call.grouped with
    | false =>
      rw [Option.filter_some_pos (by simp [hgrouped]), ← hholder]
      exact .refl
    | true =>
      rw [Option.filter_some_neg (by simp [hgrouped])]
      exact .quiet [] (List.nil_subset _) none (.inr rfl)
        (.inr (.inr ⟨rfl, holder.call, holder.stage, hholder, hgrouped⟩)) _

/-- Every step is in the list. -/
theorem step_effect (h : s.step a = some s') : Effect s a s'.ledger s'.holder s'.log := by
  obtain ⟨t, ht, rfl⟩ := Option.map_eq_some_iff.1 h
  -- the clock, which `step` sets, is no part of an effect
  show Effect s a t.ledger t.holder t.log
  cases a with
  | advance now | configure enabled ratePercent dest | schedule force =>
    obtain rfl := Option.some.inj ht
    exact .refl
  | accrue receivedSat =>
    obtain rfl := Option.some.inj ht
    exact .accrued s.devfeeEnabled s.devfeeRatePercent receivedSat
  | status paidNow capNow dueNow =>
    obtain rfl := Option.some.inj ht
    show Effect s _ (s.ledger.status s.devfeeEnabled s.devfeeRatePercent paidNow capNow dueNow).2
      s.holder s.log
    rw [DevFeeLedger.status_snd]
    exact .quiet [paidNow, capNow] (by simp [Action.readings]) s.holder (.inl rfl) (.inl rfl) _
  | openListener | online =>
    obtain ⟨-, ht⟩ := Option.ite_none_right_eq_some.1 ht
    obtain rfl := Option.some.inj ht
    exact .refl
  | cancelListener =>
    obtain ⟨-, ht⟩ := Option.ite_none_left_eq_some.1 ht
    obtain rfl := Option.some.inj ht
    exact cancelTasks_effect
  -- the stages of a payout: each is left only by its own action
  | acquire i dueNow windowNow payableNow =>
    simp only [perform] at ht
    split at ht
    next call hfree hcall =>
      obtain rfl := Option.some.inj ht
      exact enter_effect rfl hfree _
    next => simp at ht
  | resolved answer now =>
    simp only [perform] at ht
    split at ht
    next call payable hbefore =>
      obtain rfl := Option.some.inj ht
      exact resolve_effect hbefore answer now
    next => simp at ht
  | invoiced answer now =>
    simp only [perform] at ht
    split at ht
    next call lnurl amountSat hbefore =>
      obtain rfl := Option.some.inj ht
      exact invoice_effect hbefore answer now
    next => simp at ht
  | settled answer windowNow stampNow attemptNow =>
    simp only [perform] at ht
    split at ht
    next call amountSat hbefore =>
      obtain rfl := Option.some.inj ht
      exact settle_effect hbefore answer windowNow stampNow attemptNow
    next => simp at ht

/-- The clock shows the last moment that was read. -/
theorem now_of_step (h : s.step a = some s') : s'.now = a.readings.getLastD s.now := by
  obtain ⟨t, -, rfl⟩ := Option.map_eq_some_iff.1 h
  rfl

end Treasurer

end ElectrumClink
