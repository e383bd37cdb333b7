import ElectrumClink.Payout.Conservation

/-!
# What is paid out in a day

The ledger checks the cap when it decides, on a window that every reading prunes, and stamps the
payout when it has cleared, cut off to the whole second. `payouts_in_any_day_le_cap` is the bound on
every span of a day, not only on the spans the ledger looks at.

As long as the clock does not go back, the ledger has forgotten only payouts that no later reading
would count (`CapInv.remembered`). A span of a day that holds the stamp of a new payout then holds
no older payout that the window at the time of the stamp does not count as well: the stamp is less
than a second old, and both ends are whole seconds.
-/

namespace ElectrumClink

namespace DevFeeLedger

/-- The stamp lies in the day that begins at `from`. -/
def InDayFrom (T : Time) (stamp : ℤ) : Prop := T ≤ stamp ∧ stamp < T + attemptIntervalSec

instance (T : Time) : DecidablePred (InDayFrom T) := fun stamp =>
  inferInstanceAs (Decidable (T ≤ stamp ∧ stamp < T + attemptIntervalSec))

/-- A stamp that is a day old stays so. -/
theorem InLastDay.earlier {t u : Time} {stamp : ℤ} (h : InLastDay u stamp) (hle : t ≤ u) :
    InLastDay t stamp :=
  (sub_le_sub_right hle _).trans_lt h

/-- A day that holds the whole second of `now` holds no stamp that is a day old at `now`. -/
theorem InDayFrom.inLastDay {T now : Time} {stamp : ℤ} (h : InDayFrom T stamp)
    (hnow : InDayFrom T (wholeSeconds now)) : InLastDay now stamp := by
  -- whole seconds: less than a day apart means at least a second less than a day
  have hapart : wholeSeconds now + 1 ≤ stamp + attemptIntervalSec := by
    have hlt : (wholeSeconds now : ℚ) < ((stamp + attemptIntervalSec : ℤ) : ℚ) := by
      push_cast
      linarith [hnow.2, h.1]
    exact_mod_cast hlt
  have hsecond : now < wholeSeconds now + 1 := lt_wholeSeconds_add_one now
  have hcast : ((wholeSeconds now : ℚ) + 1) ≤ stamp + attemptIntervalSec := by exact_mod_cast hapart
  show now - stamp < attemptIntervalSec
  linarith

end DevFeeLedger

namespace Treasurer

variable {s s' : Treasurer} {a : Action}

/-- The moments read during an action that does not turn the clock back lie between what the clock
showed before and after. -/
theorem ClockForward.between (h : s.ClockForward a) {t : Time} (ht : t ∈ a.readings) :
    s.now ≤ t ∧ t ≤ a.readings.getLastD s.now := by
  obtain ⟨hfirst, hrest⟩ := List.pairwise_cons.1 h
  refine ⟨hfirst t ht, ?_⟩
  obtain ⟨before, last, heq⟩ : ∃ before last, a.readings = before ++ [last] :=
    (List.eq_nil_or_concat' a.readings).resolve_left (List.ne_nil_of_mem ht)
  rw [heq] at ht hrest ⊢
  rw [List.getLastD_concat]
  rcases List.mem_append.1 ht with ht | ht
  · exact (List.pairwise_append.1 hrest).2.2 t ht last (List.mem_singleton_self last)
  · exact (List.mem_singleton.1 ht).le

theorem now_le_of_forward (h : s.ClockForward a) (hstep : s.step a = some s') :
    s.now ≤ s'.now := by
  rw [now_of_step hstep]
  rcases List.eq_nil_or_concat' a.readings with hnil | ⟨before, last, heq⟩
  · rw [hnil]
    exact le_rfl
  · have hlast : last ∈ a.readings := by simp [heq]
    exact (h.between hlast).1.trans (h.between hlast).2

/-! ## The window and the history -/

/-- The window the ledger keeps counts what the history counts, and the call inside the lock has
room in it; so no day holds more than the cap. -/
structure CapInv (s : Treasurer) : Prop where
  remembered : ∀ t, s.now ≤ t → StampedLog.total (DevFeeLedger.InLastDay t) s.ledger.payments =
    StampedLog.total (DevFeeLedger.InLastDay t) s.log.payouts
  capped : ∀ T, StampedLog.total (DevFeeLedger.InDayFrom T) s.log.payouts ≤ dailyCapSat
  nonneg : ∀ p ∈ s.log.payouts, 0 ≤ p.2

/-- Pruning at moments up to `t` forgets nothing that a reading at `t` counts. -/
theorem total_foldl_prune (ledger : DevFeeLedger) {times : List Time} {t : Time}
    (h : ∀ u ∈ times, u ≤ t) :
    StampedLog.total (DevFeeLedger.InLastDay t) (times.foldl DevFeeLedger.prune ledger).payments =
      StampedLog.total (DevFeeLedger.InLastDay t) ledger.payments := by
  induction times generalizing ledger with
  | nil => rfl
  | cons u times ih =>
    rw [List.foldl_cons, ih _ fun v hv => h v (List.mem_cons_of_mem u hv)]
    exact StampedLog.total_filter_of_imp fun stamp hstamp =>
      hstamp.earlier (h u List.mem_cons_self)

/-- A new payout fits into every day. -/
theorem CapInv.capped_append {amountSat : ℤ} {now : Time} (hinv : CapInv s)
    (hcovers : s.ledger.Covers amountSat) (hnow : s.now ≤ now) (T : Time) :
    StampedLog.total (DevFeeLedger.InDayFrom T)
      (s.log.payouts ++ [(wholeSeconds now, amountSat)]) ≤ dailyCapSat := by
  by_cases hstamp : DevFeeLedger.InDayFrom T (wholeSeconds now)
  · -- whatever else lies in that day is still in the window at `now`, where the amount fits
    have hwindow : StampedLog.total (DevFeeLedger.InDayFrom T) s.log.payouts ≤
        StampedLog.total (DevFeeLedger.InLastDay now) s.log.payouts :=
      StampedLog.total_le_total hinv.nonneg fun p _ hp => hp.inLastDay hstamp
    have hfits := hcovers.capped now
    rw [hinv.remembered now hnow] at hfits
    rw [StampedLog.total_append_of_pos _ hstamp]
    omega
  · rw [StampedLog.total_append_of_neg _ hstamp]
    exact hinv.capped T

theorem capInv_step (hfunds : FundsInv s) (hinv : CapInv s) (hclock : s.ClockForward a)
    (h : s.step a = some s') : CapInv s' := by
  have heffect := step_effect h
  have hforward := now_le_of_forward hclock h
  have hbetween : ∀ u ∈ a.readings, s.now ≤ u ∧ u ≤ s'.now := fun u hu => by
    rw [now_of_step h]
    exact hclock.between hu
  -- at moments from now on, the ledger and the history count the same
  have hkept : ∀ t, s'.now ≤ t → StampedLog.total (DevFeeLedger.InLastDay t) s.ledger.payments =
      StampedLog.total (DevFeeLedger.InLastDay t) s.log.payouts :=
    fun t ht => hinv.remembered t (hforward.trans ht)
  -- forgetting at a moment that was read loses nothing of a later window
  have hpruned : ∀ times ⊆ a.readings, ∀ t, s'.now ≤ t → StampedLog.total
      (DevFeeLedger.InLastDay t) (times.foldl DevFeeLedger.prune s.ledger).payments =
        StampedLog.total (DevFeeLedger.InLastDay t) s.log.payouts := by
    intro times htimes t ht
    rw [total_foldl_prune _ fun u hu => (hbetween u (htimes hu)).2.trans ht]
    exact hkept t ht
  generalize hledger : s'.ledger = ledger at heffect
  generalize s'.holder = holder at heffect
  generalize hlog : s'.log = log at heffect
  suffices hsuff : (∀ t, s'.now ≤ t → StampedLog.total (DevFeeLedger.InLastDay t)
      ledger.payments = StampedLog.total (DevFeeLedger.InLastDay t) log.payouts) ∧
      (∀ T, StampedLog.total (DevFeeLedger.InDayFrom T) log.payouts ≤ dailyCapSat) ∧
        ∀ p ∈ log.payouts, 0 ≤ p.2 by
    exact ⟨hledger ▸ hlog ▸ hsuff.1, hlog ▸ hsuff.2.1, hlog ▸ hsuff.2.2⟩
  cases heffect with
  | quiet times htimes => exact ⟨hpruned times htimes, hinv.capped, hinv.nonneg⟩
  | accrued enabled ratePercent receivedSat =>
    obtain ⟨balance, -, hpayments⟩ := s.ledger.accrue_snd enabled ratePercent receivedSat
    rw [hpayments]
    exact ⟨hkept, hinv.capped, hinv.nonneg⟩
  | decided call dueNow windowNow payableNow hreadings =>
    have htimes : [windowNow, payableNow] ⊆ a.readings := by simp [hreadings]
    exact ⟨hpruned _ htimes, hinv.capped, hinv.nonneg⟩
  | sized | called | failed => exact ⟨hkept, hinv.capped, hinv.nonneg⟩
  | paid call amountSat windowNow stampNow attemptNow haction hbefore results =>
    have hreadings : a.readings = [windowNow, stampNow, attemptNow] := by rw [haction]; rfl
    have hcovers : s.ledger.Covers amountSat := hfunds.covers call _ hbefore
    have hwindow := hbetween windowNow (by simp [hreadings])
    have hstamp := hbetween stampNow (by simp [hreadings])
    rw [DevFeeLedger.recordSuccess_eq]
    refine ⟨fun t ht => ?_, hinv.capped_append hcovers hstamp.1, ?_⟩
    · -- the history and the window grow by the same entry
      have hprune := hpruned [windowNow] (by simp [hreadings]) t ht
      rw [StampedLog.total_append, StampedLog.total_append, ← hprune]
      rfl
    · intro p hp
      rcases List.mem_append.1 hp with hp | hp
      · exact hinv.nonneg p hp
      · rw [List.mem_singleton.1 hp]
        exact le_trans (by decide) hcovers.enough

/-- In every run on a clock that does not go back and from a ledger without recorded payouts, no
day holds more than the cap: what was ever recorded with a stamp in it, forgotten or not. -/
theorem payouts_in_any_day_le_cap {now : Time} {ledger : DevFeeLedger} {enabled : Bool}
    {ratePercent : ℚ} {dest : String} {s : Treasurer} (hledger : ledger.payments = [])
    (h : Reachable ClockForward (start now ledger enabled ratePercent dest) s) (T : Time) :
    ((s.log.payouts.filter fun p => T ≤ p.1 ∧ p.1 < T + attemptIntervalSec).map Prod.snd).sum ≤
      dailyCapSat := by
  have hinv : FundsInv s ∧ CapInv s := by
    refine h.invariant (I := fun s => FundsInv s ∧ CapInv s) ⟨fundsInv_start ?_, ?_⟩ ?_
    · simp [DevFeeLedger.PaymentsNonneg, hledger]
    · exact ⟨by simp [start, hledger], by simp [start, dailyCapSat], by simp [start]⟩
    · rintro s a t ⟨hfunds, hcap⟩ hclock hstep
      exact ⟨fundsInv_step hfunds hstep, capInv_step hfunds hcap hclock hstep⟩
  exact hinv.2.capped T

/-- Two payouts in a row, the second within a second of the first, fill the day. -/
theorem payouts_in_any_day_le_cap_two_payouts :
    ∃ s, Reachable ClockForward (start 0 ⟨12000000, 0, [], ∅⟩ true 1 "dev@example.com") s ∧
      s.log.payouts = [(100000, 9000), (100000, 1000)] ∧
      ((s.log.payouts.filter fun p => (100000 : Time) ≤ p.1 ∧
        p.1 < (100000 : Time) + attemptIntervalSec).map Prod.snd).sum ≤ dailyCapSat := by
  have hrun : (Transition.exec (Transition.guarded step ClockForward)
      (start 0 ⟨12000000, 0, [], ∅⟩ true 1 "dev@example.com")
      (onePayout false 9000 100000 ++ onePayout true 1000 (100000 + 1 / 2))).any
        (fun s => decide (s.log.payouts = [(100000, 9000), (100000, 1000)])) = true := by
    decide +kernel
  obtain ⟨s, hreach, hpayouts⟩ := Transition.exists_reachable_of_exec_guarded hrun
  exact ⟨s, hreach, of_decide_eq_true hpayouts, payouts_in_any_day_le_cap rfl hreach 100000⟩

end Treasurer

end ElectrumClink
