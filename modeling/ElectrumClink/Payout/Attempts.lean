import ElectrumClink.Payout.DailyCap

/-!
# At most one attempt a day

The clock of the last attempt is written when the outcome of a payment is known. Between the call of
`pay_invoice` and that moment nothing says that an attempt was made, except that the call holds the
lock. Two things come out of that.

* The startup check runs inside the listener's taskgroup. A restart of the listener cancels it while
  it waits for the payment, past both handlers, and the startup check of the next taskgroup finds
  the attempt still due: `restarted_listener_pays_twice`.
* The outcome is stamped in whole seconds. When it comes in the same second as the call, the stamp
  lies before the call, and the next attempt is due up to a second early.

`attempts_a_day_apart` is what holds of the runs without either.
-/

namespace ElectrumClink

/-- The two payments are a day apart. -/
def PayCall.DayApart (c d : PayCall) : Prop := attemptIntervalSec ≤ |d.time - c.time|

instance (c d : PayCall) : Decidable (c.DayApart d) :=
  inferInstanceAs (Decidable ((attemptIntervalSec : ℚ) ≤ |d.time - c.time|))

namespace Treasurer

variable {s s' : Treasurer} {a : Action}

/-- The payments of calls that were not forced, in order. -/
def unforced (s : Treasurer) : List PayCall := s.log.payCalls.filter fun c => !c.call.force

/-- The call inside the lock was not forced and waits for its payment. -/
def PaysUnforced (s : Treasurer) : Prop :=
  ∃ call amountSat, s.holder = some ⟨call, .paying amountSat⟩ ∧ call.force = false

instance (s : Treasurer) : Decidable s.PaysUnforced :=
  match h : s.holder with
  | some ⟨⟨false, grouped⟩, .paying amountSat⟩ => .isTrue ⟨⟨false, grouped⟩, amountSat, h, rfl⟩
  | some ⟨⟨true, _⟩, .paying _⟩ | some ⟨_, .resolving _⟩ | some ⟨_, .requesting ..⟩ | none =>
    .isFalse fun ⟨_, _, heq, hforce⟩ => by simp_all

/-- While a payment that was not forced is under way: the listener is not cancelled if the call is
its startup check, and the outcome comes so late that its stamp, a whole second, does not lie before
the call of `pay_invoice`. -/
def Stamped (s : Treasurer) : Action → Prop
  | .cancelListener => s.PaysUnforced → ∀ holder ∈ s.holder, holder.call.grouped = false
  | .settled _ _ _ attemptNow => s.PaysUnforced →
    ∀ c ∈ s.log.payCalls.getLast?, c.time ≤ wholeSeconds attemptNow
  | _ => True

instance (s : Treasurer) : (a : Action) → Decidable (s.Stamped a)
  | .cancelListener =>
    inferInstanceAs (Decidable (s.PaysUnforced → ∀ holder ∈ s.holder, holder.call.grouped = false))
  | .settled _ _ _ attemptNow =>
    inferInstanceAs (Decidable (s.PaysUnforced →
      ∀ c ∈ s.log.payCalls.getLast?, c.time ≤ wholeSeconds attemptNow))
  | .advance _ | .accrue _ | .configure .. | .status .. | .schedule _ | .openListener | .online
  | .acquire .. | .resolved .. | .invoiced .. => inferInstanceAs (Decidable True)

/-- What a run has to meet for its attempts to be a day apart. -/
def Undisturbed (s : Treasurer) (a : Action) : Prop := s.ClockForward a ∧ s.Stamped a

instance (s : Treasurer) (a : Action) : Decidable (s.Undisturbed a) :=
  inferInstanceAs (Decidable (s.ClockForward a ∧ s.Stamped a))

/-- The payment is the one the call inside the lock waits for. -/
def InFlight (s : Treasurer) (c : PayCall) : Prop :=
  s.PaysUnforced ∧ s.log.payCalls.getLast? = some c

/-- Every payment that was not forced is stamped or under way, and a call that was not forced has
found them a day old. -/
structure AttemptInv (s : Treasurer) : Prop where
  stamped : ∀ c ∈ s.unforced,
    (c.time ≤ s.ledger.lastAttemptTs ∧ c.time ≤ wholeSeconds s.now) ∨ s.InFlight c
  due : ∀ call stage, s.holder = some ⟨call, stage⟩ → call.force = false →
    (∀ amountSat, stage ≠ .paying amountSat) → ∀ c ∈ s.unforced,
      c.time + attemptIntervalSec ≤ s.now
  spaced : s.unforced.Pairwise PayCall.DayApart

theorem lastAttemptTs_foldl_prune (ledger : DevFeeLedger) (times : List Time) :
    (times.foldl DevFeeLedger.prune ledger).lastAttemptTs = ledger.lastAttemptTs := by
  induction times generalizing ledger with
  | nil => rfl
  | cons now times ih => exact ih (ledger.prune now)

/-- A payment is in flight only while the call inside the lock pays. -/
theorem AttemptInv.stamped_of_idle (hinv : AttemptInv s) (hidle : ¬ s.PaysUnforced) :
    ∀ c ∈ s.unforced, c.time ≤ s.ledger.lastAttemptTs ∧ c.time ≤ wholeSeconds s.now := by
  intro c hc
  rcases hinv.stamped c hc with h | h
  · exact h
  · exact absurd h.1 hidle

theorem not_paysUnforced {call : PayoutCall} {stage : PayoutStage}
    (hholder : s.holder = some ⟨call, stage⟩) (h : ∀ amountSat, stage ≠ .paying amountSat) :
    ¬ s.PaysUnforced := by
  rintro ⟨call', amountSat, hholder', -⟩
  rw [hholder] at hholder'
  cases hholder'
  exact h amountSat rfl

theorem unforced_congr (h : s'.log.payCalls = s.log.payCalls) : s'.unforced = s.unforced := by
  unfold unforced
  rw [h]

/-- What has been stamped stays stamped, as long as the stamp of the last attempt does not change or
is written anew. -/
theorem stamped_later {now now' : Time} {last last' : ℤ} (hnow : now ≤ now')
    (hlast : last' = last ∨ last' = wholeSeconds now') {c : PayCall}
    (h : c.time ≤ last ∧ c.time ≤ wholeSeconds now) :
    c.time ≤ last' ∧ c.time ≤ wholeSeconds now' := by
  have hwhole : c.time ≤ wholeSeconds now' :=
    h.2.trans (by exact_mod_cast wholeSeconds_mono hnow)
  refine ⟨?_, hwhole⟩
  rcases hlast with rfl | rfl
  · exact h.1
  · exact hwhole

/-- A step that makes no payment, after which no call inside the lock waits for one. -/
theorem AttemptInv.of_idle (hinv : AttemptInv s) (hpayCalls : s'.log.payCalls = s.log.payCalls)
    (hstamped : ∀ c ∈ s.unforced, c.time ≤ s'.ledger.lastAttemptTs ∧ c.time ≤ wholeSeconds s'.now)
    (hdue : ∀ call stage, s'.holder = some ⟨call, stage⟩ → call.force = false →
      ∀ c ∈ s.unforced, c.time + attemptIntervalSec ≤ s'.now) : AttemptInv s' := by
  have hunforced := unforced_congr hpayCalls
  refine ⟨fun c hc => .inl (hstamped c (hunforced ▸ hc)), ?_, hunforced ▸ hinv.spaced⟩
  intro call stage hholder hforce _ c hc
  exact hdue call stage hholder hforce c (hunforced ▸ hc)

/-- A step that leaves the call inside the lock where it is. -/
theorem AttemptInv.of_same (hinv : AttemptInv s) (hnow : s.now ≤ s'.now)
    (hlast : s'.ledger.lastAttemptTs = s.ledger.lastAttemptTs) (hholder : s'.holder = s.holder)
    (hpayCalls : s'.log.payCalls = s.log.payCalls) : AttemptInv s' := by
  have hunforced := unforced_congr hpayCalls
  refine ⟨fun c hc => ?_, ?_, hunforced ▸ hinv.spaced⟩
  · rw [hunforced] at hc
    rcases hinv.stamped c hc with h | ⟨⟨call, amountSat, hcall, hforce⟩, hlastCall⟩
    · exact .inl (stamped_later hnow (.inl hlast) h)
    · exact .inr ⟨⟨call, amountSat, hholder.trans hcall, hforce⟩, hpayCalls ▸ hlastCall⟩
  · intro call stage hcall hforce hstage c hc
    rw [hunforced] at hc
    exact (hinv.due call stage (hholder ▸ hcall) hforce hstage c hc).trans hnow

/-- An outcome that is stamped no earlier than the payment it is about leaves every payment
stamped. -/
theorem AttemptInv.of_recorded (hinv : AttemptInv s) (hnow : s.now ≤ s'.now)
    (hlast : s'.ledger.lastAttemptTs = wholeSeconds s'.now) (hholder : s'.holder = none)
    (hpayCalls : s'.log.payCalls = s.log.payCalls)
    (hpaid : s.PaysUnforced → ∀ c ∈ s.log.payCalls.getLast?, c.time ≤ wholeSeconds s'.now) :
    AttemptInv s' := by
  refine hinv.of_idle hpayCalls (fun c hc => ?_) (by simp [hholder])
  rcases hinv.stamped c hc with h | ⟨hpays, hlastCall⟩
  · exact stamped_later hnow (.inr hlast) h
  · have htime := hpaid hpays c hlastCall
    exact ⟨by rw [hlast]; exact htime, htime⟩

/-- A payment that is made is a day away from those before it, if it was not forced. -/
theorem AttemptInv.of_called (hinv : AttemptInv s) (hnow : s.now ≤ s'.now) {call : PayoutCall}
    {lnurl : LnurlPay} {amountSat : ℤ}
    (hbefore : s.holder = some ⟨call, .requesting lnurl amountSat⟩)
    (hledger : s'.ledger = s.ledger) (hholder : s'.holder = some ⟨call, .paying amountSat⟩)
    (hpayCalls : s'.log.payCalls =
      s.log.payCalls ++ [⟨s'.now, call, amountSat, lnurl, s.ledger⟩]) : AttemptInv s' := by
  have hidle := not_paysUnforced hbefore (by simp)
  -- what was paid before has its stamp, because this call has not paid yet
  have hstamps : ∀ c ∈ s.unforced,
      c.time ≤ s'.ledger.lastAttemptTs ∧ c.time ≤ wholeSeconds s'.now := fun c hc =>
    stamped_later hnow (.inl (by rw [hledger])) (hinv.stamped_of_idle hidle c hc)
  have hdue : ∀ call' stage, s'.holder = some ⟨call', stage⟩ → call'.force = false →
      (∀ amountSat, stage ≠ .paying amountSat) → ∀ c ∈ s'.unforced,
        c.time + attemptIntervalSec ≤ s'.now := by
    intro call' stage hcall _ hstage
    rw [hholder] at hcall
    cases hcall
    exact absurd rfl (hstage amountSat)
  cases hforce : call.force with
  | true =>
    have hunforced : s'.unforced = s.unforced := by
      simp [unforced, hpayCalls, List.filter_append, hforce]
    exact ⟨fun c hc => .inl (hstamps c (hunforced ▸ hc)), hdue, hunforced ▸ hinv.spaced⟩
  | false =>
    have hunforced : s'.unforced = s.unforced ++ [⟨s'.now, call, amountSat, lnurl, s.ledger⟩] := by
      simp [unforced, hpayCalls, List.filter_append, hforce]
    refine ⟨fun c hc => ?_, hdue, ?_⟩
    · rw [hunforced] at hc
      rcases List.mem_append.1 hc with hc | hc
      · exact .inl (hstamps c hc)
      · -- the new payment is the one the call waits for
        rw [List.mem_singleton.1 hc]
        exact .inr ⟨⟨call, amountSat, hholder, hforce⟩, by rw [hpayCalls, List.getLast?_concat]⟩
    · rw [hunforced, List.pairwise_append]
      refine ⟨hinv.spaced, List.pairwise_singleton _ _, ?_⟩
      intro c hc d hd
      rw [List.mem_singleton.1 hd]
      -- the attempt was due when the call entered, and time has only passed
      have hday := hinv.due call _ hbefore hforce (by simp) c hc
      show (attemptIntervalSec : ℚ) ≤ |s'.now - c.time|
      exact le_abs.2 (.inl (by linarith))

theorem attemptInv_step (hinv : AttemptInv s) (hundisturbed : s.Undisturbed a)
    (h : s.step a = some s') : AttemptInv s' := by
  obtain ⟨hclock, hstamped⟩ := hundisturbed
  have heffect := step_effect h
  have hnow := now_le_of_forward hclock h
  have hreading := now_of_step h
  generalize hledger : s'.ledger = ledger at heffect
  generalize hholder : s'.holder = holder at heffect
  generalize hlog : s'.log = log at heffect
  cases heffect with
  | quiet times htimes _ hsame hleft results =>
    have hlast : s'.ledger.lastAttemptTs = s.ledger.lastAttemptTs := by
      rw [hledger, lastAttemptTs_foldl_prune]
    have hpayCalls : s'.log.payCalls = s.log.payCalls := by rw [hlog]
    rcases hsame with rfl | rfl
    · exact hinv.of_same hnow hlast hholder hpayCalls
    · -- a call that left was not waiting for a payment
      have hidle : ¬ s.PaysUnforced := by
        rintro hpays
        obtain ⟨call, amountSat, hcall, hforce⟩ := hpays
        rcases hleft with hnone | ⟨_, _, hresolving⟩ | ⟨rfl, _, _, hgroup, hgrouped⟩
        · simp [← hnone] at hcall
        · simp [hresolving] at hcall
        · rw [hcall] at hgroup
          cases hgroup
          have hout := hstamped ⟨call, amountSat, hcall, hforce⟩ _ hcall
          rw [hgrouped] at hout
          cases hout
      refine hinv.of_idle hpayCalls (fun c hc => ?_) (by simp [hholder])
      exact stamped_later hnow (.inl hlast) (hinv.stamped_of_idle hidle c hc)
  | accrued enabled ratePercent receivedSat =>
    obtain ⟨balance, -, haccrue⟩ := s.ledger.accrue_snd enabled ratePercent receivedSat
    exact hinv.of_same hnow (by rw [hledger, haccrue]) hholder (by rw [hlog])
  | decided call dueNow windowNow payableNow hreadings hfree _ _ hdue =>
    have hidle : ¬ s.PaysUnforced := by
      rintro ⟨_, _, hcall, -⟩
      simp [hfree] at hcall
    have hstamps := hinv.stamped_of_idle hidle
    refine hinv.of_idle (by rw [hlog]) (fun c hc => ?_) ?_
    · exact stamped_later hnow (.inl (by rw [hledger]; rfl)) (hstamps c hc)
    · intro call' stage hcall hforce c hc
      rw [hholder] at hcall
      cases hcall
      -- the attempt was due at a reading of this action
      have hdue : ((s.ledger.lastAttemptTs + attemptIntervalSec : ℤ) : ℚ) ≤ dueNow := by
        simpa [DevFeeLedger.attemptDue, hforce] using hdue
      have hread : dueNow ≤ s'.now := by
        rw [hreading]
        exact (hclock.between (by simp [hreadings])).2
      push_cast at hdue
      linarith [(hstamps c hc).1]
  | sized call payable lnurl now _ hbefore =>
    -- the call inside the lock has made no payment yet
    have hidle := not_paysUnforced hbefore (by simp)
    refine hinv.of_idle (by rw [hlog]) (fun c hc => ?_) ?_
    · exact stamped_later hnow (.inl (by rw [hledger])) (hinv.stamped_of_idle hidle c hc)
    · intro call' stage hcall hforce c hc
      rw [hholder] at hcall
      cases hcall
      exact (hinv.due call _ hbefore hforce (by simp) c hc).trans hnow
  | called call lnurl amountSat now hreadings hbefore =>
    obtain rfl : s'.now = now := by rw [hreading, hreadings]; rfl
    exact hinv.of_called hnow hbefore hledger hholder (by rw [hlog])
  | failed call stage now hread hpaying hbefore results =>
    -- a failure is stamped, no earlier than the payment it ends
    obtain rfl : s'.now = now := hreading.trans hread
    refine hinv.of_recorded hnow (by rw [hledger]; rfl) hholder (by rw [hlog]) ?_
    intro hpays
    obtain ⟨call', amountSat, hcall, hforce⟩ := hpays
    rw [hbefore] at hcall
    cases hcall
    obtain ⟨answer, windowNow, stampNow, rfl⟩ := hpaying amountSat rfl
    exact hstamped ⟨call, amountSat, hbefore, hforce⟩
  | paid call amountSat windowNow stampNow attemptNow haction hbefore results =>
    subst haction
    obtain rfl : s'.now = attemptNow := hreading
    exact hinv.of_recorded hnow (by rw [hledger, DevFeeLedger.recordSuccess_eq]) hholder
      (by rw [hlog]) hstamped

/-- In every run that meets the condition, any two payments of calls that were not forced are a day
apart, whatever listeners are cancelled and opened again. -/
theorem attempts_a_day_apart {now : Time} {ledger : DevFeeLedger} {enabled : Bool}
    {ratePercent : ℚ} {dest : String} {s : Treasurer}
    (h : Reachable Undisturbed (start now ledger enabled ratePercent dest) s) :
    (s.log.payCalls.filter fun c => !c.call.force).Pairwise PayCall.DayApart := by
  have hinv : AttemptInv s := by
    refine h.invariant ⟨?_, ?_, ?_⟩ fun _ _ _ hinv hP hstep => attemptInv_step hinv hP hstep
    all_goals simp [start, unforced]
  exact hinv.spaced

/-- The startup check gets as far as the call of `pay_invoice`. -/
def startupPayment (t : Time) : List Action :=
  [.openListener, .online, .acquire 0 t t t, .resolved (.ok ⟨1, 2000⟩) t,
    .invoiced (.decoded (some 2000)) t]

/-- A restart of the listener before the payment is made, and a payment a day after another. -/
theorem attempts_a_day_apart_two_days :
    ∃ s, Reachable Undisturbed (start 0 ⟨4500000, 0, [], ∅⟩ true 1 "dev@example.com") s ∧
      s.log.payCalls.length = 2 ∧
      (s.log.payCalls.filter fun c => !c.call.force).Pairwise PayCall.DayApart := by
  have hrun : (Transition.exec (Transition.guarded step Undisturbed)
      (start 0 ⟨4500000, 0, [], ∅⟩ true 1 "dev@example.com")
      ([.openListener, .online, .cancelListener] ++ startupPayment 100000 ++
        [.settled (.ok true) 100001 100001 100001, .cancelListener] ++
        startupPayment 186401)).any (fun s => decide (s.log.payCalls.length = 2)) = true := by
    decide +kernel
  obtain ⟨s, hreach, hcalls⟩ := Transition.exists_reachable_of_exec_guarded hrun
  exact ⟨s, hreach, of_decide_eq_true hcalls, attempts_a_day_apart hreach⟩

/-- The listener is restarted while its startup check waits for the payment: the next startup check
pays again, a minute later. -/
theorem restarted_listener_pays_twice :
    ∃ s, Reachable (fun _ _ => True) (start 0 ⟨4500000, 0, [], ∅⟩ true 1 "dev@example.com") s ∧
      ¬ (s.log.payCalls.filter fun c => !c.call.force).Pairwise PayCall.DayApart := by
  have hrun : (Transition.exec step (start 0 ⟨4500000, 0, [], ∅⟩ true 1 "dev@example.com")
      (startupPayment 100000 ++ [.cancelListener] ++ startupPayment 100060)).any (fun s =>
        decide (¬ (s.log.payCalls.filter fun c => !c.call.force).Pairwise PayCall.DayApart)) =
          true := by
    decide +kernel
  obtain ⟨s, hreach, hcalls⟩ := Transition.exists_reachable_of_exec hrun
  exact ⟨s, hreach, of_decide_eq_true hcalls⟩

end Treasurer

end ElectrumClink
