import ElectrumClink.Delivery.Steps

/-!
# Retries after the fast window

Once the fast-retry window of a receipt has closed, a failed publish schedules no tail, and the
receipt is left to the hourly tick. But the first tick of every taskgroup comes at once, and
`due_targets` looks at the last attempt of a receipt only while it was never sent: one in the middle
of its schedule is published again on every reconnect (`reconnect_hammers_sent_receipt`).

A `Watched` courier has a history of the publishes that were started. `late_attempts_hourly` is
about the runs in which no tick finds a receipt of that kind soon after a late failure, and in which
nobody else takes up a receipt then: in those, late attempts of which the first failed are at least
`RETRY_INTERVAL_SEC` apart. For a receipt that was never sent the stamp of the last attempt sees to
it, however often the listener reconnects (`resting_step`).
-/

namespace ElectrumClink

namespace ReceiptEntry

/-- The moment the fast-retry window is measured from. -/
def anchor (e : ReceiptEntry) : Time :=
  if e.sendCount > 0 then e.firstSend.getD 0 else e.dueSince

/-- Whether a failed publish of the entry is retried at once. -/
def windowOpen (e : ReceiptEntry) (now : Time) : Bool :=
  e.due && decide (now - e.anchor < fastRetryWindowSec)

/-- Whether the entry is owed and its fast-retry window is over. -/
def windowClosed (e : ReceiptEntry) (now : Time) : Bool :=
  e.due && decide (fastRetryWindowSec ≤ now - e.anchor)

end ReceiptEntry

/-- A failed publish is left to the hourly tick exactly when the window of its entry is not open. -/
theorem ReceiptRegistry.failRetryDelay_eq_none_iff {reg : ReceiptRegistry} {now : Time}
    {rhash : PaymentHash} {failStreak : ℕ} :
    reg.failRetryDelay now rhash failStreak = none ↔
      ∀ e ∈ reg.lookup rhash, e.windowOpen now = false := by
  unfold failRetryDelay
  rcases hentry : reg.lookup rhash with _ | e
  · simp
  · simp only [Option.mem_some_iff, forall_eq', ReceiptEntry.windowOpen, ReceiptEntry.anchor]
    rcases hdue : e.due with _ | _
    · simp
    · simp [not_lt]

namespace Courier

/-- The receipts that the current tick still has to deliver. -/
def tickTargets (s : Courier) : List ReceiptTarget :=
  match s.redelivery with
  | .iterating _ targets => targets
  | _ => []

theorem mentions_iff {s : Courier} {r : PaymentHash} :
    s.Mentions r ↔ (∃ d ∈ s.deliveries, d.target.rhash = r) ∨
      (∃ tail ∈ s.tails, tail.target.rhash = r) ∨ ∃ target ∈ s.tickTargets, target.rhash = r := by
  rw [Mentions, tickTargets]
  rcases s.redelivery with _ | _ | ⟨first, targets⟩ | wakeAt <;> simp

instance (s : Courier) (r : PaymentHash) : Decidable (s.Mentions r) :=
  decidable_of_iff' _ mentions_iff

/-! ## The history of the publishes -/

/-- A publish that was started. -/
structure Attempt where
  rhash : PaymentHash
  start : Time
  /-- Whether the receipt was owed and its fast-retry window was over. -/
  late : Bool
deriving DecidableEq

/-- A running delivery, with the number of its publish once that has begun. -/
structure Flight where
  delivery : Delivering
  attempt : Option ℕ
deriving DecidableEq

/-- A courier with the history of its publishes. It is read by no code. -/
structure Watched where
  courier : Courier
  /-- The running deliveries. -/
  flights : List Flight
  /-- The publishes that were started, in their order. -/
  attempts : List Attempt
  /-- The numbers of those that failed. -/
  failures : List ℕ

namespace Watched

/-- A server that has not connected yet. -/
def start (now : Time) : Watched := ⟨.start now, [], [], []⟩

/-- The deliveries that an action does not end. -/
def kept (w : Watched) : Action → List Flight
  | .deliver i | .publishOk i _ | .publishFail i _ => w.flights.eraseIdx i
  | .cancel =>
    w.flights.filter fun f => f.delivery.origin ≠ .tail true ∧ f.delivery.origin ≠ .tick
  | _ => w.flights

/-- The publish that an action fails. -/
def failing (w : Watched) : Action → Option ℕ
  | .publishFail i _ => (w.flights[i]?).bind Flight.attempt
  | _ => none

/-- The history after an action that leads to `s'`. -/
def observe (w : Watched) (a : Action) (s' : Courier) : Watched where
  courier := s'
  flights := w.kept a ++ (s'.deliveries.drop (w.kept a).length).map fun d =>
    ⟨d, if d.publishing then some w.attempts.length else none⟩
  attempts := w.attempts ++ (s'.log.started.drop w.attempts.length).map fun rhash =>
    ⟨rhash, w.courier.now,
      (w.courier.receipts.lookup rhash).any fun e => e.windowClosed w.courier.now⟩
  failures := w.failures ++ (w.failing a).toList

/-- Perform one action of the courier, if it is enabled. -/
def step (w : Watched) (a : Action) : Option Watched := (w.courier.step a).map (w.observe a)

/-- The states a run reaches by steps that meet `P`. -/
abbrev Reachable (P : Watched → Action → Prop) (w₀ w : Watched) : Prop :=
  Transition.Reachable step P w₀ w

/-- No publish of the receipt was started after the `n`-th. -/
def Latest (w : Watched) (n : ℕ) (rhash : PaymentHash) : Prop :=
  ∀ attempt ∈ w.attempts.drop (n + 1), attempt.rhash ≠ rhash

instance (w : Watched) (n : ℕ) (rhash : PaymentHash) : Decidable (w.Latest n rhash) :=
  inferInstanceAs (Decidable (∀ attempt ∈ w.attempts.drop (n + 1), attempt.rhash ≠ rhash))

/-- The last publish of the receipt was a late one, has failed, and was started less than
`RETRY_INTERVAL_SEC` ago. -/
def Resting (w : Watched) (rhash : PaymentHash) : Prop :=
  ∃ n ∈ w.failures, ∃ attempt ∈ w.attempts[n]?, attempt.rhash = rhash ∧ attempt.late = true ∧
    w.Latest n rhash ∧ w.courier.now - attempt.start < retryIntervalSec

instance (w : Watched) (rhash : PaymentHash) : Decidable (w.Resting rhash) :=
  inferInstanceAs (Decidable (∃ n ∈ w.failures, ∃ attempt ∈ w.attempts[n]?,
    attempt.rhash = rhash ∧ attempt.late = true ∧ w.Latest n rhash ∧
      w.courier.now - attempt.start < retryIntervalSec))

/-- Of two consecutive publishes of a receipt, both late and the first failed, the second was
started at least `RETRY_INTERVAL_SEC` after the first. -/
def HourlySpaced (w : Watched) : Prop :=
  ∀ m n (first second : Attempt), m < n → w.attempts[m]? = some first →
    w.attempts[n]? = some second → second.rhash = first.rhash →
    (∀ k (between : Attempt), m < k → k < n → w.attempts[k]? = some between →
      between.rhash ≠ first.rhash) →
    first.late = true → second.late = true → m ∈ w.failures →
      first.start + retryIntervalSec ≤ second.start

/-- What has to hold of the steps. No tick begins while a receipt rests that was sent before, or
whose last attempt left no stamp. No payment is announced again while its receipt rests. And when a
late publish fails, its receipt is taken up by nobody else: no other publish of it was started since
then, none is under way, neither a notification nor a tail nor the current tick is about to
start one, and its window is not open again. -/
def Unhurried (w : Watched) : Action → Prop
  | .tickStart => ∀ entry ∈ w.courier.receipts.pending.entries, w.Resting entry.1 →
    entry.2.sendCount = 0 ∧ entry.2.lastAttempt ≠ 0
  | .paid rhash => rhash ∈ w.courier.receipts.pending → ¬ w.Resting rhash
  | .publishFail i orphan => ∀ n ∈ w.failing (.publishFail i orphan), ∀ attempt ∈ w.attempts[n]?,
    attempt.late = true →
      w.Latest n attempt.rhash ∧
      ¬ Mentions { w.courier with deliveries := w.courier.deliveries.eraseIdx i } attempt.rhash ∧
      ∀ e ∈ w.courier.receipts.lookup attempt.rhash, e.windowOpen w.courier.now = false
  | _ => True

instance (w : Watched) (a : Action) : Decidable (w.Unhurried a) :=
  match a with
  | .tickStart => inferInstanceAs (Decidable (∀ entry ∈ w.courier.receipts.pending.entries,
    w.Resting entry.1 → entry.2.sendCount = 0 ∧ entry.2.lastAttempt ≠ 0))
  | .paid rhash => inferInstanceAs (Decidable (rhash ∈ w.courier.receipts.pending →
    ¬ w.Resting rhash))
  | .publishFail i orphan => inferInstanceAs (Decidable (∀ n ∈ w.failing (.publishFail i orphan),
    ∀ attempt ∈ w.attempts[n]?, attempt.late = true →
      w.Latest n attempt.rhash ∧
      ¬ Mentions { w.courier with deliveries := w.courier.deliveries.eraseIdx i } attempt.rhash ∧
      ∀ e ∈ w.courier.receipts.lookup attempt.rhash, e.windowOpen w.courier.now = false))
  | .advance _ | .remember .. | .deliver _ | .publishOk .. | .tailStart _ | .tailWake _
  | .tickNext | .tickDone | .connect | .openGroup | .cancel | .exitGroup | .failGroup
  | .dropManager | .resetGroup => .isTrue trivial

/-! ## The deliveries that a step ends and starts -/

/-- The history agrees with the courier: its flights are the running deliveries, those and only
those that publish have a number, and the publish of that number is one of the same receipt. -/
structure Aligned (w : Watched) : Prop where
  deliveries : w.flights.map Flight.delivery = w.courier.deliveries
  started : w.attempts.map Attempt.rhash = w.courier.log.started
  waiting : ∀ f ∈ w.flights, f.delivery.publishing = false → f.attempt = none
  publishing : ∀ f ∈ w.flights, f.delivery.publishing = true →
    ∃ n attempt, f.attempt = some n ∧ w.attempts[n]? = some attempt ∧
      attempt.rhash = f.delivery.target.rhash

variable {w w' : Watched} {a : Action} {s' : Courier}

/-- A delivery that starts is the last one, and publishes at once if there is a manager. -/
theorem deliverReceipt_deliveries (s : Courier) (origin : Origin) (target : ReceiptTarget)
    (failStreak : ℕ) :
    (s.deliverReceipt origin target failStreak).deliveries = s.deliveries ∧
        (s.deliverReceipt origin target failStreak).log.started = s.log.started ∨
      (s.deliverReceipt origin target failStreak).deliveries =
          s.deliveries ++ [⟨origin, target, failStreak, true⟩] ∧
        (s.deliverReceipt origin target failStreak).log.started =
          s.log.started ++ [target.rhash] := by
  unfold deliverReceipt
  dsimp only
  split
  · exact .inl ⟨rfl, rfl⟩
  · exact .inr ⟨rfl, rfl⟩

/-- After a step there are the deliveries it did not end, followed by those it started: none, one
that waits for the event loop, or one that publishes. -/
theorem deliveries_step (hflights : w.flights.map Flight.delivery = w.courier.deliveries)
    (h : w.courier.step a = some s') :
    ∃ new, s'.deliveries = (w.kept a).map Flight.delivery ++ new ∧
      ((s'.log.started = w.courier.log.started ∧ ∀ d ∈ new, d.publishing = false) ∨
        ∃ d, new = [d] ∧ d.publishing = true ∧
          s'.log.started = w.courier.log.started ++ [d.target.rhash]) := by
  have herase : ∀ i, (w.flights.eraseIdx i).map Flight.delivery =
      w.courier.deliveries.eraseIdx i := by
    intro i
    rw [← hflights, List.eraseIdx_map]
  -- the three callers of `_deliver_receipt` differ in what they end first
  have hdeliver : ∀ (s : Courier) (origin : Origin) (target : ReceiptTarget) (failStreak : ℕ),
      s.deliveries = (w.kept a).map Flight.delivery → s.log = w.courier.log →
      ∃ new, (s.deliverReceipt origin target failStreak).deliveries =
          (w.kept a).map Flight.delivery ++ new ∧
        (((s.deliverReceipt origin target failStreak).log.started = w.courier.log.started ∧
            ∀ d ∈ new, d.publishing = false) ∨
          ∃ d, new = [d] ∧ d.publishing = true ∧
            (s.deliverReceipt origin target failStreak).log.started =
              w.courier.log.started ++ [d.target.rhash]) := by
    intro s origin target failStreak hs hlog
    rcases deliverReceipt_deliveries s origin target failStreak with ⟨hd, hl⟩ | ⟨hd, hl⟩
    · exact ⟨[], by rw [hd, hs, List.append_nil], .inl ⟨by rw [hl, hlog], by simp⟩⟩
    · exact ⟨_, by rw [hd, hs], .inr ⟨_, rfl, rfl, by rw [hl, hlog]⟩⟩
  have hsame : ∀ deliveries : List Delivering, deliveries = (w.kept a).map Flight.delivery →
      ∃ new, deliveries = (w.kept a).map Flight.delivery ++ new ∧
        ((w.courier.log.started = w.courier.log.started ∧ ∀ d ∈ new, d.publishing = false) ∨
          ∃ d, new = [d] ∧ d.publishing = true ∧
            w.courier.log.started = w.courier.log.started ++ [d.target.rhash]) := fun _ heq =>
    ⟨[], by rw [heq, List.append_nil], .inl ⟨rfl, by simp⟩⟩
  cases step_outcome h with
  | @paid rhash =>
    obtain ⟨queued, heq, hqueued⟩ := w.courier.notifyPaid_eq rhash
    rw [heq]
    refine ⟨queued, congrArg (· ++ queued) hflights.symm, .inl ⟨rfl, ?_⟩⟩
    rcases hqueued with ⟨rfl, -⟩ | ⟨target, rfl, -⟩ <;> simp
  | @deliver i origin target failStreak hd => exact hdeliver _ _ _ _ (herase i).symm rfl
  | @publishOk i orphan origin target failStreak hd =>
    obtain ⟨receiptTails, tails, heq⟩ := publishSucceeded_eq
      { w.courier with deliveries := w.courier.deliveries.eraseIdx i } target orphan
    rw [heq]
    exact hsame _ (herase i).symm
  | @publishFail i orphan origin target failStreak hd =>
    obtain ⟨receiptTails, tails, heq⟩ := publishFailed_eq
      { w.courier with deliveries := w.courier.deliveries.eraseIdx i } target failStreak orphan
    rw [heq]
    exact hsame _ (herase i).symm
  | @tailWake i tail htail hbegun =>
    rw [rebroadcastReceipt_eq]
    split
    · exact hdeliver _ _ _ _ hflights.symm rfl
    · exact hsame _ hflights.symm
  | tickNext => exact hdeliver _ _ _ _ hflights.symm rfl
  | cancel =>
    refine hsame _ ?_
    rw [cancelTasks, ← hflights, kept, List.filter_map]
    rfl
  | _ => exact hsame _ hflights.symm

/-- The publish of a receipt that is started now. -/
def attemptNow (w : Watched) (rhash : PaymentHash) : Attempt :=
  ⟨rhash, w.courier.now,
    (w.courier.receipts.lookup rhash).any fun e => e.windowClosed w.courier.now⟩

section Observe

variable (hstarted : w.attempts.map Attempt.rhash = w.courier.log.started)

include hstarted

theorem attempts_observe_of_same (hsame : s'.log.started = w.courier.log.started) :
    (w.observe a s').attempts = w.attempts := by
  have hnone : s'.log.started.drop w.attempts.length = [] := by
    rw [hsame, ← hstarted, ← List.length_map (f := Attempt.rhash), List.drop_length]
  rw [observe, hnone, List.map_nil, List.append_nil]

theorem attempts_observe_of_append {rhash : PaymentHash}
    (happend : s'.log.started = w.courier.log.started ++ [rhash]) :
    (w.observe a s').attempts = w.attempts ++ [w.attemptNow rhash] := by
  have hone : s'.log.started.drop w.attempts.length = [rhash] := by
    rw [happend, ← hstarted, ← List.length_map (f := Attempt.rhash), List.drop_left]
  rw [observe, hone]
  rfl

end Observe

/-- The flights that an action does not end were under way. -/
theorem mem_of_mem_kept {f : Flight} (hf : f ∈ w.kept a) : f ∈ w.flights := by
  cases a with
  | deliver i | publishOk i orphan | publishFail i orphan => exact List.mem_of_mem_eraseIdx hf
  | cancel => exact List.mem_of_mem_filter hf
  | _ => exact hf

theorem aligned_step (haligned : Aligned w) (h : w.courier.step a = some s') :
    Aligned (w.observe a s') := by
  obtain ⟨new, hnew, hpublishing⟩ := deliveries_step haligned.deliveries h
  have hdrop : s'.deliveries.drop (w.kept a).length = new := by
    rw [hnew, ← List.length_map (f := Flight.delivery), List.drop_left]
  have hflights : (w.observe a s').flights = w.kept a ++ new.map fun d =>
      ⟨d, if d.publishing then some w.attempts.length else none⟩ := by
    rw [← hdrop]
    rfl
  have hdeliveries : (w.observe a s').flights.map Flight.delivery = s'.deliveries := by
    rw [hflights, hnew, List.map_append, List.map_map]
    exact congrArg _ (List.map_id _)
  rcases hpublishing with ⟨hsame, hwaiting⟩ | ⟨d, rfl, hd, happend⟩
  · -- no publish was started
    have hattempts := attempts_observe_of_same (a := a) haligned.started hsame
    refine ⟨hdeliveries, by rw [hattempts, haligned.started]; exact hsame.symm, ?_, ?_⟩
    all_goals
      intro f hf hp
      rw [hflights, List.mem_append, List.mem_map] at hf
      rcases hf with hf | ⟨d, hd, rfl⟩
    · exact haligned.waiting f (mem_of_mem_kept hf) hp
    · exact if_neg (by rw [hwaiting d hd]; decide)
    · rw [hattempts]
      exact haligned.publishing f (mem_of_mem_kept hf) hp
    · cases (hwaiting d hd).symm.trans hp
  · -- the new publish is the last attempt
    have hattempts := attempts_observe_of_append (a := a) haligned.started happend
    have hstarted : (w.observe a s').attempts.map Attempt.rhash = s'.log.started := by
      rw [hattempts, List.map_append, haligned.started, happend]
      rfl
    refine ⟨hdeliveries, hstarted, ?_, ?_⟩
    all_goals
      intro f hf hp
      rw [hflights, List.mem_append, List.map_singleton, List.mem_singleton] at hf
      rcases hf with hf | rfl
    · exact haligned.waiting f (mem_of_mem_kept hf) hp
    · cases hd.symm.trans hp
    · obtain ⟨n, attempt, hn, hattempt, hr⟩ := haligned.publishing f (mem_of_mem_kept hf) hp
      refine ⟨n, attempt, hn, ?_, hr⟩
      rw [hattempts, List.getElem?_append_left (List.getElem?_eq_some_iff.1 hattempt).1]
      exact hattempt
    · refine ⟨w.attempts.length, w.attemptNow d.target.rhash, if_pos hd, ?_, rfl⟩
      rw [hattempts, List.getElem?_concat_length]

/-! ## Receipts that rest -/

/-- What the history says about the registry and the tasks. -/
structure WatchInv (w : Watched) : Prop where
  aligned : Aligned w
  known : KnownInv w.courier
  failures : ∀ n ∈ w.failures, n < w.attempts.length
  past : ∀ attempt ∈ w.attempts, attempt.start ≤ w.courier.now
  /-- An entry is stamped by its attempts. -/
  stamped : ∀ attempt ∈ w.attempts, ∀ e, w.courier.receipts.lookup attempt.rhash = some e →
    attempt.start ≤ e.lastAttempt
  /-- A receipt that rests is left alone. -/
  rests : ∀ rhash, w.Resting rhash → ¬ w.courier.Mentions rhash

/-- Of the attempts before a step and those after it: a publish that the step started is of the
receipt it began, and no publish fails with that step. -/
theorem attempts_step (hstarted : w.attempts.map Attempt.rhash = w.courier.log.started)
    (h : w.courier.step a = some s') :
    (w.observe a s').attempts = w.attempts ∨
      ∃ rhash, (w.observe a s').attempts = w.attempts ++ [w.attemptNow rhash] ∧
        w.courier.Mentions rhash ∧ w.failing a = none ∧
        s'.receipts = w.courier.receipts.recordAttempt w.courier.now rhash := by
  cases step_effect h with
  | quiet op hop hreceipts hlog hpublishing =>
    exact .inl (attempts_observe_of_same hstarted (by rw [hlog]))
  | remembered rhash payerPubkey requestEventId expiresAt hfresh hreceipts hlog hpublishing =>
    exact .inl (attempts_observe_of_same hstarted (by rw [hlog]))
  | offline rhash hmentioned hreceipts hlog hpublishing =>
    exact .inl (attempts_observe_of_same hstarted (by rw [hlog]))
  | began rhash hmentioned hbegins hreceipts hlog hpublishing =>
    refine .inr ⟨rhash, attempts_observe_of_append hstarted (by rw [hlog]), hmentioned, ?_,
      hreceipts⟩
    cases a with
    | publishFail i orphan => simp [begins] at hbegins
    | _ => rfl
  | succeeded rhash hmentioned hreceipts hlog hpublishing =>
    exact .inl (attempts_observe_of_same hstarted (by rw [hlog]))

/-- A step never moves the stamp of the last attempt back, and only an attempt moves it. -/
theorem lastAttempt_step (hinv : WatchInv w) (h : w.courier.step a = some s')
    {attempt : Attempt} (hattempt : attempt ∈ w.attempts) {e' : ReceiptEntry}
    (he' : s'.receipts.lookup attempt.rhash = some e') : attempt.start ≤ e'.lastAttempt := by
  have hpast := hinv.past attempt hattempt
  -- a new stamp is the present moment, and no attempt is of later
  have hattempted : ∀ rhash, s'.receipts = w.courier.receipts.recordAttempt w.courier.now rhash →
      attempt.start ≤ e'.lastAttempt := by
    intro rhash hreceipts
    rw [hreceipts] at he'
    by_cases hr : attempt.rhash = rhash
    · rw [← hr, ReceiptRegistry.lookup_recordAttempt_self, Option.map_eq_some_iff] at he'
      obtain ⟨e, -, rfl⟩ := he'
      exact hpast
    · rw [ReceiptRegistry.lookup_recordAttempt_of_ne _ _ hr] at he'
      exact hinv.stamped attempt hattempt e' he'
  cases step_effect h with
  | quiet op hop hreceipts hlog hpublishing =>
    rw [hreceipts] at he'
    rcases ReceiptRegistry.lookup_apply he' with ⟨_, _, _, rfl, -⟩ | ⟨-, e, he, hchange⟩
    · simp at hop
    · have hstamped := hinv.stamped attempt hattempt e he
      rcases hchange with rfl | ⟨-, -, rfl⟩ | ⟨-, rfl⟩ | ⟨-, -, rfl⟩
      · exact hstamped
      · exact hstamped
      · exact hpast
      · rw [(e.sent_fields _).2.2.2.2.2]
        exact hstamped
  | remembered rhash payerPubkey requestEventId expiresAt hfresh hreceipts hlog hpublishing =>
    rw [hreceipts] at he'
    rcases ReceiptRegistry.lookup_of_remember he' with ⟨hr, -⟩ | ⟨-, he⟩
    · -- a fresh hash was never attempted
      refine absurd (hinv.known.started attempt.rhash ?_) (hr ▸ hfresh)
      rw [← hinv.aligned.started]
      exact List.mem_map_of_mem hattempt
    · exact hinv.stamped attempt hattempt e' he
  | offline rhash hmentioned hreceipts hlog hpublishing => exact hattempted rhash hreceipts
  | began rhash hmentioned hbegins hreceipts hlog hpublishing => exact hattempted rhash hreceipts
  | succeeded rhash hmentioned hreceipts hlog hpublishing =>
    rw [hreceipts] at he'
    by_cases hr : attempt.rhash = rhash
    · rw [← hr, ReceiptRegistry.lookup_recordSend_self, Option.bind_eq_some_iff] at he'
      obtain ⟨e, he, he'⟩ := he'
      obtain ⟨-, hsent⟩ := Option.ite_none_left_eq_some.1 he'
      obtain rfl := Option.some.inj hsent
      rw [(e.sent_fields _).2.2.2.2.2]
      exact hinv.stamped attempt hattempt e he
    · rw [ReceiptRegistry.lookup_recordSend_of_ne _ _ hr] at he'
      exact hinv.stamped attempt hattempt e' he'

/-- A receipt that was never sent is not due while it rests, if its last attempt left a stamp. -/
theorem not_isDueNow_of_resting (hinv : WatchInv w) {rhash : PaymentHash} {e : ReceiptEntry}
    (hrests : w.Resting rhash) (he : w.courier.receipts.lookup rhash = some e)
    (hsends : e.sendCount = 0) (hstamp : e.lastAttempt ≠ 0) :
    e.isDueNow w.courier.now = false := by
  obtain ⟨n, -, attempt, hattempt, rfl, -, -, hlt⟩ := hrests
  have hle := hinv.stamped attempt (List.mem_of_getElem? hattempt) e he
  have hrecent : w.courier.now - e.lastAttempt < retryIntervalSec :=
    (sub_le_sub_left hle _).trans_lt hlt
  rw [ReceiptEntry.isDueNow]
  split
  · rfl
  · rw [if_neg (by omega)]
    simp [hstamp, hrecent]

/-- A receipt that rests after a step that failed none of its publishes rested before. -/
theorem resting_of_observe (hinv : WatchInv w) (h : w.courier.step a = some s')
    {rhash : PaymentHash} {n : ℕ} {attempt : Attempt} (hn : n ∈ w.failures)
    (hattempt : (w.observe a s').attempts[n]? = some attempt) (hr : attempt.rhash = rhash)
    (hlate : attempt.late = true) (hlatest : (w.observe a s').Latest n rhash)
    (hlt : s'.now - attempt.start < retryIntervalSec) : w.Resting rhash := by
  have hlength := hinv.failures n hn
  have hnow : w.courier.now - attempt.start < retryIntervalSec :=
    (sub_le_sub_right (now_le_of_step h) _).trans_lt hlt
  rcases attempts_step hinv.aligned.started h with hsame | ⟨began, happend, -⟩
  · rw [hsame] at hattempt
    rw [Latest, hsame] at hlatest
    exact ⟨n, hn, attempt, hattempt, hr, hlate, hlatest, hnow⟩
  · rw [happend, List.getElem?_append_left hlength] at hattempt
    rw [Latest, happend, List.drop_append_of_le_length (by omega)] at hlatest
    exact ⟨n, hn, attempt, hattempt, hr, hlate,
      fun later hlater => hlatest later (List.mem_append_left _ hlater), hnow⟩

/-- A failed publish whose window is not open schedules nothing. -/
theorem publishFailed_of_not_open {s : Courier} {target : ReceiptTarget} {failStreak : ℕ}
    {orphan : Bool} (hopen : ∀ e ∈ s.receipts.lookup target.rhash, e.windowOpen s.now = false) :
    s.publishFailed target failStreak orphan = s := by
  rw [publishFailed, ReceiptRegistry.failRetryDelay_eq_none_iff.2 hopen]

/-- What rests after a step is left alone. -/
theorem resting_step (hinv : WatchInv w) (hunhurried : Unhurried w a)
    (h : w.courier.step a = some s') (rhash : PaymentHash)
    (hrests : (w.observe a s').Resting rhash) : ¬ s'.Mentions rhash := by
  obtain ⟨n, hn, attempt, hattempt, hr, hlate, hlatest, hlt⟩ := hrests
  rcases List.mem_append.1 hn with hn | hn
  · -- the publish had failed before, so the receipt rested and was left alone
    have hrested := resting_of_observe hinv h hn hattempt hr hlate hlatest hlt
    intro hmentions
    rcases mentions_step_cases h hmentions with hbefore | ⟨rfl, hmem⟩ | ⟨rfl, e, he, hdue⟩
    · exact hinv.rests rhash hrested hbefore
    · exact hunhurried hmem hrested
    · obtain ⟨hsends, hstamp⟩ := hunhurried (rhash, e) (Dict.get?_eq_some_iff.1 he) hrested
      cases (not_isDueNow_of_resting hinv hrested he hsends hstamp).symm.trans hdue
  · -- the publish fails with this step
    have hfailing : n ∈ w.failing a := Option.mem_toList.1 hn
    cases step_outcome h with
    | @publishFail i orphan origin target failStreak hd =>
      have hold : (w.observe (.publishFail i orphan) (publishFailed { w.courier with
          deliveries := w.courier.deliveries.eraseIdx i } target failStreak orphan)).attempts =
            w.attempts := by
        rcases attempts_step hinv.aligned.started h with hsame | ⟨-, -, -, hnone, -⟩
        · exact hsame
        · cases hnone.symm.trans hfailing
      rw [hold] at hattempt
      obtain ⟨-, halone, hopen⟩ := hunhurried n hfailing attempt hattempt hlate
      -- the delivery that fails is the one of this attempt
      have htarget : target.rhash = attempt.rhash := by
        obtain ⟨f, hf, hplace⟩ := Option.bind_eq_some_iff.1 hfailing
        have hdelivery : f.delivery = ⟨origin, target, failStreak, true⟩ := by
          rw [← hinv.aligned.deliveries, List.getElem?_map, hf] at hd
          exact Option.some.inj hd
        obtain ⟨m, attempt', hm, hattempt', hr'⟩ :=
          hinv.aligned.publishing f (List.mem_of_getElem? hf) (by rw [hdelivery])
        obtain rfl := Option.some.inj (hplace.symm.trans hm)
        obtain rfl := Option.some.inj (hattempt.symm.trans hattempt')
        rw [hr', hdelivery]
      rw [publishFailed_of_not_open (by rw [htarget]; exact hopen), ← hr]
      exact halone
    | _ => cases hfailing

/-! ## Runs -/

/-- The numbers of failed publishes stay numbers of publishes. -/
theorem lt_of_mem_failures (hinv : WatchInv w) (h : w.courier.step a = some s') {n : ℕ}
    (hn : n ∈ (w.observe a s').failures) : n < (w.observe a s').attempts.length := by
  have hgrows : w.attempts.length ≤ (w.observe a s').attempts.length := by
    rw [observe, List.length_append]
    exact Nat.le_add_right _ _
  rcases List.mem_append.1 hn with hn | hn
  · exact (hinv.failures n hn).trans_le hgrows
  · have hfailing : n ∈ w.failing a := Option.mem_toList.1 hn
    cases a with
    | publishFail i orphan =>
      obtain ⟨f, hf, hplace⟩ := Option.bind_eq_some_iff.1 hfailing
      have hmem := List.mem_of_getElem? hf
      have hpublishing : f.delivery.publishing = true := by
        by_contra hwaiting
        cases (hinv.aligned.waiting f hmem (Bool.eq_false_of_not_eq_true hwaiting)).symm.trans
          hplace
      obtain ⟨m, attempt, hm, hattempt, -⟩ := hinv.aligned.publishing f hmem hpublishing
      obtain rfl := Option.some.inj (hplace.symm.trans hm)
      exact (List.getElem?_eq_some_iff.1 hattempt).1.trans_le hgrows
    | _ => cases hfailing

theorem watchInv_step (hinv : WatchInv w) (hunhurried : Unhurried w a)
    (h : w.courier.step a = some s') : WatchInv (w.observe a s') := by
  have hnow := now_le_of_step h
  refine ⟨aligned_step hinv.aligned h, knownInv_step hinv.known h,
    fun n hn => lt_of_mem_failures hinv h hn, ?_, ?_, resting_step hinv hunhurried h⟩
  all_goals
    intro attempt hattempt
    rcases attempts_step hinv.aligned.started h with hsame | ⟨rhash, happend, -, -, hreceipts⟩
  · rw [hsame] at hattempt
    exact (hinv.past attempt hattempt).trans hnow
  · rw [happend, List.mem_append, List.mem_singleton] at hattempt
    rcases hattempt with hattempt | rfl
    · exact (hinv.past attempt hattempt).trans hnow
    · exact hnow
  · rw [hsame] at hattempt
    exact fun e' he' => lastAttempt_step hinv h hattempt he'
  · rw [happend, List.mem_append, List.mem_singleton] at hattempt
    rcases hattempt with hattempt | rfl
    · exact fun e' he' => lastAttempt_step hinv h hattempt he'
    · -- the new attempt is the stamp
      intro e' he'
      have he' : s'.receipts.lookup rhash = some e' := he'
      rw [hreceipts, ReceiptRegistry.lookup_recordAttempt_self, Option.map_eq_some_iff] at he'
      obtain ⟨e, -, rfl⟩ := he'
      exact le_rfl

/-- A step keeps the publishes apart: the last one of the receipt that it publishes does not make
the receipt rest, and one that it fails has no successor. -/
theorem hourlySpaced_step (hinv : WatchInv w) (hspaced : HourlySpaced w)
    (hunhurried : Unhurried w a) (h : w.courier.step a = some s') :
    HourlySpaced (w.observe a s') := by
  intro m n first second hmn hfirst hsecond hr hbetween hlate hlate' hfailed
  rcases attempts_step hinv.aligned.started h with hsame | ⟨rhash, happend, hmentioned, hnone, -⟩
  · rw [hsame] at hfirst hsecond hbetween
    rcases List.mem_append.1 hfailed with hfailed | hfailed
    · exact hspaced m n first second hmn hfirst hsecond hr hbetween hlate hlate' hfailed
    · -- the step fails the first, which is then the last attempt at its receipt
      have hfailing : m ∈ w.failing a := Option.mem_toList.1 hfailed
      have hlatest : w.Latest m first.rhash := by
        cases a with
        | publishFail i orphan => exact (hunhurried m hfailing first hfirst hlate).1
        | _ => cases hfailing
      refine absurd hr (hlatest second ?_)
      obtain ⟨k, rfl⟩ := Nat.exists_eq_add_of_lt hmn
      rw [Nat.add_right_comm, ← List.getElem?_drop] at hsecond
      exact List.mem_of_getElem? hsecond
  · have hfailed : m ∈ w.failures := by
      rw [observe, hnone] at hfailed
      simpa using hfailed
    have hm := hinv.failures m hfailed
    rw [happend, List.getElem?_append_left hm] at hfirst
    by_cases hn : n < w.attempts.length
    · rw [happend, List.getElem?_append_left hn] at hsecond
      refine hspaced m n first second hmn hfirst hsecond hr (fun k between hmk hkn hk => ?_) hlate
        hlate' hfailed
      refine hbetween k between hmk hkn ?_
      rw [happend, List.getElem?_append_left (hkn.trans hn)]
      exact hk
    · -- the second is the one that starts now; had it come too early, its receipt would rest
      have hsecond' : second = w.attemptNow rhash := by
        rw [happend, List.getElem?_append_right (not_lt.1 hn)] at hsecond
        exact List.mem_singleton.1 (List.mem_of_getElem? hsecond)
      by_contra hearly
      have hlt : w.courier.now - first.start < retryIntervalSec := by
        rw [hsecond', not_le] at hearly
        exact sub_lt_iff_lt_add'.2 hearly
      have hrhash : first.rhash = rhash := by rw [← hr, hsecond']; rfl
      refine hinv.rests rhash ⟨m, hfailed, first, hfirst, hrhash, hlate, ?_, hlt⟩ hmentioned
      intro between hbetween'
      obtain ⟨k, hk⟩ := List.mem_iff_getElem?.1 hbetween'
      rw [List.getElem?_drop] at hk
      have hlength := (List.getElem?_eq_some_iff.1 hk).1
      rw [← hrhash]
      refine hbetween (m + 1 + k) between (by omega) (by omega) ?_
      rw [happend, List.getElem?_append_left hlength]
      exact hk

/-- The courier runs the same whether it is watched or not. -/
theorem exists_watched {now : Time} {s : Courier}
    (h : Courier.Reachable (fun _ _ => True) (Courier.start now) s) :
    ∃ w, Reachable (fun _ _ => True) (start now) w ∧ s = w.courier := by
  refine Transition.Reachable.simulation (R := fun s (w : Watched) => s = w.courier) h rfl ?_
  rintro s a t w rfl - hstep
  exact ⟨[a], w.observe a t, by simp [Transition.exec, step, hstep], rfl⟩

/-- Retries fall back to the hourly tick. In every run whose steps are unhurried, of two consecutive
publishes of a receipt that both started after its fast-retry window had closed and the first of
which failed, the second started at least `RETRY_INTERVAL_SEC` after the first. -/
theorem late_attempts_hourly {now : Time} {w : Watched}
    (hrun : Reachable Unhurried (start now) w) : HourlySpaced w := by
  have hinv : WatchInv w ∧ HourlySpaced w := by
    refine hrun.invariant (I := fun w => WatchInv w ∧ HourlySpaced w) ⟨?_, ?_⟩
      fun w a w' hinv hunhurried hstep => ?_
    · refine ⟨⟨rfl, rfl, ?_, ?_⟩, knownInv_start now, ?_, ?_, ?_, ?_⟩ <;> simp [start, Resting]
    · intro m n first second _ hfirst
      cases hfirst
    · obtain ⟨s', hs', rfl⟩ := Option.map_eq_some_iff.1 hstep
      exact ⟨watchInv_step hinv.1 hunhurried hs',
        hourlySpaced_step hinv.1 hinv.2 hunhurried hs'⟩
  exact hinv.2

/-- A receipt that is never sent: a tail that wakes up at 2000 fails late, the tick at 3600 finds
the attempt too recent, and the one at 7200 publishes again. -/
def neverSent : List Action :=
  [.remember "r" "p" "q" 100, .connect, .openGroup, .tickStart, .tickDone, .paid "r", .deliver 0,
    .publishFail 0 false, .tailStart 0, .advance 2000, .tailWake 0, .publishFail 0 false,
    .advance 3600, .tickStart, .tickDone, .advance 7200, .tickStart, .tickNext]

/-- Its late publishes are more than an hour apart. -/
theorem late_attempts_hourly_never_sent :
    ∃ w, Reachable Unhurried (start 0) w ∧
      w.attempts = [⟨"r", 0, false⟩, ⟨"r", 2000, true⟩, ⟨"r", 7200, true⟩] ∧ HourlySpaced w := by
  have hexec : (Transition.exec (Transition.guarded step Unhurried) (start 0) neverSent).any
      (fun w => decide (w.attempts = [⟨"r", 0, false⟩, ⟨"r", 2000, true⟩, ⟨"r", 7200, true⟩])) =
        true := by
    decide +kernel
  obtain ⟨w, hrun, hattempts⟩ := Transition.exists_reachable_of_exec_guarded hexec
  exact ⟨w, hrun, of_decide_eq_true hattempts, late_attempts_hourly hrun⟩

/-- A receipt is sent at 0 and its schedule is interrupted. At 700 the listener reconnects, and the
publish of the first tick fails; at 705 it reconnects again. -/
def reconnecting : List Action :=
  [.remember "r" "p" "q" 100, .connect, .openGroup, .tickStart, .tickDone, .paid "r", .deliver 0,
    .publishOk 0 false, .tailStart 0, .cancel, .exitGroup, .advance 700, .openGroup, .tickStart,
    .tickNext, .publishFail 0 false, .tickDone, .cancel, .exitGroup, .advance 705, .openGroup,
    .tickStart, .tickNext]

/-- The second reconnect publishes a receipt that was sent before five seconds after the late
publish of the first one failed. -/
theorem reconnect_hammers_sent_receipt :
    ∃ w, Transition.exec step (start 0) reconnecting = some w ∧
      w.attempts = [⟨"r", 0, false⟩, ⟨"r", 700, true⟩, ⟨"r", 705, true⟩] ∧ w.failures = [1] ∧
      ¬ HourlySpaced w := by
  have hexec : (Transition.exec step (start 0) reconnecting).any (fun w =>
      decide (w.attempts = [⟨"r", 0, false⟩, ⟨"r", 700, true⟩, ⟨"r", 705, true⟩]) &&
      decide (w.failures = [1])) = true := by
    decide +kernel
  obtain ⟨w, hw, hat⟩ := (Option.any_eq_true _ _).1 hexec
  simp only [Bool.and_eq_true, decide_eq_true_eq] at hat
  obtain ⟨hattempts, hfailures⟩ := hat
  refine ⟨w, hw, hattempts, hfailures, fun hspaced => ?_⟩
  have hhour := hspaced 1 2 ⟨"r", 700, true⟩ ⟨"r", 705, true⟩ (by omega) (by rw [hattempts]; rfl)
    (by rw [hattempts]; rfl) rfl (by omega) rfl rfl
    (by rw [hfailures]; exact List.mem_singleton_self 1)
  norm_num [retryIntervalSec] at hhour

end Watched

end Courier

end ElectrumClink
