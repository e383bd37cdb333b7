import ElectrumClink.Data.Transition
import ElectrumClink.DevFee

/-!
# The payout of the dev fee

`maybe_pay_devfee` and what runs beside it. Any number of calls may be under way; all but one wait
for `_devfee_lock`, and the one inside waits for the destination to be resolved, for an invoice, or
for the payment. Control changes hands only at those waits, so one action is what a call does
between two of them, or something that happens meanwhile: a payment accrues, the status is read,
the settings change, the listener's taskgroup is cancelled and opened again.

A call of the startup check runs inside the listener's taskgroup and is cancelled with it; the
others are scheduled on the event loop. A cancellation is no `Exception`: it leaves the call through
the lock, past every handler.

The network calls are answers of the outside world. The activity feed and the log lines are left
out.
-/

namespace ElectrumClink

/-- What an LNURL-pay endpoint accepts. -/
structure LnurlPay where
  minSendableSat : ℤ
  maxSendableSat : ℤ
deriving DecidableEq

/-- What becomes of the request for an invoice. -/
inductive InvoiceAnswer
  /-- `_request_devfee_invoice` raises. -/
  | failed (error : String)
  /-- `Invoice.from_bech32` raises. -/
  | undecodable (error : String)
  /-- An invoice, with its `get_amount_sat()`. -/
  | decoded (amountSat : Option ℤ)
deriving DecidableEq

/-- What `maybe_pay_devfee` returns. -/
structure PayoutResult where
  paid : Bool
  reason : Option String
  amountSat : Option ℤ
  owedSat : Option ℤ
deriving DecidableEq

/-- A call of `maybe_pay_devfee`. -/
structure PayoutCall where
  force : Bool
  /-- Whether it runs inside the listener's taskgroup. -/
  grouped : Bool
deriving DecidableEq

/-- What the call that holds the lock waits for. -/
inductive PayoutStage
  | resolving (payableSat : ℤ)
  | requesting (lnurl : LnurlPay) (amountSat : ℤ)
  | paying (amountSat : ℤ)
deriving DecidableEq

/-- The call that holds the lock. -/
structure PayoutHolder where
  call : PayoutCall
  stage : PayoutStage
deriving DecidableEq

/-- How far `_devfee_startup_check` of the current taskgroup has come. -/
inductive StartupCheck
  /-- There is no taskgroup. -/
  | absent
  /-- It polls until the wallet is online. -/
  | polling
  /-- It has called `maybe_pay_devfee`. -/
  | called
deriving DecidableEq

/-- A call of `pay_invoice`, and the ledger at the time. -/
structure PayCall where
  time : Time
  call : PayoutCall
  amountSat : ℤ
  lnurl : LnurlPay
  ledger : DevFeeLedger

/-- What has happened so far. It is read by no code. -/
structure PayoutLog where
  /-- What `accrue` returned. -/
  feesMsat : List ℤ
  /-- The payouts that `record_success` recorded, with their stamps. -/
  payouts : List (ℤ × ℤ)
  payCalls : List PayCall
  results : List PayoutResult

/-- The state behind the payouts of the dev fee. -/
structure Treasurer where
  now : Time
  ledger : DevFeeLedger
  devfeeEnabled : Bool
  devfeeRatePercent : ℚ
  /-- `devfee_dest`, stripped. -/
  devfeeDest : String
  /-- The calls that wait for the lock. -/
  waiting : List PayoutCall
  /-- `_devfee_lock`, with the call inside it. -/
  holder : Option PayoutHolder
  startup : StartupCheck
  log : PayoutLog

namespace Treasurer

/-- A server that has not connected yet. -/
def start (now : Time) (ledger : DevFeeLedger) (enabled : Bool) (ratePercent : ℚ)
    (dest : String) : Treasurer where
  now := now
  ledger := ledger
  devfeeEnabled := enabled
  devfeeRatePercent := ratePercent
  devfeeDest := dest
  waiting := []
  holder := none
  startup := .absent
  log := ⟨[], [], [], []⟩

/-! ## A call, from one wait to the next -/

/-- The call returns, and the lock is free. -/
def leave (s : Treasurer) (result : PayoutResult) : Treasurer :=
  { s with
    holder := none
    log := { s.log with results := s.log.results ++ [result] } }

/-- The call records a failure and returns. -/
def fail (s : Treasurer) (now : Time) (reason : String) : Treasurer :=
  { s with ledger := s.ledger.recordFailure now }.leave ⟨false, some reason, none, none⟩

/-- The call has the lock: decide whether a payout is due, and how much to send at most. -/
def enter (s : Treasurer) (call : PayoutCall) (dueNow windowNow payableNow : Time) : Treasurer :=
  let (attempt, ledger) := s.ledger.shouldAttempt s.devfeeEnabled call.force dueNow windowNow
  let s := { s with ledger := ledger }
  if !attempt then s.leave ⟨false, some "not due", none, some s.ledger.owedSat⟩
  else if s.devfeeDest = "" then s.leave ⟨false, some "no destination configured", none, none⟩
  else
    let (payable, ledger) := s.ledger.payableSat payableNow
    { s with ledger := ledger, holder := some ⟨call, .resolving payable⟩ }

/-- `_resolve_devfee_lnurl` has answered: settle the amount. -/
def resolve (s : Treasurer) (call : PayoutCall) (payable : ℤ) (answer : Except String LnurlPay)
    (now : Time) : Treasurer :=
  match answer with
  | .error e => s.fail now ("prepare failed: " ++ e)
  | .ok lnurl =>
    -- a sizing mismatch doesn't burn the daily attempt
    if lnurl.minSendableSat > payable ∨ lnurl.maxSendableSat < minPayoutSat then
      s.leave ⟨false, some "amount outside LNURL range", none, none⟩
    else
      { s with
        holder := some ⟨call, .requesting lnurl (min payable lnurl.maxSendableSat)⟩ }

/-- `_request_devfee_invoice` has answered: check the invoice and call `pay_invoice`. -/
def invoice (s : Treasurer) (call : PayoutCall) (lnurl : LnurlPay) (amountSat : ℤ)
    (answer : InvoiceAnswer) (now : Time) : Treasurer :=
  match answer with
  | .failed e => s.fail now ("prepare failed: " ++ e)
  | .undecodable e => s.fail now ("payment failed: " ++ e)
  | .decoded invoiceSat =>
    if invoiceSat ≠ some amountSat then
      s.fail now "payment failed: LNURL returned an invoice with the wrong amount"
    else
      { s with
        holder := some ⟨call, .paying amountSat⟩
        log := { s.log with
          payCalls := s.log.payCalls ++ [⟨now, call, amountSat, lnurl, s.ledger⟩] } }

/-- `pay_invoice` has returned, or raised. -/
def settle (s : Treasurer) (amountSat : ℤ) (answer : Except String Bool)
    (windowNow stampNow attemptNow : Time) : Treasurer :=
  match answer with
  | .error e => s.fail attemptNow ("payment failed: " ++ e)
  | .ok false => s.fail attemptNow "payment did not complete"
  | .ok true =>
    let ledger := s.ledger.recordSuccess amountSat windowNow stampNow attemptNow
    let s := { s with
      ledger := ledger
      log := { s.log with payouts := s.log.payouts ++ [(wholeSeconds stampNow, amountSat)] } }
    s.leave ⟨true, none, some amountSat, some s.ledger.owedSat⟩

/-- The tasks of the listener's taskgroup are cancelled, wherever they wait. -/
def cancelTasks (s : Treasurer) : Treasurer :=
  { s with
    startup := .absent
    waiting := s.waiting.filter fun call => !call.grouped
    -- `async with` lets go of the lock
    holder := s.holder.filter fun holder => !holder.call.grouped }

/-! ## Steps -/

/-- What can happen next. The moments are what the clock reads during the action, in order. -/
inductive Action
  /-- Time passes. -/
  | advance (now : Time)
  /-- The fee on a paid invoice accrues. -/
  | accrue (receivedSat : ℤ)
  | configure (enabled : Bool) (ratePercent : ℚ) (dest : String)
  | status (paidNow capNow dueNow : Time)
  /-- A call is scheduled on the event loop, after a payment or by the "pay now" command. -/
  | schedule (force : Bool)
  /-- `run` opens a taskgroup and spawns the startup check. -/
  | openListener
  /-- The startup check finds the wallet online and calls `maybe_pay_devfee`. -/
  | online
  /-- `restart_event_handler`, or a failed task, cancels the taskgroup. -/
  | cancelListener
  /-- A waiting call acquires the lock. -/
  | acquire (i : ℕ) (dueNow windowNow payableNow : Time)
  | resolved (answer : Except String LnurlPay) (now : Time)
  | invoiced (answer : InvoiceAnswer) (now : Time)
  | settled (answer : Except String Bool) (windowNow stampNow attemptNow : Time)

/-- The moments read during an action. -/
def Action.readings : Action → List Time
  | .advance now => [now]
  | .accrue _ | .configure .. | .schedule _ | .openListener | .online | .cancelListener => []
  | .status paidNow capNow dueNow => [paidNow, capNow, dueNow]
  | .acquire _ dueNow windowNow payableNow => [dueNow, windowNow, payableNow]
  | .resolved _ now | .invoiced _ now => [now]
  | .settled _ windowNow stampNow attemptNow => [windowNow, stampNow, attemptNow]

/-- Perform one action, if it is enabled. -/
def perform (s : Treasurer) : Action → Option Treasurer
  | .advance _ => some s
  | .accrue receivedSat =>
    let (added, ledger) := s.ledger.accrue s.devfeeEnabled s.devfeeRatePercent receivedSat
    some { s with
      ledger := ledger
      log := { s.log with feesMsat := s.log.feesMsat ++ [added] } }
  | .configure enabled ratePercent dest =>
    some { s with
      devfeeEnabled := enabled
      devfeeRatePercent := ratePercent
      devfeeDest := dest }
  | .status paidNow capNow dueNow =>
    let (_, ledger) := s.ledger.status s.devfeeEnabled s.devfeeRatePercent paidNow capNow dueNow
    some { s with ledger := ledger }
  | .schedule force => some { s with waiting := s.waiting ++ [⟨force, false⟩] }
  | .openListener => if s.startup = .absent then some { s with startup := .polling } else none
  | .online =>
    if s.startup = .polling then
      some { s with startup := .called, waiting := s.waiting ++ [⟨false, true⟩] }
    else none
  | .cancelListener => if s.startup = .absent then none else some s.cancelTasks
  | .acquire i dueNow windowNow payableNow =>
    match s.holder, s.waiting[i]? with
    | none, some call =>
      some ({ s with waiting := s.waiting.eraseIdx i }.enter call dueNow windowNow payableNow)
    | _, _ => none
  | .resolved answer now =>
    match s.holder with
    | some ⟨call, .resolving payable⟩ => some (s.resolve call payable answer now)
    | _ => none
  | .invoiced answer now =>
    match s.holder with
    | some ⟨call, .requesting lnurl amountSat⟩ => some (s.invoice call lnurl amountSat answer now)
    | _ => none
  | .settled answer windowNow stampNow attemptNow =>
    match s.holder with
    | some ⟨_, .paying amountSat⟩ => some (s.settle amountSat answer windowNow stampNow attemptNow)
    | _ => none

/-- Perform one action; the clock then shows the last moment that was read. -/
def step (s : Treasurer) (a : Action) : Option Treasurer :=
  (s.perform a).map fun t => { t with now := a.readings.getLastD s.now }

/-- The states a run reaches by steps that meet `P`. -/
abbrev Reachable (P : Treasurer → Action → Prop) (s₀ s : Treasurer) : Prop :=
  Transition.Reachable step P s₀ s

/-- A call that pays `amountSat` at the moment `t`, with a fee that accrues while it waits. -/
def onePayout (force : Bool) (amountSat : ℤ) (t : Time) : List Action :=
  [.schedule force, .acquire 0 t t t, .accrue 50000, .resolved (.ok ⟨1, amountSat⟩) t,
    .invoiced (.decoded (some amountSat)) t, .accrue 50000, .settled (.ok true) t t t]

/-- The clock does not go back. -/
def ClockForward (s : Treasurer) (a : Action) : Prop := (s.now :: a.readings).Pairwise (· ≤ ·)

instance (s : Treasurer) (a : Action) : Decidable (s.ClockForward a) :=
  inferInstanceAs (Decidable ((s.now :: a.readings).Pairwise (· ≤ ·)))

end Treasurer

end ElectrumClink
