import ElectrumClink.Data.Transition
import ElectrumClink.Receipts.Registry

/-!
# The delivery of receipts

The asynchronous part of the server: `_deliver_receipt`, the re-broadcast tails, the redelivery
loop, and the taskgroup and relay manager they depend on. Control changes hands only where a
coroutine waits, so one action is what a coroutine does between two such points, or something
that happens outside: a payment notification, a relay's answer, the loss of the connection.

A delivery waits while it publishes. The tails and the redelivery loop run inside the taskgroup and
are cancelled with it. The deliveries that a PR_PAID notification schedules run outside and survive.

The liveness check at the end of a tick is not modelled: it delays the next tick, and so does the
sleep that follows it.
-/

namespace ElectrumClink

/-- Where a running `_deliver_receipt` was called from. -/
inductive Origin
  /-- Scheduled on the event loop by `on_event_request_status`. -/
  | notification
  | tail (grouped : Bool)
  | tick
deriving DecidableEq

/-- A running `_deliver_receipt`. -/
structure Delivering where
  origin : Origin
  target : ReceiptTarget
  failStreak : ℕ
  /-- Whether it waits for the relay; `false` while the event loop has not run it yet. -/
  publishing : Bool
deriving DecidableEq

/-- How far a re-broadcast task has come. -/
inductive TailPhase
  /-- The event loop has not run it yet. -/
  | created (delay : Time)
  | sleeping (wakeAt : Time)
deriving DecidableEq

/-- Whether the event loop has run the task. -/
def TailPhase.begun : TailPhase → Bool
  | created _ => false
  | sleeping _ => true

/-- A task that runs `_rebroadcast_receipt_later` and has not woken up yet. -/
structure Tail where
  target : ReceiptTarget
  failStreak : ℕ
  phase : TailPhase
  /-- Whether it belongs to the taskgroup. -/
  grouped : Bool
deriving DecidableEq

/-- The task that runs `_redeliver_receipts`. -/
inductive RedeliveryLoop
  | absent
  /-- Spawned with the taskgroup, and not run yet. -/
  | starting
  /-- In a tick, with the targets still to deliver; `first` in the first tick of its taskgroup. -/
  | iterating (first : Bool) (targets : List ReceiptTarget)
  | sleeping (wakeAt : Time)
deriving DecidableEq

/-- `self.taskgroup`. -/
inductive TaskGroup
  | none
  | running
  /-- Its tasks are gone and it accepts no others, while `run` handles the exception it raised. -/
  | joined
deriving DecidableEq

/-- What has happened so far. It is read by no code. -/
structure DeliveryLog where
  /-- The payment hashes that were remembered. -/
  known : List PaymentHash
  /-- The publishes that were started. -/
  started : List PaymentHash
  /-- The publishes that succeeded. -/
  sent : List PaymentHash
  /-- The publishes that succeeded since the last tick began. -/
  sentInTick : List PaymentHash
  /-- When a delivery last found no manager. -/
  offline : Dict PaymentHash Time

/-- The state behind the delivery of receipts. -/
structure Courier where
  now : Time
  receipts : ReceiptRegistry
  /-- Whether there is a relay manager. -/
  manager : Bool
  taskgroup : TaskGroup
  /-- `_receipt_tails`: the payment hashes with a tail scheduled. -/
  receiptTails : List PaymentHash
  tails : List Tail
  deliveries : List Delivering
  redelivery : RedeliveryLoop
  log : DeliveryLog

namespace Courier

/-- A server that has not connected yet. -/
def start (now : Time) : Courier where
  now := now
  receipts := .empty
  manager := false
  taskgroup := .none
  receiptTails := []
  tails := []
  deliveries := []
  redelivery := .absent
  log := ⟨[], [], [], [], ∅⟩

/-! ## The coroutines, from one wait to the next -/

/-- `tg.spawn` of a tail. A joined taskgroup raises; `orphan` says whether the task that was made
for the tail runs nevertheless. -/
def spawnTail (s : Courier) (target : ReceiptTarget) (delay : Time) (failStreak : ℕ)
    (orphan : Bool) : Courier :=
  match s.taskgroup with
  -- not reached: the caller has looked
  | .none => s
  | .running => { s with tails := s.tails ++ [⟨target, failStreak, .created delay, true⟩] }
  | .joined =>
    if orphan then { s with tails := s.tails ++ [⟨target, failStreak, .created delay, false⟩] }
    else s

/-- `_schedule_receipt_rebroadcast`. -/
def scheduleReceiptRebroadcast (s : Courier) (target : ReceiptTarget) (delay : Time)
    (failStreak : ℕ) (orphan : Bool) : Courier :=
  if s.taskgroup = .none ∨ target.rhash ∈ s.receiptTails then s
  else
    -- the guard is set first, and stays when `spawn` raises
    { s with receiptTails := s.receiptTails ++ [target.rhash] }.spawnTail target delay failStreak
      orphan

/-- `_deliver_receipt` up to its publish. -/
def deliverReceipt (s : Courier) (origin : Origin) (target : ReceiptTarget) (failStreak : ℕ) :
    Courier :=
  -- the attempt is stamped even when there is nobody to publish to
  let s := { s with receipts := s.receipts.recordAttempt s.now target.rhash }
  if !s.manager then
    { s with log := { s.log with offline := s.log.offline.set target.rhash s.now } }
  else
    { s with
      deliveries := s.deliveries ++ [⟨origin, target, failStreak, true⟩]
      log := { s.log with started := s.log.started ++ [target.rhash] } }

/-- `_deliver_receipt` after a successful publish. -/
def publishSucceeded (s : Courier) (target : ReceiptTarget) (orphan : Bool) : Courier :=
  let s := { s with log := { s.log with
    sent := s.log.sent ++ [target.rhash]
    sentInTick := s.log.sentInTick ++ [target.rhash] } }
  let (nextDelay, receipts) := s.receipts.recordSend s.now target.rhash
  let s := { s with receipts := receipts }
  match nextDelay with
  | none => s
  | some delay =>
    -- a success ends the streak of failures
    s.scheduleReceiptRebroadcast { target with sends := target.sends + 1 } delay 0 orphan

/-- `_deliver_receipt` after a failed publish. -/
def publishFailed (s : Courier) (target : ReceiptTarget) (failStreak : ℕ) (orphan : Bool) :
    Courier :=
  match s.receipts.failRetryDelay s.now target.rhash (failStreak + 1) with
  -- the window is closed: left to the hourly tick
  | none => s
  | some retryDelay =>
    s.scheduleReceiptRebroadcast target retryDelay (failStreak + 1) orphan

/-- `_rebroadcast_receipt_later` from the end of its sleep. -/
def rebroadcastReceipt (s : Courier) (tail : Tail) : Courier :=
  let s := { s with receiptTails := s.receiptTails.filter fun rhash => rhash ≠ tail.target.rhash }
  -- another path may have completed the schedule meanwhile
  if !s.receipts.isOwed tail.target.rhash then s
  else s.deliverReceipt (.tail tail.grouped) tail.target tail.failStreak

/-- `on_event_request_status` for a paid request: the delivery it schedules runs later. -/
def notifyPaid (s : Courier) (rhash : PaymentHash) : Courier :=
  let (target, receipts) := s.receipts.markDue s.now rhash
  let s := { s with receipts := receipts }
  match target with
  | none => s
  | some target => { s with deliveries := s.deliveries ++ [⟨.notification, target, 0, false⟩] }

/-- The start of a tick: sweep, and list the receipts that are due. -/
def beginTick (s : Courier) (first : Bool) : Courier :=
  let (_stale, receipts) := s.receipts.sweep s.now
  { s with
    receipts := receipts
    redelivery := .iterating first (receipts.dueTargets s.now)
    log := { s.log with sentInTick := [] } }

/-- The tasks of the taskgroup are cancelled. A tail that sleeps clears its guard on the way out;
one that has not run yet never enters the `try` that would. -/
def cancelTasks (s : Courier) : Courier :=
  let cleared := (s.tails.filter fun tail => tail.grouped && tail.phase.begun).map
    fun tail => tail.target.rhash
  { s with
    receiptTails := s.receiptTails.filter fun rhash => rhash ∉ cleared
    -- orphans and the deliveries of notifications do not belong to the group
    tails := s.tails.filter fun tail => !tail.grouped
    deliveries := s.deliveries.filter fun d => d.origin ≠ .tail true ∧ d.origin ≠ .tick
    redelivery := .absent }

/-- Whether no task of the taskgroup is left. -/
def tasksDone (s : Courier) : Prop :=
  s.redelivery = .absent ∧ (∀ tail ∈ s.tails, tail.grouped = false) ∧
    ∀ d ∈ s.deliveries, d.origin = .notification ∨ d.origin = .tail false

instance (s : Courier) : Decidable s.tasksDone :=
  inferInstanceAs (Decidable (s.redelivery = .absent ∧ (∀ tail ∈ s.tails, tail.grouped = false) ∧
    ∀ d ∈ s.deliveries, d.origin = .notification ∨ d.origin = .tail false))

/-! ## Steps -/

/-- What can happen next. -/
inductive Action
  /-- Time passes. -/
  | advance (t : Time)
  /-- An invoice is issued. -/
  | remember (rhash : PaymentHash) (payerPubkey : Pubkey) (requestEventId : EventId)
      (expiresAt : Time)
  /-- A PR_PAID notification arrives. -/
  | paid (rhash : PaymentHash)
  /-- The event loop runs a delivery that a notification scheduled. -/
  | deliver (i : ℕ)
  /-- A relay accepts the receipt of a delivery. -/
  | publishOk (i : ℕ) (orphan : Bool)
  /-- A publish is rejected, raises or times out. -/
  | publishFail (i : ℕ) (orphan : Bool)
  /-- The event loop runs a tail, which goes to sleep. -/
  | tailStart (i : ℕ)
  /-- A tail wakes up. -/
  | tailWake (i : ℕ)
  | tickStart
  /-- A tick delivers its next receipt. -/
  | tickNext
  /-- A tick has delivered its receipts. -/
  | tickDone
  /-- `refresh_manager` succeeds. -/
  | connect
  /-- A taskgroup is opened and the redelivery loop spawned into it. -/
  | openGroup
  /-- The tasks of the taskgroup are cancelled, by `restart_event_handler` or after one failed. -/
  | cancel
  /-- The taskgroup, its tasks gone, exits normally. -/
  | exitGroup
  /-- The taskgroup, its tasks gone, raises the exception of one. -/
  | failGroup
  /-- `run` closes the manager after an exception. -/
  | dropManager
  /-- `run` has handled the exception. -/
  | resetGroup
deriving DecidableEq

/-- No delivery of the redelivery loop is under way. -/
def loopWaits (s : Courier) : Prop := ∀ d ∈ s.deliveries, d.origin ≠ .tick

instance (s : Courier) : Decidable s.loopWaits :=
  inferInstanceAs (Decidable (∀ d ∈ s.deliveries, d.origin ≠ .tick))

/-- When the redelivery loop begins a tick, whether it is the first of its taskgroup. -/
def tickBegins (s : Courier) : Option Bool :=
  match s.redelivery with
  | .starting => some true
  | .sleeping wakeAt => if wakeAt ≤ s.now then some false else none
  | _ => none

/-- Perform one action, if it is enabled. -/
def step (s : Courier) : Action → Option Courier
  | .advance t => if s.now ≤ t then some { s with now := t } else none
  | .remember rhash payerPubkey requestEventId expiresAt =>
    if rhash ∈ s.log.known then none
    else some { s with
      receipts := (s.receipts.remember rhash payerPubkey requestEventId expiresAt).2
      log := { s.log with known := s.log.known ++ [rhash] } }
  | .paid rhash => some (s.notifyPaid rhash)
  | .deliver i =>
    match s.deliveries[i]? with
    | some ⟨origin, target, failStreak, false⟩ =>
      some ({ s with deliveries := s.deliveries.eraseIdx i }.deliverReceipt origin target
        failStreak)
    | _ => none
  | .publishOk i orphan =>
    match s.deliveries[i]? with
    | some ⟨_, target, _, true⟩ =>
      some ({ s with deliveries := s.deliveries.eraseIdx i }.publishSucceeded target orphan)
    | _ => none
  | .publishFail i orphan =>
    match s.deliveries[i]? with
    | some ⟨_, target, failStreak, true⟩ =>
      some ({ s with deliveries := s.deliveries.eraseIdx i }.publishFailed target failStreak orphan)
    | _ => none
  | .tailStart i =>
    match s.tails[i]? with
    | some ⟨target, failStreak, .created delay, grouped⟩ =>
      some { s with
        tails := s.tails.set i ⟨target, failStreak, .sleeping (s.now + delay), grouped⟩ }
    | _ => none
  | .tailWake i =>
    match s.tails[i]? with
    | some ⟨target, failStreak, .sleeping wakeAt, grouped⟩ =>
      if wakeAt ≤ s.now then
        some ({ s with tails := s.tails.eraseIdx i }.rebroadcastReceipt
          ⟨target, failStreak, .sleeping wakeAt, grouped⟩)
      else none
    | _ => none
  | .tickStart => s.tickBegins.map s.beginTick
  | .tickNext =>
    match s.redelivery with
    | .iterating first (target :: targets) =>
      if s.loopWaits then
        some ({ s with redelivery := .iterating first targets }.deliverReceipt .tick target 0)
      else none
    | _ => none
  | .tickDone =>
    match s.redelivery with
    | .iterating _ [] =>
      if s.loopWaits then some { s with redelivery := .sleeping (s.now + retryIntervalSec) }
      else none
    | _ => none
  | .connect => if s.taskgroup = .none then some { s with manager := true } else none
  | .openGroup =>
    if s.taskgroup = .none ∧ s.manager = true then
      some { s with taskgroup := .running, redelivery := .starting }
    else none
  | .cancel => if s.taskgroup = .running then some s.cancelTasks else none
  | .exitGroup =>
    if s.taskgroup = .running ∧ s.tasksDone then some { s with taskgroup := .none } else none
  | .failGroup =>
    if s.taskgroup = .running ∧ s.tasksDone then some { s with taskgroup := .joined } else none
  | .dropManager => if s.taskgroup = .joined then some { s with manager := false } else none
  | .resetGroup => if s.taskgroup = .joined then some { s with taskgroup := .none } else none

/-- The states a run reaches by steps that meet `P`. -/
abbrev Reachable (P : Courier → Action → Prop) (s₀ s : Courier) : Prop :=
  Transition.Reachable step P s₀ s

end Courier

end ElectrumClink
