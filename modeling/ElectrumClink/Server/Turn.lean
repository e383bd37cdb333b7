import ElectrumClink.Data.Act
import ElectrumClink.Server.Model

/-!
# The handlers of the server, call by call

`_dispatch`, `_issue_invoice` and `on_event_request_status` again, statement by statement: every
call of `time.time()` and of `num_sats_can_receive()` has an answer of its own, an exception ends
the run where it is raised, and the calls whose number and order matter are listed as they are
made.

The functions of `Server.Model` are the same handlers at one reading of the clock and of the
capacity; `Server.TurnModel` proves it.
-/

namespace ElectrumClink

/-- A call that a handler makes. -/
inductive ServerCall
  | tryReserve (rhash : PaymentHash) (amountSat : ℤ) (reserved : Bool)
  | markIssued (rhash : PaymentHash)
  | sendResponse (payload : Payload)
  | accrue (rhash : PaymentHash) (amountSat : ℤ)
deriving DecidableEq

/-- A turn of the event loop: the server, what it reads, and the calls it has made. -/
structure Turn where
  server : ClinkServer
  /-- What the `n`-th call of `time.time()` returns. -/
  clock : ℕ → Time
  /-- How often `time.time()` was called. -/
  ticks : ℕ
  /-- What `num_sats_can_receive()` returns when the capacity is asked for the `n`-th time. -/
  receivable : ℕ → ℤ
  /-- How often the capacity was asked for. -/
  asks : ℕ
  /-- The calls, each with the server as it was when the call was made; no step reads them. -/
  log : List (ServerCall × ClinkServer)

/-- A handler of the server. -/
abbrev Handler := Act Turn

namespace Turn

/-- The calls that were made. -/
def trace (t : Turn) : List ServerCall := t.log.map Prod.fst

/-! ## Readings and writes -/

/-- `time.time()`. -/
def time : Handler Time := fun t => (some (t.clock t.ticks), { t with ticks := t.ticks + 1 })

/-- What the capacity is when it is asked for the `n`-th time. -/
def capacityAt (t : Turn) (n : ℕ) : ℤ :=
  receivableCapacitySat (t.server.wallet.lnworker.map fun _ => t.receivable n)

/-- `receivable_capacity_sat(self.wallet.lnworker)`. -/
def capacity : Handler ℤ := fun t => (some (t.capacityAt t.asks), { t with asks := t.asks + 1 })

/-- `self`. -/
def self : Handler ClinkServer := fun t => (some t.server, t)

/-- Write to the server. -/
def update (f : ClinkServer → ClinkServer) : Handler Unit :=
  Act.modify fun t => { t with server := f t.server }

/-- List a call. -/
def note (call : ServerCall) : Handler Unit :=
  Act.modify fun t => { t with log := t.log ++ [(call, t.server)] }

/-! ## The components -/

/-- `_sweep` of the reserver. -/
def sweep : Handler Unit := do
  let now ← time
  update fun s => { s with reserver := s.reserver.sweep now }

/-- `available_sat`. -/
def availableSat : Handler ℤ := do
  sweep
  let s ← self
  let capacity ← capacity
  return max 0 (capacity - s.reserver.total)

/-- `try_reserve`. -/
def tryReserve (key : PaymentHash) (amountSat : ℤ) (expiresAt : Time) : Handler Bool := do
  sweep
  if amountSat ≤ 0 then
    return false
  if amountSat > (← availableSat) then
    return false
  update fun s => { s with reserver :=
    ⟨s.reserver.reservations.set key ⟨key, amountSat, expiresAt⟩⟩ }
  return true

/-- `_record`. -/
def record (offerId : String) (amount : Option ℤ) (result : String) : Handler Unit := do
  let now ← time
  update fun s => s.record now offerId amount result

/-- `send_response`. -/
def sendResponse (calls : Calls) (payload : Payload) : Handler Unit := do
  note (.sendResponse payload)
  if !(← self).taskgroup then
    return
  if !calls.spawn then
    Act.raise

/-- `is_selftest_payer`. -/
def isSelftestPayer (pubkey : Pubkey) : Handler Bool := do
  let now ← time
  let (selftest, s) := (← self).isSelftestPayer now pubkey
  update fun _ => s
  return selftest

/-- `pending_count_for`. -/
def pendingCountFor (pubkey : Pubkey) : Handler ℕ := do
  let now ← time
  return (← self).receipts.pendingCountFor now pubkey

/-- `not selftest and self.receipts.pending_count_for(event.pubkey) >= MAX_PENDING_PER_PAYER`. -/
def overPayerCap (selftest : Bool) (pubkey : Pubkey) : Handler Bool := do
  if selftest then
    return false
  return decide ((← pendingCountFor pubkey) ≥ maxPendingPerPayer)

/-- `mark_issued`. -/
def markIssued (rhash : PaymentHash) : Handler Unit := do
  let now ← time
  note (.markIssued rhash)
  update fun s => { s with devfee := s.devfee.markIssued now rhash }

/-- `remember`, and the deletion of the wallet requests behind evicted entries. -/
def rememberPayer (calls : Calls) (event : Event) (rhash : PaymentHash) (expiry : ℤ) :
    Handler Unit := do
  let now ← time
  let s ← self
  let (evicted, receipts) := s.receipts.remember rhash event.pubkey event.id (now + expiry)
  update fun s => { s with
    receipts := receipts
    wallet := s.wallet.deleteStaleRequests calls evicted }

/-! ## The handlers -/

/-- The end of `_issue_invoice`, once the liquidity is locked. -/
def handOut (calls : Calls) (event : Event) (offer : Option Offer) (amountSat : ℤ)
    (selftest : Bool) (expiry : ℤ) (bolt11 : Bolt11) : Handler Unit := do
  let rhash := bolt11.paymentHash
  if !selftest then
    markIssued rhash
    rememberPayer calls event rhash expiry
    record (ClinkServer.reqOfferId offer) (some amountSat) "invoice issued"
  sendResponse calls (successPayload bolt11)
  if selftest then
    update fun s => { s with reserver := s.reserver.release rhash }
    update fun s => { s with wallet := s.wallet.deleteRequest rhash }
    record (ClinkServer.reqOfferId offer) (some amountSat) "self-test ✓"

/-- The part of `_issue_invoice` after its guarded wallet calls. As in `ClinkServer.lockInvoice`,
the expiry is taken to be below `2 ^ 1024` seconds, where `time.time() + expiry` does not raise. -/
def lockInvoice (calls : Calls) (event : Event) (offer : Option Offer) (amountSat : ℤ)
    (selftest : Bool) (expiry : ℤ) (bolt11 : Bolt11) : Handler Unit := do
  let rhash := bolt11.paymentHash
  let expiresAt := (← time) + expiry
  let reserved ← tryReserve rhash amountSat expiresAt
  note (.tryReserve rhash amountSat reserved)
  if !reserved then
    update fun s => { s with wallet := s.wallet.deleteRequest rhash }
    record (ClinkServer.reqOfferId offer) (some amountSat) "error 5 (lost race)"
    let available ← availableSat
    sendResponse calls (invalidAmountPayload 1 (quantizeAvailableSat available 2))
  else
    handOut calls event offer amountSat selftest expiry bolt11

/-- `_issue_invoice`. -/
def issueInvoice (env : Env) (calls : Calls) (event : Event) (offer : Option Offer)
    (amountSat : ℤ) (description : Option String) (selftest : Bool) : Handler Unit := do
  let expiry := (← self).invoiceExpirySec
  let message := invoiceMessage env.tables (offer.map Offer.label) description
  -- the guarded wallet calls; the wallet stamps the invoice it creates
  let created ← time
  let (bolt11, wallet) :=
    (← self).wallet.createInvoice calls created amountSat message expiry
  update fun s => { s with wallet := wallet }
  match bolt11 with
  | none => sendResponse calls (errorPayload errTemporaryFailure "Temporary Failure")
  | some bolt11 => lockInvoice calls event offer amountSat selftest expiry bolt11

/-- The end of `_dispatch`, once the request is resolved. -/
def conclude (env : Env) (calls : Calls) (event : Event) (req : Request) (selftest : Bool)
    (offer : Option Offer) (resolution : Resolution) : Handler Unit := do
  let offerId := (requestOfferId req).getD ""
  match resolution with
  | .sendError payload =>
    let code := match payload with
      | .error code _ _ => toString code
      | _ => "None"
    record offerId (requestAmountSat req)
      ("error " ++ code ++ if selftest then " (self-test)" else "")
    sendResponse calls payload
  | .issueInvoice amountSat =>
    if ← overPayerCap selftest event.pubkey then
      record offerId (some amountSat) "error 2 (payer request cap)"
      sendResponse calls (errorPayload errTemporaryFailure "Temporary Failure")
    else
      let description := effectiveDescription env.tables offer req
      issueInvoice env calls event offer amountSat description selftest

/-- The second half of `_dispatch`: answer an accepted request. -/
def answer (env : Env) (calls : Calls) (event : Event) (req : Request) : Handler Unit := do
  let selftest ← isSelftestPayer event.pubkey
  let offer := (requestOfferId req).bind (← self).offers.get
  let available ← availableSat
  conclude env calls event req selftest offer (resolveRequest req offer available 1)

/-- `_dispatch`. -/
def dispatch (env : Env) (calls : Calls) (event : Event) : Handler Unit := do
  if event.id ∈ (← self).pendingPings then
    update fun s => { s with pendingPings := s.pendingPings.erase event.id }
    return
  if event.kind ≠ clinkEventKind then
    return
  if event.pubkey = env.pubkeyHex then
    return
  -- an unparseable expiration tag drops the event
  if env.isExpired event (← time) ≠ some false then
    return
  let now := wholeSeconds (← time)
  if ¬ (now - maxRequestAgeSec ≤ event.createdAt ∧ event.createdAt ≤ now + maxClockSkewSec) then
    return
  match ClinkServer.decryptRequest env event with
  | none => return
  | some req =>
    let (seen, s) := (← self).alreadySeen event.id
    update fun _ => s
    if seen then
      return
    answer env calls event req

/-- `on_event_request_status` for our wallet, up to the scheduling of the delivery and of the
payout. -/
def onEventRequestStatus (key : PaymentHash) (status : InvoiceStatus) : Handler Unit := do
  if status ≠ .paid then
    return
  match (← self).wallet.requests.get? key with
  | none => return
  | some request =>
    if !request.isLightning then
      return
    -- a lightning request is filed under its payment hash
    let rhash := key
    update fun s => { s with reserver := s.reserver.release rhash }
    let now ← time
    update fun s => { s with receipts := (s.receipts.markDue now rhash).2 }
    let (issued, devfee) := (← self).devfee.takeIssued rhash
    update fun s => { s with devfee := devfee }
    if issued then
      if request.amountSat > 0 then
        note (.accrue rhash request.amountSat)
        update fun s => { s with devfee :=
          (s.devfee.accrue s.devfeeEnabled s.devfeeRatePercent request.amountSat).2 }

end Turn

end ElectrumClink
