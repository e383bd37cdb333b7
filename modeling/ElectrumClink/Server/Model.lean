import ElectrumClink.Data.BoundedFifo
import ElectrumClink.DevFee
import ElectrumClink.Liquidity
import ElectrumClink.Protocol
import ElectrumClink.Receipts.Registry

/-!
# The server of one wallet

The state that `ClinkServer` reads and writes, and its synchronous paths: the dispatch of a relay
event, the issue of an invoice, the reaction to a paid request, the sweep of a redelivery tick and
the construction over existing storage.

Each path runs without yielding to the event loop (`tg.spawn` schedules a task without waiting), so
it is a function from state to state at one reading of the clock. What the wallet and the taskgroup
answer is the argument `calls`; an exception is a reply marked `raised`, or a missing result.
The publishing tasks that a reply starts, the log and the dev-fee payout scheduled by a payment are
left out.
-/

namespace ElectrumClink

/-- Kind shared by requests and responses. -/
def clinkEventKind : ℤ := 21001

/-- Ignore requests older than this. -/
def maxRequestAgeSec : ℤ := 60

/-- Reject requests dated further in the future than this. -/
def maxClockSkewSec : ℤ := 60

/-- Cap on remembered request-event ids. -/
def seenEventsMax : ℕ := 4096

/-- Cap on outstanding unpaid invoices per payer pubkey. -/
def maxPendingPerPayer : ℕ := 200

/-- Self-test payer identities expire after this long. -/
def selftestPayerTtlSec : Time := 120

/-- Length of the activity feed. -/
def recentActivityMax : ℕ := 50

/-- A Nostr event. -/
structure Event where
  id : EventId
  pubkey : Pubkey
  kind : ℤ
  createdAt : ℤ
  tags : List (List String)
  content : String
deriving DecidableEq

/-- What a server takes from outside: its identity and the functions it calls on an event. -/
structure Env where
  pubkeyHex : Pubkey
  /-- `nip44.decrypt_from` under our key; `none` when it raises. -/
  decryptFrom : Pubkey → String → Option String
  /-- `json.loads`; `none` when it raises. -/
  jsonLoads : String → Option Json
  /-- `event.is_expired()` at a moment; `none` when it raises. -/
  isExpired : Event → Time → Option Bool
  tables : CharTables

/-! ## The wallet -/

/-- The payment status of a wallet request. -/
inductive InvoiceStatus
  | unpaid
  | expired
  | inflight
  | paid
deriving DecidableEq

/-- A request of the wallet. -/
structure WalletRequest where
  amountSat : ℤ
  message : String
  /-- Seconds until the request expires. -/
  expDelay : ℤ
  isLightning : Bool
  status : InvoiceStatus
deriving DecidableEq

/-- What a server uses of its wallet. A lightning request is kept under its payment hash. -/
structure Wallet where
  requests : Dict PaymentHash WalletRequest
  /-- `num_sats_can_receive()`, when there is an `lnworker`. -/
  lnworker : Option ℤ

/-- What the wallet and the taskgroup answer during one run: whether a call raises, and the payment
hash the wallet draws for a new request. -/
structure Calls where
  /-- `create_request`: the payment hash of the new request, or `none` when it raises. -/
  createRequest : Option PaymentHash
  getRequest : Bool
  getPaymentInfo : Bool
  getBolt11Invoice : Bool
  /-- `tg.spawn` of a response. -/
  spawn : Bool
  /-- `get_request` of a request to be garbage-collected. -/
  getStaleRequest : PaymentHash → Bool

namespace Wallet

/-- Remove a request. -/
def deleteRequest (w : Wallet) (key : PaymentHash) : Wallet :=
  { w with requests := w.requests.erase key }

/-- The calls that `_issue_invoice` guards by `try`: create a request, load it and have it turned
into an invoice. Returns the invoice, or `none` when one of them raises. -/
def createInvoice (w : Wallet) (calls : Calls) (now : Time) (amountSat : ℤ) (message : String)
    (expiry : ℤ) : Option Bolt11 × Wallet :=
  match calls.createRequest with
  | none => (none, w)
  | some rhash =>
    -- the request is persisted from here on, whatever the later calls do
    let w := { w with requests := w.requests.set rhash ⟨amountSat, message, expiry, true, .unpaid⟩ }
    if !calls.getRequest then (none, w)
    -- there is no payment info to ask for without an `lnworker`
    else if !(w.lnworker.isSome && calls.getPaymentInfo) then (none, w)
    else if !calls.getBolt11Invoice then (none, w)
    else (some ⟨rhash, amountSat, message, now, expiry⟩, w)

/-- `_delete_stale_request`: delete the request behind a dropped registry entry, unless it is paid
or being paid. -/
def deleteStaleRequest (w : Wallet) (calls : Calls) (rhash : PaymentHash) : Wallet :=
  -- an exception is logged and swallowed
  if !calls.getStaleRequest rhash then w
  else
    match w.requests.get? rhash with
    | none => w
    | some request =>
      if request.status = .unpaid ∨ request.status = .expired then w.deleteRequest rhash else w

/-- The loop over the hashes the registry dropped. -/
def deleteStaleRequests (w : Wallet) (calls : Calls) (rhashes : List PaymentHash) : Wallet :=
  rhashes.foldl (fun w rhash => w.deleteStaleRequest calls rhash) w

end Wallet

/-! ## The server -/

/-- An entry of the activity feed. -/
structure Activity where
  time : ℤ
  offer : String
  amountSat : Option ℤ
  result : String
deriving DecidableEq

/-- The state of a server: its session, what it keeps in the wallet's storage, and the wallet. -/
structure ClinkServer where
  seenEvents : BoundedFifo EventId seenEventsMax
  /-- In-flight listener self-pings. -/
  pendingPings : List EventId
  recentActivity : BoundedFifo Activity recentActivityMax
  reserver : LiquidityReserver
  /-- Throwaway payers of in-flight self-tests, with their expiry. -/
  selftestPayers : Dict Pubkey Time
  /-- Whether the relay taskgroup is up. -/
  taskgroup : Bool
  offers : OfferStore
  receipts : ReceiptRegistry
  devfee : DevFeeLedger
  invoiceExpirySec : ℤ
  devfeeEnabled : Bool
  devfeeRatePercent : ℚ
  wallet : Wallet

/-- What became of a response handed to the taskgroup. -/
inductive Delivery
  /-- There is no taskgroup: nothing was sent. -/
  | skipped
  | spawned
  /-- The taskgroup refused the task. -/
  | raised
deriving DecidableEq

/-- One call of `send_response`. -/
structure Reply where
  payload : Payload
  delivery : Delivery
deriving DecidableEq

namespace ClinkServer

/-- The constructor: an empty session over what the storage and the wallet hold. -/
def init (offers : OfferStore) (receipts : ReceiptRegistry) (devfee : DevFeeLedger)
    (invoiceExpirySec : ℤ) (devfeeEnabled : Bool) (devfeeRatePercent : ℚ) (wallet : Wallet) :
    ClinkServer where
  seenEvents := ∅
  pendingPings := []
  recentActivity := ∅
  reserver := LiquidityReserver.init
  selftestPayers := ∅
  taskgroup := false
  offers := offers
  receipts := receipts
  devfee := devfee
  invoiceExpirySec := invoiceExpirySec
  devfeeEnabled := devfeeEnabled
  devfeeRatePercent := devfeeRatePercent
  wallet := wallet

/-- A new session over the storage and the wallet of `s`, with the offers the storage holds. -/
def restart (s : ClinkServer) (offers : OfferStore) : ClinkServer :=
  init offers s.receipts s.devfee s.invoiceExpirySec s.devfeeEnabled s.devfeeRatePercent s.wallet

/-- `receivable_capacity_sat(self.wallet.lnworker)`. -/
def capacity (s : ClinkServer) : ℤ := receivableCapacitySat s.wallet.lnworker

/-- Append to the activity feed. -/
def record (s : ClinkServer) (now : Time) (offerId : String) (amount : Option ℤ)
    (result : String) : ClinkServer :=
  let activity : Activity := ⟨wholeSeconds now, String.ofList (offerId.toList.take 32), amount,
    result⟩
  { s with recentActivity := s.recentActivity.push activity }

/-- Hand a response to the taskgroup. -/
def sendResponse (s : ClinkServer) (calls : Calls) (payload : Payload) : Reply :=
  ⟨payload, if !s.taskgroup then .skipped else if calls.spawn then .spawned else .raised⟩

/-- Mark a pubkey as an in-flight self-test payer. -/
def registerSelftestPayer (s : ClinkServer) (now : Time) (pubkey : Pubkey) : ClinkServer :=
  { s with selftestPayers := s.selftestPayers.set pubkey (now + selftestPayerTtlSec) }

def unregisterSelftestPayer (s : ClinkServer) (pubkey : Pubkey) : ClinkServer :=
  { s with selftestPayers := s.selftestPayers.erase pubkey }

/-- Whether a pubkey is an in-flight self-test payer; the expired ones are dropped first. -/
def isSelftestPayer (s : ClinkServer) (now : Time) (pubkey : Pubkey) : Bool × ClinkServer :=
  let s := { s with selftestPayers := s.selftestPayers.filter fun _ exp => !decide (exp ≤ now) }
  (decide (pubkey ∈ s.selftestPayers), s)

/-- `req_offer_id`. -/
def reqOfferId (offer : Option Offer) : String :=
  match offer with
  | some offer => offer.offerId
  | none => "?"

/-- The side effects of an issued invoice that is not a self-test: the hash is marked for the dev
fee and remembered for the receipt, and the wallet requests behind evicted entries are deleted. -/
def rememberInvoice (s : ClinkServer) (calls : Calls) (now : Time) (event : Event)
    (offer : Option Offer) (amountSat : ℤ) (rhash : PaymentHash) : ClinkServer :=
  let s := { s with devfee := s.devfee.markIssued now rhash }
  -- the second reading of `time.time()`: the same moment as that of the reservation
  let (evicted, receipts) :=
    s.receipts.remember rhash event.pubkey event.id (now + s.invoiceExpirySec)
  let s := { s with receipts := receipts }
  let s := { s with wallet := s.wallet.deleteStaleRequests calls evicted }
  s.record now (reqOfferId offer) (some amountSat) "invoice issued"

/-- The end of a self-test run: nobody will pay the invoice, so its side effects are unwound. -/
def unwindSelftest (s : ClinkServer) (now : Time) (offer : Option Offer) (amountSat : ℤ)
    (rhash : PaymentHash) : ClinkServer :=
  let s := { s with reserver := s.reserver.release rhash }
  let s := { s with wallet := s.wallet.deleteRequest rhash }
  s.record now (reqOfferId offer) (some amountSat) "self-test ✓"

/-- The end of `_issue_invoice`, once the liquidity is locked: the invoice is remembered and sent,
or, for a self-test, sent and unwound. -/
def handOut (calls : Calls) (now : Time) (event : Event) (offer : Option Offer) (amountSat : ℤ)
    (selftest : Bool) (bolt11 : Bolt11) (s : ClinkServer) : Reply × ClinkServer :=
  let rhash := bolt11.paymentHash
  let s := if !selftest then s.rememberInvoice calls now event offer amountSat rhash else s
  let reply := s.sendResponse calls (successPayload bolt11)
  -- an exception of `tg.spawn` leaves `_issue_invoice` before the unwinding
  if reply.delivery = .raised then (reply, s)
  else if selftest then (reply, s.unwindSelftest now offer amountSat rhash)
  else (reply, s)

/-- The part of `_issue_invoice` after its guarded wallet calls: lock the liquidity of the created
invoice, or cancel the request when a concurrent one took it. The clock is exact, so the expiry is
taken to be below `2 ^ 1024` seconds: from there on the sum of floats raises `OverflowError`. -/
def lockInvoice (calls : Calls) (now : Time) (event : Event) (offer : Option Offer)
    (amountSat : ℤ) (selftest : Bool) (expiry : ℤ) (bolt11 : Bolt11) (s : ClinkServer) :
    Reply × ClinkServer :=
  let rhash := bolt11.paymentHash
  match s.reserver.tryReserve s.capacity now rhash amountSat (now + expiry) with
  | (false, reserver) =>
    -- the liquidity the gate saw is gone: cancel rather than overcommit
    let s := { s with reserver := reserver, wallet := s.wallet.deleteRequest rhash }
    let s := s.record now (reqOfferId offer) (some amountSat) "error 5 (lost race)"
    let availableSat := s.reserver.availableSat s.capacity now
    let s := { s with reserver := s.reserver.sweep now }
    (s.sendResponse calls (invalidAmountPayload 1 (quantizeAvailableSat availableSat 2)), s)
  | (true, reserver) =>
    handOut calls now event offer amountSat selftest bolt11 { s with reserver := reserver }

/-- `_issue_invoice`. -/
def issueInvoice (env : Env) (calls : Calls) (now : Time) (event : Event) (offer : Option Offer)
    (amountSat : ℤ) (description : Option String) (selftest : Bool) (s : ClinkServer) :
    Reply × ClinkServer :=
  let expiry := s.invoiceExpirySec
  let message := invoiceMessage env.tables (offer.map Offer.label) description
  match s.wallet.createInvoice calls now amountSat message expiry with
  | (none, wallet) =>
    -- the payer learns nothing of the exception, and the request is not deleted
    let s := { s with wallet := wallet }
    (s.sendResponse calls (errorPayload errTemporaryFailure "Temporary Failure"), s)
  | (some bolt11, wallet) =>
    lockInvoice calls now event offer amountSat selftest expiry bolt11 { s with wallet := wallet }

/-- `_already_seen`: remember an event id, and tell whether it was remembered before. -/
def alreadySeen (s : ClinkServer) (eventId : EventId) : Bool × ClinkServer :=
  if eventId ∈ s.seenEvents.items then (true, s)
  else (false, { s with seenEvents := s.seenEvents.push eventId })

/-- The request an event carries, if it can be decrypted and is a JSON object. -/
def decryptRequest (env : Env) (event : Event) : Option Request :=
  (env.decryptFrom event.pubkey event.content).bind fun plaintext =>
    (env.jsonLoads plaintext).bind Json.toRequest?

/-- The first half of `_dispatch`: the request of an event that passes every check up to the replay
guard. -/
def accept (env : Env) (now : Time) (event : Event) (s : ClinkServer) :
    Option Request × ClinkServer :=
  if event.id ∈ s.pendingPings then
    (none, { s with pendingPings := s.pendingPings.erase event.id })
  else if event.kind ≠ clinkEventKind then (none, s)
  -- our own responses share the kind of the requests
  else if event.pubkey = env.pubkeyHex then (none, s)
  -- an unparseable expiration tag drops the event
  else if env.isExpired event now ≠ some false then (none, s)
  else if ¬ (wholeSeconds now - maxRequestAgeSec ≤ event.createdAt ∧
      event.createdAt ≤ wholeSeconds now + maxClockSkewSec) then (none, s)
  else
    match decryptRequest env event with
    | none => (none, s)
    | some req =>
      -- the guard comes last, so junk cannot push real ids out of it
      let (seen, s) := s.alreadySeen event.id
      if seen then (none, s) else (some req, s)

/-- The end of `_dispatch`, once the request is resolved. -/
def conclude (env : Env) (calls : Calls) (now : Time) (event : Event) (req : Request)
    (selftest : Bool) (offer : Option Offer) (resolution : Resolution) (s : ClinkServer) :
    Reply × ClinkServer :=
  let offerId := (requestOfferId req).getD ""
  match resolution with
  | .sendError payload =>
    -- `payload.get('code')`
    let code := match payload with
      | .error code _ _ => toString code
      | _ => "None"
    let s := s.record now offerId (requestAmountSat req)
      ("error " ++ code ++ if selftest then " (self-test)" else "")
    (s.sendResponse calls payload, s)
  | .issueInvoice amountSat =>
    if !selftest && decide (s.receipts.pendingCountFor now event.pubkey ≥ maxPendingPerPayer) then
      let s := s.record now offerId (some amountSat) "error 2 (payer request cap)"
      (s.sendResponse calls (errorPayload errTemporaryFailure "Temporary Failure"), s)
    else
      let description := effectiveDescription env.tables offer req
      issueInvoice env calls now event offer amountSat description selftest s

/-- The second half of `_dispatch`: answer an accepted request. -/
def answer (env : Env) (calls : Calls) (now : Time) (event : Event) (req : Request)
    (s : ClinkServer) : Reply × ClinkServer :=
  let (selftest, s) := s.isSelftestPayer now event.pubkey
  let offer := (requestOfferId req).bind s.offers.get
  -- reading the available liquidity sweeps the reservations
  let availableSat := s.reserver.availableSat s.capacity now
  let s := { s with reserver := s.reserver.sweep now }
  s.conclude env calls now event req selftest offer (resolveRequest req offer availableSat 1)

/-- `_dispatch`: the reply, when one is attempted, and the state afterwards. -/
def dispatch (env : Env) (calls : Calls) (now : Time) (event : Event) (s : ClinkServer) :
    Option Reply × ClinkServer :=
  match s.accept env now event with
  | (none, s) => (none, s)
  | (some req, s) =>
    let (reply, s) := s.answer env calls now event req
    (some reply, s)

/-- `on_event_request_status` for our wallet. Returns the receipt to deliver, if one is owed. -/
def onEventRequestStatus (now : Time) (key : PaymentHash) (status : InvoiceStatus)
    (s : ClinkServer) : Option ReceiptTarget × ClinkServer :=
  if status ≠ .paid then (none, s)
  else
    match s.wallet.requests.get? key with
    | none => (none, s)
    | some request =>
      if !request.isLightning then (none, s)
      else
        -- a lightning request is filed under its payment hash
        let rhash := key
        let s := { s with reserver := s.reserver.release rhash }
        let (target, receipts) := s.receipts.markDue now rhash
        let s := { s with receipts := receipts }
        let (issued, devfee) := s.devfee.takeIssued rhash
        let s := { s with devfee := devfee }
        if issued && decide (request.amountSat > 0) then
          let (_added, devfee) :=
            s.devfee.accrue s.devfeeEnabled s.devfeeRatePercent request.amountSat
          (target, { s with devfee := devfee })
        else (target, s)

/-- The start of a redelivery tick: sweep the registry and delete the wallet requests behind the
expired-unpaid entries it dropped. -/
def sweepReceipts (calls : Calls) (now : Time) (s : ClinkServer) : ClinkServer :=
  let (stale, receipts) := s.receipts.sweep now
  let s := { s with receipts := receipts }
  { s with wallet := s.wallet.deleteStaleRequests calls stale }

end ClinkServer

/-! ## Concrete values

A server with one offer, and requests of 100 sats for it. -/

/-- The plaintext of the requests. -/
def sampleRequest : String := "\x7b\"offer\": \"o\", \"amount_sats\": 100\x7d"

/-- An environment in which exactly one ciphertext decrypts. -/
def Env.sample : Env where
  pubkeyHex := "server"
  decryptFrom _ content := if content = "ciphertext" then some sampleRequest else none
  jsonLoads text :=
    if text = sampleRequest then some (.object [("offer", .str "o"), ("amount_sats", .int 100)])
    else none
  isExpired _ _ := some false
  tables := ⟨fun ch => decide (32 ≤ ch.toNat ∧ ch.toNat < 127), fun ch => decide (ch = ' ')⟩

/-- A request event. -/
def Event.sample (id : EventId) (createdAt : ℤ) : Event :=
  ⟨id, "payer", clinkEventKind, createdAt, [], "ciphertext"⟩

/-- Wallet calls that all succeed, drawing the given payment hash. -/
def Calls.succeeding (rhash : PaymentHash) : Calls :=
  ⟨some rhash, true, true, true, true, fun _ => true⟩

/-- A server with an empty storage and its taskgroup up. -/
def ClinkServer.sample (capacity invoiceExpirySec : ℤ) : ClinkServer :=
  { ClinkServer.init ⟨Dict.empty.set "o" { offerId := "o" }⟩ .empty .empty invoiceExpirySec false 0
      ⟨∅, some capacity⟩ with taskgroup := true }

/-- A request is dispatched: 100 of 150 sats are locked and the invoice is sent. -/
example :
    let r := (ClinkServer.sample 150 300).dispatch .sample (.succeeding "r") 0 (.sample "e" 0)
    r.1.map Reply.delivery = some .spawned ∧ r.2.reserver.availableSat r.2.capacity 0 = 50 := by
  decide +kernel

end ElectrumClink
