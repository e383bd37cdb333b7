import ElectrumClink.Data.Transition
import ElectrumClink.Server.Dispatch

/-!
# The server in its surroundings

One wallet with its server, the clock and everything that can happen to them in any order: relay
events, settlements and the notifications about them, the ticks of the redelivery loop, stops and
starts, changes of settings and offers, self-tests coming and going.

`World.step` performs one action, when it is enabled. `History` is written by the steps and read
by no code: the statements about runs speak about it.
-/

namespace ElectrumClink

/-- An event that passed the replay guard, with the moment it did. -/
structure Passage where
  time : Time
  event : Event
deriving DecidableEq

/-- What has happened so far. -/
structure History where
  /-- The payment hashes the wallet drew. -/
  created : List PaymentHash
  /-- The invoices handed to payers other than self-tests. -/
  issued : Dict PaymentHash Bolt11
  /-- The invoices settled in the wallet. -/
  settled : List PaymentHash
  /-- The PR_PAID notifications a running server received. -/
  notified : List PaymentHash
  /-- The settled invoices whose amount has left the receivable capacity. -/
  fallen : List PaymentHash
  /-- The events that passed the replay guard, oldest first. -/
  passed : List Passage

/-- Nothing has happened yet. -/
def History.empty : History := ⟨[], ∅, [], [], [], []⟩

/-- A wallet, its server and the clock. While the server is stopped its session fields are void. -/
structure World where
  now : Time
  running : Bool
  server : ClinkServer
  history : History

/-- What can happen next. -/
inductive Action
  /-- Time passes. -/
  | advance (t : Time)
  /-- A relay delivers an event; `calls` says what the wallet and the taskgroup answer. -/
  | dispatch (event : Event) (calls : Calls)
  /-- An invoice is settled in the wallet. -/
  | settle (rhash : PaymentHash)
  /-- The status of an unsettled request changes. -/
  | walletStatus (rhash : PaymentHash) (status : InvoiceStatus)
  /-- The wallet announces PR_PAID for a request. -/
  | requestPaid (rhash : PaymentHash)
  /-- The receivable capacity changes, on account of a settled invoice or of anything else. -/
  | capacity (lnworker : Option ℤ) (settledBy : Option PaymentHash)
  /-- A redelivery tick sweeps the registry. -/
  | redeliver (calls : Calls)
  /-- A delivery stamps its attempt. -/
  | recordAttempt (rhash : PaymentHash)
  /-- A delivery succeeds. -/
  | recordSend (rhash : PaymentHash)
  | registerSelftestPayer (pubkey : Pubkey)
  | unregisterSelftestPayer (pubkey : Pubkey)
  /-- A listener self-ping is under way. -/
  | ping (eventId : EventId)
  /-- The relay taskgroup comes up or goes down. -/
  | taskgroup (up : Bool)
  /-- The settings change. -/
  | settings (invoiceExpirySec : ℤ) (devfeeEnabled : Bool) (devfeeRatePercent : ℚ)
  /-- The offers change. -/
  | offers (offers : OfferStore)
  | stop
  /-- A new server starts over the same wallet and storage. -/
  | start (offers : OfferStore)

namespace Wallet

/-- Set the status of a request, if it exists. -/
def setStatus (w : Wallet) (rhash : PaymentHash) (status : InvoiceStatus) : Wallet :=
  match w.requests.get? rhash with
  | none => w
  | some request => { w with requests := w.requests.set rhash { request with status := status } }

/-- The status of a request, if it exists. -/
def statusOf (w : Wallet) (rhash : PaymentHash) : Option InvoiceStatus :=
  (w.requests.get? rhash).map WalletRequest.status

/-- Setting a status changes no request but for the status of one. -/
theorem get?_setStatus {w : Wallet} {rhash k : PaymentHash} {status : InvoiceStatus}
    {request' : WalletRequest} (h : (w.setStatus rhash status).requests.get? k = some request') :
    ∃ request, w.requests.get? k = some request ∧ request'.isLightning = request.isLightning ∧
      (request'.status = request.status ∨ k = rhash ∧ request'.status = status) := by
  unfold setStatus at h
  split at h
  next => exact ⟨request', h, rfl, .inl rfl⟩
  next request hrequest =>
    rw [Dict.get?_set] at h
    split at h
    next hk =>
      obtain rfl := Option.some.inj h
      exact ⟨request, hk ▸ hrequest, rfl, .inr ⟨hk, rfl⟩⟩
    next => exact ⟨request', h, rfl, .inl rfl⟩

end Wallet

namespace World

/-- A world in which nothing has happened yet. -/
def start (now : Time) (running : Bool) (server : ClinkServer) : World :=
  ⟨now, running, server, .empty⟩

/-- A payment hash that no earlier request of the wallet has. -/
structure FreshHash (w : World) (rhash : PaymentHash) : Prop where
  created : rhash ∉ w.history.created
  settled : rhash ∉ w.history.settled
  notified : rhash ∉ w.history.notified
  requests : rhash ∉ w.server.wallet.requests

instance (w : World) (rhash : PaymentHash) : Decidable (w.FreshHash rhash) :=
  decidable_of_iff (rhash ∉ w.history.created ∧ rhash ∉ w.history.settled ∧
    rhash ∉ w.history.notified ∧ rhash ∉ w.server.wallet.requests)
    ⟨fun ⟨h₁, h₂, h₃, h₄⟩ => ⟨h₁, h₂, h₃, h₄⟩, fun h => ⟨h.1, h.2, h.3, h.4⟩⟩

/-- The invoice a reply hands to a payer, if it is one. -/
def handedOut (selftest : Bool) (reply : Option Reply) : Option Bolt11 :=
  match reply with
  | some ⟨.success bolt11, _⟩ => if selftest then none else some bolt11
  | _ => none

/-- The history after an event was dispatched. -/
def recordDispatch (h : History) (now : Time) (event : Event) (calls : Calls) (selftest : Bool)
    (reply : Option Reply) : History :=
  { h with
    created := h.created ++ calls.createRequest.toList
    issued :=
      match handedOut selftest reply with
      | some bolt11 => h.issued.set bolt11.paymentHash bolt11
      | none => h.issued
    passed := if reply.isSome then h.passed ++ [⟨now, event⟩] else h.passed }

theorem recordDispatch_issued (h : History) (now : Time) (event : Event) (calls : Calls)
    (selftest : Bool) (reply : Option Reply) :
    (recordDispatch h now event calls selftest reply).issued =
      (handedOut selftest reply).elim h.issued fun bolt11 =>
        h.issued.set bolt11.paymentHash bolt11 := by
  simp only [recordDispatch]
  cases handedOut selftest reply <;> rfl

/-- Replace the server. -/
def withServer (w : World) (server : ClinkServer) : World := { w with server := server }

/-- Replace the wallet. -/
def withWallet (w : World) (wallet : Wallet) : World :=
  { w with server := { w.server with wallet := wallet } }

/-- Replace the receipt registry. -/
def withReceipts (w : World) (receipts : ReceiptRegistry) : World :=
  { w with server := { w.server with receipts := receipts } }

/-- The world after an event was dispatched. -/
def afterDispatch (env : Env) (w : World) (event : Event) (calls : Calls) : World :=
  let selftest := (w.server.isSelftestPayer w.now event.pubkey).1
  let (reply, server) := w.server.dispatch env calls w.now event
  { w with
    server := server
    history := recordDispatch w.history w.now event calls selftest reply }

/-- When an action can happen. -/
def Enabled (w : World) : Action → Prop
  | .advance t => w.now ≤ t
  -- the wallet draws a random preimage for every request
  | .dispatch _ calls => w.running = true ∧ ∀ rhash ∈ calls.createRequest, w.FreshHash rhash
  -- a payer can settle an invoice whose request is already deleted
  | .settle rhash => rhash ∈ w.history.created ∨ rhash ∈ w.server.wallet.requests
  | .walletStatus rhash status =>
    status ≠ .paid ∧ w.server.wallet.statusOf rhash ≠ some .paid
  -- the wallet announces what it holds as paid, or a key it no longer has
  | .requestPaid rhash =>
    w.server.wallet.statusOf rhash = none ∨ w.server.wallet.statusOf rhash = some .paid
  | .redeliver _ => w.running = true
  | .start _ => w.running = false
  | _ => True

instance (w : World) : (a : Action) → Decidable (w.Enabled a)
  | .advance t => inferInstanceAs (Decidable (w.now ≤ t))
  | .dispatch _ calls =>
    inferInstanceAs
      (Decidable (w.running = true ∧ ∀ rhash ∈ calls.createRequest, w.FreshHash rhash))
  | .settle rhash =>
    inferInstanceAs (Decidable (rhash ∈ w.history.created ∨ rhash ∈ w.server.wallet.requests))
  | .walletStatus rhash status =>
    inferInstanceAs
      (Decidable (status ≠ .paid ∧ w.server.wallet.statusOf rhash ≠ some .paid))
  | .requestPaid rhash =>
    inferInstanceAs (Decidable
      (w.server.wallet.statusOf rhash = none ∨ w.server.wallet.statusOf rhash = some .paid))
  | .redeliver _ => inferInstanceAs (Decidable (w.running = true))
  | .start _ => inferInstanceAs (Decidable (w.running = false))
  | .capacity .. | .recordAttempt _ | .recordSend _ | .registerSelftestPayer _
  | .unregisterSelftestPayer _ | .ping _ | .taskgroup _ | .settings .. | .offers _ | .stop =>
    inferInstanceAs (Decidable True)

/-- The world after an action. -/
def perform (env : Env) (w : World) : Action → World
  | .advance t => { w with now := t }
  | .dispatch event calls => w.afterDispatch env event calls
  | .settle rhash =>
    { w.withWallet (w.server.wallet.setStatus rhash .paid) with
      history := { w.history with settled := w.history.settled ++ [rhash] } }
  | .walletStatus rhash status => w.withWallet (w.server.wallet.setStatus rhash status)
  | .requestPaid rhash =>
    -- a stopped server has unregistered its callbacks
    if w.running then
      { w.withServer (w.server.onEventRequestStatus w.now rhash .paid).2 with
        history := { w.history with notified := w.history.notified ++ [rhash] } }
    else w
  | .capacity lnworker settledBy =>
    { w.withWallet { w.server.wallet with lnworker := lnworker } with
      history := { w.history with fallen := w.history.fallen ++ settledBy.toList } }
  | .redeliver calls => w.withServer (w.server.sweepReceipts calls w.now)
  -- a delivery that outlives its server writes to the same storage
  | .recordAttempt rhash => w.withReceipts (w.server.receipts.recordAttempt w.now rhash)
  | .recordSend rhash => w.withReceipts (w.server.receipts.recordSend w.now rhash).2
  | .registerSelftestPayer pubkey => w.withServer (w.server.registerSelftestPayer w.now pubkey)
  | .unregisterSelftestPayer pubkey => w.withServer (w.server.unregisterSelftestPayer pubkey)
  | .ping eventId =>
    w.withServer { w.server with pendingPings := w.server.pendingPings ++ [eventId] }
  | .taskgroup up => w.withServer { w.server with taskgroup := up }
  | .settings invoiceExpirySec devfeeEnabled devfeeRatePercent =>
    w.withServer { w.server with
      invoiceExpirySec := invoiceExpirySec
      devfeeEnabled := devfeeEnabled
      devfeeRatePercent := devfeeRatePercent }
  | .offers offers => w.withServer { w.server with offers := offers }
  | .stop => { w with running := false }
  | .start offers => { w with running := true, server := w.server.restart offers }

/-- Perform one action, if it is enabled. -/
def step (env : Env) (w : World) (a : Action) : Option World :=
  if w.Enabled a then some (w.perform env a) else none

theorem step_eq_some_iff {env : Env} {w w' : World} {a : Action} :
    step env w a = some w' ↔ w.Enabled a ∧ w' = w.perform env a := by
  rw [step, Option.ite_none_right_eq_some, Option.some.injEq, eq_comm (a := w')]

/-- The worlds a run reaches from `w₀` by steps that meet `P`. -/
abbrev Reachable (env : Env) (P : World → Action → Prop) (w₀ w : World) : Prop :=
  Transition.Reachable (step env) P w₀ w

end World

end ElectrumClink
