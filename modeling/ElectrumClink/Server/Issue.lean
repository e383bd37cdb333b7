import ElectrumClink.Server.Model
import Mathlib.Tactic.Linarith

/-!
# What issuing an invoice leaves behind

`_issue_invoice` touches four stores: the wallet's requests, the reservations, the dev-fee ledger
and the receipt registry. `issueInvoice_outcome` lists the six ways a run can end, with the state
each one leaves; everything else is read off it.

## Main results

* `handed_out_invoice_tracked_iff`: an invoice sent to a payer is tracked in all four stores unless
  one of the two bounded maps drops the new entry at once.
* `issueInvoice_leaves_no_residue_iff`: which runs leave no wallet request untracked and no
  reservation without an invoice sent.
-/

namespace ElectrumClink

namespace Calls

/-- Every wallet call after `create_request` succeeds. -/
def answered (calls : Calls) (w : Wallet) : Bool :=
  calls.getRequest && (w.lnworker.isSome && calls.getPaymentInfo) && calls.getBolt11Invoice

end Calls

/-- The guarded wallet calls create the request whether or not a later one raises. -/
theorem Wallet.createInvoice_of_some {w : Wallet} {calls : Calls} {rhash : PaymentHash}
    (h : calls.createRequest = some rhash) (now : Time) (amountSat : ℤ) (message : String)
    (expiry : ℤ) :
    w.createInvoice calls now amountSat message expiry =
      (if calls.answered w then some ⟨rhash, amountSat, message, now, expiry⟩ else none,
        { w with requests :=
            w.requests.set rhash ⟨amountSat, message, expiry, true, .unpaid⟩ }) := by
  simp only [createInvoice, h, Calls.answered]
  by_cases hget : calls.getRequest = true
  · by_cases hinfo : (w.lnworker.isSome && calls.getPaymentInfo) = true
    · by_cases hbolt11 : calls.getBolt11Invoice = true <;> simp [hget, hinfo, hbolt11]
    · simp [hget, hinfo]
  · simp [hget]

/-- Garbage collection deletes a request: `get_request` answers and the request is not paid or being
paid. -/
def Calls.collects (calls : Calls) (rhash : PaymentHash) (request : WalletRequest) : Bool :=
  calls.getStaleRequest rhash && decide (request.status = .unpaid ∨ request.status = .expired)

theorem Wallet.get?_deleteStaleRequest (w : Wallet) (calls : Calls) (rhash k : PaymentHash) :
    (w.deleteStaleRequest calls rhash).requests.get? k =
      (w.requests.get? k).filter fun request =>
        !(decide (k = rhash) && calls.collects k request) := by
  by_cases hk : k = rhash
  · subst hk
    rcases hrequest : w.requests.get? k with _ | request
    · simp [deleteStaleRequest, hrequest]
    · by_cases hcall : calls.getStaleRequest k = true
      · by_cases hstatus : request.status = .unpaid ∨ request.status = .expired <;>
          simp [deleteStaleRequest, deleteRequest, Calls.collects, hrequest, hcall, hstatus,
            Option.filter]
      · simp [deleteStaleRequest, Calls.collects, hrequest, hcall, Option.filter]
  · have hsame : (w.deleteStaleRequest calls rhash).requests.get? k = w.requests.get? k := by
      rw [deleteStaleRequest]
      split
      · rfl
      · split
        · rfl
        · split
          · exact Dict.get?_erase_of_ne _ hk
          · rfl
    rw [hsame]
    cases w.requests.get? k <;> simp [hk, Option.filter]

/-- Garbage collection deletes the collectable requests of the hashes it is given, and no others. -/
theorem Wallet.get?_deleteStaleRequests (w : Wallet) (calls : Calls)
    (rhashes : List PaymentHash) (k : PaymentHash) :
    (w.deleteStaleRequests calls rhashes).requests.get? k =
      (w.requests.get? k).filter fun request =>
        !(decide (k ∈ rhashes) && calls.collects k request) := by
  induction rhashes generalizing w with
  | nil => cases h : w.requests.get? k <;> simp [deleteStaleRequests, h, Option.filter]
  | cons rhash rhashes ih =>
    show ((w.deleteStaleRequest calls rhash).deleteStaleRequests calls rhashes).requests.get? k = _
    rw [ih, get?_deleteStaleRequest, Option.filter_filter]
    congr 1
    funext request
    by_cases hk : k = rhash <;> by_cases hmem : k ∈ rhashes <;>
      cases calls.collects k request <;> simp [hk, hmem]

namespace ClinkServer

/-! ## The states a run passes through -/

/-- The state once the wallet request behind an invoice exists. -/
def withRequest (s : ClinkServer) (bolt11 : Bolt11) : ClinkServer :=
  { s with wallet := { s.wallet with
      requests := s.wallet.requests.set bolt11.paymentHash
        ⟨bolt11.amountSat, bolt11.message, bolt11.expiry, true, .unpaid⟩ } }

/-- The state once the liquidity for an invoice is locked. -/
def withReservation (s : ClinkServer) (now : Time) (bolt11 : Bolt11) : ClinkServer :=
  { s with reserver := ⟨(s.reserver.sweep now).reservations.set bolt11.paymentHash
      ⟨bolt11.paymentHash, bolt11.amountSat, bolt11.expiresAt⟩⟩ }

/-- The state once the request of an invoice that lost its liquidity is deleted. -/
def cancelled (s : ClinkServer) (now : Time) (offer : Option Offer) (amountSat : ℤ)
    (rhash : PaymentHash) : ClinkServer :=
  { s with reserver := s.reserver.sweep now, wallet := s.wallet.deleteRequest rhash }.record now
    (reqOfferId offer) (some amountSat) "error 5 (lost race)"

/-- The amount fits beside everything still reserved. -/
def Fits (s : ClinkServer) (now : Time) (amountSat : ℤ) : Prop :=
  0 < amountSat ∧ s.reserver.reservedSat now + amountSat ≤ s.capacity

instance (s : ClinkServer) (now : Time) (amountSat : ℤ) : Decidable (s.Fits now amountSat) :=
  inferInstanceAs
    (Decidable (0 < amountSat ∧ s.reserver.reservedSat now + amountSat ≤ s.capacity))

/-- The invoice a run creates: under the hash the wallet drew, for the amount asked, expiring with
the configured delay. -/
structure NewInvoice (s : ClinkServer) (calls : Calls) (now : Time) (amountSat : ℤ)
    (bolt11 : Bolt11) : Prop where
  created : calls.createRequest = some bolt11.paymentHash
  amount : bolt11.amountSat = amountSat
  expiresAt : bolt11.expiresAt = now + s.invoiceExpirySec

section Fields

variable (s : ClinkServer) (calls : Calls) (now : Time) (event : Event) (offer : Option Offer)
  (amountSat : ℤ) (rhash : PaymentHash) (bolt11 : Bolt11)

@[simp]
theorem record_receipts (offerId : String) (amount : Option ℤ) (result : String) :
    (s.record now offerId amount result).receipts = s.receipts := by
  simp only [record]

@[simp]
theorem record_reserver (offerId : String) (amount : Option ℤ) (result : String) :
    (s.record now offerId amount result).reserver = s.reserver := by
  simp only [record]

@[simp]
theorem record_wallet (offerId : String) (amount : Option ℤ) (result : String) :
    (s.record now offerId amount result).wallet = s.wallet := by
  simp only [record]

@[simp]
theorem withRequest_receipts : (s.withRequest bolt11).receipts = s.receipts := by
  simp only [withRequest]

@[simp]
theorem withRequest_reserver : (s.withRequest bolt11).reserver = s.reserver := by
  simp only [withRequest]

@[simp]
theorem withReservation_receipts :
    (s.withReservation now bolt11).receipts = s.receipts := by
  simp only [withReservation]

@[simp]
theorem withReservation_wallet : (s.withReservation now bolt11).wallet = s.wallet := by
  simp only [withReservation]

@[simp]
theorem cancelled_receipts : (s.cancelled now offer amountSat rhash).receipts = s.receipts := by
  simp only [cancelled, record]

@[simp]
theorem cancelled_reserver :
    (s.cancelled now offer amountSat rhash).reserver = s.reserver.sweep now := by
  simp only [cancelled, record]

@[simp]
theorem cancelled_wallet :
    (s.cancelled now offer amountSat rhash).wallet = s.wallet.deleteRequest rhash := by
  simp only [cancelled, record]

@[simp]
theorem rememberInvoice_receipts :
    (s.rememberInvoice calls now event offer amountSat rhash).receipts =
      (s.receipts.remember rhash event.pubkey event.id (now + s.invoiceExpirySec)).2 := by
  simp only [rememberInvoice, record]

@[simp]
theorem rememberInvoice_reserver :
    (s.rememberInvoice calls now event offer amountSat rhash).reserver = s.reserver := by
  simp only [rememberInvoice, record]

@[simp]
theorem rememberInvoice_devfee :
    (s.rememberInvoice calls now event offer amountSat rhash).devfee =
      s.devfee.markIssued now rhash := by
  simp only [rememberInvoice, record]

@[simp]
theorem rememberInvoice_wallet :
    (s.rememberInvoice calls now event offer amountSat rhash).wallet =
      s.wallet.deleteStaleRequests calls
        (s.receipts.remember rhash event.pubkey event.id (now + s.invoiceExpirySec)).1 := by
  simp only [rememberInvoice, record]

@[simp]
theorem unwindSelftest_receipts :
    (s.unwindSelftest now offer amountSat rhash).receipts = s.receipts := by
  simp only [unwindSelftest, record]

@[simp]
theorem unwindSelftest_reserver :
    (s.unwindSelftest now offer amountSat rhash).reserver = s.reserver.release rhash := by
  simp only [unwindSelftest, record]

@[simp]
theorem unwindSelftest_wallet :
    (s.unwindSelftest now offer amountSat rhash).wallet = s.wallet.deleteRequest rhash := by
  simp only [unwindSelftest, record]

end Fields

theorem sendResponse_eq_spawned_iff (s : ClinkServer) (calls : Calls) (payload : Payload) :
    (s.sendResponse calls payload).delivery = .spawned ↔
      s.taskgroup = true ∧ calls.spawn = true := by
  cases htg : s.taskgroup <;> cases hspawn : calls.spawn <;> simp [sendResponse, htg, hspawn]

theorem sendResponse_eq_raised_iff (s : ClinkServer) (calls : Calls) (payload : Payload) :
    (s.sendResponse calls payload).delivery = .raised ↔
      s.taskgroup = true ∧ calls.spawn = false := by
  cases htg : s.taskgroup <;> cases hspawn : calls.spawn <;> simp [sendResponse, htg, hspawn]

/-! ## The six outcomes -/

/-- How a run of `_issue_invoice` can end. -/
inductive IssueOutcome (calls : Calls) (now : Time) (event : Event) (offer : Option Offer)
    (amountSat : ℤ) (selftest : Bool) (s : ClinkServer) : Reply × ClinkServer → Prop
  /-- `create_request` raised. -/
  | notCreated (hcreate : calls.createRequest = none) :
      IssueOutcome calls now event offer amountSat selftest s
        (s.sendResponse calls (errorPayload errTemporaryFailure "Temporary Failure"), s)
  /-- A later wallet call raised. -/
  | failed (bolt11 : Bolt11) (hnew : s.NewInvoice calls now amountSat bolt11)
      (hraised : calls.answered s.wallet = false) :
      IssueOutcome calls now event offer amountSat selftest s
        (s.sendResponse calls (errorPayload errTemporaryFailure "Temporary Failure"),
          s.withRequest bolt11)
  /-- The liquidity was gone when the invoice was ready. -/
  | lostRace (bolt11 : Bolt11) (maxSat : ℤ) (hnew : s.NewInvoice calls now amountSat bolt11)
      (hanswered : calls.answered s.wallet = true) (hfits : ¬ s.Fits now amountSat) :
      IssueOutcome calls now event offer amountSat selftest s
        (s.sendResponse calls (invalidAmountPayload 1 maxSat),
          (s.withRequest bolt11).cancelled now offer amountSat bolt11.paymentHash)
  /-- The invoice was locked and remembered for its payer. -/
  | issued (bolt11 : Bolt11) (hnew : s.NewInvoice calls now amountSat bolt11)
      (hanswered : calls.answered s.wallet = true) (hfits : s.Fits now amountSat)
      (hselftest : selftest = false) :
      IssueOutcome calls now event offer amountSat selftest s
        (s.sendResponse calls (successPayload bolt11),
          ((s.withRequest bolt11).withReservation now bolt11).rememberInvoice calls now event offer
            amountSat bolt11.paymentHash)
  /-- A self-test's invoice was locked, and the taskgroup refused its reply. -/
  | selftestRaised (bolt11 : Bolt11) (hnew : s.NewInvoice calls now amountSat bolt11)
      (hanswered : calls.answered s.wallet = true) (hfits : s.Fits now amountSat)
      (hselftest : selftest = true)
      (hraised : (s.sendResponse calls (successPayload bolt11)).delivery = .raised) :
      IssueOutcome calls now event offer amountSat selftest s
        (s.sendResponse calls (successPayload bolt11),
          (s.withRequest bolt11).withReservation now bolt11)
  /-- A self-test was answered and unwound. -/
  | selftestUnwound (bolt11 : Bolt11) (hnew : s.NewInvoice calls now amountSat bolt11)
      (hanswered : calls.answered s.wallet = true) (hfits : s.Fits now amountSat)
      (hselftest : selftest = true)
      (hsent : (s.sendResponse calls (successPayload bolt11)).delivery ≠ .raised) :
      IssueOutcome calls now event offer amountSat selftest s
        (s.sendResponse calls (successPayload bolt11),
          ((s.withRequest bolt11).withReservation now bolt11).unwindSelftest now offer amountSat
            bolt11.paymentHash)

/-- From the point where the invoice is created. -/
theorem lockInvoice_outcome {calls : Calls} {now : Time} {event : Event} {offer : Option Offer}
    {amountSat : ℤ} {selftest : Bool} {s : ClinkServer} {bolt11 : Bolt11}
    (hnew : s.NewInvoice calls now amountSat bolt11) (hanswered : calls.answered s.wallet = true) :
    IssueOutcome calls now event offer amountSat selftest s
      (lockInvoice calls now event offer amountSat selftest s.invoiceExpirySec bolt11
        (s.withRequest bolt11)) := by
  have htry : (s.withRequest bolt11).reserver.tryReserve (s.withRequest bolt11).capacity now
      bolt11.paymentHash amountSat (now + s.invoiceExpirySec) =
        if s.Fits now amountSat then
          (true, ⟨(s.reserver.sweep now).reservations.set bolt11.paymentHash
            ⟨bolt11.paymentHash, amountSat, now + s.invoiceExpirySec⟩⟩)
        else (false, s.reserver.sweep now) :=
    LiquidityReserver.tryReserve_eq _ _ _ _ _ _
  -- the six outcomes: three branches after the lock, one without it
  by_cases hfits : s.Fits now amountSat
  · have hlocked : (s.withRequest bolt11).reserver.tryReserve (s.withRequest bolt11).capacity now
        bolt11.paymentHash amountSat (now + s.invoiceExpirySec) =
          (true, ((s.withRequest bolt11).withReservation now bolt11).reserver) := by
      rw [htry, if_pos hfits, ← hnew.expiresAt, ← hnew.amount]
      rfl
    rw [lockInvoice, hlocked]
    show IssueOutcome calls now event offer amountSat selftest s (handOut calls now event offer
      amountSat selftest bolt11 ((s.withRequest bolt11).withReservation now bolt11))
    rcases selftest with _ | _
    · have hout : handOut calls now event offer amountSat false bolt11
          ((s.withRequest bolt11).withReservation now bolt11) =
            (s.sendResponse calls (successPayload bolt11),
              ((s.withRequest bolt11).withReservation now bolt11).rememberInvoice calls now event
                offer amountSat bolt11.paymentHash) := by
        simp only [handOut, Bool.not_false, if_true, Bool.false_eq_true, if_false, ite_self]
        rfl
      rw [hout]
      exact .issued bolt11 hnew hanswered hfits rfl
    · by_cases hraised : (s.sendResponse calls (successPayload bolt11)).delivery = .raised
      · have hout : handOut calls now event offer amountSat true bolt11
            ((s.withRequest bolt11).withReservation now bolt11) =
              (s.sendResponse calls (successPayload bolt11),
                (s.withRequest bolt11).withReservation now bolt11) := if_pos hraised
        rw [hout]
        exact .selftestRaised bolt11 hnew hanswered hfits rfl hraised
      · have hout : handOut calls now event offer amountSat true bolt11
            ((s.withRequest bolt11).withReservation now bolt11) =
              (s.sendResponse calls (successPayload bolt11),
                ((s.withRequest bolt11).withReservation now bolt11).unwindSelftest now offer
                  amountSat bolt11.paymentHash) := if_neg hraised
        rw [hout]
        exact .selftestUnwound bolt11 hnew hanswered hfits rfl hraised
  · have hlost : (s.withRequest bolt11).reserver.tryReserve (s.withRequest bolt11).capacity now
        bolt11.paymentHash amountSat (now + s.invoiceExpirySec) =
          (false, s.reserver.sweep now) := by
      rw [htry, if_neg hfits]
    have hswept : (s.reserver.sweep now).sweep now = s.reserver.sweep now :=
      LiquidityReserver.sweep_sweep _ _
    rw [lockInvoice, hlost]
    simp only [record, hswept]
    exact .lostRace bolt11 _ hnew hanswered hfits

/-- Every run of `_issue_invoice` ends in one of the six ways. -/
theorem issueInvoice_outcome (env : Env) (calls : Calls) (now : Time) (event : Event)
    (offer : Option Offer) (amountSat : ℤ) (description : Option String) (selftest : Bool)
    (s : ClinkServer) :
    IssueOutcome calls now event offer amountSat selftest s
      (issueInvoice env calls now event offer amountSat description selftest s) := by
  rcases hcreate : calls.createRequest with _ | rhash
  · simp only [issueInvoice, Wallet.createInvoice, hcreate]
    exact .notCreated hcreate
  · set message := invoiceMessage env.tables (offer.map Offer.label) description with hmessage
    set bolt11 : Bolt11 := ⟨rhash, amountSat, message, now, s.invoiceExpirySec⟩ with hbolt11
    have hnew : s.NewInvoice calls now amountSat bolt11 := ⟨hcreate, rfl, rfl⟩
    have hcall := Wallet.createInvoice_of_some (w := s.wallet) hcreate now amountSat message
      s.invoiceExpirySec
    rcases hanswered : calls.answered s.wallet with _ | _
    · rw [hanswered] at hcall
      rw [issueInvoice, ← hmessage, hcall]
      exact .failed bolt11 hnew hanswered
    · rw [hanswered] at hcall
      rw [issueInvoice, ← hmessage, hcall]
      show IssueOutcome calls now event offer amountSat selftest s (lockInvoice calls now event
        offer amountSat selftest s.invoiceExpirySec bolt11 (s.withRequest bolt11))
      exact lockInvoice_outcome hnew hanswered

/-! ## Tracking of handed-out invoices -/

/-- An invoice is known to all four stores, on behalf of the payer who asked for it. -/
structure Tracked (s : ClinkServer) (event : Event) (bolt11 : Bolt11) : Prop where
  request : bolt11.paymentHash ∈ s.wallet.requests
  entry : ∃ e, s.receipts.lookup bolt11.paymentHash = some e ∧ e.payer = event.pubkey ∧
    e.req = event.id
  devfee : bolt11.paymentHash ∈ s.devfee.pending
  reservation : ∃ res, s.reserver.reservations.get? bolt11.paymentHash = some res ∧
    res.amountSat = bolt11.amountSat

/-- A reply with an invoice comes from a run that locked and, unless it was a self-test, remembered
that invoice. -/
theorem issued_of_success {calls : Calls} {now : Time} {event : Event} {offer : Option Offer}
    {amountSat : ℤ} {s s' : ClinkServer} {bolt11 : Bolt11} {delivery : Delivery}
    (h : IssueOutcome calls now event offer amountSat false s (⟨.success bolt11, delivery⟩, s')) :
    s.NewInvoice calls now amountSat bolt11 ∧
      s' = ((s.withRequest bolt11).withReservation now bolt11).rememberInvoice calls now event offer
        amountSat bolt11.paymentHash := by
  generalize hresult : (Reply.mk (.success bolt11) delivery, s') = result at h
  cases h with
  | notCreated => simp [sendResponse, errorPayload] at hresult
  | failed => simp [sendResponse, errorPayload] at hresult
  | lostRace => simp [sendResponse, invalidAmountPayload] at hresult
  | issued bolt11' hnew =>
    simp only [sendResponse, successPayload, Prod.mk.injEq, Reply.mk.injEq,
      Payload.success.injEq] at hresult
    obtain ⟨⟨rfl, -⟩, rfl⟩ := hresult
    exact ⟨hnew, rfl⟩
  | selftestRaised _ _ _ _ hselftest => cases hselftest
  | selftestUnwound _ _ _ _ hselftest => cases hselftest

/-- The remembered invoice is tracked exactly when neither bounded map drops it at once. -/
theorem tracked_rememberInvoice_iff {calls : Calls} {now : Time} {event : Event}
    {offer : Option Offer} {amountSat : ℤ} {s : ClinkServer} {bolt11 : Bolt11}
    (hreceipts : bolt11.paymentHash ∉ s.receipts.pending)
    (hdevfee : bolt11.paymentHash ∉ s.devfee.pending) :
    (((s.withRequest bolt11).withReservation now bolt11).rememberInvoice calls now event offer
        amountSat bolt11.paymentHash).Tracked event bolt11 ↔
      s.receipts.pendingCount + 1 ≤
          s.receipts.evictedFirst (now + s.invoiceExpirySec) + maxPending ∧
        s.devfee.pending.size + 1 ≤ s.devfee.issuedBy now + pendingMax := by
  set s₁ := (s.withRequest bolt11).withReservation now bolt11 with hs₁
  have hevicted := ReceiptRegistry.mem_evicted_self_iff s.receipts event.pubkey event.id
    (now + s.invoiceExpirySec) hreceipts
  have hmarked := DevFeeLedger.mem_markIssued_self_iff s.devfee now hdevfee
  have hlookup := ReceiptRegistry.lookup_remember s.receipts bolt11.paymentHash event.pubkey
    event.id (now + s.invoiceExpirySec) bolt11.paymentHash
  rw [if_pos rfl] at hlookup
  -- request and reservation are always there; only the bounded maps can drop the invoice
  constructor
  · intro htracked
    refine ⟨?_, hmarked.1 htracked.devfee⟩
    by_contra hover
    -- an evicted entry is not found
    rw [if_pos (hevicted.2 (by omega))] at hlookup
    obtain ⟨e, he, -⟩ := htracked.entry
    rw [rememberInvoice_receipts] at he
    exact absurd (hlookup.symm.trans he) (by simp)
  · rintro ⟨hroom, hpending⟩
    have hkept : bolt11.paymentHash ∉ (s.receipts.remember bolt11.paymentHash event.pubkey
        event.id (now + s.invoiceExpirySec)).1 := fun h => by
      have := hevicted.1 h
      omega
    rw [if_neg hkept] at hlookup
    refine ⟨?_, ⟨_, hlookup, rfl, rfl⟩, hmarked.2 hpending,
      ⟨bolt11.paymentHash, bolt11.amountSat, bolt11.expiresAt⟩, ?_, rfl⟩
    · rw [rememberInvoice_wallet, Dict.mem_iff_exists_get?]
      have hkept' : bolt11.paymentHash ∉ (s₁.receipts.remember bolt11.paymentHash event.pubkey
          event.id (now + s₁.invoiceExpirySec)).1 := hkept
      refine ⟨⟨bolt11.amountSat, bolt11.message, bolt11.expiry, true, .unpaid⟩, ?_⟩
      rw [Wallet.get?_deleteStaleRequests, Option.filter_eq_some_iff]
      exact ⟨Dict.get?_set_self _ _ _, by simp [hkept']⟩
    · rw [rememberInvoice_reserver]
      exact Dict.get?_set_self _ _ _

/-- An invoice that is sent to a payer is tracked, unless it was the last one too many: the
registry is full and every invoice it could drop instead expires later, or the dev-fee map is full
of hashes issued in later seconds. -/
theorem handed_out_invoice_tracked_iff (env : Env) (calls : Calls) (now : Time) (event : Event)
    (offer : Option Offer) (amountSat : ℤ) (description : Option String) (s s' : ClinkServer)
    (bolt11 : Bolt11) (hsize : s.receipts.pendingCount ≤ maxPending)
    (hreceipts : bolt11.paymentHash ∉ s.receipts.pending)
    (hdevfee : bolt11.paymentHash ∉ s.devfee.pending)
    (hsent : issueInvoice env calls now event offer amountSat description false s =
      (⟨.success bolt11, .spawned⟩, s')) :
    s'.Tracked event bolt11 ∧ bolt11.amountSat = amountSat ↔
      (s.receipts.pendingCount < maxPending ∨
        0 < s.receipts.evictedFirst (now + s.invoiceExpirySec)) ∧
      s.devfee.pending.size + 1 ≤ s.devfee.issuedBy now + pendingMax := by
  have houtcome := issueInvoice_outcome env calls now event offer amountSat description false s
  rw [hsent] at houtcome
  obtain ⟨hnew, rfl⟩ := issued_of_success houtcome
  rw [tracked_rememberInvoice_iff hreceipts hdevfee]
  constructor
  · rintro ⟨⟨hroom, hpending⟩, -⟩
    exact ⟨by omega, hpending⟩
  · rintro ⟨hroom, hpending⟩
    exact ⟨⟨by omega, hpending⟩, hnew.amount⟩

/-- An invoice sent while the registry is empty is tracked. -/
theorem handed_out_invoice_tracked_empty :
    (issueInvoice .sample (.succeeding "r") 0 (.sample "e" 0) none 100 none false
      (.sample 150 300)).2.Tracked (.sample "e" 0) ⟨"r", 100, "CLINK offer", 0, 300⟩ := by
  have hreply : (issueInvoice .sample (.succeeding "r") 0 (.sample "e" 0) none 100 none false
      (.sample 150 300)).1 = ⟨.success ⟨"r", 100, "CLINK offer", 0, 300⟩, .spawned⟩ := by
    decide +kernel
  refine ((handed_out_invoice_tracked_iff .sample (.succeeding "r") 0 (.sample "e" 0) none 100 none
    (.sample 150 300) _ ⟨"r", 100, "CLINK offer", 0, 300⟩ (by decide +kernel) (by decide +kernel)
    (by decide +kernel) (Prod.ext hreply rfl)).2 ⟨.inl ?_, ?_⟩).1
  all_goals decide +kernel

/-- An owed receipt. -/
def owedEntry : ReceiptEntry :=
  { ReceiptRegistry.awaiting "payer" "request" 0 with due := true }

/-- A registry of `n` owed receipts. -/
def owedReceipts (n : ℕ) : ReceiptRegistry where
  pending :=
    { entries := (List.range n).map fun i => (String.ofList (List.replicate i 'a'), owedEntry)
      nodup_keys := by
        rw [List.map_map]
        refine List.Nodup.map (fun i j h => ?_) List.nodup_range
        simpa using congrArg String.length h }

theorem pendingCount_owedReceipts (n : ℕ) : (owedReceipts n).pendingCount = n := by
  simp [ReceiptRegistry.pendingCount, Dict.size, owedReceipts]

/-- Nothing in a registry of owed receipts can be evicted. -/
theorem evictedFirst_owedReceipts (n : ℕ) (t : Time) : (owedReceipts n).evictedFirst t = 0 := by
  simp [ReceiptRegistry.evictedFirst, ReceiptRegistry.prunable, owedReceipts, List.filter_map,
    owedEntry, Function.comp_def]

theorem notMem_owedReceipts (n : ℕ) : "r" ∉ (owedReceipts n).pending := by
  intro hmem
  obtain ⟨⟨k, e⟩, he, hk⟩ := List.mem_map.1 hmem
  obtain ⟨i, -, hi⟩ := List.mem_map.1 he
  have hkey : List.replicate i 'a' = ['r'] := by
    rw [← String.toList_ofList (l := List.replicate i 'a'), (Prod.mk.inj hi).1]
    exact congrArg String.toList hk
  have hr : 'r' ∈ List.replicate i 'a' := by simp [hkey]
  exact absurd (List.eq_of_mem_replicate hr) (by decide)

/-- A server whose registry is full of owed receipts. -/
def fullOfOwed : ClinkServer :=
  { ClinkServer.sample 150 300 with receipts := owedReceipts maxPending }

/-- With a registry full of owed receipts the invoice is sent, and its entry is gone at once. -/
theorem handed_out_invoice_untracked :
    fullOfOwed.receipts.pendingCount ≤ maxPending ∧ "r" ∉ fullOfOwed.receipts.pending ∧
      "r" ∉ fullOfOwed.devfee.pending ∧
      (issueInvoice .sample (.succeeding "r") 0 (.sample "e" 0) none 100 none false
        fullOfOwed).1 = ⟨.success ⟨"r", 100, "CLINK offer", 0, 300⟩, .spawned⟩ ∧
      ¬ (issueInvoice .sample (.succeeding "r") 0 (.sample "e" 0) none 100 none false
        fullOfOwed).2.Tracked (.sample "e" 0) ⟨"r", 100, "CLINK offer", 0, 300⟩ := by
  have hcount : fullOfOwed.receipts.pendingCount = maxPending := pendingCount_owedReceipts _
  have hfresh : "r" ∉ fullOfOwed.receipts.pending := notMem_owedReceipts _
  have hdevfee : "r" ∉ fullOfOwed.devfee.pending := by decide +kernel
  have hreply : (issueInvoice .sample (.succeeding "r") 0 (.sample "e" 0) none 100 none false
      fullOfOwed).1 = ⟨.success ⟨"r", 100, "CLINK offer", 0, 300⟩, .spawned⟩ := by
    decide +kernel
  refine ⟨hcount.le, hfresh, hdevfee, hreply, fun htracked => ?_⟩
  have houtcome := issueInvoice_outcome .sample (.succeeding "r") 0 (.sample "e" 0) none 100 none
    false fullOfOwed
  rcases hrun : issueInvoice .sample (.succeeding "r") 0 (.sample "e" 0) none 100 none false
    fullOfOwed with ⟨reply, s'⟩
  rw [hrun] at hreply htracked houtcome
  obtain rfl : reply = _ := hreply
  obtain ⟨-, rfl⟩ := issued_of_success houtcome
  have hroom := ((tracked_rememberInvoice_iff hfresh hdevfee).1 htracked).1
  have hfirst : fullOfOwed.receipts.evictedFirst (0 + fullOfOwed.invoiceExpirySec) = 0 :=
    evictedFirst_owedReceipts _ _
  rw [hcount, hfirst] at hroom
  omega

/-! ## Residue -/

/-- A run that ended with `reply` in state `s` left nothing untracked: the wallet request it created
is gone or has a registry entry, and without an invoice sent to a payer no reservation is held. -/
structure NoResidue (calls : Calls) (selftest : Bool) (reply : Reply) (s : ClinkServer) :
    Prop where
  request : ∀ rhash, calls.createRequest = some rhash →
    rhash ∉ s.wallet.requests ∨ rhash ∈ s.receipts.pending
  reservation : (¬ ∃ bolt11, reply = ⟨.success bolt11, .spawned⟩) ∨ selftest = true →
    ∀ rhash, calls.createRequest = some rhash → rhash ∉ s.reserver.reservations

/-- The runs that leave no residue: nothing was created, or every wallet call succeeded and then
the liquidity was gone, a self-test's reply was not refused, or a payer's invoice was sent and not
dropped from the registry behind the back of a failing garbage collection. -/
def CleanRun (calls : Calls) (now : Time) (amountSat : ℤ) (selftest : Bool) (s : ClinkServer) :
    Prop :=
  calls.createRequest = none ∨ calls.answered s.wallet = true ∧
    (¬ s.Fits now amountSat ∨
      (selftest = true ∧ (s.taskgroup = false ∨ calls.spawn = true)) ∨
      (selftest = false ∧ s.taskgroup = true ∧ calls.spawn = true ∧
        (s.receipts.pendingCount + 1 ≤
            s.receipts.evictedFirst (now + s.invoiceExpirySec) + maxPending ∨
          ∀ rhash, calls.createRequest = some rhash → calls.getStaleRequest rhash = true)))

/-- The request of a remembered invoice survives untracked exactly when the registry dropped the
entry and the garbage collection of the request failed. -/
theorem request_rememberInvoice_iff (calls : Calls) (now : Time) (event : Event)
    (offer : Option Offer) (amountSat : ℤ) (s : ClinkServer) {bolt11 : Bolt11}
    (hreceipts : bolt11.paymentHash ∉ s.receipts.pending) :
    bolt11.paymentHash ∉ (((s.withRequest bolt11).withReservation now bolt11).rememberInvoice calls
        now event offer amountSat bolt11.paymentHash).wallet.requests ∨
      bolt11.paymentHash ∈ (((s.withRequest bolt11).withReservation now bolt11).rememberInvoice
        calls now event offer amountSat bolt11.paymentHash).receipts.pending ↔
      s.receipts.pendingCount + 1 ≤
          s.receipts.evictedFirst (now + s.invoiceExpirySec) + maxPending ∨
        calls.getStaleRequest bolt11.paymentHash = true := by
  set s₁ := (s.withRequest bolt11).withReservation now bolt11 with hs₁
  set remembered := s.receipts.remember bolt11.paymentHash event.pubkey event.id
    (now + s.invoiceExpirySec) with hremembered
  have hevicted := ReceiptRegistry.mem_evicted_self_iff s.receipts event.pubkey event.id
    (now + s.invoiceExpirySec) hreceipts
  have hlookup := ReceiptRegistry.lookup_remember s.receipts bolt11.paymentHash event.pubkey
    event.id (now + s.invoiceExpirySec) bolt11.paymentHash
  rw [← hremembered] at hevicted hlookup
  have hrequest : s₁.wallet.requests.get? bolt11.paymentHash =
      some ⟨bolt11.amountSat, bolt11.message, bolt11.expiry, true, .unpaid⟩ :=
    Dict.get?_set_self _ _ _
  have hwallet : (s₁.rememberInvoice calls now event offer amountSat
      bolt11.paymentHash).wallet = s₁.wallet.deleteStaleRequests calls remembered.1 :=
    rememberInvoice_wallet _ _ _ _ _ _ _
  have hreg : (s₁.rememberInvoice calls now event offer amountSat
      bolt11.paymentHash).receipts = remembered.2 := rememberInvoice_receipts _ _ _ _ _ _ _
  rw [hwallet, hreg, Dict.mem_iff_exists_get? (d := remembered.2.pending)]
  -- a dropped entry hands its request to the garbage collection; a kept one tracks it
  by_cases hdropped : bolt11.paymentHash ∈ remembered.1
  · rw [if_pos hdropped] at hlookup
    have hover : ¬ s.receipts.pendingCount + 1 ≤
        s.receipts.evictedFirst (now + s.invoiceExpirySec) + maxPending := by
      have := hevicted.1 hdropped
      omega
    have hgone : ¬ ∃ e, remembered.2.pending.get? bolt11.paymentHash = some e := by
      rintro ⟨e, he⟩
      exact absurd (hlookup.symm.trans he) (by simp)
    simp only [hgone, hover, or_false, false_or]
    rw [← Dict.get?_eq_none_iff, Wallet.get?_deleteStaleRequests, hrequest]
    simp [Option.filter, hdropped, Calls.collects]
  · rw [if_neg hdropped, if_pos rfl] at hlookup
    have hroom : s.receipts.pendingCount + 1 ≤
        s.receipts.evictedFirst (now + s.invoiceExpirySec) + maxPending := by
      by_contra hover
      exact hdropped (hevicted.2 (by omega))
    simp only [hroom, true_or, iff_true]
    exact .inr ⟨_, hlookup⟩

section Drawn

variable {calls : Calls} {now : Time} {amountSat : ℤ} {selftest : Bool} {reply : Reply}
  {s : ClinkServer} {rhash : PaymentHash}

/-- A residue can only be left under the payment hash that was drawn. -/
theorem noResidue_iff (hcreated : calls.createRequest = some rhash) :
    NoResidue calls selftest reply s ↔
      (rhash ∉ s.wallet.requests ∨ rhash ∈ s.receipts.pending) ∧
        ((¬ ∃ bolt11, reply = ⟨.success bolt11, .spawned⟩) ∨ selftest = true →
          rhash ∉ s.reserver.reservations) := by
  have hdrawn : ∀ k, calls.createRequest = some k → k = rhash := fun k h =>
    Option.some.inj (h.symm.trans hcreated)
  constructor
  · exact fun h => ⟨h.request rhash hcreated, fun hunsent => h.reservation hunsent rhash hcreated⟩
  · rintro ⟨hrequest, hreservation⟩
    refine ⟨fun k h => ?_, fun hunsent k h => ?_⟩
    · rw [hdrawn k h]
      exact hrequest
    · rw [hdrawn k h]
      exact hreservation hunsent

theorem cleanRun_iff (hcreated : calls.createRequest = some rhash) :
    CleanRun calls now amountSat selftest s ↔ calls.answered s.wallet = true ∧
      (¬ s.Fits now amountSat ∨
        (selftest = true ∧ (s.taskgroup = false ∨ calls.spawn = true)) ∨
        (selftest = false ∧ s.taskgroup = true ∧ calls.spawn = true ∧
          (s.receipts.pendingCount + 1 ≤
              s.receipts.evictedFirst (now + s.invoiceExpirySec) + maxPending ∨
            calls.getStaleRequest rhash = true))) := by
  simp [CleanRun, hcreated]

end Drawn

/-- After a remembered invoice the reservation is held, so the invoice has to be sent. -/
theorem noResidue_rememberInvoice_iff (calls : Calls) (now : Time) (event : Event)
    (offer : Option Offer) (amountSat : ℤ) (s : ClinkServer) {bolt11 : Bolt11}
    (hcreated : calls.createRequest = some bolt11.paymentHash)
    (hreceipts : bolt11.paymentHash ∉ s.receipts.pending) :
    NoResidue calls false (s.sendResponse calls (successPayload bolt11))
        (((s.withRequest bolt11).withReservation now bolt11).rememberInvoice calls now event offer
          amountSat bolt11.paymentHash) ↔
      (s.taskgroup = true ∧ calls.spawn = true) ∧
        (s.receipts.pendingCount + 1 ≤
            s.receipts.evictedFirst (now + s.invoiceExpirySec) + maxPending ∨
          calls.getStaleRequest bolt11.paymentHash = true) := by
  have hheld : bolt11.paymentHash ∈ (((s.withRequest bolt11).withReservation now
      bolt11).rememberInvoice calls now event offer amountSat
        bolt11.paymentHash).reserver.reservations := by
    rw [rememberInvoice_reserver]
    exact Dict.mem_of_get? (Dict.get?_set_self _ _ _)
  have hsent : (∃ bolt11', s.sendResponse calls (successPayload bolt11) =
      ⟨.success bolt11', .spawned⟩) ↔ s.taskgroup = true ∧ calls.spawn = true := by
    rw [← sendResponse_eq_spawned_iff s calls (successPayload bolt11)]
    constructor
    · rintro ⟨bolt11', h⟩
      exact congrArg Reply.delivery h
    · exact fun h => ⟨bolt11, congrArg (Reply.mk (.success bolt11)) h⟩
  rw [noResidue_iff hcreated,
    request_rememberInvoice_iff calls now event offer amountSat s hreceipts, hsent, and_comm]
  refine and_congr_left fun _ => ⟨fun hreleased => ?_, fun hsent hunsent => ?_⟩
  · by_contra hunsent
    exact hreleased (.inl hunsent) hheld
  · rcases hunsent with hunsent | hselftest
    · exact absurd hsent hunsent
    · cases hselftest

/-- A run leaves no residue exactly when it is clean. The payment hash the wallet draws is one that
neither the registry nor the reserver has seen. -/
theorem issueInvoice_leaves_no_residue_iff (env : Env) (calls : Calls) (now : Time)
    (event : Event) (offer : Option Offer) (amountSat : ℤ) (description : Option String)
    (selftest : Bool) (s : ClinkServer)
    (hfresh : ∀ rhash, calls.createRequest = some rhash →
      rhash ∉ s.receipts.pending ∧ rhash ∉ s.reserver.reservations) :
    NoResidue calls selftest
        (issueInvoice env calls now event offer amountSat description selftest s).1
        (issueInvoice env calls now event offer amountSat description selftest s).2 ↔
      CleanRun calls now amountSat selftest s := by
  have houtcome := issueInvoice_outcome env calls now event offer amountSat description selftest s
  generalize issueInvoice env calls now event offer amountSat description selftest s = result at *
  cases houtcome with
  | notCreated hcreate =>
    refine ⟨fun _ => .inl hcreate, fun _ => ⟨fun rhash h => ?_, fun _ rhash h => ?_⟩⟩ <;>
      cases hcreate.symm.trans h
  | failed bolt11 hnew hraised =>
    rw [noResidue_iff hnew.created, cleanRun_iff hnew.created]
    refine iff_of_false ?_ ?_
    · -- the created request is still there, and nothing was remembered
      rintro ⟨hgone | hentry, -⟩
      · exact hgone (Dict.mem_of_get? (Dict.get?_set_self _ _ _))
      · exact (hfresh _ hnew.created).1 hentry
    · rintro ⟨hanswered, -⟩
      cases hraised.symm.trans hanswered
  | lostRace bolt11 maxSat hnew hanswered hfits =>
    rw [noResidue_iff hnew.created, cleanRun_iff hnew.created]
    refine iff_of_true ⟨.inl (Dict.notMem_erase_self _ _), fun _ hmem => ?_⟩ ⟨hanswered, .inl hfits⟩
    -- a reservation could only be an old one, and the hash is fresh
    obtain ⟨res, hres⟩ := Dict.mem_iff_exists_get?.1 hmem
    have hkept := LiquidityReserver.get?_sweep.1 hres
    exact (hfresh _ hnew.created).2 (Dict.mem_of_get? hkept.1)
  | issued bolt11 hnew hanswered hfits hselftest =>
    subst hselftest
    rw [noResidue_rememberInvoice_iff calls now event offer amountSat s hnew.created
      (hfresh _ hnew.created).1, cleanRun_iff hnew.created]
    simp [hanswered, hfits, and_assoc]
  | selftestRaised bolt11 hnew hanswered hfits hselftest hraised =>
    rw [noResidue_iff hnew.created, cleanRun_iff hnew.created]
    obtain ⟨htg, hspawn⟩ := (sendResponse_eq_raised_iff _ _ _).1 hraised
    refine iff_of_false ?_ ?_
    · -- the reservation is still held
      rintro ⟨-, hreleased⟩
      exact hreleased (.inr hselftest) (Dict.mem_of_get? (Dict.get?_set_self _ _ _))
    · simp [hfits, hselftest, htg, hspawn]
  | selftestUnwound bolt11 hnew hanswered hfits hselftest hsent =>
    rw [noResidue_iff hnew.created, cleanRun_iff hnew.created]
    have hopen : s.taskgroup = false ∨ calls.spawn = true := by
      rw [ne_eq, sendResponse_eq_raised_iff] at hsent
      cases htg : s.taskgroup <;> cases hspawn : calls.spawn <;> simp_all
    exact iff_of_true
      ⟨.inl (Dict.notMem_erase_self _ _), fun _ => Dict.notMem_erase_self _ _⟩
      ⟨hanswered, .inr (.inl ⟨hselftest, hopen⟩)⟩

/-- A payer's invoice that is sent leaves no residue. -/
theorem issueInvoice_leaves_no_residue_sent :
    NoResidue (.succeeding "r") false ⟨.success ⟨"r", 100, "CLINK offer", 0, 300⟩, .spawned⟩
      (issueInvoice .sample (.succeeding "r") 0 (.sample "e" 0) none 100 none false
        (.sample 150 300)).2 := by
  have hreply : (issueInvoice .sample (.succeeding "r") 0 (.sample "e" 0) none 100 none false
      (.sample 150 300)).1 = ⟨.success ⟨"r", 100, "CLINK offer", 0, 300⟩, .spawned⟩ := by
    decide +kernel
  have hclean : CleanRun (.succeeding "r") 0 100 false (.sample 150 300) :=
    .inr ⟨rfl, .inr (.inr ⟨rfl, rfl, rfl, .inr fun _ _ => rfl⟩)⟩
  rw [← hreply]
  exact (issueInvoice_leaves_no_residue_iff .sample (.succeeding "r") 0 (.sample "e" 0) none 100
    none false (.sample 150 300) fun _ _ => ⟨by simp [sample, init, ReceiptRegistry.empty],
      by simp [sample, init, LiquidityReserver.init]⟩).2 hclean

/-- When `get_bolt11_invoice` raises, the wallet keeps a request that no store knows about. -/
theorem failed_run_leaves_request :
    let calls : Calls := { Calls.succeeding "r" with getBolt11Invoice := false }
    let r := issueInvoice .sample calls 0 (.sample "e" 0) none 100 none false (.sample 150 300)
    ¬ NoResidue calls false r.1 r.2 := by
  intro calls r hclean
  have hleft : "r" ∈ r.2.wallet.requests ∧ "r" ∉ r.2.receipts.pending := by decide +kernel
  rcases hclean.request "r" rfl with h | h
  · exact h hleft.1
  · exact hleft.2 h

end ClinkServer

end ElectrumClink
