import ElectrumClink.Server.Steps

/-!
# What a request leaves behind

An invoice leaves its payment hash in four stores: among the reservations, among the requests of the
wallet, in the receipt registry and among the hashes that a dev fee is pending for.

* `ClinkServer.dispatch_unknown_drawn_iff`: which requests leave the hash that is drawn for them.
* `World.unknown_step`: no other hash is ever added to a store.
-/

namespace ElectrumClink

/-- Only the marked hash is added. -/
theorem DevFeeLedger.mem_of_mem_markIssued {ledger : DevFeeLedger} {now : Time}
    {rhash k : PaymentHash} (h : k ∈ (ledger.markIssued now rhash).pending) :
    k = rhash ∨ k ∈ ledger.pending :=
  Dict.mem_set.1 (Dict.mem_eraseAll.1 h).1

theorem DevFeeLedger.mem_of_mem_takeIssued {ledger : DevFeeLedger} {rhash k : PaymentHash}
    (h : k ∈ (ledger.takeIssued rhash).2.pending) : k ∈ ledger.pending := by
  unfold takeIssued at h
  split at h
  next => exact (Dict.mem_erase.1 h).2
  next => exact h

theorem LiquidityReserver.mem_of_mem_sweep {r : LiquidityReserver} {now : Time}
    {k : PaymentHash} (h : k ∈ (r.sweep now).reservations) : k ∈ r.reservations := by
  obtain ⟨res, hres⟩ := Dict.mem_iff_exists_get?.1 h
  exact Dict.mem_of_get? (get?_sweep.1 hres).1

theorem Wallet.mem_of_mem_deleteStaleRequests {w : Wallet} {calls : Calls}
    {rhashes : List PaymentHash} {k : PaymentHash}
    (h : k ∈ (w.deleteStaleRequests calls rhashes).requests) : k ∈ w.requests := by
  obtain ⟨request, hrequest⟩ := Dict.mem_iff_exists_get?.1 h
  rw [get?_deleteStaleRequests, Option.filter_eq_some_iff] at hrequest
  exact Dict.mem_of_get? hrequest.1

namespace ClinkServer

/-- None of the stores of a server knows the payment hash. -/
structure Unknown (s : ClinkServer) (k : PaymentHash) : Prop where
  reservation : k ∉ s.reserver.reservations
  request : k ∉ s.wallet.requests
  receipt : k ∉ s.receipts.pending
  devfee : k ∉ s.devfee.pending

instance (s : ClinkServer) (k : PaymentHash) : Decidable (s.Unknown k) :=
  decidable_of_iff (k ∉ s.reserver.reservations ∧ k ∉ s.wallet.requests ∧
    k ∉ s.receipts.pending ∧ k ∉ s.devfee.pending)
    ⟨fun ⟨h₁, h₂, h₃, h₄⟩ => ⟨h₁, h₂, h₃, h₄⟩, fun h => ⟨h.1, h.2, h.3, h.4⟩⟩

variable {env : Env} {calls : Calls} {now : Time} {event : Event} {offer : Option Offer}
  {amountSat : ℤ} {description : Option String} {selftest : Bool} {s s' : ClinkServer}
  {k : PaymentHash} {bolt11 : Bolt11}

/-- What knows less leaves an unknown hash unknown. -/
theorem Unknown.mono (h : s.Unknown k)
    (hreservation : k ∈ s'.reserver.reservations → k ∈ s.reserver.reservations)
    (hrequest : k ∈ s'.wallet.requests → k ∈ s.wallet.requests)
    (hreceipt : k ∈ s'.receipts.pending → k ∈ s.receipts.pending)
    (hdevfee : k ∈ s'.devfee.pending → k ∈ s.devfee.pending) : s'.Unknown k :=
  ⟨mt hreservation h.reservation, mt hrequest h.request, mt hreceipt h.receipt,
    mt hdevfee h.devfee⟩

/-! ## A run of `_issue_invoice` -/

theorem Unknown.withRequest (h : s.Unknown k) (hk : k ≠ bolt11.paymentHash) :
    (s.withRequest bolt11).Unknown k :=
  h.mono id (fun hmem => (Dict.mem_set.1 hmem).resolve_left hk) id id

theorem Unknown.withReservation (h : s.Unknown k) (hk : k ≠ bolt11.paymentHash) :
    (s.withReservation now bolt11).Unknown k :=
  h.mono (fun hmem =>
    LiquidityReserver.mem_of_mem_sweep ((Dict.mem_set.1 hmem).resolve_left hk)) id id id

theorem Unknown.cancelled (h : s.Unknown k) :
    (s.cancelled now offer amountSat bolt11.paymentHash).Unknown k :=
  h.mono LiquidityReserver.mem_of_mem_sweep (fun hmem => (Dict.mem_erase.1 hmem).2) id id

theorem Unknown.unwindSelftest (h : s.Unknown k) :
    (s.unwindSelftest now offer amountSat bolt11.paymentHash).Unknown k :=
  h.mono (fun hmem => (Dict.mem_erase.1 hmem).2) (fun hmem => (Dict.mem_erase.1 hmem).2) id id

theorem Unknown.rememberInvoice (h : s.Unknown k) (hk : k ≠ bolt11.paymentHash) :
    (s.rememberInvoice calls now event offer amountSat bolt11.paymentHash).Unknown k := by
  refine h.mono ?_ ?_ ?_ ?_
  · rw [rememberInvoice_reserver]
    exact id
  · rw [rememberInvoice_wallet]
    exact Wallet.mem_of_mem_deleteStaleRequests
  · rw [rememberInvoice_receipts]
    exact fun hmem => (ReceiptRegistry.mem_of_mem_remember hmem).resolve_left hk
  · rw [rememberInvoice_devfee]
    exact fun hmem => (DevFeeLedger.mem_of_mem_markIssued hmem).resolve_left hk

/-- Issuing an invoice adds no hash but the one that is drawn for it. -/
theorem Unknown.issueInvoice (h : s.Unknown k) (hk : calls.createRequest ≠ some k) :
    (issueInvoice env calls now event offer amountSat description selftest s).2.Unknown k := by
  have hout := issueInvoice_outcome env calls now event offer amountSat description selftest s
  generalize ClinkServer.issueInvoice env calls now event offer amountSat description selftest s =
    result at hout ⊢
  have hne : ∀ bolt11, s.NewInvoice calls now amountSat bolt11 → k ≠ bolt11.paymentHash := by
    rintro bolt11 hnew rfl
    exact hk hnew.created
  cases hout with
  | notCreated => exact h
  | failed bolt11 hnew => exact h.withRequest (hne bolt11 hnew)
  | lostRace bolt11 maxSat hnew => exact (h.withRequest (hne bolt11 hnew)).cancelled
  | issued bolt11 hnew =>
    exact ((h.withRequest (hne bolt11 hnew)).withReservation (hne bolt11 hnew)).rememberInvoice
      (hne bolt11 hnew)
  | selftestRaised bolt11 hnew =>
    exact (h.withRequest (hne bolt11 hnew)).withReservation (hne bolt11 hnew)
  | selftestUnwound bolt11 hnew =>
    exact ((h.withRequest (hne bolt11 hnew)).withReservation (hne bolt11 hnew)).unwindSelftest

/-- The wallet answers, and the request is a self-test whose reply the taskgroup takes or nobody
sends. -/
def Unwinds (s : ClinkServer) (calls : Calls) (selftest : Bool) : Prop :=
  calls.answered s.wallet = true ∧ selftest = true ∧ (s.taskgroup = false ∨ calls.spawn = true)

/-- Issuing an invoice for an amount that fits leaves the hash behind, unless it is unwound. -/
theorem issueInvoice_unknown_drawn_iff (hcreated : calls.createRequest = some k)
    (hnew : s.Unknown k) (hfits : s.Fits now amountSat) :
    (issueInvoice env calls now event offer amountSat description selftest s).2.Unknown k ↔
      s.Unwinds calls selftest := by
  have hout := issueInvoice_outcome env calls now event offer amountSat description selftest s
  generalize issueInvoice env calls now event offer amountSat description selftest s = result
    at hout ⊢
  have hdrawn : ∀ bolt11, s.NewInvoice calls now amountSat bolt11 → bolt11.paymentHash = k :=
    fun bolt11 hnew => Option.some.inj (hnew.created.symm.trans hcreated)
  cases hout with
  | notCreated hnone => cases hnone.symm.trans hcreated
  | failed bolt11 hinvoice hraised =>
    obtain rfl := hdrawn bolt11 hinvoice
    -- the wallet raised after `create_request`: its request stays
    refine iff_of_false (fun h => h.request (Dict.mem_set.2 (.inl rfl))) ?_
    rintro ⟨hanswered, -⟩
    cases hraised.symm.trans hanswered
  -- an amount within the liquidity of the gate does not lose the race within one dispatch
  | lostRace bolt11 maxSat hinvoice hanswered hlost => exact absurd hfits hlost
  | issued bolt11 hinvoice hanswered _ hselftest =>
    obtain rfl := hdrawn bolt11 hinvoice
    -- a real invoice: it is meant to stay
    refine iff_of_false (fun h => h.reservation ?_) ?_
    · rw [rememberInvoice_reserver]
      exact Dict.mem_set.2 (.inl rfl)
    · rintro ⟨-, htrue, -⟩
      cases hselftest.symm.trans htrue
  | selftestRaised bolt11 hinvoice hanswered _ hselftest hraised =>
    obtain rfl := hdrawn bolt11 hinvoice
    -- `tg.spawn` raised before the unwinding
    refine iff_of_false (fun h => h.reservation (Dict.mem_set.2 (.inl rfl))) ?_
    obtain ⟨hup, hrefused⟩ := (sendResponse_eq_raised_iff _ _ _).1 hraised
    rintro ⟨-, -, hdown | hspawn⟩
    · cases hdown.symm.trans hup
    · cases hspawn.symm.trans hrefused
  | selftestUnwound bolt11 hinvoice hanswered _ hselftest hsent =>
    obtain rfl := hdrawn bolt11 hinvoice
    -- receipt and dev fee were never entered; the other two are taken back
    refine iff_of_true ⟨?_, ?_, ?_, ?_⟩ ⟨hanswered, hselftest, ?_⟩
    · rw [unwindSelftest_reserver]
      exact Dict.notMem_erase_self _ _
    · rw [unwindSelftest_wallet]
      exact Dict.notMem_erase_self _ _
    · exact hnew.receipt
    · exact hnew.devfee
    · by_contra hopen
      rw [not_or] at hopen
      exact hsent ((sendResponse_eq_raised_iff _ _ _).2
        ⟨Bool.eq_true_of_not_eq_false hopen.1, Bool.eq_false_of_not_eq_true hopen.2⟩)

/-! ## A dispatch -/

theorem Unknown.gated (h : s.Unknown k) (now : Time) (event : Event) :
    (s.gated now event).Unknown k :=
  h.mono LiquidityReserver.mem_of_mem_sweep id id id

/-- A dispatch adds no hash but the one that is drawn for its invoice. -/
theorem Unknown.dispatch (h : s.Unknown k) (hk : calls.createRequest ≠ some k) :
    (s.dispatch env calls now event).2.Unknown k := by
  have hdispatch := dispatch_outcome env calls now event s
  generalize s.dispatch env calls now event = result at hdispatch ⊢
  cases hdispatch with
  | dropped => exact h.mono id id id id
  | refused => exact (h.gated now event).mono id id id id
  | issuing req offer amountSat description reply s' haccepts hamount hcap hissue =>
    have hissued : (ClinkServer.issueInvoice env calls now event offer amountSat description
        (s.isSelftestPayer now event.pubkey).1 (s.gated now event)).2.Unknown k :=
      (h.gated now event).issueInvoice hk
    rw [hissue] at hissued
    exact hissued

/-- `_dispatch` gets as far as `_issue_invoice`: the event is accepted, an invoice is due, and the
payer is a self-test or below the cap. -/
def Issues (env : Env) (now : Time) (event : Event) (s : ClinkServer) : Prop :=
  ∃ req amountSat, s.Accepts env now event req ∧
    resolveRequest req ((requestOfferId req).bind s.offers.get)
      (s.reserver.availableSat s.capacity now) 1 = .issueInvoice amountSat ∧
    ((s.isSelftestPayer now event.pubkey).1 = true ∨
      s.receipts.pendingCountFor now event.pubkey < maxPendingPerPayer)

/-- An amount within the available liquidity fits. -/
theorem fits_of_le_availableSat (hpos : 0 < amountSat)
    (hle : amountSat ≤ s.reserver.availableSat s.capacity now) : s.Fits now amountSat := by
  refine ⟨hpos, ?_⟩
  have hmax := le_max_iff.1 hle
  omega

/-- A dispatch leaves the hash it draws behind if it gets as far as `_issue_invoice` and is not
unwound there. -/
theorem dispatch_unknown_drawn_iff (hcreated : calls.createRequest = some k)
    (hnew : s.Unknown k) :
    (s.dispatch env calls now event).2.Unknown k ↔
      (Issues env now event s → s.Unwinds calls (s.isSelftestPayer now event.pubkey).1) := by
  by_cases hissues : Issues env now event s
  · obtain ⟨req, amountSat, haccepts, hresolve, hcap⟩ := id hissues
    -- the payer is a self-test or below its cap, so the invoice is issued
    have hunder : ¬ (!(s.isSelftestPayer now event.pubkey).1 &&
        decide ((s.gated now event).receipts.pendingCountFor now event.pubkey ≥
          maxPendingPerPayer)) = true := by
      rcases hcap with hself | hlt
      · simp [hself]
      · simpa using fun _ => hlt
    obtain ⟨-, -, hmin, hmax⟩ := resolveRequest_eq_issueInvoice_iff.1 hresolve
    have hfits : (s.gated now event).Fits now amountSat := by
      -- the reserver was swept on the way in, and a second sweep finds nothing
      have hplain := fits_of_le_availableSat (by omega) hmax
      simpa only [Fits, LiquidityReserver.reservedSat, gated_reserver, gated_capacity,
        LiquidityReserver.sweep_sweep] using hplain
    rw [dispatch_of_accepts haccepts]
    dsimp only
    rw [hresolve, conclude_of_underCap hunder,
      issueInvoice_unknown_drawn_iff hcreated (hnew.gated now event) hfits]
    exact ⟨fun h _ => h, fun h => h hissues⟩
  · -- no invoice is issued, so no hash is drawn and the stores know none that is new
    refine iff_of_true ?_ fun h => absurd h hissues
    by_cases haccepts : ∃ req, s.Accepts env now event req
    · obtain ⟨req, haccepts⟩ := haccepts
      rw [dispatch_of_accepts haccepts]
      dsimp only
      rcases hresolve : resolveRequest req ((requestOfferId req).bind s.offers.get)
        (s.reserver.availableSat s.capacity now) 1 with amountSat | payload
      · have hover : (!(s.isSelftestPayer now event.pubkey).1 &&
            decide ((s.gated now event).receipts.pendingCountFor now event.pubkey ≥
              maxPendingPerPayer)) = true := by
          by_contra hunder
          refine hissues ⟨req, amountSat, haccepts, hresolve, ?_⟩
          by_contra hcap
          rw [not_or, not_lt] at hcap
          exact hunder (by simp [hcap.1, hcap.2])
        rw [conclude_of_overCap hover]
        exact (hnew.gated now event).mono id id id id
      · obtain ⟨code, message, range, rfl⟩ := exists_error_of_resolveRequest hresolve
        rw [conclude_sendError]
        exact (hnew.gated now event).mono id id id id
    · obtain ⟨pings, hdropped⟩ := accept_of_not_accepts (not_exists.1 haccepts)
      rw [dispatch, hdropped]
      exact hnew.mono id id id id

/-- A paid request takes its hash out of the stores, and adds none. -/
theorem Unknown.onEventRequestStatus (h : s.Unknown k) (rhash : PaymentHash)
    (status : InvoiceStatus) : (s.onEventRequestStatus now rhash status).2.Unknown k := by
  unfold ClinkServer.onEventRequestStatus
  split
  next => exact h
  next =>
    split
    next => exact h
    next request hrequest =>
      split
      next => exact h
      next =>
        have hreceipt : k ∈ (s.receipts.markDue now rhash).2.pending → k ∈ s.receipts.pending := by
          intro hmem
          have hop : k ∈ (ReceiptRegistry.Op.apply (.markDue rhash) now s.receipts).pending := hmem
          exact (ReceiptRegistry.mem_of_mem_apply hop).resolve_right (by rintro ⟨⟩)
        have htaken : ∀ devfee : DevFeeLedger,
            devfee.pending = (s.devfee.takeIssued rhash).2.pending →
              k ∈ devfee.pending → k ∈ s.devfee.pending := by
          intro devfee hpending hmem
          rw [hpending] at hmem
          exact DevFeeLedger.mem_of_mem_takeIssued hmem
        dsimp only
        split
        next =>
          refine h.mono (fun hmem => (Dict.mem_erase.1 hmem).2) id hreceipt (htaken _ ?_)
          -- accruing changes the balance alone
          obtain ⟨balance, -, hbalance⟩ := DevFeeLedger.accrue_snd (s.devfee.takeIssued rhash).2
            s.devfeeEnabled s.devfeeRatePercent request.amountSat
          have hpending := congrArg DevFeeLedger.pending hbalance
          exact hpending
        next => exact h.mono (fun hmem => (Dict.mem_erase.1 hmem).2) id hreceipt (htaken _ rfl)

/-- A dispatch drops at most the lapsed self-test payers. -/
theorem dispatch_selftestPayers (env : Env) (calls : Calls) (now : Time) (event : Event)
    (s : ClinkServer) :
    (s.dispatch env calls now event).2.selftestPayers = s.selftestPayers ∨
      (s.dispatch env calls now event).2.selftestPayers =
        s.selftestPayers.filter fun _ exp => !decide (exp ≤ now) := by
  have hdispatch := dispatch_outcome env calls now event s
  generalize s.dispatch env calls now event = result at hdispatch ⊢
  cases hdispatch with
  | dropped => exact .inl rfl
  | refused => exact .inr rfl
  | issuing req offer amountSat description reply s' haccepts hamount hcap hissue =>
    have hpayers := (issueInvoice_keeps env calls now event offer amountSat description
      (s.isSelftestPayer now event.pubkey).1 (s.gated now event)).selftestPayers
    rw [hissue] at hpayers
    exact .inr hpayers

end ClinkServer

namespace World

variable {env : Env} {w w' : World} {a : Action} {k : PaymentHash}

/-- A step adds no hash to a store, unless it dispatches a request that draws it. -/
theorem unknown_step (h : w.server.Unknown k)
    (hk : ∀ event calls, a = .dispatch event calls → calls.createRequest ≠ some k)
    (hstep : step env w a = some w') : w'.server.Unknown k := by
  obtain ⟨-, rfl⟩ := step_eq_some_iff.1 hstep
  have hset : ∀ rhash status,
      k ∈ (w.server.wallet.setStatus rhash status).requests → k ∈ w.server.wallet.requests := by
    intro rhash status hmem
    obtain ⟨request, hrequest⟩ := Dict.mem_iff_exists_get?.1 hmem
    obtain ⟨old, hold, -⟩ := Wallet.get?_setStatus hrequest
    exact Dict.mem_of_get? hold
  have hreceipt : ∀ op : ReceiptRegistry.Op, op.remembers = none →
      k ∈ (op.apply w.now w.server.receipts).pending → k ∈ w.server.receipts.pending := by
    intro op hop hmem
    refine (ReceiptRegistry.mem_of_mem_apply hmem).resolve_right fun hremembers => ?_
    cases hop.symm.trans hremembers
  cases a with
  | dispatch event calls => exact h.dispatch (hk event calls rfl)
  | settle rhash => exact h.mono id (hset rhash .paid) id id
  | walletStatus rhash status => exact h.mono id (hset rhash status) id id
  | requestPaid rhash =>
    show (World.perform env w (.requestPaid rhash)).server.Unknown k
    unfold perform
    dsimp only
    split
    next => exact h.onEventRequestStatus rhash .paid
    next => exact h
  | redeliver calls =>
    exact h.mono id Wallet.mem_of_mem_deleteStaleRequests (hreceipt .sweep rfl) id
  | recordAttempt rhash => exact h.mono id id (hreceipt (.recordAttempt rhash) rfl) id
  | recordSend rhash => exact h.mono id id (hreceipt (.recordSend rhash) rfl) id
  -- reservations are not persisted, the other stores are
  | start offers => exact ⟨Dict.notMem_empty k, h.request, h.receipt, h.devfee⟩
  | _ => exact h.mono id id id id

end World

end ElectrumClink
