import ElectrumClink.Receipts.Lifecycle
import ElectrumClink.Server.World

/-!
# What one action does to each store

Inversion lemmas for `World.step`, one for each store that the statements about runs follow. The
receipt registry only ever changes by its own operations (`receipts_step`), so what holds along
every sequence of those holds along every run of the world.
-/

namespace ElectrumClink

theorem Wallet.deleteStaleRequests_lnworker (w : Wallet) (calls : Calls)
    (rhashes : List PaymentHash) :
    (w.deleteStaleRequests calls rhashes).lnworker = w.lnworker := by
  induction rhashes generalizing w with
  | nil => rfl
  | cons rhash rhashes ih =>
    show ((w.deleteStaleRequest calls rhash).deleteStaleRequests calls rhashes).lnworker = _
    rw [ih, deleteStaleRequest]
    split
    · rfl
    · split
      · rfl
      · split <;> rfl

namespace ClinkServer

variable {env : Env} {calls : Calls} {now : Time} {event : Event} {s : ClinkServer}

/-- A dispatch leaves the registry alone or remembers one invoice, of a payer below the cap. -/
theorem dispatch_receipts (env : Env) (calls : Calls) (now : Time) (event : Event)
    (s : ClinkServer) :
    (s.dispatch env calls now event).2.receipts = s.receipts ∨
      ∃ rhash, calls.createRequest = some rhash ∧
        (s.isSelftestPayer now event.pubkey).1 = false ∧
        s.receipts.pendingCountFor now event.pubkey < maxPendingPerPayer ∧
        (s.dispatch env calls now event).2.receipts =
          (s.receipts.remember rhash event.pubkey event.id (now + s.invoiceExpirySec)).2 := by
  have hdispatch := dispatch_outcome env calls now event s
  generalize s.dispatch env calls now event = result at hdispatch ⊢
  cases hdispatch with
  | dropped => exact .inl rfl
  | refused => exact .inl (by simp)
  | issuing req offer amountSat description reply s' haccepts hamount hcap hissue =>
    have hout := issueInvoice_outcome env calls now event offer amountSat description
      (s.isSelftestPayer now event.pubkey).1 (s.gated now event)
    rw [hissue] at hout
    cases hout with
    | notCreated => exact .inl (by simp)
    | failed => exact .inl (by simp)
    | lostRace => exact .inl (by simp)
    | issued bolt11 hnew hanswered hfits hselftest =>
      refine .inr ⟨bolt11.paymentHash, hnew.created, hselftest, hcap hselftest, ?_⟩
      simp [withReservation, withRequest, gated]
    | selftestRaised => exact .inl (by simp)
    | selftestUnwound => exact .inl (by simp)

/-- What issuing an invoice leaves alone: the channels, the invoice expiry, the offers, and of the
session the self-pings, the remembered event ids and the self-test payers. -/
structure IssueKeeps (s s' : ClinkServer) : Prop where
  lnworker : s'.wallet.lnworker = s.wallet.lnworker
  invoiceExpirySec : s'.invoiceExpirySec = s.invoiceExpirySec
  offers : s'.offers = s.offers
  pendingPings : s'.pendingPings = s.pendingPings
  seenEvents : s'.seenEvents = s.seenEvents
  selftestPayers : s'.selftestPayers = s.selftestPayers

theorem issueInvoice_keeps (env : Env) (calls : Calls) (now : Time) (event : Event)
    (offer : Option Offer) (amountSat : ℤ) (description : Option String) (selftest : Bool)
    (s : ClinkServer) :
    s.IssueKeeps (issueInvoice env calls now event offer amountSat description selftest s).2 := by
  have hout := issueInvoice_outcome env calls now event offer amountSat description selftest s
  generalize issueInvoice env calls now event offer amountSat description selftest s = result
    at hout ⊢
  -- the wallet is rewritten but for its channels, and no other field is written at all
  cases hout with
  | notCreated => exact ⟨rfl, rfl, rfl, rfl, rfl, rfl⟩
  | failed => exact ⟨rfl, rfl, rfl, rfl, rfl, rfl⟩
  | lostRace =>
    refine ⟨?_, ?_, ?_, ?_, ?_, ?_⟩
    · simp only [cancelled_wallet, Wallet.deleteRequest, withRequest]
    all_goals simp only [cancelled, record, withRequest]
  | issued =>
    refine ⟨?_, ?_, ?_, ?_, ?_, ?_⟩
    · simp only [rememberInvoice_wallet, Wallet.deleteStaleRequests_lnworker,
        withReservation_wallet, withRequest]
    all_goals simp only [rememberInvoice, record, withReservation, withRequest]
  | selftestRaised =>
    refine ⟨?_, ?_, ?_, ?_, ?_, ?_⟩
    · simp only [withReservation_wallet, withRequest]
    all_goals simp only [withReservation, withRequest]
  | selftestUnwound =>
    refine ⟨?_, ?_, ?_, ?_, ?_, ?_⟩
    · simp only [unwindSelftest_wallet, Wallet.deleteRequest, withReservation_wallet, withRequest]
    all_goals simp only [unwindSelftest, record, withReservation, withRequest]

/-- A dispatched event is accepted, answered and its id remembered, or none of these. -/
theorem dispatch_seenEvents (env : Env) (calls : Calls) (now : Time) (event : Event)
    (s : ClinkServer) :
    ((∃ req, s.Accepts env now event req) ∧ (s.dispatch env calls now event).1.isSome = true ∧
      (s.dispatch env calls now event).2.seenEvents = s.seenEvents.push event.id) ∨
    ((∀ req, ¬ s.Accepts env now event req) ∧ (s.dispatch env calls now event).1.isSome = false ∧
      (s.dispatch env calls now event).2.seenEvents = s.seenEvents) := by
  have hdispatch := dispatch_outcome env calls now event s
  generalize s.dispatch env calls now event = result at hdispatch ⊢
  cases hdispatch with
  | dropped pings hdropped => exact .inr ⟨hdropped, rfl, rfl⟩
  | refused req payload offerId amount result haccepts =>
    exact .inl ⟨⟨req, haccepts⟩, rfl, by simp only [record, gated]⟩
  | issuing req offer amountSat description reply s' haccepts hamount hcap hissue =>
    have hseen := (issueInvoice_keeps env calls now event offer amountSat description
      (s.isSelftestPayer now event.pubkey).1 (s.gated now event)).seenEvents
    rw [hissue, gated_seenEvents] at hseen
    exact .inl ⟨⟨req, haccepts⟩, rfl, hseen⟩

/-- Issuing an invoice adds at most the new, unpaid lightning request to the wallet. -/
theorem issueInvoice_request {env : Env} {calls : Calls} {now : Time} {event : Event}
    {offer : Option Offer} {amountSat : ℤ} {description : Option String} {selftest : Bool}
    {s : ClinkServer} {k : PaymentHash} {request : WalletRequest}
    (h : (issueInvoice env calls now event offer amountSat description
      selftest s).2.wallet.requests.get? k = some request) :
    s.wallet.requests.get? k = some request ∨
      (calls.createRequest = some k ∧ request.isLightning = true ∧ request.status = .unpaid) := by
  have hout := issueInvoice_outcome env calls now event offer amountSat description selftest s
  generalize issueInvoice env calls now event offer amountSat description selftest s = result
    at h hout
  have hcreated : ∀ bolt11, calls.createRequest = some bolt11.paymentHash →
      (s.withRequest bolt11).wallet.requests.get? k = some request →
      s.wallet.requests.get? k = some request ∨
        (calls.createRequest = some k ∧ request.isLightning = true ∧
          request.status = .unpaid) := by
    intro bolt11 hnew hrequest
    rw [withRequest, Dict.get?_set] at hrequest
    split at hrequest
    next hk =>
      obtain rfl := Option.some.inj hrequest
      exact .inr ⟨hk ▸ hnew, rfl, rfl⟩
    next => exact .inl hrequest
  cases hout with
  | notCreated => exact .inl h
  | failed bolt11 hnew => exact hcreated bolt11 hnew.created h
  -- `try_reserve` failed: the request is deleted again
  | lostRace bolt11 maxSat hnew =>
    rw [cancelled_wallet] at h
    exact hcreated bolt11 hnew.created (Dict.get?_of_get?_erase h)
  | issued bolt11 hnew =>
    rw [rememberInvoice_wallet, withReservation_wallet, Wallet.get?_deleteStaleRequests,
      Option.filter_eq_some_iff] at h
    exact hcreated bolt11 hnew.created h.1
  | selftestRaised bolt11 hnew =>
    rw [withReservation_wallet] at h
    exact hcreated bolt11 hnew.created h
  | selftestUnwound bolt11 hnew =>
    rw [unwindSelftest_wallet, withReservation_wallet] at h
    exact hcreated bolt11 hnew.created (Dict.get?_of_get?_erase h)

/-- A dispatch adds at most the new, unpaid lightning request to the wallet. -/
theorem dispatch_request {env : Env} {calls : Calls} {now : Time} {event : Event}
    {s : ClinkServer} {k : PaymentHash} {request : WalletRequest}
    (h : (s.dispatch env calls now event).2.wallet.requests.get? k = some request) :
    s.wallet.requests.get? k = some request ∨
      (calls.createRequest = some k ∧ request.isLightning = true ∧ request.status = .unpaid) := by
  have hdispatch := dispatch_outcome env calls now event s
  generalize s.dispatch env calls now event = result at h hdispatch
  cases hdispatch with
  | dropped => exact .inl h
  | refused =>
    rw [record_wallet, gated_wallet] at h
    exact .inl h
  | issuing req offer amountSat description reply s' haccepts hamount hcap hissue =>
    have hrequest : (issueInvoice env calls now event offer amountSat description
        (s.isSelftestPayer now event.pubkey).1
        (s.gated now event)).2.wallet.requests.get? k = some request := by
      rw [hissue]
      exact h
    have hnew := issueInvoice_request hrequest
    rwa [gated_wallet] at hnew

/-- A paid lightning request of the wallet releases its reservation and marks its entry due; the
announcement of any other is ignored. -/
theorem onEventRequestStatus_paid (now : Time) (key : PaymentHash) (s : ClinkServer) :
    ((s.wallet.requests.get? key).any WalletRequest.isLightning = false ∧
      (s.onEventRequestStatus now key .paid).2 = s) ∨
    ((s.wallet.requests.get? key).any WalletRequest.isLightning = true ∧
      ∃ devfee, (s.onEventRequestStatus now key .paid).2 = { s with
        reserver := s.reserver.release key
        receipts := (s.receipts.markDue now key).2
        devfee := devfee }) := by
  rcases hrequest : s.wallet.requests.get? key with _ | request
  · exact .inl ⟨rfl, by simp [onEventRequestStatus, hrequest]⟩
  · by_cases hlightning : request.isLightning = true
    · refine .inr ⟨hlightning, ?_⟩
      simp only [onEventRequestStatus, hrequest, hlightning, ne_eq, not_true_eq_false, if_false,
        Bool.not_true, Bool.false_eq_true]
      split
      · exact ⟨_, rfl⟩
      · exact ⟨_, rfl⟩
    · refine .inl ⟨by simpa using hlightning, ?_⟩
      simp [onEventRequestStatus, hrequest, hlightning]

end ClinkServer

namespace World

variable {env : Env} {w w' : World} {a : Action}

/-- A running server was told that a request is paid. -/
def notified (w : World) (rhash : PaymentHash) (server : ClinkServer) : World :=
  { w.withServer server with
    history := { w.history with notified := w.history.notified ++ [rhash] } }

/-- The announcement of a payment: a stopped server misses it, and a running one ignores it unless
it is about a lightning request of the wallet. -/
theorem perform_requestPaid (env : Env) (w : World) (rhash : PaymentHash) :
    (w.running = false ∧ w.perform env (.requestPaid rhash) = w) ∨
    (w.running = true ∧
      (w.server.wallet.requests.get? rhash).any WalletRequest.isLightning = false ∧
      w.perform env (.requestPaid rhash) = w.notified rhash w.server) ∨
    (w.running = true ∧
      (w.server.wallet.requests.get? rhash).any WalletRequest.isLightning = true ∧
      ∃ devfee, w.perform env (.requestPaid rhash) = w.notified rhash { w.server with
        reserver := w.server.reserver.release rhash
        receipts := (w.server.receipts.markDue w.now rhash).2
        devfee := devfee }) := by
  by_cases hrunning : w.running = true
  · have heq : w.perform env (.requestPaid rhash) =
        w.notified rhash (w.server.onEventRequestStatus w.now rhash .paid).2 := if_pos hrunning
    rw [heq]
    rcases ClinkServer.onEventRequestStatus_paid w.now rhash w.server with ⟨hnot, hserver⟩ |
      ⟨hlightning, devfee, hserver⟩
    · exact .inr (.inl ⟨hrunning, hnot, by rw [hserver]⟩)
    · exact .inr (.inr ⟨hrunning, hlightning, devfee, by rw [hserver]⟩)
  · exact .inl ⟨by simpa using hrunning, if_neg hrunning⟩

/-- No step turns the clock back. -/
theorem now_le_of_step (h : step env w a = some w') : w.now ≤ w'.now := by
  obtain ⟨henabled, rfl⟩ := step_eq_some_iff.1 h
  cases a with
  | advance t => exact henabled
  | requestPaid rhash =>
    have hnow : (w.perform env (.requestPaid rhash)).now = w.now := by
      rcases perform_requestPaid env w rhash with ⟨-, heq⟩ | ⟨-, -, heq⟩ | ⟨-, -, devfee, heq⟩
      all_goals simp only [heq, notified, withServer]
    exact hnow.ge
  | _ => exact le_rfl

/-- Every step changes the registry by one of its own operations. It marks an entry due only when
the wallet announces its payment, and remembers a hash only when it dispatches a request that drew
this fresh hash, for a payer below the cap. -/
theorem receipts_step (h : step env w a = some w') :
    (∃ op : ReceiptRegistry.Op, op.remembers = none ∧
      (∀ rhash, op = .markDue rhash → a = .requestPaid rhash ∧ w.running = true) ∧
      w'.server.receipts = op.apply w.now w.server.receipts) ∨
    ∃ event calls rhash, a = .dispatch event calls ∧ calls.createRequest = some rhash ∧
      w.FreshHash rhash ∧
      w.server.receipts.pendingCountFor w.now event.pubkey < maxPendingPerPayer ∧
      w'.now = w.now ∧
      w'.server.receipts = (w.server.receipts.remember rhash event.pubkey event.id
        (w.now + w.server.invoiceExpirySec)).2 := by
  obtain ⟨henabled, rfl⟩ := step_eq_some_iff.1 h
  have hsame : (w.perform env a).server.receipts = w.server.receipts →
      ∃ op : ReceiptRegistry.Op, op.remembers = none ∧
        (∀ rhash, op = .markDue rhash → a = .requestPaid rhash ∧ w.running = true) ∧
        (w.perform env a).server.receipts = op.apply w.now w.server.receipts :=
    fun h => ⟨.rebuild, rfl, by simp, h⟩
  cases a with
  | dispatch event calls =>
    rcases ClinkServer.dispatch_receipts env calls w.now event w.server with hkept |
      ⟨rhash, hcreated, -, hcount, hremember⟩
    · exact .inl (hsame hkept)
    · exact .inr ⟨event, calls, rhash, rfl, hcreated, henabled.2 rhash hcreated, hcount, rfl,
        hremember⟩
  | requestPaid rhash =>
    rcases perform_requestPaid env w rhash with ⟨-, heq⟩ | ⟨-, -, heq⟩ |
      ⟨hrunning, -, devfee, heq⟩
    · exact .inl (hsame (by rw [heq]))
    · exact .inl (hsame (by rw [heq]; rfl))
    · refine .inl ⟨.markDue rhash, rfl, fun r hr => ?_, by rw [heq]; rfl⟩
      obtain rfl := ReceiptRegistry.Op.markDue.inj hr
      exact ⟨rfl, hrunning⟩
  | redeliver calls => exact .inl ⟨.sweep, rfl, by simp, rfl⟩
  | recordAttempt rhash => exact .inl ⟨.recordAttempt rhash, rfl, by simp, rfl⟩
  | recordSend rhash => exact .inl ⟨.recordSend rhash, rfl, by simp, rfl⟩
  | _ => exact .inl (hsame rfl)

/-- The payment hashes drawn so far, and the one the step draws. -/
theorem mem_created_step (h : step env w a = some w') {k : PaymentHash} :
    k ∈ w'.history.created ↔ k ∈ w.history.created ∨
      ∃ event calls, a = .dispatch event calls ∧ calls.createRequest = some k ∧ w.FreshHash k := by
  obtain ⟨henabled, rfl⟩ := step_eq_some_iff.1 h
  cases a with
  | dispatch event calls =>
    show k ∈ w.history.created ++ calls.createRequest.toList ↔ _
    rw [List.mem_append, Option.mem_toList]
    refine or_congr_right ⟨fun hk => ⟨event, calls, rfl, hk, henabled.2 k hk⟩, ?_⟩
    rintro ⟨event', calls', heq, hk, -⟩
    obtain ⟨rfl, rfl⟩ := Action.dispatch.inj heq
    exact hk
  | requestPaid rhash =>
    rcases perform_requestPaid env w rhash with ⟨-, heq⟩ | ⟨-, -, heq⟩ | ⟨-, -, devfee, heq⟩
    all_goals
      rw [heq]
      simp [notified]
  | _ => simp [perform, withServer, withWallet, withReceipts]

/-- The registry never holds a hash that the wallet has not drawn. -/
theorem drawn_step (hdrawn : ∀ k ∈ w.server.receipts.pending, k ∈ w.history.created)
    (h : step env w a = some w') : ∀ k ∈ w'.server.receipts.pending, k ∈ w'.history.created := by
  intro k hk
  rcases receipts_step h with ⟨op, hop, -, hreceipts⟩ |
    ⟨event, calls, rhash, rfl, hcreated, hfresh, -, -, hreceipts⟩
  · rw [hreceipts] at hk
    rcases ReceiptRegistry.mem_of_mem_apply hk with hmem | hmem
    · exact (mem_created_step h).2 (.inl (hdrawn _ hmem))
    · cases hop.symm.trans hmem
  · rw [hreceipts] at hk
    rcases ReceiptRegistry.mem_of_mem_remember hk with rfl | hmem
    · exact (mem_created_step h).2 (.inr ⟨event, calls, rfl, hcreated, hfresh⟩)
    · exact (mem_created_step h).2 (.inl (hdrawn _ hmem))

/-- The request a wallet has after a step is the one it had, up to its status, or the one a dispatch
drew a fresh hash for. Only a settlement makes a request paid. -/
theorem request_step (h : step env w a = some w') {k : PaymentHash} {request' : WalletRequest}
    (hrequest : w'.server.wallet.requests.get? k = some request') :
    (∃ request, w.server.wallet.requests.get? k = some request ∧
      request'.isLightning = request.isLightning ∧
      (request'.status = .paid → request.status = .paid ∨ a = .settle k)) ∨
    ∃ event calls, a = .dispatch event calls ∧ calls.createRequest = some k ∧ w.FreshHash k ∧
      request'.isLightning = true ∧ request'.status = .unpaid := by
  obtain ⟨henabled, rfl⟩ := step_eq_some_iff.1 h
  have hsame : w.server.wallet.requests.get? k = some request' →
      ∃ request, w.server.wallet.requests.get? k = some request ∧
        request'.isLightning = request.isLightning ∧
        (request'.status = .paid → request.status = .paid ∨ a = .settle k) :=
    fun h => ⟨request', h, rfl, .inl⟩
  cases a with
  | dispatch event calls =>
    rcases ClinkServer.dispatch_request hrequest with hold | ⟨hcreated, hlightning, hunpaid⟩
    · exact .inl (hsame hold)
    · exact .inr ⟨event, calls, rfl, hcreated, henabled.2 k hcreated, hlightning, hunpaid⟩
  | settle rhash =>
    obtain ⟨request, hget, hlightning, hstatus⟩ := Wallet.get?_setStatus hrequest
    refine .inl ⟨request, hget, hlightning, fun hpaid => ?_⟩
    rcases hstatus with hstatus | ⟨hk, -⟩
    · exact .inl (hstatus ▸ hpaid)
    · exact .inr (congrArg Action.settle hk.symm)
  | walletStatus rhash status =>
    obtain ⟨request, hget, hlightning, hstatus⟩ := Wallet.get?_setStatus hrequest
    refine .inl ⟨request, hget, hlightning, fun hpaid => ?_⟩
    rcases hstatus with hstatus | ⟨-, hstatus⟩
    · exact .inl (hstatus ▸ hpaid)
    · exact absurd (hstatus.symm.trans hpaid) henabled.1
  | requestPaid rhash =>
    refine .inl (hsame ?_)
    -- whether or not it reaches a server, the announcement leaves the wallet as it is
    rcases perform_requestPaid env w rhash with ⟨-, heq⟩ | ⟨-, -, heq⟩ | ⟨-, -, devfee, heq⟩
    all_goals
      rw [heq] at hrequest
      exact hrequest
  | redeliver calls =>
    refine .inl (hsame ?_)
    -- the sweep deletes requests and changes none
    simp only [perform, withServer, ClinkServer.sweepReceipts, Wallet.get?_deleteStaleRequests,
      Option.filter_eq_some_iff] at hrequest
    exact hrequest.1
  | _ => exact .inl (hsame hrequest)

/-- Only an announcement of a payment that reaches a running server changes what was notified. -/
theorem notified_step (h : step env w a = some w') :
    w'.history.notified = w.history.notified ∨
      ∃ rhash, a = .requestPaid rhash ∧ w.running = true ∧
        w'.history.notified = w.history.notified ++ [rhash] := by
  obtain ⟨-, rfl⟩ := step_eq_some_iff.1 h
  cases a with
  | requestPaid rhash =>
    rcases perform_requestPaid env w rhash with ⟨-, heq⟩ | ⟨hrunning, -, heq⟩ |
      ⟨hrunning, -, devfee, heq⟩
    · exact .inl (by rw [heq])
    · exact .inr ⟨rhash, rfl, hrunning, by rw [heq]; rfl⟩
    · exact .inr ⟨rhash, rfl, hrunning, by rw [heq]; rfl⟩
  | _ => exact .inl rfl

/-- Within a session an event id is remembered when its event passes the guard, and then only. -/
theorem passed_step (hsession : ∀ offers, a ≠ .start offers) (h : step env w a = some w') :
    (w'.server.seenEvents = w.server.seenEvents ∧ w'.history.passed = w.history.passed) ∨
    ∃ event calls req, a = .dispatch event calls ∧ w.server.Accepts env w.now event req ∧
      w'.now = w.now ∧ w'.server.seenEvents = w.server.seenEvents.push event.id ∧
      w'.history.passed = w.history.passed ++ [⟨w.now, event⟩] := by
  obtain ⟨-, rfl⟩ := step_eq_some_iff.1 h
  cases a with
  | dispatch event calls =>
    have hpassed : (w.perform env (.dispatch event calls)).history.passed =
        if (w.server.dispatch env calls w.now event).1.isSome then
          w.history.passed ++ [⟨w.now, event⟩]
        else w.history.passed := rfl
    rcases ClinkServer.dispatch_seenEvents env calls w.now event w.server with
      ⟨⟨req, haccepts⟩, hreply, hseen⟩ | ⟨-, hreply, hseen⟩
    · rw [hreply, if_pos rfl] at hpassed
      exact .inr ⟨event, calls, req, rfl, haccepts, rfl, hseen, hpassed⟩
    · rw [hreply, if_neg Bool.false_ne_true] at hpassed
      exact .inl ⟨hseen, hpassed⟩
  | start offers => exact absurd rfl (hsession offers)
  | requestPaid rhash =>
    rcases perform_requestPaid env w rhash with ⟨-, heq⟩ | ⟨-, -, heq⟩ | ⟨-, -, devfee, heq⟩
    all_goals
      rw [heq]
      exact .inl ⟨rfl, rfl⟩
  | _ => exact .inl ⟨rfl, rfl⟩

end World

end ElectrumClink
