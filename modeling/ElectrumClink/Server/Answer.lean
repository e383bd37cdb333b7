import ElectrumClink.Data.GrowingList
import ElectrumClink.Protocol.Fields
import ElectrumClink.Server.Dispatch
import ElectrumClink.Server.TurnTrace

/-!
# One answer per accepted request

`_dispatch` runs an event past a dozen checks, over JSON that an attacker controls.
`dispatch_answers_once` says what comes out: an event that passes the checks of `Accepts` gets
exactly one response and any other none; the response carries an invoice exactly when the request,
the payer, the liquidity and the wallet meet `Payable`; and when the invoice is sent the reserver
holds the amount of the invoice under its payment hash.
-/

namespace ElectrumClink

/-- The response that a call sends, if any. -/
def ServerCall.payload : ServerCall → Option Payload
  | .sendResponse payload => some payload
  | .tryReserve .. | .markIssued _ | .accrue .. => none

namespace Turn

/-- A turn that begins with this server. -/
def begin (server : ClinkServer) (clock : ℕ → Time) (receivable : ℕ → ℤ) : Turn :=
  ⟨server, clock, 0, receivable, 0, []⟩

/-- The responses that were sent, or handed to a taskgroup that refused them. -/
def sends (t : Turn) : List Payload := t.trace.filterMap ServerCall.payload

/-- The checks an event passes on its way to being answered as `req`. -/
structure Accepts (env : Env) (event : Event) (req : Request) (t : Turn) : Prop where
  notPing : event.id ∉ t.server.pendingPings
  kind : event.kind = clinkEventKind
  notOwn : event.pubkey ≠ env.pubkeyHex
  unexpired : env.isExpired event (t.clock t.ticks) = some false
  inWindow : InWindow (t.clock (t.ticks + 1)) event.createdAt
  request : ClinkServer.decryptRequest env event = some req
  unseen : event.id ∉ t.server.seenEvents.items

/-- Whether the payer is a self-test, by the reading of the clock that asks. -/
def selftest (t : Turn) (event : Event) : Bool :=
  (t.server.isSelftestPayer (t.clock (t.ticks + 2)) event.pubkey).1

/-- The liquidity the request is resolved against. -/
def gateSat (t : Turn) : ℤ :=
  t.server.reserver.availableSat (t.capacityAt t.asks) (t.clock (t.ticks + 3))

/-- The reading of the clock from which the reservation lasts for the expiry of the invoice. -/
def expiryTick (t : Turn) (event : Event) : ℕ := t.ticks + 4 + capTicks (t.selftest event) + 1

/-- The reading of the clock at which `try_reserve` begins. -/
def lockTick (t : Turn) (event : Event) : ℕ := t.ticks + 4 + capTicks (t.selftest event) + 2

/-- The liquidity `try_reserve` finds. -/
def lockSat (t : Turn) (event : Event) : ℤ :=
  ((t.server.reserver.sweep (t.clock (t.ticks + 3))).sweep
    (t.clock (t.lockTick event))).availableSat (t.capacityAt (t.asks + 1))
      (t.clock (t.lockTick event + 1))

/-- What an accepted request has to meet to be answered with an invoice. -/
structure Payable (calls : Calls) (event : Event) (req : Request) (t : Turn) (amountSat : ℤ) :
    Prop where
  offer : ∃ id offer, req.get? "offer" = some (.str id) ∧ 1 ≤ id.length ∧
    id.length ≤ maxOfferIdLen ∧ t.server.offers.get id = some offer ∧ offer.active = true ∧
      offer.priceType = .spontaneous
  amount : NamesAmount req amountSat
  available : amountSat ≤ t.gateSat
  payer : t.selftest event = true ∨
    t.server.receipts.pendingCountFor (t.clock (t.ticks + 4)) event.pubkey < maxPendingPerPayer
  created : calls.createRequest.isSome = true
  answered : calls.answered t.server.wallet = true
  reserved : amountSat ≤ t.lockSat event

section Dispatch

variable {env : Env} {calls : Calls} {event : Event} {t : Turn}

/-- An event that passes every check is answered, and its id remembered. -/
theorem dispatch_of_accepts {req : Request} (h : t.Accepts env event req) :
    dispatch env calls event t = answer env calls event req (t.after 2 0
      { t.server with seenEvents := t.server.seenEvents.push event.id }) := by
  have hwindow : wholeSeconds (t.clock (t.ticks + 1)) - maxRequestAgeSec ≤ event.createdAt ∧
      event.createdAt ≤ wholeSeconds (t.clock (t.ticks + 1)) + maxClockSkewSec := h.inWindow
  have hclock : (t.after 1 0 t.server).clock (t.after 1 0 t.server).ticks =
      t.clock (t.ticks + 1) := rfl
  have hserver : ((t.after 1 0 t.server).after 1 0 (t.after 1 0 t.server).server).server =
      t.server := rfl
  have hseen : t.server.alreadySeen event.id =
      (false, { t.server with seenEvents := t.server.seenEvents.push event.id }) :=
    if_neg h.unseen
  unfold dispatch
  rw [Act.bind_of_returned (self_apply t), if_neg h.notPing, if_neg (not_not.2 h.kind),
    if_neg h.notOwn, Act.bind_of_returned (time_apply t), h.unexpired, if_neg (not_not.2 rfl),
    Act.bind_of_returned (time_apply _), hclock, if_neg (not_not.2 hwindow), h.request]
  simp only
  rw [Act.bind_of_returned (self_apply _), hserver, hseen]
  rfl

/-- An event that fails a check leaves nothing behind, except that a self-ping is consumed. -/
theorem dispatch_of_not_accepts (calls : Calls) (h : ∀ req, ¬ t.Accepts env event req) :
    ∃ ticks, (dispatch env calls event t).2 = t.after ticks 0
      { t.server with pendingPings := t.server.pendingPings.erase event.id } := by
  unfold dispatch
  rw [Act.bind_of_returned (self_apply t)]
  by_cases hping : event.id ∈ t.server.pendingPings
  · rw [if_pos hping]
    exact ⟨0, rfl⟩
  rw [if_neg hping, List.erase_of_not_mem hping]
  by_cases hkind : event.kind = clinkEventKind
  swap
  · rw [if_pos hkind]
    exact ⟨0, rfl⟩
  rw [if_neg (not_not.2 hkind)]
  by_cases hown : event.pubkey = env.pubkeyHex
  · rw [if_pos hown]
    exact ⟨0, rfl⟩
  rw [if_neg hown, Act.bind_of_returned (time_apply t)]
  by_cases hexpired : env.isExpired event (t.clock t.ticks) = some false
  swap
  · rw [if_pos hexpired]
    exact ⟨1, rfl⟩
  have hclock : (t.after 1 0 t.server).clock (t.after 1 0 t.server).ticks =
      t.clock (t.ticks + 1) := rfl
  rw [if_neg (not_not.2 hexpired), Act.bind_of_returned (time_apply _), hclock]
  by_cases hwindow : wholeSeconds (t.clock (t.ticks + 1)) - maxRequestAgeSec ≤ event.createdAt ∧
      event.createdAt ≤ wholeSeconds (t.clock (t.ticks + 1)) + maxClockSkewSec
  swap
  · rw [if_pos hwindow]
    exact ⟨2, rfl⟩
  rw [if_neg (not_not.2 hwindow)]
  rcases hreq : ClinkServer.decryptRequest env event with _ | req
  · exact ⟨2, rfl⟩
  -- every check but the replay guard was passed
  have hmem : event.id ∈ t.server.seenEvents.items := by
    by_contra hunseen
    exact h req ⟨hping, hkind, hown, hexpired, hwindow, hreq, hunseen⟩
  have hserver : ((t.after 1 0 t.server).after 1 0 (t.after 1 0 t.server).server).server =
      t.server := rfl
  have hseen : t.server.alreadySeen event.id = (true, t.server) := if_pos hmem
  simp only
  rw [Act.bind_of_returned (self_apply _), hserver, hseen]
  exact ⟨2, rfl⟩

/-! ## An accepted request -/

/-- The turn once the liquidity is known: lapsed self-test payers and reservations are gone. -/
def gate (t : Turn) (event : Event) : Turn :=
  t.after 2 1 (t.swept (t.ticks + 1)
    (t.server.isSelftestPayer (t.clock t.ticks) event.pubkey).2)

/-- What the request is resolved to. -/
def resolution (t : Turn) (req : Request) : Resolution :=
  resolveRequest req ((requestOfferId req).bind t.server.offers.get)
    (t.server.reserver.availableSat (t.capacityAt t.asks) (t.clock (t.ticks + 1))) 1

theorem answer_apply (req : Request) : answer env calls event req t =
    conclude env calls event req (t.server.isSelftestPayer (t.clock t.ticks) event.pubkey).1
      ((requestOfferId req).bind t.server.offers.get) (t.resolution req) (t.gate event) := rfl

section Conclude

variable (t) {req : Request} {selftest : Bool} {offer : Option Offer}

/-- A request that cannot be resolved is answered with its error. -/
theorem conclude_sendError (payload : Payload) : t.Leads [.sendResponse payload]
    (conclude env calls event req selftest offer (.sendError payload) t).2 := by
  unfold conclude
  simp only
  obtain ⟨_, t', hrecord, hleads⟩ := (quiet_record _ _ _).bind _ t
  rw [hrecord, sendResponse_apply]
  exact hleads.trans (leads_noting t' _)

/-- A payer at the ceiling is answered with an error. -/
theorem conclude_of_overCap {amountSat : ℤ} (h : t.overCap t.ticks selftest event.pubkey = true) :
    t.Leads [.sendResponse (errorPayload errTemporaryFailure "Temporary Failure")]
      (conclude env calls event req selftest offer (.issueInvoice amountSat) t).2 := by
  unfold conclude
  simp only
  rw [Act.bind_of_returned (overPayerCap_apply t _ _), h, if_pos rfl]
  obtain ⟨_, t', hrecord, hleads⟩ := (quiet_record _ _ _).bind _
    (t.after (capTicks selftest) 0 t.server)
  rw [hrecord, sendResponse_apply]
  exact (leads_after t _ 0 _ rfl).trans (hleads.trans (leads_noting t' _))

/-- Everybody else is issued an invoice. -/
theorem conclude_of_underCap {amountSat : ℤ}
    (h : t.overCap t.ticks selftest event.pubkey = false) :
    conclude env calls event req selftest offer (.issueInvoice amountSat) t =
      issueInvoice env calls event offer amountSat (effectiveDescription env.tables offer req)
        selftest (t.after (capTicks selftest) 0 t.server) := by
  unfold conclude
  simp only
  rw [Act.bind_of_returned (overPayerCap_apply t _ _), h]
  rfl

end Conclude

/-! ## The answer to an accepted request -/

/-- The calls that answer a request, with the invoice if there is one. -/
inductive Answers : List ServerCall → Option Bolt11 → Prop
  | refused (payload : Payload) (herror : ∀ bolt11, payload ≠ successPayload bolt11) :
      Answers [.sendResponse payload] none
  | lostRace (rhash : PaymentHash) (amountSat maxSat : ℤ) :
      Answers [.tryReserve rhash amountSat false,
        .sendResponse (invalidAmountPayload 1 maxSat)] none
  | issued (bolt11 : Bolt11) :
      Answers [.tryReserve bolt11.paymentHash bolt11.amountSat true,
        .markIssued bolt11.paymentHash, .sendResponse (successPayload bolt11)] (some bolt11)
  | selftest (bolt11 : Bolt11) :
      Answers [.tryReserve bolt11.paymentHash bolt11.amountSat true,
        .sendResponse (successPayload bolt11)] (some bolt11)

/-- One response is sent. -/
theorem Answers.length_sends {trace : List ServerCall} {invoice : Option Bolt11}
    (h : Answers trace invoice) : (trace.filterMap ServerCall.payload).length = 1 := by
  cases h <;> rfl

/-- The response carries the invoice. -/
theorem Answers.success_iff {trace : List ServerCall} {invoice : Option Bolt11}
    (h : Answers trace invoice) :
    (∃ bolt11, successPayload bolt11 ∈ trace.filterMap ServerCall.payload) ↔
      invoice.isSome = true := by
  cases h with
  | refused payload herror =>
    refine iff_of_false ?_ (by simp)
    rintro ⟨bolt11, hmem⟩
    have heq : successPayload bolt11 = payload := by simpa [ServerCall.payload] using hmem
    exact herror bolt11 heq.symm
  | lostRace rhash amountSat maxSat =>
    simp [ServerCall.payload, successPayload, invalidAmountPayload]
  | issued bolt11 | selftest bolt11 =>
    exact iff_of_true ⟨bolt11, by simp [ServerCall.payload]⟩ rfl

/-- Where the one invoice that is sent stands in the log of a turn. -/
theorem SendsReserved.of_log {t t' : Turn} {calls : List ServerCall} {bolt11 bolt11' : Bolt11}
    {expiresAt : Time} {earlier later : List (ServerCall × ClinkServer)} {s : ClinkServer}
    (h : t.SendsReserved calls bolt11 expiresAt t') (hfresh : t.log = [])
    (hcalls : ∀ call ∈ calls, call.payload = none)
    (hlog : t'.log = earlier ++ (.sendResponse (successPayload bolt11'), s) :: later) :
    bolt11' = bolt11 ∧ earlier.map Prod.fst = calls ∧
      s.reserver.reservations.get? bolt11.paymentHash =
        some ⟨bolt11.paymentHash, bolt11.amountSat, expiresAt⟩ := by
  obtain ⟨entries, server, hentries, rfl, hreserved⟩ := h
  rw [hfresh, List.nil_append, hlog] at hentries
  rcases GrowingList.eq_append_cons_cases_singleton hentries.symm with
    ⟨rest, rfl, -⟩ | ⟨rfl, hlast, -⟩
  · -- no call before the last is a response
    have hnone : (ServerCall.sendResponse (successPayload bolt11')).payload = none :=
      hcalls _ (List.mem_map.2 ⟨_, List.mem_append_right _ List.mem_cons_self, rfl⟩)
    cases hnone
  · obtain ⟨hcall, rfl⟩ := Prod.mk.inj hlast
    refine ⟨?_, rfl, hreserved⟩
    simpa [successPayload] using hcall

/-- The turn in which an accepted event is answered. -/
def accepted (t : Turn) (event : Event) : Turn :=
  t.after 2 0 { t.server with seenEvents := t.server.seenEvents.push event.id }

/-- A request is resolved to an invoice exactly when its offer, its amount and the liquidity allow
one. -/
theorem resolution_eq_issueInvoice_iff (event : Event) {req : Request} {amountSat : ℤ} :
    (t.accepted event).resolution req = .issueInvoice amountSat ↔
      (∃ id offer, req.get? "offer" = some (.str id) ∧ 1 ≤ id.length ∧
        id.length ≤ maxOfferIdLen ∧ t.server.offers.get id = some offer ∧ offer.active = true ∧
          offer.priceType = .spontaneous) ∧
        NamesAmount req amountSat ∧ amountSat ≤ t.gateSat := by
  have hresolution : (t.accepted event).resolution req = resolveRequest req
      ((requestOfferId req).bind t.server.offers.get) t.gateSat 1 := rfl
  rw [hresolution, resolveRequest_eq_issueInvoice_iff, requestAmountSat_eq_some_iff]
  constructor
  · rintro ⟨⟨offer, hoffer, hactive, htype⟩, hamount, -, havailable⟩
    obtain ⟨id, hid, hget⟩ := Option.bind_eq_some_iff.1 hoffer
    obtain ⟨hfield, hpos, hlen⟩ := requestOfferId_eq_some_iff.1 hid
    exact ⟨⟨id, offer, hfield, hpos, hlen, hget, hactive, htype⟩, hamount, havailable⟩
  · rintro ⟨⟨id, offer, hfield, hpos, hlen, hget, hactive, htype⟩, hamount, havailable⟩
    refine ⟨⟨offer, ?_, hactive, htype⟩, hamount, hamount.2.1, havailable⟩
    exact Option.bind_eq_some_iff.2 ⟨id, requestOfferId_eq_some_iff.2 ⟨hfield, hpos, hlen⟩, hget⟩

/-- The payer's side of `Payable`: a self-test, or below the ceiling. -/
theorem overCap_eq_false_iff (n : ℕ) (selftest : Bool) (pubkey : Pubkey) :
    t.overCap n selftest pubkey = false ↔ selftest = true ∨
      t.server.receipts.pendingCountFor (t.clock n) pubkey < maxPendingPerPayer := by
  cases selftest <;> simp [overCap]

/-- What answers a request, in the turn that ends in `t'`: these calls, with this invoice. -/
structure Answered (t : Turn) (calls : Calls) (event : Event) (req : Request)
    (made : List ServerCall) (invoice : Option Bolt11) (t' : Turn) : Prop where
  trace : t'.trace = t.trace ++ made
  answers : Answers made invoice
  payable : invoice.isSome = true ↔ ∃ amountSat, t.Payable calls event req amountSat
  /-- An invoice that is sent is reserved, for an amount the request could be paid with. -/
  reserved : ∀ bolt11, invoice = some bolt11 → t.Payable calls event req bolt11.amountSat ∧
    ∃ earlier, .tryReserve bolt11.paymentHash bolt11.amountSat true ∈ earlier ∧
      (∀ call ∈ earlier, call.payload = none) ∧
      t.SendsReserved earlier bolt11
        (t.clock (t.expiryTick event) + t.server.invoiceExpirySec) t'

/-- An accepted event is answered once, with an invoice exactly when it meets `Payable`. -/
theorem dispatch_answer (calls : Calls) {req : Request} (h : t.Accepts env event req) :
    ∃ made invoice,
      t.Answered calls event req made invoice (dispatch env calls event t).2 := by
  set gated := (t.accepted event).gate event with hgated
  have hrun : dispatch env calls event t = conclude env calls event req (t.selftest event)
      ((requestOfferId req).bind t.server.offers.get) ((t.accepted event).resolution req) gated :=
    (dispatch_of_accepts h).trans (answer_apply req)
  have hgate : t.Leads [] gated := (leads_after t 2 0 _ rfl).trans (leads_after _ 2 1 _ rfl)
  -- a refusal leaves no amount for which the event could be payable
  have hrefused : ∀ payload, (∀ bolt11, payload ≠ successPayload bolt11) →
      gated.Leads [.sendResponse payload] (dispatch env calls event t).2 →
      (∀ amountSat, ¬ t.Payable calls event req amountSat) →
      ∃ made invoice,
        t.Answered calls event req made invoice (dispatch env calls event t).2 := by
    intro payload herror hleads hnone
    refine ⟨_, none, (hgate.trans hleads).trace, .refused payload herror, ?_, nofun⟩
    simp [hnone]
  rcases hresolve : (t.accepted event).resolution req with amountSat | payload
  · obtain ⟨hoffer, hamount, havailable⟩ := (resolution_eq_issueInvoice_iff event).1 hresolve
    -- the amount is the only one that could be payable
    have honly : ∀ amountSat', t.Payable calls event req amountSat' → amountSat' = amountSat := by
      intro amountSat' hpay
      have hamount' := requestAmountSat_eq_some_iff.2 hpay.amount
      rw [requestAmountSat_eq_some_iff.2 hamount] at hamount'
      exact (Option.some.inj hamount').symm
    rw [hresolve] at hrun
    by_cases hcap : gated.overCap gated.ticks (t.selftest event) event.pubkey = true
    · refine hrefused (errorPayload errTemporaryFailure "Temporary Failure")
        (by simp [errorPayload, successPayload]) ?_ ?_
      · rw [hrun]
        exact conclude_of_overCap gated hcap
      · intro amountSat' hpay
        have hunder := (overCap_eq_false_iff (t := gated) gated.ticks (t.selftest event)
          event.pubkey).2 hpay.payer
        rw [hcap] at hunder
        cases hunder
    · rw [Bool.not_eq_true] at hcap
      have hpayer := (overCap_eq_false_iff (t := gated) gated.ticks (t.selftest event)
        event.pubkey).1 hcap
      rw [conclude_of_underCap gated hcap] at hrun
      set ready := gated.after (capTicks (t.selftest event)) 0 gated.server with hready
      have hleads : t.Leads [] ready := hgate.trans (leads_after gated _ 0 _ rfl)
      have hwallet : ready.server.wallet = t.server.wallet := rfl
      have hlocks : ready.LocksAt (ready.ticks + 2) amountSat ↔
          0 < amountSat ∧ amountSat ≤ t.lockSat event := Iff.rfl
      have hpayable : calls.createRequest.isSome = true → calls.answered t.server.wallet = true →
          ready.LocksAt (ready.ticks + 2) amountSat → t.Payable calls event req amountSat :=
        fun hcreated hanswered hlocked =>
          ⟨hoffer, hamount, havailable, hpayer, hcreated, hanswered, (hlocks.1 hlocked).2⟩
      have hissue := issueInvoice_turn ready env calls event
        ((requestOfferId req).bind t.server.offers.get) amountSat
        (effectiveDescription env.tables ((requestOfferId req).bind t.server.offers.get) req)
        (t.selftest event)
      rw [← hrun] at hissue
      cases hissue with
      | raised hcalls hraised =>
        refine hrefused _ (by simp [errorPayload, successPayload])
          ((leads_after gated _ 0 _ rfl).trans hraised) fun amountSat' hpay => ?_
        rcases hcalls with hcalls | hcalls
        · simpa [hcalls] using hpay.created
        · rw [hwallet, hpay.answered] at hcalls
          cases hcalls
      | lostRace rhash maxSat hcreated hanswered hlost hlostLeads =>
        refine ⟨_, none, (hleads.trans hlostLeads).trace, .lostRace rhash amountSat maxSat, ?_,
          nofun⟩
        simp only [Option.isSome_none, Bool.false_eq_true, false_iff, not_exists]
        intro amountSat' hpay
        obtain rfl := honly amountSat' hpay
        exact hlost (hlocks.2 ⟨hpay.amount.2.1, hpay.reserved⟩)
      | issued bolt11 n hcreated hamountSat hanswered hlocked hselftest hn hclock hsent hdevfee =>
        have hpay := hpayable (by simp [hcreated]) hanswered hlocked
        refine ⟨_, some bolt11, hsent.trace, .issued bolt11, iff_of_true rfl ⟨_, hpay⟩, ?_⟩
        rintro _ ⟨⟩
        refine ⟨hamountSat ▸ hpay, _, List.mem_cons_self, ?_, hsent⟩
        simp [ServerCall.payload]
      | selftest bolt11 hcreated hamountSat hanswered hlocked hselftest hsent hleads =>
        have hpay := hpayable (by simp [hcreated]) hanswered hlocked
        refine ⟨_, some bolt11, hsent.trace, .selftest bolt11, iff_of_true rfl ⟨_, hpay⟩, ?_⟩
        rintro _ ⟨⟩
        refine ⟨hamountSat ▸ hpay, _, List.mem_cons_self, ?_, hsent⟩
        simp [ServerCall.payload]
  · obtain ⟨code, message, range, rfl⟩ := exists_error_of_resolveRequest hresolve
    refine hrefused (.error code message range) (by simp [successPayload]) ?_
      fun amountSat' hpay => ?_
    · rw [hrun, hresolve]
      exact conclude_sendError gated _
    · have hissue := (resolution_eq_issueInvoice_iff event).2
        ⟨hpay.offer, hpay.amount, hpay.available⟩
      rw [hresolve] at hissue
      cases hissue

end Dispatch

/-- The turn that `_dispatch` of an event ends in. -/
def dispatched (env : Env) (calls : Calls) (event : Event) (server : ClinkServer)
    (clock : ℕ → Time) (receivable : ℕ → ℤ) : Turn :=
  (dispatch env calls event (begin server clock receivable)).2

/-- For every server, every event and whatever the clock, the wallet and the taskgroup answer: an
event that passes the checks gets exactly one response, and any other gets none and leaves nothing
behind but a consumed self-ping; the response carries an invoice exactly when the request, the
payer, the liquidity and the wallet allow it; and when the invoice is sent, `try_reserve` has
succeeded for its hash and amount and the reserver holds the two, to the end of its expiry. -/
theorem dispatch_answers_once (env : Env) (calls : Calls) (event : Event) (server : ClinkServer)
    (clock : ℕ → Time) (receivable : ℕ → ℤ) :
    ((∃ req, (begin server clock receivable).Accepts env event req) →
      (dispatched env calls event server clock receivable).sends.length = 1) ∧
    ((¬ ∃ req, (begin server clock receivable).Accepts env event req) →
      (dispatched env calls event server clock receivable).trace = [] ∧
        (dispatched env calls event server clock receivable).server =
          { server with pendingPings := server.pendingPings.erase event.id }) ∧
    ((∃ bolt11, successPayload bolt11 ∈
        (dispatched env calls event server clock receivable).sends) ↔
      ∃ req amountSat, (begin server clock receivable).Accepts env event req ∧
        (begin server clock receivable).Payable calls event req amountSat) ∧
    ∀ earlier bolt11 s later, (dispatched env calls event server clock receivable).log =
        earlier ++ (.sendResponse (successPayload bolt11), s) :: later →
      .tryReserve bolt11.paymentHash bolt11.amountSat true ∈ earlier.map Prod.fst ∧
      s.reserver.reservations.get? bolt11.paymentHash =
        some ⟨bolt11.paymentHash, bolt11.amountSat,
          clock ((begin server clock receivable).expiryTick event) + server.invoiceExpirySec⟩ ∧
      ∃ req, (begin server clock receivable).Accepts env event req ∧
        (begin server clock receivable).Payable calls event req bolt11.amountSat := by
  by_cases haccepts : ∃ req, (begin server clock receivable).Accepts env event req
  · obtain ⟨req, haccepts⟩ := haccepts
    obtain ⟨made, invoice, hanswered⟩ := dispatch_answer calls haccepts
    have htrace : (dispatched env calls event server clock receivable).trace = made :=
      hanswered.trace
    -- the event determines the request
    have hreq : ∀ req', (begin server clock receivable).Accepts env event req' → req' = req := by
      intro req' haccepts'
      exact Option.some.inj (haccepts'.request.symm.trans haccepts.request)
    have hsuccess : (∃ bolt11, successPayload bolt11 ∈
        (dispatched env calls event server clock receivable).sends) ↔ invoice.isSome = true := by
      rw [sends, htrace]
      exact hanswered.answers.success_iff
    refine ⟨fun _ => ?_, fun hnone => absurd ⟨req, haccepts⟩ hnone, ?_, ?_⟩
    · rw [sends, htrace]
      exact hanswered.answers.length_sends
    · rw [hsuccess, hanswered.payable]
      constructor
      · rintro ⟨amountSat, hpay⟩
        exact ⟨req, amountSat, haccepts, hpay⟩
      · rintro ⟨req', amountSat, haccepts', hpay⟩
        exact ⟨amountSat, hreq req' haccepts' ▸ hpay⟩
    · intro earlier bolt11 s later hlog
      -- an entry of the log that sends an invoice makes it the answer
      have hsent : successPayload bolt11 ∈
          (dispatched env calls event server clock receivable).sends := by
        rw [sends, trace, hlog]
        simp [ServerCall.payload]
      obtain ⟨bolt11', hinvoice⟩ := Option.isSome_iff_exists.1 (hsuccess.1 ⟨bolt11, hsent⟩)
      obtain ⟨hpay, calls', hlocked, hnone, hreserved⟩ := hanswered.reserved bolt11' hinvoice
      obtain ⟨rfl, rfl, hheld⟩ := hreserved.of_log rfl hnone hlog
      exact ⟨hlocked, hheld, req, haccepts, hpay⟩
  · obtain ⟨ticks, hturn⟩ := dispatch_of_not_accepts calls (not_exists.1 haccepts)
    have hlog : (dispatched env calls event server clock receivable).log = [] := by
      rw [dispatched, hturn]
      rfl
    have htrace : (dispatched env calls event server clock receivable).trace = [] :=
      congrArg (List.map Prod.fst) hlog
    refine ⟨fun hsome => absurd hsome haccepts, fun _ => ⟨htrace, ?_⟩, ?_, ?_⟩
    · rw [dispatched, hturn]
      rfl
    · rw [sends, htrace]
      simp only [List.filterMap_nil, List.not_mem_nil, exists_false, false_iff]
      rintro ⟨req, amountSat, haccepts', -⟩
      exact haccepts ⟨req, haccepts'⟩
    · intro earlier bolt11 s later heq
      rw [hlog] at heq
      simp at heq

end Turn

end ElectrumClink
