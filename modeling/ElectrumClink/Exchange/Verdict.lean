import ElectrumClink.Exchange.Network
import ElectrumClink.Protocol.Fields

/-!
# What the verdict of a check tells

Whatever else happens at the server and whatever anybody publishes or delivers, in any order: a
check goes by a payload that the server sent about the request of this very check
(`payload_sincere`), and its verdict tells what the server decided (`payerInv`).
-/

namespace ElectrumClink

/-! ## Invoices of the server -/

namespace ClinkServer

variable {env : Env} {calls : Calls} {now : Time} {event : Event} {s : ClinkServer}

/-- A run that issues an invoice replies with the one that it created, or with an error. -/
theorem IssueOutcome.payload_cases {offer : Option Offer} {amountSat : ℤ} {selftest : Bool}
    {reply : Reply} {s' : ClinkServer}
    (h : IssueOutcome calls now event offer amountSat selftest s (reply, s')) :
    (∃ bolt11, reply.payload = .success bolt11 ∧ s.NewInvoice calls now amountSat bolt11) ∨
      ∃ code message range, reply.payload = .error code message range := by
  generalize hresult : (reply, s') = result at h
  cases h with
  | notCreated | failed | lostRace =>
    obtain ⟨rfl, -⟩ := Prod.ext_iff.1 hresult
    exact .inr ⟨_, _, _, rfl⟩
  | issued bolt11 hnew | selftestRaised bolt11 hnew | selftestUnwound bolt11 hnew =>
    obtain ⟨rfl, -⟩ := Prod.ext_iff.1 hresult
    exact .inl ⟨bolt11, rfl, hnew⟩

/-- The reply to a request is an error, or an invoice for the amount that the request names and for
an offer that is active and spontaneous, within the available liquidity. -/
theorem dispatch_payload {reply : Reply} (h : (s.dispatch env calls now event).1 = some reply) :
    (∃ code message range, reply.payload = .error code message range) ∨
    ∃ bolt11 req offer, reply.payload = .success bolt11 ∧ s.Accepts env now event req ∧
      requestAmountSat req = some bolt11.amountSat ∧
      (requestOfferId req).bind s.offers.get = some offer ∧ offer.active = true ∧
      offer.priceType = .spontaneous ∧
      bolt11.amountSat ≤ s.reserver.availableSat s.capacity now := by
  by_cases haccepts : ∃ req, s.Accepts env now event req
  · obtain ⟨req, haccepts⟩ := haccepts
    rw [dispatch_of_accepts haccepts] at h
    dsimp only at h
    obtain rfl := Option.some.inj h
    rcases hresolve : resolveRequest req ((requestOfferId req).bind s.offers.get)
      (s.reserver.availableSat s.capacity now) 1 with amountSat | payload
    · obtain ⟨⟨offer, hoffer, hactive, htype⟩, hamount, -, hmax⟩ :=
        resolveRequest_eq_issueInvoice_iff.1 hresolve
      by_cases hover : (!(s.isSelftestPayer now event.pubkey).1 &&
          decide ((s.gated now event).receipts.pendingCountFor now event.pubkey ≥
            maxPendingPerPayer)) = true
      -- the payer is at its cap and gets an error, or an invoice is issued
      · rw [conclude_of_overCap hover]
        exact .inl ⟨_, _, _, rfl⟩
      · rw [conclude_of_underCap hover]
        rcases (issueInvoice_outcome env calls now event
            ((requestOfferId req).bind s.offers.get) amountSat
            (effectiveDescription env.tables ((requestOfferId req).bind s.offers.get) req)
            (s.isSelftestPayer now event.pubkey).1 (s.gated now event)).payload_cases with
          ⟨bolt11, hsuccess, hnew⟩ | herror
        · refine .inr ⟨bolt11, req, offer, hsuccess, haccepts, ?_, hoffer, hactive, htype, ?_⟩
          · rw [hnew.amount]
            exact hamount
          · rw [hnew.amount]
            exact hmax
        · exact .inl herror
    · obtain ⟨code, message, range, rfl⟩ := exists_error_of_resolveRequest hresolve
      rw [conclude_sendError]
      exact .inl ⟨code, message, range, rfl⟩
  · obtain ⟨pings, hdropped⟩ := accept_of_not_accepts (not_exists.1 haccepts)
    rw [dispatch, hdropped] at h
    cases h

end ClinkServer

/-! ## JSON that is read back -/

namespace Channel

variable {ch : Channel} {payload : Payload} {req : Request}

/-- Every payload is a JSON object. -/
theorem exists_toRequest? (payload : Payload) (bolt11Text : Bolt11 → String) :
    ∃ req, (payload.toJson bolt11Text).toRequest? = some req := by
  cases payload <;> exact ⟨_, rfl⟩

/-- The request of a check names its offer and one sat. -/
theorem checkRequest_fields {offer : String} (h : (checkRequest offer).toRequest? = some req) :
    req.get? "offer" = some (.str offer) ∧ requestAmountSat req = some selftestAmountSat := by
  obtain rfl := Option.some.inj h
  exact ⟨rfl, rfl⟩

/-- The secret scalars of both parties. -/
theorem exists_scalars (hch : ch.Lawful) : ∃ n m, ch.ecc.secretScalar ch.serverKey = some n ∧
    ch.ecc.secretScalar ch.payerKey = some m := by
  obtain ⟨n, hn⟩ := Option.isSome_iff_exists.1 hch.serverKey
  obtain ⟨m, hm⟩ := Option.isSome_iff_exists.1 hch.payerKey
  exact ⟨n, m, hn, hm⟩

/-- The payer reads what the server encrypted to it about its request. -/
theorem responseTo_of_content (hch : ch.Lawful) {requestId : EventId} {event : Event}
    {nonce : Bytes} (hpubkey : event.pubkey = ch.serverPub) (hnames : requestId ∈ event.etags)
    (hcontent : encryptTo ch.nip44 ch.ecc ch.serverKey ch.payerPub
      (ch.jsonDumps (payload.toJson ch.bolt11Text)) nonce = some event.content)
    (hreq : (payload.toJson ch.bolt11Text).toRequest? = some req) :
    ch.responseTo requestId event = some req := by
  obtain ⟨n, m, hn, hm⟩ := exists_scalars hch
  have hplain : decryptFrom ch.nip44 ch.ecc ch.payerKey ch.noffer.pubkey event.content =
      some (ch.jsonDumps (payload.toJson ch.bolt11Text)) := by
    rw [hch.noffer]
    exact decryptFrom_encryptTo hch.nip44 hch.ecc hn hm hcontent
  unfold responseTo
  rw [if_neg (not_not.2 (hpubkey.trans hch.noffer.symm)), if_neg (not_not.2 hnames), hplain,
    Option.bind_some, hch.jsonLoads_jsonDumps _ (.inl ⟨payload, rfl⟩), Option.bind_some, hreq]

/-- How a payload of the server is classified: an invoice over the sat asked for is fine, an error
is passed on, and a receipt is neither. -/
theorem classify_of_payload (hch : ch.Lawful) (rttMs : ℤ)
    (hreq : (payload.toJson ch.bolt11Text).toRequest? = some req) :
    (∀ bolt11, payload = .success bolt11 → bolt11.amountSat = selftestAmountSat →
      (ch.classify rttMs req).status = .ok) ∧
    (∀ code message range, payload = .error code message range →
      (ch.classify rttMs req).status = .listenerError ∧
        (ch.classify rttMs req).errorCode = some code ∧
        (ch.classify rttMs req).detail = cut 120 message) ∧
    (payload = .receipt → (ch.classify rttMs req).status = .badResponse) := by
  refine ⟨?_, ?_, ?_⟩
  · rintro bolt11 rfl hamount
    obtain rfl := Option.some.inj hreq
    have hget : (Dict.set ∅ "bolt11" (.str (ch.bolt11Text bolt11))).get? "bolt11" =
        some (Json.str (ch.bolt11Text bolt11)) := Dict.get?_set_self _ _ _
    have hvalid : ch.validateSelftestBolt11 (ch.bolt11Text bolt11) selftestAmountSat = none := by
      obtain ⟨invoice, hinvoice, hsame⟩ := hch.invoiceOf_bolt11Text bolt11 (by rw [hamount]; decide)
      simp [validateSelftestBolt11, hinvoice, hsame, hamount]
    simp only [List.foldl_cons, List.foldl_nil, classify, hget, hch.bolt11Text_ne, if_false, hvalid]
    rfl
  · rintro code message range rfl
    have hmessage : cut 120 (ch.errorText (some (.str message))) = cut 120 message := by
      rw [errorText, hch.bool_str, hch.str_str]
      by_cases hempty : message = ""
      · simp [hempty]
      · simp [hempty]
    rcases range with _ | ⟨minSat, maxSat⟩
    all_goals
      obtain rfl := Option.some.inj hreq
      refine ⟨rfl, rfl, ?_⟩
      exact hmessage
  · rintro rfl
    obtain rfl := Option.some.inj hreq
    rfl

end Channel

/-- The action is a step of the check. -/
def ExchangeAction.ByCheck : ExchangeAction → Prop
  | .register _ _ | .connect _ | .publish _ | .published | .publishFailed _ | .hear _ | .examine
  | .conclude _ | .timeout | .raised _ | .unregister => True
  | .world _ | .inject _ | .ping _ _ | .serve _ _ | .respond _ _ _ | .drop _
  | .receipt _ _ _ => False

/-- The result of a check that has one. -/
def PayerStage.result : PayerStage → Option CheckResult
  | .closing result | .ended result => some result
  | _ => none

namespace Exchange

variable {ch : Channel} {s t : Exchange}

/-- The payload was sent by the server about this request: it is the reply to it, or the receipt of
an invoice issued for it. -/
def Answered (s : Exchange) (request : Event) (payload : Payload) : Prop :=
  (∃ x ∈ s.served, x.event = request ∧ x.reply.payload = payload) ∨
    payload = .receipt ∧ s.Invoiced request

/-- The check went by this payload: an event of the server that was published and names the request
carries it, and `_await_response` returned it. -/
def Reads (ch : Channel) (s : Exchange) (request : Event) (payload : Payload) : Prop :=
  ∃ event ∈ s.network, event.pubkey = ch.serverPub ∧ request.id ∈ event.etags ∧
    ∃ req, (payload.toJson ch.bolt11Text).toRequest? = some req ∧
      ch.responseTo request.id event = some req ∧ s.payer.payload = some req

/-- The event carries the request of the check, encrypted to the server. -/
def Carries (ch : Channel) (content : String) : Prop :=
  ∃ nonce, encryptTo ch.nip44 ch.ecc ch.payerKey ch.serverPub
    (ch.jsonDumps (checkRequest ch.noffer.offer)) nonce = some content

/-- A published event of the server that names the request of the check is a response to it: the
server sent its payload about this very request, and to this payer, who reads what was sent. -/
theorem exists_answer (hch : ch.Lawful) (hinv : NetworkInv ch s) {request event : Event}
    (hrequest : s.payer.request = some request) (hevent : event ∈ s.network)
    (hpubkey : event.pubkey = ch.serverPub) (hnames : request.id ∈ event.etags) :
    ∃ payload req, s.Answered request payload ∧
      (payload.toJson ch.bolt11Text).toRequest? = some req ∧
      ch.responseTo request.id event = some req := by
  obtain ⟨hasked, hown⟩ := hinv.request request hrequest
  rcases hinv.server event hevent hpubkey with hnone | ⟨toPubkey, requestId, payload, nonce, hetags,
    hcontent, hsincere⟩
  · rw [hnone] at hnames
    exact absurd hnames List.not_mem_nil
  have hid : request.id = requestId := by
    rw [hetags] at hnames
    exact List.mem_singleton.1 hnames
  -- whichever it is, it was encrypted to this payer
  have hanswered : s.Answered request payload ∧ toPubkey = ch.payerPub := by
    rcases hsincere with ⟨x, hx, hto, hxid, hpayload⟩ | ⟨hreceipt, hpayer⟩
    · obtain rfl := hinv.ids x.event (hinv.served x hx).1 request hasked (hxid.trans hid.symm)
      exact ⟨.inl ⟨x, hx, rfl, hpayload⟩, hto.symm.trans hown⟩
    · obtain ⟨hto, hinvoiced⟩ := hpayer request hrequest hid
      exact ⟨.inr ⟨hreceipt, hinvoiced⟩, hto.symm.trans hown⟩
  obtain ⟨hanswered, rfl⟩ := hanswered
  obtain ⟨req, hreq⟩ := Channel.exists_toRequest? payload ch.bolt11Text
  exact ⟨payload, req, hanswered, hreq,
    Channel.responseTo_of_content hch hpubkey hnames hcontent hreq⟩

/-- What the payer takes for a response was sent by the server about this very request. -/
theorem payload_sincere (hch : ch.Lawful) (hinv : NetworkInv ch s) {request event : Event}
    {req : Request} (hrequest : s.payer.request = some request) (hevent : event ∈ s.network)
    (h : ch.responseTo request.id event = some req) :
    event.pubkey = ch.serverPub ∧ request.id ∈ event.etags ∧
      ∃ payload : Payload, s.Answered request payload ∧
        (payload.toJson ch.bolt11Text).toRequest? = some req := by
  obtain ⟨hpubkey, hrest⟩ := Option.ite_none_left_eq_some.1 h
  obtain ⟨hnames, -⟩ := Option.ite_none_left_eq_some.1 hrest
  have hserver : event.pubkey = ch.serverPub := (not_not.1 hpubkey).trans hch.noffer
  obtain ⟨payload, req', hanswered, hreq, hresponse⟩ := exists_answer hch hinv hrequest hevent
    hserver (not_not.1 hnames)
  obtain rfl := Option.some.inj (h.symm.trans hresponse)
  exact ⟨hserver, not_not.1 hnames, payload, hanswered, hreq⟩

/-- An invoice that the server replied with to the request of a check: over one sat, for the offer
of the noffer, which was active, and with the liquidity at hand. -/
structure Granted (ch : Channel) (x : Served) (bolt11 : Bolt11) : Prop where
  payload : x.reply.payload = .success bolt11
  amount : bolt11.amountSat = selftestAmountSat
  offer : ∃ offer, x.world.server.offers.get ch.noffer.offer = some offer ∧ offer.active = true ∧
    offer.priceType = .spontaneous
  liquidity : selftestAmountSat ≤
    x.world.server.reserver.availableSat x.world.server.capacity x.world.now

/-- The server reads the request of a check. -/
theorem decryptRequest_of_carries (hch : ch.Lawful) {event : Event}
    (hpubkey : event.pubkey = ch.payerPub) (hcarries : Carries ch event.content) :
    ∃ req, ClinkServer.decryptRequest ch.env event = some req ∧
      (checkRequest ch.noffer.offer).toRequest? = some req := by
  obtain ⟨nonce, hcontent⟩ := hcarries
  obtain ⟨n, m, hn, hm⟩ := Channel.exists_scalars hch
  have hread : ch.env.decryptFrom event.pubkey event.content =
      some (ch.jsonDumps (checkRequest ch.noffer.offer)) := by
    rw [hpubkey]
    exact decryptFrom_encryptTo hch.nip44 hch.ecc hm hn hcontent
  have hloads : ch.env.jsonLoads (ch.jsonDumps (checkRequest ch.noffer.offer)) =
      some (checkRequest ch.noffer.offer) := hch.jsonLoads_jsonDumps _ (.inr ⟨_, rfl⟩)
  refine ⟨_, ?_, rfl⟩
  rw [ClinkServer.decryptRequest, hread, Option.bind_some, hloads, Option.bind_some]
  rfl

/-- An invoice for the request of a check is granted by what the server had at that moment. -/
theorem granted_of_served (hch : ch.Lawful) (hinv : NetworkInv ch s) {x : Served}
    (hx : x ∈ s.served) (hpubkey : x.event.pubkey = ch.payerPub)
    (hcarries : Carries ch x.event.content)
    {bolt11 : Bolt11} (hsuccess : x.reply.payload = .success bolt11) : Granted ch x bolt11 := by
  rcases ClinkServer.dispatch_payload (hinv.served x hx).2 with ⟨code, message, range, herror⟩ |
    ⟨_, req, offer, hsame, haccepts, hamount, hoffer, hactive, htype, hliquidity⟩
  · cases hsuccess.symm.trans herror
  obtain rfl := Payload.success.inj (hsuccess.symm.trans hsame)
  obtain ⟨_, hrequest, hreq⟩ := decryptRequest_of_carries hch hpubkey hcarries
  obtain rfl := Option.some.inj (hrequest.symm.trans haccepts.request)
  obtain ⟨hname, hsat⟩ := Channel.checkRequest_fields hreq
  have hone : bolt11.amountSat = selftestAmountSat := Option.some.inj (hamount.symm.trans hsat)
  refine ⟨hsuccess, hone, ⟨offer, ?_, hactive, htype⟩, hone ▸ hliquidity⟩
  obtain ⟨offerId, hid, hget⟩ := Option.bind_eq_some_iff.1 hoffer
  obtain ⟨hfield, -⟩ := requestOfferId_eq_some_iff.1 hid
  obtain rfl := Json.str.inj (Option.some.inj (hfield.symm.trans hname))
  exact hget

/-- What a verdict tells. -/
inductive Tells (ch : Channel) (s : Exchange) (result : CheckResult) : Prop
  /-- The check did not get as far as a response. -/
  | nothing (h : result.status = .unreachable ∨ result.status = .publishFailed ∨
      result.status = .noResponse ∨ result.status = .error)
  /-- The server replied to the request with an invoice, and the check read it. -/
  | invoice (hstatus : result.status = .ok) (x : Served) (hx : x ∈ s.served)
      (hrequest : s.payer.request = some x.event) (bolt11 : Bolt11) (hgranted : Granted ch x bolt11)
      (hreads : s.Reads ch x.event (.success bolt11))
  /-- The server replied to the request with this error, and the check read it. -/
  | refusal (hstatus : result.status = .listenerError) (x : Served) (hx : x ∈ s.served)
      (hrequest : s.payer.request = some x.event) (code : ℤ) (message : String)
      (range : Option (ℤ × ℤ)) (hpayload : x.reply.payload = .error code message range)
      (hcode : result.errorCode = some code) (hdetail : result.detail = Channel.cut 120 message)
      (hreads : s.Reads ch x.event (.error code message range))
  /-- The server issued an invoice for the request, and what the check read is a receipt that it
  published for it. -/
  | receipt (hstatus : result.status = .badResponse) (request : Event)
      (hrequest : s.payer.request = some request) (hinvoiced : s.Invoiced request)
      (hreads : s.Reads ch request .receipt)

/-! ## The check -/

/-- The replies that were made stay made, and the request stays the same. -/
structure Extends (s t : Exchange) : Prop where
  served : ∀ x ∈ s.served, x ∈ t.served
  network : ∀ event ∈ s.network, event ∈ t.network
  request : ∀ request, s.payer.request = some request → t.payer.request = some request

theorem Answered.mono {request : Event} {payload : Payload} (hext : Extends s t)
    (h : s.Answered request payload) : t.Answered request payload := by
  rcases h with ⟨x, hx, hrest⟩ | ⟨hreceipt, hinvoiced⟩
  · exact .inl ⟨x, hext.served x hx, hrest⟩
  · exact .inr ⟨hreceipt, hinvoiced.mono hext.served⟩

theorem Reads.mono {request : Event} {payload : Payload} (hext : Extends s t)
    (hpayload : t.payer.payload = s.payer.payload) (h : s.Reads ch request payload) :
    t.Reads ch request payload := by
  obtain ⟨event, hevent, hpubkey, hnames, req, hreq, hresponse, hread⟩ := h
  exact ⟨event, hext.network event hevent, hpubkey, hnames, req, hreq, hresponse,
    hpayload.trans hread⟩

theorem Tells.mono {result : CheckResult} (hext : Extends s t)
    (hpayload : t.payer.payload = s.payer.payload) (h : Tells ch s result) : Tells ch t result := by
  cases h with
  | nothing h => exact .nothing h
  | invoice hstatus x hx hrequest bolt11 hgranted hreads =>
    exact .invoice hstatus x (hext.served x hx) (hext.request _ hrequest) bolt11 hgranted
      (hreads.mono hext hpayload)
  | refusal hstatus x hx hrequest code message range herror hcode hdetail hreads =>
    exact .refusal hstatus x (hext.served x hx) (hext.request _ hrequest) code message range
      herror hcode hdetail (hreads.mono hext hpayload)
  | receipt hstatus request hrequest hinvoiced hreads =>
    exact .receipt hstatus request (hext.request _ hrequest) (hinvoiced.mono hext.served)
      (hreads.mono hext hpayload)

/-- What is known of a check. -/
structure PayerInv (ch : Channel) (s : Exchange) : Prop where
  content : s.payer.stage ≠ .idle → Carries ch s.payer.content
  request : ∀ request, s.payer.request = some request → Carries ch request.content
  inbox : ∀ event ∈ s.payer.inbox, event ∈ s.network
  payload : ∀ req, s.payer.payload = some req → ∃ request payload,
    s.payer.request = some request ∧ s.Answered request payload ∧
      (payload.toJson ch.bolt11Text).toRequest? = some req ∧ s.Reads ch request payload
  result : ∀ result, s.payer.stage.result = some result → Tells ch s result

/-- Every step extends the replies and the network. -/
theorem extends_of_step (hinv : NetworkInv ch s) {a : ExchangeAction}
    (h : step ch s a = some t) : Extends s t := by
  rcases step_effect h with ⟨hnetwork, -, hserved, hrequest, -, -⟩ |
    ⟨event, -, hnetwork, -, hserved, hrequest, -, -, -⟩ |
    ⟨request, hstage, -, -, -, hnetwork, -, hserved, -, -, -⟩ | ⟨event, calls, world, -, -, rfl⟩
  case quiet =>
    exact ⟨fun x hx => hserved ▸ hx, fun e he => hnetwork ▸ he, fun r hr => hrequest ▸ hr⟩
  case published =>
    refine ⟨fun x hx => hserved ▸ hx, fun e he => ?_, fun r hr => hrequest ▸ hr⟩
    rw [hnetwork]
    exact List.mem_append_left _ he
  case asked =>
    refine ⟨fun x hx => hserved ▸ hx, fun e he => ?_, fun r hr => ?_⟩
    · rw [hnetwork]
      exact List.mem_append_left _ he
    · cases (hinv.early (by rw [hstage]; trivial)).symm.trans hr
  case served =>
    rcases afterServe_cases ch s event calls world with ⟨-, heq⟩ | ⟨reply, -, heq⟩
    · rw [heq]
      exact ⟨fun _ => id, fun _ => id, fun _ => id⟩
    · rw [heq]
      exact ⟨fun x hx => List.mem_append_left _ hx, fun _ => id, fun _ => id⟩

/-- The check gets on, but has published and looked at nothing new. -/
theorem PayerInv.advance (hinv : PayerInv ch s) (hext : Extends s t)
    (hcontent : t.payer.content = s.payer.content) (hrequest : t.payer.request = s.payer.request)
    (hinbox : ∀ event ∈ t.payer.inbox, event ∈ s.payer.inbox ∨ event ∈ s.network)
    (hpayload : t.payer.payload = s.payer.payload)
    (hidle : t.payer.stage ≠ .idle → s.payer.stage ≠ .idle)
    (hresult : ∀ result, t.payer.stage.result = some result →
      s.payer.stage.result = some result ∨ Tells ch s result) : PayerInv ch t := by
  constructor
  case content =>
    intro h
    rw [hcontent]
    exact hinv.content (hidle h)
  case request =>
    rw [hrequest]
    exact hinv.request
  case inbox =>
    intro event hevent
    rcases hinbox event hevent with hold | hpublished
    · exact hext.network event (hinv.inbox event hold)
    · exact hext.network event hpublished
  case payload =>
    intro req hreq
    rw [hpayload] at hreq
    obtain ⟨request, payload, hasked, hanswered, hread, hreads⟩ := hinv.payload req hreq
    exact ⟨request, payload, hext.request request hasked, hanswered.mono hext, hread,
      hreads.mono hext hpayload⟩
  case result =>
    intro result h
    rcases hresult result h with hold | htells
    · exact (hinv.result result hold).mono hext hpayload
    · exact htells.mono hext hpayload

/-- Nothing happens to the check. -/
theorem PayerInv.frame (hinv : PayerInv ch s) (hext : Extends s t) (h : t.payer = s.payer) :
    PayerInv ch t :=
  hinv.advance hext (by rw [h]) (by rw [h]) (fun _ he => .inl (h ▸ he)) (by rw [h])
    (fun hidle => h ▸ hidle) fun _ hresult => .inl (h ▸ hresult)

/-- The check gets to another stage. -/
theorem PayerInv.setStage (hinv : PayerInv ch s) (hext : Extends s t) (stage : PayerStage)
    (h : t.payer = { s.payer with stage := stage }) (hidle : s.payer.stage ≠ .idle)
    (hresult : ∀ result, stage.result = some result →
      s.payer.stage.result = some result ∨ Tells ch s result) : PayerInv ch t := by
  refine hinv.advance hext (by rw [h]) (by rw [h]) (fun _ he => ?_) (by rw [h])
    (fun _ => hidle) fun result hres => ?_
  · rw [h] at he
    exact .inl he
  · rw [h] at hres
    exact hresult result hres

/-- The check ends without a response. -/
theorem PayerInv.closeNothing (hinv : PayerInv ch s) (hext : Extends s t) {result : CheckResult}
    (h : t = s.close result) (hidle : s.payer.stage ≠ .idle)
    (hnothing : result.status = .unreachable ∨ result.status = .publishFailed ∨
      result.status = .noResponse ∨ result.status = .error) : PayerInv ch t := by
  refine hinv.setStage hext (.closing result) (by rw [h]; rfl) hidle ?_
  rintro _ ⟨⟩
  exact .inr (.nothing hnothing)

/-- The verdict over the payload of a response. -/
theorem tells_of_payload (hch : ch.Lawful) (hnet : NetworkInv ch s) (hinv : PayerInv ch s)
    {req : Request} (hpayload : s.payer.payload = some req) (rttMs : ℤ) :
    Tells ch s (ch.classify rttMs req) := by
  obtain ⟨request, payload, hrequest, hanswered, hread, hreads⟩ := hinv.payload req hpayload
  obtain ⟨hinvoice, herror, hreceipt⟩ := Channel.classify_of_payload hch rttMs hread
  obtain ⟨-, hpubkey⟩ := hnet.request request hrequest
  rcases hanswered with ⟨x, hx, rfl, rfl⟩ | ⟨rfl, hinvoiced⟩
  · rcases hcases : x.reply.payload with ⟨code, message, range⟩ | bolt11 | _
    case error =>
      obtain ⟨hstatus, hcode, hdetail⟩ := herror code message range hcases
      exact .refusal hstatus x hx hrequest code message range hcases hcode hdetail
        (hcases ▸ hreads)
    case success =>
      have hgranted := granted_of_served hch hnet hx hpubkey (hinv.request _ hrequest) hcases
      exact .invoice (hinvoice bolt11 hcases hgranted.amount) x hx hrequest bolt11 hgranted
        (hcases ▸ hreads)
    case receipt =>
      obtain ⟨-, hreply⟩ := hnet.served x hx
      rcases ClinkServer.dispatch_payload hreply with ⟨_, _, _, herror⟩ | ⟨_, _, _, hsuccess, -⟩
      · cases hcases.symm.trans herror
      · cases hcases.symm.trans hsuccess
  · exact .receipt (hreceipt rfl) request hrequest hinvoiced hreads

/-- What the server, the relays and third parties do leaves the check as it is. -/
theorem payer_of_step {a : ExchangeAction} (h : step ch s a = some t) (hother : ¬ a.ByCheck) :
    t.payer = s.payer := by
  cases a with
  | world a =>
    simp only [step] at h
    split at h
    next => cases h
    next =>
      obtain ⟨-, h⟩ := Option.ite_none_right_eq_some.1 h
      obtain ⟨world, -, rfl⟩ := Option.map_eq_some_iff.1 h
      rfl
  | inject event =>
    obtain ⟨-, heq⟩ := Option.ite_none_right_eq_some.1 h
    rw [← Option.some.inj heq]
    rfl
  | ping id nonce =>
    obtain ⟨-, h⟩ := Option.ite_none_right_eq_some.1 h
    obtain ⟨world, -, rfl⟩ := Option.map_eq_some_iff.1 h
    rfl
  | serve event calls =>
    obtain ⟨-, h⟩ := Option.ite_none_right_eq_some.1 h
    obtain ⟨world, -, rfl⟩ := Option.map_eq_some_iff.1 h
    -- with or without a reply, only the server's side and its outbox change
    rcases afterServe_cases ch s event calls world with ⟨-, heq⟩ | ⟨reply, -, heq⟩
    · rw [heq]
    · rw [heq]
  | respond i id nonce =>
    obtain ⟨⟨request, payload⟩, -, h⟩ := Option.bind_eq_some_iff.1 h
    obtain ⟨-, h⟩ := Option.ite_none_right_eq_some.1 h
    obtain ⟨event, -, rfl⟩ := Option.map_eq_some_iff.1 h
    rfl
  | drop i =>
    obtain ⟨-, heq⟩ := Option.ite_none_right_eq_some.1 h
    rw [← Option.some.inj heq]
  | receipt rhash id nonce =>
    obtain ⟨entry, -, h⟩ := Option.bind_eq_some_iff.1 h
    obtain ⟨-, h⟩ := Option.ite_none_right_eq_some.1 h
    obtain ⟨event, -, rfl⟩ := Option.map_eq_some_iff.1 h
    rfl
  | _ => exact absurd trivial hother

/-- The check registers its payer and encrypts its request. -/
theorem PayerInv.register (hch : ch.Lawful) (hinv : PayerInv ch s) {nonce : Bytes} {clock : Time}
    (h : step ch s (.register nonce clock) = some t) : PayerInv ch t := by
  obtain ⟨-, h⟩ := Option.ite_none_right_eq_some.1 h
  obtain ⟨content, hcontent, h⟩ := Option.bind_eq_some_iff.1 h
  obtain ⟨world, -, rfl⟩ := Option.map_eq_some_iff.1 h
  rw [hch.noffer] at hcontent
  constructor
  case content => exact fun _ => ⟨nonce, hcontent⟩
  case request => exact hinv.request
  case inbox => exact hinv.inbox
  case payload => exact hinv.payload
  case result => rintro result ⟨⟩

/-- The check publishes its request. -/
theorem PayerInv.publish (hnet : NetworkInv ch s) (hinv : PayerInv ch s) (hext : Extends s t)
    {id : EventId} (h : step ch s (.publish id) = some t) : PayerInv ch t := by
  obtain ⟨⟨hsettling, -⟩, heq⟩ := Option.ite_none_right_eq_some.1 h
  obtain rfl := Option.some.inj heq
  have hcontent := hinv.content (by simp [hsettling])
  have hnone : s.payer.request = none := hnet.early (by rw [hsettling]; trivial)
  constructor
  case content => exact fun _ => hcontent
  case request =>
    rintro request ⟨⟩
    exact hcontent
  case inbox => exact fun event hevent => hext.network event (hinv.inbox event hevent)
  case payload =>
    -- without a request there was nothing to read
    intro req hreq
    obtain ⟨request, -, hrequest, -⟩ := hinv.payload req hreq
    cases hnone.symm.trans hrequest
  case result => rintro result ⟨⟩

/-- The check looks at the next event, and may find a response. -/
theorem PayerInv.examine (hch : ch.Lawful) (hnet : NetworkInv ch s) (hinv : PayerInv ch s)
    (hext : Extends s t) (h : step ch s .examine = some t) : PayerInv ch t := by
  obtain ⟨event, inbox, hinbox, -, -, ⟨-, rfl⟩ | ⟨-, hawaiting, request, hrequest, rfl⟩⟩ :=
    examine_cases h
  · -- it is none, and the check goes on with the rest of the queue
    refine hinv.advance hext rfl rfl (fun e he => .inl ?_) rfl id fun _ => .inl
    rw [hinbox]
    exact List.mem_cons_of_mem _ he
  have hmem : event ∈ s.network := hinv.inbox event (by rw [hinbox]; exact List.mem_cons_self)
  constructor
  case content => exact hinv.content
  case request => exact hinv.request
  case inbox =>
    intro e he
    exact hinv.inbox e (by rw [hinbox]; exact List.mem_cons_of_mem _ he)
  case payload =>
    intro req hreq
    obtain ⟨hserver, hnames, payload, hanswered, hread⟩ :=
      payload_sincere hch hnet hrequest hmem hreq
    exact ⟨request, payload, hrequest, hanswered.mono hext, hread,
      event, hmem, hserver, hnames, req, hread, hreq, hreq⟩
  case result =>
    -- a check that looks at an event has no result yet
    intro result hresult
    have hnone : s.payer.stage.result = none := by rw [hawaiting]; rfl
    cases hnone.symm.trans hresult

/-- Every step keeps what is known of the check. -/
theorem payerInv_step (hch : ch.Lawful) {a : ExchangeAction} (hnet : NetworkInv ch s)
    (hinv : PayerInv ch s) (h : step ch s a = some t) : PayerInv ch t := by
  have hext := extends_of_step hnet h
  by_cases hother : ¬ a.ByCheck
  · exact hinv.frame hext (payer_of_step h hother)
  cases a with
  | register nonce clock => exact hinv.register hch h
  | connect connected =>
    obtain ⟨hconnecting, h⟩ := Option.ite_none_right_eq_some.1 h
    have hidle : s.payer.stage ≠ .idle := by simp [hconnecting]
    split at h
    · exact hinv.closeNothing hext (Option.some.inj h).symm hidle (.inl rfl)
    · exact hinv.closeNothing hext (Option.some.inj h).symm hidle (.inl rfl)
    · refine hinv.setStage hext _ (by rw [← Option.some.inj h]; rfl) hidle ?_
      rintro result ⟨⟩
  | publish id => exact hinv.publish hnet hext h
  | published =>
    obtain ⟨hpublishing, heq⟩ := Option.ite_none_right_eq_some.1 h
    refine hinv.setStage hext _ (by rw [← Option.some.inj heq]; rfl) (by simp [hpublishing]) ?_
    rintro result ⟨⟩
  | publishFailed repr =>
    obtain ⟨hstage, heq⟩ := Option.ite_none_right_eq_some.1 h
    refine hinv.closeNothing hext (Option.some.inj heq).symm ?_ (.inr (.inl rfl))
    rcases hstage with hstage | hstage <;> simp [hstage]
  | hear event =>
    obtain ⟨⟨hmem, -⟩, heq⟩ := Option.ite_none_right_eq_some.1 h
    obtain rfl := Option.some.inj heq
    refine hinv.advance hext rfl rfl (fun e he => ?_) rfl id fun _ => .inl
    rcases List.mem_append.1 he with hold | hnew
    · exact .inl hold
    · rw [List.mem_singleton.1 hnew]
      exact .inr hmem
  | examine => exact hinv.examine hch hnet hext h
  | conclude clock =>
    -- the verdict is over the payload that `_await_response` returned
    obtain ⟨hawaiting, h⟩ := Option.ite_none_right_eq_some.1 h
    obtain ⟨req, hpayload, rfl⟩ := Option.map_eq_some_iff.1 h
    refine hinv.setStage hext _ rfl (by simp [hawaiting]) ?_
    rintro _ ⟨⟩
    exact .inr (tells_of_payload hch hnet hinv hpayload _)
  | timeout =>
    obtain ⟨hawaiting, heq⟩ := Option.ite_none_right_eq_some.1 h
    exact hinv.closeNothing hext (Option.some.inj heq).symm (by simp [hawaiting])
      (.inr (.inr (.inl rfl)))
  | raised repr =>
    obtain ⟨hstage, heq⟩ := Option.ite_none_right_eq_some.1 h
    refine hinv.closeNothing hext (Option.some.inj heq).symm ?_ (.inr (.inr (.inr rfl)))
    intro hidle
    rw [hidle] at hstage
    rcases hstage with hlistening | hconnecting
    · exact hlistening
    · cases hconnecting
  | unregister =>
    simp only [step] at h
    split at h
    next result hclosing =>
      obtain ⟨world, -, rfl⟩ := Option.map_eq_some_iff.1 h
      refine hinv.setStage hext _ rfl (by simp [hclosing]) ?_
      rintro _ ⟨⟩
      exact .inl (by rw [hclosing]; rfl)
    next => cases h
  | _ => exact absurd id hother

theorem payerInv_start (world : World) : PayerInv ch (start world) := by
  constructor
  case content => exact fun h => absurd rfl h
  all_goals rintro _ ⟨⟩

/-- What holds of the network and of the check in every state of a run. -/
theorem payerInv (hch : ch.Lawful) {world : World} (hs : Reachable ch (start world) s) :
    PayerInv ch s := by
  refine (hs.invariant (I := fun s => NetworkInv ch s ∧ PayerInv ch s)
    ⟨networkInv_start world, payerInv_start world⟩ fun _ _ _ hinv _ h => ?_).2
  exact ⟨networkInv_step hch hinv.1 h, payerInv_step hch hinv.1 hinv.2 h⟩

end Exchange

end ElectrumClink
