import ElectrumClink.Exchange.Model
import ElectrumClink.Server.Settlement

/-!
# What is published, and by whom

Every response on the network carries a reply that the server made to the very event its `e` tag
names, encrypted to the payer of that event; or it is the receipt of an invoice issued for it
(`FromServer`). `NetworkInv` collects what the steps keep, and `step_effect` what one step does to
the network, to the replies and to the registry.
-/

namespace ElectrumClink

variable {ch : Channel} {s t : Exchange}

/-- The check has not published its request. -/
def PayerStage.Early : PayerStage → Prop
  | .idle | .connecting | .settling => True
  | _ => False

namespace Exchange

/-- The server replied to a request with an invoice. -/
def Invoiced (s : Exchange) (request : Event) : Prop :=
  ∃ x ∈ s.served, x.event = request ∧ ∃ bolt11, x.reply.payload = .success bolt11

/-- The payload of a response comes from the server: it is the reply to the event that the response
names, or the receipt of an invoice issued for the request of this payer. -/
def Sincere (s : Exchange) (toPubkey : Pubkey) (requestId : EventId) (payload : Payload) : Prop :=
  (∃ x ∈ s.served, x.event.pubkey = toPubkey ∧ x.event.id = requestId ∧ x.reply.payload = payload) ∨
  payload = .receipt ∧ ∀ request, s.payer.request = some request → request.id = requestId →
    request.pubkey = toPubkey ∧ s.Invoiced request

/-- An event of the server names no event, or it is a response. -/
def FromServer (ch : Channel) (s : Exchange) (event : Event) : Prop :=
  event.etags = [] ∨ ∃ toPubkey requestId payload nonce, event.etags = [requestId] ∧
    encryptTo ch.nip44 ch.ecc ch.serverKey toPubkey
      (ch.jsonDumps (payload.toJson ch.bolt11Text)) nonce = some event.content ∧
    s.Sincere toPubkey requestId payload

/-- An entry of the registry that names the request of this payer is that of an invoice issued for
it. -/
def RegistryInv (s : Exchange) : Prop :=
  ∀ rhash entry request, s.world.server.receipts.lookup rhash = some entry →
    s.payer.request = some request → entry.req = request.id →
      entry.payer = request.pubkey ∧ s.Invoiced request

/-- Every entry of the registry was there before, for the same request; it falls due when its
payment is announced. -/
structure Keeps (s t : Exchange) : Prop where
  entry : ∀ rhash entry', t.world.server.receipts.lookup rhash = some entry' →
    ∃ entry, s.world.server.receipts.lookup rhash = some entry ∧ entry'.payer = entry.payer ∧
      entry'.req = entry.req ∧
      (entry'.due = true → entry.due = true ∨ rhash ∈ t.world.history.notified)
  notified : ∀ rhash ∈ s.world.history.notified, rhash ∈ t.world.history.notified

/-- What is published by others than the payer. -/
inductive Published (ch : Channel) (s : Exchange) : Event → Prop
  /-- The event of somebody else. -/
  | foreign (event : Event) (hpayer : event.pubkey ≠ ch.payerPub)
      (hserver : event.pubkey ≠ ch.serverPub) : Published ch s event
  | ping (id : EventId) (nonce : String) : Published ch s (ch.pingEvent s.world.now id nonce)
  /-- The server publishes a response. -/
  | response (event : Event) (id : EventId) (nonce : Bytes) (request : Event) (payload : Payload)
      (houtbox : (request, payload) ∈ s.outbox)
      (hevent : ch.responseEvent s.world.now id request.pubkey request.id payload nonce =
        some event) : Published ch s event
  /-- The server publishes the receipt of an entry that is due. -/
  | receipt (event : Event) (id : EventId) (nonce : Bytes) (rhash : PaymentHash)
      (entry : ReceiptEntry) (hentry : s.world.server.receipts.lookup rhash = some entry)
      (hdue : entry.due = true)
      (hevent : ch.responseEvent s.world.now id entry.payer entry.req .receipt nonce =
        some event) : Published ch s event

/-- What a step can do to the network, to the replies and to the registry. -/
inductive Effect (ch : Channel) (s t : Exchange) : Prop
  /-- Nothing is published. -/
  | quiet (hnetwork : t.network = s.network) (houtbox : ∀ x ∈ t.outbox, x ∈ s.outbox)
      (hserved : t.served = s.served) (hrequest : t.payer.request = s.payer.request)
      (hearly : t.payer.stage.Early → s.payer.stage.Early) (hregistry : Keeps s t)
  /-- An event is published, not by the payer. -/
  | published (event : Event) (hfresh : s.FreshId event.id)
      (hnetwork : t.network = s.network ++ [event]) (houtbox : ∀ x ∈ t.outbox, x ∈ s.outbox)
      (hserved : t.served = s.served) (hrequest : t.payer.request = s.payer.request)
      (hstage : t.payer.stage = s.payer.stage) (hregistry : Keeps s t)
      (hpublished : Published ch s event)
  /-- The payer publishes its request. -/
  | asked (request : Event) (hstage : s.payer.stage = .settling) (hfresh : s.FreshId request.id)
      (hunmentioned : s.Unmentioned request.id)
      (hevent : request = ch.requestEvent s.world.now request.id s.payer.content)
      (hnetwork : t.network = s.network ++ [request]) (houtbox : t.outbox = s.outbox)
      (hserved : t.served = s.served) (hrequest : t.payer.request = some request)
      (hpublishing : t.payer.stage = .publishing) (hworld : t.world = s.world)
  /-- The server dispatches an event. -/
  | served (event : Event) (calls : Calls) (world : World) (hmem : event ∈ s.network)
      (hstep : s.world.step ch.env (.dispatch event calls) = some world)
      (heq : t = s.afterServe ch event calls world)

/-! ## Steps of the world -/

/-- An announcement that reaches a running server is noted. -/
theorem mem_notified_of_requestPaid {env : Env} {w w' : World} {rhash : PaymentHash}
    (hrunning : w.running = true) (h : w.step env (.requestPaid rhash) = some w') :
    rhash ∈ w'.history.notified := by
  obtain ⟨-, rfl⟩ := World.step_eq_some_iff.1 h
  rw [World.perform, if_pos hrunning]
  exact List.mem_append_right _ (List.mem_singleton.2 rfl)

/-- An action that is no dispatch adds no entry to the registry. -/
theorem keeps_of_step {a : Action} {world : World} {env : Env}
    (ha : ∀ event calls, a ≠ .dispatch event calls) (h : s.world.step env a = some world)
    (hworld : t.world = world) : Keeps s t := by
  subst hworld
  refine ⟨fun rhash entry' hentry' => ?_, fun rhash => World.notified_mono h⟩
  rcases World.receipts_step h with ⟨op, hop, hpaid, hreceipts⟩ | ⟨event, calls, _, rfl, -⟩
  · rw [hreceipts] at hentry'
    rcases ReceiptRegistry.lookup_apply hentry' with ⟨_, _, _, rfl, -⟩ | ⟨-, entry, hentry, hsame⟩
    · cases hop
    · refine ⟨entry, hentry, ?_⟩
      rcases hsame with rfl | ⟨rfl, -, rfl⟩ | ⟨-, rfl⟩ | ⟨-, -, rfl⟩
      · exact ⟨rfl, rfl, .inl⟩
      · obtain ⟨rfl, hrunning⟩ := hpaid rhash rfl
        exact ⟨rfl, rfl, fun _ => .inr (mem_notified_of_requestPaid hrunning h)⟩
      · exact ⟨rfl, rfl, .inl⟩
      · obtain ⟨hpayer, hreq, -, hdue, -⟩ := entry.sent_fields s.world.now
        exact ⟨hpayer, hreq, fun h => .inl (hdue ▸ h)⟩
  · exact absurd rfl (ha event calls)

theorem keeps_of_eq (h : t.world = s.world) : Keeps s t := by
  refine ⟨fun rhash entry hentry => ?_, fun rhash hnotified => h ▸ hnotified⟩
  exact ⟨entry, h ▸ hentry, rfl, rfl, .inl⟩

/-- A dispatch remembers an invoice that it replies with, or leaves the registry alone. -/
theorem dispatch_remembers (env : Env) (calls : Calls) (now : Time) (event : Event)
    (server : ClinkServer) :
    (server.dispatch env calls now event).2.receipts = server.receipts ∨
      ∃ reply bolt11, (server.dispatch env calls now event).1 = some reply ∧
        reply.payload = .success bolt11 ∧
        (server.dispatch env calls now event).2.receipts =
          (server.receipts.remember bolt11.paymentHash event.pubkey event.id
            (now + server.invoiceExpirySec)).2 := by
  have hdispatch := ClinkServer.dispatch_outcome env calls now event server
  generalize server.dispatch env calls now event = result at hdispatch ⊢
  cases hdispatch with
  | dropped => exact .inl rfl
  | refused => exact .inl (by simp)
  | issuing req offer amountSat description reply s' haccepts hamount hcap hissue =>
    have hout := ClinkServer.issueInvoice_outcome env calls now event offer amountSat description
      (server.isSelftestPayer now event.pubkey).1 (server.gated now event)
    rw [hissue] at hout
    cases hout with
    | notCreated => exact .inl (by simp)
    | failed => exact .inl (by simp)
    | lostRace => exact .inl (by simp)
    | issued bolt11 hnew hanswered hfits hselftest =>
      refine .inr ⟨_, bolt11, rfl, rfl, ?_⟩
      simp [ClinkServer.withReservation, ClinkServer.withRequest, ClinkServer.gated]
    | selftestRaised => exact .inl (by simp)
    | selftestUnwound => exact .inl (by simp)

/-- What is in the registry after a dispatch was there before, or is the entry of the invoice that
was replied with. -/
theorem lookup_of_dispatch {event : Event} {calls : Calls} {world : World} {rhash : PaymentHash}
    {entry' : ReceiptEntry} (h : s.world.step ch.env (.dispatch event calls) = some world)
    (hentry' : world.server.receipts.lookup rhash = some entry') :
    s.world.server.receipts.lookup rhash = some entry' ∨
      ∃ reply bolt11, (s.world.server.dispatch ch.env calls s.world.now event).1 = some reply ∧
        reply.payload = .success bolt11 ∧ bolt11.paymentHash = rhash ∧
        entry'.payer = event.pubkey ∧ entry'.req = event.id ∧ entry'.due = false := by
  obtain ⟨-, rfl⟩ := World.step_eq_some_iff.1 h
  have hserver : (s.world.perform ch.env (.dispatch event calls)).server.receipts =
      (s.world.server.dispatch ch.env calls s.world.now event).2.receipts := rfl
  rw [hserver] at hentry'
  rcases dispatch_remembers ch.env calls s.world.now event s.world.server with hsame |
    ⟨reply, bolt11, hreply, hsuccess, hremember⟩
  · exact .inl (hsame ▸ hentry')
  · rw [hremember] at hentry'
    rcases ReceiptRegistry.lookup_of_remember hentry' with ⟨rfl, rfl⟩ | ⟨-, hentry⟩
    · exact .inr ⟨reply, bolt11, hreply, hsuccess, rfl, rfl, rfl, rfl⟩
    · exact .inl hentry

/-! ## The events of the server -/

/-- The event of a response. -/
theorem etags_responseEvent {now : Time} {id requestId : EventId} {toPubkey : Pubkey}
    {payload : Payload} {nonce : Bytes} {event : Event}
    (h : ch.responseEvent now id toPubkey requestId payload nonce = some event) :
    event.id = id ∧ event.pubkey = ch.serverPub ∧ event.etags = [requestId] ∧
      encryptTo ch.nip44 ch.ecc ch.serverKey toPubkey
        (ch.jsonDumps (payload.toJson ch.bolt11Text)) nonce = some event.content := by
  obtain ⟨content, hcontent, rfl⟩ := Option.map_eq_some_iff.1 h
  exact ⟨rfl, rfl, rfl, hcontent⟩

theorem etags_pingEvent (now : Time) (id : EventId) (nonce : String) :
    (ch.pingEvent now id nonce).etags = [] := rfl

/-- `_await_response` skips an event of somebody else at once, and judges one of the server when it
knows the request. -/
theorem examine_cases (h : s.examine ch = some t) :
    ∃ event inbox, s.payer.inbox = event :: inbox ∧ s.payer.payload = none ∧
      s.payer.stage.Listening ∧
      (event.pubkey ≠ ch.noffer.pubkey ∧
          t = { s with payer := { s.payer with inbox := inbox } } ∨
        event.pubkey = ch.noffer.pubkey ∧ s.payer.stage = .awaiting ∧
          ∃ request, s.payer.request = some request ∧ t = { s with payer :=
            { s.payer with inbox := inbox, payload := ch.responseTo request.id event } }) := by
  unfold examine at h
  split at h
  next => cases h
  next event inbox hinbox =>
    split at h
    next => cases h
    next hrunning =>
      push Not at hrunning
      refine ⟨event, inbox, hinbox, by simpa using hrunning.1, hrunning.2, ?_⟩
      split at h
      next hforeign => exact .inl ⟨hforeign, (Option.some.inj h).symm⟩
      next hserver =>
        obtain ⟨hawaiting, h⟩ := Option.ite_none_right_eq_some.1 h
        obtain ⟨request, hrequest, rfl⟩ := Option.map_eq_some_iff.1 h
        exact .inr ⟨not_not.1 hserver, hawaiting, request, hrequest, rfl⟩

/-- The effect of a step. -/
theorem step_effect {a : ExchangeAction} (h : step ch s a = some t) : Effect ch s t := by
  cases a with
  | world a =>
    -- a dispatch is an action of its own, as the server then replies
    have hcases : (∃ event calls, a = .dispatch event calls) ∨
        (∀ event calls, a ≠ .dispatch event calls) ∧
          (if a.Foreign ch.payerPub then
            (s.world.step ch.env a).map fun world => { s with world := world }
          else none) = some t := by
      cases a with
      | dispatch event calls => exact .inl ⟨event, calls, rfl⟩
      | _ =>
        refine .inr ⟨?_, h⟩
        rintro event calls ⟨⟩
    rcases hcases with ⟨event, calls, rfl⟩ | ⟨hne, hstep⟩
    · cases h
    · obtain ⟨-, hstep⟩ := Option.ite_none_right_eq_some.1 hstep
      obtain ⟨world, hworld, rfl⟩ := Option.map_eq_some_iff.1 hstep
      exact .quiet rfl (fun _ => id) rfl rfl id (keeps_of_step hne hworld rfl)
  | inject event =>
    obtain ⟨⟨hpayer, hserver, hfresh⟩, heq⟩ := Option.ite_none_right_eq_some.1 h
    obtain rfl := Option.some.inj heq
    exact .published event hfresh rfl (fun _ => id) rfl rfl rfl (keeps_of_eq rfl)
      (.foreign event hpayer hserver)
  | ping id nonce =>
    obtain ⟨hfresh, hstep⟩ := Option.ite_none_right_eq_some.1 h
    obtain ⟨world, hworld, rfl⟩ := Option.map_eq_some_iff.1 hstep
    refine .published (ch.pingEvent s.world.now id nonce) hfresh rfl (fun _ hx => hx) rfl rfl
      rfl (keeps_of_step ?_ hworld rfl) (.ping id nonce)
    rintro event calls ⟨⟩
  | serve event calls =>
    obtain ⟨⟨hmem, -⟩, hstep⟩ := Option.ite_none_right_eq_some.1 h
    obtain ⟨world, hworld, rfl⟩ := Option.map_eq_some_iff.1 hstep
    exact .served event calls world hmem hworld rfl
  | respond i id nonce =>
    obtain ⟨⟨request, payload⟩, hget, hstep⟩ := Option.bind_eq_some_iff.1 h
    obtain ⟨hfresh, hstep⟩ := Option.ite_none_right_eq_some.1 hstep
    obtain ⟨event, hevent, rfl⟩ := Option.map_eq_some_iff.1 hstep
    -- a response leaves the outbox when it is published
    obtain ⟨rfl, -⟩ := etags_responseEvent hevent
    exact .published event hfresh rfl (fun x hx => List.mem_of_mem_eraseIdx hx) rfl rfl rfl
      (keeps_of_eq rfl) (.response event _ nonce request payload (List.mem_of_getElem? hget) hevent)
  | drop i =>
    obtain ⟨-, heq⟩ := Option.ite_none_right_eq_some.1 h
    obtain rfl := Option.some.inj heq
    exact .quiet rfl (fun x hx => List.mem_of_mem_eraseIdx hx) rfl rfl id (keeps_of_eq rfl)
  | receipt rhash id nonce =>
    obtain ⟨entry, hentry, hstep⟩ := Option.bind_eq_some_iff.1 h
    obtain ⟨⟨hdue, hfresh⟩, hstep⟩ := Option.ite_none_right_eq_some.1 hstep
    obtain ⟨event, hevent, rfl⟩ := Option.map_eq_some_iff.1 hstep
    -- a receipt is made from the entry of the registry
    obtain ⟨rfl, -⟩ := etags_responseEvent hevent
    exact .published event hfresh rfl (fun _ => id) rfl rfl rfl (keeps_of_eq rfl)
      (.receipt event _ nonce rhash entry hentry hdue hevent)
  | register nonce clock =>
    obtain ⟨hidle, hstep⟩ := Option.ite_none_right_eq_some.1 h
    obtain ⟨content, -, hstep⟩ := Option.bind_eq_some_iff.1 hstep
    obtain ⟨world, hworld, rfl⟩ := Option.map_eq_some_iff.1 hstep
    refine .quiet rfl (fun _ => id) rfl rfl (fun _ => ?_) (keeps_of_step ?_ hworld rfl)
    · rw [hidle]
      trivial
    · rintro event calls ⟨⟩
  | connect connected =>
    obtain ⟨hconnecting, hstep⟩ := Option.ite_none_right_eq_some.1 h
    have hearly : s.payer.stage.Early := by
      rw [hconnecting]
      trivial
    split at hstep
    all_goals
      obtain rfl := Option.some.inj hstep
      exact .quiet rfl (fun _ => id) rfl rfl (fun _ => hearly) (keeps_of_eq rfl)
  | publish id =>
    obtain ⟨⟨hstage, hfresh, hunmentioned⟩, heq⟩ := Option.ite_none_right_eq_some.1 h
    obtain rfl := Option.some.inj heq
    exact .asked (ch.requestEvent s.world.now id s.payer.content) hstage hfresh hunmentioned rfl rfl
      rfl rfl rfl rfl rfl
  | hear event =>
    obtain ⟨-, heq⟩ := Option.ite_none_right_eq_some.1 h
    obtain rfl := Option.some.inj heq
    exact .quiet rfl (fun _ => id) rfl rfl id (keeps_of_eq rfl)
  | published | publishFailed | timeout | raised =>
    obtain ⟨-, heq⟩ := Option.ite_none_right_eq_some.1 h
    obtain rfl := Option.some.inj heq
    exact .quiet rfl (fun _ => id) rfl rfl False.elim (keeps_of_eq rfl)
  | examine =>
    obtain ⟨event, inbox, -, -, -, ⟨-, rfl⟩ | ⟨-, -, request, -, rfl⟩⟩ := examine_cases h
    · exact .quiet rfl (fun _ => id) rfl rfl id (keeps_of_eq rfl)
    · exact .quiet rfl (fun _ => id) rfl rfl id (keeps_of_eq rfl)
  | conclude clock =>
    obtain ⟨-, hstep⟩ := Option.ite_none_right_eq_some.1 h
    obtain ⟨payload, -, rfl⟩ := Option.map_eq_some_iff.1 hstep
    exact .quiet rfl (fun _ => id) rfl rfl False.elim (keeps_of_eq rfl)
  | unregister =>
    simp only [step] at h
    split at h
    next =>
      obtain ⟨world, hworld, rfl⟩ := Option.map_eq_some_iff.1 h
      refine .quiet rfl (fun _ => id) rfl rfl False.elim (keeps_of_step ?_ hworld rfl)
      rintro event calls ⟨⟩
    next => cases h

/-! ## The invariant -/

/-- What the steps keep of the network, the replies and the registry. -/
structure NetworkInv (ch : Channel) (s : Exchange) : Prop where
  ids : ∀ event ∈ s.network, ∀ event' ∈ s.network, event.id = event'.id → event = event'
  own : ∀ event ∈ s.network, event.pubkey = ch.payerPub → s.payer.request = some event
  request : ∀ request, s.payer.request = some request →
    request ∈ s.network ∧ request.pubkey = ch.payerPub
  early : s.payer.stage.Early → s.payer.request = none
  server : ∀ event ∈ s.network, event.pubkey = ch.serverPub → FromServer ch s event
  outbox : ∀ x ∈ s.outbox, ∃ y ∈ s.served, y.event = x.1 ∧ y.reply.payload = x.2
  served : ∀ x ∈ s.served, x.event ∈ s.network ∧
    (x.world.server.dispatch ch.env x.calls x.world.now x.event).1 = some x.reply
  registry : RegistryInv s

theorem Invoiced.mono {request : Event} (hserved : ∀ x ∈ s.served, x ∈ t.served)
    (h : s.Invoiced request) : t.Invoiced request := by
  obtain ⟨x, hx, hrest⟩ := h
  exact ⟨x, hserved x hx, hrest⟩

/-- An event of the server stays what it is when more replies are made. -/
theorem FromServer.mono {event : Event} (hserved : ∀ x ∈ s.served, x ∈ t.served)
    (hrequest : ∀ request, t.payer.request = some request →
      s.payer.request = some request ∨ request.id ∉ event.etags)
    (h : FromServer ch s event) : FromServer ch t event := by
  rcases h with hnone | ⟨toPubkey, requestId, payload, nonce, hetags, hcontent, hsincere⟩
  · exact .inl hnone
  refine .inr ⟨toPubkey, requestId, payload, nonce, hetags, hcontent, ?_⟩
  rcases hsincere with ⟨x, hx, hrest⟩ | ⟨hreceipt, hpayer⟩
  · exact .inl ⟨x, hserved x hx, hrest⟩
  · refine .inr ⟨hreceipt, fun request hasked hid => ?_⟩
    rcases hrequest request hasked with hold | hunmentioned
    · obtain ⟨hpubkey, hinvoiced⟩ := hpayer request hold hid
      exact ⟨hpubkey, hinvoiced.mono hserved⟩
    · rw [hetags, hid] at hunmentioned
      exact absurd (List.mem_singleton.2 rfl) hunmentioned

/-- A registry that keeps its entries keeps what is known of them. -/
theorem RegistryInv.mono (h : RegistryInv s) (hregistry : Keeps s t)
    (hserved : ∀ x ∈ s.served, x ∈ t.served) (hrequest : t.payer.request = s.payer.request) :
    RegistryInv t := by
  intro rhash entry' request hentry' hasked hreq
  obtain ⟨entry, hentry, hpayer, hsame, -⟩ := hregistry.entry rhash entry' hentry'
  rw [hrequest] at hasked
  obtain ⟨hpubkey, hinvoiced⟩ := h rhash entry request hentry hasked (hsame.symm.trans hreq)
  exact ⟨hpayer.trans hpubkey, hinvoiced.mono hserved⟩

/-- An event with a fresh id keeps the ids apart. -/
theorem ids_concat {network : List Event} {event : Event}
    (hids : ∀ e ∈ network, ∀ e' ∈ network, e.id = e'.id → e = e')
    (hfresh : ∀ e ∈ network, e.id ≠ event.id) :
    ∀ e ∈ network ++ [event], ∀ e' ∈ network ++ [event], e.id = e'.id → e = e' := by
  intro e he e' he' hid
  rcases List.mem_append.1 he with he | he <;> rcases List.mem_append.1 he' with he' | he'
  · exact hids e he e' he' hid
  · rw [List.mem_singleton.1 he'] at hid
    exact absurd hid (hfresh e he)
  · rw [List.mem_singleton.1 he] at hid
    exact absurd hid.symm (hfresh e' he')
  · rw [List.mem_singleton.1 he, List.mem_singleton.1 he']

/-- What the server dispatches, it replies to at most once. -/
theorem afterServe_cases (ch : Channel) (s : Exchange) (event : Event) (calls : Calls)
    (world : World) :
    (s.world.server.dispatch ch.env calls s.world.now event).1 = none ∧
        s.afterServe ch event calls world = { s with world := world } ∨
      ∃ reply, (s.world.server.dispatch ch.env calls s.world.now event).1 = some reply ∧
        s.afterServe ch event calls world =
          { s with
            world := world
            outbox :=
              if reply.delivery = .spawned then s.outbox ++ [(event, reply.payload)] else s.outbox
            served := s.served ++ [⟨s.world, event, calls, reply⟩] } := by
  unfold afterServe
  rcases (s.world.server.dispatch ch.env calls s.world.now event).1 with _ | reply
  · exact .inl ⟨rfl, rfl⟩
  · exact .inr ⟨reply, rfl, rfl⟩

/-- What is published is not from the payer; what is from the server is no response, or sincere. -/
theorem NetworkInv.fromServer (hch : ch.Lawful) (hinv : NetworkInv ch s) {event : Event}
    (h : Published ch s event) :
    event.pubkey ≠ ch.payerPub ∧ (event.pubkey = ch.serverPub → FromServer ch s event) := by
  cases h with
  | foreign _ hpayer hserver => exact ⟨hpayer, fun hown => absurd hown hserver⟩
  | ping id nonce => exact ⟨hch.distinct.symm, fun _ => .inl (etags_pingEvent _ _ _)⟩
  | response _ id nonce request payload houtbox hevent =>
    obtain ⟨-, hpubkey, hetags, hcontent⟩ := etags_responseEvent hevent
    refine ⟨hpubkey ▸ hch.distinct.symm, fun _ => .inr ?_⟩
    obtain ⟨y, hy, hyevent, hypayload⟩ := hinv.outbox _ houtbox
    refine ⟨request.pubkey, request.id, payload, nonce, hetags, hcontent, .inl ⟨y, hy, ?_⟩⟩
    rw [hyevent]
    exact ⟨rfl, rfl, hypayload⟩
  | receipt _ id nonce rhash entry hentry hdue hevent =>
    obtain ⟨-, hpubkey, hetags, hcontent⟩ := etags_responseEvent hevent
    refine ⟨hpubkey ▸ hch.distinct.symm, fun _ => .inr ?_⟩
    refine ⟨entry.payer, entry.req, .receipt, nonce, hetags, hcontent, .inr ⟨rfl, ?_⟩⟩
    intro request hrequest hid
    obtain ⟨hpayer, hinvoiced⟩ := hinv.registry rhash entry request hentry hrequest hid.symm
    exact ⟨hpayer.symm, hinvoiced⟩

/-- Nothing is published. -/
theorem NetworkInv.quiet (hinv : NetworkInv ch s) (hnetwork : t.network = s.network)
    (houtbox : ∀ x ∈ t.outbox, x ∈ s.outbox) (hserved : t.served = s.served)
    (hrequest : t.payer.request = s.payer.request)
    (hearly : t.payer.stage.Early → s.payer.stage.Early) (hregistry : Keeps s t) :
    NetworkInv ch t where
  ids := by rw [hnetwork]; exact hinv.ids
  own := by rw [hnetwork, hrequest]; exact hinv.own
  request := by rw [hnetwork, hrequest]; exact hinv.request
  early h := by rw [hrequest]; exact hinv.early (hearly h)
  server := by
    intro event hevent hserver
    rw [hnetwork] at hevent
    refine (hinv.server event hevent hserver).mono (fun x hx => hserved ▸ hx) fun request h => ?_
    exact .inl (hrequest ▸ h)
  outbox x hx := by rw [hserved]; exact hinv.outbox x (houtbox x hx)
  served := by rw [hserved, hnetwork]; exact hinv.served
  registry := hinv.registry.mono hregistry (fun x hx => hserved ▸ hx) hrequest

/-- Somebody publishes an event, not the payer. -/
theorem NetworkInv.published (hch : ch.Lawful) (hinv : NetworkInv ch s) {event : Event}
    (hfresh : s.FreshId event.id) (hnetwork : t.network = s.network ++ [event])
    (houtbox : ∀ x ∈ t.outbox, x ∈ s.outbox) (hserved : t.served = s.served)
    (hrequest : t.payer.request = s.payer.request) (hstage : t.payer.stage = s.payer.stage)
    (hregistry : Keeps s t) (hpublished : Published ch s event) : NetworkInv ch t := by
  obtain ⟨hpubkey, hserver⟩ := hinv.fromServer hch hpublished
  have hmono : ∀ {e : Event}, FromServer ch s e → FromServer ch t e := fun h =>
    h.mono (fun x hx => hserved ▸ hx) fun request hasked => .inl (hrequest ▸ hasked)
  constructor
  case ids =>
    rw [hnetwork]
    exact ids_concat hinv.ids hfresh
  case own =>
    intro e he hown
    rw [hnetwork] at he
    rw [hrequest]
    rcases List.mem_append.1 he with he | he
    · exact hinv.own e he hown
    -- the new event is not of the payer
    · rw [List.mem_singleton.1 he] at hown
      exact absurd hown hpubkey
  case request =>
    intro request hasked
    rw [hrequest] at hasked
    obtain ⟨hmem, hown⟩ := hinv.request request hasked
    rw [hnetwork]
    exact ⟨List.mem_append_left _ hmem, hown⟩
  case early =>
    intro h
    rw [hrequest]
    exact hinv.early (hstage ▸ h)
  case server =>
    intro e he hown
    rw [hnetwork] at he
    rcases List.mem_append.1 he with he | he
    · exact hmono (hinv.server e he hown)
    · obtain rfl := List.mem_singleton.1 he
      exact hmono (hserver hown)
  case outbox =>
    intro x hx
    rw [hserved]
    exact hinv.outbox x (houtbox x hx)
  case served =>
    intro x hx
    rw [hserved] at hx
    rw [hnetwork]
    exact ⟨List.mem_append_left _ (hinv.served x hx).1, (hinv.served x hx).2⟩
  case registry => exact hinv.registry.mono hregistry (fun x hx => hserved ▸ hx) hrequest

/-- The payer publishes its request, which nothing refers to yet. -/
theorem NetworkInv.asked (hch : ch.Lawful) (hinv : NetworkInv ch s) {request : Event}
    (hnone : s.payer.request = none) (hfresh : s.FreshId request.id)
    (hunmentioned : s.Unmentioned request.id) (hpubkey : request.pubkey = ch.payerPub)
    (hnetwork : t.network = s.network ++ [request]) (houtbox : t.outbox = s.outbox)
    (hserved : t.served = s.served) (hrequest : t.payer.request = some request)
    (hstage : t.payer.stage = .publishing) (hworld : t.world = s.world) : NetworkInv ch t := by
  constructor
  case ids =>
    rw [hnetwork]
    exact ids_concat hinv.ids hfresh
  case own =>
    intro e he hown
    rw [hnetwork] at he
    rcases List.mem_append.1 he with he | he
    · cases hnone.symm.trans (hinv.own e he hown)
    · rw [hrequest, List.mem_singleton.1 he]
  case request =>
    intro request' hasked
    obtain rfl := Option.some.inj (hrequest.symm.trans hasked)
    rw [hnetwork]
    exact ⟨List.mem_append_right _ (List.mem_singleton.2 rfl), hpubkey⟩
  case early =>
    rw [hstage]
    exact False.elim
  case server =>
    intro e he hown
    rw [hnetwork] at he
    rcases List.mem_append.1 he with he | he
    -- no event of the server names the request yet
    · refine (hinv.server e he hown).mono (fun x hx => hserved ▸ hx) fun request' hasked => .inr ?_
      obtain rfl := Option.some.inj (hrequest.symm.trans hasked)
      exact hunmentioned.1 e he
    · rw [List.mem_singleton.1 he, hpubkey] at hown
      exact absurd hown hch.distinct
  case outbox =>
    intro x hx
    rw [houtbox] at hx
    rw [hserved]
    exact hinv.outbox x hx
  case served =>
    intro x hx
    rw [hserved] at hx
    rw [hnetwork]
    exact ⟨List.mem_append_left _ (hinv.served x hx).1, (hinv.served x hx).2⟩
  case registry =>
    intro rhash entry request' hentry hasked hreq
    -- nor does an entry of the registry
    obtain rfl := Option.some.inj (hrequest.symm.trans hasked)
    rw [hworld] at hentry
    exact absurd hreq (hunmentioned.2 _ (Dict.get?_eq_some_iff.1 hentry))

/-- The server dispatches an event. -/
theorem NetworkInv.serve (hinv : NetworkInv ch s) {event : Event} {calls : Calls} {world : World}
    (hmem : event ∈ s.network)
    (hstep : s.world.step ch.env (.dispatch event calls) = some world) :
    NetworkInv ch (s.afterServe ch event calls world) := by
  rcases afterServe_cases ch s event calls world with ⟨hnone, heq⟩ | ⟨reply, hreply, heq⟩
  · rw [heq]
    refine hinv.quiet rfl (fun _ => id) rfl rfl id ⟨fun rhash entry hentry => ?_,
      fun _ => World.notified_mono hstep⟩
    rcases lookup_of_dispatch hstep hentry with hold | ⟨reply, -, hreply, -⟩
    · exact ⟨entry, hold, rfl, rfl, .inl⟩
    · cases hnone.symm.trans hreply
  · rw [heq]
    have hmono : ∀ x ∈ s.served, x ∈ s.served ++ [⟨s.world, event, calls, reply⟩] :=
      fun x hx => List.mem_append_left _ hx
    have hnew : ∃ y ∈ s.served ++ [⟨s.world, event, calls, reply⟩],
        y.event = event ∧ y.reply.payload = reply.payload :=
      ⟨_, List.mem_append_right _ (List.mem_singleton.2 rfl), rfl, rfl⟩
    constructor
    case ids => exact hinv.ids
    case own => exact hinv.own
    case request => exact hinv.request
    case early => exact hinv.early
    case server =>
      exact fun e he hown => (hinv.server e he hown).mono hmono fun _ hasked => .inl hasked
    case outbox =>
      intro x hx
      have hold : x ∈ s.outbox ∨ x = (event, reply.payload) := by
        dsimp only at hx
        split at hx
        · exact (List.mem_append.1 hx).imp id List.mem_singleton.1
        · exact .inl hx
      rcases hold with hold | rfl
      · obtain ⟨y, hy, hrest⟩ := hinv.outbox x hold
        exact ⟨y, hmono y hy, hrest⟩
      · exact hnew
    case served =>
      intro x hx
      rcases List.mem_append.1 hx with hx | hx
      · exact hinv.served x hx
      · obtain rfl := List.mem_singleton.1 hx
        exact ⟨hmem, hreply⟩
    case registry =>
      intro rhash entry request hentry hasked hreq
      rcases lookup_of_dispatch hstep hentry with hold | ⟨reply', bolt11, hreply', hsuccess, -,
        hpayer, hid, -⟩
      · obtain ⟨hpayer, hinvoiced⟩ := hinv.registry rhash entry request hold hasked hreq
        exact ⟨hpayer, hinvoiced.mono hmono⟩
      · obtain rfl := Option.some.inj (hreply.symm.trans hreply')
        -- the entry of the event that was just dispatched: no other event has its id
        obtain rfl := hinv.ids event hmem request (hinv.request request hasked).1
          (hid.symm.trans hreq)
        exact ⟨hpayer, _, List.mem_append_right _ (List.mem_singleton.2 rfl), rfl, bolt11, hsuccess⟩

/-- Every step keeps it. -/
theorem networkInv_step (hch : ch.Lawful) {a : ExchangeAction} (hinv : NetworkInv ch s)
    (h : step ch s a = some t) : NetworkInv ch t := by
  rcases step_effect h with ⟨hnetwork, houtbox, hserved, hrequest, hearly, hregistry⟩ |
    ⟨event, hfresh, hnetwork, houtbox, hserved, hrequest, hstage, hregistry, hpublished⟩ |
    ⟨request, hstage, hfresh, hunmentioned, hevent, hnetwork, houtbox, hserved, hrequest,
      hpublishing, hworld⟩ |
    ⟨event, calls, world, hmem, hstep, rfl⟩
  case quiet => exact hinv.quiet hnetwork houtbox hserved hrequest hearly hregistry
  case published =>
    exact hinv.published hch hfresh hnetwork houtbox hserved hrequest hstage hregistry hpublished
  case asked =>
    have hnone : s.payer.request = none := hinv.early (by rw [hstage]; trivial)
    have hpubkey : request.pubkey = ch.payerPub := by rw [hevent]; rfl
    exact hinv.asked hch hnone hfresh hunmentioned hpubkey hnetwork houtbox hserved hrequest
      hpublishing hworld
  case served => exact hinv.serve hmem hstep

theorem networkInv_start (world : World) : NetworkInv ch (start world) := by
  constructor
  case early => exact fun _ => rfl
  case registry => rintro rhash entry request - ⟨⟩
  all_goals rintro _ ⟨⟩

theorem networkInv (hch : ch.Lawful) {world : World} (hs : Reachable ch (start world) s) :
    NetworkInv ch s :=
  hs.invariant (networkInv_start world) fun _ _ _ hinv _ h => networkInv_step hch hinv h

end Exchange

end ElectrumClink
