import ElectrumClink.Exchange.Conclusion

/-!
# What a payer may believe

Any number of payers share the relays, and each takes what is addressed to it and decrypts. What one
of them reads is what the server replied to its own request, or the receipt of an invoice that the
server replied with and whose payment the wallet announced (`responses_authentic`).
-/

namespace ElectrumClink

namespace Exchange

variable {ch : Channel} {s t : Exchange}

/-- The server has this to say about a request: its reply, or, once the wallet announced the payment
of the invoice that it replied with, the receipt. -/
inductive Says (s : Exchange) (toPubkey : Pubkey) (requestId : EventId) : Payload → Prop
  | reply (x : Served) (hx : x ∈ s.served) (hpubkey : x.event.pubkey = toPubkey)
      (hid : x.event.id = requestId) : Says s toPubkey requestId x.reply.payload
  | receipt (x : Served) (hx : x ∈ s.served) (hpubkey : x.event.pubkey = toPubkey)
      (hid : x.event.id = requestId) (bolt11 : Bolt11)
      (hinvoice : x.reply.payload = .success bolt11)
      (hpaid : bolt11.paymentHash ∈ s.world.history.notified) : Says s toPubkey requestId .receipt

/-- An event of the server is a self-ping, or a response with what the server has to say. -/
inductive Authentic (ch : Channel) (s : Exchange) (event : Event) : Prop
  | ping (htags : event.tags = [["p", ch.serverPub]])
  | response (toPubkey : Pubkey) (requestId : EventId) (payload : Payload) (nonce : Bytes)
      (htags : event.tags = Channel.responseTags toPubkey requestId)
      (hcontent : encryptTo ch.nip44 ch.ecc ch.serverKey toPubkey
        (ch.jsonDumps (payload.toJson ch.bolt11Text)) nonce = some event.content)
      (htells : s.Says toPubkey requestId payload)

/-- An entry of the registry is that of an invoice that the server replied with, and is due only
when the wallet announced its payment. -/
structure Tracked (s : Exchange) (rhash : PaymentHash) (entry : ReceiptEntry) : Prop where
  invoice : ∃ x ∈ s.served, x.event.pubkey = entry.payer ∧ x.event.id = entry.req ∧
    ∃ bolt11, x.reply.payload = .success bolt11 ∧ bolt11.paymentHash = rhash
  paid : entry.due = true → rhash ∈ s.world.history.notified

/-- What every step keeps of the registry and of the events of the server. -/
structure AuthenticInv (ch : Channel) (s : Exchange) : Prop where
  tracked : ∀ rhash entry, s.world.server.receipts.lookup rhash = some entry → s.Tracked rhash entry
  outbox : ∀ x ∈ s.outbox, ∃ y ∈ s.served, y.event = x.1 ∧ y.reply.payload = x.2
  server : ∀ event ∈ s.network, event.pubkey = ch.serverPub → Authentic ch s event

theorem Says.mono {toPubkey : Pubkey} {requestId : EventId} {payload : Payload}
    (hserved : ∀ x ∈ s.served, x ∈ t.served)
    (hnotified : ∀ rhash ∈ s.world.history.notified, rhash ∈ t.world.history.notified)
    (h : s.Says toPubkey requestId payload) : t.Says toPubkey requestId payload := by
  cases h with
  | reply x hx hpubkey hid => exact .reply x (hserved x hx) hpubkey hid
  | receipt x hx hpubkey hid bolt11 hinvoice hpaid =>
    exact .receipt x (hserved x hx) hpubkey hid bolt11 hinvoice (hnotified _ hpaid)

theorem Authentic.mono {event : Event} (hserved : ∀ x ∈ s.served, x ∈ t.served)
    (hnotified : ∀ rhash ∈ s.world.history.notified, rhash ∈ t.world.history.notified)
    (h : Authentic ch s event) : Authentic ch t event := by
  cases h with
  | ping htags => exact .ping htags
  | response toPubkey requestId payload nonce htags hcontent htells =>
    exact .response toPubkey requestId payload nonce htags hcontent (htells.mono hserved hnotified)

/-- The registry keeps what is known of its entries. -/
theorem Tracked.mono {rhash : PaymentHash} {entry entry' : ReceiptEntry}
    (hserved : ∀ x ∈ s.served, x ∈ t.served)
    (hnotified : ∀ rhash ∈ s.world.history.notified, rhash ∈ t.world.history.notified)
    (hpayer : entry'.payer = entry.payer) (hreq : entry'.req = entry.req)
    (hdue : entry'.due = true → entry.due = true ∨ rhash ∈ t.world.history.notified)
    (h : s.Tracked rhash entry) : t.Tracked rhash entry' := by
  obtain ⟨x, hx, hxpayer, hxreq, hinvoice⟩ := h.invoice
  have hx' := hserved x hx
  refine ⟨⟨x, hx', hxpayer.trans hpayer.symm, hxreq.trans hreq.symm, hinvoice⟩, fun h' => ?_⟩
  rcases hdue h' with hold | hnew
  · exact hnotified rhash (h.paid hold)
  · exact hnew

/-- Everything that the server publishes is authentic. -/
theorem AuthenticInv.published (hinv : AuthenticInv ch s) {event : Event}
    (h : Published ch s event) (hown : event.pubkey = ch.serverPub) : Authentic ch s event := by
  cases h with
  | foreign _ _ hserver => exact absurd hown hserver
  | ping id nonce => exact .ping rfl
  | response _ id nonce request payload houtbox hevent =>
    obtain ⟨content, hcontent, rfl⟩ := Option.map_eq_some_iff.1 hevent
    -- what waits in the outbox was replied to the event it answers
    obtain ⟨y, hy, hyevent, hypayload⟩ := hinv.outbox _ houtbox
    subst hyevent hypayload
    exact .response _ _ _ nonce rfl hcontent (.reply y hy rfl rfl)
  | receipt _ id nonce rhash entry hentry hdue hevent =>
    obtain ⟨content, hcontent, rfl⟩ := Option.map_eq_some_iff.1 hevent
    -- a due entry is that of an invoice whose payment was announced
    have htracked := hinv.tracked rhash entry hentry
    obtain ⟨x, hx, hpayer, hreq, bolt11, hinvoice, rfl⟩ := htracked.invoice
    exact .response _ _ _ nonce rfl hcontent
      (.receipt x hx hpayer hreq bolt11 hinvoice (htracked.paid hdue))

/-- The server dispatches an event: an entry that is new is that of the invoice replied with. -/
theorem AuthenticInv.serve (hinv : AuthenticInv ch s) {event : Event} {calls : Calls}
    {world : World} (hstep : s.world.step ch.env (.dispatch event calls) = some world) :
    AuthenticInv ch (s.afterServe ch event calls world) := by
  have hnotified : ∀ rhash ∈ s.world.history.notified, rhash ∈ world.history.notified :=
    fun _ => World.notified_mono hstep
  rcases afterServe_cases ch s event calls world with ⟨hnone, heq⟩ | ⟨reply, hreply, heq⟩
  · rw [heq]
    -- without a reply there is no new entry
    have hsame : ∀ x ∈ s.served, x ∈ ({ s with world := world } : Exchange).served := fun _ => id
    constructor
    case tracked =>
      intro rhash entry hentry
      rcases lookup_of_dispatch hstep hentry with hold | ⟨reply, -, hreply, -⟩
      · exact (hinv.tracked rhash entry hold).mono hsame hnotified rfl rfl .inl
      · cases hnone.symm.trans hreply
    case outbox => exact hinv.outbox
    case server =>
      exact fun e he hown => (hinv.server e he hown).mono hsame hnotified
  · rw [heq]
    have hmono : ∀ x ∈ s.served, x ∈ s.served ++ [⟨s.world, event, calls, reply⟩] :=
      fun x hx => List.mem_append_left _ hx
    have hnew : ⟨s.world, event, calls, reply⟩ ∈
        s.served ++ [⟨s.world, event, calls, reply⟩] :=
      List.mem_append_right _ (List.mem_singleton.2 rfl)
    constructor
    case tracked =>
      intro rhash entry hentry
      rcases lookup_of_dispatch hstep hentry with hold |
        ⟨reply', bolt11, hreply', hsuccess, hhash, hpayer, hreq, hdue⟩
      · exact (hinv.tracked rhash entry hold).mono hmono hnotified rfl rfl .inl
      · obtain rfl := Option.some.inj (hreply.symm.trans hreply')
        -- a new entry is not due, so there is nothing to say of its payment
        refine ⟨⟨_, hnew, hpayer.symm, hreq.symm, bolt11, hsuccess, hhash⟩, fun h => ?_⟩
        cases hdue.symm.trans h
    case outbox =>
      intro x hx
      have hold : x ∈ s.outbox ∨ x = (event, reply.payload) := by
        dsimp only at hx
        split at hx
        · exact (List.mem_append.1 hx).imp id List.mem_singleton.1
        · exact .inl hx
      rcases hold with hold | rfl
      · obtain ⟨y, hy, hrest⟩ := hinv.outbox x hold
        exact ⟨y, hmono y hy, hrest⟩
      · exact ⟨_, hnew, rfl, rfl⟩
    case server => exact fun e he hown => (hinv.server e he hown).mono hmono hnotified

/-- Every step keeps it. -/
theorem authenticInv_step (hch : ch.Lawful) {a : ExchangeAction} (hinv : AuthenticInv ch s)
    (h : step ch s a = some t) : AuthenticInv ch t := by
  rcases step_effect h with ⟨hnetwork, houtbox, hserved, -, -, hkeeps⟩ |
    ⟨event, -, hnetwork, houtbox, hserved, -, -, hkeeps, hpublished⟩ |
    ⟨request, -, -, -, hevent, hnetwork, houtbox, hserved, -, -, hworld⟩ |
    ⟨event, calls, world, -, hstep, rfl⟩
  case quiet =>
    have hmono : ∀ x ∈ s.served, x ∈ t.served := fun x hx => hserved ▸ hx
    constructor
    case tracked =>
      intro rhash entry' hentry'
      obtain ⟨entry, hentry, hpayer, hreq, hdue⟩ := hkeeps.entry rhash entry' hentry'
      exact (hinv.tracked rhash entry hentry).mono hmono hkeeps.notified hpayer hreq hdue
    case outbox =>
      rw [hserved]
      exact fun x hx => hinv.outbox x (houtbox x hx)
    case server =>
      rw [hnetwork]
      exact fun e he hown => (hinv.server e he hown).mono hmono hkeeps.notified
  case published =>
    have hmono : ∀ x ∈ s.served, x ∈ t.served := fun x hx => hserved ▸ hx
    constructor
    case tracked =>
      intro rhash entry' hentry'
      obtain ⟨entry, hentry, hpayer, hreq, hdue⟩ := hkeeps.entry rhash entry' hentry'
      exact (hinv.tracked rhash entry hentry).mono hmono hkeeps.notified hpayer hreq hdue
    case outbox =>
      rw [hserved]
      exact fun x hx => hinv.outbox x (houtbox x hx)
    case server =>
      intro e he hown
      rw [hnetwork] at he
      rcases List.mem_append.1 he with he | he
      · exact (hinv.server e he hown).mono hmono hkeeps.notified
      · obtain rfl := List.mem_singleton.1 he
        exact (hinv.published hpublished hown).mono hmono hkeeps.notified
  case asked =>
    have hmono : ∀ x ∈ s.served, x ∈ t.served := fun x hx => hserved ▸ hx
    have hnotified : ∀ rhash ∈ s.world.history.notified, rhash ∈ t.world.history.notified := by
      rw [hworld]
      exact fun rhash => id
    constructor
    case tracked =>
      intro rhash entry hentry
      rw [hworld] at hentry
      exact (hinv.tracked rhash entry hentry).mono hmono hnotified rfl rfl .inl
    case outbox =>
      rw [hserved, houtbox]
      exact hinv.outbox
    case server =>
      intro e he hown
      rw [hnetwork] at he
      rcases List.mem_append.1 he with he | he
      · exact (hinv.server e he hown).mono hmono hnotified
      -- the request is signed by the payer, not by the server
      · rw [List.mem_singleton.1 he, hevent] at hown
        exact absurd hown hch.distinct
  case served => exact hinv.serve hstep

theorem authenticInv_start {world : World}
    (hempty : ∀ rhash, world.server.receipts.lookup rhash = none) :
    AuthenticInv ch (start world) where
  tracked rhash entry hentry := by
    cases (hempty rhash).symm.trans hentry
  outbox := by rintro _ ⟨⟩
  server := by rintro _ ⟨⟩

theorem authenticInv (hch : ch.Lawful) {world : World}
    (hempty : ∀ rhash, world.server.receipts.lookup rhash = none)
    (hs : Reachable ch (start world) s) : AuthenticInv ch s :=
  hs.invariant (authenticInv_start hempty) fun _ _ _ hinv _ h => authenticInv_step hch hinv h

/-- An event of the server that is addressed to somebody else, and that this one decrypts, is a
response to a request of its own with what the server has to say about it. -/
theorem Authentic.of_decrypted (hch : ch.Lawful) {event : Event} {key : Bytes} {plaintext : String}
    (hauthentic : Authentic ch s event) (hkey : (ch.ecc.secretScalar key).isSome = true)
    (hne : ch.ecc.publicKey key ≠ ch.serverPub)
    (haddressed : ["p", ch.ecc.publicKey key] ∈ event.tags)
    (hdecrypt : decryptFrom ch.nip44 ch.ecc key ch.serverPub event.content = some plaintext) :
    ∃ requestId payload, event.etags = [requestId] ∧
      plaintext = ch.jsonDumps (payload.toJson ch.bolt11Text) ∧
      s.Says (ch.ecc.publicKey key) requestId payload := by
  cases hauthentic with
  | ping htags =>
    rw [htags] at haddressed
    have htag := List.mem_singleton.1 haddressed
    exact absurd (List.cons.inj (List.cons.inj htag).2).1 hne
  | response toPubkey requestId payload nonce htags hcontent htells =>
    have hto : ch.ecc.publicKey key = toPubkey := by
      rw [htags] at haddressed
      simpa [Channel.responseTags] using haddressed
    subst hto
    have hetags : event.etags = [requestId] := by
      rw [Event.etags, htags]
      rfl
    obtain ⟨n, hn⟩ := Option.isSome_iff_exists.1 hch.serverKey
    obtain ⟨m, hm⟩ := Option.isSome_iff_exists.1 hkey
    have hread := decryptFrom_encryptTo hch.nip44 hch.ecc hn hm hcontent
    exact ⟨requestId, payload, hetags, Option.some.inj (hdecrypt.symm.trans hread), htells⟩

/-- What the server publishes about the request of the check is addressed to its payer, who reads
it. -/
theorem addressed_of_names (hch : ch.Lawful) (hnet : NetworkInv ch s) (hinv : AuthenticInv ch s)
    {request event : Event} (hrequest : s.payer.request = some request)
    (hevent : event ∈ s.network) (hpubkey : event.pubkey = ch.serverPub)
    (hnames : request.id ∈ event.etags) :
    ["p", ch.payerPub] ∈ event.tags ∧
      ∃ plaintext, decryptFrom ch.nip44 ch.ecc ch.payerKey ch.serverPub event.content =
        some plaintext := by
  obtain ⟨hasked, hown⟩ := hnet.request request hrequest
  cases hinv.server event hevent hpubkey with
  | ping htags =>
    have hnone : event.etags = [] := by
      rw [Event.etags, htags]
      rfl
    rw [hnone] at hnames
    exact absurd hnames List.not_mem_nil
  | response toPubkey requestId payload nonce htags hcontent htells =>
    have hid : request.id = requestId := by
      rw [Event.etags, htags] at hnames
      exact List.mem_singleton.1 hnames
    have hmatch : ∀ x ∈ s.served, x.event.pubkey = toPubkey → x.event.id = requestId →
        ch.payerPub = toPubkey := by
      intro x hx hto hxid
      obtain rfl := hnet.ids x.event (hnet.served x hx).1 request hasked (hxid.trans hid.symm)
      exact hown.symm.trans hto
    obtain rfl : ch.payerPub = toPubkey := by
      cases htells with
      | reply x hx hto hxid => exact hmatch x hx hto hxid
      | receipt x hx hto hxid => exact hmatch x hx hto hxid
    obtain ⟨n, hn⟩ := Option.isSome_iff_exists.1 hch.serverKey
    obtain ⟨m, hm⟩ := Option.isSome_iff_exists.1 hch.payerKey
    refine ⟨?_, _, decryptFrom_encryptTo hch.nip44 hch.ecc hn hm hcontent⟩
    rw [htags]
    exact List.mem_cons_self

/-- Whatever a payer reads from the server is the reply to its own request, or the receipt of an
invoice that was issued for it and that the wallet saw paid. -/
theorem responses_authentic (hch : ch.Lawful) {world : World}
    (hempty : ∀ rhash, world.server.receipts.lookup rhash = none)
    (hs : Reachable ch (start world) s) {event : Event} {key : Bytes} {plaintext : String}
    (hkey : (ch.ecc.secretScalar key).isSome = true)
    (hne : ch.ecc.publicKey key ≠ ch.serverPub) (hevent : event ∈ s.network)
    (hpubkey : event.pubkey = ch.serverPub)
    (haddressed : ["p", ch.ecc.publicKey key] ∈ event.tags)
    (hdecrypt : decryptFrom ch.nip44 ch.ecc key ch.serverPub event.content = some plaintext) :
    ∃ requestId payload, event.etags = [requestId] ∧
      plaintext = ch.jsonDumps (payload.toJson ch.bolt11Text) ∧
      s.Says (ch.ecc.publicKey key) requestId payload :=
  ((authenticInv hch hempty hs).server event hevent hpubkey).of_decrypted hch hkey hne haddressed
    hdecrypt

/-- What the payer of the sample reads. -/
theorem responses_authentic_sample :
    ∃ (s : Exchange) (event : Event) (plaintext : String) (requestId : EventId)
      (payload : Payload), event ∈ s.network ∧ event.etags = [requestId] ∧
      decryptFrom Channel.sample.nip44 Channel.sample.ecc Channel.sample.payerKey
        Channel.sample.serverPub event.content = some plaintext ∧
      plaintext = Channel.sample.jsonDumps (payload.toJson Channel.sample.bolt11Text) ∧
      s.Says Channel.sample.payerPub requestId payload := by
  obtain ⟨s, request, event, hs, -, -, -, hrequest, hevent, hpubkey, hnames⟩ :=
    exists_awaiting_sample
  have hempty : ∀ rhash, (World.start 0 true (.sample 150 300)).server.receipts.lookup rhash =
      none := fun _ => rfl
  obtain ⟨haddressed, plaintext, hplaintext⟩ := addressed_of_names Channel.lawful_sample
    (networkInv Channel.lawful_sample hs) (authenticInv Channel.lawful_sample hempty hs) hrequest
    hevent hpubkey hnames
  obtain ⟨requestId, payload, hetags, hpayload, htells⟩ := responses_authentic Channel.lawful_sample
    hempty hs Channel.lawful_sample.payerKey Channel.lawful_sample.distinct hevent hpubkey
    haddressed hplaintext
  exact ⟨s, event, plaintext, requestId, payload, hevent, hetags, hplaintext, hpayload, htells⟩

end Exchange

end ElectrumClink
