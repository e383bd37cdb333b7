import ElectrumClink.Exchange.Verdict

/-!
# What a check concludes

The verdict of a check tells what the server decided about its request (`checkNoffer_verdict`).

`_await_response` looks at one event after the other. Anybody may have anything delivered to the
payer before the response of the server; none of this makes the check miss the response
(`checkNoffer_answered`).
-/

namespace ElectrumClink

variable {ch : Channel} {s : Exchange}

namespace Exchange

/-- An event of somebody else is no response. -/
theorem responseTo_of_ne {request event : Event} (h : event.pubkey ≠ ch.noffer.pubkey) :
    ch.responseTo request.id event = none := if_pos h

/-- A check that waits looks at the next event. -/
theorem examine_of_awaiting {request event : Event} {inbox : List Event}
    (hawaiting : s.payer.stage = .awaiting) (hnone : s.payer.payload = none)
    (hrequest : s.payer.request = some request) (hinbox : s.payer.inbox = event :: inbox) :
    s.examine ch = some { s with payer :=
      { s.payer with inbox := inbox, payload := ch.responseTo request.id event } } := by
  have hrunning : ¬ (s.payer.payload.isSome ∨ ¬ s.payer.stage.Listening) := by
    rw [hnone, hawaiting]
    rintro (⟨⟨⟩⟩ | hnot)
    exact hnot trivial
  unfold examine
  rw [hinbox]
  dsimp only
  rw [if_neg hrunning]
  by_cases hpubkey : event.pubkey ≠ ch.noffer.pubkey
  · rw [if_pos hpubkey, responseTo_of_ne hpubkey, hnone]
  · rw [if_neg hpubkey, if_pos hawaiting, hrequest]
    rfl

/-- `_await_response` returns the first response that the subscription yields, whatever it yields
before. -/
theorem exec_examine {request event : Event} {req : Request} (before rest : List Event)
    (hjunk : ∀ e ∈ before, ch.responseTo request.id e = none)
    (hresponse : ch.responseTo request.id event = some req) (s : Exchange)
    (hawaiting : s.payer.stage = .awaiting) (hnone : s.payer.payload = none)
    (hrequest : s.payer.request = some request)
    (hinbox : s.payer.inbox = before ++ event :: rest) :
    Transition.exec (step ch) s (List.replicate (before.length + 1) .examine) =
      some { s with payer := { s.payer with inbox := rest, payload := some req } } := by
  induction before generalizing s with
  | nil =>
    have hnext := @examine_of_awaiting ch s _ _ _ hawaiting hnone hrequest hinbox
    rw [hresponse] at hnext
    simp [Transition.exec, step, hnext]
  | cons e before ih =>
    have hnext := @examine_of_awaiting ch s _ _ _ hawaiting hnone hrequest hinbox
    rw [hjunk e List.mem_cons_self] at hnext
    have hrest := ih (fun e' he' => hjunk e' (List.mem_cons_of_mem _ he'))
      { s with payer := { s.payer with inbox := before ++ event :: rest, payload := none } }
      hawaiting rfl hrequest rfl
    rw [List.length_cons, List.replicate_succ, Transition.exec, step, hnext]
    exact hrest

/-- The first response of a list that holds one. -/
theorem exists_first_response {request : Event} {inbox : List Event}
    (h : ∃ event ∈ inbox, (ch.responseTo request.id event).isSome) :
    ∃ before event rest req, inbox = before ++ event :: rest ∧
      (∀ e ∈ before, ch.responseTo request.id e = none) ∧
      ch.responseTo request.id event = some req := by
  obtain ⟨event, hevent, hsome⟩ := h
  have hfind : (inbox.find? fun e => (ch.responseTo request.id e).isSome).isSome := by
    rw [List.find?_isSome]
    exact ⟨event, hevent, hsome⟩
  obtain ⟨first, hfirst⟩ := Option.isSome_iff_exists.1 hfind
  obtain ⟨hresponse, before, rest, hsplit, hjunk⟩ := List.find?_eq_some_iff_append.1 hfirst
  obtain ⟨req, hreq⟩ := Option.isSome_iff_exists.1 hresponse
  exact ⟨before, first, rest, req, hsplit, fun e he => by simpa using hjunk e he, hreq⟩

/-- A verdict over a payload says that there was a response. -/
theorem status_classify (rttMs : ℤ) (payload : Request) :
    (ch.classify rttMs payload).status = .ok ∨ (ch.classify rttMs payload).status = .listenerError ∨
      (ch.classify rttMs payload).status = .badResponse := by
  have hother : (Channel.classify.other ch rttMs payload).status = .listenerError ∨
      (Channel.classify.other ch rttMs payload).status = .badResponse := by
    unfold Channel.classify.other
    split
    · exact .inl rfl
    · exact .inr rfl
  unfold Channel.classify
  split
  · split
    · exact .inr hother
    · split
      · exact .inr (.inr rfl)
      · exact .inl rfl
  · exact .inr hother

/-- Looking at what was delivered, a check that waits finds the response in it. -/
theorem exists_exec_examine (ch : Channel) {request event : Event} {req : Request} (s : Exchange)
    (hawaiting : s.payer.stage = .awaiting) (hrequest : s.payer.request = some request)
    (hinbox : event ∈ s.payer.inbox) (hresponse : ch.responseTo request.id event = some req) :
    ∃ n inbox req', n ≤ s.payer.inbox.length ∧
      Transition.exec (step ch) s (List.replicate n .examine) =
        some { s with payer := { s.payer with inbox := inbox, payload := some req' } } := by
  rcases hpayload : s.payer.payload with _ | req'
  · obtain ⟨before, first, rest, req', hsplit, hjunk, hfirst⟩ :=
      exists_first_response ⟨event, hinbox, by rw [hresponse]; rfl⟩
    refine ⟨before.length + 1, rest, req', ?_,
      exec_examine before rest hjunk hfirst s hawaiting hpayload hrequest hsplit⟩
    rw [hsplit, List.length_append, List.length_cons]
    omega
  -- it has found one before
  · refine ⟨0, s.payer.inbox, req', Nat.zero_le _, ?_⟩
    rw [List.replicate_zero, Transition.exec, ← hpayload]

/-- A check that waits, to which a published response is delivered, concludes with a verdict over a
payload. -/
theorem exists_conclude {request event : Event} {req : Request} (s : Exchange)
    (hawaiting : s.payer.stage = .awaiting) (hrequest : s.payer.request = some request)
    (hevent : event ∈ s.network) (hresponse : ch.responseTo request.id event = some req)
    (clock : Time) :
    ∃ n t result, n ≤ s.payer.inbox.length + 1 ∧
      Transition.exec (step ch) s
        (.hear event :: (List.replicate n .examine ++ [.conclude clock])) = some t ∧
      t.payer.stage = .closing result ∧
      (result.status = .ok ∨ result.status = .listenerError ∨ result.status = .badResponse) := by
  have hhear : step ch s (.hear event) =
      some { s with payer := { s.payer with inbox := s.payer.inbox ++ [event] } } := by
    refine if_pos ⟨hevent, ?_⟩
    rw [hawaiting]
    trivial
  obtain ⟨n, inbox, req', hn, hexamine⟩ := exists_exec_examine ch
    { s with payer := { s.payer with inbox := s.payer.inbox ++ [event] } } hawaiting hrequest
    (List.mem_append_right _ (List.mem_singleton.2 rfl)) hresponse
  -- the state in which the check concludes
  set u : Exchange := { s with payer := { s.payer with inbox := inbox, payload := some req' } }
  set result := ch.classify (wholeSeconds ((clock - u.payer.start) * 1000)) req'
  have hconclude : step ch u (.conclude clock) = some (u.close result) := by
    refine (if_pos hawaiting).trans ?_
    rfl
  refine ⟨n, u.close result, result, ?_, ?_, rfl, status_classify _ _⟩
  · rw [List.length_append, List.length_singleton] at hn
    exact hn
  · rw [Transition.exec, hhear, Option.bind_some, Transition.exec_append, hexamine]
    simp [Transition.exec, hconclude]

/-- The run without a fault: the check publishes its request, a relay delivers it, the server
replies and publishes its response. -/
theorem exists_awaiting {world world' world'' : World} {content content' : String}
    {nonce nonce' : Bytes} {calls : Calls} {reply : Reply} {id id' : EventId}
    (hregister : world.step ch.env (.registerSelftestPayer ch.payerPub) = some world')
    (hcontent : encryptTo ch.nip44 ch.ecc ch.payerKey ch.noffer.pubkey
      (ch.jsonDumps (checkRequest ch.noffer.offer)) nonce = some content)
    (hid : id' ≠ id) (hempty : world'.server.receipts.pending.entries = [])
    (hnew : ∀ k ∈ calls.createRequest, world'.server.Unknown k)
    (hserve : world'.step ch.env (.dispatch (ch.requestEvent world'.now id content) calls) =
      some world'')
    (hdispatch : (world'.server.dispatch ch.env calls world'.now
      (ch.requestEvent world'.now id content)).1 = some reply)
    (hspawned : reply.delivery = .spawned)
    (hcontent' : encryptTo ch.nip44 ch.ecc ch.serverKey ch.payerPub
      (ch.jsonDumps (reply.payload.toJson ch.bolt11Text)) nonce' = some content') :
    ∃ s request event, Reachable ch (start world) s ∧ s.payer.stage = .awaiting ∧
      s.payer.payload = none ∧ s.payer.inbox = [] ∧ s.payer.request = some request ∧
      event ∈ s.network ∧ event.pubkey = ch.serverPub ∧ request.id ∈ event.etags := by
  set request := ch.requestEvent world'.now id content
  set event : Event := ⟨id', ch.serverPub, clinkEventKind, wholeSeconds world''.now,
    Channel.responseTags ch.payerPub id, content'⟩
  have hrun : Transition.exec (step ch) (start world) [.register nonce 0, .connect (some true),
      .publish id, .published, .serve request calls, .respond 0 id' nonce'] =
        some ⟨world'', [request, event], [], ⟨.awaiting, content, 0, some request, [], none⟩,
          [⟨world', request, calls, reply⟩]⟩ := by
    have hregistered : step ch (start world) (.register nonce 0) =
        some ⟨world', [], [], ⟨.connecting, content, 0, none, [], none⟩, []⟩ := by
      rw [step, start, if_pos rfl, hcontent, Option.bind_some, hregister]
      rfl
    have hconnected : step ch ⟨world', [], [], ⟨.connecting, content, 0, none, [], none⟩, []⟩
        (.connect (some true)) =
          some ⟨world', [], [], ⟨.settling, content, 0, none, [], none⟩, []⟩ := rfl
    have hpublished : step ch ⟨world', [], [], ⟨.settling, content, 0, none, [], none⟩, []⟩
        (.publish id) = some ⟨world', [request], [],
          ⟨.publishing, content, 0, some request, [], none⟩, []⟩ := by
      -- nothing was published yet that the id could be confused with
      refine if_pos ⟨rfl, ?_, ?_, ?_⟩
      · rintro _ ⟨⟩
      · rintro _ ⟨⟩
      · rw [hempty]
        rintro _ ⟨⟩
    have hwaiting : step ch ⟨world', [request], [],
        ⟨.publishing, content, 0, some request, [], none⟩, []⟩ .published =
          some ⟨world', [request], [], ⟨.awaiting, content, 0, some request, [], none⟩, []⟩ := rfl
    have hserved : step ch ⟨world', [request], [],
        ⟨.awaiting, content, 0, some request, [], none⟩, []⟩ (.serve request calls) =
          some ⟨world'', [request], [(request, reply.payload)],
            ⟨.awaiting, content, 0, some request, [], none⟩,
            [⟨world', request, calls, reply⟩]⟩ := by
      refine (if_pos ⟨List.mem_singleton.2 rfl, hnew⟩).trans ?_
      rw [hserve, Option.map_some, afterServe, hdispatch]
      simp [hspawned]
    have hresponded : step ch ⟨world'', [request], [(request, reply.payload)],
        ⟨.awaiting, content, 0, some request, [], none⟩, [⟨world', request, calls, reply⟩]⟩
          (.respond 0 id' nonce') = some ⟨world'', [request, event], [],
            ⟨.awaiting, content, 0, some request, [], none⟩,
            [⟨world', request, calls, reply⟩]⟩ := by
      -- only the request was published so far
      have hfresh : FreshId ⟨world'', [request], [(request, reply.payload)],
          ⟨.awaiting, content, 0, some request, [], none⟩,
          [⟨world', request, calls, reply⟩]⟩ id' := by
        rintro e he
        rw [List.mem_singleton.1 he]
        exact hid.symm
      refine (if_pos hfresh).trans ?_
      rw [Channel.responseEvent]
      have hto : request.pubkey = ch.payerPub := rfl
      rw [hto, hcontent']
      rfl
    simp only [Transition.exec, hregistered, hconnected, hpublished, hwaiting, hserved, hresponded,
      Option.bind_some]
  exact ⟨_, request, event, Transition.reachable_of_exec hrun, rfl, rfl, rfl, rfl,
    List.mem_cons_of_mem _ (List.mem_singleton.2 rfl), rfl, List.mem_singleton.2 rfl⟩

/-- The world in which the payer of the sample is registered. -/
def sampleWorld : World :=
  (World.start 0 true (.sample 150 300)).perform Channel.sample.env
    (.registerSelftestPayer Channel.sample.payerPub)

/-- A nonce of zeros. -/
def zeroNonce : Bytes := List.replicate 32 0

/-- The request of a check over the offer `o`. -/
def sampleRequest : Request := ((∅ : Request).set "offer" (.str "o")).set "amount_sats" (.int 1)

/-- What the server of the sample replies to it, from its payer. -/
def sampleReply : Reply :=
  ((sampleWorld.server.gated 0 (Channel.sample.requestEvent 0 "e" "")).conclude Channel.sample.env
    (.succeeding "r") 0 (Channel.sample.requestEvent 0 "e" "") sampleRequest
    (sampleWorld.server.isSelftestPayer 0 Channel.sample.payerPub).1
    ((requestOfferId sampleRequest).bind sampleWorld.server.offers.get)
    (resolveRequest sampleRequest
      ((requestOfferId sampleRequest).bind sampleWorld.server.offers.get)
      (sampleWorld.server.reserver.availableSat sampleWorld.server.capacity 0) 1)).1

theorem sampleReply_eq : sampleReply = ⟨.success ⟨"r", 1, "CLINK offer", 0, 300⟩, .spawned⟩ := by
  decide +kernel

/-- The server of the sample replies to the request of its payer with an invoice. -/
theorem sample_dispatch {content : String} (h : Carries .sample content) :
    (sampleWorld.server.dispatch Channel.sample.env (.succeeding "r") 0
      (Channel.sample.requestEvent 0 "e" content)).1 = some sampleReply := by
  obtain ⟨req, hrequest, hreq⟩ := @decryptRequest_of_carries .sample Channel.lawful_sample
    (Channel.sample.requestEvent 0 "e" content) rfl h
  obtain rfl : sampleRequest = req := Option.some.inj hreq
  have hwindow : InWindow 0 (wholeSeconds 0) := by decide +kernel
  have haccepts : sampleWorld.server.Accepts Channel.sample.env 0
      (Channel.sample.requestEvent 0 "e" content) sampleRequest :=
    ⟨List.not_mem_nil, rfl, Channel.lawful_sample.distinct, rfl, hwindow, hrequest,
      List.not_mem_nil⟩
  -- the reply does not depend on the content
  rw [ClinkServer.dispatch_of_accepts haccepts]
  rfl


/-- In the run of the sample, the response to the request is published while the check waits. -/
theorem exists_awaiting_sample :
    ∃ s request event, Reachable .sample (start (.start 0 true (.sample 150 300))) s ∧
      s.payer.stage = .awaiting ∧ s.payer.payload = none ∧ s.payer.inbox = [] ∧
      s.payer.request = some request ∧ event ∈ s.network ∧
      event.pubkey = Channel.sample.serverPub ∧ request.id ∈ event.etags := by
  obtain ⟨n, m, hn, hm⟩ := Channel.exists_scalars Channel.lawful_sample
  have hnonce : zeroNonce.length = 32 := rfl
  obtain ⟨content, hcontent⟩ := @exists_encryptTo _ _ Nip44.lawful_reference Ecc.lawful_sample
    _ _ _ _ hm hn (Channel.sample.jsonDumps (checkRequest "o")) zeroNonce hnonce
    (by decide +kernel)
  have hpayload : Channel.sample.jsonDumps (sampleReply.payload.toJson Channel.sample.bolt11Text) =
      String.ofList (JsonText.dumps (.object [("bolt11", .str "lnbc10n1")])) := by
    rw [sampleReply_eq]
    decide +kernel
  obtain ⟨content', hcontent'⟩ := @exists_encryptTo _ _ Nip44.lawful_reference Ecc.lawful_sample
    _ _ _ _ hn hm (String.ofList (JsonText.dumps (.object [("bolt11", .str "lnbc10n1")])))
    zeroNonce hnonce (by decide +kernel)
  rw [← hpayload] at hcontent'
  have hregister : (World.start 0 true (.sample 150 300)).step Channel.sample.env
      (.registerSelftestPayer Channel.sample.payerPub) = some sampleWorld :=
    World.step_eq_some_iff.2 ⟨trivial, rfl⟩
  have hnew : ∀ k ∈ (Calls.succeeding "r").createRequest, sampleWorld.server.Unknown k := by
    rintro k ⟨⟩
    decide +kernel
  have henabled : sampleWorld.Enabled (.dispatch (Channel.sample.requestEvent 0 "e" content)
      (.succeeding "r")) := by
    refine ⟨rfl, ?_⟩
    rintro k ⟨⟩
    decide +kernel
  have hdelivery : sampleReply.delivery = .spawned := by rw [sampleReply_eq]
  exact exists_awaiting hregister hcontent (show "x" ≠ "e" by decide) rfl hnew
    (World.step_eq_some_iff.2 ⟨henabled, rfl⟩) (sample_dispatch ⟨_, hcontent⟩) hdelivery hcontent'

/-- The verdict of a check tells what the server decided about its request. -/
theorem checkNoffer_verdict (hch : ch.Lawful) {world : World}
    (hs : Reachable ch (start world) s) {result : CheckResult}
    (h : s.payer.stage.result = some result) : Tells ch s result :=
  (payerInv hch hs).result result h

/-- The sample's check, once its response is delivered. -/
theorem checkNoffer_verdict_sample :
    ∃ s result, s.payer.stage = .closing result ∧ Tells .sample s result ∧
      (result.status = .ok ∨ result.status = .listenerError ∨ result.status = .badResponse) := by
  obtain ⟨s, request, event, hs, hawaiting, -, -, hrequest, hevent, hpubkey, hnames⟩ :=
    exists_awaiting_sample
  obtain ⟨-, req, -, -, hresponse⟩ := exists_answer Channel.lawful_sample
    (networkInv Channel.lawful_sample hs) hrequest hevent hpubkey hnames
  obtain ⟨n, t, result, -, hrun, hclosing, hstatus⟩ :=
    exists_conclude s hawaiting hrequest hevent hresponse 0
  have ht := hs.exec (fun _ _ _ => trivial) hrun
  have hresult : t.payer.stage.result = some result := by
    rw [hclosing]
    rfl
  exact ⟨t, result, hclosing, checkNoffer_verdict Channel.lawful_sample ht hresult, hstatus⟩

/-- A response that was published reaches the check, whatever else was delivered to it before: once
the relay delivers it, the check looks at no more than it has been sent and ends with a verdict over
what the server sent. -/
theorem checkNoffer_answered (hch : ch.Lawful) {world : World}
    (hs : Reachable ch (start world) s) {request event : Event}
    (hawaiting : s.payer.stage = .awaiting) (hrequest : s.payer.request = some request)
    (hevent : event ∈ s.network) (hpubkey : event.pubkey = ch.serverPub)
    (hnames : request.id ∈ event.etags) (clock : Time) :
    ∃ n t result, n ≤ s.payer.inbox.length + 1 ∧
      Transition.exec (step ch) s
        (.hear event :: (List.replicate n .examine ++ [.conclude clock])) = some t ∧
      t.payer.stage = .closing result ∧ Tells ch t result ∧
      (result.status = .ok ∨ result.status = .listenerError ∨ result.status = .badResponse) := by
  have hnet := networkInv hch hs
  obtain ⟨-, req, -, -, hresponse⟩ := exists_answer hch hnet hrequest hevent hpubkey hnames
  obtain ⟨n, t, result, hn, hrun, hclosing, hstatus⟩ :=
    exists_conclude s hawaiting hrequest hevent hresponse clock
  have ht : Reachable ch (start world) t := hs.exec (fun _ _ _ => trivial) hrun
  refine ⟨n, t, result, hn, hrun, hclosing, (payerInv hch ht).result result ?_, hstatus⟩
  rw [hclosing]
  rfl

/-- The sample's check hears of the response that is published for it. -/
theorem checkNoffer_answered_sample :
    ∃ s event n t result, s.payer.stage = .awaiting ∧
      Transition.exec (step .sample) s
        (.hear event :: (List.replicate n .examine ++ [.conclude 0])) = some t ∧
      t.payer.stage = .closing result ∧ Tells .sample t result := by
  obtain ⟨s, request, event, hs, hawaiting, -, -, hrequest, hevent, hpubkey, hnames⟩ :=
    exists_awaiting_sample
  obtain ⟨n, t, result, -, hrun, hclosing, htells, -⟩ := checkNoffer_answered
    Channel.lawful_sample hs hawaiting hrequest hevent hpubkey hnames 0
  exact ⟨s, event, n, t, result, hawaiting, hrun, hclosing, htells⟩

end Exchange

end ElectrumClink
