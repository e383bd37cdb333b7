import ElectrumClink.Checks.Model
import ElectrumClink.Publish.Model
import ElectrumClink.Server.SelfTest
import ElectrumClink.Wire.Conversation
import ElectrumClink.Wire.JsonText

/-!
# A payer, a server and the relays between them

`check_noffer` plays payer: it publishes an encrypted request and waits for the encrypted reply. The
payer and the server meet on relays, where anybody publishes: what was published may be delivered to
either of them, at any time and any number of times, and nothing guarantees that it is.

`Exchange.step` performs what the check, the server or a relay does between two awaits. The server
is that of a `World`, with everything else that can happen to it; no two events have one id, and
nobody signs for somebody else.
-/

namespace ElectrumClink

/-! ## The wire -/

/-- The JSON of a payload; `bolt11Text` is the text of an invoice. -/
def Payload.toJson (bolt11Text : Bolt11 → String) : Payload → Json
  | .error code message range =>
    .object ([("code", .int code), ("error", .str message)] ++
      match range with
      | some (minSat, maxSat) =>
        [("range", .object [("min", .int minSat), ("max", .int maxSat)])]
      | none => [])
  | .success bolt11 => .object [("bolt11", .str (bolt11Text bolt11))]
  | .receipt => .object [("res", .str "ok")]

/-- Amount requested in the self-test. -/
def selftestAmountSat : ℤ := 1

/-- The JSON of the request of a check. -/
def checkRequest (offer : String) : Json :=
  .object [("offer", .str offer), ("amount_sats", .int selftestAmountSat)]

/-- The keys of both parties, the noffer that is checked, and the functions of libraries. -/
structure Channel where
  nip44 : Nip44
  ecc : Ecc
  serverKey : Bytes
  payerKey : Bytes
  noffer : Noffer
  /-- The string it was decoded from. -/
  nofferStr : String
  jsonDumps : Json → String
  /-- `json.loads`; `none` when it raises. -/
  jsonLoads : String → Option Json
  py : JsonBuiltins
  bolt11Text : Bolt11 → String
  /-- `Invoice.from_bech32`, or the text of the exception it raises. -/
  invoiceOf : String → Except String Bolt11
  /-- `event.is_expired()` at a moment; `none` when it raises. -/
  isExpired : Event → Time → Option Bool
  tables : CharTables

namespace Channel

variable (ch : Channel)

def serverPub : Pubkey := ch.ecc.publicKey ch.serverKey

def payerPub : Pubkey := ch.ecc.publicKey ch.payerKey

/-- What the server takes from outside. -/
def env : Env where
  pubkeyHex := ch.serverPub
  decryptFrom := decryptFrom ch.nip44 ch.ecc ch.serverKey
  jsonLoads := ch.jsonLoads
  isExpired := ch.isExpired
  tables := ch.tables

/-- A JSON value that one of the parties sends. -/
def Sent (j : Json) : Prop :=
  (∃ payload : Payload, j = payload.toJson ch.bolt11Text) ∨ ∃ offer, j = checkRequest offer

/-- What is relied on: the laws of the cipher and of the curve, valid and different keys, a noffer
of this server, and that JSON values and the amounts of invoices are read back as they were
written. -/
structure Lawful : Prop where
  nip44 : ch.nip44.Lawful
  ecc : ch.ecc.Lawful
  serverKey : (ch.ecc.secretScalar ch.serverKey).isSome = true
  payerKey : (ch.ecc.secretScalar ch.payerKey).isSome = true
  distinct : ch.payerPub ≠ ch.serverPub
  noffer : ch.noffer.pubkey = ch.serverPub
  jsonLoads_jsonDumps : ∀ j, ch.Sent j → ch.jsonLoads (ch.jsonDumps j) = some j
  invoiceOf_bolt11Text : ∀ bolt11, 0 < bolt11.amountSat →
    ∃ invoice, ch.invoiceOf (ch.bolt11Text bolt11) = .ok invoice ∧
      invoice.amountSat = bolt11.amountSat
  bolt11Text_ne : ∀ bolt11, ch.bolt11Text bolt11 ≠ ""
  str_str : ∀ s, ch.py.str (.str s) = s
  bool_str : ∀ s, ch.py.bool (.str s) = decide (s ≠ "")

/-- A server and a payer with the secrets 1 and 2; of an invoice, the text names the amount. -/
def sample : Channel where
  nip44 := .reference
  ecc := .sample
  serverKey := Bytes.toBigEndian 32 1
  payerKey := Bytes.toBigEndian 32 2
  noffer :=
    ⟨Ecc.sample.publicKey (Bytes.toBigEndian 32 1), "wss://r.example", "o", .spontaneous, none⟩
  nofferStr := "noffer1"
  jsonDumps j := String.ofList (JsonText.dumps j)
  jsonLoads := JsonText.loads
  py := .sample
  -- a sat is ten nano-bitcoins
  bolt11Text bolt11 := "lnbc" ++ (10 * bolt11.amountSat).repr ++ "n1"
  invoiceOf text :=
    .ok { (default : Bolt11) with amountSat := (JsonText.integer (text.toList.drop 4)).1 / 10 }
  isExpired _ _ := some false
  tables := Env.sample.tables

/-- Whatever is sent has a text that is read back. -/
theorem plain_of_sent {j : Json} (h : sample.Sent j) : JsonText.Plain j := by
  rcases h with ⟨payload, rfl⟩ | ⟨offer, rfl⟩
  · rcases payload with ⟨code, message, _ | ⟨minSat, maxSat⟩⟩ | bolt11 | _
    all_goals simp [Payload.toJson, JsonText.Plain, JsonText.PlainMembers]
  · simp [checkRequest, JsonText.Plain, JsonText.PlainMembers]

/-- The text of an invoice, by its characters. -/
theorem toList_sample_bolt11Text (bolt11 : Bolt11) :
    (sample.bolt11Text bolt11).toList =
      "lnbc".toList ++ ((10 * bolt11.amountSat).repr.toList ++ ['n', '1']) := by
  have htext : sample.bolt11Text bolt11 = "lnbc" ++ (10 * bolt11.amountSat).repr ++ "n1" := rfl
  rw [htext, String.toList_append, String.toList_append, List.append_assoc]
  rfl

theorem lawful_sample : sample.Lawful where
  nip44 := Nip44.lawful_reference
  ecc := Ecc.lawful_sample
  serverKey := by decide +kernel
  payerKey := by decide +kernel
  distinct := by decide +kernel
  noffer := rfl
  jsonLoads_jsonDumps j hj := JsonText.loads_dumps (plain_of_sent hj)
  invoiceOf_bolt11Text bolt11 _ := by
    refine ⟨_, rfl, ?_⟩
    have hdrop : ((sample.bolt11Text bolt11).toList.drop 4) =
        (10 * bolt11.amountSat).repr.toList ++ ['n', '1'] := by
      rw [toList_sample_bolt11Text]
      rfl
    change (JsonText.integer ((sample.bolt11Text bolt11).toList.drop 4)).1 / 10 = bolt11.amountSat
    rw [hdrop, JsonText.integer_repr _ (JsonText.noDigit_cons _ rfl)]
    exact Int.mul_ediv_cancel_left _ (by decide)
  bolt11Text_ne bolt11 hempty := by
    have hlist := toList_sample_bolt11Text bolt11
    rw [hempty] at hlist
    cases hlist
  str_str s := rfl
  bool_str s := rfl

/-- The tags of a response. -/
def responseTags (toPubkey : Pubkey) (requestEventId : EventId) : List (List String) :=
  [["p", toPubkey], ["e", requestEventId], ["clink_version", "1"]]

/-- `_encrypt_event_args` and the signature: the event of a response, unless the encryption
raises. -/
def responseEvent (now : Time) (id : EventId) (toPubkey : Pubkey) (requestEventId : EventId)
    (payload : Payload) (nonce : Bytes) : Option Event :=
  (encryptTo ch.nip44 ch.ecc ch.serverKey toPubkey
    (ch.jsonDumps (payload.toJson ch.bolt11Text)) nonce).map fun content =>
      ⟨id, ch.serverPub, clinkEventKind, wholeSeconds now, responseTags toPubkey requestEventId,
        content⟩

/-- `_make_listener_ping`: an event of the server to itself. -/
def pingEvent (now : Time) (id : EventId) (nonce : String) : Event :=
  ⟨id, ch.serverPub, clinkEventKind, wholeSeconds now, [["p", ch.serverPub]],
    ch.jsonDumps (.object [("clink_listener_ping", .str nonce)])⟩

/-- The request that a check publishes. -/
def requestEvent (now : Time) (id : EventId) (content : String) : Event :=
  ⟨id, ch.payerPub, clinkEventKind, wholeSeconds now,
    [["p", ch.noffer.pubkey], ["clink_version", "1"]], content⟩

end Channel

/-- The events that an event refers to. -/
def Event.etags (event : Event) : List EventId :=
  event.tags.filterMap fun tag =>
    match tag with
    | "e" :: id :: _ => some id
    | _ => none

/-! ## The payer -/

namespace Channel

variable (ch : Channel)

/-- The body of the loop of `_await_response`: the payload of an event, if it is a response to the
request. -/
def responseTo (requestId : EventId) (event : Event) : Option Request :=
  if event.pubkey ≠ ch.noffer.pubkey then none
  else if requestId ∉ event.etags then none
  else
    (decryptFrom ch.nip44 ch.ecc ch.payerKey ch.noffer.pubkey event.content).bind fun plaintext =>
      (ch.jsonLoads plaintext).bind Json.toRequest?

/-- The first characters of a text. -/
def cut (n : ℕ) (s : String) : String := String.ofList (s.toList.take n)

/-- `_validate_selftest_bolt11`: the problem with an invoice, if there is one. -/
def validateSelftestBolt11 (bolt11 : String) (amountSat : ℤ) : Option String :=
  match ch.invoiceOf bolt11 with
  | .error e => some s!"invoice does not parse: {cut 80 e}"
  | .ok invoice =>
    if invoice.amountSat ≠ amountSat then
      some s!"invoice amount {invoice.amountSat} sat != requested {amountSat} sat"
    else none

/-- A result of the check. -/
def result (status : CheckStatus) (detail : String) (rttMs : Option ℤ) (errorCode : Option ℤ) :
    CheckResult :=
  { noffer := ch.nofferStr, status := status, detail := detail, rttMs := rttMs,
    errorCode := errorCode }

/-- `code if isinstance(code, int) else None`: a `bool` is an `int`. -/
def codeOf : Option Json → Option ℤ
  | some (.int code) => some code
  | some (.bool b) => some (if b then 1 else 0)
  | _ => none

/-- `str(payload.get("error") or "")`. -/
def errorText : Option Json → String
  | none => ""
  | some value => if ch.py.bool value then ch.py.str value else ""

/-- The end of `_run_check`, once there is a payload. -/
def classify (rttMs : ℤ) (payload : Request) : CheckResult :=
  match payload.get? "bolt11" with
  | some (.str bolt11) =>
    if bolt11 = "" then other
    else
      match ch.validateSelftestBolt11 bolt11 selftestAmountSat with
      | some problem => ch.result .badResponse problem (some rttMs) none
      | none => ch.result .ok "" (some rttMs) none
  | _ => other
where
  other : CheckResult :=
    if "code" ∈ payload ∨ "error" ∈ payload then
      ch.result .listenerError (cut 120 (ch.errorText (payload.get? "error"))) (some rttMs)
        (codeOf (payload.get? "code"))
    else
      ch.result .badResponse "response carried neither an invoice nor an error" (some rttMs) none

end Channel

/-- Where a check is. -/
inductive PayerStage
  /-- Its payer is not registered. -/
  | idle
  /-- It awaits `manager.connect()`. -/
  | connecting
  /-- It subscribed and lets the subscription settle. -/
  | settling
  /-- It awaits `publish()`. -/
  | publishing
  /-- The request is published; it awaits the response task. -/
  | awaiting
  /-- It has its result and closes the manager. -/
  | closing (result : CheckResult)
  /-- Its payer is unregistered. -/
  | ended (result : CheckResult)
deriving DecidableEq

/-- A run of `check_noffer`. -/
structure Payer where
  stage : PayerStage
  /-- The encrypted request. -/
  content : String
  /-- The reading of the clock at the start of `_run_check`. -/
  start : Time
  /-- The event that it published. -/
  request : Option Event
  /-- What the subscription has yielded and `_await_response` has not looked at. -/
  inbox : List Event
  /-- What `_await_response` returned. -/
  payload : Option Request

/-- The response task runs. -/
def PayerStage.Listening : PayerStage → Prop
  | .settling | .publishing | .awaiting => True
  | _ => False

instance : (stage : PayerStage) → Decidable stage.Listening
  | .settling | .publishing | .awaiting => inferInstanceAs (Decidable True)
  | .idle | .connecting | .closing _ | .ended _ => inferInstanceAs (Decidable False)

/-! ## The exchange -/

/-- A call of `_dispatch` that replied. -/
structure Served where
  /-- The world in which the event was dispatched. -/
  world : World
  event : Event
  calls : Calls
  reply : Reply

/-- The server, the relays and the payer. -/
structure Exchange where
  world : World
  /-- The events that were published. -/
  network : List Event
  /-- The responses that are being published, with the requests they answer. -/
  outbox : List (Event × Payload)
  payer : Payer
  /-- The replies of the server; no step reads them. -/
  served : List Served

/-- What can happen next. -/
inductive ExchangeAction
  /-- Anything at the server that is not about an event or this payer. -/
  | world (a : Action)
  /-- Somebody else publishes an event. -/
  | inject (event : Event)
  /-- The server publishes a self-ping. -/
  | ping (id : EventId) (nonce : String)
  /-- A relay delivers an event to the server. -/
  | serve (event : Event) (calls : Calls)
  /-- The task of a response publishes it. -/
  | respond (i : ℕ) (id : EventId) (nonce : Bytes)
  /-- The task of a response ends without publishing it. -/
  | drop (i : ℕ)
  /-- The server publishes the receipt of an entry of its registry. -/
  | receipt (rhash : PaymentHash) (id : EventId) (nonce : Bytes)
  /-- The check encrypts its request and registers its payer. -/
  | register (nonce : Bytes) (clock : Time)
  /-- The connection is up or down, or connecting timed out. -/
  | connect (connected : Option Bool)
  /-- The check publishes its request. -/
  | publish (id : EventId)
  | published
  | publishFailed (repr : String)
  /-- A relay delivers an event to the payer. -/
  | hear (event : Event)
  /-- `_await_response` looks at the next event. -/
  | examine
  /-- The check goes on with what `_await_response` returned. -/
  | conclude (clock : Time)
  /-- There was no response in time. -/
  | timeout
  /-- Something raised. -/
  | raised (repr : String)
  /-- The check unregisters its payer. -/
  | unregister

namespace Exchange

variable (ch : Channel)

/-- Before the check. -/
def start (world : World) : Exchange :=
  ⟨world, [], [], ⟨.idle, "", 0, none, [], none⟩, []⟩

/-- No published event has this id. -/
def FreshId (s : Exchange) (id : EventId) : Prop := ∀ event ∈ s.network, event.id ≠ id

/-- Nothing refers to this id, neither a tag of an event nor an entry of the registry. -/
def Unmentioned (s : Exchange) (id : EventId) : Prop :=
  (∀ event ∈ s.network, id ∉ event.etags) ∧
    ∀ entry ∈ s.world.server.receipts.pending.entries, entry.2.req ≠ id

instance (s : Exchange) (id : EventId) : Decidable (s.FreshId id) :=
  inferInstanceAs (Decidable (∀ event ∈ s.network, event.id ≠ id))

instance (s : Exchange) (id : EventId) : Decidable (s.Unmentioned id) :=
  inferInstanceAs (Decidable ((∀ event ∈ s.network, id ∉ event.etags) ∧
    ∀ entry ∈ s.world.server.receipts.pending.entries, entry.2.req ≠ id))

/-- An event is published. -/
def publishEvent (s : Exchange) (event : Event) : Exchange :=
  { s with network := s.network ++ [event] }

/-- The check gets on. -/
def setStage (s : Exchange) (stage : PayerStage) : Exchange :=
  { s with payer := { s.payer with stage := stage } }

/-- The check has its result. -/
def close (s : Exchange) (result : CheckResult) : Exchange := s.setStage (.closing result)

/-- The server dispatched an event. -/
def afterServe (s : Exchange) (event : Event) (calls : Calls) (world : World) : Exchange :=
  match (s.world.server.dispatch ch.env calls s.world.now event).1 with
  | none => { s with world := world }
  | some reply =>
    { s with
      world := world
      outbox :=
        if reply.delivery = .spawned then s.outbox ++ [(event, reply.payload)] else s.outbox
      served := s.served ++ [⟨s.world, event, calls, reply⟩] }

/-- `_await_response` looks at an event: at one of the server only once it knows the id of the
request. -/
def examine (s : Exchange) : Option Exchange :=
  match s.payer.inbox with
  | [] => none
  | event :: inbox =>
    if s.payer.payload.isSome ∨ ¬ s.payer.stage.Listening then none
    else if event.pubkey ≠ ch.noffer.pubkey then
      some { s with payer := { s.payer with inbox := inbox } }
    else if s.payer.stage = .awaiting then
      s.payer.request.map fun request =>
        { s with payer :=
          { s.payer with inbox := inbox, payload := ch.responseTo request.id event } }
    else none

/-- Perform an action, if it is enabled. -/
def step (s : Exchange) : ExchangeAction → Option Exchange
  | .world a =>
    match a with
    | .dispatch _ _ => none
    | a =>
      if a.Foreign ch.payerPub then
        (s.world.step ch.env a).map fun world => { s with world := world }
      else none
  | .inject event =>
    if event.pubkey ≠ ch.payerPub ∧ event.pubkey ≠ ch.serverPub ∧ s.FreshId event.id then
      some (s.publishEvent event)
    else none
  | .ping id nonce =>
    if s.FreshId id then
      (s.world.step ch.env (.ping id)).map fun world =>
        { s with world := world }.publishEvent (ch.pingEvent s.world.now id nonce)
    else none
  | .serve event calls =>
    -- the wallet draws a hash at random
    if event ∈ s.network ∧ ∀ k ∈ calls.createRequest, s.world.server.Unknown k then
      (s.world.step ch.env (.dispatch event calls)).map (s.afterServe ch event calls)
    else none
  | .respond i id nonce =>
    (s.outbox[i]?).bind fun (request, payload) =>
      if s.FreshId id then
        (ch.responseEvent s.world.now id request.pubkey request.id payload nonce).map fun event =>
          { s with outbox := s.outbox.eraseIdx i }.publishEvent event
      else none
  | .drop i => if i < s.outbox.length then some { s with outbox := s.outbox.eraseIdx i } else none
  | .receipt rhash id nonce =>
    (s.world.server.receipts.lookup rhash).bind fun entry =>
      if entry.due = true ∧ s.FreshId id then
        (ch.responseEvent s.world.now id entry.payer entry.req .receipt nonce).map s.publishEvent
      else none
  | .register nonce clock =>
    if s.payer.stage = .idle then
      (encryptTo ch.nip44 ch.ecc ch.payerKey ch.noffer.pubkey
          (ch.jsonDumps (checkRequest ch.noffer.offer)) nonce).bind fun content =>
        (s.world.step ch.env (.registerSelftestPayer ch.payerPub)).map fun world =>
          { s with world := world, payer :=
            { s.payer with stage := .connecting, content := content, start := clock } }
    else none
  | .connect connected =>
    if s.payer.stage = .connecting then
      match connected with
      | none => some (s.close (ch.result .unreachable "connect timed out" none none))
      | some false =>
        some (s.close (ch.result .unreachable "could not connect to relay" none none))
      | some true => some (s.setStage .settling)
    else none
  | .publish id =>
    if s.payer.stage = .settling ∧ s.FreshId id ∧ s.Unmentioned id then
      let request := ch.requestEvent s.world.now id s.payer.content
      some { s.publishEvent request with
        payer := { s.payer with stage := .publishing, request := some request } }
    else none
  | .published =>
    if s.payer.stage = .publishing then some (s.setStage .awaiting) else none
  | .publishFailed repr =>
    if s.payer.stage = .settling ∨ s.payer.stage = .publishing then
      some (s.close (ch.result .publishFailed
        s!"relay did not accept the request: {Channel.cut 120 repr}" none none))
    else none
  | .hear event =>
    if event ∈ s.network ∧ s.payer.stage.Listening then
      some { s with payer := { s.payer with inbox := s.payer.inbox ++ [event] } }
    else none
  | .examine => s.examine ch
  | .conclude clock =>
    if s.payer.stage = .awaiting then
      s.payer.payload.map fun payload =>
        s.close (ch.classify (wholeSeconds ((clock - s.payer.start) * 1000)) payload)
    else none
  | .timeout =>
    if s.payer.stage = .awaiting then
      some (s.close (ch.result .noResponse "no reply before the timeout" none none))
    else none
  | .raised repr =>
    if s.payer.stage.Listening ∨ s.payer.stage = .connecting then
      some (s.close (ch.result .error repr none none))
    else none
  | .unregister =>
    match s.payer.stage with
    | .closing result =>
      (s.world.step ch.env (.unregisterSelftestPayer ch.payerPub)).map fun world =>
        { s with world := world }.setStage (.ended result)
    | _ => none

/-- The states that a run reaches from `init`. -/
abbrev Reachable (init : Exchange) : Exchange → Prop :=
  Transition.Reachable (step ch) (fun _ _ => True) init

end Exchange

end ElectrumClink
