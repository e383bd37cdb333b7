import ElectrumClink.Offers.Session

/-!
# Sessions of the relay functions

`pick_payable_relay` awaits its probes while it holds its lock, and `create_offer` awaits the pick
or the probe of its own relay. Anything else may happen meanwhile: other calls, changes of a
setting, a rebuild of the listener's relay manager, the lapse of the cached pick.
`RelaySession.step` performs one piece of a call, from one await to the next.

The relay manager is told the relays to sit on when `get_relay_manager` builds it and when
`ensure_listener_relays` finds one missing; it keeps their URLs as `normalize_url` spells them.
Which of them it reaches is left open.

* `serverMove_step`: what a step may do to the server.
* `exists_reachable_of_server`: the calls of the atomic model are those during which nothing else
  happens.
-/

namespace ElectrumClink

/-! ## The calls in pieces -/

namespace RelayServer

variable {b : Bech32} {tables : UrlTables} {s : RelayServer} {call : CreateCall}

/-- `create_offer`, once the pick has returned. -/
def createFrom (b : Bech32) (tables : UrlTables) (s : RelayServer) (call : CreateCall)
    (selection : RelaySelection) : Except CallError CreatedOffer × RelayServer :=
  if !selection.ok || selection.relay == "" then
    let tried := ", ".intercalate (selection.results.map ProbeResult.relay)
    let tried := if tried = "" then "(none configured)" else tried
    (.error (.userFacing ("No Nostr relay accepted a test payment request, so the offer " ++
      "would not be payable and was not created. Tried: " ++ tried ++ ". " ++
      "Set a working relay in the CLINK settings and try again.")), s)
  else
    let added := s.addOffer b tables.toCharTables call selection.relay false
    (added.1.map fun (offer, noffer) =>
      ⟨offer.offerId, offer.label, offer.allowPayerMemo, noffer, offer.relay, true⟩, added.2)

/-- `_create_offer_custom_relay`, once the probe of its relay has returned. -/
def createCustomFrom (b : Bech32) (tables : UrlTables) (s : RelayServer) (call : CreateCall)
    (relay : String) (probe : ProbeResult) : Except CallError CreatedOffer × RelayServer :=
  if !probe.ok then
    let detail := if probe.detail = "" then "" else ": " ++ probe.detail
    (.error (.userFacing ("Relay " ++ relay ++ " failed the payability check (" ++
      probe.status.value ++ detail ++ "). The offer was not created.")), s)
  else
    let added := s.addOffer b tables.toCharTables call relay true
    (added.1.map fun (offer, noffer) =>
      ⟨offer.offerId, offer.label, offer.allowPayerMemo, noffer, relay, true⟩, added.2)

/-- `create_offer` without a custom relay is a pick and what follows it. -/
theorem createOffer_eq_createFrom (h : tables.stripText call.relay = "") :
    s.createOffer b tables call =
      match s.pickPayableRelay tables.toCharTables false call.clock call.probes with
      | (.error e, s) => (.error e, s)
      | (.ok selection, s) => s.createFrom b tables call selection := by
  unfold createOffer
  dsimp only
  rw [if_neg (not_not.2 h)]
  rfl

/-- `_create_offer_custom_relay` is a check of the URL, a probe and what follows it. -/
theorem createOfferCustomRelay_eq_createCustomFrom (relay : String) :
    s.createOfferCustomRelay b tables relay call =
      match normalizeRelayUrl tables relay with
      | .error e => (.error (.python e), s)
      | .ok relay =>
        match probeRelayPayable call.probes 0 relay with
        | .error e => (.error e, s)
        | .ok probe => s.createCustomFrom b tables call relay probe := by
  rfl

end RelayServer

/-! ## The state -/

/-- Who awaits a pick. -/
inductive PickCaller
  | createOffer (call : CreateCall)
  /-- `ensure_offer_relays_pinned`, or a call of `pick_payable_relay` itself. -/
  | other

/-- A pick that holds `_relay_pick_lock` and awaits its probes. -/
structure OpenPick where
  pending : RelayServer.PendingPick
  caller : PickCaller
  /-- How often `restart_event_handler` had been called when the call began. -/
  restarts : ℕ

/-- A `_create_offer_custom_relay` that awaits the probe of its relay. -/
structure OpenCustom where
  call : CreateCall
  /-- The relay, normalized. -/
  relay : String
  restarts : ℕ

/-- The relay manager of the listener. -/
structure ListenerManager where
  /-- The relays that it was last told to sit on. -/
  relays : List String
  /-- The default relay and the number of requested restarts, when the manager was last told its
  relays or found to sit on all that it should. No step reads them. -/
  defaultRelay : String
  restarts : ℕ
deriving DecidableEq

/-- A pick that returned, as the steps write it down; no step reads it. -/
structure PickReturn where
  selection : RelaySelection
  /-- The candidates that the call found. -/
  candidates : List String
  /-- The candidates in force when it returned. -/
  candidatesNow : List String
  /-- The results of the probes that this very call made. -/
  probed : List ProbeResult
  /-- Whether an offer without a relay is left. -/
  unpinned : Bool

/-- A `create_offer` that returned an offer, as the steps write it down; no step reads it. -/
structure Creation where
  relay : String
  /-- Whether `restart_event_handler` was called during the call. -/
  restarted : Bool
  /-- Whether the relay manager sat on the relay when the call returned. -/
  covered : Bool

/-- A server with the calls that are under way and its relay manager. -/
structure RelaySession where
  server : RelayServer
  /-- The pick that holds the lock. -/
  pick : Option OpenPick
  customs : List OpenCustom
  manager : Option ListenerManager
  returns : List PickReturn
  creations : List Creation

/-- A piece of a call, with what it meets outside the server, or a change of a setting. -/
inductive SessionAction
  /-- `create_offer` for an automatic pick gets the lock. -/
  | create (call : CreateCall)
  /-- Another call of `pick_payable_relay` gets the lock. -/
  | pick (force : Bool) (clock : ℕ → Time)
  /-- The probes of the open pick return. -/
  | probed (probes : Probes)
  /-- `create_offer` for a custom relay starts. -/
  | createCustom (call : CreateCall)
  /-- The probe of an open custom relay returns. -/
  | probedCustom (i : ℕ)
  | removeOffer (offerId : String) (clock : ℕ → Time)
  | setLabel (offerId label : String)
  | setActive (offerId : String) (active : Bool)
  | setAllowPayerMemo (offerId : String) (allow : Bool)
  | pinMissingRelays (relay : String)
  | setRelay (relay : String)
  | setNostrRelays (relays : List String)
  /-- `get_relay_manager`. -/
  | buildManager (now : Time)
  /-- `ensure_listener_relays`. -/
  | ensureListener (now : Time)
  /-- A new server over the same storage. -/
  | restart

namespace RelaySession

/-- A server that just started. -/
def start (server : RelayServer) : RelaySession := ⟨server, none, [], none, [], []⟩

/-- Whether the relay manager sits on a relay. -/
def covers (normalizeUrl : String → String) (s : RelaySession) (relay : String) : Bool :=
  s.manager.any fun m => decide (normalizeUrl relay ∈ m.relays)

/-- What is written down of a pick that leaves this server. -/
def pickReturn (tables : CharTables) (server : RelayServer) (selection : RelaySelection)
    (candidates : List String) (probed : List ProbeResult) : PickReturn where
  selection := selection
  candidates := candidates
  candidatesNow := server.candidateRelays tables
  probed := probed
  unpinned := server.offers.list.any (SavedOffers.lacksRelay tables)

section

variable {tables : CharTables} {server : RelayServer} {selection : RelaySelection}
  {candidates : List String} {probed : List ProbeResult}

@[simp]
theorem pickReturn_selection :
    (pickReturn tables server selection candidates probed).selection = selection := by
  rw [pickReturn]

@[simp]
theorem pickReturn_candidates :
    (pickReturn tables server selection candidates probed).candidates = candidates := by
  rw [pickReturn]

@[simp]
theorem pickReturn_candidatesNow :
    (pickReturn tables server selection candidates probed).candidatesNow =
      server.candidateRelays tables := by
  rw [pickReturn]

@[simp]
theorem pickReturn_probed :
    (pickReturn tables server selection candidates probed).probed = probed := by
  rw [pickReturn]

@[simp]
theorem pickReturn_unpinned :
    (pickReturn tables server selection candidates probed).unpinned =
      server.offers.list.any (SavedOffers.lacksRelay tables) := by
  rw [pickReturn]

end

/-- Write down a pick that returned. -/
def recordPick (tables : CharTables) (s : RelaySession) (selection : RelaySelection)
    (candidates : List String) (probed : List ProbeResult) : RelaySession :=
  { s with returns := s.returns ++ [pickReturn tables s.server selection candidates probed] }

/-- Write down what `create_offer` returned, if it did not raise. -/
def recordCreation (normalizeUrl : String → String) (s : RelaySession) (restarts : ℕ)
    (result : Except CallError CreatedOffer) : RelaySession :=
  match result with
  | .error _ => s
  | .ok created =>
    { s with
      creations := s.creations ++
        [⟨created.relay, decide (restarts < s.server.restarts),
          s.covers normalizeUrl created.relay⟩] }

/-- Who awaited the pick goes on. -/
def resume (b : Bech32) (tables : UrlTables) (normalizeUrl : String → String) (s : RelaySession)
    (caller : PickCaller) (restarts : ℕ) (selection : RelaySelection) : RelaySession :=
  match caller with
  | .other => s
  | .createOffer call =>
    let result := s.server.createFrom b tables call selection
    recordCreation normalizeUrl { s with server := result.2 } restarts result.1

/-- `pick_payable_relay`, from the lock to its probes or to its return. -/
def beginPick (b : Bech32) (tables : UrlTables) (normalizeUrl : String → String) (s : RelaySession)
    (caller : PickCaller) (force : Bool) (clock : ℕ → Time) : RelaySession :=
  match s.server.pickBegin tables.toCharTables force clock with
  | (.cached sel, server) =>
    -- no await: whoever called goes on at once
    let t := recordPick tables.toCharTables { s with server := server } sel
      (s.server.candidateRelays tables.toCharTables) []
    t.resume b tables normalizeUrl caller s.server.restarts sel
  | (.probing pending, server) =>
    { s with server := server, pick := some ⟨pending, caller, s.server.restarts⟩ }

/-- `pick_payable_relay`, from the results of its probes on. -/
def endPick (b : Bech32) (tables : UrlTables) (normalizeUrl : String → String) (s : RelaySession)
    (pick : OpenPick) (probes : Probes) : RelaySession :=
  match selectPayableRelay tables.toCharTables pick.pending.candidates probes with
  -- a probe raised: the lock is released, and the exception ends the call
  | .error _ => { s with pick := none }
  | .ok sel =>
    let server := s.server.pickFinish tables.toCharTables pick.pending sel
    let t := recordPick tables.toCharTables { s with server := server, pick := none } sel
      pick.pending.candidates sel.results
    t.resume b tables normalizeUrl pick.caller pick.restarts sel

/-- `_create_offer_custom_relay`, up to the probe. -/
def beginCustom (tables : UrlTables) (s : RelaySession) (call : CreateCall) : RelaySession :=
  match normalizeRelayUrl tables (tables.stripText call.relay) with
  | .error _ => s
  | .ok relay => { s with customs := s.customs ++ [⟨call, relay, s.server.restarts⟩] }

/-- `_create_offer_custom_relay`, from the probe on. -/
def endCustom (b : Bech32) (tables : UrlTables) (normalizeUrl : String → String) (s : RelaySession)
    (custom : OpenCustom) : RelaySession :=
  match probeRelayPayable custom.call.probes 0 custom.relay with
  | .error _ => s
  | .ok probe =>
    let result := s.server.createCustomFrom b tables custom.call custom.relay probe
    recordCreation normalizeUrl { s with server := result.2 } custom.restarts result.1

/-- The manager sits on what `listen_relay_urls` returns. -/
def managerFor (tables : CharTables) (normalizeUrl : String → String) (s : RelaySession)
    (now : Time) : ListenerManager where
  relays := (s.server.listenRelayUrls tables now).map normalizeUrl
  defaultRelay := s.server.effectiveRelay tables now
  restarts := s.server.restarts

/-- `ensure_listener_relays`: the relays of the manager change when one is missing. -/
def ensureListenerRelays (tables : CharTables) (normalizeUrl : String → String) (s : RelaySession)
    (now : Time) : RelaySession :=
  match s.manager with
  | none => s
  | some m =>
    let desired := s.managerFor tables normalizeUrl now
    -- `update_relays` replaces the whole list as soon as one relay is missing
    let relays := if desired.relays ⊆ m.relays then m.relays else desired.relays
    { s with manager := some { desired with relays := relays } }

/-- Perform an action, if it is enabled. -/
def step (b : Bech32) (tables : UrlTables) (normalizeUrl : String → String) (s : RelaySession) :
    SessionAction → Option RelaySession
  | .create call =>
    -- the lock is free, so the call gets as far as its probes
    if tables.stripText call.relay = "" ∧ s.pick.isNone then
      some (s.beginPick b tables normalizeUrl (.createOffer call) false call.clock)
    else none
  | .pick force clock =>
    if s.pick.isNone then some (s.beginPick b tables normalizeUrl .other force clock) else none
  | .probed probes => s.pick.map fun pick => s.endPick b tables normalizeUrl pick probes
  | .createCustom call =>
    if tables.stripText call.relay ≠ "" then some (s.beginCustom tables call) else none
  | .probedCustom i =>
    s.customs[i]?.map fun custom =>
      -- custom relays are probed without the lock, so any of the open calls may go on
      endCustom b tables normalizeUrl { s with customs := s.customs.eraseIdx i } custom
  | .removeOffer offerId clock =>
    some { s with server := (s.server.removeOffer tables.toCharTables offerId clock).2 }
  | .setLabel offerId label =>
    some { s with
      server := { s.server with offers := (s.server.offers.setLabel offerId label).2 } }
  | .setActive offerId active =>
    some { s with
      server := { s.server with offers := (s.server.offers.setActive offerId active).2 } }
  | .setAllowPayerMemo offerId allow =>
    some { s with
      server := { s.server with offers := (s.server.offers.setAllowPayerMemo offerId allow).2 } }
  | .pinMissingRelays relay =>
    some { s with
      server :=
        { s.server with
          offers := (s.server.offers.pinMissingRelays tables.toCharTables relay).2 } }
  | .setRelay relay => some { s with server := s.server.setRelay relay }
  | .setNostrRelays relays => some { s with server := { s.server with nostrRelays := relays } }
  | .buildManager now =>
    some { s with manager := some (s.managerFor tables.toCharTables normalizeUrl now) }
  | .ensureListener now => some (s.ensureListenerRelays tables.toCharTables normalizeUrl now)
  | .restart =>
    s.server.restart.toOption.map fun server =>
      { start server with returns := s.returns, creations := s.creations }

/-- The states that a run of actions that meet `P` reaches. -/
abbrev Reachable (b : Bech32) (tables : UrlTables) (normalizeUrl : String → String)
    (P : RelaySession → SessionAction → Prop) (init : RelaySession) : RelaySession → Prop :=
  Transition.Reachable (step b tables normalizeUrl) P init

/-! ## What a step does to the server -/

section

variable {b : Bech32} {tables : UrlTables} {normalizeUrl : String → String}
  {s s' : RelaySession} {a : SessionAction}

/-- The call of `create_offer` that a step starts or goes on with. -/
def Calls (s : RelaySession) (a : SessionAction) (call : CreateCall) : Prop :=
  match a with
  | .create c => c = call
  | .probed _ => ∃ pick, s.pick = some pick ∧ pick.caller = .createOffer call
  | .probedCustom i => ∃ custom, s.customs[i]? = some custom ∧ custom.call = call
  | _ => False

/-- The selection that a step picks: the cached one, or what the probes of the open pick yield. -/
inductive Selects (tables : CharTables) (s : RelaySession) (a : SessionAction)
    (sel : RelaySelection) : Prop
  | cached (h : s.server.relaySelection = some sel)
  | probed (pick : OpenPick) (probes : Probes) (hpick : s.pick = some pick)
      (haction : a = .probed probes)
      (h : selectPayableRelay tables pick.pending.candidates probes = .ok sel)

/-- What a step may do to the server. -/
inductive ServerMove (b : Bech32) (tables : UrlTables) (s : RelaySession) (a : SessionAction) :
    RelayServer → Prop
  | stays : ServerMove b tables s a s.server
  | picks {sel : RelaySelection} {t : RelayServer} (hsel : s.Selects tables.toCharTables a sel)
      (hpicked : RelayServer.Picked tables.toCharTables s.server t sel) : ServerMove b tables s a t
  /-- An offer is added, after a pick or without one. -/
  | adds {call : CreateCall} {t : RelayServer} (relay : String) (relayCustom : Bool)
      (hcall : s.Calls a call)
      (hstart : t = s.server ∨ ∃ sel, s.Selects tables.toCharTables a sel ∧
        RelayServer.Picked tables.toCharTables s.server t sel) :
      ServerMove b tables s a (t.addOffer b tables.toCharTables call relay relayCustom).2
  | removes (offerId : String) (clock : ℕ → Time) (haction : a = .removeOffer offerId clock) :
      ServerMove b tables s a (s.server.removeOffer tables.toCharTables offerId clock).2
  /-- A setter leaves the id and the relay of its offer alone. -/
  | updates (offerId : String) (f : Offer → Offer)
      (hf : ∀ o, (f o).offerId = o.offerId ∧ (f o).relay = o.relay) :
      ServerMove b tables s a { s.server with offers := (s.server.offers.update offerId f).2 }
  | pins (relay : String) (haction : a = .pinMissingRelays relay) :
      ServerMove b tables s a
        { s.server with
          offers := (s.server.offers.pinMissingRelays tables.toCharTables relay).2 }
  | setsRelay (relay : String) (haction : a = .setRelay relay) :
      ServerMove b tables s a (s.server.setRelay relay)
  | setsNostrRelays (relays : List String) (haction : a = .setNostrRelays relays) :
      ServerMove b tables s a { s.server with nostrRelays := relays }
  | restarts {t : RelayServer} (haction : a = .restart) (h : s.server.restart = .ok t) :
      ServerMove b tables s a t

@[simp]
theorem recordCreation_server (restarts : ℕ) (result : Except CallError CreatedOffer) :
    (s.recordCreation normalizeUrl restarts result).server = s.server := by
  rcases result with e | created <;> rfl

/-- After a pick, `create_offer` refuses or adds an offer; if it returns, what it returns names the
relay of that offer. -/
theorem createFrom_cases (b : Bech32) (tables : UrlTables) (server : RelayServer)
    (call : CreateCall) (sel : RelaySelection) :
    (∃ e, (server.createFrom b tables call sel).1 = .error e ∧
      (server.createFrom b tables call sel).2 = server) ∨
    sel.relay ≠ "" ∧
      (server.createFrom b tables call sel).2 =
        (server.addOffer b tables.toCharTables call sel.relay false).2 ∧
      ∀ created, (server.createFrom b tables call sel).1 = .ok created →
        created.relay = tables.stripText sel.relay := by
  unfold RelayServer.createFrom
  split
  next => exact .inl ⟨_, rfl, rfl⟩
  next haccepted =>
    rw [Bool.or_eq_true, not_or, beq_iff_eq] at haccepted
    refine .inr ⟨haccepted.2, ?_, fun created hcreated => ?_⟩
    · dsimp only
    · unfold RelayServer.addOffer RelayServer.storeOffer at hcreated
      dsimp only at hcreated
      split at hcreated
      next =>
        obtain rfl := Except.ok.inj hcreated
        rfl
      next => cases hcreated

/-- After the probe of its relay, the call refuses or adds an offer. -/
theorem createCustomFrom_cases (b : Bech32) (tables : UrlTables) (server : RelayServer)
    (call : CreateCall) (relay : String) (probe : ProbeResult) :
    (∃ e, (server.createCustomFrom b tables call relay probe).1 = .error e ∧
      (server.createCustomFrom b tables call relay probe).2 = server) ∨
    (server.createCustomFrom b tables call relay probe).2 =
        (server.addOffer b tables.toCharTables call relay true).2 ∧
      ∀ created, (server.createCustomFrom b tables call relay probe).1 = .ok created →
        created.relay = relay := by
  unfold RelayServer.createCustomFrom
  split
  next => exact .inl ⟨_, rfl, rfl⟩
  next =>
    refine .inr ⟨?_, fun created hcreated => ?_⟩
    · dsimp only
    · dsimp only at hcreated
      rcases hadd : (server.addOffer b tables.toCharTables call relay true).1 with e | added
      · rw [hadd] at hcreated
        cases hcreated
      · rw [hadd] at hcreated
        obtain rfl := Except.ok.inj hcreated
        rfl

/-- Only a call of `create_offer` goes on after its pick. -/
theorem resume_server (b : Bech32) (tables : UrlTables) (normalizeUrl : String → String)
    (t : RelaySession) (caller : PickCaller) (restarts : ℕ) (sel : RelaySelection) :
    (t.resume b tables normalizeUrl caller restarts sel).server = t.server ∨
      ∃ call, caller = .createOffer call ∧
        (t.resume b tables normalizeUrl caller restarts sel).server =
          (t.server.addOffer b tables.toCharTables call sel.relay false).2 := by
  rcases caller with call | _
  · have hserver : (t.resume b tables normalizeUrl (.createOffer call) restarts sel).server =
        (t.server.createFrom b tables call sel).2 := recordCreation_server _ _
    rw [hserver]
    rcases createFrom_cases b tables t.server call sel with ⟨e, -, h⟩ | ⟨-, h, -⟩
    · exact .inl h
    · exact .inr ⟨call, rfl, h⟩
  · exact .inl rfl

/-- What is written down of a pick leaves the server. -/
theorem serverMove_resume {t : RelaySession} {caller : PickCaller} {restarts : ℕ}
    {sel : RelaySelection} (hcaller : ∀ call, caller = .createOffer call → s.Calls a call)
    (hsel : s.Selects tables.toCharTables a sel)
    (hpicked : RelayServer.Picked tables.toCharTables s.server t.server sel) :
    ServerMove b tables s a (t.resume b tables normalizeUrl caller restarts sel).server := by
  rcases resume_server b tables normalizeUrl t caller restarts sel with h | ⟨call, hcall, h⟩
  · rw [h]
    exact .picks hsel hpicked
  · rw [h]
    exact .adds _ _ (hcaller call hcall) (.inr ⟨sel, hsel, hpicked⟩)

theorem serverMove_beginPick {caller : PickCaller} {force : Bool} {clock : ℕ → Time}
    (hcaller : ∀ call, caller = .createOffer call → s.Calls a call) :
    ServerMove b tables s a
      (s.beginPick b tables normalizeUrl caller force clock).server := by
  rcases RelayServer.pickBegin_cases tables.toCharTables s.server force clock with
    ⟨sel, t, -, hfresh, hbegin, hpicked⟩ | ⟨-, hbegin⟩
  · have hsel := RelayServer.relaySelection_of_freshSelection hfresh
    unfold beginPick
    rw [hbegin]
    exact serverMove_resume hcaller (.cached hsel) hpicked
  · unfold beginPick
    rw [hbegin]
    exact .stays

theorem serverMove_endPick {pick : OpenPick} {probes : Probes} (hpick : s.pick = some pick) :
    ServerMove b tables s (.probed probes)
      (s.endPick b tables normalizeUrl pick probes).server := by
  unfold endPick
  split
  next => exact .stays
  next sel hselect =>
    refine serverMove_resume (fun call hcall => ⟨pick, hpick, hcall⟩)
      (.probed pick probes hpick rfl hselect) ?_
    exact RelayServer.picked_pickFinish pick.pending sel

theorem serverMove_endCustom {i : ℕ} {custom : OpenCustom} (hcustom : s.customs[i]? = some custom) :
    ServerMove b tables s (.probedCustom i)
      (endCustom b tables normalizeUrl
        { s with customs := s.customs.eraseIdx i } custom).server := by
  unfold endCustom
  split
  next => exact .stays
  next probe hprobe =>
    dsimp only
    rw [recordCreation_server]
    dsimp only
    rcases createCustomFrom_cases b tables s.server custom.call custom.relay probe with
      ⟨e, -, h⟩ | ⟨h, -⟩
    · rw [h]
      exact .stays
    · rw [h]
      exact .adds _ _ ⟨custom, hcustom, rfl⟩ (.inl rfl)

/-- What a step does to the server. -/
theorem serverMove_step (h : step b tables normalizeUrl s a = some s') :
    ServerMove b tables s a s'.server := by
  rcases a with call | ⟨force, clock⟩ | probes | call | i | ⟨offerId, clock⟩ | ⟨offerId, label⟩ |
    ⟨offerId, active⟩ | ⟨offerId, allow⟩ | relay | relay | relays | now | now | _
  case create =>
    obtain ⟨-, hstep⟩ := Option.ite_none_right_eq_some.1 h
    obtain rfl := Option.some.inj hstep
    exact serverMove_beginPick fun c hc => PickCaller.createOffer.inj hc
  case pick =>
    obtain ⟨-, hstep⟩ := Option.ite_none_right_eq_some.1 h
    obtain rfl := Option.some.inj hstep
    exact serverMove_beginPick fun c hc => nomatch hc
  case probed =>
    obtain ⟨pick, hpick, rfl⟩ := Option.map_eq_some_iff.1 h
    exact serverMove_endPick hpick
  case createCustom =>
    obtain ⟨-, hstep⟩ := Option.ite_none_right_eq_some.1 h
    obtain rfl := Option.some.inj hstep
    unfold beginCustom
    split <;> exact .stays
  case probedCustom =>
    obtain ⟨custom, hcustom, rfl⟩ := Option.map_eq_some_iff.1 h
    exact serverMove_endCustom hcustom
  -- the remaining actions are over in one piece
  case removeOffer =>
    obtain rfl := Option.some.inj h
    exact .removes offerId clock rfl
  case setLabel =>
    obtain rfl := Option.some.inj h
    exact .updates offerId _ fun o => ⟨rfl, rfl⟩
  case setActive =>
    obtain rfl := Option.some.inj h
    exact .updates offerId _ fun o => ⟨rfl, rfl⟩
  case setAllowPayerMemo =>
    obtain rfl := Option.some.inj h
    exact .updates offerId _ fun o => ⟨rfl, rfl⟩
  case pinMissingRelays =>
    obtain rfl := Option.some.inj h
    exact .pins relay rfl
  case setRelay =>
    obtain rfl := Option.some.inj h
    exact .setsRelay relay rfl
  case setNostrRelays =>
    obtain rfl := Option.some.inj h
    exact .setsNostrRelays relays rfl
  case buildManager =>
    obtain rfl := Option.some.inj h
    exact .stays
  case ensureListener =>
    obtain rfl := Option.some.inj h
    unfold ensureListenerRelays
    split <;> exact .stays
  case restart =>
    obtain ⟨t, ht, rfl⟩ := Option.map_eq_some_iff.1 h
    refine .restarts rfl ?_
    rcases hrestart : s.server.restart with e | u
    · rw [hrestart] at ht
      cases ht
    · rw [hrestart] at ht
      exact congrArg Except.ok (Option.some.inj ht)

/-! ## Calls during which nothing else happens -/

/-- No call is under way. -/
structure Idle (s : RelaySession) : Prop where
  pick : s.pick = none
  customs : s.customs = []

/-- A run of one call, from one idle state to the next, ends with this server. -/
def RunsTo (b : Bech32) (tables : UrlTables) (normalizeUrl : String → String) (s : RelaySession)
    (server : RelayServer) : Prop :=
  ∃ as t, Transition.exec (step b tables normalizeUrl) s as = some t ∧ Idle t ∧ t.server = server

theorem runsTo_self (hidle : Idle s) : RunsTo b tables normalizeUrl s s.server :=
  ⟨[], s, rfl, hidle, rfl⟩

/-- One action that is enabled is a run. -/
theorem runsTo_of_step (h : step b tables normalizeUrl s a = some s') (hidle : Idle s') :
    RunsTo b tables normalizeUrl s s'.server := by
  refine ⟨[a], s', ?_, hidle, rfl⟩
  rw [Transition.exec, h]
  rfl

/-- So is an action that only changes the server. -/
theorem runsTo_of_server {server : RelayServer}
    (h : step b tables normalizeUrl s a = some { s with server := server }) (hidle : Idle s) :
    RunsTo b tables normalizeUrl s server :=
  runsTo_of_step h ⟨hidle.pick, hidle.customs⟩

theorem idle_recordCreation {restarts : ℕ} {result : Except CallError CreatedOffer}
    (hidle : Idle s) : Idle (s.recordCreation normalizeUrl restarts result) := by
  rcases result with e | created
  · exact hidle
  · exact ⟨hidle.pick, hidle.customs⟩

theorem idle_resume {caller : PickCaller} {restarts : ℕ} {sel : RelaySelection} (hidle : Idle s) :
    Idle (s.resume b tables normalizeUrl caller restarts sel) := by
  rcases caller with call | _
  · exact idle_recordCreation ⟨hidle.pick, hidle.customs⟩
  · exact hidle

/-- What the caller of a pick leaves. -/
def resumed (b : Bech32) (tables : UrlTables) (caller : PickCaller)
    (result : Except CallError RelaySelection × RelayServer) : RelayServer :=
  match caller, result with
  | .createOffer call, (.ok sel, server) => (server.createFrom b tables call sel).2
  | _, (_, server) => server

/-- Only `create_offer` goes on after its pick. -/
theorem resumed_other (result : Except CallError RelaySelection × RelayServer) :
    resumed b tables .other result = result.2 := by
  rcases result with ⟨e | sel, server⟩ <;> rfl

theorem resume_server_eq (t : RelaySession) (caller : PickCaller) (restarts : ℕ)
    (sel : RelaySelection) :
    (t.resume b tables normalizeUrl caller restarts sel).server =
      resumed b tables caller (.ok sel, t.server) := by
  rcases caller with call | _
  · exact recordCreation_server _ _
  · rfl

/-- A pick whose probes return at once leaves what the atomic pick leaves, and what its caller makes
of it. -/
theorem runsTo_pick (caller : PickCaller) (force : Bool) (clock : ℕ → Time) (probes : Probes)
    (hidle : Idle s)
    (ha : step b tables normalizeUrl s a =
      some (s.beginPick b tables normalizeUrl caller force clock)) :
    RunsTo b tables normalizeUrl s
      (resumed b tables caller
        (s.server.pickPayableRelay tables.toCharTables force clock probes)) := by
  unfold RelayServer.pickPayableRelay
  rcases RelayServer.pickBegin_cases tables.toCharTables s.server force clock with
    ⟨sel, t, -, -, hbegin, -⟩ | ⟨-, hbegin⟩
  · -- served from the cache: the call is over
    have hrun := runsTo_of_step ha (by
      unfold beginPick
      rw [hbegin]
      exact idle_resume ⟨hidle.pick, hidle.customs⟩)
    unfold beginPick at hrun
    rw [hbegin] at hrun ⊢
    dsimp only at hrun ⊢
    rw [resume_server_eq] at hrun
    exact hrun
  · -- the probes return in a second step
    obtain ⟨pending, hbegin⟩ : ∃ pending,
        s.server.pickBegin tables.toCharTables force clock = (.probing pending, s.server) :=
      ⟨_, hbegin⟩
    unfold beginPick at ha
    rw [hbegin] at ha ⊢
    dsimp only at ha ⊢
    have hexec : Transition.exec (step b tables normalizeUrl) s [a, .probed probes] =
        some (endPick b tables normalizeUrl
          { s with pick := some ⟨pending, caller, s.server.restarts⟩ }
          ⟨pending, caller, s.server.restarts⟩ probes) := by
      rw [Transition.exec, ha]
      rfl
    refine ⟨_, _, hexec, ?_, ?_⟩
    · unfold endPick
      split
      next => exact ⟨rfl, hidle.customs⟩
      next => exact idle_resume ⟨rfl, hidle.customs⟩
    · unfold endPick
      dsimp only
      rcases hselect : selectPayableRelay tables.toCharTables pending.candidates probes with e | sel
      · rcases caller with call | _ <;> rfl
      · dsimp only
        rw [resume_server_eq]
        rfl

/-- A pick of nobody in particular leaves what the atomic pick leaves. -/
theorem runsTo_pick_other (normalizeUrl : String → String) (force : Bool) (clock : ℕ → Time)
    (probes : Probes) (hidle : Idle s) :
    RunsTo b tables normalizeUrl s
      (s.server.pickPayableRelay tables.toCharTables force clock probes).2 := by
  have hbegin : step b tables normalizeUrl s (.pick force clock) =
      some (s.beginPick b tables normalizeUrl .other force clock) :=
    if_pos (by rw [hidle.pick]; rfl)
  have hrun := runsTo_pick .other force clock probes hidle hbegin
  rwa [resumed_other] at hrun

/-- A well-formed custom relay is probed. -/
theorem step_createCustom_of_ok {call : CreateCall} {relay : String}
    (normalizeUrl : String → String) (hcustom : tables.stripText call.relay ≠ "")
    (hurl : normalizeRelayUrl tables (tables.stripText call.relay) = .ok relay) :
    step b tables normalizeUrl s (.createCustom call) =
      some { s with customs := s.customs ++ [⟨call, relay, s.server.restarts⟩] } := by
  rw [step, if_pos hcustom, beginCustom, hurl]

/-- A `create_offer` during which nothing else happens is one of the atomic model. -/
theorem runsTo_createOffer (hidle : Idle s) (call : CreateCall) :
    RunsTo b tables normalizeUrl s (s.server.createOffer b tables call).2 := by
  by_cases hcustom : tables.stripText call.relay = ""
  · have hbegin : step b tables normalizeUrl s (.create call) =
        some (s.beginPick b tables normalizeUrl (.createOffer call) false call.clock) :=
      if_pos ⟨hcustom, by rw [hidle.pick]; rfl⟩
    have hrun := runsTo_pick (.createOffer call) false call.clock call.probes hidle hbegin
    rw [RelayServer.createOffer_eq_createFrom hcustom]
    revert hrun
    rcases s.server.pickPayableRelay tables.toCharTables false call.clock call.probes with
      ⟨e | sel, server⟩ <;> exact id
  · have hcreate : s.server.createOffer b tables call =
        s.server.createOfferCustomRelay b tables (tables.stripText call.relay) call :=
      if_pos hcustom
    rw [hcreate, RelayServer.createOfferCustomRelay_eq_createCustomFrom]
    rcases hurl : normalizeRelayUrl tables (tables.stripText call.relay) with e | relay
    · exact runsTo_self hidle
    dsimp only
    have hbegin := step_createCustom_of_ok (b := b) (s := s) normalizeUrl hcustom hurl
    rw [hidle.customs] at hbegin
    -- the probe returns in a second step
    refine ⟨[.createCustom call, .probedCustom 0],
      endCustom b tables normalizeUrl { s with customs := [] } ⟨call, relay, s.server.restarts⟩,
      ?_, ?_, ?_⟩
    · rw [Transition.exec, hbegin]
      rfl
    · unfold endCustom
      split
      next => exact ⟨hidle.pick, rfl⟩
      next => exact idle_recordCreation ⟨hidle.pick, rfl⟩
    · unfold endCustom
      dsimp only
      rcases hprobe : probeRelayPayable call.probes 0 relay with e | probe
      · rfl
      · exact recordCreation_server _ _

/-- Every step of the atomic model is a run of the session. -/
theorem runsTo_of_server_step {oa : OfferAction} {t : RelayServer}
    (normalizeUrl : String → String) (hidle : Idle s)
    (h : RelayServer.step b tables s.server oa = some t) : RunsTo b tables normalizeUrl s t := by
  rcases oa with call | ⟨offerId, clock⟩ | ⟨offerId, label⟩ | ⟨offerId, active⟩ |
    ⟨offerId, allow⟩ | relay | ⟨force, clock, probes⟩ | ⟨clock, probes⟩ | relay | relays | _
  case createOffer =>
    obtain rfl := Option.some.inj h
    exact runsTo_createOffer hidle call
  case removeOffer =>
    obtain rfl := Option.some.inj h
    exact runsTo_of_server (a := .removeOffer offerId clock) rfl hidle
  case setLabel =>
    obtain rfl := Option.some.inj h
    exact runsTo_of_server (a := .setLabel offerId label) rfl hidle
  case setActive =>
    obtain rfl := Option.some.inj h
    exact runsTo_of_server (a := .setActive offerId active) rfl hidle
  case setAllowPayerMemo =>
    obtain rfl := Option.some.inj h
    exact runsTo_of_server (a := .setAllowPayerMemo offerId allow) rfl hidle
  case pinMissingRelays =>
    obtain rfl := Option.some.inj h
    exact runsTo_of_server (a := .pinMissingRelays relay) rfl hidle
  case pick =>
    obtain rfl := Option.some.inj h
    exact runsTo_pick_other normalizeUrl force clock probes hidle
  case ensurePinned =>
    obtain rfl := Option.some.inj h
    unfold RelayServer.ensureOfferRelaysPinned
    split
    next => exact runsTo_self hidle
    next => exact runsTo_pick_other normalizeUrl false clock probes hidle
  case setRelay =>
    obtain rfl := Option.some.inj h
    exact runsTo_of_server (a := .setRelay relay) rfl hidle
  case setNostrRelays =>
    obtain rfl := Option.some.inj h
    exact runsTo_of_server (a := .setNostrRelays relays) rfl hidle
  case restart =>
    have hrestart : step b tables normalizeUrl s .restart =
        some { start t with returns := s.returns, creations := s.creations } := by
      have ht : s.server.restart.toOption = some t := h
      rw [step, ht]
      rfl
    exact runsTo_of_step hrestart ⟨rfl, rfl⟩

/-- Every state of the atomic model is that of a session. -/
theorem exists_reachable_of_server {init t : RelayServer} (normalizeUrl : String → String)
    (h : RelayServer.Reachable b tables (fun _ _ => True) init t) :
    ∃ s, Reachable b tables normalizeUrl (fun _ _ => True) (start init) s ∧ Idle s ∧
      s.server = t := by
  refine h.simulation (R := fun t s => Idle s ∧ s.server = t) ⟨⟨rfl, rfl⟩, rfl⟩ ?_
  rintro _ oa t s ⟨hidle, rfl⟩ - hstep
  exact runsTo_of_server_step normalizeUrl hidle hstep

end

end RelaySession

end ElectrumClink
