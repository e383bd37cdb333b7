import ElectrumClink.Offers.Store

/-!
# Picking a relay

A relay is probed before a noffer advertises it. `pick_payable_relay` keeps the outcome for a day;
the offers that lack a relay get the one it found.

The pick awaits its probes, so it is split where it waits: `pickBegin` runs up to the probes and
`pickFinish` from their results on; `pickPayableRelay` is a pick during which nothing else runs.
-/

namespace ElectrumClink

/-- An exception that a call raises to its caller. -/
inductive CallError
  /-- `UserFacingException`. -/
  | userFacing (message : String)
  | python (e : PyError)
  /-- An exception that a probe does not catch. -/
  | probe
deriving DecidableEq

/-! ## Probes -/

/-- The outcome of a payability probe. -/
inductive ProbeStatus
  | ok
  | unreachable
  | noReadback
  | error
deriving DecidableEq

/-- The value of a status. -/
def ProbeStatus.value : ProbeStatus → String
  | ProbeStatus.ok => "ok"
  | ProbeStatus.unreachable => "unreachable"
  | ProbeStatus.noReadback => "no_readback"
  | ProbeStatus.error => "error"

/-- The result of probing one relay. -/
structure ProbeResult where
  relay : String
  status : ProbeStatus
  rttMs : Option ℤ := none
  detail : String := ""
deriving DecidableEq

/-- Whether the relay is payable. -/
def ProbeResult.ok (res : ProbeResult) : Bool := res.status == ProbeStatus.ok

/-- What the network makes of a probe: the status, the round-trip time and the detail. -/
structure ProbeReport where
  status : ProbeStatus
  rttMs : Option ℤ := none
  detail : String := ""

/-- What comes of the `i`-th probe of a call, for the relay it is about; nothing if it raises. -/
abbrev Probes := ℕ → String → Option ProbeReport

/-- `probe_relay_payable`. -/
def probeRelayPayable (probes : Probes) (i : ℕ) (relay : String) : Except CallError ProbeResult :=
  match probes i relay with
  | none => .error .probe
  | some report => .ok ⟨relay, report.status, report.rttMs, report.detail⟩

/-- The relay chosen for a noffer, with the result of every candidate. -/
structure RelaySelection where
  relay : String
  ok : Bool
  results : List ProbeResult
deriving DecidableEq

/-- `asyncio.gather` over the probes of the candidates: the results in the order of the candidates,
or an exception. -/
def gatherProbes (probes : Probes) : ℕ → List String → Except CallError (List ProbeResult)
  | _, [] => .ok []
  | i, c :: cands => do
    let res ← probeRelayPayable probes i c
    let results ← gatherProbes probes (i + 1) cands
    return res :: results

/-- The candidates that are probed: stripped, without the blank ones. -/
def probedCandidates (tables : CharTables) (candidates : List String) : List String :=
  (candidates.map tables.stripText).filter (· ≠ "")

/-- The first result that is payable; otherwise the first candidate. -/
def selectFrom (first : String) (results : List ProbeResult) : RelaySelection :=
  match results.find? ProbeResult.ok with
  | some res => ⟨res.relay, true, results⟩
  | none => ⟨first, false, results⟩

/-- `select_payable_relay`: probe every candidate, choose the first that is payable. -/
def selectPayableRelay (tables : CharTables) (candidates : List String) (probes : Probes) :
    Except CallError RelaySelection :=
  match probedCandidates tables candidates with
  | [] => .ok ⟨"", false, []⟩
  | first :: rest => (gatherProbes probes 0 (first :: rest)).map (selectFrom first)

/-! ## The server -/

/-- An x-only public key. -/
structure PublicKey where
  bytes : Bytes
  /-- It has 32 bytes. -/
  length_eq : bytes.length = 32

/-- How long a selection is used before the candidates are probed again. -/
def relayCacheTtlSec : Time := 24 * 60 * 60

/-- What the relay and offer functions of a `ClinkServer` read and write. -/
structure RelayServer where
  /-- The public key of the identity that is derived from the wallet. -/
  identity : PublicKey
  offers : SavedOffers
  /-- `settings.relay`: the wallet's setting, or the global one without it. -/
  relaySetting : String
  /-- `config.get_nostr_relays()`. -/
  nostrRelays : List String
  relaySelection : Option RelaySelection
  relaySelectionAt : Time
  /-- How often `restart_event_handler` was called. -/
  restarts : ℕ

namespace RelayServer

/-- `__init__`: the server of a wallet with this storage. -/
def init (identity : PublicKey) (relaySetting : String) (nostrRelays : List String)
    (storage : List StoredOffer) : Except PyError RelayServer :=
  (SavedOffers.load storage).map fun offers =>
    { identity := identity
      offers := offers
      relaySetting := relaySetting
      nostrRelays := nostrRelays
      relaySelection := none
      relaySelectionAt := 0
      restarts := 0 }

/-- `pubkey_hex`. -/
def pubkeyHex (s : RelayServer) : String := Bytes.hex s.identity.bytes

/-- `candidate_relays`: the relay that is set, or the configured ones. -/
def candidateRelays (tables : CharTables) (s : RelayServer) : List String :=
  let explicit := tables.stripText s.relaySetting
  if explicit ≠ "" then [explicit] else s.nostrRelays

/-- The candidates come from the two settings. -/
theorem candidateRelays_congr {tables : CharTables} {s t : RelayServer}
    (hsetting : t.relaySetting = s.relaySetting) (hrelays : t.nostrRelays = s.nostrRelays) :
    t.candidateRelays tables = s.candidateRelays tables := by
  unfold candidateRelays
  rw [hsetting, hrelays]

/-- `relay_url`: the first candidate. -/
def relayUrl (tables : CharTables) (s : RelayServer) : String :=
  match s.candidateRelays tables with
  | [] => ""
  | first :: _ => tables.stripText first

/-- The selection is used again at `now`. -/
def IsFresh (s : RelayServer) (now : Time) : Prop := now - s.relaySelectionAt < relayCacheTtlSec

instance (s : RelayServer) (now : Time) : Decidable (s.IsFresh now) :=
  inferInstanceAs (Decidable (now - s.relaySelectionAt < relayCacheTtlSec))

/-- `effective_relay`: the selected relay while it is fresh, the first candidate otherwise. -/
def effectiveRelay (tables : CharTables) (s : RelayServer) (now : Time) : String :=
  match s.relaySelection with
  | some sel => if sel.relay ≠ "" ∧ s.IsFresh now then sel.relay else s.relayUrl tables
  | none => s.relayUrl tables

/-- `offer_relay`. -/
def offerRelay (tables : CharTables) (s : RelayServer) (offer : Option Offer) (now : Time) :
    String :=
  advertisedRelay tables offer (s.effectiveRelay tables now)

/-- `listen_relay_urls`. -/
def listenRelayUrls (tables : CharTables) (s : RelayServer) (now : Time) : List String :=
  listenRelays tables s.offers.list (s.effectiveRelay tables now)

/-- `make_noffer`. -/
def makeNoffer (b : Bech32) (tables : CharTables) (s : RelayServer) (offerId : String)
    (now : Time) : Except PyError String :=
  nofferEncode b
    { pubkey := s.pubkeyHex
      relay := s.offerRelay tables (s.offers.get offerId) now
      offer := offerId
      priceType := .spontaneous }

/-- `restart_event_handler`. -/
def restartEventHandler (s : RelayServer) : RelayServer := { s with restarts := s.restarts + 1 }

/-- `restart_event_handler`, when it is needed. -/
def restartIf (s : RelayServer) (needed : Bool) : RelayServer :=
  if needed then s.restartEventHandler else s

@[simp]
theorem restartIf_identity (s : RelayServer) (needed : Bool) :
    (s.restartIf needed).identity = s.identity := by
  rcases needed with _ | _ <;> rfl

@[simp]
theorem restartIf_offers (s : RelayServer) (needed : Bool) :
    (s.restartIf needed).offers = s.offers := by
  rcases needed with _ | _ <;> rfl

@[simp]
theorem restartIf_relaySelection (s : RelayServer) (needed : Bool) :
    (s.restartIf needed).relaySelection = s.relaySelection := by
  rcases needed with _ | _ <;> rfl

/-! ## The pick -/

/-- `_pin_legacy_offer_relays`: whether an offer got the relay of the selection. -/
def pinLegacyOfferRelays (tables : CharTables) (s : RelayServer) (sel : RelaySelection) :
    Bool × RelayServer :=
  if !sel.ok then (false, s)
  else
    let (pinned, offers) := s.offers.pinMissingRelays tables sel.relay
    (!pinned.isEmpty, { s with offers := offers })

/-- What a pick remembers while it awaits its probes. -/
structure PendingPick where
  now : Time
  prevRelay : String
  candidates : List String

/-- How a pick starts: it is served from the cache, or probes. -/
inductive PickStart
  | cached (sel : RelaySelection)
  | probing (pending : PendingPick)

/-- `pick_payable_relay` up to its probes; `clock 0` and `clock 1` are its readings of the clock. -/
def pickBegin (tables : CharTables) (s : RelayServer) (force : Bool) (clock : ℕ → Time) :
    PickStart × RelayServer :=
  let probing := .probing
    ⟨clock 0, s.effectiveRelay tables (clock 1), s.candidateRelays tables⟩
  match s.relaySelection with
  | some cached =>
    if !force && decide (s.IsFresh (clock 0)) then
      let (pinned, s) := s.pinLegacyOfferRelays tables cached
      (.cached cached, s.restartIf pinned)
    else (probing, s)
  | none => (probing, s)

/-- `pick_payable_relay` once the candidates are probed. -/
def pickFinish (tables : CharTables) (s : RelayServer) (pending : PendingPick)
    (sel : RelaySelection) : RelayServer :=
  let s := { s with relaySelection := some sel, relaySelectionAt := pending.now }
  let restart := sel.relay != "" && sel.relay != pending.prevRelay
  let (pinned, s) := s.pinLegacyOfferRelays tables sel
  s.restartIf (pinned || restart)

/-- `pick_payable_relay`, when nothing else runs while it awaits its probes. -/
def pickPayableRelay (tables : CharTables) (s : RelayServer) (force : Bool) (clock : ℕ → Time)
    (probes : Probes) : Except CallError RelaySelection × RelayServer :=
  match s.pickBegin tables force clock with
  | (.cached sel, s) => (.ok sel, s)
  | (.probing pending, s) =>
    match selectPayableRelay tables pending.candidates probes with
    | .ok sel => (.ok sel, s.pickFinish tables pending sel)
    | .error e => (.error e, s)

/-- `ensure_offer_relays_pinned`: a pick, while an offer lacks its relay; its exceptions are
logged. -/
def ensureOfferRelaysPinned (tables : CharTables) (s : RelayServer) (clock : ℕ → Time)
    (probes : Probes) : RelayServer :=
  if s.offers.list.all fun o => !SavedOffers.lacksRelay tables o then s
  else (s.pickPayableRelay tables false clock probes).2

/-- `invalidate_relay_selection`. -/
def invalidateRelaySelection (s : RelayServer) : RelayServer :=
  { s with relaySelection := none, relaySelectionAt := 0 }

/-- `notify_setting_changed` for the `relay` setting, after it was set. -/
def setRelay (s : RelayServer) (relay : String) : RelayServer :=
  restartEventHandler (invalidateRelaySelection { s with relaySetting := relay })

end RelayServer

/-! ## What is picked -/

/-- A relay that a noffer has room for. -/
def FitsNoffer (relay : String) : Prop := (Bytes.encodeUtf8 relay).length ≤ 255

instance (relay : String) : Decidable (FitsNoffer relay) :=
  inferInstanceAs (Decidable ((Bytes.encodeUtf8 relay).length ≤ 255))

theorem mem_probedCandidates {tables : CharTables} {candidates : List String} {relay : String}
    (h : relay ∈ probedCandidates tables candidates) :
    relay ≠ "" ∧ tables.stripText relay = relay := by
  obtain ⟨hmem, hne⟩ := List.mem_filter.1 h
  obtain ⟨c, -, rfl⟩ := List.mem_map.1 hmem
  exact ⟨of_decide_eq_true hne, tables.stripText_stripText c⟩

/-- A result is about one of the candidates. -/
theorem mem_of_mem_gatherProbes {probes : Probes} {i : ℕ} {cands : List String}
    {results : List ProbeResult} (h : gatherProbes probes i cands = .ok results) :
    ∀ res ∈ results, res.relay ∈ cands := by
  induction cands generalizing i results with
  | nil =>
    obtain rfl := Except.ok.inj h
    intro res hres
    cases hres
  | cons c cands ih =>
    rw [gatherProbes, probeRelayPayable] at h
    rcases hprobe : probes i c with _ | report
    · rw [hprobe] at h
      cases h
    rcases hrest : gatherProbes probes (i + 1) cands with e | rest
    · rw [hprobe, hrest] at h
      cases h
    rw [hprobe, hrest] at h
    obtain rfl := Except.ok.inj h
    intro res hres
    rcases List.mem_cons.1 hres with rfl | hres
    · exact List.mem_cons_self
    · exact List.mem_cons_of_mem c (ih hrest res hres)

/-- A payable selection is a relay that can be pinned. -/
theorem pinnable_of_selectPayableRelay {tables : CharTables} {candidates : List String}
    {probes : Probes} {sel : RelaySelection}
    (h : selectPayableRelay tables candidates probes = .ok sel) (hok : sel.ok = true) :
    sel.relay ≠ "" ∧ tables.stripText sel.relay = sel.relay := by
  unfold selectPayableRelay at h
  split at h
  next =>
    rw [← Except.ok.inj h] at hok
    cases hok
  next first rest hcands =>
    rcases hgather : gatherProbes probes 0 (first :: rest) with e | results
    · rw [hgather] at h
      cases h
    rw [hgather] at h
    obtain rfl := Except.ok.inj h
    rcases hfind : results.find? ProbeResult.ok with _ | res
    · rw [selectFrom, hfind] at hok
      cases hok
    · have hmem := mem_of_mem_gatherProbes hgather res (List.mem_of_find?_eq_some hfind)
      rw [← hcands] at hmem
      rw [selectFrom, hfind]
      exact mem_probedCandidates hmem

namespace RelayServer

variable {b : Bech32} {tables : CharTables} {s : RelayServer} {offerId : String} {now : Time}

/-- The selection in the cache, if it is payable, is a relay that can be pinned. -/
def SelectionInv (tables : CharTables) (s : RelayServer) : Prop :=
  ∀ sel, s.relaySelection = some sel → sel.ok = true →
    sel.relay ≠ "" ∧ tables.stripText sel.relay = sel.relay

/-- The noffer of an offer whose relay fits says where to ask for what. -/
theorem exists_makeNoffer (hlawful : b.Lawful) (s : RelayServer) (now : Time)
    (hrelay : FitsNoffer (s.offerRelay tables (s.offers.get offerId) now))
    (hid : (Bytes.encodeUtf8 offerId).length ≤ 255) :
    ∃ noffer, s.makeNoffer b tables offerId now = .ok noffer ∧
      nofferDecode b noffer =
        .ok ⟨s.pubkeyHex, s.offerRelay tables (s.offers.get offerId) now, offerId, .spontaneous,
          none⟩ := by
  obtain ⟨hlength, hhex⟩ := Bytes.toList_hex s.identity.bytes
  refine (nofferDecode_nofferEncode hlawful).1
    ⟨s.pubkeyHex, s.offerRelay tables (s.offers.get offerId) now, offerId, .spontaneous, none⟩
    ⟨?_, hhex, hrelay, hid, ?_⟩
  · show (Bytes.hex s.identity.bytes).toList.length = 64
    rw [hlength, s.identity.length_eq]
  · intro price hprice
    cases hprice

/-- The selection that a pick at `now` is served from. -/
def freshSelection (s : RelayServer) (now : Time) : Option RelaySelection :=
  if s.IsFresh now then s.relaySelection else none

/-- A fresh selection is the cached one. -/
theorem relaySelection_of_freshSelection {s : RelayServer} {now : Time} {sel : RelaySelection}
    (h : s.freshSelection now = some sel) : s.relaySelection = some sel := by
  unfold freshSelection at h
  split at h
  next => exact h
  next => cases h

/-- The relay of a selection that found one. -/
def RelaySelection.payable (sel : RelaySelection) : Option String :=
  if sel.ok then some sel.relay else none

/-- The relay that an automatic pick finds payable: the cached one while it is fresh, or the first
candidate that passes its probe. -/
def payableRelay (tables : CharTables) (s : RelayServer) (clock : ℕ → Time) (probes : Probes) :
    Option String :=
  match s.freshSelection (clock 0) with
  | some sel => RelaySelection.payable sel
  | none =>
    match selectPayableRelay tables (s.candidateRelays tables) probes with
    | .ok sel => RelaySelection.payable sel
    | .error _ => none

/-- Pinning the offers that lack a relay touches nothing but the offers. -/
theorem pinLegacyOfferRelays_spec (sel : RelaySelection) :
    (s.pinLegacyOfferRelays tables sel).2 =
      { s with
        offers :=
          if sel.ok then (s.offers.pinMissingRelays tables sel.relay).2 else s.offers } := by
  unfold pinLegacyOfferRelays
  by_cases hok : sel.ok = true
  · simp only [hok, Bool.not_true, Bool.false_eq_true, if_false, if_true]
  · simp only [hok, Bool.not_false, if_true, Bool.false_eq_true, if_false]

/-- What a pick with this selection leaves: the selection is cached, and if it found a payable
relay, the offers without one have got it. -/
structure Picked (tables : CharTables) (s s' : RelayServer) (sel : RelaySelection) : Prop where
  identity : s'.identity = s.identity
  relaySetting : s'.relaySetting = s.relaySetting
  nostrRelays : s'.nostrRelays = s.nostrRelays
  selection : s'.relaySelection = some sel
  offers : s'.offers =
    if sel.ok then (s.offers.pinMissingRelays tables sel.relay).2 else s.offers

/-- A restart of the listener leaves what was picked. -/
theorem Picked.restartIf {s' : RelayServer} {sel : RelaySelection} (h : Picked tables s s' sel)
    (needed : Bool) : Picked tables s (s'.restartIf needed) sel := by
  unfold RelayServer.restartIf
  split
  next => exact ⟨h.identity, h.relaySetting, h.nostrRelays, h.selection, h.offers⟩
  next => exact h

/-- Pinning the relay of the cached selection is all that a pick from the cache does. -/
theorem picked_pinLegacyOfferRelays (tables : CharTables) {sel : RelaySelection}
    (h : s.relaySelection = some sel) :
    Picked tables s (s.pinLegacyOfferRelays tables sel).2 sel := by
  rw [pinLegacyOfferRelays_spec]
  exact ⟨rfl, rfl, rfl, h, rfl⟩

/-- A pick starts from a fresh selection, or probes the candidates. -/
theorem pickBegin_cases (tables : CharTables) (s : RelayServer) (force : Bool)
    (clock : ℕ → Time) :
    (∃ sel s', force = false ∧ s.freshSelection (clock 0) = some sel ∧
      s.pickBegin tables force clock = (.cached sel, s') ∧ Picked tables s s' sel) ∨
    ((force = true ∨ s.freshSelection (clock 0) = none) ∧
      s.pickBegin tables force clock =
        (.probing ⟨clock 0, s.effectiveRelay tables (clock 1), s.candidateRelays tables⟩, s)) := by
  unfold pickBegin freshSelection
  rcases hsel : s.relaySelection with _ | sel
  · exact .inr ⟨.inr (by split <;> rfl), rfl⟩
  -- a selection is there: it is used when it is fresh and no pick is forced
  by_cases hcached : (!force && decide (s.IsFresh (clock 0))) = true
  · obtain ⟨hforce, hfresh⟩ := Bool.and_eq_true_iff.1 hcached
    have hpicked := picked_pinLegacyOfferRelays tables hsel
    refine .inl ⟨sel, _, by simpa using hforce, if_pos (of_decide_eq_true hfresh), ?_,
      hpicked.restartIf (s.pinLegacyOfferRelays tables sel).1⟩
    dsimp only
    rw [if_pos hcached]
  · refine .inr ⟨?_, ?_⟩
    · by_contra hnot
      rw [not_or, Bool.not_eq_true] at hnot
      by_cases hfresh : s.IsFresh (clock 0)
      · exact hcached (by simp [hnot.1, hfresh])
      · exact hnot.2 (if_neg hfresh)
    · dsimp only
      rw [if_neg hcached]

/-- A pick ends with the selection it made. -/
theorem picked_pickFinish (pending : PendingPick) (sel : RelaySelection) :
    Picked tables s (s.pickFinish tables pending sel) sel := by
  have hpicked : Picked tables s
      (pinLegacyOfferRelays tables
        { s with relaySelection := some sel, relaySelectionAt := pending.now } sel).2 sel := by
    rw [pinLegacyOfferRelays_spec]
    exact ⟨rfl, rfl, rfl, rfl, rfl⟩
  exact hpicked.restartIf _

/-- A pick returns a selection that it found in the cache or made of its probes, or raises and
changes nothing. -/
theorem pickPayableRelay_cases (tables : CharTables) (s : RelayServer) (force : Bool)
    (clock : ℕ → Time) (probes : Probes) :
    (∃ sel s', s.pickPayableRelay tables force clock probes = (.ok sel, s') ∧
      Picked tables s s' sel ∧
      (force = false ∧ s.freshSelection (clock 0) = some sel ∨
        (force = true ∨ s.freshSelection (clock 0) = none) ∧
          selectPayableRelay tables (s.candidateRelays tables) probes = .ok sel)) ∨
    ∃ e, s.pickPayableRelay tables force clock probes = (.error e, s) ∧
      (force = true ∨ s.freshSelection (clock 0) = none) ∧
      selectPayableRelay tables (s.candidateRelays tables) probes = .error e := by
  unfold pickPayableRelay
  rcases pickBegin_cases tables s force clock with
    ⟨sel, s', hforce, hfresh, hbegin, hpicked⟩ | ⟨hstale, hbegin⟩
  · rw [hbegin]
    exact .inl ⟨sel, s', rfl, hpicked, .inl ⟨hforce, hfresh⟩⟩
  · rw [hbegin]
    dsimp only
    rcases hselect : selectPayableRelay tables (s.candidateRelays tables) probes with e | sel
    · exact .inr ⟨e, rfl, hstale, rfl⟩
    · exact .inl ⟨sel, _, rfl, picked_pickFinish _ sel, .inr ⟨hstale, rfl⟩⟩

/-- The relay that an unforced pick finds payable is that of its selection. -/
theorem exists_pick_of_unforced (tables : CharTables) (s : RelayServer) (clock : ℕ → Time)
    (probes : Probes) :
    (∃ sel s', s.pickPayableRelay tables false clock probes = (.ok sel, s') ∧
      Picked tables s s' sel ∧ s.payableRelay tables clock probes = RelaySelection.payable sel) ∨
    ∃ e, s.pickPayableRelay tables false clock probes = (.error e, s) ∧
      s.payableRelay tables clock probes = none := by
  unfold payableRelay
  rcases pickPayableRelay_cases tables s false clock probes with
    ⟨sel, s', hpick, hpicked, ⟨-, hfresh⟩ | ⟨hstale, hselect⟩⟩ | ⟨e, hpick, hstale, hselect⟩
  · exact .inl ⟨sel, s', hpick, hpicked, by rw [hfresh]⟩
  · have hnone : s.freshSelection (clock 0) = none := hstale.resolve_left Bool.false_ne_true
    exact .inl ⟨sel, s', hpick, hpicked, by rw [hnone, hselect]⟩
  · have hnone : s.freshSelection (clock 0) = none := hstale.resolve_left Bool.false_ne_true
    exact .inr ⟨e, hpick, by rw [hnone, hselect]⟩

/-- A pick keeps a payable selection pinnable. -/
theorem SelectionInv.pick {s' : RelayServer} {force : Bool} {clock : ℕ → Time} {probes : Probes}
    {result : Except CallError RelaySelection} (hinv : SelectionInv tables s)
    (h : s.pickPayableRelay tables force clock probes = (result, s')) :
    SelectionInv tables s' := by
  rcases pickPayableRelay_cases tables s force clock probes with
    ⟨sel, t, hpick, hpicked, hsource⟩ | ⟨e, hpick, -⟩
  · obtain ⟨-, rfl⟩ := Prod.mk.inj (hpick.symm.trans h)
    intro sel' hsel' hok
    obtain rfl := Option.some.inj (hpicked.selection.symm.trans hsel')
    rcases hsource with ⟨-, hfresh⟩ | ⟨-, hselect⟩
    · exact hinv sel (relaySelection_of_freshSelection hfresh) hok
    · exact pinnable_of_selectPayableRelay hselect hok
  · obtain ⟨-, rfl⟩ := Prod.mk.inj (hpick.symm.trans h)
    exact hinv

end RelayServer

end ElectrumClink
