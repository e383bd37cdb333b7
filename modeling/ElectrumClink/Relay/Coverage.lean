import ElectrumClink.Offers.Relays
import ElectrumClink.Relay.Cache

/-!
# The listener covers the new offers

`create_offer` restarts the listener when the relay of the new offer is not one that
`listen_relay_urls` returns. But the relay manager was told its relays at another moment: the
default relay among them is the cached pick only for a day, and then falls back to the first
candidate without anybody asking for a restart. A new offer on that relay is not listened on
(`lapsed_pick_leaves_offer_uncovered`).

`created_offer_is_covered` is about runs in which the default relay that a decision looks at is the
one that the manager was told.
-/

namespace ElectrumClink

variable {tables : CharTables}

/-! ## The offers after a change -/

namespace SavedOffers

/-- The offers after a change that adds one are that one and the old ones. -/
theorem mem_list_create {s : SavedOffers} {token : Bytes} {now : Time} {label : String}
    {priceType : OfferPriceType} {price : Option ℤ} {allowPayerMemo : Bool} {relay : String}
    {relayCustom : Bool} {o : Offer}
    (ho : o ∈ (s.create tables token now label priceType price allowPayerMemo relay
      relayCustom).2.list) :
    o.relay = tables.stripText relay ∨ o ∈ s.list := by
  have hall : All (fun o => o.relay = tables.stripText relay ∨ o ∈ s.list)
      (s.create tables token now label priceType price allowPayerMemo relay relayCustom).2 :=
    All.set (fun offerId o hget => .inr (List.mem_map.2
      ⟨(offerId, o), Dict.get?_eq_some_iff.1 hget, rfl⟩)) (.inl rfl)
  exact hall.of_mem_list ho

/-- A store into which an offer was written is not empty. -/
theorem list_write_set_ne_nil (s : SavedOffers) (offerId : String) (offer : Offer) :
    (s.write (s.offers.set offerId offer)).list ≠ [] := by
  have hmem : offer ∈ (s.write (s.offers.set offerId offer)).list := List.mem_map_of_mem
    (f := Prod.snd) (Dict.get?_eq_some_iff.1 (Dict.get?_set_self s.offers offerId offer))
  exact List.ne_nil_of_mem hmem

theorem mem_list_remove {s : SavedOffers} {offerId : String} {o : Offer}
    (ho : o ∈ (s.remove offerId).2.list) : o ∈ s.list := by
  have hall : All (fun o => o ∈ s.list) (s.remove offerId).2 :=
    All.remove (fun offerId o hget => List.mem_map.2
      ⟨(offerId, o), Dict.get?_eq_some_iff.1 hget, rfl⟩) offerId
  exact hall.of_mem_list ho

/-- Where no offer is pinned, nothing changes. -/
theorem pinMissingRelays_of_fst_nil {s : SavedOffers} {relay : String}
    (h : (s.pinMissingRelays tables relay).1 = []) : (s.pinMissingRelays tables relay).2 = s := by
  unfold pinMissingRelays at h ⊢
  dsimp only at h ⊢
  split
  next => rfl
  next hne =>
    rw [if_neg hne] at h
    split
    next => rfl
    next hpinned =>
      rw [if_neg hpinned] at h
      exact absurd h hpinned

end SavedOffers

/-! ## What a server must be covered for -/

/-- The relay manager sits on every relay of the offers and, while it is needed, on the default
relay it was told. -/
def ListenerManager.Covers (tables : CharTables) (normalizeUrl : String → String)
    (m : ListenerManager) (server : RelayServer) : Prop :=
  ∀ url ∈ listenRelays tables server.offers.list m.defaultRelay, normalizeUrl url ∈ m.relays

/-- No restart was requested since the manager was told its relays. -/
def ListenerManager.UpToDate (m : ListenerManager) (server : RelayServer) : Prop :=
  m.restarts = server.restarts

namespace RelayServer

variable {b : Bech32} {tables : CharTables} {normalizeUrl : String → String} {s t : RelayServer}
  {m : ListenerManager}

theorem restarts_restartIf (s : RelayServer) (needed : Bool) :
    (s.restartIf needed).restarts = if needed then s.restarts + 1 else s.restarts := by
  rcases needed with _ | _ <;> rfl

/-- A pick from the cache changes nothing, or asks for a restart. -/
theorem pickBegin_cached {force : Bool} {clock : ℕ → Time} {sel : RelaySelection}
    (h : s.pickBegin tables force clock = (.cached sel, t)) :
    t = s ∨ t.restarts = s.restarts + 1 := by
  unfold pickBegin at h
  rcases hsel : s.relaySelection with _ | cached
  · rw [hsel] at h
    cases h
  rw [hsel] at h
  dsimp only at h
  split at h
  next =>
    obtain rfl := (Prod.mk.inj h).2
    unfold pinLegacyOfferRelays
    split
    next => exact .inl rfl
    next =>
      dsimp only
      rcases hpinned : (s.offers.pinMissingRelays tables cached.relay).1 with _ | ⟨offerId, rest⟩
      · left
        rw [SavedOffers.pinMissingRelays_of_fst_nil hpinned]
        rfl
      · exact .inr rfl
  next => cases h

/-- A pick that probed asks for a restart, or leaves the offers and has found the relay that was the
default before. -/
theorem pickFinish_restarts (tables : CharTables) (s : RelayServer) (pending : PendingPick)
    (sel : RelaySelection) :
    (s.pickFinish tables pending sel).restarts = s.restarts + 1 ∨
      (s.pickFinish tables pending sel).restarts = s.restarts ∧
        (s.pickFinish tables pending sel).offers = s.offers ∧
        (sel.relay = "" ∨ sel.relay = pending.prevRelay) := by
  by_cases hrestart : (sel.relay != "" && sel.relay != pending.prevRelay) = true
  · left
    unfold pickFinish
    dsimp only
    rw [restarts_restartIf, hrestart, Bool.or_true, if_pos rfl, pinLegacyOfferRelays_spec]
  · have hrelay : sel.relay = "" ∨ sel.relay = pending.prevRelay := by
      by_contra hnot
      rw [not_or] at hnot
      exact hrestart (Bool.and_eq_true_iff.2 ⟨bne_iff_ne.2 hnot.1, bne_iff_ne.2 hnot.2⟩)
    have hfalse : (sel.relay != "" && sel.relay != pending.prevRelay) = false :=
      Bool.not_eq_true _ ▸ hrestart
    unfold pickFinish pinLegacyOfferRelays
    dsimp only
    rw [hfalse, Bool.or_false]
    split
    next => exact .inr ⟨rfl, rfl, hrelay⟩
    next =>
      dsimp only
      rcases hpinned : (s.offers.pinMissingRelays tables sel.relay).1 with _ | ⟨offerId, rest⟩
      · right
        rw [SavedOffers.pinMissingRelays_of_fst_nil hpinned]
        exact ⟨rfl, rfl, hrelay⟩
      · exact .inl rfl

/-- A relay that is listened on is one that the manager sits on, if the default relay is the one
that the manager was told. -/
theorem mem_of_mem_listenRelayUrls (hcovers : m.Covers tables normalizeUrl s) {relay : String}
    {now : Time} (hmem : relay ∈ s.listenRelayUrls tables now)
    (hdefault : relay = tables.stripText (s.effectiveRelay tables now) →
      relay = tables.stripText m.defaultRelay) :
    normalizeUrl relay ∈ m.relays := by
  obtain ⟨hne, hsource⟩ := mem_listenRelays.1 hmem
  refine hcovers relay (mem_listenRelays.2 ⟨hne, ?_⟩)
  rcases hsource with ⟨hneeds, hrelay⟩ | hpinned
  · exact .inl ⟨hneeds, hdefault hrelay⟩
  · exact .inr hpinned

/-- Adding an offer asks for a restart, unless its relay is listened on. -/
theorem restarts_addOffer (b : Bech32) (tables : CharTables) (s : RelayServer) (call : CreateCall)
    (relay : String) (relayCustom : Bool) :
    (s.addOffer b tables call relay relayCustom).2.restarts =
      if relay ∉ s.listenRelayUrls tables (call.clock 2) then s.restarts + 1 else s.restarts := by
  rw [addOffer_snd, restarts_restartIf]
  simp only [decide_eq_true_eq]

/-- Adding an offer keeps the listener covered: either it asks for a restart, or the manager sits on
the relay. -/
theorem covers_addOffer {call : CreateCall} {relay : String} (relayCustom : Bool)
    (hcovers : m.UpToDate s → m.Covers tables normalizeUrl s) (hle : m.restarts ≤ s.restarts)
    (hdefault : m.UpToDate s → relay = tables.stripText (s.effectiveRelay tables (call.clock 2)) →
      relay = tables.stripText m.defaultRelay)
    (hup : m.UpToDate (s.addOffer b tables call relay relayCustom).2) :
    tables.stripText relay = relay ∧ normalizeUrl relay ∈ m.relays ∧
      m.Covers tables normalizeUrl (s.addOffer b tables call relay relayCustom).2 := by
  unfold ListenerManager.UpToDate at hup
  rw [restarts_addOffer] at hup
  split at hup
  next => omega
  next hlistened =>
    -- no restart is asked for: the relay is one that the server listens on already
    have hmem : relay ∈ s.listenRelayUrls tables (call.clock 2) := not_not.1 hlistened
    have hstrip := stripText_of_mem_listenRelays hmem
    have hrelay := mem_of_mem_listenRelayUrls (hcovers hup) hmem (hdefault hup)
    refine ⟨hstrip, hrelay, fun url hurl => ?_⟩
    have hoffers : (s.addOffer b tables call relay relayCustom).2.offers =
        (s.offers.create tables call.token (call.clock 3) call.label .spontaneous none
          call.allowPayerMemo relay relayCustom).2 := by
      rw [addOffer_snd, restartIf_offers]
    rw [hoffers] at hurl
    obtain ⟨hne, hsource⟩ := mem_listenRelays.1 hurl
    rcases hsource with ⟨hneeds, rfl⟩ | ⟨o, ho, rfl⟩
    · -- the new offer does not need the default relay, so an old one does
      refine hcovers hup _ (mem_listenRelays.2 ⟨hne, .inl ⟨?_, rfl⟩⟩)
      rcases hneeds with hnil | ⟨o, ho, hlacks⟩
      · exact absurd hnil (SavedOffers.list_write_set_ne_nil s.offers _ _)
      · rcases SavedOffers.mem_list_create ho with hnew | hold
        · rw [SavedOffers.lacksRelay, hnew, hstrip, hstrip, beq_iff_eq] at hlacks
          exact absurd hlacks (mem_listenRelays.1 hmem).1
        · exact .inr ⟨o, hold, hlacks⟩
    · rcases SavedOffers.mem_list_create ho with hnew | hold
      · rw [hnew, hstrip, hstrip]
        exact hrelay
      · exact hcovers hup _ (mem_listenRelays.2 ⟨hne, .inr ⟨o, hold, rfl⟩⟩)

/-- Removing an offer keeps the listener covered. -/
theorem covers_removeOffer {offerId : String} {clock : ℕ → Time}
    (hcovers : m.UpToDate s → m.Covers tables normalizeUrl s) (hle : m.restarts ≤ s.restarts)
    (hdefault : m.UpToDate s → s.effectiveRelay tables (clock 1) = m.defaultRelay)
    (hup : m.UpToDate (s.removeOffer tables offerId clock).2) :
    m.Covers tables normalizeUrl (s.removeOffer tables offerId clock).2 := by
  have hsame : (s.offers.remove offerId).1 = false → (s.offers.remove offerId).2 = s.offers := by
    intro hfalse
    unfold SavedOffers.remove at hfalse ⊢
    split
    next hmem =>
      rw [if_pos hmem] at hfalse
      cases hfalse
    next => rfl
  unfold ListenerManager.UpToDate at hup
  unfold removeOffer at hup ⊢
  dsimp only at hup ⊢
  rw [restarts_restartIf] at hup
  split at hup
  -- the relays changed, so a restart is due
  next => exact absurd hup (Nat.ne_of_lt (Nat.lt_succ_of_le hle))
  next hquiet =>
    intro url hurl
    rw [restartIf_offers] at hurl
    have hup' : m.UpToDate s := hup
    rcases hremoved : (s.offers.remove offerId).1 with _ | _
    · rw [hsame hremoved] at hurl
      exact hcovers hup' url hurl
    -- the relays that are listened on are the same as before
    rw [hremoved, Bool.true_and, decide_eq_true_eq, not_not] at hquiet
    obtain ⟨hne, hsource⟩ := mem_listenRelays.1 hurl
    rcases hsource with ⟨hneeds, hrelay⟩ | ⟨o, ho, rfl⟩
    · have hafter : url ∈ listenRelays tables (s.offers.remove offerId).2.list
          (s.effectiveRelay tables (clock 1)) :=
        mem_listenRelays.2 ⟨hne, .inl ⟨hneeds, by rw [hdefault hup', hrelay]⟩⟩
      have hset : url ∈ (s.listenRelayUrls tables (clock 0)).toFinset := by
        rw [← hquiet]
        exact List.mem_toFinset.2 hafter
      have hbefore := (mem_listenRelays.1 (List.mem_toFinset.1 hset)).2
      refine hcovers hup' url (mem_listenRelays.2 ⟨hne, ?_⟩)
      rcases hbefore with ⟨hneeds', -⟩ | hpinned
      · exact .inl ⟨hneeds', hrelay⟩
      · exact .inr hpinned
    · exact hcovers hup' _ (mem_listenRelays.2
        ⟨hne, .inr ⟨o, SavedOffers.mem_list_remove ho, rfl⟩⟩)

end RelayServer

namespace RelaySession

variable {b : Bech32} {tables : UrlTables} {normalizeUrl : String → String}
  {s s' : RelaySession} {a : SessionAction}

/-! ## The condition on a step -/

/-- The listener has its manager, and no restart was requested since it was told its relays. -/
def ListenerUp (s : RelaySession) : Prop := ∃ m, s.manager = some m ∧ m.UpToDate s.server

/-- The default relay is the one that the manager was told, unless a restart is due. -/
def DefaultKept (tables : CharTables) (s : RelaySession) (now : Time) : Prop :=
  ∀ m, s.manager = some m → m.UpToDate s.server →
    s.server.effectiveRelay tables now = m.defaultRelay

/-- `create_offer` is called while the listener is up, and every decision on a restart looks at the
default relay that the manager was told. -/
def Steady (tables : CharTables) (s : RelaySession) : SessionAction → Prop
  | .create call =>
    s.ListenerUp ∧
      (s.server.freshSelection (call.clock 0) = none ∨ s.DefaultKept tables (call.clock 2))
  -- a pick compares with the default relay from before its probes
  | .probed _ => ∀ pick call m, s.pick = some pick → pick.caller = .createOffer call →
    s.manager = some m → m.UpToDate s.server → pick.pending.prevRelay = m.defaultRelay
  | .createCustom _ => s.ListenerUp
  | .probedCustom i => ∀ custom, s.customs[i]? = some custom →
    s.DefaultKept tables (custom.call.clock 2)
  | .removeOffer _ clock => s.DefaultKept tables (clock 1)
  | .pinMissingRelays _ => False
  | _ => True

/-! ## The invariant -/

/-- The manager covers the offers unless a restart is due, and it was told its relays no earlier
than an open `create_offer` began. -/
structure CoverageInv (tables : CharTables) (normalizeUrl : String → String) (s : RelaySession) :
    Prop where
  covers : ∀ m, s.manager = some m → m.UpToDate s.server → m.Covers tables normalizeUrl s.server
  told : ∀ m, s.manager = some m → m.restarts ≤ s.server.restarts
  pick : ∀ pick call, s.pick = some pick → pick.caller = .createOffer call →
    ∃ m, s.manager = some m ∧ pick.restarts ≤ m.restarts
  customs : ∀ custom ∈ s.customs, ∃ m, s.manager = some m ∧ custom.restarts ≤ m.restarts
  created : ∀ c ∈ s.creations, c.restarted = true ∨ c.covered = true

/-- A change of the server that asks for a restart, or leaves the offers. -/
theorem CoverageInv.of_server (hinv : CoverageInv tables.toCharTables normalizeUrl s)
    {server : RelayServer} (hle : s.server.restarts ≤ server.restarts)
    (hkeep : ∀ m, s.manager = some m → m.UpToDate s.server → m.UpToDate server →
      m.Covers tables.toCharTables normalizeUrl s.server →
        m.Covers tables.toCharTables normalizeUrl server) :
    CoverageInv tables.toCharTables normalizeUrl { s with server := server } := by
  refine ⟨fun m hm hup => ?_, fun m hm => (hinv.told m hm).trans hle, hinv.pick, hinv.customs,
    hinv.created⟩
  -- the manager was up to date before, too
  have hup' : m.UpToDate s.server := le_antisymm (hinv.told m hm) (hle.trans (ge_of_eq hup))
  exact hkeep m hm hup' hup (hinv.covers m hm hup')

/-- Setting a field of an offer other than its relay changes nothing about the relays. -/
theorem covers_update {m : ListenerManager} {server : RelayServer} {offerId : String}
    {f : Offer → Offer} (hf : ∀ o, (f o).relay = o.relay)
    (hcovers : m.Covers tables.toCharTables normalizeUrl server) :
    m.Covers tables.toCharTables normalizeUrl
      { server with offers := (server.offers.update offerId f).2 } := by
  -- every relay of the new offers is one of an old offer
  have hall : SavedOffers.All (fun o => ∃ o' ∈ server.offers.list, o.relay = o'.relay)
      (server.offers.update offerId f).2 :=
    SavedOffers.All.update
      (fun offerId o hget => ⟨o, List.mem_map.2 ⟨(offerId, o), Dict.get?_eq_some_iff.1 hget, rfl⟩,
        rfl⟩) offerId fun o ho => by
        obtain ⟨o', ho', hrelay⟩ := ho
        exact ⟨o', ho', (hf o).trans hrelay⟩
  have hempty : (server.offers.update offerId f).2.list = [] → server.offers.list = [] := by
    intro hnil
    unfold SavedOffers.update at hnil
    split at hnil
    next => exact hnil
    next => exact absurd hnil (SavedOffers.list_write_set_ne_nil _ _ _)
  intro url hurl
  obtain ⟨hne, hsource⟩ := mem_listenRelays.1 hurl
  refine hcovers url (mem_listenRelays.2 ⟨hne, ?_⟩)
  rcases hsource with ⟨hneeds, hrelay⟩ | ⟨o, ho, rfl⟩
  · refine .inl ⟨?_, hrelay⟩
    rcases hneeds with hnil | ⟨o, ho, hlacks⟩
    · exact .inl (hempty hnil)
    · obtain ⟨o', ho', hrelay'⟩ := hall.of_mem_list ho
      refine .inr ⟨o', ho', ?_⟩
      rw [SavedOffers.lacksRelay, ← hrelay']
      exact hlacks
  · obtain ⟨o', ho', hrelay'⟩ := hall.of_mem_list ho
    exact .inr ⟨o', ho', by rw [hrelay']⟩

/-! ## Adding an offer -/

/-- A `create_offer` that returns keeps the invariant, if its last step asks for a restart or
leaves a manager that sits on the relay. -/
theorem CoverageInv.record {server : RelayServer} (relay : String) {restarts : ℕ}
    {result : Except CallError CreatedOffer}
    (hinv : CoverageInv tables.toCharTables normalizeUrl s)
    (hle : s.server.restarts ≤ server.restarts)
    (hadded : ∀ m, s.manager = some m → m.UpToDate server →
      normalizeUrl relay ∈ m.relays ∧ m.Covers tables.toCharTables normalizeUrl server ∧
        ∀ created, result = .ok created → created.relay = relay)
    (hopen : ∃ m, s.manager = some m ∧ restarts ≤ m.restarts) :
    CoverageInv tables.toCharTables normalizeUrl
      (recordCreation normalizeUrl { s with server := server } restarts result) := by
  have hserver := hinv.of_server hle fun m hm _ hup _ => (hadded m hm hup).2.1
  rcases result with e | created
  · exact hserver
  refine ⟨hserver.covers, hserver.told, hserver.pick, hserver.customs, fun c hc => ?_⟩
  rcases List.mem_append.1 hc with hc | hc
  · exact hserver.created c hc
  obtain rfl := List.mem_singleton.1 hc
  by_cases hrestarted : restarts < server.restarts
  · exact .inl (decide_eq_true hrestarted)
  · -- no restart during the call: the manager is up to date at its end
    right
    obtain ⟨m, hm, htold⟩ := hopen
    have hup : m.UpToDate server :=
      le_antisymm ((hinv.told m hm).trans hle) ((not_lt.1 hrestarted).trans htold)
    obtain ⟨hmem, -, hrelay⟩ := hadded m hm hup
    show Option.any (fun m => decide (normalizeUrl created.relay ∈ m.relays)) s.manager = true
    rw [hm, hrelay created rfl]
    exact decide_eq_true hmem

/-- A `create_offer` that ends with adding an offer keeps the invariant. -/
theorem CoverageInv.addOffer {call : CreateCall} {relay : String} (relayCustom : Bool)
    {restarts : ℕ} {result : Except CallError CreatedOffer}
    (hinv : CoverageInv tables.toCharTables normalizeUrl s)
    (hopen : ∃ m, s.manager = some m ∧ restarts ≤ m.restarts)
    (hdefault : ∀ m, s.manager = some m → m.UpToDate s.server →
      relay = tables.stripText (s.server.effectiveRelay tables.toCharTables (call.clock 2)) →
        relay = tables.stripText m.defaultRelay)
    (hresult : ∀ created, result = .ok created →
      created.relay = relay ∨ created.relay = tables.stripText relay) :
    CoverageInv tables.toCharTables normalizeUrl
      (recordCreation normalizeUrl
        { s with
          server := (s.server.addOffer b tables.toCharTables call relay relayCustom).2 }
        restarts result) := by
  refine hinv.record relay ?_ (fun m hm hup => ?_) hopen
  · rw [RelayServer.restarts_addOffer]
    split
    next => exact Nat.le_succ _
    next => exact le_rfl
  · obtain ⟨hstrip, hmem, hcovers⟩ := RelayServer.covers_addOffer relayCustom (hinv.covers m hm)
      (hinv.told m hm) (hdefault m hm) hup
    refine ⟨hmem, hcovers, fun created hcreated => ?_⟩
    rcases hresult created hcreated with h | h
    · exact h
    · exact h.trans hstrip

/-- Whoever awaited a pick keeps the invariant. -/
theorem CoverageInv.resume {caller : PickCaller} {restarts : ℕ} {sel : RelaySelection}
    (hinv : CoverageInv tables.toCharTables normalizeUrl s)
    (hopen : ∀ call, caller = .createOffer call → ∃ m, s.manager = some m ∧ restarts ≤ m.restarts)
    (hdefault : ∀ call m, caller = .createOffer call → s.manager = some m → m.UpToDate s.server →
      sel.relay ≠ "" →
      sel.relay = tables.stripText (s.server.effectiveRelay tables.toCharTables (call.clock 2)) →
        sel.relay = tables.stripText m.defaultRelay) :
    CoverageInv tables.toCharTables normalizeUrl
      (s.resume b tables normalizeUrl caller restarts sel) := by
  rcases caller with call | _
  case other => exact hinv
  case createOffer =>
    unfold RelaySession.resume
    dsimp only
    rcases createFrom_cases b tables s.server call sel with ⟨e, herror, hserver⟩ |
      ⟨hne, hserver, hcreated⟩
    · rw [herror, hserver]
      exact hinv
    · rw [hserver]
      exact hinv.addOffer false (hopen call rfl) (fun m hm hup => hdefault call m rfl hm hup hne)
        fun created h => .inr (hcreated created h)

/-! ## The steps -/

/-- What is written down of a pick is not part of the invariant. -/
theorem CoverageInv.recordPick (hinv : CoverageInv tables.toCharTables normalizeUrl s)
    (sel : RelaySelection) (candidates : List String) (probed : List ProbeResult) :
    CoverageInv tables.toCharTables normalizeUrl
      (s.recordPick tables.toCharTables sel candidates probed) :=
  ⟨hinv.covers, hinv.told, hinv.pick, hinv.customs, hinv.created⟩

theorem CoverageInv.beginPick {caller : PickCaller} {force : Bool} {clock : ℕ → Time}
    (hinv : CoverageInv tables.toCharTables normalizeUrl s)
    (hup : ∀ call, caller = .createOffer call → s.ListenerUp)
    (hdefault : ∀ call, caller = .createOffer call →
      s.server.freshSelection (clock 0) = none ∨
        s.DefaultKept tables.toCharTables (call.clock 2)) :
    CoverageInv tables.toCharTables normalizeUrl
      (s.beginPick b tables normalizeUrl caller force clock) := by
  have hopen : ∀ call, caller = .createOffer call →
      ∃ m, s.manager = some m ∧ s.server.restarts ≤ m.restarts := by
    intro call hcall
    obtain ⟨m, hm, hrestarts⟩ := hup call hcall
    exact ⟨m, hm, ge_of_eq hrestarts⟩
  unfold RelaySession.beginPick
  rcases RelayServer.pickBegin_cases tables.toCharTables s.server force clock with
    ⟨sel, server, -, hfresh, hbegin, -⟩ | ⟨-, hbegin⟩
  · -- served from the cache
    have hserver := RelayServer.pickBegin_cached hbegin
    have hle : s.server.restarts ≤ server.restarts := by
      rcases hserver with rfl | h
      · exact le_rfl
      · exact h ▸ Nat.le_succ _
    have hsame : ∀ m : ListenerManager, m.restarts ≤ s.server.restarts → m.UpToDate server →
        server = s.server := by
      intro m htold hm
      rcases hserver with rfl | h
      · rfl
      · unfold ListenerManager.UpToDate at hm
        omega
    rw [hbegin]
    dsimp only
    have hpinned : CoverageInv tables.toCharTables normalizeUrl { s with server := server } :=
      hinv.of_server hle fun m hm _ hupdate hcovers =>
        (hsame m (hinv.told m hm) hupdate).symm ▸ hcovers
    refine (hpinned.recordPick sel _ []).resume hopen ?_
    intro call m hcall hm hupdate _ hrelay
    have hserver_eq : server = s.server := hsame m (hinv.told m hm) hupdate
    -- the pick was served from the cache, so the default is that of the last manager
    have hkept : s.DefaultKept tables.toCharTables (call.clock 2) := by
      rcases hdefault call hcall with hnone | hkept
      · rw [hfresh] at hnone
        cases hnone
      · exact hkept
    have hrelay' : sel.relay = tables.stripText
        (server.effectiveRelay tables.toCharTables (call.clock 2)) := hrelay
    rwa [hserver_eq, hkept m hm (hserver_eq ▸ hupdate)] at hrelay'
  · rw [hbegin]
    refine ⟨hinv.covers, hinv.told, fun pick call hpick hcall => ?_, hinv.customs, hinv.created⟩
    obtain rfl := Option.some.inj hpick
    exact hopen call hcall

theorem CoverageInv.endPick {pick : OpenPick} {probes : Probes}
    (hinv : CoverageInv tables.toCharTables normalizeUrl s) (hpick : s.pick = some pick)
    (hdefault : ∀ call m, pick.caller = .createOffer call → s.manager = some m →
      m.UpToDate s.server → pick.pending.prevRelay = m.defaultRelay) :
    CoverageInv tables.toCharTables normalizeUrl
      (s.endPick b tables normalizeUrl pick probes) := by
  have hclosed : CoverageInv tables.toCharTables normalizeUrl { s with pick := none } := by
    refine ⟨hinv.covers, hinv.told, ?_, hinv.customs, hinv.created⟩
    rintro _ _ ⟨⟩
  unfold RelaySession.endPick
  rcases selectPayableRelay tables.toCharTables pick.pending.candidates probes with e | sel
  · exact hclosed
  dsimp only
  have hfinish := RelayServer.pickFinish_restarts tables.toCharTables s.server
    pick.pending sel
  generalize s.server.pickFinish tables.toCharTables pick.pending sel = server at hfinish ⊢
  -- a restart is due, or the pick found the default relay again and pinned nothing
  have hsame : ∀ m : ListenerManager, m.restarts ≤ s.server.restarts → m.UpToDate server →
      server.restarts = s.server.restarts ∧ server.offers = s.server.offers ∧
        (sel.relay = "" ∨ sel.relay = pick.pending.prevRelay) := by
    intro m htold hm
    rcases hfinish with h | h
    · unfold ListenerManager.UpToDate at hm
      omega
    · exact h
  have hle : s.server.restarts ≤ server.restarts := by
    rcases hfinish with h | ⟨h, -⟩ <;> omega
  have hpicked : CoverageInv tables.toCharTables normalizeUrl
      { s with server := server, pick := none } := by
    refine hclosed.of_server hle fun m hm _ hupdate hcovers => ?_
    unfold ListenerManager.Covers
    rw [(hsame m (hinv.told m hm) hupdate).2.1]
    exact hcovers
  refine (hpicked.recordPick sel pick.pending.candidates sel.results).resume
    (fun call hcall => hinv.pick pick call hpick hcall) ?_
  intro call m hcall hm hupdate hne hrelay
  obtain ⟨hrestarts, -, hprev⟩ := hsame m (hinv.told m hm) hupdate
  have hupdate' : m.UpToDate s.server := Eq.trans hupdate hrestarts
  have hdefault_eq : m.defaultRelay = sel.relay :=
    (hdefault call m hcall hm hupdate').symm.trans (hprev.resolve_left hne).symm
  rw [hdefault_eq, hrelay, tables.stripText_stripText]

theorem CoverageInv.endCustom {i : ℕ} {custom : OpenCustom}
    (hinv : CoverageInv tables.toCharTables normalizeUrl s) (hcustom : s.customs[i]? = some custom)
    (hdefault : s.DefaultKept tables.toCharTables (custom.call.clock 2)) :
    CoverageInv tables.toCharTables normalizeUrl
      (endCustom b tables normalizeUrl { s with customs := s.customs.eraseIdx i } custom) := by
  have hclosed : CoverageInv tables.toCharTables normalizeUrl
      { s with customs := s.customs.eraseIdx i } :=
    ⟨hinv.covers, hinv.told, hinv.pick,
      fun c hc => hinv.customs c (List.mem_of_mem_eraseIdx hc), hinv.created⟩
  unfold RelaySession.endCustom
  rcases probeRelayPayable custom.call.probes 0 custom.relay with e | probe
  · exact hclosed
  dsimp only
  rcases createCustomFrom_cases b tables s.server custom.call custom.relay probe with
    ⟨e, herror, hserver⟩ | ⟨hserver, hcreated⟩
  · rw [herror, hserver]
    exact hclosed
  · rw [hserver]
    refine hclosed.addOffer true (hinv.customs custom (List.mem_of_getElem? hcustom)) ?_
      fun created h => .inl (hcreated created h)
    intro m hm hupdate hrelay
    have hrelay' : custom.relay = tables.stripText
        (s.server.effectiveRelay tables.toCharTables (custom.call.clock 2)) := hrelay
    rwa [hdefault m hm hupdate] at hrelay'

/-- A manager that is told what to listen on covers the offers. -/
theorem CoverageInv.tell {m : ListenerManager} {now : Time}
    (hinv : CoverageInv tables.toCharTables normalizeUrl s)
    (hm : (s.managerFor tables.toCharTables normalizeUrl now).relays ⊆ m.relays)
    (hdefault : m.defaultRelay = s.server.effectiveRelay tables.toCharTables now)
    (hrestarts : m.restarts = s.server.restarts) :
    CoverageInv tables.toCharTables normalizeUrl { s with manager := some m } := by
  have htold : ∀ {restarts : ℕ}, (∃ m, s.manager = some m ∧ restarts ≤ m.restarts) →
      ∃ m', some m = some m' ∧ restarts ≤ m'.restarts := by
    rintro restarts ⟨m', hm', hle⟩
    exact ⟨m, rfl, hrestarts ▸ hle.trans (hinv.told m' hm')⟩
  refine ⟨?_, ?_, fun pick call hpick hcall => htold (hinv.pick pick call hpick hcall),
    fun custom hcustom => htold (hinv.customs custom hcustom), hinv.created⟩
  · rintro _ ⟨⟩ - url hurl
    rw [hdefault] at hurl
    exact hm (List.mem_map_of_mem hurl)
  · rintro _ ⟨⟩
    exact le_of_eq hrestarts

/-- A steady step keeps the listener covered. -/
theorem coverage_step (hinv : CoverageInv tables.toCharTables normalizeUrl s)
    (hsteady : s.Steady tables.toCharTables a) (h : step b tables normalizeUrl s a = some s') :
    CoverageInv tables.toCharTables normalizeUrl s' := by
  rcases a with call | ⟨force, clock⟩ | probes | call | i | ⟨offerId, clock⟩ | ⟨offerId, label⟩ |
    ⟨offerId, active⟩ | ⟨offerId, allow⟩ | relay | relay | relays | now | now | _
  case create =>
    obtain ⟨-, hstep⟩ := Option.ite_none_right_eq_some.1 h
    obtain rfl := Option.some.inj hstep
    exact hinv.beginPick (fun _ _ => hsteady.1) fun _ hcall =>
      PickCaller.createOffer.inj hcall ▸ hsteady.2
  case pick =>
    obtain ⟨-, hstep⟩ := Option.ite_none_right_eq_some.1 h
    obtain rfl := Option.some.inj hstep
    exact hinv.beginPick (fun _ hcall => nomatch hcall) fun _ hcall => nomatch hcall
  case probed =>
    obtain ⟨pick, hpick, rfl⟩ := Option.map_eq_some_iff.1 h
    exact hinv.endPick hpick fun call m hcall hm => hsteady pick call m hpick hcall hm
  case createCustom =>
    obtain ⟨-, hstep⟩ := Option.ite_none_right_eq_some.1 h
    obtain rfl := Option.some.inj hstep
    unfold beginCustom
    split
    next => exact hinv
    next =>
      refine ⟨hinv.covers, hinv.told, hinv.pick, fun custom hcustom => ?_, hinv.created⟩
      rcases List.mem_append.1 hcustom with hold | hnew
      · exact hinv.customs custom hold
      · obtain rfl := List.mem_singleton.1 hnew
        obtain ⟨m, hm, hup⟩ := hsteady
        exact ⟨m, hm, ge_of_eq hup⟩
  case probedCustom =>
    obtain ⟨custom, hcustom, rfl⟩ := Option.map_eq_some_iff.1 h
    exact hinv.endCustom hcustom (hsteady custom hcustom)
  case removeOffer =>
    obtain rfl := Option.some.inj h
    refine hinv.of_server ?_ fun m hm hup hup' hcovers =>
      RelayServer.covers_removeOffer (fun _ => hcovers) (hinv.told m hm) (hsteady m hm) hup'
    unfold RelayServer.removeOffer
    dsimp only
    rw [RelayServer.restarts_restartIf]
    split
    next => exact Nat.le_succ _
    next => exact le_rfl
  case setLabel =>
    obtain rfl := Option.some.inj h
    exact hinv.of_server le_rfl fun _ _ _ _ hcovers => covers_update (fun _ => rfl) hcovers
  case setActive =>
    obtain rfl := Option.some.inj h
    exact hinv.of_server le_rfl fun _ _ _ _ hcovers => covers_update (fun _ => rfl) hcovers
  case setAllowPayerMemo =>
    obtain rfl := Option.some.inj h
    exact hinv.of_server le_rfl fun _ _ _ _ hcovers => covers_update (fun _ => rfl) hcovers
  case pinMissingRelays => exact hsteady.elim
  case setRelay =>
    obtain rfl := Option.some.inj h
    -- the restart that is requested rebuilds the manager
    refine hinv.of_server (Nat.le_succ _) fun m hm hup hup' _ => ?_
    exact absurd (hup.symm.trans hup') (Nat.succ_ne_self _).symm
  case setNostrRelays =>
    obtain rfl := Option.some.inj h
    exact hinv.of_server le_rfl fun _ _ _ _ hcovers => hcovers
  case buildManager =>
    obtain rfl := Option.some.inj h
    exact hinv.tell (fun _ hurl => hurl) rfl rfl
  case ensureListener =>
    obtain rfl := Option.some.inj h
    unfold ensureListenerRelays
    split
    next => exact hinv
    next m hm =>
      dsimp only
      split
      next hsub => exact hinv.tell hsub rfl rfl
      next => exact hinv.tell (fun _ hurl => hurl) rfl rfl
  case restart =>
    obtain ⟨t, -, rfl⟩ := Option.map_eq_some_iff.1 h
    refine ⟨?_, ?_, ?_, ?_, hinv.created⟩
    · rintro m ⟨⟩
    · rintro m ⟨⟩
    · rintro pick call ⟨⟩
    · rintro custom ⟨⟩

/-- In a steady run, every `create_offer` that returned an offer asked for a restart of the
listener, or its relay manager sat on the relay of the offer. -/
theorem created_offer_is_covered {server : RelayServer}
    (hs : Reachable b tables normalizeUrl (Steady tables.toCharTables) (start server) s) :
    ∀ c ∈ s.creations, c.restarted = true ∨ c.covered = true := by
  refine (hs.invariant (I := CoverageInv tables.toCharTables normalizeUrl) ?_
    fun _ _ _ hinv hsteady hstep => coverage_step hinv hsteady hstep).created
  refine ⟨?_, ?_, ?_, ?_, ?_⟩
  · rintro m ⟨⟩
  · rintro m ⟨⟩
  · rintro pick call ⟨⟩
  · rintro custom ⟨⟩
  · rintro c ⟨⟩

/-! ## Samples -/

/-- The sample server with a manager that was just built. -/
def sampleBuilt : RelaySession :=
  { start RelayServer.sample with
    manager := some ⟨["wss://first.example"], "wss://first.example", 0⟩ }

/-- The same, while a call awaits the probe of its relay. -/
def sampleOpen : RelaySession :=
  { sampleBuilt with
    customs := [⟨RelayServer.sampleCall "wss://mine.example", "wss://mine.example", 0⟩] }

/-- A listening server that creates an offer on a custom relay is restarted for it. -/
theorem created_offer_is_covered_custom :
    ∃ s : RelaySession, Reachable .reference RelayServer.asciiTables id
        (Steady RelayServer.asciiTables.toCharTables) (start RelayServer.sample) s ∧
      s.creations.length = 1 ∧ ∀ c ∈ s.creations, c.restarted = true ∨ c.covered = true := by
  have hbuild : step .reference RelayServer.asciiTables id (start RelayServer.sample)
      (.buildManager 0) = some sampleBuilt := by
    have hmanager :
        (start RelayServer.sample).managerFor RelayServer.asciiTables.toCharTables id 0 =
          ⟨["wss://first.example"], "wss://first.example", 0⟩ := by decide +kernel
    rw [step, hmanager]
    rfl
  have hopen : step .reference RelayServer.asciiTables id sampleBuilt
      (.createCustom (RelayServer.sampleCall "wss://mine.example")) = some sampleOpen := by
    have hblank : RelayServer.asciiTables.stripText "wss://mine.example" ≠ "" := by decide +kernel
    have hok : (normalizeRelayUrl RelayServer.asciiTables
        (RelayServer.asciiTables.stripText "wss://mine.example")).toOption =
          some "wss://mine.example" := by decide +kernel
    have hurl : normalizeRelayUrl RelayServer.asciiTables
        (RelayServer.asciiTables.stripText "wss://mine.example") = .ok "wss://mine.example" := by
      rcases hresult : normalizeRelayUrl RelayServer.asciiTables
        (RelayServer.asciiTables.stripText "wss://mine.example") with e | url
      · rw [hresult] at hok
        cases hok
      · rw [hresult] at hok
        exact congrArg Except.ok (Option.some.inj hok)
    exact step_createCustom_of_ok id hblank hurl
  have hbuilt : Reachable .reference RelayServer.asciiTables id
      (Steady RelayServer.asciiTables.toCharTables) (start RelayServer.sample) sampleBuilt :=
    .next (a := .buildManager 0) .init trivial hbuild
  have hopened : Reachable .reference RelayServer.asciiTables id
      (Steady RelayServer.asciiTables.toCharTables) (start RelayServer.sample) sampleOpen :=
    .next (a := .createCustom _) hbuilt ⟨_, rfl, rfl⟩ hopen
  -- the default relay is still the one that the manager was told
  have hsteady : Steady RelayServer.asciiTables.toCharTables sampleOpen (.probedCustom 0) := by
    intro custom hcustom m hm _
    obtain rfl := Option.some.inj hcustom
    obtain rfl := Option.some.inj hm
    decide +kernel
  have hprobed := hopened.next (a := .probedCustom 0) hsteady rfl
  exact ⟨_, hprobed, by decide +kernel, created_offer_is_covered hprobed⟩

/-- The sample server with two relays to choose from. -/
def sampleTwo : RelayServer :=
  { RelayServer.sample with nostrRelays := ["wss://first.example", "wss://second.example"] }

/-- Probes that only the second relay passes. -/
def onlySecond : Probes := fun _ relay =>
  some ⟨if relay = "wss://second.example" then .ok else .unreachable, none, ""⟩

/-- The second relay was picked and the manager was built for it. A day later the pick has lapsed,
and the first relay passes its probe: it is the default that the new pick compares with, so nobody
asks for a restart, but the manager does not sit on it. -/
theorem lapsed_pick_leaves_offer_uncovered :
    ∃ s, Transition.exec (step .reference RelayServer.asciiTables id) (start sampleTwo)
        [.pick false fun _ => 0, .probed onlySecond, .buildManager 0,
          .create { RelayServer.sampleCall "" with clock := fun _ => 86400 },
          .probed (sampleProbes .ok)] = some s ∧
      ∃ c ∈ s.creations, c.relay = "wss://first.example" ∧ c.restarted = false ∧
        c.covered = false := by
  have hexec : (Transition.exec (step .reference RelayServer.asciiTables id) (start sampleTwo)
      [.pick false fun _ => 0, .probed onlySecond, .buildManager 0,
        .create { RelayServer.sampleCall "" with clock := fun _ => 86400 },
        .probed (sampleProbes .ok)]).any (fun s => s.creations.any fun c =>
          c.relay == "wss://first.example" && !c.restarted && !c.covered) = true := by
    decide +kernel
  obtain ⟨s, hs, hat⟩ := (Option.any_eq_true _ _).1 hexec
  simp only [List.any_eq_true, Bool.and_eq_true, beq_iff_eq, Bool.not_eq_true'] at hat
  obtain ⟨c, hc, ⟨hrelay, hrestarted⟩, hcovered⟩ := hat
  exact ⟨s, hs, c, hc, hrelay, hrestarted, hcovered⟩

end RelaySession

end ElectrumClink
