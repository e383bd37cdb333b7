import ElectrumClink.Offers.AllOrNothing
import ElectrumClink.Relay.Session

/-!
# The noffer of a pinned offer

An offer with a relay of its own advertises that relay, whatever is picked, configured or reloaded
(`pinned_noffer_never_changes`). It ceases to do so when it is removed, or when a later offer draws
its id and takes its place (`redrawn_id_changes_noffer`).
-/

namespace ElectrumClink

/-! ## What the store keeps -/

namespace SavedOffers

variable {tables : CharTables} {s : SavedOffers} {offerId relay : String}

/-- The offer is there, and advertises this relay as its own. -/
def PinnedOn (tables : CharTables) (offerId relay : String) (s : SavedOffers) : Prop :=
  ∃ offer, s.get offerId = some offer ∧ tables.stripText offer.relay = relay

/-- Another offer that is written leaves the relay. -/
theorem PinnedOn.set_of_ne (h : PinnedOn tables offerId relay s) {other : String}
    (hne : offerId ≠ other) (offer : Offer) :
    PinnedOn tables offerId relay (s.write (s.offers.set other offer)) := by
  obtain ⟨o, hget, hrelay⟩ := h
  exact ⟨o, (Dict.get?_set_of_ne _ hne offer).trans hget, hrelay⟩

theorem PinnedOn.create_of_ne (h : PinnedOn tables offerId relay s) {token : Bytes}
    (hne : offerId ≠ Bytes.hex token) (now : Time) (label : String) (priceType : OfferPriceType)
    (price : Option ℤ) (allowPayerMemo : Bool) (relay' : String) (relayCustom : Bool) :
    PinnedOn tables offerId relay
      (s.create tables token now label priceType price allowPayerMemo relay' relayCustom).2 :=
  h.set_of_ne hne _

/-- Only offers without a relay are pinned. -/
theorem PinnedOn.pinMissingRelays (h : PinnedOn tables offerId relay s) (hne : relay ≠ "")
    (relay' : String) : PinnedOn tables offerId relay (s.pinMissingRelays tables relay').2 := by
  obtain ⟨o, hget, hrelay⟩ := h
  unfold SavedOffers.pinMissingRelays
  dsimp only
  split
  next => exact ⟨o, hget, hrelay⟩
  next =>
    split
    next => exact ⟨o, hget, hrelay⟩
    next =>
      -- an offer with a relay is not among those that are pinned
      have hhas : lacksRelay tables o = false := by
        rw [lacksRelay, hrelay]
        exact beq_eq_false_iff_ne.2 hne
      have hget' : s.offers.get? offerId = some o := hget
      refine ⟨o, ?_, hrelay⟩
      rw [get_write, Dict.get?_mapValues, hget', Option.map_some, hhas]
      rfl

theorem PinnedOn.remove_of_ne (h : PinnedOn tables offerId relay s) {other : String}
    (hne : offerId ≠ other) : PinnedOn tables offerId relay (s.remove other).2 := by
  obtain ⟨o, hget, hrelay⟩ := h
  unfold SavedOffers.remove
  split
  next => exact ⟨o, (Dict.get?_erase_of_ne _ hne).trans hget, hrelay⟩
  next => exact ⟨o, hget, hrelay⟩

/-- A setter that leaves the relay alone, of this offer or of another. -/
theorem PinnedOn.update (h : PinnedOn tables offerId relay s) (other : String) {f : Offer → Offer}
    (hf : ∀ o, (f o).relay = o.relay) : PinnedOn tables offerId relay (s.update other f).2 := by
  obtain ⟨o, hget, hrelay⟩ := h
  unfold SavedOffers.update
  split
  next => exact ⟨o, hget, hrelay⟩
  next o' hget' =>
    by_cases heq : offerId = other
    -- the setter is of this very offer, and leaves its relay
    · subst heq
      have hsame : o' = o := Option.some.inj (hget'.symm.trans hget)
      subst hsame
      exact ⟨f o', Dict.get?_set_self _ _ _, (congrArg tables.stripText (hf o')).trans hrelay⟩
    · exact ⟨o, (Dict.get?_set_of_ne _ heq _).trans hget, hrelay⟩

end SavedOffers

namespace RelayServer

variable {b : Bech32} {tables : UrlTables} {s t : RelayServer} {offerId relay : String}

/-- The noffer of a pinned offer does not depend on the clock or on what was picked. -/
theorem makeNoffer_of_pinnedOn
    (h : SavedOffers.PinnedOn tables.toCharTables offerId relay s.offers) (hne : relay ≠ "")
    (now : Time) :
    s.makeNoffer b tables.toCharTables offerId now =
      nofferEncode b
        { pubkey := s.pubkeyHex, relay := relay, offer := offerId, priceType := .spontaneous } := by
  obtain ⟨o, hget, hrelay⟩ := h
  rw [makeNoffer, offerRelay, hget, advertisedRelay, if_pos (hrelay.symm ▸ hne), hrelay]

/-- Storing an offer changes the offers, and asks for a restart unless the relay is listened on. -/
theorem addOffer_snd (b : Bech32) (tables : CharTables) (s : RelayServer) (call : CreateCall)
    (relay : String) (relayCustom : Bool) :
    (s.addOffer b tables call relay relayCustom).2 =
      restartIf
        { s with
          offers := (s.offers.create tables call.token (call.clock 3) call.label .spontaneous none
            call.allowPayerMemo relay relayCustom).2 }
        (decide (relay ∉ s.listenRelayUrls tables (call.clock 2))) := by
  unfold addOffer storeOffer
  dsimp only
  split <;> rfl

/-- A new server over the storage has the identity, the settings and the offers of the old one. -/
theorem restart_of_saved (hsaved : s.offers.Saved) (h : s.restart = .ok t) :
    t.identity = s.identity ∧ t.relaySetting = s.relaySetting ∧ t.nostrRelays = s.nostrRelays ∧
      t.offers = s.offers ∧ t.relaySelection = none := by
  unfold restart init at h
  rw [hsaved.load_storage] at h
  obtain rfl := Except.ok.inj h
  exact ⟨rfl, rfl, rfl, rfl, rfl⟩

end RelayServer

namespace RelaySession

variable {b : Bech32} {tables : UrlTables} {normalizeUrl : String → String}
  {s s' t : RelaySession} {a : SessionAction} {offerId relay : String}

/-! ## Runs -/

/-- The storage holds the offers. -/
theorem saved_step (hsaved : s.server.offers.Saved)
    (h : step b tables normalizeUrl s a = some s') : s'.server.offers.Saved := by
  have hpicked : ∀ {u : RelayServer} {sel : RelaySelection},
      RelayServer.Picked tables.toCharTables s.server u sel → u.offers.Saved := by
    intro u sel hpicked
    rw [hpicked.offers]
    split
    next => exact hsaved.pinMissingRelays sel.relay
    next => exact hsaved
  have hmove := serverMove_step h
  generalize s'.server = server at hmove ⊢
  rcases hmove with _ | ⟨hsel, hpick⟩ | ⟨relay, relayCustom, hcall, hstart⟩ |
    ⟨offerId, clock, -⟩ | ⟨offerId, f, hf⟩ | ⟨relay, -⟩ | ⟨relay, -⟩ | ⟨relays, -⟩ | ⟨-, hrestart⟩
  case stays => exact hsaved
  case picks => exact hpicked hpick
  case adds =>
    refine RelayServer.saved_addOffer ?_ _ relay relayCustom
    rcases hstart with rfl | ⟨sel, -, hpick⟩
    · exact hsaved
    · exact hpicked hpick
  case removes =>
    rw [RelayServer.removeOffer, RelayServer.restartIf_offers]
    exact hsaved.remove offerId
  case updates => exact hsaved.update offerId fun o => (hf o).1
  case pins => exact hsaved.pinMissingRelays relay
  case setsRelay => exact hsaved
  case setsNostrRelays => exact hsaved
  case restarts =>
    rw [(RelayServer.restart_of_saved hsaved hrestart).2.2.2.1]
    exact hsaved

/-- A step that neither removes the offer nor stores another one under its id. -/
structure Keeps (offerId : String) (s : RelaySession) (a : SessionAction) : Prop where
  notRemoved : ∀ clock, a ≠ .removeOffer offerId clock
  notRedrawn : ∀ call, s.Calls a call → call.offerId ≠ offerId

/-- The offer is pinned on a relay, and the storage holds it. -/
structure PinnedInv (tables : CharTables) (identity : PublicKey) (offerId relay : String)
    (s : RelaySession) : Prop where
  identity : s.server.identity = identity
  saved : s.server.offers.Saved
  pinned : s.server.offers.PinnedOn tables offerId relay

theorem pinned_step {identity : PublicKey} (hne : relay ≠ "")
    (hinv : PinnedInv tables.toCharTables identity offerId relay s) (hkeeps : Keeps offerId s a)
    (h : step b tables normalizeUrl s a = some s') :
    PinnedInv tables.toCharTables identity offerId relay s' := by
  suffices hsuffices : s'.server.identity = s.server.identity ∧
      s'.server.offers.PinnedOn tables.toCharTables offerId relay from
    ⟨hsuffices.1.trans hinv.identity, saved_step hinv.saved h, hsuffices.2⟩
  have hpinned := hinv.pinned
  have hpicked : ∀ {u : RelayServer} {sel : RelaySelection},
      RelayServer.Picked tables.toCharTables s.server u sel →
        u.offers.PinnedOn tables.toCharTables offerId relay := by
    intro u sel hpicked
    rw [hpicked.offers]
    split
    next => exact hpinned.pinMissingRelays hne sel.relay
    next => exact hpinned
  have hmove := serverMove_step h
  generalize s'.server = server at hmove ⊢
  rcases hmove with _ | ⟨hsel, hpick⟩ | ⟨relay', relayCustom, hcall, hstart⟩ |
    ⟨other, clock, haction⟩ | ⟨other, f, hf⟩ | ⟨relay', -⟩ | ⟨relay', -⟩ | ⟨relays, -⟩ |
    ⟨-, hrestart⟩
  case stays => exact ⟨rfl, hpinned⟩
  case picks => exact ⟨hpick.identity, hpicked hpick⟩
  case adds call u =>
    rw [RelayServer.addOffer_snd, RelayServer.restartIf_identity, RelayServer.restartIf_offers]
    -- the new offer is stored under another id
    have hother : offerId ≠ Bytes.hex call.token := fun heq => hkeeps.notRedrawn call hcall heq.symm
    rcases hstart with rfl | ⟨sel, -, hpick⟩
    · exact ⟨rfl, hpinned.create_of_ne hother _ _ _ _ _ _ _⟩
    · exact ⟨hpick.identity, (hpicked hpick).create_of_ne hother _ _ _ _ _ _ _⟩
  case removes =>
    rw [RelayServer.removeOffer, RelayServer.restartIf_identity, RelayServer.restartIf_offers]
    refine ⟨rfl, hpinned.remove_of_ne fun heq => ?_⟩
    subst heq
    exact hkeeps.notRemoved clock haction
  case updates => exact ⟨rfl, hpinned.update other fun o => (hf o).2⟩
  case pins => exact ⟨rfl, hpinned.pinMissingRelays hne relay'⟩
  case setsRelay => exact ⟨rfl, hpinned⟩
  case setsNostrRelays => exact ⟨rfl, hpinned⟩
  case restarts =>
    -- what the storage holds is what the old server had: here `saved` is needed
    obtain ⟨hidentity, -, -, hoffers, -⟩ := RelayServer.restart_of_saved hinv.saved hrestart
    exact ⟨hidentity, hoffers ▸ hpinned⟩

/-- Once an offer has a relay, its noffer is the same in every later state, until the offer is
removed or another one is stored under its id. -/
theorem pinned_noffer_never_changes {identity : PublicKey} {relaySetting : String}
    {nostrRelays : List String} {storage : List StoredOffer} {server : RelayServer}
    (hinit : RelayServer.init identity relaySetting nostrRelays storage = .ok server)
    (hs : Reachable b tables normalizeUrl (fun _ _ => True) (start server) s)
    {offer : Offer} (hget : s.server.offers.get offerId = some offer)
    (hpinned : tables.stripText offer.relay ≠ "")
    (ht : Reachable b tables normalizeUrl (Keeps offerId) s t) (now now' : Time) :
    t.server.makeNoffer b tables.toCharTables offerId now' =
      s.server.makeNoffer b tables.toCharTables offerId now := by
  have hsaved : s.server.offers.Saved := by
    refine hs.invariant (I := fun s => s.server.offers.Saved) ?_ fun s a s' hsaved _ hstep =>
      saved_step hsaved hstep
    exact SavedOffers.saved_of_load (RelayServer.init_eq_ok hinit).2
  have hinv : PinnedInv tables.toCharTables s.server.identity offerId
      (tables.stripText offer.relay) t :=
    ht.invariant ⟨rfl, hsaved, offer, hget, rfl⟩ fun s a s' hinv hkeeps hstep =>
      pinned_step hpinned hinv hkeeps hstep
  rw [RelayServer.makeNoffer_of_pinnedOn hinv.pinned hpinned,
    RelayServer.makeNoffer_of_pinnedOn ⟨offer, hget, rfl⟩ hpinned, RelayServer.pubkeyHex,
    hinv.identity, RelayServer.pubkeyHex]

/-! ## Samples -/

/-- An offer is created on a custom relay. -/
def sampleCreate (relay : String) : List SessionAction :=
  [.createCustom (RelayServer.sampleCall relay), .probedCustom 0]

/-- The id of the sample offer. -/
def sampleId : String := (RelayServer.sampleCall "").offerId

/-- The sample offer is there, with a relay of its own. -/
def samplePinned (relay : String) (s : RelaySession) : Bool :=
  (s.server.offers.get sampleId).any fun o => RelayServer.asciiTables.stripText o.relay == relay

/-- A pinned offer keeps its noffer when the wallet's relay is changed. -/
theorem pinned_noffer_never_changes_setRelay :
    ∃ s, Reachable .reference RelayServer.asciiTables id (fun _ _ => True)
        (start RelayServer.sample) s ∧
      samplePinned "wss://mine.example" s = true ∧ ∀ now now' : Time,
        (s.server.setRelay "wss://other.example").makeNoffer .reference
          RelayServer.asciiTables.toCharTables sampleId now' =
            s.server.makeNoffer .reference RelayServer.asciiTables.toCharTables sampleId now := by
  have hexec : (Transition.exec (step .reference RelayServer.asciiTables id)
      (start RelayServer.sample) (sampleCreate "wss://mine.example")).any
        (samplePinned "wss://mine.example") = true := by
    decide +kernel
  obtain ⟨s, hs, hpinned⟩ := Transition.exists_reachable_of_exec hexec
  refine ⟨s, hs, hpinned, fun now now' => ?_⟩
  obtain ⟨offer, hget, hrelay⟩ := (Option.any_eq_true _ _).1 hpinned
  have hinit : RelayServer.init RelayServer.sample.identity "" ["wss://first.example"] [] =
      .ok RelayServer.sample := rfl
  have hstep : step .reference RelayServer.asciiTables id s (.setRelay "wss://other.example") =
      some { s with server := s.server.setRelay "wss://other.example" } := rfl
  refine pinned_noffer_never_changes hinit hs hget ?_ (.next .init ⟨?_, ?_⟩ hstep) now now'
  · rw [beq_iff_eq.1 hrelay]
    decide
  · rintro clock ⟨⟩
  · rintro call ⟨⟩

/-- Nothing keeps a second call from drawing the id of an offer: the offer is overwritten, and its
noffer names another relay. -/
theorem redrawn_id_changes_noffer :
    ∃ s t, Reachable .reference RelayServer.asciiTables id (fun _ _ => True)
        (start RelayServer.sample) s ∧
      samplePinned "wss://mine.example" s = true ∧
      Reachable .reference RelayServer.asciiTables id
        (fun _ a => ∀ clock, a ≠ .removeOffer sampleId clock) s t ∧
      ∀ now now' : Time,
        t.server.makeNoffer .reference RelayServer.asciiTables.toCharTables sampleId now' ≠
          s.server.makeNoffer .reference RelayServer.asciiTables.toCharTables sampleId now := by
  have hexec : (Transition.exec (step .reference RelayServer.asciiTables id)
      (start RelayServer.sample) (sampleCreate "wss://mine.example")).any (fun s =>
        samplePinned "wss://mine.example" s &&
        (Transition.exec (step .reference RelayServer.asciiTables id) s
          (sampleCreate "wss://other.example")).any fun t =>
            samplePinned "wss://other.example" t &&
              t.server.pubkeyHex == RelayServer.sample.pubkeyHex &&
              s.server.pubkeyHex == RelayServer.sample.pubkeyHex) = true := by
    decide +kernel
  obtain ⟨s, hs, hboth⟩ := Transition.exists_reachable_of_exec hexec
  obtain ⟨hmine, hother⟩ := Bool.and_eq_true_iff.1 hboth
  obtain ⟨t, ht, hat⟩ := (Option.any_eq_true _ _).1 hother
  simp only [Bool.and_eq_true, beq_iff_eq] at hat
  obtain ⟨⟨hpinned, hkey⟩, hkey'⟩ := hat
  refine ⟨s, t, hs, hmine, Transition.Reachable.init.exec ?_ ht, fun now now' heq => ?_⟩
  · intro a ha _ clock
    simp only [sampleCreate, List.mem_cons, List.not_mem_nil, or_false] at ha
    rcases ha with rfl | rfl <;> rintro ⟨⟩
  · obtain ⟨o, hget, hrelay⟩ := (Option.any_eq_true _ _).1 hmine
    obtain ⟨o', hget', hrelay'⟩ := (Option.any_eq_true _ _).1 hpinned
    have hne : ("wss://mine.example" : String) ≠ "" := by decide
    have hne' : ("wss://other.example" : String) ≠ "" := by decide
    rw [RelayServer.makeNoffer_of_pinnedOn ⟨o', hget', beq_iff_eq.1 hrelay'⟩ hne',
      RelayServer.makeNoffer_of_pinnedOn ⟨o, hget, beq_iff_eq.1 hrelay⟩ hne, hkey, hkey'] at heq
    have hnoffers := congrArg Except.toOption heq
    revert hnoffers
    decide +kernel

end RelaySession

end ElectrumClink
