import ElectrumClink.Data.Transition
import ElectrumClink.Offers.Create

/-!
# Runs of the offer functions

What can happen to the offers of a wallet and to its relay selection, one call after the other, over
any number of sessions: a restart builds a new server over the same storage.

* `selectionInv_step`: a cached selection that claims to be payable is a relay that can be pinned.
* `saved_step`: the storage always holds the offers.
* `listable_step`: while every created offer gets a relay that fits, every offer has one.
-/

namespace ElectrumClink

namespace RelayServer

/-- `remove_offer`: the listener is restarted when it no longer needs all its relays. -/
def removeOffer (tables : CharTables) (s : RelayServer) (offerId : String) (clock : ℕ → Time) :
    Bool × RelayServer :=
  let before := (s.listenRelayUrls tables (clock 0)).toFinset
  let removed := s.offers.remove offerId
  let s := { s with offers := removed.2 }
  (removed.1, s.restartIf
    (removed.1 && decide ((s.listenRelayUrls tables (clock 1)).toFinset ≠ before)))

/-- The server of the next session: a new one, over the same storage. -/
def restart (s : RelayServer) : Except PyError RelayServer :=
  init s.identity s.relaySetting s.nostrRelays s.offers.storage

end RelayServer

/-- A call, with what it meets outside the server, or a change of a setting. -/
inductive OfferAction
  | createOffer (call : CreateCall)
  | removeOffer (offerId : String) (clock : ℕ → Time)
  | setLabel (offerId label : String)
  | setActive (offerId : String) (active : Bool)
  | setAllowPayerMemo (offerId : String) (allow : Bool)
  | pinMissingRelays (relay : String)
  | pick (force : Bool) (clock : ℕ → Time) (probes : Probes)
  | ensurePinned (clock : ℕ → Time) (probes : Probes)
  | setRelay (relay : String)
  | setNostrRelays (relays : List String)
  | restart

namespace RelayServer

/-- Perform an action; a restart fails when the storage cannot be read. -/
def step (b : Bech32) (tables : UrlTables) (s : RelayServer) : OfferAction → Option RelayServer
  | .createOffer call => some (s.createOffer b tables call).2
  | .removeOffer offerId clock => some (s.removeOffer tables.toCharTables offerId clock).2
  | .setLabel offerId label => some { s with offers := (s.offers.setLabel offerId label).2 }
  | .setActive offerId active => some { s with offers := (s.offers.setActive offerId active).2 }
  | .setAllowPayerMemo offerId allow =>
    some { s with offers := (s.offers.setAllowPayerMemo offerId allow).2 }
  | .pinMissingRelays relay =>
    some { s with offers := (s.offers.pinMissingRelays tables.toCharTables relay).2 }
  | .pick force clock probes => some (s.pickPayableRelay tables.toCharTables force clock probes).2
  | .ensurePinned clock probes =>
    some (s.ensureOfferRelaysPinned tables.toCharTables clock probes)
  | .setRelay relay => some (s.setRelay relay)
  | .setNostrRelays relays => some { s with nostrRelays := relays }
  | .restart => s.restart.toOption

variable {b : Bech32} {tables : UrlTables} {s s' : RelayServer} {a : OfferAction}

/-- The states that a run of actions that meet `P` reaches. -/
abbrev Reachable (b : Bech32) (tables : UrlTables) (P : RelayServer → OfferAction → Prop)
    (init : RelayServer) : RelayServer → Prop :=
  Transition.Reachable (step b tables) P init

/-- `create_offer` may pick a relay, and may add an offer to what the pick left. -/
theorem createOffer_snd (b : Bech32) (tables : UrlTables) (s : RelayServer) (call : CreateCall) :
    ∃ t : RelayServer, (t = s ∨ ∃ result,
        s.pickPayableRelay tables.toCharTables false call.clock call.probes = (result, t)) ∧
      ((s.createOffer b tables call).2 = t ∨ ∃ relay relayCustom,
        (s.createOffer b tables call).2 =
          (t.addOffer b tables.toCharTables call relay relayCustom).2) := by
  unfold createOffer
  dsimp only
  split
  next =>
    refine ⟨s, .inl rfl, ?_⟩
    -- a custom relay is never picked
    unfold createOfferCustomRelay
    split
    next => exact .inl rfl
    next relay _ =>
      split
      next => exact .inl rfl
      next probe _ =>
        cases probe.ok with
        | false =>
          left
          simp only [Bool.not_false, if_true]
        | true =>
          refine .inr ⟨relay, true, ?_⟩
          simp only [Bool.not_true, Bool.false_eq_true, if_false]
  next =>
    split
    next e t hpick => exact ⟨t, .inr ⟨_, hpick⟩, .inl rfl⟩
    next selection t hpick =>
      refine ⟨t, .inr ⟨_, hpick⟩, ?_⟩
      split
      next =>
        left
        dsimp only
      next =>
        refine .inr ⟨selection.relay, false, ?_⟩
        dsimp only

/-! ## The selection -/

/-- What `create_offer` leaves in the cache is what was there, or what its pick put there. -/
theorem selectionInv_createOffer {call : CreateCall} (hinv : SelectionInv tables.toCharTables s) :
    SelectionInv tables.toCharTables (s.createOffer b tables call).2 := by
  obtain ⟨t, hstart, hend⟩ := createOffer_snd b tables s call
  have ht : SelectionInv tables.toCharTables t := by
    rcases hstart with rfl | ⟨result, hpick⟩
    · exact hinv
    · exact hinv.pick hpick
  rcases hend with hend | ⟨relay, relayCustom, hend⟩
  · rwa [hend]
  · intro sel hsel
    rw [hend, addOffer_relaySelection] at hsel
    exact ht sel hsel

/-- A new server has no selection, and the offers that the storage holds. -/
theorem init_eq_ok {identity : PublicKey} {relaySetting : String} {nostrRelays : List String}
    {storage : List StoredOffer} (h : init identity relaySetting nostrRelays storage = .ok s) :
    s.relaySelection = none ∧ SavedOffers.load storage = .ok s.offers := by
  unfold init at h
  rcases hload : SavedOffers.load storage with e | offers
  · rw [hload] at h
    cases h
  · rw [hload] at h
    obtain rfl := Except.ok.inj h
    exact ⟨rfl, rfl⟩

theorem restart_eq_ok (h : step b tables s .restart = some s') :
    s'.relaySelection = none ∧ SavedOffers.load s.offers.storage = .ok s'.offers := by
  have hrestart : (s.restart).toOption = some s' := h
  rcases hinit : s.restart with e | t
  · rw [hinit] at hrestart
    cases hrestart
  · rw [hinit] at hrestart
    obtain rfl := Option.some.inj hrestart
    exact init_eq_ok hinit

/-- Only a pick writes the selection, and a restart or a change of the setting drops it. -/
theorem selectionInv_step (hinv : SelectionInv tables.toCharTables s)
    (h : step b tables s a = some s') : SelectionInv tables.toCharTables s' := by
  have hdropped : ∀ t : RelayServer, t.relaySelection = none →
      SelectionInv tables.toCharTables t := by
    intro t hnone sel hsel
    rw [hnone] at hsel
    cases hsel
  have hkept : ∀ t : RelayServer, t.relaySelection = s.relaySelection →
      SelectionInv tables.toCharTables t := by
    intro t hsame sel hsel
    exact hinv sel (hsame.symm.trans hsel)
  rcases a with call | ⟨offerId, clock⟩ | ⟨offerId, label⟩ | ⟨offerId, active⟩ |
    ⟨offerId, allow⟩ | relay | ⟨force, clock, probes⟩ | ⟨clock, probes⟩ | relay | relays | _
  case createOffer =>
    obtain rfl := Option.some.inj h
    exact selectionInv_createOffer hinv
  case removeOffer =>
    obtain rfl := Option.some.inj h
    refine hkept _ ?_
    rw [removeOffer, restartIf_relaySelection]
  case pick =>
    obtain rfl := Option.some.inj h
    exact hinv.pick rfl
  case ensurePinned =>
    obtain rfl := Option.some.inj h
    -- only an offer that is not pinned makes it pick
    unfold ensureOfferRelaysPinned
    split
    next => exact hinv
    next => exact hinv.pick rfl
  case setRelay =>
    obtain rfl := Option.some.inj h
    exact hdropped _ rfl
  case restart => exact hdropped s' (restart_eq_ok h).1
  all_goals
    obtain rfl := Option.some.inj h
    exact hkept _ rfl

/-! ## The storage -/

theorem saved_pick (hsaved : s.offers.Saved) (tables : CharTables) (force : Bool)
    (clock : ℕ → Time) (probes : Probes) :
    (s.pickPayableRelay tables force clock probes).2.offers.Saved := by
  rcases pickPayableRelay_cases tables s force clock probes with
    ⟨sel, t, hpick, hpicked, -⟩ | ⟨e, hpick, -⟩
  · rw [hpick]
    dsimp only
    rw [hpicked.offers]
    split
    next => exact hsaved.pinMissingRelays sel.relay
    next => exact hsaved
  · rw [hpick]
    exact hsaved

/-- The offer is stored whether or not its noffer can be encoded. -/
theorem saved_addOffer (hsaved : s.offers.Saved) (call : CreateCall) (relay : String)
    (relayCustom : Bool) :
    (s.addOffer b tables.toCharTables call relay relayCustom).2.offers.Saved := by
  have hstored : (s.storeOffer tables.toCharTables call relay relayCustom).2.offers.Saved := by
    unfold storeOffer
    dsimp only
    rw [restartIf_offers]
    exact hsaved.create _ _ _ _ _ _ _ _
  unfold addOffer
  dsimp only
  split <;> exact hstored

theorem saved_createOffer (hsaved : s.offers.Saved) (call : CreateCall) :
    (s.createOffer b tables call).2.offers.Saved := by
  obtain ⟨t, hstart, hend⟩ := createOffer_snd b tables s call
  have ht : t.offers.Saved := by
    rcases hstart with rfl | ⟨result, hpick⟩
    · exact hsaved
    · have hpicked := saved_pick hsaved tables.toCharTables false call.clock call.probes
      rwa [hpick] at hpicked
  rcases hend with hend | ⟨relay, relayCustom, hend⟩
  · rwa [hend]
  · rw [hend]
    exact saved_addOffer ht call relay relayCustom

/-- Whatever happens, the offers are keyed by their ids, and the storage holds them. -/
theorem saved_step (hsaved : s.offers.Saved) (h : step b tables s a = some s') :
    s'.offers.Saved := by
  rcases a with call | ⟨offerId, clock⟩ | ⟨offerId, label⟩ | ⟨offerId, active⟩ |
    ⟨offerId, allow⟩ | relay | ⟨force, clock, probes⟩ | ⟨clock, probes⟩ | relay | relays | _
  case createOffer =>
    obtain rfl := Option.some.inj h
    exact saved_createOffer hsaved call
  case removeOffer =>
    obtain rfl := Option.some.inj h
    rw [removeOffer, restartIf_offers]
    exact hsaved.remove offerId
  case pinMissingRelays =>
    obtain rfl := Option.some.inj h
    exact hsaved.pinMissingRelays relay
  case pick =>
    obtain rfl := Option.some.inj h
    exact saved_pick hsaved _ force clock probes
  case ensurePinned =>
    obtain rfl := Option.some.inj h
    unfold ensureOfferRelaysPinned
    split
    next => exact hsaved
    next => exact saved_pick hsaved _ false clock probes
  case restart => exact SavedOffers.saved_of_load (restart_eq_ok h).2
  case setRelay | setNostrRelays =>
    obtain rfl := Option.some.inj h
    exact hsaved
  -- the setters keep the id of the offer they change
  all_goals
    obtain rfl := Option.some.inj h
    exact hsaved.update offerId fun _ => rfl

/-! ## The offers -/

/-- The offer has a relay of its own, and its noffer can be encoded. -/
structure Listable (tables : CharTables) (offer : Offer) : Prop where
  pinned : SavedOffers.lacksRelay tables offer = false
  relay_fits : FitsNoffer (tables.stripText offer.relay)
  offerId_length : (Bytes.encodeUtf8 offer.offerId).length ≤ 255

/-- The storage holds the offers, and every one of them can be listed. -/
structure ListingInv (tables : CharTables) (s : RelayServer) : Prop where
  selection : SelectionInv tables s
  saved : s.offers.Saved
  listable : s.offers.All (Listable tables)

/-- A new offer whose relay fits can be listed. -/
theorem listable_newOffer {call : CreateCall} {relay : String} (relayCustom : Bool)
    (hstrip : tables.stripText relay = relay) (hne : relay ≠ "") (hfits : FitsNoffer relay) :
    Listable tables.toCharTables (newOffer call relay relayCustom) := by
  refine ⟨?_, ?_, length_encodeUtf8_offerId call⟩
  · show (tables.stripText relay == "") = false
    rw [hstrip]
    exact beq_eq_false_iff_ne.2 hne
  · show FitsNoffer (tables.stripText relay)
    rwa [hstrip]

/-- There is nothing to pin on listable offers. -/
theorem ListingInv.pinMissingRelays (hinv : ListingInv tables.toCharTables s) (relay : String) :
    s.offers.pinMissingRelays tables.toCharTables relay = ([], s.offers) :=
  SavedOffers.pinMissingRelays_of_all (hinv.listable.mono fun _ h => h.pinned) relay

/-- A pick leaves listable offers alone. -/
theorem ListingInv.offers_pick (hinv : ListingInv tables.toCharTables s) (force : Bool)
    (clock : ℕ → Time) (probes : Probes) :
    (s.pickPayableRelay tables.toCharTables force clock probes).2.offers = s.offers := by
  rcases pickPayableRelay_cases tables.toCharTables s force clock probes with
    ⟨sel, t, hpick, hpicked, -⟩ | ⟨e, hpick, -⟩
  · rw [hpick]
    have hoffers := hpicked.offers
    rw [hinv.pinMissingRelays] at hoffers
    exact hoffers.trans (ite_self _)
  · rw [hpick]

/-- What a step does to the relays of new offers: each fits into a noffer. -/
def CreatesFit (tables : UrlTables) (s : RelayServer) : OfferAction → Prop
  | .createOffer call => call.RelayFits tables s
  | _ => True

theorem listable_step (hinv : ListingInv tables.toCharTables s) (hfits : CreatesFit tables s a)
    (h : step b tables s a = some s') : ListingInv tables.toCharTables s' := by
  have hselection := selectionInv_step hinv.selection h
  have hsaved := saved_step hinv.saved h
  have hsame : s'.offers = s.offers → ListingInv tables.toCharTables s' := by
    intro hoffers
    exact ⟨hselection, hsaved, hoffers ▸ hinv.listable⟩
  -- a setter changes neither the id nor the relay
  have hupdate : ∀ offerId (f : Offer → Offer), (∀ o, (f o).offerId = o.offerId) →
      (∀ o, (f o).relay = o.relay) → s'.offers = (s.offers.update offerId f).2 →
        ListingInv tables.toCharTables s' := by
    intro offerId f hid hrelay hoffers
    refine ⟨hselection, hsaved, ?_⟩
    rw [hoffers]
    refine hinv.listable.update offerId fun o ho => ⟨?_, ?_, ?_⟩
    · rw [SavedOffers.lacksRelay, hrelay]
      exact ho.pinned
    · rw [hrelay]
      exact ho.relay_fits
    · rw [hid]
      exact ho.offerId_length
  rcases a with call | ⟨offerId, clock⟩ | ⟨offerId, label⟩ | ⟨offerId, active⟩ |
    ⟨offerId, allow⟩ | relay | ⟨force, clock, probes⟩ | ⟨clock, probes⟩ | relay | relays | _
  case createOffer =>
    obtain rfl := Option.some.inj h
    rcases hchosen : call.chosenRelay tables s with _ | relay
    · obtain ⟨e, -, hoffers⟩ := createOffer_refused (b := b) hchosen
      exact hsame hoffers
    · obtain ⟨hstrip, hne, t, relayCustom, -, hpinned, hstate, -, -⟩ :=
        createOffer_chosen (b := b) hinv.selection hchosen
      -- every offer has a relay, so the pick of this call pins none
      rw [hinv.pinMissingRelays] at hpinned
      have ht : t.offers = s.offers := hpinned.elim id id
      have hoffers := congrArg RelayServer.offers hstate
      rw [offers_addOffer hstrip hne, ht] at hoffers
      refine ⟨hselection, hsaved, ?_⟩
      rw [hoffers]
      exact hinv.listable.set (listable_newOffer relayCustom hstrip hne (hfits relay hchosen))
  case removeOffer =>
    obtain rfl := Option.some.inj h
    refine ⟨hselection, hsaved, ?_⟩
    rw [removeOffer, restartIf_offers]
    exact hinv.listable.remove offerId
  case setLabel =>
    obtain rfl := Option.some.inj h
    exact hupdate offerId (fun o => { o with label := label }) (fun _ => rfl) (fun _ => rfl) rfl
  case setActive =>
    obtain rfl := Option.some.inj h
    exact hupdate offerId (fun o => { o with active := active }) (fun _ => rfl) (fun _ => rfl) rfl
  case setAllowPayerMemo =>
    obtain rfl := Option.some.inj h
    exact hupdate offerId (fun o => { o with allowPayerMemo := allow }) (fun _ => rfl)
      (fun _ => rfl) rfl
  case pinMissingRelays =>
    obtain rfl := Option.some.inj h
    exact hsame (congrArg Prod.snd (hinv.pinMissingRelays relay))
  case pick =>
    obtain rfl := Option.some.inj h
    exact hsame (hinv.offers_pick force clock probes)
  case ensurePinned =>
    obtain rfl := Option.some.inj h
    refine hsame ?_
    unfold ensureOfferRelaysPinned
    split
    next => rfl
    next => exact hinv.offers_pick false clock probes
  case setRelay =>
    obtain rfl := Option.some.inj h
    exact hsame rfl
  case setNostrRelays =>
    obtain rfl := Option.some.inj h
    exact hsame rfl
  case restart =>
    -- the storage holds the offers, so the next server has them again
    have hload := (restart_eq_ok h).2
    rw [hinv.saved.load_storage] at hload
    exact hsame (Except.ok.inj hload).symm

/-- The loop over offers that are listable and found under their ids does not raise. -/
theorem exists_listOffersFrom (hlawful : b.Lawful) {offers : List Offer}
    (hoffers : ∀ o ∈ offers, s.offers.get o.offerId = some o ∧ Listable tables.toCharTables o)
    (clock : ℕ → Time) (listing : Dict String ListedOffer) :
    ∃ result, s.listOffersFrom b tables.toCharTables clock listing offers = .ok result := by
  induction offers generalizing clock listing with
  | nil => exact ⟨listing, rfl⟩
  | cons o offers ih =>
    obtain ⟨hget, ho⟩ := hoffers o List.mem_cons_self
    -- an offer with a relay advertises it, whatever the selection is
    have hrelay : s.offerRelay tables.toCharTables (s.offers.get o.offerId) (clock 0) =
        tables.stripText o.relay := by
      rw [hget]
      exact if_pos (beq_eq_false_iff_ne.1 ho.pinned)
    obtain ⟨noffer, hencode, -⟩ := exists_makeNoffer hlawful s (clock 0)
      (hrelay.symm ▸ ho.relay_fits) ho.offerId_length
    rw [listOffersFrom, hencode, PyError.ok_bind]
    exact ih (fun o' ho' => hoffers o' (List.mem_cons_of_mem o ho')) _ _

/-- Where every offer is listable, listing them does not raise. -/
theorem ListingInv.exists_listing (hlawful : b.Lawful) (hinv : ListingInv tables.toCharTables s)
    (clock : ℕ → Time) :
    ∃ listing, s.listOffers b tables.toCharTables clock = .ok listing := by
  refine exists_listOffersFrom hlawful (fun o ho => ?_) clock ∅
  obtain ⟨⟨offerId, o'⟩, he, rfl⟩ := List.mem_map.1 ho
  have hget : s.offers.get offerId = some o' := Dict.get?_eq_some_iff.2 he
  refine ⟨?_, hinv.listable offerId o' hget⟩
  rw [hinv.saved.keyed (offerId, o') he]
  exact hget

/-- One offer whose relay does not fit makes the loop raise. -/
theorem listOffersFrom_raises {offers : List Offer} {o : Offer} (ho : o ∈ offers)
    (hget : s.offers.get o.offerId = some o)
    (hpinned : SavedOffers.lacksRelay tables.toCharTables o = false)
    (hlong : ¬ FitsNoffer (tables.stripText o.relay)) (clock : ℕ → Time)
    (listing : Dict String ListedOffer) :
    ∃ e, s.listOffersFrom b tables.toCharTables clock listing offers = .error e := by
  induction offers generalizing clock listing with
  | nil => cases ho
  | cons o' offers ih =>
    rw [listOffersFrom]
    rcases hencode : s.makeNoffer b tables.toCharTables o'.offerId (clock 0) with e | noffer
    · exact ⟨e, rfl⟩
    rcases List.mem_cons.1 ho with rfl | ho
    · -- the noffer of a relay that does not fit cannot be encoded
      refine absurd ?_ hlong
      have hrelay : s.offerRelay tables.toCharTables (s.offers.get o.offerId) (clock 0) =
          tables.stripText o.relay := by
        rw [hget]
        exact if_pos (beq_eq_false_iff_ne.1 hpinned)
      rw [← hrelay]
      exact relay_length_of_nofferEncode hencode
    · exact ih ho _ _

end RelayServer

end ElectrumClink
