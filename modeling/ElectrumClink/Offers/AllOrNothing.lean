import ElectrumClink.Offers.Session

/-!
# Offer creation is all or nothing

A call of `create_offer` returns a noffer that says where its offer is, or raises and leaves the
offers alone, exactly when the relay it settles on is one that a noffer has room for:
`createOffer_allOrNothing_iff`. The offer is stored first, so a longer relay leaves behind an offer
that can neither be shown nor listed (`create_offer_leaves_offer`).

The runs are those of a wallet: offers are created, changed and removed, relays are picked, the
relay settings change, and the wallet is loaded again from its storage.
-/

namespace ElectrumClink

/-- The call returned the noffer of the offer it stored, or raised and the offers, in memory and in
the storage, are as before. -/
structure AllOrNothing (b : Bech32) (tables : UrlTables) (s : RelayServer) (call : CreateCall) :
    Prop where
  returned : ∀ created, (s.createOffer b tables call).1 = .ok created →
    created.offerId = call.offerId ∧
      ∃ offer, (s.createOffer b tables call).2.offers.get call.offerId = some offer ∧
        nofferDecode b created.noffer =
          .ok ⟨s.pubkeyHex, offer.relay, call.offerId, .spontaneous, none⟩
  raised : ∀ e, (s.createOffer b tables call).1 = .error e →
    (s.createOffer b tables call).2.offers = s.offers

namespace RelayServer

variable {b : Bech32} {tables : UrlTables} {s s' : RelayServer} {call : CreateCall}
  {relay : String}

/-- A call whose relay fits is all or nothing. -/
theorem allOrNothing_of_fits (hlawful : b.Lawful) (hinv : SelectionInv tables.toCharTables s)
    (hfits : call.RelayFits tables s) : AllOrNothing b tables s call := by
  rcases hchosen : call.chosenRelay tables s with _ | relay
  · obtain ⟨e, herror, hoffers⟩ := createOffer_refused (b := b) hchosen
    refine ⟨fun created hcreated => ?_, fun _ _ => hoffers⟩
    rw [herror] at hcreated
    cases hcreated
  · obtain ⟨hstrip, hne, t, relayCustom, hidentity, -, hstate, -, hok⟩ :=
      createOffer_chosen (b := b) hinv hchosen
    obtain ⟨noffer, hadd, hdecode⟩ := addOffer_of_fits hlawful t call hstrip hne
      (hfits relay hchosen) relayCustom
    -- the call returns what `addOffer` returned
    have hreturned := hok noffer hadd
    constructor
    · intro created hcreated
      obtain rfl := Except.ok.inj (hreturned.symm.trans hcreated)
      refine ⟨rfl, newOffer call relay relayCustom, ?_, ?_⟩
      · rw [hstate, offers_addOffer hstrip hne]
        exact Dict.get?_set_self _ _ _
      · rw [hdecode, pubkeyHex, pubkeyHex, hidentity]
        rfl
    · intro e he
      rw [hreturned] at he
      cases he

/-- A call under a new id that is all or nothing has a relay that fits. -/
theorem fits_of_allOrNothing (hinv : SelectionInv tables.toCharTables s)
    (hfresh : call.offerId ∉ s.offers.offers) (h : AllOrNothing b tables s call) :
    call.RelayFits tables s := by
  intro relay hchosen
  by_contra hfits
  obtain ⟨hstrip, hne, t, relayCustom, -, -, hstate, herror, -⟩ :=
    createOffer_chosen (b := b) hinv hchosen
  obtain ⟨e, hadd⟩ := addOffer_of_not_fits (b := b) t call hstrip hne hfits
    relayCustom
  have hoffers := h.raised e (herror e hadd)
  refine hfresh ?_
  -- the call raised, but its offer is among the offers
  rw [← hoffers, hstate, offers_addOffer hstrip hne]
  exact Dict.mem_set.2 (.inl rfl)

/-! ## Runs -/

/-- In every run of a wallet's servers, from any storage: a call of `create_offer` is all or nothing
if it is refused or settles on a relay of at most 255 bytes, and under a new id only then. When the
storage was empty at first and every call met that condition, `list_offers` returns. -/
theorem createOffer_allOrNothing_iff {b : Bech32} {tables : UrlTables} {identity : PublicKey}
    {relaySetting : String} {nostrRelays : List String} {storage : List StoredOffer}
    {first s : RelayServer} (hlawful : b.Lawful)
    (hfirst : init identity relaySetting nostrRelays storage = .ok first)
    (hrun : Reachable b tables (fun _ _ => True) first s) :
    (∀ call : CreateCall,
      (call.RelayFits tables s → AllOrNothing b tables s call) ∧
        (call.offerId ∉ s.offers.offers → AllOrNothing b tables s call →
          call.RelayFits tables s)) ∧
      (storage = [] → Reachable b tables (CreatesFit tables) first s →
        ∀ clock, ∃ listing, s.listOffers b tables.toCharTables clock = .ok listing) := by
  obtain ⟨hnone, hload⟩ := init_eq_ok hfirst
  -- the first server has picked no relay
  have hinit : SelectionInv tables.toCharTables first := by
    intro sel hsel
    rw [hnone] at hsel
    cases hsel
  have hinv : SelectionInv tables.toCharTables s :=
    hrun.invariant hinit fun _ _ _ hinv _ h => selectionInv_step hinv h
  refine ⟨fun call => ⟨allOrNothing_of_fits hlawful hinv, fits_of_allOrNothing hinv⟩, ?_⟩
  rintro rfl hguarded clock
  -- an empty storage is loaded as an empty store
  have hempty : first.offers = ⟨⟨∅⟩, []⟩ := (Except.ok.inj hload).symm
  have hlisting : ListingInv tables.toCharTables s := by
    refine hguarded.invariant ⟨hinit, SavedOffers.saved_of_load hload, ?_⟩
      fun _ _ _ hinv hfits h => listable_step hinv hfits h
    rw [hempty]
    intro offerId offer hget
    rw [Dict.get?_empty] at hget
    cases hget
  exact hlisting.exists_listing hlawful clock

/-- The tables of ASCII. -/
def asciiTables : UrlTables where
  isPrintable c := decide (' ' ≤ c ∧ c ≤ '~')
  isSpace := Char.isWhitespace
  netlocError _ := none

/-- A server without offers. -/
def sample : RelayServer where
  identity := ⟨List.replicate 32 7, by decide⟩
  offers := ⟨OfferStore.empty, []⟩
  relaySetting := ""
  nostrRelays := ["wss://first.example"]
  relaySelection := none
  relaySelectionAt := 0
  restarts := 0

/-- A call for an offer on a relay that passes its probe. -/
def sampleCall (relay : String) : CreateCall where
  label := "Tips"
  allowPayerMemo := true
  relay := relay
  token := List.replicate 8 1
  token_length := by decide
  clock _ := 0
  probes _ _ := some ⟨.ok, none, ""⟩

/-- An offer on a custom relay is created and listed. -/
theorem createOffer_allOrNothing_iff_one_offer :
    (∀ call : CreateCall, call.RelayFits asciiTables sample →
      AllOrNothing .reference asciiTables sample call) ∧
      ∀ clock, ∃ listing, (sample.createOffer .reference asciiTables
        (sampleCall "wss://mine.example")).2.listOffers .reference asciiTables.toCharTables clock =
          .ok listing := by
  have hfirst : init sample.identity "" ["wss://first.example"] [] = .ok sample := rfl
  have hfits : (sampleCall "wss://mine.example").RelayFits asciiTables sample := by
    have hchosen : (sampleCall "wss://mine.example").chosenRelay asciiTables sample =
        some "wss://mine.example" := by decide +kernel
    intro relay hrelay
    obtain rfl := Option.some.inj (hchosen.symm.trans hrelay)
    decide +kernel
  refine ⟨fun call => ((createOffer_allOrNothing_iff Bech32.lawful_reference hfirst .init).1
    call).1, fun clock => ?_⟩
  exact (createOffer_allOrNothing_iff Bech32.lawful_reference hfirst
    (.next (a := .createOffer (sampleCall "wss://mine.example")) .init trivial rfl)).2 rfl
      (.next (a := .createOffer (sampleCall "wss://mine.example")) .init hfits rfl) clock

/-- A relay URL of 256 bytes, by its path. -/
def longRelay : String := String.ofList ("wss://r.example/".toList ++ List.replicate 240 'a')

theorem toList_longRelay :
    longRelay.toList = "wss://r.example/".toList ++ List.replicate 240 'a' :=
  String.toList_ofList

/-- The URL check accepts the relay. -/
theorem normalizeRelayUrl_longRelay : normalizeRelayUrl asciiTables longRelay = .ok longRelay := by
  have hstrip : asciiTables.stripText longRelay = longRelay := by
    rw [CharTables.stripText, toList_longRelay]
    exact congrArg String.ofList (by decide +kernel)
  have hsplit : urlsplit asciiTables longRelay =
      .ok ⟨"wss".toList, "r.example".toList⟩ := by
    -- the split is computed on the list of characters
    have hparts : (urlsplit asciiTables longRelay).toOption =
        some ⟨"wss".toList, "r.example".toList⟩ := by
      rw [urlsplit, toList_longRelay]
      decide +kernel
    rcases hresult : urlsplit asciiTables longRelay with e | parts
    · rw [hresult] at hparts
      cases hparts
    · rw [hresult] at hparts
      exact congrArg Except.ok (Option.some.inj hparts)
  have hspace : longRelay.toList.all (fun c => !asciiTables.isSpace c) = true := by
    rw [toList_longRelay]
    decide +kernel
  refine normalizeRelayUrl_eq_ok_iff.2 ⟨hstrip.symm, fun h => ?_, fun c hc => ?_, _, hsplit,
    .inr rfl, by decide +kernel, by decide +kernel⟩
  · have hlist := congrArg String.toList h
    rw [toList_longRelay] at hlist
    cases hlist
  · simpa using List.all_eq_true.1 hspace c hc

/-- A custom relay of 256 bytes is accepted and passes its probe; the call raises, but its offer
stays in the store and in the storage, and from then on `list_offers` raises. -/
theorem create_offer_leaves_offer :
    normalizeRelayUrl asciiTables longRelay = .ok longRelay ∧
      ¬ AllOrNothing .reference asciiTables sample (sampleCall longRelay) ∧
      ∃ after, step .reference asciiTables sample (.createOffer (sampleCall longRelay)) =
          some after ∧
        after.offers.list.length = 1 ∧ after.offers.storage.length = 1 ∧
        ∀ clock, ∃ e, after.listOffers .reference asciiTables.toCharTables clock = .error e := by
  have hurl := normalizeRelayUrl_longRelay
  obtain ⟨hstrip, hne, -⟩ := normalizeRelayUrl_eq_ok_iff.1 hurl
  have hchosen : (sampleCall longRelay).chosenRelay asciiTables sample = some longRelay := by
    have hrelay : (sampleCall longRelay).relay = longRelay := rfl
    rw [CreateCall.chosenRelay, hrelay, ← hstrip, if_pos hne, hurl]
    rfl
  have hlong : ¬ FitsNoffer longRelay := by decide +kernel
  have hselection : SelectionInv asciiTables.toCharTables sample := by
    rintro sel ⟨⟩
  obtain ⟨-, -, t, relayCustom, -, hpinned, hstate, -, -⟩ :=
    createOffer_chosen (b := .reference) hselection hchosen
  -- there is no offer for the pick to pin a relay on
  have hempty : sample.offers.pinMissingRelays asciiTables.toCharTables longRelay =
      ([], sample.offers) :=
    SavedOffers.pinMissingRelays_of_all (fun _ _ hget => by cases hget) longRelay
  rw [hempty] at hpinned
  -- the offer is stored before its noffer is encoded
  have hoffers : (sample.createOffer .reference asciiTables (sampleCall longRelay)).2.offers =
      sample.offers.write (sample.offers.offers.set (sampleCall longRelay).offerId
        (newOffer (sampleCall longRelay) longRelay relayCustom)) := by
    have hadded := congrArg RelayServer.offers hstate
    rw [offers_addOffer hstrip.symm hne, hpinned.elim id id] at hadded
    exact hadded
  refine ⟨hurl, fun h => ?_, _, rfl, ?_, ?_, fun clock => ?_⟩
  · exact hlong (fits_of_allOrNothing hselection (Dict.notMem_empty _) h longRelay hchosen)
  · rw [hoffers]
    rfl
  · rw [hoffers]
    rfl
  · refine listOffersFrom_raises (o := newOffer (sampleCall longRelay) longRelay relayCustom) ?_
      ?_ ?_ ?_ clock ∅
    · rw [hoffers]
      exact List.mem_singleton.2 rfl
    · rw [hoffers]
      exact Dict.get?_set_self _ _ _
    · show (asciiTables.stripText longRelay == "") = false
      rw [← hstrip]
      exact beq_eq_false_iff_ne.2 hne
    · show ¬ FitsNoffer (asciiTables.stripText longRelay)
      rwa [← hstrip]

end RelayServer

end ElectrumClink
