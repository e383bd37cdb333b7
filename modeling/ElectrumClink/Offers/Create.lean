import ElectrumClink.Relay.Pick

/-!
# Creating and listing offers

`create_offer` settles on a relay, stores an offer with it, and encodes the noffer last;
`list_offers` encodes every noffer again.
-/

namespace ElectrumClink

/-- What a call of `create_offer` is given, and what it meets outside the server. -/
structure CreateCall where
  label : String
  allowPayerMemo : Bool
  /-- The custom relay; blank for the automatic pick. -/
  relay : String
  /-- What `secrets.token_hex(8)` spells. -/
  token : Bytes
  /-- There are eight random bytes. -/
  token_length : token.length = 8
  /-- What the calls of `time.time()` return, in the order of the places they stand in. -/
  clock : ℕ → Time
  probes : Probes

/-- The id of the offer that the call creates. -/
def CreateCall.offerId (call : CreateCall) : String := Bytes.hex call.token

/-- What `create_offer` returns. -/
structure CreatedOffer where
  offerId : String
  label : String
  allowPayerMemo : Bool
  noffer : String
  relay : String
  relayPayable : Bool
deriving DecidableEq

/-- What `list_offers` returns for one offer. -/
structure ListedOffer where
  label : String
  active : Bool
  allowPayerMemo : Bool
  noffer : String
  relay : String
  relayCustom : Bool
  relayPinned : Bool
deriving DecidableEq

namespace RelayServer

/-- Store an offer with this relay, and restart the listener if it does not cover the relay yet. -/
def storeOffer (tables : CharTables) (s : RelayServer) (call : CreateCall) (relay : String)
    (relayCustom : Bool) : Offer × RelayServer :=
  let needsListener := decide (relay ∉ s.listenRelayUrls tables (call.clock 2))
  let (offer, offers) := s.offers.create tables call.token (call.clock 3) call.label .spontaneous
    none call.allowPayerMemo relay relayCustom
  let s := { s with offers := offers }
  (offer, s.restartIf needsListener)

/-- The end of `create_offer`: the offer is stored before its noffer is encoded. -/
def addOffer (b : Bech32) (tables : CharTables) (s : RelayServer) (call : CreateCall)
    (relay : String) (relayCustom : Bool) : Except CallError (Offer × String) × RelayServer :=
  let (offer, s) := s.storeOffer tables call relay relayCustom
  match s.makeNoffer b tables offer.offerId (call.clock 4) with
  | .ok noffer => (.ok (offer, noffer), s)
  | .error e => (.error (.python e), s)

/-- `_create_offer_custom_relay`. -/
def createOfferCustomRelay (b : Bech32) (tables : UrlTables) (s : RelayServer) (relay : String)
    (call : CreateCall) : Except CallError CreatedOffer × RelayServer :=
  match normalizeRelayUrl tables relay with
  | .error e => (.error (.python e), s)
  | .ok relay =>
    match probeRelayPayable call.probes 0 relay with
    | .error e => (.error e, s)
    | .ok probe =>
      if !probe.ok then
        let detail := if probe.detail = "" then "" else ": " ++ probe.detail
        (.error (.userFacing ("Relay " ++ relay ++ " failed the payability check (" ++
          probe.status.value ++ detail ++ "). The offer was not created.")), s)
      else
        let added := s.addOffer b tables.toCharTables call relay true
        (added.1.map fun (offer, noffer) =>
          ⟨offer.offerId, offer.label, offer.allowPayerMemo, noffer, relay, true⟩, added.2)

/-- `create_offer`, on the server of the wallet. -/
def createOffer (b : Bech32) (tables : UrlTables) (s : RelayServer) (call : CreateCall) :
    Except CallError CreatedOffer × RelayServer :=
  let customRelay := tables.stripText call.relay
  if customRelay ≠ "" then s.createOfferCustomRelay b tables customRelay call
  else
    match s.pickPayableRelay tables.toCharTables false call.clock call.probes with
    | (.error e, s) => (.error e, s)
    | (.ok selection, s) =>
      if !selection.ok || selection.relay == "" then
        let tried := ", ".intercalate (selection.results.map ProbeResult.relay)
        let tried := if tried = "" then "(none configured)" else tried
        (.error (.userFacing ("No Nostr relay accepted a test payment request, so the offer " ++
          "would not be payable and was not created. Tried: " ++ tried ++ ". " ++
          "Set a working relay in the CLINK settings and try again.")), s)
      else
        let added := s.addOffer b tables.toCharTables call selection.relay false
        (added.1.map fun (offer, noffer) =>
          ⟨offer.offerId, offer.label, offer.allowPayerMemo, noffer, offer.relay, true⟩, added.2)

/-- The loop of `list_offers`; `clock` goes on to the next offer. -/
def listOffersFrom (b : Bech32) (tables : CharTables) (s : RelayServer) (clock : ℕ → Time)
    (listing : Dict String ListedOffer) :
    List Offer → Except PyError (Dict String ListedOffer)
  | [] => .ok listing
  | o :: offers => do
    let noffer ← s.makeNoffer b tables o.offerId (clock 0)
    listOffersFrom b tables s (fun i => clock (i + 2))
      (listing.set o.offerId
        { label := o.label
          active := o.active
          allowPayerMemo := o.allowPayerMemo
          noffer := noffer
          relay := s.offerRelay tables (some o) (clock 1)
          relayCustom := o.relayCustom
          relayPinned := tables.stripText o.relay != "" }) offers

/-- `list_offers`, on the server of the wallet. -/
def listOffers (b : Bech32) (tables : CharTables) (s : RelayServer) (clock : ℕ → Time) :
    Except PyError (Dict String ListedOffer) :=
  s.listOffersFrom b tables clock ∅ s.offers.list

end RelayServer

/-! ## The relay a call settles on -/

/-- The relay that the call pins on its offer: the custom one, if it is well-formed and passes its
probe, or the one the automatic pick finds. None when the call is refused. -/
def CreateCall.chosenRelay (tables : UrlTables) (s : RelayServer) (call : CreateCall) :
    Option String :=
  let customRelay := tables.stripText call.relay
  if customRelay ≠ "" then
    match normalizeRelayUrl tables customRelay with
    | .ok relay =>
      match probeRelayPayable call.probes 0 relay with
      | .ok probe => if probe.ok then some relay else none
      | .error _ => none
    | .error _ => none
  else s.payableRelay tables.toCharTables call.clock call.probes

/-- The call is refused, or settles on a relay that a noffer has room for. -/
def CreateCall.RelayFits (tables : UrlTables) (s : RelayServer) (call : CreateCall) : Prop :=
  ∀ relay, call.chosenRelay tables s = some relay → FitsNoffer relay

namespace RelayServer

variable {b : Bech32} {tables : UrlTables} {s s' : RelayServer} {call : CreateCall}
  {relay : String}

/-- The id of a new offer has 16 characters. -/
theorem length_encodeUtf8_offerId (call : CreateCall) :
    (Bytes.encodeUtf8 call.offerId).length ≤ 255 := by
  have hchars := (Bytes.toList_hex call.token).1
  rw [call.token_length] at hchars
  have hbytes := Bytes.length_encodeUtf8_le call.offerId
  rw [CreateCall.offerId, hchars] at hbytes
  exact hbytes.trans (by decide)

/-- The offer that a call stores for a relay. -/
def newOffer (call : CreateCall) (relay : String) (relayCustom : Bool) : Offer where
  offerId := call.offerId
  label := call.label
  priceType := .spontaneous
  price := none
  createdAt := wholeSeconds (call.clock 3)
  allowPayerMemo := call.allowPayerMemo
  relay := relay
  relayCustom := relayCustom

/-- The offer is written to the store under its id, and nothing else about the offers changes. -/
theorem storeOffer_spec (s : RelayServer) (call : CreateCall)
    (hstrip : tables.stripText relay = relay) (hne : relay ≠ "")
    (relayCustom : Bool) :
    (s.storeOffer tables.toCharTables call relay relayCustom).1 =
        newOffer call relay relayCustom ∧
      (s.storeOffer tables.toCharTables call relay relayCustom).2.offers =
        s.offers.write (s.offers.offers.set call.offerId (newOffer call relay relayCustom)) ∧
      (s.storeOffer tables.toCharTables call relay relayCustom).2.identity = s.identity := by
  have hcreate : s.offers.create tables.toCharTables call.token (call.clock 3) call.label
      .spontaneous none call.allowPayerMemo relay relayCustom =
        (newOffer call relay relayCustom,
          s.offers.write (s.offers.offers.set call.offerId (newOffer call relay relayCustom))) := by
    -- a relay that is not blank keeps its mark as a custom one
    have hcustom : (relayCustom && relay != "") = relayCustom := by
      rw [bne_iff_ne.2 hne, Bool.and_true]
    rw [SavedOffers.create, hstrip, hcustom]
    rfl
  unfold storeOffer
  rw [hcreate]
  exact ⟨rfl, restartIf_offers _ _, restartIf_identity _ _⟩

/-- What the stored offer advertises. -/
theorem offerRelay_storeOffer (s : RelayServer) (call : CreateCall)
    (hstrip : tables.stripText relay = relay) (hne : relay ≠ "")
    (relayCustom : Bool) (now : Time) :
    let stored := (s.storeOffer tables.toCharTables call relay relayCustom).2
    stored.offerRelay tables.toCharTables (stored.offers.get call.offerId) now = relay := by
  obtain ⟨-, hoffers, -⟩ := storeOffer_spec s call hstrip hne relayCustom
  have hget : (s.storeOffer tables.toCharTables call relay relayCustom).2.offers.get call.offerId =
      some (newOffer call relay relayCustom) := by
    rw [hoffers]
    exact Dict.get?_set_self _ _ _
  intro stored
  rw [offerRelay, hget, advertisedRelay, newOffer, if_pos (hstrip.symm ▸ hne), hstrip]

@[simp]
theorem addOffer_relaySelection (tables : CharTables) (s : RelayServer) (call : CreateCall)
    (relay : String) (relayCustom : Bool) :
    (s.addOffer b tables call relay relayCustom).2.relaySelection = s.relaySelection := by
  unfold addOffer storeOffer
  dsimp only
  split <;> exact restartIf_relaySelection _ _

/-- A call stores its offer, whether or not it can encode the noffer. -/
theorem offers_addOffer (hstrip : tables.stripText relay = relay) (hne : relay ≠ "")
    (relayCustom : Bool) :
    (s.addOffer b tables.toCharTables call relay relayCustom).2.offers =
      s.offers.write (s.offers.offers.set call.offerId (newOffer call relay relayCustom)) := by
  rw [← (storeOffer_spec s call hstrip hne relayCustom).2.1]
  unfold addOffer
  dsimp only
  split <;> rfl

/-- A relay that fits is encoded in the noffer. -/
theorem addOffer_of_fits (hlawful : b.Lawful) (s : RelayServer) (call : CreateCall)
    (hstrip : tables.stripText relay = relay)
    (hne : relay ≠ "") (hfits : FitsNoffer relay) (relayCustom : Bool) :
    ∃ noffer, (s.addOffer b tables.toCharTables call relay relayCustom).1 =
        .ok (newOffer call relay relayCustom, noffer) ∧
      nofferDecode b noffer = .ok ⟨s.pubkeyHex, relay, call.offerId, .spontaneous, none⟩ := by
  obtain ⟨hoffer, -, hidentity⟩ := storeOffer_spec s call hstrip hne relayCustom
  have hrelay := offerRelay_storeOffer s call hstrip hne relayCustom
    (call.clock 4)
  obtain ⟨noffer, hencode, hdecode⟩ := exists_makeNoffer hlawful
    (s.storeOffer tables.toCharTables call relay relayCustom).2 (call.clock 4)
    (hrelay.symm ▸ hfits) (length_encodeUtf8_offerId call)
  refine ⟨noffer, ?_, ?_⟩
  · unfold addOffer
    dsimp only
    have hid : (newOffer call relay relayCustom).offerId = call.offerId := rfl
    rw [hoffer, hid, hencode]
  · rw [hdecode, hrelay, pubkeyHex, hidentity, pubkeyHex]

/-- A relay that does not fit makes the call raise. -/
theorem addOffer_of_not_fits (s : RelayServer) (call : CreateCall)
    (hstrip : tables.stripText relay = relay) (hne : relay ≠ "")
    (hfits : ¬ FitsNoffer relay) (relayCustom : Bool) :
    ∃ e, (s.addOffer b tables.toCharTables call relay relayCustom).1 = .error e := by
  obtain ⟨hoffer, -, -⟩ := storeOffer_spec s call hstrip hne relayCustom
  have hrelay := offerRelay_storeOffer s call hstrip hne relayCustom
    (call.clock 4)
  unfold addOffer
  dsimp only
  rw [hoffer]
  split
  next noffer hencode =>
    -- an encoded noffer shows that the relay it advertises fits
    refine absurd ?_ hfits
    rw [← hrelay]
    exact relay_length_of_nofferEncode hencode
  next e _ => exact ⟨.python e, rfl⟩

/-! ## The two outcomes of a call -/

/-- A call that settles on no relay raises and leaves the offers alone. -/
theorem createOffer_refused (h : call.chosenRelay tables s = none) :
    ∃ e, (s.createOffer b tables call).1 = .error e ∧
      (s.createOffer b tables call).2.offers = s.offers := by
  unfold CreateCall.chosenRelay at h
  unfold createOffer
  dsimp only at h ⊢
  by_cases hcustom : tables.stripText call.relay ≠ ""
  · rw [if_pos hcustom] at h ⊢
    -- a custom relay: the URL check, then the probe
    unfold createOfferCustomRelay
    rcases hurl : normalizeRelayUrl tables (tables.stripText call.relay) with e | url
    · exact ⟨_, rfl, rfl⟩
    rcases hprobe : probeRelayPayable call.probes 0 url with e | probe
    · exact ⟨e, by simp only [hprobe], by simp only [hprobe]⟩
    by_cases hok : probe.ok = true
    · simp only [hurl, hprobe, if_pos hok] at h
      cases h
    · have hnot : (!probe.ok) = true := by rw [Bool.not_eq_true', ← Bool.not_eq_true]; exact hok
      exact ⟨_, by simp only [hprobe, hnot, if_true]; rfl, by simp only [hprobe, hnot, if_true]⟩
  · rw [if_neg hcustom] at h ⊢
    rcases exists_pick_of_unforced tables.toCharTables s call.clock
      call.probes with ⟨sel, t, hpick, hpicked, hpayable⟩ | ⟨e, hpick, -⟩
    · have hnot : sel.ok = false := by
        rw [hpayable, RelaySelection.payable] at h
        split at h
        next => cases h
        next hok => exact Bool.not_eq_true _ ▸ hok
      have hoffers := hpicked.offers
      rw [hnot] at hoffers
      simp only [hpick, hnot, Bool.not_false, Bool.true_or, if_true]
      exact ⟨_, rfl, hoffers⟩
    · exact ⟨e, by simp only [hpick], by simp only [hpick]⟩

/-- A call that settles on a relay stores an offer with it, after the offers without a relay may
have got that relay. -/
theorem createOffer_chosen (hinv : SelectionInv tables.toCharTables s)
    (h : call.chosenRelay tables s = some relay) :
    tables.stripText relay = relay ∧ relay ≠ "" ∧ ∃ (t : RelayServer) (relayCustom : Bool),
      t.identity = s.identity ∧
      (t.offers = s.offers ∨
        t.offers = (s.offers.pinMissingRelays tables.toCharTables relay).2) ∧
      (s.createOffer b tables call).2 =
        (t.addOffer b tables.toCharTables call relay relayCustom).2 ∧
      (∀ e, (t.addOffer b tables.toCharTables call relay relayCustom).1 = .error e →
        (s.createOffer b tables call).1 = .error e) ∧
      ∀ noffer, (t.addOffer b tables.toCharTables call relay relayCustom).1 =
          .ok (newOffer call relay relayCustom, noffer) →
        (s.createOffer b tables call).1 =
          .ok ⟨call.offerId, call.label, call.allowPayerMemo, noffer, relay, true⟩ := by
  unfold CreateCall.chosenRelay at h
  unfold createOffer
  dsimp only at h ⊢
  by_cases hcustom : tables.stripText call.relay ≠ ""
  · rw [if_pos hcustom] at h ⊢
    -- a custom relay is pinned as it was normalized
    unfold createOfferCustomRelay
    rcases hurl : normalizeRelayUrl tables (tables.stripText call.relay) with e | url
    · simp only [hurl] at h
      cases h
    rcases hprobe : probeRelayPayable call.probes 0 url with e | probe
    · simp only [hurl, hprobe] at h
      cases h
    by_cases hok : probe.ok = true
    · simp only [hurl, hprobe, if_pos hok] at h
      obtain rfl := Option.some.inj h
      obtain ⟨hurl_eq, hne, -⟩ := normalizeRelayUrl_eq_ok_iff.1 hurl
      refine ⟨?_, hne, s, true, rfl, .inl rfl, ?_, ?_, ?_⟩
      · rw [hurl_eq, tables.stripText_stripText, tables.stripText_stripText]
      · simp only [hprobe, hok, Bool.not_true, Bool.false_eq_true, if_false]
      · intro e he
        simp only [hprobe, hok, Bool.not_true, Bool.false_eq_true, if_false, he]
        rfl
      · intro noffer hnoffer
        simp only [hprobe, hok, Bool.not_true, Bool.false_eq_true, if_false, hnoffer]
        rfl
    · simp only [hurl, hprobe, if_neg hok] at h
      cases h
  · rw [if_neg hcustom] at h ⊢
    rcases exists_pick_of_unforced tables.toCharTables s call.clock
      call.probes with ⟨sel, t, hpick, hpicked, hpayable⟩ | ⟨e, hpick, hnone⟩
    · rw [hpayable, RelaySelection.payable] at h
      split at h
      next hok =>
        obtain rfl := Option.some.inj h
        -- a payable selection names a relay, cached or not
        obtain ⟨hne, hstrip⟩ := hinv.pick hpick sel hpicked.selection hok
        have hoffers := hpicked.offers
        have hrefuse : (!sel.ok || sel.relay == "") = false := by
          rw [hok, Bool.not_true, Bool.false_or]
          exact beq_eq_false_iff_ne.2 hne
        rw [if_pos hok] at hoffers
        refine ⟨hstrip, hne, t, false, hpicked.identity, .inr hoffers, ?_, ?_, ?_⟩
        · simp only [hpick, hrefuse, Bool.false_eq_true, if_false]
        · intro e he
          simp only [hpick, hrefuse, Bool.false_eq_true, if_false, he]
          rfl
        · intro noffer hnoffer
          simp only [hpick, hrefuse, Bool.false_eq_true, if_false, hnoffer]
          rfl
      next => cases h
    · rw [hnone] at h
      cases h

end RelayServer

end ElectrumClink
