import ElectrumClink.Relay.Url
import ElectrumClink.Wire.Noffer

/-!
# The offer store

The offers of a wallet, with the copy of them that the wallet's storage holds. Every change of an
offer writes the whole list; a server that starts reads it back.

* `Offer.fromDict_toDict`: an offer survives its stored form.
* `SavedOffers.Saved` is what every operation keeps: the offers are keyed by their ids, and loading
  the storage gives the store.
-/

namespace ElectrumClink

/-! ## Stored offers -/

/-- An offer as the storage holds it: the fields that an earlier version did not write may be
missing. -/
structure StoredOffer where
  offerId : String
  label : Option String := none
  priceType : Option ℤ := none
  price : Option ℤ := none
  active : Option Bool := none
  createdAt : Option ℤ := none
  allowPayerMemo : Option Bool := none
  relay : Option String := none
  relayCustom : Option Bool := none
deriving DecidableEq

/-- `OfferPriceType(n)`. -/
def OfferPriceType.ofInt? (n : ℤ) : Option OfferPriceType :=
  if 0 ≤ n ∧ n < 256 then OfferPriceType.ofValue? (UInt8.ofNat n.toNat) else none

namespace Offer

/-- `to_dict`. -/
def toDict (offer : Offer) : StoredOffer where
  offerId := offer.offerId
  label := some offer.label
  priceType := some offer.priceType.value.toNat
  price := offer.price
  active := some offer.active
  createdAt := some offer.createdAt
  allowPayerMemo := some offer.allowPayerMemo
  relay := some offer.relay
  relayCustom := some offer.relayCustom

/-- `from_dict`. -/
def fromDict (d : StoredOffer) : Except PyError Offer :=
  let priceType := d.priceType.getD 2
  match OfferPriceType.ofInt? priceType with
  | none => .error (.valueError (toString priceType ++ " is not a valid OfferPriceType"))
  | some priceType =>
    .ok
      { offerId := d.offerId
        label := d.label.getD ""
        priceType := priceType
        price := d.price
        active := d.active.getD true
        createdAt := d.createdAt.getD 0
        allowPayerMemo := d.allowPayerMemo.getD true
        relay := d.relay.getD ""
        -- an offer of an earlier version has a relay only if the user chose it
        relayCustom := d.relayCustom.getD (d.relay.getD "" != "") }

/-- An offer is read back from what was stored. -/
@[simp]
theorem fromDict_toDict (offer : Offer) : fromDict offer.toDict = .ok offer := by
  have htype : OfferPriceType.ofInt? offer.priceType.value.toNat = some offer.priceType := by
    rcases offer.priceType with _ | _ | _ <;> decide
  simp only [fromDict, toDict, Option.getD_some, htype]

end Offer

/-! ## Relays of offers -/

/-- `advertised_relay`: the offer's own relay, or the default without one. -/
def advertisedRelay (tables : CharTables) (offer : Option Offer) (defaultRelay : String) : String :=
  match offer with
  | some offer =>
    if tables.stripText offer.relay ≠ "" then tables.stripText offer.relay else defaultRelay
  | none => defaultRelay

/-- `listen_relays`: the relays of the offers, after the default while an offer needs it or there is
none. -/
def listenRelays (tables : CharTables) (offers : List Offer) (defaultRelay : String) :
    List String :=
  let needsDefault := offers.isEmpty || offers.any fun o => tables.stripText o.relay == ""
  let urls := (if needsDefault then [defaultRelay] else []) ++ offers.map Offer.relay
  urls.foldl
    (fun out url =>
      let url := tables.stripText url
      if url ≠ "" ∧ url ∉ out then out ++ [url] else out) []

/-! ## The store -/

/-- The offers, and what the storage holds under their key. -/
structure SavedOffers extends OfferStore where
  storage : List StoredOffer

namespace SavedOffers

/-- The loop of `__init__`. -/
def loadOffers (offers : Dict String Offer) : List StoredOffer → Except PyError (Dict String Offer)
  | [] => .ok offers
  | raw :: storage => do
    let offer ← Offer.fromDict raw
    loadOffers (offers.set offer.offerId offer) storage

/-- `__init__`: the store over a storage. -/
def load (storage : List StoredOffer) : Except PyError SavedOffers :=
  (loadOffers ∅ storage).map fun offers => ⟨⟨offers⟩, storage⟩

/-- `list`. -/
def list (s : SavedOffers) : List Offer := s.offers.entries.map Prod.snd

/-- `_persist`. -/
def persist (s : SavedOffers) : SavedOffers := { s with storage := s.list.map Offer.toDict }

/-- The new offers, written to the storage. -/
def write (s : SavedOffers) (offers : Dict String Offer) : SavedOffers :=
  persist { s with offers := offers }

@[simp]
theorem get_write (s : SavedOffers) (offers : Dict String Offer) (offerId : String) :
    (s.write offers).get offerId = offers.get? offerId := rfl

/-- `create`: the new offer, under the id that eight random bytes spell. -/
def create (tables : CharTables) (s : SavedOffers) (token : Bytes) (now : Time) (label : String)
    (priceType : OfferPriceType) (price : Option ℤ) (allowPayerMemo : Bool) (relay : String)
    (relayCustom : Bool) : Offer × SavedOffers :=
  let offer : Offer :=
    { offerId := Bytes.hex token
      label := label
      priceType := priceType
      price := price
      createdAt := wholeSeconds now
      allowPayerMemo := allowPayerMemo
      relay := tables.stripText relay
      relayCustom := relayCustom && tables.stripText relay != "" }
  (offer, s.write (s.offers.set offer.offerId offer))

/-- Whether an offer has no relay of its own. -/
def lacksRelay (tables : CharTables) (offer : Offer) : Bool := tables.stripText offer.relay == ""

/-- `pin_missing_relays`: give every offer without a relay this one; the ids of those changed. -/
def pinMissingRelays (tables : CharTables) (s : SavedOffers) (relay : String) :
    List String × SavedOffers :=
  let relay := tables.stripText relay
  if relay = "" then ([], s)
  else
    let pinned := (s.list.filter (lacksRelay tables)).map Offer.offerId
    if pinned = [] then ([], s)
    else
      (pinned, s.write (s.offers.mapValues fun offer =>
        if lacksRelay tables offer then { offer with relay := relay, relayCustom := false }
        else offer))

/-- `remove`. -/
def remove (s : SavedOffers) (offerId : String) : Bool × SavedOffers :=
  if offerId ∈ s.offers then (true, s.write (s.offers.erase offerId)) else (false, s)

/-- A setter: change one field of an offer, if there is that offer. -/
def update (s : SavedOffers) (offerId : String) (f : Offer → Offer) : Bool × SavedOffers :=
  match s.offers.get? offerId with
  | none => (false, s)
  | some offer => (true, s.write (s.offers.set offerId (f offer)))

/-- `set_active`. -/
def setActive (s : SavedOffers) (offerId : String) (active : Bool) : Bool × SavedOffers :=
  s.update offerId fun offer => { offer with active := active }

/-- `set_label`. -/
def setLabel (s : SavedOffers) (offerId label : String) : Bool × SavedOffers :=
  s.update offerId fun offer => { offer with label := label }

/-- `set_allow_payer_memo`. -/
def setAllowPayerMemo (s : SavedOffers) (offerId : String) (allow : Bool) : Bool × SavedOffers :=
  s.update offerId fun offer => { offer with allowPayerMemo := allow }

/-! ## Loading what was written -/

/-- Every offer stands under its own id. -/
def Keyed (offers : Dict String Offer) : Prop :=
  ∀ e ∈ offers.entries, e.2.offerId = e.1

/-- The offers are keyed by their ids, and loading the storage gives the store. -/
structure Saved (s : SavedOffers) : Prop where
  keyed : Keyed s.offers
  load_storage : load s.storage = .ok s

theorem keyed_empty : Keyed ∅ := by
  intro e he
  cases he

/-- What is assigned under its own id keeps the offers keyed. -/
theorem Keyed.set {offers : Dict String Offer} (h : Keyed offers) {offerId : String}
    {offer : Offer} (hid : offer.offerId = offerId) : Keyed (offers.set offerId offer) := by
  rintro ⟨k, o⟩ he
  have hget : (offers.set offerId offer).get? k = some o := Dict.get?_eq_some_iff.2 he
  rw [Dict.get?_set] at hget
  split at hget
  next hk => rw [← Option.some.inj hget, hid, hk]
  next => exact h (k, o) (Dict.get?_eq_some_iff.1 hget)

theorem Keyed.erase {offers : Dict String Offer} (h : Keyed offers) (offerId : String) :
    Keyed (offers.erase offerId) := by
  intro e he
  rw [Dict.erase, Dict.entries_filter] at he
  exact h e (List.mem_of_mem_filter he)

/-- A change that leaves the ids alone keeps the offers keyed. -/
theorem Keyed.mapValues {offers : Dict String Offer} (h : Keyed offers) {f : Offer → Offer}
    (hf : ∀ offer, (f offer).offerId = offer.offerId) : Keyed (offers.mapValues f) := by
  intro e he
  rw [Dict.entries_mapValues] at he
  obtain ⟨e', he', rfl⟩ := List.mem_map.1 he
  exact (hf e'.2).trans (h e' he')

/-- Loading keys the offers by their ids. -/
theorem keyed_of_loadOffers {storage : List StoredOffer} {offers loaded : Dict String Offer}
    (hoffers : Keyed offers) (h : loadOffers offers storage = .ok loaded) : Keyed loaded := by
  induction storage generalizing offers with
  | nil =>
    obtain rfl := Except.ok.inj h
    exact hoffers
  | cons raw storage ih =>
    rw [loadOffers] at h
    rcases hraw : Offer.fromDict raw with e | offer
    · rw [hraw] at h
      cases h
    · rw [hraw, PyError.ok_bind] at h
      exact ih (hoffers.set rfl) h

/-- Loading stored offers assigns them one after the other. -/
theorem loadOffers_map_toDict (list : List Offer) (offers : Dict String Offer) :
    loadOffers offers (list.map Offer.toDict) =
      .ok (list.foldl (fun offers offer => offers.set offer.offerId offer) offers) := by
  induction list generalizing offers with
  | nil => rfl
  | cons offer list ih =>
    rw [List.map_cons, loadOffers, Offer.fromDict_toDict, PyError.ok_bind, ih, List.foldl_cons]

/-- What is written to the storage is loaded again. -/
theorem saved_write (s : SavedOffers) {offers : Dict String Offer} (h : Keyed offers) :
    Saved (s.write offers) := by
  refine ⟨h, ?_⟩
  have hfold : (offers.entries.map Prod.snd).foldl
      (fun offers offer => offers.set offer.offerId offer) ∅ = offers := by
    conv_rhs => rw [← offers.foldl_set_entries]
    rw [List.foldl_map]
    refine List.foldl_ext _ _ _ fun d e he => ?_
    rw [h e he]
  show (loadOffers ∅ ((offers.entries.map Prod.snd).map Offer.toDict)).map _ = _
  rw [loadOffers_map_toDict, hfold]
  rfl

/-- A store that was loaded is saved. -/
theorem saved_of_load {storage : List StoredOffer} {s : SavedOffers} (h : load storage = .ok s) :
    Saved s := by
  rw [load] at h
  rcases hload : loadOffers ∅ storage with e | offers
  · rw [hload] at h
    cases h
  · have hs : s = ⟨⟨offers⟩, storage⟩ := by
      rw [hload] at h
      exact (Except.ok.inj h).symm
    subst hs
    refine ⟨keyed_of_loadOffers keyed_empty hload, ?_⟩
    rw [load, hload]
    rfl

theorem Saved.create {tables : CharTables} {s : SavedOffers} (h : Saved s) (token : Bytes)
    (now : Time) (label : String) (priceType : OfferPriceType) (price : Option ℤ)
    (allowPayerMemo : Bool) (relay : String) (relayCustom : Bool) :
    Saved (s.create tables token now label priceType price allowPayerMemo relay relayCustom).2 :=
  saved_write s (h.keyed.set rfl)

theorem Saved.pinMissingRelays {tables : CharTables} {s : SavedOffers} (h : Saved s)
    (relay : String) : Saved (s.pinMissingRelays tables relay).2 := by
  unfold SavedOffers.pinMissingRelays
  dsimp only
  split
  next => exact h
  next =>
    split
    next => exact h
    next =>
      refine saved_write s (h.keyed.mapValues fun offer => ?_)
      split <;> rfl

theorem Saved.remove {s : SavedOffers} (h : Saved s) (offerId : String) :
    Saved (s.remove offerId).2 := by
  unfold SavedOffers.remove
  split
  next => exact saved_write s (h.keyed.erase offerId)
  next => exact h

theorem Saved.update {s : SavedOffers} (h : Saved s) (offerId : String) {f : Offer → Offer}
    (hf : ∀ offer, (f offer).offerId = offer.offerId) : Saved (s.update offerId f).2 := by
  unfold SavedOffers.update
  split
  next => exact h
  next offer hget =>
    refine saved_write s (h.keyed.set ?_)
    exact (hf offer).trans (h.keyed (offerId, offer) (Dict.get?_eq_some_iff.1 hget))

/-! ## What the operations do to the offers -/

/-- `P` holds of every offer. -/
def All (P : Offer → Prop) (s : SavedOffers) : Prop :=
  ∀ offerId offer, s.offers.get? offerId = some offer → P offer

/-- The offers that are listed are those that can be looked up. -/
theorem All.of_mem_list {P : Offer → Prop} {s : SavedOffers} (h : All P s) {offer : Offer}
    (hoffer : offer ∈ s.list) : P offer := by
  obtain ⟨⟨offerId, o⟩, he, rfl⟩ := List.mem_map.1 hoffer
  exact h offerId o (Dict.get?_eq_some_iff.2 he)

theorem All.mono {P Q : Offer → Prop} {s : SavedOffers} (hPQ : ∀ offer, P offer → Q offer)
    (h : All P s) : All Q s :=
  fun offerId offer hget => hPQ offer (h offerId offer hget)

section

variable {tables : CharTables} {s : SavedOffers} {P : Offer → Prop}

theorem All.set {offerId : String} {offer : Offer} (h : All P s) (hoffer : P offer) :
    All P (s.write (s.offers.set offerId offer)) := by
  intro k o hget
  have hget' : (s.offers.set offerId offer).get? k = some o := hget
  rw [Dict.get?_set] at hget'
  split at hget'
  next =>
    obtain rfl := Option.some.inj hget'
    exact hoffer
  next => exact h k o hget'

theorem All.remove (h : All P s) (offerId : String) : All P (s.remove offerId).2 := by
  unfold SavedOffers.remove
  split
  next => exact fun k o hget => h k o (Dict.get?_of_get?_erase hget)
  next => exact h

theorem All.update (h : All P s) (offerId : String) {f : Offer → Offer}
    (hf : ∀ offer, P offer → P (f offer)) : All P (s.update offerId f).2 := by
  unfold SavedOffers.update
  split
  next => exact h
  next offer hget => exact h.set (hf offer (h offerId offer hget))

/-- Where every offer has a relay, there is nothing to pin. -/
theorem pinMissingRelays_of_all (h : All (fun offer => lacksRelay tables offer = false) s)
    (relay : String) : s.pinMissingRelays tables relay = ([], s) := by
  have hnone : s.list.filter (lacksRelay tables) = [] := by
    rw [List.filter_eq_nil_iff]
    intro offer hoffer
    rw [h.of_mem_list hoffer]
    exact Bool.false_ne_true
  unfold pinMissingRelays
  dsimp only
  rw [hnone]
  split <;> rfl

end

end SavedOffers

end ElectrumClink
