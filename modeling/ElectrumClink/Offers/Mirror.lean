import ElectrumClink.Offers.Store

/-!
# The storage mirrors the offers

A server that starts reads its offers from the storage, so at every moment the storage must hold the
offers that the live store lists: all of their fields, in their order. The list it starts from may
have been written by an earlier version, with fields missing and ids repeated.

`stored_offers_mirror_memory` follows the storage over every sequence of operations.
-/

namespace ElectrumClink

namespace SavedOffers

/-- An operation of the store; `token` is what `create` draws for the id. -/
inductive Op
  | create (token : Bytes) (now : Time) (label : String) (priceType : OfferPriceType)
      (price : Option ℤ) (allowPayerMemo : Bool) (relay : String) (relayCustom : Bool)
  | remove (offerId : String)
  | setActive (offerId : String) (active : Bool)
  | setLabel (offerId label : String)
  | setAllowPayerMemo (offerId : String) (allow : Bool)
  | pinMissingRelays (relay : String)

/-- The store after an operation, successful or not. -/
def Op.apply (tables : CharTables) (s : SavedOffers) : Op → SavedOffers
  | .create token now label priceType price allowPayerMemo relay relayCustom =>
    (s.create tables token now label priceType price allowPayerMemo relay relayCustom).2
  | .remove offerId => (s.remove offerId).2
  | .setActive offerId active => (s.setActive offerId active).2
  | .setLabel offerId label => (s.setLabel offerId label).2
  | .setAllowPayerMemo offerId allow => (s.setAllowPayerMemo offerId allow).2
  | .pinMissingRelays relay => (s.pinMissingRelays tables relay).2

/-- The store after several operations. -/
def run (tables : CharTables) (s : SavedOffers) (ops : List Op) : SavedOffers :=
  ops.foldl (Op.apply tables) s

variable {tables : CharTables} {s : SavedOffers}

/-- Every operation leaves a store that loading its storage would give. -/
theorem Saved.apply (h : Saved s) (op : Op) : Saved (op.apply tables s) := by
  cases op with
  | create token now label priceType price allowPayerMemo relay relayCustom =>
    exact h.create token now label priceType price allowPayerMemo relay relayCustom
  | remove offerId => exact h.remove offerId
  -- the setters leave the id, which is the key of the entry
  | setActive offerId active => exact h.update offerId fun _ => rfl
  | setLabel offerId label => exact h.update offerId fun _ => rfl
  | setAllowPayerMemo offerId allow => exact h.update offerId fun _ => rfl
  | pinMissingRelays relay => exact h.pinMissingRelays relay

/-- So does every sequence of them. -/
theorem Saved.run (h : Saved s) (ops : List Op) : Saved (s.run tables ops) := by
  induction ops generalizing s with
  | nil => exact h
  | cons op ops ih => exact ih (h.apply op)

/-- Whatever list of offers a store was loaded from, and whatever was done to it since: a fresh
store over its storage lists the same offers in the same order. -/
theorem stored_offers_mirror_memory (tables : CharTables) {storage : List StoredOffer}
    (hload : load storage = .ok s) (ops : List Op) :
    ∃ t, load (s.run tables ops).storage = .ok t ∧ t.list = (s.run tables ops).list :=
  ⟨s.run tables ops, ((saved_of_load hload).run ops).load_storage, rfl⟩

/-- Two offers of an earlier version, of which the second has the id of the first. -/
def legacyStorage : List StoredOffer :=
  [{ offerId := "a", label := some "first" }, { offerId := "b", relay := some "wss://own.example" },
    { offerId := "a", label := some "second", active := some false }]

/-- They are loaded, pinned, renamed, and partly removed. -/
theorem stored_offers_mirror_memory_legacy :
    ∃ s t : SavedOffers, load legacyStorage = .ok s ∧
      load (s.run ⟨fun _ => true, fun ch => ch = ' '⟩ [.pinMissingRelays "wss://pick.example",
        .setLabel "b" "mine", .remove "missing", .remove "a"]).storage = .ok t ∧
      t.list.map Offer.label = ["mine"] := by
  obtain ⟨s, hs⟩ : ∃ s, load legacyStorage = .ok s := ⟨_, rfl⟩
  obtain ⟨t, ht, hlist⟩ := stored_offers_mirror_memory ⟨fun _ => true, fun ch => ch = ' '⟩ hs
    [.pinMissingRelays "wss://pick.example", .setLabel "b" "mine", .remove "missing", .remove "a"]
  refine ⟨s, t, hs, ht, ?_⟩
  rw [hlist]
  obtain rfl := Except.ok.inj hs
  decide +kernel

end SavedOffers

end ElectrumClink
