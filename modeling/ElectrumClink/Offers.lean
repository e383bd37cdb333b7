import ElectrumClink.Data.Dict

/-!
# Offers

An offer is a stable identifier with a label and the relay its static code advertises. The fields
for other price types than the spontaneous one are stored but not used.
-/

namespace ElectrumClink

/-- How the invoice amount for an offer is determined. -/
inductive OfferPriceType
  /-- The amount is the offer's price. -/
  | fixed
  /-- The amount is derived from a fiat price. -/
  | variable
  /-- The payer names the amount in the request. -/
  | spontaneous
deriving DecidableEq

/-- One offer. -/
structure Offer where
  offerId : String
  label : String := ""
  priceType : OfferPriceType := .spontaneous
  price : Option ℤ := none
  active : Bool := true
  createdAt : ℤ := 0
  /-- Whether a payer's requested memo is folded into the issued invoice. -/
  allowPayerMemo : Bool := true
  /-- The pinned relay; empty on offers stored before pinning existed. -/
  relay : String := ""
  relayCustom : Bool := false
deriving DecidableEq

/-- A collection of offers, keyed by `offer_id`. -/
structure OfferStore where
  offers : Dict String Offer

namespace OfferStore

/-- The store over an empty storage. -/
def empty : OfferStore := ⟨∅⟩

/-- The offer with the given identifier, if any. -/
def get (store : OfferStore) (offerId : String) : Option Offer := store.offers.get? offerId

end OfferStore

end ElectrumClink
