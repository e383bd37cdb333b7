import ElectrumClink.Basic
import ElectrumClink.Offers
import Mathlib.Data.List.DropRight
import Mathlib.Data.Nat.Digits.Defs

/-!
# Requests, replies and the resolution of a request

The decrypted JSON of a request, the fields read from it, the payloads sent back and the decision
of what to reply. Nothing here touches a relay or the wallet.

`resolveRequest_eq_issueInvoice_iff` is the gate: an invoice is issued exactly for an active
spontaneous offer and an amount the request names validly and the available liquidity covers.
-/

namespace ElectrumClink

/-! ## Wire values -/

/-- A JSON value as `json.loads` returns it. A float is kept as its literal: no field is read as
one. -/
inductive Json
  | null
  | bool (b : Bool)
  | int (n : ℤ)
  | float (literal : String)
  | str (s : String)
  | array (elems : List Json)
  | object (members : List (String × Json))

/-- A request: the members of a JSON object, the last one winning where a name repeats. -/
abbrev Request := Dict String Json

/-- `isinstance(req, dict)`: the request an object stands for. -/
def Json.toRequest? : Json → Option Request
  | .object members => some (members.foldl (fun req m => req.set m.1 m.2) ∅)
  | _ => none

/-- A BOLT-11 invoice, by the fields its text encodes. -/
structure Bolt11 where
  paymentHash : PaymentHash
  amountSat : ℤ
  message : String
  /-- When the invoice was created. -/
  timestamp : Time
  /-- Seconds after `timestamp` at which the invoice expires. -/
  expiry : ℤ
deriving DecidableEq, Inhabited

namespace Bolt11

/-- The moment the invoice expires. -/
def expiresAt (invoice : Bolt11) : Time := invoice.timestamp + invoice.expiry

end Bolt11

/-- A payload sent to the payer. -/
inductive Payload
  /-- `{"code", "error", "range"?: {"min", "max"}}`. -/
  | error (code : ℤ) (message : String) (range : Option (ℤ × ℤ))
  /-- `{"bolt11"}`. -/
  | success (bolt11 : Bolt11)
  /-- `{"res": "ok"}`, once the invoice is paid. -/
  | receipt
deriving DecidableEq

def errInvalidOffer : ℤ := 1
def errTemporaryFailure : ℤ := 2
def errUnsupportedFeature : ℤ := 4
def errInvalidAmount : ℤ := 5

def errorPayload (code : ℤ) (message : String) : Payload := .error code message none

def invalidAmountPayload (minSat maxSat : ℤ) : Payload :=
  .error errInvalidAmount "Invalid Amount" (some (minSat, maxSat))

def successPayload (bolt11 : Bolt11) : Payload := .success bolt11

/-! ## Fields of a request -/

/-- Cap for the human-readable invoice memo. -/
def memoMaxLen : ℕ := 100

/-- Bound for the offer id of a request. -/
def maxOfferIdLen : ℕ := 64

/-- Total bitcoin supply in sats. -/
def maxAmountSat : ℤ := 21000000 * 100000000

/-- Raw `description` budget before sanitizing. -/
def rawDescriptionMaxLen : ℕ := memoMaxLen * 4

/-- The request's offer id: a non-empty string of sane length. -/
def requestOfferId (req : Request) : Option String :=
  match req.get? "offer" with
  -- a value of any other type is as good as none
  | some (.str raw) => if raw = "" ∨ raw.length > maxOfferIdLen then none else some raw
  | _ => none

/-- Round receivable capacity down to `sigFigs` significant figures. -/
def quantizeAvailableSat (availableSat : ℤ) (sigFigs : ℕ) : ℤ :=
  if availableSat ≤ 0 then 0
  else
    let digits := (Nat.digits 10 availableSat.toNat).length
    if digits ≤ sigFigs then availableSat
    else
      let factor : ℤ := 10 ^ (digits - sigFigs)
      availableSat / factor * factor

/-- What the memo functions use of Python's character tables: `str.isprintable` and
`str.isspace`. -/
structure CharTables where
  isPrintable : Char → Bool
  isSpace : Char → Bool

namespace CharTables

variable (tables : CharTables)

/-- `str.rstrip()`. -/
def rstrip (s : List Char) : List Char := s.rdropWhile tables.isSpace

/-- `str.strip()`. -/
def strip (s : List Char) : List Char := tables.rstrip (s.dropWhile tables.isSpace)

/-- `str.split()`: the maximal runs of non-whitespace. -/
def split (s : List Char) : List (List Char) :=
  (s.splitOnP tables.isSpace).filter fun word => !word.isEmpty

end CharTables

/-- The payer's optional note, on one line and capped; `none` when absent, mistyped or empty after
cleaning. -/
def requestDescription (tables : CharTables) (req : Request) : Option String :=
  match req.get? "description" with
  | some (.str raw) =>
    let raw := raw.toList.take rawDescriptionMaxLen
    -- non-printables, line breaks among them, become spaces before the runs are collapsed
    let cleaned := [' '].intercalate
      (tables.split (raw.map fun ch => if tables.isPrintable ch then ch else ' '))
    if cleaned.isEmpty then none
    else some (String.ofList (tables.rstrip (cleaned.take memoMaxLen)))
  | _ => none

/-- The payer memo to fold into the invoice, honoring the offer's gate. -/
def effectiveDescription (tables : CharTables) (offer : Option Offer) (req : Request) :
    Option String :=
  match offer with
  | none => none
  | some offer => if !offer.allowPayerMemo then none else requestDescription tables req

/-- The memo of an issued invoice: label and description, whichever are present. -/
def invoiceMessage (tables : CharTables) (offerLabel description : Option String) : String :=
  let parts := [offerLabel, description].filterMap fun p =>
    p.bind fun p =>
      let stripped := tables.strip p.toList
      if stripped.isEmpty then none else some stripped
  let message := " - ".toList.intercalate parts
  -- the cut can leave a space at the end
  let message :=
    if message.length > memoMaxLen then tables.rstrip (message.take memoMaxLen) else message
  if message.isEmpty then "CLINK offer" else String.ofList message

/-- `raw.isascii() and raw.isdigit()`. -/
def isAsciiDigits (raw : String) : Bool := raw != "" && raw.toList.all Char.isDigit

/-- `int(raw)` of a string of ASCII digits. -/
def digitsValue (raw : String) : ℕ :=
  raw.toList.foldl (fun n c => n * 10 + (c.toNat - '0'.toNat)) 0

/-- The requested amount: an integer or a short string of digits, within `(0, MAX_AMOUNT_SAT]`.
`amount` counts only when `amount_sats` is absent. -/
def requestAmountSat (req : Request) : Option ℤ :=
  let raw : Option ℤ :=
    -- a `null` under `amount_sats` still hides `amount`
    match (req.get? "amount_sats").or (req.get? "amount") with
    | some (.str raw) =>
      if !isAsciiDigits raw || decide (raw.length > 16) then none else some (digitsValue raw)
    | some (.int raw) => some raw
    -- `isinstance(raw, bool)` is refused although a `bool` is an `int`
    | _ => none
  raw.bind fun raw => if 0 < raw ∧ raw ≤ maxAmountSat then some raw else none

/-! ## Resolution -/

/-- How a request is answered. -/
inductive Resolution
  /-- Mint an invoice for this many sats and reserve the liquidity. -/
  | issueInvoice (amountSat : ℤ)
  /-- Reply with this error payload, issue nothing. -/
  | sendError (payload : Payload)
deriving DecidableEq

/-- Decide how to answer a decrypted request. `availableSat` is receivable capacity after existing
reservations. -/
def resolveRequest (req : Request) (offer : Option Offer) (availableSat minSat : ℤ) :
    Resolution :=
  match offer with
  | none => .sendError (errorPayload errInvalidOffer "Unknown or inactive offer")
  | some offer =>
    if !offer.active then .sendError (errorPayload errInvalidOffer "Unknown or inactive offer")
    else if offer.priceType ≠ .spontaneous then
      .sendError (errorPayload errUnsupportedFeature "Only spontaneous offers are supported")
    else
      match requestAmountSat req with
      | none => .sendError (invalidAmountPayload minSat (quantizeAvailableSat availableSat 2))
      | some amount =>
        if amount < minSat then
          .sendError (invalidAmountPayload minSat (quantizeAvailableSat availableSat 2))
        else if amount > availableSat then
          -- not enough inbound liquidity, or all of it reserved
          .sendError (invalidAmountPayload minSat (quantizeAvailableSat availableSat 2))
        else .issueInvoice amount

/-- A requested amount is positive and at most the total supply. -/
theorem requestAmountSat_bounds {req : Request} {amount : ℤ}
    (h : requestAmountSat req = some amount) : 0 < amount ∧ amount ≤ maxAmountSat := by
  obtain ⟨raw, -, hraw⟩ := Option.bind_eq_some_iff.1 h
  split at hraw
  next hbounds =>
    obtain rfl := Option.some.inj hraw
    exact hbounds
  next => cases hraw

/-- An invoice is issued exactly for an active spontaneous offer and an amount that the request
names and that lies between the minimum and the available liquidity. -/
theorem resolveRequest_eq_issueInvoice_iff {req : Request} {offer : Option Offer}
    {availableSat minSat amountSat : ℤ} :
    resolveRequest req offer availableSat minSat = .issueInvoice amountSat ↔
      (∃ o, offer = some o ∧ o.active = true ∧ o.priceType = .spontaneous) ∧
        requestAmountSat req = some amountSat ∧ minSat ≤ amountSat ∧
        amountSat ≤ availableSat := by
  unfold resolveRequest
  rcases offer with _ | offer
  · simp
  · by_cases hactive : offer.active = true
    · by_cases htype : offer.priceType = .spontaneous
      · rcases hreq : requestAmountSat req with _ | amount
        · simp [hactive, htype]
        · by_cases hmin : amount < minSat
          · simp only [hactive, htype, hmin, Bool.not_true, Bool.false_eq_true, if_false, if_true,
              ne_eq, not_true_eq_false, reduceCtorEq, Option.some.injEq, false_iff]
            rintro ⟨-, rfl, hle, -⟩
            omega
          · by_cases hmax : amount > availableSat
            · simp only [hactive, htype, hmin, hmax, Bool.not_true, Bool.false_eq_true, if_false,
                if_true, ne_eq, not_true_eq_false, reduceCtorEq, Option.some.injEq, false_iff]
              rintro ⟨-, rfl, -, hle⟩
              omega
            · simp only [hactive, htype, hmin, hmax, Bool.not_true, Bool.false_eq_true, if_false,
                ne_eq, not_true_eq_false, Resolution.issueInvoice.injEq, Option.some.injEq]
              constructor
              · rintro rfl
                exact ⟨⟨offer, rfl, hactive, htype⟩, rfl, by omega, by omega⟩
              · exact fun h => h.2.1
      · simp [hactive, htype]
    · simp [hactive]

/-- Which error a request is refused with: what the offer is decides between the two that name no
amount, and the third names the available liquidity only as it is rounded. -/
theorem payload_of_resolveRequest {req : Request} {offer : Option Offer}
    {availableSat minSat : ℤ} {payload : Payload}
    (h : resolveRequest req offer availableSat minSat = .sendError payload) :
    ((∀ o, offer = some o → o.active = false) ∧
        payload = errorPayload errInvalidOffer "Unknown or inactive offer") ∨
      ∃ o, offer = some o ∧ o.active = true ∧
        (o.priceType ≠ .spontaneous ∧
            payload = errorPayload errUnsupportedFeature "Only spontaneous offers are supported" ∨
          o.priceType = .spontaneous ∧
            payload = invalidAmountPayload minSat (quantizeAvailableSat availableSat 2)) := by
  rcases offer with _ | offer
  · left
    refine ⟨?_, (Resolution.sendError.inj h).symm⟩
    rintro o ⟨⟩
  rw [resolveRequest] at h
  by_cases hactive : offer.active = true
  · right
    rw [hactive, Bool.not_true, if_neg Bool.false_ne_true] at h
    refine ⟨offer, rfl, hactive, ?_⟩
    by_cases htype : offer.priceType = .spontaneous
    · right
      rw [if_neg (not_not.2 htype)] at h
      refine ⟨htype, ?_⟩
      -- the three refusals for the amount have one payload
      split at h
      next => exact (Resolution.sendError.inj h).symm
      next amount _ =>
        split at h
        next => exact (Resolution.sendError.inj h).symm
        next =>
          split at h
          next => exact (Resolution.sendError.inj h).symm
          next => cases h
    · left
      rw [if_pos htype] at h
      exact ⟨htype, (Resolution.sendError.inj h).symm⟩
  · left
    rw [Bool.not_eq_true] at hactive
    rw [hactive, Bool.not_false, if_pos rfl] at h
    refine ⟨?_, (Resolution.sendError.inj h).symm⟩
    rintro o ⟨⟩
    exact hactive

/-- A request that is not answered with an invoice is answered with an error. -/
theorem exists_error_of_resolveRequest {req : Request} {offer : Option Offer}
    {availableSat minSat : ℤ} {payload : Payload}
    (h : resolveRequest req offer availableSat minSat = .sendError payload) :
    ∃ code message range, payload = .error code message range := by
  rcases payload_of_resolveRequest h with ⟨-, rfl⟩ | ⟨o, -, -, ⟨-, rfl⟩ | ⟨-, rfl⟩⟩
  all_goals exact ⟨_, _, _, rfl⟩

end ElectrumClink
