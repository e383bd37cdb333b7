import ElectrumClink.Protocol

/-!
# The fields of a request

What `request_offer_id` and `request_amount_sat` accept, said without their code: a string of sane
length, and an integer in range or the digits of one.
-/

namespace ElectrumClink

/-! ## The offer id -/

theorem one_le_length_iff {s : String} : 1 ≤ s.length ↔ s ≠ "" := by
  rw [Nat.one_le_iff_ne_zero, ne_eq, ne_eq, ← String.length_eq_zero_iff]

/-- `request_offer_id` accepts the strings of 1 to 64 characters. -/
theorem requestOfferId_eq_some_iff {req : Request} {id : String} :
    requestOfferId req = some id ↔
      req.get? "offer" = some (.str id) ∧ 1 ≤ id.length ∧ id.length ≤ maxOfferIdLen := by
  rw [one_le_length_iff]
  unfold requestOfferId
  split
  next raw hraw =>
    rw [hraw]
    simp only [Option.some.injEq, Json.str.injEq, Option.ite_none_left_eq_some, not_or, not_lt]
    constructor
    · rintro ⟨⟨hne, hlen⟩, rfl⟩
      exact ⟨rfl, hne, hlen⟩
    · rintro ⟨rfl, hne, hlen⟩
      exact ⟨⟨hne, hlen⟩, rfl⟩
  next hother =>
    simp only [reduceCtorEq, false_iff, not_and]
    intro h
    exact absurd h (hother id)

/-! ## The amount -/

/-- The field that carries the amount: `amount_sats` if the key is there, `amount` otherwise. -/
def amountField (req : Request) : Option Json :=
  if "amount_sats" ∈ req then req.get? "amount_sats" else req.get? "amount"

/-- The amount field is an integer, or a string of at most 16 ASCII digits, with this value. -/
def NamesAmount (req : Request) (amountSat : ℤ) : Prop :=
  (amountField req = some (.int amountSat) ∨ ∃ raw, amountField req = some (.str raw) ∧
    1 ≤ raw.length ∧ raw.length ≤ 16 ∧ (∀ c ∈ raw.toList, c.isDigit = true) ∧
      (digitsValue raw : ℤ) = amountSat) ∧ 0 < amountSat ∧ amountSat ≤ maxAmountSat

theorem isAsciiDigits_iff {raw : String} :
    isAsciiDigits raw = true ↔ 1 ≤ raw.length ∧ ∀ c ∈ raw.toList, c.isDigit = true := by
  rw [one_le_length_iff]
  simp [isAsciiDigits]

/-- `request_amount_sat` finds the amount that the field names, if it is in range. -/
theorem requestAmountSat_eq_some_iff {req : Request} {amountSat : ℤ} :
    requestAmountSat req = some amountSat ↔ NamesAmount req amountSat := by
  -- `amount_sats` hides `amount` even where it names no amount
  have hfield : (req.get? "amount_sats").or (req.get? "amount") = amountField req := by
    unfold amountField
    split
    next hmem =>
      obtain ⟨v, hv⟩ := Dict.mem_iff_exists_get?.1 hmem
      rw [hv, Option.some_or]
    next hmem => rw [Dict.get?_eq_none_iff.2 hmem, Option.none_or]
  unfold requestAmountSat NamesAmount
  rw [hfield]
  rcases hraw : amountField req with _ | raw
  · simp
  cases raw with
  | str raw =>
    simp only [Option.some.injEq, reduceCtorEq, Json.str.injEq, false_or, exists_eq_left',
      Option.bind_eq_some_iff, Option.ite_none_left_eq_some, Option.ite_none_right_eq_some,
      Bool.or_eq_true, Bool.not_eq_true', decide_eq_true_eq, not_or, not_lt, Bool.not_eq_false,
      isAsciiDigits_iff]
    constructor
    · rintro ⟨_, ⟨⟨⟨hpos, hdigits⟩, hlen⟩, rfl⟩, hbounds, rfl⟩
      exact ⟨⟨hpos, hlen, hdigits, rfl⟩, hbounds⟩
    · rintro ⟨⟨hpos, hlen, hdigits, rfl⟩, hbounds⟩
      exact ⟨_, ⟨⟨⟨hpos, hdigits⟩, hlen⟩, rfl⟩, hbounds, rfl⟩
  | int raw =>
    simp only [Option.some.injEq, reduceCtorEq, Json.int.injEq, Option.bind_some,
      Option.ite_none_right_eq_some]
    constructor
    · rintro ⟨hbounds, rfl⟩
      exact ⟨.inl rfl, hbounds⟩
    · rintro ⟨rfl | ⟨_, h, -⟩, hbounds⟩
      · exact ⟨hbounds, rfl⟩
      · cases h
  -- a `bool` and a `float` among them name no amount
  | null | bool | float | array | object => simp

end ElectrumClink
