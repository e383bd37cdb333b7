import ElectrumClink.Wire.Noffer

/-!
# What the noffer decoder accepts

A `noffer` comes from anybody, so the decoder has to refuse whatever the format does not allow, and
its caller expects a `ValueError`. `nofferTlv` is the first half of the decoder, up to the records;
the other half reads the fields from them.

* `nofferDecode_valueError_iff`: the decoder refuses with a `ValueError`, except where the first
  price type record is empty: its first byte is looked up without a check.
* `nofferDecode_reencodes`: what was decoded can be encoded again and decodes to the same, as far as
  its price fits the four bytes that the format has for it. A price of zero is read as such but
  written as none.
-/

namespace ElectrumClink

/-- Whether an exception is a `ValueError`. -/
def PyError.isValueError : PyError → Bool
  | .valueError _ | .unicodeDecodeError => true
  | .typeError | .indexError | .overflowError => false

/-- `noffer_decode` up to the records of the payload. -/
def nofferTlv (b : Bech32) (code : String) : Except PyError (Dict UInt8 (List Bytes)) := do
  if !"noffer1".toList.isPrefixOf code.toList then
    throw (.valueError "not a noffer string")
  let (hrp, data5, _spec) := b.decode code
  if hrp ≠ some "noffer" then
    throw (.valueError "invalid noffer bech32")
  let some data5 := data5 | throw (.valueError "invalid noffer bech32")
  let some raw := b.convertbits data5 5 8 false | throw (.valueError "invalid noffer payload")
  let data ← bytesOfInts raw
  parseTlv data

/-! ## Refusals -/

/-- `bytes()` refuses with a `ValueError`. -/
theorem isValueError_of_bytesOfInts {ints : List ℕ} {e : PyError}
    (h : bytesOfInts ints = .error e) : e.isValueError = true := by
  rw [bytesOfInts] at h
  split at h
  · cases h
  · obtain rfl := Except.error.inj h
    rfl

/-- `_parse_tlv` refuses with a `ValueError`. -/
theorem isValueError_of_parseRecords {result : Dict UInt8 (List Bytes)} {data : Bytes} {e : PyError}
    (h : parseRecords result data = .error e) : e.isValueError = true := by
  fun_induction parseRecords result data with
  | case1 result => cases h
  | case2 result b =>
    obtain rfl := Except.error.inj h
    rfl
  | case3 result t length rest value hshort =>
    obtain rfl := Except.error.inj h
    rfl
  | case4 result t length rest value hlong ih => exact ih h

/-- Up to the records the decoder refuses with a `ValueError`, and then there is nothing more, or it
parses some payload, and goes on with its records. -/
theorem nofferTlv_cases (b : Bech32) (code : String) :
    (∃ e, nofferTlv b code = .error e ∧ nofferDecode b code = .error e ∧
        e.isValueError = true) ∨
      ∃ data, nofferTlv b code = parseTlv data ∧
        nofferDecode b code = parseTlv data >>= nofferOfRecords := by
  unfold nofferTlv nofferDecode
  rcases hdecode : b.decode code with ⟨hrp, data5, spec⟩
  by_cases hstarts : "noffer1".toList.isPrefixOf code.toList = true
  · by_cases hhrp : hrp = some "noffer"
    · simp only [hstarts, hhrp, Bool.not_true, Bool.false_eq_true, ne_eq, not_true_eq_false,
        if_false]
      rcases data5 with _ | data5
      · exact .inl ⟨_, rfl, rfl, rfl⟩
      · dsimp only
        rcases b.convertbits data5 5 8 false with _ | raw
        · exact .inl ⟨_, rfl, rfl, rfl⟩
        · dsimp only
          rcases hdata : bytesOfInts raw with e | data
          · exact .inl ⟨e, rfl, rfl, isValueError_of_bytesOfInts hdata⟩
          · exact .inr ⟨data, rfl, rfl⟩
    · simp only [hstarts, hhrp, Bool.not_true, Bool.false_eq_true, ne_eq, not_false_eq_true,
        if_false, if_true]
      exact .inl ⟨_, rfl, rfl, rfl⟩
  · simp only [hstarts, Bool.not_false, if_true]
    exact .inl ⟨_, rfl, rfl, rfl⟩

/-- The decoder reads the records, and then the fields from them. -/
theorem nofferDecode_eq (b : Bech32) (code : String) :
    nofferDecode b code = nofferTlv b code >>= nofferOfRecords := by
  rcases nofferTlv_cases b code with ⟨e, htlv, hdecode, -⟩ | ⟨data, htlv, hdecode⟩
  · rw [htlv, hdecode]
    rfl
  · rw [htlv, hdecode]

theorem isValueError_of_nofferTlv {b : Bech32} {code : String} {e : PyError}
    (h : nofferTlv b code = .error e) : e.isValueError = true := by
  rcases nofferTlv_cases b code with ⟨e', he', -, hvalue⟩ | ⟨data, hdata, -⟩
  · obtain rfl := Except.error.inj (he'.symm.trans h)
    exact hvalue
  · exact isValueError_of_parseRecords (hdata.symm.trans h)

/-- Records that pass every check, with an empty first price type. -/
structure EmptyPriceType (tlv : Dict UInt8 (List Bytes)) : Prop where
  pubkey : ∃ pubkey, firstRecord tlv 0 = some pubkey ∧ pubkey.length = 32
  relay : ∃ relay text, firstRecord tlv 1 = some relay ∧ Bytes.decodeUtf8? relay = some text
  offer : ∃ offer text, firstRecord tlv 2 = some offer ∧ Bytes.decodeUtf8? offer = some text
  priceType : firstRecord tlv 3 = some []

/-- A text record that is no UTF-8 is refused. -/
theorem decodeText_eq (value : Bytes) :
    decodeText value = .error .unicodeDecodeError ∨
      ∃ text, Bytes.decodeUtf8? value = some text ∧ decodeText value = .ok text := by
  rw [decodeText]
  rcases hvalue : Bytes.decodeUtf8? value with _ | text
  · exact .inl rfl
  · exact .inr ⟨text, rfl, rfl⟩

/-- A price type is refused with a `ValueError`, unless its record is empty. -/
theorem isValueError_of_decodePriceType {value : Bytes} {e : PyError} (hvalue : value ≠ [])
    (h : decodePriceType value = .error e) : e.isValueError = true := by
  rcases value with _ | ⟨d, value⟩
  · exact absurd rfl hvalue
  · rw [decodePriceType] at h
    split at h
    · cases h
    · obtain rfl := Except.error.inj h
      rfl

/-- The fields of a `Noffer` are those that the first records of each type hold. -/
structure ReadFrom (tlv : Dict UInt8 (List Bytes)) (offer : Noffer) : Prop where
  pubkey : ∃ pubkey, firstRecord tlv 0 = some pubkey ∧ pubkey.length = 32 ∧
    offer.pubkey = Bytes.hex pubkey
  relay : firstRecord tlv 1 = some (Bytes.encodeUtf8 offer.relay)
  offerId : firstRecord tlv 2 = some (Bytes.encodeUtf8 offer.offer)
  price : offer.price = (firstRecord tlv 4).map fun price => (Bytes.ofBigEndian price : ℤ)

/-- From the records the decoder reads a `Noffer`, or refuses with a `ValueError`, or looks up the
first byte of an empty record. -/
theorem nofferOfRecords_cases (tlv : Dict UInt8 (List Bytes)) :
    (∃ offer, nofferOfRecords tlv = .ok offer ∧ ReadFrom tlv offer) ∨
      (∃ e, nofferOfRecords tlv = .error e ∧ e.isValueError = true) ∨
      (nofferOfRecords tlv = .error .indexError ∧ EmptyPriceType tlv) := by
  unfold nofferOfRecords
  -- the fields in the order in which the decoder looks at them
  rcases hpubkey : firstRecord tlv 0 with _ | pubkey
  · exact .inr (.inl ⟨_, rfl, rfl⟩)
  by_cases hlength : pubkey.length = 32
  · rcases hrelay : firstRecord tlv 1 with _ | relay
    · simp only [hlength]
      exact .inr (.inl ⟨_, rfl, rfl⟩)
    rcases hoffer : firstRecord tlv 2 with _ | offerId
    · simp only [hlength]
      exact .inr (.inl ⟨_, rfl, rfl⟩)
    rcases htype : firstRecord tlv 3 with _ | priceType
    · simp only [hlength]
      exact .inr (.inl ⟨_, rfl, rfl⟩)
    simp only [hlength]
    rcases decodeText_eq relay with hbad | ⟨relayText, hutf8, hgood⟩
    · rw [hbad]
      exact .inr (.inl ⟨_, rfl, rfl⟩)
    rcases decodeText_eq offerId with hbad' | ⟨offerText, hutf8', hgood'⟩
    · rw [hgood, hbad']
      exact .inr (.inl ⟨_, rfl, rfl⟩)
    rw [hgood, hgood']
    rcases priceType with _ | ⟨d, priceType⟩
    · exact .inr (.inr ⟨rfl, ⟨pubkey, hpubkey, hlength⟩, ⟨relay, relayText, hrelay, hutf8⟩,
        ⟨offerId, offerText, hoffer, hutf8'⟩, htype⟩)
    · rcases hdecoded : decodePriceType (d :: priceType) with e | decoded
      · have hvalue := isValueError_of_decodePriceType (List.cons_ne_nil d priceType) hdecoded
        exact .inr (.inl ⟨e, rfl, hvalue⟩)
      · refine .inl ⟨_, rfl, ⟨pubkey, hpubkey, hlength, rfl⟩, ?_, ?_, rfl⟩
        · rw [hrelay, Bytes.encodeUtf8_of_decodeUtf8? hutf8]
        · rw [hoffer, Bytes.encodeUtf8_of_decodeUtf8? hutf8']
  · simp only [ne_eq, hlength, not_false_eq_true, if_true]
    exact .inr (.inl ⟨_, rfl, rfl⟩)

/-- The first byte of an empty record is looked up all the same. -/
theorem EmptyPriceType.nofferOfRecords {tlv : Dict UInt8 (List Bytes)} (h : EmptyPriceType tlv) :
    nofferOfRecords tlv = .error .indexError := by
  obtain ⟨⟨pubkey, hpubkey, hlength⟩, ⟨relay, relayText, hrelay, hutf8⟩,
    ⟨offer, offerText, hoffer, hutf8'⟩, htype⟩ := h
  simp only [ElectrumClink.nofferOfRecords, hpubkey, hlength, hrelay, hoffer, htype, decodeText,
    hutf8, hutf8', decodePriceType]
  rfl

/-- The decoder raises nothing but a `ValueError` exactly for the strings whose records, if they are
read at all, do not have an empty first price type where everything before it is in order. -/
theorem nofferDecode_valueError_iff (b : Bech32) (code : String) :
    (∀ e, nofferDecode b code = .error e → e.isValueError = true) ↔
      ∀ tlv, nofferTlv b code = .ok tlv → ¬ EmptyPriceType tlv := by
  rw [nofferDecode_eq]
  constructor
  · intro hvalue tlv htlv hempty
    rw [htlv, PyError.ok_bind, hempty.nofferOfRecords] at hvalue
    cases hvalue _ rfl
  · intro hnonempty e he
    rcases htlv : nofferTlv b code with e' | tlv
    · rw [htlv] at he
      obtain rfl := Except.error.inj he
      exact isValueError_of_nofferTlv htlv
    · rw [htlv, PyError.ok_bind] at he
      rcases nofferOfRecords_cases tlv with ⟨offer, hok, -⟩ | ⟨e', he', hvalue⟩ | ⟨-, hempty⟩
      · cases hok.symm.trans he
      · obtain rfl := Except.error.inj (he'.symm.trans he)
        exact hvalue
      · exact absurd hempty (hnonempty tlv htlv)

/-- A `noffer` whose price type record is empty: an `IndexError`. -/
theorem empty_price_type_raises_indexError :
    ∃ e, nofferDecode .reference ("noffer1qvqqyqt0qyqhyqpqzyg3zyg3zyg3zyg3zyg3zyg3z" ++
      "yg3zyg3zyg3zyg3zyg3zyg3zygsd4n6sp") = .error e ∧ e = .indexError ∧ e.isValueError = false :=
  ⟨.indexError, by decide +kernel, rfl, rfl⟩

/-! ## Encoding again what was decoded -/

/-- No record is longer than its length byte can say. -/
theorem length_le_of_parseRecords {result tlv : Dict UInt8 (List Bytes)} {data : Bytes}
    (hresult : ∀ t v, v ∈ (result.get? t).getD [] → v.length ≤ 255)
    (h : parseRecords result data = .ok tlv) :
    ∀ t v, v ∈ (tlv.get? t).getD [] → v.length ≤ 255 := by
  fun_induction parseRecords result data with
  | case1 result =>
    obtain rfl := Except.ok.inj h
    exact hresult
  | case2 result b => cases h
  | case3 result t length rest value hshort => cases h
  | case4 result t length rest value hlong ih =>
    refine ih (fun t' v hv => ?_) h
    rw [get?_addRecord] at hv
    split at hv
    next ht =>
      subst ht
      rcases List.mem_append.1 hv with hv | hv
      · exact hresult t' v hv
      · -- the new value is as long as its length byte says
        obtain rfl := List.mem_singleton.1 hv
        have hlength : length.toNat < 256 := length.toNat_lt
        have hvalue : value.length ≤ length.toNat := List.length_take_le _ _
        omega
    next => exact hresult t' v hv

/-- The same for the first record of a type. -/
theorem length_firstRecord_le {b : Bech32} {code : String} {tlv : Dict UInt8 (List Bytes)}
    (h : nofferTlv b code = .ok tlv) {t : UInt8} {v : Bytes} (hv : firstRecord tlv t = some v) :
    v.length ≤ 255 := by
  obtain ⟨data, hparse⟩ : ∃ data, parseTlv data = .ok tlv := by
    rcases nofferTlv_cases b code with ⟨e, he, -⟩ | ⟨data, hdata, -⟩
    · cases he.symm.trans h
    · exact ⟨data, hdata.symm.trans h⟩
  obtain ⟨values, hvalues, hhead⟩ := Option.bind_eq_some_iff.1 hv
  refine length_le_of_parseRecords (fun t v hv => ?_) hparse t v ?_
  · rw [Dict.get?_empty] at hv
    cases hv
  · rw [hvalues]
    exact List.mem_of_head? hhead

/-- The `Noffer` that is written: a price of zero counts as none. -/
def Noffer.dropZeroPrice (offer : Noffer) : Noffer :=
  { offer with price := offer.price.filter fun price => price ≠ 0 }

theorem nofferEncode_dropZeroPrice (b : Bech32) (offer : Noffer) :
    nofferEncode b offer.dropZeroPrice = nofferEncode b offer := by
  have hprice : priceRecord (offer.price.filter fun price => price ≠ 0) =
      priceRecord offer.price := by
    rcases offer.price with _ | price
    · rfl
    · by_cases hzero : price = 0
      · simp [hzero, priceRecord, Option.filter]
      · simp [hzero, Option.filter]
  have hrecords : nofferRecords offer.dropZeroPrice = nofferRecords offer := by
    unfold nofferRecords
    rw [Noffer.dropZeroPrice, hprice]
  rw [nofferEncode, hrecords, nofferEncode]

/-- What was decoded was read from the records of the string. -/
theorem exists_tlv_of_nofferDecode {b : Bech32} {code : String} {offer : Noffer}
    (h : nofferDecode b code = .ok offer) :
    ∃ tlv, nofferTlv b code = .ok tlv ∧ ReadFrom tlv offer := by
  rw [nofferDecode_eq] at h
  rcases htlv : nofferTlv b code with e | tlv
  · rw [htlv] at h
    cases h
  · rw [htlv, PyError.ok_bind] at h
    rcases nofferOfRecords_cases tlv with ⟨offer', hok, hread⟩ | ⟨e, he, -⟩ | ⟨he, -⟩
    · obtain rfl := Except.ok.inj (hok.symm.trans h)
      exact ⟨tlv, rfl, hread⟩
    · cases he.symm.trans h
    · cases he.symm.trans h

/-- What was decoded is well formed, but for a price of zero, as far as its price fits four
bytes. -/
theorem wellFormed_of_nofferDecode {b : Bech32} {code : String} {offer : Noffer}
    (h : nofferDecode b code = .ok offer) (hprice : ∀ price, offer.price = some price →
      price < 2 ^ 32) : offer.dropZeroPrice.WellFormed := by
  obtain ⟨tlv, htlv, ⟨pubkey, -, hlength, hpubkey⟩, hrelay, hoffer, hvalue⟩ :=
    exists_tlv_of_nofferDecode h
  obtain ⟨hdigits, hlower⟩ := Bytes.toList_hex pubkey
  refine ⟨?_, ?_, length_firstRecord_le htlv hrelay, length_firstRecord_le htlv hoffer, ?_⟩
  · show offer.pubkey.toList.length = 64
    rw [hpubkey, hdigits, hlength]
  · show ∀ c ∈ offer.pubkey.toList, Bytes.IsLowerHex c
    rw [hpubkey]
    exact hlower
  · intro price hsome
    obtain ⟨hsome, hne⟩ := Option.filter_eq_some_iff.1 hsome
    have hlt := hprice price hsome
    rw [hvalue, Option.map_eq_some_iff] at hsome
    obtain ⟨v, -, rfl⟩ := hsome
    have hne : (Bytes.ofBigEndian v : ℤ) ≠ 0 := of_decide_eq_true hne
    constructor <;> omega

/-- A larger price than four bytes hold is read, but cannot be written. -/
theorem overflowError_of_large_price {b : Bech32} {code : String} {offer : Noffer}
    (h : nofferDecode b code = .ok offer) {price : ℤ} (hprice : offer.price = some price)
    (hlarge : 2 ^ 32 ≤ price) : nofferEncode b offer = .error .overflowError := by
  obtain ⟨tlv, -, hread⟩ := exists_tlv_of_nofferDecode h
  obtain ⟨pubkey, -, hlength, hpubkey⟩ := hread.pubkey
  obtain ⟨hdigits, hlower⟩ := Bytes.toList_hex pubkey
  rw [hlength] at hdigits
  obtain ⟨bytes, hbytes, hlength', -⟩ := Bytes.hex_of_fromHex? hdigits hlower
  have hrecord : priceRecord offer.price = .error .overflowError := by
    have hne : price ≠ 0 := by omega
    have hout : ¬ (0 ≤ price ∧ price < 256 ^ 4) := by
      rintro ⟨-, hlt⟩
      norm_num at hlt hlarge
      omega
    simp only [hprice, priceRecord, if_neg hne, if_neg hout]
  have hrecords : nofferRecords offer = .error .overflowError := by
    simp only [nofferRecords, hpubkey, hbytes, hlength', hrecord]
    rfl
  simp only [nofferEncode, hrecords]
  rfl

/-- What was decoded can be encoded again, and decodes to the same but for a price of zero, which
comes back as none; this is for a price that fits four bytes. -/
theorem nofferDecode_reencodes {b : Bech32} (hlawful : b.Lawful) {code : String} {offer : Noffer}
    (h : nofferDecode b code = .ok offer) (hprice : ∀ price, offer.price = some price →
      price < 2 ^ 32) :
    offer.dropZeroPrice.WellFormed ∧
      ∃ code', nofferEncode b offer = .ok code' ∧
        nofferDecode b code' = .ok offer.dropZeroPrice := by
  have hwell := wellFormed_of_nofferDecode h hprice
  obtain ⟨code', hencode, hdecode⟩ := hwell.exists_code hlawful
  exact ⟨hwell, code', by rw [← nofferEncode_dropZeroPrice, hencode], hdecode⟩

/-- An offer with a price record of four zero bytes. -/
def Noffer.free : Noffer :=
  ⟨"1111111111111111111111111111111111111111111111111111111111111111", "r", "o", .fixed, some 0⟩

/-- The string it is decoded from. -/
def Noffer.freeCode : String :=
  "noffer1qszqqqqqqqpszqqzq9hszqtjqqspzyg3zyg3zyg3zyg3zyg3zyg3z" ++
    "yg3zyg3zyg3zyg3zyg3zyg3zygn5c53e"

theorem nofferDecode_freeCode : nofferDecode .reference Noffer.freeCode = .ok .free := by
  decide +kernel

/-- Its price is gone after it was encoded again. -/
theorem nofferDecode_reencodes_free :
    ∃ code', nofferEncode .reference .free = .ok code' ∧
      nofferDecode .reference code' = .ok { Noffer.free with price := none } := by
  refine (nofferDecode_reencodes Bech32.lawful_reference nofferDecode_freeCode ?_).2
  rintro price ⟨⟩
  norm_num

/-- So the string is decoded to an offer that is not read back from what it is encoded as. -/
theorem zero_price_is_lost :
    ∃ code', nofferDecode .reference Noffer.freeCode = .ok .free ∧
      nofferEncode .reference .free = .ok code' ∧
        nofferDecode .reference code' ≠ .ok .free := by
  refine ⟨"noffer1qvqsqqspduqszusqyqg3zyg3zyg3zyg3zyg3zyg3zyg3z" ++
    "yg3zyg3zyg3zyg3zyg3zyg3zw8nqe3", nofferDecode_freeCode, ?_, ?_⟩
  · decide +kernel
  · decide +kernel

end ElectrumClink
