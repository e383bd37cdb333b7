import ElectrumClink.Basic
import ElectrumClink.Data.Bech32
import ElectrumClink.Data.Bytes
import ElectrumClink.Data.Dict
import ElectrumClink.Offers
import Mathlib.Data.List.Sort

/-!
# The noffer codec

A `noffer` is a bech32 string over type-length-value records that say where and how to request an
invoice. The bech32 functions are those of a library: `Bech32` takes them as parameters, and
`Bech32.Lawful` states what is relied on.

* `parseTlv_encodeTlv`: any map of short records survives the record format.
* `nofferDecode_nofferEncode`: a well-formed `Noffer` survives the whole format.
-/

namespace ElectrumClink

/-! ## Records -/

/-- The records one after the other, in the order given. -/
def encodeRecords : List (UInt8 × Bytes) → Except PyError Bytes
  | [] => .ok []
  | (t, v) :: records =>
    if v.length > 255 then
      .error (.valueError
        ("TLV " ++ toString t ++ " value too long: " ++ toString v.length ++ " bytes"))
    else
      (encodeRecords records).map fun out => t :: UInt8.ofNat v.length :: (v ++ out)

/-- `_encode_tlv`: highest type first. -/
def encodeTlv (records : Dict UInt8 Bytes) : Except PyError Bytes :=
  encodeRecords (records.entries.insertionSort fun a b => b.1 ≤ a.1)

/-- Append a value to those of its type. -/
def addRecord (result : Dict UInt8 (List Bytes)) (t : UInt8) (value : Bytes) :
    Dict UInt8 (List Bytes) :=
  result.set t ((result.get? t).getD [] ++ [value])

/-- The loop of `_parse_tlv`. -/
def parseRecords (result : Dict UInt8 (List Bytes)) :
    Bytes → Except PyError (Dict UInt8 (List Bytes))
  | [] => .ok result
  | [_] => .error (.valueError "truncated TLV header")
  | t :: length :: rest =>
    let value := rest.take length.toNat
    if value.length < length.toNat then
      .error (.valueError ("not enough data to read TLV " ++ toString t))
    else parseRecords (addRecord result t value) (rest.drop length.toNat)
termination_by rest => rest.length
decreasing_by
  simp only [List.length_drop, List.length_cons]
  omega

/-- `_parse_tlv`: the values of every type, in their order. -/
def parseTlv (data : Bytes) : Except PyError (Dict UInt8 (List Bytes)) := parseRecords ∅ data

/-! ## The string -/

open Bech32Text (Encoding)

/-- The bech32 functions of the library. -/
structure Bech32 where
  /-- `convertbits(data, frombits, tobits, pad)`. -/
  convertbits : List ℕ → ℕ → ℕ → Bool → Option (List ℕ)
  /-- `bech32_encode(hrp, data, spec)`. -/
  encode : String → List ℕ → Encoding → String
  /-- `bech32_decode(bech)`: the human-readable part, the data and the encoding, or nothing. -/
  decode : String → Option String × Option (List ℕ) × Option Encoding

/-- What is relied on: regrouping bits loses nothing, and decoding a string inverts its encoding,
however long it is. -/
structure Bech32.Lawful (b : Bech32) : Prop where
  regroup : ∀ data : Bytes, ∃ words, b.convertbits (data.map UInt8.toNat) 8 5 true = some words ∧
    (∀ w ∈ words, w < 32) ∧ b.convertbits words 5 8 false = some (data.map UInt8.toNat)
  decode_encode : ∀ hrp words, hrp ≠ "" → (∀ c ∈ hrp.toList, c.isLower = true) →
    (∀ w ∈ words, w < 32) →
      b.decode (b.encode hrp words .bech32) = (some hrp, some words, some .bech32)
  /-- The string starts with the human-readable part and the separator. -/
  starts : ∀ hrp words, (hrp ++ "1").toList <+: (b.encode hrp words .bech32).toList

/-- The value of a price type. -/
def OfferPriceType.value : OfferPriceType → UInt8
  | OfferPriceType.fixed => 0
  | OfferPriceType.variable => 1
  | OfferPriceType.spontaneous => 2

/-- `OfferPriceType(value)`. -/
def OfferPriceType.ofValue? (value : UInt8) : Option OfferPriceType :=
  if value = 0 then some OfferPriceType.fixed
  else if value = 1 then some OfferPriceType.variable
  else if value = 2 then some OfferPriceType.spontaneous
  else none

/-- Decoded contents of a `noffer` string. -/
structure Noffer where
  /-- 32-byte x-only public key, in hex. -/
  pubkey : String
  relay : String
  offer : String
  priceType : OfferPriceType := .spontaneous
  /-- Sats; only meaningful for fixed and variable offers. -/
  price : Option ℤ := none
deriving DecidableEq

/-- The price record, if there is one: a price of zero counts as none. -/
def priceRecord (price : Option ℤ) : Except PyError (Option Bytes) :=
  match price with
  | none => .ok none
  | some price =>
    if price = 0 then .ok none
    else if 0 ≤ price ∧ price < 256 ^ 4 then .ok (some (Bytes.toBigEndian 4 price.toNat))
    else .error .overflowError

/-- The records of a `Noffer`. -/
def nofferRecords (offer : Noffer) : Except PyError (Dict UInt8 Bytes) := do
  let some pubkeyBytes := Bytes.fromHex? offer.pubkey
    | throw (.valueError ("non-hexadecimal number found in fromhex() arg at position " ++
        toString (Bytes.fromHexPosition offer.pubkey)))
  if pubkeyBytes.length ≠ 32 then
    throw (.valueError "pubkey must be 32 bytes")
  let records :=
    ((((∅ : Dict UInt8 Bytes).set 0 pubkeyBytes).set 1 (Bytes.encodeUtf8 offer.relay)).set 2
      (Bytes.encodeUtf8 offer.offer)).set 3 [offer.priceType.value]
  let price ← priceRecord offer.price
  return price.elim records (records.set 4)

/-- `noffer_encode`. -/
def nofferEncode (b : Bech32) (offer : Noffer) : Except PyError String := do
  let records ← nofferRecords offer
  let data ← encodeTlv records
  let some words := b.convertbits (data.map UInt8.toNat) 8 5 true | throw .typeError
  return b.encode "noffer" words .bech32

/-- `bytes(ints)`. -/
def bytesOfInts (ints : List ℕ) : Except PyError Bytes :=
  if ∀ n ∈ ints, n < 256 then .ok (ints.map UInt8.ofNat)
  else .error (.valueError "bytes must be in range(0, 256)")

/-- The first value of a type, if there is one. -/
def firstRecord (tlv : Dict UInt8 (List Bytes)) (t : UInt8) : Option Bytes :=
  (tlv.get? t).bind List.head?

/-- A text record. -/
def decodeText (value : Bytes) : Except PyError String :=
  match Bytes.decodeUtf8? value with
  | some text => .ok text
  | none => .error .unicodeDecodeError

/-- The price type in a record: its first byte. -/
def decodePriceType (value : Bytes) : Except PyError OfferPriceType :=
  match value with
  | [] => .error .indexError
  | b :: _ =>
    match OfferPriceType.ofValue? b with
    | some priceType => .ok priceType
    | none => .error (.valueError (toString b ++ " is not a valid OfferPriceType"))

/-- The `Noffer` that the records describe. -/
def nofferOfRecords (tlv : Dict UInt8 (List Bytes)) : Except PyError Noffer := do
  let some pubkey := firstRecord tlv 0 | throw (.valueError "missing TLV 0 (pubkey) for noffer")
  if pubkey.length ≠ 32 then
    throw (.valueError "TLV 0 (pubkey) should be 32 bytes")
  let some relay := firstRecord tlv 1 | throw (.valueError "missing TLV 1 (relay) for noffer")
  let some offer := firstRecord tlv 2 | throw (.valueError "missing TLV 2 (offer) for noffer")
  let some priceType := firstRecord tlv 3
    | throw (.valueError "missing TLV 3 (price type) for noffer")
  let relay ← decodeText relay
  let offer ← decodeText offer
  let priceType ← decodePriceType priceType
  return ⟨Bytes.hex pubkey, relay, offer, priceType,
    (firstRecord tlv 4).map fun price => (Bytes.ofBigEndian price : ℤ)⟩

/-- `noffer_decode`. -/
def nofferDecode (b : Bech32) (code : String) : Except PyError Noffer := do
  if !"noffer1".toList.isPrefixOf code.toList then
    throw (.valueError "not a noffer string")
  let (hrp, data5, _spec) := b.decode code
  if hrp ≠ some "noffer" then
    throw (.valueError "invalid noffer bech32")
  let some data5 := data5 | throw (.valueError "invalid noffer bech32")
  let some raw := b.convertbits data5 5 8 false | throw (.valueError "invalid noffer payload")
  let data ← bytesOfInts raw
  let tlv ← parseTlv data
  nofferOfRecords tlv

/-! ## Round trip of the records -/

theorem encodeRecords_cons_of_le {t : UInt8} {v : Bytes} (h : v.length ≤ 255)
    (records : List (UInt8 × Bytes)) :
    encodeRecords ((t, v) :: records) =
      (encodeRecords records).map fun out => t :: UInt8.ofNat v.length :: (v ++ out) := by
  rw [encodeRecords, if_neg (not_lt.2 h)]

/-- One record is read off the front. -/
theorem parseRecords_cons (result : Dict UInt8 (List Bytes)) (t : UInt8) {v : Bytes}
    (h : v.length ≤ 255) (rest : Bytes) :
    parseRecords result (t :: UInt8.ofNat v.length :: (v ++ rest)) =
      parseRecords (addRecord result t v) rest := by
  have hlength : (UInt8.ofNat v.length).toNat = v.length := by
    rw [UInt8.toNat_ofNat']
    omega
  rw [parseRecords, hlength, List.take_left, List.drop_left]
  simp

/-- Reading what was written collects the records. -/
theorem parseRecords_encodeRecords {records : List (UInt8 × Bytes)}
    (h : ∀ e ∈ records, e.2.length ≤ 255) (result : Dict UInt8 (List Bytes)) :
    ∃ data, encodeRecords records = .ok data ∧
      parseRecords result data =
        .ok (records.foldl (fun result e => addRecord result e.1 e.2) result) := by
  induction records generalizing result with
  | nil => exact ⟨[], rfl, by rw [parseRecords]; rfl⟩
  | cons e records ih =>
    obtain ⟨t, v⟩ := e
    have hv : v.length ≤ 255 := h (t, v) List.mem_cons_self
    obtain ⟨data, hencode, hparse⟩ := ih (fun e he => h e (List.mem_cons_of_mem _ he))
      (addRecord result t v)
    refine ⟨t :: UInt8.ofNat v.length :: (v ++ data), ?_, ?_⟩
    · rw [encodeRecords_cons_of_le hv, hencode]
      rfl
    · rw [parseRecords_cons result t hv, hparse]
      rfl

theorem get?_addRecord (result : Dict UInt8 (List Bytes)) (t t' : UInt8) (v : Bytes) :
    (addRecord result t v).get? t' =
      if t' = t then some ((result.get? t').getD [] ++ [v]) else result.get? t' := by
  rw [addRecord, Dict.get?_set]
  split
  next h => rw [h]
  next => rfl

/-- Records of distinct types are collected one by one. -/
theorem get?_collectRecords {records : List (UInt8 × Bytes)}
    (hnodup : (records.map Prod.fst).Nodup) (result : Dict UInt8 (List Bytes)) (t : UInt8) :
    (records.foldl (fun result e => addRecord result e.1 e.2) result).get? t =
      (records.lookup t).elim (result.get? t) fun v => some ((result.get? t).getD [] ++ [v]) := by
  induction records generalizing result with
  | nil => rfl
  | cons e records ih =>
    obtain ⟨t', v⟩ := e
    rw [List.map_cons, List.nodup_cons] at hnodup
    rw [List.foldl_cons, ih hnodup.2, get?_addRecord, List.lookup_cons]
    by_cases h : t = t'
    · subst h
      have hnone : records.lookup t = none := by
        rw [List.lookup_eq_none_iff]
        intro e he
        rw [bne_iff_ne]
        rintro rfl
        exact hnodup.1 (List.mem_map.2 ⟨e, he, rfl⟩)
      simp [hnone]
    · have hbeq : (t == t') = false := beq_eq_false_iff_ne.2 h
      rw [hbeq, if_neg h]

/-- Any map of short records survives the format: every type is read back with the one value it
had. -/
theorem parseTlv_encodeTlv {records : Dict UInt8 Bytes}
    (h : ∀ t v, records.get? t = some v → v.length ≤ 255) :
    ∃ data tlv, encodeTlv records = .ok data ∧ parseTlv data = .ok tlv ∧
      ∀ t, tlv.get? t = (records.get? t).map fun v => [v] := by
  set sorted := records.entries.insertionSort fun a b => b.1 ≤ a.1 with hsorted
  have hperm : sorted.Perm records.entries := List.perm_insertionSort _ _
  have hnodup : (sorted.map Prod.fst).Nodup := (hperm.map _).nodup_iff.2 records.nodup_keys
  have hlookup : ∀ t, sorted.lookup t = records.get? t := by
    intro t
    show Dict.get? ⟨sorted, hnodup⟩ t = records.get? t
    exact Dict.get?_congr fun v => hperm.mem_iff
  have hshort : ∀ e ∈ sorted, e.2.length ≤ 255 := fun e he =>
    h e.1 e.2 (Dict.get?_eq_some_iff.2 (hperm.mem_iff.1 he))
  obtain ⟨data, hencode, hparse⟩ := parseRecords_encodeRecords hshort ∅
  refine ⟨data, _, hencode, hparse, fun t => ?_⟩
  rw [get?_collectRecords hnodup, hlookup, Dict.get?_empty]
  cases records.get? t <;> rfl

/-- Only short records can be written. -/
theorem length_le_of_encodeRecords {records : List (UInt8 × Bytes)} {data : Bytes}
    (h : encodeRecords records = .ok data) : ∀ e ∈ records, e.2.length ≤ 255 := by
  induction records generalizing data with
  | nil =>
    intro e he
    cases he
  | cons e records ih =>
    obtain ⟨t, v⟩ := e
    by_cases hv : v.length > 255
    · rw [encodeRecords, if_pos hv] at h
      cases h
    · rw [encodeRecords_cons_of_le (not_lt.1 hv)] at h
      rcases hrest : encodeRecords records with err | rest
      · rw [hrest] at h
        cases h
      · intro e he
        rcases List.mem_cons.1 he with rfl | he
        · exact not_lt.1 hv
        · exact ih hrest e he

/-! ## Round trip of the string -/

/-- A `Noffer` whose fields have the form the format asks for. -/
structure Noffer.WellFormed (offer : Noffer) : Prop where
  pubkey_length : offer.pubkey.toList.length = 64
  pubkey_hex : ∀ c ∈ offer.pubkey.toList, Bytes.IsLowerHex c
  relay_length : (Bytes.encodeUtf8 offer.relay).length ≤ 255
  offer_length : (Bytes.encodeUtf8 offer.offer).length ≤ 255
  price_range : ∀ price, offer.price = some price → 1 ≤ price ∧ price ≤ 2 ^ 32 - 1

theorem OfferPriceType.ofValue?_value (priceType : OfferPriceType) :
    ofValue? priceType.value = some priceType := by
  cases priceType <;> rfl

/-- A price in range is written in four bytes. -/
theorem priceRecord_of_range {price : Option ℤ}
    (h : ∀ p, price = some p → 1 ≤ p ∧ p ≤ 2 ^ 32 - 1) :
    priceRecord price = .ok (price.map fun p => Bytes.toBigEndian 4 p.toNat) := by
  rcases price with _ | price
  · rfl
  · obtain ⟨hpos, hle⟩ := h price rfl
    -- a price of zero would be left out
    have hne : price ≠ 0 := by omega
    have hrange : 0 ≤ price ∧ price < 256 ^ 4 := by
      constructor <;> norm_num at hle ⊢ <;> omega
    simp only [priceRecord, if_neg hne, if_pos hrange, Option.map_some]

/-- The record of a `Noffer` of each type. -/
def Noffer.record (offer : Noffer) (pubkey : Bytes) (t : UInt8) : Option Bytes :=
  if t = 4 then offer.price.map fun price => Bytes.toBigEndian 4 price.toNat
  else if t = 3 then some [offer.priceType.value]
  else if t = 2 then some (Bytes.encodeUtf8 offer.offer)
  else if t = 1 then some (Bytes.encodeUtf8 offer.relay)
  else if t = 0 then some pubkey
  else none

theorem Noffer.WellFormed.length_record_le {offer : Noffer} (h : offer.WellFormed) {pubkey : Bytes}
    (hlength : pubkey.length = 32) {t : UInt8} {v : Bytes}
    (hv : offer.record pubkey t = some v) : v.length ≤ 255 := by
  unfold record at hv
  split at hv
  next =>
    obtain ⟨price, -, rfl⟩ := Option.map_eq_some_iff.1 hv
    simp
  next =>
    split at hv
    next => rw [← Option.some.inj hv]; simp
    next =>
      split at hv
      next => rw [← Option.some.inj hv]; exact h.offer_length
      next =>
        split at hv
        next => rw [← Option.some.inj hv]; exact h.relay_length
        next =>
          rw [Option.ite_none_right_eq_some] at hv
          rw [← Option.some.inj hv.2, hlength]
          decide

/-- The record map of a well-formed `Noffer`. -/
theorem exists_nofferRecords {offer : Noffer} (h : offer.WellFormed) :
    ∃ pubkey records, Bytes.hex pubkey = offer.pubkey ∧ pubkey.length = 32 ∧
      nofferRecords offer = .ok records ∧ ∀ t, records.get? t = offer.record pubkey t := by
  obtain ⟨pubkey, hpubkey, hlength, hhex⟩ :=
    Bytes.hex_of_fromHex? (n := 32) h.pubkey_length h.pubkey_hex
  set base : Dict UInt8 Bytes := ((((∅ : Dict UInt8 Bytes).set 0 pubkey).set 1
    (Bytes.encodeUtf8 offer.relay)).set 2 (Bytes.encodeUtf8 offer.offer)).set 3
      [offer.priceType.value] with hbase
  have hbase_get : ∀ t, base.get? t =
      if t = 3 then some [offer.priceType.value]
      else if t = 2 then some (Bytes.encodeUtf8 offer.offer)
      else if t = 1 then some (Bytes.encodeUtf8 offer.relay)
      else if t = 0 then some pubkey else none := by
    intro t
    rw [hbase, Dict.get?_set, Dict.get?_set, Dict.get?_set, Dict.get?_set, Dict.get?_empty]
  set records := (offer.price.map fun price => Bytes.toBigEndian 4 price.toNat).elim base
    (base.set 4) with hrecords
  refine ⟨pubkey, records, hhex, hlength, ?_, fun t => ?_⟩
  · simp only [nofferRecords, hpubkey, hlength, priceRecord_of_range h.price_range]
    rfl
  · rw [hrecords, Noffer.record]
    -- without a price there is no record of type 4
    rcases offer.price with _ | price
    · by_cases ht : t = 4
      · subst ht
        simp [hbase_get]
      · simp [ht, hbase_get]
    · rw [← hbase_get]
      exact Dict.get?_set _ _ _ _

/-- Records that hold the fields of a `Noffer` are read back as that `Noffer`. -/
theorem nofferOfRecords_eq {tlv : Dict UInt8 (List Bytes)} {offer : Noffer} {pubkey : Bytes}
    (hhex : Bytes.hex pubkey = offer.pubkey) (hlength : pubkey.length = 32)
    (hpubkey : firstRecord tlv 0 = some pubkey)
    (hrelay : firstRecord tlv 1 = some (Bytes.encodeUtf8 offer.relay))
    (hoffer : firstRecord tlv 2 = some (Bytes.encodeUtf8 offer.offer))
    (htype : firstRecord tlv 3 = some [offer.priceType.value])
    (hprice : (firstRecord tlv 4).map (fun price => (Bytes.ofBigEndian price : ℤ)) =
      offer.price) : nofferOfRecords tlv = .ok offer := by
  have htext : ∀ s, decodeText (Bytes.encodeUtf8 s) = .ok s := by
    intro s
    simp [decodeText]
  have hvalue : decodePriceType [offer.priceType.value] = .ok offer.priceType := by
    simp [decodePriceType, OfferPriceType.ofValue?_value]
  unfold nofferOfRecords
  simp only [hpubkey, hrelay, hoffer, htype, hprice, hlength, htext, hvalue, hhex]
  rfl

/-- A well-formed `Noffer` is encoded, and read back from what it is encoded as. -/
theorem Noffer.WellFormed.exists_code {b : Bech32} (hlawful : b.Lawful) {offer : Noffer}
    (h : offer.WellFormed) :
    ∃ code, nofferEncode b offer = .ok code ∧ nofferDecode b code = .ok offer := by
  obtain ⟨pubkey, records, hhex, hlength, hrecords, hget⟩ := exists_nofferRecords h
  obtain ⟨data, tlv, hencode, hparse, htlv⟩ := parseTlv_encodeTlv fun t v hv =>
    h.length_record_le hlength ((hget t).symm.trans hv)
  obtain ⟨words, hwords, hsmall, hback⟩ := hlawful.regroup data
  have hlower : ∀ c ∈ "noffer".toList, c.isLower = true := List.all_eq_true.1 (by decide)
  have hdecode := hlawful.decode_encode "noffer" words (by decide) hlower hsmall
  have hstarts : "noffer1".toList.isPrefixOf (b.encode "noffer" words .bech32).toList = true :=
    List.isPrefixOf_iff_prefix.2 (hlawful.starts "noffer" words)
  have hbytes : bytesOfInts (data.map UInt8.toNat) = .ok data := by
    rw [bytesOfInts, if_pos, List.map_map]
    · refine congrArg Except.ok (List.map_id'' (fun d => ?_) data)
      exact UInt8.ofNat_toNat
    · intro n hn
      obtain ⟨d, -, rfl⟩ := List.mem_map.1 hn
      exact d.toNat_lt
  -- of every type there is at most one record
  have hfirst : ∀ t, firstRecord tlv t = offer.record pubkey t := by
    intro t
    rw [firstRecord, htlv, hget]
    cases offer.record pubkey t <;> rfl
  refine ⟨b.encode "noffer" words .bech32, ?_, ?_⟩
  · simp only [nofferEncode, hrecords, PyError.ok_bind, hencode, hwords]
    rfl
  · have hfields : nofferOfRecords tlv = .ok offer := by
      refine nofferOfRecords_eq hhex hlength (hfirst 0) (hfirst 1) (hfirst 2) (hfirst 3) ?_
      have hprice : firstRecord tlv 4 = offer.price.map fun price =>
        Bytes.toBigEndian 4 price.toNat := hfirst 4
      rw [hprice]
      rcases hcase : offer.price with _ | price
      · rfl
      · obtain ⟨hpos, hle⟩ := h.price_range price hcase
        -- four bytes hold every price in range
        have hfits : price.toNat < 256 ^ 4 := by
          norm_num at hle ⊢
          omega
        rw [Option.map_some, Option.map_some, Bytes.ofBigEndian_toBigEndian hfits,
          Int.toNat_of_nonneg (by omega)]
    unfold nofferDecode
    simp only [hstarts, hdecode, hback, hbytes, PyError.ok_bind, hparse, hfields]
    rfl

/-- Every record map of short values survives `_encode_tlv` and `_parse_tlv`, and every well-formed
`Noffer` survives `noffer_encode` and `noffer_decode`. -/
theorem nofferDecode_nofferEncode {b : Bech32} (hlawful : b.Lawful) :
    (∀ offer : Noffer, offer.WellFormed →
      ∃ code, nofferEncode b offer = .ok code ∧ nofferDecode b code = .ok offer) ∧
    ∀ records : Dict UInt8 Bytes, (∀ t v, records.get? t = some v → v.length ≤ 255) →
      ∃ data tlv, encodeTlv records = .ok data ∧ parseTlv data = .ok tlv ∧
        ∀ t, tlv.get? t = (records.get? t).map fun v => [v] :=
  ⟨fun _ h => h.exists_code hlawful, fun _ h => parseTlv_encodeTlv h⟩

/-- The relay record holds the relay. -/
theorem get?_one_of_nofferRecords {offer : Noffer} {records : Dict UInt8 Bytes}
    (h : nofferRecords offer = .ok records) :
    records.get? 1 = some (Bytes.encodeUtf8 offer.relay) := by
  unfold nofferRecords at h
  rcases hpubkey : Bytes.fromHex? offer.pubkey with _ | pubkey
  · rw [hpubkey] at h
    cases h
  by_cases hlength : pubkey.length ≠ 32
  · simp only [hpubkey, if_pos hlength] at h
    cases h
  rcases hprice : priceRecord offer.price with e | price
  · simp only [hpubkey, if_neg hlength, hprice] at h
    cases h
  simp only [hpubkey, if_neg hlength, hprice, PyError.ok_bind] at h
  rw [← Except.ok.inj h]
  rcases price with _ | price
  · simp [Dict.get?_set]
  · simp [Dict.get?_set]

/-- A `Noffer` can only be written when its relay is short enough. -/
theorem relay_length_of_nofferEncode {b : Bech32} {offer : Noffer} {code : String}
    (h : nofferEncode b offer = .ok code) : (Bytes.encodeUtf8 offer.relay).length ≤ 255 := by
  unfold nofferEncode at h
  rcases hrecords : nofferRecords offer with e | records
  · rw [hrecords] at h
    cases h
  rcases hdata : encodeTlv records with e | data
  · rw [hrecords, PyError.ok_bind, hdata] at h
    cases h
  have hmem : (1, Bytes.encodeUtf8 offer.relay) ∈
      records.entries.insertionSort fun a b => b.1 ≤ a.1 :=
    (List.mem_insertionSort _).2 (Dict.get?_eq_some_iff.1 (get?_one_of_nofferRecords hrecords))
  exact length_le_of_encodeRecords hdata _ hmem

/-- The functions of the format itself. -/
def Bech32.reference : Bech32 where
  convertbits := Bech32Text.convertbits
  encode := Bech32Text.encode
  decode code :=
    match Bech32Text.decode code with
    | some (hrp, data, spec) => (some hrp, some data, some spec)
    | none => (none, none, none)

theorem Bech32.lawful_reference : Bech32.reference.Lawful where
  regroup data := by
    refine Bech32Text.convertbits_convertbits fun n hn => ?_
    obtain ⟨d, -, rfl⟩ := List.mem_map.1 hn
    exact d.toNat_lt
  decode_encode hrp words _ _ hsmall := by
    simp only [reference, Bech32Text.decode_encode hrp hsmall]
  starts hrp words := by
    show (hrp ++ "1").toList <+: (Bech32Text.encode hrp words .bech32).toList
    rw [Bech32Text.encode, String.toList_ofList, String.toList_append]
    exact ⟨_, List.append_assoc _ _ _⟩

/-- An offer with a fixed price. -/
def Noffer.sample : Noffer :=
  ⟨"7e7e9c42a91bfef19fa929e5fda1b72e0ebc1a4c1141673e2794234d86addf4e", "ws://127.0.0.1:7777",
    "coffee", .fixed, some 25000⟩

/-- The reference SDK encodes this offer the same way. -/
example : (nofferEncode .reference .sample).toOption =
    some ("noffer1qszqqqrp4qpszqqzqe3k7enxv4jszymhwvaz7te3xgmjuvpwxqhrzw3hxumnwqpq0elfcs4fr0l0" ++
      "r8af98jlmgdh9c8tcxjvz9qkw038js35mp4dma8qtxcm5u") := by
  decide +kernel

/-- The sample survives the format. -/
theorem nofferDecode_nofferEncode_sample :
    ∃ code, nofferEncode .reference .sample = .ok code ∧
      nofferDecode .reference code = .ok .sample := by
  have hcheck : Noffer.sample.pubkey.toList.all (fun c => decide (Bytes.IsLowerHex c)) = true := by
    decide +kernel
  have hhex : ∀ c ∈ Noffer.sample.pubkey.toList, Bytes.IsLowerHex c := fun c hc =>
    of_decide_eq_true (List.all_eq_true.1 hcheck c hc)
  refine (nofferDecode_nofferEncode Bech32.lawful_reference).1 .sample
    ⟨by decide +kernel, hhex, by decide +kernel, by decide +kernel, ?_⟩
  rintro price ⟨⟩
  decide

end ElectrumClink
