import Mathlib.Data.List.Induction
import Mathlib.Data.Nat.Digits.Defs

/-!
# Byte strings

Byte strings as lists, with the conversions of a scripting language's standard library: UTF-8 text,
hexadecimal text and big-endian numbers. Reading text is partial, and each reader undoes its writer:
`decodeUtf8?_encodeUtf8`, `hex_of_fromHex?` and `ofBigEndian_toBigEndian`.
-/

/-- A byte string. -/
abbrev Bytes := List UInt8

namespace Bytes

/-! ## UTF-8 -/

/-- The UTF-8 encoding of a text. -/
def encodeUtf8 (s : String) : Bytes := s.toByteArray.data.toList

/-- The text that a byte string encodes, if it is UTF-8. -/
def decodeUtf8? (b : Bytes) : Option String := String.fromUTF8? ⟨b.toArray⟩

/-- Decoding undoes encoding. -/
@[simp]
theorem decodeUtf8?_encodeUtf8 (s : String) : decodeUtf8? (encodeUtf8 s) = some s := by
  have hbytes : (⟨(encodeUtf8 s).toArray⟩ : ByteArray) = s.toByteArray := rfl
  rw [decodeUtf8?, hbytes, String.fromUTF8?, dif_pos s.isValidUTF8]
  exact congrArg some (String.toByteArray_inj.1 rfl)

/-- A text that was decoded encodes to the bytes it was decoded from. -/
theorem encodeUtf8_of_decodeUtf8? {b : Bytes} {s : String} (h : decodeUtf8? b = some s) :
    encodeUtf8 s = b := by
  rw [decodeUtf8?, String.fromUTF8?] at h
  split at h
  next hvalid =>
    obtain rfl := Option.some.inj h
    show b.toArray.toList = b
    rw [List.toList_toArray]
  next => cases h

/-- A character takes at most four bytes. -/
theorem length_encodeUtf8_le (s : String) : (encodeUtf8 s).length ≤ 4 * s.toList.length := by
  have hencode : encodeUtf8 s = s.toList.flatMap String.utf8EncodeChar := by
    rw [encodeUtf8, ← String.utf8Encode_toList, List.utf8Encode]
    simp
  rw [hencode]
  induction s.toList with
  | nil => exact le_rfl
  | cons c cs ih =>
    have hc : (String.utf8EncodeChar c).length ≤ 4 := by
      rw [String.length_utf8EncodeChar]
      exact c.utf8Size_le_four
    rw [List.flatMap_cons, List.length_append, List.length_cons]
    omega

/-! ## Hexadecimal text -/

/-- The value of a hexadecimal digit, in either case. -/
def hexVal? (c : Char) : Option ℕ :=
  if '0' ≤ c ∧ c ≤ '9' then some (c.toNat - '0'.toNat)
  else if 'a' ≤ c ∧ c ≤ 'f' then some (c.toNat - 'a'.toNat + 10)
  else if 'A' ≤ c ∧ c ≤ 'F' then some (c.toNat - 'A'.toNat + 10)
  else none

/-- The whitespace of ASCII. -/
def isAsciiSpace (c : Char) : Bool := c == ' ' || ('\t' ≤ c && c ≤ '\r')

/-- The bytes that pairs of digits name; whitespace may stand between the pairs. -/
def fromHexChars? : List Char → Option Bytes
  | [] => some []
  | [c] => if isAsciiSpace c then some [] else none
  | c :: d :: rest =>
    if isAsciiSpace c then fromHexChars? (d :: rest)
    else
      (hexVal? c).bind fun hi =>
        (hexVal? d).bind fun lo =>
          (fromHexChars? rest).map fun b => UInt8.ofNat (16 * hi + lo) :: b

/-- `bytes.fromhex`. -/
def fromHex? (s : String) : Option Bytes := fromHexChars? s.toList

/-- The position of the first character that is no digit where one is due, the first of the text
being at position `i`; the position after the last when a pair lacks its second digit. -/
def fromHexStop (i : ℕ) : List Char → ℕ
  | [] => i
  | [c] => if isAsciiSpace c ∨ (hexVal? c).isSome then i + 1 else i
  | c :: d :: rest =>
    if isAsciiSpace c then fromHexStop (i + 1) (d :: rest)
    else if hexVal? c = none then i
    else if hexVal? d = none then i + 1
    else fromHexStop (i + 2) rest

/-- The position that `bytes.fromhex` names when it raises. -/
def fromHexPosition (s : String) : ℕ :=
  -- a text that is not all ASCII is not looked into
  (s.toList.findIdx? fun c => 128 ≤ c.toNat).getD (fromHexStop 0 s.toList)

/-- The two digits of a byte. -/
def hexPair (b : UInt8) : List Char := [Nat.digitChar (b.toNat / 16), Nat.digitChar (b.toNat % 16)]

/-- `bytes.hex`: two lowercase digits a byte. -/
def hex (b : Bytes) : String := String.ofList (b.flatMap hexPair)

/-- A lowercase hexadecimal digit. -/
def IsLowerHex (c : Char) : Prop := '0' ≤ c ∧ c ≤ '9' ∨ 'a' ≤ c ∧ c ≤ 'f'

instance (c : Char) : Decidable (IsLowerHex c) :=
  inferInstanceAs (Decidable ('0' ≤ c ∧ c ≤ '9' ∨ 'a' ≤ c ∧ c ≤ 'f'))

/-- A lowercase digit is no whitespace, and is the digit of its value. -/
theorem exists_hexVal?_of_isLowerHex {c : Char} (h : IsLowerHex c) :
    isAsciiSpace c = false ∧ ∃ n < 16, hexVal? c = some n ∧ Nat.digitChar n = c := by
  have hcheck : ∀ n < 128, IsLowerHex (Char.ofNat n) → isAsciiSpace (Char.ofNat n) = false ∧
      ∃ m < 16, hexVal? (Char.ofNat n) = some m ∧ Nat.digitChar m = Char.ofNat n := by
    decide +kernel
  have hsmall : c.toNat < 128 := by
    rcases h with ⟨-, h⟩ | ⟨-, h⟩
    · exact lt_of_le_of_lt (Char.le_def.1 h) (by decide)
    · exact lt_of_le_of_lt (Char.le_def.1 h) (by decide)
  have hc := hcheck c.toNat hsmall
  rw [Char.ofNat_toNat] at hc
  exact hc h

/-- Lowercase digits in pairs are read, and writing what was read gives them back. -/
theorem fromHexChars?_of_isLowerHex {cs : List Char} {n : ℕ} (hlength : cs.length = 2 * n)
    (hdigits : ∀ c ∈ cs, IsLowerHex c) :
    ∃ b, fromHexChars? cs = some b ∧ b.length = n ∧ b.flatMap hexPair = cs := by
  induction n generalizing cs with
  | zero =>
    obtain rfl := List.length_eq_zero_iff.1 hlength
    exact ⟨[], rfl, rfl, rfl⟩
  | succ n ih =>
    rcases cs with _ | ⟨c, _ | ⟨d, rest⟩⟩
    · simp at hlength
    · simp at hlength
      omega
    · obtain ⟨hspace, hi, hhi, hc, hchi⟩ := exists_hexVal?_of_isLowerHex (hdigits c (by simp))
      obtain ⟨-, lo, hlo, hd, hdlo⟩ := exists_hexVal?_of_isLowerHex (hdigits d (by simp))
      obtain ⟨b, hb, hlen, hhex⟩ := ih (by simp at hlength; omega)
        fun c hc => hdigits c (List.mem_cons_of_mem _ (List.mem_cons_of_mem _ hc))
      have hbyte : (UInt8.ofNat (16 * hi + lo)).toNat = 16 * hi + lo := by
        rw [UInt8.toNat_ofNat']
        omega
      refine ⟨UInt8.ofNat (16 * hi + lo) :: b, ?_, by simp [hlen], ?_⟩
      · rw [fromHexChars?, hspace, hc, hd, hb]
        rfl
      · rw [List.flatMap_cons, hhex, hexPair, hbyte]
        have hdiv : (16 * hi + lo) / 16 = hi := by omega
        have hmod : (16 * hi + lo) % 16 = lo := by omega
        rw [hdiv, hmod, hchi, hdlo]
        rfl

/-- Reading the lowercase text of `n` bytes and writing them again gives the text. -/
theorem hex_of_fromHex? {s : String} {n : ℕ} (hlength : s.toList.length = 2 * n)
    (hdigits : ∀ c ∈ s.toList, IsLowerHex c) :
    ∃ b, fromHex? s = some b ∧ b.length = n ∧ hex b = s := by
  obtain ⟨b, hb, hlen, hhex⟩ := fromHexChars?_of_isLowerHex hlength hdigits
  exact ⟨b, hb, hlen, by rw [hex, hhex, String.ofList_toList]⟩

/-- The digits that are written are lowercase. -/
theorem isLowerHex_hexPair {b : UInt8} {c : Char} (h : c ∈ hexPair b) : IsLowerHex c := by
  have hdigit : ∀ n < 16, IsLowerHex (Nat.digitChar n) := by decide
  have hb : b.toNat < 256 := b.toNat_lt
  rw [hexPair, List.mem_cons, List.mem_singleton] at h
  rcases h with rfl | rfl
  · exact hdigit _ (by omega)
  · exact hdigit _ (by omega)

/-- The text of a byte string has two lowercase digits a byte. -/
theorem toList_hex (b : Bytes) :
    (hex b).toList.length = 2 * b.length ∧ ∀ c ∈ (hex b).toList, IsLowerHex c := by
  rw [hex, String.toList_ofList]
  constructor
  · induction b with
    | nil => rfl
    | cons d b ih =>
      have hpair : (hexPair d).length = 2 := rfl
      rw [List.flatMap_cons, List.length_append, ih, List.length_cons, hpair]
      omega
  · intro c hc
    obtain ⟨d, -, hd⟩ := List.mem_flatMap.1 hc
    exact isLowerHex_hexPair hd

/-! ## Big-endian numbers -/

/-- The last `length` base-256 digits of `n`, as `int.to_bytes` writes them. -/
def toBigEndian : ℕ → ℕ → Bytes
  | 0, _ => []
  | length + 1, n => toBigEndian length (n / 256) ++ [UInt8.ofNat n]

/-- `int.from_bytes`. -/
def ofBigEndian (b : Bytes) : ℕ := b.foldl (fun n d => 256 * n + d.toNat) 0

@[simp]
theorem length_toBigEndian (length n : ℕ) : (toBigEndian length n).length = length := by
  induction length generalizing n with
  | zero => rfl
  | succ length ih => simp [toBigEndian, ih]

@[simp]
theorem ofBigEndian_append_singleton (b : Bytes) (d : UInt8) :
    ofBigEndian (b ++ [d]) = 256 * ofBigEndian b + d.toNat := by
  simp [ofBigEndian]

/-- A number that fits is read back. -/
theorem ofBigEndian_toBigEndian {length n : ℕ} (h : n < 256 ^ length) :
    ofBigEndian (toBigEndian length n) = n := by
  induction length generalizing n with
  | zero =>
    rw [pow_zero, Nat.lt_one_iff] at h
    rw [h]
    rfl
  | succ length ih =>
    have hdiv : n / 256 < 256 ^ length := by
      rw [Nat.div_lt_iff_lt_mul (by decide)]
      rwa [pow_succ] at h
    rw [toBigEndian, ofBigEndian_append_singleton, ih hdiv, UInt8.toNat_ofNat']
    exact Nat.div_add_mod n 256

/-- The bytes that were read are written back. -/
theorem toBigEndian_ofBigEndian (b : Bytes) : toBigEndian b.length (ofBigEndian b) = b := by
  induction b using List.reverseRecOn with
  | nil => rfl
  | append_singleton b d ih =>
    have hd : d.toNat < 256 := d.toNat_lt
    have hdiv : (256 * ofBigEndian b + d.toNat) / 256 = ofBigEndian b := by omega
    have hlast : UInt8.ofNat (256 * ofBigEndian b + d.toNat) = d := by
      apply UInt8.toNat_inj.1
      rw [UInt8.toNat_ofNat']
      omega
    rw [List.length_append, List.length_singleton, ofBigEndian_append_singleton, toBigEndian, hdiv,
      ih, hlast]

end Bytes
