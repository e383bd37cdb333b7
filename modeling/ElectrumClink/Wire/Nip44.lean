import ElectrumClink.Basic
import ElectrumClink.Data.Base64
import ElectrumClink.Data.Bytes
import ElectrumClink.Data.SymmetricCrypto
import Mathlib.Data.Nat.Size

/-!
# NIP-44 payload encryption

Key derivation, padding and framing of the encrypted payloads. The cipher, the hash and base64 are
those of libraries: `Nip44` takes them as parameters, and `Nip44.Lawful` states what is relied on.

`decrypt_encrypt` shows that every text of 1 to 65535 bytes is read back, and that no other text is
encrypted.
-/

namespace ElectrumClink

/-- The functions of the libraries. -/
structure Nip44 where
  /-- `hmac_oneshot(key, msg, hashlib.sha256)`. -/
  hmac256 : Bytes → Bytes → Bytes
  /-- `chacha20_encrypt(key, nonce, data)`. -/
  chacha20Encrypt : Bytes → Bytes → Bytes → Bytes
  /-- `chacha20_decrypt(key, nonce, data)`. -/
  chacha20Decrypt : Bytes → Bytes → Bytes → Bytes
  /-- `base64.b64encode(data).decode()`. -/
  b64encode : Bytes → String
  /-- `base64.b64decode(payload, validate=True)`; `none` when it raises. -/
  b64decode : String → Option Bytes

/-- The characters of base64 texts. -/
def isBase64Char (c : Char) : Bool := c.isAlphanum || c == '+' || c == '/' || c == '='

namespace Nip44

/-- What is relied on: decryption inverts encryption under the same key and nonce and keeps the
length, the hash has 32 bytes, and base64 texts are read back. -/
structure Lawful (p : Nip44) : Prop where
  length_hmac256 : ∀ key msg, (p.hmac256 key msg).length = 32
  chacha20Decrypt_chacha20Encrypt : ∀ key nonce data, key.length = 32 → nonce.length = 12 →
    p.chacha20Decrypt key nonce (p.chacha20Encrypt key nonce data) = data
  length_chacha20Encrypt : ∀ key nonce data, key.length = 32 → nonce.length = 12 →
    (p.chacha20Encrypt key nonce data).length = data.length
  b64decode_b64encode : ∀ data, p.b64decode (p.b64encode data) = some data
  isBase64Char_b64encode : ∀ data, ∀ c ∈ (p.b64encode data).toList, isBase64Char c = true

def version : UInt8 := 2

def minPlaintext : ℕ := 1

def maxPlaintext : ℕ := 65535

/-! ## Keys -/

/-- The loop of `_hkdf_expand`. A counter above 255 is no byte; `left` counts the ones below. -/
def hkdfExpandLoop (p : Nip44) (prk info : Bytes) (length : ℕ) :
    (left : ℕ) → (block out : Bytes) → Except PyError Bytes
  | 0, _, out =>
    if out.length < length then .error (.valueError "bytes must be in range(0, 256)")
    else .ok (out.take length)
  | left + 1, block, out =>
    if out.length < length then
      let block := p.hmac256 prk (block ++ info ++ [UInt8.ofNat (255 - left)])
      p.hkdfExpandLoop prk info length left block (out ++ block)
    else .ok (out.take length)

/-- `_hkdf_expand`. -/
def hkdfExpand (p : Nip44) (prk info : Bytes) (length : ℕ) : Except PyError Bytes :=
  p.hkdfExpandLoop prk info length 255 [] []

/-- The keys of one message. -/
structure MessageKeys where
  chachaKey : Bytes
  chachaNonce : Bytes
  hmacKey : Bytes

/-- `_message_keys`. -/
def messageKeys (p : Nip44) (convKey nonce : Bytes) : Except PyError MessageKeys := do
  if nonce.length ≠ 32 then
    throw (.valueError "nonce must be 32 bytes")
  let keys ← p.hkdfExpand convKey nonce 76
  return ⟨keys.take 32, (keys.drop 32).take 12, (keys.drop 44).take 32⟩

/-! ## Padding -/

/-- `_calc_padded_len`. -/
def calcPaddedLen (unpaddedLen : ℕ) : ℕ :=
  if unpaddedLen ≤ 32 then 32
  else
    let nextPower := 1 <<< (unpaddedLen - 1).size
    let chunk := if nextPower ≤ 256 then 32 else nextPower / 8
    chunk * ((unpaddedLen - 1) / chunk + 1)

/-- `_pad`. -/
def pad (plaintext : Bytes) : Except PyError Bytes :=
  let unpaddedLen := plaintext.length
  if ¬ (minPlaintext ≤ unpaddedLen ∧ unpaddedLen ≤ maxPlaintext) then
    .error (.valueError "invalid plaintext length")
  else
    .ok (Bytes.toBigEndian 2 unpaddedLen ++ plaintext ++
      List.replicate (calcPaddedLen unpaddedLen - unpaddedLen) 0)

/-- `_unpad`. -/
def unpad (padded : Bytes) : Except PyError Bytes :=
  if padded.length < 2 then .error (.valueError "invalid padding")
  else
    let unpaddedLen := Bytes.ofBigEndian (padded.take 2)
    let plaintext := (padded.drop 2).take unpaddedLen
    if plaintext.length ≠ unpaddedLen ∨
        ¬ (minPlaintext ≤ unpaddedLen ∧ unpaddedLen ≤ maxPlaintext) ∨
        padded.length ≠ 2 + calcPaddedLen unpaddedLen then
      .error (.valueError "invalid padding")
    else .ok plaintext

/-! ## Framing -/

/-- `_hmac_aad`. -/
def hmacAad (p : Nip44) (key message aad : Bytes) : Except PyError Bytes :=
  if aad.length ≠ 32 then .error (.valueError "aad must be 32 bytes")
  else .ok (p.hmac256 key (aad ++ message))

/-- `encrypt`, with the nonce given or drawn. -/
def encrypt (p : Nip44) (plaintext : String) (convKey nonce : Bytes) : Except PyError String := do
  let keys ← p.messageKeys convKey nonce
  let padded ← pad (Bytes.encodeUtf8 plaintext)
  let ciphertext := p.chacha20Encrypt keys.chachaKey keys.chachaNonce padded
  let mac ← p.hmacAad keys.hmacKey ciphertext nonce
  return p.b64encode (version :: (nonce ++ ciphertext ++ mac))

/-- `decrypt`. -/
def decrypt (p : Nip44) (payload : String) (convKey : Bytes) : Except PyError String := do
  if payload.toList.head? = some '#' then
    throw (.valueError "unsupported encryption version")
  let some data := p.b64decode payload | throw (.valueError "invalid base64 payload")
  if data.length < 99 ∨ data.head? ≠ some version then
    throw (.valueError "invalid NIP-44 payload")
  let nonce := (data.drop 1).take 32
  let ciphertext := (data.drop 33).take (data.length - 32 - 33)
  let mac := data.drop (data.length - 32)
  let keys ← p.messageKeys convKey nonce
  let expected ← p.hmacAad keys.hmacKey ciphertext nonce
  if expected ≠ mac then
    throw (.valueError "invalid MAC")
  let plaintext ← unpad (p.chacha20Decrypt keys.chachaKey keys.chachaNonce ciphertext)
  match Bytes.decodeUtf8? plaintext with
  | some text => return text
  | none => throw .unicodeDecodeError

/-! ## Lengths -/

/-- Padding never shortens, and pads to 32 bytes at least. -/
theorem le_calcPaddedLen (n : ℕ) : n ≤ calcPaddedLen n ∧ 32 ≤ calcPaddedLen n := by
  unfold calcPaddedLen
  split
  next h => exact ⟨h, le_rfl⟩
  next h =>
    simp only
    generalize hchunk : (if 1 <<< (n - 1).size ≤ 256 then 32 else 1 <<< (n - 1).size / 8) = chunk
    have hpos : 0 < chunk := by
      rw [← hchunk]
      split
      · decide
      · omega
    -- the next multiple of the chunk lies above
    have hlt := Nat.lt_mul_div_succ (n - 1) hpos
    constructor <;> omega

/-- As long as the counter lasts, the loop returns the bytes asked for. -/
theorem exists_hkdfExpandLoop {p : Nip44} (hp : p.Lawful) (prk info : Bytes) (length : ℕ)
    (left : ℕ) (block out : Bytes) (h : length ≤ out.length + 32 * left) :
    ∃ keys, p.hkdfExpandLoop prk info length left block out = .ok keys ∧ keys.length = length := by
  induction left generalizing block out with
  | zero =>
    have hlong : ¬ out.length < length := by omega
    refine ⟨out.take length, ?_, ?_⟩
    · rw [hkdfExpandLoop, if_neg hlong]
    · rw [List.length_take]
      omega
  | succ left ih =>
    rw [hkdfExpandLoop]
    -- one more block of 32 bytes, or the loop stops
    by_cases hshort : out.length < length
    · rw [if_pos hshort]
      refine ih _ _ ?_
      rw [List.length_append, hp.length_hmac256]
      omega
    · rw [if_neg hshort]
      refine ⟨out.take length, rfl, ?_⟩
      rw [List.length_take]
      omega

/-- A nonce of 32 bytes yields keys of the lengths the cipher asks for. -/
theorem exists_messageKeys {p : Nip44} (hp : p.Lawful) (convKey : Bytes) {nonce : Bytes}
    (hnonce : nonce.length = 32) :
    ∃ keys, p.messageKeys convKey nonce = .ok keys ∧ keys.chachaKey.length = 32 ∧
      keys.chachaNonce.length = 12 := by
  obtain ⟨keys, hkeys, hlength⟩ := exists_hkdfExpandLoop hp convKey nonce 76 255 [] []
    (by decide)
  refine ⟨⟨keys.take 32, (keys.drop 32).take 12, (keys.drop 44).take 32⟩, ?_, ?_, ?_⟩
  · rw [messageKeys, hkdfExpand, hkeys, if_neg (not_not.2 hnonce)]
    rfl
  · simp [hlength]
  · simp [hlength]

/-! ## Round trips -/

/-- A text of an admissible length is padded to a multiple of the chunk, and unpadded again. -/
theorem exists_pad {plaintext : Bytes}
    (h : minPlaintext ≤ plaintext.length ∧ plaintext.length ≤ maxPlaintext) :
    ∃ padded, pad plaintext = .ok padded ∧ 34 ≤ padded.length ∧ unpad padded = .ok plaintext := by
  obtain ⟨hle, hmin⟩ := le_calcPaddedLen plaintext.length
  have hfits : plaintext.length < 256 ^ 2 := by
    have hmax := h.2
    unfold maxPlaintext at hmax
    omega
  set zeros : Bytes := List.replicate (calcPaddedLen plaintext.length - plaintext.length) 0
    with hzeros
  set padded : Bytes := Bytes.toBigEndian 2 plaintext.length ++ plaintext ++ zeros with hpadded
  have hlength : padded.length = 2 + calcPaddedLen plaintext.length := by
    rw [hpadded, List.length_append, List.length_append, Bytes.length_toBigEndian, hzeros,
      List.length_replicate]
    omega
  -- the header and the text are found where `_unpad` looks for them
  have hheader : padded.take 2 = Bytes.toBigEndian 2 plaintext.length := by
    rw [hpadded, List.append_assoc]
    exact List.take_left' (Bytes.length_toBigEndian _ _)
  have hrest : (padded.drop 2).take plaintext.length = plaintext := by
    rw [hpadded, List.append_assoc, List.drop_left' (Bytes.length_toBigEndian _ _),
      List.take_left]
  refine ⟨padded, ?_, by omega, ?_⟩
  · rw [pad]
    exact if_neg (not_not.2 h)
  · have hshort : ¬ padded.length < 2 := by omega
    rw [unpad, if_neg hshort]
    simp only [hheader, Bytes.ofBigEndian_toBigEndian hfits, hrest]
    rw [if_neg]
    -- each of the three checks of `_unpad` passes
    rintro (hne | hbounds | hne)
    · exact hne rfl
    · exact hbounds h
    · exact hne hlength

/-- The slices of a framed message. -/
theorem slices {nonce ciphertext mac : Bytes} (hnonce : nonce.length = 32)
    (hmac : mac.length = 32) {data : Bytes}
    (hdata : data = version :: (nonce ++ ciphertext ++ mac)) :
    data.length = ciphertext.length + 65 ∧ (data.drop 1).take 32 = nonce ∧
      (data.drop 33).take (data.length - 32 - 33) = ciphertext ∧
      data.drop (data.length - 32) = mac := by
  have hlength : data.length = ciphertext.length + 65 := by
    rw [hdata, List.length_cons, List.length_append, List.length_append, hnonce, hmac]
    omega
  -- the version byte shifts every offset by one
  have hdrop : ∀ n, data.drop (n + 1) = (nonce ++ ciphertext ++ mac).drop n := by
    intro n
    rw [hdata, List.drop_succ_cons]
  refine ⟨hlength, ?_, ?_, ?_⟩
  · rw [hdrop 0, List.drop_zero, List.append_assoc]
    exact List.take_left' hnonce
  · have hn : data.length - 32 - 33 = ciphertext.length := by omega
    rw [hdrop 32, hn, List.append_assoc, List.drop_left' hnonce, List.take_left]
  · have hn : data.length - 32 = (nonce ++ ciphertext).length + 1 := by
      rw [List.length_append]
      omega
    rw [hn, hdrop, List.drop_left]

/-- A framed message is read back, when its cipher text decrypts to a padded text. -/
theorem decrypt_frame {p : Nip44} (hp : p.Lawful) {convKey nonce ciphertext mac padded : Bytes}
    {keys : MessageKeys} {plaintext : String} (hnonce : nonce.length = 32)
    (hlong : 34 ≤ ciphertext.length) (hkeys : p.messageKeys convKey nonce = .ok keys)
    (hmac : p.hmacAad keys.hmacKey ciphertext nonce = .ok mac) (hmacLength : mac.length = 32)
    (hplain : p.chacha20Decrypt keys.chachaKey keys.chachaNonce ciphertext = padded)
    (hunpad : unpad padded = .ok (Bytes.encodeUtf8 plaintext)) :
    p.decrypt (p.b64encode (version :: (nonce ++ ciphertext ++ mac))) convKey = .ok plaintext := by
  have hhash : (p.b64encode (version :: (nonce ++ ciphertext ++ mac))).toList.head? ≠
      some '#' := by
    intro hhead
    -- the text has only base64 characters
    exact absurd (hp.isBase64Char_b64encode _ '#' (List.mem_of_head? hhead)) (by decide)
  have hdecode := hp.b64decode_b64encode (version :: (nonce ++ ciphertext ++ mac))
  have hversion : (version :: (nonce ++ ciphertext ++ mac)).head? = some version := rfl
  obtain ⟨hlength, hslice, hcipher, htail⟩ := slices hnonce hmacLength
    (rfl : version :: (nonce ++ ciphertext ++ mac) = _)
  -- only the slices of the frame matter from here on
  generalize version :: (nonce ++ ciphertext ++ mac) = data at *
  -- the shortest frame has 99 bytes, and ours carries the version
  have hframe : ¬ (data.length < 99 ∨ data.head? ≠ some version) := by
    rintro (hshort | hother)
    · omega
    · exact hother hversion
  simp only [decrypt, if_neg hhash, hdecode, if_neg hframe, hslice, hcipher, htail, hkeys, hmac,
    PyError.ok_bind, hplain, hunpad, ne_eq, not_true_eq_false, if_false,
    Bytes.decodeUtf8?_encodeUtf8]
  rfl

/-- Under any key and with any nonce of 32 bytes, a text of 1 to 65535 bytes is encrypted and read
back; the encryption of any other text raises `ValueError`. -/
theorem decrypt_encrypt {p : Nip44} (hp : p.Lawful) (plaintext : String) (convKey : Bytes)
    {nonce : Bytes} (hnonce : nonce.length = 32) :
    ((1 ≤ (Bytes.encodeUtf8 plaintext).length ∧ (Bytes.encodeUtf8 plaintext).length ≤ 65535) →
      ∃ payload, p.encrypt plaintext convKey nonce = .ok payload ∧
        p.decrypt payload convKey = .ok plaintext) ∧
    ((∃ message, p.encrypt plaintext convKey nonce = .error (.valueError message)) ↔
      ¬ (1 ≤ (Bytes.encodeUtf8 plaintext).length ∧
        (Bytes.encodeUtf8 plaintext).length ≤ 65535)) := by
  obtain ⟨keys, hkeys, hkey, hchacha⟩ := exists_messageKeys hp convKey hnonce
  by_cases h : minPlaintext ≤ (Bytes.encodeUtf8 plaintext).length ∧
      (Bytes.encodeUtf8 plaintext).length ≤ maxPlaintext
  · obtain ⟨padded, hpad, hlong, hunpad⟩ := exists_pad h
    have hmac : ∀ ciphertext, p.hmacAad keys.hmacKey ciphertext nonce =
        .ok (p.hmac256 keys.hmacKey (nonce ++ ciphertext)) := fun _ => if_neg (not_not.2 hnonce)
    have hencrypt : p.encrypt plaintext convKey nonce = .ok (p.b64encode (version ::
        (nonce ++ p.chacha20Encrypt keys.chachaKey keys.chachaNonce padded ++
          p.hmac256 keys.hmacKey
            (nonce ++ p.chacha20Encrypt keys.chachaKey keys.chachaNonce padded)))) := by
      simp only [encrypt, hkeys, hpad, hmac, PyError.ok_bind]
      rfl
    refine ⟨fun _ => ⟨_, hencrypt, ?_⟩, iff_of_false ?_ (not_not.2 h)⟩
    · refine decrypt_frame hp hnonce ?_ hkeys (hmac _) (hp.length_hmac256 _ _)
        (hp.chacha20Decrypt_chacha20Encrypt _ _ _ hkey hchacha) hunpad
      rwa [hp.length_chacha20Encrypt _ _ _ hkey hchacha]
    · rintro ⟨message, herror⟩
      rw [hencrypt] at herror
      cases herror
  · refine ⟨fun hok => absurd hok h, iff_of_true ⟨"invalid plaintext length", ?_⟩ h⟩
    have hpad : pad (Bytes.encodeUtf8 plaintext) =
        .error (.valueError "invalid plaintext length") := if_pos h
    simp only [encrypt, hkeys, hpad, PyError.ok_bind]
    rfl

/-- The functions that the libraries implement. -/
def reference : Nip44 where
  hmac256 := Sha256.hmac
  chacha20Encrypt := ChaCha20.crypt
  chacha20Decrypt := ChaCha20.crypt
  b64encode := Base64.encode
  b64decode := Base64.decode

theorem reference_b64encode : reference.b64encode = Base64.encode := by
  rw [reference]

theorem reference_b64decode : reference.b64decode = Base64.decode := by
  rw [reference]

theorem lawful_reference : reference.Lawful where
  length_hmac256 := Sha256.length_hmac
  chacha20Decrypt_chacha20Encrypt key nonce data _ _ := ChaCha20.crypt_crypt key nonce data
  length_chacha20Encrypt key nonce data _ _ := ChaCha20.length_crypt key nonce data
  b64decode_b64encode data := by
    rw [reference_b64decode, reference_b64encode, Base64.decode_encode]
  isBase64Char_b64encode data c hc := by
    have hall : ∀ c ∈ Base64.alphabet, isBase64Char c = true :=
      List.all_eq_true.1 (by decide +kernel)
    rcases Base64.mem_encode hc with hc | rfl
    · exact hall c hc
    · rfl

/-- A conversation key. -/
def sampleKey : Bytes :=
  (Bytes.fromHex? "c41c775356fd92eadc63ff5a0dc1da211b268cbea22316767095b2871ea1412d").getD []

/-- A nonce. -/
def sampleNonce : Bytes :=
  (Bytes.fromHex? "0000000000000000000000000000000000000000000000000000000000000001").getD []

/-- A text of one letter is read back. -/
theorem decrypt_encrypt_letter :
    ∃ payload, reference.encrypt "a" sampleKey sampleNonce = .ok payload ∧
      reference.decrypt payload sampleKey = .ok "a" := by
  have hnonce : sampleNonce.length = 32 := by decide +kernel
  exact (decrypt_encrypt lawful_reference "a" sampleKey hnonce).1 (by decide +kernel)

end Nip44

end ElectrumClink
