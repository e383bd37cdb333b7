import ElectrumClink.Wire.NofferDecode
import ElectrumClink.Wire.Padding

/-!
# What `decrypt` accepts

Anybody can publish an event with any content, so `decrypt` runs on arbitrary text.
`decrypt_accepts_iff` gives the texts that it accepts: the base64 of a frame that is authenticated
under the keys of the conversation and that decrypts to a length, that many bytes of UTF-8, and any
bytes up to the padded length. Everything else is refused with a `ValueError`, which is what the
callers expect.
-/

namespace ElectrumClink

namespace Nip44

variable {p : Nip44} {convKey : Bytes} {payload text : String} {data plaintext : Bytes}

/-- A frame of the conversation: version, nonce, cipher text and the hash of both. The cipher text
decrypts to a length of 1 to 65535 in two bytes, followed by as many bytes as that length is padded
to; the plain text is the first of them, and what the others are does not matter. -/
def IsFrame (p : Nip44) (convKey data plaintext : Bytes) : Prop :=
  ∃ nonce ciphertext keys n body, nonce.length = 32 ∧ 34 ≤ ciphertext.length ∧
    p.messageKeys convKey nonce = .ok keys ∧
    data = version :: (nonce ++ ciphertext ++ p.hmac256 keys.hmacKey (nonce ++ ciphertext)) ∧
    p.chacha20Decrypt keys.chachaKey keys.chachaNonce ciphertext =
      Bytes.toBigEndian 2 n ++ body ∧
    1 ≤ n ∧ n ≤ 65535 ∧ body.length = calcPaddedLen n ∧ plaintext = body.take n

/-- The plain text of a frame is what `_unpad` makes of its cipher text. -/
theorem isFrame_iff : IsFrame p convKey data plaintext ↔
    ∃ nonce ciphertext keys, nonce.length = 32 ∧ 34 ≤ ciphertext.length ∧
      p.messageKeys convKey nonce = .ok keys ∧
      data = version :: (nonce ++ ciphertext ++ p.hmac256 keys.hmacKey (nonce ++ ciphertext)) ∧
      unpad (p.chacha20Decrypt keys.chachaKey keys.chachaNonce ciphertext) = .ok plaintext := by
  constructor
  · rintro ⟨nonce, ciphertext, keys, n, body, hnonce, hlong, hkeys, hdata, hplain, hmin, hmax,
      hbody, htext⟩
    have hunpad := unpad_eq_ok_iff.2 ⟨n, body, hmin, hmax, hplain, hbody, htext⟩
    exact ⟨nonce, ciphertext, keys, hnonce, hlong, hkeys, hdata, hunpad⟩
  · rintro ⟨nonce, ciphertext, keys, hnonce, hlong, hkeys, hdata, hunpad⟩
    obtain ⟨n, body, hmin, hmax, hplain, hbody, htext⟩ := unpad_eq_ok_iff.1 hunpad
    exact ⟨nonce, ciphertext, keys, n, body, hnonce, hlong, hkeys, hdata, hplain, hmin, hmax,
      hbody, htext⟩

/-- The slices that `decrypt` takes of a frame are the whole of it. -/
theorem eq_of_slices (hlength : 99 ≤ data.length) (hversion : data.head? = some version) :
    data = version :: ((data.drop 1).take 32 ++ (data.drop 33).take (data.length - 32 - 33) ++
      data.drop (data.length - 32)) := by
  rcases data with _ | ⟨v, rest⟩
  · cases hversion
  obtain rfl := Option.some.inj hversion
  rw [List.length_cons] at hlength ⊢
  have hmiddle : rest.length + 1 - 32 - 33 = rest.length - 32 - 32 := by omega
  have hlast : rest.length + 1 - 32 = rest.length - 32 + 1 := by omega
  rw [hmiddle, hlast, List.drop_succ_cons, List.drop_succ_cons, List.drop_succ_cons, List.drop_zero]
  refine congrArg _ ?_
  -- the cipher text goes from the nonce to the last 32 bytes
  have hsplit : (rest.drop 32).drop (rest.length - 32 - 32) = rest.drop (rest.length - 32) := by
    rw [List.drop_drop]
    congr 1
    omega
  rw [← hsplit, List.append_assoc, List.take_append_drop, List.take_append_drop]

/-- `_unpad` refuses with a `ValueError`. -/
theorem isValueError_of_unpad {padded : Bytes} {e : PyError} (h : unpad padded = .error e) :
    e.isValueError = true := by
  unfold unpad at h
  split at h
  next =>
    obtain rfl := Except.error.inj h
    rfl
  next =>
    dsimp only at h
    split at h
    next =>
      obtain rfl := Except.error.inj h
      rfl
    next => cases h

/-- The end of `decrypt`. -/
def readPadded (padded : Bytes) : Except PyError String :=
  unpad padded >>= fun plaintext =>
    match Bytes.decodeUtf8? plaintext with
    | some text => .ok text
    | none => .error .unicodeDecodeError

/-- A text is read from its padded UTF-8, and from nothing else. -/
theorem readPadded_eq_ok_iff {padded : Bytes} :
    readPadded padded = .ok text ↔ unpad padded = .ok (Bytes.encodeUtf8 text) := by
  unfold readPadded
  rcases hunpad : unpad padded with e | plaintext
  · constructor <;> rintro ⟨⟩
  rw [PyError.ok_bind]
  constructor
  · intro h
    split at h
    next text' htext =>
      obtain rfl := Except.ok.inj h
      rw [Bytes.encodeUtf8_of_decodeUtf8? htext]
    next => cases h
  · intro h
    obtain rfl := Except.ok.inj h
    rw [Bytes.decodeUtf8?_encodeUtf8]

/-- What cannot be read is refused with a `ValueError`. -/
theorem isValueError_of_readPadded {padded : Bytes} {e : PyError}
    (h : readPadded padded = .error e) : e.isValueError = true := by
  unfold readPadded at h
  rcases hunpad : unpad padded with e' | plaintext
  · rw [hunpad] at h
    obtain rfl := Except.error.inj h
    exact isValueError_of_unpad hunpad
  · rw [hunpad, PyError.ok_bind] at h
    split at h
    next => cases h
    next =>
      obtain rfl := Except.error.inj h
      rfl

/-- `decrypt`, once the frame is known to be long enough and of the right version. -/
theorem decrypt_of_data {keys : MessageKeys} (hhash : payload.toList.head? ≠ some '#')
    (hdata : p.b64decode payload = some data) (hlength : 99 ≤ data.length)
    (hversion : data.head? = some version)
    (hkeys : p.messageKeys convKey ((data.drop 1).take 32) = .ok keys) :
    p.decrypt payload convKey =
      if p.hmac256 keys.hmacKey ((data.drop 1).take 32 ++
          (data.drop 33).take (data.length - 32 - 33)) ≠ data.drop (data.length - 32) then
        .error (.valueError "invalid MAC")
      else
        readPadded (p.chacha20Decrypt keys.chachaKey keys.chachaNonce
          ((data.drop 33).take (data.length - 32 - 33))) := by
  have hframe : ¬ (data.length < 99 ∨ data.head? ≠ some version) := by
    rintro (hshort | hother)
    · omega
    · exact hother hversion
  have hnonce : ((data.drop 1).take 32).length = 32 := by
    rw [List.length_take, List.length_drop]
    omega
  have hmac : ∀ ciphertext, p.hmacAad keys.hmacKey ciphertext ((data.drop 1).take 32) =
      .ok (p.hmac256 keys.hmacKey ((data.drop 1).take 32 ++ ciphertext)) :=
    fun _ => if_neg (not_not.2 hnonce)
  simp only [decrypt, if_neg hhash, hdata, if_neg hframe, hkeys, hmac, PyError.ok_bind]
  split <;> rfl

/-- `decrypt` refuses a text that is no base64 of a frame of some length and the right version. -/
theorem decrypt_of_no_data (convKey : Bytes) (hno : payload.toList.head? = some '#' ∨
      ∀ data, p.b64decode payload = some data → data.length < 99 ∨ data.head? ≠ some version) :
    ∃ e, p.decrypt payload convKey = .error e ∧ e.isValueError = true := by
  by_cases hhash : payload.toList.head? = some '#'
  · refine ⟨.valueError "unsupported encryption version", ?_, rfl⟩
    simp only [decrypt, if_pos hhash]
    rfl
  have hno := hno.resolve_left hhash
  rcases hdata : p.b64decode payload with _ | data
  · refine ⟨.valueError "invalid base64 payload", ?_, rfl⟩
    simp only [decrypt, if_neg hhash, hdata]
    rfl
  · refine ⟨.valueError "invalid NIP-44 payload", ?_, rfl⟩
    simp only [decrypt, if_neg hhash, hdata, if_pos (hno data hdata)]
    rfl

/-- A frame is long enough, and carries the version. -/
theorem IsFrame.length_le (hp : p.Lawful) (h : IsFrame p convKey data plaintext) :
    99 ≤ data.length ∧ data.head? = some version := by
  obtain ⟨nonce, ciphertext, keys, n, body, hnonce, hlong, -, rfl, -⟩ := h
  refine ⟨?_, rfl⟩
  rw [List.length_cons, List.length_append, List.length_append, hnonce, hp.length_hmac256]
  omega

/-- A string of bytes that is long enough, and carries the version, can be taken apart as a frame in
one way only. -/
theorem isFrame_iff_slices (hp : p.Lawful) {keys : MessageKeys} (hlength : 99 ≤ data.length)
    (hversion : data.head? = some version)
    (hkeys : p.messageKeys convKey ((data.drop 1).take 32) = .ok keys) :
    IsFrame p convKey data plaintext ↔
      p.hmac256 keys.hmacKey ((data.drop 1).take 32 ++
          (data.drop 33).take (data.length - 32 - 33)) = data.drop (data.length - 32) ∧
        unpad (p.chacha20Decrypt keys.chachaKey keys.chachaNonce
          ((data.drop 33).take (data.length - 32 - 33))) = .ok plaintext := by
  have hslices := eq_of_slices hlength hversion
  have hnonce : ((data.drop 1).take 32).length = 32 := by
    rw [List.length_take, List.length_drop]
    omega
  set nonce := (data.drop 1).take 32 with hnonceDef
  set ciphertext := (data.drop 33).take (data.length - 32 - 33) with hciphertext
  rw [isFrame_iff]
  constructor
  · rintro ⟨nonce', ciphertext', keys', hnonce', hlong, hkeys', hdata', hunpad⟩
    obtain ⟨-, hn, hc, hm⟩ := slices hnonce' (hp.length_hmac256 _ _) hdata'
    rw [← hnonceDef] at hn
    rw [← hciphertext] at hc
    subst hn hc
    obtain rfl := Except.ok.inj (hkeys.symm.trans hkeys')
    exact ⟨hm.symm, hunpad⟩
  · rintro ⟨hmac, hunpad⟩
    refine ⟨nonce, ciphertext, keys, hnonce, ?_, hkeys, ?_, hunpad⟩
    · rw [hciphertext, List.length_take, List.length_drop]
      omega
    · rw [hmac]
      exact hslices

/-- `decrypt` returns a text for exactly the base64 texts of frames of the conversation whose plain
text is the UTF-8 of that text, whatever stands behind it; what it refuses, it refuses with a
`ValueError`. -/
theorem decrypt_accepts_iff (hp : p.Lawful) (payload : String) (convKey : Bytes) :
    (∀ text, p.decrypt payload convKey = .ok text ↔
      payload.toList.head? ≠ some '#' ∧
        ∃ data, p.b64decode payload = some data ∧
          IsFrame p convKey data (Bytes.encodeUtf8 text)) ∧
    ∀ e, p.decrypt payload convKey = .error e → e.isValueError = true := by
  by_cases hno : payload.toList.head? = some '#' ∨
      ∀ data, p.b64decode payload = some data → data.length < 99 ∨ data.head? ≠ some version
  · obtain ⟨e, herror, hvalue⟩ := decrypt_of_no_data convKey hno
    rw [herror]
    refine ⟨fun text => ⟨?_, ?_⟩, ?_⟩
    · rintro ⟨⟩
    · rintro ⟨hhash, data, hdata, hframe⟩
      obtain ⟨hlength, hversion⟩ := hframe.length_le hp
      rcases hno.resolve_left hhash data hdata with hshort | hother
      · omega
      · exact absurd hversion hother
    · rintro _ ⟨⟩
      exact hvalue
  push Not at hno
  obtain ⟨hhash, data, hdata, hlength, hversion⟩ := hno
  have hnonce : ((data.drop 1).take 32).length = 32 := by
    rw [List.length_take, List.length_drop]
    omega
  obtain ⟨keys, hkeys, -⟩ := exists_messageKeys hp convKey hnonce
  have hframe : ∀ plaintext, IsFrame p convKey data plaintext ↔ _ := fun plaintext =>
    isFrame_iff_slices hp hlength hversion hkeys
  rw [decrypt_of_data hhash hdata hlength hversion hkeys]
  -- only this one string of bytes is in question
  have hpayload : ∀ plaintext, (∃ data', p.b64decode payload = some data' ∧
      IsFrame p convKey data' plaintext) ↔ IsFrame p convKey data plaintext := by
    intro plaintext
    rw [hdata]
    simp
  split
  next hmac =>
    refine ⟨fun text => ⟨?_, ?_⟩, ?_⟩
    · rintro ⟨⟩
    · rintro ⟨-, hframe'⟩
      exact absurd ((hframe _).1 ((hpayload _).1 hframe')).1 hmac
    · rintro _ ⟨⟩
      rfl
  next hmac =>
    refine ⟨fun text => ?_, fun e => isValueError_of_readPadded⟩
    rw [readPadded_eq_ok_iff, hpayload, hframe]
    exact ⟨fun hunpad => ⟨hhash, not_not.1 hmac, hunpad⟩, fun h => h.2.2⟩

/-- A text of an admissible length is encrypted with every nonce of 32 bytes. -/
theorem exists_encrypt (hp : p.Lawful) {nonce : Bytes} (hnonce : nonce.length = 32)
    (hlength : minPlaintext ≤ (Bytes.encodeUtf8 text).length ∧
      (Bytes.encodeUtf8 text).length ≤ maxPlaintext) :
    ∃ payload, p.encrypt text convKey nonce = .ok payload := by
  obtain ⟨keys, hkeys, -⟩ := exists_messageKeys hp convKey hnonce
  obtain ⟨padded, hpad, -⟩ := exists_pad hlength
  have hmac : ∀ ciphertext, p.hmacAad keys.hmacKey ciphertext nonce =
      .ok (p.hmac256 keys.hmacKey (nonce ++ ciphertext)) := fun _ => if_neg (not_not.2 hnonce)
  simp only [encrypt, hkeys, hpad, hmac, PyError.ok_bind]
  exact ⟨_, rfl⟩

/-- What is encrypted is read back under the same key. -/
theorem decrypt_of_encrypt (hp : p.Lawful) {nonce : Bytes}
    (h : p.encrypt text convKey nonce = .ok payload) : p.decrypt payload convKey = .ok text := by
  have hnonce : nonce.length = 32 := by
    by_contra hne
    have hkeys : p.messageKeys convKey nonce = .error (.valueError "nonce must be 32 bytes") := by
      rw [messageKeys, if_pos hne]
      rfl
    rw [encrypt, hkeys] at h
    cases h
  obtain ⟨keys, hkeys, hkey, hchacha⟩ := exists_messageKeys hp convKey hnonce
  have hmac : ∀ ciphertext, p.hmacAad keys.hmacKey ciphertext nonce =
      .ok (p.hmac256 keys.hmacKey (nonce ++ ciphertext)) := fun _ => if_neg (not_not.2 hnonce)
  simp only [encrypt, hkeys, hmac, PyError.ok_bind] at h
  rcases hpad : pad (Bytes.encodeUtf8 text) with e | padded
  · rw [hpad] at h
    cases h
  rw [hpad, PyError.ok_bind] at h
  obtain rfl := Except.ok.inj h
  have hlength : minPlaintext ≤ (Bytes.encodeUtf8 text).length ∧
      (Bytes.encodeUtf8 text).length ≤ maxPlaintext := by
    by_contra hbounds
    rw [pad, if_pos hbounds] at hpad
    cases hpad
  obtain ⟨padded', hpad', hlong, hunpad⟩ := exists_pad hlength
  obtain rfl := Except.ok.inj (hpad.symm.trans hpad')
  refine decrypt_frame hp hnonce ?_ hkeys (hmac _) (hp.length_hmac256 _ _)
    (hp.chacha20Decrypt_chacha20Encrypt _ _ _ hkey hchacha) hunpad
  rwa [hp.length_chacha20Encrypt _ _ _ hkey hchacha]

/-- The encryption of a text of one letter is a frame. -/
theorem decrypt_accepts_iff_letter :
    ∃ payload, reference.decrypt payload sampleKey = .ok "a" ∧ payload.toList.head? ≠ some '#' ∧
      ∃ data, reference.b64decode payload = some data ∧
        IsFrame reference sampleKey data (Bytes.encodeUtf8 "a") := by
  have hnonce : sampleNonce.length = 32 := by decide +kernel
  obtain ⟨payload, hencrypt⟩ :=
    @exists_encrypt _ sampleKey "a" lawful_reference _ hnonce (by decide +kernel)
  have hdecrypt := decrypt_of_encrypt lawful_reference hencrypt
  exact ⟨payload, hdecrypt, ((decrypt_accepts_iff lawful_reference payload sampleKey).1 "a").1
    hdecrypt⟩

end Nip44

end ElectrumClink
