import ElectrumClink.Wire.Accepted

/-!
# Conversations

Two parties derive one key from the secret key of the one and the public key of the other, and
encrypt what they send to each other under it. The arithmetic of the curve is that of a library:
`Ecc` takes it as parameters, and `Ecc.Lawful` states the Diffie-Hellman property.

`decryptFrom_encryptTo`: what the one party encrypts to the other, the other reads as from the one.
-/

namespace ElectrumClink

/-- The points of the curve and what the code does with them. -/
structure Ecc where
  Point : Type
  /-- `ECPrivkey(privkey).secret_scalar`; `none` when it raises. -/
  secretScalar : Bytes → Option ℕ
  /-- `ECPubkey(b)`; `none` when it raises. -/
  pubkey : Bytes → Option Point
  /-- `point * scalar`. -/
  mul : Point → ℕ → Point
  /-- `point.x()`. -/
  x : Point → ℕ
  /-- `PrivateKey(secret).public_key.hex()`: the x-coordinate of the public point, in hex. -/
  publicKey : Bytes → Pubkey

namespace Ecc

/-- The point an x-only public key stands for, the one with an even y. -/
def lift (ecc : Ecc) (peer : Pubkey) : Option ecc.Point :=
  (Bytes.fromHex? ("02" ++ peer)).bind ecc.pubkey

/-- What is relied on: the public keys of two valid secrets are points, and the shared point has the
same x-coordinate for both. -/
structure Lawful (ecc : Ecc) : Prop where
  diffieHellman : ∀ a b n m, ecc.secretScalar a = some n → ecc.secretScalar b = some m →
    ∃ p q, ecc.lift (ecc.publicKey b) = some p ∧ ecc.lift (ecc.publicKey a) = some q ∧
      ecc.x (ecc.mul p n) = ecc.x (ecc.mul q m)

/-- The x-coordinates of three multiples of the generator. -/
def sampleX : ℕ → ℕ
  | 1 => 0x79be667ef9dcbbac55a06295ce870b07029bfcdb2dce28d959f2815b16f81798
  | 2 => 0xc6047f9441ed7d6d3045406e95c07cd85c778e4b8cef3ca7abac09b95c709ee5
  | 4 => 0xe493dbf1c10d80f3581e4904930b1404cc6c13900ee0758474fa94abe8c4cd13
  | _ => 0

/-- The curve as far as the secrets 1 and 2 go: their points are known by the multiple of the
generator that they are. -/
@[reducible]
def sample : Ecc where
  Point := ℕ
  secretScalar key :=
    if key = Bytes.toBigEndian 32 1 then some 1
    else if key = Bytes.toBigEndian 32 2 then some 2
    else none
  pubkey b :=
    if b = 2 :: Bytes.toBigEndian 32 (sampleX 1) then some 1
    else if b = 2 :: Bytes.toBigEndian 32 (sampleX 2) then some 2
    else none
  mul point scalar := point * scalar
  x := sampleX
  publicKey key :=
    Bytes.hex (Bytes.toBigEndian 32 (sampleX (if key = Bytes.toBigEndian 32 1 then 1 else 2)))

theorem sample_secretScalar {key : Bytes} {n : ℕ} (h : sample.secretScalar key = some n) :
    key = Bytes.toBigEndian 32 1 ∧ n = 1 ∨ key = Bytes.toBigEndian 32 2 ∧ n = 2 := by
  dsimp only at h
  split at h
  next hone => exact .inl ⟨hone, (Option.some.inj h).symm⟩
  next =>
    obtain ⟨htwo, h⟩ := Option.ite_none_right_eq_some.1 h
    exact .inr ⟨htwo, (Option.some.inj h).symm⟩

theorem lawful_sample : sample.Lawful where
  diffieHellman a b n m ha hb := by
    have hone : sample.lift (sample.publicKey (Bytes.toBigEndian 32 1)) = some 1 := by
      decide +kernel
    have htwo : sample.lift (sample.publicKey (Bytes.toBigEndian 32 2)) = some 2 := by
      decide +kernel
    rcases sample_secretScalar ha with ⟨rfl, rfl⟩ | ⟨rfl, rfl⟩
    all_goals rcases sample_secretScalar hb with ⟨rfl, rfl⟩ | ⟨rfl, rfl⟩
    · exact ⟨_, _, hone, hone, rfl⟩
    · exact ⟨_, _, htwo, hone, rfl⟩
    · exact ⟨_, _, hone, htwo, rfl⟩
    · exact ⟨_, _, htwo, htwo, rfl⟩

end Ecc

/-- `_SALT`. -/
def nip44Salt : Bytes := Bytes.encodeUtf8 "nip44-v2"

/-- `ecdh_shared_x`; `none` when it raises. -/
def ecdhSharedX (ecc : Ecc) (privkey : Bytes) (peer : Pubkey) : Option Bytes := do
  let scalar ← ecc.secretScalar privkey
  let point ← ecc.lift peer
  return Bytes.toBigEndian 32 (ecc.x (ecc.mul point scalar))

/-- `conversation_key`; `none` when it raises. -/
def conversationKey (p : Nip44) (ecc : Ecc) (privkey : Bytes) (peer : Pubkey) : Option Bytes :=
  (ecdhSharedX ecc privkey peer).map (p.hmac256 nip44Salt)

/-- `encrypt_to`, with the nonce it draws; `none` when it raises. -/
def encryptTo (p : Nip44) (ecc : Ecc) (privkey : Bytes) (peer : Pubkey) (plaintext : String)
    (nonce : Bytes) : Option String :=
  (conversationKey p ecc privkey peer).bind fun key => (p.encrypt plaintext key nonce).toOption

/-- `decrypt_from`; `none` when it raises. -/
def decryptFrom (p : Nip44) (ecc : Ecc) (privkey : Bytes) (peer : Pubkey) (payload : String) :
    Option String :=
  (conversationKey p ecc privkey peer).bind fun key => (p.decrypt payload key).toOption

variable {p : Nip44} {ecc : Ecc}

/-- Both parties derive one key. -/
theorem conversationKey_comm (hecc : ecc.Lawful) {a b : Bytes} {n m : ℕ}
    (ha : ecc.secretScalar a = some n) (hb : ecc.secretScalar b = some m) :
    ∃ key, conversationKey p ecc a (ecc.publicKey b) = some key ∧
      conversationKey p ecc b (ecc.publicKey a) = some key := by
  obtain ⟨P, Q, hP, hQ, hx⟩ := hecc.diffieHellman a b n m ha hb
  refine ⟨p.hmac256 nip44Salt (Bytes.toBigEndian 32 (ecc.x (ecc.mul P n))), ?_, ?_⟩
  · simp [conversationKey, ecdhSharedX, ha, hP]
  · simp [conversationKey, ecdhSharedX, hb, hQ, hx]

/-- What one party encrypts to the other, the other reads as from the one. -/
theorem decryptFrom_encryptTo (hp : p.Lawful) (hecc : ecc.Lawful) {a b : Bytes} {n m : ℕ}
    (ha : ecc.secretScalar a = some n) (hb : ecc.secretScalar b = some m)
    {plaintext content : String} {nonce : Bytes}
    (h : encryptTo p ecc a (ecc.publicKey b) plaintext nonce = some content) :
    decryptFrom p ecc b (ecc.publicKey a) content = some plaintext := by
  obtain ⟨key, hkey, hkey'⟩ := conversationKey_comm (p := p) hecc ha hb
  obtain ⟨_, hkey'', hencrypt⟩ := Option.bind_eq_some_iff.1 h
  obtain rfl := Option.some.inj (hkey.symm.trans hkey'')
  rcases hcontent : p.encrypt plaintext key nonce with e | content'
  · rw [hcontent] at hencrypt
    cases hencrypt
  rw [hcontent] at hencrypt
  obtain rfl := Option.some.inj hencrypt
  rw [decryptFrom, hkey', Option.bind_some, Nip44.decrypt_of_encrypt hp hcontent]
  rfl

/-- A text of 1 to 65535 bytes is encrypted to the other party. -/
theorem exists_encryptTo (hp : p.Lawful) (hecc : ecc.Lawful) {a b : Bytes} {n m : ℕ}
    (ha : ecc.secretScalar a = some n) (hb : ecc.secretScalar b = some m) {plaintext : String}
    {nonce : Bytes} (hnonce : nonce.length = 32)
    (hlength : Nip44.minPlaintext ≤ (Bytes.encodeUtf8 plaintext).length ∧
      (Bytes.encodeUtf8 plaintext).length ≤ Nip44.maxPlaintext) :
    ∃ content, encryptTo p ecc a (ecc.publicKey b) plaintext nonce = some content := by
  obtain ⟨key, hkey, -⟩ := conversationKey_comm (p := p) hecc ha hb
  obtain ⟨content, hcontent⟩ := @Nip44.exists_encrypt p key plaintext hp _ hnonce hlength
  refine ⟨content, ?_⟩
  rw [encryptTo, hkey, Option.bind_some, hcontent]
  rfl

end ElectrumClink
