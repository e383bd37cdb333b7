import Mathlib.Data.UInt
import Mathlib.Data.List.Basic

/-!
# SHA-256, HMAC and ChaCha20

Executable specifications of a hash, the message authentication code over it and a stream cipher.
Of the first two only the length of the result is proved, of the cipher that decryption is
encryption and that it keeps the length.
-/

/-! ## SHA-256 -/

namespace Sha256

/-- Eight working words. -/
structure Words where
  a : UInt32
  b : UInt32
  c : UInt32
  d : UInt32
  e : UInt32
  f : UInt32
  g : UInt32
  h : UInt32

def initial : Words :=
  ⟨0x6a09e667, 0xbb67ae85, 0x3c6ef372, 0xa54ff53a, 0x510e527f, 0x9b05688c, 0x1f83d9ab, 0x5be0cd19⟩

def roundConstants : Array UInt32 :=
  #[0x428a2f98, 0x71374491, 0xb5c0fbcf, 0xe9b5dba5, 0x3956c25b, 0x59f111f1, 0x923f82a4, 0xab1c5ed5,
    0xd807aa98, 0x12835b01, 0x243185be, 0x550c7dc3, 0x72be5d74, 0x80deb1fe, 0x9bdc06a7, 0xc19bf174,
    0xe49b69c1, 0xefbe4786, 0x0fc19dc6, 0x240ca1cc, 0x2de92c6f, 0x4a7484aa, 0x5cb0a9dc, 0x76f988da,
    0x983e5152, 0xa831c66d, 0xb00327c8, 0xbf597fc7, 0xc6e00bf3, 0xd5a79147, 0x06ca6351, 0x14292967,
    0x27b70a85, 0x2e1b2138, 0x4d2c6dfc, 0x53380d13, 0x650a7354, 0x766a0abb, 0x81c2c92e, 0x92722c85,
    0xa2bfe8a1, 0xa81a664b, 0xc24b8b70, 0xc76c51a3, 0xd192e819, 0xd6990624, 0xf40e3585, 0x106aa070,
    0x19a4c116, 0x1e376c08, 0x2748774c, 0x34b0bcb5, 0x391c0cb3, 0x4ed8aa4a, 0x5b9cca4f, 0x682e6ff3,
    0x748f82ee, 0x78a5636f, 0x84c87814, 0x8cc70208, 0x90befffa, 0xa4506ceb, 0xbef9a3f7, 0xc67178f2]

def rotr (x : UInt32) (n : UInt32) : UInt32 := (x >>> n) ||| (x <<< (32 - n))

/-- The `i`-th big-endian word of a block. -/
def wordAt (block : Array UInt8) (i : ℕ) : UInt32 :=
  let byte := fun k => (block.getD (4 * i + k) 0).toUInt32
  (byte 0 <<< 24) ||| (byte 1 <<< 16) ||| (byte 2 <<< 8) ||| byte 3

/-- The sixty-four words a block is expanded to. -/
def schedule (block : Array UInt8) : Array UInt32 :=
  (List.range 48).foldl (fun w i =>
    let x := w.getD (i + 1) 0
    let y := w.getD (i + 14) 0
    w.push (w.getD i 0 + (rotr x 7 ^^^ rotr x 18 ^^^ (x >>> 3)) + w.getD (i + 9) 0 +
      (rotr y 17 ^^^ rotr y 19 ^^^ (y >>> 10)))) ((Array.range 16).map (wordAt block))

def round (s : Words) (k w : UInt32) : Words :=
  let t₁ := s.h + (rotr s.e 6 ^^^ rotr s.e 11 ^^^ rotr s.e 25) +
    ((s.e &&& s.f) ^^^ (~~~s.e &&& s.g)) + k + w
  let t₂ := (rotr s.a 2 ^^^ rotr s.a 13 ^^^ rotr s.a 22) +
    ((s.a &&& s.b) ^^^ (s.a &&& s.c) ^^^ (s.b &&& s.c))
  ⟨t₁ + t₂, s.a, s.b, s.c, s.d + t₁, s.e, s.f, s.g⟩

/-- Digest one block. -/
def compress (s : Words) (block : Array UInt8) : Words :=
  let w := schedule block
  let t := (List.range 64).foldl (fun t i => round t (roundConstants.getD i 0) (w.getD i 0)) s
  ⟨s.a + t.a, s.b + t.b, s.c + t.c, s.d + t.d, s.e + t.e, s.f + t.f, s.g + t.g, s.h + t.h⟩

/-- A word as four bytes, highest first. -/
def bytesOf (x : UInt32) : List UInt8 :=
  [(x >>> 24).toUInt8, (x >>> 16).toUInt8, (x >>> 8).toUInt8, x.toUInt8]

/-- The message, a one bit, zeros up to a whole number of blocks and the length in bits. -/
def padded (msg : List UInt8) : List UInt8 :=
  let bits := 8 * msg.length
  msg ++ 0x80 :: (List.replicate ((119 - msg.length % 64) % 64) 0 ++
    (List.range 8).map fun i => UInt8.ofNat (bits / 256 ^ (7 - i)))

/-- The hash of a message. -/
def hash (msg : List UInt8) : List UInt8 :=
  let p := (padded msg).toArray
  let s := (List.range (p.size / 64)).foldl
    (fun s i => compress s (p.extract (64 * i) (64 * i + 64))) initial
  [s.a, s.b, s.c, s.d, s.e, s.f, s.g, s.h].flatMap bytesOf

@[simp]
theorem length_hash (msg : List UInt8) : (hash msg).length = 32 := by
  simp [hash, bytesOf]

/-- The message authentication code over the hash. -/
def hmac (key msg : List UInt8) : List UInt8 :=
  let key := if 64 < key.length then hash key else key
  let key := key ++ List.replicate (64 - key.length) 0
  hash (key.map (· ^^^ 0x5c) ++ hash (key.map (· ^^^ 0x36) ++ msg))

theorem length_hmac (key msg : List UInt8) : (hmac key msg).length = 32 := length_hash _

end Sha256

/-! ## ChaCha20 -/

namespace ChaCha20

def rotl (x : UInt32) (n : UInt32) : UInt32 := (x <<< n) ||| (x >>> (32 - n))

/-- One quarter round on four words of the state. -/
def quarterRound (s : Array UInt32) (i j k l : ℕ) : Array UInt32 :=
  let a := s.getD i 0
  let b := s.getD j 0
  let c := s.getD k 0
  let d := s.getD l 0
  let a := a + b
  let d := rotl (d ^^^ a) 16
  let c := c + d
  let b := rotl (b ^^^ c) 12
  let a := a + b
  let d := rotl (d ^^^ a) 8
  let c := c + d
  let b := rotl (b ^^^ c) 7
  ((((s.setIfInBounds i a).setIfInBounds j b).setIfInBounds k c).setIfInBounds l d)

/-- Four quarter rounds on the columns and four on the diagonals. -/
def doubleRound (s : Array UInt32) : Array UInt32 :=
  [(0, 4, 8, 12), (1, 5, 9, 13), (2, 6, 10, 14), (3, 7, 11, 15),
    (0, 5, 10, 15), (1, 6, 11, 12), (2, 7, 8, 13), (3, 4, 9, 14)].foldl
      (fun s q => quarterRound s q.1 q.2.1 q.2.2.1 q.2.2.2) s

/-- The `i`-th little-endian word of a byte string. -/
def wordAt (b : List UInt8) (i : ℕ) : UInt32 :=
  let byte := fun k => (b.getD (4 * i + k) 0).toUInt32
  byte 0 ||| (byte 1 <<< 8) ||| (byte 2 <<< 16) ||| (byte 3 <<< 24)

/-- A block of sixty-four bytes of the key stream. -/
def block (key nonce : List UInt8) (counter : ℕ) : List UInt8 :=
  let s : Array UInt32 := #[0x61707865, 0x3320646e, 0x79622d32, 0x6b206574] ++
    (Array.range 8).map (wordAt key) ++ #[UInt32.ofNat counter] ++
    (Array.range 3).map (wordAt nonce)
  let t := (List.range 10).foldl (fun t _ => doubleRound t) s
  (List.range 16).flatMap fun i =>
    let x := s.getD i 0 + t.getD i 0
    [x.toUInt8, (x >>> 8).toUInt8, (x >>> 16).toUInt8, (x >>> 24).toUInt8]

/-- Add the key stream to the data; the same twice gives the data back. -/
def crypt (key nonce data : List UInt8) : List UInt8 :=
  data.mapIdx fun i d => d ^^^ (block key nonce (i / 64)).getD (i % 64) 0

@[simp]
theorem length_crypt (key nonce data : List UInt8) :
    (crypt key nonce data).length = data.length := List.length_mapIdx

theorem crypt_crypt (key nonce data : List UInt8) :
    crypt key nonce (crypt key nonce data) = data := by
  refine List.ext_getElem (by simp) fun i h₁ h₂ => ?_
  simp only [crypt, List.getElem_mapIdx]
  rw [UInt8.xor_assoc, UInt8.xor_self, UInt8.xor_zero]

end ChaCha20
