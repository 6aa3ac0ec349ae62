import PublicCloudCore.Framework.Blocks

/-!
# SHA-256 and HMAC

FIPS 180-4 on messages of bytes, and RFC 2104 over it. The constants are the first bits of the
fractional parts of square roots and cube roots of primes.
-/

namespace PublicCloudCore.Framework.Sha256

def primes : List Nat :=
  (List.range 312).filter fun n => 2 ≤ n ∧ ∀ d ∈ List.range n, 2 ≤ d → n % d ≠ 0

/-- The greatest number whose power with exponent `k` is at most `n`, bit by bit. -/
def root (k n : Nat) : Nat → Nat → Nat
  | 0, x => x
  | b + 1, x => root k n b (if (x + 2 ^ b) ^ k ≤ n then x + 2 ^ b else x)

def fraction (k p : Nat) : UInt32 := UInt32.ofNat (root k (p * 2 ^ (32 * k)) 40 0)

def roundConstants : List UInt32 := primes.map (fraction 3)

def rotr (n x : UInt32) : UInt32 := (x >>> n) ||| (x <<< (32 - n))

def ch (x y z : UInt32) : UInt32 := (x &&& y) ^^^ (~~~x &&& z)

def maj (x y z : UInt32) : UInt32 := (x &&& y) ^^^ (x &&& z) ^^^ (y &&& z)

def bigSigma0 (x : UInt32) : UInt32 := rotr 2 x ^^^ rotr 13 x ^^^ rotr 22 x

def bigSigma1 (x : UInt32) : UInt32 := rotr 6 x ^^^ rotr 11 x ^^^ rotr 25 x

def smallSigma0 (x : UInt32) : UInt32 := rotr 7 x ^^^ rotr 18 x ^^^ (x >>> 3)

def smallSigma1 (x : UInt32) : UInt32 := rotr 17 x ^^^ rotr 19 x ^^^ (x >>> 10)

def wordAt (block : List UInt8) (t : Nat) : UInt32 :=
  ((block.getD (4 * t) 0).toUInt32 <<< 24) ||| ((block.getD (4 * t + 1) 0).toUInt32 <<< 16) |||
    ((block.getD (4 * t + 2) 0).toUInt32 <<< 8) ||| (block.getD (4 * t + 3) 0).toUInt32

def wordBytes (x : UInt32) : List UInt8 :=
  [(x >>> 24).toUInt8, (x >>> 16).toUInt8, (x >>> 8).toUInt8, x.toUInt8]

structure Vars where
  a : UInt32
  b : UInt32
  c : UInt32
  d : UInt32
  e : UInt32
  f : UInt32
  g : UInt32
  h : UInt32

/-- The initial hash value. -/
def initial : Vars :=
  ⟨fraction 2 2, fraction 2 3, fraction 2 5, fraction 2 7, fraction 2 11, fraction 2 13,
    fraction 2 17, fraction 2 19⟩

def schedule (block : List UInt8) (t : Nat) : UInt32 :=
  if t < 16 then wordAt block t
  else
    smallSigma1 (schedule block (t - 2)) + schedule block (t - 7) +
      smallSigma0 (schedule block (t - 15)) + schedule block (t - 16)
termination_by t

def round (v : Vars) (k w : UInt32) : Vars :=
  let t1 := v.h + bigSigma1 v.e + ch v.e v.f v.g + k + w
  let t2 := bigSigma0 v.a + maj v.a v.b v.c
  ⟨t1 + t2, v.a, v.b, v.c, v.d + t1, v.e, v.f, v.g⟩

def compress (h : Vars) (block : List UInt8) : Vars :=
  let v := (List.range 64).foldl
    (fun v t => round v (roundConstants.getD t 0) (schedule block t)) h
  ⟨v.a + h.a, v.b + h.b, v.c + h.c, v.d + h.d, v.e + h.e, v.f + h.f, v.g + h.g, v.h + h.h⟩

def lengthBytes (bits : Nat) : List UInt8 :=
  (List.range 8).map fun i => UInt8.ofNat (bits / 256 ^ (7 - i))

def padding (length : Nat) : List UInt8 :=
  0x80 :: List.replicate ((119 - length % 64) % 64) 0 ++ lengthBytes (8 * length)

def digest (h : Vars) : List UInt8 :=
  [h.a, h.b, h.c, h.d, h.e, h.f, h.g, h.h].flatMap wordBytes

/-- SHA-256. -/
def hash (message : List UInt8) : List UInt8 :=
  digest ((Blocks.ofList 64 (message ++ padding message.length)).foldl compress initial)

theorem length_padding (length : Nat) : (length + (padding length).length) % 64 = 0 ∧
    9 ≤ (padding length).length ∧ (padding length).length < 73 := by
  simp only [padding, lengthBytes, List.length_append, List.length_cons, List.length_replicate,
    List.length_map, List.length_range]
  omega

@[simp] theorem length_hash (message : List UInt8) : (hash message).length = 32 := rfl

/-- The key of HMAC in a block: a key that is too long is hashed. -/
def blockKey (key : List UInt8) : List UInt8 :=
  let key := if key.length ≤ 64 then key else hash key
  key ++ List.replicate (64 - key.length) 0

@[simp] theorem length_blockKey (key : List UInt8) : (blockKey key).length = 64 := by
  rw [blockKey, List.length_append, List.length_replicate]
  split
  · omega
  · rw [length_hash]

/-- HMAC-SHA-256. -/
def hmac (key message : List UInt8) : List UInt8 :=
  let inner := (blockKey key).map (· ^^^ 0x36)
  let outer := (blockKey key).map (· ^^^ 0x5c)
  hash (outer ++ hash (inner ++ message))

end PublicCloudCore.Framework.Sha256
