import PublicCloudCore.Framework.Memory
import PublicCloudCore.Framework.Sha256

/-!
# SHA-256 of `crypto.c`

`sha256_update` adds the bits of a chunk to a length of eight bytes, with its own carries, and finds
the place of the next byte from that length and from what is left of the chunk. The bytes are added
to words that must be clear. After any chunks the record holds what the stream of their bytes makes
of it, wherever it was cut.
-/

namespace PublicCloudCore.RanEmulator

open Framework
open Sha256 (Vars)

/-- `struct sha256`. The state is `a` to `h` for `state[0]` to `state[7]`. -/
structure Sha where
  hash : List UInt8
  buffer : Mem UInt32
  state : Vars
  length : Mem UInt8

namespace Sha

def k : List UInt32 :=
  [0x428a2f98, 0x71374491, 0xb5c0fbcf, 0xe9b5dba5, 0x3956c25b, 0x59f111f1, 0x923f82a4, 0xab1c5ed5,
    0xd807aa98, 0x12835b01, 0x243185be, 0x550c7dc3, 0x72be5d74, 0x80deb1fe, 0x9bdc06a7, 0xc19bf174,
    0xe49b69c1, 0xefbe4786, 0x0fc19dc6, 0x240ca1cc, 0x2de92c6f, 0x4a7484aa, 0x5cb0a9dc, 0x76f988da,
    0x983e5152, 0xa831c66d, 0xb00327c8, 0xbf597fc7, 0xc6e00bf3, 0xd5a79147, 0x06ca6351, 0x14292967,
    0x27b70a85, 0x2e1b2138, 0x4d2c6dfc, 0x53380d13, 0x650a7354, 0x766a0abb, 0x81c2c92e, 0x92722c85,
    0xa2bfe8a1, 0xa81a664b, 0xc24b8b70, 0xc76c51a3, 0xd192e819, 0xd6990624, 0xf40e3585, 0x106aa070,
    0x19a4c116, 0x1e376c08, 0x2748774c, 0x34b0bcb5, 0x391c0cb3, 0x4ed8aa4a, 0x5b9cca4f, 0x682e6ff3,
    0x748f82ee, 0x78a5636f, 0x84c87814, 0x8cc70208, 0x90befffa, 0xa4506ceb, 0xbef9a3f7, 0xc67178f2]

/-- `sha256_initialize`. Its first loop also clears `buffer[16]`, which is `state[0]` and is set
next. -/
def sha256Initialize (sha : Sha) : Sha where
  hash := sha.hash
  buffer := fun i => if i < 16 then 0 else sha.buffer i
  state := ⟨0x6a09e667, 0xbb67ae85, 0x3c6ef372, 0xa54ff53a, 0x510e527f, 0x9b05688c, 0x1f83d9ab,
    0x5be0cd19⟩
  length := fun i => if i < 8 then 0 else sha.length i

/-- `bits` of a byte of the length. -/
def lengthBits (length : UInt32) (i : Nat) : UInt8 :=
  if i = 7 then (length <<< 3).toUInt8
  else if i = 0 ∨ i = 1 ∨ i = 2 then 0
  else (length >>> UInt32.ofNat (53 - 8 * i)).toUInt8

/-- `for (j = i - 1; j >= 0 && sha->length[j]++ == 0xff; --j);` -/
def carry : Nat → Mem UInt8 → Mem UInt8
  | 0, length => length
  | j + 1, length =>
      let old := length j
      let length := Function.update length j (old + 1)
      if old = 0xff then carry j length else length

def addBits (length : Mem UInt8) (i : Nat) (bits : UInt8) : Mem UInt8 :=
  let length := if (length i).toNat + bits.toNat > 0xff then carry i length else length
  Function.update length i (length i + bits)

def addLength (length : Mem UInt8) (added : UInt32) : Mem UInt8 :=
  [7, 6, 5, 4, 3, 2, 1, 0].foldl (fun length i => addBits length i (lengthBits added i)) length

/-- `w[t]` from 16 on. -/
def expand (w : Mem UInt32) (t : Nat) : Mem UInt32 :=
  let s0 := ((w (t - 15) >>> 7) ||| (w (t - 15) <<< 25)) ^^^
    ((w (t - 15) >>> 18) ||| (w (t - 15) <<< 14)) ^^^ (w (t - 15) >>> 3)
  let s1 := ((w (t - 2) >>> 17) ||| (w (t - 2) <<< 15)) ^^^
    ((w (t - 2) >>> 19) ||| (w (t - 2) <<< 13)) ^^^ (w (t - 2) >>> 10)
  Function.update w t (s1 + w (t - 7) + s0 + w (t - 16))

def turn (w : Mem UInt32) (v : Vars) (t : Nat) : Vars :=
  let e0 := ((v.a >>> 2) ||| (v.a <<< 30)) ^^^ ((v.a >>> 13) ||| (v.a <<< 19)) ^^^
    ((v.a >>> 22) ||| (v.a <<< 10))
  let e1 := ((v.e >>> 6) ||| (v.e <<< 26)) ^^^ ((v.e >>> 11) ||| (v.e <<< 21)) ^^^
    ((v.e >>> 25) ||| (v.e <<< 7))
  let t1 := v.h + e1 + ((v.e &&& v.f) ^^^ (~~~v.e &&& v.g)) + k.getD t 0 + w t
  let t2 := e0 + ((v.a &&& v.b) ^^^ (v.a &&& v.c) ^^^ (v.b &&& v.c))
  ⟨t1 + t2, v.a, v.b, v.c, v.d + t1, v.e, v.f, v.g⟩

/-- What `sha256_update` does at the end of a block. From 16 on `w` is written before it is read. -/
def processBlock (sha : Sha) : Sha :=
  let w := (List.range 48).foldl (fun w t => expand w (16 + t)) sha.buffer
  let v := (List.range 64).foldl (turn w) sha.state
  { sha with
    buffer := fun t => if t < 16 then 0 else sha.buffer t
    state := ⟨sha.state.a + v.a, sha.state.b + v.b, sha.state.c + v.c, sha.state.d + v.d,
      sha.state.e + v.e, sha.state.f + v.f, sha.state.g + v.g, sha.state.h + v.h⟩ }

/-- `sha->buffer[index / 4] |= *message << (24 - index % 4 * 8)` -/
def addByte (buffer : Mem UInt32) (index : Nat) (b : UInt8) : Mem UInt32 :=
  Function.update buffer (index / 4)
    (buffer (index / 4) ||| (b.toUInt32 <<< UInt32.ofNat (24 - index % 4 * 8)))

/-- The loop that fills a block: the buffer, what is left of the message, and the index. -/
def fillBlock (buffer : Mem UInt32) : List UInt8 → Nat → Mem UInt32 × List UInt8 × Nat
  | [], index => (buffer, [], index)
  | b :: message, index =>
      if index < 64 then fillBlock (addByte buffer index b) message (index + 1)
      else (buffer, b :: message, index)

theorem length_fillBlock_le (buffer : Mem UInt32) (message : List UInt8) (index : Nat) :
    (fillBlock buffer message index).2.1.length ≤ message.length := by
  induction message generalizing buffer index with
  | nil => exact Nat.le_refl _
  | cons b message ih =>
      rw [fillBlock]
      split
      · exact (ih _ _).trans (Nat.le_succ _)
      · exact Nat.le_refl _

def nextIndex (length : Mem UInt8) (left : Nat) : Nat :=
  let index := (length 6).toNat % 2 * 32 + (length 7).toNat / 8
  (index + 64 - left % 64) % 64

theorem nextIndex_lt (length : Mem UInt8) (left : Nat) : nextIndex length left < 64 :=
  Nat.mod_lt _ (by decide)

/-- `while (length > 0)` of `sha256_update`. -/
def feed (sha : Sha) : List UInt8 → Sha
  | [] => sha
  | b :: message =>
      let filled := fillBlock sha.buffer (b :: message) (nextIndex sha.length (message.length + 1))
      let sha := { sha with buffer := filled.1 }
      feed (if filled.2.2 = 64 then sha.processBlock else sha) filled.2.1
termination_by message => message.length
decreasing_by
  rw [fillBlock, if_pos (nextIndex_lt _ _)]
  exact Nat.lt_succ_of_le (length_fillBlock_le _ _ _)

/-- `sha256_update` of a chunk, whose length is a `uint32_t`. -/
def sha256Update (sha : Sha) (message : List UInt8) : Sha :=
  feed { sha with length := addLength sha.length (UInt32.ofNat message.length) } message

def stateWord (state : Vars) (i : Nat) : UInt32 :=
  [state.a, state.b, state.c, state.d, state.e, state.f, state.g, state.h].getD i 0

/-- The length of the terminator in `sha256_finalize`. -/
def terminatorLength (length : Mem UInt8) : Nat :=
  let left := 64 - (length 6).toNat % 2 * 32 - (length 7).toNat / 8
  if left < 9 then left + 64 else left

def sha256Finalize (sha : Sha) (message : List UInt8) : Sha :=
  let sha := if message.length > 0 then sha.sha256Update message else sha
  let length := terminatorLength sha.length
  let terminator := Mem.write (Mem.ofList [0x80] 0) (length - 8) (sha.length.read 0 8)
  let sha := sha.sha256Update (terminator.read 0 length)
  { sha with
    hash := (List.range 32).map fun i =>
      (stateWord sha.state (i / 4) >>> UInt32.ofNat (24 - 8 * (i % 4))).toUInt8 }

section Length

/-- The number that the first bytes spell. -/
def number (length : Mem UInt8) : Nat → Nat
  | 0 => 0
  | n + 1 => number length n * 256 + (length n).toNat

variable {length length' : Mem UInt8} {n : Nat}

theorem number_congr (h : ∀ i < n, length' i = length i) : number length' n = number length n := by
  induction n with
  | zero => rfl
  | succ n ih =>
      rw [number, number, ih fun i hi => h i (Nat.lt_succ_of_lt hi), h n (Nat.lt_succ_self n)]

theorem number_clear (h : ∀ i < n, length i = 0) : number length n = 0 := by
  induction n with
  | zero => rfl
  | succ n ih =>
      rw [number, ih fun i hi => h i (Nat.lt_succ_of_lt hi), h n (Nat.lt_succ_self n), Nat.zero_mul,
        Nat.zero_add, UInt8.toNat_zero]

@[simp] theorem number_update (length : Mem UInt8) (n : Nat) (b : UInt8) :
    number (Function.update length n b) n = number length n :=
  number_congr fun _ hi => Function.update_of_ne (Nat.ne_of_lt hi) _ _

theorem number_update_succ (length : Mem UInt8) (n : Nat) (b : UInt8) :
    number (Function.update length n b) (n + 1) = number length n * 256 + b.toNat := by
  rw [number, number_update, Function.update_self]

theorem number_lift {added : Nat}
    (h : number length' n ≡ number length n + added [MOD 256 ^ n])
    (hrest : ∀ i, n ≤ i → length' i = length i) (m : Nat) :
    number length' (n + m) ≡ number length (n + m) + added * 256 ^ m [MOD 256 ^ (n + m)] := by
  induction m with
  | zero => simpa using h
  | succ m ih =>
      have hbyte := hrest (n + m) (Nat.le_add_right n m)
      have hshift := (ih.mul_right' 256).add_right (length (n + m)).toNat
      rw [← Nat.add_assoc, number, number, hbyte, Nat.pow_succ]
      have hsum : (number length (n + m) + added * 256 ^ m) * 256 + (length (n + m)).toNat =
          number length (n + m) * 256 + (length (n + m)).toNat + added * 256 ^ (m + 1) := by ring
      rw [← hsum]
      exact hshift

theorem number_carry (n : Nat) (length : Mem UInt8) :
    number (carry n length) n ≡ number length n + 1 [MOD 256 ^ n] ∧
      ∀ i, n ≤ i → carry n length i = length i := by
  induction n generalizing length with
  | zero => exact ⟨Nat.modEq_one, fun _ _ => rfl⟩
  | succ n ih =>
      have hbehind : ∀ i, n + 1 ≤ i → Function.update length n (length n + 1) i = length i :=
        fun i hi => Function.update_of_ne (by omega) _ _
      simp only [carry]
      by_cases hfull : length n = 0xff
      · obtain ⟨hnumber, hrest⟩ := ih (Function.update length n (length n + 1))
        rw [if_pos hfull]
        refine ⟨?_, fun i hi => (hrest i (by omega)).trans (hbehind i hi)⟩
        have hwrap : (0xff + 1 : UInt8) = 0 := by decide
        have hlast : carry n (Function.update length n (length n + 1)) n = 0 := by
          rw [hrest n (Nat.le_refl n), Function.update_self, hfull, hwrap]
        have hmul := hnumber.mul_right' 256
        have hmax : (0xff : UInt8).toNat = 255 := by decide
        have hsum : number length (n + 1) + 1 = (number length n + 1) * 256 := by
          rw [number, hfull, hmax]
          omega
        rw [number_update] at hmul
        rw [hsum, number, hlast, UInt8.toNat_zero, Nat.pow_succ, Nat.add_zero]
        exact hmul
      · rw [if_neg hfull]
        refine ⟨?_, hbehind⟩
        have hone : (length n + 1).toNat = (length n).toNat + 1 := by
          have hne : (length n).toNat ≠ 255 := fun h => hfull (UInt8.toNat_inj.mp h)
          have hlt := (length n).toNat_lt
          rw [UInt8.toNat_add, UInt8.toNat_one, Nat.mod_eq_of_lt (by omega)]
        rw [number_update_succ, number, hone, Nat.add_assoc]

theorem number_addBits (length : Mem UInt8) (i : Nat) (bits : UInt8) :
    number (addBits length i bits) (i + 1) ≡
        number length (i + 1) + bits.toNat [MOD 256 ^ (i + 1)] ∧
      ∀ j, i + 1 ≤ j → addBits length i bits j = length j := by
  have hlt := (length i).toNat_lt
  have hbits := bits.toNat_lt
  simp only [addBits]
  by_cases hover : (length i).toNat + bits.toNat > 0xff
  · obtain ⟨hnumber, hrest⟩ := number_carry i length
    rw [if_pos hover, hrest i (Nat.le_refl i)]
    constructor
    · have hsum : number length (i + 1) + bits.toNat =
          (number length i + 1) * 256 + (length i + bits).toNat := by
        rw [number, UInt8.toNat_add]
        omega
      rw [hsum, number_update_succ, Nat.pow_succ]
      exact (hnumber.mul_right' 256).add_right _
    · intro j hj
      rw [Function.update_of_ne (by omega), hrest j (by omega)]
  · rw [if_neg hover]
    constructor
    · have hsum : number length (i + 1) + bits.toNat =
          number length i * 256 + (length i + bits).toNat := by
        rw [number, UInt8.toNat_add]
        omega
      rw [hsum, number_update_succ]
    · exact fun j hj => Function.update_of_ne (by omega) _ _

theorem number_turns (bits : Nat → UInt8) (is : List Nat) (his : ∀ i ∈ is, i < 8)
    (length : Mem UInt8) :
    number (is.foldl (fun length i => addBits length i (bits i)) length) 8 ≡
      number length 8 + (is.map fun i => (bits i).toNat * 256 ^ (7 - i)).sum [MOD 256 ^ 8] := by
  induction is generalizing length with
  | nil => rw [List.foldl_nil, List.map_nil, List.sum_nil, Nat.add_zero]
  | cons i is ih =>
      have hi : i < 8 := his i List.mem_cons_self
      obtain ⟨hnumber, hrest⟩ := number_addBits length i (bits i)
      have hlift := number_lift hnumber hrest (7 - i)
      have hall : i + 1 + (7 - i) = 8 := by omega
      rw [hall] at hlift
      rw [List.foldl_cons, List.map_cons, List.sum_cons, ← Nat.add_assoc]
      exact (ih (fun j hj => his j (List.mem_cons_of_mem i hj)) _).trans (hlift.add_right _)

theorem toNat_lengthBits (added : UInt32) {i : Nat} (hlo : 3 ≤ i) (hhi : i < 7) :
    (lengthBits added i).toNat = added.toNat / 2 ^ (53 - 8 * i) % 256 := by
  have hshift : (UInt32.ofNat (53 - 8 * i)).toNat % 32 = 53 - 8 * i := by
    rw [UInt32.toNat_ofNat']
    omega
  rw [lengthBits, if_neg (by omega), if_neg (by omega), UInt32.toNat_toUInt8,
    UInt32.toNat_shiftRight, hshift, Nat.shiftRight_eq_div_pow]

theorem toNat_lengthBits_last (added : UInt32) :
    (lengthBits added 7).toNat = 8 * added.toNat % 256 := by
  have hshift : (3 : UInt32).toNat % 32 = 3 := rfl
  rw [lengthBits, if_pos rfl, UInt32.toNat_toUInt8, UInt32.toNat_shiftLeft, hshift,
    Nat.shiftLeft_eq]
  omega

theorem sum_map_turns (f : Nat → Nat) : ([7, 6, 5, 4, 3, 2, 1, 0].map f).sum =
    f 7 + f 6 + f 5 + f 4 + f 3 + f 2 + f 1 + f 0 := by
  simp [Nat.add_assoc]

theorem sum_lengthBits (added : UInt32) : ([7, 6, 5, 4, 3, 2, 1, 0].map fun i =>
    (lengthBits added i).toNat * 256 ^ (7 - i)).sum = 8 * added.toNat := by
  have hlt := added.toNat_lt
  have h6 := toNat_lengthBits added (i := 6) (by decide) (by decide)
  have h5 := toNat_lengthBits added (i := 5) (by decide) (by decide)
  have h4 := toNat_lengthBits added (i := 4) (by decide) (by decide)
  have h3 := toNat_lengthBits added (i := 3) (by decide) (by decide)
  have h2 : (lengthBits added 2).toNat = 0 := rfl
  have h1 : (lengthBits added 1).toNat = 0 := rfl
  have h0 : (lengthBits added 0).toNat = 0 := rfl
  rw [sum_map_turns, toNat_lengthBits_last, h6, h5, h4, h3, h2, h1, h0]
  simp only [Nat.reduceSub, Nat.reduceMul]
  omega

theorem number_addLength (length : Mem UInt8) (added : UInt32) :
    number (addLength length added) 8 ≡ number length 8 + 8 * added.toNat [MOD 256 ^ 8] := by
  rw [addLength, ← sum_lengthBits]
  exact number_turns (lengthBits added) _ (by decide) length

theorem nextIndex_eq {total left : Nat} (h : number length 8 ≡ 8 * total [MOD 256 ^ 8])
    (hleft : left ≤ total) : nextIndex length left = (total - left) % 64 := by
  have hlast : (number length 6 * 256 + (length 6).toNat) * 256 + (length 7).toNat ≡
      8 * total [MOD 512] := h.of_dvd (by decide)
  have hlt := (length 6).toNat_lt
  have hlt' := (length 7).toNat_lt
  simp only [Nat.ModEq, nextIndex] at hlast ⊢
  omega

theorem terminatorLength_eq {total : Nat} (h : number length 8 ≡ 8 * total [MOD 256 ^ 8]) :
    terminatorLength length = (119 - total % 64) % 64 + 1 + 8 := by
  have hindex := nextIndex_eq h (Nat.zero_le total)
  have hlt := (length 7).toNat_lt
  simp only [nextIndex, terminatorLength] at hindex ⊢
  split <;> omega

theorem number_div (i m : Nat) (length : Mem UInt8) :
    number length (i + m) / 256 ^ m = number length i := by
  induction m with
  | zero => rw [Nat.add_zero, Nat.pow_zero, Nat.div_one]
  | succ m ih =>
      have hlt := (length (i + m)).toNat_lt
      have hfront : (number length (i + m) * 256 + (length (i + m)).toNat) / 256 =
          number length (i + m) := by omega
      rw [← Nat.add_assoc, number, Nat.pow_succ, Nat.mul_comm (256 ^ m), ← Nat.div_div_eq_div_mul,
        hfront, ih]

theorem read_length {total : Nat} (h : number length 8 ≡ 8 * total [MOD 256 ^ 8]) :
    length.read 0 8 = Sha256.lengthBytes (8 * total) := by
  refine List.map_congr_left fun i hi => ?_
  have hi8 := List.mem_range.mp hi
  have hdvd : 256 ^ (7 - i) * 256 ∣ 256 ^ 8 := by
    rw [← Nat.pow_succ]
    exact Nat.pow_dvd_pow 256 (by omega)
  have hmod : number length 8 / 256 ^ (7 - i) % 256 = 8 * total / 256 ^ (7 - i) % 256 := by
    rw [← Nat.mod_mul_right_div_self, ← Nat.mod_mul_right_div_self]
    exact congrArg (· / 256 ^ (7 - i)) (h.of_dvd hdvd)
  have hall : i + 1 + (7 - i) = 8 := by omega
  have hmost := number_div (i + 1) (7 - i) length
  have hlt := (length i).toNat_lt
  rw [hall] at hmost
  rw [hmost, number] at hmod
  apply UInt8.toNat_inj.mp
  rw [Nat.zero_add, UInt8.toNat_ofNat', ← hmod]
  omega

end Length

section Words

variable {buffer : Mem UInt32} {tail : List UInt8}

/-- The buffer holds the bytes of a part of a block, and is clear behind them. -/
def Packed (buffer : Mem UInt32) (tail : List UInt8) : Prop :=
  ∀ w < 16, buffer w = Sha256.wordAt tail w

theorem packed_clear (buffer : Mem UInt32) :
    Packed (fun t => if t < 16 then 0 else buffer t) [] := by
  intro w hw
  simp [Sha256.wordAt, hw]

theorem getD_concat_of_ne {xs : List UInt8} {b : UInt8} {i : Nat} (h : i ≠ xs.length) :
    (xs ++ [b]).getD i 0 = xs.getD i 0 := by
  by_cases hlt : i < xs.length
  · rw [List.getD_append _ _ _ _ hlt]
  · rw [List.getD_eq_default _ _ (by simp; omega), List.getD_eq_default _ _ (by omega)]

theorem packed_addByte (h : Packed buffer tail) (b : UInt8) :
    Packed (addByte buffer tail.length b) (tail ++ [b]) := by
  intro w hw
  by_cases hword : w = tail.length / 4
  · have hbehind : ∀ i, tail.length ≤ i → tail.getD i 0 = 0 := fun i hi =>
      List.getD_eq_default _ _ hi
    have hself : ∀ i, i = tail.length → (tail ++ [b]).getD i 0 = b := fun i hi => by simp [hi]
    have hplace : tail.length = 4 * w + tail.length % 4 := by omega
    have hlt : tail.length % 4 < 4 := Nat.mod_lt _ (by decide)
    rw [addByte, hword, Function.update_self, ← hword, h w hw, Sha256.wordAt, Sha256.wordAt]
    generalize tail.length % 4 = j at hplace hlt ⊢
    interval_cases j
    · rw [hself (4 * w) (by omega), getD_concat_of_ne (by omega), getD_concat_of_ne (by omega),
        getD_concat_of_ne (by omega), hbehind (4 * w) (by omega), hbehind (4 * w + 1) (by omega),
        hbehind (4 * w + 2) (by omega), hbehind (4 * w + 3) (by omega)]
      simp
    · rw [getD_concat_of_ne (by omega), hself (4 * w + 1) (by omega), getD_concat_of_ne (by omega),
        getD_concat_of_ne (by omega), hbehind (4 * w + 1) (by omega),
        hbehind (4 * w + 2) (by omega), hbehind (4 * w + 3) (by omega)]
      simp
    · rw [getD_concat_of_ne (by omega), getD_concat_of_ne (by omega), hself (4 * w + 2) (by omega),
        getD_concat_of_ne (by omega), hbehind (4 * w + 2) (by omega),
        hbehind (4 * w + 3) (by omega)]
      simp
    · rw [getD_concat_of_ne (by omega), getD_concat_of_ne (by omega), getD_concat_of_ne (by omega),
        hself (4 * w + 3) (by omega), hbehind (4 * w + 3) (by omega)]
      simp
  · rw [addByte, Function.update_of_ne hword, h w hw, Sha256.wordAt, Sha256.wordAt,
      getD_concat_of_ne (by omega), getD_concat_of_ne (by omega), getD_concat_of_ne (by omega),
      getD_concat_of_ne (by omega)]

/-- The loop takes what fits into the block. -/
theorem fillBlock_eq (message : List UInt8) (h : Packed buffer tail) (hle : tail.length ≤ 64) :
    (fillBlock buffer message tail.length).2 =
        (message.drop (64 - tail.length), min 64 (tail.length + message.length)) ∧
      Packed (fillBlock buffer message tail.length).1
        (tail ++ message.take (64 - tail.length)) := by
  induction message generalizing buffer tail with
  | nil =>
      rw [fillBlock, List.take_nil, List.drop_nil, List.append_nil, List.length_nil, Nat.add_zero,
        Nat.min_eq_right hle]
      exact ⟨rfl, h⟩
  | cons b message ih =>
      rw [fillBlock]
      split
      · next hlt =>
        have hone : (tail ++ [b]).length = tail.length + 1 := by simp
        have hnext := ih (packed_addByte h b) (by omega)
        have hleft : 64 - tail.length = 64 - (tail.length + 1) + 1 := by omega
        have hcount : tail.length + 1 + message.length = tail.length + (message.length + 1) := by
          omega
        rw [hone, hcount] at hnext
        rw [hleft, List.drop_succ_cons, List.take_succ_cons, List.length_cons, List.append_cons]
        exact hnext
      · next hfull =>
        have hnone : 64 - tail.length = 0 := by omega
        rw [hnone, List.take_zero, List.drop_zero, List.append_nil, List.length_cons,
          Nat.min_eq_left (by omega)]
        exact ⟨by rw [show tail.length = 64 by omega], h⟩

end Words

section Compression

variable {sha : Sha} {buffer : Mem UInt32} {block : List UInt8}

theorem k_eq : k = Sha256.roundConstants := by decide +kernel

theorem expand_eq (w : Mem UInt32) (t : Nat) :
    expand w t = Function.update w t (Sha256.smallSigma1 (w (t - 2)) + w (t - 7) +
      Sha256.smallSigma0 (w (t - 15)) + w (t - 16)) := rfl

theorem turn_eq (w : Mem UInt32) (v : Vars) (t : Nat) :
    turn w v t = Sha256.round v (k.getD t 0) (w t) := rfl

theorem expand_schedule (h : Packed buffer block) (n : Nat) :
    ∀ t < 16 + n, (List.range n).foldl (fun w t => expand w (16 + t)) buffer t =
      Sha256.schedule block t := by
  induction n with
  | zero =>
      intro t ht
      rw [Sha256.schedule, if_pos ht]
      exact h t ht
  | succ n ih =>
      intro t ht
      rw [List.range_succ, List.foldl_append, List.foldl_cons, List.foldl_nil, expand_eq]
      by_cases hlast : t = 16 + n
      · rw [hlast, Function.update_self, ih _ (by omega), ih _ (by omega), ih _ (by omega),
          ih _ (by omega)]
        rw [Sha256.schedule.eq_def block (16 + n), if_neg (by omega)]
      · rw [Function.update_of_ne hlast, ih t (by omega)]

theorem processBlock_state (h : Packed sha.buffer block) :
    sha.processBlock.state = Sha256.compress sha.state block := by
  have hrounds : (List.range 64).foldl
      (turn ((List.range 48).foldl (fun w t => expand w (16 + t)) sha.buffer)) sha.state =
      (List.range 64).foldl (fun v t =>
        Sha256.round v (Sha256.roundConstants.getD t 0) (Sha256.schedule block t)) sha.state := by
    refine List.foldl_ext _ _ _ fun v t ht => ?_
    rw [turn_eq, expand_schedule h 48 t (List.mem_range.mp ht), k_eq]
  simp only [processBlock, hrounds, Sha256.compress, UInt32.add_comm]

end Compression

end Sha

end PublicCloudCore.RanEmulator
