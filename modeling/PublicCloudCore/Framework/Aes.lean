import Mathlib

/-!
# AES-128

FIPS 197. A byte is a polynomial with two coefficients modulo `x ^ 8 + x ^ 4 + x ^ 3 + x + 1`; a
word has four bytes, and a state four words, which are its columns.
-/

namespace PublicCloudCore.Framework.Aes

scoped instance neZero_four : NeZero 4 := ⟨by decide⟩

scoped instance neZero_sixteen : NeZero 16 := ⟨by decide⟩

/-- The product of `x` with a polynomial below degree eight, both written as numbers. -/
def xtime (p : Nat) : Nat := if p < 128 then 2 * p else (2 * p) ^^^ 0x11b

/-- The multiples of the second factor by the powers of `x` that the first factor has. -/
def mulBits : Nat → Nat → Nat → Nat
  | 0, _, _ => 0
  | n + 1, p, q => (if p % 2 = 0 then 0 else q) ^^^ mulBits n (p / 2) (xtime q)

def polyMul (p q : Nat) : Nat := mulBits 8 p q

/-- The inverse is the power with exponent 254; that of zero is zero. -/
def polyInv (p : Nat) : Nat :=
  let p2 := polyMul p p
  let p4 := polyMul p2 p2
  let p8 := polyMul p4 p4
  let p16 := polyMul p8 p8
  let p32 := polyMul p16 p16
  let p64 := polyMul p32 p32
  let p128 := polyMul p64 p64
  polyMul p2 (polyMul p4 (polyMul p8 (polyMul p16 (polyMul p32 (polyMul p64 p128)))))

def polyAffine (p : Nat) : Nat :=
  (List.range 8).foldl (fun sum i => sum + 2 ^ i *
    (p.testBit i ^^ p.testBit ((i + 4) % 8) ^^ p.testBit ((i + 5) % 8) ^^ p.testBit ((i + 6) % 8) ^^
      p.testBit ((i + 7) % 8) ^^ Nat.testBit 0x63 i).toNat) 0

/-- What has been checked of every byte. -/
theorem of_allBytes {f : Nat → Bool} (hall : (List.range 256).all f) {p : Nat} (hp : p < 256) :
    f p :=
  List.all_eq_true.mp hall p (List.mem_range.mpr hp)

example : (List.range 256).all fun p => p == 0 || polyMul p (polyInv p) == 1 := by decide +kernel

def mul (a b : UInt8) : UInt8 := UInt8.ofNat (polyMul a.toNat b.toNat)

def sbox (b : UInt8) : UInt8 := UInt8.ofNat (polyAffine (polyInv b.toNat))

@[simp] theorem one_mul (b : UInt8) : mul 1 b = b := by
  have hall : ((List.range 256).all fun p => polyMul 1 p == p) := by decide +kernel
  have hone := of_allBytes hall b.toNat_lt
  have htoNat : (1 : UInt8).toNat = 1 := rfl
  rw [mul, htoNat, beq_iff_eq.mp hone, UInt8.ofNat_toNat]

abbrev Word := Fin 4 → UInt8

def xorWord (a b : Word) : Word := fun r => a r ^^^ b r

theorem xorWord_assoc (a b c : Word) : xorWord (xorWord a b) c = xorWord a (xorWord b c) := by
  funext r
  exact UInt8.xor_assoc ..

def subWord (w : Word) : Word := fun r => sbox (w r)

def rotWord (w : Word) : Word := fun r => w (r + 1)

/-- `x` to a power. -/
def xpow : Nat → Nat
  | 0 => 1
  | n + 1 => xtime (xpow n)

def rcon (j : Nat) : Word := ![UInt8.ofNat (xpow (j - 1)), 0, 0, 0]

abbrev Block := Fin 16 → UInt8

def Block.ofList (bytes : List UInt8) : Block := fun i => bytes.getD i 0

def xorBlock (a b : Block) : Block := fun i => a i ^^^ b i

def columns (block : Block) (c : Fin 4) : Word := fun r => block ⟨4 * c + r, by omega⟩

def keyWord (key : Block) (i : Nat) : Word :=
  if h : i < 4 then columns key ⟨i, h⟩
  else
    let temp := keyWord key (i - 1)
    xorWord (keyWord key (i - 4))
      (if i % 4 = 0 then xorWord (subWord (rotWord temp)) (rcon (i / 4)) else temp)
termination_by i

theorem keyWord_key (key : Block) (c : Fin 4) : keyWord key c = columns key c := by
  rw [keyWord, dif_pos c.isLt]

theorem keyWord_first (key : Block) (k : Nat) : keyWord key (4 * (k + 1)) =
    xorWord (keyWord key (4 * k))
      (xorWord (subWord (rotWord (keyWord key (4 * k + 3)))) (rcon (k + 1))) := by
  have hmod : 4 * (k + 1) % 4 = 0 := by omega
  have hdiv : 4 * (k + 1) / 4 = k + 1 := by omega
  have hprev : 4 * (k + 1) - 1 = 4 * k + 3 := by omega
  have hback : 4 * (k + 1) - 4 = 4 * k := by omega
  rw [keyWord, dif_neg (by omega), hmod, hdiv, hprev, hback]
  rfl

theorem keyWord_next (key : Block) (k : Nat) {c : Nat} (hc : c < 3) :
    keyWord key (4 * (k + 1) + (c + 1)) =
      xorWord (keyWord key (4 * k + (c + 1))) (keyWord key (4 * (k + 1) + c)) := by
  have hmod : ¬(4 * (k + 1) + (c + 1)) % 4 = 0 := by omega
  have hprev : 4 * (k + 1) + (c + 1) - 1 = 4 * (k + 1) + c := by omega
  have hback : 4 * (k + 1) + (c + 1) - 4 = 4 * k + (c + 1) := by omega
  rw [keyWord, dif_neg (by omega), hprev, hback]
  simp only [hmod, if_false]

abbrev State := Fin 4 → Word

def subBytes (s : State) : State := fun c r => sbox (s c r)

def shiftRows (s : State) : State := fun c r => s (c + r) r

def mixColumns (s : State) : State := fun c r =>
  mul 2 (s c r) ^^^ mul 3 (s c (r + 1)) ^^^ s c (r + 2) ^^^ s c (r + 3)

def addRoundKey (key : Block) (round : Nat) (s : State) : State := fun c =>
  xorWord (s c) (keyWord key (4 * round + c))

def rounds (key : Block) (s : State) : Nat → State
  | 0 => s
  | n + 1 => addRoundKey key (n + 1) (mixColumns (shiftRows (subBytes (rounds key s n))))

def ofColumns (s : State) : Block := fun i =>
  s ⟨i / 4, by omega⟩ ⟨i % 4, by omega⟩

def aes128 (key input : Block) : Block :=
  let s := rounds key (addRoundKey key 0 (columns input)) 9
  ofColumns (addRoundKey key 10 (shiftRows (subBytes s)))

end PublicCloudCore.Framework.Aes
