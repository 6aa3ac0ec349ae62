import PublicCloudCore.Framework.Aes

/-!
# Milenage

The functions of TS 35.206 over a block cipher, with its constants and rotations. The bits of a
block are counted from the most significant one, and a rotation goes towards it.
-/

namespace PublicCloudCore.Framework.Milenage

open Aes

def bit (x : Block) (j : Nat) : Bool := (x (Fin.ofNat 16 (j / 8))).toNat.testBit (7 - j % 8)

/-- The number of eight bits, the first of which counts most. -/
def ofBits (f : Nat → Bool) : UInt8 :=
  UInt8.ofNat ((List.range 8).foldl (fun n k => 2 * n + (f k).toNat) 0)

def rot (x : Block) (r : Nat) : Block := fun i => ofBits fun k => bit x ((8 * i + k + r) % 128)

def lastByte (c : UInt8) : Block := fun i => if i = 15 then c else 0

section

variable (cipher : Block → Block) (rand opc : Block)

def temp : Block := cipher (xorBlock rand opc)

/-- The output block with a rotation and a constant. -/
def out (r : Nat) (c : Block) : Block :=
  xorBlock (cipher (xorBlock (rot (xorBlock (temp cipher rand opc) opc) r) c)) opc

def out2 : Block := out cipher rand opc 0 (lastByte 1)
def out3 : Block := out cipher rand opc 32 (lastByte 2)
def out4 : Block := out cipher rand opc 64 (lastByte 4)

def f2 : Fin 8 → UInt8 := fun i => out2 cipher rand opc (i.natAdd 8)
def f3 : Block := out3 cipher rand opc
def f4 : Block := out4 cipher rand opc
def f5 : Fin 6 → UInt8 := fun i => out2 cipher rand opc (i.castAdd 10)

end

theorem ofBits_testBit (b : UInt8) : ofBits (fun k => b.toNat.testBit (7 - k)) = b := by
  have hall : (List.range 256).all fun n =>
      ofBits (fun k => n.testBit (7 - k)) == UInt8.ofNat n := by decide +kernel
  have hb := of_allBytes hall b.toNat_lt
  rwa [beq_iff_eq, UInt8.ofNat_toNat] at hb

theorem ofBits_congr {f g : Nat → Bool} (h : ∀ k < 8, f k = g k) : ofBits f = ofBits g := by
  rw [ofBits, ofBits]
  congr 1
  refine List.foldl_ext _ _ _ fun n k hk => ?_
  rw [h k (List.mem_range.mp hk)]

theorem rot_bytes (x : Block) (k : Fin 16) : rot x (8 * k) = fun i => x (i + k) := by
  funext i
  rw [rot, ← ofBits_testBit (x (i + k))]
  refine ofBits_congr fun j hj => ?_
  have hbyte : (8 * (i : Nat) + j + 8 * k) % 128 / 8 = (i + k) % 16 := by omega
  have hbit : (8 * (i : Nat) + j + 8 * k) % 128 % 8 = j := by omega
  rw [bit, hbyte, hbit]
  congr 3
  apply Fin.ext
  simp [Fin.ofNat, Fin.val_add]

end PublicCloudCore.Framework.Milenage
