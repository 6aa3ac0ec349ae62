import PublicCloudCore.CorekubeDb.Opc
import PublicCloudCore.Framework.Milenage

/-!
# Milenage in the emulated UE

`f2345` fills one input block after the other in the same array, each time from another index on.
Every loop goes over all the indices, so nothing of an earlier block is left, and the responses are
those of TS 35.206 over AES-128.
-/

namespace PublicCloudCore.RanEmulator

open Framework Framework.Aes
open CorekubeDb.Crypto (rijndaelKeySchedule rijndaelEncrypt rijndaelEncrypt_eq
  scheduled_rijndaelKeySchedule)

/-- `for (i=0; i<n; i++) a[index(i)] = value(i);` -/
def fill {n : Nat} (index : Fin n → Fin n) (value : Fin n → UInt8) (a : Fin n → UInt8) :
    Fin n → UInt8 :=
  (List.finRange n).foldl (fun a i => Function.update a (index i) (value i)) a

/-- What `f2345` stores. -/
structure F2345 where
  res : Fin 8 → UInt8
  ck : Block
  ik : Block
  ak : Fin 6 → UInt8

/-- `a[15] ^= c` -/
def addToLast (a : Block) (c : UInt8) : Block := Function.update a 15 (a 15 ^^^ c)

/-- `f2345`, over what `Ekey` and the arrays hold before. The cipher stores all of `temp` and
`out`. -/
def f2345 (ekey : Mem UInt32) (stack : Block) (stored : F2345) (k rand opC : Block) : F2345 :=
  let ekey := rijndaelKeySchedule ekey k
  let rijndaelInput := fill id (fun i => rand i ^^^ opC i) stack
  let temp := rijndaelEncrypt ekey rijndaelInput
  -- OUT2
  let rijndaelInput := fill id (fun i => temp i ^^^ opC i) rijndaelInput
  let rijndaelInput := addToLast rijndaelInput 1
  let out := rijndaelEncrypt ekey rijndaelInput
  let out2 : Block := fun i => out i ^^^ opC i
  let res := fill id (fun i => out2 (i.natAdd 8)) stored.res
  let ak := fill id (fun i => out2 (i.castAdd 10)) stored.ak
  -- OUT3
  let rijndaelInput := fill (· + 12) (fun i => temp i ^^^ opC i) rijndaelInput
  let rijndaelInput := addToLast rijndaelInput 2
  let out := rijndaelEncrypt ekey rijndaelInput
  let out3 : Block := fun i => out i ^^^ opC i
  let ck := fill id out3 stored.ck
  -- OUT4
  let rijndaelInput := fill (· + 8) (fun i => temp i ^^^ opC i) rijndaelInput
  let rijndaelInput := addToLast rijndaelInput 4
  let out := rijndaelEncrypt ekey rijndaelInput
  let out4 : Block := fun i => out i ^^^ opC i
  let ik := fill id out4 stored.ik
  ⟨res, ck, ik, ak⟩

section

variable {n : Nat} {index : Fin n → Fin n} {value a : Fin n → UInt8}

theorem foldl_update_apply {l : List (Fin n)} (hinj : Function.Injective index) {i : Fin n}
    (hi : i ∈ l) :
    l.foldl (fun a i => Function.update a (index i) (value i)) a (index i) = value i := by
  induction l using List.reverseRecOn with
  | nil => cases hi
  | append_singleton l j ih =>
      rw [List.foldl_append, List.foldl_cons, List.foldl_nil]
      by_cases hij : i = j
      · rw [hij, Function.update_self]
      · rw [Function.update_of_ne (hinj.ne hij)]
        refine ih ((List.mem_append.mp hi).resolve_right fun hj => hij ?_)
        exact List.mem_singleton.mp hj

theorem fill_apply (hinj : Function.Injective index) (i : Fin n) :
    fill index value a (index i) = value i :=
  foldl_update_apply hinj (List.mem_finRange i)

@[simp] theorem fill_id : fill id value a = value := by
  funext i
  exact fill_apply Function.injective_id i

end

/-- The index turned by `k` is a rotation by the bytes that are left. -/
theorem fill_add (k l : Fin 16) (hkl : l + k = 0) (value a : Block) :
    fill (· + k) value a = Milenage.rot value (8 * l) := by
  rw [Milenage.rot_bytes]
  funext i
  have hback : i + l + k = i := by rw [add_assoc, hkl, add_zero]
  have hfill : fill (· + k) value a (i + l + k) = value (i + l) :=
    fill_apply (add_left_injective k) (i + l)
  rwa [hback] at hfill

theorem addToLast_eq (a : Block) (c : UInt8) :
    addToLast a c = xorBlock a (Milenage.lastByte c) := by
  funext i
  by_cases hi : i = 15
  · subst hi
    simp [addToLast, xorBlock, Milenage.lastByte]
  · simp [addToLast, xorBlock, Milenage.lastByte, hi]

/-- Whatever was in the arrays, `f2345` stores the responses of TS 35.206 over AES-128. -/
theorem f2345_eq (ekey : Mem UInt32) (stack : Block) (stored : F2345) (k rand opC : Block) :
    f2345 ekey stack stored k rand opC =
      ⟨Milenage.f2 (aes128 k) rand opC, Milenage.f3 (aes128 k) rand opC,
        Milenage.f4 (aes128 k) rand opC, Milenage.f5 (aes128 k) rand opC⟩ := by
  have hcipher := rijndaelEncrypt_eq (scheduled_rijndaelKeySchedule k ekey)
  have hxor : ∀ a b : Block, (fun i => a i ^^^ b i) = xorBlock a b := fun _ _ => rfl
  have hrot2 : ∀ x : Block, Milenage.rot x 0 = x := fun x => by
    simpa using Milenage.rot_bytes x 0
  have hrot3 : ∀ x a : Block, fill (· + 12) x a = Milenage.rot x 32 := fill_add 12 4 rfl
  have hrot4 : ∀ x a : Block, fill (· + 8) x a = Milenage.rot x 64 := fill_add 8 8 rfl
  have htemp : aes128 k (xorBlock rand opC) = Milenage.temp (aes128 k) rand opC := rfl
  have hout2 : ∀ i, aes128 k (xorBlock (xorBlock (Milenage.temp (aes128 k) rand opC) opC)
      (Milenage.lastByte 1)) i ^^^ opC i = Milenage.out2 (aes128 k) rand opC i := by
    intro i
    rw [Milenage.out2, Milenage.out, hrot2]
    rfl
  simp only [f2345, hcipher, fill_id, hxor, hrot3, hrot4, addToLast_eq, htemp, hout2]
  rfl

end PublicCloudCore.RanEmulator
