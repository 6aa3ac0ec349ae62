import PublicCloudCore.CorekubeDb.CryptoTables
import PublicCloudCore.Framework.Memory

/-!
# Operator codes

`RijndaelKeySchedule` and `RijndaelEncrypt` keep the columns of the state in words, on a
little-endian machine. Their tables stand for the bytes of AES-128, and so `generate_opc` makes of
an operator code its encryption under the key, added to it.
-/

namespace PublicCloudCore.CorekubeDb.Crypto

open Framework Framework.Aes

/-- `u32_in` of the four bytes at an address; `u32_out` stores `bytes`. -/
def u32In (w : Word) : UInt32 :=
  UInt32.ofNat ((w 0).toNat + 256 * (w 1).toNat + 65536 * (w 2).toNat + 16777216 * (w 3).toNat)

def rot3 (x : UInt32) : UInt32 := (x <<< 24) ||| (x >>> 8)

def lsBox (x : UInt32) : UInt32 :=
  flTab 0 (bytes x 0) ^^^ flTab 1 (bytes x 1) ^^^ flTab 2 (bytes x 2) ^^^ flTab 3 (bytes x 3)

/-- `f_rnd(x, n)`; the index `(n + 1) & 3` is `n + 1` in `Fin 4`. -/
def fRnd (x : Fin 4 → UInt32) (n : Fin 4) : UInt32 :=
  ftTab 0 (bytes (x n) 0) ^^^ ftTab 1 (bytes (x (n + 1)) 1) ^^^ ftTab 2 (bytes (x (n + 2)) 2) ^^^
    ftTab 3 (bytes (x (n + 3)) 3)

def lfRnd (x : Fin 4 → UInt32) (n : Fin 4) : UInt32 :=
  flTab 0 (bytes (x n) 0) ^^^ flTab 1 (bytes (x (n + 1)) 1) ^^^ flTab 2 (bytes (x (n + 2)) 2) ^^^
    flTab 3 (bytes (x (n + 3)) 3)

/-- `f_round`, with `kp` as an index of `Ekey`. -/
def fRound (ekey : Mem UInt32) (bi : Fin 4 → UInt32) (kp : Nat) : Fin 4 → UInt32 := fun n =>
  fRnd bi n ^^^ ekey (kp + n)

/-- A turn of the loop in `RijndaelKeySchedule`, with `ek` and `rc` as indices. -/
def scheduleTurn (ekey : Mem UInt32) (ek rc : Nat) : Mem UInt32 :=
  let t := rot3 (ekey (ek + 3))
  let ek4 := ekey ek ^^^ lsBox t ^^^ rndCon.getD rc 0
  let ek5 := ekey (ek + 1) ^^^ ek4
  let ek6 := ekey (ek + 2) ^^^ ek5
  let ek7 := ekey (ek + 3) ^^^ ek6
  ekey.write (ek + 4) [ek4, ek5, ek6, ek7]

/-- `RijndaelKeySchedule`, over what `Ekey` holds before; `ek` reaches `Ekey + 40` in ten turns. -/
def rijndaelKeySchedule (ekey : Mem UInt32) (key : Block) : Mem UInt32 :=
  let ekey := ekey.write 0 (List.ofFn fun c => u32In (columns key c))
  (List.range 10).foldl (fun ekey k => scheduleTurn ekey (4 * k) k) ekey

/-- `RijndaelEncrypt`: the first key is added, there are nine rounds of `f_round`, and the last one
takes `lf_rnd`. -/
def rijndaelEncrypt (ekey : Mem UInt32) (input : Block) : Block :=
  let b0 := fun c : Fin 4 => u32In (columns input c) ^^^ ekey c
  let b1 := (List.range 9).foldl (fun b k => fRound ekey b (4 * (k + 1))) b0
  ofColumns fun c => bytes (lfRnd b1 c ^^^ ekey (40 + c))

def computeOpc (ekey : Mem UInt32) (op : Block) : Block :=
  let opC := rijndaelEncrypt ekey op
  fun i => opC i ^^^ op i

/-- `generate_opc`; what it writes to `opc`. -/
def generateOpc (ekey : Mem UInt32) (key op : Block) : Block :=
  computeOpc (rijndaelKeySchedule ekey key) op

@[simp] theorem bytes_xor (x y : UInt32) : bytes (x ^^^ y) = xorWord (bytes x) (bytes y) := by
  funext r
  rw [bytes, UInt32.shiftRight_xor, UInt32.toUInt8_xor]
  rfl

@[simp] theorem bytes_u32In (w : Word) : bytes (u32In w) = w := by
  funext r
  have h0 := (w 0).toNat_lt
  have h1 := (w 1).toNat_lt
  have h2 := (w 2).toNat_lt
  have h3 := (w 3).toNat_lt
  apply UInt8.toNat_inj.mp
  rw [toNat_bytes, byteOf, u32In, UInt32.toNat_ofNat']
  fin_cases r <;> simp <;> omega

theorem getLsbD_bytes (x : UInt32) (r : Fin 4) {i : Nat} (hi : i < 8) :
    (bytes x r).toBitVec.getLsbD i = x.toBitVec.getLsbD (8 * r + i) := by
  fin_cases r <;> simp [bytes, hi]

theorem getLsbD_rot3 (x : UInt32) {j : Nat} (hj : j < 32) :
    (rot3 x).toBitVec.getLsbD j = x.toBitVec.getLsbD ((j + 8) % 32) := by
  by_cases hlow : j < 24
  · have hmod : (j + 8) % 32 = 8 + j := by omega
    simp [rot3, hlow, hmod]
  · have hmod : (j + 8) % 32 = j - 24 := by omega
    have hout : x.toBitVec.getLsbD (8 + j) = false := BitVec.getLsbD_of_ge _ _ (by omega)
    have hin : j - 24 < 32 := by omega
    simp [rot3, hj, hlow, hmod, hout, BitVec.getLsbD_eq_getElem hin]

theorem bytes_rot3 (x : UInt32) : bytes (rot3 x) = rotWord (bytes x) := by
  funext r
  apply UInt8.toBitVec_inj.mp
  apply BitVec.eq_of_getLsbD_eq
  intro i hi
  have hr := r.isLt
  rw [rotWord, getLsbD_bytes _ _ hi, getLsbD_bytes _ _ hi, getLsbD_rot3 x (by omega)]
  fin_cases r <;> simp <;> congr 1 <;> omega

theorem bytes_lsBox (x : UInt32) : bytes (lsBox x) = subWord (bytes x) := by
  funext r
  simp only [lsBox, bytes_xor, xorWord, bytes_flTab, subWord]
  fin_cases r <;> simp

/-- A round on the words is a round on the columns. -/
theorem bytes_fRnd {x : Fin 4 → UInt32} {s : State} (hx : ∀ c, bytes (x c) = s c) (n : Fin 4) :
    bytes (fRnd x n) = mixColumns (shiftRows (subBytes s)) n := by
  funext r
  simp only [fRnd, bytes_xor, xorWord, bytes_ftTab, hx, mixColumns, shiftRows, subBytes]
  fin_cases r
  · simp [coefficient]
  · simp [coefficient]
    ac_rfl
  · simp [coefficient]
    ac_rfl
  · simp [coefficient]
    ac_rfl

theorem bytes_lfRnd {x : Fin 4 → UInt32} {s : State} (hx : ∀ c, bytes (x c) = s c) (n : Fin 4) :
    bytes (lfRnd x n) = shiftRows (subBytes s) n := by
  funext r
  simp only [lfRnd, bytes_xor, xorWord, bytes_flTab, hx, shiftRows, subBytes]
  fin_cases r <;> simp

section

variable {key : Block} {ekey : Mem UInt32} {n : Nat}

def Scheduled (key : Block) (n : Nat) (ekey : Mem UInt32) : Prop :=
  ∀ i < 4 * (n + 1), bytes (ekey i) = keyWord key i

theorem scheduled_key (key : Block) (ekey : Mem UInt32) :
    Scheduled key 0 (ekey.write 0 (List.ofFn fun c => u32In (columns key c))) := by
  intro i hi
  have hlt : i < (List.ofFn fun c => u32In (columns key c)).length := by simpa using hi
  have hinside := Mem.write_inside ekey 0 _ i hlt
  rw [Nat.zero_add] at hinside
  rw [hinside, List.getElem_ofFn, bytes_u32In]
  exact (keyWord_key key ⟨i, by omega⟩).symm

theorem Scheduled.turn (h : Scheduled key n ekey) (hn : n < 10) :
    Scheduled key (n + 1) (scheduleTurn ekey (4 * n) n) := by
  have hword : ∀ c < 4, bytes (ekey (4 * n + c)) = keyWord key (4 * n + c) :=
    fun c hc => h _ (by omega)
  let ek4 := ekey (4 * n) ^^^ lsBox (rot3 (ekey (4 * n + 3))) ^^^ rndCon.getD n 0
  let ek5 := ekey (4 * n + 1) ^^^ ek4
  let ek6 := ekey (4 * n + 2) ^^^ ek5
  let ek7 := ekey (4 * n + 3) ^^^ ek6
  have hturn : scheduleTurn ekey (4 * n) n = ekey.write (4 * (n + 1)) [ek4, ek5, ek6, ek7] := rfl
  have h4 : bytes ek4 = keyWord key (4 * (n + 1)) := by
    rw [bytes_xor, bytes_xor, bytes_lsBox, bytes_rot3, hword 3 (by decide), bytes_rndCon n hn,
      keyWord_first, xorWord_assoc]
    exact congrArg (xorWord · _) (hword 0 (by decide))
  have h5 : bytes ek5 = keyWord key (4 * (n + 1) + 1) := by
    rw [bytes_xor, hword 1 (by decide), h4]
    exact (keyWord_next key n (c := 0) (by decide)).symm
  have h6 : bytes ek6 = keyWord key (4 * (n + 1) + 2) := by
    rw [bytes_xor, hword 2 (by decide), h5]
    exact (keyWord_next key n (c := 1) (by decide)).symm
  have h7 : bytes ek7 = keyWord key (4 * (n + 1) + 3) := by
    rw [bytes_xor, hword 3 (by decide), h6]
    exact (keyWord_next key n (c := 2) (by decide)).symm
  intro i hi
  rw [hturn]
  by_cases hold : i < 4 * (n + 1)
  · rw [Mem.write_outside _ _ _ _ (Or.inl hold)]
    exact h i hold
  · obtain ⟨c, rfl⟩ := Nat.exists_eq_add_of_le (Nat.le_of_not_lt hold)
    have hc : c < 4 := by omega
    rw [Mem.write_inside _ _ [ek4, ek5, ek6, ek7] c hc]
    interval_cases c
    · exact h4
    · exact h5
    · exact h6
    · exact h7

theorem scheduled_foldl (key : Block) (ekey : Mem UInt32) (hn : n ≤ 10) : Scheduled key n
    ((List.range n).foldl (fun ekey k => scheduleTurn ekey (4 * k) k)
      (ekey.write 0 (List.ofFn fun c => u32In (columns key c)))) := by
  induction n with
  | zero => exact scheduled_key key ekey
  | succ n ih =>
      rw [List.range_succ, List.foldl_append]
      exact (ih (by omega)).turn (by omega)

theorem bytes_fRound (h : Scheduled key 10 ekey) {x : Fin 4 → UInt32} {s : State}
    (hx : ∀ c, bytes (x c) = s c) (hn : n ≤ 10) (c : Fin 4) : bytes (fRound ekey x (4 * n) c) =
      addRoundKey key n (mixColumns (shiftRows (subBytes s))) c := by
  rw [fRound, bytes_xor, bytes_fRnd hx, h _ (by omega)]
  rfl

theorem bytes_rounds (h : Scheduled key 10 ekey) {x : Fin 4 → UInt32} {s : State}
    (hx : ∀ c, bytes (x c) = s c) (hn : n ≤ 9) (c : Fin 4) :
    bytes ((List.range n).foldl (fun b k => fRound ekey b (4 * (k + 1))) x c) =
      rounds key s n c := by
  induction n generalizing c with
  | zero => exact hx c
  | succ n ih =>
      rw [List.range_succ, List.foldl_append]
      exact bytes_fRound h (ih (by omega)) (by omega) c

/-- The cipher is AES-128. -/
theorem rijndaelEncrypt_eq (h : Scheduled key 10 ekey) (input : Block) :
    rijndaelEncrypt ekey input = aes128 key input := by
  have hinput : ∀ c : Fin 4, bytes (u32In (columns input c) ^^^ ekey c) =
      addRoundKey key 0 (columns input) c := by
    intro c
    rw [bytes_xor, bytes_u32In, h c (by omega), addRoundKey, Nat.mul_zero, Nat.zero_add]
  have hrounds := bytes_rounds h hinput (Nat.le_refl 9)
  rw [rijndaelEncrypt, aes128]
  congr 1
  funext c
  rw [bytes_xor, bytes_lfRnd hrounds, h _ (by omega)]
  rfl

end

theorem scheduled_rijndaelKeySchedule (key : Block) (ekey : Mem UInt32) :
    Scheduled key 10 (rijndaelKeySchedule ekey key) :=
  scheduled_foldl key ekey (Nat.le_refl 10)

theorem computeOpc_scheduled (ekey : Mem UInt32) (key op : Block) :
    computeOpc (rijndaelKeySchedule ekey key) op = xorBlock (aes128 key op) op := by
  rw [computeOpc, rijndaelEncrypt_eq (scheduled_rijndaelKeySchedule key ekey)]
  rfl

/-- Whatever `Ekey` held before, `generate_opc` writes the encryption of the operator code under the
key, added to the operator code. -/
theorem generateOpc_eq (ekey : Mem UInt32) (key op : Block) :
    generateOpc ekey key op = xorBlock (aes128 key op) op := by
  rw [generateOpc, computeOpc_scheduled]

end PublicCloudCore.CorekubeDb.Crypto
