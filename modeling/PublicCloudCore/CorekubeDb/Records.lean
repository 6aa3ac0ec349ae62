import PublicCloudCore.CorekubeDb.Hashmap

/-!
# User and eNB records

`user.c` and `enb.c`. A `UserInfo` is the memory from its first byte on: the handlers copy fixed
lengths out of it, and some of these lengths run past the member they start at, or past the
structure.
-/

namespace PublicCloudCore.CorekubeDb

open Framework

/-! `atoi`, as glibc defines it: `strtol` in base 10, cut down to an `int`. -/

def isSpace (b : UInt8) : Bool := b == 0x20 || (0x09 ≤ b && b ≤ 0x0D)

def isDigit (b : UInt8) : Bool := 0x30 ≤ b && b ≤ 0x39

/-- The number that the leading digits spell; `none` if nothing ends them. -/
def digitsValue : List UInt8 → Nat → Option Nat
  | [], _ => none
  | b :: bs, n => if isDigit b then digitsValue bs (n * 10 + (b.toNat - 0x30)) else some n

/-- `strtol` saturates at the bounds of a 64-bit `long`; `atoi` keeps the low 32 bits. -/
def atoi : List UInt8 → Option UInt32
  | [] => none
  | b :: bs =>
      if isSpace b then atoi bs
      else if b = 0x2D then
        (digitsValue bs 0).map fun n => UInt32.ofInt (-(min n (2 ^ 63) : Nat))
      else if b = 0x2B then
        (digitsValue bs 0).map fun n => UInt32.ofNat (min n (2 ^ 63 - 1))
      else (digitsValue (b :: bs) 0).map fun n => UInt32.ofNat (min n (2 ^ 63 - 1))

private theorem digitsValue_isSome {bs : List UInt8} (h : (0 : UInt8) ∈ bs) (n : Nat) :
    (digitsValue bs n).isSome := by
  induction bs generalizing n with
  | nil => simp at h
  | cons b bs ih =>
      unfold digitsValue
      split
      · next hd =>
        apply ih
        rcases List.mem_cons.mp h with rfl | h
        · simp [isDigit] at hd
        · exact h
      · rfl

theorem atoi_isSome {bs : List UInt8} (h : (0 : UInt8) ∈ bs) : (atoi bs).isSome := by
  induction bs with
  | nil => simp at h
  | cons b bs ih =>
      have htail : b ≠ 0 → (0 : UInt8) ∈ bs := by
        intro hb
        rcases List.mem_cons.mp h with h | h
        · exact absurd h.symm hb
        · exact h
      unfold atoi
      split
      · next hs => exact ih (htail (by rintro rfl; simp [isSpace] at hs))
      split
      · next hb => simp [digitsValue_isSome (htail (by rw [hb]; decide))]
      split
      · next hb => simp [digitsValue_isSome (htail (by rw [hb]; decide))]
      · simp [digitsValue_isSome h]

private theorem digitsValue_append {bs : List UInt8} {n v : Nat} (h : digitsValue bs n = some v)
    (more : List UInt8) : digitsValue (bs ++ more) n = some v := by
  induction bs generalizing n with
  | nil => simp [digitsValue] at h
  | cons b bs ih =>
      simp only [List.cons_append, digitsValue] at h ⊢
      split
      · next hd => rw [if_pos hd] at h; exact ih h
      · next hd => rwa [if_neg hd] at h

theorem atoi_append {bs : List UInt8} {v : UInt32} (h : atoi bs = some v) (more : List UInt8) :
    atoi (bs ++ more) = some v := by
  induction bs with
  | nil => simp [atoi] at h
  | cons b bs ih =>
      simp only [List.cons_append, atoi] at h ⊢
      split
      · next hs => rw [if_pos hs] at h; exact ih h
      next hs =>
      rw [if_neg hs] at h
      split
      · next hb =>
        rw [if_pos hb, Option.map_eq_some_iff] at h
        obtain ⟨n, hn, rfl⟩ := h
        rw [digitsValue_append hn]; rfl
      next hb =>
      rw [if_neg hb] at h
      split
      · next hp =>
        rw [if_pos hp, Option.map_eq_some_iff] at h
        obtain ⟨n, hn, rfl⟩ := h
        rw [digitsValue_append hn]; rfl
      next hp =>
      rw [if_neg hp, Option.map_eq_some_iff] at h
      obtain ⟨n, hn, rfl⟩ := h
      rw [← List.cons_append, digitsValue_append hn]; rfl

/-- The members of `struct _UserInfo`, in order. -/
inductive Field
  | imsi | key | opc | rand | enbUeS1apId | targetEnbUeS1apId | mmeUeS1apId | tmsi | ueTeid
  | epcTeid | spgwIp | enbIp | pdnIpv4 | authRes | encKey | intKey | kasme1 | kasme2
  | epcNasSequenceNumber | ueNasSequenceNumber | nextHopChainingCount | knh1 | knh2
  | enbSourceSocket | enbTargetSocket
  deriving DecidableEq, Repr

namespace Field

def all : List Field :=
  [imsi, key, opc, rand, enbUeS1apId, targetEnbUeS1apId, mmeUeS1apId, tmsi, ueTeid, epcTeid,
    spgwIp, enbIp, pdnIpv4, authRes, encKey, intKey, kasme1, kasme2, epcNasSequenceNumber,
    ueNasSequenceNumber, nextHopChainingCount, knh1, knh2, enbSourceSocket, enbTargetSocket]

def size : Field → Nat
  | imsi => imsiLen
  | key | opc | encKey | intKey | kasme1 | kasme2 | knh1 | knh2 => keyLen
  | rand => randLen
  | enbUeS1apId | targetEnbUeS1apId => enbUeS1apIdLen
  | mmeUeS1apId => mmeUeS1apIdLen
  | tmsi => tmsiLen
  | ueTeid | epcTeid => teidLen
  | spgwIp | enbIp | pdnIpv4 => ipLen
  | authRes => authResLen
  | epcNasSequenceNumber | ueNasSequenceNumber | nextHopChainingCount => 1
  | enbSourceSocket | enbTargetSocket => socketLen

/-- Every member is made of bytes, so the layout has no padding. -/
def offset (f : Field) : Nat := ((all.takeWhile (· ≠ f)).map size).sum

theorem mem_all (f : Field) : f ∈ all := by
  cases f <;> decide

theorem disjoint {f g : Field} (h : f ≠ g) :
    f.offset + f.size ≤ g.offset ∨ g.offset + g.size ≤ f.offset := by
  have key : ∀ f ∈ all, ∀ g ∈ all, f ≠ g →
      f.offset + f.size ≤ g.offset ∨ g.offset + g.size ≤ f.offset := by decide
  exact key f (mem_all f) g (mem_all g) h

theorem rand_ne_imsi : rand ≠ imsi := by decide

theorem epcNasSequenceNumber_ne_imsi : epcNasSequenceNumber ≠ imsi := by decide

theorem ueNasSequenceNumber_ne_imsi : ueNasSequenceNumber ≠ imsi := by decide

theorem nextHopChainingCount_ne_imsi : nextHopChainingCount ≠ imsi := by decide

theorem offset_of_ne_imsi {f : Field} (h : f ≠ imsi) : 16 ≤ f.offset := by
  rcases disjoint h with h | h
  · have : imsi.offset = 0 := rfl
    have : 0 < f.size := by cases f <;> decide
    omega
  · exact h

end Field

def userInfoSize : Nat := (Field.all.map Field.size).sum

theorem Field.end_le (f : Field) : f.offset + f.size ≤ userInfoSize := by
  have key : ∀ f ∈ all, f.offset + f.size ≤ userInfoSize := by decide
  exact key f (mem_all f)

/-- A user record; `set_user_imsi` terminates the IMSI and nothing writes it afterwards. -/
@[ext]
structure UserInfo where
  mem : Mem UInt8
  imsi_terminated : mem 15 = 0

namespace UserInfo

/-- `memcpy` of `n` bytes that starts at a member. -/
def copy (u : UserInfo) (f : Field) (n : Nat) : List UInt8 := u.mem.read f.offset n

def get (u : UserInfo) (f : Field) : List UInt8 := u.copy f f.size

/-- `memcpy` to a member behind the IMSI. -/
def set (u : UserInfo) (f : Field) (hf : f ≠ .imsi) (bs : List UInt8) : UserInfo where
  mem := u.mem.write f.offset bs
  imsi_terminated := by
    rw [Mem.write_outside _ _ _ _ (Or.inl (Field.offset_of_ne_imsi hf))]
    exact u.imsi_terminated

theorem set_outside (u : UserInfo) {f : Field} (hf : f ≠ .imsi) {bs : List UInt8} {i : Nat}
    (h : i < f.offset ∨ f.offset + bs.length ≤ i) : (u.set f hf bs).mem i = u.mem i :=
  Mem.write_outside _ _ _ _ h

@[simp] theorem get_length (u : UserInfo) (f : Field) : (u.get f).length = f.size := by
  simp [get, copy]

theorem get_set_same (u : UserInfo) {f : Field} (hf : f ≠ .imsi) {bs : List UInt8}
    (h : bs.length = f.size) : (u.set f hf bs).get f = bs := by
  simp only [get, copy, set, ← h]
  exact Mem.read_write_same _ _ _

theorem get_set_other (u : UserInfo) {f g : Field} (hf : f ≠ .imsi) (hg : g ≠ f)
    {bs : List UInt8} (h : bs.length ≤ f.size) : (u.set f hf bs).get g = u.get g := by
  apply Mem.read_write_disjoint
  rcases Field.disjoint hg with h | h <;> omega

theorem set_behind (u : UserInfo) {f : Field} (hf : f ≠ .imsi) {bs : List UInt8}
    (h : bs.length ≤ f.size) {i : Nat} (hi : userInfoSize ≤ i) :
    (u.set f hf bs).mem i = u.mem i := by
  have := f.end_le
  exact u.set_outside hf (Or.inr (by omega))

end UserInfo

def getUserMsin (u : UserInfo) : List UInt8 := u.mem.read (Field.imsi.offset + 5) msinLen

def getCounter (u : UserInfo) (f : Field) : UInt8 := u.mem f.offset

def getUserEpcNasSequenceNumber (u : UserInfo) : UInt8 := getCounter u .epcNasSequenceNumber

def setUserEpcNasSequenceNumber (u : UserInfo) (value : UInt8) : UserInfo :=
  u.set .epcNasSequenceNumber Field.epcNasSequenceNumber_ne_imsi [value]

def getUserUeNasSequenceNumber (u : UserInfo) : UInt8 := getCounter u .ueNasSequenceNumber

def setUserUeNasSequenceNumber (u : UserInfo) (value : UInt8) : UserInfo :=
  u.set .ueNasSequenceNumber Field.ueNasSequenceNumber_ne_imsi [value]

def getUserNextHopChainingCount (u : UserInfo) : UInt8 := getCounter u .nextHopChainingCount

def setUserNextHopChainingCount (u : UserInfo) (value : UInt8) : UserInfo :=
  u.set .nextHopChainingCount Field.nextHopChainingCount_ne_imsi [value]

/-- The results that later calls of the process-wide `rand()` will return. -/
abbrev RandStream := Nat → UInt32

def generateRand (u : UserInfo) (rand : RandStream) : UserInfo × RandStream :=
  (u.set .rand Field.rand_ne_imsi
    (uint32ToArray (rand 0) ++ uint32ToArray (rand 1) ++ uint32ToArray (rand 2) ++
      uint32ToArray (rand 3)), fun n => rand (n + 4))

/-- `set_user_imsi` on a structure that `malloc` returned. -/
def setUserImsi (mem : Mem UInt8) (imsi : List UInt8) : UserInfo where
  mem := (mem.write 0 (imsi.take imsiLen)).write 15 [0]
  imsi_terminated := Mem.write_inside _ 15 [0] 0 (by decide)

/-! The keys of the IMSI map. A string that never ends has no key. -/

def hashImsi (imsi : List UInt8) : Option UInt32 := atoi (imsi.drop 6)

def hashMsin (imsi : List UInt8) : Option UInt32 := atoi (imsi.drop 1)

def hashTmsi (tmsi : List UInt8) : UInt32 := arrayToUint32 tmsi

def hashMmeUeS1apId (id : List UInt8) : UInt32 := arrayToUint32 id

def hashImsiUserInfo (u : UserInfo) : UInt32 := (hashImsi (u.get .imsi)).getD 0

/-- The default of `hashImsiUserInfo` is never taken. -/
theorem hashImsi_get_imsi (u : UserInfo) : hashImsi (u.get .imsi) = some (hashImsiUserInfo u) := by
  have hmem : (0 : UInt8) ∈ (u.get .imsi).drop 6 := by
    refine List.mem_iff_getElem.mpr ⟨9, by simp [Field.size, imsiLen], ?_⟩
    simp only [UserInfo.get, UserInfo.copy, List.getElem_drop, Mem.getElem_read]
    exact u.imsi_terminated
  obtain ⟨v, hv⟩ := Option.isSome_iff_exists.mp (atoi_isSome hmem)
  simp [hashImsiUserInfo, hashImsi, hv]

@[ext]
structure ENBInfo where
  enbId : UInt32
  sockNum : List UInt8
  sockNum_length : sockNum.length = 4

/-- `create_enb` copies four bytes from each pointer. -/
def createEnb (enbId sockNum : List UInt8) (h : 4 ≤ sockNum.length) : ENBInfo where
  enbId := arrayToUint32 enbId
  sockNum := sockNum.take 4
  sockNum_length := by simp [h]

def hashEnbInfo (enb : ENBInfo) : UInt32 := enb.enbId

/-- The global state of the server: both maps and the random numbers to come. -/
structure Db where
  imsiMap : HashMap hashImsiUserInfo
  eNBs : HashMap hashEnbInfo
  rand : RandStream

def Db.user? (db : Db) (key : UInt32) : Option UserInfo := hashmapGet db.imsiMap key

/-- A server that `init_db` has left with one user, or with none. -/
def Db.init (user : Option UserInfo) (rand : RandStream) : Db where
  imsiMap := match user with
    | some u => (hashmapAdd (.init 0 0) u).getD (.init 0 0)
    | none => .init 0 0
  eNBs := .init 0 0
  rand

theorem Db.hash_of_user? {db : Db} {key : UInt32} {u : UserInfo} (h : db.user? key = some u) :
    hashImsiUserInfo u = key :=
  hashmapGet_hash h

/-- The subscriber that the runs on concrete stores are about. -/
def subscriber : UserInfo :=
  setUserImsi (fun _ => 0) [48, 48, 49, 48, 49, 48, 48, 48, 48, 48, 48, 48, 48, 48, 49, 0]

end PublicCloudCore.CorekubeDb
