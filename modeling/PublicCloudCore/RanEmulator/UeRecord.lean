import PublicCloudCore.Framework.Parsing
import PublicCloudCore.RanEmulator.EnbThreads

/-!
# Setters of `ue.c` in the parsers

A parser stores into the record of a UE. A source is an offset of the message, a target the offset
of the field in the record. The observations of a parser are the offsets at which it looks for an
item.
-/

namespace PublicCloudCore.RanEmulator.UeRecord

open Framework Framework.Parser

abbrev UeParser (β : Type) := Parser UInt8 Nat β

def algorithmsAt : Nat := 36
def mmeS1apIdAt : Nat := 44
def mmeS1apIdLenAt : Nat := 60
def spgwIpAt : Nat := 93
def gtpTeidAt : Nat := 100
def apnNameAt : Nat := 104
def pdnIpAt : Nat := 136
def gutiAt : Nat := 140
def randAt : Nat := 197
def autnAt : Nat := 213
def securityCapabilitiesAt : Nat := 349
def guamiAt : Nat := 353

/-- The size of `mme_s1ap_id`. -/
def mmeS1apIdSize : Nat := 16

/-- `memcpy` of message bytes to a field. -/
def copy (target source n : Nat) : UeParser Unit := do
  let bytes ← block source n
  store target bytes

def setNasSessionSecurityAlgorithms (algs : UInt8) : UeParser Unit := store algorithmsAt [algs]

def setMmeS1apId (source : Nat) (len : UInt8) : UeParser Unit := do
  copy mmeS1apIdAt source len.toNat
  store mmeS1apIdLenAt [len]

def setSpgwIp (source : Nat) : UeParser Unit := copy spgwIpAt source 4

def setGtpTeid (teid : UInt32) : UeParser Unit := store gtpTeidAt (EnbThreads.littleEndian teid)

/-- At most 31 octets of the name, and a zero. -/
def setApnName (source : Nat) (len : UInt8) : UeParser Unit := do
  copy apnNameAt source (min len.toNat 31)
  store (apnNameAt + min len.toNat 31) [0]

def setPdnIp (source : Nat) : UeParser Unit := copy pdnIpAt source 4

def setGuti (source : Nat) : UeParser Unit := copy gutiAt source 10

def setGuami (source : Nat) : UeParser Unit := copy guamiAt source 6

def setSecurityCapabilities (source : Nat) : UeParser Unit := copy securityCapabilitiesAt source 4

/-- `memcpy` to the RAND and the AUTN of `get_auth_challenge(ue)`. -/
def setRand (source : Nat) : UeParser Unit := copy randAt source 16

def setAutn (source : Nat) : UeParser Unit := copy autnAt source 16

/-- Bytes that are only printed. -/
def glance (source n : Nat) : UeParser Unit := do
  let _ ← block source n
  pure ()

def load16 (k : Nat) : UeParser Nat := do
  let high ← load k
  let low ← load (k + 1)
  pure (256 * high.toNat + low.toNat)

def load32 (k : Nat) : UeParser UInt32 := do
  let a ← load k
  let b ← load (k + 1)
  let c ← load (k + 2)
  let d ← load (k + 3)
  pure (a.toUInt32 <<< 24 ||| b.toUInt32 <<< 16 ||| c.toUInt32 <<< 8 ||| d.toUInt32)

section

variable {message m : Mem UInt8} {seen : List Nat} {allowed : Touch UInt8 → Prop}
  {record : Option (Mem UInt8)} {target source n k : Nat}

/-- Two octets of a memory in network order. -/
def word (message : Mem UInt8) (k : Nat) : Nat :=
  256 * (message k).toNat + (message (k + 1)).toNat

def longWord (message : Mem UInt8) (k : Nat) : UInt32 :=
  (message k).toUInt32 <<< 24 ||| (message (k + 1)).toUInt32 <<< 16 |||
    (message (k + 2)).toUInt32 <<< 8 ||| (message (k + 3)).toUInt32

@[simp] theorem yields_copy {post : Unit → Mem UInt8 → List Nat → Prop} :
    Yields message (copy target source n) m seen post ↔
      post () (m.write target (message.read source n)) seen := by
  simp [copy]

@[simp] theorem yields_glance {post : Unit → Mem UInt8 → List Nat → Prop} :
    Yields message (glance source n) m seen post ↔ post () m seen := by
  simp [glance]

@[simp] theorem yields_load16 {post : Nat → Mem UInt8 → List Nat → Prop} :
    Yields message (load16 k) m seen post ↔ post (word message k) m seen := by
  simp [load16, word]

@[simp] theorem yields_load32 {post : UInt32 → Mem UInt8 → List Nat → Prop} :
    Yields message (load32 k) m seen post ↔ post (longWord message k) m seen := by
  simp [load32, longWord]

@[simp] theorem yields_setNasSessionSecurityAlgorithms (algs : UInt8)
    {post : Unit → Mem UInt8 → List Nat → Prop} :
    Yields message (setNasSessionSecurityAlgorithms algs) m seen post ↔
      post () (m.write algorithmsAt [algs]) seen := Iff.rfl

@[simp] theorem yields_setMmeS1apId (len : UInt8) {post : Unit → Mem UInt8 → List Nat → Prop} :
    Yields message (setMmeS1apId source len) m seen post ↔
      post () ((m.write mmeS1apIdAt (message.read source len.toNat)).write mmeS1apIdLenAt [len])
        seen := by
  simp [setMmeS1apId]

@[simp] theorem yields_setGtpTeid (teid : UInt32) {post : Unit → Mem UInt8 → List Nat → Prop} :
    Yields message (setGtpTeid teid) m seen post ↔
      post () (m.write gtpTeidAt (EnbThreads.littleEndian teid)) seen := Iff.rfl

@[simp] theorem yields_setApnName (len : UInt8) {post : Unit → Mem UInt8 → List Nat → Prop} :
    Yields message (setApnName source len) m seen post ↔
      post () ((m.write apnNameAt (message.read source (min len.toNat 31))).write
        (apnNameAt + min len.toNat 31) [0]) seen := by
  simp [setApnName]

@[simp] theorem yieldsNull_copy {post : Unit → List Nat → Prop} :
    ¬ YieldsNull message (copy target source n) seen post := by
  simp [copy]

@[simp] theorem yieldsNull_glance {post : Unit → List Nat → Prop} :
    YieldsNull message (glance source n) seen post ↔ post () seen := by
  simp [glance]

@[simp] theorem yieldsNull_load16 {post : Nat → List Nat → Prop} :
    YieldsNull message (load16 k) seen post ↔ post (word message k) seen := by
  simp [load16, word]

theorem asksAtMost_copy : (copy target source n).AsksAtMost (n + 1) :=
  asksAtMost_block.bind fun _ => asksAtMost_store

theorem asksAtMost_glance : (glance source n).AsksAtMost n :=
  asksAtMost_block.bind_pure

theorem asksAtMost_load16 : (load16 k).AsksAtMost 2 :=
  asksAtMost_load.bind fun _ => asksAtMost_load.bind_pure

theorem asksAtMost_load32 : (load32 k).AsksAtMost 4 :=
  asksAtMost_load.bind fun _ => asksAtMost_load.bind fun _ => asksAtMost_load.bind fun _ =>
    asksAtMost_load.bind_pure

theorem asksAtMost_setMmeS1apId (len : UInt8) : (setMmeS1apId source len).AsksAtMost 257 := by
  have hlen : len.toNat < 256 := len.toNat_lt
  exact (asksAtMost_copy.bind fun _ => asksAtMost_store).mono (by omega)

theorem asksAtMost_setApnName (len : UInt8) : (setApnName source len).AsksAtMost 33 :=
  (asksAtMost_copy.bind fun _ => asksAtMost_store).mono (by omega)

end

/-- What a UE is known by to the core network, and the challenge and algorithms it was given. -/
structure Identity where
  mmeS1apId : List UInt8
  rand : List UInt8
  autn : List UInt8
  algorithms : UInt8
  deriving DecidableEq

def identity (record : Mem UInt8) : Identity where
  mmeS1apId := record.read mmeS1apIdAt (min (record mmeS1apIdLenAt).toNat mmeS1apIdSize)
  rand := record.read randAt 16
  autn := record.read autnAt 16
  algorithms := record algorithmsAt

def IdentityCell (k : Nat) : Prop :=
  k = algorithmsAt ∨ mmeS1apIdAt ≤ k ∧ k ≤ mmeS1apIdLenAt ∨ randAt ≤ k ∧ k < autnAt + 16

section

variable {m m' : Mem UInt8}

theorem identity_congr (h : ∀ k, IdentityCell k → m' k = m k) : identity m' = identity m := by
  have hlen : m' mmeS1apIdLenAt = m mmeS1apIdLenAt := h _ (by simp [IdentityCell, mmeS1apIdAt,
    mmeS1apIdLenAt])
  rw [identity, identity, hlen, h algorithmsAt (Or.inl rfl)]
  congr 1
  · apply Mem.read_congr
    intro k hlo hhi
    exact h k (by simp only [IdentityCell, mmeS1apIdAt, mmeS1apIdLenAt, mmeS1apIdSize] at *; omega)
  · apply Mem.read_congr
    intro k hlo hhi
    exact h k (by simp only [IdentityCell, randAt, autnAt] at *; omega)
  · apply Mem.read_congr
    intro k hlo hhi
    exact h k (by simp only [IdentityCell, randAt, autnAt] at *; omega)

theorem identity_write_challenge {rand autn : List UInt8} (hrand : rand.length = 16)
    (hautn : autn.length = 16) :
    identity ((m.write randAt rand).write autnAt autn) = { identity m with rand, autn } := by
  have hbelow : ∀ k < randAt, ((m.write randAt rand).write autnAt autn) k = m k := by
    intro k hk
    rw [Mem.write_outside _ _ _ _ (Or.inl (by simp only [randAt, autnAt] at *; omega)),
      Mem.write_outside _ _ _ _ (Or.inl hk)]
  have hmme : ∀ n ≤ mmeS1apIdSize, ((m.write randAt rand).write autnAt autn).read mmeS1apIdAt n =
      m.read mmeS1apIdAt n := by
    intro n hn
    apply Mem.read_congr
    intro k hlo hhi
    exact hbelow k (by simp only [mmeS1apIdAt, mmeS1apIdSize, randAt] at *; omega)
  have hrandRead : ((m.write randAt rand).write autnAt autn).read randAt 16 = rand := by
    rw [Mem.read_write_disjoint _ _ _ _ _ (Or.inl (by decide)), ← hrand, Mem.read_write_same]
  have hautnRead : ((m.write randAt rand).write autnAt autn).read autnAt 16 = autn := by
    rw [← hautn, Mem.read_write_same]
  rw [identity, hrandRead, hautnRead, hbelow algorithmsAt (by decide),
    hbelow mmeS1apIdLenAt (by decide), hmme _ (Nat.min_le_right _ _)]
  rfl

theorem identity_write_algorithms (algs : UInt8) :
    identity (m.write algorithmsAt [algs]) = { identity m with algorithms := algs } := by
  have habove : ∀ p n, algorithmsAt < p → (m.write algorithmsAt [algs]).read p n = m.read p n :=
    fun p n hp => Mem.read_write_disjoint _ _ _ _ _ (Or.inr hp)
  have halgs : m.write algorithmsAt [algs] algorithmsAt = algs := by
    simpa using Mem.write_inside m algorithmsAt [algs] 0 (by simp)
  have hlen : m.write algorithmsAt [algs] mmeS1apIdLenAt = m mmeS1apIdLenAt :=
    Mem.write_outside _ _ _ _ (Or.inr (by simp [algorithmsAt, mmeS1apIdLenAt]))
  rw [identity, halgs, hlen, habove _ _ (by decide), habove _ _ (by decide),
    habove _ _ (by decide)]
  rfl

theorem identity_write_mmeS1apId {id : List UInt8} (h : id.length ≤ mmeS1apIdSize) :
    identity ((m.write mmeS1apIdAt id).write mmeS1apIdLenAt [UInt8.ofNat id.length]) =
      { identity m with mmeS1apId := id } := by
  have hbelow : ∀ k < mmeS1apIdAt, ((m.write mmeS1apIdAt id).write mmeS1apIdLenAt
      [UInt8.ofNat id.length]) k = m k := by
    intro k hk
    rw [Mem.write_outside _ _ _ _ (Or.inl (by simp only [mmeS1apIdAt, mmeS1apIdLenAt] at *; omega)),
      Mem.write_outside _ _ _ _ (Or.inl hk)]
  have habove : ∀ p n, mmeS1apIdLenAt < p → ((m.write mmeS1apIdAt id).write mmeS1apIdLenAt
      [UInt8.ofNat id.length]).read p n = m.read p n := by
    intro p n hp
    rw [Mem.read_write_disjoint _ _ _ _ _ (Or.inr hp), Mem.read_write_disjoint _ _ _ _ _ (Or.inr (by
      simp only [mmeS1apIdAt, mmeS1apIdLenAt, mmeS1apIdSize] at *; omega))]
  have hlen : ((m.write mmeS1apIdAt id).write mmeS1apIdLenAt [UInt8.ofNat id.length])
      mmeS1apIdLenAt = UInt8.ofNat id.length := by
    simpa using Mem.write_inside (m.write mmeS1apIdAt id) mmeS1apIdLenAt
      [UInt8.ofNat id.length] 0 (by simp)
  have hmin : min (UInt8.ofNat id.length).toNat mmeS1apIdSize = id.length := by
    simp only [mmeS1apIdSize] at *
    rw [UInt8.toNat_ofNat_of_lt' (by simp [UInt8.size]; omega)]
    omega
  have hread : ((m.write mmeS1apIdAt id).write mmeS1apIdLenAt [UInt8.ofNat id.length]).read
      mmeS1apIdAt id.length = id := by
    rw [Mem.read_write_disjoint _ _ _ _ _ (Or.inl (by
      simp only [mmeS1apIdAt, mmeS1apIdLenAt, mmeS1apIdSize] at *; omega)), Mem.read_write_same]
  rw [identity, hlen, hmin, hread, hbelow algorithmsAt (by decide), habove _ _ (by decide),
    habove _ _ (by decide)]
  rfl

end

section

variable {cells : Nat → Prop} {target source n k : Nat}

theorem leaves_copy (h : ∀ i < n, ¬ cells (target + i)) : (copy target source n).Leaves cells := by
  apply (ensures_block source n).bind
  intro bytes hlen
  apply leaves_store
  intro i hi
  exact h i (by omega)

theorem leaves_glance : (glance source n).Leaves cells :=
  (leaves_block source n).bind fun _ => leaves_pure _

theorem leaves_load16 : (load16 k).Leaves cells :=
  (leaves_load _).bind fun _ => (leaves_load _).bind fun _ => leaves_pure _

theorem leaves_load32 : (load32 k).Leaves cells :=
  (leaves_load _).bind fun _ => (leaves_load _).bind fun _ => (leaves_load _).bind fun _ =>
    (leaves_load _).bind fun _ => leaves_pure _

end

end PublicCloudCore.RanEmulator.UeRecord
