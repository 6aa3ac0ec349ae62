import PublicCloudCore.CorekubeDb.ImsiLookup
import PublicCloudCore.RanEmulator.Ngap
import PublicCloudCore.RanEmulator.S1ap

/-!
# The RAN ids of the UEs

`init_UE` takes the number that the MSIN spells for the id of a UE, and both encoders send the low
half of it. Two UEs have the same id in the core network when their numbers agree modulo `2 ^ 16`.
-/

namespace PublicCloudCore.RanEmulator.CoreMessages

open Framework
open CorekubeDb (atoi atoi_digits decimal decimal_lt isDigit)

def ueDefaultCapabilities : UInt16 := 0x8020

def generatePlmnUE (mcc mnc : Mem UInt8) : Vector UInt8 3 :=
  #v[(mcc 0 - 0x30) <<< 4, (mcc 2 - 0x30) <<< 4 ||| (mcc 1 - 0x30),
    (mnc 1 - 0x30) <<< 4 ||| (mnc 0 - 0x30)]

def generateNetCapabilities (capabilities : UInt16) : Vector UInt8 3 :=
  #v[0x02, (capabilities >>> 8).toUInt8, capabilities.toUInt8]

/-- Two digits in an octet, the first one in the low half. -/
def generateMsin (msinText : Mem UInt8) : Vector UInt8 5 :=
  Vector.ofFn fun i => (msinText (2 * i + 1) - 0x30) <<< 4 ||| (msinText (2 * i) - 0x30)

/-- `ue->id` of `generate_tun_name`; `none` if `atoi` finds no end of the number. -/
def generateTunName (msinString : List UInt8) : Option UInt32 := atoi msinString

/-- `init_UE`, in the block that `GC_malloc` returns. -/
def initUE (block : UE) (mcc mnc msin ueIp : Mem UInt8) : Option UE := do
  let msinString := msin.read 0 16
  let id ← generateTunName msinString
  some { block with
    id := id
    plmn := generatePlmnUE mcc mnc
    msin := generateMsin msin
    netCapabilities := generateNetCapabilities ueDefaultCapabilities
    mmeS1apIdLen := 0
    ueIp := Vector.ofFn fun i => ueIp i
    mcc := Vector.ofFn fun i => mcc i
    mnc := Vector.ofFn fun i => mnc i
    nasSequenceNumber := 0 }

/-- An MSIN of ten digits. -/
structure IsMsin (s : List UInt8) : Prop where
  length : s.length = 10
  digits : s.all isDigit

/-- A UE that `init_UE` makes of an MSIN, which the caller has ended with a NUL. -/
def InitialisedWith (s : List UInt8) (ue : UE) : Prop :=
  ∃ block mcc mnc msin ueIp, msin.read 0 11 = s ++ [0] ∧
    initUE block mcc mnc msin ueIp = some ue

/-- Both encoders tell the UEs apart. -/
def DistinctRanIds (ue ue' : UE) : Prop :=
  Ngap.addProtocolIERANUENGAPID ue ≠ Ngap.addProtocolIERANUENGAPID ue' ∧
    S1ap.generateProtocolIEEnbUeS1apId ue ≠ S1ap.generateProtocolIEEnbUeS1apId ue'

section

variable {s t : List UInt8} {ue ue' : UE}

theorem read_msinString {msin : Mem UInt8} (hmsin : msin.read 0 11 = s ++ [0]) :
    msin.read 0 16 = s ++ 0 :: msin.read 11 5 := by
  rw [Mem.read_add msin 0 11 5, hmsin, List.append_assoc]
  rfl

theorem InitialisedWith.id_eq (h : InitialisedWith s ue) (hs : IsMsin s) :
    ue.id = UInt32.ofNat (decimal s 0) := by
  obtain ⟨block, mcc, mnc, msin, ueIp, hmsin, hinit⟩ := h
  have hne : s ≠ [] := by
    intro hnil
    have hlength := hs.length
    rw [hnil] at hlength
    cases hlength
  have hbound : decimal s 0 < 10 ^ 10 := by
    have hlt := decimal_lt hs.digits 0
    rwa [hs.length, Nat.zero_add, Nat.one_mul] at hlt
  have hid : generateTunName (msin.read 0 16) = some (UInt32.ofNat (decimal s 0)) := by
    rw [generateTunName, read_msinString hmsin, atoi_digits hs.digits hne,
      Nat.min_eq_left (by omega)]
  simp only [initUE, hid, Option.bind_eq_bind, Option.bind_some, Option.some.injEq] at hinit
  rw [← hinit]

theorem exists_initialisedWith (hs : IsMsin s) : ∃ ue, InitialisedWith s ue := by
  let msin := Mem.ofList (s ++ [0]) 0
  have hlength : (s ++ [0]).length = 11 := by simp [hs.length]
  have hmsin : msin.read 0 11 = s ++ [0] := by
    rw [← hlength]
    exact Mem.read_ofList _ _
  have hnul : (0 : UInt8) ∈ msin.read 0 16 := by simp [read_msinString hmsin]
  have hatoi : (atoi (msin.read 0 16)).isSome := CorekubeDb.atoi_isSome hnul
  obtain ⟨id, hid⟩ := Option.isSome_iff_exists.mp hatoi
  have hinit : ∃ ue, initUE default (fun _ => 0) (fun _ => 0) msin (fun _ => 0) = some ue := by
    simp [initUE, generateTunName, hid]
  obtain ⟨ue, hinit⟩ := hinit
  exact ⟨ue, default, _, _, msin, _, hmsin, hinit⟩

/-- The two octets of an id are its number modulo `2 ^ 16`. -/
theorem lowHalf_eq_iff (n m : Nat) :
    lowHalf (UInt32.ofNat n) = lowHalf (UInt32.ofNat m) ↔ n % 65536 = m % 65536 := by
  have hhigh : ∀ k : Nat, (UInt32.ofNat k >>> 8).toUInt8.toNat = k / 256 % 256 := by
    intro k
    simp only [UInt32.toNat_toUInt8, UInt32.toNat_shiftRight, UInt32.toNat_ofNat',
      Nat.shiftRight_eq_div_pow]
    have hshift : (8 : UInt32).toNat % 32 = 8 := rfl
    rw [hshift]
    omega
  have hlow : ∀ k : Nat, (UInt32.ofNat k).toUInt8.toNat = k % 256 := by
    intro k
    simp only [UInt32.toNat_toUInt8, UInt32.toNat_ofNat']
    omega
  simp only [lowHalf, List.cons.injEq, and_true, ← UInt8.toNat_inj, hhigh, hlow]
  omega

theorem addProtocolIERANUENGAPID_inj : Ngap.addProtocolIERANUENGAPID ue =
    Ngap.addProtocolIERANUENGAPID ue' ↔ lowHalf ue.id = lowHalf ue'.id := by
  simp [Ngap.addProtocolIERANUENGAPID]

theorem generateProtocolIEEnbUeS1apId_inj : S1ap.generateProtocolIEEnbUeS1apId ue =
    S1ap.generateProtocolIEEnbUeS1apId ue' ↔ lowHalf ue.id = lowHalf ue'.id := by
  simp [S1ap.generateProtocolIEEnbUeS1apId, S1ap.plainIE, S1ap.generateS1apValue, lowHalf]

/-- The ids of two UEs differ exactly when their MSINs do modulo `2 ^ 16`. -/
theorem distinctRanIds_iff (hs : IsMsin s) (ht : IsMsin t) (hue : InitialisedWith s ue)
    (hue' : InitialisedWith t ue') :
    DistinctRanIds ue ue' ↔ decimal s 0 % 65536 ≠ decimal t 0 % 65536 := by
  rw [DistinctRanIds, Ne, addProtocolIERANUENGAPID_inj, Ne, generateProtocolIEEnbUeS1apId_inj,
    and_self, hue.id_eq hs, hue'.id_eq ht, lowHalf_eq_iff]

/-- The MSINs 0000000001 and 0000000002. -/
theorem distinctRanIds_one_two :
    let one := List.replicate 9 0x30 ++ [0x31]
    let two := List.replicate 9 0x30 ++ [0x32]
    ∃ ue ue', InitialisedWith one ue ∧ InitialisedWith two ue' ∧ DistinctRanIds ue ue' := by
  intro one two
  have hone : IsMsin one := ⟨rfl, by decide⟩
  have htwo : IsMsin two := ⟨rfl, by decide⟩
  obtain ⟨ue, hue⟩ := exists_initialisedWith hone
  obtain ⟨ue', hue'⟩ := exists_initialisedWith htwo
  exact ⟨ue, ue', hue, hue', (distinctRanIds_iff hone htwo hue hue').mpr (by decide)⟩

/-- The MSINs 0000000000 and 0000065536 have one id. -/
theorem not_distinctRanIds : ¬∀ (s t : List UInt8) (ue ue' : UE), IsMsin s → IsMsin t → s ≠ t →
    InitialisedWith s ue → InitialisedWith t ue' → DistinctRanIds ue ue' := by
  intro h
  let s : List UInt8 := List.replicate 10 0x30
  let t : List UInt8 := List.replicate 5 0x30 ++ [0x36, 0x35, 0x35, 0x33, 0x36]
  have hs : IsMsin s := ⟨rfl, by decide⟩
  have ht : IsMsin t := ⟨rfl, by decide⟩
  obtain ⟨ue, hue⟩ := exists_initialisedWith hs
  obtain ⟨ue', hue'⟩ := exists_initialisedWith ht
  have hdistinct := (h s t ue ue' hs ht (by decide) hue hue').1
  refine hdistinct (addProtocolIERANUENGAPID_inj.mpr ?_)
  rw [hue.id_eq hs, hue'.id_eq ht, lowHalf_eq_iff]
  decide

end

end PublicCloudCore.RanEmulator.CoreMessages
