import PublicCloudCore.Framework.Memory

/-!
# The item codes of the database protocol

`api.h` of the database and `libck.h` of its clients declare the same enumeration. An item
travels as one byte, so every `switch` over items first decodes that byte.
-/

namespace PublicCloudCore.CorekubeDb

inductive ItemType
  | eom | imsi | msin | tmsi | enbUeS1apId | ueTeid | spgwIp | enbIp | pdnIp
  | ueNasSequenceNumber | epcNasSequenceNumber | ueNasSequenceNumberNoInc
  | key | opc | rand | randUpdate | mmeUeS1apId | epcTeid | authRes | encKey | intKey
  | kasme1 | kasme2 | newEnb | getEnb | knh1 | knh2 | targetEnbUeS1apId
  | nextHopChainingCount | enbSourceSocket | enbTargetSocket
  deriving DecidableEq, Repr

namespace ItemType

def all : List ItemType :=
  [eom, imsi, msin, tmsi, enbUeS1apId, ueTeid, spgwIp, enbIp, pdnIp, ueNasSequenceNumber,
    epcNasSequenceNumber, ueNasSequenceNumberNoInc, key, opc, rand, randUpdate, mmeUeS1apId,
    epcTeid, authRes, encKey, intKey, kasme1, kasme2, newEnb, getEnb, knh1, knh2,
    targetEnbUeS1apId, nextHopChainingCount, enbSourceSocket, enbTargetSocket]

def code : ItemType → UInt8
  | eom => 0x01
  | imsi => 0x02
  | msin => 0x03
  | tmsi => 0x04
  | enbUeS1apId => 0x05
  | ueTeid => 0x06
  | spgwIp => 0x07
  | enbIp => 0x08
  | pdnIp => 0x09
  | ueNasSequenceNumber => 0x0A
  | epcNasSequenceNumber => 0x0B
  | ueNasSequenceNumberNoInc => 0x0C
  | key => 0x0D
  | opc => 0x0E
  | rand => 0x0F
  | randUpdate => 0x10
  | mmeUeS1apId => 0x11
  | epcTeid => 0x12
  | authRes => 0x13
  | encKey => 0x14
  | intKey => 0x15
  | kasme1 => 0x16
  | kasme2 => 0x17
  | newEnb => 0x18
  | getEnb => 0x19
  | knh1 => 0x1A
  | knh2 => 0x1B
  | targetEnbUeS1apId => 0x1C
  | nextHopChainingCount => 0x1D
  | enbSourceSocket => 0x1E
  | enbTargetSocket => 0x1F

theorem mem_all (t : ItemType) : t ∈ all := by
  cases t <;> decide

/-- The label a `switch` jumps to on this byte; `none` is its default branch. -/
def ofCode (b : UInt8) : Option ItemType := all.find? fun t => t.code == b

@[simp] theorem ofCode_code (t : ItemType) : ofCode t.code = some t := by
  cases t <;> rfl

theorem code_of_ofCode {b : UInt8} {t : ItemType} (h : ofCode b = some t) : t.code = b := by
  simpa using List.find?_some h

theorem code_injective : Function.Injective code := by
  intro s t h
  have := ofCode_code s
  rw [h, ofCode_code] at this
  exact (Option.some.inj this).symm

theorem ofCode_eq_some_iff {b : UInt8} {t : ItemType} : ofCode b = some t ↔ b = t.code :=
  ⟨fun h => (code_of_ofCode h).symm, fun h => h ▸ ofCode_code t⟩

theorem code_ne_zero (t : ItemType) : t.code ≠ 0 := by
  cases t <;> decide

end ItemType

/-! Lengths of the values, the same in `user.h` and `libck.h`. -/

def imsiLen : Nat := 16
def msinLen : Nat := 11
def keyLen : Nat := 16
def enbUeS1apIdLen : Nat := 4
def mmeUeS1apIdLen : Nat := 4
def ipLen : Nat := 4
def tmsiLen : Nat := 4
def teidLen : Nat := 4
def randLen : Nat := 16
def authResLen : Nat := 8
def socketLen : Nat := 4

/-- `BUFFER_LEN`: the size of the request and of the response array of a connection. -/
def bufferLen : Nat := 1024

/-! `UINT32_TO_ARRAY` and `ARRAY_TO_UINT32`: big-endian words. -/

def uint32ToArray (u : UInt32) : List UInt8 :=
  [(u >>> 24).toUInt8, (u >>> 16).toUInt8, (u >>> 8).toUInt8, u.toUInt8]

def arrayToUint32 (a : List UInt8) : UInt32 :=
  ((a.getD 0 0).toUInt32 <<< 24) ||| ((a.getD 1 0).toUInt32 <<< 16) |||
    ((a.getD 2 0).toUInt32 <<< 8) ||| (a.getD 3 0).toUInt32

@[simp] theorem uint32ToArray_length (u : UInt32) : (uint32ToArray u).length = 4 := rfl

private theorem bitVec_of_bytes (w : BitVec 32) :
    ((w >>> 24).setWidth 8).setWidth 32 <<< 24 ||| ((w >>> 16).setWidth 8).setWidth 32 <<< 16 |||
      ((w >>> 8).setWidth 8).setWidth 32 <<< 8 ||| (w.setWidth 8).setWidth 32 = w := by
  apply BitVec.eq_of_getLsbD_eq
  intro i hi
  simp only [BitVec.getLsbD_or, BitVec.getLsbD_shiftLeft, BitVec.getLsbD_setWidth,
    BitVec.getLsbD_ushiftRight]
  by_cases h8 : i < 8
  · grind
  by_cases h16 : i < 16
  · grind
  by_cases h24 : i < 24
  · grind
  · grind

theorem arrayToUint32_uint32ToArray (u : UInt32) : arrayToUint32 (uint32ToArray u) = u := by
  apply UInt32.toBitVec_inj.mp
  exact bitVec_of_bytes u.toBitVec

end PublicCloudCore.CorekubeDb
