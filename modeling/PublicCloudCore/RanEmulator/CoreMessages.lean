import PublicCloudCore.Framework.ItemMessage

/-!
# What the messages to the core network are built from

The fields of `eNB` and `UE` that the NGAP and S1AP generators read, and the two functions of
`crypto.c` that they call.
-/

namespace PublicCloudCore.RanEmulator.CoreMessages

open Framework

def criticalityReject : UInt8 := 0x00
def criticalityIgnore : UInt8 := 0x40

/-- `(x >> 24) & 0xFF` and the three octets below it; also what `htonl(x)` looks like in memory. -/
def htonl (x : UInt32) : List UInt8 :=
  [(x >>> 24).toUInt8, (x >>> 16).toUInt8, (x >>> 8).toUInt8, x.toUInt8]

@[simp] theorem htonl_length (x : UInt32) : (htonl x).length = 4 := rfl

/-- `(x >> 8) & 0xFF` and `x & 0xFF` of an identifier. -/
def lowHalf (x : UInt32) : List UInt8 := [(x >>> 8).toUInt8, x.toUInt8]

@[simp] theorem lowHalf_length (x : UInt32) : (lowHalf x).length = 2 := rfl

structure ENB where
  enbId : UInt32
  plmn : Vector UInt8 3
deriving Inhabited

structure AuthChallenge where
  rand : Vector UInt8 16
  ck : Vector UInt8 16
  ik : Vector UInt8 16
  res : Vector UInt8 8
  nasKeyInt : Vector UInt8 16
deriving Inhabited

/-- `struct _UE`. `mmeS1apId` is the memory from the array of that name on: the array has 16 cells
and `mmeS1apIdLen` is a `uint8_t` that no reader checks. -/
structure UE where
  id : UInt32
  mcc : Vector UInt8 3
  mnc : Vector UInt8 2
  plmn : Vector UInt8 3
  msin : Vector UInt8 5
  netCapabilities : Vector UInt8 3
  mmeS1apId : Mem UInt8
  mmeS1apIdLen : UInt8
  gtpTeid : UInt32
  guti : Vector UInt8 10
  ueIp : Vector UInt8 4
  nasSequenceNumber : UInt8
  authChallenge : AuthChallenge
  securityCapabilities : Vector UInt8 4
  guami : Vector UInt8 6
deriving Inhabited

namespace UE

/-- `get_mme_s1ap_id` and the copy of as many octets as it says. -/
def getMmeS1apId (ue : UE) : List UInt8 := ue.mmeS1apId.read 0 ue.mmeS1apIdLen.toNat

@[simp] theorem getMmeS1apId_length (ue : UE) :
    ue.getMmeS1apId.length = ue.mmeS1apIdLen.toNat := by
  simp [getMmeS1apId]

/-- Returns the number and counts it up. -/
def getNasSequenceNumber (ue : UE) : UInt8 × UE :=
  (ue.nasSequenceNumber, { ue with nasSequenceNumber := ue.nasSequenceNumber + 1 })

def getMmeCode (ue : UE) : UInt8 := ue.guti[5]

/-- The four octets from `guti + 6` on. -/
def getMTmsi (ue : UE) : List UInt8 := ue.guti.toList.drop 6

@[simp] theorem getMTmsi_length (ue : UE) : ue.getMTmsi.length = 4 := by
  simp [getMTmsi]

end UE

/-- The primitives below `crypto.c`: `CMAC` over AES-128-CBC, and the keyed `sha_256`, which takes
the message first. -/
structure Crypto where
  cmac : Vector UInt8 16 → List UInt8 → Vector UInt8 16
  sha256 : List UInt8 → List UInt8 → Vector UInt8 32

/-- `nas_integrity_eia2` on the octets of the message; the four octets that it stores. -/
def nasIntegrityEia2 (crypto : Crypto) (key : Vector UInt8 16) (message : List UInt8)
    (count : UInt32) (bearer : UInt8) : List UInt8 :=
  (crypto.cmac key (htonl count ++ [bearer <<< 3, 0, 0, 0] ++ message)).toList.take 4

@[simp] theorem nasIntegrityEia2_length (crypto : Crypto) (key : Vector UInt8 16)
    (message : List UInt8) (count : UInt32) (bearer : UInt8) :
    (nasIntegrityEia2 crypto key message count bearer).length = 4 := by
  simp [nasIntegrityEia2]

/-- `"5G:mnc0XX.mccXXX.3gppnetwork.org"` with the digits in their places. -/
def servingNetworkName (mcc : Vector UInt8 3) (mnc : Vector UInt8 2) : List UInt8 :=
  [0x35, 0x47, 0x3a, 0x6d, 0x6e, 0x63, 0x30] ++ mnc.toList ++ [0x2e, 0x6d, 0x63, 0x63] ++
    mcc.toList ++ [0x2e, 0x33, 0x67, 0x70, 0x70, 0x6e, 0x65, 0x74, 0x77, 0x6f, 0x72, 0x6b, 0x2e,
      0x6f, 0x72, 0x67]

/-- `generate_res_5g`; the sixteen octets that it stores. -/
def generateRes5g (crypto : Crypto) (challenge : AuthChallenge) (mcc : Vector UInt8 3)
    (mnc : Vector UInt8 2) : List UInt8 :=
  let input := 0x6B :: servingNetworkName mcc mnc ++ [0x00, 0x20] ++ challenge.rand.toList ++
    [0x00, 0x10] ++ challenge.res.toList ++ [0x00, 0x08]
  (crypto.sha256 input (challenge.ck.toList ++ challenge.ik.toList)).toList.drop 16

@[simp] theorem generateRes5g_length (crypto : Crypto) (challenge : AuthChallenge)
    (mcc : Vector UInt8 3) (mnc : Vector UInt8 2) :
    (generateRes5g crypto challenge mcc mnc).length = 16 := by
  simp [generateRes5g]

end PublicCloudCore.RanEmulator.CoreMessages
