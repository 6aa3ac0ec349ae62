import PublicCloudCore.RanEmulator.CoreMessages

/-!
# S1AP generators

The encoders of `s1ap.c`. An item is a `ProtocolIE`, whose value starts with its own length; the
items of a message are copied one behind the other into the `items` of a structure that also holds
their number; the message puts the length of the encoded structure in front of it. Each structure
and its `_to_buffer` has the same fields, so one definition stands for all of them.
-/

namespace PublicCloudCore.RanEmulator.CoreMessages.S1ap

open Framework

def s1Setup : UInt16 := 0x0011
def globalEnbId : UInt16 := 0x003B
def enbName : UInt16 := 0x003C
def supportedTas : UInt16 := 0x0040
def defaultPagingDrx : UInt16 := 0x0089
def pagingDrx : UInt8 := 0x40
def idUeSecurityCapabilities : UInt16 := 0x006b
def idCause : UInt16 := 0x0002
def idTai : UInt16 := 0x0043
def idEutranCgi : UInt16 := 0x0064
def idRrcEstablishmentCause : UInt16 := 0x0086
def idUeRadioCapability : UInt16 := 0x004a
def idERabSetupListCTxtSuRes : UInt16 := 0x0033
def idERabSetupItemCTxtSuRes : UInt16 := 0x0032
def idERabToBeSwitchedDlList : UInt16 := 0x0016
def idERabToBeSwitchedDlItem : UInt16 := 0x0017
def idMmeUeS1apIe : UInt16 := 0x0000
def idEnbUeS1apId : UInt16 := 0x0008
def idSTmsi : UInt16 := 0x0060
def idSourceMmeUeS1apId : UInt16 := 0x0058
def idPathSwitchRequest : UInt16 := 0x0003

def initialUeMessage : UInt16 := 0x000C
def idNasPdu : UInt16 := 0x001A
def nasSecurityHeaderType : UInt8 := 0x00
def nasSecurityHeaderTypeIntProtected : UInt8 := 0x40
def nasSecurityHeaderTypeIntCiphProtected : UInt8 := 0x20
def nasSecurityHeaderTypeServiceRequest : UInt8 := 0xC0
def nasProtocolDiscriminator : UInt8 := 0x07
def nasEpsMmmType : UInt8 := 0x41
def nasEpsMmmTypeAuthenticationResponse : UInt8 := 0x53
def nasEpsMmmTypeSecurityCommandComplete : UInt8 := 0x5e
def nasEpsMmmTypeAttachComplete : UInt8 := 0x43
def nasEpsMmmTypeDetach : UInt8 := 0x45
def epsMobilityIdentityFlags : UInt8 := 0x09
def resLength : UInt8 := 8
def moSignalling : UInt8 := 0x30
def moData : UInt8 := 0x40
def authenticationResponseId : UInt16 := 0x000d
def securityCommandCompleteId : UInt16 := 0x000d
def uplinkNasTransport : UInt16 := 0x000D
def ueCapabilityInfoIndication : UInt16 := 0x16
def initialContextSetup : UInt16 := 0x09
def ueContextReleaseRequest : UInt16 := 0x12
def successfulOutcome : UInt16 := 0x20
def ueContextReleaseResponse : UInt16 := 0x17

/-- `x >> 8` and `x & 0xFF`. -/
def halves (x : UInt16) : List UInt8 := [(x >>> 8).toUInt8, x.toUInt8]

@[simp] theorem halves_length (x : UInt16) : (halves x).length = 2 := rfl

theorem toNat_halves (x : UInt16) :
    256 * (x >>> 8).toUInt8.toNat + x.toUInt8.toNat = x.toNat := by
  have hx := x.toNat_lt
  simp [Nat.shiftRight_eq_div_pow]
  omega

structure ProtocolIE where
  id : UInt16
  criticality : UInt8
  value : List UInt8
  valueLen : UInt8

/-- `ie->criticality = criticality` on a finished item. -/
def ProtocolIE.withCriticality (ie : ProtocolIE) (criticality : UInt8) : ProtocolIE :=
  { ie with criticality := criticality }

/-- `ProtocolIE_to_buffer`: the octets and `*len`. -/
def ProtocolIE.toBuffer (ie : ProtocolIE) : Mem.Block UInt8 :=
  (halves ie.id ++ ie.criticality :: ie.value.take ie.valueLen.toNat, 3 + ie.valueLen.toNat)

def generateS1apValue (content : List UInt8) (len : UInt8) : List UInt8 :=
  len :: content.take len.toNat

/-- The common end of the item generators: `generate_s1ap_value` on a structure of that size. -/
def plainIE (id : UInt16) (criticality : UInt8) (content : List UInt8) (size : UInt8) :
    ProtocolIE where
  id := id
  criticality := criticality
  value := (generateS1apValue content size).take (size.toNat + 1)
  valueLen := size + 1

def encapsulatedIE (id : UInt16) (criticality : UInt8) (content : List UInt8) (size : UInt8) :
    ProtocolIE where
  id := id
  criticality := criticality
  value := (generateS1apValue (generateS1apValue content size) (size + 1)).take (size.toNat + 2)
  valueLen := size + 2

/-- `S1SetupRequest`, `InitialUEMessage`, `Authentication_Response` and so on. -/
structure ItemList where
  init : UInt8
  numItems : UInt16
  items : List UInt8
  itemsLen : UInt16

def itemList (init : UInt8) (numItems : UInt16) (ies : List ProtocolIE) : ItemList :=
  let filled := (Cursor.start fun _ => 0).putAll (ies.map ProtocolIE.toBuffer)
  ⟨init, numItems, filled.written, UInt16.ofNat filled.offset⟩

/-- `S1SetupRequest_to_buffer` and its copies: the octets and `*len`. -/
def ItemList.toBuffer (list : ItemList) : List UInt8 × UInt16 :=
  (list.init :: (halves list.numItems ++ list.items.take list.itemsLen.toNat), 3 + list.itemsLen)

structure S1apInitiatingMessage where
  procedureCode : UInt16
  criticality : UInt8
  value : List UInt8
  valueLen : UInt16

def initiatingMessage (procedureCode : UInt16) (criticality : UInt8) (list : ItemList) :
    S1apInitiatingMessage :=
  let (buffer, len) := list.toBuffer
  ⟨procedureCode, criticality, len.toUInt8 :: buffer.take len.toNat, len + 1⟩

/-- `s1ap_initiatingMessage_to_buffer`: the octets and `*len`. -/
def S1apInitiatingMessage.toBuffer (message : S1apInitiatingMessage) : List UInt8 × UInt16 :=
  (halves message.procedureCode ++ message.criticality ::
    message.value.take message.valueLen.toNat, 3 + message.valueLen)

def generateProtocolIEDefaultPagingDrx : ProtocolIE :=
  plainIE defaultPagingDrx criticalityIgnore [pagingDrx] 1

def generateProtocolIESupportedTas (enb : ENB) : ProtocolIE :=
  plainIE supportedTas criticalityReject ([0x00, 0x00, 0x00, 0x40] ++ enb.plmn.toList) 7

def generateProtocolIEEnbName : ProtocolIE :=
  plainIE enbName criticalityIgnore [0x07, 0x00, 0x4e, 0x65, 0x72, 0x76, 0x69, 0x6f, 0x6e, 0x5f,
    0x65, 0x2d, 0x4e, 0x6f, 0x64, 0x65, 0x42] 17

def generateProtocolIEGlobalEnbId (enb : ENB) : ProtocolIE :=
  plainIE globalEnbId criticalityReject (0 :: (enb.plmn.toList ++ htonl enb.enbId)) 8

def generateProtocolIEEnbUeS1apId (ue : UE) : ProtocolIE :=
  plainIE idEnbUeS1apId criticalityReject (0x40 :: lowHalf ue.id) 3

def generateProtocolIEMmeUeS1apId (ue : UE) : ProtocolIE :=
  plainIE idMmeUeS1apIe criticalityReject ue.getMmeS1apId ue.mmeS1apIdLen

def generateSourceMmeUeS1apId (ue : UE) : ProtocolIE :=
  plainIE idSourceMmeUeS1apId criticalityReject ue.getMmeS1apId ue.mmeS1apIdLen

def generateProtocolIETai (enb : ENB) : ProtocolIE :=
  plainIE idTai criticalityReject (0 :: (enb.plmn.toList ++ [0x00, 0x01])) 6

def generateProtocolIEEutranCgi (enb : ENB) : ProtocolIE :=
  plainIE idEutranCgi criticalityIgnore (0 :: (enb.plmn.toList ++ htonl enb.enbId)) 8

def generateProtocolIERrcEstablishmentCause (cause : UInt8) : ProtocolIE :=
  plainIE idRrcEstablishmentCause criticalityIgnore [cause] 1

def generateProtocolIECause : ProtocolIE := ⟨idCause, criticalityIgnore, [2, 0, 0], 3⟩

def generateProtocolIESTmsi (ue : UE) : ProtocolIE :=
  let mmec : UInt16 := ue.getMmeCode.toUInt16 <<< 6
  ⟨idSTmsi, criticalityReject, 6 :: (halves mmec ++ ue.getMTmsi), 7⟩

def generateProtocolIESecurityCapabilities (ue : UE) : ProtocolIE :=
  ⟨idUeSecurityCapabilities, criticalityReject, 5 :: (ue.securityCapabilities.toList ++ [0]), 6⟩

/-- `non_access_stratum_pdu`: the attach request with its message container. -/
def nonAccessStratumPdu (ue : UE) : List UInt8 :=
  [nasSecurityHeaderType ||| nasProtocolDiscriminator, nasEpsMmmType, 0x71, 0x08] ++
    (ue.plmn.toList.modify 0 (· ||| epsMobilityIdentityFlags) ++ ue.msin.toList) ++
    ue.netCapabilities.toList ++
    [0x00, 0x20, 0x02, 0x01, 0xD0, 0x11, 0x27, 0x1a, 0x80] ++ [0x80, 0x21, 0x10] ++
    [0x01, 0x00, 0x00, 0x10] ++ [0x81, 0x06, 0, 0, 0, 0] ++ [0x83, 0x06, 0, 0, 0, 0] ++
    [0x00, 0x0d, 0x00] ++ [0x00, 0x0a, 0x00]

def generateProtocolIENasPdu (ue : UE) : ProtocolIE :=
  encapsulatedIE idNasPdu criticalityReject (nonAccessStratumPdu ue) 49

def generateProtocolIENasPduAuthResponse (challenge : AuthChallenge) : ProtocolIE :=
  encapsulatedIE idNasPdu criticalityReject
    ([nasSecurityHeaderType ||| nasProtocolDiscriminator, nasEpsMmmTypeAuthenticationResponse,
      resLength] ++ challenge.res.toList) 11

/-- A NAS message behind an authentication code over `macLength` octets from the sequence number
on, with bearer 0. -/
def protectedNasPdu (crypto : Crypto) (ue : UE) (challenge : AuthChallenge)
    (securityHeader mmmType : UInt8) (content : List UInt8) (macLength : Nat) (count : UInt32)
    (size : UInt8) : ProtocolIE × UE :=
  let (sequenceNumber, ue') := ue.getNasSequenceNumber
  let message := [sequenceNumber, nasSecurityHeaderType ||| nasProtocolDiscriminator, mmmType] ++
    content
  let mac := nasIntegrityEia2 crypto challenge.nasKeyInt (message.take macLength) count 0
  (encapsulatedIE idNasPdu criticalityReject
    ([securityHeader ||| nasProtocolDiscriminator] ++ mac ++ message) size, ue')

def generateProtocolIENasPduSecurityCommandComplete (crypto : Crypto) (ue : UE)
    (challenge : AuthChallenge) : ProtocolIE × UE :=
  protectedNasPdu crypto ue challenge nasSecurityHeaderTypeIntProtected
    nasEpsMmmTypeSecurityCommandComplete [] 3 0 8

def generateProtocolIENasPduAttachComplete (crypto : Crypto) (ue : UE)
    (challenge : AuthChallenge) : ProtocolIE × UE :=
  protectedNasPdu crypto ue challenge nasSecurityHeaderTypeIntCiphProtected
    nasEpsMmmTypeAttachComplete [0x00, 0x03, 0x52, 0x00, 0xc2] 8 1 13

def generateProtocolIENasPduDetach (crypto : Crypto) (ue : UE) (challenge : AuthChallenge)
    (switchOff : UInt8) : ProtocolIE × UE :=
  protectedNasPdu crypto ue challenge nasSecurityHeaderTypeIntCiphProtected nasEpsMmmTypeDetach
    ([if switchOff ≠ 0 then 0x01 ||| 0x08 else 0x01, 0x0B, 0xF6] ++ ue.guti.toList) 16 1 21

/-- The code covers the two octets before it, and only its last two octets are sent. -/
def generateProtocolIENasPduServiceRequest (crypto : Crypto) (ue : UE)
    (challenge : AuthChallenge) : ProtocolIE × UE :=
  let (sequenceNumber, ue') := ue.getNasSequenceNumber
  let start := [nasSecurityHeaderTypeServiceRequest ||| nasProtocolDiscriminator,
    (0 &&& 0xE0) ||| (sequenceNumber &&& 0x1F)]
  let mac := nasIntegrityEia2 crypto challenge.nasKeyInt start 2 0
  (encapsulatedIE idNasPdu criticalityReject (start ++ mac.drop 2) 4, ue')

def generateProtocolIEUeCapabilityInfoIndication : ProtocolIE :=
  encapsulatedIE idUeRadioCapability criticalityReject [0x00, 0x94, 0x01, 0x00, 0xf0, 0x18, 0x00,
    0x03, 0x08, 0x98, 0x64, 0xa0, 0xc1, 0xb8, 0x3b, 0x07, 0xa0, 0xf8, 0x00, 0x00] 20

/-- The one item of an E-RAB list: a preface, the identifier and the criticality, and ten octets,
of which the first two are the `uint16_t` `0x1f0a` as it lies in memory. -/
def eRabToBuffer (id : UInt16) (criticality : UInt8) (address : Vector UInt8 4) (teid : UInt32) :
    List UInt8 :=
  0x00 :: (halves id ++ [criticality, 0x0A] ++ ([0x0a, 0x1f] ++ address.toList ++ htonl teid))

def generateProtocolIEERabSetupListCTxtSuRes (ue : UE) (ueIp : Vector UInt8 4) : ProtocolIE :=
  plainIE idERabSetupListCTxtSuRes criticalityIgnore
    (eRabToBuffer idERabSetupItemCTxtSuRes criticalityIgnore ueIp ue.gtpTeid) 15

def generateProtocolIEERabToBeSwitchedDlList (ue : UE) : ProtocolIE :=
  plainIE idERabToBeSwitchedDlList criticalityReject
    (eRabToBuffer idERabToBeSwitchedDlItem criticalityReject ue.ueIp ue.gtpTeid) 15

def generateS1SetupRequest (enb : ENB) : ItemList :=
  itemList 0x00 0x0004 [generateProtocolIEGlobalEnbId enb, generateProtocolIEEnbName,
    generateProtocolIESupportedTas enb, generateProtocolIEDefaultPagingDrx]

def generateS1apInitiatingMessage (enb : ENB) : S1apInitiatingMessage :=
  initiatingMessage s1Setup criticalityReject (generateS1SetupRequest enb)

def generateInitialUEMessage (enb : ENB) (ue : UE) : ItemList :=
  itemList 0x00 0x0005 [generateProtocolIEEnbUeS1apId ue, generateProtocolIENasPdu ue,
    generateProtocolIETai enb, generateProtocolIEEutranCgi enb,
    generateProtocolIERrcEstablishmentCause moSignalling]

def generateInitiatingMessage (enb : ENB) (ue : UE) : S1apInitiatingMessage :=
  initiatingMessage initialUeMessage criticalityIgnore (generateInitialUEMessage enb ue)

def generateAuthenticationResponse (enb : ENB) (ue : UE) (challenge : AuthChallenge) : ItemList :=
  itemList 0x00 0x0005 [generateProtocolIEMmeUeS1apId ue, generateProtocolIEEnbUeS1apId ue,
    generateProtocolIENasPduAuthResponse challenge, generateProtocolIEEutranCgi enb,
    (generateProtocolIETai enb).withCriticality criticalityIgnore]

def generateS1APAuthenticationResponse (enb : ENB) (ue : UE) (challenge : AuthChallenge) :
    S1apInitiatingMessage :=
  initiatingMessage authenticationResponseId criticalityIgnore
    (generateAuthenticationResponse enb ue challenge)

def generateSecurityCommandComplete (crypto : Crypto) (enb : ENB) (ue : UE)
    (challenge : AuthChallenge) : ItemList × UE :=
  let (nasPdu, ue') := generateProtocolIENasPduSecurityCommandComplete crypto ue challenge
  (itemList 0x00 0x0005 [generateProtocolIEMmeUeS1apId ue, generateProtocolIEEnbUeS1apId ue,
    nasPdu, generateProtocolIEEutranCgi enb, (generateProtocolIETai enb).withCriticality criticalityIgnore], ue')

def generateS1APSecurityCommandComplete (crypto : Crypto) (enb : ENB) (ue : UE)
    (challenge : AuthChallenge) : S1apInitiatingMessage × UE :=
  let (scc, ue') := generateSecurityCommandComplete crypto enb ue challenge
  (initiatingMessage securityCommandCompleteId criticalityIgnore scc, ue')

def generateUplinkNASTransport (crypto : Crypto) (enb : ENB) (ue : UE)
    (challenge : AuthChallenge) : ItemList × UE :=
  let (nasPdu, ue') := generateProtocolIENasPduAttachComplete crypto ue challenge
  (itemList 0x00 0x0005 [generateProtocolIEMmeUeS1apId ue, generateProtocolIEEnbUeS1apId ue,
    nasPdu, generateProtocolIEEutranCgi enb, (generateProtocolIETai enb).withCriticality criticalityIgnore], ue')

def generateS1APAttachComplete (crypto : Crypto) (enb : ENB) (ue : UE)
    (challenge : AuthChallenge) : S1apInitiatingMessage × UE :=
  let (uplinkNAST, ue') := generateUplinkNASTransport crypto enb ue challenge
  (initiatingMessage uplinkNasTransport criticalityIgnore uplinkNAST, ue')

def generateUeCapabilityInfoIndication (ue : UE) : ItemList :=
  itemList 0x00 0x0003 [generateProtocolIEMmeUeS1apId ue, generateProtocolIEEnbUeS1apId ue,
    generateProtocolIEUeCapabilityInfoIndication]

def generateS1APUeCapabilityInfoIndication (ue : UE) : S1apInitiatingMessage :=
  initiatingMessage ueCapabilityInfoIndication criticalityIgnore
    (generateUeCapabilityInfoIndication ue)

def generateInitialContextSetupResponse (ue : UE) (ueIp : Vector UInt8 4) : ItemList :=
  itemList 0x00 0x0003 [
    (generateProtocolIEMmeUeS1apId ue).withCriticality criticalityIgnore,
    (generateProtocolIEEnbUeS1apId ue).withCriticality criticalityIgnore,
    generateProtocolIEERabSetupListCTxtSuRes ue ueIp]

def generateS1APInitialContextSetupResponse (ue : UE) (ueIp : Vector UInt8 4) :
    S1apInitiatingMessage :=
  initiatingMessage initialContextSetup criticalityReject
    (generateInitialContextSetupResponse ue ueIp)

def generateUeContextReleaseRequest (ue : UE) : ItemList :=
  itemList 0x00 0x0003 [
    (generateProtocolIEMmeUeS1apId ue).withCriticality criticalityReject,
    (generateProtocolIEEnbUeS1apId ue).withCriticality criticalityReject,
    generateProtocolIECause.withCriticality criticalityIgnore]

/-- `generate_UE_Context_Release_Request` -/
def generateUEContextReleaseRequestMessage (ue : UE) : S1apInitiatingMessage :=
  initiatingMessage ueContextReleaseRequest criticalityIgnore (generateUeContextReleaseRequest ue)

def generateUeContextReleaseResponse (ue : UE) : ItemList :=
  itemList 0x20 0x0002 [
    (generateProtocolIEMmeUeS1apId ue).withCriticality criticalityReject,
    (generateProtocolIEEnbUeS1apId ue).withCriticality criticalityReject]

/-- `generate_UE_Context_Release_Response` -/
def generateUEContextReleaseResponseMessage (ue : UE) : S1apInitiatingMessage :=
  initiatingMessage ((successfulOutcome <<< 8) ||| ueContextReleaseResponse) criticalityReject
    (generateUeContextReleaseResponse ue)

def generateUeDetach (crypto : Crypto) (enb : ENB) (ue : UE) (challenge : AuthChallenge)
    (switchOff : UInt8) : ItemList × UE :=
  let (nasPdu, ue') := generateProtocolIENasPduDetach crypto ue challenge switchOff
  (itemList 0x00 0x0005 [generateProtocolIEMmeUeS1apId ue, generateProtocolIEEnbUeS1apId ue,
    nasPdu, generateProtocolIEEutranCgi enb, generateProtocolIETai enb], ue')

def generateS1apUEDetach (crypto : Crypto) (enb : ENB) (ue : UE) (challenge : AuthChallenge)
    (switchOff : UInt8) : S1apInitiatingMessage × UE :=
  let (ueD, ue') := generateUeDetach crypto enb ue challenge switchOff
  (initiatingMessage uplinkNasTransport criticalityIgnore ueD, ue')

def generateInitialUEMessageServiceRequest (crypto : Crypto) (enb : ENB) (ue : UE)
    (challenge : AuthChallenge) : ItemList × UE :=
  let (nasPdu, ue') := generateProtocolIENasPduServiceRequest crypto ue challenge
  (itemList 0x00 0x0006 [generateProtocolIEEnbUeS1apId ue, nasPdu, generateProtocolIETai enb,
    generateProtocolIEEutranCgi enb, generateProtocolIERrcEstablishmentCause moData,
    generateProtocolIESTmsi ue], ue')

/-- `generate_Initial_UE_Message_Service_Request` -/
def generateServiceRequestMessage (crypto : Crypto) (enb : ENB) (ue : UE)
    (challenge : AuthChallenge) : S1apInitiatingMessage × UE :=
  let (ueSr, ue') := generateInitialUEMessageServiceRequest crypto enb ue challenge
  (initiatingMessage initialUeMessage criticalityIgnore ueSr, ue')

def generatePathSwitchRequest (enb : ENB) (ue : UE) : ItemList :=
  itemList 0x00 0x0006 [generateProtocolIEEnbUeS1apId ue,
    generateProtocolIEERabToBeSwitchedDlList ue, generateSourceMmeUeS1apId ue,
    generateProtocolIEEutranCgi enb, generateProtocolIETai enb,
    generateProtocolIESecurityCapabilities ue]

/-- `generate_Path_Switch_Request` -/
def generatePathSwitchRequestMessage (enb : ENB) (ue : UE) : S1apInitiatingMessage :=
  initiatingMessage idPathSwitchRequest criticalityIgnore (generatePathSwitchRequest enb ue)

/-- The identifier of the item that carries a NAS PDU. -/
abbrev nasPduId : UInt8 × UInt8 := (0x00, 0x1A)

private theorem toNat_size_add {size : UInt8} (n : Nat) (h : size.toNat + n < 256) :
    (size + UInt8.ofNat n).toNat = size.toNat + n := by
  rw [UInt8.toNat_add, UInt8.toNat_ofNat', Nat.add_mod_mod, Nat.mod_eq_of_lt h]

@[simp] theorem step_plainIE (id : UInt16) (criticality size : UInt8) (content : List UInt8) :
    (plainIE id criticality content size).toBuffer.2 = 3 + (size + 1).toNat := rfl

@[simp] theorem step_encapsulatedIE (id : UInt16) (criticality size : UInt8)
    (content : List UInt8) :
    (encapsulatedIE id criticality content size).toBuffer.2 = 3 + (size + 2).toNat := rfl

@[simp] theorem step_stored (id : UInt16) (criticality valueLen : UInt8) (value : List UInt8) :
    (ProtocolIE.toBuffer ⟨id, criticality, value, valueLen⟩).2 = 3 + valueLen.toNat := rfl

@[simp] theorem step_withCriticality (ie : ProtocolIE) (criticality : UInt8) :
    (ie.withCriticality criticality).toBuffer.2 = ie.toBuffer.2 := rfl

theorem toBuffer_plainIE {id : UInt16} {criticality size : UInt8} {content : List UInt8}
    (hlen : content.length = size.toNat) (hsmall : size.toNat < 127) :
    (plainIE id criticality content size).toBuffer =
      ((id >>> 8).toUInt8 :: id.toUInt8 :: criticality :: size :: content, size.toNat + 4) := by
  have hone : (size + 1).toNat = size.toNat + 1 := toNat_size_add 1 (by omega)
  simp [ProtocolIE.toBuffer, plainIE, generateS1apValue, halves, hone, ← hlen]
  omega

theorem toBuffer_encapsulatedIE {id : UInt16} {criticality size : UInt8} {content : List UInt8}
    (hlen : content.length = size.toNat) (hsmall : size.toNat < 126) :
    (encapsulatedIE id criticality content size).toBuffer =
      ((id >>> 8).toUInt8 :: id.toUInt8 :: criticality :: (size + 1) :: size :: content,
        size.toNat + 5) := by
  have hone : (size + 1).toNat = size.toNat + 1 := toNat_size_add 1 (by omega)
  have htwo : (size + 2).toNat = size.toNat + 2 := toNat_size_add 2 (by omega)
  simp [ProtocolIE.toBuffer, encapsulatedIE, generateS1apValue, halves, hone, htwo, ← hlen]
  omega

theorem isItem_plainIE {id : UInt16} {criticality size : UInt8} {content : List UInt8}
    (hid : ((id >>> 8).toUInt8, id.toUInt8) ≠ nasPduId) (hlen : content.length = size.toNat)
    (hsmall : size.toNat < 127) : IsItem nasPduId (plainIE id criticality content size).toBuffer := by
  rw [toBuffer_plainIE hlen hsmall]
  exact isItem_plain hid hlen.symm (by omega) (by omega)

theorem isItem_stored {id : UInt16} {criticality length valueLen : UInt8} {content : List UInt8}
    (hid : ((id >>> 8).toUInt8, id.toUInt8) ≠ nasPduId) (hlen : length.toNat = content.length)
    (hvalue : valueLen.toNat = content.length + 1) (hsmall : content.length < 128) :
    IsItem nasPduId (ProtocolIE.toBuffer ⟨id, criticality, length :: content, valueLen⟩) := by
  have h : ProtocolIE.toBuffer ⟨id, criticality, length :: content, valueLen⟩ =
      ((id >>> 8).toUInt8 :: id.toUInt8 :: criticality :: length :: content,
        content.length + 4) := by
    simp [ProtocolIE.toBuffer, halves, hvalue]
    omega
  rw [h]
  exact isItem_plain hid hlen hsmall rfl

theorem isItem_encapsulatedIE {id : UInt16} {criticality size : UInt8} {content : List UInt8}
    (hlen : content.length = size.toNat) (hsmall : size.toNat < 126) :
    IsItem nasPduId (encapsulatedIE id criticality content size).toBuffer := by
  have hone : (size + 1).toNat = size.toNat + 1 := toNat_size_add 1 (by omega)
  rw [toBuffer_encapsulatedIE hlen hsmall]
  exact isItem_wrapped (by omega) hlen.symm (by omega) (by omega)

@[simp] theorem isItem_withCriticality {ie : ProtocolIE} {criticality : UInt8}
    (h : IsItem nasPduId ie.toBuffer) : IsItem nasPduId (ie.withCriticality criticality).toBuffer := by
  have ⟨hstep, ⟨idHigh, idLow, old, value⟩, hbytes, hsmall, hwraps⟩ := h
  refine ⟨hstep, ⟨idHigh, idLow, criticality, value⟩, ?_, hsmall, hwraps⟩
  simp_all [ProtocolIE.toBuffer, ProtocolIE.withCriticality, halves, Item.bytes]

@[simp] theorem isItem_defaultPagingDrx :
    IsItem nasPduId generateProtocolIEDefaultPagingDrx.toBuffer :=
  isItem_plainIE (by decide) rfl (by decide)

@[simp] theorem isItem_supportedTas (enb : ENB) :
    IsItem nasPduId (generateProtocolIESupportedTas enb).toBuffer :=
  isItem_plainIE (by decide) (by simp) (by decide)

@[simp] theorem isItem_enbName : IsItem nasPduId generateProtocolIEEnbName.toBuffer :=
  isItem_plainIE (by decide) rfl (by decide)

@[simp] theorem isItem_globalEnbId (enb : ENB) :
    IsItem nasPduId (generateProtocolIEGlobalEnbId enb).toBuffer :=
  isItem_plainIE (by decide) (by simp) (by decide)

@[simp] theorem isItem_enbUeS1apId (ue : UE) :
    IsItem nasPduId (generateProtocolIEEnbUeS1apId ue).toBuffer :=
  isItem_plainIE (by decide) rfl (by decide)

theorem isItem_mmeUeS1apId {ue : UE} (hue : ue.mmeS1apIdLen.toNat ≤ 16) :
    IsItem nasPduId (generateProtocolIEMmeUeS1apId ue).toBuffer :=
  isItem_plainIE (by decide) (by simp) (by omega)

theorem step_mmeUeS1apId {ue : UE} (hue : ue.mmeS1apIdLen.toNat ≤ 16) :
    (generateProtocolIEMmeUeS1apId ue).toBuffer.2 ≤ 20 := by
  have h : (generateProtocolIEMmeUeS1apId ue).toBuffer.2 = ue.mmeS1apIdLen.toNat + 4 :=
    congrArg Prod.snd (toBuffer_plainIE (by simp) (by omega))
  omega

theorem step_sourceMmeUeS1apId (ue : UE) :
    (generateSourceMmeUeS1apId ue).toBuffer.2 = (generateProtocolIEMmeUeS1apId ue).toBuffer.2 :=
  rfl

theorem isItem_sourceMmeUeS1apId {ue : UE} (hue : ue.mmeS1apIdLen.toNat ≤ 16) :
    IsItem nasPduId (generateSourceMmeUeS1apId ue).toBuffer :=
  isItem_plainIE (by decide) (by simp) (by omega)

@[simp] theorem isItem_tai (enb : ENB) : IsItem nasPduId (generateProtocolIETai enb).toBuffer :=
  isItem_plainIE (by decide) (by simp) (by decide)

@[simp] theorem isItem_eutranCgi (enb : ENB) :
    IsItem nasPduId (generateProtocolIEEutranCgi enb).toBuffer :=
  isItem_plainIE (by decide) (by simp) (by decide)

@[simp] theorem isItem_rrcEstablishmentCause (cause : UInt8) :
    IsItem nasPduId (generateProtocolIERrcEstablishmentCause cause).toBuffer :=
  isItem_plainIE (by decide) rfl (by decide)

@[simp] theorem isItem_cause : IsItem nasPduId generateProtocolIECause.toBuffer :=
  isItem_stored (by decide) rfl rfl (by decide)

@[simp] theorem isItem_sTmsi (ue : UE) : IsItem nasPduId (generateProtocolIESTmsi ue).toBuffer :=
  isItem_stored (by decide) (by simp) (by simp) (by simp)

@[simp] theorem isItem_securityCapabilities (ue : UE) :
    IsItem nasPduId (generateProtocolIESecurityCapabilities ue).toBuffer :=
  isItem_stored (by decide) (by simp) (by simp) (by simp)

@[simp] theorem isItem_nasPdu (ue : UE) : IsItem nasPduId (generateProtocolIENasPdu ue).toBuffer :=
  isItem_encapsulatedIE (by simp [nonAccessStratumPdu]) (by decide)

@[simp] theorem isItem_authResponse (challenge : AuthChallenge) :
    IsItem nasPduId (generateProtocolIENasPduAuthResponse challenge).toBuffer :=
  isItem_encapsulatedIE (by simp) (by decide)

theorem isItem_protectedNasPdu (crypto : Crypto) (ue : UE) (challenge : AuthChallenge)
    (securityHeader mmmType : UInt8) (macLength : Nat) (count : UInt32) {content : List UInt8}
    {size : UInt8} (hlen : content.length + 8 = size.toNat) (hsmall : size.toNat < 126) :
    IsItem nasPduId
      (protectedNasPdu crypto ue challenge securityHeader mmmType content macLength count
        size).1.toBuffer :=
  isItem_encapsulatedIE (by simp [← hlen]; omega) hsmall

@[simp] theorem isItem_securityCommandComplete (crypto : Crypto) (ue : UE)
    (challenge : AuthChallenge) :
    IsItem nasPduId
      (generateProtocolIENasPduSecurityCommandComplete crypto ue challenge).1.toBuffer :=
  isItem_protectedNasPdu _ _ _ _ _ _ _ rfl (by decide)

@[simp] theorem isItem_attachComplete (crypto : Crypto) (ue : UE) (challenge : AuthChallenge) :
    IsItem nasPduId (generateProtocolIENasPduAttachComplete crypto ue challenge).1.toBuffer :=
  isItem_protectedNasPdu _ _ _ _ _ _ _ rfl (by decide)

@[simp] theorem isItem_detach (crypto : Crypto) (ue : UE) (challenge : AuthChallenge)
    (switchOff : UInt8) :
    IsItem nasPduId (generateProtocolIENasPduDetach crypto ue challenge switchOff).1.toBuffer :=
  isItem_protectedNasPdu _ _ _ _ _ _ _ (by simp) (by decide)

@[simp] theorem isItem_serviceRequest (crypto : Crypto) (ue : UE) (challenge : AuthChallenge) :
    IsItem nasPduId (generateProtocolIENasPduServiceRequest crypto ue challenge).1.toBuffer :=
  isItem_encapsulatedIE (by simp) (by decide)

@[simp] theorem isItem_ueCapabilityInfoIndication :
    IsItem nasPduId generateProtocolIEUeCapabilityInfoIndication.toBuffer :=
  isItem_encapsulatedIE rfl (by decide)

@[simp] theorem eRabToBuffer_length (id : UInt16) (criticality : UInt8) (address : Vector UInt8 4)
    (teid : UInt32) : (eRabToBuffer id criticality address teid).length = 15 := by
  simp [eRabToBuffer]

@[simp] theorem isItem_eRabSetupList (ue : UE) (ueIp : Vector UInt8 4) :
    IsItem nasPduId (generateProtocolIEERabSetupListCTxtSuRes ue ueIp).toBuffer :=
  isItem_plainIE (by decide) (by simp) (by decide)

@[simp] theorem isItem_eRabToBeSwitchedDlList (ue : UE) :
    IsItem nasPduId (generateProtocolIEERabToBeSwitchedDlList ue).toBuffer :=
  isItem_plainIE (by decide) (by simp) (by decide)

/-- The octets are well nested, and `*len` is their number. -/
def Sent (message : S1apInitiatingMessage) : Prop :=
  WellNested nasPduId message.toBuffer.1 ∧ message.toBuffer.2.toNat = message.toBuffer.1.length

theorem itemList_items (init : UInt8) (numItems : UInt16) {ies : List ProtocolIE}
    (h : ∀ ie ∈ ies, IsItem nasPduId ie.toBuffer) :
    (itemList init numItems ies).items = (ies.map ProtocolIE.toBuffer).flatMap Prod.fst := by
  have hfits : ∀ b ∈ ies.map ProtocolIE.toBuffer, b.1.length = b.2 := by
    simpa using fun ie hie => (h ie hie).1
  simp [itemList, Cursor.written_putAll _ hfits]

theorem itemList_itemsLen (init : UInt8) (numItems : UInt16) {ies : List ProtocolIE}
    (hsmall : Mem.blocksLen (ies.map ProtocolIE.toBuffer) < 65536) :
    (itemList init numItems ies).itemsLen.toNat =
      Mem.blocksLen (ies.map ProtocolIE.toBuffer) := by
  simp [itemList, Cursor.offset_putAll, Cursor.start]
  omega

/-- A structure whose `items_len` is the number of its octets is encoded whole. -/
theorem ItemList.toBuffer_of_full {list : ItemList}
    (hlen : list.itemsLen.toNat = list.items.length) (hsmall : list.items.length < 65533) :
    list.toBuffer.1 = list.init :: (halves list.numItems ++ list.items) ∧
      list.toBuffer.2.toNat = list.items.length + 3 := by
  constructor
  · simp [ItemList.toBuffer, hlen]
  · simp [ItemList.toBuffer, hlen]
    omega

theorem toBuffer_initiatingMessage (procedureCode : UInt16) (criticality : UInt8)
    {list : ItemList} (hlen : list.itemsLen.toNat = list.items.length)
    (hsmall : list.items.length < 65529) :
    (initiatingMessage procedureCode criticality list).toBuffer.1 =
        [(procedureCode >>> 8).toUInt8, procedureCode.toUInt8, criticality,
          list.toBuffer.2.toUInt8, list.init, (list.numItems >>> 8).toUInt8,
          list.numItems.toUInt8] ++ list.items ∧
      (initiatingMessage procedureCode criticality list).toBuffer.2.toNat =
        list.items.length + 7 := by
  have ⟨hbytes, hsize⟩ := ItemList.toBuffer_of_full hlen (by omega)
  have hnext : (list.toBuffer.2 + 1).toNat = list.items.length + 4 := by
    simp [hsize]
    omega
  constructor
  · simp [S1apInitiatingMessage.toBuffer, initiatingMessage, hbytes, hsize, hnext, halves]
  · simp [S1apInitiatingMessage.toBuffer, initiatingMessage, hnext]
    omega

theorem sent_initiatingMessage (procedureCode : UInt16) (criticality init : UInt8)
    {numItems : UInt16} (ies : List ProtocolIE) (h : ∀ ie ∈ ies, IsItem nasPduId ie.toBuffer)
    (hsmall : Mem.blocksLen (ies.map ProtocolIE.toBuffer) < 125)
    (hcount : numItems.toNat = ies.length) :
    Sent (initiatingMessage procedureCode criticality (itemList init numItems ies)) := by
  have hblocks : ∀ b ∈ ies.map ProtocolIE.toBuffer, IsItem nasPduId b := by simpa using h
  have hitems := itemList_items init numItems h
  have hsize := itemList_itemsLen init numItems (hsmall.trans (by decide : 125 < 65536))
  have hflat := length_flatMap_blocks hblocks
  have hlen : (itemList init numItems ies).itemsLen.toNat =
      (itemList init numItems ies).items.length := by
    rw [hitems, hsize, hflat]
  have hcontent := (ItemList.toBuffer_of_full hlen (by omega)).2
  have ⟨hbytes, hnumber⟩ := toBuffer_initiatingMessage procedureCode criticality hlen (by omega)
  have hlength : (itemList init numItems ies).toBuffer.2.toUInt8.toNat =
      Mem.blocksLen (ies.map ProtocolIE.toBuffer) + 3 := by
    simp [hcontent, ← hlen]
    omega
  constructor
  · rw [hbytes, hitems]
    refine wellNested_append hblocks ?_ hlength ?_
    · rw [UInt8.lt_iff_toNat_lt, hlength]
      simp
      omega
    · rw [toNat_halves, List.length_map]
      exact hcount
  · rw [hnumber, hbytes]
    simp

end PublicCloudCore.RanEmulator.CoreMessages.S1ap
