import PublicCloudCore.RanEmulator.CoreMessages

/-!
# NGAP generators

`generate_NG_*` of `ngap.c`. Each `add_*` function stores its octets at the pointer that it is
given and returns by how much the offset grows: a block and its step. The identifier that the AMF
gave the UE has no fixed length; the function that adds it also adds the length to `header[3]`.
-/

namespace PublicCloudCore.RanEmulator.CoreMessages.Ngap

open Framework

def successfulOutcome : UInt8 := 0x20

def ngSetupRequestLen : Nat := 53
def ngRegistrationRequestLen : Nat := 69

def idNgSetup : UInt8 := 0x15
def idGlobalRanNodeId : UInt8 := 0x1b
def globalGnbId : UInt8 := 0
def idRanNodeName : UInt8 := 0x52
def idSupportedTaList : UInt8 := 0x66
def idDefaultPagingDrx : UInt8 := 0x15
def pagingDrx128 : UInt8 := 0x40
def idInitialUeMessage : UInt8 := 0x0F
def idRanUeNgapId : UInt8 := 0x55
def idNasPdu : UInt8 := 0x26
def epd5gMobilityManagementMessages : UInt8 := 0x7e
def messageTypeRegistrationRequest : UInt8 := 0x41
def id5gsRegistrationType : UInt8 := 0x09
def nasKeySetIdentifier : UInt8 := 0x70
def idUserLocationInformation : UInt8 := 0x79
def idNrCgi : UInt8 := 0x40
def idRrcEstablishmentCause : UInt8 := 0x5a
def causeMtAccess : UInt8 := 0x10
def idUeContextRequest : UInt8 := 0x70
def idAmfUeNgapId : UInt8 := 0x0a
def idUplinkNasTransport : UInt8 := 0x2e
def messageTypeAuthenticationResponse : UInt8 := 0x57
def registrationRequest : UInt8 := 0x41
def securityModeComplete : UInt8 := 0x5e
def idInitialContextSetup : UInt8 := 0x0E
def idPduSessionResourceSetup : UInt8 := 0x1d
def ulNasTransport : UInt8 := 0x67
def epd5gSessionManagementMessages : UInt8 := 0x2e
def registrationComplete : UInt8 := 0x43
def idUeContextRelease : UInt8 := 0x29
def idPduSessionResourceSetupListSuRes : UInt8 := 0x4b
def deregistrationRequest : UInt8 := 0x45

/-- `"Nervion"` -/
def ranNodeName : List UInt8 := [0x4e, 0x65, 0x72, 0x76, 0x69, 0x6f, 0x6e]

/-- `"internet"` -/
def dnn : List UInt8 := [0x69, 0x6e, 0x74, 0x65, 0x72, 0x6e, 0x65, 0x74]

/-- The seven octets that every `add_*_header` stores. -/
def header (form code criticality contentLength items : UInt8) : Mem.Block UInt8 :=
  ([form, code, criticality, contentLength, 0, 0, items], 7)

def addNGSetupHeader : Mem.Block UInt8 := header 0 idNgSetup criticalityReject 0x35 4

def addNGRegistrationRequestHeader : Mem.Block UInt8 :=
  header 0 idInitialUeMessage criticalityIgnore 0x52 5

def addNGRegistrationResponseHeader : Mem.Block UInt8 :=
  header 0 idUplinkNasTransport criticalityIgnore 0x3B 4

def addNGSecurityModeCompleteHeader : Mem.Block UInt8 :=
  header 0 idUplinkNasTransport criticalityIgnore 0x65 4

def addNGInitialContextSetupResponseHeader : Mem.Block UInt8 :=
  header successfulOutcome idInitialContextSetup criticalityReject 0x0e 2

def addNGRegistrationCompleteHeader : Mem.Block UInt8 :=
  header 0 idUplinkNasTransport criticalityIgnore 0x30 4

def addNGPDUSessionRequestHeader : Mem.Block UInt8 :=
  header 0 idUplinkNasTransport criticalityIgnore 0x59 4

def addNGPDUSessionResponseHeader : Mem.Block UInt8 :=
  header successfulOutcome idPduSessionResourceSetup criticalityReject 0x23 3

def addNGDeregistrationRequestHeader : Mem.Block UInt8 :=
  header 0 idUplinkNasTransport criticalityIgnore 0x3e 4

def addNGUEContextReleaseCompleteHeader : Mem.Block UInt8 :=
  header successfulOutcome idUeContextRelease criticalityReject 0x21 3

def addProtocolIEGlobalRANNodeID (enb : ENB) : Mem.Block UInt8 :=
  (0 :: idGlobalRanNodeId :: criticalityReject :: 8 :: globalGnbId ::
    (enb.plmn.toList ++ htonl (enb.enbId <<< 2)), 12)

def addProtocolIERANNodeName : Mem.Block UInt8 :=
  (0 :: idRanNodeName :: criticalityIgnore :: 9 :: 0x03 :: 0 :: ranNodeName, 13)

def addProtocolIETAList (enb : ENB) : Mem.Block UInt8 :=
  (0 :: idSupportedTaList :: criticalityReject :: 0x10 :: 0 :: 0 :: 0 :: 0 :: 1 :: 0 ::
    (enb.plmn.toList ++ [0, 0, 0x10, 0x08, 0x00, 0x00, 0x01]), 20)

def addProtocolIEDefaultPagingDRX : Mem.Block UInt8 :=
  ([0, idDefaultPagingDrx, criticalityIgnore, 1, pagingDrx128], 5)

def addProtocolIERANUENGAPID (ue : UE) : Mem.Block UInt8 :=
  (0 :: idRanUeNgapId :: criticalityReject :: 3 :: 0x40 :: lowHalf ue.id, 7)

def addProtocolIEUserLocationInformation (enb : ENB) : Mem.Block UInt8 :=
  (0 :: idUserLocationInformation :: criticalityReject :: 0x0F :: idNrCgi ::
    (enb.plmn.toList ++ htonl enb.enbId ++ [0] ++ enb.plmn.toList ++ [0x00, 0x00, 0x01]), 19)

def addProtocolIERRCEstablishmentCause (cause : UInt8) : Mem.Block UInt8 :=
  ([0, idRrcEstablishmentCause, criticalityIgnore, 0x01, cause], 5)

def addProtocolIEUEContextRequest : Mem.Block UInt8 :=
  ([0, idUeContextRequest, criticalityIgnore, 0x01, 0], 5)

def amfUENGAPID (ue : UE) : Mem.Block UInt8 :=
  (0 :: idAmfUeNgapId :: criticalityReject :: ue.mmeS1apIdLen :: ue.getMmeS1apId,
    4 + ue.mmeS1apIdLen.toNat)

/-- `add_protocolIE_AMF_UE_NGAP_ID(ue, buffer+offset, buffer)`: the item, and `header[3] += len`. -/
def addProtocolIEAMFUENGAPID (ue : UE) (c : Cursor UInt8) : Cursor UInt8 :=
  (c.put (amfUENGAPID ue)).update 3 (· + ue.mmeS1apIdLen)

def addProtocolIENASPDURegistrationRequest (ue : UE) (enb : ENB) : Mem.Block UInt8 :=
  (0 :: idNasPdu :: criticalityReject :: 0x27 :: 0x26 :: epd5gMobilityManagementMessages :: 0 ::
    messageTypeRegistrationRequest :: (id5gsRegistrationType ||| nasKeySetIdentifier) ::
    0 :: 0x0d :: 0x01 :: (enb.plmn.toList ++ [0x00, 0x00, 0, 0] ++ ue.msin.toList ++
      [0x10, 0x01, 0x00] ++ [0x2e, 0x04, 0x80, 0xa0, 0x80, 0xa0] ++
      [0x2f, 0x05, 0x04, 0x01, 0x00, 0x00, 0x01] ++ [0x53, 0x01, 0x00]), 43)

def addProtocolIENASPDURegistrationResponse (crypto : Crypto) (ue : UE) : Mem.Block UInt8 :=
  (0 :: idNasPdu :: criticalityReject :: 0x16 :: 0x15 :: epd5gMobilityManagementMessages :: 0 ::
    messageTypeAuthenticationResponse :: 0x2d :: 16 ::
    generateRes5g crypto ue.authChallenge ue.mcc ue.mnc, 26)

/-- A NAS message behind an authentication code and a sequence number. The code is stored last; it
covers `macLength` octets from the sequence number on, with bearer 1. -/
def addProtectedNASPDU (crypto : Crypto) (ue : UE)
    (length innerLength securityHeader : UInt8) (plain : List UInt8) (macLength : Nat)
    (count : UInt32) (step : Nat) : Mem.Block UInt8 × UE :=
  let (sequenceNumber, ue') := ue.getNasSequenceNumber
  let message := sequenceNumber :: plain
  let mac := nasIntegrityEia2 crypto ue.authChallenge.nasKeyInt (message.take macLength) count 1
  ((0 :: idNasPdu :: criticalityReject :: length :: innerLength ::
    epd5gMobilityManagementMessages :: securityHeader :: (mac ++ message), step), ue')

def securityModeCompleteMessage (ue : UE) (enb : ENB) : List UInt8 :=
  [epd5gMobilityManagementMessages, 0, securityModeComplete] ++
    [0x77, 0, 0x09, 0x45, 0x73, 0x80, 0x61, 0x21, 0x85, 0x61, 0x51, 0xf1] ++
    [0x71, 0x00, 0x26] ++
    [epd5gMobilityManagementMessages, 0x00, registrationRequest, 0x79] ++
    [0x00, 0x0D, 0x01] ++ enb.plmn.toList ++ [0x00, 0x00, 0x00, 0x00] ++ ue.msin.toList ++
    [0x10, 0x01, 0x00] ++ [0x2e, 0x04, 0x80, 0xa0, 0x80, 0xa0] ++
    [0x2f, 0x05, 0x04, 0x01, 0x00, 0x00, 0x01] ++ [0x53, 0x01, 0x00]

def addProtocolIENASPDUSecurityModeComplete (crypto : Crypto) (ue : UE) (enb : ENB) :
    Mem.Block UInt8 × UE :=
  addProtectedNASPDU crypto ue 0x40 0x3F 0x04 (securityModeCompleteMessage ue enb) 57 0 68

def addProtocolIENASPDURegistrationComplete (crypto : Crypto) (ue : UE) :
    Mem.Block UInt8 × UE :=
  addProtectedNASPDU crypto ue 0x0B 0x0A 0x02
    [epd5gMobilityManagementMessages, 0x00, registrationComplete] 4 1 15

def pduSessionRequestMessage : List UInt8 :=
  [epd5gMobilityManagementMessages, 0x00, ulNasTransport, 0x01] ++
    [0x00, 0x12, epd5gSessionManagementMessages, 0x01, 0x01, 0xc1, 0xFF, 0xFF, 0x91, 0xa1] ++
    [0x7b, 0x00, 0x07, 0x80, 0x00, 0x0a, 0x00, 0x00, 0x0d, 0x00] ++
    [0x12, 0x01, 0x81] ++ [0x22, 0x04, 0x01, 0x01, 0x02, 0x03] ++ [0x25, 0x09, 0x08] ++ dnn

def addProtocolIENASPDUPDUSessionRequest (crypto : Crypto) (ue : UE) : Mem.Block UInt8 × UE :=
  addProtectedNASPDU crypto ue 0x34 0x33 0x02 pduSessionRequestMessage 45 2 56

def addProtocolIENASPDUPDUSessionResponse (ue : UE) : Mem.Block UInt8 :=
  (0 :: idPduSessionResourceSetupListSuRes :: criticalityIgnore :: 0x11 ::
    0x00 :: 0x00 :: 0x01 :: 0x0d :: 0x00 :: 0x03 :: 0xe0 ::
    (ue.ueIp.toList ++ htonl ue.gtpTeid ++ [0x00, 0x09]), 21)

def deregistrationRequestMessage (ue : UE) (switchOff : Int) : List UInt8 :=
  [epd5gMobilityManagementMessages, 0, deregistrationRequest] ++
    [if switchOff = 0 then 0x01 else 0x09] ++ [0x00, 0x0b, 0xF2] ++ ue.guami.toList ++ ue.getMTmsi

def addProtocolIENASPDUDeregistrationRequest (crypto : Crypto) (ue : UE) (switchOff : Int) :
    Mem.Block UInt8 × UE :=
  addProtectedNASPDU crypto ue 0x19 0x18 0x02 (deregistrationRequestMessage ue switchOff) 18 3 29

/-! The cursor at the end is the buffer and the length that the source returns. -/

/-- `bzero(buffer, n)`, with the offset at 0. -/
def cleaned (n : Nat) (buffer : Mem UInt8) : Cursor UInt8 :=
  Cursor.start (buffer.write 0 (List.replicate n 0))

def generateNGSetupRequest (buffer : Mem UInt8) (enb : ENB) : Cursor UInt8 :=
  cleaned ngSetupRequestLen buffer
    |>.put addNGSetupHeader
    |>.put (addProtocolIEGlobalRANNodeID enb)
    |>.put addProtocolIERANNodeName
    |>.put (addProtocolIETAList enb)
    |>.put addProtocolIEDefaultPagingDRX

def generateNGRegistrationRequest (enb : ENB) (ue : UE) (buffer : Mem UInt8) : Cursor UInt8 :=
  cleaned ngRegistrationRequestLen buffer
    |>.put addNGRegistrationRequestHeader
    |>.put (addProtocolIERANUENGAPID ue)
    |>.put (addProtocolIENASPDURegistrationRequest ue enb)
    |>.put (addProtocolIEUserLocationInformation enb)
    |>.put (addProtocolIERRCEstablishmentCause causeMtAccess)
    |>.put addProtocolIEUEContextRequest

def addressed (ue : UE) (buffer : Mem UInt8) (header : Mem.Block UInt8) : Cursor UInt8 :=
  addProtocolIEAMFUENGAPID ue ((cleaned ngRegistrationRequestLen buffer).put header)
    |>.put (addProtocolIERANUENGAPID ue)

def generateNGAuthenticationResponse (crypto : Crypto) (enb : ENB) (ue : UE)
    (buffer : Mem UInt8) : Cursor UInt8 :=
  addressed ue buffer addNGRegistrationResponseHeader
    |>.put (addProtocolIENASPDURegistrationResponse crypto ue)
    |>.put (addProtocolIEUserLocationInformation enb)

def generateNGSecurityModeComplete (crypto : Crypto) (enb : ENB) (ue : UE) (buffer : Mem UInt8) :
    Cursor UInt8 × UE :=
  let (nasPdu, ue') := addProtocolIENASPDUSecurityModeComplete crypto ue enb
  (addressed ue buffer addNGSecurityModeCompleteHeader
    |>.put nasPdu
    |>.put (addProtocolIEUserLocationInformation enb), ue')

def generateNGInitialContextSetupResponse (ue : UE) (buffer : Mem UInt8) : Cursor UInt8 :=
  addressed ue buffer addNGInitialContextSetupResponseHeader

def generateNGRegistrationComplete (crypto : Crypto) (enb : ENB) (ue : UE) (buffer : Mem UInt8) :
    Cursor UInt8 × UE :=
  let (nasPdu, ue') := addProtocolIENASPDURegistrationComplete crypto ue
  (addressed ue buffer addNGRegistrationCompleteHeader
    |>.put nasPdu
    |>.put (addProtocolIEUserLocationInformation enb), ue')

def generateNGPDUSessionRequest (crypto : Crypto) (enb : ENB) (ue : UE) (buffer : Mem UInt8) :
    Cursor UInt8 × UE :=
  let (nasPdu, ue') := addProtocolIENASPDUPDUSessionRequest crypto ue
  (addressed ue buffer addNGPDUSessionRequestHeader
    |>.put nasPdu
    |>.put (addProtocolIEUserLocationInformation enb), ue')

def generateNGPDUSessionResponse (ue : UE) (buffer : Mem UInt8) : Cursor UInt8 :=
  addressed ue buffer addNGPDUSessionResponseHeader
    |>.put (addProtocolIENASPDUPDUSessionResponse ue)

def generateNGDeregistrationRequest (crypto : Crypto) (enb : ENB) (ue : UE) (buffer : Mem UInt8)
    (switchOff : Int) : Cursor UInt8 × UE :=
  let (nasPdu, ue') := addProtocolIENASPDUDeregistrationRequest crypto ue switchOff
  (addressed ue buffer addNGDeregistrationRequestHeader
    |>.put nasPdu
    |>.put (addProtocolIEUserLocationInformation enb), ue')

def generateNGUEContextReleaseComplete (enb : ENB) (ue : UE) (buffer : Mem UInt8) :
    Cursor UInt8 :=
  addressed ue buffer addNGUEContextReleaseCompleteHeader
    |>.put (addProtocolIEUserLocationInformation enb)

/-- The identifier of the item that carries a NAS PDU. -/
abbrev nasPduId : UInt8 × UInt8 := (0x00, idNasPdu)

@[simp] theorem isItem_globalRANNodeID (enb : ENB) :
    IsItem nasPduId (addProtocolIEGlobalRANNodeID enb) :=
  isItem_plain (by decide) (by simp) (by simp) (by simp)

@[simp] theorem isItem_ranNodeName : IsItem nasPduId addProtocolIERANNodeName :=
  isItem_plain (by decide) rfl (by simp [ranNodeName]) rfl

@[simp] theorem isItem_taList (enb : ENB) : IsItem nasPduId (addProtocolIETAList enb) :=
  isItem_plain (by decide) (by simp) (by simp) (by simp)

@[simp] theorem isItem_defaultPagingDRX : IsItem nasPduId addProtocolIEDefaultPagingDRX :=
  isItem_plain (by decide) rfl (by simp) rfl

@[simp] theorem isItem_ranUENGAPID (ue : UE) : IsItem nasPduId (addProtocolIERANUENGAPID ue) :=
  isItem_plain (by decide) rfl (by simp) rfl

@[simp] theorem isItem_userLocationInformation (enb : ENB) :
    IsItem nasPduId (addProtocolIEUserLocationInformation enb) :=
  isItem_plain (by decide) (by simp) (by simp) (by simp)

@[simp] theorem isItem_rrcEstablishmentCause (cause : UInt8) :
    IsItem nasPduId (addProtocolIERRCEstablishmentCause cause) :=
  isItem_plain (by decide) rfl (by simp) rfl

@[simp] theorem isItem_ueContextRequest : IsItem nasPduId addProtocolIEUEContextRequest :=
  isItem_plain (by decide) rfl (by simp) rfl

theorem isItem_amfUENGAPID {ue : UE} (hue : ue.mmeS1apIdLen.toNat ≤ 16) :
    IsItem nasPduId (amfUENGAPID ue) :=
  isItem_plain (by decide) (by simp) (by simp; omega) (by simp; omega)

@[simp] theorem isItem_registrationRequest (ue : UE) (enb : ENB) :
    IsItem nasPduId (addProtocolIENASPDURegistrationRequest ue enb) :=
  isItem_wrapped (by simp) (by simp) (by simp) (by simp)

@[simp] theorem isItem_registrationResponse (crypto : Crypto) (ue : UE) :
    IsItem nasPduId (addProtocolIENASPDURegistrationResponse crypto ue) :=
  isItem_wrapped (by simp) (by simp) (by simp) (by simp)

theorem isItem_protectedNASPDU (crypto : Crypto) (ue : UE) (securityHeader : UInt8)
    (macLength : Nat) (count : UInt32) {length innerLength : UInt8} {plain : List UInt8}
    {step : Nat} (hlen : length.toNat = plain.length + 8)
    (hinner : innerLength.toNat = plain.length + 7) (hsmall : plain.length < 120)
    (hstep : step = plain.length + 12) :
    IsItem nasPduId
      (addProtectedNASPDU crypto ue length innerLength securityHeader plain macLength count
        step).1 :=
  isItem_wrapped (by simp [hlen]; omega) (by simp [hinner]; omega) (by simp; omega)
    (by simp [hstep]; omega)

@[simp] theorem isItem_securityModeComplete (crypto : Crypto) (ue : UE) (enb : ENB) :
    IsItem nasPduId (addProtocolIENASPDUSecurityModeComplete crypto ue enb).1 := by
  have hplain : (securityModeCompleteMessage ue enb).length = 56 := by
    simp [securityModeCompleteMessage]
  exact isItem_protectedNASPDU _ _ _ _ _ (by simp [hplain]) (by simp [hplain]) (by simp [hplain])
    (by simp [hplain])

@[simp] theorem isItem_registrationComplete (crypto : Crypto) (ue : UE) :
    IsItem nasPduId (addProtocolIENASPDURegistrationComplete crypto ue).1 :=
  isItem_protectedNASPDU _ _ _ _ _ rfl rfl (by simp) rfl

@[simp] theorem isItem_pduSessionRequest (crypto : Crypto) (ue : UE) :
    IsItem nasPduId (addProtocolIENASPDUPDUSessionRequest crypto ue).1 :=
  isItem_protectedNASPDU _ _ _ _ _ rfl rfl (by decide) rfl

@[simp] theorem isItem_pduSessionResponse (ue : UE) :
    IsItem nasPduId (addProtocolIENASPDUPDUSessionResponse ue) :=
  isItem_plain (by decide) (by simp) (by simp) (by simp)

@[simp] theorem isItem_deregistrationRequest (crypto : Crypto) (ue : UE) (switchOff : Int) :
    IsItem nasPduId (addProtocolIENASPDUDeregistrationRequest crypto ue switchOff).1 := by
  have hplain : (deregistrationRequestMessage ue switchOff).length = 17 := by
    simp [deregistrationRequestMessage]
  exact isItem_protectedNASPDU _ _ _ _ _ (by simp [hplain]) (by simp [hplain]) (by simp [hplain])
    (by simp [hplain])

@[simp] theorem written_cleaned (n : Nat) (buffer : Mem UInt8) : (cleaned n buffer).written = [] :=
  rfl

theorem written_putAll_items (c : Cursor UInt8) {blocks : List (Mem.Block UInt8)}
    (h : ∀ b ∈ blocks, IsItem nasPduId b) :
    (c.putAll blocks).written = c.written ++ blocks.flatMap Prod.fst :=
  c.written_putAll fun b hb => (h b hb).1

theorem wellNested_header (n : Nat) (buffer : Mem UInt8)
    {form code criticality contentLength items : UInt8} (blocks : List (Mem.Block UInt8))
    (h : ∀ b ∈ blocks, IsItem nasPduId b)
    (hlen : contentLength.toNat = Mem.blocksLen blocks + 3) (hsmall : contentLength < 128)
    (hitems : items.toNat = blocks.length) :
    WellNested nasPduId
      (((cleaned n buffer).put (header form code criticality contentLength items)).putAll
        blocks).written := by
  rw [written_putAll_items _ h, Cursor.written_put _ rfl]
  exact wellNested_append h hsmall hlen (by simpa using hitems)

theorem written_addressed (ue : UE) (buffer : Mem UInt8)
    (form code criticality contentLength items : UInt8) :
    (addressed ue buffer (header form code criticality contentLength items)).written =
      [form, code, criticality, contentLength + ue.mmeS1apIdLen, 0, 0, items] ++
        [amfUENGAPID ue, addProtocolIERANUENGAPID ue].flatMap Prod.fst := by
  have hamf : (amfUENGAPID ue).1.length = (amfUENGAPID ue).2 := by
    simp [amfUENGAPID]
    omega
  have hran : (addProtocolIERANUENGAPID ue).1.length = (addProtocolIERANUENGAPID ue).2 := rfl
  rw [addressed, Cursor.written_put _ hran, addProtocolIEAMFUENGAPID, Cursor.written_update,
    Cursor.written_put _ hamf, Cursor.written_put _ rfl]
  simp [header]

/-- A header that leaves out the length of the AMF's identifier. -/
theorem wellNested_addressed {ue : UE} (hue : ue.mmeS1apIdLen.toNat ≤ 16) (buffer : Mem UInt8)
    {form code criticality contentLength items : UInt8} (blocks : List (Mem.Block UInt8))
    (h : ∀ b ∈ blocks, IsItem nasPduId b)
    (hlen : contentLength.toNat = Mem.blocksLen blocks + 14) (hsmall : contentLength.toNat < 112)
    (hitems : items.toNat = blocks.length + 2) :
    WellNested nasPduId
      ((addressed ue buffer (header form code criticality contentLength items)).putAll
        blocks).written := by
  have hsum : (contentLength + ue.mmeS1apIdLen).toNat =
      contentLength.toNat + ue.mmeS1apIdLen.toNat := by
    rw [UInt8.toNat_add, Nat.mod_eq_of_lt (by omega)]
  have hall : ∀ b ∈ amfUENGAPID ue :: addProtocolIERANUENGAPID ue :: blocks, IsItem nasPduId b := by
    simpa [isItem_amfUENGAPID hue] using h
  rw [written_putAll_items _ h, written_addressed, List.append_assoc, ← List.flatMap_append]
  refine wellNested_append hall ?_ ?_ ?_
  · rw [UInt8.lt_iff_toNat_lt, hsum]
    simp
    omega
  · simp [hsum, hlen, amfUENGAPID, addProtocolIERANUENGAPID]
    omega
  · simpa using hitems

end PublicCloudCore.RanEmulator.CoreMessages.Ngap
