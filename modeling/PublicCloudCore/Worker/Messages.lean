import PublicCloudCore.Worker.NasSecurity

/-!
# The messages of the worker

The NAS and NGAP messages that the worker's handlers take apart and build, with the fields that
the handlers read or set; what a builder fills with constants is left out. `Ogs` stands for the
Open5GS libraries that decode, encode and derive keys.
-/

namespace PublicCloudCore.Worker

open Framework CorekubeDb Libck

/-- `ogs_pkbuf_t`: the memory from `head` on, the offset of `data` in it, and `len`. -/
structure Pkbuf where
  mem : Mem UInt8
  data : Nat
  len : Nat

namespace Pkbuf

def byte (b : Pkbuf) (i : Nat) : UInt8 := b.mem (b.data + i)

def bytes (b : Pkbuf) : List UInt8 := b.mem.read b.data b.len

@[simp] theorem bytes_length (b : Pkbuf) : b.bytes.length = b.len := by simp [bytes]

/-- `ogs_pkbuf_pull` returns a null pointer, and pulls nothing, where too little is left. -/
def pull (b : Pkbuf) (n : Nat) : Option {b' : Pkbuf // b'.len + n = b.len} :=
  if h : n ≤ b.len then some ⟨⟨b.mem, b.data + n, b.len - n⟩, Nat.sub_add_cancel h⟩ else none

def kept (b : Pkbuf) : {b' : Pkbuf // b'.len ≤ b.len} := ⟨b, Nat.le_refl _⟩

/-- The buffer after an `ogs_pkbuf_pull` whose result nobody looks at. -/
def afterPull (b : Pkbuf) (n : Nat) : {b' : Pkbuf // b'.len ≤ b.len} :=
  match b.pull n with
  | some ⟨b', h⟩ => ⟨b', by omega⟩
  | none => b.kept

theorem afterPull_val (b : Pkbuf) (n : Nat) :
    (b.afterPull n).val = if n ≤ b.len then ⟨b.mem, b.data + n, b.len - n⟩ else b := by
  by_cases h : n ≤ b.len
  · simp only [afterPull, pull, dif_pos h, if_pos h]
  · simp only [afterPull, pull, dif_neg h, if_neg h, kept]

/-- `ogs_pkbuf_push` asserts that there is room in front of the data. -/
def push (b : Pkbuf) (n : Nat) : Option {b' : Pkbuf // b'.len = b.len + n} :=
  if n ≤ b.data then some ⟨⟨b.mem, b.data - n, b.len + n⟩, rfl⟩ else none

end Pkbuf

def extendedProtocolDiscriminator5gmm : UInt8 := 0x7e
def extendedProtocolDiscriminator5gsm : UInt8 := 0x2e

/-- `ogs_nas_5gs_mobile_identity_t` -/
structure MobileIdentity where
  length : UInt16
  buffer : Mem UInt8

structure DeRegistrationType where
  switchOff : Bool
  reRegistrationRequired : Bool
  accessType : UInt8

/-- The 5GMM messages that `nas_5gmm_handler` has a case for. -/
def handledGmmTypes : List UInt8 := [65, 67, 69, 87, 89, 94, 103]

/-- A decoded `ogs_nas_5gmm_message_t`. -/
inductive GmmMessage
  | registrationRequest (mobileIdentity : MobileIdentity)
  | registrationComplete
  | deregistrationRequestFromUe (deRegistrationType : DeRegistrationType)
  | authenticationResponse
  | authenticationFailure (gmmCause : UInt8) (auts : List UInt8)
  | securityModeComplete (nasMessageContainer : Bool) (imeisv : Option MobileIdentity)
  | ulNasTransport (payloadContainerType : UInt8) (payloadContainer : List UInt8)
      (pduSessionId : Option UInt8)
  | other (messageType : UInt8) (unhandled : messageType ∉ handledGmmTypes)

namespace GmmMessage

def messageType : GmmMessage → UInt8
  | registrationRequest _ => 65
  | registrationComplete => 67
  | deregistrationRequestFromUe _ => 69
  | authenticationResponse => 87
  | authenticationFailure _ _ => 89
  | securityModeComplete _ _ => 94
  | ulNasTransport _ _ _ => 103
  | other t _ => t

def Within (n : Nat) : GmmMessage → Prop
  | ulNasTransport _ payloadContainer _ => payloadContainer.length < n
  | _ => True

theorem Within.mono {m : GmmMessage} {n n' : Nat} (h : m.Within n) (hn : n ≤ n') : m.Within n' := by
  cases m <;> first | exact trivial | exact Nat.lt_of_lt_of_le h hn

end GmmMessage

/-- A decoded `ogs_nas_5gsm_message_t`. -/
inductive GsmMessage
  | pduSessionEstablishmentRequest (pduSessionType : UInt8)
  | other (messageType : UInt8) (unhandled : messageType ≠ 193)

def GsmMessage.messageType : GsmMessage → UInt8
  | pduSessionEstablishmentRequest _ => 193
  | other t _ => t

/-- A decoded `ogs_nas_5gs_message_t`, from a PDU of this length. -/
inductive NasUplink (n : Nat)
  | gmm (m : GmmMessage) (within : m.Within n)
  | gsm (m : GsmMessage)

inductive NasDownlink
  | authenticationRequest (rand autn : List UInt8)
  | securityModeCommand
  | registrationAccept (tmsi : UInt32)
  | dlNasTransport (payloadContainer : List UInt8)
  | deregistrationAccept
  | pduSessionEstablishmentAccept (pduIp : UInt32)

/-- `ogs_nas_5gs_message_t` with the security header `h`. -/
structure NasMessage where
  securityHeaderType : UInt8
  extendedProtocolDiscriminator : UInt8
  body : NasDownlink

inductive ProtocolIe
  | ranUeNgapId (id : UInt64)
  | amfUeNgapId (id : UInt64)
  | nasPdu (pdu : List UInt8)
  -- whether it is `userLocationInformationNR`
  | userLocationInformation (nr : Bool)
  -- whether `globalGNB_ID` is set
  | globalRanNodeId (globalGnbId : Bool)
  | supportedTaList
  -- the session identity and the transfer of each item
  | pduSessionResourceSetupListSuRes (items : List (UInt8 × List UInt8))
  | other

inductive InitiatingMessage
  | ngSetupRequest (ies : List ProtocolIe)
  | initialUeMessage (ies : List ProtocolIe)
  | uplinkNasTransport (ies : List ProtocolIe)
  | other

inductive SuccessfulOutcome
  | initialContextSetupResponse
  | pduSessionResourceSetupResponse (ies : List ProtocolIe)
  | ueContextReleaseComplete
  | other

/-- A decoded `ogs_ngap_message_t`; `other` is an unsuccessful outcome or nothing. -/
inductive NgapUplink
  | initiatingMessage (m : InitiatingMessage)
  | successfulOutcome (m : SuccessfulOutcome)
  | other

inductive NgapMessage
  | ngSetupResponse
  | downlinkNasTransport (amfUeNgapId ranUeNgapId : UInt64) (nasPdu : List UInt8)
  | initialContextSetupRequest (amfUeNgapId ranUeNgapId : UInt64) (kgnb maskedImeisv : List UInt8)
      (nasPdu : List UInt8)
  | pduSessionResourceSetupRequest (amfUeNgapId ranUeNgapId : UInt64) (nasPdu transfer : List UInt8)
  | ueContextReleaseCommand (amfUeNgapId ranUeNgapId : UInt64)

/-- `gTPTunnel` of a PDU Session Resource Setup Response Transfer, with its address as
`ogs_asn_BIT_STRING_to_ip` reads it. -/
structure GtpTunnel where
  ipv4 : Bool
  addr : UInt32
  gtpTeid : List UInt8

/-- What `milenage_generate` returns; `ak` is not used. -/
structure Milenage where
  autn : List UInt8
  ik : List UInt8
  ck : List UInt8
  res : List UInt8

/-- The functions of the Open5GS libraries behind the handlers. Where one of them asserts
something of its arguments or may fail, it returns an option. -/
structure Ogs extends OgsSecurity where
  /-- `ogs_nas_mac_calculate(algorithm_identity, knas_int, count, bearer, direction, pkbuf, mac)` -/
  nasMacCalculate : UInt8 → List UInt8 → UInt32 → UInt8 → UInt8 → List UInt8 → List UInt8
  /-- `ogs_nas_5gmm_decode` -/
  nas5gmmDecode : (bytes : List UInt8) → Option {m : GmmMessage // m.Within bytes.length}
  /-- `ogs_nas_5gsm_decode` -/
  nas5gsmDecode : List UInt8 → Option GsmMessage
  /-- `ogs_nas_5gs_plain_encode` -/
  nas5gsPlainEncode : NasMessage → Option (List UInt8)
  /-- `ogs_nas_5gs_imsi_to_bcd`, with the stack behind the string -/
  nas5gsImsiToBcd : MobileIdentity → Option (Mem UInt8)
  /-- `ogs_nas_imeisv_to_bcd` and `ogs_nas_imeisv_bcd_to_buffer` -/
  nasImeisvToBuffer : MobileIdentity → List UInt8
  /-- `milenage_generate(opc, amf, k, sqn, rand, ..)` -/
  milenageGenerate : List UInt8 → List UInt8 → List UInt8 → List UInt8 → List UInt8 → Milenage
  /-- `ogs_serving_network_name_from_plmn_id` of `ogs_plmn_id_build(mcc, mnc, mnc_len)` -/
  servingNetworkName : Nat → Nat → Nat → String
  /-- `ogs_kdf_kausf(ck, ik, serving_network_name, autn)` -/
  kdfKausf : List UInt8 → List UInt8 → String → List UInt8 → List UInt8
  /-- `ogs_kdf_kseaf(serving_network_name, kausf)` -/
  kdfKseaf : String → List UInt8 → List UInt8
  /-- `ogs_kdf_kamf(supi, abba, kseaf)` -/
  kdfKamf : String → List UInt8 → List UInt8 → List UInt8
  /-- `ogs_kdf_kgnb_and_kn3iwf(kamf, ul_count, access_type)` -/
  kdfKgnb : List UInt8 → UInt32 → UInt8 → List UInt8
  /-- `ogs_nas_5gs_suci_from_mobile_identity` -/
  suciFromMobileIdentity : MobileIdentity → Option String
  /-- `ogs_supi_from_suci` -/
  supiFromSuci : String → Option String
  /-- `ogs_auc_sqn(opc, k, rand, auts)`: the sequence number -/
  aucSqn : List UInt8 → List UInt8 → List UInt8 → List UInt8 → List UInt8
  /-- `ogs_ngap_decode` -/
  ngapDecode : List UInt8 → Option NgapUplink
  /-- `ogs_ngap_encode` -/
  ngapEncode : NgapMessage → Option (List UInt8)
  /-- `ogs_asn_encode` of a PDU Session Resource Setup Request Transfer for this address and
  tunnel endpoint -/
  requestTransferEncode : (spgwIp epcTeid : List UInt8) → Option (List UInt8)
  /-- `ogs_asn_decode` of a PDU Session Resource Setup Response Transfer: the tunnel, if the
  transport layer information is one -/
  responseTransferDecode : List UInt8 → Option (Option GtpTunnel)

/-- Libraries for the runs on concrete messages: they decode Registration Complete,
Authentication Response and a UL NAS Transport around three bytes, and encode the answers. Their
key derivation and their codes are constant. -/
def Ogs.reference : Ogs where
  toOgsSecurity := .reference
  nasMacCalculate _ _ _ _ _ _ := [0, 0, 0, 0]
  nas5gmmDecode
    | [0x7e, 0x00, 0x43] => some ⟨.registrationComplete, trivial⟩
    | [0x7e, 0x00, 0x57] => some ⟨.authenticationResponse, trivial⟩
    | [0x7e, 0x00, 0x67, 0x01, 0x00, 0x03, a, b, c, 0x12, 0x01] =>
        some ⟨.ulNasTransport 1 [a, b, c] (some 1), Nat.le_of_ble_eq_true rfl⟩
    | _ => none
  nas5gsmDecode _ := none
  nas5gsPlainEncode m :=
    match m.body with
    | .securityModeCommand => some [0x7e, 0x00, 0x5d, 0x02, 0x00, 0x04, 0xf0, 0xf0, 0xf0, 0xf0]
    | .dlNasTransport payloadContainer =>
        some ([0x7e, 0x00, 0x68, 0x01, 0x00, UInt8.ofNat payloadContainer.length] ++
          payloadContainer ++ [0x12, 0x01])
    | .deregistrationAccept => some [0x7e, 0x00, 0x46]
    | _ => none
  nas5gsImsiToBcd _ := none
  nasImeisvToBuffer _ := List.replicate 8 0
  milenageGenerate _ _ _ _ _ := ⟨[], [], [], [0]⟩
  servingNetworkName _ _ _ := "5G:mnc093.mcc208.3gppnetwork.org"
  kdfKausf _ _ _ _ := List.replicate 32 0
  kdfKseaf _ _ := List.replicate 32 0
  kdfKamf _ _ _ := List.replicate 32 0
  kdfKgnb _ _ _ := List.replicate 32 0
  suciFromMobileIdentity _ := none
  supiFromSuci _ := none
  aucSqn _ _ _ _ := List.replicate 6 0
  ngapDecode _ := none
  ngapEncode
    | .downlinkNasTransport _ _ nasPdu => some nasPdu
    | _ => none
  requestTransferEncode _ _ := none
  responseTransferDecode _ := none

end PublicCloudCore.Worker
