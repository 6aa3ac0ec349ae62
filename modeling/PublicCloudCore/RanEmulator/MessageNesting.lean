import PublicCloudCore.RanEmulator.Ngap
import PublicCloudCore.RanEmulator.S1ap

/-!
# The generated messages are well nested

The header lengths, the item counts and the steps are written into the generators by hand. They
agree with the octets for every eNB, every UE and all keys, as long as the identifier that the core
network gave the UE is no longer than its array.
-/

namespace PublicCloudCore.RanEmulator.CoreMessages

open Framework

/-- The messages of `ngap.c`. -/
inductive NgMessage
  | setupRequest
  | registrationRequest
  | authenticationResponse
  | securityModeComplete
  | initialContextSetupResponse
  | registrationComplete
  | pduSessionRequest
  | pduSessionResponse
  | deregistrationRequest (switchOff : Int)
  | ueContextReleaseComplete

namespace NgMessage

open Ngap

def generate (crypto : Crypto) (enb : ENB) (ue : UE) (buffer : Mem UInt8) :
    NgMessage → Cursor UInt8
  | setupRequest => generateNGSetupRequest buffer enb
  | registrationRequest => generateNGRegistrationRequest enb ue buffer
  | authenticationResponse => generateNGAuthenticationResponse crypto enb ue buffer
  | securityModeComplete => (generateNGSecurityModeComplete crypto enb ue buffer).1
  | initialContextSetupResponse => generateNGInitialContextSetupResponse ue buffer
  | registrationComplete => (generateNGRegistrationComplete crypto enb ue buffer).1
  | pduSessionRequest => (generateNGPDUSessionRequest crypto enb ue buffer).1
  | pduSessionResponse => generateNGPDUSessionResponse ue buffer
  | deregistrationRequest switchOff =>
      (generateNGDeregistrationRequest crypto enb ue buffer switchOff).1
  | ueContextReleaseComplete => generateNGUEContextReleaseComplete enb ue buffer

theorem wellNested_written (crypto : Crypto) (enb : ENB) {ue : UE}
    (hue : ue.mmeS1apIdLen.toNat ≤ 16) (buffer : Mem UInt8) (message : NgMessage) :
    WellNested nasPduId (message.generate crypto enb ue buffer).written := by
  cases message with
  | setupRequest =>
      exact wellNested_header _ _ [addProtocolIEGlobalRANNodeID enb, addProtocolIERANNodeName,
        addProtocolIETAList enb, addProtocolIEDefaultPagingDRX] (by simp) rfl (by decide) rfl
  | registrationRequest =>
      exact wellNested_header _ _ [addProtocolIERANUENGAPID ue,
        addProtocolIENASPDURegistrationRequest ue enb, addProtocolIEUserLocationInformation enb,
        addProtocolIERRCEstablishmentCause causeMtAccess, addProtocolIEUEContextRequest]
        (by simp) rfl (by decide) rfl
  | authenticationResponse =>
      exact wellNested_addressed hue _ [addProtocolIENASPDURegistrationResponse crypto ue,
        addProtocolIEUserLocationInformation enb] (by simp) rfl (by decide) rfl
  | securityModeComplete =>
      exact wellNested_addressed hue _ [(addProtocolIENASPDUSecurityModeComplete crypto ue enb).1,
        addProtocolIEUserLocationInformation enb] (by simp) rfl (by decide) rfl
  | initialContextSetupResponse =>
      exact wellNested_addressed hue _ [] (by simp) rfl (by decide) rfl
  | registrationComplete =>
      exact wellNested_addressed hue _ [(addProtocolIENASPDURegistrationComplete crypto ue).1,
        addProtocolIEUserLocationInformation enb] (by simp) rfl (by decide) rfl
  | pduSessionRequest =>
      exact wellNested_addressed hue _ [(addProtocolIENASPDUPDUSessionRequest crypto ue).1,
        addProtocolIEUserLocationInformation enb] (by simp) rfl (by decide) rfl
  | pduSessionResponse =>
      exact wellNested_addressed hue _ [addProtocolIENASPDUPDUSessionResponse ue] (by simp) rfl
        (by decide) rfl
  | deregistrationRequest switchOff =>
      exact wellNested_addressed hue _
        [(addProtocolIENASPDUDeregistrationRequest crypto ue switchOff).1,
          addProtocolIEUserLocationInformation enb] (by simp) rfl (by decide) rfl
  | ueContextReleaseComplete =>
      exact wellNested_addressed hue _ [addProtocolIEUserLocationInformation enb] (by simp) rfl
        (by decide) rfl

end NgMessage

/-- The messages of `s1ap.c`. -/
inductive S1Message
  | setupRequest
  | initialUEMessage
  | authenticationResponse
  | securityCommandComplete
  | attachComplete
  | ueCapabilityInfoIndication
  | initialContextSetupResponse (ueIp : Vector UInt8 4)
  | ueContextReleaseRequest
  | ueContextReleaseResponse
  | ueDetach (switchOff : UInt8)
  | serviceRequest
  | pathSwitchRequest

namespace S1Message

open S1ap

def generate (crypto : Crypto) (enb : ENB) (ue : UE) (challenge : AuthChallenge) :
    S1Message → S1apInitiatingMessage
  | setupRequest => generateS1apInitiatingMessage enb
  | initialUEMessage => generateInitiatingMessage enb ue
  | authenticationResponse => generateS1APAuthenticationResponse enb ue challenge
  | securityCommandComplete => (generateS1APSecurityCommandComplete crypto enb ue challenge).1
  | attachComplete => (generateS1APAttachComplete crypto enb ue challenge).1
  | ueCapabilityInfoIndication => generateS1APUeCapabilityInfoIndication ue
  | initialContextSetupResponse ueIp => generateS1APInitialContextSetupResponse ue ueIp
  | ueContextReleaseRequest => generateUEContextReleaseRequestMessage ue
  | ueContextReleaseResponse => generateUEContextReleaseResponseMessage ue
  | ueDetach switchOff => (generateS1apUEDetach crypto enb ue challenge switchOff).1
  | serviceRequest => (generateServiceRequestMessage crypto enb ue challenge).1
  | pathSwitchRequest => generatePathSwitchRequestMessage enb ue

theorem sent_generate (crypto : Crypto) (enb : ENB) {ue : UE}
    (hue : ue.mmeS1apIdLen.toNat ≤ 16) (challenge : AuthChallenge) (message : S1Message) :
    Sent (message.generate crypto enb ue challenge) := by
  have hmme := isItem_mmeUeS1apId hue
  have hstep := step_mmeUeS1apId hue
  cases message with
  | setupRequest =>
      refine sent_initiatingMessage _ _ _ [generateProtocolIEGlobalEnbId enb,
        generateProtocolIEEnbName, generateProtocolIESupportedTas enb,
        generateProtocolIEDefaultPagingDrx] (by simp) ?_ rfl
      simp [generateProtocolIEGlobalEnbId, generateProtocolIEEnbName,
        generateProtocolIESupportedTas, generateProtocolIEDefaultPagingDrx]
  | initialUEMessage =>
      refine sent_initiatingMessage _ _ _ [generateProtocolIEEnbUeS1apId ue,
        generateProtocolIENasPdu ue, generateProtocolIETai enb, generateProtocolIEEutranCgi enb,
        generateProtocolIERrcEstablishmentCause moSignalling] (by simp) ?_ rfl
      simp [generateProtocolIEEnbUeS1apId, generateProtocolIENasPdu, generateProtocolIETai,
        generateProtocolIEEutranCgi, generateProtocolIERrcEstablishmentCause]
  | authenticationResponse =>
      refine sent_initiatingMessage _ _ _ [generateProtocolIEMmeUeS1apId ue,
        generateProtocolIEEnbUeS1apId ue, generateProtocolIENasPduAuthResponse challenge,
        generateProtocolIEEutranCgi enb,
        (generateProtocolIETai enb).withCriticality criticalityIgnore] (by simp [hmme]) ?_ rfl
      simp [generateProtocolIEEnbUeS1apId, generateProtocolIENasPduAuthResponse,
        generateProtocolIEEutranCgi, generateProtocolIETai]
      omega
  | securityCommandComplete =>
      refine sent_initiatingMessage _ _ _ [generateProtocolIEMmeUeS1apId ue,
        generateProtocolIEEnbUeS1apId ue,
        (generateProtocolIENasPduSecurityCommandComplete crypto ue challenge).1,
        generateProtocolIEEutranCgi enb,
        (generateProtocolIETai enb).withCriticality criticalityIgnore] (by simp [hmme]) ?_ rfl
      simp [generateProtocolIEEnbUeS1apId, generateProtocolIENasPduSecurityCommandComplete,
        generateProtocolIEEutranCgi, generateProtocolIETai, protectedNasPdu]
      omega
  | attachComplete =>
      refine sent_initiatingMessage _ _ _ [generateProtocolIEMmeUeS1apId ue,
        generateProtocolIEEnbUeS1apId ue,
        (generateProtocolIENasPduAttachComplete crypto ue challenge).1,
        generateProtocolIEEutranCgi enb,
        (generateProtocolIETai enb).withCriticality criticalityIgnore] (by simp [hmme]) ?_ rfl
      simp [generateProtocolIEEnbUeS1apId, generateProtocolIENasPduAttachComplete,
        generateProtocolIEEutranCgi, generateProtocolIETai, protectedNasPdu]
      omega
  | ueCapabilityInfoIndication =>
      refine sent_initiatingMessage _ _ _ [generateProtocolIEMmeUeS1apId ue,
        generateProtocolIEEnbUeS1apId ue, generateProtocolIEUeCapabilityInfoIndication]
        (by simp [hmme]) ?_ rfl
      simp [generateProtocolIEEnbUeS1apId, generateProtocolIEUeCapabilityInfoIndication]
      omega
  | initialContextSetupResponse ueIp =>
      refine sent_initiatingMessage _ _ _ [
        (generateProtocolIEMmeUeS1apId ue).withCriticality criticalityIgnore,
        (generateProtocolIEEnbUeS1apId ue).withCriticality criticalityIgnore,
        generateProtocolIEERabSetupListCTxtSuRes ue ueIp] (by simp [hmme]) ?_ rfl
      simp [generateProtocolIEEnbUeS1apId, generateProtocolIEERabSetupListCTxtSuRes]
      omega
  | ueContextReleaseRequest =>
      refine sent_initiatingMessage _ _ _ [
        (generateProtocolIEMmeUeS1apId ue).withCriticality criticalityReject,
        (generateProtocolIEEnbUeS1apId ue).withCriticality criticalityReject,
        generateProtocolIECause.withCriticality criticalityIgnore] (by simp [hmme]) ?_ rfl
      simp [generateProtocolIEEnbUeS1apId, generateProtocolIECause]
      omega
  | ueContextReleaseResponse =>
      refine sent_initiatingMessage _ _ _ [
        (generateProtocolIEMmeUeS1apId ue).withCriticality criticalityReject,
        (generateProtocolIEEnbUeS1apId ue).withCriticality criticalityReject]
        (by simp [hmme]) ?_ rfl
      simp [generateProtocolIEEnbUeS1apId]
      omega
  | ueDetach switchOff =>
      refine sent_initiatingMessage _ _ _ [generateProtocolIEMmeUeS1apId ue,
        generateProtocolIEEnbUeS1apId ue,
        (generateProtocolIENasPduDetach crypto ue challenge switchOff).1,
        generateProtocolIEEutranCgi enb, generateProtocolIETai enb] (by simp [hmme]) ?_ rfl
      simp [generateProtocolIEEnbUeS1apId, generateProtocolIENasPduDetach,
        generateProtocolIEEutranCgi, generateProtocolIETai, protectedNasPdu]
      omega
  | serviceRequest =>
      refine sent_initiatingMessage _ _ _ [generateProtocolIEEnbUeS1apId ue,
        (generateProtocolIENasPduServiceRequest crypto ue challenge).1, generateProtocolIETai enb,
        generateProtocolIEEutranCgi enb, generateProtocolIERrcEstablishmentCause moData,
        generateProtocolIESTmsi ue] (by simp) ?_ rfl
      simp [generateProtocolIEEnbUeS1apId, generateProtocolIENasPduServiceRequest,
        generateProtocolIETai, generateProtocolIEEutranCgi,
        generateProtocolIERrcEstablishmentCause, generateProtocolIESTmsi]
  | pathSwitchRequest =>
      refine sent_initiatingMessage _ _ _ [generateProtocolIEEnbUeS1apId ue,
        generateProtocolIEERabToBeSwitchedDlList ue, generateSourceMmeUeS1apId ue,
        generateProtocolIEEutranCgi enb, generateProtocolIETai enb,
        generateProtocolIESecurityCapabilities ue] (by simp [isItem_sourceMmeUeS1apId hue]) ?_ rfl
      simp [generateProtocolIEEnbUeS1apId, generateProtocolIEERabToBeSwitchedDlList,
        generateProtocolIEEutranCgi, generateProtocolIETai,
        generateProtocolIESecurityCapabilities, step_sourceMmeUeS1apId]
      omega

end S1Message

/-- Every message that the emulator builds for the core network is well nested, up to the length
that its generator returns. -/
theorem generatedMessages_wellNested (crypto : Crypto) (enb : ENB) (ue : UE)
    (hue : ue.mmeS1apIdLen.toNat ≤ 16) :
    (∀ (message : NgMessage) (buffer : Mem UInt8),
        WellNested Ngap.nasPduId (message.generate crypto enb ue buffer).written) ∧
      ∀ (message : S1Message) (challenge : AuthChallenge),
        WellNested S1ap.nasPduId (message.generate crypto enb ue challenge).toBuffer.1 ∧
          (message.generate crypto enb ue challenge).toBuffer.2.toNat =
            (message.generate crypto enb ue challenge).toBuffer.1.length :=
  ⟨fun message buffer => message.wellNested_written crypto enb hue buffer,
    fun message challenge => message.sent_generate crypto enb hue challenge⟩

/-- A UE with number 7 whose identifier at the AMF is `01 02`. -/
def registeredUE : UE :=
  { (default : UE) with id := 7, mmeS1apId := Mem.ofList [0x01, 0x02] 0, mmeS1apIdLen := 2 }

theorem generatedMessages_wellNested_registeredUE :
    registeredUE.mmeS1apIdLen.toNat ≤ 16 ∧
      (NgMessage.initialContextSetupResponse.generate ⟨fun _ _ => default, fun _ _ => default⟩
          default registeredUE fun _ => 0).written =
        [0x20, 0x0E, 0x00, 0x10, 0, 0, 2, 0x00, 0x0a, 0x00, 2, 0x01, 0x02,
          0x00, 0x55, 0x00, 3, 0x40, 0x00, 0x07] ∧
      WellNested Ngap.nasPduId
        (NgMessage.initialContextSetupResponse.generate ⟨fun _ _ => default, fun _ _ => default⟩
          default registeredUE fun _ => 0).written ∧
      WellNested S1ap.nasPduId
        (S1Message.ueContextReleaseRequest.generate ⟨fun _ _ => default, fun _ _ => default⟩
          default registeredUE default).toBuffer.1 :=
  have h := generatedMessages_wellNested ⟨fun _ _ => default, fun _ _ => default⟩ default
    registeredUE (by decide)
  ⟨by decide, by decide, h.1 .initialContextSetupResponse fun _ => 0,
    (h.2 .ueContextReleaseRequest default).1⟩

end PublicCloudCore.RanEmulator.CoreMessages
