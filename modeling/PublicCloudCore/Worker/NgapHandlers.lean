import PublicCloudCore.Worker.NasHandlers

/-!
# The NGAP handlers of the worker

`ngap_handler.c` and the handlers behind it, down to the encoded responses. The loops over the
information elements keep the last element of each kind.
-/

namespace PublicCloudCore.Worker

open Framework CorekubeDb Libck

namespace ProtocolIe

def ranUeNgapId? : ProtocolIe → Option UInt64
  | ranUeNgapId id => some id
  | _ => none

def amfUeNgapId? : ProtocolIe → Option UInt64
  | amfUeNgapId id => some id
  | _ => none

def nasPdu? : ProtocolIe → Option (List UInt8)
  | nasPdu pdu => some pdu
  | _ => none

def userLocationInformation? : ProtocolIe → Option Bool
  | userLocationInformation nr => some nr
  | _ => none

def globalRanNodeId? : ProtocolIe → Option Bool
  | globalRanNodeId globalGnbId => some globalGnbId
  | _ => none

def supportedTaList? : ProtocolIe → Option Unit
  | supportedTaList => some ()
  | _ => none

def pduSessionList? : ProtocolIe → Option (List (UInt8 × List UInt8))
  | pduSessionResourceSetupListSuRes items => some items
  | _ => none

/-- The element that the loop's pointer leads to in the end. -/
def find {α : Type} (kind : ProtocolIe → Option α) (ies : List ProtocolIe) : Option α :=
  (ies.filterMap kind).getLast?

end ProtocolIe

/-- The bytes of the encoded NAS message that a builder puts into its NGAP message. -/
def nasPduOf (x : Slot) : Processing (List UInt8) := consume .ngapBuilder Slot.nasBuffer? x

def ngapBuildDownlinkNasTransport (amfUeNgapId ranUeNgapId : UInt64) (nasPdu : Slot) :
    Processing NgapMessage := do
  Prog.assert (amfUeNgapId ≠ 0)
  Prog.assert (ranUeNgapId ≠ 0)
  let nasPdu ← nasPduOf nasPdu
  return .downlinkNasTransport amfUeNgapId ranUeNgapId nasPdu

def ngapBuildInitialContextSetupRequest (amfUeNgapId ranUeNgapId : UInt64)
    (kgnb maskedImeisv : List UInt8) (nasPdu : Slot) : Processing NgapMessage := do
  Prog.assert (amfUeNgapId ≠ 0)
  Prog.assert (ranUeNgapId ≠ 0)
  let nasPdu ← nasPduOf nasPdu
  return .initialContextSetupRequest amfUeNgapId ranUeNgapId kgnb maskedImeisv nasPdu

/-- The transfer: the address and the tunnel endpoint come from the database. -/
def nasBuildNgapPduSessionResourceSetupRequestTransfer (lib : Ogs) (amfUeNgapId : UInt64) :
    Processing (Option (List UInt8)) := do
  let dbPulls ←
    (dbAccess (lib.byAmfUeNgapId amfUeNgapId [] [.epcTeid, .spgwIp])).toProcessing
  let epcTeid ← pulled dbPulls .epcTeid
  let spgwIp ← pulled dbPulls .spgwIp
  return lib.requestTransferEncode (spgwIp.read 0 4) (epcTeid.read 0 4)

def ngapBuildPduSessionResourceSetupRequest (lib : Ogs) (amfUeNgapId ranUeNgapId : UInt64)
    (nasPdu : Slot) : Processing NgapMessage := do
  Prog.assert (amfUeNgapId ≠ 0)
  Prog.assert (ranUeNgapId ≠ 0)
  let nasPdu ← nasPduOf nasPdu
  let transferBuf ← nasBuildNgapPduSessionResourceSetupRequestTransfer lib amfUeNgapId
  let transfer ← Prog.require transferBuf
  return .pduSessionResourceSetupRequest amfUeNgapId ranUeNgapId nasPdu transfer

def ngapBuildUeContextReleaseCommand (amfUeNgapId ranUeNgapId : UInt64) : NgapMessage :=
  .ueContextReleaseCommand amfUeNgapId ranUeNgapId

/-- `none` is `OGS_ERROR`. -/
def ngapHandleNgSetupRequest (ies : List ProtocolIe) (response : Response) : Option Response :=
  match ProtocolIe.find ProtocolIe.globalRanNodeId? ies,
    ProtocolIe.find ProtocolIe.supportedTaList? ies with
  | some true, some _ =>
      some { response.single (.ngapMessage .ngSetupResponse) with sctpStreamId := 0 }
  | _, _ => none

def ngapHandleInitialUeMessage (lib : Ogs) (ies : List ProtocolIe) (response : Response) :
    Processing Response := do
  let ranUeNgapId ← Prog.require (ProtocolIe.find ProtocolIe.ranUeNgapId? ies)
  let nr ← Prog.require (ProtocolIe.find ProtocolIe.userLocationInformation? ies)
  Prog.assert (nr = true)
  let nasPdu ← Prog.require (ProtocolIe.find ProtocolIe.nasPdu? ies)
  let ctx ← nasHandlerEntrypoint lib nasPdu ⟨⟨some ranUeNgapId, none, 0, none, none⟩, response⟩
  Prog.assert (ctx.response.numResponses = 1)
  let amfUeNgapId ← Prog.require ctx.params.amfUeNgapId
  let message ←
    ngapBuildDownlinkNasTransport amfUeNgapId ranUeNgapId (ctx.response.responses 0)
  return ctx.response.single (.ngapMessage message)

/-- The switch over the message type that the NAS handler has left behind. -/
def uplinkNasTransportResponse (lib : Ogs) (amfUeNgapId ranUeNgapId : UInt64) (ctx : Context) :
    Processing Response :=
  let params := ctx.params
  let response := ctx.response
  if params.nasMessageType = 94 then do
    Prog.assert (response.numResponses = 1)
    let maskedImeisv ← Prog.require params.maskedImeisv
    let securityParams ← Prog.require params.nasSecurityParams
    let kamf ← Prog.require securityParams.kamf
    let kgnb := lib.kdfKgnb kamf securityParams.ulCount nasSecurityAccessType3gpp
    let message ← ngapBuildInitialContextSetupRequest amfUeNgapId ranUeNgapId kgnb maskedImeisv
      (response.responses 0)
    return response.single (.ngapMessage message)
  else if params.nasMessageType = 193 then do
    Prog.assert (response.numResponses = 1)
    let amfUeNgapId ← Prog.require params.amfUeNgapId
    let message ← ngapBuildPduSessionResourceSetupRequest lib amfUeNgapId ranUeNgapId
      (response.responses 0)
    return response.single (.ngapMessage message)
  else if params.nasMessageType = 67 then do
    Prog.assert (response.numResponses = 0)
    return response
  else if params.nasMessageType = 69 then do
    let amfUeNgapId ← Prog.require params.amfUeNgapId
    let release := ngapBuildUeContextReleaseCommand amfUeNgapId ranUeNgapId
    if response.numResponses = 1 then do
      let message ←
        ngapBuildDownlinkNasTransport amfUeNgapId ranUeNgapId (response.responses 0)
      return { (response.single (.ngapMessage message)).set 1 (.ngapMessage release) with
        numResponses := 2 }
    else return response.single (.ngapMessage release)
  else do
    Prog.assert (response.numResponses = 1)
    let amfUeNgapId ← Prog.require params.amfUeNgapId
    let message ← ngapBuildDownlinkNasTransport amfUeNgapId ranUeNgapId (response.responses 0)
    return response.single (.ngapMessage message)

def ngapHandleUplinkNasTransport (lib : Ogs) (ies : List ProtocolIe) (response : Response) :
    Processing Response := do
  let ranUeNgapId ← Prog.require (ProtocolIe.find ProtocolIe.ranUeNgapId? ies)
  let amfUeNgapId ← Prog.require (ProtocolIe.find ProtocolIe.amfUeNgapId? ies)
  let nr ← Prog.require (ProtocolIe.find ProtocolIe.userLocationInformation? ies)
  Prog.assert (nr = true)
  let nasPdu ← Prog.require (ProtocolIe.find ProtocolIe.nasPdu? ies)
  let ctx ← nasHandlerEntrypoint lib nasPdu
    ⟨⟨some ranUeNgapId, some amfUeNgapId, 0, none, none⟩, response⟩
  uplinkNasTransportResponse lib amfUeNgapId ranUeNgapId ctx

/-- `ngap_handle_pdu_session_resource_setup_response_transfer` -/
def ngapHandleResponseTransfer (lib : Ogs) (amfUeNgapId : UInt64) (transfer : List UInt8) :
    Processing Unit := do
  let decoded ← Prog.require (lib.responseTransferDecode transfer)
  let gtpTunnel ← Prog.require decoded
  Prog.assert (gtpTunnel.ipv4 = true)
  let gnbN3Teid := lib.asnOctetStringToUint32 gtpTunnel.gtpTeid
  let _ ← (dbAccess (lib.byAmfUeNgapId amfUeNgapId
    [⟨.ueTeid, .ofList (lib.asnUint32ToOctetString gnbN3Teid) 0, rfl⟩,
      ⟨.enbIp, .ofList (lib.asnUint32ToOctetString gtpTunnel.addr) 0, rfl⟩]
    [.pdnIp])).toProcessing
  return ()

def ngapHandlePduSessionResourceSetupResponse (lib : Ogs) (ies : List ProtocolIe)
    (response : Response) : Processing Response := do
  let amfUeNgapId ← Prog.require (ProtocolIe.find ProtocolIe.amfUeNgapId? ies)
  let items ← Prog.require (ProtocolIe.find ProtocolIe.pduSessionList? ies)
  items.forM fun item => do
    Prog.assert (item.1 ≠ 0)
    ngapHandleResponseTransfer lib amfUeNgapId item.2
  return response.clear

def ngapInitiatingMessageHandler (lib : Ogs) (m : InitiatingMessage) (response : Response) :
    Processing (Option Response) :=
  match m with
  | .ngSetupRequest ies => return ngapHandleNgSetupRequest ies response
  | .initialUeMessage ies => some <$> ngapHandleInitialUeMessage lib ies response
  | .uplinkNasTransport ies => some <$> ngapHandleUplinkNasTransport lib ies response
  | .other => return none

def ngapSuccessfulOutcomeHandler (lib : Ogs) (m : SuccessfulOutcome) (response : Response) :
    Processing (Option Response) :=
  let response := response.clear
  match m with
  | .initialContextSetupResponse => return some response
  | .pduSessionResourceSetupResponse ies =>
      some <$> ngapHandlePduSessionResourceSetupResponse lib ies response
  | .ueContextReleaseComplete => return some response
  | .other => return none

def ngapMessageHandler (lib : Ogs) (m : NgapUplink) (response : Response) :
    Processing (Option Response) :=
  let response := { response with sctpStreamId := 1 }
  match m with
  | .initiatingMessage m => ngapInitiatingMessageHandler lib m response
  | .successfulOutcome m => ngapSuccessfulOutcomeHandler lib m response
  | .other => return none

/-- `message_to_bytes`, on a slot and into the same slot. -/
def messageToBytes (lib : Ogs) (response : Response) (i : Nat) : Processing Response := do
  let message ← consume .messageToBytes Slot.ngapMessage? (response.responses i)
  return response.set i (.ngapBuffer (lib.ngapEncode message))

/-- `ngap_handler_entrypoint` behind `bytes_to_message`. -/
def handleNgapMessage (lib : Ogs) (m : NgapUplink) (response : Response) :
    Processing Response := do
  let handled ← ngapMessageHandler lib m response
  let response ← Prog.require handled
  (List.range response.numResponses).foldlM (messageToBytes lib) response

/-- A message that does not decode is logged and has no response. -/
def ngapHandlerEntrypoint (lib : Ogs) (incoming : List UInt8) (response : Response) :
    Processing Response :=
  match lib.ngapDecode incoming with
  | none => return response
  | some m => handleNgapMessage lib m response

end PublicCloudCore.Worker
