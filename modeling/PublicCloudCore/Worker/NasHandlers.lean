import PublicCloudCore.Worker.NasCodec

/-!
# The NAS handlers of the worker

`nas_handler.c` and the handlers behind it. A handler takes the context of the message and returns
it changed, or `none` where the source returns `OGS_ERROR`; a failing assertion ends the program.
`nas_handler_entrypoint` calls itself through UL NAS Transport, each time with a part of the PDU.
-/

namespace PublicCloudCore.Worker

open Framework CorekubeDb Libck

def nasBuildAuthenticationRequest (rand autn : List UInt8) : NasMessage :=
  ⟨0, 0, .authenticationRequest rand autn⟩

def nasBuildSecurityModeCommand : NasMessage :=
  ⟨3, extendedProtocolDiscriminator5gmm, .securityModeCommand⟩

def nasBuildRegistrationAccept (tmsi : UInt32) : NasMessage :=
  ⟨2, extendedProtocolDiscriminator5gmm, .registrationAccept tmsi⟩

def nasBuildDlNasTransport (payloadContainer : List UInt8) : NasMessage :=
  ⟨2, extendedProtocolDiscriminator5gmm, .dlNasTransport payloadContainer⟩

def nasBuildDeregistrationAccept : NasMessage :=
  ⟨2, extendedProtocolDiscriminator5gmm, .deregistrationAccept⟩

def nasBuildPduSessionEstablishmentAccept (pduIp : UInt32) : NasMessage :=
  ⟨0, 0, .pduSessionEstablishmentAccept pduIp⟩

def coreKubeAmfField : List UInt8 := [0x80, 0x00]
def coreKubeAbbaValue : List UInt8 := [0x00, 0x00]
def coreKubeMcc : Nat := 208
def coreKubeMnc : Nat := 93
def coreKubeMncLen : Nat := 2

/-- The authentication token and the KAMF; `none` is a failing assertion. -/
def nas5gsGenerateKeys (lib : Ogs) (mobIdent : MobileIdentity) (opc key rand sqn : List UInt8) :
    Option (List UInt8 × List UInt8) :=
  let generated := lib.milenageGenerate opc coreKubeAmfField key sqn rand
  if generated.res.length = 0 then none
  else
    let servingNetworkName := lib.servingNetworkName coreKubeMcc coreKubeMnc coreKubeMncLen
    let kausf := lib.kdfKausf generated.ck generated.ik servingNetworkName generated.autn
    let kseaf := lib.kdfKseaf servingNetworkName kausf
    match lib.suciFromMobileIdentity mobIdent with
    | none => none
    | some suci =>
        (lib.supiFromSuci suci).map fun supi =>
          (generated.autn, lib.kdfKamf supi coreKubeAbbaValue kseaf)

def zeroNasCount : Mem UInt8 := .ofList [0, 0, 0, 0, 0, 0] 0

def kamfPushes (kamf : List UInt8) : List PushItem :=
  [⟨.kasme1, .ofList kamf 0, rfl⟩, ⟨.kasme2, (Mem.ofList kamf 0).shift 16, rfl⟩,
    ⟨.epcNasSequenceNumber, zeroNasCount, rfl⟩, ⟨.ueNasSequenceNumber, zeroNasCount, rfl⟩]

/-- A call of `db_access` for the subscriber with this IMSI. -/
def byImsi (imsi : Mem UInt8) (pushes : List PushItem) (pulls : List ItemType) : DbCall where
  dbKey := .imsi
  dbKeyValue := imsi
  key_accepted := imsi_identifies
  pushes
  pulls

def pulled (dbPulls : DbPulls) (t : ItemType) : Processing (Mem UInt8) :=
  (deref (dbPulls t)).toProcessing

def ogsMaxSqn : Nat := 0xffffffffffff

/-- `ogs_buffer_to_uint64(new_sqn, 6)`, the increment and `ogs_uint64_to_buffer`. -/
def nextSqn (sqn : List UInt8) : List UInt8 :=
  let n := ((sqn.take 6).foldl (fun n b => n * 256 + b.toNat) 0 + 32 + 1) % (ogsMaxSqn + 1)
  (List.range 6).map fun i => UInt8.ofNat (n / 256 ^ (5 - i))

def nasHandleRegistrationRequest (lib : Ogs) (mobileIdentity : MobileIdentity) (ctx : Context) :
    Processing (Option Context) := do
  let ranUeNgapId ← Prog.require ctx.params.ranUeNgapId
  let imsi ← Prog.require (lib.nas5gsImsiToBcd mobileIdentity)
  Prog.assert (mobileIdentity.length ≤ 14)
  let mobIdent := [mobileIdentity.length.toUInt8, (mobileIdentity.length >>> 8).toUInt8] ++
    mobileIdentity.buffer.read 0 mobileIdentity.length.toNat
  -- sixteen bytes of the stack, as nobody has cleared them
  let mobIdentBuffer : Mem UInt8 ← Prog.call (Query.pkbufAlloc mobIdent)
  let dbPulls ← (dbAccess (byImsi imsi
    [⟨.enbUeS1apId, .ofList (lib.asnUint32ToOctetString ranUeNgapId.toUInt32) 0, rfl⟩,
      ⟨.knh1, mobIdentBuffer.write 0 mobIdent, rfl⟩]
    [.mmeUeS1apId, .rand, .key, .opc])).toProcessing
  let mmeUeS1apId ← pulled dbPulls .mmeUeS1apId
  let amfUeNgapId := (lib.asnOctetStringToUint32 (mmeUeS1apId.read 0 4)).toUInt64
  let opc ← pulled dbPulls .opc
  let key ← pulled dbPulls .key
  let rand ← pulled dbPulls .rand
  let (autn, kamf) ← Prog.require (nas5gsGenerateKeys lib mobileIdentity (opc.read 0 16)
    (key.read 0 16) (rand.read 0 16) [0, 0, 0, 0, 0, 0])
  let _ ← (dbAccess (byImsi imsi (kamfPushes kamf) [.spgwIp])).toProcessing
  return some {
    params := { ctx.params with amfUeNgapId := some amfUeNgapId }
    response := ctx.response.single
      (.nasMessage (nasBuildAuthenticationRequest (rand.read 0 16) autn)) }

def nasHandleAuthenticationResponse (ctx : Context) : Option Context :=
  some { ctx with response := ctx.response.single (.nasMessage nasBuildSecurityModeCommand) }

def nasHandleAuthenticationFailure (lib : Ogs) (gmmCause : UInt8) (auts : List UInt8)
    (ctx : Context) : Processing (Option Context) := do
  Prog.assert (gmmCause = 21)
  let amfUeNgapId ← Prog.require ctx.params.amfUeNgapId
  let dbPulls ←
    (dbAccess (lib.byAmfUeNgapId amfUeNgapId [] [.rand, .key, .opc, .knh1])).toProcessing
  let opc ← pulled dbPulls .opc
  let key ← pulled dbPulls .key
  let rand ← pulled dbPulls .rand
  let sqn := nextSqn (lib.aucSqn (opc.read 0 16) (key.read 0 16) (rand.read 0 16) auts)
  -- KNH_1 holds the mobile identity, in front of it the two bytes of its length
  let knh1 ← pulled dbPulls .knh1
  let mobIdent : MobileIdentity :=
    ⟨(knh1 0).toUInt16 ||| ((knh1 1).toUInt16 <<< 8), knh1.shift 2⟩
  let (autn, kamf) ← Prog.require (nas5gsGenerateKeys lib mobIdent (opc.read 0 16)
    (key.read 0 16) (rand.read 0 16) sqn)
  let _ ← (dbAccess (lib.byAmfUeNgapId amfUeNgapId (kamfPushes kamf) [.spgwIp])).toProcessing
  return some { ctx with
    response := ctx.response.single
      (.nasMessage (nasBuildAuthenticationRequest (rand.read 0 16) autn)) }

/-- The IMEISV with two of its bytes masked, where the element has the type and the length of
one. -/
def maskImeisv (lib : Ogs) (imeisv : MobileIdentity) (maskedImeisv : Option (List UInt8)) :
    Option (List UInt8) :=
  if imeisv.buffer 0 &&& 7 = 5 ∧ imeisv.length = 9 then
    some (((lib.nasImeisvToBuffer imeisv).set 5 0xff).set 6 0xff)
  else maskedImeisv

def nasHandleSecurityModeComplete (lib : Ogs) (nasMessageContainer : Bool)
    (imeisv : Option MobileIdentity) (ctx : Context) : Processing (Option Context) :=
  if ¬ nasMessageContainer then return none
  else do
    let maskedImeisv := match imeisv with
      | none => ctx.params.maskedImeisv
      | some imeisv => maskImeisv lib imeisv ctx.params.maskedImeisv
    let amfUeNgapId ← Prog.require ctx.params.amfUeNgapId
    let dbPulls ← (dbAccess (lib.byAmfUeNgapId amfUeNgapId [] [.tmsi])).toProcessing
    let tmsi ← pulled dbPulls .tmsi
    return some {
      params := { ctx.params with maskedImeisv }
      response := ctx.response.single
        (.nasMessage (nasBuildRegistrationAccept (lib.asnOctetStringToUint32 (tmsi.read 0 4)))) }

def nasHandleDeregistrationRequestFromUe (type : DeRegistrationType) (ctx : Context) :
    Processing (Option Context) := do
  Prog.assert (type.accessType = nasSecurityAccessType3gpp)
  Prog.assert (type.reRegistrationRequired = false)
  if type.switchOff then return some { ctx with response := ctx.response.clear }
  else
    return some { ctx with
      response := ctx.response.single (.nasMessage nasBuildDeregistrationAccept) }

/-- What `nas_handler_entrypoint` does with a PDU that is shorter than `n`. -/
abbrev InnerHandler (n : Nat) :=
  (nasPdu : List UInt8) → nasPdu.length < n → Context → Processing Context

/-- The container's bytes are as they arrived; its length is cut down to eight bits. -/
def nasHandleUlNasTransport {n : Nat} (inner : InnerHandler n) (payloadContainerType : UInt8)
    (payloadContainer : List UInt8) (pduSessionId : Option UInt8)
    (within : payloadContainer.length < n) (ctx : Context) : Processing (Option Context) := do
  Prog.assert (payloadContainerType ≠ 0)
  Prog.assert (payloadContainer.length ≠ 0)
  let pduSessionId ← Prog.require pduSessionId
  Prog.assert (pduSessionId ≠ 0)
  if payloadContainerType = 1 then do
    let ctx ← inner (payloadContainer.take (payloadContainer.length % 256))
      (Nat.lt_of_le_of_lt (List.length_take_le' _ _) within) ctx
    Prog.assert (ctx.response.numResponses = 1)
    let nasPkbuf ← consume .ulNasTransport Slot.nasBuffer? (ctx.response.responses 0)
    return some { ctx with
      response := ctx.response.single (.nasMessage (nasBuildDlNasTransport nasPkbuf)) }
  else return none

def nasPduSessionEstablishmentFetchPduIp (lib : Ogs) (amfUeNgapId : UInt64) :
    Processing UInt32 := do
  let dbPulls ← (dbAccess (lib.byAmfUeNgapId amfUeNgapId [] [.pdnIp])).toProcessing
  let pdnIp ← pulled dbPulls .pdnIp
  return lib.asnOctetStringToUint32 (pdnIp.read 0 4)

def nasHandlePduSessionEstablishmentRequest (lib : Ogs) (pduSessionType : UInt8) (ctx : Context) :
    Processing (Option Context) := do
  Prog.assert (pduSessionType = 1)
  let amfUeNgapId ← Prog.require ctx.params.amfUeNgapId
  let pduIp ← nasPduSessionEstablishmentFetchPduIp lib amfUeNgapId
  return some { ctx with
    response := ctx.response.single (.nasMessage (nasBuildPduSessionEstablishmentAccept pduIp)) }

/-- `params->nas_message_type = messageType` -/
def Context.withMessageType (ctx : Context) (messageType : UInt8) : Context :=
  { ctx with params := { ctx.params with nasMessageType := messageType } }

def nas5gmmHandler (lib : Ogs) {n : Nat} (inner : InnerHandler n) (m : GmmMessage)
    (within : m.Within n) (ctx : Context) : Processing (Option Context) :=
  let ctx := ctx.withMessageType m.messageType
  match m, within with
  | .registrationRequest mobileIdentity, _ => nasHandleRegistrationRequest lib mobileIdentity ctx
  | .authenticationResponse, _ => return nasHandleAuthenticationResponse ctx
  | .authenticationFailure gmmCause auts, _ =>
      nasHandleAuthenticationFailure lib gmmCause auts ctx
  | .securityModeComplete nasMessageContainer imeisv, _ =>
      nasHandleSecurityModeComplete lib nasMessageContainer imeisv ctx
  | .registrationComplete, _ => return some ctx
  | .ulNasTransport payloadContainerType payloadContainer pduSessionId, within =>
      nasHandleUlNasTransport inner payloadContainerType payloadContainer pduSessionId within ctx
  | .deregistrationRequestFromUe type, _ => nasHandleDeregistrationRequestFromUe type ctx
  | .other _ _, _ => return none

def nas5gsmHandler (lib : Ogs) (m : GsmMessage) (ctx : Context) : Processing (Option Context) :=
  let ctx := ctx.withMessageType m.messageType
  match m with
  | .pduSessionEstablishmentRequest pduSessionType =>
      nasHandlePduSessionEstablishmentRequest lib pduSessionType ctx
  | .other _ _ => return none

/-- `params->nas_security_params` is allocated where it is missing. -/
def NasNgapParams.allocSecurityParams (params : NasNgapParams) : NasNgapParams :=
  { params with nasSecurityParams := some (params.nasSecurityParams.getD .calloc) }

def nasDispatch (lib : Ogs) {n : Nat} (inner : InnerHandler n) (message : NasUplink n)
    (ctx : Context) : Processing (Option Context) :=
  match message with
  | .gmm m within => nas5gmmHandler lib inner m within ctx
  | .gsm m => nas5gsmHandler lib m ctx

/-- `nas_handler_entrypoint` with the handler of the PDUs inside. -/
def nasHandlerWith (lib : Ogs) (nasPdu : List UInt8) (inner : InnerHandler nasPdu.length)
    (ctx : Context) : Processing Context := do
  let converted ← nasBytesToMessage lib ctx.params.allocSecurityParams nasPdu
  let (params, message) ← Prog.require converted
  let handled ← nasDispatch lib inner message ⟨params, ctx.response⟩
  let ctx ← Prog.require handled
  nasMessageToBytes lib ctx

def nasHandlerEntrypoint (lib : Ogs) (nasPdu : List UInt8) (ctx : Context) : Processing Context :=
  nasHandlerWith lib nasPdu (fun inner _ ctx => nasHandlerEntrypoint lib inner ctx) ctx
termination_by nasPdu.length

end PublicCloudCore.Worker
