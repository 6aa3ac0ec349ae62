import PublicCloudCore.Worker.Messages

/-!
# The NAS codec of the worker

`nas_5gs_security_encode`, `nas_5gs_security_decode` and the conversions of `nas_handler.c`. The
response slots are untyped pointers; here a slot holds what was last put into it, and each use of
a slot is observed.
-/

namespace PublicCloudCore.Worker

open Framework CorekubeDb Libck

/-- What a pointer in `response->responses` leads to. -/
inductive Slot
  | unset
  | nasMessage (m : NasMessage)
  -- a packet buffer with an encoded NAS message
  | nasBuffer (bytes : List UInt8)
  | ngapMessage (m : NgapMessage)
  -- the result of `ogs_ngap_encode`, a packet buffer or a null pointer
  | ngapBuffer (encoded : Option (List UInt8))

/-- `message_handler_response_t` -/
structure Response where
  numResponses : Nat
  responses : Nat → Slot
  sctpStreamId : UInt8

namespace Response

/-- `response->responses[i] = ..` -/
def set (r : Response) (i : Nat) (x : Slot) : Response :=
  { r with responses := Function.update r.responses i x }

/-- `response->num_responses = 1` and the first response. -/
def single (r : Response) (x : Slot) : Response := { r.set 0 x with numResponses := 1 }

def clear (r : Response) : Response := { r with numResponses := 0 }

@[simp] theorem set_numResponses (r : Response) (i : Nat) (x : Slot) :
    (r.set i x).numResponses = r.numResponses := rfl

@[simp] theorem single_numResponses (r : Response) (x : Slot) : (r.single x).numResponses = 1 := rfl

@[simp] theorem clear_numResponses (r : Response) : r.clear.numResponses = 0 := rfl

@[simp] theorem set_responses_self (r : Response) (i : Nat) (x : Slot) :
    (r.set i x).responses i = x := Function.update_self ..

theorem set_responses_of_ne (r : Response) {i j : Nat} (h : j ≠ i) (x : Slot) :
    (r.set i x).responses j = r.responses j := Function.update_of_ne h ..

@[simp] theorem single_responses_zero (r : Response) (x : Slot) : (r.single x).responses 0 = x :=
  set_responses_self r 0 x

end Response

/-- The code that takes what a slot holds for one thing or another. -/
inductive Consumer
  | nasMessageToBytes
  | ngapBuilder
  | ulNasTransport
  | messageToBytes

def Consumer.Expects : Consumer → Slot → Prop
  | nasMessageToBytes, x => ∃ m, x = .nasMessage m
  | ngapBuilder, x => ∃ bytes, x = .nasBuffer bytes
  | ulNasTransport, x => ∃ bytes, x = .nasBuffer bytes
  | messageToBytes, x => ∃ m, x = .ngapMessage m

inductive Observation
  -- `ogs_nas_mac_calculate` for a downlink message
  | protects (p : Protection)
  -- the comparison of the received code with the calculated one
  | verifies (received calculated : List UInt8)
  | consumes (c : Consumer) (x : Slot)

abbrev Processing (α : Type) := Prog Query Answer Observation α

/-- The programs of the database accesses and the key store, among the handlers. -/
def Handler.toProcessing {α : Type} (p : Handler α) : Processing α := p.mapObservation .protects

def Slot.nasMessage? : Slot → Option NasMessage
  | nasMessage m => some m
  | _ => none

def Slot.nasBuffer? : Slot → Option (List UInt8)
  | nasBuffer bytes => some bytes
  | _ => none

def Slot.ngapMessage? : Slot → Option NgapMessage
  | ngapMessage m => some m
  | _ => none

/-- The use of a slot: nothing is known of what follows where it holds something else. -/
def consume {α : Type} (c : Consumer) (view : Slot → Option α) (x : Slot) : Processing α := do
  Prog.observe (.consumes c x)
  Prog.require (view x)

/-- The parameters and the responses that the handlers pass on and change. -/
structure Context where
  params : NasNgapParams
  response : Response

def nasHeadroom : Nat := 16
def nasSecurityAccessType3gpp : UInt8 := 1
def nasSecurityUplinkDirection : UInt8 := 0
def nasSecurityDownlinkDirection : UInt8 := 1

/-- The switches over the security header type, when the algorithms have had their say: with EEA0
nothing is ciphered, and 128-EIA2 protects what the header declares. -/
def integrityProtected (securityHeaderType : UInt8) : Option Bool :=
  if securityHeaderType = 0 then some false
  else if securityHeaderType ≤ 4 then some true
  else none

/-- The integrity key is fetched from the database where it is missing. -/
def requireKnasInt (lib : Ogs) (params : NasNgapParams) (includeCounts : NasCounts) :
    Processing NasNgapParams := do
  let securityParams ← Prog.require params.nasSecurityParams
  match securityParams.knasInt with
  | some _ => return params
  | none => do
      let fetched ← (nasSecurityFetchKeys lib.toOgsSecurity params includeCounts).toProcessing
      Prog.require fetched

/-- `none` is a null pointer. -/
def nas5gsSecurityEncode (lib : Ogs) (params : NasNgapParams) (message : NasMessage) :
    Processing (Option (NasNgapParams × List UInt8)) := do
  let securityParams ← Prog.require params.nasSecurityParams
  match integrityProtected message.securityHeaderType with
  | none => return none
  | some false => return (lib.nas5gsPlainEncode message).map (params, ·)
  | some true =>
      -- taken before the count is fetched
      let sequenceNumber := securityParams.dlCount.toUInt8
      match lib.nas5gsPlainEncode message with
      | none => return none
      | some plain => do
          let new := sequenceNumber :: plain
          let params ← requireKnasInt lib params .justDl
          let securityParams ← Prog.require params.nasSecurityParams
          let knasInt ← Prog.require securityParams.knasInt
          Prog.observe (.protects ⟨securityParams.owner, knasInt, securityParams.dlCount, new⟩)
          let mac := lib.nasMacCalculate nasSecurityIntAlgorithm knasInt securityParams.dlCount
            nasSecurityAccessType3gpp nasSecurityDownlinkDirection new
          return some (params,
            message.extendedProtocolDiscriminator :: message.securityHeaderType :: mac ++ new)

def nas5gsSecurityDecode (lib : Ogs) (params : NasNgapParams) (integrityProtected : Bool)
    (pkbuf : Pkbuf) : Processing (NasNgapParams × {b : Pkbuf // b.len = pkbuf.len}) := do
  if pkbuf.byte 0 = extendedProtocolDiscriminator5gsm then return (params, ⟨pkbuf, rfl⟩)
  else if integrityProtected then do
    let ⟨header, hheader⟩ ← Prog.require (pkbuf.push 7)
    let ⟨fromSequence, hsequence⟩ ← Prog.require (header.pull 6)
    let params ← requireKnasInt lib params .bothUlDl
    let securityParams ← Prog.require params.nasSecurityParams
    let knasInt ← Prog.require securityParams.knasInt
    let mac := lib.nasMacCalculate nasSecurityIntAlgorithm knasInt securityParams.ulCount
      nasSecurityAccessType3gpp nasSecurityUplinkDirection fromSequence.bytes
    -- a difference is logged and nothing else
    Prog.observe (.verifies (header.mem.read (header.data + 2) 4) mac)
    let ⟨message, hmessage⟩ ← Prog.require (fromSequence.pull 1)
    return (params, ⟨message, by omega⟩)
  else return (params, ⟨pkbuf, rfl⟩)

def securityDecodeGsm (lib : Ogs) (params : NasNgapParams) (nasbuf : Pkbuf) :
    Processing (Option (NasNgapParams × {b : Pkbuf // b.len ≤ nasbuf.len})) := do
  if nasbuf.byte 0 = extendedProtocolDiscriminator5gmm then
    match integrityProtected (nasbuf.byte 1) with
    | none => return none
    | some protects => do
        let pulled := if protects then nasbuf.afterPull 7 else nasbuf.kept
        let decoded ← nas5gsSecurityDecode lib params protects pulled.val
        return some (decoded.1, ⟨decoded.2.val,
          Nat.le_trans (Nat.le_of_eq decoded.2.property) pulled.property⟩)
  else return some (params, nasbuf.kept)

/-- `none` is `OGS_ERROR`. -/
def nasBytesToMessage (lib : Ogs) (params : NasNgapParams) (nasPdu : List UInt8) :
    Processing (Option (NasNgapParams × NasUplink nasPdu.length)) := do
  let block : Mem UInt8 ← Prog.call (Query.pkbufAlloc nasPdu)
  let nasbuf : Pkbuf := ⟨block.write nasHeadroom nasPdu, nasHeadroom, nasPdu.length⟩
  let decoded ← securityDecodeGsm lib params nasbuf
  let (params, ⟨nasbuf, hlen⟩) ← Prog.require decoded
  if nasbuf.byte 0 = extendedProtocolDiscriminator5gmm then do
    let ⟨m, hm⟩ ← Prog.require (lib.nas5gmmDecode nasbuf.bytes)
    return some (params, .gmm m (hm.mono (by rwa [Pkbuf.bytes_length])))
  else if nasbuf.byte 0 = extendedProtocolDiscriminator5gsm then do
    let m ← Prog.require (lib.nas5gsmDecode nasbuf.bytes)
    return some (params, .gsm m)
  else return none

/-- One turn of the loop of `nas_message_to_bytes`. -/
def nasMessageToBytesAt (lib : Ogs) (ctx : Context) (i : Nat) : Processing Context := do
  let nasMessage ← consume .nasMessageToBytes Slot.nasMessage? (ctx.response.responses i)
  let encoded ← nas5gsSecurityEncode lib ctx.params nasMessage
  let (params, pkbuf) ← Prog.require encoded
  return ⟨params, ctx.response.set i (.nasBuffer pkbuf)⟩

def nasMessageToBytes (lib : Ogs) (ctx : Context) : Processing Context := do
  Prog.assert (ctx.response.numResponses ≤ 1)
  (List.range ctx.response.numResponses).foldlM (nasMessageToBytesAt lib) ctx

end PublicCloudCore.Worker
