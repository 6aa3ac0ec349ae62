import PublicCloudCore.RanController.UE

/-!
# Messages of the UEs to their eNB

`analyze_ue_msg` over the list of UEs that `list.c` keeps. A pointer to a UE is its position in
the list, `none` for NULL, and a result is `none` where the code reads or writes through NULL. The
address of a field is no access: `idlemsg->msin` of a NULL `idlemsg` is the NULL key. Memory for
the new list nodes and UEs is taken to be there.
-/

namespace PublicCloudCore.RanEmulator.EnbEmulator

open Framework RanController

/-- The build, with `_5G` defined or not. -/
inductive Build
  | fourG
  | fiveG
  deriving DecidableEq

def okCode : UInt8 := 0x80
def initCode : UInt8 := 0x01
def moveToIdle : UInt8 := 0x02
def ueDetach : UInt8 := 0x03
def ueSwitchOffDetach : UInt8 := 0x04
def ueAttach : UInt8 := 0x05
def moveToConnected : UInt8 := 0x06
def hoSetup : UInt8 := 0x07
def hoRequest : UInt8 := 0x08
def ueTransfer : UInt8 := 0x09
def ueS1Handover : UInt8 := 0x0a
def s1Sync : UInt8 := 0x0b
def s1Sync2 : UInt8 := 0x0c
def s1Error : UInt8 := 0x0d

def x2Ok : UInt8 := 0
def x2Error : UInt8 := 1

/-- The fields of `UE` that `init_UE` copies from the message or that the answers are made of. -/
structure UE where
  mcc : List UInt8
  mnc : List UInt8
  msinString : List UInt8
  mmeS1apIdLen : UInt8
  key : List UInt8
  opKey : List UInt8
  spgwIp : List UInt8
  gtpTeid : UInt32
  pdnIp : List UInt8
  ueIp : List UInt8
  nasSequenceNumber : UInt8
  deriving DecidableEq

/-- The record that lies at the start of a buffer, on a little-endian machine. -/
def UE.ofBuffer (buffer : Mem UInt8) : UE where
  mcc := buffer.read 4 3
  mnc := buffer.read 7 2
  msinString := buffer.read 17 16
  mmeS1apIdLen := buffer 60
  key := buffer.read 61 16
  opKey := buffer.read 77 16
  spgwIp := buffer.read 93 4
  gtpTeid := UInt32.ofNat ((buffer 100).toNat + 256 * (buffer 101).toNat +
    65536 * (buffer 102).toNat + 16777216 * (buffer 103).toNat)
  pdnIp := buffer.read 136 4
  ueIp := buffer.read 192 4
  nasSequenceNumber := buffer 196

/-- `init_UE`, on what the block that `GC_malloc` returns holds. -/
def initUE (block : UE) (mcc mnc msin key opKey ueIp : Mem UInt8) : UE :=
  { block with
    mcc := mcc.read 0 3
    mnc := mnc.read 0 2
    msinString := msin.read 0 16
    mmeS1apIdLen := 0
    key := key.read 0 16
    opKey := opKey.read 0 16
    ueIp := ueIp.read 0 4
    nasSequenceNumber := 0 }

/-- `ue_compare(ue, key) == 0`. -/
def ueCompare (ue : UE) : Option (Mem UInt8) → Option Bool
  | none => none
  | some key => some (ue.msinString.take 10 == key.read 0 10)

def peekElem : List UE → Option (Mem UInt8) → Option (Option Nat)
  | [], _ => some none
  | ue :: list, key => do
    if ← ueCompare ue key then some (some 0)
    else
      let i ← peekElem list key
      some (i.map (· + 1))

/-- `getElem` takes the first UE whose comparison is not zero. -/
def takeElem : List UE → Option (Mem UInt8) → Option (List UE)
  | [], _ => some []
  | ue :: list, key => do
    if ← ueCompare ue key then
      let rest ← takeElem list key
      some (ue :: rest)
    else some list

/-- The procedures against the core network that work on a UE. -/
inductive Procedure
  | registrationRequest
  | deregistrationRequest (switchOff : UInt8)
  | attachDefaultEpsBearer
  | ueContextRelease
  | ueDetach (switchOff : UInt8)
  | ueServiceRequest
  | ueX2Handover
  | s1HandoverSourceEnb
  | s1HandoverTargetEnb
  deriving DecidableEq

/-- The procedures of `s1ap.c` return an error for a NULL UE. Those of `ngap.c` use it:
`reset_nas_sequence_number` and `generate_NG_Deregistration_Request`. -/
def Procedure.checksNull : Procedure → Bool
  | .registrationRequest => false
  | .deregistrationRequest _ => false
  | _ => true

/-- The handover procedures over S1 are not implemented and return 0. -/
def Procedure.isStub : Procedure → Bool
  | .s1HandoverSourceEnb => true
  | .s1HandoverTargetEnb => true
  | _ => false

/-- What the network and the system calls answer while one message is handled, and what a block of
`GC_malloc` holds. A read of one byte fails, meets the end of the stream or brings a byte. -/
structure Surroundings where
  procedure : Procedure → UE → Bool × UE
  block : UE
  x2Socket : Bool
  x2Read : Bool
  s1Socket : Bool
  s1Connect : Bool
  s1Read : Option (Option UInt8)
  s1Read2 : Option (Option UInt8)

/-- A procedure on a UE outside the list: whether it fails and what becomes of the UE. -/
def runProcedure (env : Surroundings) (p : Procedure) (ue : UE) : Bool × UE :=
  if p.isStub then (false, ue) else env.procedure p ue

/-- What a message has done so far: the list, and the UEs that procedures, transfers and answers
worked on. -/
structure Handled where
  list : List UE
  subjects : List UE

def callProcedure (env : Surroundings) (p : Procedure) (list : List UE) (ue : Option Nat) :
    Option (Bool × Handled) :=
  match ue.bind fun i => (list[i]?).map fun u => (i, u) with
  | some (i, u) =>
    let (err, u') := runProcedure env p u
    some (err, ⟨list.set i u', [u]⟩)
  | none => if p.checksNull then some (true, ⟨list, []⟩) else none

/-- The UE behind a pointer, to read or to copy. -/
def deref (list : List UE) (ue : Option Nat) : Option UE := ue.bind fun i => list[i]?

/-- The answer of `analyze_ue_msg`: its return value and the response, `none` where `response` and
`response_len` stay as they were. -/
structure Reply where
  ret : Nat
  response : Option (List UInt8)
  handled : Handled

def errorReply (code : UInt8) (h : Handled) : Reply := ⟨1, some [code], h⟩

/-- `init_response_msg` behind its code. -/
def initResponse (code : UInt8) (ue : UE) : List UInt8 :=
  (okCode ||| code) :: (word ue.gtpTeid.toNat ++ ue.pdnIp ++ ue.spgwIp)

/-- `idle_response_msg` behind its code. -/
def idleResponse (code : UInt8) (ue : UE) : List UInt8 :=
  (okCode ||| code) :: (word ue.gtpTeid.toNat ++ ue.spgwIp)

/-- The zeros that end the strings of `init_msg`, at offsets 8, 11 and 23 of the buffer. -/
def terminateStrings (buffer : Mem UInt8) : Mem UInt8 :=
  ((buffer.write 8 [0]).write 11 [0]).write 23 [0]

def attachProcedure : Build → Procedure
  | .fiveG => .registrationRequest
  | .fourG => .attachDefaultEpsBearer

def handleInit (build : Build) (env : Surroundings) (buffer : Mem UInt8) (list : List UE) :
    Option Reply := do
  let msg := (terminateStrings buffer).shift 1
  let ue := initUE env.block (msg.shift 4) (msg.shift 8) (msg.shift 12) (msg.shift 24)
    (msg.shift 40) (msg.shift 56)
  let ptr := some list.length
  let (err, h) ← callProcedure env (attachProcedure build) (list ++ [ue]) ptr
  if err then some (errorReply (buffer 0) h)
  else
    let u ← deref h.list ptr
    some ⟨0, some (initResponse (buffer 0) u), h⟩

def handleMoveToIdle (build : Build) (env : Surroundings) (buffer : Mem UInt8) (list : List UE) :
    Option Reply := do
  let ue ← peekElem list (some (buffer.shift 1))
  match build with
  | .fiveG => some ⟨0, some [okCode ||| buffer 0], ⟨list, []⟩⟩
  | .fourG =>
    let (err, h) ← callProcedure env .ueContextRelease list ue
    if err then some (errorReply (buffer 0) h)
    else some ⟨0, some [okCode ||| buffer 0], h⟩

def handleDetach (build : Build) (env : Surroundings) (buffer : Mem UInt8) (list : List UE) :
    Option Reply := do
  let switchOff := buffer 0 &&& ueSwitchOffDetach
  let ue ← peekElem list (some (buffer.shift 1))
  match build with
  | .fiveG =>
    let (err, h) ← callProcedure env (.deregistrationRequest switchOff) list ue
    if err then some (errorReply 0 h)
    else some ⟨0, some [okCode ||| buffer 0], h⟩
  | .fourG =>
    let (err, h) ← callProcedure env (.ueDetach switchOff) list ue
    if err then some (errorReply (buffer 0) h)
    else some ⟨0, some [okCode ||| buffer 0], h⟩

def handleAttach (build : Build) (env : Surroundings) (buffer : Mem UInt8) (list : List UE) :
    Option Reply := do
  let ue ← peekElem list (some (buffer.shift 1))
  let (err, h) ← callProcedure env (attachProcedure build) list ue
  if err then some (errorReply (buffer 0) h)
  else
    let u ← deref h.list ue
    some ⟨0, some (initResponse (buffer 0) u), h⟩

def handleMoveToConnected (build : Build) (env : Surroundings) (buffer : Mem UInt8)
    (list : List UE) : Option Reply := do
  let ue ← peekElem list (some (buffer.shift 1))
  match build with
  | .fiveG =>
    let u ← deref list ue
    some ⟨0, some (idleResponse (buffer 0) u), ⟨list, [u]⟩⟩
  | .fourG =>
    let (err, h) ← callProcedure env .ueServiceRequest list ue
    if err then some (errorReply (buffer 0) h)
    else
      let u ← deref h.list ue
      some ⟨0, some (idleResponse (buffer 0) u), h⟩

/-- `HO_SETUP` and `UE_TRANFSER`. The UE is looked up through `idlemsg`, which is NULL here, and
the answer of the target is looked for in the request. -/
def handleTransfer (env : Surroundings) (buffer : Mem UInt8) (list : List UE) : Option Reply := do
  let ue ← peekElem list none
  match ue with
  | none => some (errorReply x2Error ⟨list, []⟩)
  | some _ =>
    if !env.x2Socket then some (errorReply x2Error ⟨list, []⟩)
    else
      let u ← deref list ue
      if !env.x2Read then some (errorReply x2Error ⟨list, [u]⟩)
      else if buffer 0 = x2Error then some (errorReply x2Error ⟨list, [u]⟩)
      else
        let rest ← takeElem list (some (buffer.shift 1))
        some ⟨0, some [x2Ok], ⟨rest, [u]⟩⟩

def handleHoRequest (env : Surroundings) (list : List UE) : Option Reply := do
  let ue ← peekElem list none
  match ue with
  | none => some (errorReply x2Error ⟨list, []⟩)
  | some _ =>
    let (err, h) ← callProcedure env .ueX2Handover list ue
    if err then some (errorReply x2Error h)
    else some ⟨0, some [x2Ok], h⟩

/-- The synchronisation with the target, `prev` being the byte that a read at the end of the
stream leaves in the buffer. -/
def readByte (answer : Option (Option UInt8)) (prev : UInt8) : Option UInt8 :=
  answer.map fun b => b.getD prev

def handleS1Handover (env : Surroundings) (buffer : Mem UInt8) (list : List UE) :
    Option Reply := do
  let ue ← peekElem list none
  match ue with
  | none => some (errorReply x2Error ⟨list, []⟩)
  | some _ =>
    if !env.s1Socket || !env.s1Connect then some ⟨1, none, ⟨list, []⟩⟩
    else
      let u ← deref list ue
      match readByte env.s1Read s1Sync with
      | none => some ⟨1, none, ⟨list, [u]⟩⟩
      | some b =>
        if b ≠ okCode ||| s1Sync then some ⟨1, none, ⟨list, [u]⟩⟩
        else
          let (err, h) ← callProcedure env .s1HandoverSourceEnb list ue
          if err then some (errorReply (buffer 0) h)
          else
            match readByte env.s1Read2 b with
            | none => some (errorReply (buffer 0) h)
            | some b₂ =>
              if b₂ ≠ s1Sync2 then some (errorReply (buffer 0) h)
              else
                let rest ← takeElem h.list (some (buffer.shift 1))
                some ⟨0, some [okCode ||| buffer 0], ⟨rest, h.subjects⟩⟩

/-- The record is taken from the start of the message, its code included. -/
def handleS1Sync (env : Surroundings) (buffer : Mem UInt8) (list : List UE) : Option Reply :=
  let ue := UE.ofBuffer buffer
  let (err, u) := runProcedure env .s1HandoverTargetEnb ue
  if err then some (errorReply s1Error ⟨list, [u]⟩)
  else some ⟨0, some [s1Sync2], ⟨list ++ [u], [u]⟩⟩

def analyzeUeMsg (build : Build) (env : Surroundings) (buffer : Mem UInt8) (list : List UE) :
    Option Reply :=
  if buffer 0 = initCode then handleInit build env buffer list
  else if buffer 0 = moveToIdle then handleMoveToIdle build env buffer list
  else if buffer 0 = ueDetach ∨ buffer 0 = ueSwitchOffDetach then
    handleDetach build env buffer list
  else if buffer 0 = ueAttach then handleAttach build env buffer list
  else if buffer 0 = moveToConnected then handleMoveToConnected build env buffer list
  else if buffer 0 = hoSetup then handleTransfer env buffer list
  else if buffer 0 = hoRequest then handleHoRequest env list
  else if buffer 0 = ueTransfer then handleTransfer env buffer list
  else if buffer 0 = ueS1Handover then handleS1Handover env buffer list
  else if buffer 0 = s1Sync then handleS1Sync env buffer list
  else some ⟨0, none, ⟨list, []⟩⟩

end PublicCloudCore.RanEmulator.EnbEmulator
