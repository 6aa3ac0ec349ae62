import PublicCloudCore.Framework.Transition
import PublicCloudCore.CorekubeDb.Records
import PublicCloudCore.RanEmulator.EnbEmulator

/-!
# The threads of the eNB

`enb_emulator_thread` and `x2_thread` around `analyze_ue_msg`, with the places where the UE records
lie: `init_UE` takes a block for its record, and the records of `S1_SYNC` and of the X2 thread stay
in the buffer that they were received in. A pointer is `none` for NULL. A result is `none` where the
code reads through NULL or looks at a record after `free_UE`.
-/

namespace PublicCloudCore.RanEmulator.EnbThreads

open Framework EnbEmulator

inductive Place
  | block (n : Nat)
  | enbBuffer
  | x2Buffer
  deriving DecidableEq

/-- `sizeof(UE)`. -/
def ueSize : Nat := 360

def bufferLen : Nat := 1024

/-- The memory, the list of UEs, the blocks that are not free, and the response of
`enb_emulator_thread`, which outlives a message. -/
structure Emulator where
  memory : Place → Mem UInt8
  list : List (Option Place)
  live : List Nat
  response : Mem UInt8
  responseLen : Nat

/-- What the network, `GC_malloc` and the `malloc` of a list node answer during one message. A
procedure is given the bytes of its UE and leaves others there; a block of `GC_malloc` comes with
what it holds, cleared or not. -/
structure Answers where
  procedure : Procedure → Mem UInt8 → Bool × Mem UInt8
  block : Option Nat
  content : Mem UInt8
  node : Bool

def generatePlmnUE (mcc mnc : Mem UInt8) : List UInt8 :=
  [(mcc 0 - 0x30) <<< 4, (mcc 2 - 0x30) <<< 4 ||| (mcc 1 - 0x30),
    (mnc 1 - 0x30) <<< 4 ||| (mnc 0 - 0x30)]

def generateMsin (msinText : Mem UInt8) : List UInt8 :=
  [0, 2, 4, 6, 8].map fun i => (msinText (i + 1) - 0x30) <<< 4 ||| (msinText i - 0x30)

/-- An `int` in the memory of a little-endian machine. -/
def littleEndian (x : UInt32) : List UInt8 :=
  [x.toUInt8, (x >>> 8).toUInt8, (x >>> 16).toUInt8, (x >>> 24).toUInt8]

/-- `"tunNervion"` with its zero. -/
def tunName : List UInt8 := [0x74, 0x75, 0x6e, 0x4e, 0x65, 0x72, 0x76, 0x69, 0x6f, 0x6e, 0x00]

/-- The record that `init_UE` writes into its block; the fields that it does not set keep what the
block held. -/
def initRecord (content mcc mnc msin key opKey ueIp : Mem UInt8) : Mem UInt8 :=
  let msinHex := generateMsin msin
  let id := (CorekubeDb.atoi (msin.read 0 16)).getD 0
  let s1apId := [msinHex.getD 4 0, msinHex.getD 3 0, msinHex.getD 2 0, 0x80]
  let fields : List (Nat × List UInt8) := [(17, msin.read 0 16), (9, generatePlmnUE mcc mnc),
    (12, msinHex), (33, [0x02, 0x80, 0x20]), (0, littleEndian id), (150, tunName),
    (61, key.read 0 16), (77, opKey.read 0 16), (60, [0]), (192, ueIp.read 0 4),
    (4, mcc.read 0 3), (7, mnc.read 0 2), (196, [0]), (40, s1apId)]
  fields.foldl (fun m field => Mem.write m field.1 field.2) content

/-- The record for the fields of an `init_msg`. -/
def initMsgRecord (content msg : Mem UInt8) : Mem UInt8 :=
  initRecord content (msg.shift 4) (msg.shift 8) (msg.shift 12) (msg.shift 24) (msg.shift 40)
    (msg.shift 56)

namespace Emulator

def store (s : Emulator) (place : Place) (m : Mem UInt8) : Emulator :=
  { s with memory := Function.update s.memory place m }

def isLive (s : Emulator) : Place → Bool
  | .block n => s.live.contains n
  | .enbBuffer => true
  | .x2Buffer => true

def load (s : Emulator) : Option Place → Option (Mem UInt8)
  | none => none
  | some place => if s.isLive place then some (s.memory place) else none

/-- `free_UE` of a UE in a block. -/
def freeUE (s : Emulator) : Option Nat → Emulator
  | none => s
  | some n => { s with live := s.live.erase n }

/-- `addElem` with memory for its node. -/
def addElem (s : Emulator) (ue : Option Place) : Emulator := { s with list := s.list ++ [ue] }

/-- `peekElem` with `ue_compare`; the key is 10 octets behind a pointer. -/
def peekElem (s : Emulator) : List (Option Place) → Option (Mem UInt8) → Option (Option Place)
  | [], _ => some none
  | ue :: list, key => do
      let record ← s.load ue
      let digits ← key
      if record.read 17 10 == digits.read 0 10 then some ue else s.peekElem list key

/-- What the code byte of the message is now. -/
def code (s : Emulator) : UInt8 := s.memory .enbBuffer 0

end Emulator

/-- `analyze_ue_msg` as it returns: the value, what it stored in `response`, and what it wrote to
the client itself. -/
structure Reply where
  ret : Nat
  response : Option (List UInt8)
  direct : List UInt8
  state : Emulator

def reply (ret : Nat) (response : List UInt8) (s : Emulator) : Option Reply :=
  some ⟨ret, some response, [], s⟩

/-- A procedure on the UE behind a pointer; it writes to the record. -/
def callProcedure (ans : Answers) (p : Procedure) (s : Emulator) :
    Option Place → Option (Bool × Emulator)
  | none => if p.checksNull then some (true, s) else none
  | some place =>
      if p.isStub then some (false, s)
      else
        let record := s.memory place
        let (err, record') := ans.procedure p record
        some (err, s.store place (record.write 0 (record'.read 0 ueSize)))

def callThen (ans : Answers) (p : Procedure) (s : Emulator) (ue : Option Place)
    (failed done : Emulator → Option Reply) : Option Reply := do
  let (err, s) ← callProcedure ans p s ue
  if err then failed s else done s

/-- The error response: the code without `OK_CODE`. -/
def refuse (s : Emulator) : Option Reply := reply 1 [s.code] s

def confirm (s : Emulator) : Option Reply := reply 0 [okCode ||| s.code] s

def describe (response : UInt8 → UE → List UInt8) (ue : Option Place) (s : Emulator) :
    Option Reply := do
  let record ← s.load ue
  reply 0 (response s.code (UE.ofBuffer record)) s

/-- The zeros that end the strings of the message, and `init_UE` with what `GC_malloc` returns. -/
def Emulator.initUE (s : Emulator) (ans : Answers) : Emulator :=
  let buffer := terminateStrings (s.memory .enbBuffer)
  let s := s.store .enbBuffer buffer
  match ans.block with
  | none => s
  | some n =>
      { s.store (.block n) (initMsgRecord ans.content (buffer.shift 1)) with live := n :: s.live }

def handleInit (build : Build) (ans : Answers) (s : Emulator) : Option Reply :=
  let s := s.initUE ans
  let ue := ans.block.map Place.block
  if ans.node then
    callThen ans (attachProcedure build) (s.addElem ue) ue
      (match build with
        | .fiveG => refuse
        | .fourG => fun s => refuse (s.freeUE ans.block))
      (describe initResponse ue)
  else refuse (s.freeUE ans.block)

/-- `idlemsg->msin`. -/
def msinKey (s : Emulator) : Option (Mem UInt8) := some ((s.memory .enbBuffer).shift 1)

def handleMoveToIdle (build : Build) (ans : Answers) (s : Emulator) : Option Reply := do
  let ue ← s.peekElem s.list (msinKey s)
  match build with
  | .fiveG => confirm s
  | .fourG => callThen ans .ueContextRelease s ue refuse confirm

def handleDetach (build : Build) (ans : Answers) (s : Emulator) : Option Reply := do
  let switchOff := s.code &&& ueSwitchOffDetach
  let ue ← s.peekElem s.list (msinKey s)
  match build with
  | .fiveG => callThen ans (.deregistrationRequest switchOff) s ue (reply 1 [0]) confirm
  | .fourG => callThen ans (.ueDetach switchOff) s ue refuse confirm

def handleAttach (build : Build) (ans : Answers) (s : Emulator) : Option Reply := do
  let ue ← s.peekElem s.list (msinKey s)
  callThen ans (attachProcedure build) s ue refuse (describe initResponse ue)

def handleMoveToConnected (build : Build) (ans : Answers) (s : Emulator) : Option Reply := do
  let ue ← s.peekElem s.list (msinKey s)
  match build with
  | .fiveG => describe idleResponse ue s
  | .fourG => callThen ans .ueServiceRequest s ue refuse (describe idleResponse ue)

/-- The four handovers look their UE up through `idlemsg`, which is NULL: the lookup compares with
what is there, or finds nothing in a list without UEs. What follows the lookup in `handleTransfer`,
`handleHoRequest` and `handleS1Handover` is not reached. -/
def handleHandover (s : Emulator) : Option Reply :=
  match s.peekElem s.list none with
  | some none => reply 1 [x2Error] s
  | _ => none

/-- The record is taken from the start of the buffer, and stays there. -/
def handleS1Sync (ans : Answers) (s : Emulator) : Option Reply := do
  let direct := [okCode ||| s1Sync]
  let ue := some Place.enbBuffer
  let (err, s) ← callProcedure ans .s1HandoverTargetEnb s ue
  if err then some ⟨1, some [s1Error], direct, s⟩
  else some ⟨0, some [s1Sync2], direct, if ans.node then s.addElem ue else s⟩

/-- `analyze_ue_msg` on the message in the buffer of the thread. -/
def analyzeUeMsg (build : Build) (ans : Answers) (s : Emulator) : Option Reply :=
  if s.code = initCode then handleInit build ans s
  else if s.code = moveToIdle then handleMoveToIdle build ans s
  else if s.code = ueDetach ∨ s.code = ueSwitchOffDetach then handleDetach build ans s
  else if s.code = ueAttach then handleAttach build ans s
  else if s.code = moveToConnected then handleMoveToConnected build ans s
  else if s.code = hoSetup then handleHandover s
  else if s.code = hoRequest then handleHandover s
  else if s.code = ueTransfer then handleHandover s
  else if s.code = ueS1Handover then handleHandover s
  else if s.code = s1Sync then handleS1Sync ans s
  else some ⟨0, none, [], s⟩

/-- `recv` into the buffer, which keeps what lies behind the message. -/
def Emulator.receive (s : Emulator) (message : List UInt8) : Emulator :=
  s.store .enbBuffer ((s.memory .enbBuffer).write 0 message)

def Reply.respond (r : Reply) : Emulator :=
  match r.response with
  | none => r.state
  | some bytes =>
      { r.state with response := r.state.response.write 0 bytes, responseLen := bytes.length }

/-- A round of `enb_emulator_thread` with a message: what the client gets, and the state then. -/
def handleMessage (build : Build) (ans : Answers) (message : List UInt8) (s : Emulator) :
    Option (List UInt8 × Emulator) :=
  (analyzeUeMsg build ans (s.receive message)).map fun r =>
    (r.direct ++ r.respond.response.read 0 r.respond.responseLen, r.respond)

def bzero (m : Mem UInt8) : Mem UInt8 := m.write 0 (List.replicate bufferLen 0)

/-- A round of `x2_thread`, from `recvfrom` to the `bzero` of the next one. -/
def handleDatagram (node : Bool) (datagram : List UInt8) (s : Emulator) : Emulator :=
  let s := s.store .x2Buffer ((s.memory .x2Buffer).write 0 datagram)
  let s := if node then s.addElem (some .x2Buffer) else s
  s.store .x2Buffer (bzero (s.memory .x2Buffer))

inductive Event
  | message (ans : Answers) (bytes : List UInt8)
  | datagram (node : Bool) (bytes : List UInt8)

def step (build : Build) (s : Emulator) : Event → Option Emulator
  | .message ans bytes => (handleMessage build ans bytes s).map Prod.snd
  | .datagram node bytes => some (handleDatagram node bytes s)

/-- `recv` and `recvfrom` fill no more than their buffers, and `GC_malloc` returns a free block. -/
def Arrives (s : Emulator) : Event → Prop
  | .message ans bytes =>
      0 < bytes.length ∧ bytes.length ≤ bufferLen ∧ ∀ n ∈ ans.block, n ∉ s.live
  | .datagram _ bytes => bytes.length ≤ bufferLen

/-- Where the threads begin: no UEs, no blocks, `response_len` 0, and the X2 buffer cleared. -/
structure Starts (s : Emulator) : Prop where
  list : s.list = []
  live : s.live = []
  responseLen : s.responseLen = 0
  x2Buffer : ∀ i < bufferLen, s.memory .x2Buffer i = 0

end PublicCloudCore.RanEmulator.EnbThreads
