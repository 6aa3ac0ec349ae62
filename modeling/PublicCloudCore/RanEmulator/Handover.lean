import PublicCloudCore.RanEmulator.ControllerMsg
import PublicCloudCore.RanEmulator.EnbSafety

/-!
# Handovers

`send_x2_handover`, `send_ue_attach_to_enb` and `send_s1_handover` against the eNBs of the network.
An eNB is one process, and a fault in it takes its list and its sockets away: the UE that waits for
its answer reads the end of the stream, and whoever connects to it later is refused. As every
handover message faults in an eNB that serves a UE, no record gets to the X2 thread of a target.
-/

namespace PublicCloudCore.RanEmulator.Handover

open Framework EnbEmulator
open RanController (word bigEndian)

/-- The eNBs by address: the list of a running one, `none` where nobody listens. -/
abbrev Net := List UInt8 → Option (List EnbEmulator.UE)

inductive Peer
  | controller
  | enb (address : List UInt8)
  deriving DecidableEq

/-- What the system calls of one exchange with an eNB do. `connectFails` is an error other than
`ECONNREFUSED`; `prior` and `stale` are what the buffer and the response of the eNB held before. -/
structure Exchange where
  socket : Bool
  connectFails : Bool
  readFails : Bool
  prior : Mem UInt8
  stale : List UInt8
  enb : Surroundings

/-- What a UE has after an exchange; `blocked` is the loop over refused connections. -/
inductive Outcome
  | blocked
  | failed
  | answered (buffer : Mem UInt8)

structure Exchanged where
  outcome : Outcome
  net : Net
  sent : List (Peer × List UInt8)

/-- The buffer of the UE after the read. An eNB that has died closes the connection, and the message
is still there. -/
def Exchange.answer (x : Exchange) (message : List UInt8) (size : Nat) :
    Option Reply → Mem UInt8
  | none => .ofList message 0
  | some reply => (Mem.ofList message 0).write 0 ((reply.response.getD x.stale).take size)

/-- Open a socket, connect, write the message and read the answer into a buffer of that size. -/
def exchange (build : Build) (x : Exchange) (net : Net) (address message : List UInt8)
    (size : Nat) : Exchanged :=
  if !x.socket || x.connectFails then ⟨.failed, net, []⟩
  else
    match net address with
    | none => ⟨.blocked, net, []⟩
    | some list =>
      let reply := analyzeUeMsg build x.enb (x.prior.write 0 message) list
      { outcome := if x.readFails then .failed else .answered (x.answer message size reply)
        net := Function.update net address (reply.map fun r => r.handled.list)
        sent := [(.enb address, message)] }

/-- The surroundings of a call: the socket to the controller and what comes back on it, the
exchanges of the two phases, the mode and what `update_data_plane` returns. -/
structure CallEnv where
  controllerSocket : Bool
  answer : Option (List UInt8)
  first : Exchange
  second : Exchange
  controlPlaneOnly : Int
  updateDataPlane : Int

/-- `return`, or `none` for a call that never returns, the eNBs and the `ue_data` that it leaves,
and the messages it has sent. -/
structure Called where
  ret : Option Nat
  net : Net
  ue : UeData
  sent : List (Peer × List UInt8)

def codeGetEnb : UInt8 := 0x07
def codeX2HandoverCompleted : UInt8 := 0x08
def codeAttachedToEnb : UInt8 := 0x09
def codeS1HandoverCompleted : UInt8 := 0x0a

/-- `enb_num[0] << 16 | enb_num[1] << 8 | enb_num[2]`. -/
def enbN (enbNum : Mem UInt8) : Nat :=
  (enbNum 0).toNat * 65536 + (enbNum 1).toNat * 256 + (enbNum 2).toNat

def toController (code : UInt8) (ue : UeData) (enb : Nat) : Peer × List UInt8 :=
  (.controller, code :: (ue.id ++ word enb))

def sendGetEnbIp (env : CallEnv) (ue : UeData) (enb : Nat) : UInt32 × List (Peer × List UInt8) :=
  if !env.controllerSocket then (0xffffffff, [])
  else
    let request := [toController codeGetEnb ue enb]
    match env.answer with
    | none => (0xffffffff, request)
    | some data =>
      if data.length ≤ 1 then (0xffffffff, request)
      else (UInt32.ofNat (bigEndian ((Mem.ofList data 0).read 1 4)), request)

/-- `enb_ip` of the target, `none` for -1 and 0. -/
def targetEnbIp (enbRet : UInt32) : Option (List UInt8) :=
  if enbRet = 0xffffffff ∨ enbRet = 0 then none else some (word enbRet.toNat)

/-- The ten digits that are copied from `msin`. -/
def msinDigits (ue : UeData) : List UInt8 := (Mem.ofList ue.msin 0).read 0 10

/-- The buffer up to `sizeof(ho_msg) + 2`. -/
def hoMsg (code : UInt8) (ue : UeData) (targetEnbIp : List UInt8) : List UInt8 :=
  code :: (msinDigits ue ++ List.replicate 6 0 ++ targetEnbIp ++ [0])

/-- The buffer up to `sizeof(idle_msg) + 2`. -/
def idleMsg (code : UInt8) (ue : UeData) : List UInt8 :=
  code :: (msinDigits ue ++ List.replicate 6 0 ++ [0])

def Exchanged.analyze (x : Exchanged) (ue : UeData) (next : Mem UInt8 → Called) : Called :=
  match x.outcome with
  | .blocked => ⟨none, x.net, ue, x.sent⟩
  | .failed => ⟨some 1, x.net, ue, x.sent⟩
  | .answered buffer => { next buffer with sent := x.sent ++ (next buffer).sent }

/-- The first phase, in which the controller is asked for the address of the target. -/
def withTarget (env : CallEnv) (net : Net) (enbNum : Mem UInt8) (ue : UeData)
    (next : List UInt8 → Called) : Called :=
  let asked := sendGetEnbIp env ue (enbN enbNum)
  match targetEnbIp asked.1 with
  | none => ⟨some 1, net, ue, asked.2⟩
  | some enbIp => { next enbIp with sent := asked.2 ++ (next enbIp).sent }

def sendX2Handover (build : Build) (env : CallEnv) (net : Net) (enbNum : Mem UInt8)
    (ue : UeData) : Called :=
  withTarget env net enbNum ue fun enbIp =>
    let x := exchange build env.first net ue.enbIp (hoMsg hoSetup ue enbIp) 32
    x.analyze ue fun buffer =>
      if buffer 0 = x2Error then ⟨some 1, x.net, ue, []⟩
      else
        -- `enb_addr` is not set again and keeps the address of the source
        let y := exchange build env.second x.net ue.enbIp (hoMsg hoRequest ue [0, 0, 0, 0]) 32
        y.analyze { ue with enbIp } fun buffer =>
          if buffer 0 = x2Error then ⟨some 1, y.net, { ue with enbIp }, []⟩
          else
            ⟨some 0, y.net, { ue with enbIp },
              [toController codeX2HandoverCompleted ue (enbN enbNum)]⟩

def sendS1Handover (build : Build) (env : CallEnv) (net : Net) (enbNum : Mem UInt8)
    (ue : UeData) : Called :=
  withTarget env net enbNum ue fun enbIp =>
    let x := exchange build env.first net ue.enbIp (hoMsg ueS1Handover ue enbIp) 32
    x.analyze ue fun buffer =>
      if buffer 0 ≠ okCode ||| ueS1Handover then ⟨some 1, x.net, ue, []⟩
      else
        ⟨some 0, x.net, { ue with enbIp },
          [toController codeS1HandoverCompleted ue (enbN enbNum)]⟩

def sendUeAttachToEnb (build : Build) (env : CallEnv) (net : Net) (enbNum : Mem UInt8)
    (ue : UeData) : Called :=
  withTarget env net enbNum ue fun enbIp =>
    let x := exchange build env.first net ue.enbIp (hoMsg ueTransfer ue enbIp) 256
    x.analyze ue fun buffer =>
      if buffer 0 = x2Error then ⟨some 1, x.net, ue, []⟩
      else
        let y := exchange build env.second x.net enbIp (idleMsg ueAttach ue) 256
        y.analyze ue fun buffer =>
          if buffer 0 ≠ okCode ||| ueAttach then ⟨some 1, y.net, ue, []⟩
          else if env.controlPlaneOnly = 0 ∧ env.updateDataPlane < 0 then
            ⟨some 1, y.net, { ue with enbIp }, []⟩
          else
            ⟨some 0, y.net, { ue with enbIp },
              [toController codeAttachedToEnb ue (enbN enbNum)]⟩

inductive Flow
  | x2Handover
  | attachToEnb
  | s1Handover
  deriving DecidableEq

/-- A call of one of the UEs `ι`. -/
structure Call (ι : Type) where
  ue : ι
  flow : Flow
  enbNum : Mem UInt8
  env : CallEnv

structure System (ι : Type) where
  net : Net
  ues : ι → UeData

variable {ι : Type}

def call (build : Build) (s : System ι) (c : Call ι) : Called :=
  match c.flow with
  | .x2Handover => sendX2Handover build c.env s.net c.enbNum (s.ues c.ue)
  | .attachToEnb => sendUeAttachToEnb build c.env s.net c.enbNum (s.ues c.ue)
  | .s1Handover => sendS1Handover build c.env s.net c.enbNum (s.ues c.ue)

variable [DecidableEq ι]

def step (build : Build) (s : System ι) (c : Call ι) : System ι :=
  let r := call build s c
  ⟨r.net, Function.update s.ues c.ue r.ue⟩

/-- The system after a sequence of calls. -/
def after (build : Build) (s : System ι) (calls : List (Call ι)) : System ι :=
  calls.foldl (step build) s

end PublicCloudCore.RanEmulator.Handover
