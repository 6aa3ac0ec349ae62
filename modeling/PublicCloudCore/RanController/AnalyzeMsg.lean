import PublicCloudCore.Framework.Handout
import PublicCloudCore.Framework.Transition
import PublicCloudCore.RanController.UE

/-!
# The message threads of the RAN controller

`generate_msg` and `analyze_msg`, with one thread for every datagram. A thread takes one action at
a time, and the actions of different threads come in any order: every look at a status, every
change of one and every datagram sent is an action of its own. Indices and numbers of the eNBs and
the UEs do not change while messages are handled.
-/

namespace PublicCloudCore.RanController

open Framework

inductive Status
  | stopped
  | connected
  | idle
  | traffic
  | pending
  | disconnected
  deriving DecidableEq

structure Address where
  ip : UInt32
  port : Nat
  deriving DecidableEq

structure EnbEntry where
  num : Nat
  status : Status
  address : Option Address

def EnbEntry.idInt (enb : EnbEntry) : Nat := enb.num + 14680064

structure UeEntry where
  id : Nat
  enbId : Nat
  status : Status
  address : Option Address

inductive MessageType
  | init
  | cpMode
  | enbRun
  | ueRun
  | ueIdle
  | ueDetached
  | ueAttached
  | movedToConnected
  | getEnb
  | x2Completed
  | ueAttachedToEnb
  | s1Completed
  | enbErrorRun
  | ueErrorRun
  | error
  deriving DecidableEq

structure Message where
  type : MessageType
  address : Address
  ipNode : Nat
  data : List UInt8

/-- The number in the first four bytes; `none` for the `IndexError` of shorter data. -/
def leadingWord : List UInt8 → Option Nat
  | a :: b :: c :: d :: _ => some (bigEndian [a, b, c, d])
  | _ => none

def dataType : UInt8 → Option MessageType
  | 0x81 => some .enbRun
  | 0x82 => some .ueRun
  | 0x03 => some .ueIdle
  | 0x04 => some .ueDetached
  | 0x05 => some .ueAttached
  | 0x06 => some .movedToConnected
  | 0x07 => some .getEnb
  | 0x08 => some .x2Completed
  | 0x09 => some .ueAttachedToEnb
  | 0x0A => some .s1Completed
  | 0x01 => some .enbErrorRun
  | 0x02 => some .ueErrorRun
  | _ => none

/-- `generate_msg`: `none` for an `IndexError`, which ends the receiver. -/
def generateMsg (data : List UInt8) (address : Address) : Option (Option Message) :=
  match data with
  | [] => none
  | code :: data =>
      if code = 0xFF then
        (leadingWord data).map fun ipNode => some ⟨.init, address, ipNode, []⟩
      else if code = 0x0B then
        (leadingWord data).map fun ipNode => some ⟨.cpMode, address, ipNode, []⟩
      else
        match dataType code with
        | some type => some (some ⟨type, address, 0, data⟩)
        | none =>
            if code &&& codeOk = 0 then some (some ⟨.error, address, 0, []⟩) else some none

/-- What a thread does to the entries outside the lock. -/
inductive Action
  | setEnbAddr (enb : Nat)
  | setConnected (enb : Nat)
  | setUeAddr (ue : Nat)
  | setTraffic (ue : Nat)
  | setIdle (ue : Nat)
  | setDisconnected (ue : Nat)
  | setEnbId (ue enbNum : Nat)
  | answerEnb (enb : Option Nat)

inductive Pc
  | start
  -- critical section 1
  | acquireEnb
  | scanEnb (enb : Nat)
  | pendEnb (enb : Nat)
  | sendEnb (enb : Nat)
  | addrEnb (enb : Nat)
  | releaseEnb
  -- critical section 2
  | acquireCp
  | cpOnly
  | releaseCp
  -- critical section 3, and what follows it
  | acquireUe
  | scanUe (ue : Nat)
  | pendUe (ue : Nat)
  | releaseUe (ue : Nat)
  | findEnb (ue enb : Nat)
  | waitEnb (ue enb : Nat)
  | sendUe (ue : Nat)
  | releaseNone
  | noRole
  -- error messages
  | acquireError
  | lookUp
  | stopEnb (enb : Nat)
  | stopUe (ue : Nat)
  -- `release` and the end of the thread
  | finish
  | acting (actions : List Action)
  | done

structure Thread where
  message : Message
  pc : Pc

inductive Role
  | enb (i : Nat)
  | ue (i : Nat)
  deriving DecidableEq

structure Config where
  cpMode : Bool
  numThreads : Int
  mobilestream : Bool

structure Controller where
  receiving : Bool
  enbs : List EnbEntry
  ues : List UeEntry
  enbIps : List Nat
  numUes : Int
  lock : Option Nat
  threads : List Thread
  -- role messages sent and error messages processed, the latest first
  history : List (Deal Role Address)
  -- all other datagrams
  replies : List (List UInt8 × Address)

def initial (enbs : List EnbEntry) (ues : List UeEntry) : Controller where
  receiving := true
  enbs := enbs
  ues := ues
  enbIps := []
  numUes := ues.length
  lock := none
  threads := []
  history := []
  replies := []

namespace Controller

variable (s : Controller)

def goto (t : Nat) (pc : Pc) : Controller :=
  { s with threads := s.threads.modify t fun th => { th with pc := pc } }

def setEnbStatus (i : Nat) (status : Status) : Controller :=
  { s with enbs := s.enbs.modify i fun e => { e with status := status } }

def setEnbAddress (i : Nat) (address : Address) : Controller :=
  { s with enbs := s.enbs.modify i fun e => { e with address := some address } }

def setUeStatus (i : Nat) (status : Status) : Controller :=
  { s with ues := s.ues.modify i fun u => { u with status := status } }

def setUeAddress (i : Nat) (address : Address) : Controller :=
  { s with ues := s.ues.modify i fun u => { u with address := some address } }

def setUeEnbId (i n : Nat) : Controller :=
  { s with ues := s.ues.modify i fun u => { u with enbId := n } }

def record (deal : Deal Role Address) : Controller := { s with history := deal :: s.history }

def sendto (buf : List UInt8) (address : Address) : Controller :=
  { s with replies := (buf, address) :: s.replies }

def spawn (m : Message) : Controller := { s with threads := s.threads ++ [⟨m, .start⟩] }

def acquire (t : Nat) (pc : Pc) : Option Controller :=
  match s.lock with
  | none => some ({ s with lock := some t }.goto t pc)
  | some _ => none

def release (t : Nat) (pc : Pc) : Controller := { s with lock := none }.goto t pc

/-- `get_enb_by_buffer`; the outer `none` is the `IndexError`. -/
def getEnbByBuffer (data : List UInt8) : Option (Option Nat) :=
  (leadingWord data).map fun num => s.enbs.findIdx? fun e => e.idInt == num

def getEnb (data : List UInt8) : Option (Option Nat) :=
  (leadingWord data).map fun num => s.enbs.findIdx? fun e => e.num == num

def getUeByBuffer (data : List UInt8) : Option (Option Nat) :=
  (leadingWord data).map fun num => s.ues.findIdx? fun u => u.id == num

def handoverActions (data : List UInt8) (attached : Bool) : Option (List Action) := do
  let some u ← s.getUeByBuffer (data.take 4) | some []
  let some e ← s.getEnb (data.drop 4) | some []
  let num := (s.enbs[e]?.map EnbEntry.num).getD 0
  some (.setEnbId u num :: if attached then [.setTraffic u] else [])

/-- The messages that are handled without the lock; `none` for an `IndexError`. -/
def unlockedActions (m : Message) : Option (List Action) :=
  match m.type with
  | .enbRun => do
      let e ← s.getEnbByBuffer m.data
      some (e.elim [] fun e => [.setEnbAddr e, .setConnected e])
  | .ueRun => do
      let u ← s.getUeByBuffer m.data
      some (u.elim [] fun u => [.setUeAddr u, .setTraffic u])
  | .ueIdle => do
      let u ← s.getUeByBuffer m.data
      some (u.elim [] fun u => [.setIdle u])
  | .ueDetached => do
      let u ← s.getUeByBuffer m.data
      some (u.elim [] fun u => [.setDisconnected u])
  | .ueAttached | .movedToConnected => do
      let u ← s.getUeByBuffer m.data
      some (u.elim [] fun u => [.setTraffic u])
  | .getEnb => do
      let some _ ← s.getUeByBuffer (m.data.take 4) | some []
      let e ← s.getEnb (m.data.drop 4)
      some [.answerEnb e]
  | .x2Completed | .s1Completed => s.handoverActions m.data false
  | .ueAttachedToEnb => s.handoverActions m.data true
  | _ => some []

def dispatch (m : Message) : Pc :=
  match m.type with
  | .init | .cpMode => .acquireEnb
  | .enbErrorRun | .ueErrorRun => .acquireError
  | _ => ((s.unlockedActions m).map Pc.acting).getD .done

/-- The answer to `get_enb`. -/
def enbAnswer (e : Option Nat) : List UInt8 :=
  match e with
  | none => [0x07]
  | some e =>
      match s.enbs[e]?.bind EnbEntry.address with
      | some address => (codeOk ||| 0x07) :: word address.ip.toNat
      | none => [codeOk ||| 0x07, 0, 0, 0, 0]

def act (m : Message) : Action → Controller
  | .setEnbAddr e => s.setEnbAddress e m.address
  | .setConnected e => s.setEnbStatus e .connected
  | .setUeAddr u => s.setUeAddress u m.address
  | .setTraffic u => s.setUeStatus u .traffic
  | .setIdle u => s.setUeStatus u .idle
  | .setDisconnected u => s.setUeStatus u .disconnected
  | .setEnbId u n => s.setUeEnbId u n
  | .answerEnb e => s.sendto (s.enbAnswer e) m.address

/-- The look up of an error message, under the lock. A thread that raises an exception here ends
and keeps the lock. -/
def lookUpError (c : Config) (t : Nat) (m : Message) : Controller :=
  if m.type = .ueErrorRun then
    match s.getUeByBuffer m.data with
    | none => s.goto t .done
    | some none => s.goto t .finish
    | some (some u) => s.goto t (.stopUe u)
  else
    match s.getEnbByBuffer m.data with
    | none => s.goto t .done
    | some none => s.goto t .finish
    | some (some e) =>
        if c.mobilestream then
          match leadingWord (m.data.drop 4) with
          | none => s.goto t .done
          | some ipNode =>
              if ipNode ∈ s.enbIps then
                { s with enbIps := s.enbIps.erase ipNode }.goto t (.stopEnb e)
              else s.goto t .done
        else s.goto t (.stopEnb e)

/-- Control-plane-only slaves get a number of UEs; its four bytes are those of the two's complement
if it is negative. -/
def assignCpOnly (c : Config) (t : Nat) (m : Message) : Controller :=
  if c.cpMode ∧ m.type = .init ∧ s.numUes ≠ -1 then
    let num := if s.numUes ≤ c.numThreads then s.numUes else c.numThreads
    let left := if s.numUes ≤ c.numThreads then -1 else s.numUes - c.numThreads
    ({ s with numUes := left }.sendto ((codeOk ||| 0x0B) :: word (num % 2 ^ 32).toNat) m.address).goto t
      .finish
  else s.goto t .releaseCp

/-- The next action of thread `t`; `none` while it waits for the lock and after its end. -/
def advance (c : Config) (t : Nat) (m : Message) : Pc → Option Controller
  | .start => some (s.goto t (s.dispatch m))
  | .acquireEnb => s.acquire t (.scanEnb 0)
  | .scanEnb i =>
      match s.enbs[i]? with
      | none => some (s.goto t .releaseEnb)
      | some e =>
          if e.status = .stopped ∧ m.ipNode ∉ s.enbIps then some (s.goto t (.pendEnb i))
          else some (s.goto t (.scanEnb (i + 1)))
  | .pendEnb i =>
      let s := s.setEnbStatus i .pending
      let s := if c.mobilestream then { s with enbIps := s.enbIps ++ [m.ipNode] } else s
      some (s.goto t (.sendEnb i))
  | .sendEnb i => some ((s.record (.handed (.enb i) m.address)).goto t (.addrEnb i))
  | .addrEnb i => some ((s.setEnbAddress i m.address).goto t .finish)
  | .releaseEnb => some (s.release t .acquireCp)
  | .acquireCp => s.acquire t .cpOnly
  | .cpOnly => some (s.assignCpOnly c t m)
  | .releaseCp => some (s.release t .acquireUe)
  | .acquireUe => s.acquire t (.scanUe 0)
  | .scanUe i =>
      match s.ues[i]? with
      | none => some (s.goto t .releaseNone)
      | some u =>
          if u.status = .stopped then some (s.goto t (.pendUe i))
          else some (s.goto t (.scanUe (i + 1)))
  | .pendUe i => some ((s.setUeStatus i .pending).goto t (.releaseUe i))
  | .releaseUe i => some (s.release t (.findEnb i 0))
  | .findEnb u e =>
      match s.enbs[e]?, s.ues[u]? with
      | some enb, some ue =>
          if enb.num = ue.enbId then some (s.goto t (.waitEnb u e))
          else some (s.goto t (.findEnb u (e + 1)))
      | _, _ => some (s.goto t .done)
  | .waitEnb u e =>
      if s.enbs[e]?.map EnbEntry.status = some .connected then some (s.goto t (.sendUe u))
      else some (s.goto t (.waitEnb u e))
  | .sendUe u => some ((s.record (.handed (.ue u) m.address)).goto t .done)
  | .releaseNone => some (s.release t .noRole)
  | .noRole => some ((s.sendto [0] m.address).goto t .done)
  | .acquireError => s.acquire t .lookUp
  | .lookUp => some (s.lookUpError c t m)
  | .stopEnb i => some (((s.setEnbStatus i .stopped).record (.recovered (.enb i))).goto t .finish)
  | .stopUe i => some (((s.setUeStatus i .stopped).record (.recovered (.ue i))).goto t .finish)
  | .finish => some (s.release t .done)
  | .acting [] => some (s.goto t .done)
  | .acting (action :: actions) => some ((s.act m action).goto t (.acting actions))
  | .done => none

end Controller

inductive Event
  | datagram (data : List UInt8) (address : Address)
  | thread (t : Nat)

def step (c : Config) (s : Controller) : Event → Option Controller
  | .datagram data address =>
      if s.receiving then
        match generateMsg data address with
        | none => some { s with receiving := false }
        -- the thread of a `None` ends with a `TypeError`
        | some none => some s
        | some (some m) => some (s.spawn m)
      else none
  | .thread t =>
      match s.threads[t]? with
      | none => none
      | some th => s.advance c t th.message th.pc

end PublicCloudCore.RanController
