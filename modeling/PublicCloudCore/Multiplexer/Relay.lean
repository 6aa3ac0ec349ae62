import PublicCloudCore.CorekubeDb.Hashmap
import PublicCloudCore.Framework.Transport

/-!
# The multiplexer between the UEs and the core network

`nervion_multiplexer.c` with its `hashmap.c`, and `nervion_mp.py`. Both relay datagrams between
two sockets: what a UE sends goes to the core network, and its source becomes the route of the
tunnel endpoint in its header; what the core network sends takes that route back. The sockets are
bound, and memory is there when it is asked for.
-/

namespace PublicCloudCore.Multiplexer

open Framework
open CorekubeDb (HashMap hashmapGet jhash arrayToUint32)

/-- The members of `struct sockaddr_in` that are set. -/
structure Address where
  addr : UInt32
  port : UInt16
  deriving DecidableEq

/-- The payload of a UDP datagram over IPv4. -/
def maxPayload : Nat := 65507

structure Datagram where
  source : Address
  payload : List UInt8
  payload_le : payload.length ≤ maxPayload

inductive Packet
  | fromUe (d : Datagram)
  | fromCore (d : Datagram)

def Packet.datagram : Packet → Datagram
  | fromUe d => d
  | fromCore d => d

/-- `ran_sock` and `core_sock`, or `public_sock` and `internal_sock`. -/
inductive Socket
  | ran
  | core
  deriving DecidableEq

structure Sent where
  socket : Socket
  dest : Address
  payload : List UInt8
  deriving DecidableEq

def multiplexerPort : UInt16 := 2154
def corePort : UInt16 := 2152
def bufferLen : Nat := 65536

theorem udpRead_bufferLen (d : Datagram) : udpRead bufferLen d.payload = d.payload :=
  udpRead_of_length_le (Nat.le_trans d.payload_le (by decide))

/-- `hashmap_add` of the multiplexer, which stores over an entry with the same key. The loop over
the list starts with the head, which does not have the key, and stays there: behind a single node
it does nothing, and otherwise it links the new node behind the head for ever. -/
def hashmapAdd {α : Type} {hash : α → UInt32} (hm : HashMap hash) (data : α) :
    Option (HashMap hash) :=
  match hm.bucket (hash data) with
  | [] => some (hm.setBucket (hash data) [data])
  | head :: rest =>
      if hash head = hash data then some (hm.setBucket (hash data) (data :: rest))
      else if rest = [] then some hm
      else none

/-- `Data`; the length of the address is always that of a `struct sockaddr_in`. -/
structure Data where
  ueAddr : Address
  teid : UInt32
  deriving DecidableEq

def dataHash (d : Data) : UInt32 := d.teid

def getUeTeid (buffer : Mem UInt8) : UInt32 :=
  ((buffer 4).toUInt32 <<< 24) ||| ((buffer 5).toUInt32 <<< 16) ||| ((buffer 6).toUInt32 <<< 8) |||
    (buffer 7).toUInt32

/-- The global variables, and the buffer on the stack of each thread. -/
structure State where
  coreaddr : Address
  map : HashMap dataHash
  uplinkBuffer : Mem UInt8
  downlinkBuffer : Mem UInt8

/-- `none` once the process has ended or hangs. -/
abbrev Process := Option State

/-- What `main` leaves to the threads. -/
def State.start (spgwIp : UInt32) (initval : UInt32) (uplinkStack downlinkStack : Mem UInt8) :
    State where
  coreaddr := ⟨spgwIp, corePort⟩
  map := .init 8191 initval
  uplinkBuffer := uplinkStack
  downlinkBuffer := downlinkStack

namespace State

/-- One turn of the loop of `uplink`. -/
def uplink (s : State) (d : Datagram) : List Sent × Process :=
  let received := udpRead bufferLen d.payload
  let buffer := s.uplinkBuffer.write 0 received
  match hashmapAdd s.map ⟨d.source, getUeTeid buffer⟩ with
  | none => ([], none)
  | some map =>
      ([⟨.core, s.coreaddr, buffer.read 0 received.length⟩],
        some { s with map, uplinkBuffer := buffer })

/-- One turn of the loop of `downlink`, which receives the source of the datagram into
`coreaddr`. -/
def downlink (s : State) (d : Datagram) : List Sent × Process :=
  let received := udpRead bufferLen d.payload
  let buffer := s.downlinkBuffer.write 0 received
  match hashmapGet s.map (getUeTeid buffer) with
  -- `data->ue_len` behind a null pointer
  | none => ([], none)
  | some data =>
      ([⟨.ran, data.ueAddr, buffer.read 0 received.length⟩],
        some { s with coreaddr := d.source, downlinkBuffer := buffer })

end State

namespace Process

def step : Process → Packet → List Sent × Process
  | none, _ => ([], none)
  | some s, .fromUe d => s.uplink d
  | some s, .fromCore d => s.downlink d

def Runs (p : Process) : Prop := p.isSome

end Process

/-- An instance of `NervionMultiplexer`, and which of its threads an exception has not ended. -/
structure NervionMultiplexer where
  routes : Nat → Option Address
  spgwIp : UInt32
  uplinkRuns : Bool
  downlinkRuns : Bool

namespace NervionMultiplexer

/-- What `start` leaves to the threads. -/
def start (spgwIp : UInt32) : NervionMultiplexer := ⟨fun _ => none, spgwIp, true, true⟩

/-- The first line of `processMessage` and of `getAddress`; `none` is an `IndexError`. -/
def teid (payload : List UInt8) : Option Nat := do
  let b4 ← payload[4]?
  let b5 ← payload[5]?
  let b6 ← payload[6]?
  let b7 ← payload[7]?
  return (b4.toNat <<< 24) ||| (b5.toNat <<< 16) ||| (b6.toNat <<< 8) ||| b7.toNat

def processMessage (self : NervionMultiplexer) (payload : List UInt8) (address : Address) :
    Option NervionMultiplexer := do
  let teid ← teid payload
  return { self with routes := Function.update self.routes teid (some address) }

def getAddress (self : NervionMultiplexer) (payload : List UInt8) : Option (Option Address) := do
  let teid ← teid payload
  return self.routes teid

/-- One turn of the loop of `uplink`. -/
def uplink (self : NervionMultiplexer) (d : Datagram) : List Sent × NervionMultiplexer :=
  let payload := udpRead 65536 d.payload
  match self.processMessage payload d.source with
  | none => ([], { self with uplinkRuns := false })
  | some self => ([⟨.core, ⟨self.spgwIp, 2152⟩, payload⟩], self)

/-- One turn of the loop of `downlink`. -/
def downlink (self : NervionMultiplexer) (d : Datagram) : List Sent × NervionMultiplexer :=
  let payload := udpRead 65536 d.payload
  match self.getAddress payload with
  | none => ([], { self with downlinkRuns := false })
  | some none => ([], self)
  | some (some ueAddress) => ([⟨.ran, ueAddress, payload⟩], self)

def step (self : NervionMultiplexer) : Packet → List Sent × NervionMultiplexer
  | .fromUe d => if self.uplinkRuns then self.uplink d else ([], self)
  | .fromCore d => if self.downlinkRuns then self.downlink d else ([], self)

def Runs (self : NervionMultiplexer) : Prop := self.uplinkRuns ∧ self.downlinkRuns

end NervionMultiplexer

/-! The past of a packet is the list of the packets before it, the last one first. -/

def teidOf : List UInt8 → Option UInt32
  | _ :: _ :: _ :: _ :: a :: b :: c :: d :: _ => some (arrayToUint32 [a, b, c, d])
  | _ => none

/-- The source of the latest uplink datagram with this identifier. -/
def latestSource (t : UInt32) : List Packet → Option Address
  | [] => none
  | .fromUe d :: past => if teidOf d.payload = some t then some d.source else latestSource t past
  | .fromCore _ :: past => latestSource t past

def relayed (core : Address) (past : List Packet) : Packet → List Sent
  | .fromUe d => [⟨.core, core, d.payload⟩]
  | .fromCore d =>
      match (teidOf d.payload).bind (latestSource · past) with
      | some address => [⟨.ran, address, d.payload⟩]
      | none => []

section

variable {σ : Type}

/-- Every packet gives rise to what it should, and the program goes on. -/
def Relays (step : σ → Packet → List Sent × σ) (runs : σ → Prop) (core : Address) :
    List Packet → σ → List Packet → Prop
  | _, _, [] => True
  | past, s, p :: ps =>
      (step s p).1 = relayed core past p ∧ runs (step s p).2 ∧
        Relays step runs core (p :: past) (step s p).2 ps

def sentBy (step : σ → Packet → List Sent × σ) : σ → List Packet → List Sent
  | _, [] => []
  | s, p :: ps => (step s p).1 ++ sentBy step (step s p).2 ps

end

/-- Both programs relay these packets, and they send the same datagrams. -/
structure RelayAlike (spgwIp initval : UInt32) (uplinkStack downlinkStack : Mem UInt8)
    (ps : List Packet) : Prop where
  process : Relays Process.step Process.Runs ⟨spgwIp, corePort⟩ []
    (some (.start spgwIp initval uplinkStack downlinkStack)) ps
  reference : Relays NervionMultiplexer.step NervionMultiplexer.Runs ⟨spgwIp, corePort⟩ []
    (.start spgwIp) ps
  same : sentBy Process.step (some (.start spgwIp initval uplinkStack downlinkStack)) ps =
    sentBy NervionMultiplexer.step (.start spgwIp) ps

end PublicCloudCore.Multiplexer
