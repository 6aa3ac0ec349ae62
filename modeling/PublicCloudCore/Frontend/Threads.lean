import PublicCloudCore.Framework.SlotTable
import PublicCloudCore.Framework.Transition
import PublicCloudCore.Frontend.Messages

/-!
# The threads of the frontend

The accept loop, one uplink and one downlink thread for each eNB, the datagrams on their way to
the workers and back, and the descriptors of the process. An event is what one thread does up to
its next system call. The eNBs are numbered in the order in which they are accepted; a thread has
the number of its eNB, whichever descriptor that one got.
-/

namespace PublicCloudCore.Frontend

open Framework

inductive Endpoint
  -- the standard streams, the listening socket and the UDP socket of the downlink threads
  | shared
  -- `tmp_sock` of an uplink thread
  | temporary (thread : Nat)
  | association (enb : Nat)
  deriving DecidableEq, Repr

def Endpoint.enb? : Endpoint → Option Nat
  | .association enb => some enb
  | _ => none

theorem Endpoint.enb?_eq_some_iff {e : Endpoint} {enb : Nat} :
    e.enb? = some enb ↔ e = .association enb := by
  cases e <;> simp [Endpoint.enb?]

structure Datagram where
  bytes : List UInt8
  origin : Nat
  deriving Repr

inductive UplinkStage
  -- in `sctp_recvmsg`
  | receiving
  -- with a message in the buffer, before `socket`
  | received (message : Datagram)
  -- before `sendto`
  | bound (tmpSock : Nat) (message : Datagram)
  -- before `close(tmp_sock)`
  | forwarded (tmpSock : Nat)
  -- behind the loop, before `pthread_cancel`
  | disconnected
  -- before `close(sock_enb)`
  | cancelled

structure UplinkThread where
  sockEnb : Nat
  dThreadId : Nat
  stage : UplinkStage

inductive DownlinkStage
  -- in `recv`
  | receiving
  -- before `sctp_sendmsg`
  | sending (message : Datagram)

inductive AcceptStage
  | accepting
  -- before the downlink thread is created
  | accepted (sockEnb enb : Nat)
  -- before the uplink thread is created
  | downlinkCreated (sockEnb enb : Nat)
  | returned

/-- A call of `sctp_sendmsg`: the eNB that is answered and the one whose association it is. -/
structure Sending where
  origin : Nat
  association : Nat
  deriving DecidableEq, Repr

structure State where
  descriptors : SlotTable Endpoint
  acceptLoop : AcceptStage
  -- the eNBs that have been accepted
  enbCount : Nat
  -- the eNBs whose associations are down
  gone : List Nat
  uplink : Nat → Option UplinkThread
  downlink : Nat → Option DownlinkStage
  toWorker : List Datagram
  toFrontend : List Datagram
  sendings : List Sending

namespace State

/-- The accept loop before the first eNB. -/
def initial : State where
  descriptors := ⟨List.replicate 5 (some .shared)⟩
  acceptLoop := .accepting
  enbCount := 0
  gone := []
  uplink _ := none
  downlink _ := none
  toWorker := []
  toFrontend := []
  sendings := []

def setUplink (s : State) (k : Nat) (th : Option UplinkThread) : State :=
  { s with uplink := fun j => if j = k then th else s.uplink j }

def setDownlink (s : State) (k : Nat) (stage : Option DownlinkStage) : State :=
  { s with downlink := fun j => if j = k then stage else s.downlink j }

def close (s : State) (fd : Nat) : State := { s with descriptors := s.descriptors.release fd }

def enbAt (s : State) (fd : Int) : Option Nat :=
  if fd < 0 then none else (s.descriptors.lookup fd.toNat).bind Endpoint.enb?

theorem enbAt_eq_some_iff {s : State} {fd : Int} {k : Nat} :
    s.enbAt fd = some k ↔
      0 ≤ fd ∧ s.descriptors.lookup fd.toNat = some (.association k) := by
  rw [enbAt]
  split
  · next hneg =>
    constructor
    · intro h
      cases h
    · intro ⟨hpos, _⟩
      omega
  · next hpos =>
    rw [Option.bind_eq_some_iff]
    constructor
    · intro ⟨e, he, henb⟩
      rw [Endpoint.enb?_eq_some_iff.mp henb] at he
      exact ⟨Int.not_lt.mp hpos, he⟩
    · intro ⟨_, he⟩
      exact ⟨_, he, rfl⟩

theorem enbAt_natCast_eq_some_iff {s : State} {fd k : Nat} :
    s.enbAt fd = some k ↔ s.descriptors.lookup fd = some (.association k) := by
  rw [enbAt_eq_some_iff, Int.toNat_natCast]
  exact and_iff_right (Int.natCast_nonneg fd)

end State

/-- What becomes of an allocation and of the thread that it is for. -/
inductive Creation
  | created
  | noMemory
  | noThread
  deriving DecidableEq, Repr

inductive Event
  | accept
  | createDownlink (outcome : Creation)
  | createUplink (outcome : Creation)
  -- the association of an eNB goes down
  | leave (enb : Nat)
  -- `sctp_recvmsg` returns bytes with the accepted PPID
  | uplinkRecvmsg (thread : Nat) (bytes : List UInt8)
  -- `socket` and `bind`
  | uplinkSocket (thread : Nat) (succeeds : Bool)
  | uplinkSendto (thread : Nat)
  | uplinkCloseTmp (thread : Nat)
  -- `sctp_recvmsg` returns no bytes
  | uplinkDisconnected (thread : Nat)
  | uplinkCancel (thread : Nat)
  | uplinkClose (thread : Nat)
  -- a worker takes a datagram and sends its responses, each with the stream of its message
  | processMessage (index : Nat) (responses : List (UInt8 × List UInt8))
  | downlinkRecv (thread : Nat) (index : Nat)
  | downlinkSendmsg (thread : Nat) (succeeds : Bool)

namespace State

/-- `accept` gives the new association the lowest descriptor that is free. -/
def accept (s : State) : Option State :=
  match s.acceptLoop with
  | .accepting =>
      if s.descriptors.lowestFree < 2 ^ 31 then
        some { s with
          descriptors := s.descriptors.install (.association s.enbCount)
          acceptLoop := .accepted s.descriptors.lowestFree s.enbCount
          enbCount := s.enbCount + 1 }
      else none
  | _ => none

/-- The process ends with the accept loop. -/
def exit (s : State) : State :=
  { s with
    descriptors := ⟨[]⟩
    acceptLoop := .returned
    uplink := fun _ => none
    downlink := fun _ => none }

def createDownlink (s : State) (outcome : Creation) : Option State :=
  match s.acceptLoop with
  | .accepted sockEnb enb =>
      match outcome with
      | .created =>
          some { s.setDownlink enb (some .receiving) with
            acceptLoop := .downlinkCreated sockEnb enb }
      | .noMemory => some { s.close sockEnb with acceptLoop := .accepting }
      | .noThread => some s.exit
  | _ => none

def createUplink (s : State) (outcome : Creation) : Option State :=
  match s.acceptLoop with
  | .downlinkCreated sockEnb enb =>
      match outcome with
      | .created =>
          some { s.setUplink enb (some ⟨sockEnb, enb, .receiving⟩) with acceptLoop := .accepting }
      | .noMemory =>
          some { (s.close sockEnb).setDownlink enb none with acceptLoop := .accepting }
      | .noThread => some { s.close sockEnb with acceptLoop := .accepting }
  | _ => none

def uplinkRecvmsg (s : State) (k : Nat) (bytes : List UInt8) : Option State :=
  match s.uplink k with
  | some ⟨sockEnb, dThreadId, .receiving⟩ =>
      match s.enbAt sockEnb with
      | some enb =>
          if 0 < bytes.length ∧ bytes.length ≤ uplinkBufferLen then
            let message : Datagram := ⟨intToArray sockEnb ++ bytes, enb⟩
            some (s.setUplink k (some ⟨sockEnb, dThreadId, .received message⟩))
          else none
      | none => none
  | _ => none

/-- The thread returns when there is no socket, and leaves its eNB as it is. -/
def uplinkSocket (s : State) (k : Nat) (succeeds : Bool) : Option State :=
  match s.uplink k with
  | some ⟨sockEnb, dThreadId, .received message⟩ =>
      if succeeds then
        if s.descriptors.lowestFree < 2 ^ 31 then
          let tmpSock := s.descriptors.lowestFree
          some { s.setUplink k (some ⟨sockEnb, dThreadId, .bound tmpSock message⟩) with
            descriptors := s.descriptors.install (.temporary k) }
        else none
      else some (s.setUplink k none)
  | _ => none

def uplinkSendto (s : State) (k : Nat) : Option State :=
  match s.uplink k with
  | some ⟨sockEnb, dThreadId, .bound tmpSock message⟩ =>
      some { s.setUplink k (some ⟨sockEnb, dThreadId, .forwarded tmpSock⟩) with
        toWorker := s.toWorker ++ [message] }
  | _ => none

def uplinkCloseTmp (s : State) (k : Nat) : Option State :=
  match s.uplink k with
  | some ⟨sockEnb, dThreadId, .forwarded tmpSock⟩ =>
      some ((s.close tmpSock).setUplink k (some ⟨sockEnb, dThreadId, .receiving⟩))
  | _ => none

def uplinkDisconnected (s : State) (k : Nat) : Option State :=
  match s.uplink k with
  | some ⟨sockEnb, dThreadId, .receiving⟩ =>
      let gone := (s.enbAt sockEnb).toList ++ s.gone
      some { s.setUplink k (some ⟨sockEnb, dThreadId, .disconnected⟩) with gone }
  | _ => none

def uplinkCancel (s : State) (k : Nat) : Option State :=
  match s.uplink k with
  | some ⟨sockEnb, dThreadId, .disconnected⟩ =>
      some ((s.setDownlink dThreadId none).setUplink k (some ⟨sockEnb, dThreadId, .cancelled⟩))
  | _ => none

def uplinkClose (s : State) (k : Nat) : Option State :=
  match s.uplink k with
  | some ⟨sockEnb, _, .cancelled⟩ => some ((s.close sockEnb).setUplink k none)
  | _ => none

/-- The datagrams of the reply loop. -/
def replies (message : Datagram) (responses : List (UInt8 × List UInt8)) : List Datagram :=
  responses.flatMap fun r =>
    (sendto (responseOut (udpRead workerBufferLen message.bytes) r.1 r.2)).map
      (⟨·, message.origin⟩)

def processMessage (s : State) (i : Nat) (responses : List (UInt8 × List UInt8)) : Option State :=
  match s.toWorker[i]? with
  | some message =>
      if passesToHandler (udpRead workerBufferLen message.bytes) then
        some { s with
          toWorker := s.toWorker.eraseIdx i
          toFrontend := s.toFrontend ++ replies message responses }
      else none
  | none => none

/-- Any downlink thread may get any datagram. -/
def downlinkRecv (s : State) (k i : Nat) : Option State :=
  match s.downlink k, s.toFrontend[i]? with
  | some .receiving, some message =>
      let bytes := udpRead downlinkBufferLen message.bytes
      let stage := if bytes = [] then none else some (.sending ⟨bytes, message.origin⟩)
      some { s.setDownlink k stage with toFrontend := s.toFrontend.eraseIdx i }
  | _, _ => none

/-- The thread leaves its loop when the call fails. -/
def downlinkSendmsg (is5g : Bool) (s : State) (k : Nat) (succeeds : Bool) : Option State :=
  match s.downlink k with
  | some (.sending message) =>
      let call := downlinkSend is5g message.bytes
      let sending := (s.enbAt call.sockEnb).map (⟨message.origin, ·⟩)
      let s' := { s with sendings := s.sendings ++ sending.toList }
      if succeeds then
        match s.enbAt call.sockEnb with
        | some enb =>
            if enb ∉ s.gone ∧ call.messages ≠ [] then some (s'.setDownlink k (some .receiving))
            else none
        | none => none
      else some (s'.setDownlink k none)
  | _ => none

def step (is5g : Bool) (s : State) : Event → Option State
  | .accept => s.accept
  | .createDownlink outcome => s.createDownlink outcome
  | .createUplink outcome => s.createUplink outcome
  | .leave enb => if enb < s.enbCount then some { s with gone := enb :: s.gone } else none
  | .uplinkRecvmsg k bytes => s.uplinkRecvmsg k bytes
  | .uplinkSocket k succeeds => s.uplinkSocket k succeeds
  | .uplinkSendto k => s.uplinkSendto k
  | .uplinkCloseTmp k => s.uplinkCloseTmp k
  | .uplinkDisconnected k => s.uplinkDisconnected k
  | .uplinkCancel k => s.uplinkCancel k
  | .uplinkClose k => s.uplinkClose k
  | .processMessage i responses => s.processMessage i responses
  | .downlinkRecv k i => s.downlinkRecv k i
  | .downlinkSendmsg k succeeds => s.downlinkSendmsg is5g k succeeds

/-- The steps that go through, one rule for each way in which a system call comes out. -/
inductive Step (is5g : Bool) (s : State) : Event → State → Prop
  | accept (hloop : s.acceptLoop = .accepting) (hfree : s.descriptors.lowestFree < 2 ^ 31) :
      Step is5g s .accept { s with
        descriptors := s.descriptors.install (.association s.enbCount)
        acceptLoop := .accepted s.descriptors.lowestFree s.enbCount
        enbCount := s.enbCount + 1 }
  | createDownlink {fd k : Nat} (hloop : s.acceptLoop = .accepted fd k) :
      Step is5g s (.createDownlink .created)
        { s.setDownlink k (some .receiving) with acceptLoop := .downlinkCreated fd k }
  | noDownlinkArgs {fd k : Nat} (hloop : s.acceptLoop = .accepted fd k) :
      Step is5g s (.createDownlink .noMemory) { s.close fd with acceptLoop := .accepting }
  | noDownlinkThread {fd k : Nat} (hloop : s.acceptLoop = .accepted fd k) :
      Step is5g s (.createDownlink .noThread) s.exit
  | createUplink {fd k : Nat} (hloop : s.acceptLoop = .downlinkCreated fd k) :
      Step is5g s (.createUplink .created)
        { s.setUplink k (some ⟨fd, k, .receiving⟩) with acceptLoop := .accepting }
  | noUplinkArgs {fd k : Nat} (hloop : s.acceptLoop = .downlinkCreated fd k) :
      Step is5g s (.createUplink .noMemory)
        { (s.close fd).setDownlink k none with acceptLoop := .accepting }
  | noUplinkThread {fd k : Nat} (hloop : s.acceptLoop = .downlinkCreated fd k) :
      Step is5g s (.createUplink .noThread) { s.close fd with acceptLoop := .accepting }
  | leave {k : Nat} (hk : k < s.enbCount) :
      Step is5g s (.leave k) { s with gone := k :: s.gone }
  | uplinkRecvmsg {k fd d enb : Nat} {bytes : List UInt8}
      (hth : s.uplink k = some ⟨fd, d, .receiving⟩) (henb : s.enbAt fd = some enb) :
      Step is5g s (.uplinkRecvmsg k bytes)
        (s.setUplink k (some ⟨fd, d, .received ⟨intToArray fd ++ bytes, enb⟩⟩))
  | uplinkSocket {k fd d : Nat} {m : Datagram} (hth : s.uplink k = some ⟨fd, d, .received m⟩)
      (hfree : s.descriptors.lowestFree < 2 ^ 31) :
      Step is5g s (.uplinkSocket k true)
        { s.setUplink k (some ⟨fd, d, .bound s.descriptors.lowestFree m⟩) with
          descriptors := s.descriptors.install (.temporary k) }
  | noUplinkSocket {k fd d : Nat} {m : Datagram} (hth : s.uplink k = some ⟨fd, d, .received m⟩) :
      Step is5g s (.uplinkSocket k false) (s.setUplink k none)
  | uplinkSendto {k fd d tmp : Nat} {m : Datagram}
      (hth : s.uplink k = some ⟨fd, d, .bound tmp m⟩) :
      Step is5g s (.uplinkSendto k)
        { s.setUplink k (some ⟨fd, d, .forwarded tmp⟩) with toWorker := s.toWorker ++ [m] }
  | uplinkCloseTmp {k fd d tmp : Nat} (hth : s.uplink k = some ⟨fd, d, .forwarded tmp⟩) :
      Step is5g s (.uplinkCloseTmp k)
        ((s.close tmp).setUplink k (some ⟨fd, d, .receiving⟩))
  | uplinkDisconnected {k fd d : Nat} (hth : s.uplink k = some ⟨fd, d, .receiving⟩) :
      Step is5g s (.uplinkDisconnected k)
        { s.setUplink k (some ⟨fd, d, .disconnected⟩) with
          gone := (s.enbAt fd).toList ++ s.gone }
  | uplinkCancel {k fd d : Nat} (hth : s.uplink k = some ⟨fd, d, .disconnected⟩) :
      Step is5g s (.uplinkCancel k)
        ((s.setDownlink d none).setUplink k (some ⟨fd, d, .cancelled⟩))
  | uplinkClose {k fd d : Nat} (hth : s.uplink k = some ⟨fd, d, .cancelled⟩) :
      Step is5g s (.uplinkClose k) ((s.close fd).setUplink k none)
  | processMessage {i : Nat} {m : Datagram} {responses : List (UInt8 × List UInt8)}
      (hm : s.toWorker[i]? = some m) :
      Step is5g s (.processMessage i responses)
        { s with
          toWorker := s.toWorker.eraseIdx i
          toFrontend := s.toFrontend ++ replies m responses }
  | downlinkRecv {k i : Nat} {m : Datagram} (hth : s.downlink k = some .receiving)
      (hm : s.toFrontend[i]? = some m) {stage : Option DownlinkStage}
      (hstage : stage = if udpRead downlinkBufferLen m.bytes = [] then none
        else some (.sending ⟨udpRead downlinkBufferLen m.bytes, m.origin⟩)) :
      Step is5g s (.downlinkRecv k i)
        { s.setDownlink k stage with toFrontend := s.toFrontend.eraseIdx i }
  | downlinkSendmsg {k : Nat} {m : Datagram} {succeeds : Bool} {stage : Option DownlinkStage}
      (hth : s.downlink k = some (.sending m))
      (hstage : stage = if succeeds then some .receiving else none) :
      Step is5g s (.downlinkSendmsg k succeeds)
        (setDownlink { s with sendings := s.sendings ++
          ((s.enbAt (arrayToInt m.bytes)).map (⟨m.origin, ·⟩)).toList } k stage)

variable {is5g : Bool} {s s' : State}

theorem accept_cases (h : s.accept = some s') :
    Step is5g s .accept s' := by
  simp only [State.accept] at h
  split at h
  · next hloop =>
    split at h
    · next hfree =>
      cases h
      exact .accept hloop hfree
    · cases h
  · cases h

theorem createDownlink_cases {outcome : Creation} (h : s.createDownlink outcome = some s') :
    Step is5g s (.createDownlink outcome) s' := by
  simp only [State.createDownlink] at h
  split at h
  · next hloop =>
    cases outcome <;> cases h
    · exact .createDownlink hloop
    · exact .noDownlinkArgs hloop
    · exact .noDownlinkThread hloop
  · cases h

theorem createUplink_cases {outcome : Creation} (h : s.createUplink outcome = some s') :
    Step is5g s (.createUplink outcome) s' := by
  simp only [State.createUplink] at h
  split at h
  · next hloop =>
    cases outcome <;> cases h
    · exact .createUplink hloop
    · exact .noUplinkArgs hloop
    · exact .noUplinkThread hloop
  · cases h

theorem uplinkRecvmsg_cases {k : Nat} {bytes : List UInt8} (h : s.uplinkRecvmsg k bytes = some s') :
    Step is5g s (.uplinkRecvmsg k bytes) s' := by
  simp only [State.uplinkRecvmsg] at h
  split at h
  · next hth =>
    split at h
    · next henb =>
      split at h
      · cases h
        exact .uplinkRecvmsg hth henb
      · cases h
    · cases h
  · cases h

theorem uplinkSocket_cases {k : Nat} {succeeds : Bool} (h : s.uplinkSocket k succeeds = some s') :
    Step is5g s (.uplinkSocket k succeeds) s' := by
  simp only [State.uplinkSocket] at h
  split at h
  · next hth =>
    cases succeeds with
    | false =>
        cases h
        exact .noUplinkSocket hth
    | true =>
        simp only [if_true] at h
        split at h
        · next hfree =>
          cases h
          exact .uplinkSocket hth hfree
        · cases h
  · cases h

theorem uplinkSendto_cases {k : Nat} (h : s.uplinkSendto k = some s') :
    Step is5g s (.uplinkSendto k) s' := by
  simp only [State.uplinkSendto] at h
  split at h
  · next hth =>
    cases h
    exact .uplinkSendto hth
  · cases h

theorem uplinkCloseTmp_cases {k : Nat} (h : s.uplinkCloseTmp k = some s') :
    Step is5g s (.uplinkCloseTmp k) s' := by
  simp only [State.uplinkCloseTmp] at h
  split at h
  · next hth =>
    cases h
    exact .uplinkCloseTmp hth
  · cases h

theorem uplinkDisconnected_cases {k : Nat} (h : s.uplinkDisconnected k = some s') :
    Step is5g s (.uplinkDisconnected k) s' := by
  simp only [State.uplinkDisconnected] at h
  split at h
  · next hth =>
    cases h
    exact .uplinkDisconnected hth
  · cases h

theorem uplinkCancel_cases {k : Nat} (h : s.uplinkCancel k = some s') :
    Step is5g s (.uplinkCancel k) s' := by
  simp only [State.uplinkCancel] at h
  split at h
  · next hth =>
    cases h
    exact .uplinkCancel hth
  · cases h

theorem uplinkClose_cases {k : Nat} (h : s.uplinkClose k = some s') :
    Step is5g s (.uplinkClose k) s' := by
  simp only [State.uplinkClose] at h
  split at h
  · next hth =>
    cases h
    exact .uplinkClose hth
  · cases h

theorem processMessage_cases {i : Nat} {responses : List (UInt8 × List UInt8)}
    (h : s.processMessage i responses = some s') :
    Step is5g s (.processMessage i responses) s' := by
  simp only [State.processMessage] at h
  split at h
  · next hm =>
    split at h
    · cases h
      exact .processMessage hm
    · cases h
  · cases h

theorem downlinkRecv_cases {k i : Nat} (h : s.downlinkRecv k i = some s') :
    Step is5g s (.downlinkRecv k i) s' := by
  simp only [State.downlinkRecv] at h
  split at h
  · next hth hm =>
    cases h
    exact .downlinkRecv hth hm rfl
  · cases h

theorem downlinkSendmsg_cases {k : Nat} {succeeds : Bool}
    (h : downlinkSendmsg is5g s k succeeds = some s') :
    Step is5g s (.downlinkSendmsg k succeeds) s' := by
  simp only [State.downlinkSendmsg, downlinkSend_sockEnb] at h
  split at h
  · next hth =>
    cases succeeds with
    | false =>
        cases h
        exact .downlinkSendmsg hth rfl
    | true =>
        simp only [if_true] at h
        split at h
        · split at h
          · cases h
            exact .downlinkSendmsg hth rfl
          · cases h
        · cases h
  · cases h

theorem step_cases {e : Event} (h : step is5g s e = some s') : Step is5g s e s' := by
  cases e with
  | accept => exact accept_cases h
  | createDownlink outcome => exact createDownlink_cases h
  | createUplink outcome => exact createUplink_cases h
  | leave k =>
      simp only [step] at h
      split at h
      · next hk =>
        cases h
        exact .leave hk
      · cases h
  | uplinkRecvmsg k bytes => exact uplinkRecvmsg_cases h
  | uplinkSocket k succeeds => exact uplinkSocket_cases h
  | uplinkSendto k => exact uplinkSendto_cases h
  | uplinkCloseTmp k => exact uplinkCloseTmp_cases h
  | uplinkDisconnected k => exact uplinkDisconnected_cases h
  | uplinkCancel k => exact uplinkCancel_cases h
  | uplinkClose k => exact uplinkClose_cases h
  | processMessage i responses => exact processMessage_cases h
  | downlinkRecv k i => exact downlinkRecv_cases h
  | downlinkSendmsg k succeeds => exact downlinkSendmsg_cases h

end State

structure Datagram.IsOf (m : Datagram) (fd k : Nat) : Prop where
  bytes : ∃ message, m.bytes = intToArray fd ++ message
  origin : m.origin = k

def UplinkStage.Holds (t : SlotTable Endpoint) (fd k : Nat) : UplinkStage → Prop
  | .received m => m.IsOf fd k
  | .bound tmp m => t.lookup tmp = some (.temporary k) ∧ m.IsOf fd k
  | .forwarded tmp => t.lookup tmp = some (.temporary k)
  | _ => True

structure UplinkThread.Holds (th : UplinkThread) (t : SlotTable Endpoint) (k : Nat) : Prop where
  association : t.lookup th.sockEnb = some (.association k)
  downlink : th.dThreadId = k
  stage : th.stage.Holds t th.sockEnb k

/-- The eNB that the accept loop is about to start a thread for. -/
def AcceptStage.Starting (a : AcceptStage) (fd k : Nat) : Prop :=
  a = .accepted fd k ∨ a = .downlinkCreated fd k

structure State.Consistent (s : State) : Prop where
  int : ∀ fd e, s.descriptors.lookup fd = some e → fd < 2 ^ 31
  counted : ∀ fd k, s.descriptors.lookup fd = some (.association k) → k < s.enbCount
  single : ∀ fd fd' k, s.descriptors.lookup fd = some (.association k) →
    s.descriptors.lookup fd' = some (.association k) → fd = fd'
  starting : ∀ fd k, s.acceptLoop.Starting fd k →
    s.descriptors.lookup fd = some (.association k) ∧ s.uplink k = none
  uplink : ∀ k th, s.uplink k = some th → th.Holds s.descriptors k

section Tables

variable {t : SlotTable Endpoint} {th : UplinkThread} {e : Endpoint} {fd k : Nat}

theorem UplinkThread.Holds.install (h : th.Holds t k) : th.Holds (t.install e) k where
  association := SlotTable.lookup_install_of_some h.association
  downlink := h.downlink
  stage := by
    have hstage := h.stage
    cases hs : th.stage with
    | received m =>
        rw [hs] at hstage
        exact hstage
    | bound tmp m =>
        rw [hs] at hstage
        exact ⟨SlotTable.lookup_install_of_some hstage.1, hstage.2⟩
    | forwarded tmp =>
        rw [hs] at hstage
        exact SlotTable.lookup_install_of_some hstage
    | receiving => trivial
    | disconnected => trivial
    | cancelled => trivial

theorem UplinkThread.Holds.release (h : th.Holds t k) (hfd : t.lookup fd = some e)
    (hassoc : e ≠ .association k) (htmp : e ≠ .temporary k) : th.Holds (t.release fd) k where
  association := SlotTable.lookup_release_of_ne hfd h.association hassoc
  downlink := h.downlink
  stage := by
    have hstage := h.stage
    cases hs : th.stage with
    | received m =>
        rw [hs] at hstage
        exact hstage
    | bound tmp m =>
        rw [hs] at hstage
        exact ⟨SlotTable.lookup_release_of_ne hfd hstage.1 htmp, hstage.2⟩
    | forwarded tmp =>
        rw [hs] at hstage
        exact SlotTable.lookup_release_of_ne hfd hstage htmp
    | receiving => trivial
    | disconnected => trivial
    | cancelled => trivial

end Tables

namespace State

variable {is5g : Bool} {s s' : State} {e : Event} {fd k : Nat}

theorem consistent_initial : initial.Consistent := by
  have hshared : ∀ fd e, initial.descriptors.lookup fd = some e → fd < 5 ∧ e = .shared := by
    intro fd e h
    have hlookup : initial.descriptors.lookup fd = (List.replicate 5 (some .shared)).getD fd none :=
      rfl
    rw [hlookup, List.getD_eq_getElem?_getD, List.getElem?_replicate] at h
    split at h
    · next hfd => exact ⟨hfd, (Option.some.inj h).symm⟩
    · cases h
  have hnone : ∀ fd k, initial.descriptors.lookup fd ≠ some (.association k) := by
    intro fd k h
    cases (hshared fd _ h).2
  exact {
    int := fun fd e h => Nat.lt_trans (hshared fd e h).1 (by decide)
    counted := fun fd k h => absurd h (hnone fd k)
    single := fun fd fd' k h => absurd h (hnone fd k)
    starting := by
      intro fd k h
      cases h with
      | inl h => cases h
      | inr h => cases h
    uplink := fun k th h => by cases h }

/-- The threads that are added or moved hold what they need, and no descriptor changes. -/
theorem Consistent.ofThreads (h : s.Consistent) (hd : s'.descriptors = s.descriptors)
    (hc : s'.enbCount = s.enbCount)
    (hstarting : ∀ fd k, s'.acceptLoop.Starting fd k →
      s.acceptLoop.Starting fd k ∧ s'.uplink k = none)
    (huplink : ∀ k th, s'.uplink k = some th → th.Holds s.descriptors k) : s'.Consistent where
  int := by
    rw [hd]
    exact h.int
  counted := by
    rw [hd, hc]
    exact h.counted
  single := by
    rw [hd]
    exact h.single
  starting fd k hfd := by
    rw [hd]
    obtain ⟨hold, hnone⟩ := hstarting fd k hfd
    exact ⟨(h.starting fd k hold).1, hnone⟩
  uplink := by
    rw [hd]
    exact huplink

/-- A new descriptor for what is no association. -/
theorem Consistent.ofInstall (h : s.Consistent) {e : Endpoint} (he : ∀ k, e ≠ .association k)
    (hfree : s.descriptors.lowestFree < 2 ^ 31) (hd : s'.descriptors = s.descriptors.install e)
    (hc : s'.enbCount = s.enbCount)
    (hstarting : ∀ fd k, s'.acceptLoop.Starting fd k →
      s.acceptLoop.Starting fd k ∧ s'.uplink k = none)
    (huplink : ∀ k th, s'.uplink k = some th → th.Holds s'.descriptors k) : s'.Consistent := by
  have hassoc : ∀ fd k, s'.descriptors.lookup fd = some (.association k) →
      s.descriptors.lookup fd = some (.association k) := by
    intro fd k hfd
    rw [hd] at hfd
    cases SlotTable.lookup_install_eq_some_iff.mp hfd with
    | inl hnew => exact absurd hnew.2 (he k)
    | inr hold => exact hold
  exact {
    int := by
      intro fd e' hfd
      rw [hd] at hfd
      cases SlotTable.lookup_install_eq_some_iff.mp hfd with
      | inl hnew =>
          rw [hnew.1]
          exact hfree
      | inr hold => exact h.int fd e' hold
    counted := by
      intro fd k hfd
      rw [hc]
      exact h.counted fd k (hassoc fd k hfd)
    single := fun fd fd' k hfd hfd' => h.single fd fd' k (hassoc fd k hfd) (hassoc fd' k hfd')
    starting := by
      intro fd k hfd
      obtain ⟨hold, hnone⟩ := hstarting fd k hfd
      rw [hd]
      exact ⟨SlotTable.lookup_install_of_some (h.starting fd k hold).1, hnone⟩
    uplink := huplink }

/-- A descriptor is closed that no other thread holds. -/
theorem Consistent.ofRelease (h : s.Consistent) (hd : s'.descriptors = s.descriptors.release fd)
    {e : Endpoint} (hfd : s.descriptors.lookup fd = some e) (hc : s'.enbCount = s.enbCount)
    (hstarting : ∀ fd' k, s'.acceptLoop.Starting fd' k →
      e ≠ .association k ∧ s.acceptLoop.Starting fd' k ∧ s'.uplink k = none)
    (huplink : ∀ k th, s'.uplink k = some th → th.Holds s'.descriptors k) : s'.Consistent where
  int fd' e' h' := by
    rw [hd] at h'
    exact h.int fd' e' (SlotTable.lookup_release_eq_some_iff.mp h').2
  counted fd' k' h' := by
    rw [hd] at h'
    rw [hc]
    exact h.counted fd' k' (SlotTable.lookup_release_eq_some_iff.mp h').2
  single fd₁ fd₂ k' h₁ h₂ := by
    rw [hd] at h₁ h₂
    exact h.single fd₁ fd₂ k' (SlotTable.lookup_release_eq_some_iff.mp h₁).2
      (SlotTable.lookup_release_eq_some_iff.mp h₂).2
  starting fd' k' h' := by
    obtain ⟨hne, hold, hnone⟩ := hstarting fd' k' h'
    rw [hd]
    exact ⟨SlotTable.lookup_release_of_ne hfd (h.starting fd' k' hold).1 hne, hnone⟩
  uplink := huplink

theorem setUplink_cases {th : Option UplinkThread} {P : Nat → UplinkThread → Prop}
    (hk : ∀ th', th = some th' → P k th') (h : ∀ j th', s.uplink j = some th' → j ≠ k → P j th') :
    ∀ j th', (s.setUplink k th).uplink j = some th' → P j th' := by
  intro j th' hj
  by_cases hjk : j = k
  · subst hjk
    have hth : (s.setUplink j th).uplink j = th := if_pos rfl
    rw [hth] at hj
    exact hk th' hj
  · have hth : (s.setUplink k th).uplink j = s.uplink j := if_neg hjk
    rw [hth] at hj
    exact h j th' hj hjk

theorem Consistent.starting_setUplink (h : s.Consistent) {th : UplinkThread}
    (hth : s.uplink k = some th) (th' : Option UplinkThread) :
    ∀ fd j, s.acceptLoop.Starting fd j →
      s.acceptLoop.Starting fd j ∧ (s.setUplink k th').uplink j = none := by
  intro fd j hj
  have hnone := (h.starting fd j hj).2
  have hjk : j ≠ k := by
    rintro rfl
    rw [hth] at hnone
    cases hnone
  exact ⟨hj, (if_neg hjk).trans hnone⟩

theorem not_starting_accepting : ¬ AcceptStage.accepting.Starting fd k := by
  intro h
  cases h with
  | inl h => cases h
  | inr h => cases h

theorem Consistent.closeStarting (h : s.Consistent) (hstart : s.acceptLoop.Starting fd k)
    (hd : s'.descriptors = s.descriptors.release fd) (hc : s'.enbCount = s.enbCount)
    (hloop : s'.acceptLoop = .accepting) (hu : s'.uplink = s.uplink) : s'.Consistent := by
  obtain ⟨hlookup, hnone⟩ := h.starting fd k hstart
  refine h.ofRelease hd hlookup hc ?_ ?_
  · intro fd' j hfd
    rw [hloop] at hfd
    exact absurd hfd not_starting_accepting
  · intro j th hj
    rw [hu] at hj
    rw [hd]
    apply (h.uplink j th hj).release hlookup
    · intro heq
      cases heq
      exact nomatch hnone.symm.trans hj
    · exact nofun

theorem Consistent.moveUplink (h : s.Consistent) {fd d : Nat} {stage : UplinkStage}
    (hth : s.uplink k = some ⟨fd, d, stage⟩) (stage' : UplinkStage)
    (hstage : stage.Holds s.descriptors fd k → stage'.Holds s.descriptors fd k) :
    (s.setUplink k (some ⟨fd, d, stage'⟩)).Consistent := by
  have hold := h.uplink k _ hth
  refine h.ofThreads rfl rfl (h.starting_setUplink hth _) ?_
  apply setUplink_cases
  · intro th' hth'
    cases hth'
    exact ⟨hold.association, hold.downlink, hstage hold.stage⟩
  · exact fun j th' hj _ => h.uplink j th' hj

/-- A new association, whose number no descriptor and no thread has yet. -/
theorem Consistent.installAssociation (h : s.Consistent)
    (hfree : s.descriptors.lowestFree < 2 ^ 31)
    (hd : s'.descriptors = s.descriptors.install (.association s.enbCount))
    (hc : s'.enbCount = s.enbCount + 1)
    (hloop : s'.acceptLoop = .accepted s.descriptors.lowestFree s.enbCount)
    (hu : s'.uplink = s.uplink) : s'.Consistent := by
  have hnew : s.uplink s.enbCount = none := by
    cases hth : s.uplink s.enbCount with
    | none => rfl
    | some th =>
        have hlt := h.counted _ _ (h.uplink _ th hth).association
        omega
  have hcases : ∀ fd k, s'.descriptors.lookup fd = some (.association k) →
      (fd = s.descriptors.lowestFree ∧ k = s.enbCount) ∨
        (s.descriptors.lookup fd = some (.association k) ∧ k < s.enbCount) := by
    intro fd k hfd
    rw [hd] at hfd
    cases SlotTable.lookup_install_eq_some_iff.mp hfd with
    | inl hnew =>
        cases hnew.2
        exact Or.inl ⟨hnew.1, rfl⟩
    | inr hold => exact Or.inr ⟨hold, h.counted fd k hold⟩
  exact {
    int := by
      intro fd e' hfd
      rw [hd] at hfd
      cases SlotTable.lookup_install_eq_some_iff.mp hfd with
      | inl hnew =>
          rw [hnew.1]
          exact hfree
      | inr hold => exact h.int fd e' hold
    counted := by
      intro fd k hfd
      rw [hc]
      cases hcases fd k hfd with
      | inl hnew =>
          rw [hnew.2]
          exact Nat.lt_succ_self _
      | inr hold => exact Nat.lt_succ_of_lt hold.2
    single := by
      intro fd fd' k hfd hfd'
      cases hcases fd k hfd with
      | inl hnew =>
          cases hcases fd' k hfd' with
          | inl hnew' => rw [hnew.1, hnew'.1]
          | inr hold => exact absurd hnew.2 (Nat.ne_of_lt hold.2)
      | inr hold =>
          cases hcases fd' k hfd' with
          | inl hnew' => exact absurd hnew'.2 (Nat.ne_of_lt hold.2)
          | inr hold' => exact h.single fd fd' k hold.1 hold'.1
    starting := by
      intro fd k hfd
      rw [hloop] at hfd
      rw [hd, hu]
      cases hfd with
      | inl hfd =>
          cases hfd
          exact ⟨SlotTable.lookup_install_eq_some_iff.mpr (Or.inl ⟨rfl, rfl⟩), hnew⟩
      | inr hfd => cases hfd
    uplink := by
      intro k th hth
      rw [hu] at hth
      rw [hd]
      exact (h.uplink k th hth).install }

theorem Consistent.exit : s.exit.Consistent where
  int fd e' hfd := by cases hfd
  counted fd k hfd := by cases hfd
  single fd fd' k hfd := by cases hfd
  starting fd k hfd := by
    cases hfd with
    | inl hfd => cases hfd
    | inr hfd => cases hfd
  uplink k th hth := by cases hth

theorem Consistent.startUplink (h : s.Consistent) (hloop : s.acceptLoop = .downlinkCreated fd k) :
    State.Consistent
      { s.setUplink k (some ⟨fd, k, .receiving⟩) with acceptLoop := .accepting } := by
  have hstart := h.starting fd k (Or.inr hloop)
  refine h.ofThreads rfl rfl ?_ ?_
  · exact fun _ _ hfd => absurd hfd not_starting_accepting
  · apply setUplink_cases
    · intro th hth
      cases hth
      exact ⟨hstart.1, rfl, trivial⟩
    · exact fun j th hj _ => h.uplink j th hj

theorem Consistent.installTemporary (h : s.Consistent) {d : Nat} {m : Datagram}
    (hth : s.uplink k = some ⟨fd, d, .received m⟩) (hfree : s.descriptors.lowestFree < 2 ^ 31) :
    State.Consistent { s.setUplink k (some ⟨fd, d, .bound s.descriptors.lowestFree m⟩) with
      descriptors := s.descriptors.install (.temporary k) } := by
  have hold := h.uplink k _ hth
  refine h.ofInstall (e := .temporary k) (fun _ heq => by cases heq) hfree rfl rfl
    (h.starting_setUplink hth _) ?_
  refine setUplink_cases (s := s)
    (P := fun j th' => th'.Holds (s.descriptors.install (.temporary k)) j) ?_ ?_
  · intro th' hth'
    cases hth'
    exact ⟨SlotTable.lookup_install_of_some hold.association, hold.downlink,
      SlotTable.lookup_install_eq_some_iff.mpr (Or.inl ⟨rfl, rfl⟩), hold.stage⟩
  · exact fun j th' hj _ => (h.uplink j th' hj).install

theorem Consistent.closeTemporary (h : s.Consistent) {d tmp : Nat}
    (hth : s.uplink k = some ⟨fd, d, .forwarded tmp⟩) :
    ((s.close tmp).setUplink k (some ⟨fd, d, .receiving⟩)).Consistent := by
  have hold := h.uplink k _ hth
  refine h.ofRelease rfl hold.stage rfl ?_ ?_
  · intro fd' j hj
    exact ⟨nofun, h.starting_setUplink hth _ fd' j hj⟩
  · apply setUplink_cases
    · intro th' hth'
      cases hth'
      exact ⟨SlotTable.lookup_release_of_ne hold.stage hold.association nofun, hold.downlink,
        trivial⟩
    · intro j th' hj hjk
      apply (h.uplink j th' hj).release hold.stage
      · exact nofun
      · intro heq
        cases heq
        exact hjk rfl

/-- The thread of an eNB closes its association and returns. -/
theorem Consistent.closeAssociation (h : s.Consistent) {d : Nat} {stage : UplinkStage}
    (hth : s.uplink k = some ⟨fd, d, stage⟩) :
    ((s.close fd).setUplink k none).Consistent := by
  have hold := h.uplink k _ hth
  refine h.ofRelease rfl hold.association rfl ?_ ?_
  · intro fd' j hj
    obtain ⟨hstart, hnone⟩ := h.starting_setUplink hth none fd' j hj
    refine ⟨?_, hstart, hnone⟩
    intro heq
    cases heq
    exact nomatch hth.symm.trans (h.starting fd' k hj).2
  · apply setUplink_cases
    · exact nofun
    · intro j th' hj hjk
      apply (h.uplink j th' hj).release hold.association
      · intro heq
        cases heq
        exact hjk rfl
      · exact nofun

/-- What the descriptors and the threads do not depend on has changed. -/
theorem Consistent.ofSame (h : s.Consistent) (hd : s'.descriptors = s.descriptors)
    (hc : s'.enbCount = s.enbCount) (hloop : s'.acceptLoop = s.acceptLoop)
    (hu : s'.uplink = s.uplink) : s'.Consistent := by
  refine h.ofThreads hd hc ?_ ?_
  · intro fd k hfd
    rw [hloop] at hfd
    rw [hu]
    exact ⟨hfd, (h.starting fd k hfd).2⟩
  · rw [hu]
    exact h.uplink

theorem Consistent.step (h : s.Consistent) (hstep : step is5g s e = some s') :
    s'.Consistent := by
  cases step_cases hstep with
  | accept hloop hfree => exact h.installAssociation hfree rfl rfl rfl rfl
  | @createDownlink fd k hloop =>
      refine h.ofThreads rfl rfl ?_ h.uplink
      intro _ _ hfd
      cases hfd with
      | inl hfd => cases hfd
      | inr hfd =>
          cases hfd
          exact ⟨Or.inl hloop, (h.starting fd k (Or.inl hloop)).2⟩
  | noDownlinkArgs hloop => exact h.closeStarting (Or.inl hloop) rfl rfl rfl rfl
  | noDownlinkThread hloop => exact Consistent.exit
  | createUplink hloop => exact h.startUplink hloop
  | noUplinkArgs hloop => exact h.closeStarting (Or.inr hloop) rfl rfl rfl rfl
  | noUplinkThread hloop => exact h.closeStarting (Or.inr hloop) rfl rfl rfl rfl
  | leave hk => exact h.ofSame rfl rfl rfl rfl
  | uplinkRecvmsg hth henb =>
      have hassoc := (h.uplink _ _ hth).association
      have hk := Option.some.inj (hassoc.symm.trans (enbAt_natCast_eq_some_iff.mp henb))
      cases hk
      exact h.moveUplink hth (.received _) fun _ => ⟨⟨_, rfl⟩, rfl⟩
  | uplinkSocket hth hfree => exact h.installTemporary hth hfree
  | noUplinkSocket hth =>
      refine h.ofThreads rfl rfl (h.starting_setUplink hth _) ?_
      apply setUplink_cases
      · exact nofun
      · exact fun j th' hj _ => h.uplink j th' hj
  | uplinkSendto hth =>
      have hmoved := h.moveUplink hth (.forwarded _) fun hstage => hstage.1
      exact hmoved.ofSame rfl rfl rfl rfl
  | uplinkCloseTmp hth => exact h.closeTemporary hth
  | uplinkDisconnected hth =>
      have hmoved := h.moveUplink hth .disconnected fun _ => trivial
      exact hmoved.ofSame rfl rfl rfl rfl
  | uplinkCancel hth =>
      have hmoved := h.moveUplink hth .cancelled fun _ => trivial
      exact hmoved.ofSame rfl rfl rfl rfl
  | uplinkClose hth => exact h.closeAssociation hth
  | processMessage hm => exact h.ofSame rfl rfl rfl rfl
  | downlinkRecv hth hm hstage => exact h.ofSame rfl rfl rfl rfl
  | downlinkSendmsg hth hstage => exact h.ofSame rfl rfl rfl rfl

end State

end PublicCloudCore.Frontend
