import PublicCloudCore.RanEmulator.Ngap
import PublicCloudCore.RanEmulator.S1ap

/-!
# The protected uplink messages of the procedures

Every builder of a protected message takes the number that it carries from the record of the UE, and
passes a COUNT of its own to `nas_integrity_eia2`. The procedures send these messages in between the
answers of the core network, and return where an answer is not the one that they wait for.
-/

namespace PublicCloudCore.RanEmulator.CoreMessages

inductive Protected
  | securityModeComplete
  | registrationComplete
  | pduSessionRequest
  | deregistrationRequest (switchOff : Int)
  | securityCommandComplete
  | attachComplete
  | detach (switchOff : UInt8)
  | serviceRequest

namespace Protected

/-- The octets that the builder of a message makes, and the record that it leaves. -/
def build (crypto : Crypto) (enb : ENB) (ue : UE) : Protected → List UInt8 × UE
  | securityModeComplete =>
      Prod.map Prod.fst id (Ngap.addProtocolIENASPDUSecurityModeComplete crypto ue enb)
  | registrationComplete =>
      Prod.map Prod.fst id (Ngap.addProtocolIENASPDURegistrationComplete crypto ue)
  | pduSessionRequest =>
      Prod.map Prod.fst id (Ngap.addProtocolIENASPDUPDUSessionRequest crypto ue)
  | deregistrationRequest switchOff =>
      Prod.map Prod.fst id (Ngap.addProtocolIENASPDUDeregistrationRequest crypto ue switchOff)
  | securityCommandComplete => Prod.map S1ap.ProtocolIE.value id
      (S1ap.generateProtocolIENasPduSecurityCommandComplete crypto ue ue.authChallenge)
  | attachComplete => Prod.map S1ap.ProtocolIE.value id
      (S1ap.generateProtocolIENasPduAttachComplete crypto ue ue.authChallenge)
  | detach switchOff => Prod.map S1ap.ProtocolIE.value id
      (S1ap.generateProtocolIENasPduDetach crypto ue ue.authChallenge switchOff)
  | serviceRequest => Prod.map S1ap.ProtocolIE.value id
      (S1ap.generateProtocolIENasPduServiceRequest crypto ue ue.authChallenge)

def count : Protected → UInt32
  | securityModeComplete => 0
  | registrationComplete => 1
  | pduSessionRequest => 2
  | deregistrationRequest _ => 3
  | securityCommandComplete => 0
  | attachComplete => 1
  | detach _ => 1
  | serviceRequest => 2

def bits : Protected → Nat
  | serviceRequest => 5
  | _ => 8

def carried : Protected → UInt8 → UInt8
  | serviceRequest, number => number &&& 0x1F
  | _, number => number

end Protected

/-- Octets with a code under a key and a COUNT. The number that they carry is the first octet that
the code covers and comes behind it, or it is the last one and only half of the code follows. -/
inductive MacedWith (built : Crypto → List UInt8) (key : Vector UInt8 16) (count : UInt32)
    (carried : UInt8) : Prop
  | whole (front covered back : List UInt8) (bearer : UInt8)
      (hbuilt : ∀ crypto, built crypto = front ++
        nasIntegrityEia2 crypto key (carried :: covered) count bearer ++ carried :: back) :
      MacedWith built key count carried
  | half (front start : List UInt8) (bearer : UInt8)
      (hbuilt : ∀ crypto, built crypto = front ++ carried ::
        (nasIntegrityEia2 crypto key (start ++ [carried]) count bearer).drop 2) :
      MacedWith built key count carried

theorem Protected.build_record (crypto : Crypto) (enb : ENB) (ue : UE) (m : Protected) :
    (m.build crypto enb ue).2 = { ue with nasSequenceNumber := ue.nasSequenceNumber + 1 } := by
  cases m <;> rfl

theorem S1ap.value_encapsulatedIE {id : UInt16} {criticality size : UInt8} {content : List UInt8}
    (hlen : content.length = size.toNat) (hsmall : size.toNat < 126) :
    (S1ap.encapsulatedIE id criticality content size).value = (size + 1) :: size :: content := by
  have hone : (size + 1).toNat = size.toNat + 1 := by
    rw [UInt8.toNat_add, UInt8.toNat_one]
    omega
  simp [S1ap.encapsulatedIE, S1ap.generateS1apValue, hone, ← hlen]

theorem maced_protectedNASPDU (ue : UE) (length innerLength securityHeader : UInt8)
    (plain : List UInt8) (macLength : Nat) (count : UInt32) (step : Nat) :
    MacedWith (fun crypto => (Ngap.addProtectedNASPDU crypto ue length innerLength securityHeader
      plain (macLength + 1) count step).1.1) ue.authChallenge.nasKeyInt count
      ue.nasSequenceNumber :=
  .whole [0, Ngap.idNasPdu, criticalityReject, length, innerLength,
    Ngap.epd5gMobilityManagementMessages, securityHeader] (plain.take macLength) plain 1
    fun _ => rfl

theorem maced_protectedNasPdu (ue : UE) (securityHeader mmmType : UInt8) (content : List UInt8)
    (macLength : Nat) (count : UInt32) {size : UInt8} (hlen : size.toNat = content.length + 8)
    (hsmall : content.length < 118) :
    MacedWith (fun crypto => (S1ap.protectedNasPdu crypto ue ue.authChallenge securityHeader mmmType
      content (macLength + 1) count size).1.value) ue.authChallenge.nasKeyInt count
      ue.nasSequenceNumber := by
  let plain := [S1ap.nasSecurityHeaderType ||| S1ap.nasProtocolDiscriminator, mmmType] ++ content
  refine .whole [size + 1, size, securityHeader ||| S1ap.nasProtocolDiscriminator]
    (plain.take macLength) plain 0 fun crypto => ?_
  rw [S1ap.protectedNasPdu, S1ap.value_encapsulatedIE (by simp [UE.getNasSequenceNumber]; omega)
    (by omega)]
  rfl

/-- Every message is protected with its COUNT, under the key in the record. -/
theorem Protected.maced (enb : ENB) (ue : UE) (m : Protected) :
    MacedWith (fun crypto => (m.build crypto enb ue).1) ue.authChallenge.nasKeyInt m.count
      (m.carried ue.nasSequenceNumber) := by
  cases m with
  | securityModeComplete => exact maced_protectedNASPDU ue 0x40 0x3F 0x04 _ 56 0 68
  | registrationComplete => exact maced_protectedNASPDU ue 0x0B 0x0A 0x02 _ 3 1 15
  | pduSessionRequest => exact maced_protectedNASPDU ue 0x34 0x33 0x02 _ 44 2 56
  | deregistrationRequest switchOff => exact maced_protectedNASPDU ue 0x19 0x18 0x02 _ 17 3 29
  | securityCommandComplete => exact maced_protectedNasPdu ue _ _ [] 2 0 rfl (by simp)
  | attachComplete => exact maced_protectedNasPdu ue _ _ _ 7 1 rfl (by simp)
  | detach switchOff => exact maced_protectedNasPdu ue _ _ _ 15 1 (by simp) (by simp)
  | serviceRequest =>
      let start := S1ap.nasSecurityHeaderTypeServiceRequest ||| S1ap.nasProtocolDiscriminator
      refine .half [5, 4, start] [start] 0 fun crypto => ?_
      have hnumber : (0 &&& 0xE0) ||| (ue.nasSequenceNumber &&& 0x1F) =
          ue.nasSequenceNumber &&& 0x1F := by simp
      rw [build, Prod.map_fst, S1ap.generateProtocolIENasPduServiceRequest,
        S1ap.value_encapsulatedIE (by simp) (by decide)]
      simp only [UE.getNasSequenceNumber, hnumber]
      rfl

structure Sent where
  message : Protected
  ue : UE

namespace Sent

def key (m : Sent) : Vector UInt8 16 := m.ue.authChallenge.nasKeyInt

def carried (m : Sent) : UInt8 := m.message.carried m.ue.nasSequenceNumber

def taken (m : Sent) : Vector UInt8 16 × UInt32 := (m.key, m.message.count)

def Agrees (m : Sent) : Prop := m.message.count.toNat % 2 ^ m.message.bits = m.carried.toNat

end Sent

/-- What an answer makes of the record, together with what is derived from it. It is taken not to
write the sequence number or the integrity key; that is true of a message that the parsers analyse
in bounds. -/
structure Answer where
  rewrite : UE → UE
  accepted : Bool
  keepsNumber : ∀ ue, (rewrite ue).nasSequenceNumber = ue.nasSequenceNumber
  keepsKey : ∀ ue, (rewrite ue).authChallenge.nasKeyInt = ue.authChallenge.nasKeyInt

/-- The record of a UE, and the protected messages that it has sent. -/
structure Uplink where
  ue : UE
  sent : List Sent

namespace Uplink

def key (u : Uplink) : Vector UInt8 16 := u.ue.authChallenge.nasKeyInt

def resetNasSequenceNumber (u : Uplink) : Uplink :=
  { u with ue := { u.ue with nasSequenceNumber := 0 } }

def receive (u : Uplink) (a : Answer) : Uplink := { u with ue := a.rewrite u.ue }

/-- `generate_5g_nas_int_key` and `generate_nas_int_keys`. -/
def storeKey (u : Uplink) (key : Vector UInt8 16) : Uplink :=
  { u with ue := { u.ue with authChallenge := { u.ue.authChallenge with nasKeyInt := key } } }

end Uplink

/-- What the core network answers before the key is stored, the key, and the answer to the message
that it protects first. -/
structure Establishment where
  authenticationRequest : Answer
  securityModeCommand : Answer
  nasKeyInt : Vector UInt8 16
  initialContextSetup : Answer

section Procedures

variable (crypto : Crypto) (enb : ENB)

def Uplink.send (u : Uplink) (m : Protected) : Uplink :=
  ⟨(m.build crypto enb u.ue).2, u.sent ++ [⟨m, u.ue⟩]⟩

/-- How both procedures start, up to the answer to the message that completes the security mode;
`true` for `OK`. -/
def establish (complete : Protected) (e : Establishment) (u : Uplink) : Uplink × Bool :=
  let u := u.resetNasSequenceNumber.receive e.authenticationRequest
  if !e.authenticationRequest.accepted then (u, false)
  else
    let u := u.receive e.securityModeCommand
    if !e.securityModeCommand.accepted then (u, false)
    else
      let u := (u.storeKey e.nasKeyInt).send crypto enb complete
      (u.receive e.initialContextSetup, e.initialContextSetup.accepted)

/-- How the other procedures go: a message, and what the answers to it make of the record. -/
def exchange (m : Protected) (a : Answer) (u : Uplink) : Uplink × Bool :=
  ((u.send crypto enb m).receive a, a.accepted)

def procedureRegistrationRequest (e : Establishment) (session : Answer) (u : Uplink) :
    Uplink × Bool :=
  let (u, ok) := establish crypto enb .securityModeComplete e u
  if !ok then (u, false)
  else
    let u := (u.send crypto enb .registrationComplete).send crypto enb .pduSessionRequest
    (u.receive session, session.accepted)

def procedureDeregistrationRequest (switchOff : Int) (a : Answer) (u : Uplink) : Uplink × Bool :=
  exchange crypto enb (.deregistrationRequest switchOff) a u

def procedureAttachDefaultEPSBearer (e : Establishment) (u : Uplink) : Uplink × Bool :=
  let (u, ok) := establish crypto enb .securityCommandComplete e u
  if !ok then (u, false)
  else (u.send crypto enb .attachComplete, true)

def procedureUEDetach (switchOff : UInt8) (a : Answer) (u : Uplink) : Uplink × Bool :=
  exchange crypto enb (.detach switchOff) a u

def procedureUEServiceRequest (a : Answer) (u : Uplink) : Uplink × Bool :=
  exchange crypto enb .serviceRequest a u

end Procedures

/-- A call of a procedure, with the answers that it gets. -/
inductive Procedure
  | registrationRequest (e : Establishment) (session : Answer)
  | deregistrationRequest (switchOff : Int) (a : Answer)
  | attachDefaultEPSBearer (e : Establishment)
  | ueDetach (switchOff : UInt8) (a : Answer)
  | ueServiceRequest (a : Answer)

def Procedure.run (crypto : Crypto) (enb : ENB) : Procedure → Uplink → Uplink × Bool
  | registrationRequest e session => procedureRegistrationRequest crypto enb e session
  | deregistrationRequest switchOff a => procedureDeregistrationRequest crypto enb switchOff a
  | attachDefaultEPSBearer e => procedureAttachDefaultEPSBearer crypto enb e
  | ueDetach switchOff a => procedureUEDetach crypto enb switchOff a
  | ueServiceRequest a => procedureUEServiceRequest crypto enb a

/-- The procedures of a UE, one after the other, whatever they return. -/
def runProcedures (crypto : Crypto) (enb : ENB) (u : Uplink) (procedures : List Procedure) :
    Uplink :=
  procedures.foldl (fun u p => (p.run crypto enb u).1) u

section Steps

variable {crypto : Crypto} {enb : ENB} {u : Uplink} {m : Protected}

@[simp] theorem sent_reset : u.resetNasSequenceNumber.sent = u.sent := rfl

@[simp] theorem number_reset : u.resetNasSequenceNumber.ue.nasSequenceNumber = 0 := rfl

@[simp] theorem sent_receive (a : Answer) : (u.receive a).sent = u.sent := rfl

@[simp] theorem key_receive (a : Answer) : (u.receive a).key = u.key := a.keepsKey u.ue

@[simp] theorem number_receive (a : Answer) :
    (u.receive a).ue.nasSequenceNumber = u.ue.nasSequenceNumber := a.keepsNumber u.ue

@[simp] theorem sent_storeKey (key : Vector UInt8 16) : (u.storeKey key).sent = u.sent := rfl

@[simp] theorem key_storeKey (key : Vector UInt8 16) : (u.storeKey key).key = key := rfl

@[simp] theorem number_storeKey (key : Vector UInt8 16) :
    (u.storeKey key).ue.nasSequenceNumber = u.ue.nasSequenceNumber := rfl

@[simp] theorem sent_send : (u.send crypto enb m).sent = u.sent ++ [⟨m, u.ue⟩] := rfl

@[simp] theorem key_send : (u.send crypto enb m).key = u.key := by
  rw [Uplink.key, Uplink.send, Protected.build_record]
  rfl

@[simp] theorem number_send :
    (u.send crypto enb m).ue.nasSequenceNumber = u.ue.nasSequenceNumber + 1 := by
  rw [Uplink.send, Protected.build_record]

theorem toNat_carried (m : Protected) (number : UInt8) :
    (m.carried number).toNat = number.toNat % 2 ^ m.bits := by
  have hlt := number.toNat_lt
  cases m with
  | serviceRequest =>
      rw [Protected.carried, UInt8.toNat_and]
      exact Nat.and_two_pow_sub_one_eq_mod number.toNat 5
  | _ => exact (Nat.mod_eq_of_lt hlt).symm

theorem agrees_mk : (Sent.mk m u.ue).Agrees ↔
    m.count.toNat % 2 ^ m.bits = u.ue.nasSequenceNumber.toNat % 2 ^ m.bits := by
  rw [Sent.Agrees, Sent.carried, toNat_carried]

theorem taken_mk : (Sent.mk m u.ue).taken = (u.key, m.count) := rfl

end Steps

end PublicCloudCore.RanEmulator.CoreMessages
