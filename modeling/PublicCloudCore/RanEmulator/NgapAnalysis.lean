import PublicCloudCore.Framework.Scan
import PublicCloudCore.RanEmulator.UeRecord

/-!
# `analyze_message_items`

The parser of NGAP messages, of `ngap.c`, and the functions that call it. Offsets are those of the
buffer that the message was received in; `buffer` is where the pointer of that name points.
-/

namespace PublicCloudCore.RanEmulator.NgapAnalysis

open Framework Framework.Parser UeRecord

def criticalityReject : UInt8 := 0x00
def criticalityIgnore : UInt8 := 0x40
def succesfulOutcome : UInt8 := 0x20

def idNgSetup : UInt8 := 0x15
def idDownlinkNasTransport : UInt8 := 0x04
def idInitialContextSetup : UInt8 := 0x0E
def idPduSessionResourceSetup : UInt8 := 0x1d
def idUeContextRelease : UInt8 := 0x29

def idAmfUeNgapId : UInt8 := 0x0a
def idCause : UInt8 := 0x0F
def idGuami : UInt8 := 0x1C
def idNasPdu : UInt8 := 0x26
def idPduSessionResourceSetupListSuReq : UInt8 := 0x4a
def idUeNgapIds : UInt8 := 0x72
def idUeSecurityCapabilities : UInt8 := 0x77

def registrationAccept : UInt8 := 0x42
def authenticationRequest : UInt8 := 0x56
def securityModeCommand : UInt8 := 0x5D

/-! The offset of an item is that of its identifier, behind the first octet. -/

/-- `offset += 3 + buffer[offset + 2]`. -/
def skipItem (offset : Nat) : UeParser Nat := do
  let length ← load (offset + 2)
  pure (offset + 3 + length.toNat)

/-- The offset from `offset` at which the loop for the PDU Address ID ends, `n` turns from its
bound. -/
def searchPduAddress (offset : Nat) : Nat → Nat → UeParser Nat
  | 0, j => pure j
  | n + 1, j => do
      let octet ← load (offset + j)
      if octet = 0x29 then pure j else searchPduAddress offset n (j + 1)

def searchGtpId (offset : Nat) : Nat → Nat → UeParser Nat
  | 0, j => pure j
  | n + 1, j => do
      let octet ← load (offset + j)
      if octet = 0x8b then
        let before ← load (offset + j - 1)
        if before = 0x00 then pure j else searchGtpId offset n (j + 1)
      else searchGtpId offset n (j + 1)

/-- A NAS PDU in the item; the loops look at the octets before `buffer[offset + 2] - 5`. -/
def analyzePduSession (offset : Nat) : UeParser Unit := do
  glance (offset + 8) 6
  let length ← load (offset + 2)
  let bound := length.toNat - 5
  let j ← searchPduAddress offset (bound - 7) 7
  setPdnIp (offset + j + 3)
  let j ← searchGtpId offset (bound - j) j
  setSpgwIp (offset + j + 5)
  let teid ← load32 (offset + j + 9)
  setGtpTeid teid

/-- The special case with an extra octet is a length of 128 to 255. -/
def analyzePduSessionList (offset : Nat) : UeParser Nat := do
  let length ← load (offset + 2)
  let offset := if length = 0x80 then offset + 1 else offset
  glance (offset + 5) 1
  let discriminator ← load (offset + 7)
  if discriminator = 0x7e then
    analyzePduSession offset
    skipItem offset
  else skipItem offset

/-- Integrity protected and ciphered. A Configuration Update Command is only printed. -/
def analyzeProtectedNas (offset : Nat) : UeParser Unit := do
  let type ← load (offset + 13)
  if type = registrationAccept then
    glance (offset + 15) 1
    glance (offset + 26) 4
    setGuti (offset + 20)
  else pure ()

/-- Integrity protected. -/
def analyzeCommandNas (offset : Nat) : UeParser Unit := do
  glance (offset + 6) 5
  let type ← load (offset + 13)
  if type = securityModeCommand then
    let algs ← load (offset + 14)
    setNasSessionSecurityAlgorithms algs
  else pure ()

def analyzePlainNas (offset : Nat) : UeParser Unit := do
  let type ← load (offset + 6)
  if type = authenticationRequest then
    setRand (offset + 12)
    setAutn (offset + 30)
  else pure ()

def analyzeNasPdu (offset : Nat) : UeParser Unit := do
  let header ← load (offset + 5)
  if header = 0x02 then analyzeProtectedNas offset
  else if header = 0x03 then analyzeCommandNas offset
  else if header = 0x00 then analyzePlainNas offset
  else pure ()

/-- The items that are not named here are skipped: most of the cases of the source, and the default
one. -/
def analyzeItem (offset : Nat) : UeParser Nat := do
  let id ← load offset
  if id = idAmfUeNgapId then
    let length ← load (offset + 2)
    setMmeS1apId (offset + 3) length
    skipItem offset
  else if id = idGuami then
    setGuami (offset + 4)
    skipItem offset
  else if id = idUeSecurityCapabilities then
    glance (offset + 3) 1
    glance (offset + 5) 1
    glance (offset + 7) 1
    glance (offset + 9) 1
    skipItem offset
  else if id = idUeNgapIds then
    let length ← load (offset + 2)
    glance (offset + 3) length.toNat
    skipItem offset
  else if id = idCause then
    glance (offset + 3) 1
    skipItem offset
  else if id = idPduSessionResourceSetupListSuReq then analyzePduSessionList offset
  else if id = idNasPdu then
    analyzeNasPdu offset
    skipItem offset
  else skipItem offset

/-- What is left of `num_items` items. -/
def analyzeItems : Nat → Nat → UeParser Unit
  | 0, _ => pure ()
  | n + 1, offset => do
      Prog.observe offset
      -- skip the first byte
      let offset ← analyzeItem (offset + 1)
      analyzeItems n offset

def analyzeMessageItems (buffer : Nat) : UeParser Unit := do
  let numItems ← load16 (buffer + 1)
  analyzeItems numItems (buffer + 3)

/-- What the calling functions check: the form and the procedure code, and the criticality unless a
wrong one only gives a warning. -/
def accepts (form code criticality : UInt8) (strict : Bool) : UeParser Bool := do
  let first ← load 0
  if first ≠ form then pure false
  else
    let second ← load 1
    if second ≠ code then pure false
    else
      let third ← load 2
      pure (third = criticality ∨ strict = false)

/-- A calling function: 0 is `OK`, 1 is `ERROR`. The length behind the header, one octet before the
items, is passed and not used. -/
def analyzePdu (form code criticality : UInt8) (strict : Bool) (items : Nat) : UeParser Nat := do
  let accepted ← accepts form code criticality strict
  if accepted then
    glance (items - 1) 1
    analyzeMessageItems items
    pure 0
  else pure 1

def analyzeNGSetupResponse : UeParser Nat :=
  analyzePdu succesfulOutcome idNgSetup criticalityReject true 4

def analyzeNGAuthenticationRequest : UeParser Nat :=
  analyzePdu 0x00 idDownlinkNasTransport criticalityIgnore true 4

def analyzeNGSecurityModeCommand : UeParser Nat :=
  analyzePdu 0x00 idDownlinkNasTransport criticalityIgnore true 4

def analyzeNGRegistrationRequest : UeParser Nat :=
  analyzePdu 0x00 idInitialContextSetup criticalityReject true 5

def analyzeNGDeregistrationAccept : UeParser Nat :=
  analyzePdu 0x00 idDownlinkNasTransport criticalityIgnore false 4

def analyzeNRUEContextReleaseCommand : UeParser Nat :=
  analyzePdu 0x00 idUeContextRelease criticalityReject false 4

def analyzeNGPDUSessionEstablishmentAccept : UeParser Nat :=
  analyzePdu 0x00 idPduSessionResourceSetup criticalityReject true 5

inductive Caller
  | ngSetupResponse
  | ngAuthenticationRequest
  | ngSecurityModeCommand
  | ngRegistrationRequest
  | ngDeregistrationAccept
  | nrUeContextReleaseCommand
  | ngPduSessionEstablishmentAccept
  deriving DecidableEq

def Caller.analyze : Caller → UeParser Nat
  | ngSetupResponse => analyzeNGSetupResponse
  | ngAuthenticationRequest => analyzeNGAuthenticationRequest
  | ngSecurityModeCommand => analyzeNGSecurityModeCommand
  | ngRegistrationRequest => analyzeNGRegistrationRequest
  | ngDeregistrationAccept => analyzeNGDeregistrationAccept
  | nrUeContextReleaseCommand => analyzeNRUEContextReleaseCommand
  | ngPduSessionEstablishmentAccept => analyzeNGPDUSessionEstablishmentAccept

def Caller.record (m : Mem UInt8) : Caller → Option (Mem UInt8)
  | ngSetupResponse => none
  | _ => some m

/-- The header of the messages that a caller accepts, and where their items start. -/
structure Expected where
  form : UInt8
  code : UInt8
  criticality : UInt8
  strict : Bool
  items : Nat

def Caller.expected : Caller → Expected
  | ngSetupResponse => ⟨succesfulOutcome, idNgSetup, criticalityReject, true, 4⟩
  | ngAuthenticationRequest => ⟨0x00, idDownlinkNasTransport, criticalityIgnore, true, 4⟩
  | ngSecurityModeCommand => ⟨0x00, idDownlinkNasTransport, criticalityIgnore, true, 4⟩
  | ngRegistrationRequest => ⟨0x00, idInitialContextSetup, criticalityReject, true, 5⟩
  | ngDeregistrationAccept => ⟨0x00, idDownlinkNasTransport, criticalityIgnore, false, 4⟩
  | nrUeContextReleaseCommand => ⟨0x00, idUeContextRelease, criticalityReject, false, 4⟩
  | ngPduSessionEstablishmentAccept =>
      ⟨0x00, idPduSessionResourceSetup, criticalityReject, true, 5⟩

theorem Caller.analyze_eq (caller : Caller) :
    caller.analyze = analyzePdu caller.expected.form caller.expected.code
      caller.expected.criticality caller.expected.strict caller.expected.items := by
  cases caller <;> rfl

inductive NasEffect
  | none
  | challenge (rand autn : List UInt8)
  | algorithms (algs : UInt8)
  | guti (octets : List UInt8)
  deriving DecidableEq

def NasEffect.store (m : Mem UInt8) : NasEffect → Mem UInt8
  | .none => m
  | .challenge rand autn => (m.write randAt rand).write autnAt autn
  | .algorithms algs => m.write algorithmsAt [algs]
  | .guti octets => m.write gutiAt octets

def nasEffectAt (value : Mem UInt8) (offset : Nat) : NasEffect :=
  if value (offset + 5) = 0x02 then
    if value (offset + 13) = registrationAccept then .guti (value.read (offset + 20) 10) else .none
  else if value (offset + 5) = 0x03 then
    if value (offset + 13) = securityModeCommand then .algorithms (value (offset + 14)) else .none
  else if value (offset + 5) = 0x00 then
    if value (offset + 6) = authenticationRequest then
      .challenge (value.read (offset + 12) 16) (value.read (offset + 30) 16)
    else .none
  else .none

def pduAddressFrom (value : Mem UInt8) (offset : Nat) : Nat → Nat → Nat :=
  firstFrom fun j => value (offset + j) = 0x29

def gtpIdFrom (value : Mem UInt8) (offset : Nat) : Nat → Nat → Nat :=
  firstFrom fun j => value (offset + j) = 0x8b ∧ value (offset + j - 1) = 0x00

theorem pduAddressFrom_succ (value : Mem UInt8) (offset n j : Nat) :
    pduAddressFrom value offset (n + 1) j =
      if value (offset + j) = 0x29 then j else pduAddressFrom value offset n (j + 1) := rfl

theorem gtpIdFrom_succ (value : Mem UInt8) (offset n j : Nat) :
    gtpIdFrom value offset (n + 1) j =
      if value (offset + j) = 0x8b ∧ value (offset + j - 1) = 0x00 then j
      else gtpIdFrom value offset n (j + 1) := rfl

def scanBound (value : Mem UInt8) (offset : Nat) : Nat := (value (offset + 2)).toNat - 5

def pduAddressAt (value : Mem UInt8) (offset : Nat) : Nat :=
  pduAddressFrom value offset (scanBound value offset - 7) 7

def gtpIdAt (value : Mem UInt8) (offset : Nat) : Nat :=
  gtpIdFrom value offset (scanBound value offset - pduAddressAt value offset)
    (pduAddressAt value offset)

def pduSessionStore (value : Mem UInt8) (offset : Nat) (m : Mem UInt8) : Mem UInt8 :=
  ((m.write pdnIpAt (value.read (offset + pduAddressAt value offset + 3) 4)).write spgwIpAt
    (value.read (offset + gtpIdAt value offset + 5) 4)).write gtpTeidAt
      (EnbThreads.littleEndian (longWord value (offset + gtpIdAt value offset + 9)))

def pduSessionOffset (value : Mem UInt8) (offset : Nat) : Nat :=
  if value (offset + 2) = 0x80 then offset + 1 else offset

def pduSessionListStore (value : Mem UInt8) (offset : Nat) (m : Mem UInt8) : Mem UInt8 :=
  if value (pduSessionOffset value offset + 7) = 0x7e then
    pduSessionStore value (pduSessionOffset value offset) m
  else m

def itemStore (value : Mem UInt8) (offset : Nat) (m : Mem UInt8) : Mem UInt8 :=
  if value offset = idAmfUeNgapId then
    (m.write mmeS1apIdAt (value.read (offset + 3) (value (offset + 2)).toNat)).write mmeS1apIdLenAt
      [value (offset + 2)]
  else if value offset = idGuami then m.write guamiAt (value.read (offset + 4) 6)
  else if value offset = idPduSessionResourceSetupListSuReq then pduSessionListStore value offset m
  else if value offset = idNasPdu then (nasEffectAt value offset).store m
  else m

/-- Where the parser takes the next item to be, by the identifier of this one. -/
def behindItem (value : Mem UInt8) (offset : Nat) : Nat :=
  if value offset = idPduSessionResourceSetupListSuReq then
    pduSessionOffset value offset + 3 + (value (pduSessionOffset value offset + 2)).toNat
  else offset + 3 + (value (offset + 2)).toNat

/-- The offsets at which the loop looks for an item, from here on. -/
def walkStarts (value : Mem UInt8) : Nat → Nat → List Nat
  | 0, _ => []
  | n + 1, offset => offset :: walkStarts value n (behindItem value (offset + 1))

section

variable {value m : Mem UInt8} {seen : List Nat} {offset n j : Nat}
  {post : Nat → Mem UInt8 → List Nat → Prop} {done : Unit → Mem UInt8 → List Nat → Prop}

@[simp] theorem yields_skipItem :
    Yields value (skipItem offset) m seen post ↔
      post (offset + 3 + (value (offset + 2)).toNat) m seen := Iff.rfl

@[simp] theorem yields_searchPduAddress :
    Yields value (searchPduAddress offset n j) m seen post ↔
      post (pduAddressFrom value offset n j) m seen := by
  induction n generalizing j with
  | zero => rfl
  | succ n ih =>
      rw [searchPduAddress, yields_bind, yields_load, yields_ite, yields_pure, ih,
        pduAddressFrom_succ]
      split <;> rfl

@[simp] theorem yields_searchGtpId :
    Yields value (searchGtpId offset n j) m seen post ↔
      post (gtpIdFrom value offset n j) m seen := by
  induction n generalizing j with
  | zero => rfl
  | succ n ih =>
      rw [searchGtpId, yields_bind, yields_load, yields_ite, yields_bind, yields_load, yields_ite,
        yields_pure, ih, gtpIdFrom_succ]
      by_cases hoctet : value (offset + j) = 0x8b
      · by_cases hbefore : value (offset + j - 1) = 0x00 <;> simp [hoctet, hbefore]
      · simp [hoctet]

@[simp] theorem yields_analyzePduSession :
    Yields value (analyzePduSession offset) m seen done ↔
      done () (pduSessionStore value offset m) seen := by
  simp only [analyzePduSession, setPdnIp, setSpgwIp, yields_bind, yields_glance, yields_load,
    yields_searchPduAddress, yields_copy, yields_searchGtpId, yields_load32, yields_setGtpTeid]
  rfl

theorem yields_analyzePduSessionList :
    Yields value (analyzePduSessionList offset) m seen post ↔
      post (pduSessionOffset value offset + 3 + (value (pduSessionOffset value offset + 2)).toNat)
        (pduSessionListStore value offset m) seen := by
  simp only [analyzePduSessionList, yields_bind, yields_load, yields_glance, yields_ite,
    yields_analyzePduSession, yields_skipItem, pduSessionListStore]
  show (if value (pduSessionOffset value offset + 7) = 0x7e then _ else _) ↔ _
  split <;> rfl

@[simp] theorem yields_analyzeNasPdu :
    Yields value (analyzeNasPdu offset) m seen done ↔
      done () ((nasEffectAt value offset).store m) seen := by
  simp only [analyzeNasPdu, analyzeProtectedNas, analyzeCommandNas, analyzePlainNas, setGuti,
    setRand, setAutn, yields_bind, yields_load, yields_ite, yields_glance, yields_copy,
    yields_setNasSessionSecurityAlgorithms, yields_pure, nasEffectAt]
  split_ifs <;> rfl

theorem yields_analyzeItem :
    Yields value (analyzeItem offset) m seen post ↔
      post (behindItem value offset) (itemStore value offset m) seen := by
  simp only [analyzeItem, setGuami, yields_bind, yields_load, yields_ite, yields_setMmeS1apId,
    yields_copy, yields_glance, yields_skipItem, yields_analyzeNasPdu, yields_analyzePduSessionList,
    behindItem, itemStore]
  split_ifs <;> simp_all [idAmfUeNgapId, idGuami, idPduSessionResourceSetupListSuReq,
    idUeSecurityCapabilities, idUeNgapIds, idCause, idNasPdu]

theorem yields_analyzeItems :
    Yields value (analyzeItems n offset) m seen done ↔
      done () ((walkStarts value n offset).foldl (fun m start => itemStore value (start + 1) m) m)
        (seen ++ walkStarts value n offset) := by
  induction n generalizing offset m seen with
  | zero => simp [analyzeItems, walkStarts]
  | succ n ih =>
      rw [analyzeItems, yields_bind, yields_observe, yields_bind, yields_analyzeItem, ih,
        walkStarts, List.foldl_cons, List.append_assoc]
      rfl

end

def Silent (value : Mem UInt8) (offset : Nat) : Prop :=
  value offset ≠ idAmfUeNgapId ∧ value offset ≠ idGuami ∧
    (value offset = idPduSessionResourceSetupListSuReq →
      value (pduSessionOffset value offset + 7) ≠ 0x7e) ∧
    (value offset = idNasPdu → nasEffectAt value offset = .none)

section

variable {value : Mem UInt8} {seen : List Nat} {offset n j : Nat} {post : Nat → List Nat → Prop}
  {done : Unit → List Nat → Prop}

theorem yieldsNull_searchPduAddress :
    YieldsNull value (searchPduAddress offset n j) seen post ↔
      post (pduAddressFrom value offset n j) seen := by
  induction n generalizing j with
  | zero => rfl
  | succ n ih =>
      rw [searchPduAddress, yieldsNull_bind, yieldsNull_load, yieldsNull_ite, yieldsNull_pure, ih,
        pduAddressFrom_succ]
      split <;> rfl

theorem yieldsNull_analyzeNasPdu :
    YieldsNull value (analyzeNasPdu offset) seen done ↔
      nasEffectAt value offset = .none ∧ done () seen := by
  simp only [analyzeNasPdu, analyzeProtectedNas, analyzeCommandNas, analyzePlainNas, setGuti,
    setRand, setAutn, setNasSessionSecurityAlgorithms, yieldsNull_bind, yieldsNull_load,
    yieldsNull_ite, yieldsNull_glance, yieldsNull_copy, yieldsNull_store, yieldsNull_pure,
    nasEffectAt]
  split_ifs <;> simp

theorem yieldsNull_analyzeItem :
    YieldsNull value (analyzeItem offset) seen post ↔
      Silent value offset ∧ post (behindItem value offset) seen := by
  have hoffset : (if value (offset + 2) = 0x80 then offset + 1 else offset) =
      pduSessionOffset value offset := rfl
  simp only [analyzeItem, setMmeS1apId, setGuami, analyzePduSessionList, analyzePduSession,
    setPdnIp, skipItem, yieldsNull_bind, yieldsNull_load, yieldsNull_ite, yieldsNull_glance,
    yieldsNull_copy, yieldsNull_pure, yieldsNull_searchPduAddress, yieldsNull_analyzeNasPdu,
    hoffset, behindItem, Silent]
  split_ifs <;> simp_all [idAmfUeNgapId, idGuami, idPduSessionResourceSetupListSuReq,
    idUeSecurityCapabilities, idUeNgapIds, idCause, idNasPdu]

theorem yieldsNull_analyzeItems :
    YieldsNull value (analyzeItems n offset) seen done ↔
      (∀ start ∈ walkStarts value n offset, Silent value (start + 1)) ∧
        done () (seen ++ walkStarts value n offset) := by
  induction n generalizing offset seen with
  | zero => simp [analyzeItems, walkStarts]
  | succ n ih =>
      rw [analyzeItems, yieldsNull_bind, yieldsNull_observe, yieldsNull_bind,
        yieldsNull_analyzeItem, ih, walkStarts, List.forall_mem_cons, List.append_assoc, and_assoc]
      rfl

end

end PublicCloudCore.RanEmulator.NgapAnalysis
