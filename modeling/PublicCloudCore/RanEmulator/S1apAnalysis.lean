import PublicCloudCore.RanEmulator.UeRecord

/-!
# `analyze_downlink_NAS_Transport`

The parser of S1AP messages, of `s1ap.c`, and the functions that call it. Offsets are those of
`value`. `challenge` says whether
`auth_challenge` is the one of the UE or NULL, `ret` is what the items so far have left in `ret`,
and `fuel` bounds the iterations of `while(guti_f)`.
-/

namespace PublicCloudCore.RanEmulator.S1apAnalysis

open Framework Framework.Parser UeRecord

def idMmeUeS1apIe : Nat := 0x0000
def idErabToBeSetupListCTxtSuReq : Nat := 0x0018
def idNasPdu : Nat := 0x001A
def idSecurityContext : Nat := 0x0028
def idErabToBeSetupItemCTxtSuReq : Nat := 0x0034
def idUeAggregateMaximumBitrate : Nat := 0x0042
def idSecurityKey : Nat := 0x0049
def idUeS1apIds : Nat := 0x0063
def idUeSecurityCapabilities : Nat := 0x006b

def successfulOutcome : UInt8 := 0x20
def idPathSwitchRequest : UInt8 := 0x03
def initialContextSetup : UInt8 := 0x09
def downlinkNasTransport : UInt8 := 0x0b
def ueContextRelease : UInt8 := 0x17

def authenticationRequest : UInt8 := 0x52
def securityModeCommand : UInt8 := 0x5d
def emmInformation : UInt8 := 0x61
def activateDefaultEpsBearerContextRequest : UInt8 := 0xC1

/-- Where the type of the NAS message is looked for, by the security header. -/
def skipNasHeader (offset : Nat) : UeParser Nat := do
  let header ← load (offset + 1)
  if header = 0x07 then pure (offset + 2)
  else if header = 0x37 ∨ header = 0x27 then
    glance (offset + 2) 6
    pure (offset + 8)
  else pure (offset + 2)

def skipNetworkName (tag : UInt8) (offset : Nat) : UeParser Nat := do
  let first ← load offset
  if first = tag then
    let length ← load (offset + 1)
    pure (offset + 1 + length.toNat)
  else pure offset

def analyzeAuthenticationRequest (challenge : Bool) (ret offset : Nat) : UeParser Nat :=
  if challenge then do
    setRand (offset + 2)
    setAutn (offset + 19)
    pure 0
  else pure ret

def analyzeSecurityModeCommand (offset : Nat) : UeParser Nat := do
  let algs ← load (offset + 1)
  setNasSessionSecurityAlgorithms algs
  glance (offset + 3) 3
  pure 0

def analyzeEmmInformation (offset : Nat) : UeParser Nat := do
  let offset ← skipNetworkName 0x43 (offset + 1)
  let _ ← skipNetworkName 0x45 offset
  pure 2

def analyzeNasMessage (challenge : Bool) (ret offset : Nat) : UeParser Nat := do
  let type ← load offset
  if type = authenticationRequest then analyzeAuthenticationRequest challenge ret offset
  else if type = securityModeCommand then analyzeSecurityModeCommand offset
  else if type = emmInformation then analyzeEmmInformation offset
  else pure ret

def analyzeNasPdu (challenge : Bool) (ret offset : Nat) : UeParser Nat := do
  let offset ← skipNasHeader offset
  analyzeNasMessage challenge ret offset

/-- The loop `while(guti_f)`: an element that is neither skipped nor the GUTI is looked at again. -/
def searchGuti : Nat → Nat → UeParser Nat
  | 0, _ => Prog.abort
  | fuel + 1, offset => do
      let tag ← load offset
      if tag = 0x27 ∨ tag = 0x5e then
        let length ← load (offset + 1)
        searchGuti fuel (offset + length.toNat + 2)
      else if tag = 0x50 then
        let _ ← load (offset + 1)
        pure (offset + 3)
      else searchGuti fuel offset

def analyzePdnAddress (fuel ret offset : Nat) : UeParser Nat := do
  let pdnType ← load (offset + 1)
  if pdnType &&& 0x01 = 0 then pure 1
  else
    setPdnIp (offset + 2)
    let guti ← searchGuti fuel (offset + 6)
    setGuti guti
    pure ret

def analyzeBearerContext (fuel ret offset : Nat) : UeParser Nat := do
  let type ← load offset
  if type ≠ activateDefaultEpsBearerContextRequest then pure 1
  else
    glance (offset + 2) 1
    let length ← load (offset + 3)
    setApnName (offset + 4) length
    analyzePdnAddress fuel ret (offset + 4 + length.toNat)

def analyzeAttachAccept (fuel ret offset : Nat) : UeParser Nat := do
  let discriminator ← load (offset + 1)
  if discriminator &&& 0x0F ≠ 0x07 then pure ret
  else
    glance (offset + 10) 1
    analyzeBearerContext fuel ret (offset + 22)

def analyzeErabToBeSetupList (fuel ret offset : Nat) : UeParser Nat := do
  let item ← load16 (offset + 1)
  if item ≠ idErabToBeSetupItemCTxtSuReq then pure 1
  else
    glance (offset + 5) 1
    setSpgwIp (offset + 11)
    let teid ← load32 (offset + 15)
    setGtpTeid teid
    analyzeAttachAccept fuel ret (offset + 19)

def printBitrate (tag : UInt8) (offset : Nat) : UeParser Unit := do
  let first ← load offset
  if first = tag then glance (offset + 1) 4 else pure ()

def printValue (valueLen : UInt8) (offset : Nat) : UeParser Nat := do
  glance offset (min valueLen.toNat 16)
  pure 0

/-- An item that is not a NAS-PDU. `ID_CAUSE` is printed as the default case is. -/
def analyzeItem (fuel id : Nat) (valueLen : UInt8) (ret offset : Nat) : UeParser Nat :=
  if id = idMmeUeS1apIe then do
    setMmeS1apId offset valueLen
    -- the branches that follow it come to the default case
    printValue valueLen offset
  else if id = idUeAggregateMaximumBitrate ∧ valueLen = 10 then do
    printBitrate 0x18 offset
    printBitrate 0x60 (offset + 5)
    pure 0
  else if id = idErabToBeSetupListCTxtSuReq then analyzeErabToBeSetupList fuel ret offset
  else if id = idUeSecurityCapabilities then do
    setSecurityCapabilities offset
    pure 0
  else if id = idSecurityKey then do
    glance offset 32
    pure 0
  else if id = idUeS1apIds then do
    glance offset 4
    pure 0
  else if id = idSecurityContext then do
    glance offset 33
    pure 0
  else printValue valueLen offset

/-- What is left of `numElems` items. -/
def analyzeItems (len fuel : Nat) (challenge : Bool) : Nat → Nat → Nat → UeParser Nat
  | 0, ret, _ => pure ret
  | n + 1, ret, offset =>
      if len ≤ offset then pure ret
      else do
        Prog.observe offset
        let id ← load16 offset
        glance (offset + 2) 1
        let valueLen ← load (offset + 3)
        if id = idNasPdu then
          let ret ← analyzeNasPdu challenge ret (offset + 4)
          analyzeItems len fuel challenge n ret (offset + 4)
        else
          let ret ← analyzeItem fuel id valueLen ret (offset + 4)
          analyzeItems len fuel challenge n ret (offset + 4 + valueLen.toNat)

def analyzeDownlinkNasTransport (len fuel : Nat) (challenge : Bool) : UeParser Nat := do
  let numElems ← load16 1
  analyzeItems len fuel challenge numElems 1 3

/-! The calling functions copy the value of a message to a buffer of its length, which the parser reads.
Here they tell where the value starts and how long it is. -/

/-- The value is copied before the header is looked at. -/
def takeValue (status : UInt8) (codes : List UInt8) : UeParser (Option (Nat × Nat)) := do
  let status' ← load 0
  let code ← load 1
  glance 2 1
  let length ← load 3
  let _ ← block 4 length.toNat
  pure (if status' = status ∧ code ∈ codes then some (4, length.toNat) else none)

def takeAuthenticationRequest : UeParser (Option (Nat × Nat)) :=
  takeValue 0x00 [downlinkNasTransport]

def takeSecurityModeCommand : UeParser (Option (Nat × Nat)) :=
  takeValue 0x00 [downlinkNasTransport]

def takeUeContextReleaseCommand : UeParser (Option (Nat × Nat)) :=
  takeValue 0x00 [ueContextRelease, downlinkNasTransport]

def takeUeAccept : UeParser (Option (Nat × Nat)) :=
  takeValue 0x00 [downlinkNasTransport]

def takePathSwitchRequestAcknowledge : UeParser (Option (Nat × Nat)) :=
  takeValue successfulOutcome [idPathSwitchRequest, downlinkNasTransport]

/-- The length is in one octet, or in the second of two. -/
def takeInitialContextSetupRequest : UeParser (Option (Nat × Nat)) := do
  let status ← load 0
  let code ← load 1
  glance 2 1
  let unknown ← load 3
  let length ← load 4
  if status = 0x00 ∧ code ∈ [initialContextSetup, downlinkNasTransport] then
    if unknown = 0x80 then
      let _ ← block 5 length.toNat
      pure (some (5, length.toNat))
    else
      let _ ← block 4 unknown.toNat
      pure (some (4, unknown.toNat))
  else pure none

inductive Caller
  | authenticationRequest
  | securityModeCommand
  | initialContextSetupRequest
  | ueContextReleaseCommand
  | ueAccept
  | pathSwitchRequestAcknowledge

def Caller.take : Caller → UeParser (Option (Nat × Nat))
  | authenticationRequest => takeAuthenticationRequest
  | securityModeCommand => takeSecurityModeCommand
  | initialContextSetupRequest => takeInitialContextSetupRequest
  | ueContextReleaseCommand => takeUeContextReleaseCommand
  | ueAccept => takeUeAccept
  | pathSwitchRequestAcknowledge => takePathSwitchRequestAcknowledge

/-- Only one caller has a challenge to fill. -/
def Caller.challenge : Caller → Bool
  | authenticationRequest => true
  | _ => false

inductive NasEffect
  | none
  | challenge (rand autn : List UInt8)
  | algorithms (algs : UInt8)
  deriving DecidableEq

def NasEffect.store (challenge : Bool) (m : Mem UInt8) : NasEffect → Mem UInt8
  | .none => m
  | .challenge rand autn => if challenge then (m.write randAt rand).write autnAt autn else m
  | .algorithms algs => m.write algorithmsAt [algs]

def nasTypeAt (value : Mem UInt8) (offset : Nat) : Nat :=
  if value (offset + 1) = 0x37 ∨ value (offset + 1) = 0x27 then offset + 8 else offset + 2

def effectAt (value : Mem UInt8) (p : Nat) : NasEffect :=
  if value p = authenticationRequest then
    .challenge (value.read (p + 2) 16) (value.read (p + 19) 16)
  else if value p = securityModeCommand then .algorithms (value (p + 1))
  else .none

/-- What the message leaves in `ret`. -/
def retAt (value : Mem UInt8) (challenge : Bool) (ret p : Nat) : Nat :=
  if value p = authenticationRequest then if challenge then 0 else ret
  else if value p = securityModeCommand then 0
  else if value p = emmInformation then 2
  else ret

section

variable {value m : Mem UInt8} {seen : List Nat} {challenge : Bool} {ret offset : Nat}
  {post : Nat → Mem UInt8 → List Nat → Prop}

@[simp] theorem yields_skipNasHeader :
    Yields value (skipNasHeader offset) m seen post ↔ post (nasTypeAt value offset) m seen := by
  rw [skipNasHeader, yields_bind, yields_load, yields_ite, yields_ite, nasTypeAt]
  by_cases hplain : value (offset + 1) = 0x07
  · simp [hplain]
  · rw [if_neg hplain]
    split <;> simp

@[simp] theorem yields_analyzeAuthenticationRequest :
    Yields value (analyzeAuthenticationRequest challenge ret offset) m seen post ↔
      post (if challenge then 0 else ret) ((NasEffect.challenge (value.read (offset + 2) 16)
        (value.read (offset + 19) 16)).store challenge m) seen := by
  cases challenge <;> simp [analyzeAuthenticationRequest, NasEffect.store, setRand, setAutn]

@[simp] theorem yields_analyzeSecurityModeCommand :
    Yields value (analyzeSecurityModeCommand offset) m seen post ↔
      post 0 (m.write algorithmsAt [value (offset + 1)]) seen := by
  simp [analyzeSecurityModeCommand]

@[simp] theorem yields_analyzeEmmInformation :
    Yields value (analyzeEmmInformation offset) m seen post ↔ post 2 m seen := by
  simp only [analyzeEmmInformation, skipNetworkName, yields_bind, yields_load, yields_ite,
    yields_pure, ite_self]

theorem yields_analyzeNasMessage :
    Yields value (analyzeNasMessage challenge ret offset) m seen post ↔
      post (retAt value challenge ret offset) ((effectAt value offset).store challenge m) seen := by
  rw [analyzeNasMessage, yields_bind, yields_load, retAt, effectAt]
  simp only [yields_ite]
  split_ifs <;> simp [*, NasEffect.store]

theorem yields_analyzeNasPdu :
    Yields value (analyzeNasPdu challenge ret offset) m seen post ↔
      post (retAt value challenge ret (nasTypeAt value offset))
        ((effectAt value (nasTypeAt value offset)).store challenge m) seen := by
  rw [analyzeNasPdu, yields_bind, yields_skipNasHeader, yields_analyzeNasMessage]

@[simp] theorem yields_printBitrate {tag : UInt8} {post : Unit → Mem UInt8 → List Nat → Prop} :
    Yields value (printBitrate tag offset) m seen post ↔ post () m seen := by
  simp only [printBitrate, yields_bind, yields_load, yields_ite, yields_glance, yields_pure,
    ite_self]

@[simp] theorem yields_printValue {valueLen : UInt8} :
    Yields value (printValue valueLen offset) m seen post ↔ post 0 m seen := by
  simp [printValue]

end

end PublicCloudCore.RanEmulator.S1apAnalysis
