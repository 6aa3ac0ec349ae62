import PublicCloudCore.RanEmulator.GutiSearch
import PublicCloudCore.RanEmulator.NgapAnalysis

/-!
# What the parsers touch

Every access of `analyze_message_items` and `analyze_downlink_NAS_Transport` to a message of `n`
octets and to the record of the UE. Neither parser compares an offset with `n`, except where an item
of an S1AP message starts: the message must hold what its items make the parser look at. `n` is the
number of octets of the message, and `present` says whether the pointer to the UE is not NULL.
-/

namespace PublicCloudCore.RanEmulator.ParserBounds

open Framework Framework.Parser UeRecord

/-- Loads from the message, stores into a record that is there, and an identifier that fits
`mme_s1ap_id`. -/
def InBounds (n : Nat) (present : Bool) : Touch UInt8 → Prop
  | .load k => k < n
  | .store p cells => present = true ∧ (p = mmeS1apIdAt → cells.length ≤ mmeS1apIdSize)

/-- All that the parser touches is in bounds. -/
def StaysInBounds {β : Type} (p : UeParser β) (value : Mem UInt8) (n : Nat)
    (record : Option (Mem UInt8)) : Prop :=
  ∀ q ∈ (p.exec (serve value) record).asked, InBounds n record.isSome q

section

variable {value : Mem UInt8} {n k source target : Nat} {present : Bool} {β : Type}
  {post : Unit → Prop}

theorem staysInBounds_iff {p : UeParser β} {record : Option (Mem UInt8)} :
    StaysInBounds p value n record ↔
      Keeps value (InBounds n record.isSome) p fun _ => True := by
  rw [keeps_iff]
  · rfl
  · rintro rfl p cells h
    exact Bool.false_ne_true h.1

/-- What follows a parser matters where it ends. -/
theorem keeps_follow {p : UeParser β} {P : Prop} :
    (Keeps value (InBounds n present) p fun _ => P) ↔
      (Keeps value (InBounds n present) p fun _ => True) ∧
        ((Yields value p (fun _ => 0) [] fun _ _ _ => True) → P) := keeps_const

theorem forall_lt_iff : (∀ i < k, source + i < n) ↔ k = 0 ∨ source + k ≤ n := by
  constructor
  · intro h
    by_cases hk : k = 0
    · exact Or.inl hk
    · have hlast := h (k - 1) (by omega)
      omega
  · intro h i hi
    omega

@[simp] theorem keeps_glance :
    Keeps value (InBounds n present) (glance source k) post ↔
      (k = 0 ∨ source + k ≤ n) ∧ post () := by
  rw [← forall_lt_iff, glance, keeps_bind, keeps_block]
  rfl

@[simp] theorem keeps_copy :
    Keeps value (InBounds n present) (copy target source k) post ↔
      (k = 0 ∨ source + k ≤ n) ∧ present = true ∧ (target = mmeS1apIdAt → k ≤ mmeS1apIdSize) ∧
        post () := by
  rw [← forall_lt_iff, copy, keeps_bind, keeps_block]
  simp [InBounds, and_assoc]

@[simp] theorem keeps_load16 {post : Nat → Prop} :
    Keeps value (InBounds n present) (load16 k) post ↔ k + 2 ≤ n ∧ post (word value k) := by
  simp only [load16, keeps_bind, keeps_load, keeps_pure, InBounds, word]
  constructor
  · rintro ⟨_, hn, hpost⟩
    exact ⟨hn, hpost⟩
  · rintro ⟨hn, hpost⟩
    exact ⟨by omega, hn, hpost⟩

@[simp] theorem keeps_load32 {post : UInt32 → Prop} :
    Keeps value (InBounds n present) (load32 k) post ↔ k + 4 ≤ n ∧ post (longWord value k) := by
  simp only [load32, keeps_bind, keeps_load, keeps_pure, InBounds, longWord]
  constructor
  · rintro ⟨_, _, _, hn, hpost⟩
    exact ⟨hn, hpost⟩
  · rintro ⟨hn, hpost⟩
    exact ⟨by omega, by omega, by omega, hn, hpost⟩

end

namespace S1ap

open S1apAnalysis

/-- Where the second network name of an EMM Information is looked for. -/
def secondNameAt (value : Mem UInt8) (p : Nat) : Nat :=
  if value (p + 1) = 0x43 then p + 2 + (value (p + 2)).toNat else p + 1

/-- The octets of the NAS message that are looked at, from its type on. -/
def NasWithin (value : Mem UInt8) (n : Nat) (present challenge : Bool) (p : Nat) : Prop :=
  p < n ∧
    (value p = authenticationRequest → challenge = true → present = true ∧ p + 35 ≤ n) ∧
    (value p = securityModeCommand → present = true ∧ p + 6 ≤ n) ∧
    (value p = emmInformation → secondNameAt value p < n ∧
      (value (secondNameAt value p) = 0x45 → secondNameAt value p + 1 < n))

/-- An element of the search, and with the GUTI its ten octets. -/
def ElementWithin (value : Mem UInt8) (n p : Nat) : Prop :=
  p < n ∧ (value p = 0x27 ∨ value p = 0x5e → p + 1 < n) ∧ (value p = 0x50 → p + 13 ≤ n)

def SearchWithin (value : Mem UInt8) (n iterations start : Nat) : Prop :=
  ∀ k < iterations, ElementWithin value n (elementAt value start k)

def PdnAddressWithin (value : Mem UInt8) (n iterations : Nat) (present : Bool) (offset : Nat) :
    Prop :=
  offset + 2 ≤ n ∧ (value (offset + 1) &&& 0x01 ≠ 0 →
    present = true ∧ offset + 6 ≤ n ∧ SearchWithin value n iterations (offset + 6))

def BearerContextWithin (value : Mem UInt8) (n iterations : Nat) (present : Bool) (offset : Nat) :
    Prop :=
  offset < n ∧ (value offset = activateDefaultEpsBearerContextRequest →
    present = true ∧ offset + 4 + min (value (offset + 3)).toNat 31 ≤ n ∧
      PdnAddressWithin value n iterations present (offset + 4 + (value (offset + 3)).toNat))

def AttachAcceptWithin (value : Mem UInt8) (n iterations : Nat) (present : Bool) (offset : Nat) :
    Prop :=
  offset + 2 ≤ n ∧ (value (offset + 1) &&& 0x0F = 0x07 →
    BearerContextWithin value n iterations present (offset + 22))

def ErabWithin (value : Mem UInt8) (n iterations : Nat) (present : Bool) (offset : Nat) : Prop :=
  offset + 3 ≤ n ∧ (word value (offset + 1) = idErabToBeSetupItemCTxtSuReq →
    present = true ∧ AttachAcceptWithin value n iterations present (offset + 19))

def ValueWithin (value : Mem UInt8) (n iterations : Nat) (present : Bool)
    (id valueLen offset : Nat) : Prop :=
  if id = idMmeUeS1apIe then
    present = true ∧ valueLen ≤ mmeS1apIdSize ∧ (valueLen = 0 ∨ offset + valueLen ≤ n)
  else if id = idUeAggregateMaximumBitrate ∧ valueLen = 10 then
    offset + 6 ≤ n ∧ (value (offset + 5) = 0x60 → offset + 10 ≤ n)
  else if id = idErabToBeSetupListCTxtSuReq then ErabWithin value n iterations present offset
  else if id = idUeSecurityCapabilities then present = true ∧ offset + 4 ≤ n
  else if id = idSecurityKey then offset + 32 ≤ n
  else if id = idUeS1apIds then offset + 4 ≤ n
  else if id = idSecurityContext then offset + 33 ≤ n
  else valueLen = 0 ∨ offset + min valueLen 16 ≤ n

def ItemWithin (value : Mem UInt8) (n iterations : Nat) (present challenge : Bool) (offset : Nat) :
    Prop :=
  offset + 4 ≤ n ∧
    if word value offset = idNasPdu then
      NasWithin value n present challenge (nasTypeAt value (offset + 4))
    else ValueWithin value n iterations present (word value offset) (value (offset + 3)).toNat
      (offset + 4)

section

variable {value : Mem UInt8} {n fuel ret offset start : Nat} {present challenge : Bool}
  {post : Nat → Prop}

theorem keeps_skipNetworkName {tag : UInt8} :
    Keeps value (InBounds n present) (skipNetworkName tag offset) post ↔
      offset < n ∧ (if value offset = tag then
        offset + 1 < n ∧ post (offset + 1 + (value (offset + 1)).toNat) else post offset) := by
  simp only [skipNetworkName, keeps_bind, keeps_load, keeps_ite, keeps_pure, InBounds]

theorem keeps_analyzeEmmInformation :
    Keeps value (InBounds n present) (analyzeEmmInformation offset) post ↔
      (secondNameAt value offset < n ∧ (value (secondNameAt value offset) = 0x45 →
        secondNameAt value offset + 1 < n)) ∧ post 2 := by
  simp only [analyzeEmmInformation, keeps_bind, keeps_skipNetworkName, keeps_pure, secondNameAt]
  split_ifs <;> grind

theorem keeps_analyzeNasMessage :
    (Keeps value (InBounds n present) (analyzeNasMessage challenge ret offset) fun _ => True) ↔
      NasWithin value n present challenge offset := by
  rw [NasWithin, analyzeNasMessage, keeps_bind, keeps_load, InBounds]
  apply and_congr_right
  intro htype
  simp only [keeps_ite]
  by_cases hrequest : value offset = authenticationRequest
  · simp only [hrequest, if_true, analyzeAuthenticationRequest, keeps_ite, setRand, setAutn,
      keeps_bind, keeps_copy, keeps_pure]
    cases challenge
    · simp [authenticationRequest, securityModeCommand, emmInformation]
    · simp only [authenticationRequest, securityModeCommand, emmInformation, randAt, autnAt,
        mmeS1apIdAt]
      grind
  · simp only [hrequest, if_false, false_implies, true_and]
    by_cases hcommand : value offset = securityModeCommand
    · simp [hcommand, analyzeSecurityModeCommand, setNasSessionSecurityAlgorithms, InBounds,
        algorithmsAt, mmeS1apIdAt, securityModeCommand, emmInformation]
      omega
    · simp only [hcommand, if_false, false_implies, true_and]
      split
      · simp [*, keeps_analyzeEmmInformation]
      · simp [*]

theorem keeps_analyzeNasPdu :
    (Keeps value (InBounds n present) (analyzeNasPdu challenge ret offset) fun _ => True) ↔
      NasWithin value n present challenge (nasTypeAt value offset) := by
  simp only [analyzeNasPdu, skipNasHeader, keeps_bind, keeps_load, keeps_ite, keeps_pure,
    keeps_glance, keeps_analyzeNasMessage, InBounds, nasTypeAt]
  by_cases hplain : value (offset + 1) = 0x07
  · simp only [hplain, if_true]
    exact and_iff_right_of_imp fun h => by have := h.1; omega
  · simp only [hplain, if_false]
    split
    · constructor
      · exact fun h => h.2.2
      · intro h
        have htype := h.1
        exact ⟨by omega, Or.inr (by omega), h⟩
    · exact and_iff_right_of_imp fun h => by have := h.1; omega

theorem keeps_searchGuti :
    Keeps value (InBounds n present) (searchGuti fuel start) post ↔
      ∀ k < fuel, elementAt value start k < n ∧
        (value (elementAt value start k) = 0x27 ∨ value (elementAt value start k) = 0x5e →
          elementAt value start k + 1 < n) ∧
        (value (elementAt value start k) = 0x50 →
          elementAt value start k + 1 < n ∧ post (elementAt value start k + 3)) := by
  induction fuel generalizing start with
  | zero => simp [searchGuti]
  | succ fuel ih =>
      simp only [searchGuti, keeps_bind, keeps_load, keeps_ite, keeps_pure, ih, InBounds,
        Nat.forall_lt_succ_left, elementAt_zero, elementAt_succ]
      by_cases hskip : value start = 0x27 ∨ value start = 0x5e
      · have hnext : nextElement value start = start + (value (start + 1)).toNat + 2 := if_pos hskip
        have hstart : value start ≠ 0x50 := by
          rcases hskip with h | h <;> rw [h] <;> decide
        simp only [hskip, hnext, hstart, if_true, true_implies, false_implies, and_true, and_assoc]
      · have hstays : nextElement value start = start := if_neg hskip
        simp only [hskip, if_false, false_implies, true_and, hstays, elementAt_of_stays hstays]
        by_cases hguti : value start = 0x50
        · simp only [hguti, if_true, true_implies]
          exact ⟨fun h => ⟨h, fun _ _ => h⟩, fun h => h.1⟩
        · simp only [hguti, if_false, false_implies, and_true]

theorem keeps_analyzePdnAddress :
    (Keeps value (InBounds n present) (analyzePdnAddress fuel ret offset) fun _ => True) ↔
      PdnAddressWithin value n fuel present offset := by
  simp only [analyzePdnAddress, keeps_bind, keeps_load, keeps_ite, keeps_pure, setPdnIp, setGuti,
    keeps_copy, keeps_searchGuti, InBounds, PdnAddressWithin, SearchWithin, ElementWithin]
  apply and_congr (by omega)
  by_cases hpdn : value (offset + 1) &&& 0x01 = 0
  · simp [hpdn]
  · simp only [hpdn, if_false, ne_eq, not_false_iff, true_implies, pdnIpAt, gutiAt, mmeS1apIdAt]
    cases present
    · simp
    · simp only [OfNat.ofNat_ne_zero, false_or, true_and, Nat.reduceEqDiff, false_implies, and_true]
      apply and_congr_right
      intro _
      apply forall₂_congr
      intro k _
      apply and_congr_right
      intro _
      apply and_congr_right
      intro _
      apply imp_congr_right
      intro _
      omega

theorem keeps_analyzeBearerContext :
    (Keeps value (InBounds n present) (analyzeBearerContext fuel ret offset) fun _ => True) ↔
      BearerContextWithin value n fuel present offset := by
  simp only [analyzeBearerContext, keeps_bind, keeps_load, keeps_ite, keeps_pure, keeps_glance,
    setApnName, keeps_copy, keeps_store, keeps_analyzePdnAddress, InBounds, BearerContextWithin]
  apply and_congr_right
  intro _
  by_cases htype : value offset = activateDefaultEpsBearerContextRequest
  · simp only [htype, ne_eq, not_true, if_false, true_implies, apnNameAt, mmeS1apIdAt]
    grind [mmeS1apIdSize]
  · simp [htype]

theorem keeps_analyzeAttachAccept :
    (Keeps value (InBounds n present) (analyzeAttachAccept fuel ret offset) fun _ => True) ↔
      AttachAcceptWithin value n fuel present offset := by
  simp only [analyzeAttachAccept, keeps_bind, keeps_load, keeps_ite, keeps_pure, keeps_glance,
    keeps_analyzeBearerContext, InBounds, AttachAcceptWithin]
  apply and_congr (by omega)
  by_cases hnas : value (offset + 1) &&& 0x0F = 0x07
  · simp only [hnas, ne_eq, not_true, if_false, true_implies]
    exact and_iff_right_of_imp fun h => by have := h.1; omega
  · simp [hnas]

theorem keeps_analyzeErabToBeSetupList :
    (Keeps value (InBounds n present) (analyzeErabToBeSetupList fuel ret offset) fun _ => True) ↔
      ErabWithin value n fuel present offset := by
  simp only [analyzeErabToBeSetupList, keeps_bind, keeps_load16, keeps_load32, keeps_ite,
    keeps_pure, keeps_glance, setSpgwIp, setGtpTeid, keeps_copy, keeps_store,
    keeps_analyzeAttachAccept, InBounds, ErabWithin]
  apply and_congr (by omega)
  by_cases herab : word value (offset + 1) = idErabToBeSetupItemCTxtSuReq
  · simp only [herab, ne_eq, not_true, if_false, true_implies, spgwIpAt, gtpTeidAt, mmeS1apIdAt]
    simp only [OfNat.ofNat_ne_zero, false_or, Nat.reduceEqDiff, false_implies, and_true]
    have haccept : AttachAcceptWithin value n fuel present (offset + 19) → offset + 21 ≤ n :=
      fun h => h.1
    grind
  · simp [herab]

theorem keeps_printValue {valueLen : UInt8} :
    (Keeps value (InBounds n present) (printValue valueLen offset) fun _ => True) ↔
      valueLen.toNat = 0 ∨ offset + min valueLen.toNat 16 ≤ n := by
  simp only [printValue, keeps_bind, keeps_glance, keeps_pure, and_true]
  omega

theorem keeps_analyzeItem {id : Nat} {valueLen : UInt8} :
    (Keeps value (InBounds n present) (analyzeItem fuel id valueLen ret offset) fun _ => True) ↔
      ValueWithin value n fuel present id valueLen.toNat offset := by
  have hten : valueLen = 10 ↔ valueLen.toNat = 10 := UInt8.toNat_inj.symm
  simp only [analyzeItem, keeps_ite, keeps_bind, setMmeS1apId, setSecurityCapabilities, keeps_copy,
    keeps_store, keeps_printValue, printBitrate, keeps_load, keeps_glance, keeps_pure,
    keeps_analyzeErabToBeSetupList, InBounds, ValueWithin, hten]
  split_ifs <;> simp [mmeS1apIdAt, mmeS1apIdLenAt, securityCapabilitiesAt] <;> grind

theorem keeps_analyzeItems {count : Nat} :
    (Keeps value (InBounds n present) (analyzeItems n fuel challenge count ret offset)
      fun _ => True) ↔
      EveryItem value n fuel (ItemWithin value n fuel present challenge) count offset := by
  induction count generalizing ret offset with
  | zero => exact iff_of_true trivial trivial
  | succ count ih =>
      rw [analyzeItems, EveryItem, keeps_ite]
      by_cases hlen : n ≤ offset
      · rw [if_pos hlen]
        exact iff_of_true trivial fun h => absurd hlen (Nat.not_le.mpr h)
      · simp only [hlen, Nat.not_le.mp hlen, if_false, true_implies, keeps_bind, keeps_observe,
          keeps_load16, keeps_glance, keeps_load, keeps_ite, ih, InBounds, ItemWithin, nextItem,
          ItemEnds]
        by_cases hnas : word value offset = idNasPdu
        · rw [keeps_follow, keeps_analyzeNasPdu]
          simp only [hnas, if_true, yields_analyzeNasPdu]
          simp only [idNasPdu, idErabToBeSetupListCTxtSuReq]
          grind
        · rw [if_neg hnas, if_neg hnas, if_neg hnas, keeps_follow, keeps_analyzeItem,
            yields_analyzeItem]
          grind

theorem staysInBounds_analyzeDownlinkNasTransport {record : Option (Mem UInt8)} :
    StaysInBounds (analyzeDownlinkNasTransport n fuel challenge) value n record ↔
      3 ≤ n ∧ EveryItem value n fuel (ItemWithin value n fuel record.isSome challenge)
        (word value 1) 3 := by
  rw [staysInBounds_iff, analyzeDownlinkNasTransport, keeps_bind, keeps_load16, keeps_analyzeItems]

end

/-- The octets of a message that a caller copies: its header and its value. -/
def TakeWithin (value : Mem UInt8) (n : Nat) : Caller → Prop
  | .initialContextSetupRequest => 5 ≤ n ∧
      (value 0 = 0x00 ∧ value 1 ∈ [initialContextSetup, downlinkNasTransport] →
        if value 3 = 0x80 then 5 + (value 4).toNat ≤ n else 4 + (value 3).toNat ≤ n)
  | _ => 4 + (value 3).toNat ≤ n

/-- Where a caller that accepts the header finds the value, and its length. -/
def taken (value : Mem UInt8) : Caller → Option (Nat × Nat)
  | .initialContextSetupRequest =>
      if value 0 = 0x00 ∧ value 1 ∈ [initialContextSetup, downlinkNasTransport] then
        if value 3 = 0x80 then some (5, (value 4).toNat) else some (4, (value 3).toNat)
      else none
  | .ueContextReleaseCommand =>
      if value 0 = 0x00 ∧ value 1 ∈ [ueContextRelease, downlinkNasTransport] then
        some (4, (value 3).toNat)
      else none
  | .pathSwitchRequestAcknowledge =>
      if value 0 = successfulOutcome ∧ value 1 ∈ [idPathSwitchRequest, downlinkNasTransport] then
        some (4, (value 3).toNat)
      else none
  | _ =>
      if value 0 = 0x00 ∧ value 1 ∈ [downlinkNasTransport] then some (4, (value 3).toNat) else none

/-- Copying the value and parsing it stay in bounds, however long a search goes on. -/
def AnalysisStaysInBounds (caller : Caller) (value : Mem UInt8) (n : Nat) (m : Mem UInt8) : Prop :=
  StaysInBounds caller.take value n (some m) ∧
    ∀ start len, (caller.take.exec (serve value) (some m)).result = some (some (start, len)) →
      ∀ fuel, StaysInBounds (analyzeDownlinkNasTransport len fuel caller.challenge)
        (value.shift start) len (some m)

def MessageWithin (value : Mem UInt8) (n : Nat) (caller : Caller) : Prop :=
  TakeWithin value n caller ∧ ∀ start len, taken value caller = some (start, len) →
    3 ≤ len ∧ ∀ iterations, EveryItem (value.shift start) len iterations
      (ItemWithin (value.shift start) len iterations true caller.challenge)
        (word value (start + 1)) 3

section

variable {value : Mem UInt8} {n : Nat} {caller : Caller} {m : Mem UInt8}

theorem yields_take {post : Option (Nat × Nat) → Mem UInt8 → List Nat → Prop} :
    Yields value caller.take m [] post ↔ post (taken value caller) m [] := by
  cases caller
  case initialContextSetupRequest =>
    simp only [Caller.take, takeInitialContextSetupRequest, taken, yields_bind, yields_load,
      yields_glance, yields_block, yields_ite, yields_pure]
    split_ifs <;> rfl
  all_goals
    simp only [Caller.take, takeAuthenticationRequest, takeSecurityModeCommand,
      takeUeContextReleaseCommand, takeUeAccept, takePathSwitchRequestAcknowledge, takeValue, taken,
      yields_bind, yields_load, yields_glance, yields_block, yields_pure]

theorem result_take :
    (caller.take.exec (serve value) (some m)).result = some (taken value caller) := by
  have hyields : Yields value caller.take m [] fun r _ _ => r = taken value caller :=
    yields_take.mpr rfl
  obtain ⟨r, _, hr, _, rfl⟩ := yields_iff.mp hyields
  exact hr

theorem staysInBounds_take {record : Option (Mem UInt8)} :
    StaysInBounds caller.take value n record ↔ TakeWithin value n caller := by
  rw [staysInBounds_iff]
  cases caller
  case initialContextSetupRequest =>
    simp only [Caller.take, takeInitialContextSetupRequest, TakeWithin, keeps_bind, keeps_load,
      keeps_glance, keeps_block, keeps_ite, keeps_pure, InBounds, forall_lt_iff]
    grind
  all_goals
    simp only [Caller.take, takeAuthenticationRequest, takeSecurityModeCommand,
      takeUeContextReleaseCommand, takeUeAccept, takePathSwitchRequestAcknowledge, takeValue,
      TakeWithin, keeps_bind, keeps_load, keeps_glance, keeps_block, keeps_pure, InBounds,
      forall_lt_iff]
    grind

theorem analysisStaysInBounds_iff :
    AnalysisStaysInBounds caller value n m ↔ MessageWithin value n caller := by
  simp only [AnalysisStaysInBounds, MessageWithin, staysInBounds_take, result_take,
    staysInBounds_analyzeDownlinkNasTransport, Option.some.injEq, forall_and_left, Option.isSome]
  rfl

end

end S1ap

namespace Ngap

open NgapAnalysis

def PduSessionWithin (value : Mem UInt8) (n : Nat) (present : Bool) (offset : Nat) : Prop :=
  present = true ∧ offset + gtpIdAt value offset + 13 ≤ n

def PduSessionListWithin (value : Mem UInt8) (n : Nat) (present : Bool) (offset : Nat) : Prop :=
  pduSessionOffset value offset + 8 ≤ n ∧ (value (pduSessionOffset value offset + 7) = 0x7e →
    PduSessionWithin value n present (pduSessionOffset value offset))

def NasWithin (value : Mem UInt8) (n : Nat) (present : Bool) (offset : Nat) : Prop :=
  if value (offset + 5) = 0x02 then
    offset + 14 ≤ n ∧ (value (offset + 13) = registrationAccept → present = true ∧ offset + 30 ≤ n)
  else if value (offset + 5) = 0x03 then
    offset + 14 ≤ n ∧ (value (offset + 13) = securityModeCommand → present = true ∧ offset + 15 ≤ n)
  else if value (offset + 5) = 0x00 then
    offset + 7 ≤ n ∧ (value (offset + 6) = authenticationRequest → present = true ∧ offset + 46 ≤ n)
  else offset + 6 ≤ n

def ItemWithin (value : Mem UInt8) (n : Nat) (present : Bool) (offset : Nat) : Prop :=
  if value offset = idAmfUeNgapId then
    present = true ∧ (value (offset + 2)).toNat ≤ mmeS1apIdSize ∧
      offset + 3 + (value (offset + 2)).toNat ≤ n
  else if value offset = idGuami then present = true ∧ offset + 10 ≤ n
  else if value offset = idUeSecurityCapabilities then offset + 10 ≤ n
  else if value offset = idUeNgapIds then offset + 3 + (value (offset + 2)).toNat ≤ n
  else if value offset = idCause then offset + 4 ≤ n
  else if value offset = idPduSessionResourceSetupListSuReq then
    PduSessionListWithin value n present offset
  else if value offset = idNasPdu then NasWithin value n present offset
  else offset + 3 ≤ n

section

variable {value : Mem UInt8} {n offset k j : Nat} {present : Bool} {post : Nat → Prop}
  {done : Unit → Prop}

@[simp] theorem keeps_skipItem :
    Keeps value (InBounds n present) (skipItem offset) post ↔
      offset + 3 ≤ n ∧ post (offset + 3 + (value (offset + 2)).toNat) := Iff.rfl

/-- The loop looks at nothing behind the octet at which it ends. -/
theorem keeps_searchPduAddress
    (h : post (pduAddressFrom value offset k j) → offset + pduAddressFrom value offset k j < n) :
    Keeps value (InBounds n present) (searchPduAddress offset k j) post ↔
      post (pduAddressFrom value offset k j) := by
  induction k generalizing j with
  | zero => rfl
  | succ k ih =>
      have hle : j ≤ pduAddressFrom value offset (k + 1) j := le_firstFrom
      rw [searchPduAddress, keeps_bind, keeps_load, keeps_ite, keeps_pure, InBounds]
      rw [pduAddressFrom_succ] at h hle ⊢
      split at h <;> rename_i hoctet
      · rw [if_pos hoctet, if_pos hoctet]
        exact and_iff_right_of_imp h
      · rw [if_neg hoctet] at hle
        rw [if_neg hoctet, if_neg hoctet, ih h]
        exact and_iff_right_of_imp fun hpost => by have := h hpost; omega

theorem keeps_searchGtpId
    (h : post (gtpIdFrom value offset k j) → offset + gtpIdFrom value offset k j < n) :
    Keeps value (InBounds n present) (searchGtpId offset k j) post ↔
      post (gtpIdFrom value offset k j) := by
  induction k generalizing j with
  | zero => rfl
  | succ k ih =>
      have hle : j ≤ gtpIdFrom value offset (k + 1) j := le_firstFrom
      simp only [searchGtpId, keeps_bind, keeps_load, keeps_ite, keeps_pure, InBounds]
      rw [gtpIdFrom_succ] at h hle ⊢
      split at h <;> rename_i hoctets
      · simp only [hoctets, and_self, if_true]
        exact ⟨fun hkeeps => hkeeps.2.2, fun hpost => by have := h hpost; grind⟩
      · rw [if_neg hoctets] at hle
        rw [if_neg hoctets, ih h]
        grind

theorem keeps_analyzePduSession :
    Keeps value (InBounds n present) (analyzePduSession offset) done ↔
      PduSessionWithin value n present offset ∧ done () := by
  have haddress : 7 ≤ pduAddressAt value offset := le_firstFrom
  have hgtp : pduAddressAt value offset ≤ gtpIdAt value offset := le_firstFrom
  have htunnel : ∀ j, Keeps value (InBounds n present) (do
      setSpgwIp (offset + j + 5)
      let teid ← load32 (offset + j + 9)
      setGtpTeid teid) done ↔ present = true ∧ offset + j + 13 ≤ n ∧ done () := by
    intro j
    simp only [setSpgwIp, setGtpTeid, keeps_bind, keeps_copy, keeps_load32, keeps_store, InBounds,
      spgwIpAt, gtpTeidAt, mmeS1apIdAt]
    grind
  have hsession : Keeps value (InBounds n present)
      (searchGtpId offset (scanBound value offset - pduAddressAt value offset)
        (pduAddressAt value offset)) (fun j => present = true ∧ offset + j + 13 ≤ n ∧ done ()) ↔
      PduSessionWithin value n present offset ∧ done () := by
    rw [keeps_searchGtpId, PduSessionWithin, and_assoc]
    · rfl
    · intro h
      have hlt : offset + gtpIdAt value offset + 13 ≤ n := h.2.1
      show offset + gtpIdAt value offset < n
      omega
  simp only [analyzePduSession, setPdnIp, keeps_bind, keeps_glance, keeps_load, keeps_copy,
    InBounds]
  simp only [keeps_bind] at htunnel
  simp only [htunnel]
  rw [keeps_searchPduAddress]
  · show _ ∧ _ ∧ (_ ∨ offset + pduAddressAt value offset + 3 + 4 ≤ n) ∧ _ ∧ _ ∧
      Keeps value _ (searchGtpId offset (scanBound value offset - pduAddressAt value offset)
        (pduAddressAt value offset)) _ ↔ _
    rw [hsession, PduSessionWithin]
    simp only [pdnIpAt, mmeS1apIdAt]
    grind
  · intro h
    have hcopy : offset + pduAddressAt value offset + 3 + 4 ≤ n := h.1.resolve_left (by decide)
    show offset + pduAddressAt value offset < n
    omega

theorem keeps_analyzePduSessionList :
    Keeps value (InBounds n present) (analyzePduSessionList offset) post ↔
      PduSessionListWithin value n present offset ∧
        post (pduSessionOffset value offset + 3 +
          (value (pduSessionOffset value offset + 2)).toNat) := by
  simp only [analyzePduSessionList, keeps_bind, keeps_load, keeps_ite, keeps_glance, keeps_skipItem,
    keeps_analyzePduSession, InBounds, PduSessionListWithin]
  have hoffset : (if value (offset + 2) = 0x80 then offset + 1 else offset) =
      pduSessionOffset value offset := rfl
  have hle : offset ≤ pduSessionOffset value offset := by
    rw [pduSessionOffset]
    split <;> omega
  simp only [hoffset]
  grind

theorem keeps_analyzeNasPdu :
    Keeps value (InBounds n present) (analyzeNasPdu offset) done ↔
      NasWithin value n present offset ∧ done () := by
  simp only [analyzeNasPdu, analyzeProtectedNas, analyzeCommandNas, analyzePlainNas, setGuti,
    setRand, setAutn, setNasSessionSecurityAlgorithms, keeps_bind, keeps_load, keeps_ite,
    keeps_glance, keeps_copy, keeps_store, keeps_pure, InBounds, NasWithin]
  split_ifs <;> grind [gutiAt, randAt, autnAt, algorithmsAt, mmeS1apIdAt]

theorem keeps_analyzeItem :
    Keeps value (InBounds n present) (analyzeItem offset) post ↔
      ItemWithin value n present offset ∧ post (behindItem value offset) := by
  simp only [analyzeItem, setMmeS1apId, setGuami, keeps_bind, keeps_load, keeps_ite, keeps_copy,
    keeps_store, keeps_glance, keeps_skipItem, keeps_analyzeNasPdu, keeps_analyzePduSessionList,
    InBounds, ItemWithin, behindItem]
  have hsession : PduSessionListWithin value n present offset → offset + 8 ≤ n := by
    intro h
    have hoctet := h.1
    rw [pduSessionOffset] at hoctet
    split at hoctet <;> omega
  have hnas : NasWithin value n present offset → offset + 6 ≤ n := by
    rw [NasWithin]
    split_ifs <;> omega
  by_cases hlist : value offset = idPduSessionResourceSetupListSuReq
  · simp only [hlist, if_true]
    simp only [idPduSessionResourceSetupListSuReq, idAmfUeNgapId, idGuami,
      idUeSecurityCapabilities, idUeNgapIds, idCause]
    grind
  · simp only [hlist, if_false]
    split_ifs <;> grind [mmeS1apIdLenAt, mmeS1apIdAt, guamiAt]

theorem keeps_analyzeItems {count : Nat} :
    Keeps value (InBounds n present) (analyzeItems count offset) done ↔
      (∀ start ∈ walkStarts value count offset, ItemWithin value n present (start + 1)) ∧
        done () := by
  induction count generalizing offset with
  | zero => simp [analyzeItems, walkStarts]
  | succ count ih =>
      rw [analyzeItems, walkStarts, List.forall_mem_cons, and_assoc, ← ih, keeps_bind,
        keeps_observe, keeps_bind, keeps_analyzeItem]

end

def MessageWithin (value : Mem UInt8) (n : Nat) (present : Bool) (expected : Expected) : Prop :=
  0 < n ∧ (value 0 = expected.form → 1 < n ∧ (value 1 = expected.code → 2 < n ∧
    (value 2 = expected.criticality ∨ expected.strict = false → expected.items + 3 ≤ n ∧
      ∀ start ∈ walkStarts value (word value (expected.items + 1)) (expected.items + 3),
        ItemWithin value n present (start + 1))))

theorem staysInBounds_analyze {caller : Caller} {value : Mem UInt8} {n : Nat}
    {record : Option (Mem UInt8)} :
    StaysInBounds caller.analyze value n record ↔
      MessageWithin value n record.isSome caller.expected := by
  rw [staysInBounds_iff, caller.analyze_eq, analyzePdu, MessageWithin]
  simp only [accepts, analyzeMessageItems, keeps_bind, keeps_load, keeps_ite, keeps_pure,
    keeps_glance, keeps_load16, keeps_analyzeItems, InBounds, ne_eq, ite_not, Bool.false_eq_true,
    if_false, decide_eq_true_eq]
  grind

end Ngap

/-- A function that is called with a received message. -/
inductive Receiver
  | ngap (caller : NgapAnalysis.Caller)
  | s1ap (caller : S1apAnalysis.Caller)

namespace Receiver

/-- For the UE with this record, what is touched on account of the message is in bounds. -/
def StaysInBounds (value : Mem UInt8) (n : Nat) (m : Mem UInt8) : Receiver → Prop
  | ngap caller => ParserBounds.StaysInBounds caller.analyze value n (caller.record m)
  | s1ap caller => S1ap.AnalysisStaysInBounds caller value n m

/-- The message holds what its items make the parser look at, its identifiers fit, and an NG Setup
Response has no item for a UE. -/
def Fits (value : Mem UInt8) (n : Nat) : Receiver → Prop
  | ngap caller => Ngap.MessageWithin value n (caller ≠ .ngSetupResponse) caller.expected
  | s1ap caller => S1ap.MessageWithin value n caller

end Receiver

/-- The parsers stay in bounds on exactly the messages that fit. -/
theorem staysInBounds_iff_fits (receiver : Receiver) (value : Mem UInt8) (n : Nat) (m : Mem UInt8) :
    receiver.StaysInBounds value n m ↔ receiver.Fits value n := by
  cases receiver with
  | ngap caller =>
      have hrecord : (caller.record m).isSome = decide (caller ≠ .ngSetupResponse) := by
        cases caller <;> rfl
      rw [Receiver.StaysInBounds, Receiver.Fits, Ngap.staysInBounds_analyze, hrecord]
  | s1ap caller => exact S1ap.analysisStaysInBounds_iff

def setupResponseWithUeId : List UInt8 :=
  [0x20, 0x15, 0x00, 0x08] ++ [0x00, 0x00, 0x01] ++ [0x00, 0x0a, 0x00, 0x01, 0x05]

theorem not_staysInBounds : ¬ ∀ (receiver : Receiver) (value : Mem UInt8) (n : Nat) (m : Mem UInt8),
    receiver.StaysInBounds value n m := by
  intro h
  have hmessage := Ngap.staysInBounds_analyze.mp (h (.ngap .ngSetupResponse)
    (Mem.ofList setupResponseWithUeId 0) setupResponseWithUeId.length fun _ => 0)
  have hitems := ((hmessage.2 rfl).2 rfl).2 (Or.inl rfl)
  have hitem := hitems.2 7 (by decide)
  exact absurd hitem.1 (by decide)

end PublicCloudCore.RanEmulator.ParserBounds
