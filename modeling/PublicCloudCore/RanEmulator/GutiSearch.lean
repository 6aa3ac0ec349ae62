import PublicCloudCore.RanEmulator.S1apAnalysis

/-!
# Termination of `analyze_downlink_NAS_Transport`

Every loop of the parser counts, except `while(guti_f)`: it goes on over the elements 0x27 and 0x5e,
ends at 0x50, and looks at any other octet again. A search `FindsGuti` where it comes to 0x50; the
parser returns when each search that it comes to does.
-/

namespace PublicCloudCore.RanEmulator.S1apAnalysis

open Framework Framework.Parser UeRecord

def nextElement (value : Mem UInt8) (p : Nat) : Nat :=
  if value p = 0x27 ∨ value p = 0x5e then p + (value (p + 1)).toNat + 2 else p

def elementAt (value : Mem UInt8) (start k : Nat) : Nat := (nextElement value)^[k] start

def FindsGuti (value : Mem UInt8) (iterations start : Nat) : Prop :=
  ∃ k < iterations, value (elementAt value start k) = 0x50

section

variable {value m : Mem UInt8} {seen : List Nat} {fuel start ret offset k : Nat}

@[simp] theorem elementAt_zero : elementAt value start 0 = start := rfl

theorem elementAt_succ :
    elementAt value start (k + 1) = elementAt value (nextElement value start) k := rfl

theorem elementAt_of_stays (h : nextElement value start = start) :
    elementAt value start k = start :=
  Function.iterate_fixed h k

theorem yields_searchGuti {post : Nat → Mem UInt8 → List Nat → Prop} :
    Yields value (searchGuti fuel start) m seen post ↔
      ∃ k < fuel, value (elementAt value start k) = 0x50 ∧
        post (elementAt value start k + 3) m seen := by
  induction fuel generalizing start with
  | zero => simp [searchGuti]
  | succ fuel ih =>
      rw [searchGuti, yields_bind, yields_load, yields_ite, yields_ite]
      by_cases hskip : value start = 0x27 ∨ value start = 0x5e
      · have hnext : nextElement value start = start + (value (start + 1)).toNat + 2 := if_pos hskip
        have hstart : value start ≠ 0x50 := by
          rcases hskip with h | h <;> rw [h] <;> decide
        rw [if_pos hskip, yields_bind, yields_load, ih, Nat.exists_lt_succ_left]
        simp only [elementAt_succ, hnext, elementAt_zero, hstart, false_and, false_or]
      · have hstays : nextElement value start = start := if_neg hskip
        rw [if_neg hskip]
        simp only [elementAt_of_stays hstays]
        by_cases hguti : value start = 0x50
        · rw [if_pos hguti, yields_bind, yields_load, yields_pure]
          constructor
          · intro h
            exact ⟨0, by omega, hguti, h⟩
          · rintro ⟨_, _, _, h⟩
            exact h
        · rw [if_neg hguti, ih]
          simp only [elementAt_of_stays hstays, hguti, false_and, and_false, exists_false]

theorem FindsGuti.mono {n n' : Nat} (h : FindsGuti value n start) (hn : n ≤ n') :
    FindsGuti value n' start := by
  obtain ⟨k, hk, hguti⟩ := h
  exact ⟨k, by omega, hguti⟩

end

/-! Whether the parser gets to the end of an item: what it checks on its way to the search stands in
front of an arrow. -/

def PdnAddressEnds (value : Mem UInt8) (iterations offset : Nat) : Prop :=
  value (offset + 1) &&& 0x01 ≠ 0 → FindsGuti value iterations (offset + 6)

def BearerContextEnds (value : Mem UInt8) (iterations offset : Nat) : Prop :=
  value offset = activateDefaultEpsBearerContextRequest →
    PdnAddressEnds value iterations (offset + 4 + (value (offset + 3)).toNat)

def AttachAcceptEnds (value : Mem UInt8) (iterations offset : Nat) : Prop :=
  value (offset + 1) &&& 0x0F = 0x07 → BearerContextEnds value iterations (offset + 22)

def ErabEnds (value : Mem UInt8) (iterations offset : Nat) : Prop :=
  word value (offset + 1) = idErabToBeSetupItemCTxtSuReq →
    AttachAcceptEnds value iterations (offset + 19)

/-- The item that starts here. -/
def ItemEnds (value : Mem UInt8) (iterations offset : Nat) : Prop :=
  word value offset = idErabToBeSetupListCTxtSuReq → ErabEnds value iterations (offset + 4)

section

variable {value m : Mem UInt8} {seen : List Nat} {fuel ret offset : Nat} {challenge : Bool}
  {valueLen : UInt8}

theorem yields_analyzePdnAddress :
    (Yields value (analyzePdnAddress fuel ret offset) m seen fun _ _ _ => True) ↔
      PdnAddressEnds value fuel offset := by
  rw [analyzePdnAddress, yields_bind, yields_load, yields_ite, PdnAddressEnds]
  split
  · simp [*]
  · simp [*, setPdnIp, setGuti, yields_searchGuti, FindsGuti]

theorem yields_analyzeBearerContext :
    (Yields value (analyzeBearerContext fuel ret offset) m seen fun _ _ _ => True) ↔
      BearerContextEnds value fuel offset := by
  rw [analyzeBearerContext, yields_bind, yields_load, yields_ite, BearerContextEnds]
  split
  · simp [*]
  · simp_all [yields_analyzePdnAddress]

theorem yields_analyzeAttachAccept :
    (Yields value (analyzeAttachAccept fuel ret offset) m seen fun _ _ _ => True) ↔
      AttachAcceptEnds value fuel offset := by
  rw [analyzeAttachAccept, yields_bind, yields_load, yields_ite, AttachAcceptEnds]
  split
  · simp [*]
  · simp_all [yields_analyzeBearerContext]

theorem yields_analyzeErabToBeSetupList :
    (Yields value (analyzeErabToBeSetupList fuel ret offset) m seen fun _ _ _ => True) ↔
      ErabEnds value fuel offset := by
  rw [analyzeErabToBeSetupList, yields_bind, yields_load16, yields_ite, ErabEnds]
  split
  · simp [*]
  · simp_all [setSpgwIp, yields_analyzeAttachAccept]

theorem yields_analyzeItem {id : Nat} :
    (Yields value (analyzeItem fuel id valueLen ret offset) m seen fun _ _ _ => True) ↔
      (id = idErabToBeSetupListCTxtSuReq → ErabEnds value fuel offset) := by
  by_cases herab : id = idErabToBeSetupListCTxtSuReq
  · subst herab
    simp [analyzeItem, idErabToBeSetupListCTxtSuReq, idMmeUeS1apIe, idUeAggregateMaximumBitrate,
      yields_analyzeErabToBeSetupList]
  · simp only [herab, false_implies, analyzeItem, if_false, yields_ite,
      yields_bind, yields_setMmeS1apId, yields_printBitrate, yields_printValue, yields_glance,
      yields_pure, setSecurityCapabilities, yields_copy, ite_self]

end

def nextItem (value : Mem UInt8) (offset : Nat) : Nat :=
  if word value offset = idNasPdu then offset + 4 else offset + 4 + (value (offset + 3)).toNat

/-- Every item that the loop comes to from here is like that. -/
def EveryItem (value : Mem UInt8) (len iterations : Nat) (P : Nat → Prop) : Nat → Nat → Prop
  | 0, _ => True
  | n + 1, offset => offset < len →
      P offset ∧ (ItemEnds value iterations offset →
        EveryItem value len iterations P n (nextItem value offset))

/-- The accesses of a parser that searches for no longer than the message is long. -/
def accessBound (len : Nat) : Nat := 2 + len * (277 + 2 * len)

/-- The parser on a message of `len` octets. -/
def outcome (value : Mem UInt8) (len fuel : Nat) (challenge : Bool) (record : Option (Mem UInt8)) :
    Prog.Outcome (Touch UInt8) Nat (Option (Mem UInt8)) Nat :=
  (analyzeDownlinkNasTransport len fuel challenge).exec (serve value) record

/-- With as many iterations for each search as the message has octets, the parser returns. -/
def ReturnsInTime (value : Mem UInt8) (len : Nat) : Prop :=
  ∀ challenge m, (∃ ret, (outcome value len len challenge (some m)).result = some ret) ∧
    (outcome value len len challenge (some m)).asked.length ≤ accessBound len

section

variable {value m : Mem UInt8} {seen : List Nat} {len fuel ret offset n : Nat} {challenge : Bool}

theorem yields_analyzeItems_succ (h : offset < len) {post : Nat → Mem UInt8 → List Nat → Prop} :
    Yields value (analyzeItems len fuel challenge (n + 1) ret offset) m seen post ↔
      if word value offset = idNasPdu then
        Yields value (analyzeItems len fuel challenge n
          (retAt value challenge ret (nasTypeAt value (offset + 4))) (offset + 4))
          ((effectAt value (nasTypeAt value (offset + 4))).store challenge m) (seen ++ [offset])
          post
      else
        Yields value (analyzeItem fuel (word value offset) (value (offset + 3)) ret (offset + 4)) m
          (seen ++ [offset]) fun ret m seen =>
            Yields value (analyzeItems len fuel challenge n ret
              (offset + 4 + (value (offset + 3)).toNat)) m seen post := by
  rw [analyzeItems, if_neg (Nat.not_le.mpr h)]
  simp only [yields_bind, yields_observe, yields_load16, yields_glance, yields_load, yields_ite,
    yields_analyzeNasPdu]

theorem yields_analyzeItems_done (h : len ≤ offset) {post : Nat → Mem UInt8 → List Nat → Prop} :
    Yields value (analyzeItems len fuel challenge n ret offset) m seen post ↔ post ret m seen := by
  cases n with
  | zero => rfl
  | succ n => rw [analyzeItems, if_pos h, yields_pure]

theorem yields_analyzeItems :
    (Yields value (analyzeItems len fuel challenge n ret offset) m seen fun _ _ _ => True) ↔
      EveryItem value len fuel (ItemEnds value fuel) n offset := by
  induction n generalizing ret offset m seen with
  | zero => simp [analyzeItems, EveryItem]
  | succ n ih =>
      rw [EveryItem]
      by_cases hlen : len ≤ offset
      · rw [yields_analyzeItems_done hlen]
        exact iff_of_true trivial fun h => absurd hlen (Nat.not_le.mpr h)
      · have hoffset := Nat.not_le.mp hlen
        simp only [yields_analyzeItems_succ hoffset, ih, ItemEnds, hoffset, true_implies, nextItem]
        by_cases hnas : word value offset = idNasPdu
        · simp [hnas, idNasPdu, idErabToBeSetupListCTxtSuReq]
        · rw [if_neg hnas, if_neg hnas, yields_const, yields_analyzeItem]
          exact ⟨fun h => ⟨h.1, fun _ => h.2⟩, fun h => ⟨h.1, h.2 h.1⟩⟩

theorem asksAtMost_skipNetworkName {tag : UInt8} : (skipNetworkName tag offset).AsksAtMost 2 := by
  apply asksAtMost_load.bind (l := 1)
  intro _
  exact asksAtMost_ite asksAtMost_load.bind_pure (Prog.asksAtMost_pure _)

theorem asksAtMost_skipNasHeader : (skipNasHeader offset).AsksAtMost 7 := by
  apply asksAtMost_load.bind (l := 6)
  intro _
  exact asksAtMost_ite (Prog.asksAtMost_pure _)
    (asksAtMost_ite asksAtMost_glance.bind_pure (Prog.asksAtMost_pure _))

theorem asksAtMost_analyzeNasMessage :
    (analyzeNasMessage challenge ret offset).AsksAtMost 35 := by
  have hauthentication : (analyzeAuthenticationRequest challenge ret offset).AsksAtMost 34 :=
    asksAtMost_ite (asksAtMost_copy.bind fun _ => asksAtMost_copy.bind_pure)
      (Prog.asksAtMost_pure _)
  have hcommand : (analyzeSecurityModeCommand offset).AsksAtMost 5 :=
    asksAtMost_load.bind fun _ => asksAtMost_store.bind fun _ => asksAtMost_glance.bind_pure
  have hinformation : (analyzeEmmInformation offset).AsksAtMost 4 :=
    asksAtMost_skipNetworkName.bind fun _ => asksAtMost_skipNetworkName.bind_pure
  apply asksAtMost_load.bind (l := 34)
  intro _
  exact asksAtMost_ite hauthentication (asksAtMost_ite (hcommand.mono (by omega))
    (asksAtMost_ite (hinformation.mono (by omega)) (Prog.asksAtMost_pure _)))

theorem asksAtMost_analyzeNasPdu : (analyzeNasPdu challenge ret offset).AsksAtMost 42 :=
  asksAtMost_skipNasHeader.bind fun _ => asksAtMost_analyzeNasMessage

theorem asksAtMost_searchGuti : (searchGuti fuel offset).AsksAtMost (2 * fuel) := by
  induction fuel generalizing offset with
  | zero => trivial
  | succ fuel ih =>
      have hnext : ∀ next : UInt8 → Nat,
          (load (offset + 1) >>= fun length => searchGuti fuel (next length)).AsksAtMost
            (1 + 2 * fuel) := fun _ => asksAtMost_load.bind fun _ => ih
      rw [show 2 * (fuel + 1) = 1 + (1 + 2 * fuel) by omega, searchGuti]
      apply asksAtMost_load.bind
      intro _
      exact asksAtMost_ite (hnext _) (asksAtMost_ite
        (asksAtMost_load.bind_pure.mono (by omega)) (ih.mono (by omega)))

theorem asksAtMost_analyzePdnAddress :
    (analyzePdnAddress fuel ret offset).AsksAtMost (17 + 2 * fuel) := by
  have haddress : ∀ guti : Nat → UeParser Nat, (∀ p, (guti p).AsksAtMost 11) →
      (setPdnIp (offset + 2) >>= fun _ => searchGuti fuel (offset + 6) >>= guti).AsksAtMost
        (5 + (2 * fuel + 11)) :=
    fun _ h => asksAtMost_copy.bind fun _ => asksAtMost_searchGuti.bind h
  rw [show 17 + 2 * fuel = 1 + (5 + (2 * fuel + 11)) by omega]
  apply asksAtMost_load.bind
  intro _
  exact asksAtMost_ite (Prog.asksAtMost_pure _) (haddress _ fun _ => asksAtMost_copy.bind_pure)

theorem asksAtMost_analyzeBearerContext :
    (analyzeBearerContext fuel ret offset).AsksAtMost (53 + 2 * fuel) := by
  have hname : ∀ (length : UInt8) (address : UeParser Nat), address.AsksAtMost (17 + 2 * fuel) →
      (setApnName (offset + 4) length >>= fun _ => address).AsksAtMost (33 + (17 + 2 * fuel)) :=
    fun length _ h => (asksAtMost_setApnName length).bind fun _ => h
  apply (asksAtMost_load.bind (l := 52 + 2 * fuel) ?_).mono (by omega)
  intro _
  apply asksAtMost_ite (Prog.asksAtMost_pure _)
  apply (asksAtMost_glance.bind fun _ => asksAtMost_load.bind fun length =>
    hname length _ asksAtMost_analyzePdnAddress).mono
  omega

theorem asksAtMost_analyzeErabToBeSetupList :
    (analyzeErabToBeSetupList fuel ret offset).AsksAtMost (68 + 2 * fuel) := by
  have haccept : ∀ offset, (analyzeAttachAccept fuel ret offset).AsksAtMost (55 + 2 * fuel) := by
    intro offset
    apply (asksAtMost_load.bind (l := 54 + 2 * fuel) ?_).mono (by omega)
    intro _
    apply asksAtMost_ite (Prog.asksAtMost_pure _)
    exact (asksAtMost_glance.bind fun _ => asksAtMost_analyzeBearerContext).mono (by omega)
  apply (asksAtMost_load16.bind (l := 66 + 2 * fuel) ?_).mono (by omega)
  intro _
  apply asksAtMost_ite (Prog.asksAtMost_pure _)
  apply (asksAtMost_glance.bind fun _ => asksAtMost_copy.bind fun _ =>
    asksAtMost_load32.bind fun _ => asksAtMost_store.bind fun _ => haccept _).mono
  omega

theorem asksAtMost_analyzeItem {id : Nat} {valueLen : UInt8} :
    (analyzeItem fuel id valueLen ret offset).AsksAtMost (273 + 2 * fuel) := by
  have hprint : (printValue valueLen offset).AsksAtMost 16 :=
    asksAtMost_glance.bind_pure.mono (by omega)
  have hbitrate : ∀ tag offset, (printBitrate tag offset).AsksAtMost 5 := fun _ _ =>
    asksAtMost_load.bind fun _ => asksAtMost_ite asksAtMost_glance (Prog.asksAtMost_pure _)
  have hmme : (setMmeS1apId offset valueLen >>= fun _ => printValue valueLen offset).AsksAtMost
      (257 + 16) := (asksAtMost_setMmeS1apId valueLen).bind fun _ => hprint
  have hrates := (hbitrate 0x18 offset).bind fun _ =>
    (hbitrate 0x60 (offset + 5)).bind_pure (f := fun _ => 0)
  apply asksAtMost_ite (hmme.mono (by omega))
  apply asksAtMost_ite (hrates.mono (by omega))
  apply asksAtMost_ite (asksAtMost_analyzeErabToBeSetupList.mono (by omega))
  apply asksAtMost_ite (asksAtMost_copy.bind_pure.mono (by omega))
  apply asksAtMost_ite (asksAtMost_glance.bind_pure.mono (by omega))
  apply asksAtMost_ite (asksAtMost_glance.bind_pure.mono (by omega))
  apply asksAtMost_ite (asksAtMost_glance.bind_pure.mono (by omega))
  exact hprint.mono (by omega)

theorem asksAtMost_analyzeItems :
    (analyzeItems len fuel challenge n ret offset).AsksAtMost
      ((len - offset) * (277 + 2 * fuel)) := by
  induction n generalizing ret offset with
  | zero => trivial
  | succ n ih =>
      rw [analyzeItems]
      by_cases hlen : len ≤ offset
      · rw [if_pos hlen]
        trivial
      · have hsplit : (len - offset) * (277 + 2 * fuel) =
            (len - offset - 1) * (277 + 2 * fuel) + (277 + 2 * fuel) := by
          rw [← Nat.succ_mul, show (len - offset - 1).succ = len - offset by omega]
        have hstep : ∀ ret p, offset + 4 ≤ p →
            (analyzeItems len fuel challenge n ret p).AsksAtMost
              ((len - offset - 1) * (277 + 2 * fuel)) :=
          fun _ _ hp => ih.mono (Nat.mul_le_mul_right _ (by omega))
        rw [if_neg hlen, hsplit]
        generalize (len - offset - 1) * (277 + 2 * fuel) = rest at hstep
        have hnas : (analyzeNasPdu challenge ret (offset + 4) >>= fun ret =>
            analyzeItems len fuel challenge n ret (offset + 4)).AsksAtMost (42 + rest) :=
          asksAtMost_analyzeNasPdu.bind fun ret => hstep ret (offset + 4) (by omega)
        have hitem : ∀ id valueLen, (analyzeItem fuel id valueLen ret (offset + 4) >>= fun ret =>
            analyzeItems len fuel challenge n ret (offset + 4 + valueLen.toNat)).AsksAtMost
              (273 + 2 * fuel + rest) :=
          fun id valueLen => asksAtMost_analyzeItem.bind fun ret => hstep ret _ (by omega)
        apply ((Prog.asksAtMost_observe (n := 0) offset).bind fun _ => asksAtMost_load16.bind
          fun id => asksAtMost_glance.bind fun _ => asksAtMost_load.bind fun valueLen =>
            asksAtMost_ite (hnas.mono (by omega)) (hitem id valueLen)).mono
        omega

theorem asksAtMost_analyzeDownlinkNasTransport :
    (analyzeDownlinkNasTransport len len challenge).AsksAtMost (accessBound len) := by
  apply asksAtMost_load16.bind
  intro _
  exact asksAtMost_analyzeItems.mono (Nat.mul_le_mul_right _ (by omega))

theorem exists_result_outcome :
    (∃ ret, (outcome value len fuel challenge (some m)).result = some ret) ↔
      EveryItem value len fuel (ItemEnds value fuel) (word value 1) 3 := by
  simp only [outcome]
  rw [exists_result_iff, analyzeDownlinkNasTransport, yields_bind, yields_load16,
    yields_analyzeItems]

end

/-- The parser returns within its bound exactly if every search that it comes to finds the GUTI
behind no more elements than the message has octets. -/
theorem returnsInTime_iff (value : Mem UInt8) (len : Nat) :
    ReturnsInTime value len ↔ EveryItem value len len (ItemEnds value len) (word value 1) 3 := by
  constructor
  · intro h
    exact exists_result_outcome.mp (h true fun _ => 0).1
  · intro h challenge m
    exact ⟨exists_result_outcome.mpr h, asksAtMost_analyzeDownlinkNasTransport.exec _ _⟩

/-- An E-RAB to be set up whose bearer context has an ESM cause, 0x58, behind the PDN address. -/
def acceptWithEsmCause : List UInt8 :=
  [0x00, 0x00, 0x01] ++ [0x00, 0x18, 0x00, 0x43] ++ [0x00, 0x00, 0x34, 0x00, 0x3e] ++
    [0x45, 0x00, 0x09, 0x3c, 0x0f, 0x80] ++ [10, 0, 0, 1] ++ [0, 0, 0, 1] ++
    [0x2f, 0x27, 0x01, 0x02, 0x03, 0x04, 0x01, 0x07, 0x42, 0x01, 0x49] ++
    [0x06, 0x00, 0x00, 0xf1, 0x10, 0x00, 0x01] ++ [0x00, 0x0f, 0x52, 0x01, 0xc1, 0x01, 0x09] ++
    [0x01, 0x00] ++ [0x05, 0x01, 192, 172, 0, 1] ++ [0x58, 0x32] ++
    [0x50, 0x0b, 0xf6, 0x00, 0xf1, 0x10, 0x00, 0x01, 0x01, 0x00, 0x00, 0x00, 0x01]

/-- No number of iterations is enough. -/
theorem acceptWithEsmCause_hangs (fuel : Nat) (challenge : Bool) (m : Mem UInt8) :
    (outcome (Mem.ofList acceptWithEsmCause 0) acceptWithEsmCause.length fuel challenge
      (some m)).result = none := by
  by_contra h
  have hitems := exists_result_outcome.mp (Option.ne_none_iff_exists'.mp h)
  have hcount : word (Mem.ofList acceptWithEsmCause 0) 1 = 0 + 1 := by decide
  rw [hcount] at hitems
  obtain ⟨k, _, hguti⟩ := (hitems (by decide)).1 (by decide) (by decide) (by decide) (by decide)
    (by decide)
  rw [elementAt_of_stays (by decide)] at hguti
  exact absurd hguti (by decide)

theorem not_returnsInTime :
    ¬ ∀ (value : Mem UInt8) (len : Nat), ReturnsInTime value len := by
  intro h
  obtain ⟨⟨ret, hret⟩, _⟩ := h (Mem.ofList acceptWithEsmCause 0) acceptWithEsmCause.length true
    fun _ => 0
  rw [acceptWithEsmCause_hangs] at hret
  cases hret

end PublicCloudCore.RanEmulator.S1apAnalysis
