import PublicCloudCore.RanEmulator.EnbEmulator

/-!
# Safety of the eNB's message handler

Attach, idle, connected and detach messages find their UE through `idlemsg`, and in the 4G build a
missing UE reaches procedures that check for NULL. The handover messages set `homsg` and look the
UE up through `idlemsg`, which is still NULL, so that the first comparison reads through it.
-/

namespace PublicCloudCore.RanEmulator.EnbEmulator

open Framework

/-- The attach, idle, connected and detach messages of a UE that has been initialised. -/
def isStateMessage (code : UInt8) : Bool :=
  [moveToIdle, ueDetach, ueSwitchOffDetach, ueAttach, moveToConnected].contains code

def isHandover (code : UInt8) : Bool :=
  [hoSetup, hoRequest, ueTransfer, ueS1Handover].contains code

/-- The first UE of the list with the MSIN that the message carries behind its code. -/
def listed (buffer : Mem UInt8) (list : List UE) : Option Nat :=
  list.findIdx? fun ue => ue.msinString.take 10 == buffer.read 1 10

/-- The error response of a message: its code without `OK_CODE`, or `X2_ERROR` for a handover. -/
def errorResponse (code : UInt8) : List UInt8 := if isHandover code then [x2Error] else [code]

/-- The message is handled without a fault; if the MSIN it names is not listed it is refused and
the list stays, and a handover works on the UE that it names. -/
def HandledSafely (build : Build) (env : Surroundings) (buffer : Mem UInt8) (list : List UE) :
    Prop :=
  ∃ r, analyzeUeMsg build env buffer list = some r ∧
    (isStateMessage (buffer 0) ∨ isHandover (buffer 0) → listed buffer list = none →
      r.ret = 1 ∧ r.response = some (errorResponse (buffer 0)) ∧ r.handled.list = list) ∧
    (isHandover (buffer 0) → ∀ i, listed buffer list = some i →
      ∀ u ∈ r.handled.subjects, list[i]? = some u)

section Lookup

theorem peekElem_null (list : List UE) :
    peekElem list none = if list = [] then some none else none := by
  cases list with
  | nil => rfl
  | cons ue list => simp [peekElem, ueCompare]

theorem peekElem_msin (list : List UE) (buffer : Mem UInt8) :
    peekElem list (some (buffer.shift 1)) = some (listed buffer list) := by
  induction list with
  | nil => rfl
  | cons ue list ih =>
    rw [peekElem, listed, List.findIdx?_cons, ih, ueCompare, Mem.read_shift]
    by_cases h : ue.msinString.take 10 == buffer.read 1 10
    · simp only [h, if_true]; rfl
    · simp only [h, Bool.false_eq_true, if_false]; rfl

theorem getElem?_of_listed {buffer : Mem UInt8} {list : List UE} {i : Nat}
    (h : listed buffer list = some i) : ∃ ue, list[i]? = some ue := by
  have hi := (List.findIdx?_eq_some_iff_getElem.mp h).choose
  exact ⟨list[i], List.getElem?_eq_getElem hi⟩

end Lookup

section Procedures

variable (env : Surroundings) (p : Procedure) (list : List UE)

theorem callProcedure_null : callProcedure env p list none =
    if p.checksNull then some (true, ⟨list, []⟩) else none := rfl

theorem callProcedure_listed {i : Nat} {ue : UE} (h : list[i]? = some ue) :
    ∃ err h' u, callProcedure env p list (some i) = some (err, h') ∧
      deref h'.list (some i) = some u := by
  have hi : i < list.length := (List.getElem?_eq_some_iff.mp h).choose
  refine ⟨(runProcedure env p ue).1, ⟨list.set i (runProcedure env p ue).2, [ue]⟩,
    (runProcedure env p ue).2, ?_, ?_⟩
  · simp [callProcedure, h]
  · simp [deref, hi]

end Procedures

section StateMessages

variable (build : Build) (env : Surroundings) (buffer : Mem UInt8) (list : List UE)

/-- What is asked of the answer to a message that finds its UE through `idlemsg`. -/
def Answers (answer : Option Reply) : Prop :=
  ∃ r, answer = some r ∧ (listed buffer list = none →
    r.ret = 1 ∧ r.response = some [buffer 0] ∧ r.handled.list = list)

theorem handleInit_total : ∃ r, handleInit build env buffer list = some r := by
  rw [handleInit]
  generalize initUE _ _ _ _ _ _ _ = ue
  have hlast : (list ++ [ue])[list.length]? = some ue := by simp
  obtain ⟨err, h', u, hcall, hu⟩ :=
    callProcedure_listed env (attachProcedure build) (list ++ [ue]) hlast
  cases err <;> simp [hcall, hu]

/-- A handler that runs a procedure on the UE it finds, and then has an answer for a listed UE,
answers unless the procedure uses a NULL UE. -/
theorem answers_call_iff (p : Procedure) (code : UInt8) (next : Handled → Option Reply)
    (hcode : p.checksNull = true → code = buffer 0)
    (hnext : ∀ h i u, listed buffer list = some i → deref h.list (some i) = some u →
      ∃ r, next h = some r) :
    Answers buffer list (do
      let (err, h) ← callProcedure env p list (listed buffer list)
      if err then some (errorReply code h) else next h) ↔
      (p.checksNull = false → (listed buffer list).isSome) := by
  cases hl : listed buffer list with
  | none =>
    cases hp : p.checksNull with
    | true => simp [Answers, callProcedure_null, hp, errorReply, hcode hp]
    | false => simp [Answers, callProcedure_null, hp]
  | some i =>
    obtain ⟨ue, hi⟩ := getElem?_of_listed hl
    obtain ⟨err, h, u, hcall, hu⟩ := callProcedure_listed env p list hi
    obtain ⟨r, hr⟩ := hnext h i u hl hu
    cases err with
    | true => simp [Answers, hl, hcall]
    | false => simp [Answers, hl, hcall, hr]

theorem handleMoveToIdle_answers_iff :
    Answers buffer list (handleMoveToIdle build env buffer list) ↔
      (build = .fiveG → (listed buffer list).isSome) := by
  rw [handleMoveToIdle, peekElem_msin]
  cases build with
  | fourG =>
    have hcall := answers_call_iff env buffer list .ueContextRelease (buffer 0)
      (fun h => some ⟨0, some [okCode ||| buffer 0], h⟩) (fun _ => rfl)
      (fun h _ _ _ _ => ⟨_, rfl⟩)
    exact hcall.trans (by simp [Procedure.checksNull])
  | fiveG => cases hl : listed buffer list <;> simp [Answers, hl]

theorem handleDetach_answers_iff :
    Answers buffer list (handleDetach build env buffer list) ↔
      (build = .fiveG → (listed buffer list).isSome) := by
  rw [handleDetach, peekElem_msin]
  cases build with
  | fourG =>
    have hcall := answers_call_iff env buffer list (.ueDetach (buffer 0 &&& ueSwitchOffDetach))
      (buffer 0) (fun h => some ⟨0, some [okCode ||| buffer 0], h⟩) (fun _ => rfl)
      (fun h _ _ _ _ => ⟨_, rfl⟩)
    exact hcall.trans (by simp [Procedure.checksNull])
  | fiveG =>
    have hcall := answers_call_iff env buffer list
      (.deregistrationRequest (buffer 0 &&& ueSwitchOffDetach)) 0
      (fun h => some ⟨0, some [okCode ||| buffer 0], h⟩) nofun (fun h _ _ _ _ => ⟨_, rfl⟩)
    exact hcall.trans (by simp [Procedure.checksNull])

theorem handleAttach_answers_iff :
    Answers buffer list (handleAttach build env buffer list) ↔
      (build = .fiveG → (listed buffer list).isSome) := by
  rw [handleAttach, peekElem_msin]
  have hcall := answers_call_iff env buffer list (attachProcedure build) (buffer 0)
    (fun h => do
      let u ← deref h.list (listed buffer list)
      some ⟨0, some (initResponse (buffer 0) u), h⟩) (fun _ => rfl) ?_
  · exact hcall.trans (by cases build <;> simp [attachProcedure, Procedure.checksNull])
  · intro h i u hl hu
    rw [hl, hu]
    exact ⟨_, rfl⟩

theorem handleMoveToConnected_answers_iff :
    Answers buffer list (handleMoveToConnected build env buffer list) ↔
      (build = .fiveG → (listed buffer list).isSome) := by
  rw [handleMoveToConnected, peekElem_msin]
  cases build with
  | fourG =>
    have hcall := answers_call_iff env buffer list .ueServiceRequest (buffer 0)
      (fun h => do
        let u ← deref h.list (listed buffer list)
        some ⟨0, some (idleResponse (buffer 0) u), h⟩) (fun _ => rfl) ?_
    · exact hcall.trans (by simp [Procedure.checksNull])
    · intro h i u hl hu
      rw [hl, hu]
      exact ⟨_, rfl⟩
  | fiveG =>
    cases hl : listed buffer list with
    | none => simp [Answers, deref]
    | some i =>
      obtain ⟨ue, hi⟩ := getElem?_of_listed hl
      simp [Answers, hl, deref, hi]

end StateMessages

section Handover

variable (env : Surroundings) (buffer : Mem UInt8) (list : List UE)

/-- Whoever looks a UE up through the NULL `idlemsg` goes on only where the list is empty. -/
theorem peekElem_null_bind {next : Option Nat → Option Reply}
    (hnext : next none = some (errorReply x2Error ⟨list, []⟩)) :
    (do
      let ue ← peekElem list none
      next ue) = if list = [] then some (errorReply x2Error ⟨[], []⟩) else none := by
  rw [peekElem_null]
  split
  · next hl =>
    subst hl
    exact hnext
  · rfl

theorem handleTransfer_eq : handleTransfer env buffer list =
    if list = [] then some (errorReply x2Error ⟨[], []⟩) else none :=
  peekElem_null_bind list rfl

theorem handleHoRequest_eq : handleHoRequest env list =
    if list = [] then some (errorReply x2Error ⟨[], []⟩) else none :=
  peekElem_null_bind list rfl

theorem handleS1Handover_eq : handleS1Handover env buffer list =
    if list = [] then some (errorReply x2Error ⟨[], []⟩) else none :=
  peekElem_null_bind list rfl

end Handover

theorem analyzeUeMsg_stateMessage (build : Build) (env : Surroundings) (buffer : Mem UInt8)
    (list : List UE) (h : isStateMessage (buffer 0)) :
    Answers buffer list (analyzeUeMsg build env buffer list) ↔
      (build = .fiveG → (listed buffer list).isSome) := by
  have hc : buffer 0 = moveToIdle ∨ (buffer 0 = ueDetach ∨ buffer 0 = ueSwitchOffDetach) ∨
      buffer 0 = ueAttach ∨ buffer 0 = moveToConnected := by
    simpa [isStateMessage, or_assoc] using h
  rcases hc with hc | (hc | hc) | hc | hc
  · simpa [analyzeUeMsg, hc, initCode, moveToIdle] using
      handleMoveToIdle_answers_iff build env buffer list
  · simpa [analyzeUeMsg, hc, initCode, moveToIdle, ueDetach] using
      handleDetach_answers_iff build env buffer list
  · simpa [analyzeUeMsg, hc, initCode, moveToIdle, ueDetach, ueSwitchOffDetach] using
      handleDetach_answers_iff build env buffer list
  · simpa [analyzeUeMsg, hc, initCode, moveToIdle, ueDetach, ueSwitchOffDetach, ueAttach] using
      handleAttach_answers_iff build env buffer list
  · simpa [analyzeUeMsg, hc, initCode, moveToIdle, ueDetach, ueSwitchOffDetach, ueAttach,
      moveToConnected] using handleMoveToConnected_answers_iff build env buffer list

theorem analyzeUeMsg_handover (build : Build) (env : Surroundings) (buffer : Mem UInt8)
    (list : List UE) (h : isHandover (buffer 0)) : analyzeUeMsg build env buffer list =
      if list = [] then some (errorReply x2Error ⟨[], []⟩) else none := by
  have hc : buffer 0 = hoSetup ∨ buffer 0 = hoRequest ∨ buffer 0 = ueTransfer ∨
      buffer 0 = ueS1Handover := by simpa [isHandover] using h
  rcases hc with hc | hc | hc | hc
  · rw [← handleTransfer_eq env buffer list]
    simp [analyzeUeMsg, hc, initCode, moveToIdle, ueDetach, ueSwitchOffDetach, ueAttach,
      moveToConnected, hoSetup]
  · rw [← handleHoRequest_eq env list]
    simp [analyzeUeMsg, hc, initCode, moveToIdle, ueDetach, ueSwitchOffDetach, ueAttach,
      moveToConnected, hoSetup, hoRequest]
  · rw [← handleTransfer_eq env buffer list]
    simp [analyzeUeMsg, hc, initCode, moveToIdle, ueDetach, ueSwitchOffDetach, ueAttach,
      moveToConnected, hoSetup, hoRequest, ueTransfer]
  · rw [← handleS1Handover_eq env buffer list]
    simp [analyzeUeMsg, hc, initCode, moveToIdle, ueDetach, ueSwitchOffDetach, ueAttach,
      moveToConnected, hoSetup, hoRequest, ueTransfer, ueS1Handover]

theorem analyzeUeMsg_total (build : Build) (env : Surroundings) (buffer : Mem UInt8)
    (list : List UE) (hs : ¬isStateMessage (buffer 0)) (hh : ¬isHandover (buffer 0)) :
    ∃ r, analyzeUeMsg build env buffer list = some r := by
  simp only [isStateMessage, isHandover, List.contains_iff_mem, List.mem_cons, List.not_mem_nil,
    or_false, not_or] at hs hh
  simp only [analyzeUeMsg, hs, hh, or_self, if_false]
  split
  · exact handleInit_total build env buffer list
  · split
    · exact ⟨_, rfl⟩
    · exact ⟨_, rfl⟩

/-- A message is handled safely exactly when it is no handover in an eNB that serves a UE, and no
state message of an unlisted UE in the 5G build. -/
theorem handledSafely_iff (build : Build) (env : Surroundings) (buffer : Mem UInt8)
    (list : List UE) : HandledSafely build env buffer list ↔
      (isHandover (buffer 0) → list = []) ∧
      (isStateMessage (buffer 0) → build = .fiveG → (listed buffer list).isSome) := by
  by_cases hh : isHandover (buffer 0)
  · have hs : ¬isStateMessage (buffer 0) := by
      simp only [isHandover, List.contains_iff_mem, List.mem_cons, List.not_mem_nil, or_false] at hh
      rcases hh with hh | hh | hh | hh <;> rw [hh] <;> decide
    simp only [HandledSafely, analyzeUeMsg_handover build env buffer list hh, hh, hs, errorResponse]
    by_cases hl : list = []
    · subst hl
      simp [errorReply, listed]
    · simp [hl]
  · by_cases hs : isStateMessage (buffer 0)
    · simpa [HandledSafely, Answers, hh, hs, errorResponse] using
        analyzeUeMsg_stateMessage build env buffer list hs
    · simpa [HandledSafely, hh, hs] using analyzeUeMsg_total build env buffer list hs hh

/-- A handover of the only UE of an eNB reads through the NULL `idlemsg`. -/
theorem not_handledSafely_handover :
    ¬∀ build env buffer list, HandledSafely build env buffer list := by
  intro h
  obtain ⟨r, hr, -⟩ := h .fourG
    ⟨fun _ ue => (false, ue), UE.ofBuffer fun _ => 0, true, true, true, true, none, none⟩
    (fun i => if i = 0 then hoSetup else 0) [UE.ofBuffer fun _ => 0]
  cases hr

end PublicCloudCore.RanEmulator.EnbEmulator
