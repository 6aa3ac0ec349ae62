import PublicCloudCore.RanEmulator.EnbSafety
import PublicCloudCore.RanEmulator.EnbThreads

/-!
# The records of the eNB

What a round of the threads can change: the record that a message is for, the end of the list and
the blocks. A record in a block of its own is safe from all later traffic, and one in a receive
buffer is not.
-/

namespace PublicCloudCore.RanEmulator.EnbThreads

open Framework EnbEmulator

/-- `s'` is `s` except for the memory at a pointer, the response and what the client gets. -/
structure Frame (ue : Option Place) (s s' : Emulator) : Prop where
  list : s'.list = s.list
  live : s'.live = s.live
  memory : ∀ place, ue ≠ some place → s'.memory place = s.memory place

section StateMessages

variable {build : Build} {ans : Answers} {s s' : Emulator} {r : Reply}

theorem Frame.refl (ue : Option Place) (s : Emulator) : Frame ue s s :=
  ⟨rfl, rfl, fun _ _ => rfl⟩

theorem Frame.store {place : Place} (m : Mem UInt8) : Frame (some place) s (s.store place m) where
  list := rfl
  live := rfl
  memory other h := Function.update_of_ne (fun he => h (by rw [he])) _ _

theorem reply_eq_some {ret : Nat} {response : List UInt8} (h : reply ret response s = some r) :
    r.state = s := by
  cases h
  rfl

theorem callProcedure_frame {p : Procedure} {ue : Option Place} {err : Bool}
    (h : callProcedure ans p s ue = some (err, s')) : Frame ue s s' := by
  cases ue with
  | none =>
      rw [callProcedure] at h
      split at h
      · cases h
        exact .refl _ _
      · cases h
  | some place =>
      rw [callProcedure] at h
      split at h
      · cases h
        exact .refl _ _
      · cases h
        exact .store _

theorem peekElem_eq_some {list : List (Option Place)} {key : Option (Mem UInt8)} {place : Place}
    (h : s.peekElem list key = some (some place)) : some place ∈ list ∧ s.isLive place ∧
      ∃ digits, key = some digits ∧ (s.memory place).read 17 10 = digits.read 0 10 := by
  induction list with
  | nil => cases h
  | cons ue list ih =>
      rw [Emulator.peekElem] at h
      obtain ⟨record, hrecord, h⟩ := Option.bind_eq_some_iff.mp h
      obtain ⟨digits, hdigits, h⟩ := Option.bind_eq_some_iff.mp h
      split at h
      · next heq =>
          cases h
          rw [Emulator.load] at hrecord
          split at hrecord
          · next hlive =>
              cases hrecord
              exact ⟨List.mem_cons_self, hlive, digits, hdigits, by simpa using heq⟩
          · cases hrecord
      · obtain ⟨hmem, hrest⟩ := ih h
        exact ⟨List.mem_cons_of_mem _ hmem, hrest⟩

theorem callThen_frame {p : Procedure} {ue : Option Place}
    {failed done : Emulator → Option Reply} (hfailed : ∀ s r, failed s = some r → r.state = s)
    (hdone : ∀ s r, done s = some r → r.state = s)
    (h : callThen ans p s ue failed done = some r) : Frame ue s r.state := by
  obtain ⟨⟨err, s'⟩, hcall, h⟩ := Option.bind_eq_some_iff.mp h
  have hs' : r.state = s' := by
    cases err with
    | true => exact hfailed s' r h
    | false => exact hdone s' r h
  rw [hs']
  exact callProcedure_frame hcall

theorem refuse_state (s : Emulator) (r : Reply) (h : refuse s = some r) : r.state = s :=
  reply_eq_some h

theorem confirm_state (s : Emulator) (r : Reply) (h : confirm s = some r) : r.state = s :=
  reply_eq_some h

theorem describe_state {response : UInt8 → UE → List UInt8} {ue : Option Place} (s : Emulator)
    (r : Reply) (h : describe response ue s = some r) : r.state = s := by
  obtain ⟨u, -, h⟩ := Option.bind_eq_some_iff.mp h
  exact reply_eq_some h

def WorksOnPeeked (s : Emulator) (answer : Option Reply) : Prop :=
  ∀ r, answer = some r → ∃ ue, s.peekElem s.list (msinKey s) = some ue ∧ Frame ue s r.state

theorem handleMoveToIdle_frame : WorksOnPeeked s (handleMoveToIdle build ans s) := by
  intro r h
  obtain ⟨ue, hue, h⟩ := Option.bind_eq_some_iff.mp h
  refine ⟨ue, hue, ?_⟩
  cases build with
  | fiveG =>
      rw [confirm_state s r h]
      exact .refl _ _
  | fourG => exact callThen_frame refuse_state confirm_state h

theorem handleDetach_frame : WorksOnPeeked s (handleDetach build ans s) := by
  intro r h
  obtain ⟨ue, hue, h⟩ := Option.bind_eq_some_iff.mp h
  refine ⟨ue, hue, ?_⟩
  cases build with
  | fiveG => exact callThen_frame (fun _ _ => reply_eq_some) confirm_state h
  | fourG => exact callThen_frame refuse_state confirm_state h

theorem handleAttach_frame : WorksOnPeeked s (handleAttach build ans s) := by
  intro r h
  obtain ⟨ue, hue, h⟩ := Option.bind_eq_some_iff.mp h
  exact ⟨ue, hue, callThen_frame refuse_state describe_state h⟩

theorem handleMoveToConnected_frame : WorksOnPeeked s (handleMoveToConnected build ans s) := by
  intro r h
  obtain ⟨ue, hue, h⟩ := Option.bind_eq_some_iff.mp h
  refine ⟨ue, hue, ?_⟩
  cases build with
  | fiveG =>
      rw [describe_state s r h]
      exact .refl _ _
  | fourG => exact callThen_frame refuse_state describe_state h

theorem handleHandover_frame (h : handleHandover s = some r) : Frame none s r.state := by
  rw [handleHandover] at h
  split at h
  · rw [reply_eq_some h]
    exact .refl _ _
  · cases h

end StateMessages

section Dispatch

variable {build : Build} {ans : Answers} {s s' : Emulator} {r : Reply}

/-- What `analyze_ue_msg` does when it returns. -/
inductive Handles (build : Build) (ans : Answers) (s : Emulator) (r : Reply) : Prop
  | init : s.code = initCode → handleInit build ans s = some r → Handles build ans s r
  | state (ue : Option Place) : isStateMessage s.code → s.peekElem s.list (msinKey s) = some ue →
      Frame ue s r.state → Handles build ans s r
  | sync : s.code = s1Sync → 
      r.state = (if ans.node then s.addElem (some .enbBuffer) else s) →
      Handles build ans s r
  | nothing : s.code ≠ initCode → ¬isStateMessage s.code → s.code ≠ s1Sync → Frame none s r.state →
      Handles build ans s r

theorem Handles.of_worksOnPeeked {answer : Option Reply} (h : WorksOnPeeked s answer)
    (hcode : isStateMessage s.code) (hr : answer = some r) : Handles build ans s r := by
  obtain ⟨ue, hue, hframe⟩ := h r hr
  exact .state ue hcode hue hframe

theorem Handles.of_handover (hcode : isHandover s.code) (h : handleHandover s = some r) :
    Handles build ans s r := by
  have hc : s.code = hoSetup ∨ s.code = hoRequest ∨ s.code = ueTransfer ∨ s.code = ueS1Handover :=
    by simpa [isHandover] using hcode
  have hother : s.code ≠ initCode ∧ ¬isStateMessage s.code ∧ s.code ≠ s1Sync := by
    rcases hc with hc | hc | hc | hc <;> rw [hc] <;> decide
  exact .nothing hother.1 hother.2.1 hother.2.2 (handleHandover_frame h)

theorem handles_of_analyzeUeMsg (h : analyzeUeMsg build ans s = some r) :
    Handles build ans s r := by
  rw [analyzeUeMsg] at h
  split at h
  · next hc => exact .init hc h
  split at h
  · next hc => exact .of_worksOnPeeked handleMoveToIdle_frame (by rw [hc]; decide) h
  split at h
  · next hc =>
      refine .of_worksOnPeeked handleDetach_frame ?_ h
      rcases hc with hc | hc <;> rw [hc] <;> decide
  split at h
  · next hc => exact .of_worksOnPeeked handleAttach_frame (by rw [hc]; decide) h
  split at h
  · next hc => exact .of_worksOnPeeked handleMoveToConnected_frame (by rw [hc]; decide) h
  split at h
  · next hc => exact .of_handover (by rw [hc]; decide) h
  split at h
  · next hc => exact .of_handover (by rw [hc]; decide) h
  split at h
  · next hc => exact .of_handover (by rw [hc]; decide) h
  split at h
  · next hc => exact .of_handover (by rw [hc]; decide) h
  split at h
  · next hc =>
      cases h
      exact .sync hc rfl
  · next h₁ h₂ h₃ h₄ h₅ _ _ _ _ h₁₀ =>
      cases h
      refine .nothing h₁ ?_ h₁₀ (.refl _ _)
      simp only [isStateMessage, List.contains_iff_mem, List.mem_cons, List.not_mem_nil, or_false]
      tauto

end Dispatch

section Init

variable {build : Build} {ans : Answers} {s : Emulator} {r : Reply}

/-- What `init_UE` makes of the message in the buffer. -/
def Emulator.newRecord (s : Emulator) (ans : Answers) : Mem UInt8 :=
  initMsgRecord ans.content ((terminateStrings (s.memory .enbBuffer)).shift 1)

/-- What the attach procedure returns on a record and what it leaves there. -/
def attach (build : Build) (ans : Answers) (record : Mem UInt8) : Bool × Mem UInt8 :=
  let (err, record') := ans.procedure (attachProcedure build) record
  (err, record.write 0 (record'.read 0 ueSize))

/-- The attach procedure of an `INIT` returns an error. -/
def initFails (build : Build) (ans : Answers) (s : Emulator) : Bool :=
  match ans.block with
  | none => true
  | some _ => (attach build ans (s.newRecord ans)).1

section InitUE

theorem initUE_none (hblock : ans.block = none) :
    s.initUE ans = s.store .enbBuffer (terminateStrings (s.memory .enbBuffer)) := by
  simp only [Emulator.initUE, hblock]

theorem initUE_some {n : Nat} (hblock : ans.block = some n) :
    s.initUE ans =
      { (s.store .enbBuffer (terminateStrings (s.memory .enbBuffer))).store (.block n)
          (s.newRecord ans) with live := n :: s.live } := by
  simp only [Emulator.initUE, hblock]
  rfl

theorem initUE_list (s : Emulator) (ans : Answers) : (s.initUE ans).list = s.list := by
  cases hblock : ans.block with
  | none =>
      rw [initUE_none hblock]
      rfl
  | some n =>
      rw [initUE_some hblock]
      rfl

theorem initUE_live (s : Emulator) (ans : Answers) :
    (s.initUE ans).live = ans.block.toList ++ s.live := by
  cases hblock : ans.block with
  | none =>
      rw [initUE_none hblock]
      rfl
  | some n =>
      rw [initUE_some hblock]
      rfl

theorem initUE_memory (s : Emulator) (ans : Answers) {place : Place}
    (hbuffer : place ≠ .enbBuffer) (hother : ∀ n ∈ ans.block, place ≠ .block n) :
    (s.initUE ans).memory place = s.memory place := by
  cases hblock : ans.block with
  | none =>
      rw [initUE_none hblock]
      exact Function.update_of_ne hbuffer _ _
  | some n =>
      rw [initUE_some hblock]
      exact (Function.update_of_ne (hother n hblock) _ _).trans
        (Function.update_of_ne hbuffer _ _)

theorem initUE_record (s : Emulator) {n : Nat} (hblock : ans.block = some n) :
    (s.initUE ans).memory (.block n) = s.newRecord ans := by
  rw [initUE_some hblock]
  exact Function.update_self (Place.block n) _ _

theorem freeUE_memory (s : Emulator) (block : Option Nat) :
    (s.freeUE block).memory = s.memory := by
  cases block <;> rfl

theorem freeUE_list (s : Emulator) (block : Option Nat) : (s.freeUE block).list = s.list := by
  cases block <;> rfl

theorem freeUE_live {s s' : Emulator} {block : Option Nat}
    (hlive : s'.live = block.toList ++ s.live) : (s'.freeUE block).live = s.live := by
  cases block with
  | none => exact hlive
  | some n =>
      simp only [Emulator.freeUE, hlive, Option.toList_some, List.singleton_append,
        List.erase_cons_head]

end InitUE

theorem callProcedure_attach (place : Place) (s : Emulator) :
    callProcedure ans (attachProcedure build) s (some place) =
      some ((attach build ans (s.memory place)).1,
        s.store place (attach build ans (s.memory place)).2) := by
  cases build <;> rfl

theorem handleInit_noNode (hnode : ans.node = false) :
    handleInit build ans s = refuse ((s.initUE ans).freeUE ans.block) := by
  simp only [handleInit, hnode, Bool.false_eq_true, if_false]

/-- `GC_malloc` has no block for the record, and NULL is listed. -/
theorem handleInit_null (hnode : ans.node = true) (hblock : ans.block = none) :
    handleInit build ans s =
      if build = .fourG then refuse ((s.initUE ans).addElem none) else none := by
  simp only [handleInit, hnode, if_true, hblock, Option.map_none]
  cases build <;> rfl

/-- The state behind the attach procedure of an `INIT`. -/
def Emulator.attached (build : Build) (ans : Answers) (s : Emulator) (n : Nat) : Emulator :=
  ((s.initUE ans).addElem (some (.block n))).store (.block n) (attach build ans (s.newRecord ans)).2

theorem attached_memory {n : Nat} (hblock : ans.block = some n) {place : Place}
    (hbuffer : place ≠ .enbBuffer) (hother : place ≠ .block n) :
    (s.attached build ans n).memory place = s.memory place := by
  refine (Function.update_of_ne hother _ _).trans (initUE_memory s ans hbuffer ?_)
  rw [hblock]
  rintro m ⟨⟩
  exact hother

theorem attached_list (n : Nat) :
    (s.attached build ans n).list = s.list ++ [some (.block n)] :=
  congrArg (· ++ [some (Place.block n)]) (initUE_list s ans)

theorem attached_live (n : Nat) : (s.attached build ans n).live = ans.block.toList ++ s.live :=
  initUE_live s ans

theorem attached_record (n : Nat) :
    (s.attached build ans n).memory (.block n) = (attach build ans (s.newRecord ans)).2 :=
  Function.update_self (Place.block n) _ _

/-- The record is listed before the attach procedure runs, and only the 4G build frees it. -/
theorem handleInit_block {n : Nat} (hnode : ans.node = true) (hblock : ans.block = some n) :
    handleInit build ans s =
      if (attach build ans (s.newRecord ans)).1 then
        refuse (if build = .fourG then (s.attached build ans n).freeUE (some n)
          else s.attached build ans n)
      else describe initResponse (some (.block n)) (s.attached build ans n) := by
  have hrecord : ((s.initUE ans).addElem (some (.block n))).memory (.block n) = s.newRecord ans :=
    initUE_record s hblock
  simp only [handleInit, hnode, if_true, hblock, Option.map_some, callThen, callProcedure_attach,
    hrecord]
  cases build <;> rfl

theorem handleInit_frame (h : handleInit build ans s = some r) :
    (∀ place, place ≠ .enbBuffer → (∀ n ∈ ans.block, place ≠ .block n) →
      r.state.memory place = s.memory place) ∧
    r.state.list = (if ans.node then s.list ++ [ans.block.map .block] else s.list) ∧
    r.state.live = if ans.node = false ∨ (build = .fourG ∧ initFails build ans s) then s.live
      else ans.block.toList ++ s.live := by
  cases hnode : ans.node with
  | false =>
      rw [handleInit_noNode hnode] at h
      cases h
      refine ⟨?_, ?_, ?_⟩
      · intro place hbuffer hblock
        rw [freeUE_memory]
        exact initUE_memory s ans hbuffer hblock
      · rw [freeUE_list, initUE_list]
        rfl
      · rw [freeUE_live (initUE_live s ans), if_pos (Or.inl rfl)]
  | true =>
      cases hblock : ans.block with
      | none =>
          rw [handleInit_null hnode hblock] at h
          split at h
          · next hbuild =>
              cases h
              refine ⟨fun place hbuffer hb => initUE_memory s ans hbuffer (hblock ▸ hb), ?_, ?_⟩
              · rw [if_pos rfl, ← initUE_list s ans]
                rfl
              · simp [hbuild, initFails, hblock, Emulator.addElem, initUE_live]
          · cases h
      | some n =>
          rw [handleInit_block hnode hblock] at h
          have hstate : r.state =
              if build = .fourG ∧ (attach build ans (s.newRecord ans)).1 then
                (s.attached build ans n).freeUE (some n)
              else s.attached build ans n := by
            cases herr : (attach build ans (s.newRecord ans)).1 with
            | true =>
                rw [herr, if_pos rfl] at h
                rw [reply_eq_some h]
                simp
            | false =>
                rw [herr, if_neg Bool.false_ne_true] at h
                rw [describe_state _ _ h]
                simp
          rw [hstate]
          refine ⟨?_, ?_, ?_⟩
          · intro place hbuffer hb
            split
            · exact attached_memory hblock hbuffer (hb n rfl)
            · exact attached_memory hblock hbuffer (hb n rfl)
          · have hlist : (s.attached build ans n).list = s.list ++ [some (.block n)] :=
              attached_list n
            split
            · exact hlist
            · exact hlist
          · have hlive : (s.attached build ans n).live = (some n).toList ++ s.live :=
              hblock ▸ attached_live n
            simp only [Bool.true_eq_false, false_or, initFails, hblock]
            split
            · exact freeUE_live hlive
            · exact hlive

theorem handleInit_record {n : Nat} (hnode : ans.node = true) (hblock : ans.block = some n)
    (h : handleInit build ans s = some r) :
    r.state.memory (.block n) = (attach build ans (s.newRecord ans)).2 := by
  rw [handleInit_block hnode hblock] at h
  split at h
  · rw [reply_eq_some h]
    split
    · exact attached_record n
    · exact attached_record n
  · rw [describe_state _ _ h]
    exact attached_record n

end Init

section NoTrace

/-- An `INIT` that lists its UE and then returns an error. -/
def FailsListed (build : Build) (ans : Answers) (s : Emulator) : Prop :=
  ans.node = true ∧ initFails build ans s = true ∧ (ans.block = none → build = .fourG)

/-- If `analyze_ue_msg` returns 1, the list is the same as before. -/
def Traceless (build : Build) (ans : Answers) (s : Emulator) : Prop :=
  ∀ r, analyzeUeMsg build ans s = some r → r.ret = 1 → r.state.list = s.list

/-- No UE of the list has been passed to `free_UE`. -/
def NoneFreed (s : Emulator) : Prop := ∀ n, some (Place.block n) ∈ s.list → n ∈ s.live

variable {build : Build} {ans : Answers} {s s' : Emulator} {r : Reply}

theorem analyzeUeMsg_init (hcode : s.code = initCode) :
    analyzeUeMsg build ans s = handleInit build ans s := by
  rw [analyzeUeMsg, if_pos hcode]

theorem traceless_iff (hcode : s.code = initCode) :
    Traceless build ans s ↔ ¬FailsListed build ans s := by
  rw [Traceless, analyzeUeMsg_init hcode]
  constructor
  · rintro htrace ⟨hnode, hfails, hnull⟩
    -- the answer to the failed message, which has made the list longer
    have hanswer : ∃ r, handleInit build ans s = some r ∧ r.ret = 1 := by
      cases hblock : ans.block with
      | none =>
          rw [handleInit_null hnode hblock, if_pos (hnull hblock)]
          exact ⟨_, rfl, rfl⟩
      | some n =>
          rw [initFails, hblock] at hfails
          rw [handleInit_block hnode hblock, if_pos hfails]
          exact ⟨_, rfl, rfl⟩
    obtain ⟨r, hr, hret⟩ := hanswer
    have hlist := htrace r hr hret
    rw [(handleInit_frame hr).2.1, hnode, if_pos rfl] at hlist
    simp at hlist
  · intro hnot r hr hret
    rw [(handleInit_frame hr).2.1]
    cases hnode : ans.node with
    | false => rfl
    | true =>
        -- an answer that is no error contradicts the value that was returned
        refine absurd ⟨hnode, ?_, ?_⟩ hnot
        · cases hblock : ans.block with
          | none => rw [initFails, hblock]
          | some n =>
              rw [initFails, hblock]
              by_contra hok
              rw [handleInit_block hnode hblock, if_neg hok] at hr
              obtain ⟨record, -, hr⟩ := Option.bind_eq_some_iff.mp hr
              cases hr
              cases hret
        · intro hblock
          rw [handleInit_null hnode hblock] at hr
          by_contra hbuild
          rw [if_neg hbuild] at hr
          cases hr

/-- A message that is an `INIT` of that kind. -/
def Event.FailsListed (build : Build) (s : Emulator) : Event → Prop
  | .message ans bytes =>
      (s.receive bytes).code = initCode ∧ EnbThreads.FailsListed build ans (s.receive bytes)
  | .datagram _ _ => False

@[simp] theorem respond_list (r : Reply) : r.respond.list = r.state.list := by
  rw [Reply.respond]
  split <;> rfl

@[simp] theorem respond_live (r : Reply) : r.respond.live = r.state.live := by
  rw [Reply.respond]
  split <;> rfl

@[simp] theorem respond_memory (r : Reply) : r.respond.memory = r.state.memory := by
  rw [Reply.respond]
  split <;> rfl

theorem step_message {bytes : List UInt8} (h : step build s (.message ans bytes) = some s') :
    ∃ r, analyzeUeMsg build ans (s.receive bytes) = some r ∧ s' = r.respond := by
  rw [step, handleMessage, Option.map_map] at h
  obtain ⟨r, hr, rfl⟩ := Option.map_eq_some_iff.mp h
  exact ⟨r, hr, rfl⟩

theorem noneFreed_analyzeUeMsg (hs : NoneFreed s)
    (hfails : s.code = initCode → build = .fourG → ¬FailsListed build ans s)
    (h : analyzeUeMsg build ans s = some r) : NoneFreed r.state := by
  cases handles_of_analyzeUeMsg h with
  | init hcode hinit =>
      obtain ⟨-, hlist, hlive⟩ := handleInit_frame hinit
      intro n hn
      rw [hlist] at hn
      cases hnode : ans.node with
      | false =>
          rw [hnode, if_neg Bool.false_ne_true] at hn
          rw [hlive, if_pos (Or.inl hnode)]
          exact hs n hn
      | true =>
          have hkept : ¬(ans.node = false ∨ (build = .fourG ∧ initFails build ans s = true)) := by
            rintro (hfalse | ⟨hbuild, herr⟩)
            · rw [hnode] at hfalse
              cases hfalse
            · exact hfails hcode hbuild ⟨hnode, herr, fun _ => hbuild⟩
          rw [hnode, if_pos rfl] at hn
          rw [hlive, if_neg hkept]
          rcases List.mem_append.mp hn with hn | hn
          · exact List.mem_append_right _ (hs n hn)
          · refine List.mem_append_left _ ?_
            obtain ⟨m, hm, heq⟩ := Option.map_eq_some_iff.mp (List.mem_singleton.mp hn).symm
            cases heq
            simpa using hm
  | state ue _ _ hframe =>
      intro n hn
      rw [hframe.list] at hn
      rw [hframe.live]
      exact hs n hn
  | sync _ hstate =>
      intro n hn
      rw [hstate] at hn ⊢
      split at hn
      · next hnode =>
          rw [if_pos hnode]
          rcases List.mem_append.mp hn with hn | hn
          · exact hs n hn
          · simp at hn
      · next hnode =>
          rw [if_neg hnode]
          exact hs n hn
  | nothing _ _ _ hframe =>
      intro n hn
      rw [hframe.list] at hn
      rw [hframe.live]
      exact hs n hn

theorem noneFreed_step {e : Event} (hs : NoneFreed s)
    (hok : build = .fourG → ¬e.FailsListed build s)
    (h : step build s e = some s') : NoneFreed s' := by
  cases e with
  | message ans bytes =>
      obtain ⟨r, hr, rfl⟩ := step_message h
      have hreceived : NoneFreed (s.receive bytes) := hs
      have hstate := noneFreed_analyzeUeMsg hreceived
        (fun hcode hbuild hf => hok hbuild ⟨hcode, hf⟩) hr
      intro n hn
      rw [respond_list] at hn
      rw [respond_live]
      exact hstate n hn
  | datagram node bytes =>
      cases h
      intro n hn
      cases node with
      | false => exact hs n hn
      | true =>
          rcases List.mem_append.mp hn with hn | hn
          · exact hs n hn
          · simp at hn

/-- The 4G build frees the UE of a failed `INIT` and leaves it in the list. -/
theorem not_noneFreed_of_failsListed {n : Nat} (hcode : s.code = initCode)
    (hfails : FailsListed .fourG ans s) (hblock : ans.block = some n) (hfree : n ∉ s.live)
    (h : analyzeUeMsg .fourG ans s = some r) : ¬NoneFreed r.state := by
  rw [analyzeUeMsg_init hcode] at h
  obtain ⟨-, hlist, hlive⟩ := handleInit_frame h
  intro hnone
  have hlisted : some (Place.block n) ∈ r.state.list := by
    rw [hlist, hfails.1, if_pos rfl, hblock]
    exact List.mem_append_right _ (List.mem_singleton_self _)
  have hin := hnone n hlisted
  rw [hlive, if_pos (Or.inr ⟨rfl, hfails.2.1⟩)] at hin
  exact hfree hin

/-- A failed `INIT` leaves no trace in the list, and no run lists a freed UE. -/
def InitsLeaveNoTrace (build : Build) : Prop :=
  (∀ ans s, s.code = initCode → Traceless build ans s) ∧
    ∀ s₀ s, Starts s₀ → Run (step build) Arrives s₀ s → NoneFreed s

/-- An `INIT` that returns 1 leaves the list as it was exactly if it had no node for its UE, and
where no other one returns 1 no freed UE is ever listed. -/
theorem initsLeaveNoTrace_unless_listed (build : Build) :
    (∀ ans s, s.code = initCode → (Traceless build ans s ↔ ¬FailsListed build ans s)) ∧
      ∀ s₀ s, Starts s₀ →
        Run (step build) (fun s e => Arrives s e ∧ ¬e.FailsListed build s) s₀ s → NoneFreed s := by
  refine ⟨fun ans s hcode => traceless_iff hcode, ?_⟩
  intro s₀ s hstart hrun
  refine hrun.invariant (I := NoneFreed) ?_ ?_
  · intro s e s' hs hok hstep
    exact noneFreed_step hs (fun _ => hok.2) hstep
  · intro n hn
    rw [hstart.list] at hn
    cases hn

/-- The answers to an `INIT` whose procedure returns an error at once. -/
def failingAnswers : Answers := ⟨fun _ record => (true, record), some 0, fun _ => 0, true⟩

/-- An eNB without UEs that has received an `INIT` of zeros. -/
def initReceived : Emulator where
  memory _ i := if i = 0 then initCode else 0
  list := []
  live := []
  response _ := 0
  responseLen := 0

theorem failsListed_initReceived (build : Build) :
    FailsListed build failingAnswers initReceived := by
  refine ⟨rfl, ?_, fun hblock => absurd hblock (Option.some_ne_none 0)⟩
  cases build <;> rfl

theorem not_initsLeaveNoTrace : ¬∃ build, InitsLeaveNoTrace build := by
  rintro ⟨build, h, -⟩
  exact (traceless_iff rfl).mp (h failingAnswers initReceived rfl) (failsListed_initReceived build)

end NoTrace

section Stable

/-- The octets of a message that are read, by its code. -/
def Complete (bytes : List UInt8) : Prop :=
  (bytes.getD 0 0 = initCode → 61 ≤ bytes.length) ∧
    (isStateMessage (bytes.getD 0 0) → 11 ≤ bytes.length)

/-- The record that an event sends to the list; that of an `INIT` has been attached. -/
def Event.sent (build : Build) : Event → Option (Mem UInt8)
  | .message ans bytes =>
      let message := Mem.ofList bytes 0
      if bytes.getD 0 0 = initCode then
        some (attach build ans (initMsgRecord ans.content ((terminateStrings message).shift 1))).2
      else if bytes.getD 0 0 = s1Sync then some (message.shift 1)
      else none
  | .datagram _ bytes => some (Mem.ofList bytes 0)

/-- A state message with the MSIN of a record is a message for that UE. -/
def Event.IsFor (record : Mem UInt8) : Event → Prop
  | .message _ bytes => isStateMessage (bytes.getD 0 0) ∧
      record.read 17 10 = (Mem.ofList bytes 0).read 1 10
  | .datagram _ _ => False

/-- An event leaves the other records as they are, and the record that it adds is what was sent. -/
structure Stable (build : Build) (s : Emulator) (e : Event) (s' : Emulator) : Prop where
  list : s.list <+: s'.list
  kept : ∀ place, some place ∈ s.list → ¬e.IsFor (s.memory place) →
    (s'.memory place).read 0 ueSize = (s.memory place).read 0 ueSize
  added : ∀ place, some place ∈ s'.list.drop s.list.length → ∃ record, e.sent build = some record ∧
    (s'.memory place).read 0 ueSize = record.read 0 ueSize

/-- In every run of such events every step keeps the records stable. -/
def RecordsStable (build : Build) (ok : Emulator → Event → Prop) : Prop :=
  ∀ s₀ s e s', Starts s₀ → Run (step build) ok s₀ s → ok s e → step build s e = some s' →
    Stable build s e s'

/-- A complete message that lists no record in a receive buffer and none that is freed again. -/
def Event.Harmless (build : Build) (s : Emulator) : Event → Prop
  | .message ans bytes => Complete bytes ∧ bytes.getD 0 0 ≠ s1Sync ∧
      (build = .fourG → ¬Event.FailsListed build s (.message ans bytes))
  | .datagram _ _ => False

/-- The invariant of harmless runs: every listed record has a live block of its own. -/
structure OwnBlocks (s : Emulator) : Prop where
  live : NoneFreed s
  block : ∀ place, some place ∈ s.list → ∃ n, place = .block n

variable {build : Build} {ans : Answers} {s s' : Emulator} {r : Reply} {bytes : List UInt8}

theorem receive_memory {place : Place} (h : place ≠ .enbBuffer) :
    (s.receive bytes).memory place = s.memory place := Function.update_of_ne h _ _

theorem receive_buffer (s : Emulator) (bytes : List UInt8) :
    (s.receive bytes).memory .enbBuffer = (s.memory .enbBuffer).write 0 bytes := by
  simp only [Emulator.receive, Emulator.store, Function.update_self]

/-- What a message covers does not depend on what the buffer held before. -/
theorem receive_cell (s : Emulator) {i : Nat} (h : i < bytes.length) :
    (s.receive bytes).memory .enbBuffer i = Mem.ofList bytes 0 i := by
  rw [receive_buffer, Mem.ofList, List.getD_eq_getElem _ _ h]
  simpa using Mem.write_inside (s.memory .enbBuffer) 0 bytes i h

theorem receive_code (s : Emulator) (h : 0 < bytes.length) :
    (s.receive bytes).code = bytes.getD 0 0 := receive_cell s h

theorem initMsgRecord_congr (content : Mem UInt8) {m m' : Mem UInt8} (h : ∀ i < 60, m i = m' i) :
    initMsgRecord content m = initMsgRecord content m' := by
  have hread : ∀ p n, p + n ≤ 60 → m.read p n = m'.read p n := fun p n hn =>
    Mem.read_congr fun i _ hi => h i (by omega)
  have hplmn : generatePlmnUE (m.shift 4) (m.shift 8) =
      generatePlmnUE (m'.shift 4) (m'.shift 8) := by
    simp (disch := decide) only [generatePlmnUE, Mem.shift, h]
  have hmsin : generateMsin (m.shift 12) = generateMsin (m'.shift 12) := by
    simp (disch := decide) only [generateMsin, Mem.shift, List.map_cons, List.map_nil, h]
  simp (disch := decide) only [initMsgRecord, initRecord, Mem.read_shift, hplmn, hmsin, hread]

theorem newRecord_receive (s : Emulator) (ans : Answers) (h : 61 ≤ bytes.length) :
    (s.receive bytes).newRecord ans =
      initMsgRecord ans.content ((terminateStrings (Mem.ofList bytes 0)).shift 1) := by
  refine initMsgRecord_congr ans.content fun i hi => ?_
  have hcell : (s.receive bytes).memory .enbBuffer (1 + i) = Mem.ofList bytes 0 (1 + i) :=
    receive_cell s (by omega)
  simp only [Mem.shift, terminateStrings, Mem.write, hcell]

theorem isFor_of_peekElem (ans : Answers) {place : Place} (hlength : 0 < bytes.length)
    (hcomplete : Complete bytes)
    (hstate : isStateMessage (s.receive bytes).code)
    (hpeek : (s.receive bytes).peekElem s.list (msinKey (s.receive bytes)) = some (some place)) :
    Event.IsFor ((s.receive bytes).memory place) (.message ans bytes) := by
  obtain ⟨-, -, digits, hdigits, hread⟩ := peekElem_eq_some hpeek
  rw [receive_code s hlength] at hstate
  have hlong := hcomplete.2 hstate
  cases hdigits
  refine ⟨hstate, ?_⟩
  rw [hread, Mem.read_shift]
  exact Mem.read_congr fun i _ hi => receive_cell s (by omega)

theorem ownBlocks_ne (hs : OwnBlocks s) {place : Place} (h : some place ∈ s.list) :
    place ≠ .enbBuffer := by
  obtain ⟨n, rfl⟩ := hs.block place h
  exact Place.noConfusion

/-- A round that leaves the list and the memory of other UEs than the one it is for. -/
theorem stable_of_frame {ue : Option Place} {e : Event} (hs : OwnBlocks s)
    (hlist : s'.list = s.list)
    (hmemory : ∀ place, place ≠ .enbBuffer → ue ≠ some place → s'.memory place = s.memory place)
    (hue : ∀ place, ue = some place → some place ∈ s.list → e.IsFor (s.memory place)) :
    Stable build s e s' where
  list := by rw [hlist]
  kept place hplace hother := by
    have hne : ue ≠ some place := fun h => hother (hue place h hplace)
    rw [hmemory place (ownBlocks_ne hs hplace) hne]
  added place hplace := by
    rw [hlist, List.drop_length] at hplace
    cases hplace

theorem stable_init {e : Event} (hs : OwnBlocks s) (he : e = .message ans bytes)
    (hblock : ∀ n ∈ ans.block, n ∉ s.live) (hlength : 61 ≤ bytes.length)
    (hcode : bytes.getD 0 0 = initCode) (h : handleInit build ans (s.receive bytes) = some r) :
    Stable build s e r.respond := by
  obtain ⟨hmemory, hlist, -⟩ := handleInit_frame h
  have hlist' : r.respond.list =
      if ans.node then s.list ++ [ans.block.map .block] else s.list := by
    rw [respond_list, hlist]
    rfl
  refine ⟨?_, ?_, ?_⟩
  · rw [hlist']
    split
    · exact List.prefix_append _ _
    · exact List.prefix_rfl
  · intro place hplace _
    obtain ⟨n, rfl⟩ := hs.block place hplace
    have hn := hs.live n hplace
    rw [respond_memory, hmemory _ Place.noConfusion, receive_memory Place.noConfusion]
    rintro m hm ⟨⟩
    exact hblock n hm hn
  · intro place hplace
    rw [hlist'] at hplace
    cases hnode : ans.node with
    | false =>
        rw [hnode, if_neg Bool.false_ne_true, List.drop_length] at hplace
        cases hplace
    | true =>
        rw [hnode, if_pos rfl, List.drop_left, List.mem_singleton] at hplace
        obtain ⟨n, hn, rfl⟩ := Option.map_eq_some_iff.mp hplace.symm
        refine ⟨_, by rw [he, Event.sent, if_pos hcode], ?_⟩
        rw [respond_memory, ← newRecord_receive s ans hlength]
        rw [handleInit_record hnode hn h]

theorem stable_step {e : Event} (hs : OwnBlocks s) (harrives : Arrives s e)
    (hok : e.Harmless build s) (h : step build s e = some s') : Stable build s e s' := by
  cases e with
  | datagram _ _ => cases hok
  | message ans bytes =>
      obtain ⟨r, hr, rfl⟩ := step_message h
      obtain ⟨hcomplete, hsync, -⟩ := hok
      obtain ⟨hlength, -, hblock⟩ := harrives
      have hbuffer : ∀ {ue : Option Place}, Frame ue (s.receive bytes) r.state →
          ∀ place, place ≠ .enbBuffer → ue ≠ some place →
            r.respond.memory place = s.memory place := by
        intro ue hframe place hne hue
        rw [respond_memory, hframe.memory place hue, receive_memory hne]
      cases handles_of_analyzeUeMsg hr with
      | init hcode hinit =>
          rw [receive_code s hlength] at hcode
          exact stable_init hs rfl hblock (hcomplete.1 hcode) hcode hinit
      | state ue hstate hpeek hframe =>
          refine stable_of_frame hs ((respond_list r).trans hframe.list) (hbuffer hframe) ?_
          rintro place rfl hplace
          have hfor := isFor_of_peekElem ans hlength hcomplete hstate hpeek
          rwa [receive_memory (ownBlocks_ne hs hplace)] at hfor
      | sync hcode _ =>
          rw [receive_code s hlength] at hcode
          exact absurd hcode hsync
      | nothing _ _ _ hframe =>
          refine stable_of_frame hs ((respond_list r).trans hframe.list) (hbuffer hframe) ?_
          rintro place ⟨⟩

theorem ownBlocks_step {e : Event} (hs : OwnBlocks s) (harrives : Arrives s e)
    (hok : e.Harmless build s) (h : step build s e = some s') : OwnBlocks s' := by
  cases e with
  | datagram _ _ => cases hok
  | message ans bytes =>
      obtain ⟨-, hsync, hfails⟩ := hok
      refine ⟨noneFreed_step hs.live hfails h, ?_⟩
      obtain ⟨r, hr, rfl⟩ := step_message h
      intro place hplace
      rw [respond_list] at hplace
      cases handles_of_analyzeUeMsg hr with
      | init _ hinit =>
          rw [(handleInit_frame hinit).2.1] at hplace
          split at hplace
          · rcases List.mem_append.mp hplace with hplace | hplace
            · exact hs.block place hplace
            · obtain ⟨n, -, hn⟩ :=
                Option.map_eq_some_iff.mp (List.mem_singleton.mp hplace).symm
              exact ⟨n, hn.symm⟩
          · exact hs.block place hplace
      | state ue _ _ hframe =>
          rw [hframe.list] at hplace
          exact hs.block place hplace
      | sync hcode _ =>
          rw [receive_code s harrives.1] at hcode
          exact absurd hcode hsync
      | nothing _ _ _ hframe =>
          rw [hframe.list] at hplace
          exact hs.block place hplace

theorem ownBlocks_start (h : Starts s) : OwnBlocks s where
  live n hn := by
    rw [h.list] at hn
    cases hn
  block place hplace := by
    rw [h.list] at hplace
    cases hplace

/-- Where all messages are harmless and no datagram comes, the records of the list are stable. -/
theorem recordsStable_harmless (build : Build) :
    RecordsStable build fun s e => Arrives s e ∧ e.Harmless build s := by
  intro s₀ s e s' hstart hrun hok hstep
  have hs : OwnBlocks s := hrun.invariant (I := OwnBlocks)
    (fun _ _ _ hs hok hstep => ownBlocks_step hs hok.1 hok.2 hstep) (ownBlocks_start hstart)
  exact stable_step hs hok.1 hok.2 hstep

/-- A record that comes over X2 is cleared before the next one arrives. -/
theorem not_stable_datagram {i : Nat} (hi : i < ueSize) (hbyte : Mem.ofList bytes 0 i ≠ 0) :
    ¬Stable build s (.datagram true bytes) (handleDatagram true bytes s) := by
  intro hstable
  have hlisted : some Place.x2Buffer ∈ (handleDatagram true bytes s).list.drop s.list.length := by
    simp [handleDatagram, Emulator.store, Emulator.addElem]
  obtain ⟨record, hrecord, hsame⟩ := hstable.added _ hlisted
  cases hrecord
  have hsmall : i < 360 := hi
  have hcell := Mem.cell_eq_of_read_eq hsame (i := i) (Nat.zero_le i) (by omega)
  have hzero : (handleDatagram true bytes s).memory .x2Buffer i = 0 := by
    have hcleared := Mem.write_inside ((s.memory .x2Buffer).write 0 bytes) 0
      (List.replicate bufferLen 0) i (by simp only [List.length_replicate, bufferLen]; omega)
    simpa [handleDatagram, Emulator.store, Emulator.addElem, bzero] using hcleared
  exact hbyte (hcell.symm.trans hzero)

/-- The eNB before its first event. -/
def started : Emulator where
  memory _ _ := 0
  list := []
  live := []
  response _ := 0
  responseLen := 0

theorem starts_started : Starts started := ⟨rfl, rfl, rfl, fun _ _ => rfl⟩

theorem not_recordsStable : ¬∃ build, RecordsStable build Arrives := by
  rintro ⟨build, h⟩
  have harrives : Arrives started (.datagram true [1]) := by simp [Arrives, bufferLen]
  have hstable := h started started (.datagram true [1]) _ starts_started (.refl _) harrives rfl
  exact not_stable_datagram (i := 0) (by decide) (by decide) hstable

end Stable

end PublicCloudCore.RanEmulator.EnbThreads
