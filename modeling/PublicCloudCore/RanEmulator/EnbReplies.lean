import PublicCloudCore.RanEmulator.EnbRecords

/-!
# The replies of the eNB

`response` and `response_len` outlive a message, and so does what the buffer holds behind a short
one. Two runs that come to the same UE records answer the next message alike if its handler stores
a response and reads no further than the message.
-/

namespace PublicCloudCore.RanEmulator.EnbThreads

open Framework EnbEmulator

def Emulator.records (s : Emulator) : List (Option (Mem UInt8)) := s.list.map s.load

/-- A message whose code `analyze_ue_msg` knows. -/
def isKnown (code : UInt8) : Bool :=
  code == initCode || isStateMessage code || isHandover code || code == s1Sync

/-- In two states a message gets the same reply, and in the first one it is the response that was
stored for it. -/
structure Belongs (build : Build) (ans : Answers) (bytes : List UInt8) (s₁ s₂ : Emulator) :
    Prop where
  same : (handleMessage build ans bytes s₁).map Prod.fst =
    (handleMessage build ans bytes s₂).map Prod.fst
  own : ∀ reply s', handleMessage build ans bytes s₁ = some (reply, s') →
    ∃ r response, analyzeUeMsg build ans (s₁.receive bytes) = some r ∧
      r.response = some response ∧ reply = r.direct ++ response

/-- Whatever came before, a message that arrives when the UE records are the same gets the same
reply, its own. -/
def RepliesBelong (build : Build) (before : Event → Prop) (last : List UInt8 → Prop) : Prop :=
  ∀ s₀ t₀ s₁ s₂ ans bytes, Starts s₀ → Starts t₀ →
    Run (step build) (fun s e => Arrives s e ∧ before e) s₀ s₁ →
    Run (step build) (fun s e => Arrives s e ∧ before e) t₀ s₂ →
    Arrives s₁ (.message ans bytes) → Arrives s₂ (.message ans bytes) → last bytes →
    s₁.records = s₂.records → Belongs build ans bytes s₁ s₂

/-- Any event but an `S1_SYNC`. -/
def Event.NoSync : Event → Prop
  | .message _ bytes => bytes.getD 0 0 ≠ s1Sync
  | .datagram _ _ => True

def said (answer : Option Reply) : Option (List UInt8 × Option (List UInt8)) :=
  answer.map fun r => (r.direct, r.response)

section Lookup

variable {s₁ s₂ : Emulator}

/-- Pointers to equal records outside the buffer of the messages, or NULL twice. -/
inductive Alike (s₁ s₂ : Emulator) : Option Place → Option Place → Prop
  | null : Alike s₁ s₂ none none
  | records {place₁ place₂ : Place} {m : Mem UInt8} : s₁.load (some place₁) = some m →
      s₂.load (some place₂) = some m → place₁ ≠ .enbBuffer → place₂ ≠ .enbBuffer →
      Alike s₁ s₂ (some place₁) (some place₂)

theorem load_eq_some {s : Emulator} {place : Place} {m : Mem UInt8}
    (h : s.load (some place) = some m) : s.isLive place = true ∧ s.memory place = m := by
  rw [Emulator.load] at h
  split at h
  · next hlive => exact ⟨hlive, Option.some.inj h⟩
  · cases h

theorem peekElem_alike {l₁ l₂ : List (Option Place)} {k₁ k₂ : Mem UInt8}
    (hrecords : l₁.map s₁.load = l₂.map s₂.load) (hkey : k₁.read 0 10 = k₂.read 0 10)
    (h₁ : some .enbBuffer ∉ l₁) (h₂ : some .enbBuffer ∉ l₂) :
    (s₁.peekElem l₁ (some k₁) = none ∧ s₂.peekElem l₂ (some k₂) = none) ∨
      ∃ ue₁ ue₂, s₁.peekElem l₁ (some k₁) = some ue₁ ∧ s₂.peekElem l₂ (some k₂) = some ue₂ ∧
        Alike s₁ s₂ ue₁ ue₂ := by
  induction l₁ generalizing l₂ with
  | nil =>
      have hnil : l₂ = [] := List.map_eq_nil_iff.mp hrecords.symm
      subst hnil
      exact .inr ⟨none, none, rfl, rfl, .null⟩
  | cons ue₁ l₁ ih =>
      cases l₂ with
      | nil => cases hrecords
      | cons ue₂ l₂ =>
          obtain ⟨hhead, htail⟩ := List.cons.inj hrecords
          have hrest := ih htail (fun h => h₁ (List.mem_cons_of_mem _ h))
            (fun h => h₂ (List.mem_cons_of_mem _ h))
          rw [Emulator.peekElem, Emulator.peekElem, hhead]
          cases hload : s₂.load ue₂ with
          | none => exact .inl ⟨rfl, rfl⟩
          | some m =>
              simp only [Option.bind_eq_bind, Option.bind_some, hkey]
              by_cases hmatch : m.read 17 10 == k₂.read 0 10
              · rw [if_pos hmatch, if_pos hmatch]
                refine .inr ⟨ue₁, ue₂, rfl, rfl, ?_⟩
                cases ue₁ with
                | none =>
                    rw [hload] at hhead
                    cases hhead
                | some place₁ =>
                    cases ue₂ with
                    | none => cases hload
                    | some place₂ =>
                        refine .records (hhead.trans hload) hload ?_ ?_
                        · rintro rfl
                          exact h₁ List.mem_cons_self
                        · rintro rfl
                          exact h₂ List.mem_cons_self
              · rw [if_neg hmatch, if_neg hmatch]
                exact hrest

end Lookup

section Said

variable {build : Build} {ans : Answers} {s₁ s₂ : Emulator}

theorem said_refuse (h : s₁.code = s₂.code) : said (refuse s₁) = said (refuse s₂) := by
  simp only [refuse, reply, said, h, Option.map_some]

theorem said_confirm (h : s₁.code = s₂.code) : said (confirm s₁) = said (confirm s₂) := by
  simp only [confirm, reply, said, h, Option.map_some]

theorem said_describe (response : UInt8 → UE → List UInt8) {ue₁ ue₂ : Option Place}
    (hue : Alike s₁ s₂ ue₁ ue₂) (h : s₁.code = s₂.code) :
    said (describe response ue₁ s₁) = said (describe response ue₂ s₂) := by
  cases hue with
  | null => rfl
  | records h₁ h₂ _ _ =>
      simp only [describe, h₁, h₂, h, reply, said, Option.bind_eq_bind, Option.bind_some,
        Option.map_some]

theorem store_code {s : Emulator} {place : Place} (h : place ≠ .enbBuffer) (m : Mem UInt8) :
    (s.store place m).code = s.code := by
  simp only [Emulator.code, Emulator.store, Function.update_of_ne (Ne.symm h)]

theorem load_store {s : Emulator} {place : Place} {m : Mem UInt8}
    (h : s.isLive place = true) : (s.store place m).load (some place) = some m := by
  have hlive : (s.store place m).isLive place = true := by
    cases place <;> exact h
  rw [Emulator.load, if_pos hlive]
  simp only [Emulator.store, Function.update_self]

/-- A procedure on equal records says the same, if what follows it does. -/
theorem said_callThen (p : Procedure) {ue₁ ue₂ : Option Place}
    {failed₁ failed₂ done₁ done₂ : Emulator → Option Reply} (hue : Alike s₁ s₂ ue₁ ue₂)
    (hcode : s₁.code = s₂.code)
    (hfailed : ∀ t₁ t₂, t₁.code = t₂.code → said (failed₁ t₁) = said (failed₂ t₂))
    (hdone : ∀ t₁ t₂, Alike t₁ t₂ ue₁ ue₂ → t₁.code = t₂.code →
      said (done₁ t₁) = said (done₂ t₂)) :
    said (callThen ans p s₁ ue₁ failed₁ done₁) = said (callThen ans p s₂ ue₂ failed₂ done₂) := by
  cases hue with
  | null =>
      simp only [callThen, callProcedure]
      split
      · exact hfailed s₁ s₂ hcode
      · rfl
  | @records place₁ place₂ m h₁ h₂ hne₁ hne₂ =>
      obtain ⟨hlive₁, hmemory₁⟩ := load_eq_some h₁
      obtain ⟨hlive₂, hmemory₂⟩ := load_eq_some h₂
      simp only [callThen, callProcedure, hmemory₁, hmemory₂]
      split
      · exact hdone s₁ s₂ (.records h₁ h₂ hne₁ hne₂) hcode
      · have hcode' : ∀ m', (s₁.store place₁ m').code = (s₂.store place₂ m').code := fun m' => by
          rw [store_code hne₁, store_code hne₂, hcode]
        simp only [Option.bind_eq_bind, Option.bind_some]
        cases (ans.procedure p m).1 with
        | true => exact hfailed _ _ (hcode' _)
        | false =>
            exact hdone _ _ (.records (load_store hlive₁) (load_store hlive₂) hne₁ hne₂) (hcode' _)

/-- Two states in which a message is handled alike: the code, the MSIN and the UE records. -/
structure Agree (s₁ s₂ : Emulator) : Prop where
  code : s₁.code = s₂.code
  records : s₁.records = s₂.records
  outside₁ : some .enbBuffer ∉ s₁.list
  outside₂ : some .enbBuffer ∉ s₂.list

def SameMsin (s₁ s₂ : Emulator) : Prop :=
  ((s₁.memory .enbBuffer).shift 1).read 0 10 = ((s₂.memory .enbBuffer).shift 1).read 0 10

theorem said_peek {next₁ next₂ : Option Place → Option Reply} (h : Agree s₁ s₂)
    (hmsin : SameMsin s₁ s₂)
    (hnext : ∀ ue₁ ue₂, Alike s₁ s₂ ue₁ ue₂ → said (next₁ ue₁) = said (next₂ ue₂)) :
    said (s₁.peekElem s₁.list (msinKey s₁) >>= next₁) =
      said (s₂.peekElem s₂.list (msinKey s₂) >>= next₂) := by
  rcases peekElem_alike h.records hmsin h.outside₁ h.outside₂ with
    ⟨hnone₁, hnone₂⟩ | ⟨ue₁, ue₂, hue₁, hue₂, halike⟩
  · rw [msinKey, msinKey, hnone₁, hnone₂]
    rfl
  · rw [msinKey, msinKey, hue₁, hue₂]
    exact hnext ue₁ ue₂ halike

theorem said_handleMoveToIdle (h : Agree s₁ s₂) (hmsin : SameMsin s₁ s₂) :
    said (handleMoveToIdle build ans s₁) = said (handleMoveToIdle build ans s₂) := by
  refine said_peek h hmsin fun ue₁ ue₂ hue => ?_
  cases build with
  | fiveG => exact said_confirm h.code
  | fourG =>
      exact said_callThen _ hue h.code (fun _ _ => said_refuse) (fun _ _ _ => said_confirm)

theorem said_handleDetach (h : Agree s₁ s₂) (hmsin : SameMsin s₁ s₂) :
    said (handleDetach build ans s₁) = said (handleDetach build ans s₂) := by
  refine said_peek h hmsin fun ue₁ ue₂ hue => ?_
  rw [h.code]
  cases build with
  | fiveG => exact said_callThen _ hue h.code (fun _ _ _ => rfl) (fun _ _ _ => said_confirm)
  | fourG =>
      exact said_callThen _ hue h.code (fun _ _ => said_refuse) (fun _ _ _ => said_confirm)

theorem said_handleAttach (h : Agree s₁ s₂) (hmsin : SameMsin s₁ s₂) :
    said (handleAttach build ans s₁) = said (handleAttach build ans s₂) :=
  said_peek h hmsin fun _ _ hue =>
    said_callThen _ hue h.code (fun _ _ => said_refuse) (fun _ _ => said_describe initResponse)

theorem said_handleMoveToConnected (h : Agree s₁ s₂) (hmsin : SameMsin s₁ s₂) :
    said (handleMoveToConnected build ans s₁) = said (handleMoveToConnected build ans s₂) := by
  refine said_peek h hmsin fun ue₁ ue₂ hue => ?_
  cases build with
  | fiveG => exact said_describe idleResponse hue h.code
  | fourG =>
      exact said_callThen _ hue h.code (fun _ _ => said_refuse)
        (fun _ _ => said_describe idleResponse)

theorem peekElem_null (s : Emulator) (list : List (Option Place)) :
    s.peekElem list none = if list = [] then some none else none := by
  cases list with
  | nil => rfl
  | cons ue list =>
      rw [Emulator.peekElem]
      cases s.load ue <;> simp

theorem said_handleHandover (h : Agree s₁ s₂) :
    said (handleHandover s₁) = said (handleHandover s₂) := by
  have hempty : s₁.list = [] ↔ s₂.list = [] := by
    rw [← List.map_eq_nil_iff (f := s₁.load), ← List.map_eq_nil_iff (f := s₂.load)]
    exact iff_of_eq (congrArg (· = []) h.records)
  simp only [handleHandover, peekElem_null, hempty]
  split <;> rfl

theorem said_handleS1Sync : said (handleS1Sync ans s₁) = said (handleS1Sync ans s₂) := rfl

theorem initUE_code (s : Emulator) (ans : Answers) : (s.initUE ans).code = s.code := by
  have hbuffer : (s.initUE ans).memory .enbBuffer = terminateStrings (s.memory .enbBuffer) := by
    cases hblock : ans.block with
    | none => simp [initUE_none hblock, Emulator.store]
    | some n => simp [initUE_some hblock, Emulator.store]
  rw [Emulator.code, hbuffer]
  rfl

theorem freeUE_code (s : Emulator) (block : Option Nat) : (s.freeUE block).code = s.code := by
  rw [Emulator.code, freeUE_memory, Emulator.code]

theorem load_initUE (s : Emulator) {n : Nat} (hblock : ans.block = some n) :
    ((s.initUE ans).addElem (some (.block n))).load (some (.block n)) =
      some (s.newRecord ans) := by
  have hlive : ((s.initUE ans).addElem (some (.block n))).isLive (.block n) = true := by
    simp [Emulator.isLive, Emulator.addElem, initUE_live, hblock]
  rw [Emulator.load, if_pos hlive]
  exact congrArg some (initUE_record s hblock)

theorem said_handleInit (hcode : s₁.code = s₂.code)
    (hrecord : s₁.newRecord ans = s₂.newRecord ans) :
    said (handleInit build ans s₁) = said (handleInit build ans s₂) := by
  have hinit : (s₁.initUE ans).code = (s₂.initUE ans).code := by
    rw [initUE_code, initUE_code, hcode]
  have hfree : ∀ t₁ t₂ : Emulator, t₁.code = t₂.code →
      said (refuse (t₁.freeUE ans.block)) = said (refuse (t₂.freeUE ans.block)) := by
    intro t₁ t₂ h
    exact said_refuse (by rw [freeUE_code, freeUE_code, h])
  cases hnode : ans.node with
  | false =>
      rw [handleInit_noNode hnode, handleInit_noNode hnode]
      exact hfree _ _ hinit
  | true =>
      cases hblock : ans.block with
      | none =>
          rw [handleInit_null hnode hblock, handleInit_null hnode hblock]
          split
          · exact said_refuse hinit
          · rfl
      | some n =>
          rw [hblock] at hfree
          have halike : Alike ((s₁.initUE ans).addElem (some (.block n)))
              ((s₂.initUE ans).addElem (some (.block n))) (some (.block n)) (some (.block n)) :=
            .records (load_initUE s₁ hblock) (by rw [load_initUE s₂ hblock, hrecord])
              Place.noConfusion Place.noConfusion
          simp only [handleInit, hnode, if_true, hblock, Option.map_some]
          refine said_callThen _ halike hinit ?_ (fun _ _ => said_describe initResponse)
          cases build with
          | fiveG => exact fun _ _ => said_refuse
          | fourG => exact hfree

theorem said_analyzeUeMsg (h : Agree s₁ s₂)
    (hmsin : isStateMessage s₁.code → SameMsin s₁ s₂)
    (hrecord : s₁.code = initCode → s₁.newRecord ans = s₂.newRecord ans) :
    said (analyzeUeMsg build ans s₁) = said (analyzeUeMsg build ans s₂) := by
  rw [analyzeUeMsg, analyzeUeMsg, ← h.code]
  split
  · next hc => exact said_handleInit h.code (hrecord hc)
  split
  · next hc => exact said_handleMoveToIdle h (hmsin (by rw [hc]; decide))
  split
  · next hc =>
      refine said_handleDetach h (hmsin ?_)
      rcases hc with hc | hc <;> rw [hc] <;> decide
  split
  · next hc => exact said_handleAttach h (hmsin (by rw [hc]; decide))
  split
  · next hc => exact said_handleMoveToConnected h (hmsin (by rw [hc]; decide))
  split
  · exact said_handleHandover h
  split
  · exact said_handleHandover h
  split
  · exact said_handleHandover h
  split
  · exact said_handleHandover h
  split
  · exact said_handleS1Sync
  · rfl

end Said

section Stored

variable {build : Build} {ans : Answers} {s s' : Emulator} {r : Reply}

/-- An answer with a response. -/
def Stores (answer : Option Reply) : Prop :=
  ∀ r, answer = some r → ∃ response, r.response = some response

theorem stores_reply (ret : Nat) (response : List UInt8) (s : Emulator) :
    Stores (reply ret response s) := by
  rintro r ⟨⟩
  exact ⟨response, rfl⟩

theorem stores_describe (response : UInt8 → UE → List UInt8) (ue : Option Place) (s : Emulator) :
    Stores (describe response ue s) := by
  intro r hr
  obtain ⟨record, -, hr⟩ := Option.bind_eq_some_iff.mp hr
  exact stores_reply _ _ _ r hr

theorem stores_callThen {p : Procedure} {ue : Option Place}
    {failed done : Emulator → Option Reply} (hfailed : ∀ s, Stores (failed s))
    (hdone : ∀ s, Stores (done s)) : Stores (callThen ans p s ue failed done) := by
  intro r hr
  obtain ⟨⟨err, s'⟩, -, hr⟩ := Option.bind_eq_some_iff.mp hr
  cases err with
  | true => exact hfailed s' r hr
  | false => exact hdone s' r hr

theorem stores_peek {next : Option Place → Option Reply} (hnext : ∀ ue, Stores (next ue)) :
    Stores (s.peekElem s.list (msinKey s) >>= next) := by
  intro r hr
  obtain ⟨ue, -, hr⟩ := Option.bind_eq_some_iff.mp hr
  exact hnext ue r hr

theorem stores_handleHandover (s : Emulator) : Stores (handleHandover s) := by
  intro r hr
  rw [handleHandover] at hr
  split at hr
  · exact stores_reply _ _ _ r hr
  · cases hr

theorem stores_handleInit : Stores (handleInit build ans s) := by
  simp only [handleInit]
  split
  · refine stores_callThen (fun _ => ?_) (stores_describe _ _)
    cases build with
    | fiveG => exact stores_reply _ _ _
    | fourG => exact stores_reply _ _ _
  · exact stores_reply _ _ _

theorem stores_analyzeUeMsg (hcode : isKnown s.code) : Stores (analyzeUeMsg build ans s) := by
  rw [analyzeUeMsg]
  split
  · exact stores_handleInit
  split
  · refine stores_peek fun ue => ?_
    cases build with
    | fiveG => exact stores_reply _ _ _
    | fourG => exact stores_callThen (fun _ => stores_reply _ _ _) fun _ => stores_reply _ _ _
  split
  · refine stores_peek fun ue => ?_
    cases build with
    | fiveG => exact stores_callThen (fun _ => stores_reply _ _ _) fun _ => stores_reply _ _ _
    | fourG => exact stores_callThen (fun _ => stores_reply _ _ _) fun _ => stores_reply _ _ _
  split
  · exact stores_peek fun ue => stores_callThen (fun _ => stores_reply _ _ _) (stores_describe _ _)
  split
  · refine stores_peek fun ue => ?_
    cases build with
    | fiveG => exact stores_describe _ _ _
    | fourG => exact stores_callThen (fun _ => stores_reply _ _ _) (stores_describe _ _)
  split
  · exact stores_handleHandover s
  split
  · exact stores_handleHandover s
  split
  · exact stores_handleHandover s
  split
  · exact stores_handleHandover s
  split
  · rintro r ⟨⟩
    exact ⟨_, rfl⟩
  · next h₁ h₂ h₃ h₄ h₅ h₆ h₇ h₈ h₉ h₁₀ =>
      exfalso
      simp only [isKnown, isStateMessage, isHandover] at hcode
      simp_all

theorem reply_eq {response : List UInt8} (h : r.response = some response) :
    r.respond.response.read 0 r.respond.responseLen = response := by
  rw [Reply.respond, h]
  exact Mem.read_write_same _ 0 response

theorem outside_step {e : Event} (hs : some .enbBuffer ∉ s.list) (harrives : Arrives s e)
    (he : e.NoSync) (h : step build s e = some s') : some .enbBuffer ∉ s'.list := by
  cases e with
  | message ans bytes =>
      obtain ⟨r, hr, rfl⟩ := step_message h
      rw [respond_list]
      cases handles_of_analyzeUeMsg hr with
      | init _ hinit =>
          rw [(handleInit_frame hinit).2.1]
          split
          · intro hmem
            rcases List.mem_append.mp hmem with hmem | hmem
            · exact hs hmem
            · obtain ⟨n, -, hn⟩ := Option.map_eq_some_iff.mp (List.mem_singleton.mp hmem).symm
              cases hn
          · exact hs
      | state ue _ _ hframe =>
          rw [hframe.list]
          exact hs
      | sync hcode _ =>
          rw [receive_code s harrives.1] at hcode
          exact absurd hcode he
      | nothing _ _ _ hframe =>
          rw [hframe.list]
          exact hs
  | datagram node bytes =>
      cases h
      cases node with
      | false => exact hs
      | true =>
          intro hmem
          rcases List.mem_append.mp hmem with hmem | hmem
          · exact hs hmem
          · simp at hmem

theorem outside_of_run {s₀ : Emulator} (hstart : Starts s₀)
    (hrun : Run (step build) (fun s e => Arrives s e ∧ e.NoSync) s₀ s) :
    some .enbBuffer ∉ s.list := by
  refine hrun.invariant (I := fun s => some Place.enbBuffer ∉ s.list) ?_ ?_
  · intro s e s' hs hok hstep
    exact outside_step hs hok.1 hok.2 hstep
  · rw [hstart.list]
    exact List.not_mem_nil

theorem records_receive (bytes : List UInt8) (h : some .enbBuffer ∉ s.list) :
    (s.receive bytes).records = s.records := by
  refine List.map_congr_left fun ue hue => ?_
  cases ue with
  | none => rfl
  | some place =>
      have hne : place ≠ .enbBuffer := fun he => h (he ▸ hue)
      have hlive : (s.receive bytes).isLive place = s.isLive place := by
        cases place <;> rfl
      rw [Emulator.load, Emulator.load, hlive, receive_memory hne]

theorem agree_receive {s₁ s₂ : Emulator} {bytes : List UInt8} (hlength : 0 < bytes.length)
    (hrecords : s₁.records = s₂.records) (h₁ : some .enbBuffer ∉ s₁.list)
    (h₂ : some .enbBuffer ∉ s₂.list) : Agree (s₁.receive bytes) (s₂.receive bytes) where
  code := by rw [receive_code s₁ hlength, receive_code s₂ hlength]
  records := by rw [records_receive bytes h₁, records_receive bytes h₂, hrecords]
  outside₁ := h₁
  outside₂ := h₂

theorem sameMsin_receive {s₁ s₂ : Emulator} {bytes : List UInt8} (h : 11 ≤ bytes.length) :
    SameMsin (s₁.receive bytes) (s₂.receive bytes) := by
  rw [SameMsin, Mem.read_shift, Mem.read_shift]
  refine Mem.read_congr fun i _ hi => ?_
  rw [receive_cell s₁ (by omega), receive_cell s₂ (by omega)]

theorem reply_of_said {bytes : List UInt8}
    (h : Stores (analyzeUeMsg build ans (s.receive bytes))) :
    (handleMessage build ans bytes s).map Prod.fst =
      (said (analyzeUeMsg build ans (s.receive bytes))).map fun (direct, response) =>
        direct ++ response.getD [] := by
  rw [handleMessage, said, Option.map_map, Option.map_map]
  cases hr : analyzeUeMsg build ans (s.receive bytes) with
  | none => rfl
  | some r =>
      obtain ⟨response, hresponse⟩ := h r hr
      simp only [Option.map_some, Function.comp_apply, reply_eq hresponse, hresponse,
        Option.getD_some]

theorem records_init {n : Nat} {bytes : List UInt8} (hlist : s.list = [])
    (hnode : ans.node = true) (hblock : ans.block = some n) (hlength : 61 ≤ bytes.length)
    (hcode : bytes.getD 0 0 = initCode) (h : step .fiveG s (.message ans bytes) = some s') :
    s'.list = [some (.block n)] ∧
      s'.records = [(Event.message ans bytes).sent .fiveG] := by
  obtain ⟨r, hr, rfl⟩ := step_message h
  rw [analyzeUeMsg_init (by rw [receive_code s (by omega), hcode])] at hr
  obtain ⟨-, hlist', hlive⟩ := handleInit_frame hr
  have hrecord := handleInit_record hnode hblock hr
  have hpointers : r.respond.list = [some (.block n)] := by
    rw [respond_list, hlist', if_pos hnode, hblock]
    exact congrArg (· ++ [some (Place.block n)]) hlist
  have hin : n ∈ r.respond.live := by
    rw [respond_live, hlive, if_neg (by rw [hnode]; simp), hblock]
    exact List.mem_cons_self
  have hisLive : r.respond.isLive (.block n) = true := List.contains_iff_mem.mpr hin
  refine ⟨hpointers, ?_⟩
  rw [Emulator.records, hpointers, List.map_singleton, Emulator.load, if_pos hisLive,
    respond_memory, hrecord, newRecord_receive s ans hlength, Event.sent, if_pos hcode]

/-- A complete message of a known code gets its own reply, if no `S1_SYNC` has left a record in the
buffer of the messages. -/
theorem repliesBelong_complete (build : Build) :
    RepliesBelong build Event.NoSync fun bytes => Complete bytes ∧ isKnown (bytes.getD 0 0) := by
  intro s₀ t₀ s₁ s₂ ans bytes hs₀ ht₀ hrun₁ hrun₂ harrives₁ harrives₂ hlast hrecords
  obtain ⟨hcomplete, hknown⟩ := hlast
  have hlength := harrives₁.1
  have hcode := receive_code s₁ hlength
  have hagree := agree_receive hlength hrecords (outside_of_run hs₀ hrun₁)
    (outside_of_run ht₀ hrun₂)
  have hstores : ∀ s : Emulator, Stores (analyzeUeMsg build ans (s.receive bytes)) := fun s =>
    stores_analyzeUeMsg (by rw [receive_code s hlength]; exact hknown)
  have hsaid : said (analyzeUeMsg build ans (s₁.receive bytes)) =
      said (analyzeUeMsg build ans (s₂.receive bytes)) := by
    refine said_analyzeUeMsg hagree ?_ ?_
    · intro hstate
      exact sameMsin_receive (hcomplete.2 (hcode ▸ hstate))
    · intro hinit
      have hlong := hcomplete.1 (hcode.symm.trans hinit)
      rw [newRecord_receive s₁ ans hlong, newRecord_receive s₂ ans hlong]
  refine ⟨?_, ?_⟩
  · rw [reply_of_said (hstores s₁), reply_of_said (hstores s₂), hsaid]
  · intro reply s' hhandle
    obtain ⟨r, hr, hreply⟩ := Option.map_eq_some_iff.mp hhandle
    cases hreply
    obtain ⟨response, hresponse⟩ := hstores s₁ r hr
    exact ⟨r, response, hr, hresponse, by rw [reply_eq hresponse]⟩

/-- Answers to messages that bring no UE. -/
def idleAnswers : Answers := ⟨fun _ record => (false, record), none, fun _ => 0, true⟩

theorem arrives_single (s : Emulator) (code : UInt8) :
    Arrives s (.message idleAnswers [code]) := by
  refine ⟨Nat.one_pos, by simp [bufferLen], ?_⟩
  intro n hn
  cases hn

/-- The `INIT` of the UE 001010000000001. -/
def initMessage : List UInt8 :=
  [0x01, 0x00, 0x00, 0x00, 0x01, 0x30, 0x30, 0x31, 0x00, 0x30, 0x31, 0x00, 0x00,
    0x30, 0x30, 0x30, 0x30, 0x30, 0x30, 0x30, 0x30, 0x30, 0x31, 0x00, 0x00] ++
    List.replicate 32 0x11 ++ [0x0a, 0x00, 0x00, 0x01]

/-- The `MOVE_TO_CONNECTED` of the same UE. -/
def connectedMessage : List UInt8 :=
  [0x06, 0x30, 0x30, 0x30, 0x30, 0x30, 0x30, 0x30, 0x30, 0x30, 0x31]

/-- A block for the record, and an attach procedure that assigns the TEID 7. -/
def initAnswers (n : Nat) : Answers :=
  ⟨fun _ record => (false, record.write 100 [7]), some n, fun _ => 0, true⟩

theorem arrives_init (n : Nat) (h : n ∉ s.live) :
    Arrives s (.message (initAnswers n) initMessage) := by
  refine ⟨by decide, by decide, ?_⟩
  rintro m ⟨⟩
  exact h

/-- An `INIT` at once, and behind an `HO_REQUEST` that found no UE, in another block. -/
theorem repliesBelong_connected : ∃ s₁ s s₂,
    step .fiveG started (.message (initAnswers 0) initMessage) = some s₁ ∧
    step .fiveG started (.message idleAnswers [hoRequest]) = some s ∧
    step .fiveG s (.message (initAnswers 1) initMessage) = some s₂ ∧
    s₁.list = [some (.block 0)] ∧ s₂.list = [some (.block 1)] ∧
    Belongs .fiveG idleAnswers connectedMessage s₁ s₂ := by
  have hempty : Run (step .fiveG) (fun s e => Arrives s e ∧ e.NoSync) started started := .refl _
  have hno : [hoRequest].getD 0 0 ≠ s1Sync := by decide
  have hinit : initMessage.getD 0 0 ≠ s1Sync := by decide
  have hrun := hempty.tail ⟨arrives_single started hoRequest, hno⟩ rfl
  obtain ⟨s₁, hstep₁⟩ := Option.isSome_iff_exists.mp
    (show (step .fiveG started (.message (initAnswers 0) initMessage)).isSome from rfl)
  obtain ⟨s₂, hstep₂⟩ := Option.isSome_iff_exists.mp
    (show (step .fiveG (Reply.respond ⟨1, some [x2Error], [], started.receive [hoRequest]⟩)
      (.message (initAnswers 1) initMessage)).isSome from rfl)
  obtain ⟨hlist₁, hrecords₁⟩ := records_init rfl rfl rfl (by decide) (by decide) hstep₁
  obtain ⟨hlist₂, hrecords₂⟩ := records_init rfl rfl rfl (by decide) (by decide) hstep₂
  have hfree : ∀ n : Nat, n ∉ started.live := fun _ => List.not_mem_nil
  have hrun₁ := hempty.tail ⟨arrives_init 0 (hfree 0), hinit⟩ hstep₁
  have hrun₂ := hrun.tail ⟨arrives_init 1 (hfree 1), hinit⟩ hstep₂
  have harrives : ∀ s : Emulator, Arrives s (.message idleAnswers connectedMessage) := by
    refine fun s => ⟨by decide, by decide, ?_⟩
    rintro n ⟨⟩
  refine ⟨s₁, _, s₂, hstep₁, rfl, hstep₂, hlist₁, hlist₂, ?_⟩
  exact repliesBelong_complete .fiveG started started s₁ s₂ idleAnswers connectedMessage
    starts_started starts_started hrun₁ hrun₂ (harrives s₁) (harrives s₂)
    ⟨⟨by decide, by decide⟩, by decide⟩ (hrecords₁.trans hrecords₂.symm)

/-- A message of an unknown code gets the response of the last message, or nothing. -/
theorem not_repliesBelong :
    ¬∃ build, RepliesBelong build (fun _ => True) (fun _ => True) := by
  rintro ⟨build, h⟩
  have hempty : Run (step build) (fun s e => Arrives s e ∧ True) started started := .refl _
  have hrun := hempty.tail ⟨arrives_single started hoRequest, trivial⟩ rfl
  have hbelongs := h started started started _ idleAnswers [0xff] starts_started starts_started
    hempty hrun (arrives_single _ _) (arrives_single _ _) trivial rfl
  have hsame := hbelongs.same
  have hfirst : (handleMessage build idleAnswers [0xff] started).map Prod.fst = some [] := rfl
  rw [hfirst] at hsame
  cases hsame

end Stored

end PublicCloudCore.RanEmulator.EnbThreads
