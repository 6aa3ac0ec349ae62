import PublicCloudCore.RanEmulator.Handover

/-!
# Where handovers leave the UEs

A source eNB that serves a UE dies of the first message of a handover. The X2 handover goes on to
the address of the dead source, and the S1 handover waits for a code that nobody sends. Only the
attach at a target looks at another eNB, and it succeeds for the record of another UE that has the
same MSIN.
-/

namespace PublicCloudCore.RanEmulator.Handover

open Framework EnbEmulator

variable {ι : Type}

structure Imsi where
  mcc : List UInt8
  mnc : List UInt8
  msin : List UInt8
  deriving DecidableEq

/-- The IMSI of a record in an eNB. -/
def imsi (ue : EnbEmulator.UE) : Imsi := ⟨ue.mcc, ue.mnc, ue.msinString.take 10⟩

/-- The IMSI that `send_init_msg` puts into its message. -/
def imsiOf (ue : UeData) : Imsi :=
  ⟨(Mem.ofList ue.mcc 0).read 0 3, (Mem.ofList ue.mnc 0).read 0 2, msinDigits ue⟩

/-- The eNB at an address runs and has a record of the UE in its list. -/
def Holds (net : Net) (address : List UInt8) (id : Imsi) : Prop :=
  ∃ list, net address = some list ∧ ∃ ue ∈ list, imsi ue = id

/-- The address that the controller returns for the target. -/
def Call.target (s : System ι) (c : Call ι) : Option (List UInt8) :=
  targetEnbIp (sendGetEnbIp c.env (s.ues c.ue) (enbN c.enbNum)).1

def Flow.secondPhase : Flow → Option UInt8
  | .x2Handover => some hoRequest
  | .attachToEnb => some ueAttach
  | .s1Handover => none

/-- The system calls of an exchange succeed. -/
def Exchange.Undisturbed (x : Exchange) : Prop :=
  x.socket = true ∧ x.connectFails = false ∧ x.readFails = false

/-- The UE attaches to a target that lists a UE of the same MSIN, while an eNB that serves UEs runs
at the address that it leaves. -/
structure AttachesAsNamesake (build : Build) (s : System ι) (c : Call ι) : Prop where
  flow : c.flow = .attachToEnb
  first : c.env.first.Undisturbed
  source : ∃ list, s.net (s.ues c.ue).enbIp = some list ∧ list ≠ []
  second : c.env.second.Undisturbed
  target : ∃ enbIp, c.target s = some enbIp ∧ enbIp ≠ (s.ues c.ue).enbIp ∧
    ∃ list, s.net enbIp = some list ∧
      ∃ ue, list.find? (fun ue => ue.msinString.take 10 == msinDigits (s.ues c.ue)) = some ue ∧
        (runProcedure c.env.second.enb (attachProcedure build) ue).1 = false
  dataPlane : c.env.controlPlaneOnly = 0 → 0 ≤ c.env.updateDataPlane

section Property

variable [DecidableEq ι]

structure Moves (build : Build) (s : System ι) (c : Call ι) (enbIp : List UInt8) : Prop where
  held : ∀ address, Holds (step build s c).net address (imsiOf (s.ues c.ue)) ↔ address = enbIp
  others : ∀ id ≠ imsiOf (s.ues c.ue), ∀ address,
    Holds (step build s c).net address id ↔ Holds s.net address id
  serving : ((step build s c).ues c.ue).enbIp = enbIp
  requested : ∀ code ∈ c.flow.secondPhase, ∃ data,
    (Peer.enb enbIp, code :: data) ∈ (call build s c).sent

/-- Every call of the sequence that returns 0 moves its UE. -/
def HandoversMove (build : Build) (s : System ι) (calls : List (Call ι)) : Prop :=
  ∀ before c, before ++ [c] <+: calls → (call build (after build s before) c).ret = some 0 →
    ∃ enbIp, c.target (after build s before) = some enbIp ∧
      Moves build (after build s before) c enbIp

end Property

/-- The procedures leave a UE its IMSI. -/
def KeepsImsi (env : Surroundings) : Prop := ∀ p ue, imsi (env.procedure p ue).2 = imsi ue

def CallEnv.KeepsImsi (env : CallEnv) : Prop :=
  Handover.KeepsImsi env.first.enb ∧ Handover.KeepsImsi env.second.enb

section Records

variable (build : Build) (env : Surroundings) (buffer : Mem UInt8) (list : List EnbEmulator.UE)

theorem imsi_runProcedure {env : Surroundings} (h : KeepsImsi env) (p : Procedure)
    (ue : EnbEmulator.UE) : imsi (runProcedure env p ue).2 = imsi ue := by
  rw [runProcedure]
  split
  · rfl
  · exact h p ue

theorem find?_of_listed {i : Nat} (h : listed buffer list = some i) :
    list.find? (fun ue => ue.msinString.take 10 == buffer.read 1 10) = list[i]? := by
  rw [listed] at h
  rw [List.find?_eq_bind_findIdx?_getElem?, h]
  rfl

theorem analyzeUeMsg_attach (h : buffer 0 = ueAttach) :
    analyzeUeMsg build env buffer list = handleAttach build env buffer list := by
  simp [analyzeUeMsg, h, initCode, moveToIdle, ueDetach, ueSwitchOffDetach, ueAttach]

theorem handleAttach_listed {i : Nat} {ue : EnbEmulator.UE} (hl : listed buffer list = some i)
    (hi : list[i]? = some ue) :
    handleAttach build env buffer list =
      let r := runProcedure env (attachProcedure build) ue
      let h : Handled := ⟨list.set i r.2, [ue]⟩
      some (if r.1 then errorReply (buffer 0) h
        else ⟨0, some (initResponse (buffer 0) r.2), h⟩) := by
  have hlt : i < list.length := (List.getElem?_eq_some_iff.mp hi).choose
  rw [handleAttach, peekElem_msin, hl]
  simp only [callProcedure, Option.bind_eq_bind, Option.bind_some, hi, Option.map_some]
  cases (runProcedure env (attachProcedure build) ue).1 with
  | true => simp
  | false => simp [deref, hlt]

theorem handleAttach_unlisted (hl : listed buffer list = none) :
    handleAttach build env buffer list =
      match build with
      | .fiveG => none
      | .fourG => some (errorReply (buffer 0) ⟨list, []⟩) := by
  rw [handleAttach, peekElem_msin, hl]
  cases build with
  | fiveG => rfl
  | fourG => rfl

theorem imsi_mem_of_analyzeUeMsg {r : Reply} (hk : KeepsImsi env)
    (hc : isHandover (buffer 0) ∨ buffer 0 = ueAttach)
    (h : analyzeUeMsg build env buffer list = some r) :
    ∀ ue ∈ r.handled.list, ∃ ue' ∈ list, imsi ue' = imsi ue := by
  intro ue hue
  cases hc with
  | inl hc =>
    rw [analyzeUeMsg_handover build env buffer list hc] at h
    split at h
    · cases h
      cases hue
    · cases h
  | inr hc =>
    rw [analyzeUeMsg_attach build env buffer list hc] at h
    cases hl : listed buffer list with
    | none =>
      rw [handleAttach_unlisted build env buffer list hl] at h
      cases build with
      | fiveG => cases h
      | fourG =>
        cases h
        exact ⟨ue, hue, rfl⟩
    | some i =>
      obtain ⟨u, hi⟩ := getElem?_of_listed hl
      rw [handleAttach_listed build env buffer list hl hi] at h
      have hset : r.handled.list =
          list.set i (runProcedure env (attachProcedure build) u).2 := by
        cases h
        split <;> rfl
      rw [hset] at hue
      cases List.mem_or_eq_of_mem_set hue with
      | inl hue => exact ⟨ue, hue, rfl⟩
      | inr hue =>
        refine ⟨u, List.mem_of_getElem? hi, ?_⟩
        rw [hue, imsi_runProcedure hk]

end Records

section Exchanges

variable (build : Build) (x : Exchange) (net : Net) (address message : List UInt8) (size : Nat)

theorem exchange_undisturbed {list : List EnbEmulator.UE} (hx : x.Undisturbed)
    (hn : net address = some list) :
    exchange build x net address message size =
      let reply := analyzeUeMsg build x.enb (x.prior.write 0 message) list
      { outcome := .answered (x.answer message size reply)
        net := Function.update net address (reply.map fun r => r.handled.list)
        sent := [(.enb address, message)] } := by
  obtain ⟨hsocket, hconnect, hread⟩ := hx
  simp [exchange, hn, hsocket, hconnect, hread]

theorem exchange_answered {buffer : Mem UInt8}
    (h : (exchange build x net address message size).outcome = .answered buffer) :
    x.Undisturbed ∧ ∃ list, net address = some list := by
  rw [exchange] at h
  split at h
  · cases h
  · next hopen =>
    simp only [Bool.or_eq_true, Bool.not_eq_true', not_or, Bool.not_eq_true,
      Bool.not_eq_false] at hopen
    cases hn : net address with
    | none =>
      rw [hn] at h
      cases h
    | some list =>
      cases hread : x.readFails with
      | true =>
        simp [hn, hread] at h
      | false => exact ⟨⟨hopen.1, hopen.2, hread⟩, list, rfl⟩

theorem exchange_net :
    (exchange build x net address message size).net = net ∨
    ∃ list, net address = some list ∧ (exchange build x net address message size).net =
      Function.update net address
        ((analyzeUeMsg build x.enb (x.prior.write 0 message) list).map fun r =>
          r.handled.list) := by
  rw [exchange]
  split
  · exact .inl rfl
  · cases hn : net address with
    | none => exact .inl rfl
    | some list => exact .inr ⟨list, rfl, rfl⟩

theorem exchange_net_of_ne {a : List UInt8} (ha : a ≠ address) :
    (exchange build x net address message size).net a = net a := by
  rcases exchange_net build x net address message size with h | ⟨list, -, h⟩
  · rw [h]
  · rw [h, Function.update_of_ne ha]

variable (data : List UInt8) {code : UInt8}

/-- A handover message is answered by the end of the stream, or by an error from an eNB without a
UE. -/
theorem handover_served (hc : isHandover code) (hx : x.Undisturbed)
    {list : List EnbEmulator.UE} (hn : net address = some list) (hl : list ≠ []) :
    exchange build x net address (code :: data) size =
      { outcome := .answered (.ofList (code :: data) 0)
        net := Function.update net address none
        sent := [(.enb address, code :: data)] } := by
  have hnone : analyzeUeMsg build x.enb (x.prior.write 0 (code :: data)) list = none := by
    rw [analyzeUeMsg_handover build x.enb _ list hc, if_neg hl]
  rw [exchange_undisturbed build x net address (code :: data) size hx hn, hnone]
  rfl

theorem handover_answered (hc : isHandover code) {n : Nat} {buffer : Mem UInt8}
    (h : (exchange build x net address (code :: data) (n + 1)).outcome = .answered buffer)
    (hb : buffer 0 ≠ x2Error) :
    x.Undisturbed ∧ (∃ list, net address = some list ∧ list ≠ []) ∧ buffer 0 = code ∧
      (exchange build x net address (code :: data) (n + 1)).net =
        Function.update net address none := by
  obtain ⟨hx, list, hn⟩ := exchange_answered build x net address (code :: data) (n + 1) h
  by_cases hl : list = []
  · rw [exchange_undisturbed build x net address (code :: data) (n + 1) hx hn,
      analyzeUeMsg_handover build x.enb _ list hc, if_pos hl] at h
    cases h
    exact absurd rfl hb
  · have hserved := handover_served build x net address (n + 1) data hc hx hn hl
    rw [hserved] at h
    cases h
    refine ⟨hx, ⟨list, hn, hl⟩, rfl, ?_⟩
    rw [hserved]

theorem holds_of_exchange (hk : KeepsImsi x.enb) (hc : isHandover code ∨ code = ueAttach)
    {a : List UInt8} {id : Imsi}
    (h : Holds (exchange build x net address (code :: data) size).net a id) : Holds net a id := by
  rcases exchange_net build x net address (code :: data) size with he | ⟨list, hn, he⟩
  · rwa [he] at h
  · obtain ⟨list', hlist', ue, hue, hid⟩ := h
    rw [he] at hlist'
    by_cases ha : a = address
    · subst ha
      rw [Function.update_self] at hlist'
      obtain ⟨r, hr, rfl⟩ := Option.map_eq_some_iff.mp hlist'
      obtain ⟨ue', hue', hid'⟩ := imsi_mem_of_analyzeUeMsg build x.enb _ list hk hc hr ue hue
      exact ⟨list, hn, ue', hue', hid'.trans hid⟩
    · rw [Function.update_of_ne ha] at hlist'
      exact ⟨list', hlist', ue, hue, hid⟩

theorem read_idleMsg (m : Mem UInt8) (ue : UeData) :
    (m.write 0 (idleMsg ueAttach ue)).read 1 10 = msinDigits ue := by
  have hlen : (msinDigits ue).length = 10 := by simp [msinDigits]
  have hsplit : idleMsg ueAttach ue =
      [ueAttach] ++ (msinDigits ue ++ (List.replicate 6 0 ++ [0])) := by
    simp [idleMsg]
  rw [hsplit, ← Mem.write_write_adjacent, List.length_singleton, Nat.zero_add,
    Mem.read_write_take _ _ _ _ (by simp [hlen])]
  exact List.take_left' hlen

/-- An attach is accepted exactly when a UE of the MSIN is listed and its procedure succeeds. -/
theorem attach_answered_iff (ue : UeData) :
    (∃ buffer, (exchange build x net address (idleMsg ueAttach ue) (size + 1)).outcome =
      .answered buffer ∧ buffer 0 = okCode ||| ueAttach) ↔
    x.Undisturbed ∧ ∃ list, net address = some list ∧
      ∃ u, list.find? (fun u => u.msinString.take 10 == msinDigits ue) = some u ∧
        (runProcedure x.enb (attachProcedure build) u).1 = false := by
  have hne : ueAttach ≠ okCode ||| ueAttach := by decide
  have hcode : ∀ m : Mem UInt8, (m.write 0 (idleMsg ueAttach ue)) 0 = ueAttach := fun _ => rfl
  constructor
  · rintro ⟨buffer, h, hb⟩
    obtain ⟨hx, list, hn⟩ := exchange_answered build x net address _ _ h
    rw [exchange_undisturbed build x net address _ _ hx hn,
      analyzeUeMsg_attach build x.enb _ list (hcode _)] at h
    refine ⟨hx, list, hn, ?_⟩
    cases hl : listed (x.prior.write 0 (idleMsg ueAttach ue)) list with
    | none =>
      rw [handleAttach_unlisted build x.enb _ list hl] at h
      cases build with
      | fiveG =>
        cases h
        exact absurd hb hne
      | fourG =>
        cases h
        exact absurd hb hne
    | some i =>
      obtain ⟨u, hi⟩ := getElem?_of_listed hl
      have hfind := find?_of_listed _ list hl
      rw [read_idleMsg, hi] at hfind
      refine ⟨u, hfind, ?_⟩
      rw [handleAttach_listed build x.enb _ list hl hi] at h
      cases hr : (runProcedure x.enb (attachProcedure build) u).1 with
      | false => rfl
      | true =>
        simp only [hr, if_true] at h
        cases h
        exact absurd hb hne
  · rintro ⟨hx, list, hn, u, hfind, hr⟩
    rw [exchange_undisturbed build x net address _ _ hx hn,
      analyzeUeMsg_attach build x.enb _ list (hcode _)]
    cases hl : listed (x.prior.write 0 (idleMsg ueAttach ue)) list with
    | none =>
      rw [List.find?_eq_bind_findIdx?_getElem?, ← read_idleMsg x.prior ue] at hfind
      rw [listed] at hl
      rw [hl] at hfind
      cases hfind
    | some i =>
      have hi := find?_of_listed _ list hl
      rw [read_idleMsg, hfind] at hi
      simp only [handleAttach_listed build x.enb _ list hl hi.symm, hr, Bool.false_eq_true,
        if_false]
      exact ⟨_, rfl, rfl⟩

end Exchanges

section Phases

theorem withTarget_ret (env : CallEnv) (net : Net) (enbNum : Mem UInt8) (ue : UeData)
    (next : List UInt8 → Called) :
    (withTarget env net enbNum ue next).ret = some 0 ↔
      ∃ enbIp, targetEnbIp (sendGetEnbIp env ue (enbN enbNum)).1 = some enbIp ∧
        (next enbIp).ret = some 0 := by
  simp only [withTarget]
  cases targetEnbIp (sendGetEnbIp env ue (enbN enbNum)).1 with
  | none => simp
  | some enbIp => simp

theorem analyze_ret (x : Exchanged) (ue : UeData) (next : Mem UInt8 → Called) :
    (x.analyze ue next).ret = some 0 ↔
      ∃ buffer, x.outcome = .answered buffer ∧ (next buffer).ret = some 0 := by
  rw [Exchanged.analyze]
  cases x.outcome with
  | blocked => simp
  | failed => simp
  | answered buffer => simp

theorem withTarget_net {env : CallEnv} {net : Net} {enbNum : Mem UInt8} {ue : UeData}
    {enbIp : List UInt8} (next : List UInt8 → Called)
    (h : targetEnbIp (sendGetEnbIp env ue (enbN enbNum)).1 = some enbIp) :
    (withTarget env net enbNum ue next).net = (next enbIp).net := by
  simp only [withTarget, h]

theorem analyze_net {x : Exchanged} {buffer : Mem UInt8} (ue : UeData)
    (next : Mem UInt8 → Called) (h : x.outcome = .answered buffer) :
    (x.analyze ue next).net = (next buffer).net := by
  simp only [Exchanged.analyze, h]

theorem withTarget_keeps {P : Net → UeData → Prop} {env : CallEnv} {net : Net}
    {enbNum : Mem UInt8} {ue : UeData} {next : List UInt8 → Called} (h : P net ue)
    (hnext : ∀ enbIp, P (next enbIp).net (next enbIp).ue) :
    P (withTarget env net enbNum ue next).net (withTarget env net enbNum ue next).ue := by
  simp only [withTarget]
  cases targetEnbIp (sendGetEnbIp env ue (enbN enbNum)).1 with
  | none => exact h
  | some enbIp => exact hnext enbIp

theorem analyze_keeps {P : Net → UeData → Prop} {x : Exchanged} {ue : UeData}
    {next : Mem UInt8 → Called} (h : P x.net ue)
    (hnext : ∀ buffer, P (next buffer).net (next buffer).ue) :
    P (x.analyze ue next).net (x.analyze ue next).ue := by
  rw [Exchanged.analyze]
  cases x.outcome with
  | blocked => exact h
  | failed => exact h
  | answered buffer => exact hnext buffer

end Phases

section Calls

variable (build : Build) (s : System ι) (c : Call ι)

/-- What holds of the eNBs on the way: every UE in a list has been in it before. -/
def NoneAdded (net net' : Net) : Prop := ∀ address id, Holds net' address id → Holds net address id

theorem call_keeps (hk : c.env.KeepsImsi) :
    NoneAdded s.net (call build s c).net ∧ imsiOf (call build s c).ue = imsiOf (s.ues c.ue) := by
  let P (net : Net) (ue : UeData) : Prop :=
    NoneAdded s.net net ∧ imsiOf ue = imsiOf (s.ues c.ue)
  have hhere : P s.net (s.ues c.ue) := ⟨fun _ _ h => h, rfl⟩
  have hfirst (code : UInt8) (hc : isHandover code) (address data : List UInt8) (size : Nat) :
      P (exchange build c.env.first s.net address (code :: data) size).net (s.ues c.ue) :=
    ⟨fun _ _ h => holds_of_exchange build _ _ _ _ _ hk.1 (.inl hc) h, rfl⟩
  have hsecond (code : UInt8) (hc : isHandover code ∨ code = ueAttach) (net : Net)
      (address data : List UInt8) (size : Nat) (hnet : NoneAdded s.net net) :
      NoneAdded s.net (exchange build c.env.second net address (code :: data) size).net :=
    fun a id h => hnet a id (holds_of_exchange build _ _ _ _ _ hk.2 hc h)
  change P (call build s c).net (call build s c).ue
  rw [call]
  cases c.flow with
  | x2Handover =>
    refine withTarget_keeps hhere fun enbIp => ?_
    have hx := hfirst hoSetup rfl (s.ues c.ue).enbIp (hoMsg hoSetup (s.ues c.ue) enbIp).tail 32
    have hy := hsecond hoRequest (.inl rfl) _ (s.ues c.ue).enbIp
      (hoMsg hoRequest (s.ues c.ue) [0, 0, 0, 0]).tail 32 hx.1
    refine analyze_keeps hx fun buffer => ?_
    split
    · exact hx
    · refine analyze_keeps ⟨hy, rfl⟩ fun buffer => ?_
      split <;> exact ⟨hy, rfl⟩
  | attachToEnb =>
    refine withTarget_keeps hhere fun enbIp => ?_
    have hx := hfirst ueTransfer rfl (s.ues c.ue).enbIp
      (hoMsg ueTransfer (s.ues c.ue) enbIp).tail 256
    have hy := hsecond ueAttach (.inr rfl) _ enbIp (idleMsg ueAttach (s.ues c.ue)).tail 256 hx.1
    refine analyze_keeps hx fun buffer => ?_
    split
    · exact hx
    · refine analyze_keeps ⟨hy, rfl⟩ fun buffer => ?_
      split
      · exact ⟨hy, rfl⟩
      · split <;> exact ⟨hy, rfl⟩
  | s1Handover =>
    refine withTarget_keeps hhere fun enbIp => ?_
    have hx := hfirst ueS1Handover rfl (s.ues c.ue).enbIp
      (hoMsg ueS1Handover (s.ues c.ue) enbIp).tail 32
    refine analyze_keeps hx fun buffer => ?_
    split
    · exact hx
    · exact ⟨hx.1, rfl⟩

theorem sendX2Handover_ret (env : CallEnv) (net : Net) (enbNum : Mem UInt8) (ue : UeData) :
    (sendX2Handover build env net enbNum ue).ret ≠ some 0 := by
  intro h
  obtain ⟨enbIp, -, h⟩ := (withTarget_ret _ _ _ _ _).mp h
  obtain ⟨buffer, hfirst, h⟩ := (analyze_ret _ _ _).mp h
  by_cases hb : buffer 0 = x2Error
  · rw [if_pos hb] at h
    cases h
  · rw [if_neg hb] at h
    obtain ⟨buffer', hsecond, -⟩ := (analyze_ret _ _ _).mp h
    -- the source is dead, and the request is made to its address
    have hdead := (handover_answered build _ _ _ _ rfl hfirst hb).2.2.2
    obtain ⟨-, list, hlist⟩ := exchange_answered build _ _ _ _ _ hsecond
    rw [hoMsg, hdead, Function.update_self] at hlist
    cases hlist

theorem sendS1Handover_ret (env : CallEnv) (net : Net) (enbNum : Mem UInt8) (ue : UeData) :
    (sendS1Handover build env net enbNum ue).ret ≠ some 0 := by
  intro h
  obtain ⟨enbIp, -, h⟩ := (withTarget_ret _ _ _ _ _).mp h
  obtain ⟨buffer, hfirst, h⟩ := (analyze_ret _ _ _).mp h
  by_cases hb : buffer 0 = okCode ||| ueS1Handover
  · have hne : buffer 0 ≠ x2Error := by
      rw [hb]
      decide
    have hcode := (handover_answered build _ _ _ _ rfl hfirst hne).2.2.1
    rw [hb] at hcode
    exact absurd hcode (by decide)
  · rw [if_pos hb] at h
    cases h

/-- The source dies of the transfer, and the code of the request is still in the buffer. -/
theorem transfer_served (x : Exchange) (net : Net) (ue : UeData) (enbIp : List UInt8)
    (hx : x.Undisturbed) {list : List EnbEmulator.UE} (hn : net ue.enbIp = some list)
    (hl : list ≠ []) :
    exchange build x net ue.enbIp (hoMsg ueTransfer ue enbIp) 256 =
      { outcome := .answered (.ofList (hoMsg ueTransfer ue enbIp) 0)
        net := Function.update net ue.enbIp none
        sent := [(.enb ue.enbIp, hoMsg ueTransfer ue enbIp)] } :=
  handover_served build _ _ _ _ _ rfl hx hn hl

theorem transfer_code (ue : UeData) (enbIp : List UInt8) :
    Mem.ofList (hoMsg ueTransfer ue enbIp) 0 0 ≠ x2Error := by
  change ueTransfer ≠ x2Error
  decide

theorem call_ret_iff : (call build s c).ret = some 0 ↔ AttachesAsNamesake build s c := by
  rw [call]
  constructor
  · intro h
    cases hflow : c.flow with
    | x2Handover =>
      rw [hflow] at h
      exact absurd h (sendX2Handover_ret build _ _ _ _)
    | s1Handover =>
      rw [hflow] at h
      exact absurd h (sendS1Handover_ret build _ _ _ _)
    | attachToEnb =>
      rw [hflow] at h
      obtain ⟨enbIp, htarget, h⟩ := (withTarget_ret _ _ _ _ _).mp h
      obtain ⟨buffer, hfirst, h⟩ := (analyze_ret _ _ _).mp h
      by_cases hb : buffer 0 = x2Error
      · rw [if_pos hb] at h
        cases h
      rw [if_neg hb] at h
      obtain ⟨hundisturbed, hsource, -, hnet⟩ :=
        handover_answered build _ _ _ _ rfl hfirst hb
      obtain ⟨buffer', hsecond, h⟩ := (analyze_ret _ _ _).mp h
      by_cases hb' : buffer' 0 = okCode ||| ueAttach
      · rw [if_neg (by simpa using hb')] at h
        obtain ⟨hundisturbed', list, hlist, hlisted⟩ :=
          (attach_answered_iff build _ _ _ _ _).mp ⟨buffer', hsecond, hb'⟩
        rw [hoMsg, hnet] at hlist
        have hne : enbIp ≠ (s.ues c.ue).enbIp := by
          intro he
          rw [he, Function.update_self] at hlist
          cases hlist
        rw [Function.update_of_ne hne] at hlist
        refine ⟨hflow, hundisturbed, hsource, hundisturbed',
          ⟨enbIp, htarget, hne, list, hlist, hlisted⟩, ?_⟩
        intro hmode
        by_contra hdata
        rw [if_pos ⟨hmode, by omega⟩] at h
        cases h
      · rw [if_pos (by simpa using hb')] at h
        cases h
  · rintro ⟨hflow, hundisturbed, ⟨list, hlist, hl⟩, hundisturbed', htarget, hdata⟩
    obtain ⟨enbIp, htarget, hne, list', hlist', hlisted⟩ := htarget
    rw [hflow]
    have hserved := transfer_served build c.env.first s.net (s.ues c.ue) enbIp hundisturbed hlist hl
    rw [← Function.update_of_ne hne none s.net] at hlist'
    obtain ⟨buffer, hsecond, hb⟩ :=
      (attach_answered_iff build c.env.second _ enbIp 255 _).mpr
        ⟨hundisturbed', list', hlist', hlisted⟩
    refine (withTarget_ret _ _ _ _ _).mpr ⟨enbIp, htarget, (analyze_ret _ _ _).mpr
      ⟨_, by rw [hserved], ?_⟩⟩
    rw [if_neg (transfer_code _ _), hserved]
    refine (analyze_ret _ _ _).mpr ⟨buffer, hsecond, ?_⟩
    rw [if_neg (by simpa using hb), if_neg (by rintro ⟨hmode, hlt⟩; have := hdata hmode; omega)]

theorem source_dead (h : AttachesAsNamesake build s c) :
    (call build s c).net (s.ues c.ue).enbIp = none := by
  obtain ⟨list, hlist, hl⟩ := h.source
  obtain ⟨enbIp, htarget, hne, -⟩ := h.target
  have hserved := transfer_served build c.env.first s.net (s.ues c.ue) enbIp h.first hlist hl
  rw [call, h.flow]
  simp only [sendUeAttachToEnb]
  rw [withTarget_net _ htarget, hserved, analyze_net _ _ rfl, if_neg (transfer_code _ _)]
  have hdead : (exchange build c.env.second (Function.update s.net (s.ues c.ue).enbIp none) enbIp
      (idleMsg ueAttach (s.ues c.ue)) 256).net (s.ues c.ue).enbIp = none := by
    rw [exchange_net_of_ne build _ _ _ _ _ hne.symm, Function.update_self]
  refine @analyze_keeps (fun net _ => net (s.ues c.ue).enbIp = none) _ _ _ hdead fun buffer => ?_
  split
  · exact hdead
  · split <;> exact hdead

end Calls

section Runs

variable [DecidableEq ι] (build : Build)

@[simp] theorem step_net (s : System ι) (c : Call ι) :
    (step build s c).net = (call build s c).net := rfl

@[simp] theorem step_ues_self (s : System ι) (c : Call ι) :
    (step build s c).ues c.ue = (call build s c).ue := Function.update_self c.ue _ s.ues

theorem step_ues_of_ne (s : System ι) (c : Call ι) {i : ι} (h : i ≠ c.ue) :
    (step build s c).ues i = s.ues i := Function.update_of_ne h _ s.ues

/-- No UE is in the lists of two eNBs. -/
def HeldOnce (s : System ι) : Prop :=
  ∀ i a b, Holds s.net a (imsiOf (s.ues i)) → Holds s.net b (imsiOf (s.ues i)) → a = b

/-- A call that returns 0 does not move its UE. -/
theorem not_moves_of_ret {s : System ι} {c : Call ι}
    (hk : c.env.KeepsImsi) (hone : HeldOnce s)
    (hret : (call build s c).ret = some 0) {enbIp : List UInt8}
    (htarget : c.target s = some enbIp) : ¬Moves build s c enbIp := by
  intro hmoves
  have hattach := (call_ret_iff build s c).mp hret
  obtain ⟨list, hlist, hl⟩ := hattach.source
  obtain ⟨ue, hue⟩ := List.exists_mem_of_ne_nil list hl
  have hheld : Holds s.net (s.ues c.ue).enbIp (imsi ue) := ⟨list, hlist, ue, hue, rfl⟩
  by_cases hid : imsi ue = imsiOf (s.ues c.ue)
  · -- the UE was with the source, so the target has had another one
    obtain ⟨enbIp', htarget', hne, -⟩ := hattach.target
    have he : enbIp' = enbIp := Option.some.inj (htarget'.symm.trans htarget)
    have hbefore := (call_keeps build s c hk).1 _ _ ((hmoves.held enbIp).mpr rfl)
    exact hne (he.trans (hone c.ue _ _ hbefore (hid ▸ hheld)))
  · -- another UE was with the source
    obtain ⟨list', hlist', -⟩ := (hmoves.others _ hid _).mpr hheld
    rw [step_net, source_dead build s c hattach] at hlist'
    cases hlist'

theorem heldOnce_step {s : System ι} {c : Call ι}
    (hk : c.env.KeepsImsi) (h : HeldOnce s) :
    HeldOnce (step build s c) := by
  obtain ⟨hnet, hue⟩ := call_keeps build s c hk
  intro i a b ha hb
  have hid : imsiOf ((step build s c).ues i) = imsiOf (s.ues i) := by
    by_cases hi : i = c.ue
    · rw [hi, step_ues_self, hue]
    · rw [step_ues_of_ne build s c hi]
  rw [hid] at ha hb
  exact h i a b (hnet _ _ ha) (hnet _ _ hb)

theorem heldOnce_after {s : System ι} {calls : List (Call ι)}
    (hk : ∀ c ∈ calls, c.env.KeepsImsi)
    (h : HeldOnce s) : HeldOnce (after build s calls) := by
  induction calls generalizing s with
  | nil => exact h
  | cons c calls ih =>
    exact ih (fun c' hc' => hk c' (.tail c hc')) (heldOnce_step build (hk c (.head calls)) h)

/-- The calls of a sequence move their UEs exactly when none of them attaches to a namesake. -/
theorem handoversMove_iff (s : System ι) (calls : List (Call ι))
    (hheld : ∀ i, ∃! address, Holds s.net address (imsiOf (s.ues i)))
    (hk : ∀ c ∈ calls, c.env.KeepsImsi) :
    HandoversMove build s calls ↔
      ∀ before c, before ++ [c] <+: calls →
        ¬AttachesAsNamesake build (after build s before) c := by
  have hone : HeldOnce s := fun i a b ha hb => (hheld i).unique ha hb
  constructor
  · intro hmove before c hpre hattach
    have hkc : ∀ c' ∈ before ++ [c], c'.env.KeepsImsi :=
      fun c' hc' => hk c' (hpre.subset hc')
    have hret := (call_ret_iff build _ c).mpr hattach
    obtain ⟨enbIp, htarget, hmoves⟩ := hmove before c hpre hret
    refine not_moves_of_ret build (hkc c (by simp)) ?_ hret htarget hmoves
    exact heldOnce_after build (fun c' hc' => hkc c' (List.mem_append_left _ hc')) hone
  · intro hnone before c hpre hret
    exact absurd ((call_ret_iff build _ c).mp hret) (hnone before c hpre)

end Runs

def sourceIp : List UInt8 := [10, 0, 0, 1]
def targetIp : List UInt8 := [10, 0, 0, 2]
def sharedMsin : List UInt8 := [0x30, 0x30, 0x30, 0x30, 0x30, 0x30, 0x30, 0x30, 0x30, 0x31]

def namesakeMcc : Bool → List UInt8
  | true => [0x32, 0x30, 0x38]
  | false => [0x39, 0x30, 0x31]

def namesakeRecord (i : Bool) : EnbEmulator.UE where
  mcc := namesakeMcc i
  mnc := [0x39, 0x33]
  msinString := sharedMsin ++ List.replicate 6 0
  mmeS1apIdLen := 0
  key := List.replicate 16 0
  opKey := List.replicate 16 0
  spgwIp := [0, 0, 0, 0]
  gtpTeid := 0
  pdnIp := [0, 0, 0, 0]
  ueIp := [0, 0, 0, 0]
  nasSequenceNumber := 0

def namesakeData (i : Bool) : UeData where
  id := [0, 0, 0, 1]
  mcc := namesakeMcc i ++ [0]
  mnc := [0x39, 0x33, 0, 0]
  msin := sharedMsin ++ [0, 0]
  key := List.replicate 16 0
  opKey := List.replicate 16 0
  command := [0]
  enbIp := bif i then sourceIp else targetIp
  localIp := [0, 0, 0, 0]
  ueIp := [0, 0, 0, 0]
  spgwPort := 2152
  threadId := 1
  controlPlane := []

/-- Each of the two eNBs serves one of the two UEs. -/
def namesakes : System Bool where
  net := fun address =>
    if address = sourceIp then some [namesakeRecord true]
    else if address = targetIp then some [namesakeRecord false]
    else none
  ues := namesakeData

def goodExchange : Exchange where
  socket := true
  connectFails := false
  readFails := false
  prior := fun _ => 0
  stale := []
  enb := ⟨fun _ ue => (false, ue), EnbEmulator.UE.ofBuffer fun _ => 0, true, true, true, true, none,
    none⟩

/-- The first UE attaches to the eNB of the second. -/
def namesakeCall : Call Bool where
  ue := true
  flow := .attachToEnb
  enbNum := fun _ => 1
  env := ⟨true, some (0x87 :: targetIp), goodExchange, goodExchange, 1, 0⟩

theorem namesakes_held (i : Bool) :
    ∃! address, Holds namesakes.net address (imsiOf (namesakes.ues i)) := by
  have hid : ∀ j, imsi (namesakeRecord j) = imsiOf (namesakes.ues i) ↔ j = i := by
    revert i
    decide
  refine ⟨bif i then sourceIp else targetIp, ?_, ?_⟩
  · cases i with
    | true => exact ⟨[namesakeRecord true], rfl, _, .head [], (hid true).mpr rfl⟩
    | false => exact ⟨[namesakeRecord false], rfl, _, .head [], (hid false).mpr rfl⟩
  · rintro address ⟨list, hlist, ue, hue, himsi⟩
    simp only [namesakes] at hlist
    split at hlist
    · next ha =>
      cases hlist
      cases List.mem_singleton.mp hue
      rw [ha, ← (hid true).mp himsi]
      rfl
    · split at hlist
      · next ha =>
        cases hlist
        cases List.mem_singleton.mp hue
        rw [ha, ← (hid false).mp himsi]
        rfl
      · cases hlist

theorem namesakeCall_target : namesakeCall.target namesakes = some targetIp := by decide

theorem namesakeCall_attaches : AttachesAsNamesake .fiveG namesakes namesakeCall where
  flow := rfl
  first := ⟨rfl, rfl, rfl⟩
  source := ⟨[namesakeRecord true], rfl, by simp⟩
  second := ⟨rfl, rfl, rfl⟩
  target := ⟨targetIp, namesakeCall_target, by decide, [namesakeRecord false], rfl,
    namesakeRecord false, by decide, rfl⟩
  dataPlane := fun _ => le_refl 0

theorem namesakeCall_keeps : namesakeCall.env.KeepsImsi := ⟨fun _ _ => rfl, fun _ _ => rfl⟩

/-- The UE attaches to the eNB of its namesake and is lost with its own. -/
theorem not_handoversMove :
    ¬∀ (s : System Bool) (calls : List (Call Bool)),
      (∀ i, ∃! address, Holds s.net address (imsiOf (s.ues i))) →
      (∀ c ∈ calls, c.env.first.Undisturbed ∧ c.env.second.Undisturbed ∧
        (∀ p ue, c.env.first.enb.procedure p ue = (false, ue)) ∧
        (∀ p ue, c.env.second.enb.procedure p ue = (false, ue)) ∧
        ∃ enbIp list, c.target s = some enbIp ∧ s.net enbIp = some list) →
      HandoversMove .fiveG s calls := by
  intro h
  have hcalls : ∀ c ∈ [namesakeCall], c.env.first.Undisturbed ∧ c.env.second.Undisturbed ∧
      (∀ p ue, c.env.first.enb.procedure p ue = (false, ue)) ∧
      (∀ p ue, c.env.second.enb.procedure p ue = (false, ue)) ∧
      ∃ enbIp list, c.target namesakes = some enbIp ∧ namesakes.net enbIp = some list := by
    intro c hc
    rw [List.mem_singleton.mp hc]
    exact ⟨⟨rfl, rfl, rfl⟩, ⟨rfl, rfl, rfl⟩, fun _ _ => rfl, fun _ _ => rfl,
      targetIp, [namesakeRecord false], namesakeCall_target, rfl⟩
  have hret := (call_ret_iff .fiveG namesakes namesakeCall).mpr namesakeCall_attaches
  obtain ⟨enbIp, htarget, hmoves⟩ :=
    h namesakes [namesakeCall] namesakes_held hcalls [] namesakeCall List.prefix_rfl hret
  have hone : HeldOnce namesakes := fun i a b ha hb => (namesakes_held i).unique ha hb
  exact not_moves_of_ret .fiveG namesakeCall_keeps hone hret htarget hmoves

theorem not_handoversMove_namesakes : ¬HandoversMove .fiveG namesakes [namesakeCall] := by
  intro h
  refine (handoversMove_iff .fiveG namesakes [namesakeCall] namesakes_held ?_).mp h [] namesakeCall
    List.prefix_rfl namesakeCall_attaches
  intro c hc
  rw [List.mem_singleton.mp hc]
  exact namesakeCall_keeps

end PublicCloudCore.RanEmulator.Handover
