import PublicCloudCore.RanEmulator.ControlPlane

/-!
# Scripts and what the slave makes of them

The meaning of a script is read off its tokens, up to the first `inf`. The thread follows it as long
as the numbers survive `int` and their three bytes, and the records their two-byte length.
-/

namespace PublicCloudCore.RanEmulator

open Framework RanController

inductive Delay
  | seconds (n : Nat)
  | inf
  deriving DecidableEq, Repr

structure Step where
  action : Action
  delay : Delay
  deriving DecidableEq, Repr

def actionNames : List (Token × Action) :=
  [(init, .init), (detach, .detach), (detachSwitchOff, .detachSwitchOff), (attach, .attach),
    (moveToIdle, .moveToIdle), (moveToConnected, .moveToConnected)]

def handoverNames : List (Token × (Nat → Action)) :=
  [(x2handover, .x2Handover), (attach, .attachToEnb), (s1handover, .s1Handover)]

def readAction? (a : Token) : Option Action :=
  match actionNames.lookup a with
  | some action => some action
  | none =>
      match a.splitOn '_' with
      | [name, number] =>
          (handoverNames.lookup name).bind fun handover => (decimalValue? number).map handover
      | _ => none

/-- The steps up to the first `inf`. -/
def readScript? : List Token → Option (List Step)
  | a :: d :: rest =>
      (readAction? a).bind fun action =>
        if d = inf then some [⟨action, .inf⟩]
        else
          (decimalValue? d).bind fun n =>
            (readScript? rest).map fun steps => ⟨action, .seconds n⟩ :: steps
  | _ => some []

/-- What the script says, once, and whether it says that this is all. -/
def scriptPass : List Step → List Event × Bool
  | [] => ([], false)
  | ⟨a, .inf⟩ :: _ => ([.act a], true)
  | ⟨a, .seconds n⟩ :: steps => (.act a :: .sleep n :: (scriptPass steps).1, (scriptPass steps).2)

/-- The thread does what the script says, from any memory that the records lie in. -/
def ExecutedAsWritten (script : List Char) : Prop :=
  ∃ data steps, serializeControlPlane script = .ok data ∧
    readScript? (script.splitOn '-') = some steps ∧
    ∀ cp : Mem UInt8, cp.Holds 0 data →
      ∀ n, controlPlane cp (UInt16.ofNat data.length) n = rounds (scriptPass steps) n

/-- `int` reads the number, and it is below the bound. -/
def Small (bound : Nat) (t : Token) : Prop :=
  ∃ n, decimalValue? t = some n ∧ n < bound ∧ t.length ≤ intMaxStrDigits

/-- The number of the target eNB, if there is one, has three bytes. -/
def ActionFits (a : Token) : Prop :=
  (actions.lookup a).isSome ∨ ∃ name number, a.splitOn '_' = [name, number] ∧ Small (2 ^ 24) number

/-- Every number up to the first `inf` fits its three bytes and is not the one that means `inf`. -/
def ScriptFits : List Token → Prop
  | a :: d :: rest => ActionFits a ∧ (d = inf ∨ Small infSleep d ∧ ScriptFits rest)
  | _ => True

/-- The bytes of the records up to the first `inf`: four, and four more for a handover. -/
def scriptBytes : List Token → Nat
  | a :: d :: rest =>
      (if (actions.lookup a).isSome then 4 else 8) + if d = inf then 0 else scriptBytes rest
  | _ => 0

def IsAction (a : Token) : Prop :=
  (actions.lookup a).isSome ∨ actions.lookup a = none ∧ ∃ name number, a.splitOn '_' = [name, number] ∧
    (specialActions.lookup name).isSome ∧ isdigit number

def IsDelay (d : Token) : Prop := isdigit d ∨ d = inf

inductive WellShaped : List Token → Prop
  | nil : WellShaped []
  | cons {a d : Token} {rest : List Token} :
      IsAction a → IsDelay d → WellShaped rest → WellShaped (a :: d :: rest)

theorem isAction_of_counterStep? {a : Token} {d : Int} (h : counterStep? a = some d) :
    IsAction a := by
  unfold counterStep? at h
  split at h
  · next entry hlookup => exact Or.inl (by rw [hlookup]; rfl)
  · next hnone =>
    split at h
    · split at h
      · next name number hsplit =>
        split at h
        · next entry hspecial =>
          split at h
          · next hdigit => exact Or.inr ⟨hnone, name, number, hsplit, by rw [hspecial]; rfl, hdigit⟩
          · cases h
        · cases h
      · cases h
    · cases h

theorem validateTokens_shape {ts : List Token} {counter counter' : Int} {numFlag : Bool}
    (h : validateTokens ts counter numFlag = some (counter', true)) :
    if numFlag then WellShaped ts
    else ∃ d rest, ts = d :: rest ∧ IsDelay d ∧ WellShaped rest := by
  induction ts generalizing counter numFlag with
  | nil =>
      cases h
      exact .nil
  | cons a as ih =>
      rw [validateTokens] at h
      by_cases hdelay : (isdigit a || a == inf) = true
      · rw [if_pos hdelay] at h
        cases numFlag with
        | true => cases h
        | false =>
            have hshape : WellShaped as := ih h
            refine ⟨a, as, rfl, ?_, hshape⟩
            rw [Bool.or_eq_true, beq_iff_eq] at hdelay
            exact hdelay
      · rw [if_neg hdelay] at h
        split at h
        · cases h
        · cases hstep : counterStep? a with
          | none =>
              rw [hstep] at h
              cases h
          | some d =>
              simp only [hstep] at h
              split at h
              · cases h
              · cases numFlag with
                | false => cases h
                | true =>
                    obtain ⟨d, rest, rfl, hd, hrest⟩ := ih h
                    exact .cons (isAction_of_counterStep? hstep) hd hrest

theorem wellShaped_of_validate {script : List Char}
    (h : validateControlPlaneActions script = true) : WellShaped (script.splitOn '-') := by
  unfold validateControlPlaneActions at h
  split at h
  · cases h
  · next first rest hsplit =>
    split at h
    · next hinit =>
      split at h
      · cases h
      · next counter numFlag hvalidate =>
        cases numFlag with
        | false => simp at h
        | true =>
            obtain ⟨d, rest, rfl, hd, hrest⟩ := validateTokens_shape hvalidate
            rw [hsplit, hinit]
            exact .cons (Or.inl rfl) hd hrest
    · cases h

def Action.record : Action → List UInt8
  | .init => [0]
  | .detach => [1]
  | .detachSwitchOff => [2]
  | .attach => [3]
  | .moveToIdle => [4]
  | .moveToConnected => [5]
  | .x2Handover n => 6 :: (threeBytes n ++ [0])
  | .attachToEnb n => 7 :: (threeBytes n ++ [0])
  | .s1Handover n => 8 :: (threeBytes n ++ [0])

def Delay.record : Delay → List UInt8
  | .seconds n => threeBytes n
  | .inf => [0xFF, 0xFF, 0xFF]

def Step.record (st : Step) : List UInt8 := st.action.record ++ st.delay.record

def Action.Fits : Action → Prop
  | .x2Handover n => n < 2 ^ 24
  | .attachToEnb n => n < 2 ^ 24
  | .s1Handover n => n < 2 ^ 24
  | _ => True

def Delay.Fits : Delay → Prop
  | .seconds n => n < infSleep
  | .inf => True

structure Step.Fits (st : Step) : Prop where
  action : st.action.Fits
  delay : st.delay.Fits

/-- Nothing follows `inf`. -/
inductive InfLast : List Step → Prop
  | nil : InfLast []
  | inf (a : Action) : InfLast [⟨a, .inf⟩]
  | cons (a : Action) (n : Nat) {steps : List Step} :
      InfLast steps → InfLast (⟨a, .seconds n⟩ :: steps)

theorem actions_names {a : Token} (h : (actions.lookup a).isSome) :
    ∃ entry action, actions.lookup a = some entry ∧ actionNames.lookup a = some action ∧
      action.record = [entry.2] ∧ action.Fits := by
  by_cases hinit : a = init
  · subst hinit
    exact ⟨_, _, rfl, rfl, rfl, trivial⟩
  by_cases hdetach : a = detach
  · subst hdetach
    exact ⟨_, _, rfl, rfl, rfl, trivial⟩
  by_cases hoff : a = detachSwitchOff
  · subst hoff
    exact ⟨_, _, rfl, rfl, rfl, trivial⟩
  by_cases hattach : a = attach
  · subst hattach
    exact ⟨_, _, rfl, rfl, rfl, trivial⟩
  by_cases hidle : a = moveToIdle
  · subst hidle
    exact ⟨_, _, rfl, rfl, rfl, trivial⟩
  by_cases hconnected : a = moveToConnected
  · subst hconnected
    exact ⟨_, _, rfl, rfl, rfl, trivial⟩
  · simp only [actions, List.lookup, beq_eq_false_iff_ne.mpr hinit,
      beq_eq_false_iff_ne.mpr hdetach, beq_eq_false_iff_ne.mpr hoff,
      beq_eq_false_iff_ne.mpr hattach, beq_eq_false_iff_ne.mpr hidle,
      beq_eq_false_iff_ne.mpr hconnected] at h
    cases h

theorem specialActions_names {name : Token} (h : (specialActions.lookup name).isSome) :
    ∃ entry handover, specialActions.lookup name = some entry ∧
      handoverNames.lookup name = some handover ∧
      ∀ n, (handover n).record = entry.2 :: (threeBytes n ++ [0]) ∧
        ((handover n).Fits ↔ n < 2 ^ 24) := by
  by_cases hx2 : name = x2handover
  · subst hx2
    exact ⟨_, _, rfl, rfl, fun n => ⟨rfl, Iff.rfl⟩⟩
  by_cases hattach : name = attach
  · subst hattach
    exact ⟨_, _, rfl, rfl, fun n => ⟨rfl, Iff.rfl⟩⟩
  by_cases hs1 : name = s1handover
  · subst hs1
    exact ⟨_, _, rfl, rfl, fun n => ⟨rfl, Iff.rfl⟩⟩
  · simp only [specialActions, List.lookup, beq_eq_false_iff_ne.mpr hx2,
      beq_eq_false_iff_ne.mpr hattach, beq_eq_false_iff_ne.mpr hs1] at h
    cases h

theorem actionNames_eq_none {a : Token} (h : actions.lookup a = none) :
    actionNames.lookup a = none := by
  have hkeys : actionNames.map Prod.fst = actions.map Prod.fst := rfl
  rw [List.lookup_eq_none_iff] at h ⊢
  intro p hp
  have hmem : p.1 ∈ actions.map Prod.fst := hkeys ▸ List.mem_map_of_mem hp
  obtain ⟨q, hq, hkey⟩ := List.mem_map.mp hmem
  rw [← hkey]
  exact h q hq

theorem int_cases (bound : Nat) (t : Token) :
    (∃ n, int t = .ok n ∧ decimalValue? t = some n ∧ (Small bound t ↔ n < bound)) ∨
      (∃ e, int t = .error e) ∧ ¬ Small bound t := by
  cases hvalue : decimalValue? t with
  | none =>
      refine Or.inr ⟨⟨_, by rw [int, hvalue]⟩, fun ⟨n, hn, _⟩ => ?_⟩
      rw [hvalue] at hn
      cases hn
  | some n =>
      by_cases hlong : intMaxStrDigits < t.length
      · refine Or.inr ⟨⟨.valueError, ?_⟩, fun ⟨_, _, _, hshort⟩ => Nat.not_lt.mpr hshort hlong⟩
        rw [int, hvalue]
        exact if_pos hlong
      · refine Or.inl ⟨n, ?_, rfl, ?_⟩
        · rw [int, hvalue]
          exact if_neg hlong
        · constructor
          · intro ⟨m, hm, hlt, _⟩
            rw [hvalue] at hm
            exact Option.some.inj hm ▸ hlt
          · intro hlt
            exact ⟨n, hvalue, hlt, Nat.not_lt.mp hlong⟩

theorem IsAction.serialize_cases {a : Token} (h : IsAction a) :
    (∃ action, serializeAction a = .ok action.record ∧ readAction? a = some action ∧
        (ActionFits a ↔ action.Fits) ∧
        action.record.length + 3 = if (actions.lookup a).isSome then 4 else 8) ∨
      (∃ e, serializeAction a = .error e) ∧ ¬ ActionFits a := by
  rcases h with hplain | ⟨hnone, name, number, hsplit, hspecial, _⟩
  · obtain ⟨entry, action, hentry, haction, hrecord, hfits⟩ := actions_names hplain
    refine Or.inl ⟨action, ?_, ?_, ⟨fun _ => hfits, fun _ => Or.inl hplain⟩, ?_⟩
    · rw [serializeAction, hentry, hrecord]
    · rw [readAction?, haction]
    · rw [if_pos hplain, hrecord]
      rfl
  · obtain ⟨entry, handover, hentry, hhandover, hrecord⟩ := specialActions_names hspecial
    have hfits : ActionFits a ↔ Small (2 ^ 24) number := by
      rw [ActionFits, hnone, hsplit]
      constructor
      · rintro (hsome | ⟨name', number', hsame, hsmall⟩)
        · cases hsome
        · obtain ⟨_, hnumber⟩ := List.cons.inj hsame
          rwa [(List.cons.inj hnumber).1]
      · intro hsmall
        exact Or.inr ⟨name, number, rfl, hsmall⟩
    rcases int_cases (2 ^ 24) number with ⟨n, hint, hvalue, hsmall⟩ | ⟨⟨e, hint⟩, hsmall⟩
    · refine Or.inl ⟨handover n, ?_, ?_, ?_, ?_⟩
      · rw [serializeAction, hnone, hsplit, (hrecord n).1]
        simp only [hentry, hint]
      · rw [readAction?, actionNames_eq_none hnone, hsplit]
        simp only [hhandover, hvalue, Option.bind_some, Option.map_some]
      · rw [hfits, hsmall, (hrecord n).2]
      · rw [hnone, (hrecord n).1]
        rfl
    · refine Or.inr ⟨⟨e, ?_⟩, fun h => hsmall (hfits.mp h)⟩
      rw [serializeAction, hnone, hsplit]
      simp only [hentry, hint]

/-- What `serialize_control_plane` makes of the steps. -/
def records (steps : List Step) : List UInt8 := steps.flatMap Step.record

theorem records_cons (st : Step) (steps : List Step) :
    records (st :: steps) = st.action.record ++ st.delay.record ++ records steps := rfl

theorem WellShaped.serialize_cases {ts : List Token} (h : WellShaped ts) :
    (∃ steps, serializeTokens ts = .ok (records steps) ∧ readScript? ts = some steps ∧
        (ScriptFits ts ↔ ∀ st ∈ steps, st.Fits) ∧ (records steps).length = scriptBytes ts ∧
        InfLast steps) ∨
      (∃ e, serializeTokens ts = .error e) ∧ ¬ ScriptFits ts := by
  induction h with
  | nil => exact Or.inl ⟨[], rfl, rfl, ⟨fun _ _ hst => (by cases hst), fun _ => trivial⟩, rfl, .nil⟩
  | cons ha hd hrest ih =>
      rename_i a d rest
      rcases ha.serialize_cases with ⟨action, hser, hread, hfits, hlen⟩ | ⟨⟨e, hser⟩, hfits⟩
      swap
      · exact Or.inr ⟨⟨e, by rw [serializeTokens, hser]⟩, fun hscript => hfits hscript.1⟩
      by_cases hinf : d = inf
      · refine Or.inl ⟨[⟨action, .inf⟩], ?_, ?_, ?_, ?_, .inf action⟩
        · simp only [serializeTokens, hser, if_pos hinf]
          rw [records_cons]
          exact congrArg Except.ok (List.append_nil _).symm
        · rw [readScript?, hread, Option.bind_some, if_pos hinf]
        · rw [ScriptFits, hfits, List.forall_mem_singleton]
          constructor
          · intro haction
            exact ⟨haction.1, trivial⟩
          · intro hst
            exact ⟨hst.action, Or.inl hinf⟩
        · rw [scriptBytes, ← hlen, if_pos hinf, records_cons, List.length_append, List.length_append]
          rfl
      rcases int_cases infSleep d with ⟨n, hint, hvalue, hsmall⟩ | ⟨⟨e, hint⟩, hsmall⟩
      swap
      · refine Or.inr ⟨⟨e, ?_⟩, fun hscript => ?_⟩
        · simp only [serializeTokens, hser, if_neg hinf, hint]
        · exact hsmall (hscript.2.resolve_left hinf).1
      rcases ih with ⟨steps, hsers, hreads, hfit, hbytes, hlast⟩ | ⟨⟨e, hsers⟩, hfit⟩
      swap
      · refine Or.inr ⟨⟨e, ?_⟩, fun hscript => ?_⟩
        · simp only [serializeTokens, hser, if_neg hinf, hint, hsers]
        · exact hfit (hscript.2.resolve_left hinf).2
      refine Or.inl ⟨⟨action, .seconds n⟩ :: steps, ?_, ?_, ?_, ?_, .cons action n hlast⟩
      · simp only [serializeTokens, hser, if_neg hinf, hint, hsers]
        rfl
      · rw [readScript?, hread, Option.bind_some, if_neg hinf, hvalue, Option.bind_some, hreads,
          Option.map_some]
      · rw [ScriptFits, hfits, hsmall, hfit, List.forall_mem_cons]
        constructor
        · intro hscript
          obtain ⟨hn, hsteps⟩ := hscript.2.resolve_left hinf
          exact ⟨⟨hscript.1, hn⟩, hsteps⟩
        · intro hsteps
          exact ⟨hsteps.1.action, Or.inr ⟨hsteps.1.delay, hsteps.2⟩⟩
      · rw [scriptBytes, ← hlen, if_neg hinf, ← hbytes, records_cons, List.length_append,
          List.length_append]
        rfl

def Action.truncate : Action → Action
  | .x2Handover n => .x2Handover (n % 2 ^ 24)
  | .attachToEnb n => .attachToEnb (n % 2 ^ 24)
  | .s1Handover n => .s1Handover (n % 2 ^ 24)
  | a => a

def Delay.truncate : Delay → Delay
  | .seconds n => if n % 2 ^ 24 = infSleep then .inf else .seconds (n % 2 ^ 24)
  | .inf => .inf

def Step.truncate (st : Step) : Step := ⟨st.action.truncate, st.delay.truncate⟩

theorem Action.truncate_eq_iff (a : Action) : a.truncate = a ↔ a.Fits := by
  cases a <;> simp only [truncate, Fits, x2Handover.injEq, attachToEnb.injEq, s1Handover.injEq] <;>
    exact Nat.mod_eq_iff_lt (by decide)

theorem readThreeBytes_holds {p : Mem UInt8} {n : Nat} (h : p.Holds 1 (threeBytes n)) :
    readThreeBytes p = n % 2 ^ 24 := by
  simp only [threeBytes, Mem.holds_cons] at h
  obtain ⟨h2, h1, h0, _⟩ := h
  rw [readThreeBytes, h2, h1, h0, byteAt_toNat, byteAt_toNat, byteAt_toNat]
  omega

theorem holds_shift {m : Mem UInt8} {k p : Nat} {bs : List UInt8} (h : m.Holds (k + p) bs) :
    (m.shift k).Holds p bs := by
  rw [Mem.Holds, Mem.read_shift]
  exact h

/-- The records of handovers are longer. -/
def Action.isHandover : Action → Bool
  | .x2Handover _ => true
  | .attachToEnb _ => true
  | .s1Handover _ => true
  | _ => false

theorem Action.record_length (a : Action) :
    a.record.length = if a.isHandover then 5 else 1 := by
  cases a <;> rfl

theorem doControlPlaneAction_record {p : Mem UInt8} {a : Action} (h : p.Holds 0 a.record) :
    doControlPlaneAction p = (some a.truncate, a.isHandover) := by
  cases a with
  | x2Handover n =>
      simp only [Action.record, Mem.holds_cons, Mem.holds_append] at h
      rw [doControlPlaneAction, h.1, readThreeBytes_holds h.2.1]
      rfl
  | attachToEnb n =>
      simp only [Action.record, Mem.holds_cons, Mem.holds_append] at h
      rw [doControlPlaneAction, h.1, readThreeBytes_holds h.2.1]
      rfl
  | s1Handover n =>
      simp only [Action.record, Mem.holds_cons, Mem.holds_append] at h
      rw [doControlPlaneAction, h.1, readThreeBytes_holds h.2.1]
      rfl
  | _ =>
      rw [Action.record, Mem.holds_cons] at h
      rw [doControlPlaneAction, h.1]
      rfl

theorem Delay.record_length (d : Delay) : d.record.length = 3 := by
  cases d <;> rfl

def Delay.sleep : Delay → Nat
  | .seconds n => n % 2 ^ 24
  | .inf => infSleep

theorem readThreeBytes_record {p : Mem UInt8} {d : Delay} (h : p.Holds 1 d.record) :
    readThreeBytes p = d.sleep := by
  cases d with
  | seconds n => exact readThreeBytes_holds h
  | inf =>
      simp only [Delay.record, Mem.holds_cons] at h
      obtain ⟨h1, h2, h3, _⟩ := h
      rw [readThreeBytes, h1, h2, h3]
      rfl

theorem scriptPass_truncate_cons (st : Step) (steps : List Step) :
    scriptPass ((st :: steps).map Step.truncate) =
      if st.delay.sleep = infSleep then ([.act st.action.truncate], true)
      else (.act st.action.truncate :: .sleep st.delay.sleep ::
        (scriptPass (steps.map Step.truncate)).1, (scriptPass (steps.map Step.truncate)).2) := by
  obtain ⟨a, d⟩ := st
  cases d with
  | inf => rfl
  | seconds n =>
      by_cases h : n % 2 ^ 24 = infSleep
      · rw [List.map_cons, Step.truncate, Delay.truncate, if_pos h]
        exact (if_pos h).symm
      · rw [List.map_cons, Step.truncate, Delay.truncate, if_neg h]
        exact (if_neg h).symm

/-- A pass over the records of a script does what the truncated script says. -/
theorem controlPlanePass_records {cp : Mem UInt8} {steps : List Step} {len i : Nat}
    (h : cp.Holds i (records steps)) (hlen : len = i + (records steps).length) :
    controlPlanePass cp len i = scriptPass (steps.map Step.truncate) := by
  induction steps generalizing i with
  | nil =>
      have hend : ¬ i < len := by
        rw [hlen]
        exact Nat.lt_irrefl i
      rw [controlPlanePass, if_neg hend]
      rfl
  | cons st steps ih =>
      rw [records_cons, Mem.holds_append, Mem.holds_append] at h
      obtain ⟨⟨haction, hdelay⟩, hrest⟩ := h
      rw [records_cons, List.length_append, List.length_append, Delay.record_length] at hlen
      rw [List.length_append, Delay.record_length] at hrest
      have hdo : doControlPlaneAction (cp.shift i) = (some st.action.truncate, st.action.isHandover) :=
        doControlPlaneAction_record (holds_shift haction)
      -- the record of the delay follows that of the action
      let i' := if st.action.isHandover then i + 4 else i
      have hi' : i' + 1 = i + st.action.record.length := by
        rw [Action.record_length]
        show (if st.action.isHandover = true then i + 4 else i) + 1 = _
        split <;> rfl
      have hsleep : readThreeBytes (cp.shift i') = st.delay.sleep := by
        apply readThreeBytes_record (holds_shift _)
        rwa [hi']
      have hcontinue : ¬ (st.action.isHandover = true ∧ len ≤ i') := by
        intro hbreak
        omega
      have hnext := ih (i := i' + 4) (by rwa [show i' + 4 = i + (st.action.record.length + 3) by omega])
        (by omega)
      have hlt : i < len := by
        have hle : i ≤ i' := by
          show i ≤ if st.action.isHandover = true then i + 4 else i
          split <;> omega
        omega
      rw [scriptPass_truncate_cons, controlPlanePass, if_pos hlt]
      simp only [hdo]
      rw [if_neg hcontinue, show readThreeBytes (cp.shift (if st.action.isHandover = true then i + 4
        else i)) = st.delay.sleep from hsleep]
      split
      · rfl
      · rw [show controlPlanePass cp len ((if st.action.isHandover = true then i + 4 else i) + 4) = _
          from hnext]
        rfl

theorem scriptPass_truncate_iff {steps : List Step} (hlast : InfLast steps) :
    scriptPass (steps.map Step.truncate) = scriptPass steps ↔ ∀ st ∈ steps, st.Fits := by
  induction hlast with
  | nil => exact ⟨fun _ _ hst => (by cases hst), fun _ => rfl⟩
  | inf a =>
      rw [List.forall_mem_singleton, scriptPass_truncate_cons]
      show ([Event.act a.truncate], true) = ([Event.act a], true) ↔ _
      constructor
      · intro h
        have hact := Event.act.inj (List.cons.inj (congrArg Prod.fst h)).1
        exact ⟨a.truncate_eq_iff.mp hact, trivial⟩
      · intro h
        rw [a.truncate_eq_iff.mpr h.action]
  | cons a n _ ih =>
      rename_i steps _
      rw [List.forall_mem_cons, ← ih, scriptPass_truncate_cons]
      show (if n % 2 ^ 24 = infSleep then _ else (Event.act a.truncate :: Event.sleep (n % 2 ^ 24) ::
        (scriptPass (steps.map Step.truncate)).1, (scriptPass (steps.map Step.truncate)).2)) =
          (Event.act a :: Event.sleep n :: (scriptPass steps).1, (scriptPass steps).2) ↔ _
      have hbound : infSleep = 16777215 := rfl
      constructor
      · intro h
        by_cases hinf : n % 2 ^ 24 = infSleep
        · rw [if_pos hinf] at h
          have htail := (List.cons.inj (congrArg Prod.fst h)).2
          cases htail
        · rw [if_neg hinf] at h
          obtain ⟨hact, htail⟩ := List.cons.inj (congrArg Prod.fst h)
          obtain ⟨hsleep, hevents⟩ := List.cons.inj htail
          have hn : n % 2 ^ 24 = n := Event.sleep.inj hsleep
          have hlt : n < infSleep := by omega
          exact ⟨⟨a.truncate_eq_iff.mp (Event.act.inj hact), hlt⟩,
            Prod.ext hevents (Prod.mk.inj h).2⟩
      · intro ⟨hst, hpass⟩
        have hn : n < infSleep := hst.delay
        have hmod : n % 2 ^ 24 = n := Nat.mod_eq_of_lt (by omega)
        rw [hmod, if_neg (Nat.ne_of_lt hn), a.truncate_eq_iff.mpr hst.action, hpass]

/-- The bytes of the record that an event stands for; a sleep is counted with its action. -/
def Event.bytes : Event → Nat
  | .act a => if a.isHandover then 8 else 4
  | .sleep _ => 0

def eventBytes (events : List Event) : Nat := (events.map Event.bytes).sum

theorem eventBytes_append (as bs : List Event) :
    eventBytes (as ++ bs) = eventBytes as + eventBytes bs := by
  rw [eventBytes, List.map_append, List.sum_append]
  rfl

theorem eventBytes_act (a : Action) : eventBytes [.act a] = if a.isHandover then 8 else 4 := rfl

theorem eventBytes_sleep (n : Nat) (events : List Event) :
    eventBytes (.sleep n :: events) = eventBytes events := by
  rw [eventBytes, List.map_cons, List.sum_cons]
  exact Nat.zero_add _

theorem eventBytes_scriptPass {steps : List Step} (hlast : InfLast steps) :
    eventBytes (scriptPass steps).1 = (records steps).length := by
  have hrecord : ∀ st : Step, st.action.record.length + st.delay.record.length =
      eventBytes [.act st.action] := by
    intro st
    rw [st.action.record_length, st.delay.record_length, eventBytes_act]
    split <;> rfl
  induction hlast with
  | nil => rfl
  | inf a =>
      rw [records_cons, List.length_append, List.length_append, hrecord]
      rfl
  | cons a n _ ih =>
      rename_i steps _
      rw [records_cons, List.length_append, List.length_append, hrecord, ← ih]
      show eventBytes ([.act a] ++ .sleep n :: (scriptPass steps).1) = _
      rw [eventBytes_append, eventBytes_sleep]

theorem eventBytes_actEvents (p : Mem UInt8) :
    eventBytes (actEvents (doControlPlaneAction p).1) ≤
      if (doControlPlaneAction p).2 then 8 else 4 := by
  unfold doControlPlaneAction
  split <;> exact Nat.le_of_ble_eq_true rfl

/-- A pass goes at most one record beyond the length. -/
theorem eventBytes_controlPlanePass (cp : Mem UInt8) (len i : Nat) :
    eventBytes (controlPlanePass cp len i).1 ≤ if i < len then len - i + 8 else 0 := by
  fun_induction controlPlanePass cp len i with
  | case1 i hlt action handover hdo i' hbreak =>
      have hact := eventBytes_actEvents (cp.shift i)
      rw [hdo] at hact
      have hle : (if handover = true then 8 else 4) ≤ 8 := by split <;> decide
      rw [if_pos hlt]
      exact (hact.trans hle).trans (Nat.le_add_left 8 _)
  | case2 i hlt action handover hdo i' hgo cpSleep hinf =>
      have hact := eventBytes_actEvents (cp.shift i)
      rw [hdo] at hact
      have hle : (if handover = true then 8 else 4) ≤ 8 := by split <;> decide
      rw [if_pos hlt]
      exact (hact.trans hle).trans (Nat.le_add_left 8 _)
  | case3 i hlt action handover hdo i' hgo cpSleep hsleep events returned hrest ih =>
      have hact : eventBytes (actEvents action) ≤ i' + 4 - i := by
        have hact := eventBytes_actEvents (cp.shift i)
        rw [hdo] at hact
        refine hact.trans ?_
        show (if handover = true then 8 else 4) ≤ (if handover = true then i + 4 else i) + 4 - i
        split <;> omega
      have hstep : i < i' + 4 ∧ i' ≤ i + 4 := by
        show i < (if handover = true then i + 4 else i) + 4 ∧
          (if handover = true then i + 4 else i) ≤ i + 4
        split <;> omega
      have hevents : eventBytes events ≤ if i' + 4 < len then len - (i' + 4) + 8 else 0 := by
        rwa [hrest] at ih
      clear_value i'
      rw [if_pos hlt, eventBytes_append, eventBytes_sleep]
      split at hevents <;> omega
  | case4 i hlt =>
      rw [if_neg hlt]
      exact Nat.le_refl _

theorem rounds_one (p : List Event × Bool) : rounds p 1 = p := by
  obtain ⟨events, returned⟩ := p
  cases returned with
  | true => rfl
  | false =>
      show (events ++ [], false) = (events, false)
      rw [List.append_nil]

/-- The thread does what an accepted script says exactly if the script's numbers up to the first
`inf` fit, and its records do. -/
theorem executedAsWritten_iff {script : List Char}
    (h : validateControlPlaneActions script = true) :
    ExecutedAsWritten script ↔
      ScriptFits (script.splitOn '-') ∧ scriptBytes (script.splitOn '-') < 2 ^ 16 := by
  rcases (wellShaped_of_validate h).serialize_cases with
    ⟨steps, hser, hread, hfits, hbytes, hlast⟩ | ⟨⟨e, hser⟩, hfits⟩
  · have hlen : (UInt16.ofNat (records steps).length).toNat = scriptBytes (script.splitOn '-') % 2 ^ 16 := by
      rw [hbytes, UInt16.toNat_ofNat']
    rw [hfits, ← scriptPass_truncate_iff hlast]
    constructor
    · intro ⟨data, steps', hdata, hsteps, hrun⟩
      obtain rfl := Except.ok.inj (hser.symm.trans hdata)
      obtain rfl := Option.some.inj (hread.symm.trans hsteps)
      have hpass := hrun (Mem.ofList (records steps) 0) (Mem.holds_ofList _ _) 1
      rw [controlPlane, rounds_one, rounds_one, hlen] at hpass
      -- the records that the length leaves out would be missing
      have hshort : scriptBytes (script.splitOn '-') < 2 ^ 16 := by
        by_contra hlong
        have hthread := eventBytes_controlPlanePass (Mem.ofList (records steps) 0)
          (scriptBytes (script.splitOn '-') % 2 ^ 16) 0
        rw [hpass, eventBytes_scriptPass hlast, hbytes] at hthread
        split at hthread <;> omega
      refine ⟨?_, hshort⟩
      rw [Nat.mod_eq_of_lt hshort, controlPlanePass_records (Mem.holds_ofList _ _) (by omega)] at hpass
      exact hpass
    · intro ⟨hpass, hshort⟩
      refine ⟨records steps, steps, hser, hread, fun cp hcp n => ?_⟩
      rw [controlPlane, hlen, Nat.mod_eq_of_lt hshort, controlPlanePass_records hcp (by omega), hpass]
  · constructor
    · intro ⟨data, _, hdata, _⟩
      rw [serializeControlPlane, hser] at hdata
      cases hdata
    · intro hscript
      exact absurd hscript.1 hfits

/-- `init-5-x2handover_2-3-detach-inf`. -/
def roundScript : List Char :=
  ['-'].intercalate [init, ['5'], x2handover ++ ['_', '2'], ['3'], detach, inf]

theorem executedAsWritten_round : ExecutedAsWritten roundScript := by
  have htokens : roundScript.splitOn '-' =
      [init, ['5'], x2handover ++ ['_', '2'], ['3'], detach, inf] := by decide +kernel
  apply (executedAsWritten_iff (by decide +kernel)).mpr
  rw [htokens]
  have hhandover : ActionFits (x2handover ++ ['_', '2']) :=
    Or.inr ⟨x2handover, ['2'], by decide, 2, rfl, by decide, by decide⟩
  have hfits : ScriptFits [init, ['5'], x2handover ++ ['_', '2'], ['3'], detach, inf] :=
    ⟨Or.inl rfl, Or.inr ⟨⟨5, rfl, by decide, by decide⟩,
      hhandover, Or.inr ⟨⟨3, rfl, by decide, by decide⟩, Or.inl rfl, Or.inl rfl⟩⟩⟩
  exact ⟨hfits, by decide⟩

/-- `init-16777216`. -/
def longSleepScript : List Char := init ++ ['-', '1', '6', '7', '7', '7', '2', '1', '6']

/-- Three bytes keep nothing of this sleep. -/
theorem not_executedAsWritten_long_sleep :
    ¬ ∀ script, validateControlPlaneActions script = true → ExecutedAsWritten script := by
  intro h
  obtain ⟨data, steps, hdata, hsteps, hrun⟩ := h longSleepScript (by decide +kernel)
  have hser : serializeControlPlane longSleepScript = .ok [0, 0, 0, 0] := by decide +kernel
  have hread : readScript? (longSleepScript.splitOn '-') =
      some [⟨.init, .seconds 16777216⟩] := by decide +kernel
  obtain rfl := Except.ok.inj (hser.symm.trans hdata)
  obtain rfl := Option.some.inj (hread.symm.trans hsteps)
  have hfirst := hrun (Mem.ofList [0, 0, 0, 0] 0) (Mem.holds_ofList _ _) 1
  revert hfirst
  decide +kernel

end PublicCloudCore.RanEmulator
