import PublicCloudCore.Framework.Transition
import PublicCloudCore.RanEmulator.Scripts

/-!
# What the validation accepts

The counter of the validation stands for the one change that is still open: it lets a UE leave any
state by any change and asks only for the opposite one next. The UE itself starts attached and
connected and has three states, so the two agree only as long as no script leaves by an attach or
hands over away from connected.
-/

namespace PublicCloudCore.RanEmulator

open Framework RanController

inductive Change
  | detach
  | attach
  | idle
  | connect
  deriving DecidableEq, Repr

def Change.opposite : Change → Change
  | .detach => .attach
  | .attach => .detach
  | .idle => .connect
  | .connect => .idle

inductive Deed
  | init
  | handover
  | change (c : Change)
  deriving DecidableEq, Repr

def Action.deed : Action → Deed
  | .init => .init
  | .detach => .change .detach
  | .detachSwitchOff => .change .detach
  | .attach => .change .attach
  | .moveToIdle => .change .idle
  | .moveToConnected => .change .connect
  | .x2Handover _ => .handover
  | .attachToEnb _ => .change .attach
  | .s1Handover _ => .handover

inductive UeState
  | connected
  | idle
  | detached
  deriving DecidableEq, Repr

/-- `none` where the action is disabled. -/
def UeState.perform : UeState → Deed → Option UeState
  | s, .init => some s
  | .connected, .handover => some .connected
  | .connected, .change .detach => some .detached
  | .idle, .change .detach => some .detached
  | .detached, .change .attach => some .connected
  | .connected, .change .idle => some .idle
  | .idle, .change .connect => some .connected
  | _, _ => none

def Event.deed? : Event → Option Deed
  | .act a => some a.deed
  | .sleep _ => none

/-- The state behind the actions of the thread, unless one of them is disabled. -/
def ueRun (s : UeState) (events : List Event) : Option UeState :=
  (events.filterMap Event.deed?).foldlM UeState.perform s

def plainDeeds : List (Token × Deed) :=
  [(detach, .change .detach), (detachSwitchOff, .change .detach), (attach, .change .attach),
    (moveToIdle, .change .idle), (moveToConnected, .change .connect)]

def numberedDeeds : List (Token × Deed) :=
  [(x2handover, .handover), (attach, .change .attach), (s1handover, .handover)]

def deed? (number : Token → Bool) (a : Token) : Option Deed :=
  match plainDeeds.lookup a with
  | some deed => some deed
  | none =>
      match a.splitOn '_' with
      | [name, n] => if number n then numberedDeeds.lookup name else none
      | _ => none

/-- Whether the delay is `inf`. -/
def delay? (number : Token → Bool) (d : Token) : Option Bool :=
  if d = inf then some true else if number d then some false else none

structure Entry where
  deed : Deed
  inf : Bool
  deriving DecidableEq, Repr

def entries? (number : Token → Bool) : List Token → Option (List Entry)
  | [] => some []
  | [_] => none
  | a :: d :: rest =>
      (deed? number a).bind fun deed =>
        (delay? number d).bind fun inf =>
          (entries? number rest).map fun es => ⟨deed, inf⟩ :: es

/-- `init-d0-a1-d1-...-an-dn`. -/
def script? (number : Token → Bool) : List Token → Option (List Entry)
  | a :: d :: rest =>
      if a = init then
        (delay? number d).bind fun inf =>
          (entries? number rest).map fun es => ⟨.init, inf⟩ :: es
      else none
  | _ => none

/-- What the script should be, with the execution that `executedAsWritten_iff` speaks about. -/
structure ExactScript (ts : List Token) : Prop where
  shape : ∃ es, script? isdecimal ts = some es
  enabled : ∃ steps, readScript? ts = some steps ∧
    (∀ n, ∃ s, ueRun .connected (rounds (scriptPass steps) n).1 = some s) ∧
    (ts.getLast? ≠ some inf → ueRun .connected (scriptPass steps).1 = some .connected)

def Change.weight : Change → Int
  | .detach => 1
  | .attach => -1
  | .idle => 3
  | .connect => -3

def Deed.weight : Deed → Int
  | .change c => c.weight
  | _ => 0

def openWeight : Option Change → Int
  | none => 0
  | some c => c.weight

/-- With no change open any change opens; an open one is closed by its opposite. -/
def pairStep : Option Change → Deed → Option (Option Change)
  | none, .change c => some (some c)
  | some c, .change c' => if c' = c.opposite then some none else none
  | m, _ => some m

/-- The changes pair up, from the open one on; the last may stay open if the script may. -/
def Pairs (mayStay : Bool) (m : Option Change) (deeds : List Deed) : Prop :=
  ∃ m', deeds.foldlM pairStep m = some m' ∧ (m' = none ∨ mayStay = true)

def deeds (es : List Entry) : List Deed := es.map Entry.deed

/-- The actions up to the first `inf`. -/
def executed : List Entry → List Deed
  | [] => []
  | e :: es => if e.inf then [e.deed] else e.deed :: executed es

def behindInf : List Entry → List Deed
  | [] => []
  | e :: es => if e.inf then deeds es else behindInf es

def endsInf (es : List Entry) : Bool := es.getLast?.any Entry.inf

/-- The actions that the counter lets pass and the UE does not. -/
inductive Slip : Option Change → Deed → Prop
  | attach : Slip none (.change .attach)
  | connect : Slip none (.change .connect)
  | handover (c : Change) : Slip (some c) .handover

/-- The action that the UE lets pass and the counter does not. -/
def DetachesIdle (s : UeState) (deed : Deed) : Prop := s = .idle ∧ deed = .change .detach

/-- Paired, and yet not a script: a digit that no number is written with, an action that is
disabled, or an end in another state. -/
def Slack (ts : List Token) : Prop :=
  ∃ es, script? isdigit ts = some es ∧ Pairs (endsInf es) none (deeds es) ∧
    (script? isdecimal ts = none ∨ Meets pairStep Slip none (executed es) ∨
      endsInf es = false ∧ (executed es).foldlM pairStep none ≠ some none)

/-- A script that detaches an idle UE, or whose actions behind the first `inf` do not pair. -/
def Strict (ts : List Token) : Prop :=
  ExactScript ts ∧ ∃ es, script? isdecimal ts = some es ∧
    (Meets UeState.perform DetachesIdle .connected (executed es) ∨
      ∃ m, (executed es).foldlM pairStep none = some m ∧ ¬ Pairs (endsInf es) m (behindInf es))

theorem isdigit_of_isdecimal {t : Token} (h : isdecimal t = true) : isdigit t = true := by
  rw [isdecimal, Bool.and_eq_true, List.all_eq_true] at h
  rw [isdigit, Bool.and_eq_true, List.all_eq_true]
  refine ⟨h.1, fun c hc => ?_⟩
  rw [isDigitChar, h.2 c hc]
  rfl

theorem deed?_mono {a : Token} {deed : Deed} (h : deed? isdecimal a = some deed) :
    deed? isdigit a = some deed := by
  unfold deed? at h ⊢
  split at h
  · exact h
  · split at h
    · next name n hsplit =>
      split at h
      · next hdecimal =>
        rw [if_pos (isdigit_of_isdecimal hdecimal)]
        exact h
      · cases h
    · cases h

theorem delay?_mono {d : Token} {b : Bool} (h : delay? isdecimal d = some b) :
    delay? isdigit d = some b := by
  unfold delay? at h ⊢
  by_cases hinf : d = inf
  · rwa [if_pos hinf] at h ⊢
  · rw [if_neg hinf] at h ⊢
    by_cases hdecimal : isdecimal d = true
    · rw [if_pos hdecimal] at h
      rwa [if_pos (isdigit_of_isdecimal hdecimal)]
    · rw [if_neg hdecimal] at h
      cases h

theorem entries?_cons_eq_some {number : Token → Bool} {a d : Token} {rest : List Token}
    {es : List Entry} :
    entries? number (a :: d :: rest) = some es ↔
      ∃ deed inf es', deed? number a = some deed ∧ delay? number d = some inf ∧
        entries? number rest = some es' ∧ es = ⟨deed, inf⟩ :: es' := by
  simp only [entries?, Option.bind_eq_some_iff, Option.map_eq_some_iff]
  constructor
  · rintro ⟨deed, hdeed, inf, hinf, es', hes', rfl⟩
    exact ⟨deed, inf, es', hdeed, hinf, hes', rfl⟩
  · rintro ⟨deed, inf, es', hdeed, hinf, hes', rfl⟩
    exact ⟨deed, hdeed, inf, hinf, es', hes', rfl⟩

theorem entries?_mono {ts : List Token} {es : List Entry} (h : entries? isdecimal ts = some es) :
    entries? isdigit ts = some es := by
  fun_induction entries? isdecimal ts generalizing es with
  | case1 => exact h
  | case2 => cases h
  | case3 a d rest ih =>
      obtain ⟨deed, hdeed, h⟩ := Option.bind_eq_some_iff.mp h
      obtain ⟨inf, hinf, h⟩ := Option.bind_eq_some_iff.mp h
      obtain ⟨es', hes', rfl⟩ := Option.map_eq_some_iff.mp h
      exact entries?_cons_eq_some.mpr ⟨deed, inf, es', deed?_mono hdeed, delay?_mono hinf,
        ih hes', rfl⟩

theorem script?_eq_some {number : Token → Bool} {ts : List Token} {es : List Entry} :
    script? number ts = some es ↔
      ∃ d rest inf es', ts = init :: d :: rest ∧ delay? number d = some inf ∧
        entries? number rest = some es' ∧ es = ⟨.init, inf⟩ :: es' := by
  constructor
  · intro h
    unfold script? at h
    split at h
    · next a d rest =>
      split at h
      · next hinit =>
        obtain ⟨inf, hinf, h⟩ := Option.bind_eq_some_iff.mp h
        obtain ⟨es', hes', rfl⟩ := Option.map_eq_some_iff.mp h
        exact ⟨d, rest, inf, es', by rw [hinit], hinf, hes', rfl⟩
      · cases h
    · cases h
  · rintro ⟨d, rest, inf, es', rfl, hinf, hes', rfl⟩
    rw [script?, if_pos rfl, hinf, Option.bind_some, hes']
    rfl

theorem script?_mono {ts : List Token} {es : List Entry} (h : script? isdecimal ts = some es) :
    script? isdigit ts = some es := by
  obtain ⟨d, rest, inf, es', rfl, hinf, hes', rfl⟩ := script?_eq_some.mp h
  exact script?_eq_some.mpr ⟨d, rest, inf, es', rfl, delay?_mono hinf, entries?_mono hes', rfl⟩

theorem intercalate_of_splitOn {a name n : Token} (h : a.splitOn '_' = [name, n]) :
    a = name ++ '_' :: n := by
  have hjoin : ['_'].intercalate (a.splitOn '_') = a := List.intercalate_splitOn '_'
  rw [h] at hjoin
  simpa [List.intercalate] using hjoin.symm

theorem actions_lookup_eq {a : Token} (h : a ≠ init) :
    (actions.lookup a).map Prod.fst = (plainDeeds.lookup a).map Deed.weight := by
  have hinit : (a == init) = false := beq_eq_false_iff_ne.mpr h
  simp only [actions, plainDeeds, List.lookup, hinit]
  repeat' split <;> try rfl

theorem specialActions_lookup_eq (name : Token) :
    (specialActions.lookup name).map Prod.fst = (numberedDeeds.lookup name).map Deed.weight := by
  simp only [specialActions, numberedDeeds, List.lookup]
  repeat' split <;> try rfl

theorem prefix_of_numberedDeeds {a name n : Token} {deed : Deed}
    (hsplit : a.splitOn '_' = [name, n]) (hname : numberedDeeds.lookup name = some deed) :
    (x2handover.isPrefixOf a || attach.isPrefixOf a || s1handover.isPrefixOf a) = true := by
  have hmem : (name, deed) ∈ numberedDeeds := by
    obtain ⟨before, after, hsplice, _⟩ := List.lookup_eq_some_iff.mp hname
    rw [hsplice]
    exact List.mem_append_right before List.mem_cons_self
  have hprefix : name.isPrefixOf a = true := by
    rw [List.isPrefixOf_iff_prefix, intercalate_of_splitOn hsplit]
    exact List.prefix_append _ _
  have hnames : ∀ p ∈ numberedDeeds, p.1 = x2handover ∨ p.1 = attach ∨ p.1 = s1handover := by decide
  rcases hnames _ hmem with h | h | h
  · rw [← show name = x2handover from h, hprefix]
    rfl
  · rw [← show name = attach from h, hprefix, Bool.or_true]
    rfl
  · rw [← show name = s1handover from h, hprefix, Bool.or_true]

theorem counterStep?_eq {a : Token} (h : a ≠ init) :
    counterStep? a = (deed? isdigit a).map Deed.weight := by
  have hplain := actions_lookup_eq h
  unfold counterStep? deed?
  cases hdeed : plainDeeds.lookup a with
  | some deed =>
      rw [hdeed, Option.map_some, Option.map_eq_some_iff] at hplain
      obtain ⟨entry, hentry, hweight⟩ := hplain
      simp only [hentry, hweight, Option.map_some]
  | none =>
      rw [hdeed, Option.map_none, Option.map_eq_none_iff] at hplain
      simp only [hplain]
      rcases hsplit : a.splitOn '_' with _ | ⟨name, _ | ⟨n, _ | ⟨_, _⟩⟩⟩
      · exact ite_self none
      · exact ite_self none
      · have hspecial := specialActions_lookup_eq name
        cases hnumbered : numberedDeeds.lookup name with
        | none =>
            rw [hnumbered, Option.map_none, Option.map_eq_none_iff] at hspecial
            simp only [hspecial, hnumbered, ite_self]
            rfl
        | some deed =>
            have hprefix := prefix_of_numberedDeeds hsplit hnumbered
            rw [hnumbered, Option.map_some, Option.map_eq_some_iff] at hspecial
            obtain ⟨entry, hentry, hweight⟩ := hspecial
            rw [if_pos hprefix]
            simp only [hentry, hweight, hnumbered]
            by_cases hdigit : isdigit n = true
            · rw [if_pos hdigit, if_pos hdigit]
              rfl
            · rw [if_neg hdigit, if_neg hdigit]
              rfl
      · exact ite_self none

theorem deed?_digits {number : Token → Bool} {a : Token} (h : isdigit a = true) :
    deed? number a = none := by
  have hnames : plainDeeds.all (fun p => !isdigit p.1) = true := by decide +kernel
  have hplain : plainDeeds.lookup a = none := by
    rw [List.lookup_eq_none_iff]
    intro p hp
    rw [bne_iff_ne]
    rintro rfl
    have hname := List.all_eq_true.mp hnames p hp
    rw [h] at hname
    cases hname
  have hsplit : a.splitOn '_' = [a] := by
    apply List.splitOn_eq_singleton
    intro hmem
    rw [isdigit, Bool.and_eq_true, List.all_eq_true] at h
    have hchar := h.2 _ hmem
    revert hchar
    decide
  rw [deed?, hplain, hsplit]

theorem delay?_isSome {number : Token → Bool} (d : Token) :
    (delay? number d).isSome = (number d || d == inf) := by
  unfold delay?
  by_cases hinf : d = inf
  · rw [if_pos hinf, hinf, beq_self_eq_true, Bool.or_true]
    rfl
  · rw [if_neg hinf, beq_eq_false_iff_ne.mpr hinf, Bool.or_false]
    split
    · next hnumber => exact hnumber.symm
    · next hnumber => exact (Bool.eq_false_iff.mpr hnumber).symm

theorem weight_of_pairStep_some {m m' : Option Change} {deed : Deed}
    (h : pairStep m deed = some m') : openWeight m + deed.weight = openWeight m' := by
  revert h
  rcases m with _ | (_ | _ | _ | _) <;> rcases deed with _ | _ | (_ | _ | _ | _) <;>
    rcases m' with _ | (_ | _ | _ | _) <;> decide

theorem weight_of_pairStep_none {m : Option Change} {deed : Deed} (h : pairStep m deed = none) :
    openWeight m + deed.weight ≠ 0 ∧ (openWeight m + deed.weight) % 2 = 0 := by
  revert h
  rcases m with _ | (_ | _ | _ | _) <;> rcases deed with _ | _ | (_ | _ | _ | _) <;> decide

theorem openWeight_passes (m : Option Change) : ¬ (openWeight m ≠ 0 ∧ openWeight m % 2 = 0) := by
  rcases m with _ | (_ | _ | _ | _) <;> decide

theorem validateTokens_delay {d : Token} {ts : List Token} {counter w : Int} :
    validateTokens (d :: ts) counter false = some (w, true) ↔
      (delay? isdigit d).isSome = true ∧ validateTokens ts counter true = some (w, true) := by
  rw [delay?_isSome, validateTokens]
  by_cases hd : (isdigit d || d == inf) = true
  · rw [if_pos hd, if_neg Bool.false_ne_true]
    exact (and_iff_right hd).symm
  · rw [if_neg hd]
    refine ⟨fun h => ?_, fun h => absurd h.1 hd⟩
    split at h
    · cases h
    · split at h
      · cases h
      · split at h <;> cases h

theorem validateTokens_action {a : Token} {ts : List Token} {m : Option Change} {w : Int} :
    validateTokens (a :: ts) (openWeight m) true = some (w, true) ↔
      ∃ deed m', deed? isdigit a = some deed ∧ pairStep m deed = some m' ∧
        validateTokens ts (openWeight m') false = some (w, true) := by
  rw [validateTokens]
  by_cases hd : (isdigit a || a == inf) = true
  · rw [if_pos hd, if_pos rfl]
    refine ⟨fun h => (by cases h), fun h => ?_⟩
    obtain ⟨deed, _, hdeed, _⟩ := h
    rw [Bool.or_eq_true, beq_iff_eq] at hd
    rcases hd with hdigit | rfl
    · rw [deed?_digits hdigit] at hdeed
      cases hdeed
    · cases hdeed
  rw [if_neg hd]
  by_cases hinit : a = init
  · rw [if_pos hinit]
    refine ⟨fun h => (by cases h), fun h => ?_⟩
    obtain ⟨deed, _, hdeed, _⟩ := h
    rw [hinit] at hdeed
    cases hdeed
  rw [if_neg hinit, counterStep?_eq hinit]
  cases hdeed : deed? isdigit a with
  | none =>
      refine ⟨fun h => (by cases h), fun h => ?_⟩
      obtain ⟨_, _, hsome, _⟩ := h
      cases hsome
  | some deed =>
      simp only [Option.map_some]
      cases hpair : pairStep m deed with
      | none =>
          rw [if_pos (weight_of_pairStep_none hpair)]
          refine ⟨fun h => (by cases h), fun h => ?_⟩
          obtain ⟨_, _, hsome, hm', _⟩ := h
          cases hsome
          rw [hpair] at hm'
          cases hm'
      | some m' =>
          simp only [weight_of_pairStep_some hpair]
          rw [if_neg (openWeight_passes m'), if_pos trivial]
          constructor
          · intro h
            exact ⟨deed, m', rfl, hpair, h⟩
          · rintro ⟨_, m'', hsome, hm'', h⟩
            cases hsome
            rw [hpair] at hm''
            cases hm''
            exact h

theorem validateTokens_iff {ts : List Token} {m : Option Change} {w : Int} :
    validateTokens ts (openWeight m) true = some (w, true) ↔
      ∃ es m', entries? isdigit ts = some es ∧ (deeds es).foldlM pairStep m = some m' ∧
        w = openWeight m' := by
  fun_induction entries? isdigit ts generalizing m with
  | case1 =>
      rw [validateTokens, Option.some.injEq, Prod.mk.injEq]
      constructor
      · intro h
        exact ⟨[], m, rfl, rfl, h.1.symm⟩
      · rintro ⟨es, m', hes, hm', rfl⟩
        cases hes
        cases hm'
        exact ⟨rfl, rfl⟩
  | case2 a =>
      rw [validateTokens_action]
      constructor
      · rintro ⟨deed, m', _, _, h⟩
        cases h
      · rintro ⟨es, _, hes, _⟩
        cases hes
  | case3 a d rest ih =>
      rw [validateTokens_action]
      constructor
      · rintro ⟨deed, m₁, hdeed, hm₁, h⟩
        rw [validateTokens_delay, ih, Option.isSome_iff_exists] at h
        obtain ⟨⟨inf, hinf⟩, es, m', hes, hm', hw⟩ := h
        refine ⟨_, m', entries?_cons_eq_some.mpr ⟨deed, inf, es, hdeed, hinf, hes, rfl⟩, ?_, hw⟩
        rw [deeds, List.map_cons, List.foldlM_cons, hm₁]
        exact hm'
      · rintro ⟨es, m', hes, hm', hw⟩
        obtain ⟨deed, inf, es', hdeed, hinf, hes', rfl⟩ := entries?_cons_eq_some.mp hes
        rw [deeds, List.map_cons, List.foldlM_cons] at hm'
        obtain ⟨m₁, hm₁, hrest⟩ := Option.bind_eq_some_iff.mp hm'
        refine ⟨deed, m₁, hdeed, hm₁, ?_⟩
        rw [validateTokens_delay, ih, hinf]
        exact ⟨rfl, es', m', hes', hrest, hw⟩

theorem openWeight_eq_zero {m : Option Change} : openWeight m = 0 ↔ m = none := by
  rcases m with _ | (_ | _ | _ | _) <;> decide

theorem delay?_eq_some {number : Token → Bool} {d : Token} {b : Bool}
    (h : delay? number d = some b) : d = inf ↔ b = true := by
  unfold delay? at h
  by_cases hinf : d = inf
  · rw [if_pos hinf] at h
    cases h
    exact iff_of_true hinf rfl
  · rw [if_neg hinf] at h
    split at h
    · cases h
      exact iff_of_false hinf Bool.false_ne_true
    · cases h

theorem entries?_getLast? {number : Token → Bool} {ts : List Token} {es : List Entry}
    (h : entries? number ts = some es) {d : Token} {e : Entry} (hd : delay? number d = some e.inf) :
    (d :: ts).getLast? = some inf ↔ endsInf (e :: es) = true := by
  fun_induction entries? number ts generalizing es d e with
  | case1 =>
      cases h
      rw [List.getLast?_singleton, Option.some.injEq]
      exact delay?_eq_some hd
  | case2 => cases h
  | case3 a d' rest ih =>
      obtain ⟨deed, inf, es', _, hinf, hes', rfl⟩ := entries?_cons_eq_some.mp h
      rw [List.getLast?_cons_cons, List.getLast?_cons_cons, endsInf, List.getLast?_cons_cons]
      exact @ih es' hes' d' ⟨deed, inf⟩ hinf

theorem script?_getLast? {number : Token → Bool} {ts : List Token} {es : List Entry}
    (h : script? number ts = some es) : ts.getLast? = some inf ↔ endsInf es = true := by
  obtain ⟨d, rest, inf, es', rfl, hinf, hes', rfl⟩ := script?_eq_some.mp h
  rw [List.getLast?_cons_cons]
  exact @entries?_getLast? _ _ _ hes' d ⟨.init, inf⟩ hinf

theorem validate_of_splitOn {script : List Char} {first : Token} {rest : List Token}
    (hsplit : script.splitOn '-' = first :: rest) :
    validateControlPlaneActions script = true ↔ first = init ∧
      ∃ w, validateTokens rest (openWeight none) false = some (w, true) ∧
        (w = 0 ∨ (first :: rest).getLast? = some inf) := by
  unfold validateControlPlaneActions
  rw [hsplit]
  by_cases hinit : first = init
  · have hzero : openWeight none = 0 := rfl
    simp only [hinit, true_and, hzero]
    rcases validateTokens rest 0 false with _ | ⟨counter, _ | _⟩
    · simp
    · simp
    · simp [or_iff_not_imp_left]
  · simp only [hinit, false_and, iff_false]
    exact Bool.false_ne_true

/-- The validation accepts what pairs. -/
theorem validate_iff {script : List Char} :
    validateControlPlaneActions script = true ↔
      ∃ es, script? isdigit (script.splitOn '-') = some es ∧
        Pairs (endsInf es) none (deeds es) := by
  rcases hsplit : script.splitOn '-' with _ | ⟨first, _ | ⟨d, rest⟩⟩
  · exact absurd hsplit (List.splitOn_ne_nil _ _)
  · rw [validate_of_splitOn hsplit]
    constructor
    · rintro ⟨_, w, hw, _⟩
      cases hw
    · rintro ⟨es, hes, _⟩
      cases hes
  · rw [validate_of_splitOn hsplit]
    constructor
    · rintro ⟨rfl, w, hw, hend⟩
      rw [validateTokens_delay, validateTokens_iff, Option.isSome_iff_exists] at hw
      obtain ⟨⟨inf, hinf⟩, es, m, hes, hm, rfl⟩ := hw
      have hscript : script? isdigit (init :: d :: rest) = some (⟨.init, inf⟩ :: es) :=
        script?_eq_some.mpr ⟨d, rest, inf, es, rfl, hinf, hes, rfl⟩
      rw [openWeight_eq_zero, script?_getLast? hscript] at hend
      exact ⟨_, hscript, m, hm, hend⟩
    · rintro ⟨es, hscript, m, hm, hend⟩
      rw [← openWeight_eq_zero, ← script?_getLast? hscript] at hend
      obtain ⟨d', rest', inf, es', hts, hinf, hes', rfl⟩ := script?_eq_some.mp hscript
      cases hts
      refine ⟨rfl, openWeight m, ?_, hend⟩
      rw [validateTokens_delay, validateTokens_iff, hinf]
      exact ⟨rfl, es', m, hes', hm, rfl⟩

theorem actionNames_lookup_eq {a : Token} (h : a ≠ init) :
    (actionNames.lookup a).map Action.deed = plainDeeds.lookup a := by
  have hinit : (a == init) = false := beq_eq_false_iff_ne.mpr h
  simp only [actionNames, plainDeeds, List.lookup, hinit]
  repeat' split <;> try rfl

theorem handoverNames_lookup_eq (name : Token) (n : Nat) :
    (handoverNames.lookup name).map (fun handover => (handover n).deed) =
      numberedDeeds.lookup name := by
  simp only [handoverNames, numberedDeeds, List.lookup]
  repeat' split <;> try rfl

theorem readAction?_of_deed? {a : Token} {deed : Deed} (h : deed? isdecimal a = some deed) :
    ∃ action, readAction? a = some action ∧ action.deed = deed := by
  have hinit : a ≠ init := by
    rintro rfl
    cases h
  have hplain := actionNames_lookup_eq hinit
  unfold deed? at h
  split at h
  · next heq =>
    cases h
    rw [heq, Option.map_eq_some_iff] at hplain
    obtain ⟨action, haction, hdeed⟩ := hplain
    rw [readAction?, haction]
    exact ⟨action, rfl, hdeed⟩
  · next heq =>
    rw [heq, Option.map_eq_none_iff] at hplain
    split at h
    · next name number hsplit =>
      split at h
      · next hdecimal =>
        obtain ⟨n, hn⟩ := decimalValue?_of_isdecimal hdecimal
        rw [← handoverNames_lookup_eq name n, Option.map_eq_some_iff] at h
        obtain ⟨handover, hhandover, hdeed⟩ := h
        refine ⟨handover n, ?_, hdeed⟩
        rw [readAction?, hplain, hsplit]
        simp only [hhandover, hn, Option.bind_some, Option.map_some]
      · cases h
    · cases h

structure Reads (ts : List Token) (es : List Entry) (steps : List Step) : Prop where
  read : readScript? ts = some steps
  deeds : (scriptPass steps).1.filterMap Event.deed? = executed es
  stops : (scriptPass steps).2 = es.any Entry.inf

theorem Reads.cons {a d : Token} {rest : List Token} {action : Action} {inf : Bool}
    {es : List Entry} (ha : readAction? a = some action) (hd : delay? isdecimal d = some inf)
    (hrest : ∃ steps, Reads rest es steps) :
    ∃ steps, Reads (a :: d :: rest) (⟨action.deed, inf⟩ :: es) steps := by
  have hinf := delay?_eq_some hd
  by_cases h : d = RanController.inf
  · rw [hinf] at h
    refine ⟨[⟨action, .inf⟩], ?_, ?_, ?_⟩
    · rw [readScript?, ha, Option.bind_some, if_pos (hinf.mpr h)]
    · rw [executed, if_pos h]
      rfl
    · rw [List.any_cons, h]
      rfl
  · have hdecimal : isdecimal d = true := by
      unfold delay? at hd
      rw [if_neg h] at hd
      by_contra hnot
      rw [if_neg hnot] at hd
      cases hd
    obtain ⟨n, hn⟩ := decimalValue?_of_isdecimal hdecimal
    obtain ⟨steps, hsteps⟩ := hrest
    rw [hinf, Bool.not_eq_true] at h
    refine ⟨⟨action, .seconds n⟩ :: steps, ?_, ?_, ?_⟩
    · rw [readScript?, ha, Option.bind_some, if_neg (by rw [hinf, h]; exact Bool.false_ne_true), hn,
        Option.bind_some, hsteps.read]
      rfl
    · rw [executed, h, if_neg Bool.false_ne_true, ← hsteps.deeds]
      rfl
    · rw [List.any_cons, h, Bool.false_or, ← hsteps.stops]
      rfl

theorem reads_of_entries? {ts : List Token} {es : List Entry}
    (h : entries? isdecimal ts = some es) : ∃ steps, Reads ts es steps := by
  fun_induction entries? isdecimal ts generalizing es with
  | case1 =>
      cases h
      exact ⟨[], rfl, rfl, rfl⟩
  | case2 => cases h
  | case3 a d rest ih =>
      obtain ⟨deed, inf, es', hdeed, hinf, hes', rfl⟩ := entries?_cons_eq_some.mp h
      obtain ⟨action, haction, rfl⟩ := readAction?_of_deed? hdeed
      exact Reads.cons haction hinf (ih hes')

theorem reads_of_script? {ts : List Token} {es : List Entry}
    (h : script? isdecimal ts = some es) : ∃ steps, Reads ts es steps := by
  obtain ⟨d, rest, inf, es', rfl, hinf, hes', rfl⟩ := script?_eq_some.mp h
  exact @Reads.cons init d rest .init inf es' rfl hinf (reads_of_entries? hes')

theorem ueRun_append {s t : UeState} {events : List Event} (h : ueRun s events = some t)
    (events' : List Event) : ueRun s (events ++ events') = ueRun t events' := by
  rw [ueRun] at h
  rw [ueRun, List.filterMap_append, List.foldlM_append, h]
  rfl

/-- A pass that comes back to where it started can be repeated. -/
theorem ueRun_rounds {pass : List Event × Bool} {s t : UeState} (hpass : ueRun s pass.1 = some t)
    (hback : pass.2 = false → t = s) (n : Nat) : ∃ u, ueRun s (rounds pass n).1 = some u := by
  induction n with
  | zero => exact ⟨s, rfl⟩
  | succ n ih =>
      rw [rounds]
      cases hstops : pass.2 with
      | true => exact ⟨t, hpass⟩
      | false =>
          obtain ⟨u, hu⟩ := ih
          refine ⟨u, ?_⟩
          rw [if_neg Bool.false_ne_true, ueRun_append hpass, hback hstops]
          exact hu

theorem endsInf_any {es : List Entry} (h : endsInf es = true) : es.any Entry.inf = true := by
  rw [endsInf, Option.any_eq_true] at h
  obtain ⟨e, he, hinf⟩ := h
  exact List.any_eq_true.mpr ⟨e, List.mem_of_getLast? he, hinf⟩

/-- One pass decides about all of them. -/
theorem exactScript_iff {ts : List Token} {es : List Entry}
    (h : script? isdecimal ts = some es) :
    ExactScript ts ↔ ∃ s, (executed es).foldlM UeState.perform .connected = some s ∧
      (s = .connected ∨ endsInf es = true) := by
  obtain ⟨steps, hsteps⟩ := reads_of_script? h
  have hrun : ueRun .connected (scriptPass steps).1 =
      (executed es).foldlM UeState.perform .connected := by
    rw [ueRun, hsteps.deeds]
  rw [← hrun]
  constructor
  · intro hexact
    obtain ⟨steps', hread, hall, hlast⟩ := hexact.enabled
    cases hsteps.read.symm.trans hread
    obtain ⟨s, hs⟩ := hall 1
    rw [rounds_one] at hs
    refine ⟨s, hs, ?_⟩
    by_cases hend : endsInf es = true
    · exact Or.inr hend
    · rw [hlast ((script?_getLast? h).not.mpr hend), Option.some.injEq] at hs
      exact Or.inl hs.symm
  · rintro ⟨s, hs, hend⟩
    refine ⟨⟨es, h⟩, steps, hsteps.read, ueRun_rounds hs fun hstops => ?_, fun hlast => ?_⟩
    · rcases hend with hback | hend
      · exact hback
      · rw [hsteps.stops, endsInf_any hend] at hstops
        cases hstops
    · rw [hs, hend.resolve_right ((script?_getLast? h).not.mp hlast)]

inductive Agree : Option Change → UeState → Prop
  | connected : Agree none .connected
  | detached : Agree (some .detach) .detached
  | idle : Agree (some .idle) .idle

theorem follows_ue : Follows pairStep Slip UeState.perform Agree where
  take := by
    intro m s deed m' hagree hgood hm'
    cases hagree <;> rcases deed with _ | _ | (_ | _ | _ | _) <;> cases hm' <;>
      first
      | exact ⟨_, rfl, .connected⟩
      | exact ⟨_, rfl, .detached⟩
      | exact ⟨_, rfl, .idle⟩
      | exact absurd (by constructor) hgood
  refuse := by
    intro m s deed hagree hslip
    cases hslip <;> cases hagree <;> rfl

theorem follows_pair : Follows UeState.perform DetachesIdle pairStep (fun s m => Agree m s) where
  take := by
    intro s m deed s' hagree hgood hs'
    cases hagree <;> rcases deed with _ | _ | (_ | _ | _ | _) <;> cases hs' <;>
      first
      | exact ⟨_, rfl, .connected⟩
      | exact ⟨_, rfl, .detached⟩
      | exact ⟨_, rfl, .idle⟩
      | exact absurd ⟨rfl, rfl⟩ hgood
  refuse := by
    rintro s m deed hagree ⟨rfl, rfl⟩
    cases hagree
    rfl

theorem deeds_eq (es : List Entry) : deeds es = executed es ++ behindInf es := by
  induction es with
  | nil => rfl
  | cons e es ih =>
      rw [executed, behindInf]
      by_cases hinf : e.inf = true
      · rw [if_pos hinf, if_pos hinf]
        rfl
      · rw [if_neg hinf, if_neg hinf, List.cons_append, ← ih]
        rfl

theorem pairs_iff {es : List Entry} :
    Pairs (endsInf es) none (deeds es) ↔
      ∃ m, (executed es).foldlM pairStep none = some m ∧ Pairs (endsInf es) m (behindInf es) := by
  simp only [Pairs, deeds_eq, List.foldlM_append, Option.bind_eq_bind, Option.bind_eq_some_iff]
  constructor
  · rintro ⟨m', ⟨m, hm, hm'⟩, hend⟩
    exact ⟨m, hm, m', hm', hend⟩
  · rintro ⟨m, hm, m', hm', hend⟩
    exact ⟨m', ⟨m, hm, hm'⟩, hend⟩

theorem Slack.not_exact {ts : List Token} (h : Slack ts) : ¬ ExactScript ts := by
  intro hexact
  obtain ⟨es, hes, hpairs, hslack⟩ := h
  obtain ⟨es', hes'⟩ := hexact.shape
  cases hes.symm.trans (script?_mono hes')
  obtain ⟨s, hs, hend⟩ := (exactScript_iff hes').mp hexact
  obtain ⟨m, hm, _⟩ := pairs_iff.mp hpairs
  rcases hslack with hdigit | hslip | ⟨hopen, hleft⟩
  · rw [hes'] at hdigit
    cases hdigit
  · rw [follows_ue.foldlM_none .connected hslip] at hs
    cases hs
  · -- both have taken every action, so the open change is that of the state
    have hagree : Agree m s := by
      by_cases hbad : Meets pairStep Slip none (executed es)
      · rw [follows_ue.foldlM_none .connected hbad] at hs
        cases hs
      · obtain ⟨s', hs', hagree⟩ := follows_ue.foldlM_some .connected hm hbad
        cases hs.symm.trans hs'
        exact hagree
    rcases hend with rfl | hinf
    · cases hagree
      exact hleft hm
    · rw [hopen] at hinf
      cases hinf

theorem Strict.refused {script : List Char} (h : Strict (script.splitOn '-')) :
    validateControlPlaneActions script ≠ true := by
  intro hvalid
  obtain ⟨hexact, es, hes, hstrict⟩ := h
  obtain ⟨es', hes', hpairs⟩ := validate_iff.mp hvalid
  cases hes'.symm.trans (script?_mono hes)
  obtain ⟨m, hm, hbehind⟩ := pairs_iff.mp hpairs
  rcases hstrict with hidle | ⟨m', hm', hnot⟩
  · rw [follows_pair.foldlM_none .connected hidle] at hm
    cases hm
  · cases hm.symm.trans hm'
    exact hnot hbehind

theorem exact_of_validate {script : List Char} (h : validateControlPlaneActions script = true)
    (hslack : ¬ Slack (script.splitOn '-')) : ExactScript (script.splitOn '-') := by
  obtain ⟨es, hes, hpairs⟩ := validate_iff.mp h
  obtain ⟨m, hm, _⟩ := pairs_iff.mp hpairs
  have hdecimal : script? isdecimal (script.splitOn '-') = some es := by
    cases hes' : script? isdecimal (script.splitOn '-') with
    | none => exact absurd ⟨es, hes, hpairs, Or.inl hes'⟩ hslack
    | some es' => exact (script?_mono hes').symm.trans hes
  have hgood : ¬ Meets pairStep Slip none (executed es) := fun hslip =>
    hslack ⟨es, hes, hpairs, Or.inr (Or.inl hslip)⟩
  obtain ⟨s, hs, hagree⟩ := follows_ue.foldlM_some .connected hm hgood
  refine (exactScript_iff hdecimal).mpr ⟨s, hs, ?_⟩
  cases hend : endsInf es with
  | true => exact Or.inr rfl
  | false =>
      left
      by_contra hstate
      refine hslack ⟨es, hes, hpairs, Or.inr (Or.inr ⟨hend, fun hclosed => ?_⟩)⟩
      cases hm.symm.trans hclosed
      cases hagree
      exact hstate rfl

theorem validate_of_exact {script : List Char} (h : ExactScript (script.splitOn '-'))
    (hstrict : ¬ Strict (script.splitOn '-')) : validateControlPlaneActions script = true := by
  obtain ⟨es, hes⟩ := h.shape
  obtain ⟨s, hs, _⟩ := (exactScript_iff hes).mp h
  have hgood : ¬ Meets UeState.perform DetachesIdle .connected (executed es) := fun hidle =>
    hstrict ⟨h, es, hes, Or.inl hidle⟩
  obtain ⟨m, hm, _⟩ := follows_pair.foldlM_some .connected hs hgood
  refine validate_iff.mpr ⟨es, script?_mono hes, pairs_iff.mpr ⟨m, hm, ?_⟩⟩
  by_contra hbehind
  exact hstrict ⟨h, es, hes, Or.inr ⟨m, hm, hbehind⟩⟩

/-- The validation gets the slack and the strict scripts wrong, and no others. -/
theorem validatesExactly_iff (script : List Char) :
    (validateControlPlaneActions script = true ↔ ExactScript (script.splitOn '-')) ↔
      ¬ Slack (script.splitOn '-') ∧ ¬ Strict (script.splitOn '-') := by
  constructor
  · intro h
    refine ⟨fun hslack => hslack.not_exact (h.mp ?_), fun hstrict => ?_⟩
    swap
    · exact hstrict.refused (h.mpr hstrict.1)
    obtain ⟨es, hes, hpairs, _⟩ := hslack
    exact validate_iff.mpr ⟨es, hes, hpairs⟩
  · rintro ⟨hslack, hstrict⟩
    exact ⟨fun h => exact_of_validate h hslack, fun h => validate_of_exact h hstrict⟩

/-- `init-1-attach-1-detach-1`. -/
def attachFirstScript : List Char :=
  init ++ ['-', '1', '-'] ++ attach ++ ['-', '1', '-'] ++ detach ++ ['-', '1']

/-- The UE is told to attach while it is attached. -/
theorem not_validatesExactly_attachFirst :
    ¬ ∀ script, validateControlPlaneActions script = true ↔ ExactScript (script.splitOn '-') := by
  intro h
  have haccepted : validateControlPlaneActions attachFirstScript = true := by decide +kernel
  obtain ⟨steps, hread, hall, _⟩ := ((h attachFirstScript).mp haccepted).enabled
  have hsteps : readScript? (attachFirstScript.splitOn '-') =
      some [⟨.init, .seconds 1⟩, ⟨.attach, .seconds 1⟩, ⟨.detach, .seconds 1⟩] := by decide +kernel
  cases hsteps.symm.trans hread
  obtain ⟨s, hs⟩ := hall 1
  revert hs
  cases s <;> decide

end PublicCloudCore.RanEmulator
