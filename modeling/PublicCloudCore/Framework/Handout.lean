import Mathlib

/-!
# Resources handed out under a lock

Threads look for a free resource under one lock, reserve it and hand it out, some of them only
after they have left the lock. A recovery makes a resource free again. As long as no resource is
recovered that a thread outside the lock still has to hand out, every resource is handed out at
most once between two recoveries.
-/

namespace PublicCloudCore.Framework

variable {R A : Type}

inductive DeskStage (R : Type)
  | outside
  | inside
  -- it has found the resource free
  | claiming (r : R)
  | reserved (r : R)
  -- it has left the lock with a reserved resource
  | departed (r : R)
  | recovering (r : R)

namespace DeskStage

def Locked : DeskStage R → Prop
  | outside => False
  | departed _ => False
  | _ => True

def Reserves (r : R) : DeskStage R → Prop
  | reserved q => q = r
  | departed q => q = r
  | _ => False

/-- Moves that change nothing but the stage: a thread may also end where it stands, with the lock
or with what it has reserved. -/
inductive Quiet : DeskStage R → DeskStage R → Prop
  | stay (p : DeskStage R) : Quiet p p
  | recover (r : R) : Quiet inside (recovering r)
  | stuck (p : DeskStage R) : Quiet p outside

end DeskStage

/-- What the resources have gone through. -/
inductive Deal (R A : Type)
  | handed (r : R) (receiver : A)
  | recovered (r : R)

/-- Who got the resource since it was recovered last; the history has its latest entry first. -/
def receivers [DecidableEq R] (r : R) : List (Deal R A) → List A
  | [] => []
  | .handed q a :: deals => if q = r then a :: receivers r deals else receivers r deals
  | .recovered q :: deals => if q = r then [] else receivers r deals

structure Desk (R A : Type) where
  stage : Nat → DeskStage R
  holder : Option Nat
  free : R → Prop
  history : List (Deal R A)

namespace Desk

/-- One action of a thread. Resources may become taken at any time, by whichever thread; only a
recovery frees one. -/
inductive Step (d d' : Desk R A) (t : Nat) : Prop
  | quiet (p : DeskStage R) (hmove : DeskStage.Quiet (d.stage t) p)
      (hstage : d'.stage = Function.update d.stage t p) (hholder : d'.holder = d.holder)
      (hfree : ∀ q, d'.free q → d.free q) (hhistory : d'.history = d.history)
  | acquire (hout : d.stage t = .outside) (hnone : d.holder = none)
      (hstage : d'.stage = Function.update d.stage t .inside) (hholder : d'.holder = some t)
      (hfree : ∀ q, d'.free q → d.free q) (hhistory : d'.history = d.history)
  | leave (hin : d.stage t = .inside)
      (hstage : d'.stage = Function.update d.stage t .outside) (hholder : d'.holder = none)
      (hfree : ∀ q, d'.free q → d.free q) (hhistory : d'.history = d.history)
  | depart (r : R) (hin : d.stage t = .reserved r)
      (hstage : d'.stage = Function.update d.stage t (.departed r)) (hholder : d'.holder = none)
      (hfree : ∀ q, d'.free q → d.free q) (hhistory : d'.history = d.history)
  | claim (r : R) (hin : d.stage t = .inside) (hr : d.free r)
      (hstage : d'.stage = Function.update d.stage t (.claiming r)) (hholder : d'.holder = d.holder)
      (hfree : ∀ q, d'.free q → d.free q) (hhistory : d'.history = d.history)
  | reserve (r : R) (hin : d.stage t = .claiming r)
      (hstage : d'.stage = Function.update d.stage t (.reserved r)) (hholder : d'.holder = d.holder)
      (hfree : ∀ q, d'.free q → q ≠ r ∧ d.free q) (hhistory : d'.history = d.history)
  | hand (r : R) (a : A) (hin : d.stage t = .reserved r)
      (hstage : d'.stage = Function.update d.stage t .inside) (hholder : d'.holder = d.holder)
      (hfree : ∀ q, d'.free q → d.free q) (hhistory : d'.history = .handed r a :: d.history)
  | handLate (r : R) (a : A) (hin : d.stage t = .departed r)
      (hstage : d'.stage = Function.update d.stage t .outside) (hholder : d'.holder = d.holder)
      (hfree : ∀ q, d'.free q → d.free q) (hhistory : d'.history = .handed r a :: d.history)
  | recover (r : R) (hin : d.stage t = .recovering r) (hnone : ∀ u, d.stage u ≠ .departed r)
      (hstage : d'.stage = Function.update d.stage t .inside) (hholder : d'.holder = d.holder)
      (hfree : ∀ q, d'.free q → q = r ∨ d.free q)
      (hhistory : d'.history = .recovered r :: d.history)

variable [DecidableEq R]

structure Exclusive (d : Desk R A) : Prop where
  locked : ∀ t, (d.stage t).Locked → d.holder = some t
  unique : ∀ r t u, (d.stage t).Reserves r → (d.stage u).Reserves r → t = u
  pending : ∀ r t, (d.stage t).Reserves r → receivers r d.history = [] ∧ ¬d.free r
  once : ∀ r, (receivers r d.history).length ≤ 1
  gone : ∀ r, d.free r → receivers r d.history = []
  claimed : ∀ r t, d.stage t = .claiming r →
    receivers r d.history = [] ∧ ∀ u, ¬(d.stage u).Reserves r

variable {d d' : Desk R A} {t : Nat}

namespace Exclusive

theorem locked_unique (h : d.Exclusive) {u : Nat} (ht : (d.stage t).Locked)
    (hu : (d.stage u).Locked) : u = t := by
  have hh := (h.locked u hu).symm.trans (h.locked t ht)
  exact Option.some.inj hh

/-- A move of one thread to a stage where it reserves nothing new. -/
theorem move (h : d.Exclusive) {p : DeskStage R} (hstage : d'.stage = Function.update d.stage t p)
    (hlocked : ∀ u, (d'.stage u).Locked → d'.holder = some u)
    (hreserves : ∀ r, p.Reserves r → (d.stage t).Reserves r)
    (hclaiming : ∀ r, p = .claiming r → d.stage t = .claiming r ∨ d.free r)
    (hfree : ∀ q, d'.free q → d.free q) (hhistory : d'.history = d.history) : d'.Exclusive := by
  have hback : ∀ u r, (d'.stage u).Reserves r → (d.stage u).Reserves r := by
    intro u r hu
    rw [hstage] at hu
    by_cases hut : u = t
    · subst hut
      rw [Function.update_self] at hu
      exact hreserves r hu
    · rwa [Function.update_of_ne hut] at hu
  refine ⟨hlocked, ?_, ?_, ?_, ?_, ?_⟩
  · intro r u v hu hv
    exact h.unique r u v (hback u r hu) (hback v r hv)
  · intro r u hu
    have hp := h.pending r u (hback u r hu)
    rw [hhistory]
    exact ⟨hp.1, fun hf => hp.2 (hfree r hf)⟩
  · rw [hhistory]
    exact h.once
  · intro r hr
    rw [hhistory]
    exact h.gone r (hfree r hr)
  · intro r u hu
    have hclaimed : receivers r d.history = [] ∧ ∀ v, ¬(d.stage v).Reserves r := by
      by_cases hut : u = t
      · subst hut
        rw [hstage, Function.update_self] at hu
        cases hclaiming r hu with
        | inl hc => exact h.claimed r u hc
        | inr hr => exact ⟨h.gone r hr, fun v hv => (h.pending r v hv).2 hr⟩
      · rw [hstage, Function.update_of_ne hut] at hu
        exact h.claimed r u hu
    rw [hhistory]
    exact ⟨hclaimed.1, fun v hv => hclaimed.2 v (hback v r hv)⟩

theorem locked_move (h : d.Exclusive) {p : DeskStage R}
    (hstage : d'.stage = Function.update d.stage t p) (hholder : d'.holder = d.holder)
    (hp : p.Locked → (d.stage t).Locked) :
    ∀ u, (d'.stage u).Locked → d'.holder = some u := by
  intro u hu
  rw [hstage] at hu
  rw [hholder]
  by_cases hut : u = t
  · subst hut
    rw [Function.update_self] at hu
    exact h.locked u (hp hu)
  · rw [Function.update_of_ne hut] at hu
    exact h.locked u hu

theorem locked_leave (h : d.Exclusive) {p : DeskStage R} (hin : (d.stage t).Locked)
    (hstage : d'.stage = Function.update d.stage t p) (hp : ¬p.Locked) :
    ∀ u, (d'.stage u).Locked → d'.holder = some u := by
  intro u hu
  rw [hstage] at hu
  by_cases hut : u = t
  · subst hut
    rw [Function.update_self] at hu
    exact absurd hu hp
  · rw [Function.update_of_ne hut] at hu
    exact absurd (h.locked_unique hin hu) hut

theorem hand (h : d.Exclusive) {r : R} {a : A} {p : DeskStage R} (hin : (d.stage t).Reserves r)
    (hstage : d'.stage = Function.update d.stage t p)
    (hlocked : ∀ u, (d'.stage u).Locked → d'.holder = some u) (hp : ∀ q, ¬p.Reserves q)
    (hclaim : ∀ q, p ≠ .claiming q) (hfree : ∀ q, d'.free q → d.free q)
    (hhistory : d'.history = .handed r a :: d.history) : d'.Exclusive := by
  have hpending := h.pending r t hin
  have hother : ∀ u q, (d'.stage u).Reserves q → (d.stage u).Reserves q ∧ q ≠ r := by
    intro u q hu
    rw [hstage] at hu
    by_cases hut : u = t
    · subst hut
      rw [Function.update_self] at hu
      exact absurd hu (hp q)
    · rw [Function.update_of_ne hut] at hu
      refine ⟨hu, ?_⟩
      intro hq
      subst hq
      exact hut (h.unique q u t hu hin)
  have hreceivers : ∀ q, q ≠ r → receivers q d'.history = receivers q d.history := by
    intro q hq
    rw [hhistory, receivers, if_neg hq.symm]
  refine ⟨hlocked, ?_, ?_, ?_, ?_, ?_⟩
  · intro q u v hu hv
    exact h.unique q u v (hother u q hu).1 (hother v q hv).1
  · intro q u hu
    have hq := hother u q hu
    rw [hreceivers q hq.2]
    have hpq := h.pending q u hq.1
    exact ⟨hpq.1, fun hf => hpq.2 (hfree q hf)⟩
  · intro q
    by_cases hq : q = r
    · subst hq
      rw [hhistory, receivers, if_pos rfl, hpending.1]
      exact Nat.le_refl 1
    · rw [hreceivers q hq]
      exact h.once q
  · intro q hf
    by_cases hq : q = r
    · subst hq
      exact absurd (hfree q hf) hpending.2
    · rw [hreceivers q hq]
      exact h.gone q (hfree q hf)
  · intro q u hu
    rw [hstage] at hu
    by_cases hut : u = t
    · subst hut
      rw [Function.update_self] at hu
      exact absurd hu (hclaim q)
    · rw [Function.update_of_ne hut] at hu
      have hclaimed := h.claimed q u hu
      have hq : q ≠ r := by
        intro hq
        subst hq
        exact hclaimed.2 t hin
      rw [hreceivers q hq]
      exact ⟨hclaimed.1, fun v hv => hclaimed.2 v (hother v q hv).1⟩

theorem reserve (h : d.Exclusive) {r : R} (hin : d.stage t = .claiming r)
    (hstage : d'.stage = Function.update d.stage t (.reserved r)) (hholder : d'.holder = d.holder)
    (hfree : ∀ q, d'.free q → q ≠ r ∧ d.free q) (hhistory : d'.history = d.history) :
    d'.Exclusive := by
  have hclaimed := h.claimed r t hin
  have hlocked : (d.stage t).Locked := by
    rw [hin]
    exact trivial
  have hback : ∀ u q, (d'.stage u).Reserves q →
      u = t ∧ q = r ∨ u ≠ t ∧ (d.stage u).Reserves q := by
    intro u q hu
    rw [hstage] at hu
    by_cases hut : u = t
    · subst hut
      rw [Function.update_self] at hu
      exact .inl ⟨rfl, hu.symm⟩
    · rw [Function.update_of_ne hut] at hu
      exact .inr ⟨hut, hu⟩
  have hfresh : ∀ u, u ≠ t → ¬(d'.stage u).Reserves r := by
    intro u hut hu
    rw [hstage, Function.update_of_ne hut] at hu
    exact hclaimed.2 u hu
  refine ⟨h.locked_move hstage hholder fun _ => hlocked, ?_, ?_, ?_, ?_, ?_⟩
  · intro q u v hu hv
    cases hback u q hu with
    | inl hu' =>
        obtain ⟨rfl, rfl⟩ := hu'
        by_contra hne
        exact hfresh v (Ne.symm hne) hv
    | inr hu' =>
        cases hback v q hv with
        | inl hv' =>
            obtain ⟨rfl, rfl⟩ := hv'
            exact absurd hu (hfresh u hu'.1)
        | inr hv' => exact h.unique q u v hu'.2 hv'.2
  · intro q u hu
    rw [hhistory]
    cases hback u q hu with
    | inl hu' =>
        obtain ⟨rfl, rfl⟩ := hu'
        exact ⟨hclaimed.1, fun hf => (hfree q hf).1 rfl⟩
    | inr hu' =>
        have hp := h.pending q u hu'.2
        exact ⟨hp.1, fun hf => hp.2 (hfree q hf).2⟩
  · rw [hhistory]
    exact h.once
  · intro q hf
    rw [hhistory]
    exact h.gone q (hfree q hf).2
  · intro q u hu
    rw [hstage] at hu
    by_cases hut : u = t
    · subst hut
      rw [Function.update_self] at hu
      cases hu
    · rw [Function.update_of_ne hut] at hu
      have hul : (d.stage u).Locked := by
        rw [hu]
        exact trivial
      exact absurd (h.locked_unique hlocked hul) hut

/-- A resource becomes free again, and nobody outside the lock has it in hand. -/
theorem recover (h : d.Exclusive) {r : R} (hin : d.stage t = .recovering r)
    (hnone : ∀ u, d.stage u ≠ .departed r)
    (hstage : d'.stage = Function.update d.stage t .inside) (hholder : d'.holder = d.holder)
    (hfree : ∀ q, d'.free q → q = r ∨ d.free q)
    (hhistory : d'.history = .recovered r :: d.history) : d'.Exclusive := by
  have hlocked : (d.stage t).Locked := by
    rw [hin]
    exact trivial
  have hfresh : ∀ u, ¬(d.stage u).Reserves r := by
    intro u hu
    cases hs : d.stage u with
    | departed q =>
        rw [hs] at hu
        cases hu
        exact hnone u hs
    | reserved q =>
        have hul : (d.stage u).Locked := by
          rw [hs]
          exact trivial
        rw [h.locked_unique hlocked hul, hin] at hs
        cases hs
    | _ =>
        rw [hs] at hu
        exact hu
  have hback : ∀ u p, d'.stage u = p → p = .inside ∨ d.stage u = p := by
    intro u p hu
    rw [hstage] at hu
    by_cases hut : u = t
    · subst hut
      rw [Function.update_self] at hu
      exact .inl hu.symm
    · rw [Function.update_of_ne hut] at hu
      exact .inr hu
  have hreserves : ∀ u q, (d'.stage u).Reserves q → (d.stage u).Reserves q := by
    intro u q hu
    cases hback u _ rfl with
    | inl hp =>
        rw [hp] at hu
        exact hu.elim
    | inr hp => rwa [hp]
  have hreceivers : ∀ q, q ≠ r → receivers q d'.history = receivers q d.history := by
    intro q hq
    rw [hhistory, receivers, if_neg hq.symm]
  have hnobody : receivers r d'.history = [] := by rw [hhistory, receivers, if_pos rfl]
  refine ⟨h.locked_move hstage hholder fun _ => hlocked, ?_, ?_, ?_, ?_, ?_⟩
  · intro q u v hu hv
    exact h.unique q u v (hreserves u q hu) (hreserves v q hv)
  · intro q u hu
    have hq : q ≠ r := by
      intro hq
      subst hq
      exact hfresh u (hreserves u q hu)
    have hp := h.pending q u (hreserves u q hu)
    rw [hreceivers q hq]
    exact ⟨hp.1, fun hf => (hfree q hf).elim hq hp.2⟩
  · intro q
    by_cases hq : q = r
    · rw [hq, hnobody]
      exact Nat.zero_le 1
    · rw [hreceivers q hq]
      exact h.once q
  · intro q hf
    by_cases hq : q = r
    · rw [hq, hnobody]
    · rw [hreceivers q hq]
      exact h.gone q ((hfree q hf).resolve_left hq)
  · intro q u hu
    have hu' : d.stage u = .claiming q := by
      cases hback u _ hu with
      | inl hp => cases hp
      | inr hp => exact hp
    have hclaimed := h.claimed q u hu'
    refine ⟨?_, fun v hv => hclaimed.2 v (hreserves v q hv)⟩
    by_cases hq : q = r
    · rw [hq, hnobody]
    · rw [hreceivers q hq]
      exact hclaimed.1

theorem step (h : d.Exclusive) (hstep : Step d d' t) : d'.Exclusive := by
  cases hstep with
  | quiet p hmove hstage hholder hfree hhistory =>
      refine h.move hstage (h.locked_move hstage hholder ?_) ?_ ?_ hfree hhistory
      · intro hp
        generalize d.stage t = p₀ at hmove ⊢
        cases hmove with
        | stay => exact hp
        | recover r => exact trivial
        | stuck => exact hp.elim
      · intro r hr
        generalize d.stage t = p₀ at hmove ⊢
        cases hmove with
        | stay => exact hr
        | recover q => exact hr.elim
        | stuck => exact hr.elim
      · intro r hp
        generalize d.stage t = p₀ at hmove ⊢
        cases hmove with
        | stay => exact .inl hp
        | recover q => cases hp
        | stuck => cases hp
  | acquire hout hnone hstage hholder hfree hhistory =>
      refine h.move hstage ?_ (fun r hr => hr.elim) (fun r hp => by cases hp) hfree hhistory
      intro u hu
      rw [hstage] at hu
      by_cases hut : u = t
      · rw [hholder, hut]
      · rw [Function.update_of_ne hut] at hu
        rw [h.locked u hu] at hnone
        cases hnone
  | leave hin hstage hholder hfree hhistory =>
      have hl : (d.stage t).Locked := by rw [hin]; exact trivial
      exact h.move hstage (h.locked_leave hl hstage fun hp => hp) (fun r hr => hr.elim)
        (fun r hp => by cases hp) hfree hhistory
  | depart r hin hstage hholder hfree hhistory =>
      have hl : (d.stage t).Locked := by rw [hin]; exact trivial
      refine h.move hstage (h.locked_leave hl hstage fun hp => hp) ?_ (fun q hp => by cases hp)
        hfree hhistory
      intro q hq
      rw [hin]
      exact hq
  | claim r hin hr hstage hholder hfree hhistory =>
      have hl : (d.stage t).Locked := by rw [hin]; exact trivial
      refine h.move hstage (h.locked_move hstage hholder fun _ => hl) (fun q hq => hq.elim) ?_
        hfree hhistory
      intro q hq
      cases hq
      exact .inr hr
  | reserve r hin hstage hholder hfree hhistory => exact h.reserve hin hstage hholder hfree hhistory
  | hand r a hin hstage hholder hfree hhistory =>
      have hl : (d.stage t).Locked := by rw [hin]; exact trivial
      have hr : (d.stage t).Reserves r := by rw [hin]; exact rfl
      exact h.hand hr hstage (h.locked_move hstage hholder fun _ => hl) (fun _ hq => hq)
        (fun _ hq => by cases hq) hfree hhistory
  | handLate r a hin hstage hholder hfree hhistory =>
      have hr : (d.stage t).Reserves r := by rw [hin]; exact rfl
      exact h.hand hr hstage (h.locked_move hstage hholder fun hp => hp.elim) (fun _ hq => hq)
        (fun _ hq => by cases hq) hfree hhistory
  | recover r hin hnone hstage hholder hfree hhistory =>
      exact h.recover hin hnone hstage hholder hfree hhistory

theorem initial (hstage : ∀ t, d.stage t = .outside) (hhistory : d.history = []) :
    d.Exclusive := by
  have hlocked : ∀ t, ¬(d.stage t).Locked := by
    intro t
    rw [hstage]
    exact id
  have hreserves : ∀ t r, ¬(d.stage t).Reserves r := by
    intro t r
    rw [hstage]
    exact id
  have hnobody : ∀ r, receivers r d.history = [] := by
    intro r
    rw [hhistory, receivers]
  refine ⟨?_, ?_, ?_, ?_, ?_, ?_⟩
  · exact fun t ht => absurd ht (hlocked t)
  · exact fun r t u ht _ => absurd ht (hreserves t r)
  · exact fun r t ht => absurd ht (hreserves t r)
  · exact fun r => by simp [hnobody r]
  · exact fun r _ => hnobody r
  · exact fun r t _ => ⟨hnobody r, fun u => hreserves u r⟩

end Exclusive

end Desk

end PublicCloudCore.Framework
