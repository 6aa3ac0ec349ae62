import Mathlib

/-!
# Runs of a partial step function

A system is a state type, an event type and a partial step. A guard says which events a run may
take in which state; an invariant that every guarded step keeps holds wherever a run gets to.
-/

namespace PublicCloudCore.Framework

variable {S E : Type}

/-- The runs whose every step meets the guard. -/
inductive Run (step : S → E → Option S) (ok : S → E → Prop) : S → S → Prop
  | refl (s : S) : Run step ok s s
  | tail {s t u : S} {e : E} : Run step ok s t → ok t e → step t e = some u → Run step ok s u

/-- The guard of the runs that may take every event. -/
def Unguarded (_ : S) (_ : E) : Prop := True

namespace Run

variable {step : S → E → Option S} {ok : S → E → Prop}

theorem invariant {I : S → Prop}
    (hstep : ∀ s e s', I s → ok s e → step s e = some s' → I s') {s s' : S}
    (h : Run step ok s s') (hs : I s) : I s' := by
  induction h with
  | refl => exact hs
  | tail _ hok he ih => exact hstep _ _ _ ih hok he

theorem trans {s t u : S} (h : Run step ok s t) (h' : Run step ok t u) : Run step ok s u := by
  induction h' with
  | refl => exact h
  | tail _ hok he ih => exact ih.tail hok he

/-- Events that the guard always allows, taken one after the other, are a run. -/
theorem of_foldlM {events : List E} (hok : ∀ e ∈ events, ∀ s, ok s e) {s s' : S}
    (h : events.foldlM step s = some s') : Run step ok s s' := by
  induction events generalizing s with
  | nil =>
      cases h
      exact .refl _
  | cons e es ih =>
      rw [List.foldlM_cons] at h
      obtain ⟨t, ht, hrest⟩ := Option.bind_eq_some_iff.mp h
      have hfirst := (Run.refl s).tail (hok e (by simp) s) ht
      exact hfirst.trans (ih (fun e he => hok e (by simp [he])) hrest)

/-- Events whose guard is computed on the way are a run. -/
theorem of_checked (check : S → E → Bool) (hok : ∀ s e, check s e → ok s e) {events : List E}
    {s s' : S}
    (h : events.foldlM (fun s e => if check s e then step s e else none) s = some s') :
    Run step ok s s' := by
  induction events generalizing s with
  | nil =>
      cases h
      exact .refl _
  | cons e es ih =>
      rw [List.foldlM_cons] at h
      obtain ⟨t, ht, hrest⟩ := Option.bind_eq_some_iff.mp h
      by_cases hc : check s e
      · rw [if_pos hc] at ht
        exact ((Run.refl s).tail (hok s e hc) ht).trans (ih hrest)
      · rw [if_neg hc] at ht
        cases ht

end Run

section

variable {α : Type} {holds : List α → α → Prop}

theorem forall_steps_nil : ∀ past x, past ++ [x] <+: [] → holds past x := by
  intro past x hpast
  simp at hpast

theorem forall_steps_concat (history : List α) (last : α) :
    (∀ past x, past ++ [x] <+: history ++ [last] → holds past x) ↔
      (∀ past x, past ++ [x] <+: history → holds past x) ∧ holds history last := by
  constructor
  · intro h
    exact ⟨fun past x hpast => h past x (hpast.trans (List.prefix_append _ _)),
      h history last List.prefix_rfl⟩
  · intro h past x hpast
    rcases List.prefix_concat_iff.mp hpast with heq | hpast
    · obtain ⟨rfl, hcons⟩ := List.append_inj' heq rfl
      cases hcons
      exact h.2
    · exact h.1 past x hpast

end

inductive Meets (step : S → E → Option S) (bad : S → E → Prop) : S → List E → Prop
  | here {s : S} {e : E} {es : List E} : bad s e → Meets step bad s (e :: es)
  | later {s s' : S} {e : E} {es : List E} :
      step s e = some s' → Meets step bad s' es → Meets step bad s (e :: es)

/-- The second system takes the events of the first, except the bad ones, which it refuses. -/
structure Follows {T : Type} (step : S → E → Option S) (bad : S → E → Prop)
    (step' : T → E → Option T) (related : S → T → Prop) : Prop where
  take : ∀ {s t e s'}, related s t → ¬ bad s e → step s e = some s' →
    ∃ t', step' t e = some t' ∧ related s' t'
  refuse : ∀ {s t e}, related s t → bad s e → step' t e = none

namespace Follows

variable {T : Type} {step : S → E → Option S} {bad : S → E → Prop} {step' : T → E → Option T}
  {related : S → T → Prop}

theorem foldlM_some (h : Follows step bad step' related) {es : List E} {s s' : S} {t : T}
    (hst : related s t) (hrun : es.foldlM step s = some s') (hgood : ¬ Meets step bad s es) :
    ∃ t', es.foldlM step' t = some t' ∧ related s' t' := by
  induction es generalizing s t with
  | nil =>
      cases hrun
      exact ⟨t, rfl, hst⟩
  | cons e es ih =>
      rw [List.foldlM_cons] at hrun
      obtain ⟨s₁, hs₁, hrest⟩ := Option.bind_eq_some_iff.mp hrun
      obtain ⟨t₁, ht₁, hst₁⟩ := h.take hst (fun hbad => hgood (.here hbad)) hs₁
      rw [List.foldlM_cons, ht₁]
      exact ih hst₁ hrest (fun hmeets => hgood (.later hs₁ hmeets))

theorem foldlM_none (h : Follows step bad step' related) {es : List E} {s : S} {t : T}
    (hst : related s t) (hmeets : Meets step bad s es) : es.foldlM step' t = none := by
  induction hmeets generalizing t with
  | here hbad =>
      rw [List.foldlM_cons, h.refuse hst hbad]
      rfl
  | @later s s' e es hs _ ih =>
      rw [List.foldlM_cons]
      by_cases hbad : bad s e
      · rw [h.refuse hst hbad]
        rfl
      · obtain ⟨t', ht', hst'⟩ := h.take hst hbad hs
        rw [ht']
        exact ih hst'

end Follows

end PublicCloudCore.Framework
