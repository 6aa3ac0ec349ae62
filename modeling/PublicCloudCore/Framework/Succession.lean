import PublicCloudCore.Framework.Program

/-!
# What follows what in a run

Some questions of a program show a value. `successionReading` asks of each such question that its
value be related to the value shown before it, and `wp_successionReading` says that `wp` is exact
about the chain of the values that a run shows. A program that shows nothing leaves the chain as
it is.
-/

namespace PublicCloudCore.Framework.Prog

variable {Q : Type} {A : Q → Type} {O α β S V : Type}

/-- The reading of deterministic surroundings that keeps the value shown last, and compares the
next one with it. -/
def successionReading (serve : S → (q : Q) → A q × S) (shown : Q → Option V)
    (related : V → V → Prop) : Reading Q A O (S × Option V) where
  aborts := True
  ask s q P :=
    (∀ v, shown q = some v → ∀ last, s.2 = some last → related last v) ∧
      P (serve s.1 q).1 ((serve s.1 q).2, (shown q).or s.2)
  emit s _ P := P s

variable {serve : S → (q : Q) → A q × S} {shown : Q → Option V} {related : V → V → Prop}
  {s : S × Option V}

theorem successionReading_monotone :
    (successionReading (O := O) serve shown related).Monotone where
  ask hP h := ⟨h.1, hP _ _ h.2⟩
  emit hP h := hP _ h

/-- `wp` is exact about the chain. -/
theorem wp_successionReading (p : Prog Q A O α) (s : S) (last : Option V) :
    p.wp (successionReading serve shown related) (s, last) (fun _ _ => True) ↔
      List.IsChain related (last.toList ++ (p.exec serve s).asked.filterMap shown) := by
  induction p generalizing s last with
  | done a => cases last <;> simp [wp, exec]
  | abort => cases last <;> simp [wp, exec, successionReading]
  | ask q k ih =>
      have hrest := ih (serve s q).1 (serve s q).2 ((shown q).or last)
      simp only [wp, successionReading, exec]
      rw [← successionReading, hrest]
      cases hshown : shown q with
      | none => simp [hshown]
      | some v =>
          cases last <;> simp [hshown]
  | emit o p ih => exact ih s last

theorem wp_succession_require {x : Option α} {post : α → S × Option V → Prop} :
    (require x : Prog Q A O α).wp (successionReading serve shown related) s post ↔
      ∀ a, x = some a → post a s := by
  rw [wp_require]
  cases x <;> simp [successionReading]

theorem wp_succession_assert {c : Prop} [Decidable c] {post : Unit → S × Option V → Prop} :
    (assert c : Prog Q A O Unit).wp (successionReading serve shown related) s post ↔
      (c → post () s) := by
  rw [wp_assert]
  split <;> simp [successionReading, *]

/-- A program that shows nothing. -/
theorem Ensures.wp_successionReading {seen : O → Prop} {post : α → Prop} {p : Prog Q A O α}
    (h : p.Ensures (fun q => shown q = none) seen post) :
    p.wp (successionReading serve shown related) s fun a s' => post a ∧ s'.2 = s.2 := by
  rw [Ensures] at h
  induction p generalizing s with
  | done a => exact ⟨h, rfl⟩
  | abort => trivial
  | ask q k ih =>
      obtain ⟨hq, hrest⟩ := h
      refine ⟨fun v hv => ?_, ?_⟩
      · rw [hq] at hv
        cases hv
      · have hk := ih (serve s.1 q).1 (hrest _) (s := ((serve s.1 q).2, (shown q).or s.2))
        rwa [hq] at hk ⊢
  | emit o p ih => exact ih h.2

end PublicCloudCore.Framework.Prog
