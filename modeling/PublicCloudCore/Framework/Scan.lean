import Mathlib.Order.Nat

/-!
# Bounded scans

A loop that looks at one place after the other and ends at the first one that it looks for, or at
its bound.
-/

namespace PublicCloudCore.Framework

section

variable {P Q : Nat → Prop} [DecidablePred P] [DecidablePred Q] {n j i : Nat}

/-- Where a scan of `n` places from `j` on ends. -/
def firstFrom (P : Nat → Prop) [DecidablePred P] : Nat → Nat → Nat
  | 0, j => j
  | n + 1, j => if P j then j else firstFrom P n (j + 1)

theorem le_firstFrom : j ≤ firstFrom P n j := by
  induction n generalizing j with
  | zero => exact Nat.le_refl j
  | succ n ih =>
      rw [firstFrom]
      split
      · exact Nat.le_refl j
      · exact Nat.le_of_succ_le ih

theorem firstFrom_le (hi : j ≤ i) (h : P i) : firstFrom P n j ≤ i := by
  induction n generalizing j with
  | zero => exact hi
  | succ n ih =>
      rw [firstFrom]
      split
      · exact hi
      · rename_i hj
        have hne : j ≠ i := by
          rintro rfl
          exact hj h
        exact ih (by omega)

theorem firstFrom_spec (h : firstFrom P n j < j + n) : P (firstFrom P n j) := by
  induction n generalizing j with
  | zero => exact absurd h (Nat.lt_irrefl j)
  | succ n ih =>
      rw [firstFrom] at h ⊢
      split at h <;> rename_i hj
      · rw [if_pos hj]
        exact hj
      · rw [if_neg hj]
        exact ih (by omega)

theorem firstFrom_eq (hi : j ≤ i) (hbound : i < j + n) (h : P i)
    (hbefore : ∀ k, j ≤ k → k < i → ¬ P k) : firstFrom P n j = i := by
  have hle : firstFrom P n j ≤ i := firstFrom_le hi h
  have hspec : P (firstFrom P n j) := firstFrom_spec (by omega)
  by_contra hne
  exact hbefore _ le_firstFrom (by omega) hspec

/-- Scans for the same places up to one that is found end together. -/
theorem firstFrom_congr (hi : j ≤ i) (h : P i) (hcongr : ∀ k, j ≤ k → k ≤ i → (P k ↔ Q k)) :
    firstFrom P n j = firstFrom Q n j := by
  induction n generalizing j with
  | zero => rfl
  | succ n ih =>
      have hj := hcongr j (Nat.le_refl j) hi
      rw [firstFrom, firstFrom]
      by_cases hp : P j
      · rw [if_pos hp, if_pos (hj.mp hp)]
      · have hne : j ≠ i := by
          rintro rfl
          exact hp h
        rw [if_neg hp, if_neg fun hq => hp (hj.mpr hq)]
        exact ih (by omega) fun k hk => hcongr k (by omega)

end

end PublicCloudCore.Framework
