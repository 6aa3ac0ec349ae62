import Mathlib

/-!
# A running mean without remainders

The mean of a sequence as one whole number and a count: a further value is added to the mean times
the count, and the sum is divided by the new count. The remainders are lost, and the mean is the
rounded one exactly when they add up to less than the count.
-/

namespace PublicCloudCore.Framework

def meanStep (m : Nat × Nat) (v : Nat) : Nat × Nat := ((v + m.1 * m.2) / (m.2 + 1), m.2 + 1)

def runningMean (vs : List Nat) : Nat := (vs.foldl meanStep (0, 0)).1

def lost (vs : List Nat) : Nat := vs.sum - runningMean vs * vs.length

/-- Numbers that do not decrease, each congruent to the sum of as many values. -/
structure Losses (vs : List Nat) (l : Nat → Nat) : Prop where
  mono : ∀ k < vs.length, l k ≤ l (k + 1)
  congr : ∀ k ≤ vs.length, l k ≡ (vs.take k).sum [MOD k]

/-- Some losses stay below the number of values. -/
def LosesLittle (vs : List Nat) : Prop := ∃ l, Losses vs l ∧ l vs.length < vs.length

variable {vs : List Nat} {v : Nat} {l : Nat → Nat}

theorem foldl_meanStep (vs : List Nat) :
    vs.foldl meanStep (0, 0) = (runningMean vs, vs.length) := by
  induction vs using List.reverseRecOn with
  | nil => rfl
  | append_singleton vs v ih =>
      rw [runningMean, List.foldl_concat, ih, List.length_append]
      rfl

theorem runningMean_concat (vs : List Nat) (v : Nat) :
    runningMean (vs ++ [v]) = (v + runningMean vs * vs.length) / (vs.length + 1) := by
  rw [runningMean, List.foldl_concat, foldl_meanStep]
  rfl

theorem runningMean_mul_le (vs : List Nat) : runningMean vs * vs.length ≤ vs.sum := by
  induction vs using List.reverseRecOn with
  | nil => exact Nat.le_refl 0
  | append_singleton vs v ih =>
      have hdiv := Nat.div_mul_le_self (v + runningMean vs * vs.length) (vs.length + 1)
      rw [runningMean_concat, List.length_append, List.length_singleton, List.sum_append,
        List.sum_singleton]
      omega

theorem lost_add (vs : List Nat) : lost vs + runningMean vs * vs.length = vs.sum :=
  Nat.sub_add_cancel (runningMean_mul_le vs)

theorem lost_modEq (vs : List Nat) : lost vs ≡ vs.sum [MOD vs.length] := by
  rw [← lost_add vs]
  exact (Nat.modEq_iff_dvd' (Nat.le_add_right _ _)).mpr
    (by rw [Nat.add_sub_cancel_left]; exact Nat.dvd_mul_left _ _)

theorem lost_concat (vs : List Nat) (v : Nat) :
    lost (vs ++ [v]) = lost vs + (v + runningMean vs * vs.length) % (vs.length + 1) := by
  have hold := lost_add vs
  have hnew := lost_add (vs ++ [v])
  have hdiv := Nat.div_add_mod' (v + runningMean vs * vs.length) (vs.length + 1)
  rw [runningMean_concat, List.length_append, List.length_singleton, List.sum_append,
    List.sum_singleton] at hnew
  omega

theorem lost_concat_le {n : Nat} (hle : lost vs ≤ n)
    (hn : n ≡ (vs ++ [v]).sum [MOD (vs ++ [v]).length]) : lost (vs ++ [v]) ≤ n := by
  obtain ⟨d, rfl⟩ := Nat.exists_eq_add_of_le hle
  have hsum : (vs ++ [v]).sum = lost vs + (v + runningMean vs * vs.length) := by
    have hold := lost_add vs
    rw [List.sum_append, List.sum_singleton]
    omega
  rw [hsum, List.length_append, List.length_singleton] at hn
  have hd : d ≡ v + runningMean vs * vs.length [MOD vs.length + 1] := hn.add_left_cancel' _
  rw [lost_concat, ← hd]
  exact Nat.add_le_add_left (Nat.mod_le d _) _

theorem Losses.of_concat (h : Losses (vs ++ [v]) l) : Losses vs l where
  mono k hk := h.mono k (by rw [List.length_append]; omega)
  congr k hk := by
    have hcongr := h.congr k (by rw [List.length_append]; omega)
    rwa [List.take_append_of_le_length hk] at hcongr

theorem Losses.lost_le (h : Losses vs l) : lost vs ≤ l vs.length := by
  induction vs using List.reverseRecOn with
  | nil => exact Nat.zero_le _
  | append_singleton vs v ih =>
      have hlen : (vs ++ [v]).length = vs.length + 1 := by simp
      apply lost_concat_le
      · rw [hlen]
        exact Nat.le_trans (ih h.of_concat) (h.mono vs.length (by omega))
      · have hcongr := h.congr _ (Nat.le_refl _)
        rwa [List.take_length] at hcongr

/-- What the steps lose is the least that can be lost. -/
theorem losses_lost (vs : List Nat) : Losses vs fun k => lost (vs.take k) where
  mono k hk := by
    rw [List.take_add_one, List.getElem?_eq_getElem hk, Option.toList_some, lost_concat]
    exact Nat.le_add_right _ _
  congr k hk := by
    have hmod := lost_modEq (vs.take k)
    rwa [List.length_take, Nat.min_eq_left hk] at hmod

theorem losesLittle_iff (vs : List Nat) : LosesLittle vs ↔ lost vs < vs.length := by
  constructor
  · intro ⟨l, hl, hlt⟩
    exact Nat.lt_of_le_of_lt hl.lost_le hlt
  · intro h
    refine ⟨_, losses_lost vs, ?_⟩
    rwa [List.take_length]

instance : DecidablePred LosesLittle := fun vs => decidable_of_iff _ (losesLittle_iff vs).symm

/-- The running mean is the rounded mean exactly when little is lost. -/
theorem runningMean_eq_iff (h : vs ≠ []) :
    runningMean vs = vs.sum / vs.length ↔ LosesLittle vs := by
  have hpos : 0 < vs.length := List.length_pos_iff.mpr h
  have hadd := lost_add vs
  rw [losesLittle_iff, ← hadd, Nat.add_mul_div_right _ _ hpos]
  constructor
  · intro heq
    exact (Nat.div_eq_zero_iff_lt hpos).mp (by omega)
  · intro hlt
    rw [Nat.div_eq_of_lt hlt, Nat.zero_add]

end PublicCloudCore.Framework
