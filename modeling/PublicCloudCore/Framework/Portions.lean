import Mathlib

/-!
# Handing out a total in portions

Every portion has the full size, except the last, which is what is left. The portions are listed
with the latest first; as many as the quotient rounded up make the total.
-/

namespace PublicCloudCore.Framework

inductive Portions (size total : Nat) : List Nat → Prop
  | none : Portions size total []
  | hand {nums : List Nat} : Portions size total nums → nums.sum < total →
      Portions size total (min size (total - nums.sum) :: nums)

namespace Portions

variable {size total : Nat} {nums : List Nat}

theorem le_size (h : Portions size total nums) : ∀ n ∈ nums, n ≤ size := by
  induction h with
  | none =>
      intro n hn
      cases hn
  | hand _ _ ih => exact List.forall_mem_cons.mpr ⟨min_le_left _ _, ih⟩

theorem le_total (h : Portions size total nums) : ∀ n ∈ nums, n ≤ total := by
  induction h with
  | none =>
      intro n hn
      cases hn
  | hand _ _ ih =>
      exact List.forall_mem_cons.mpr ⟨(min_le_right _ _).trans (Nat.sub_le _ _), ih⟩

theorem sum_eq (h : Portions size total nums) : nums.sum = min total (size * nums.length) := by
  induction h with
  | none => exact (min_eq_right (Nat.zero_le total)).symm
  | @hand nums _ hlt ih =>
      rw [List.sum_cons, List.length_cons, Nat.mul_succ]
      omega

theorem sum_le (h : Portions size total nums) : nums.sum ≤ total := by
  rw [h.sum_eq]
  exact min_le_left _ _

/-- The quotient rounded up is when the total is handed out. -/
theorem sum_eq_total (h : Portions size total nums) (hsize : 0 < size)
    (hlength : nums.length = total ⌈/⌉ size) : nums.sum = total := by
  rw [h.sum_eq, hlength]
  exact min_eq_left (le_smul_ceilDiv hsize)

end Portions

end PublicCloudCore.Framework
