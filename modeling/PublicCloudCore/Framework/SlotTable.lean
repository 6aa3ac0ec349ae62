import Mathlib

/-!
# Tables that hand out the lowest free slot

The descriptor table of a process is one: a new entry takes the lowest free slot, and a slot that
is released is handed out again.
-/

namespace PublicCloudCore.Framework

variable {α : Type}

structure SlotTable (α : Type) where
  slots : List (Option α)
  deriving Repr

namespace SlotTable

def lookup (t : SlotTable α) (i : Nat) : Option α := t.slots.getD i none

def lowestFree (t : SlotTable α) : Nat := t.slots.findIdx Option.isNone

def install (t : SlotTable α) (a : α) : SlotTable α :=
  if t.lowestFree < t.slots.length then ⟨t.slots.set t.lowestFree (some a)⟩
  else ⟨t.slots ++ [some a]⟩

def release (t : SlotTable α) (i : Nat) : SlotTable α := ⟨t.slots.set i none⟩

variable {t : SlotTable α} {a b : α} {i j : Nat}

theorem lowestFree_le_length (t : SlotTable α) : t.lowestFree ≤ t.slots.length :=
  List.findIdx_le_length

@[simp] theorem lookup_lowestFree (t : SlotTable α) : t.lookup t.lowestFree = none := by
  by_cases h : t.lowestFree < t.slots.length
  · have hnone := List.findIdx_getElem (w := h)
    rw [lookup, List.getD_eq_getElem _ _ h]
    exact Option.isNone_iff_eq_none.mp hnone
  · exact List.getD_eq_default _ _ (Nat.le_of_not_lt h)

theorem lookup_install :
    (t.install a).lookup i = if i = t.lowestFree then some a else t.lookup i := by
  have hle := t.lowestFree_le_length
  rw [install]
  by_cases h : t.lowestFree < t.slots.length
  · rw [if_pos h, lookup, List.getD_eq_getElem?_getD]
    by_cases hi : i = t.lowestFree
    · rw [if_pos hi, hi, List.getElem?_set_self h, Option.getD_some]
    · rw [if_neg hi, List.getElem?_set_ne (Ne.symm hi), lookup, List.getD_eq_getElem?_getD]
  · have hlength : t.lowestFree = t.slots.length := by omega
    rw [if_neg h, lookup, hlength]
    by_cases hi : i < t.slots.length
    · rw [if_neg (Nat.ne_of_lt hi)]
      exact List.getD_append _ _ _ _ hi
    · rw [List.getD_append_right _ _ _ _ (Nat.le_of_not_lt hi)]
      by_cases heq : i = t.slots.length
      · rw [if_pos heq, heq, Nat.sub_self]
        rfl
      · rw [if_neg heq, lookup, List.getD_eq_default _ _ (Nat.le_of_not_lt hi)]
        apply List.getD_eq_default
        rw [List.length_singleton]
        omega

theorem lookup_release : (t.release i).lookup j = if j = i then none else t.lookup j := by
  rw [lookup, release, List.getD_eq_getElem?_getD]
  by_cases h : j = i
  · rw [if_pos h, h, List.getElem?_set]
    simp only [if_true]
    split <;> rfl
  · rw [if_neg h, List.getElem?_set_ne (Ne.symm h), lookup, List.getD_eq_getElem?_getD]

theorem lookup_install_eq_some_iff :
    (t.install a).lookup i = some b ↔ i = t.lowestFree ∧ a = b ∨ t.lookup i = some b := by
  rw [lookup_install]
  by_cases h : i = t.lowestFree
  · subst h
    simp
  · simp [h]

theorem lookup_release_eq_some_iff :
    (t.release i).lookup j = some b ↔ j ≠ i ∧ t.lookup j = some b := by
  rw [lookup_release]
  by_cases h : j = i
  · simp [h]
  · simp [h]

theorem lookup_release_of_ne (hi : t.lookup i = some a) (hj : t.lookup j = some b) (h : a ≠ b) :
    (t.release i).lookup j = some b := by
  apply lookup_release_eq_some_iff.mpr
  refine ⟨?_, hj⟩
  rintro rfl
  exact h (Option.some.inj (hi.symm.trans hj))

theorem lookup_install_of_some (h : t.lookup i = some b) : (t.install a).lookup i = some b :=
  lookup_install_eq_some_iff.mpr (Or.inr h)

end SlotTable

end PublicCloudCore.Framework
