import Mathlib

/-!
# Streams in blocks

A function that takes one block of a stream after the other. The elements of a block that is not
complete wait for the rest of it, so it does not matter how the stream is cut.
-/

namespace PublicCloudCore.Framework.Blocks

variable {S α : Type}

/-- The complete blocks of a list. -/
def ofList (n : Nat) (xs : List α) : List (List α) :=
  (List.range (xs.length / n)).map fun i => (xs.drop (n * i)).take n

def absorbOne (n : Nat) (f : S → List α → S) (p : S × List α) (x : α) : S × List α :=
  if p.2.length + 1 = n then (f p.1 (p.2 ++ [x]), []) else (p.1, p.2 ++ [x])

def absorb (n : Nat) (f : S → List α → S) (p : S × List α) (xs : List α) : S × List α :=
  xs.foldl (absorbOne n f) p

section

variable {n : Nat} {f : S → List α → S} {p : S × List α} {xs : List α}

theorem absorb_append (xs ys : List α) :
    absorb n f p (xs ++ ys) = absorb n f (absorb n f p xs) ys :=
  List.foldl_append

theorem absorb_cons (x : α) : absorb n f p (x :: xs) = absorb n f (absorbOne n f p x) xs := rfl

theorem absorb_short (h : p.2.length + xs.length < n) :
    absorb n f p xs = (p.1, p.2 ++ xs) := by
  induction xs generalizing p with
  | nil => simp [absorb]
  | cons x xs ih =>
      rw [List.length_cons] at h
      have hone : absorbOne n f p x = (p.1, p.2 ++ [x]) := if_neg (by omega)
      rw [absorb_cons, hone, ih (by simp; omega)]
      simp

theorem absorb_full (hne : xs ≠ []) (h : p.2.length + xs.length = n) :
    absorb n f p xs = (f p.1 (p.2 ++ xs), []) := by
  obtain ⟨front, x, rfl⟩ := (List.eq_nil_or_concat' xs).resolve_left hne
  rw [List.length_append, List.length_singleton] at h
  have hfront : absorb n f p front = (p.1, p.2 ++ front) := absorb_short (by omega)
  rw [absorb_append, hfront, absorb_cons, absorbOne, if_pos (by simp; omega), List.append_assoc]
  rfl

theorem length_absorb (hp : p.2.length < n) :
    (absorb n f p xs).2.length = (p.2.length + xs.length) % n := by
  induction xs generalizing p with
  | nil => exact (Nat.mod_eq_of_lt hp).symm
  | cons x xs ih =>
      rw [absorb_cons, absorbOne, List.length_cons]
      split
      · next hfull =>
        have hsum : p.2.length + (xs.length + 1) = xs.length + n := by omega
        rw [ih (by simp; omega), hsum, Nat.add_mod_right]
        simp
      · next hpart =>
        rw [ih (by simp; omega), List.length_append, List.length_singleton]
        congr 1
        omega

end

theorem ofList_of_lt {n : Nat} {xs : List α} (h : xs.length < n) : ofList n xs = [] := by
  rw [ofList, Nat.div_eq_of_lt h]
  rfl

theorem ofList_eq_cons {n : Nat} (hn : 0 < n) {xs : List α} (h : n ≤ xs.length) :
    ofList n xs = xs.take n :: ofList n (xs.drop n) := by
  have hdiv : xs.length / n = (xs.drop n).length / n + 1 := by
    rw [List.length_drop, Nat.div_eq_sub_div hn h]
  rw [ofList, hdiv, List.range_succ_eq_map, List.map_cons, List.map_map, Nat.mul_zero,
    List.drop_zero, ofList]
  congr 1
  refine List.map_congr_left fun i _ => ?_
  rw [Function.comp_apply, List.drop_drop, Nat.mul_succ, Nat.add_comm]

/-- The state is that of the complete blocks, taken one after the other. -/
theorem absorb_state {n : Nat} (hn : 0 < n) (f : S → List α → S) (s : S) (xs : List α) :
    (absorb n f (s, []) xs).1 = (ofList n xs).foldl f s := by
  induction hlen : xs.length using Nat.strong_induction_on generalizing s xs with
  | _ len ih =>
    by_cases h : xs.length < n
    · rw [absorb_short (by simpa using h), ofList_of_lt h]
      rfl
    · have hle : n ≤ xs.length := Nat.le_of_not_lt h
      have hfirst : absorb n f (s, []) (xs.take n) = (f s (xs.take n), []) := by
        rw [absorb_full]
        · rfl
        · intro hnil
          have hzero := congrArg List.length hnil
          rw [List.length_take, List.length_nil] at hzero
          omega
        · simp [hle]
      rw [ofList_eq_cons hn hle, List.foldl_cons, ← ih (xs.length - n) (by omega) _ (xs.drop n)
        (by simp), ← hfirst, ← absorb_append, List.take_append_drop]

end PublicCloudCore.Framework.Blocks
