import Mathlib

/-!
# Doubly linked lists in memory

Cells lie at addresses, and an address without a cell must not be followed. A stretch is what a
walk forward passes from one pointer to another, with the pointers back that it finds; a list is a
stretch between null pointers. Cutting a cell out relinks its two neighbours.
-/

namespace PublicCloudCore.Framework

/-- A cell and the pointers to its neighbours, where `none` is null. -/
structure LinkedCell (A δ : Type) where
  data : δ
  prev : Option A
  next : Option A

abbrev Cells (A δ : Type) := A → Option (LinkedCell A δ)

namespace Cells

variable {A δ : Type}

/-- A walk from `p`, whose first cell points back to `b`, passes these cells and arrives at `q`;
the last cell is `z`. -/
inductive Stretch (m : Cells A δ) :
    Option A → Option A → List (A × δ) → Option A → Option A → Prop
  | nil (b p : Option A) : Stretch m b p [] b p
  | cons {a : A} {d : δ} {b next z q : Option A} {ns : List (A × δ)} :
      m a = some ⟨d, b, next⟩ → Stretch m (some a) next ns z q →
      Stretch m b (some a) ((a, d) :: ns) z q

def places (ns : List (A × δ)) : List A := ns.map Prod.fst

@[simp] theorem places_nil : places ([] : List (A × δ)) = [] := rfl

@[simp] theorem places_cons (n : A × δ) (ns : List (A × δ)) :
    places (n :: ns) = n.1 :: places ns := rfl

@[simp] theorem places_append (ns ms : List (A × δ)) :
    places (ns ++ ms) = places ns ++ places ms := List.map_append

/-- The search for the first cell with a property; it finds null at the end of the list. -/
def find (m : Cells A δ) (p : δ → Bool) : Nat → Option A → Option (Option A)
  | _, none => some none
  | 0, some _ => none
  | fuel + 1, some a =>
      match m a with
      | none => none
      | some n => if p n.data then some (some a) else m.find p fuel n.next

theorem find_mono {m : Cells A δ} {f : δ → Bool} {fuel fuel' : Nat} {p r : Option A}
    (h : m.find f fuel p = some r) (hfuel : fuel ≤ fuel') : m.find f fuel' p = some r := by
  induction fuel generalizing p fuel' with
  | zero =>
      cases p with
      | none => cases fuel' <;> exact h
      | some a => cases h
  | succ fuel ih =>
      cases p with
      | none => cases fuel' <;> exact h
      | some a =>
          cases fuel' with
          | zero => cases hfuel
          | succ fuel' =>
              rw [find] at h ⊢
              cases ha : m a with
              | none =>
                  rw [ha] at h
                  cases h
              | some n =>
                  rw [ha] at h
                  simp only at h ⊢
                  split at h
                  · next hn => rw [if_pos hn, h]
                  · next hn =>
                      rw [if_neg hn]
                      exact ih h (Nat.le_of_succ_le_succ hfuel)

/-- The cells that following a pointer leads through up to null, for no more steps than that. -/
def follow (m : Cells A δ) (link : LinkedCell A δ → Option A) :
    Nat → Option A → Option (List (A × δ))
  | _, none => some []
  | 0, some _ => none
  | fuel + 1, some a => do
      let n ← m a
      let rest ← m.follow link fuel (link n)
      some ((a, n.data) :: rest)

section Update

variable [DecidableEq A]

def set (m : Cells A δ) (a : A) (n : Option (LinkedCell A δ)) : Cells A δ := Function.update m a n

/-- `a->next = q`. -/
def setNext (m : Cells A δ) (a : A) (q : Option A) : Option (Cells A δ) :=
  (m a).map fun n => m.set a (some { n with next := q })

/-- `a->prev = b`. -/
def setPrev (m : Cells A δ) (a : A) (b : Option A) : Option (Cells A δ) :=
  (m a).map fun n => m.set a (some { n with prev := b })

@[simp] theorem set_same (m : Cells A δ) (a : A) (n : Option (LinkedCell A δ)) :
    m.set a n a = n := by
  simp [set]

theorem set_other (m : Cells A δ) {a b : A} (hb : b ≠ a) (n : Option (LinkedCell A δ)) :
    m.set a n b = m b := by
  simp [set, hb]

end Update

namespace Stretch

variable {m m' : Cells A δ} {b p z q b' q' : Option A} {ns ms : List (A × δ)} {a : A} {d : δ}

theorem trans {y r : Option A} (hs : m.Stretch b p ns z q) (ht : m.Stretch z q ms y r) :
    m.Stretch b p (ns ++ ms) y r := by
  induction hs with
  | nil => exact ht
  | cons ha _ ih => exact .cons ha (ih ht)

theorem split {y r : Option A} (hs : m.Stretch b p (ns ++ ms) y r) :
    ∃ z q, m.Stretch b p ns z q ∧ m.Stretch z q ms y r := by
  induction ns generalizing b p with
  | nil => exact ⟨b, p, .nil b p, hs⟩
  | cons n ns ih =>
      cases hs with
      | cons ha hrest =>
          obtain ⟨z, q, hleft, hright⟩ := ih hrest
          exact ⟨z, q, .cons ha hleft, hright⟩

theorem concat_iff : m.Stretch b p (ns ++ [(a, d)]) z q ↔
    z = some a ∧ ∃ y, m.Stretch b p ns y (some a) ∧ m a = some ⟨d, y, q⟩ := by
  constructor
  · intro hs
    obtain ⟨y, r, hleft, hright⟩ := hs.split
    cases hright with
    | cons ha hnil =>
        cases hnil
        exact ⟨rfl, y, hleft, ha⟩
  · rintro ⟨rfl, y, hs, ha⟩
    exact hs.trans (.cons ha (.nil (some a) q))

theorem middle {y r : Option A} (hs : m.Stretch b p (ns ++ (a, d) :: ms) y r) :
    ∃ z q, m.Stretch b p ns z (some a) ∧ m a = some ⟨d, z, q⟩ ∧
      m.Stretch (some a) q ms y r := by
  obtain ⟨z, q, hleft, hright⟩ := hs.split
  cases hright with
  | cons ha hrest => exact ⟨z, _, hleft, ha, hrest⟩

theorem head_eq (hs : m.Stretch b p ns z none) : p = (places ns).head? := by
  cases hs <;> rfl

theorem last_eq_of_nil (hs : m.Stretch b p [] z q) : z = b := by
  cases hs
  rfl

theorem unique (hs : m.Stretch b p ns z none) (hs' : m.Stretch b' p ms q' none) : ns = ms := by
  induction ns generalizing b b' p ms with
  | nil =>
      cases hs
      cases hs'
      rfl
  | cons n ns ih =>
      cases hs with
      | cons ha hrest =>
          cases hs' with
          | cons ha' hrest' =>
              rw [ha] at ha'
              cases ha'
              rw [ih hrest hrest']

theorem ne_none_of_mem (hs : m.Stretch b p ns z q) (ha : a ∈ places ns) : m a ≠ none := by
  induction hs with
  | nil => exact absurd ha List.not_mem_nil
  | cons hc _ ih =>
      rcases List.mem_cons.mp ha with rfl | hmem
      · simp [hc]
      · exact ih hmem

theorem eq_nil_of_last (hs : m.Stretch b p ns none q) : ns = [] := by
  rcases List.eq_nil_or_concat' ns with rfl | ⟨front, ⟨a, d⟩, rfl⟩
  · rfl
  · exact absurd (concat_iff.mp hs).1 (by simp)

theorem ne_nil_of_last (hs : m.Stretch none p ns (some a) q) : ns ≠ [] := by
  rintro rfl
  cases hs

theorem eq_nil_of_first (hs : m.Stretch b none ns z q) : ns = [] := by
  cases hs
  rfl

theorem ne_nil_of_first (hs : m.Stretch b (some a) ns z none) : ns ≠ [] := by
  rintro rfl
  cases hs

theorem congr (hs : m.Stretch b p ns z q) (hsame : ∀ a ∈ places ns, m' a = m a) :
    m'.Stretch b p ns z q := by
  induction hs with
  | nil => exact .nil _ _
  | @cons a d b next z q ns ha _ ih =>
      refine .cons ?_ (ih fun c hc => hsame c (List.mem_cons_of_mem _ hc))
      rw [hsame a List.mem_cons_self, ha]

theorem find_eq (hs : m.Stretch b p ns z none) (f : δ → Bool) {fuel : Nat}
    (hfuel : ns.length ≤ fuel) :
    m.find f fuel p = some ((ns.find? fun n => f n.2).map Prod.fst) := by
  induction ns generalizing b p fuel with
  | nil =>
      cases hs
      cases fuel <;> rfl
  | cons n ns ih =>
      cases hs with
      | @cons a d b next z q ns ha hrest =>
          cases fuel with
          | zero => cases hfuel
          | succ fuel =>
              rw [find, ha, List.find?_cons]
              by_cases hd : f d
              · simp [hd]
              · simp only [hd, Bool.false_eq_true, if_false]
                exact ih hrest (Nat.le_of_succ_le_succ hfuel)

theorem tail_eq (hs : m.Stretch none p ns z q) : z = (places ns).getLast? := by
  rcases List.eq_nil_or_concat' ns with rfl | ⟨front, ⟨a, d⟩, rfl⟩
  · exact hs.last_eq_of_nil
  · rw [(concat_iff.mp hs).1]
    simp

theorem follow_next (hs : m.Stretch b p ns z none) {fuel : Nat} (hfuel : ns.length ≤ fuel) :
    m.follow LinkedCell.next fuel p = some ns := by
  induction ns generalizing b p fuel with
  | nil =>
      cases hs
      cases fuel <;> rfl
  | cons n ns ih =>
      cases hs with
      | @cons a d b next z q ns ha hrest =>
          cases fuel with
          | zero => cases hfuel
          | succ fuel =>
              have hnext := ih hrest (Nat.le_of_succ_le_succ hfuel)
              simp only [follow, ha, Option.bind_eq_bind, Option.bind_some, hnext]

/-- The way back is the way forward reversed. -/
theorem follow_prev (hs : m.Stretch none p ns z q) {fuel : Nat} (hfuel : ns.length ≤ fuel) :
    m.follow LinkedCell.prev fuel z = some ns.reverse := by
  induction ns using List.reverseRecOn generalizing z q fuel with
  | nil =>
      cases hs
      cases fuel <;> rfl
  | append_singleton front n ih =>
      obtain ⟨rfl, y, hfront, hcell⟩ := concat_iff.mp hs
      rw [List.length_append] at hfuel
      cases fuel with
      | zero => cases hfuel
      | succ fuel =>
          have hprev := ih hfront (Nat.le_of_succ_le_succ hfuel)
          rw [List.reverse_append]
          simp only [follow, hcell, Option.bind_eq_bind, Option.bind_some, hprev]
          rfl

section Update

variable [DecidableEq A]

theorem congr_set (hs : m.Stretch b p ns z q) (ha : a ∉ places ns) (n : Option (LinkedCell A δ)) :
    (m.set a n).Stretch b p ns z q :=
  hs.congr fun _ hc => set_other m (ne_of_mem_of_not_mem hc ha) n

theorem setNext_last (hs : m.Stretch b p ns (some a) q) (hne : ns ≠ [])
    (hnodup : (places ns).Nodup) (q' : Option A) :
    ∃ m', m.setNext a q' = some m' ∧ m'.Stretch b p ns (some a) q' ∧
      ∀ c ∉ places ns, m' c = m c := by
  obtain ⟨front, ⟨c, d⟩, rfl⟩ := (List.eq_nil_or_concat' ns).resolve_left hne
  obtain ⟨hc, y, hfront, hcell⟩ := concat_iff.mp hs
  cases hc
  have hnew : a ∉ places front := by
    rw [places_append, List.nodup_append] at hnodup
    intro hmem
    exact hnodup.2.2 a hmem a (by simp) rfl
  refine ⟨m.set a (some ⟨d, y, q'⟩), by simp [setNext, hcell], ?_, ?_⟩
  · exact concat_iff.mpr ⟨rfl, y, hfront.congr_set hnew _, set_same m a _⟩
  · intro c hc
    exact set_other m (fun h => hc (by simp [h])) _

theorem setPrev_first (hs : m.Stretch b (some a) ns z q) (hne : ns ≠ [])
    (hnodup : (places ns).Nodup) (b' : Option A) :
    ∃ m', m.setPrev a b' = some m' ∧ m'.Stretch b' (some a) ns z q ∧
      ∀ c ∉ places ns, m' c = m c := by
  cases hs with
  | nil => exact absurd rfl hne
  | @cons a d b next z q ns ha hrest =>
      have hnew : a ∉ places ns := (List.nodup_cons.mp hnodup).1
      refine ⟨m.set a (some ⟨d, b', next⟩), by simp [setPrev, ha], ?_, ?_⟩
      · exact .cons (set_same m a _) (hrest.congr_set hnew _)
      · intro c hc
        exact set_other m (fun h => hc (by simp [h])) _

end Update

end Stretch

end Cells

end PublicCloudCore.Framework
