import Mathlib

/-!
# Singly linked lists in memory

Nodes lie at addresses, and an address without a node must not be followed. A segment is what a
walk passes from one pointer to another; a list is a segment that ends at the null pointer. The
loops take a bound for their steps, because a walk through arbitrary memory may be endless.
-/

namespace PublicCloudCore.Framework

/-- A node and the pointer to the next one, where `none` is null. -/
structure Node (A α : Type) where
  value : α
  next : Option A

abbrev Heap (A α : Type) := A → Option (Node A α)

namespace Heap

variable {A α : Type}

/-- A walk from a pointer passes these nodes and arrives at the other pointer. -/
inductive Segment (h : Heap A α) : Option A → List (A × α) → Option A → Prop
  | nil (p : Option A) : Segment h p [] p
  | cons {a : A} {v : α} {next q : Option A} {ns : List (A × α)} :
      h a = some ⟨v, next⟩ → Segment h next ns q → Segment h (some a) ((a, v) :: ns) q

/-- The null-terminated list at a pointer. -/
abbrev Lists (h : Heap A α) (p : Option A) (ns : List (A × α)) : Prop := h.Segment p ns none

def addresses (ns : List (A × α)) : List A := ns.map Prod.fst

@[simp] theorem addresses_nil : addresses ([] : List (A × α)) = [] := rfl

@[simp] theorem addresses_cons (n : A × α) (ns : List (A × α)) :
    addresses (n :: ns) = n.1 :: addresses ns := rfl

@[simp] theorem addresses_append (ns ms : List (A × α)) :
    addresses (ns ++ ms) = addresses ns ++ addresses ms := List.map_append

/-- `while (a->next != NULL) a = a->next`, for fewer steps than the bound. -/
def last (h : Heap A α) : Nat → A → Option A
  | 0, _ => none
  | fuel + 1, a =>
      match h a with
      | none => none
      | some n =>
          match n.next with
          | none => some a
          | some b => h.last fuel b

/-- The search for the first node with a property; it finds null at the end of the list. -/
def find (h : Heap A α) (p : α → Bool) : Nat → Option A → Option (Option A)
  | _, none => some none
  | 0, some _ => none
  | fuel + 1, some a =>
      match h a with
      | none => none
      | some n => if p n.value then some (some a) else h.find p fuel n.next

def collect (h : Heap A α) : Nat → Option A → Option (List α)
  | _, none => some []
  | 0, some _ => none
  | fuel + 1, some a =>
      match h a with
      | none => none
      | some n => (h.collect fuel n.next).map (n.value :: ·)

section Update

variable [DecidableEq A]

def set (h : Heap A α) (a : A) (n : Option (Node A α)) : Heap A α := Function.update h a n

/-- `a->next = b`. -/
def link (h : Heap A α) (a b : A) : Heap A α :=
  match h a with
  | none => h
  | some n => h.set a (some { n with next := some b })

/-- Put a node behind the last one, or at the head of a list without nodes. -/
def append (fuel : Nat) (h : Heap A α) (p : Option A) (a : A) : Option (Option A × Heap A α) :=
  match p with
  | none => some (some a, h)
  | some b => (h.last fuel b).map fun z => (some b, h.link z a)

def freeAll : Nat → Option A → Heap A α → Option (Heap A α)
  | _, none, h => some h
  | 0, some _, _ => none
  | fuel + 1, some a, h =>
      match h a with
      | none => none
      | some n => freeAll fuel n.next (h.set a none)

@[simp] theorem set_same (h : Heap A α) (a : A) (n : Option (Node A α)) : h.set a n a = n := by
  simp [set]

theorem set_other (h : Heap A α) {a b : A} (hb : b ≠ a) (n : Option (Node A α)) :
    h.set a n b = h b := by
  simp [set, hb]

end Update

namespace Segment

variable {h h' : Heap A α} {p q r : Option A} {ns ms : List (A × α)} {a : A} {v : α}

theorem trans (hs : h.Segment p ns q) (ht : h.Segment q ms r) : h.Segment p (ns ++ ms) r := by
  induction hs with
  | nil => exact ht
  | cons ha _ ih => exact .cons ha (ih ht)

theorem split (hs : h.Segment p (ns ++ ms) r) : ∃ q, h.Segment p ns q ∧ h.Segment q ms r := by
  induction ns generalizing p with
  | nil => exact ⟨p, .nil p, hs⟩
  | cons n ns ih =>
      cases hs with
      | cons ha hrest =>
          obtain ⟨q, hleft, hright⟩ := ih hrest
          exact ⟨q, .cons ha hleft, hright⟩

theorem concat_iff : h.Segment p (ns ++ [(a, v)]) q ↔
    h.Segment p ns (some a) ∧ h a = some ⟨v, q⟩ := by
  constructor
  · intro hs
    obtain ⟨r, hleft, hright⟩ := hs.split
    cases hright with
    | cons ha hnil =>
        cases hnil
        exact ⟨hleft, ha⟩
  · intro ⟨hs, ha⟩
    exact hs.trans (.cons ha (.nil q))

theorem exists_head (hs : h.Segment p ns q) (hne : ns ≠ []) : ∃ a, p = some a := by
  cases hs with
  | nil => exact absurd rfl hne
  | cons _ _ => exact ⟨_, rfl⟩

theorem prefix_of_lists (hs : h.Segment p ns q) (hl : h.Lists p ms) :
    ∃ rest, ms = ns ++ rest ∧ h.Lists q rest := by
  induction hs generalizing ms with
  | nil => exact ⟨ms, rfl, hl⟩
  | cons ha _ ih =>
      cases hl with
      | cons ha' hrest =>
          rw [ha] at ha'
          cases ha'
          obtain ⟨rest, rfl, hend⟩ := ih hrest
          exact ⟨rest, rfl, hend⟩

theorem unique (hs : h.Lists p ns) (hl : h.Lists p ms) : ns = ms := by
  obtain ⟨rest, rfl, hend⟩ := hs.prefix_of_lists hl
  cases hend
  rw [List.append_nil]

theorem nodup (hs : h.Lists p ns) : (addresses ns).Nodup := by
  induction ns generalizing p with
  | nil => exact List.nodup_nil
  | cons n ns ih =>
      cases hs with
      | @cons a v next q ns ha hrest =>
          refine List.nodup_cons.mpr ⟨?_, ih hrest⟩
          intro hmem
          obtain ⟨⟨b, w⟩, hb, rfl⟩ := List.mem_map.mp hmem
          obtain ⟨before, after, rfl⟩ := List.append_of_mem hb
          obtain ⟨q, -, hright⟩ := hrest.split
          have hhead : q = some b := by
            cases hright
            rfl
          subst hhead
          have hsame := hright.unique (.cons ha hrest)
          have hlen := congrArg List.length hsame
          simp only [List.length_cons, List.length_append] at hlen
          omega

theorem congr (hs : h.Segment p ns q) (hsame : ∀ a ∈ addresses ns, h' a = h a) :
    h'.Segment p ns q := by
  induction hs with
  | nil => exact .nil _
  | @cons a v next q ns ha _ ih =>
      refine .cons ?_ (ih fun b hb => hsame b (List.mem_cons_of_mem _ hb))
      rw [hsame a List.mem_cons_self, ha]

/-- The walk to the last node ends there, if the bound is large enough. -/
theorem last_eq (hs : h.Lists p (ns ++ [(a, v)])) {b : A} (hp : p = some b) (fuel : Nat) :
    h.last fuel b = if ns.length < fuel then some a else none := by
  induction ns generalizing p b fuel with
  | nil =>
      cases hs with
      | cons ha hrest =>
          cases hrest
          cases hp
          cases fuel with
          | zero => rfl
          | succ fuel => simp [last, ha]
  | cons n ns ih =>
      cases hs with
      | @cons c w next q ns' ha hrest =>
          cases hp
          cases fuel with
          | zero => rfl
          | succ fuel =>
              obtain ⟨d, hd⟩ := hrest.exists_head (by simp)
              have hrec := ih hrest hd fuel
              rw [last, ha]
              simp only [hd, List.length_cons, Nat.add_lt_add_iff_right]
              exact hrec

theorem find_eq (hs : h.Lists p ns) (f : α → Bool) {fuel : Nat} (hfuel : ns.length ≤ fuel) :
    h.find f fuel p = some ((ns.find? fun n => f n.2).map Prod.fst) := by
  induction ns generalizing p fuel with
  | nil =>
      cases hs
      cases fuel <;> rfl
  | cons n ns ih =>
      cases hs with
      | @cons a v next q ns ha hrest =>
          cases fuel with
          | zero => cases hfuel
          | succ fuel =>
              rw [find, ha, List.find?_cons]
              by_cases hv : f v
              · simp [hv]
              · simp only [hv, Bool.false_eq_true, if_false]
                exact ih hrest (Nat.le_of_succ_le_succ hfuel)

theorem collect_eq (hs : h.Lists p ns) {fuel : Nat} (hfuel : ns.length ≤ fuel) :
    h.collect fuel p = some (ns.map Prod.snd) := by
  induction ns generalizing p fuel with
  | nil =>
      cases hs
      cases fuel <;> rfl
  | cons n ns ih =>
      cases hs with
      | @cons a v next q ns ha hrest =>
          cases fuel with
          | zero => cases hfuel
          | succ fuel =>
              rw [collect, ha]
              simp only
              rw [ih hrest (Nat.le_of_succ_le_succ hfuel)]
              rfl

section Update

variable [DecidableEq A]

theorem congr_set (hs : h.Segment p ns q) (ha : a ∉ addresses ns) (n : Option (Node A α)) :
    (h.set a n).Segment p ns q :=
  hs.congr fun _ hb => set_other h (ne_of_mem_of_not_mem hb ha) n

/-- A node behind a list: the walk arrives where the node's own pointer leads. -/
theorem append_eq (hs : h.Lists p ns) (hnew : a ∉ addresses ns) {next : Option A}
    (ha : h a = some ⟨v, next⟩) {fuel : Nat} (hfuel : ns.length ≤ fuel) :
    ∃ p' h', Heap.append fuel h p a = some (p', h') ∧ h'.Segment p' (ns ++ [(a, v)]) next := by
  rcases List.eq_nil_or_concat' ns with rfl | ⟨ms, ⟨z, w⟩, rfl⟩
  · cases hs
    exact ⟨some a, h, rfl, .cons ha (.nil next)⟩
  · obtain ⟨b, rfl⟩ := hs.exists_head (by simp)
    have hlt : ms.length < fuel := by simpa using hfuel
    have hlast := hs.last_eq rfl fuel
    rw [if_pos hlt] at hlast
    obtain ⟨hms, hz⟩ := concat_iff.mp hs
    have hdistinct : z ∉ addresses ms := by
      have hnodup := hs.nodup
      rw [addresses_append, List.nodup_append] at hnodup
      intro hmem
      exact hnodup.2.2 z hmem z (by simp) rfl
    have hza : a ≠ z := by
      intro he
      exact hnew (by simp [he])
    refine ⟨some b, h.link z a, by simp only [append, hlast, Option.map_some], ?_⟩
    simp only [link, hz]
    refine concat_iff.mpr ⟨concat_iff.mpr ⟨hms.congr_set hdistinct _, set_same h z _⟩, ?_⟩
    rw [set_other h hza, ha]

/-- A walk that has not enough steps does not end. -/
theorem append_eq_none (hs : h.Lists p ns) {fuel : Nat} (hfuel : fuel < ns.length) (a : A) :
    Heap.append fuel h p a = none := by
  rcases List.eq_nil_or_concat' ns with rfl | ⟨ms, ⟨z, w⟩, rfl⟩
  · cases hfuel
  · obtain ⟨b, rfl⟩ := hs.exists_head (by simp)
    have hge : ¬ ms.length < fuel := by
      rw [List.length_append, List.length_singleton] at hfuel
      omega
    simp only [append, hs.last_eq rfl fuel, if_neg hge, Option.map_none]

theorem freeAll_eq (hs : h.Lists p ns) {fuel : Nat} (hfuel : ns.length ≤ fuel) :
    freeAll fuel p h = some fun a => if a ∈ addresses ns then none else h a := by
  induction ns generalizing p h fuel with
  | nil =>
      cases hs
      cases fuel <;> simp [freeAll]
  | cons n ns ih =>
      have hnodup := hs.nodup
      cases hs with
      | @cons a v next q ns ha hrest =>
          cases fuel with
          | zero => cases hfuel
          | succ fuel =>
              have hnew : a ∉ addresses ns := (List.nodup_cons.mp hnodup).1
              rw [freeAll, ha]
              simp only
              rw [ih (hrest.congr_set hnew none) (Nat.le_of_succ_le_succ hfuel)]
              congr 1
              funext b
              by_cases hb : b = a
              · subst hb
                simp
              · rw [set_other h hb]
                simp [hb]

end Update

end Segment

end Heap

end PublicCloudCore.Framework
