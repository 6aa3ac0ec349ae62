import PublicCloudCore.RanEmulator.ElemList

/-!
# The links of the list of `list.c`

Appending a node and the four ways of taking one out each repair some of the pointers. After any
calls the list leads through what it stores forward and backward, and `destroyList`, which goes
forward, frees each node once.
-/

namespace PublicCloudCore.RanEmulator

open Framework

/-- A call that changes a list. `malloc` returns `new`; a comparison may answer otherwise in a later
call, since it looks behind the pointers. -/
inductive ListCall (A δ κ : Type)
  | addElem (new : A) (elem : Option δ)
  | getElem (cmp : Option δ → κ → Int) (key : κ) (stale : Option δ)

namespace ListCall

variable {A δ κ : Type}

/-- The elements after the call, in the order of their insertion. -/
def stored (elems : List (Option δ)) : ListCall A δ κ → List (Option δ)
  | addElem _ elem => elems ++ [elem]
  | getElem cmp key _ => elems.eraseP fun d => cmp d key != 0

theorem length_stored_le (elems : List (Option δ)) (call : ListCall A δ κ) :
    (call.stored elems).length ≤ elems.length + 1 := by
  cases call with
  | addElem new elem => simp [stored]
  | getElem cmp key stale => exact (List.eraseP_sublist.length_le).trans (Nat.le_succ _)

/-- `malloc` returns memory that nothing occupies. -/
def Fresh (l : ElemList A δ) : ListCall A δ κ → Prop
  | addElem new _ => l.memory new = none
  | getElem .. => True

end ListCall

namespace ElemList

variable {A δ κ : Type}

/-- `next` leads from the head once through each element and ends at the tail, `prev` leads back
the same way, and the head and the tail are NULL together, when nothing is stored. -/
def LinkedBothWays (l : ElemList A δ) (elems : List (Option δ)) : Prop :=
  ∃ ns : List (A × Option δ), ns.map Prod.snd = elems ∧ (Cells.places ns).Nodup ∧
    (∀ fuel, ns.length ≤ fuel → l.memory.follow LinkedCell.next fuel l.head = some ns ∧
      l.memory.follow LinkedCell.prev fuel l.tail = some ns.reverse) ∧
    l.tail = (Cells.places ns).getLast? ∧ (l.head = none ↔ l.tail = none) ∧
    (l.tail = none ↔ elems = [])

theorem Holds.linkedBothWays {l : ElemList A δ} {ns : List (A × Option δ)} (h : l.Holds ns) :
    l.LinkedBothWays (ns.map Prod.snd) := by
  have hhead := h.head_eq_none_iff
  have htail : l.tail = none ↔ ns = [] := by
    rw [h.linked.tail_eq, List.getLast?_eq_none_iff]
    exact List.map_eq_nil_iff
  refine ⟨ns, rfl, h.distinct, fun fuel hfuel => ?_, h.linked.tail_eq, hhead.trans htail.symm, ?_⟩
  · exact ⟨h.linked.follow_next hfuel, h.linked.follow_prev hfuel⟩
  · rw [htail, List.map_eq_nil_iff]

section Calls

variable [DecidableEq A] {l : ElemList A δ} {ns : List (A × Option δ)} {fuel : Nat}

/-- A call, whose search takes no more steps than that. -/
def call (fuel : Nat) (l : ElemList A δ) : ListCall A δ κ → Option (ElemList A δ)
  | .addElem new elem => (l.addElem (some new) elem).map Prod.snd
  | .getElem cmp key stale => (l.getElem cmp fuel key stale).map Got.list

/-- Each `malloc` on the way finds memory that nothing occupies. -/
def Allocates (fuel : Nat) : ElemList A δ → List (ListCall A δ κ) → Prop
  | _, [] => True
  | l, c :: cs => c.Fresh l ∧ ∀ l' ∈ l.call fuel c, Allocates fuel l' cs

theorem Holds.after_call (h : l.Holds ns) {c : ListCall A δ κ} (hfresh : c.Fresh l)
    (hfuel : ns.length ≤ fuel) :
    ∃ l' ms, l.call fuel c = some l' ∧ l'.Holds ms ∧
      ms.map Prod.snd = c.stored (ns.map Prod.snd) := by
  cases c with
  | addElem new elem =>
      obtain ⟨l', hadd, hholds⟩ := addElem_spec h hfresh elem
      refine ⟨l', _, ?_, hholds, ?_⟩
      · rw [ElemList.call, hadd, Option.map_some]
      · rw [List.map_append]
        rfl
  | getElem cmp key stale =>
      obtain ⟨got, hget, hholds, -⟩ := getElem_spec cmp h key stale hfuel
      refine ⟨got.list, _, ?_, hholds, ?_⟩
      · rw [ElemList.call, hget, Option.map_some]
      · have herase : (ns.map Prod.snd).eraseP (fun d => cmp d key != 0) =
            (ns.eraseP fun n => cmp n.2 key != 0).map Prod.snd := List.eraseP_map ..
        exact herase.symm

theorem Holds.after_calls {calls : List (ListCall A δ κ)} (h : l.Holds ns)
    (hfresh : l.Allocates fuel calls) (hfuel : ns.length + calls.length ≤ fuel) :
    ∃ l' ms, calls.foldlM (ElemList.call fuel) l = some l' ∧ l'.Holds ms ∧
      ms.map Prod.snd = calls.foldl ListCall.stored (ns.map Prod.snd) := by
  induction calls generalizing l ns with
  | nil => exact ⟨l, ns, rfl, h, rfl⟩
  | cons c calls ih =>
      rw [List.length_cons] at hfuel
      have hsearch : ns.length ≤ fuel := by omega
      obtain ⟨l₁, ns₁, hcall, hholds, hstored⟩ := h.after_call hfresh.1 hsearch
      have hlength := c.length_stored_le (ns.map Prod.snd)
      rw [← hstored, List.length_map, List.length_map] at hlength
      obtain ⟨l₂, ns₂, hcalls, hholds₂, hstored₂⟩ :=
        ih hholds (hfresh.2 l₁ hcall) (by omega)
      refine ⟨l₂, ns₂, ?_, hholds₂, ?_⟩
      · rw [List.foldlM_cons, hcall]
        exact hcalls
      · rw [hstored₂, hstored]
        rfl

/-- After any calls the list is linked both ways, in the order of insertion. -/
theorem linkedBothWays_of_calls (memory : Cells A (Option δ)) (calls : List (ListCall A δ κ))
    (hfresh : (initList memory).Allocates fuel calls) (hfuel : calls.length ≤ fuel) :
    ∃ l, calls.foldlM (ElemList.call fuel) (initList memory) = some l ∧
      l.LinkedBothWays (calls.foldl ListCall.stored []) := by
  obtain ⟨l, ns, hcalls, hholds, hstored⟩ :=
    (holds_initList memory).after_calls hfresh (by rw [List.length_nil]; omega)
  refine ⟨l, hcalls, ?_⟩
  have hlinked := hholds.linkedBothWays
  rw [hstored] at hlinked
  exact hlinked

/-- Three elements, of which the middle one is taken out, and one more in its place in memory. -/
theorem linkedBothWays_of_five_calls :
    let calls : List (ListCall Nat Nat Nat) :=
      [.addElem 7 (some 1), .addElem 3 (some 2), .addElem 5 none,
        .getElem (fun d key => if d = some key then 1 else 0) 2 none, .addElem 3 (some 4)]
    ∃ l, calls.foldlM (ElemList.call 5) (initList fun _ => none) = some l ∧
      l.LinkedBothWays [some 1, none, some 4] := by
  intro calls
  refine linkedBothWays_of_calls (fun _ => none) calls ?_ (Nat.le_refl 5)
  refine ⟨rfl, fun l hl => ?_⟩
  cases hl
  refine ⟨rfl, fun l hl => ?_⟩
  cases hl
  refine ⟨rfl, fun l hl => ?_⟩
  cases hl
  refine ⟨trivial, fun l hl => ?_⟩
  cases hl
  refine ⟨rfl, fun l hl => ?_⟩
  trivial

end Calls

section Destroy

variable [DecidableEq A]

/-- The loop of `destroyList`, for no more steps than that: the data that it destroys, and the
memory without the nodes. `iter->next` is read before `free`. -/
def destroyNodes : Nat → Cells A (Option δ) → Option A →
    Option (List (Option δ) × Cells A (Option δ))
  | _, memory, none => some ([], memory)
  | 0, _, some _ => none
  | fuel + 1, memory, some iter => do
      let node ← memory iter
      let (destroyed, memory) ← destroyNodes fuel (memory.set iter none) node.next
      some (node.data :: destroyed, memory)

def destroyList (fuel : Nat) (l : ElemList A δ) :
    Option (List (Option δ) × Cells A (Option δ)) :=
  destroyNodes fuel l.memory l.head

theorem destroyNodes_spec {memory : Cells A (Option δ)} {b p z : Option A}
    {ns : List (A × Option δ)} (hs : memory.Stretch b p ns z none)
    (hdistinct : (Cells.places ns).Nodup) {fuel : Nat} (hfuel : ns.length ≤ fuel) :
    ∃ memory', destroyNodes fuel memory p = some (ns.map Prod.snd, memory') ∧
      ∀ a, memory' a = if a ∈ Cells.places ns then none else memory a := by
  induction ns generalizing memory b p fuel with
  | nil =>
      cases hs
      refine ⟨memory, ?_, fun a => by simp⟩
      cases fuel <;> rfl
  | cons n ns ih =>
      cases hs with
      | @cons a d b next z q ns ha hrest =>
          obtain ⟨hnew, hdistinct⟩ := List.nodup_cons.mp hdistinct
          cases fuel with
          | zero => cases hfuel
          | succ fuel =>
              obtain ⟨memory', hdestroyed, hmemory⟩ := ih (hrest.congr_set hnew none) hdistinct
                (Nat.le_of_succ_le_succ hfuel)
              refine ⟨memory', ?_, fun c => ?_⟩
              · simp only [destroyNodes, ha, Option.bind_eq_bind, Option.bind_some, hdestroyed]
                rfl
              · rw [hmemory c, Cells.places_cons]
                by_cases hc : c = a
                · subst hc
                  simp
                · simp [hc, Cells.set_other memory hc]

/-- `destroyList` destroys what is stored, each element once and in the order of insertion, and
frees no other memory. -/
theorem Holds.destroyList {l : ElemList A δ} {ns : List (A × Option δ)} (h : l.Holds ns)
    {fuel : Nat} (hfuel : ns.length ≤ fuel) :
    ∃ memory, l.destroyList fuel = some (ns.map Prod.snd, memory) ∧
      ∀ a, memory a = if a ∈ Cells.places ns then none else l.memory a :=
  destroyNodes_spec h.linked h.distinct hfuel

end Destroy

end ElemList

end PublicCloudCore.RanEmulator
