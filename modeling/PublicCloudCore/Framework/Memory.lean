import Mathlib

/-!
# Memory seen from a pointer

A pointer is the memory behind it: the cell at every offset. `read` and `write` move whole
blocks, as `memcpy` does, and the lemmas say which cells a write changes. Bounds are not part of
a memory; a program that must stay inside a block of `n` cells is one that `WritesBelow n`.
-/

namespace PublicCloudCore.Framework

abbrev Mem (α : Type) := Nat → α

namespace Mem

variable {α : Type}

/-- The `n` cells from offset `p` on. -/
def read (m : Mem α) (p n : Nat) : List α := (List.range n).map fun i => m (p + i)

/-- Store a block of cells at offset `p`. -/
def write (m : Mem α) (p : Nat) (bs : List α) : Mem α := fun i =>
  if p ≤ i then bs.getD (i - p) (m i) else m i

/-- The same memory from a pointer `k` cells further on. -/
def shift (m : Mem α) (k : Nat) : Mem α := fun i => m (k + i)

/-- A memory that starts with the given block and holds `d` behind it. -/
def ofList (bs : List α) (d : α) : Mem α := fun i => bs.getD i d

@[simp] theorem read_length (m : Mem α) (p n : Nat) : (m.read p n).length = n := by
  simp [read]

@[simp] theorem read_zero (m : Mem α) (p : Nat) : m.read p 0 = [] := rfl

@[simp] theorem getElem_read (m : Mem α) (p n i : Nat) (h : i < (m.read p n).length) :
    (m.read p n)[i] = m (p + i) := by
  simp [read]

theorem read_succ (m : Mem α) (p n : Nat) : m.read p (n + 1) = m p :: m.read (p + 1) n := by
  apply List.ext_getElem
  · simp
  · intro i h₁ h₂
    cases i with
    | zero => simp
    | succ i => simp only [getElem_read, List.getElem_cons_succ]; congr 1; omega

theorem read_add (m : Mem α) (p a b : Nat) :
    m.read p (a + b) = m.read p a ++ m.read (p + a) b := by
  simp only [read, List.range_add, List.map_append, List.map_map]
  congr 1
  apply List.map_congr_left
  intro i _
  simp [Nat.add_assoc]

theorem read_congr {m m' : Mem α} {p n : Nat} (h : ∀ i, p ≤ i → i < p + n → m i = m' i) :
    m.read p n = m'.read p n := by
  apply List.map_congr_left
  intro i hi
  exact h (p + i) (by omega) (by have := List.mem_range.mp hi; omega)

theorem cell_eq_of_read_eq {m m' : Mem α} {p n : Nat} (h : m.read p n = m'.read p n) {i : Nat}
    (hlo : p ≤ i) (hhi : i < p + n) : m i = m' i := by
  have hl : i - p < (m.read p n).length := by simp; omega
  have hl' : i - p < (m'.read p n).length := by simp; omega
  have he : (m.read p n)[i - p] = (m'.read p n)[i - p] := by simp only [h]
  simpa only [getElem_read, Nat.add_sub_cancel' hlo] using he

@[simp] theorem read_shift (m : Mem α) (k p n : Nat) : (m.shift k).read p n = m.read (k + p) n := by
  simp only [read, shift, Nat.add_assoc]

theorem read_ofList (bs : List α) (d : α) : (ofList bs d).read 0 bs.length = bs := by
  apply List.ext_getElem
  · simp
  · intro i h₁ h₂
    rw [getElem_read, Nat.zero_add]
    exact List.getD_eq_getElem _ _ h₂

@[simp] theorem write_nil (m : Mem α) (p : Nat) : m.write p [] = m := by
  funext i
  simp [write]

theorem write_outside (m : Mem α) (p : Nat) (bs : List α) (i : Nat)
    (h : i < p ∨ p + bs.length ≤ i) : m.write p bs i = m i := by
  unfold write
  split
  · rw [List.getD_eq_default _ _ (by omega)]
  · rfl

theorem write_inside (m : Mem α) (p : Nat) (bs : List α) (i : Nat) (h : i < bs.length) :
    m.write p bs (p + i) = bs[i] := by
  unfold write
  rw [if_pos (by omega), Nat.add_sub_cancel_left, List.getD_eq_getElem _ _ h]

theorem read_write_take (m : Mem α) (p : Nat) (bs : List α) (n : Nat) (h : n ≤ bs.length) :
    (m.write p bs).read p n = bs.take n := by
  apply List.ext_getElem
  · simp [h]
  · intro i h₁ h₂
    rw [read_length] at h₁
    rw [getElem_read, write_inside _ _ _ _ (by omega), List.getElem_take]

theorem read_write_same (m : Mem α) (p : Nat) (bs : List α) :
    (m.write p bs).read p bs.length = bs := by
  rw [read_write_take _ _ _ _ (Nat.le_refl _), List.take_length]

theorem read_write_disjoint (m : Mem α) (p q n : Nat) (bs : List α)
    (h : q + n ≤ p ∨ p + bs.length ≤ q) : (m.write p bs).read q n = m.read q n := by
  apply read_congr
  intro i hlo hhi
  exact write_outside _ _ _ _ (by omega)

theorem write_write_adjacent (m : Mem α) (p : Nat) (as bs : List α) :
    (m.write p as).write (p + as.length) bs = m.write p (as ++ bs) := by
  funext i
  by_cases hlo : i < p
  · rw [write_outside _ _ _ _ (by omega), write_outside _ _ _ _ (by omega),
      write_outside _ _ _ _ (by omega)]
  by_cases hmid : i < p + as.length
  · obtain ⟨j, rfl⟩ := Nat.exists_eq_add_of_le (Nat.le_of_not_lt hlo)
    rw [write_outside _ _ _ _ (by omega), write_inside _ _ _ _ (by omega),
      write_inside _ _ _ _ (by simp; omega), List.getElem_append_left]
  by_cases hhi : i < p + as.length + bs.length
  · obtain ⟨j, rfl⟩ := Nat.exists_eq_add_of_le (Nat.le_of_not_lt hmid)
    rw [write_inside _ _ _ _ (by omega), Nat.add_assoc, write_inside _ _ _ _ (by simp; omega),
      List.getElem_append_right (by omega)]
    simp
  · rw [write_outside _ _ _ _ (by omega), write_outside _ _ _ _ (by omega),
      write_outside _ _ _ _ (by simp; omega)]

/-- A later block of at least the same length hides an earlier one. -/
theorem write_write_same (m : Mem α) (p : Nat) {as bs : List α} (h : as.length ≤ bs.length) :
    (m.write p as).write p bs = m.write p bs := by
  funext i
  by_cases hi : p ≤ i ∧ i < p + bs.length
  · obtain ⟨j, rfl⟩ := Nat.exists_eq_add_of_le hi.1
    rw [write_inside _ _ _ _ (by omega), write_inside _ _ _ _ (by omega)]
  · rw [write_outside _ _ _ _ (by omega), write_outside _ _ _ _ (by omega),
      write_outside _ _ _ _ (by omega)]

theorem read_write_long (m : Mem α) (p : Nat) (bs : List α) {n : Nat} (h : bs.length ≤ n) :
    (m.write p bs).read p n = bs ++ m.read (p + bs.length) (n - bs.length) := by
  have hn : n = bs.length + (n - bs.length) := by omega
  rw [hn, read_add, read_write_same, read_write_disjoint _ _ _ _ _ (Or.inr (Nat.le_refl _))]
  congr 2
  omega

/-! An encoder writes a block and moves its pointer on by the size of the block's slot; what the block
does not fill keeps its old content. -/

/-- A block and the step to the next one. -/
abbrev Block (α : Type) := List α × Nat

def writeBlocks (m : Mem α) (p : Nat) : List (Block α) → Mem α
  | [] => m
  | b :: bs => (m.write p b.1).writeBlocks (p + b.2) bs

def slots (m : Mem α) (p : Nat) : List (Block α) → List α
  | [] => []
  | b :: bs => b.1 ++ m.read (p + b.1.length) (b.2 - b.1.length) ++ m.slots (p + b.2) bs

def blocksLen (bs : List (Block α)) : Nat := (bs.map Prod.snd).sum

@[simp] theorem blocksLen_nil : blocksLen ([] : List (Block α)) = 0 := rfl

@[simp] theorem blocksLen_cons (b : Block α) (bs : List (Block α)) :
    blocksLen (b :: bs) = b.2 + blocksLen bs := by
  simp [blocksLen]

@[simp] theorem blocksLen_append (as bs : List (Block α)) :
    blocksLen (as ++ bs) = blocksLen as + blocksLen bs := by
  simp [blocksLen]

def BlocksFit (bs : List (Block α)) : Prop := ∀ b ∈ bs, b.1.length ≤ b.2

theorem writeBlocks_append (m : Mem α) (p : Nat) (as bs : List (Block α)) :
    m.writeBlocks p (as ++ bs) = (m.writeBlocks p as).writeBlocks (p + blocksLen as) bs := by
  induction as generalizing m p with
  | nil => rfl
  | cons a as ih =>
      simp only [List.cons_append, writeBlocks, ih, blocksLen_cons, Nat.add_assoc]

theorem slots_append (m : Mem α) (p : Nat) (as bs : List (Block α)) :
    m.slots p (as ++ bs) = m.slots p as ++ m.slots (p + blocksLen as) bs := by
  induction as generalizing p with
  | nil => simp [slots]
  | cons a as ih => simp [slots, ih, Nat.add_assoc]

theorem slots_length (m : Mem α) (p : Nat) {bs : List (Block α)} (h : BlocksFit bs) :
    (m.slots p bs).length = blocksLen bs := by
  induction bs generalizing p with
  | nil => rfl
  | cons b bs ih =>
      have hb : b.1.length ≤ b.2 := h b (by simp)
      have hbs := ih (p + b.2) fun c hc => h c (by simp [hc])
      simp only [slots, List.length_append, read_length, hbs, blocksLen_cons]
      omega

theorem slots_congr {m m' : Mem α} {p : Nat} (h : ∀ i, p ≤ i → m i = m' i)
    (bs : List (Block α)) : m.slots p bs = m'.slots p bs := by
  induction bs generalizing p with
  | nil => rfl
  | cons b bs ih =>
      simp only [slots]
      rw [read_congr fun i hi _ => h i (by omega), ih fun i hi => h i (by omega)]

theorem writeBlocks_below (m : Mem α) (p : Nat) (bs : List (Block α)) {i : Nat} (h : i < p) :
    m.writeBlocks p bs i = m i := by
  induction bs generalizing m p with
  | nil => rfl
  | cons b bs ih =>
      rw [writeBlocks, ih _ _ (by omega)]
      exact write_outside _ _ _ _ (Or.inl h)

theorem read_writeBlocks (m : Mem α) (p : Nat) {bs : List (Block α)} (hfit : BlocksFit bs) :
    (m.writeBlocks p bs).read p (blocksLen bs) = m.slots p bs := by
  induction bs generalizing m p with
  | nil => rfl
  | cons b bs ih =>
      have hb : b.1.length ≤ b.2 := hfit b (by simp)
      have hfirst : ((m.write p b.1).writeBlocks (p + b.2) bs).read p b.2 =
          (m.write p b.1).read p b.2 :=
        read_congr fun i _ hi => writeBlocks_below _ _ _ hi
      have hrest : (m.write p b.1).slots (p + b.2) bs = m.slots (p + b.2) bs :=
        slots_congr (fun i hi => write_outside _ _ _ _ (Or.inr (by omega))) bs
      rw [blocksLen_cons, read_add, writeBlocks, hfirst, read_write_long _ _ _ hb,
        ih _ _ fun c hc => hfit c (by simp [hc]), hrest, slots]

/-- A transformation of memory that leaves every cell from `n` on as it was. -/
def WritesBelow (n : Nat) (f : Mem α → Mem α) : Prop := ∀ m i, n ≤ i → f m i = m i

/-- The cells from `p` on are that block. -/
def Holds (m : Mem α) (p : Nat) (bs : List α) : Prop := m.read p bs.length = bs

theorem holds_ofList (bs : List α) (d : α) : (ofList bs d).Holds 0 bs := read_ofList bs d

theorem holds_append (m : Mem α) (p : Nat) (as bs : List α) :
    m.Holds p (as ++ bs) ↔ m.Holds p as ∧ m.Holds (p + as.length) bs := by
  rw [Holds, List.length_append, read_add]
  constructor
  · intro h
    exact List.append_inj h (read_length _ _ _)
  · intro h
    exact congrArg₂ List.append h.1 h.2

theorem holds_cons (m : Mem α) (p : Nat) (b : α) (bs : List α) :
    m.Holds p (b :: bs) ↔ m p = b ∧ m.Holds (p + 1) bs := by
  rw [Holds, List.length_cons, read_succ]
  exact List.cons_eq_cons

theorem Holds.read {m : Mem α} {p n : Nat} {bs : List α} (h : m.Holds p bs)
    (hn : bs.length = n) : m.read p n = bs := by
  rw [← hn]
  exact h

theorem Holds.mem_iff {m : Mem α} {p : Nat} {bs : List α} (h : m.Holds p bs) {b : α} :
    b ∈ bs ↔ ∃ i < bs.length, m (p + i) = b := by
  have hmem : b ∈ m.read p bs.length ↔ ∃ i < bs.length, m (p + i) = b := by simp [Mem.read]
  rwa [h.read rfl] at hmem

theorem Holds.pair_infix_iff {m : Mem α} {p : Nat} {bs : List α} (h : m.Holds p bs) {a b : α} :
    [a, b] <:+: bs ↔ ∃ i, i + 1 < bs.length ∧ m (p + i) = a ∧ m (p + i + 1) = b := by
  constructor
  · rintro ⟨as, cs, rfl⟩
    rw [List.append_assoc, holds_append, List.cons_append, holds_cons, List.cons_append,
      holds_cons] at h
    exact ⟨as.length, by simp, h.2.1, h.2.2.1⟩
  · rintro ⟨i, hi, ha, hb⟩
    have hlength : (bs.take i).length = i := by
      rw [List.length_take]
      omega
    have hdrop : (bs.drop i).length = bs.length - i := List.length_drop
    rw [← bs.take_append_drop i, holds_append, hlength] at h
    cases hrest : bs.drop i with
    | nil =>
        rw [hrest, List.length_nil] at hdrop
        omega
    | cons c cs =>
        cases cs with
        | nil =>
            rw [hrest, List.length_singleton] at hdrop
            omega
        | cons d cs =>
            rw [hrest, holds_cons, holds_cons] at h
            refine ⟨bs.take i, cs, ?_⟩
            rw [← ha, ← hb, h.2.1, h.2.2.1, List.append_assoc, List.cons_append, List.cons_append,
              List.nil_append, ← hrest, List.take_append_drop]

theorem Holds.cell_eq {m m' : Mem α} {p i : Nat} {bs : List α} (h : m.Holds p bs)
    (h' : m'.Holds p bs) (hlo : p ≤ i) (hhi : i < p + bs.length) : m i = m' i :=
  cell_eq_of_read_eq (h.trans h'.symm) hlo hhi

end Mem

end PublicCloudCore.Framework
