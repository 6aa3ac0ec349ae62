import PublicCloudCore.Framework.Memory
import PublicCloudCore.Framework.Program

/-!
# Parsers of a block into a record

A parser is a program that loads cells of a message and stores cells of a record behind a pointer,
which may be NULL: a store through NULL ends it. `Yields` says what a run comes to, `Keeps` what it
touches on the way, also where it does not come to an end.
-/

namespace PublicCloudCore.Framework

/-- What a parser asks for: a cell of the message, or a store into the record. -/
inductive Touch (α : Type)
  | load (k : Nat)
  | store (p : Nat) (cells : List α)

/-- A load is answered by the cell, a store by whether there is a record. -/
abbrev Touch.Answer {α : Type} : Touch α → Type
  | .load _ => α
  | .store _ _ => Bool

abbrev Parser (α O β : Type) := Prog (Touch α) Touch.Answer O β

namespace Parser

variable {α O β γ : Type}

def load (k : Nat) : Parser α O α := Prog.call (Touch.load k)

/-- The `n` cells from `k` on. -/
def block (k : Nat) : Nat → Parser α O (List α)
  | 0 => pure []
  | n + 1 => do
      let a ← load k
      let as ← block (k + 1) n
      pure (a :: as)

def store (p : Nat) (cells : List α) : Parser α O Unit := do
  let there ← Prog.call (Touch.store p cells)
  Prog.assert (there = true)

/-- The answers to a parser of this message. -/
def serve (message : Mem α) (record : Option (Mem α)) : (q : Touch α) → q.Answer × Option (Mem α)
  | .load k => (message k, record)
  | .store p cells => (record.isSome, record.map fun m => m.write p cells)

def reading (message : Mem α) : Prog.Reading (Touch α) Touch.Answer O (Mem α × List O) where
  aborts := False
  ask
    | s, .load k, P => P (message k) s
    | s, .store p cells, P => P true (s.1.write p cells, s.2)
  emit s o P := P (s.1, s.2 ++ [o])

theorem reading_monotone (message : Mem α) : (reading message (O := O)).Monotone where
  ask {_ q _ _} hP h := by cases q <;> exact hP _ _ h
  emit hP h := hP _ h

/-- With a record that is there, the run ends, with a value, a record and observations as stated. -/
def Yields (message : Mem α) (p : Parser α O β) (m : Mem α) (seen : List O)
    (post : β → Mem α → List O → Prop) : Prop :=
  p.wp (reading message) (m, seen) fun b s => post b s.1 s.2

section

variable {message m : Mem α} {seen : List O}

theorem yields_iff {p : Parser α O β} {post : β → Mem α → List O → Prop} :
    Yields message p m seen post ↔
      ∃ b m', (p.exec (serve message) (some m)).result = some b ∧
        (p.exec (serve message) (some m)).state = some m' ∧
        post b m' (seen ++ (p.exec (serve message) (some m)).emitted) := by
  rw [Yields]
  induction p generalizing m seen with
  | done b => simp [Prog.wp, Prog.exec]
  | abort => simp [Prog.wp, Prog.exec, reading]
  | ask q k ih =>
      cases q with
      | load a => exact ih _
      | store p cells => exact ih _
  | emit o p ih =>
      have hrest := @ih m (seen ++ [o])
      rw [List.append_assoc] at hrest
      exact hrest

theorem exists_state (message : Mem α) (p : Parser α O β) (m : Mem α) :
    ∃ m', (p.exec (serve message) (some m)).state = some m' := by
  induction p generalizing m with
  | done b => exact ⟨m, rfl⟩
  | abort => exact ⟨m, rfl⟩
  | ask q k ih =>
      cases q with
      | load a => exact ih _ m
      | store p cells => exact ih _ (m.write p cells)
  | emit o p ih => exact ih m

theorem exists_result_iff {p : Parser α O β} :
    (∃ b, (p.exec (serve message) (some m)).result = some b) ↔
      Yields message p m [] fun _ _ _ => True := by
  rw [yields_iff]
  constructor
  · rintro ⟨b, hb⟩
    obtain ⟨m', hm⟩ := exists_state message p m
    exact ⟨b, m', hb, hm, trivial⟩
  · rintro ⟨b, _, hb, _⟩
    exact ⟨b, hb⟩

@[simp] theorem yields_pure (b : β) {post : β → Mem α → List O → Prop} :
    Yields message (pure b) m seen post ↔ post b m seen := Iff.rfl

@[simp] theorem yields_abort {post : β → Mem α → List O → Prop} :
    ¬ Yields message (Prog.abort : Parser α O β) m seen post := id

@[simp] theorem yields_bind {p : Parser α O β} {f : β → Parser α O γ}
    {post : γ → Mem α → List O → Prop} :
    Yields message (p >>= f) m seen post ↔
      Yields message p m seen fun b m seen => Yields message (f b) m seen post := by
  rw [Yields, Prog.wp_bind]
  rfl

@[simp] theorem yields_load (k : Nat) {post : α → Mem α → List O → Prop} :
    Yields message (load k) m seen post ↔ post (message k) m seen := Iff.rfl

@[simp] theorem yields_observe (o : O) {post : Unit → Mem α → List O → Prop} :
    Yields message (Prog.observe o) m seen post ↔ post () m (seen ++ [o]) := Iff.rfl

@[simp] theorem yields_block (k n : Nat) {post : List α → Mem α → List O → Prop} :
    Yields message (block k n) m seen post ↔ post (message.read k n) m seen := by
  induction n generalizing k post with
  | zero => rfl
  | succ n ih =>
      rw [block, yields_bind, yields_load, yields_bind, ih, Mem.read_succ]
      rfl

@[simp] theorem yields_store (p : Nat) (cells : List α) {post : Unit → Mem α → List O → Prop} :
    Yields message (store p cells) m seen post ↔ post () (m.write p cells) seen := Iff.rfl

theorem yields_ite {c : Prop} [Decidable c] {p q : Parser α O β}
    {post : β → Mem α → List O → Prop} :
    Yields message (if c then p else q) m seen post ↔
      if c then Yields message p m seen post else Yields message q m seen post := by
  split <;> rfl

theorem Yields.mono {p : Parser α O β} {post post' : β → Mem α → List O → Prop}
    (h : Yields message p m seen post) (hpost : ∀ b m s, post b m s → post' b m s) :
    Yields message p m seen post' := by
  obtain ⟨b, m', hb, hm, hp⟩ := yields_iff.mp h
  exact yields_iff.mpr ⟨b, m', hb, hm, hpost _ _ _ hp⟩

theorem Yields.exists_and {p : Parser α O β} {post post' : β → Mem α → List O → Prop}
    (h : Yields message p m seen post) (h' : Yields message p m seen post') :
    ∃ b m' s, post b m' s ∧ post' b m' s := by
  obtain ⟨b, m', hb, hm, hp⟩ := yields_iff.mp h
  obtain ⟨b', m'', hb', hm', hp'⟩ := yields_iff.mp h'
  obtain rfl := Option.some.inj (hb.symm.trans hb')
  obtain rfl := Option.some.inj (hm.symm.trans hm')
  exact ⟨b, m', _, hp, hp'⟩

theorem yields_const {p : Parser α O β} {P : Prop} :
    (Yields message p m seen fun _ _ _ => P) ↔ (Yields message p m seen fun _ _ _ => True) ∧ P := by
  simp only [yields_iff, exists_and_left]
  constructor
  · rintro ⟨b, hb, m', hm, hP⟩
    exact ⟨⟨b, hb, m', hm, trivial⟩, hP⟩
  · rintro ⟨⟨b, hb, m', hm, _⟩, hP⟩
    exact ⟨b, hb, m', hm, hP⟩

end

def Spares (cells : Nat → Prop) : Touch α → Prop
  | .load _ => True
  | .store p stored => ∀ i < stored.length, ¬ cells (p + i)

/-- A parser that stores into none of these cells, and observes nothing. -/
def Leaves (cells : Nat → Prop) (p : Parser α O β) : Prop :=
  p.Ensures (Spares cells) (fun _ => False) fun _ => True

section

variable {message m : Mem α} {seen : List O} {cells : Nat → Prop}

theorem write_spared {p : Nat} {stored : List α} (h : Spares cells (.store p stored)) {k : Nat}
    (hk : cells k) : m.write p stored k = m k := by
  apply Mem.write_outside
  by_contra hinside
  have hat := h (k - p) (by omega)
  rw [show p + (k - p) = k by omega] at hat
  exact hat hk

theorem Yields.leaves {p : Parser α O β} {post : β → Mem α → List O → Prop}
    (h : Yields message p m seen post) (hp : p.Leaves cells) :
    Yields message p m seen fun b m' s =>
      post b m' s ∧ (∀ k, cells k → m' k = m k) ∧ s = seen := by
  rw [Yields] at h ⊢
  rw [Leaves, Prog.Ensures] at hp
  induction p generalizing m seen with
  | done b => exact ⟨h, fun _ _ => rfl, rfl⟩
  | abort => exact h
  | ask q k ih =>
      cases q with
      | load a => exact ih _ h (hp.2 _)
      | store p stored =>
          refine Prog.wp_mono (reading_monotone message) (fun b s hs => ?_) (ih true h (hp.2 true))
          exact ⟨hs.1, fun k hk => (hs.2.1 k hk).trans (write_spared hp.1 hk), hs.2.2⟩
  | emit o p => exact hp.1.elim

theorem leaves_store {p : Nat} {stored : List α} (h : Spares cells (.store p stored)) :
    (store p stored : Parser α O Unit).Leaves cells := by
  rw [Leaves, store, Prog.ensures_bind, Prog.ensures_call]
  exact ⟨h, fun _ => (Prog.ensures_assert _).mpr fun _ => trivial⟩

theorem leaves_load (k : Nat) : (load k : Parser α O α).Leaves cells := ⟨trivial, fun _ => trivial⟩

theorem Leaves.bind {p : Parser α O β} {f : β → Parser α O γ} (hp : p.Leaves cells)
    (hf : ∀ b, (f b).Leaves cells) : (p >>= f).Leaves cells :=
  Prog.Ensures.bind hp fun b _ => hf b

theorem leaves_pure (b : β) : (pure b : Parser α O β).Leaves cells := trivial

theorem leaves_ite {c : Prop} [Decidable c] {p q : Parser α O β} (hp : p.Leaves cells)
    (hq : q.Leaves cells) : (if c then p else q).Leaves cells := by
  split
  · exact hp
  · exact hq

theorem ensures_block (k n : Nat) : (block k n : Parser α O (List α)).Ensures (Spares cells)
    (fun _ => False) fun as => as.length = n := by
  induction n generalizing k with
  | zero => rfl
  | succ n ih =>
      apply Prog.Ensures.bind (leaves_load k)
      intro a _
      apply (ih (k + 1)).bind
      intro as has
      exact congrArg (· + 1) has

theorem leaves_block (k n : Nat) : (block k n : Parser α O (List α)).Leaves cells :=
  (ensures_block k n).mono fun _ _ => trivial

theorem exec_null (p : Parser α O β) : (p.exec (serve message) none).state = none := by
  have hstep : ∀ record q, True → record = none → (serve message record q).2 = none := by
    rintro _ q - rfl
    cases q <;> rfl
  exact (Prog.trace_invariant hstep (fun _ _ => trivial) rfl).2

/-- A run whose stores spare the cells leaves them in the record. -/
theorem exec_spares {p : Parser α O β}
    (h : ∀ q ∈ (p.exec (serve message) (some m)).asked, Spares cells q) {m' : Mem α}
    (hm' : (p.exec (serve message) (some m)).state = some m') {k : Nat} (hk : cells k) :
    m' k = m k := by
  let Kept (record : Option (Mem α)) : Prop := ∀ m', record = some m' → m' k = m k
  have hstep : ∀ record q, Spares cells q → Kept record → Kept (serve message record q).2 := by
    intro record q hq hkept m' hm'
    cases q with
    | load j => exact hkept m' hm'
    | store p stored =>
        obtain ⟨m₀, rfl, rfl⟩ := Option.map_eq_some_iff.mp hm'
        rw [write_spared hq hk]
        exact hkept m₀ rfl
  have hstart : Kept (some m) := by
    rintro m' ⟨⟩
    rfl
  exact (Prog.trace_invariant hstep h hstart).2 m' hm'

end

/-- The reading that looks at each touch: a store that is allowed finds a record. -/
def touchReading (message : Mem α) (allowed : Touch α → Prop) :
    Prog.Reading (Touch α) Touch.Answer O Unit where
  aborts := True
  ask
    | _, .load k, P => allowed (.load k) ∧ P (message k) ()
    | _, .store p cells, P => allowed (.store p cells) ∧ P true ()
  emit _ _ P := P ()

/-- Everything that the run touches is allowed, and its value, if there is one, is as stated. -/
def Keeps (message : Mem α) (allowed : Touch α → Prop) (p : Parser α O β) (post : β → Prop) :
    Prop :=
  p.wp (touchReading message allowed) () fun b _ => post b

section

variable {message : Mem α} {allowed : Touch α → Prop} {record : Option (Mem α)}

/-- Where no store through NULL is allowed, this is about the touches of the run alone. -/
theorem keeps_iff {p : Parser α O β}
    (hnull : record = none → ∀ p cells, ¬ allowed (.store p cells)) :
    (Keeps message allowed p fun _ => True) ↔
      ∀ q ∈ (p.exec (serve message) record).asked, allowed q := by
  rw [Keeps]
  induction p generalizing record with
  | done b => simp [Prog.wp, Prog.exec]
  | abort => simp [Prog.wp, Prog.exec, touchReading]
  | ask q k ih =>
      simp only [Prog.exec, List.mem_cons, forall_eq_or_imp]
      cases q with
      | load a => exact and_congr_right fun _ => ih _ hnull
      | store p cells =>
          apply and_congr_right
          intro hallowed
          cases record with
          | none => exact absurd hallowed (hnull rfl p cells)
          | some m =>
              apply ih true
              intro h
              cases h
  | emit o p ih => exact ih hnull

@[simp] theorem keeps_pure (b : β) {post : β → Prop} :
    Keeps message allowed (pure b : Parser α O β) post ↔ post b := Iff.rfl

@[simp] theorem keeps_abort {post : β → Prop} :
    Keeps message allowed (Prog.abort : Parser α O β) post := trivial

@[simp] theorem keeps_bind {p : Parser α O β} {f : β → Parser α O γ} {post : γ → Prop} :
    Keeps message allowed (p >>= f) post ↔
      Keeps message allowed p fun b => Keeps message allowed (f b) post := by
  rw [Keeps, Prog.wp_bind]
  rfl

@[simp] theorem keeps_load (k : Nat) {post : α → Prop} :
    Keeps message allowed (load k : Parser α O α) post ↔
      allowed (.load k) ∧ post (message k) := Iff.rfl

@[simp] theorem keeps_observe (o : O) {post : Unit → Prop} :
    Keeps message allowed (Prog.observe o) post ↔ post () := Iff.rfl

theorem keeps_block (k n : Nat) {post : List α → Prop} :
    Keeps message allowed (block k n : Parser α O (List α)) post ↔
      (∀ i < n, allowed (.load (k + i))) ∧ post (message.read k n) := by
  induction n generalizing k post with
  | zero => simp [block]
  | succ n ih =>
      have hshift : (∀ i < n + 1, allowed (.load (k + i))) ↔
          allowed (.load k) ∧ ∀ i < n, allowed (.load (k + 1 + i)) := by
        simp only [Nat.forall_lt_succ_left, Nat.add_zero, Nat.add_assoc, Nat.add_comm 1]
      rw [block, keeps_bind, keeps_load, keeps_bind, ih, Mem.read_succ, hshift, and_assoc]
      rfl

@[simp] theorem keeps_store (p : Nat) (cells : List α) {post : Unit → Prop} :
    Keeps message allowed (store p cells : Parser α O Unit) post ↔
      allowed (.store p cells) ∧ post () := Iff.rfl

theorem keeps_const {p : Parser α O β} {m : Mem α} {seen : List O} {P : Prop} :
    (Keeps message allowed p fun _ => P) ↔
      (Keeps message allowed p fun _ => True) ∧
        ((Yields message p m seen fun _ _ _ => True) → P) := by
  rw [Keeps, Keeps, Yields]
  induction p generalizing m seen with
  | done b => simp [Prog.wp]
  | abort => simp [Prog.wp, touchReading, reading]
  | ask q k ih =>
      cases q with
      | load a => exact (and_congr_right fun _ => ih _).trans and_assoc.symm
      | store p cells => exact (and_congr_right fun _ => ih true).trans and_assoc.symm
  | emit o p ih => exact @ih m (seen ++ [o])

theorem keeps_ite {c : Prop} [Decidable c] {p q : Parser α O β} {post : β → Prop} :
    Keeps message allowed (if c then p else q) post ↔
      if c then Keeps message allowed p post else Keeps message allowed q post := by
  split <;> rfl

end

def nullReading (message : Mem α) : Prog.Reading (Touch α) Touch.Answer O (List O) where
  aborts := False
  ask
    | s, .load k, P => P (message k) s
    | s, .store _ _, P => P false s
  emit s o P := P (s ++ [o])

/-- With NULL for the record, the run ends, with a value and observations as stated. -/
def YieldsNull (message : Mem α) (p : Parser α O β) (seen : List O)
    (post : β → List O → Prop) : Prop :=
  p.wp (nullReading message) seen post

section

variable {message : Mem α} {seen : List O}

theorem yieldsNull_iff {p : Parser α O β} {post : β → List O → Prop} :
    YieldsNull message p seen post ↔
      ∃ b, (p.exec (serve message) none).result = some b ∧
        (p.exec (serve message) none).state = none ∧
        post b (seen ++ (p.exec (serve message) none).emitted) := by
  rw [YieldsNull]
  induction p generalizing seen with
  | done b => simp [Prog.wp, Prog.exec]
  | abort => simp [Prog.wp, Prog.exec, nullReading]
  | ask q k ih =>
      cases q with
      | load a => exact ih _
      | store p cells => exact ih _
  | emit o p ih =>
      have hrest := @ih (seen ++ [o])
      rw [List.append_assoc] at hrest
      exact hrest

@[simp] theorem yieldsNull_pure (b : β) {post : β → List O → Prop} :
    YieldsNull message (pure b) seen post ↔ post b seen := Iff.rfl

@[simp] theorem yieldsNull_bind {p : Parser α O β} {f : β → Parser α O γ}
    {post : γ → List O → Prop} :
    YieldsNull message (p >>= f) seen post ↔
      YieldsNull message p seen fun b seen => YieldsNull message (f b) seen post := by
  rw [YieldsNull, Prog.wp_bind]
  rfl

@[simp] theorem yieldsNull_load (k : Nat) {post : α → List O → Prop} :
    YieldsNull message (load k) seen post ↔ post (message k) seen := Iff.rfl

@[simp] theorem yieldsNull_observe (o : O) {post : Unit → List O → Prop} :
    YieldsNull message (Prog.observe o) seen post ↔ post () (seen ++ [o]) := Iff.rfl

@[simp] theorem yieldsNull_block (k n : Nat) {post : List α → List O → Prop} :
    YieldsNull message (block k n) seen post ↔ post (message.read k n) seen := by
  induction n generalizing k post with
  | zero => rfl
  | succ n ih =>
      rw [block, yieldsNull_bind, yieldsNull_load, yieldsNull_bind, ih, Mem.read_succ]
      rfl

@[simp] theorem yieldsNull_store (p : Nat) (cells : List α) {post : Unit → List O → Prop} :
    ¬ YieldsNull message (store p cells) seen post := id

theorem yieldsNull_ite {c : Prop} [Decidable c] {p q : Parser α O β} {post : β → List O → Prop} :
    YieldsNull message (if c then p else q) seen post ↔
      if c then YieldsNull message p seen post else YieldsNull message q seen post := by
  split <;> rfl

end

section

variable {k n : Nat}

theorem asksAtMost_load : (load k : Parser α O α).AsksAtMost 1 := Prog.asksAtMost_call _

theorem asksAtMost_block : (block k n : Parser α O (List α)).AsksAtMost n := by
  induction n generalizing k with
  | zero => trivial
  | succ n ih =>
      rw [block, Nat.add_comm n 1]
      exact asksAtMost_load.bind fun _ => ih.bind_pure

theorem asksAtMost_store {cells : List α} :
    (store k cells : Parser α O Unit).AsksAtMost 1 :=
  (Prog.asksAtMost_call (Touch.store k cells)).bind fun _ => Prog.asksAtMost_assert (n := 0) _

theorem asksAtMost_ite {c : Prop} [Decidable c] {p q : Parser α O β} (hp : p.AsksAtMost n)
    (hq : q.AsksAtMost n) : (if c then p else q).AsksAtMost n := by
  split
  · exact hp
  · exact hq

end

end Parser

end PublicCloudCore.Framework
