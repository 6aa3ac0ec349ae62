import Mathlib

/-!
# Programs that ask their surroundings

A program is a tree: it is done with a value, it aborts, it asks a question and goes on with the
answer, or it emits an observation. A `Reading` says what a state makes of questions and
observations and what an abort is worth; `wp` carries it through a program. `exec` runs a program
in deterministic surroundings, and `wp_servedReading` says that `wp` is exact about that run; what
a program `Ensures` in arbitrary surroundings holds of every run.
-/

namespace PublicCloudCore.Framework

/-- Programs with questions `q : Q`, answers `A q` and observations `O`. -/
inductive Prog (Q : Type) (A : Q → Type) (O α : Type) : Type
  | done (a : α)
  | abort
  | ask (q : Q) (k : A q → Prog Q A O α)
  | emit (o : O) (p : Prog Q A O α)

namespace Prog

variable {Q : Type} {A : Q → Type} {O α β S : Type}

def bind : Prog Q A O α → (α → Prog Q A O β) → Prog Q A O β
  | done a, f => f a
  | abort, _ => abort
  | ask q k, f => ask q fun a => (k a).bind f
  | emit o p, f => emit o (p.bind f)

instance : Monad (Prog Q A O) where
  pure := done
  bind := bind

theorem bind_eq (p : Prog Q A O α) (f : α → Prog Q A O β) : p >>= f = p.bind f := rfl

@[simp] theorem pure_bind (a : α) (f : α → Prog Q A O β) : pure a >>= f = f a := rfl

@[simp] theorem bind_assoc {γ : Type} (p : Prog Q A O α) (f : α → Prog Q A O β)
    (g : β → Prog Q A O γ) : p >>= f >>= g = p >>= fun a => f a >>= g := by
  simp only [bind_eq]
  induction p with
  | done a => rfl
  | abort => rfl
  | ask q k ih =>
      simp only [bind]
      congr 1
      funext a
      exact ih a
  | emit o p ih =>
      simp only [bind]
      congr 1

/-- One question, answered as it is. -/
def call (q : Q) : Prog Q A O (A q) := ask q done

def observe (o : O) : Prog Q A O Unit := emit o (done ())

def assert (c : Prop) [Decidable c] : Prog Q A O Unit := if c then done () else abort

def require : Option α → Prog Q A O α
  | some a => done a
  | none => abort

@[simp] theorem require_some_bind (a : α) (f : α → Prog Q A O β) :
    require (some a) >>= f = f a := rfl

/-- What questions and observations do to a state, as predicate transformers. -/
structure Reading (Q : Type) (A : Q → Type) (O S : Type) where
  aborts : Prop
  ask : S → (q : Q) → (A q → S → Prop) → Prop
  emit : S → O → (S → Prop) → Prop

/-- The weakest condition on the state that makes the program's end satisfy `post`. -/
def wp (R : Reading Q A O S) : Prog Q A O α → S → (α → S → Prop) → Prop
  | done a, s, post => post a s
  | abort, _, _ => R.aborts
  | ask q k, s, post => R.ask s q fun a s' => (k a).wp R s' post
  | emit o p, s, post => R.emit s o fun s' => p.wp R s' post

section

variable {R : Reading Q A O S} {s : S}

@[simp] theorem wp_pure (a : α) (post : α → S → Prop) :
    wp R (pure a : Prog Q A O α) s post = post a s := rfl

@[simp] theorem wp_done (a : α) (post : α → S → Prop) :
    wp R (done a : Prog Q A O α) s post = post a s := rfl

@[simp] theorem wp_abort (post : α → S → Prop) : wp R abort s post = R.aborts := rfl

@[simp] theorem wp_call (q : Q) (post : A q → S → Prop) :
    wp R (call q : Prog Q A O (A q)) s post = R.ask s q post := rfl

@[simp] theorem wp_observe (o : O) (post : Unit → S → Prop) :
    wp R (observe o : Prog Q A O Unit) s post = R.emit s o fun s' => post () s' := rfl

@[simp] theorem wp_bind (p : Prog Q A O α) (f : α → Prog Q A O β) (post : β → S → Prop) :
    wp R (p >>= f) s post = wp R p s fun a s' => wp R (f a) s' post := by
  rw [bind_eq]
  induction p generalizing s with
  | done a => rfl
  | abort => rfl
  | ask q k ih =>
      simp only [bind, wp]
      congr 1
      funext a s'
      exact ih a
  | emit o p ih =>
      simp only [bind, wp]
      congr 1
      funext s'
      exact ih

theorem wp_assert (c : Prop) [Decidable c] (post : Unit → S → Prop) :
    wp R (assert c : Prog Q A O Unit) s post ↔ if c then post () s else R.aborts := by
  unfold assert
  split <;> rfl

theorem wp_require (x : Option α) (post : α → S → Prop) :
    wp R (require x : Prog Q A O α) s post ↔
      match x with
      | some a => post a s
      | none => R.aborts := by
  cases x <;> rfl

end

structure Reading.Monotone (R : Reading Q A O S) : Prop where
  ask : ∀ {s q} {P P' : A q → S → Prop}, (∀ a s', P a s' → P' a s') → R.ask s q P → R.ask s q P'
  emit : ∀ {s o} {P P' : S → Prop}, (∀ s', P s' → P' s') → R.emit s o P → R.emit s o P'

/-- The consequence rule. -/
theorem wp_mono {R : Reading Q A O S} (hR : R.Monotone) {p : Prog Q A O α} {s : S}
    {post post' : α → S → Prop} (hpost : ∀ a s', post a s' → post' a s') (h : p.wp R s post) :
    p.wp R s post' := by
  induction p generalizing s with
  | done a => exact hpost a s h
  | abort => exact h
  | ask q k ih => exact hR.ask (fun a s' ha => ih a ha) h
  | emit o p ih => exact hR.emit (fun s' hs => ih hs) h

def mapObservation {O' : Type} (f : O → O') : Prog Q A O α → Prog Q A O' α
  | done a => done a
  | abort => abort
  | ask q k => ask q fun a => (k a).mapObservation f
  | emit o p => emit (f o) (p.mapObservation f)

def Reading.comap {O' : Type} (f : O → O') (R : Reading Q A O' S) : Reading Q A O S where
  aborts := R.aborts
  ask := R.ask
  emit s o P := R.emit s (f o) P

theorem wp_mapObservation {O' : Type} (f : O → O') (R : Reading Q A O' S) (p : Prog Q A O α)
    (s : S) (post : α → S → Prop) :
    (p.mapObservation f).wp R s post ↔ p.wp (R.comap f) s post := by
  induction p generalizing s with
  | done a => rfl
  | abort => rfl
  | ask q k ih =>
      have hk : (fun a s' => ((k a).mapObservation f).wp R s' post) =
          fun a s' => (k a).wp (R.comap f) s' post := by
        funext a s'
        exact propext (ih a s')
      show R.ask s q _ ↔ R.ask s q _
      rw [hk]
  | emit o p ih =>
      have hp : (fun s' => (p.mapObservation f).wp R s' post) =
          fun s' => p.wp (R.comap f) s' post := by
        funext s'
        exact propext (ih s')
      show R.emit s (f o) _ ↔ R.emit s (f o) _
      rw [hp]

def anyReading (allowed : Q → Prop) (seen : O → Prop) : Reading Q A O Unit where
  aborts := True
  ask _ q P := allowed q ∧ ∀ a, P a ()
  emit _ o P := seen o ∧ P ()

theorem anyReading_monotone (allowed : Q → Prop) (seen : O → Prop) :
    (anyReading (A := A) allowed seen).Monotone where
  ask hP h := ⟨h.1, fun a => hP a () (h.2 a)⟩
  emit hP h := ⟨h.1, hP () h.2⟩

/-- Whatever the answers are, the questions are allowed, the observations are as they should be,
and a result satisfies `post`. -/
def Ensures (allowed : Q → Prop) (seen : O → Prop) (p : Prog Q A O α) (post : α → Prop) : Prop :=
  p.wp (anyReading allowed seen) () fun a _ => post a

section

variable {allowed : Q → Prop} {seen : O → Prop} {post post' : α → Prop}

theorem Ensures.mono {p : Prog Q A O α} (h : p.Ensures allowed seen post)
    (hpost : ∀ a, post a → post' a) : p.Ensures allowed seen post' :=
  wp_mono (anyReading_monotone allowed seen) (fun a _ => hpost a) h

theorem Ensures.imp {allowed' : Q → Prop} {seen' : O → Prop} {p : Prog Q A O α}
    (h : p.Ensures allowed seen post) (hallowed : ∀ q, allowed q → allowed' q)
    (hseen : ∀ o, seen o → seen' o) : p.Ensures allowed' seen' post := by
  rw [Ensures] at h ⊢
  induction p with
  | done a => exact h
  | abort => trivial
  | ask q k ih => exact ⟨hallowed q h.1, fun a => ih a (h.2 a)⟩
  | emit o p ih => exact ⟨hseen o h.1, ih h.2⟩

theorem Ensures.and {allowed' : Q → Prop} {seen' : O → Prop} {p : Prog Q A O α}
    (h : p.Ensures allowed seen post) (h' : p.Ensures allowed' seen' post') :
    p.Ensures (fun q => allowed q ∧ allowed' q) (fun o => seen o ∧ seen' o)
      fun a => post a ∧ post' a := by
  rw [Ensures] at h h' ⊢
  induction p with
  | done a => exact ⟨h, h'⟩
  | abort => trivial
  | ask q k ih => exact ⟨⟨h.1, h'.1⟩, fun a => ih a (h.2 a) (h'.2 a)⟩
  | emit o p ih => exact ⟨⟨h.1, h'.1⟩, ih h.2 h'.2⟩

theorem Ensures.weaken {p : Prog Q A O α} (h : p.Ensures allowed seen post) :
    p.Ensures (fun _ => True) (fun _ => True) post :=
  h.imp (fun _ _ => trivial) fun _ _ => trivial

@[simp] theorem ensures_pure (a : α) :
    (pure a : Prog Q A O α).Ensures allowed seen post ↔ post a := Iff.rfl

@[simp] theorem ensures_bind {p : Prog Q A O β} {f : β → Prog Q A O α} :
    (p >>= f).Ensures allowed seen post ↔
      p.Ensures allowed seen fun b => (f b).Ensures allowed seen post := by
  rw [Ensures, wp_bind]
  rfl

theorem Ensures.bind {p : Prog Q A O β} {f : β → Prog Q A O α} {mid : β → Prop}
    (hp : p.Ensures allowed seen mid) (hf : ∀ b, mid b → (f b).Ensures allowed seen post) :
    (p >>= f).Ensures allowed seen post :=
  ensures_bind.mpr (hp.mono hf)

@[simp] theorem ensures_map {p : Prog Q A O β} {f : β → α} :
    (f <$> p).Ensures allowed seen post ↔ p.Ensures allowed seen fun b => post (f b) := by
  show (p >>= fun b => pure (f b)).Ensures allowed seen post ↔ _
  rw [ensures_bind]
  rfl

@[simp] theorem ensures_assert (c : Prop) [Decidable c] {post : Unit → Prop} :
    (assert c : Prog Q A O Unit).Ensures allowed seen post ↔ (c → post ()) := by
  rw [Ensures, wp_assert]
  split <;> simp [anyReading, *]

@[simp] theorem ensures_require (x : Option α) :
    (require x : Prog Q A O α).Ensures allowed seen post ↔ ∀ a, x = some a → post a := by
  rw [Ensures, wp_require]
  cases x <;> simp [anyReading]

@[simp] theorem ensures_call (q : Q) {post : A q → Prop} :
    (call q : Prog Q A O (A q)).Ensures allowed seen post ↔ allowed q ∧ ∀ a, post a := Iff.rfl

@[simp] theorem ensures_observe (o : O) {post : Unit → Prop} :
    (observe o : Prog Q A O Unit).Ensures allowed seen post ↔ seen o ∧ post () := Iff.rfl

theorem ensures_mapObservation {O' : Type} {seen' : O' → Prop} (f : O → O') (p : Prog Q A O α) :
    (p.mapObservation f).Ensures allowed seen' post ↔
      p.Ensures allowed (fun o => seen' (f o)) post := by
  rw [Ensures, wp_mapObservation]
  rfl

/-- The rule for a loop: one turn keeps the invariant. -/
theorem Ensures.foldlM {f : β → α → Prog Q A O β} {I : β → List α → Prop} {xs : List α} {b : β}
    (hb : I b xs) (hstep : ∀ b x xs, I b (x :: xs) → (f b x).Ensures allowed seen fun b' => I b' xs) :
    (xs.foldlM f b).Ensures allowed seen fun b' => I b' [] := by
  induction xs generalizing b with
  | nil => exact hb
  | cons x xs ih =>
      rw [List.foldlM_cons]
      exact (hstep b x xs hb).bind fun b' hb' => ih hb'

theorem Ensures.forM {f : α → Prog Q A O PUnit} {xs : List α}
    (hf : ∀ x ∈ xs, (f x).Ensures allowed seen fun _ => True) :
    (xs.forM f).Ensures allowed seen fun _ => True := by
  induction xs with
  | nil => trivial
  | cons x xs ih =>
      show (f x >>= fun _ => xs.forM f).Ensures allowed seen fun _ => True
      exact (hf x List.mem_cons_self).bind fun _ _ => ih fun y hy => hf y (List.mem_cons_of_mem x hy)

end

/-- How a run ends: the value if it does not abort, the state of the surroundings, what was asked
and what was observed. -/
structure Outcome (Q O S α : Type) where
  result : Option α
  state : S
  asked : List Q
  emitted : List O

def exec (serve : S → (q : Q) → A q × S) : Prog Q A O α → S → Outcome Q O S α
  | done a, s => ⟨some a, s, [], []⟩
  | abort, s => ⟨none, s, [], []⟩
  | ask q k, s =>
      let rest := (k (serve s q).1).exec serve (serve s q).2
      { rest with asked := q :: rest.asked }
  | emit o p, s =>
      let rest := p.exec serve s
      { rest with emitted := o :: rest.emitted }

/-- The reading of deterministic surroundings, with a condition on the questions and a price for
an abort. -/
def servedReading (serve : S → (q : Q) → A q × S) (aborts : Prop) (allowed : Q → Prop) :
    Reading Q A O S where
  aborts
  ask s q P := allowed q ∧ P (serve s q).1 (serve s q).2
  emit s _ P := P s

/-- `wp` is exact about the run. -/
theorem wp_servedReading (serve : S → (q : Q) → A q × S) (aborts : Prop) (allowed : Q → Prop)
    (p : Prog Q A O α) (s : S) (post : α → S → Prop) :
    p.wp (servedReading serve aborts allowed) s post ↔
      (∀ q ∈ (p.exec serve s).asked, allowed q) ∧
        match (p.exec serve s).result with
        | some a => post a (p.exec serve s).state
        | none => aborts := by
  induction p generalizing s with
  | done a => simp [wp, exec]
  | abort => simp [wp, exec, servedReading]
  | ask q k ih =>
      simp only [wp, exec, List.mem_cons, forall_eq_or_imp, and_assoc]
      exact and_congr_right fun _ => ih _ _
  | emit o p ih => exact ih s

theorem exists_result_iff (serve : S → (q : Q) → A q × S) (p : Prog Q A O α) (s : S)
    (P : α → Prop) :
    (∃ a, (p.exec serve s).result = some a ∧ P a) ↔
      p.wp (servedReading serve False fun _ => True) s fun a _ => P a := by
  rw [wp_servedReading]
  cases (p.exec serve s).result <;> simp

theorem Ensures.exec {allowed : Q → Prop} {seen : O → Prop} {post : α → Prop} {p : Prog Q A O α}
    (h : p.Ensures allowed seen post) (serve : S → (q : Q) → A q × S) (s : S) :
    (∀ q ∈ (p.exec serve s).asked, allowed q) ∧ (∀ o ∈ (p.exec serve s).emitted, seen o) ∧
      ∀ a, (p.exec serve s).result = some a → post a := by
  induction p generalizing s with
  | done a =>
      simp only [Prog.exec, List.not_mem_nil, false_implies, implies_true, true_and, Option.some.injEq]
      intro b hb
      exact hb ▸ h
  | abort => simp [Prog.exec]
  | ask q k ih =>
      have hrest := ih (serve s q).1 (h.2 _) (serve s q).2
      refine ⟨?_, hrest.2⟩
      simp only [Prog.exec, List.mem_cons, forall_eq_or_imp]
      exact ⟨h.1, hrest.1⟩
  | emit o p ih =>
      have hrest := ih h.2 s
      refine ⟨hrest.1, ?_, hrest.2.2⟩
      simp only [Prog.exec, List.mem_cons, forall_eq_or_imp]
      exact ⟨h.1, hrest.2.1⟩

/-- The questions of a run, each with the state that it meets. -/
def trace (serve : S → (q : Q) → A q × S) : Prog Q A O α → S → List (S × Q)
  | done _, _ => []
  | abort, _ => []
  | ask q k, s => (s, q) :: (k (serve s q).1).trace serve (serve s q).2
  | emit _ p, s => p.trace serve s

theorem trace_asked (serve : S → (q : Q) → A q × S) (p : Prog Q A O α) (s : S) :
    (p.trace serve s).map Prod.snd = (p.exec serve s).asked := by
  induction p generalizing s with
  | done a => rfl
  | abort => rfl
  | ask q k ih => simp only [trace, exec, List.map_cons, ih]
  | emit o p ih => exact ih s

/-- An invariant that the questions of a run keep holds wherever one of them is asked, and in the
end. -/
theorem trace_invariant {serve : S → (q : Q) → A q × S} {allowed : Q → Prop} {I : S → Prop}
    (hstep : ∀ s q, allowed q → I s → I (serve s q).2) {p : Prog Q A O α} {s : S}
    (hasked : ∀ q ∈ (p.exec serve s).asked, allowed q) (hs : I s) :
    (∀ x ∈ p.trace serve s, I x.1) ∧ I (p.exec serve s).state := by
  induction p generalizing s with
  | done a => exact ⟨fun _ h => absurd h List.not_mem_nil, hs⟩
  | abort => exact ⟨fun _ h => absurd h List.not_mem_nil, hs⟩
  | ask q k ih =>
      simp only [exec, List.mem_cons, forall_eq_or_imp] at hasked
      have hrest := ih _ hasked.2 (hstep s q hasked.1 hs)
      simp only [trace, List.mem_cons, forall_eq_or_imp]
      exact ⟨⟨hs, hrest.1⟩, hrest.2⟩
  | emit o p ih => exact ih hasked hs

/-- The program comes to a question of this kind, where the others are answered like this. -/
def Reaches (kind : Q → Prop) (answer : (q : Q) → A q) : Prog Q A O α → Prop
  | done _ => False
  | abort => False
  | ask q k => kind q ∨ (k (answer q)).Reaches kind answer
  | emit _ p => p.Reaches kind answer

/-- The reading of deterministic surroundings that keeps what is observed. -/
def recordedReading (serve : S → (q : Q) → A q × S) (aborts : Prop) : Reading Q A O (S × List O) where
  aborts
  ask s q P := P (serve s.1 q).1 ((serve s.1 q).2, s.2)
  emit s o P := P (s.1, s.2 ++ [o])

theorem wp_recordedReading (serve : S → (q : Q) → A q × S) (aborts : Prop) (p : Prog Q A O α)
    (s : S) (os : List O) (post : α → S × List O → Prop) :
    p.wp (recordedReading serve aborts) (s, os) post ↔
      match (p.exec serve s).result with
      | some a => post a ((p.exec serve s).state, os ++ (p.exec serve s).emitted)
      | none => aborts := by
  induction p generalizing s os with
  | done a => simp [wp, exec]
  | abort => simp [wp, exec, recordedReading]
  | ask q k ih => exact ih _ _ os
  | emit o p ih =>
      have h := ih s (os ++ [o])
      rw [List.append_assoc] at h
      exact h

def Silent (p : Prog Q A O α) : Prop := p.Ensures (fun _ => True) (fun _ => False) fun _ => True

theorem Silent.wp_mapObservation {O' : Type} {p : Prog Q A O α} (h : p.Silent) (f : O → O')
    (serve : S → (q : Q) → A q × S) (aborts : Prop) (s : S) (os : List O')
    (post : α → S × List O' → Prop) :
    (p.mapObservation f).wp (recordedReading serve aborts) (s, os) post ↔
      p.wp (servedReading serve aborts fun _ => True) s fun a s' => post a (s', os) := by
  induction p generalizing s with
  | done a => rfl
  | abort => rfl
  | ask q k ih =>
      show _ ↔ True ∧ _
      rw [true_and]
      exact ih _ (h.2 _) _
  | emit o p => exact h.1.elim

section

variable {O' : Type} {f : O → O'}

@[simp] theorem mapObservation_bind (p : Prog Q A O α) (k : α → Prog Q A O β) :
    (p >>= k).mapObservation f = p.mapObservation f >>= fun a => (k a).mapObservation f := by
  simp only [bind_eq]
  induction p with
  | done a => rfl
  | abort => rfl
  | ask q k' ih =>
      simp only [bind, mapObservation]
      congr 1
      funext a
      exact ih a
  | emit o p ih =>
      simp only [bind, mapObservation]
      congr 1

@[simp] theorem mapObservation_pure (a : α) :
    (pure a : Prog Q A O α).mapObservation f = pure a := rfl

@[simp] theorem mapObservation_observe (o : O) :
    (observe o : Prog Q A O Unit).mapObservation f = observe (f o) := rfl

@[simp] theorem mapObservation_require (x : Option α) :
    (require x : Prog Q A O α).mapObservation f = require x := by
  cases x <;> rfl

theorem mapObservation_comp {O'' : Type} (g : O' → O'') (p : Prog Q A O α) :
    (p.mapObservation f).mapObservation g = p.mapObservation fun o => g (f o) := by
  induction p with
  | done a => rfl
  | abort => rfl
  | ask q k ih =>
      simp only [mapObservation]
      congr 1
      funext a
      exact ih a
  | emit o p ih =>
      simp only [mapObservation]
      congr 1

end

/-- At most `n` questions, whatever the answers are. -/
def AsksAtMost : Prog Q A O α → Nat → Prop
  | done _, _ => True
  | abort, _ => True
  | ask _ k, n => ∃ m, n = m + 1 ∧ ∀ a, (k a).AsksAtMost m
  | emit _ p, n => p.AsksAtMost n

section

variable {n l : Nat}

@[simp] theorem asksAtMost_pure (a : α) : (pure a : Prog Q A O α).AsksAtMost n := trivial

@[simp] theorem asksAtMost_abort : (abort : Prog Q A O α).AsksAtMost n := trivial

theorem asksAtMost_observe (o : O) : (observe o : Prog Q A O Unit).AsksAtMost n := trivial

theorem asksAtMost_call (q : Q) : (call q : Prog Q A O (A q)).AsksAtMost 1 :=
  ⟨0, rfl, fun _ => trivial⟩

theorem asksAtMost_assert (c : Prop) [Decidable c] :
    (assert c : Prog Q A O Unit).AsksAtMost n := by
  unfold assert
  split <;> trivial

theorem AsksAtMost.mono {p : Prog Q A O α} (h : p.AsksAtMost n) (hn : n ≤ l) :
    p.AsksAtMost l := by
  induction p generalizing n l with
  | done a => trivial
  | abort => trivial
  | ask q k ih =>
      obtain ⟨m, rfl, hk⟩ := h
      exact ⟨l - 1, by omega, fun a => ih a (hk a) (by omega)⟩
  | emit o p ih => exact ih (n := n) h hn

theorem AsksAtMost.bind {p : Prog Q A O α} {f : α → Prog Q A O β} (hp : p.AsksAtMost n)
    (hf : ∀ a, (f a).AsksAtMost l) : (p >>= f).AsksAtMost (n + l) := by
  rw [bind_eq]
  induction p generalizing n with
  | done a => exact (hf a).mono (by omega)
  | abort => trivial
  | ask q k ih =>
      obtain ⟨m, rfl, hk⟩ := hp
      exact ⟨m + l, by omega, fun a => ih a (hk a)⟩
  | emit o p ih => exact ih (n := n) hp

theorem AsksAtMost.bind_pure {p : Prog Q A O α} {f : α → β} (hp : p.AsksAtMost n) :
    (p >>= fun a => pure (f a)).AsksAtMost n :=
  hp.bind fun _ => asksAtMost_pure (n := 0) _

theorem AsksAtMost.exec {p : Prog Q A O α} (h : p.AsksAtMost n)
    (serve : S → (q : Q) → A q × S) (s : S) : (p.exec serve s).asked.length ≤ n := by
  induction p generalizing n s with
  | done a => exact Nat.zero_le _
  | abort => exact Nat.zero_le _
  | ask q k ih =>
      obtain ⟨m, rfl, hk⟩ := h
      exact Nat.succ_le_succ (ih _ (hk _) _)
  | emit o p ih => exact ih h s

end

end Prog

end PublicCloudCore.Framework
