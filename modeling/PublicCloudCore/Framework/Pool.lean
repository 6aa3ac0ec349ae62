import PublicCloudCore.Framework.Program
import PublicCloudCore.Framework.Transition

/-!
# Programs that run at once

The programs of a pool take turns over one state: a turn is one question, answered at once, or one
observation. Some questions draw a ticket and some observations take one. A thrifty program takes
what it has drawn last and has not taken yet, whatever the others do to the state meanwhile; in a
pool of thrifty programs no ticket is taken more often than it has been drawn.
-/

namespace PublicCloudCore.Framework

variable {Q : Type} {A : Q → Type} {O α S E T : Type}

structure Pool (Q : Type) (A : Q → Type) (O α S : Type) where
  state : S
  running : List (Prog Q A O α)
  -- each question with the state that it met
  asked : List (S × Q)
  emitted : List O

namespace Pool

def start (s : S) (running : List (Prog Q A O α)) : Pool Q A O α S := ⟨s, running, [], []⟩

def add (x : Pool Q A O α S) (p : Prog Q A O α) : Pool Q A O α S :=
  { x with running := x.running ++ [p] }

def question? (x : Pool Q A O α S) (i : Nat) : Option Q :=
  match x.running[i]? with
  | some (.ask q _) => some q
  | _ => none

/-- One turn of a program; `e` is what its question meets beside the state. -/
def turn (serve : E → S → (q : Q) → A q × S) (x : Pool Q A O α S) (i : Nat) (e : E) :
    Option (Pool Q A O α S) :=
  match x.running[i]? with
  | some (.ask q k) =>
      let answer := serve e x.state q
      some {
        state := answer.2
        running := x.running.set i (k answer.1)
        asked := x.asked ++ [(x.state, q)]
        emitted := x.emitted }
  | some (.emit o p) =>
      some { x with running := x.running.set i p, emitted := x.emitted ++ [o] }
  | _ => none

variable {serve : E → S → (q : Q) → A q × S} {x y : Pool Q A O α S} {i : Nat} {e : E}

/-- The inversion lemma of a turn. -/
theorem turn_cases (h : x.turn serve i e = some y) :
    (∃ q k, x.running[i]? = some (.ask q k) ∧ y = {
        state := (serve e x.state q).2
        running := x.running.set i (k (serve e x.state q).1)
        asked := x.asked ++ [(x.state, q)]
        emitted := x.emitted }) ∨
      ∃ o p, x.running[i]? = some (.emit o p) ∧
        y = { x with running := x.running.set i p, emitted := x.emitted ++ [o] } := by
  unfold turn at h
  split at h
  · next q k hp => exact .inl ⟨q, k, hp, (Option.some.inj h).symm⟩
  · next o p hp => exact .inr ⟨o, p, hp, (Option.some.inj h).symm⟩
  · cases h

theorem question?_ask {q : Q} {k : A q → Prog Q A O α} (h : x.running[i]? = some (.ask q k)) :
    x.question? i = some q := by
  simp only [question?, h]

/-- Whatever the answers are, each program asks and emits what it may. -/
def Obeys (allowed : Q → Prop) (seen : O → Prop) (x : Pool Q A O α S) : Prop :=
  ∀ p ∈ x.running, p.Ensures allowed seen fun _ => True

section

variable {allowed : Q → Prop} {seen : O → Prop}

theorem Obeys.add (h : x.Obeys allowed seen) {p : Prog Q A O α}
    (hp : p.Ensures allowed seen fun _ => True) : (x.add p).Obeys allowed seen := by
  intro p' hp'
  rcases List.mem_append.mp hp' with hold | hnew
  · exact h p' hold
  · rw [List.mem_singleton.mp hnew]
    exact hp

theorem Obeys.turn (h : x.Obeys allowed seen) (hturn : x.turn serve i e = some y) :
    y.Obeys allowed seen := by
  rcases turn_cases hturn with ⟨q, k, hi, rfl⟩ | ⟨o, p, hi, rfl⟩
  · have hask := h _ (List.mem_of_getElem? hi)
    intro p' hp'
    rcases List.mem_or_eq_of_mem_set hp' with hold | rfl
    · exact h p' hold
    · exact hask.2 _
  · have hemit := h _ (List.mem_of_getElem? hi)
    intro p' hp'
    rcases List.mem_or_eq_of_mem_set hp' with hold | rfl
    · exact h p' hold
    · exact hemit.2

theorem Obeys.asks (h : x.Obeys allowed seen) {q : Q} {k : A q → Prog Q A O α}
    (hi : x.running[i]? = some (.ask q k)) : allowed q :=
  (h _ (List.mem_of_getElem? hi)).1

end

end Pool

/-- The reading of one program among others: between two turns the state may become any other.
The program holds the ticket that it drew last, until it takes it. -/
def ticketReading (serve : E → S → (q : Q) → A q × S) (draws : S → Q → Option T)
    (takes : O → Option T) : Prog.Reading Q A O (Option T) where
  aborts := True
  ask held q P := ∀ e s, P (serve e s q).1 ((draws s q).or held)
  emit held o P :=
    match takes o with
    | none => P held
    | some t => held = some t ∧ P none

section

variable {serve : E → S → (q : Q) → A q × S} {draws : S → Q → Option T} {takes : O → Option T}

theorem ticketReading_monotone : (ticketReading serve draws takes).Monotone where
  ask hP h e s := hP _ _ (h e s)
  emit {held o P P'} hP h := by
    unfold ticketReading at h ⊢
    revert h
    dsimp only
    cases takes o with
    | none => exact hP held
    | some t => exact fun h => ⟨h.1, hP none h.2⟩

theorem Prog.Ensures.wp_ticketReading {p : Prog Q A O α} {post : α → Prop}
    (h : p.Ensures (fun q => ∀ s, draws s q = none) (fun o => takes o = none) post)
    (held : Option T) :
    p.wp (ticketReading serve draws takes) held fun a held' => held' = held ∧ post a := by
  induction p with
  | done a => exact ⟨rfl, h⟩
  | abort => trivial
  | ask q k ih =>
      intro e s
      rw [h.1 s, Option.none_or]
      exact ih _ (h.2 _)
  | emit o p ih =>
      have hnone : takes o = none := h.1
      simp only [Prog.wp, ticketReading, hnone]
      exact ih h.2

theorem Prog.Ensures.wp_ticketReading_and {allowed : Q → Prop} {seen : O → Prop}
    {p : Prog Q A O α} {post : α → Prop} {post' : α → Option T → Prop} {held : Option T}
    (h : p.Ensures allowed seen post) (h' : p.wp (ticketReading serve draws takes) held post') :
    p.wp (ticketReading serve draws takes) held fun a held => post a ∧ post' a held := by
  induction p generalizing held with
  | done a => exact ⟨h, h'⟩
  | abort => trivial
  | ask q k ih =>
      intro e s
      exact ih _ (h.2 _) (h' e s)
  | emit o p ih =>
      revert h'
      simp only [Prog.wp, ticketReading]
      cases takes o with
      | none => exact ih h.2
      | some t => exact fun h' => ⟨h'.1, ih h.2 h'.2⟩

end

namespace Pool

section

variable (serve : E → S → (q : Q) → A q × S) (draws : S → Q → Option T) (takes : O → Option T)

/-- A program that has this ticket and takes none that it does not hold. -/
def Thrifty (p : Prog Q A O α) (held : Option T) : Prop :=
  p.wp (ticketReading serve draws takes) held fun _ _ => True

def drawn (x : Pool Q A O α S) : List T := x.asked.filterMap fun asked => draws asked.1 asked.2

def taken (x : Pool Q A O α S) : List T := x.emitted.filterMap takes

/-- The tickets taken and those that are held are among the drawn ones. -/
def Covered [DecidableEq T] (x : Pool Q A O α S) : Prop :=
  ∃ held : List (Option T), List.Forall₂ (Thrifty serve draws takes) x.running held ∧
    ∀ t, (x.taken takes).count t + held.count (some t) ≤ (x.drawn draws).count t

end

theorem drawn_of_asked {draws : S → Q → Option T} {x y : Pool Q A O α S} {q : Q}
    (h : y.asked = x.asked ++ [(x.state, q)]) :
    y.drawn draws = x.drawn draws ++ (draws x.state q).toList := by
  rw [drawn, h, List.filterMap_append, List.filterMap_cons, drawn]
  cases draws x.state q <;> rfl

private theorem forall₂_getElem? {β γ : Type} {R : β → γ → Prop} {bs : List β} {cs : List γ}
    (h : List.Forall₂ R bs cs) {i : Nat} {b : β} (hb : bs[i]? = some b) :
    ∃ c, cs[i]? = some c ∧ R b c := by
  induction h generalizing i with
  | nil => cases hb
  | cons hR _ ih =>
      cases i with
      | zero =>
          cases hb
          exact ⟨_, rfl, hR⟩
      | succ i => exact ih hb

private theorem forall₂_set {β γ : Type} {R : β → γ → Prop} {bs : List β} {cs : List γ}
    (h : List.Forall₂ R bs cs) (i : Nat) {b : β} {c : γ} (hbc : R b c) :
    List.Forall₂ R (bs.set i b) (cs.set i c) := by
  induction h generalizing i with
  | nil => exact .nil
  | cons hR hrest ih =>
      cases i with
      | zero => exact .cons hbc hrest
      | succ i => exact .cons hR (ih i)

section

variable [DecidableEq T] {draws : S → Q → Option T} {takes : O → Option T}
  {serve : E → S → (q : Q) → A q × S} {x y : Pool Q A O α S}

theorem Covered.start (s : S) {running : List (Prog Q A O α)}
    (h : ∀ p ∈ running, Thrifty serve draws takes p none) :
    (Pool.start s running).Covered serve draws takes := by
  refine ⟨running.map fun _ => none, ?_, fun t => ?_⟩
  · rw [List.forall₂_map_right_iff]
    exact List.forall₂_same.mpr h
  · have hnone : (running.map fun _ => (none : Option T)).count (some t) = 0 := by
      rw [List.count_eq_zero]
      simp
    rw [hnone]
    exact Nat.zero_le _

theorem Covered.add (h : x.Covered serve draws takes) {p : Prog Q A O α}
    (hp : Thrifty serve draws takes p none) : (x.add p).Covered serve draws takes := by
  obtain ⟨held, hrunning, hcount⟩ := h
  refine ⟨held ++ [none], List.rel_append hrunning (.cons hp .nil), fun t => ?_⟩
  simpa [taken, drawn, Pool.add, List.count_append] using hcount t

theorem Covered.turn (h : x.Covered serve draws takes) {i : Nat} {e : E}
    (hturn : x.turn serve i e = some y) : y.Covered serve draws takes := by
  obtain ⟨held, hrunning, hcount⟩ := h
  rcases turn_cases hturn with ⟨q, k, hi, rfl⟩ | ⟨o, p, hi, rfl⟩
  · -- what a question draws replaces what the program held
    obtain ⟨old, hold, hthrifty⟩ := forall₂_getElem? hrunning hi
    obtain ⟨hlt, hget⟩ := List.getElem?_eq_some_iff.mp hold
    refine ⟨held.set i ((draws x.state q).or old), forall₂_set hrunning i (hthrifty e x.state),
      fun t => ?_⟩
    have hbefore := hcount t
    simp only [drawn, taken, List.filterMap_append, List.count_append, List.count_set hlt, hget]
      at hbefore ⊢
    cases hdraws : draws x.state q with
    | none =>
        have hpos : old = some t → 0 < held.count (some t) := by
          rintro rfl
          exact List.count_pos_iff.mpr (List.mem_of_getElem? hold)
        by_cases hsame : old = some t
        · simp [hdraws, hsame]
          have := hpos hsame
          omega
        · simp [hdraws, hsame]
          omega
    | some t' =>
        by_cases hsame : t' = t
        · simp [hdraws, hsame]
          omega
        · simp [hdraws, hsame]
          omega
  · obtain ⟨old, hold, hthrifty⟩ := forall₂_getElem? hrunning hi
    obtain ⟨hlt, hget⟩ := List.getElem?_eq_some_iff.mp hold
    simp only [Thrifty, Prog.wp, ticketReading] at hthrifty
    cases htakes : takes o with
    | none =>
        rw [htakes] at hthrifty
        refine ⟨held, ?_, fun t => ?_⟩
        · have hset := forall₂_set hrunning i hthrifty
          rwa [← hget, List.set_getElem_self] at hset
        · simpa [taken, drawn, List.filterMap_append, htakes] using hcount t
    | some t' =>
        rw [htakes] at hthrifty
        obtain ⟨rfl, hrest⟩ := hthrifty
        refine ⟨held.set i none, forall₂_set hrunning i hrest, fun t => ?_⟩
        have hbefore := hcount t
        have hpos : 0 < held.count (some t') :=
          List.count_pos_iff.mpr (List.mem_of_getElem? hold)
        simp only [drawn, taken, List.filterMap_append, List.count_append, List.count_set hlt,
          hget] at hbefore ⊢
        by_cases hsame : t' = t
        · subst hsame
          simp [htakes]
          omega
        · simp [htakes, hsame]
          omega

end

end Pool

end PublicCloudCore.Framework
