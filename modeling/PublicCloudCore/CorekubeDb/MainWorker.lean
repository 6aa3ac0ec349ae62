import PublicCloudCore.Framework.Transition

/-!
# `main_worker`

The accept loop and the threads that it creates. Every thread is handed the address of the loop's
variable `client` and reads the descriptor through it when it starts to run. Connections are
numbered as they are accepted, and the number stands for the descriptor; `none` is the `-1` of a
failed `accept`. What a thread does with its connection afterwards is `attend_request`.
-/

namespace PublicCloudCore.CorekubeDb

open Framework

inductive AcceptLoop
  | accepting
  | creating
  deriving DecidableEq, Repr

/-- A thread before and after `client = *client_ref`. -/
inductive AttendThread
  | created
  | serving (client : Option Nat)
  deriving DecidableEq, Repr

structure MainWorker where
  loop : AcceptLoop
  client : Option Nat
  accepted : Nat
  closed : List Nat
  threads : List AttendThread
  deriving Repr

inductive MainEvent
  | accept
  | acceptFails
  | create
  | createFails
  | read (i : Nat)
  deriving Repr

namespace MainWorker

def start : MainWorker where
  loop := .accepting
  client := none
  accepted := 0
  closed := []
  threads := []

def step (s : MainWorker) : MainEvent → Option MainWorker
  | .accept =>
      if s.loop = .accepting then
        some { s with loop := .creating, client := some s.accepted, accepted := s.accepted + 1 }
      else none
  | .acceptFails => if s.loop = .accepting then some { s with client := none } else none
  | .create =>
      if s.loop = .creating then
        some { s with loop := .accepting, threads := s.threads ++ [.created] }
      else none
  -- `close(client)`
  | .createFails =>
      if s.loop = .creating then
        some { s with loop := .accepting, closed := s.closed ++ s.client.toList }
      else none
  | .read i =>
      if s.threads[i]? = some .created then
        some { s with threads := s.threads.set i (.serving s.client) }
      else none

def servers (s : MainWorker) (c : Nat) : Nat := s.threads.count (.serving (some c))

/-- The loop waits for a client, and every thread has read its argument. -/
def Quiescent (s : MainWorker) : Prop := s.loop = .accepting ∧ .created ∉ s.threads

/-- No two threads serve one connection, and once the threads have started every connection that
the loop has not closed again is served by one. -/
def Owned (s : MainWorker) : Prop :=
  (∀ c, s.servers c ≤ 1) ∧
    (s.Quiescent → ∀ c < s.accepted, c ∉ s.closed → s.servers c = 1)

/-- `accept` stores to `client` only after every thread has read it. -/
def InOrder (s : MainWorker) : MainEvent → Prop
  | .accept | .acceptFails => .created ∉ s.threads
  | .create | .createFails | .read _ => True

def AttendThread.descriptor (client : Option Nat) : AttendThread → Option Nat
  | .created => client
  | .serving c => c

def descriptors (s : MainWorker) : List (Option Nat) :=
  s.threads.map (AttendThread.descriptor s.client)

/-- The connection that the loop has accepted and not yet handed over. -/
def pending (s : MainWorker) : List Nat :=
  match s.loop with
  | .accepting => []
  | .creating => s.client.toList

theorem descriptors_eq {s : MainWorker} (h : .created ∉ s.threads) (client : Option Nat) :
    s.threads.map (AttendThread.descriptor client) = s.descriptors := by
  apply List.map_congr_left
  intro t ht
  cases t with
  | created => exact absurd ht h
  | serving c => rfl

theorem count_descriptors (s : MainWorker) (c : Nat) :
    s.descriptors.count (some c) =
      s.servers c + if s.client = some c then s.threads.count .created else 0 := by
  unfold descriptors servers
  induction s.threads with
  | nil => simp
  | cons t ts ih =>
      rw [List.map_cons, List.count_cons, List.count_cons, List.count_cons, ih]
      cases t with
      | created =>
          simp only [AttendThread.descriptor, beq_iff_eq, reduceCtorEq, if_false, if_true]
          split <;> omega
      | serving d =>
          simp only [AttendThread.descriptor, beq_iff_eq, AttendThread.serving.injEq, reduceCtorEq,
            if_false, Nat.add_zero]
          omega

/-- Every connection that was accepted is at one place. -/
structure Placed (s : MainWorker) : Prop where
  once : ∀ c, s.descriptors.count (some c) + s.closed.count c + s.pending.count c =
    if c < s.accepted then 1 else 0
  client_of_creating : s.loop = .creating → s.client ≠ none
  client_of_created : .created ∈ s.threads → s.client ≠ none

theorem placed_start : Placed start where
  once c := by simp [start, descriptors, pending]
  client_of_creating h := by cases h
  client_of_created h := by cases h

theorem Placed.step {s s' : MainWorker} {e : MainEvent} (h : Placed s) (hok : InOrder s e)
    (hstep : s.step e = some s') : Placed s' := by
  cases e with
  | accept =>
      simp only [MainWorker.step, Option.ite_none_right_eq_some, Option.some.injEq] at hstep
      obtain ⟨hloop, rfl⟩ := hstep
      refine ⟨fun c => ?_, fun _ => by simp, fun _ => by simp⟩
      have hold := h.once c
      simp only [pending, hloop, List.count_nil] at hold
      rw [descriptors, descriptors_eq hok (some s.accepted)]
      simp only [pending, Option.toList_some, List.count_singleton, beq_iff_eq]
      split at hold <;> split <;> split <;> omega
  | acceptFails =>
      simp only [MainWorker.step, Option.ite_none_right_eq_some, Option.some.injEq] at hstep
      obtain ⟨hloop, rfl⟩ := hstep
      have hnot : ¬ s.loop = .creating := by rw [hloop]; decide
      refine ⟨fun c => ?_, fun hc => absurd hc hnot, fun hc => absurd hc hok⟩
      have hold := h.once c
      simp only [pending, hloop] at hold ⊢
      rw [descriptors, descriptors_eq hok none]
      exact hold
  | create =>
      simp only [MainWorker.step, Option.ite_none_right_eq_some, Option.some.injEq] at hstep
      obtain ⟨hloop, rfl⟩ := hstep
      have hclient := h.client_of_creating hloop
      refine ⟨fun c => ?_, fun _ => hclient, fun _ => hclient⟩
      have hold := h.once c
      rcases hc : s.client with _ | d
      · exact absurd hc hclient
      simp only [pending, hloop, hc, Option.toList_some, List.count_singleton] at hold
      simp only [descriptors, List.map_append, List.count_append, pending, List.count_nil, hc,
        List.map_cons, List.map_nil, AttendThread.descriptor, List.count_singleton] at hold ⊢
      simp only [beq_iff_eq, Option.some.injEq] at hold ⊢
      omega
  | createFails =>
      simp only [MainWorker.step, Option.ite_none_right_eq_some, Option.some.injEq] at hstep
      obtain ⟨hloop, rfl⟩ := hstep
      have hclient := h.client_of_creating hloop
      refine ⟨fun c => ?_, fun _ => hclient, fun _ => hclient⟩
      have hold := h.once c
      simp only [pending, hloop, descriptors, List.count_append, List.count_nil] at hold ⊢
      omega
  | read i =>
      simp only [MainWorker.step, Option.ite_none_right_eq_some, Option.some.injEq] at hstep
      obtain ⟨hi, rfl⟩ := hstep
      have hmem := List.mem_of_getElem? hi
      have hsame : (s.threads.set i (.serving s.client)).map (AttendThread.descriptor s.client) =
          s.descriptors := by
        obtain ⟨hlt, hget⟩ := List.getElem?_eq_some_iff.mp hi
        rw [List.map_set]
        apply List.ext_getElem
        · simp [descriptors]
        intro j hj hj'
        rw [List.getElem_set]
        split
        · next hij =>
          subst hij
          simp [descriptors, hget, AttendThread.descriptor]
        · rfl
      refine ⟨fun c => ?_, h.client_of_creating, fun _ => h.client_of_created hmem⟩
      have hold := h.once c
      rw [descriptors, hsame]
      exact hold

theorem Placed.owned {s : MainWorker} (h : Placed s) : s.Owned := by
  constructor
  · intro c
    have honce := h.once c
    have hcount := s.count_descriptors c
    split at honce <;> omega
  · intro hq c hc hclosed
    have honce := h.once c
    have hcount := s.count_descriptors c
    have hpending : s.pending = [] := by simp [pending, hq.1]
    have hnone : s.threads.count .created = 0 := List.count_eq_zero.mpr hq.2
    have hopen : s.closed.count c = 0 := List.count_eq_zero.mpr hclosed
    rw [if_pos hc, hpending, hopen, List.count_nil] at honce
    rw [hnone, ite_self] at hcount
    omega

/-- An accepted connection whose descriptor is in no variable any more. -/
structure Lost (s : MainWorker) (c : Nat) : Prop where
  accepted : c < s.accepted
  client : s.client ≠ some c
  closed : c ∉ s.closed
  servers : s.servers c = 0

theorem Lost.step {s s' : MainWorker} {e : MainEvent} {c : Nat} (h : Lost s c)
    (hstep : s.step e = some s') : Lost s' c := by
  have haccepted := h.accepted
  cases e with
  | accept =>
      simp only [MainWorker.step, Option.ite_none_right_eq_some, Option.some.injEq] at hstep
      obtain ⟨_, rfl⟩ := hstep
      exact ⟨Nat.lt_succ_of_lt haccepted, by simp; omega, h.closed, h.servers⟩
  | acceptFails =>
      simp only [MainWorker.step, Option.ite_none_right_eq_some, Option.some.injEq] at hstep
      obtain ⟨_, rfl⟩ := hstep
      exact ⟨haccepted, by simp, h.closed, h.servers⟩
  | create =>
      simp only [MainWorker.step, Option.ite_none_right_eq_some, Option.some.injEq] at hstep
      obtain ⟨_, rfl⟩ := hstep
      refine ⟨haccepted, h.client, h.closed, ?_⟩
      have := h.servers
      simpa [MainWorker.servers] using this
  | createFails =>
      simp only [MainWorker.step, Option.ite_none_right_eq_some, Option.some.injEq] at hstep
      obtain ⟨_, rfl⟩ := hstep
      refine ⟨haccepted, h.client, ?_, h.servers⟩
      have hclient := h.client
      simp only [List.mem_append, Option.mem_toList, not_or]
      exact ⟨h.closed, hclient⟩
  | read i =>
      simp only [MainWorker.step, Option.ite_none_right_eq_some, Option.some.injEq] at hstep
      obtain ⟨_, rfl⟩ := hstep
      refine ⟨haccepted, h.client, h.closed, ?_⟩
      have hnone := List.count_eq_zero.mp h.servers
      apply List.count_eq_zero.mpr
      intro hmem
      rcases List.mem_or_eq_of_mem_set hmem with hmem | heq
      · exact hnone hmem
      · exact h.client (AttendThread.serving.inj heq).symm

theorem Lost.not_owned {s : MainWorker} {c : Nat} (h : Lost s c) (hq : s.Quiescent) :
    ¬ s.Owned := by
  intro hs
  have hone := hs.2 hq c h.accepted h.closed
  rw [h.servers] at hone
  cases hone

/-- An `accept` that overtakes a thread takes its connection away. -/
theorem Placed.lost {s s' : MainWorker} {e : MainEvent} (h : Placed s) (hout : ¬ InOrder s e)
    (hstep : s.step e = some s') : ∃ c, Lost s' c := by
  have hcreated : .created ∈ s.threads := by
    by_contra hno
    cases e <;> first | exact hout hno | exact hout trivial
  obtain ⟨c, hc⟩ := Option.ne_none_iff_exists'.mp (h.client_of_created hcreated)
  have honce := h.once c
  have hcount := s.count_descriptors c
  have hpos := List.count_pos_iff.mpr hcreated
  rw [if_pos hc] at hcount
  have hlt : c < s.accepted := by
    by_contra hge
    rw [if_neg hge] at honce
    omega
  rw [if_pos hlt] at honce
  have hopen : c ∉ s.closed := List.count_eq_zero.mp (by omega)
  have hnone : s.servers c = 0 := by omega
  cases e with
  | accept =>
      simp only [MainWorker.step, Option.ite_none_right_eq_some, Option.some.injEq] at hstep
      obtain ⟨_, rfl⟩ := hstep
      exact ⟨c, Nat.lt_succ_of_lt hlt, by simp; omega, hopen, hnone⟩
  | acceptFails =>
      simp only [MainWorker.step, Option.ite_none_right_eq_some, Option.some.injEq] at hstep
      obtain ⟨_, rfl⟩ := hstep
      exact ⟨c, hlt, by simp, hopen, hnone⟩
  | create => exact absurd trivial hout
  | createFails => exact absurd trivial hout
  | read i => exact absurd trivial hout

theorem placed_of_run {s : MainWorker} (h : Run step InOrder start s) : Placed s :=
  h.invariant (I := fun s => Placed s) (fun _ _ _ hs hok he => hs.step hok he) placed_start

/-- A run is in order, or it has lost a connection for good. -/
theorem inOrder_or_lost {s : MainWorker} (h : Run step Unguarded start s) :
    Run step InOrder start s ∨ ∃ c, Lost s c := by
  induction h with
  | refl => exact Or.inl (.refl _)
  | @tail t u e _ _ he ih =>
      rcases ih with hrun | ⟨c, hlost⟩
      · by_cases hok : InOrder t e
        · exact Or.inl (hrun.tail hok he)
        · exact Or.inr ((placed_of_run hrun).lost hok he)
      · exact Or.inr ⟨c, hlost.step he⟩

/-- Connections have one thread each in the runs that are in order, and in no others. -/
theorem owned_iff_inOrder {s : MainWorker} (h : Run step Unguarded start s) :
    (Run step InOrder start s → s.Owned) ∧
      (s.Quiescent → (s.Owned ↔ Run step InOrder start s)) := by
  have hgood : Run step InOrder start s → s.Owned := fun hrun => (placed_of_run hrun).owned
  refine ⟨hgood, fun hq => ⟨fun howned => ?_, hgood⟩⟩
  rcases inOrder_or_lost h with hrun | ⟨c, hlost⟩
  · exact hrun
  · exact absurd howned (hlost.not_owned hq)

/-- Two clients, each accepted after the thread of the one before it has started. -/
def twoClients : MainWorker where
  loop := .accepting
  client := some 1
  accepted := 2
  closed := []
  threads := [.serving (some 0), .serving (some 1)]

theorem twoClients_owned : twoClients.Owned := by
  have hfirst : Run step InOrder start ⟨.accepting, some 0, 1, [], [.serving (some 0)]⟩ :=
    (((Run.refl start).tail (e := .accept) (by simp [InOrder, start]) rfl).tail (e := .create)
      (by trivial) rfl).tail (e := .read 0) (by trivial) rfl
  have hsecond : Run step InOrder start twoClients :=
    ((hfirst.tail (e := .accept) (by simp [InOrder]) rfl).tail (e := .create) (by trivial)
      rfl).tail (e := .read 1) (by trivial) rfl
  have hrun : Run step Unguarded start twoClients :=
    @Run.of_foldlM _ _ _ _ [.accept, .create, .read 0, .accept, .create, .read 1]
      (fun _ _ _ => trivial) _ _ rfl
  exact (owned_iff_inOrder hrun).1 hsecond

/-- Two clients that connect before the first thread runs: both threads serve the second. -/
theorem not_owned_of_unguarded : ¬ ∀ s, Run step Unguarded start s → s.Owned := by
  intro h
  have hrun : Run step Unguarded start
      ⟨.accepting, some 1, 2, [], [.serving (some 1), .serving (some 1)]⟩ :=
    @Run.of_foldlM _ _ _ _ [.accept, .create, .accept, .create, .read 0, .read 1]
      (fun _ _ _ => trivial) _ _ rfl
  have hone := (h _ hrun).1 1
  revert hone
  decide

end MainWorker

end PublicCloudCore.CorekubeDb
