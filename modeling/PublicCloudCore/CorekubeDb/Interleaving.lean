import PublicCloudCore.CorekubeDb.Serve
import PublicCloudCore.Framework.FetchIncrement

/-!
# Two threads on one user record

Two calls of `analyze_request` that have looked up the same user. A request is the list of its
accesses to what the threads share, in the order in which the handler makes them, and an event is
the next access of one of the threads. Alone, a thread that makes its accesses does what the
handler does.
-/

namespace PublicCloudCore.CorekubeDb

open Framework

/-- The items that are counted up when they are pulled. -/
inductive Counter
  | epcNasSequenceNumber
  | ueNasSequenceNumber
  | nextHopChainingCount
  deriving DecidableEq, Repr

namespace Counter

def item : Counter → ItemType
  | epcNasSequenceNumber => .epcNasSequenceNumber
  | ueNasSequenceNumber => .ueNasSequenceNumber
  | nextHopChainingCount => .nextHopChainingCount

def field : Counter → Field
  | epcNasSequenceNumber => .epcNasSequenceNumber
  | ueNasSequenceNumber => .ueNasSequenceNumber
  | nextHopChainingCount => .nextHopChainingCount

theorem field_ne_imsi (c : Counter) : c.field ≠ .imsi := by cases c <;> decide

theorem field_ne_rand (c : Counter) : c.field ≠ .rand := by cases c <;> decide

theorem field_size (c : Counter) : c.field.size = 1 := by cases c <;> rfl

theorem field_injective : Function.Injective field := by
  intro c d h
  cases c <;> cases d <;> first | rfl | cases h

theorem item_injective : Function.Injective item := by
  intro c d h
  cases c <;> cases d <;> first | rfl | cases h

theorem no_args (c : Counter) : ([] : List UInt8).length = argLen c.item.code := by
  cases c <;> rfl

/-- Which of the sixteen value bytes of the slot holds the counter. -/
def index : Counter → Nat
  | epcNasSequenceNumber => 5
  | ueNasSequenceNumber => 0
  | nextHopChainingCount => 0

/-- The slot of the response. -/
def block (c : Counter) (value : UInt8) : List UInt8 := c.item.code :: zeroFilled c.index value

theorem block_injective (c : Counter) : Function.Injective c.block := by
  intro a b h
  cases c <;> simpa [block, zeroFilled, index] using h

def set (c : Counter) (u : UserInfo) (value : UInt8) : UserInfo :=
  u.set c.field c.field_ne_imsi [value]

def ofTag (tag : UInt8) : Option Counter :=
  match ItemType.ofCode tag with
  | some .epcNasSequenceNumber => some .epcNasSequenceNumber
  | some .ueNasSequenceNumber => some .ueNasSequenceNumber
  | some .nextHopChainingCount => some .nextHopChainingCount
  | _ => none

theorem ofTag_eq_some_iff {tag : UInt8} {c : Counter} : ofTag tag = some c ↔ tag = c.item.code := by
  constructor
  · intro h
    unfold ofTag at h
    split at h
    · next ho => cases h; exact ItemType.ofCode_eq_some_iff.mp ho
    · next ho => cases h; exact ItemType.ofCode_eq_some_iff.mp ho
    · next ho => cases h; exact ItemType.ofCode_eq_some_iff.mp ho
    · cases h
  · rintro rfl
    cases c <;> rfl

end Counter

theorem getCounter_of_get_eq {u u' : UserInfo} {c : Counter} (h : u'.get c.field = u.get c.field) :
    getCounter u' c.field = getCounter u c.field := by
  have hget : ∀ v : UserInfo, v.get c.field = [getCounter v c.field] := by
    intro v
    simp [UserInfo.get, UserInfo.copy, c.field_size, Mem.read, getCounter]
  rw [hget, hget] at h
  exact List.singleton_inj.mp h

inductive Access
  -- the `memcpy` or the `hashmap_add` of a PUSH slot
  | push (p : Push)
  -- the read of a PULL item that copies a member into the response
  | copy (p : Pull)
  -- `tmp_nas = get_user_...(user)`, and the slot that shows it
  | load (c : Counter)
  -- `set_user_...(user, tmp_nas+1)`
  | storeNext (c : Counter)
  -- `generate_rand`
  | draw

structure Shared where
  user : UserInfo
  eNBs : HashMap hashEnbInfo
  rand : RandStream

/-- The variables of one call: `tmp_nas`, and the item and the block of every slot so far. -/
structure Locals where
  tmpNas : UInt8
  answers : List (UInt8 × List UInt8)

/-- The slot that a PULL item would write. -/
def Shared.answer (sh : Shared) (p : Pull) : List UInt8 :=
  match pullSwitch (some sh.user) sh.eNBs sh.rand p.tag p.args with
  | .ok a => PullAnswer.block a
  | .error _ => []

def Access.perform (x : Shared × Locals) : Access → Shared × Locals
  | .push p => ({ x.1 with user := p.apply x.1.user, eNBs := p.applyEnbs x.1.eNBs }, x.2)
  | .copy p => (x.1, { x.2 with answers := x.2.answers ++ [(p.tag, x.1.answer p)] })
  | .load c =>
      let tmpNas := getCounter x.1.user c.field
      (x.1, ⟨tmpNas, x.2.answers ++ [(c.item.code, c.block tmpNas)]⟩)
  | .storeNext c => ({ x.1 with user := c.set x.1.user (x.2.tmpNas + 1) }, x.2)
  | .draw =>
      let drawn := generateRand x.1.user x.1.rand
      ({ x.1 with user := drawn.1, rand := drawn.2 }, x.2)

def Pull.accesses (p : Pull) : List Access :=
  match Counter.ofTag p.tag with
  | some c => [.load c, .storeNext c]
  | none => if p.tag = ItemType.randUpdate.code then [.copy p, .draw] else [.copy p]

def Request.accesses (r : Request) : List Access :=
  r.pushes.map .push ++ r.pulls.flatMap Pull.accesses

def alone (accesses : List Access) (x : Shared × Locals) : Shared × Locals :=
  accesses.foldl Access.perform x

def writeAnswers (response : Mem UInt8) (off : Nat) (answers : List (UInt8 × List UInt8)) :
    Mem UInt8 :=
  response.writeBlocks off (answers.map fun a => (a.2, 17))

def Work.shared (w : Work) (u : UserInfo) : Shared := ⟨u, w.eNBs, w.rand⟩

/-- What the case of a PULL item leaves behind. -/
def Shared.after (sh : Shared) : Option PullAnswer → Shared
  | none => sh
  | some x => { sh with user := x.user.getD sh.user, rand := x.rand }

theorem alone_pull {sh : Shared} {p : Pull} {l : Locals} {a : Option PullAnswer}
    (ha : pullSwitch (some sh.user) sh.eNBs sh.rand p.tag p.args = .ok a) :
    ∃ tmpNas, alone p.accesses (sh, l) =
      (sh.after a, ⟨tmpNas, l.answers ++ [(p.tag, PullAnswer.block a)]⟩) := by
  have hcopy : (∀ x, a = some x → x.user = some sh.user ∧ x.rand = sh.rand) →
      alone [.copy p] (sh, l) =
        (sh.after a, ⟨l.tmpNas, l.answers ++ [(p.tag, PullAnswer.block a)]⟩) := by
    intro hsame
    simp only [alone, List.foldl_cons, List.foldl_nil, Access.perform, Shared.answer, ha]
    rcases a with _ | x
    · rfl
    · obtain ⟨huser, hrand⟩ := hsame x rfl
      simp [Shared.after, huser, hrand]
  rcases hc : Counter.ofTag p.tag with _ | c
  · by_cases hrand : p.tag = ItemType.randUpdate.code
    · refine ⟨l.tmpNas, ?_⟩
      rw [Pull.accesses, hc, if_pos hrand]
      simp only [alone, List.foldl_cons, List.foldl_nil, Access.perform, Shared.answer, ha]
      rw [hrand] at ha
      obtain rfl := Except.ok.inj ha
      rfl
    · refine ⟨l.tmpNas, ?_⟩
      have haccesses : p.accesses = [.copy p] := by simp only [Pull.accesses, hc, if_neg hrand]
      rw [haccesses]
      refine hcopy fun x hx => ?_
      subst hx
      rcases ho : ItemType.ofCode p.tag with _ | t
      · simp [pullSwitch, ho] at ha
      have htag := ItemType.ofCode_eq_some_iff.mp ho
      cases t
      case randUpdate => exact absurd htag hrand
      case epcNasSequenceNumber => rw [htag] at hc; cases hc
      case ueNasSequenceNumber => rw [htag] at hc; cases hc
      case nextHopChainingCount => rw [htag] at hc; cases hc
      case getEnb =>
        simp only [pullSwitch, ho] at ha
        split at ha
        · cases ha
        split at ha <;> (cases ha; exact ⟨rfl, rfl⟩)
      case eom => simp [pullSwitch, ho] at ha
      case newEnb => simp [pullSwitch, ho] at ha
      all_goals
        simp only [pullSwitch, ho, answerField, theUser, bind, Except.bind, Except.ok.injEq,
          Option.some.injEq] at ha
        subst ha
        exact ⟨rfl, rfl⟩
  · refine ⟨getCounter sh.user c.field, ?_⟩
    rw [Pull.accesses, hc]
    have htag := Counter.ofTag_eq_some_iff.mp hc
    rw [htag] at ha ⊢
    cases c <;>
      (obtain rfl := Except.ok.inj ha; rfl)

theorem alone_pulls {pulls : List Pull} {w w' : Work} {u : UserInfo} {l : Locals}
    (hu : w.user = some u) (h : pulls.foldlM pullSlot w = .ok w') :
    ∃ u' tmpNas answers, w'.user = some u' ∧
      alone (pulls.flatMap Pull.accesses) (w.shared u, l) =
        (w'.shared u', ⟨tmpNas, l.answers ++ answers⟩) ∧
      answers.map Prod.fst = pulls.map Pull.tag ∧
      w'.response = writeAnswers w.response w.resOffset answers := by
  induction pulls generalizing w u l with
  | nil =>
      cases h
      exact ⟨u, l.tmpNas, [], hu, by simp [alone], rfl, rfl⟩
  | cons p ps ih =>
      rw [List.foldlM_cons] at h
      rcases hs : pullSlot w p with e | w₁
      · rw [hs] at h
        cases h
      rw [hs] at h
      obtain ⟨a, ha, henbs, hoff, hcase⟩ := pullSlot_ok hs
      rw [hu] at ha
      obtain ⟨t₁, halone⟩ := @alone_pull (w.shared u) p l a ha
      obtain ⟨u₁, hu₁, hshared, hresp⟩ : ∃ u₁, w₁.user = some u₁ ∧
          (w.shared u).after a = w₁.shared u₁ ∧
          w₁.response = w.response.write w.resOffset (PullAnswer.block a) := by
        rcases hcase with ⟨rfl, huser, hrand, hresp⟩ | ⟨x, rfl, _, huser, hrand, hresp⟩
        · refine ⟨u, huser.trans hu, by simp [Shared.after, Work.shared, henbs, hrand], ?_⟩
          rw [hresp]
          funext i
          rw [Mem.write_outside _ _ _ _ (by simp [PullAnswer.block]; omega)]
        · obtain ⟨u₁, hx, _⟩ := pullSwitch_user ha
          refine ⟨u₁, huser.trans hx, ?_, hresp⟩
          simp [Shared.after, Work.shared, henbs, hrand, hx]
      obtain ⟨u', t, answers, hu', hrest, htags, hresponse⟩ :=
        ih (l := ⟨t₁, l.answers ++ [(p.tag, PullAnswer.block a)]⟩) hu₁ h
      refine ⟨u', t, (p.tag, PullAnswer.block a) :: answers, hu', ?_, by simp [htags], ?_⟩
      · rw [List.flatMap_cons, alone, List.foldl_append]
        change alone _ (alone p.accesses (w.shared u, l)) = _
        rw [halone, hshared, hrest]
        simp
      · rw [hresponse, hresp, hoff]
        rfl

theorem alone_request {r : Request} {w w' : Work} {u : UserInfo} (hu : w.user = some u)
    (h : r.run w = .ok w') (tmpNas : UInt8) :
    ∃ u' l, w'.user = some u' ∧ alone r.accesses (w.shared u, ⟨tmpNas, []⟩) = (w'.shared u', l) ∧
      l.answers.map Prod.fst = r.pulls.map Pull.tag ∧
      w'.response = writeAnswers w.response w.resOffset l.answers := by
  have hpush : ∀ (pushes : List Push) (sh : Shared) (l : Locals),
      alone (pushes.map .push) (sh, l) =
        ({ sh with user := applyPushes pushes sh.user, eNBs := applyEnbPushes pushes sh.eNBs },
          l) := by
    intro pushes
    induction pushes with
    | nil => intro sh l; rfl
    | cons p ps ih =>
        intro sh l
        exact ih _ _
  rw [r.run_user hu] at h
  obtain ⟨u', t, answers, hu', halone, htags, hresp⟩ :=
    alone_pulls (w := w.pushed r u) (l := ⟨tmpNas, []⟩) rfl h
  refine ⟨u', ⟨t, answers⟩, hu', ?_, htags, hresp⟩
  rw [Request.accesses, alone, List.foldl_append]
  change alone _ (alone (r.pushes.map .push) _) = _
  rw [hpush]
  exact halone

structure AttendThreadState where
  todo : List Access
  locals : Locals

structure Interleaving where
  shared : Shared
  threads : Side → AttendThreadState

namespace Interleaving

def start (shared : Shared) (left right : Request) : Interleaving where
  shared
  threads
    | .left => ⟨left.accesses, ⟨0, []⟩⟩
    | .right => ⟨right.accesses, ⟨0, []⟩⟩

def setThread (s : Interleaving) (i : Side) (th : AttendThreadState) : Side → AttendThreadState :=
  fun j => if j = i then th else s.threads j

/-- The next access of one thread. -/
def step (s : Interleaving) (i : Side) : Option Interleaving :=
  match (s.threads i).todo with
  | [] => none
  | a :: rest =>
      let x := a.perform (s.shared, (s.threads i).locals)
      some ⟨x.1, s.setThread i ⟨rest, x.2⟩⟩

/-- Both threads have finished their requests. -/
def Complete (s : Interleaving) : Prop := ∀ i, (s.threads i).todo = []

/-- A thread reads the counter only while the other one is not about to store it back. -/
def InTurn (c : Counter) (s : Interleaving) (i : Side) : Prop :=
  (s.threads i).todo.head? = some (.load c) →
    (s.threads i.other).todo.head? ≠ some (.storeNext c)

end Interleaving

/-- The slot of the response that shows the counter. -/
def Locals.answer (l : Locals) (c : Counter) : Option (List UInt8) :=
  (l.answers.find? fun a => a.1 == c.item.code).map Prod.snd

/-- The requests that pull the counter once and do not push it. -/
structure Request.Fetches (r : Request) (c : Counter) : Prop where
  once : (r.pulls.filter fun p => p.tag == c.item.code).length = 1
  not_pushed : ∀ p ∈ r.pushes, ∀ target, p.target? = some target → target.field ≠ c.field

/-- The responses show different values and the counter has gone up by two. -/
def Interleaving.NoLostUpdate (s : Interleaving) (c : Counter) (u : UserInfo) : Prop :=
  (s.threads .left).locals.answer c ≠ (s.threads .right).locals.answer c ∧
    getCounter s.shared.user c.field = getCounter u c.field + 2

/-- The accesses that neither touch the counter nor answer with it. -/
def Access.Free (c : Counter) : Access → Prop
  | .push p => ∀ target, p.target? = some target → target.field ≠ c.field
  | .copy p => p.tag ≠ c.item.code
  | .load d => d ≠ c
  | .storeNext d => d ≠ c
  | .draw => True

theorem Locals.answer_append {l : Locals} {c : Counter} {tag : UInt8} (h : tag ≠ c.item.code)
    (tmpNas : UInt8) (bytes : List UInt8) :
    (⟨tmpNas, l.answers ++ [(tag, bytes)]⟩ : Locals).answer c = l.answer c := by
  simp [Locals.answer, List.find?_append, h]

theorem Access.Free.perform {c : Counter} {a : Access} (h : a.Free c) (sh : Shared) (l : Locals) :
    getCounter (a.perform (sh, l)).1.user c.field = getCounter sh.user c.field ∧
      (a.perform (sh, l)).2.answer c = l.answer c := by
  cases a with
  | push p =>
      refine ⟨getCounter_of_get_eq ?_, rfl⟩
      exact p.apply_get_other _ fun target ht => (h target ht).symm
  | copy p => exact ⟨rfl, Locals.answer_append h _ _⟩
  | load d =>
      have hne : d.item.code ≠ c.item.code := fun hd =>
        h (Counter.item_injective (ItemType.code_injective hd))
      exact ⟨rfl, Locals.answer_append hne _ _⟩
  | storeNext d =>
      have hne : c.field ≠ d.field := fun hd => h (Counter.field_injective hd).symm
      refine ⟨getCounter_of_get_eq ?_, rfl⟩
      exact UserInfo.get_set_other _ d.field_ne_imsi hne (Nat.le_of_eq d.field_size.symm)
  | draw =>
      refine ⟨getCounter_of_get_eq ?_, rfl⟩
      exact UserInfo.get_set_other _ Field.rand_ne_imsi c.field_ne_rand (Nat.le_of_eq rfl)

inductive ThreadAt (c : Counter) (th : AttendThreadState) : Stage UInt8 → Prop
  | idle (before after : List Access)
      (htodo : th.todo = before ++ .load c :: .storeNext c :: after)
      (hbefore : ∀ a ∈ before, a.Free c) (hafter : ∀ a ∈ after, a.Free c)
      (hanswer : th.locals.answer c = none) : ThreadAt c th .idle
  | holding (v : UInt8) (after : List Access) (htodo : th.todo = .storeNext c :: after)
      (hafter : ∀ a ∈ after, a.Free c) (hanswer : th.locals.answer c = some (c.block v))
      (htmp : th.locals.tmpNas = v) : ThreadAt c th (.holding v)
  | done (v : UInt8) (hfree : ∀ a ∈ th.todo, a.Free c)
      (hanswer : th.locals.answer c = some (c.block v)) : ThreadAt c th (.done v)

theorem ThreadAt.head_eq_storeNext_iff {c : Counter} {th : AttendThreadState} {g : Stage UInt8}
    (h : ThreadAt c th g) : th.todo.head? = some (.storeNext c) ↔ ∃ a, g = .holding a := by
  cases h with
  | idle before after htodo hbefore =>
      refine ⟨fun hhead => ?_, fun ⟨_, ha⟩ => by cases ha⟩
      rw [htodo] at hhead
      cases before with
      | nil => cases hhead
      | cons a as =>
          obtain rfl := Option.some.inj hhead
          have hfree := hbefore (.storeNext c) (by simp)
          exact absurd rfl hfree
  | holding v after htodo => exact ⟨fun _ => ⟨v, rfl⟩, fun _ => by rw [htodo]; rfl⟩
  | done v hfree =>
      refine ⟨fun hhead => ?_, fun ⟨_, ha⟩ => by cases ha⟩
      have hstore := hfree (.storeNext c) (List.mem_of_mem_head? hhead)
      exact absurd rfl hstore

/-- The counter of the record and what the threads hold of it. -/
structure Interleaving.Simulates (c : Counter) (s : Interleaving) (x : Cell UInt8) : Prop where
  value : getCounter s.shared.user c.field = x.value
  thread : ∀ i, ThreadAt c (s.threads i) (x.stage i)

namespace Interleaving

variable {c : Counter} {s s' : Interleaving} {x : Cell UInt8} {i : Side}

/-- A step of one thread, and what the other one still is at. -/
theorem Simulates.move (h : Simulates c s x) {sh : Shared} {th : AttendThreadState} {v : UInt8}
    {g : Stage UInt8} (hv : getCounter sh.user c.field = v) (hth : ThreadAt c th g) :
    Simulates c ⟨sh, s.setThread i th⟩ ⟨v, x.move i g⟩ := by
  refine ⟨hv, fun j => ?_⟩
  by_cases hj : j = i
  · subst hj
    simpa [setThread] using hth
  · have hstage : x.move i g j = x.stage j := if_neg hj
    have hthread : s.setThread i th j = s.threads j := if_neg hj
    simp only [hstage, hthread]
    exact h.thread j

/-- An access that leaves the counter alone is no step of the cell. -/
theorem Simulates.stutter (h : Simulates c s x) {a : Access} {rest : List Access}
    (htodo : (s.threads i).todo = a :: rest) (hfree : a.Free c) (hstep : s.step i = some s')
    (hat : ∀ l : Locals, l.answer c = (s.threads i).locals.answer c →
      ThreadAt c ⟨rest, l⟩ (x.stage i)) : Simulates c s' x ∧ InTurn c s i := by
  simp only [Interleaving.step, htodo, Option.some.injEq] at hstep
  subst hstep
  obtain ⟨hvalue, hanswer⟩ := hfree.perform s.shared (s.threads i).locals
  constructor
  · have hsame : x.move i (x.stage i) = x.stage := by
      funext j
      by_cases hj : j = i <;> simp [Cell.move, hj]
    have := h.move (i := i) (hvalue.trans h.value) (hat _ hanswer)
    rwa [hsame] at this
  · intro hhead
    rw [htodo] at hhead
    obtain rfl := Option.some.inj hhead
    exact absurd rfl hfree

theorem Simulates.step (h : Simulates c s x) (hstep : s.step i = some s') :
    Simulates c s' x ∧ InTurn c s i ∨
      ∃ y, x.step (· + 1) i = some y ∧ Simulates c s' y ∧ (InTurn c s i ↔ x.InTurn i) := by
  have hother := (h.thread i.other).head_eq_storeNext_iff
  rcases hg : x.stage i with _ | v | v
  · have hi := h.thread i
    rw [hg] at hi
    cases hi with
    | idle before after htodo hbefore hafter hanswer =>
    cases before with
    | cons a as =>
        have htodo : (s.threads i).todo = a :: (as ++ .load c :: .storeNext c :: after) := htodo
        refine Or.inl (h.stutter htodo (hbefore a (by simp)) hstep fun l hl => ?_)
        rw [hg]
        exact .idle as after rfl (fun b hb => hbefore b (by simp [hb])) hafter (hl.trans hanswer)
    | nil =>
        have htodo : (s.threads i).todo = .load c :: .storeNext c :: after := htodo
        simp only [Interleaving.step, htodo, Option.some.injEq] at hstep
        subst hstep
        refine Or.inr ⟨_, Cell.step_idle hg, h.move h.value ?_, ?_⟩
        · refine .holding x.value after rfl hafter ?_ h.value
          simp only [Locals.answer, Option.map_eq_none_iff] at hanswer
          simp only [Access.perform, Locals.answer, List.find?_append, hanswer, h.value]
          simp
        · simp only [InTurn, htodo, List.head?_cons, true_imp_iff, ne_eq, hother, Cell.InTurn, hg,
            not_exists]
  · have hi := h.thread i
    rw [hg] at hi
    cases hi with
    | holding _ after htodo hafter hanswer htmp =>
    simp only [Interleaving.step, htodo, Option.some.injEq] at hstep
    subst hstep
    refine Or.inr ⟨_, Cell.step_holding hg, h.move ?_ (.done v hafter hanswer), ?_⟩
    · simp only [Access.perform, Counter.set, htmp]
      exact Mem.write_inside _ _ [v + 1] 0 Nat.one_pos
    · simp [InTurn, htodo, Cell.InTurn, hg]
  · have hi := h.thread i
    rw [hg] at hi
    cases hi with
    | done _ hfree hanswer =>
    rcases htodo : (s.threads i).todo with _ | ⟨a, rest⟩
    · simp [Interleaving.step, htodo] at hstep
    · rw [htodo] at hfree
      refine Or.inl (h.stutter htodo (hfree a (by simp)) hstep fun l hl => ?_)
      rw [hg]
      exact .done v (fun b hb => hfree b (by simp [hb])) (hl.trans hanswer)

end Interleaving

theorem Pull.accesses_free {p : Pull} {c : Counter} (h : p.tag ≠ c.item.code) :
    ∀ a ∈ p.accesses, a.Free c := by
  intro a ha
  unfold Pull.accesses at ha
  split at ha
  · next d hd =>
    have hdc : d ≠ c := by
      rintro rfl
      exact h (Counter.ofTag_eq_some_iff.mp hd)
    rcases List.mem_cons.mp ha with rfl | ha
    · exact hdc
    · rw [List.mem_singleton.mp ha]
      exact hdc
  · split at ha
    · rcases List.mem_cons.mp ha with rfl | ha
      · exact h
      · rw [List.mem_singleton.mp ha]
        trivial
    · rw [List.mem_singleton.mp ha]
      exact h

theorem Request.Fetches.threadAt {r : Request} {c : Counter} (h : r.Fetches c) :
    ThreadAt c ⟨r.accesses, ⟨0, []⟩⟩ .idle := by
  obtain ⟨p, hp⟩ := List.length_eq_one_iff.mp h.once
  obtain ⟨l₁, l₂, hpulls, hl₁, htag, hl₂⟩ := List.filter_eq_cons_iff.mp hp
  have htag : p.tag = c.item.code := by simpa using htag
  have hone : p.accesses = [.load c, .storeNext c] := by
    rw [Pull.accesses, Counter.ofTag_eq_some_iff.mpr htag]
  have hfree : ∀ l : List Pull, (∀ q ∈ l, q.tag ≠ c.item.code) →
      ∀ a ∈ l.flatMap Pull.accesses, a.Free c := by
    intro l hl a ha
    obtain ⟨q, hq, ha⟩ := List.mem_flatMap.mp ha
    exact q.accesses_free (hl q hq) a ha
  refine .idle (r.pushes.map .push ++ l₁.flatMap Pull.accesses) (l₂.flatMap Pull.accesses) ?_ ?_
    (hfree l₂ fun q hq => ?_) rfl
  · simp [Request.accesses, hpulls, hone]
  · intro a ha
    rcases List.mem_append.mp ha with ha | ha
    · obtain ⟨q, hq, rfl⟩ := List.mem_map.mp ha
      exact h.not_pushed q hq
    · exact hfree l₁ (fun q hq => by simpa using hl₁ q hq) a ha
  · simpa using List.filter_eq_nil_iff.mp hl₂ q hq

namespace Interleaving

variable {c : Counter} {s : Interleaving} {sh : Shared} {r₁ r₂ : Request}

theorem simulates_start (h₁ : r₁.Fetches c) (h₂ : r₂.Fetches c) (sh : Shared) :
    Simulates c (start sh r₁ r₂) (.start (getCounter sh.user c.field)) where
  value := rfl
  thread i := by
    cases i with
    | left => exact h₁.threadAt
    | right => exact h₂.threadAt

/-- A run is in turn, or both threads have read the same value. -/
theorem inTurn_or_overlapped (h₁ : r₁.Fetches c) (h₂ : r₂.Fetches c)
    (hrun : Run step Unguarded (start sh r₁ r₂) s) :
    ∃ x, Simulates c s x ∧
      (Cell.Serial (· + 1) (getCounter sh.user c.field) x ∧
          Run step (InTurn c) (start sh r₁ r₂) s ∨
        Cell.Overlapped (· + 1) (getCounter sh.user c.field) x) := by
  induction hrun with
  | refl => exact ⟨_, simulates_start h₁ h₂ sh, Or.inl ⟨Cell.serial_start _ _, .refl _⟩⟩
  | @tail t u i _ _ hstep ih =>
      obtain ⟨x, hx, hcase⟩ := ih
      rcases hx.step hstep with ⟨hu, hturn⟩ | ⟨y, hy, hu, hturn⟩
      · exact ⟨x, hu, hcase.imp_left (And.imp_right fun hrun => hrun.tail hturn hstep)⟩
      · refine ⟨y, hu, ?_⟩
        rcases hcase with ⟨hserial, hrun⟩ | hover
        · by_cases hok : InTurn c t i
          · exact Or.inl ⟨hserial.step (hturn.mp hok) hy, hrun.tail hok hstep⟩
          · exact Or.inr (hserial.overlapped (fun h => hok (hturn.mpr h)) hy)
        · exact Or.inr (hover.step hy)

theorem Simulates.finished {x : Cell UInt8} (h : Simulates c s x) (hdone : s.Complete) :
    ∃ a b, x.Finished a b ∧ (s.threads .left).locals.answer c = some (c.block a) ∧
      (s.threads .right).locals.answer c = some (c.block b) := by
  have hthread : ∀ i, ∃ v, x.stage i = .done v ∧
      (s.threads i).locals.answer c = some (c.block v) := by
    intro i
    have hi := h.thread i
    have htodo := hdone i
    generalize x.stage i = g at hi
    cases hi with
    | idle before after hbefore => rw [htodo] at hbefore; simp at hbefore
    | holding v after hafter => rw [htodo] at hafter; cases hafter
    | done v _ hanswer => exact ⟨v, rfl, hanswer⟩
  obtain ⟨a, ha, hanswerA⟩ := hthread .left
  obtain ⟨b, hb, hanswerB⟩ := hthread .right
  exact ⟨a, b, ⟨ha, hb⟩, hanswerA, hanswerB⟩

private theorem byte_ne_succ (v : UInt8) : v ≠ v + 1 := by
  intro h
  simp at h

theorem serial_of_inTurn (h₁ : r₁.Fetches c) (h₂ : r₂.Fetches c)
    (hrun : Run step (InTurn c) (start sh r₁ r₂) s) :
    ∃ x, Simulates c s x ∧ Cell.Serial (· + 1) (getCounter sh.user c.field) x := by
  refine hrun.invariant (I := fun s => ∃ x, Simulates c s x ∧
    Cell.Serial (· + 1) (getCounter sh.user c.field) x) ?_
    ⟨_, simulates_start h₁ h₂ sh, Cell.serial_start _ _⟩
  intro t i u ht hok hstep
  obtain ⟨x, hx, hserial⟩ := ht
  rcases hx.step hstep with ⟨hu, _⟩ | ⟨y, hy, hu, hturn⟩
  · exact ⟨x, hu, hserial⟩
  · exact ⟨y, hu, hserial.step (hturn.mp hok) hy⟩

theorem Simulates.noLostUpdate {x : Cell UInt8} {u : UserInfo} (h : Simulates c s x)
    (hserial : Cell.Serial (· + 1) (getCounter u c.field) x) (hdone : s.Complete) :
    s.NoLostUpdate c u := by
  obtain ⟨a, b, hfin, hleft, hright⟩ := h.finished hdone
  obtain ⟨hab, hvalue⟩ := hserial.finished hfin
  constructor
  · rw [hleft, hright]
    intro hanswer
    have hsame := c.block_injective (Option.some.inj hanswer)
    rcases hab with ⟨ha, hb⟩ | ⟨ha, hb⟩
    · exact byte_ne_succ _ (ha.symm.trans (hsame.trans hb))
    · exact byte_ne_succ _ (hb.symm.trans (hsame.symm.trans ha))
  · rw [h.value, hvalue, UInt8.add_assoc]
    rfl

/-- The threads have sent the same value, and the counter has gone up by one. -/
theorem Simulates.lostUpdate {x : Cell UInt8} {u : UserInfo} (h : Simulates c s x)
    (hover : Cell.Overlapped (· + 1) (getCounter u c.field) x) (hdone : s.Complete) :
    (s.threads .left).locals.answer c = (s.threads .right).locals.answer c ∧
      getCounter s.shared.user c.field = getCounter u c.field + 1 := by
  obtain ⟨a, b, hfin, hleft, hright⟩ := h.finished hdone
  obtain ⟨ha, hb, hvalue⟩ := hover.finished hfin
  exact ⟨by rw [hleft, hright, ha, hb], h.value.trans hvalue⟩

/-- No increment is lost in the runs that read the counter in turn, and in no others. -/
theorem noLostUpdate_iff_inTurn (h₁ : r₁.Fetches c) (h₂ : r₂.Fetches c)
    (hrun : Run step Unguarded (start sh r₁ r₂) s) (hdone : s.Complete) :
    s.NoLostUpdate c sh.user ↔ Run step (InTurn c) (start sh r₁ r₂) s := by
  constructor
  · intro h
    obtain ⟨x, hx, ⟨_, hturn⟩ | hover⟩ := inTurn_or_overlapped h₁ h₂ hrun
    · exact hturn
    · exact absurd (hx.lostUpdate hover hdone).1 h.1
  · intro hturn
    obtain ⟨x, hx, hserial⟩ := serial_of_inTurn h₁ h₂ hturn
    exact hx.noLostUpdate hserial hdone

def fetch (c : Counter) : Request where
  identity := .blank ItemType.mmeUeS1apId.code
  pushes := []
  pulls := [⟨c.item.code, [], c.no_args⟩]

theorem fetch_fetches (c : Counter) : (fetch c).Fetches c where
  once := by simp [fetch]
  not_pushed p hp := by cases hp

/-- The subscriber before the two requests. -/
def fetchTwice : Interleaving :=
  start ⟨subscriber, .init 0 0, fun _ => 0⟩ (fetch .epcNasSequenceNumber)
    (fetch .epcNasSequenceNumber)

theorem fetchTwice_left_right : ∃ s, Run step Unguarded fetchTwice s ∧ s.Complete ∧
    (s.NoLostUpdate .epcNasSequenceNumber subscriber ↔
      Run step (InTurn .epcNasSequenceNumber) fetchTwice s) := by
  have hrun := @Run.of_foldlM _ _ step Unguarded [.left, .left, .right, .right]
    (fun _ _ _ => trivial) fetchTwice _ rfl
  refine ⟨_, hrun, ?done,
    noLostUpdate_iff_inTurn (fetch_fetches _) (fetch_fetches _) hrun ?done⟩
  intro i
  cases i <;> rfl

/-- Both threads load the counter before one of them stores it back. -/
theorem not_noLostUpdate_of_unguarded :
    ¬ ∀ (c : Counter) (r₁ r₂ : Request) (sh : Shared) (s : Interleaving), r₁.Fetches c →
      r₂.Fetches c → Run step Unguarded (start sh r₁ r₂) s → s.Complete →
      s.NoLostUpdate c sh.user := by
  intro h
  have hrun := @Run.of_foldlM _ _ step Unguarded [.left, .right, .left, .right]
    (fun _ _ _ => trivial) fetchTwice _ rfl
  have hlost := h _ _ _ _ _ (fetch_fetches _) (fetch_fetches _) hrun fun i => by cases i <;> rfl
  exact hlost.1 rfl

end Interleaving

end PublicCloudCore.CorekubeDb
