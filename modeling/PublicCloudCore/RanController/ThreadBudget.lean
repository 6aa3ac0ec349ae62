import PublicCloudCore.Framework.Doubles
import PublicCloudCore.Framework.Portions
import PublicCloudCore.RanController.AnalyzeMsg

/-!
# The threads of the control-plane-only slaves

The UEs are handed out to the slaves in portions of `num_threads`, whatever the other threads do
meanwhile. A slave reads its portion from four bytes.
-/

namespace PublicCloudCore.RanController

open Framework

/-- The number that a datagram tells a slave, if it gives it the role. -/
def cpNumber? : List UInt8 × Address → Option Nat
  | (code :: data, _) => if code = codeOk ||| 0x0B then leadingWord data else none
  | _ => none

/-- The numbers that the slaves have been told, the latest first. -/
def Controller.told (s : Controller) : List Nat := s.replies.filterMap cpNumber?

/-- The UE pods that `kubernetes_thread` creates; `none` where the division raises. -/
def uePods (c : Config) (ues : Nat) : Option Int :=
  if c.cpMode then (Doubles.trueDivide ues c.numThreads).map (⌈·⌉) else some ues

structure WithinBudget (c : Config) (ues : Nat) (nums : List Nat) : Prop where
  each : ∀ n ∈ nums, (n : Int) ≤ c.numThreads
  total : nums.sum ≤ ues

/-- With as many numbers as the exact quotient says every UE has its thread. -/
def Exhausts (c : Config) (ues : Nat) (nums : List Nat) : Prop :=
  nums.length = ues ⌈/⌉ c.numThreads.toNat → nums.sum = ues

/-- There are as many pods as the exact quotient says. -/
def PodsSuffice (c : Config) (ues : Nat) : Prop :=
  uePods c ues = some ((ues ⌈/⌉ c.numThreads.toNat : Nat) : Int)

namespace Controller

variable {c : Config} {s s' : Controller} {t : Nat} {m : Message}

/-- The UEs that are left and what the slaves have been told do not change. -/
def SameBudget (s s' : Controller) : Prop := s'.numUes = s.numUes ∧ s'.told = s.told

theorem told_goto (pc : Pc) : (s.goto t pc).told = s.told := rfl

theorem told_enbAnswer (e : Option Nat) (address : Address) :
    (s.sendto (s.enbAnswer e) address).told = s.told := by
  have hcode : cpNumber? (s.enbAnswer e, address) = none := by
    unfold enbAnswer
    cases e with
    | none => rfl
    | some e =>
        simp only
        cases s.enbs[e]?.bind EnbEntry.address <;> rfl
  rw [told, sendto, List.filterMap_cons_none hcode]
  rfl

theorem sameBudget_act (a : Action) : SameBudget s (s.act m a) := by
  cases a with
  | answerEnb e => exact ⟨rfl, told_enbAnswer e m.address⟩
  | _ => exact ⟨rfl, rfl⟩

theorem sameBudget_acquire {pc : Pc} (h : s.acquire t pc = some s') : SameBudget s s' := by
  rw [acquire] at h
  split at h
  · cases h
    exact ⟨rfl, rfl⟩
  · cases h

theorem sameBudget_lookUpError : SameBudget s (s.lookUpError c t m) := by
  rw [lookUpError]
  split
  · split <;> exact ⟨rfl, rfl⟩
  · split
    · exact ⟨rfl, rfl⟩
    · exact ⟨rfl, rfl⟩
    · split
      · split
        · exact ⟨rfl, rfl⟩
        · split <;> exact ⟨rfl, rfl⟩
      · exact ⟨rfl, rfl⟩

/-- Only the second critical section touches the budget. -/
theorem sameBudget_advance {pc : Pc} (hpc : pc ≠ .cpOnly) (h : s.advance c t m pc = some s') :
    SameBudget s s' := by
  cases pc with
  | cpOnly => exact absurd rfl hpc
  | acquireEnb | acquireCp | acquireUe | acquireError => exact sameBudget_acquire h
  | scanEnb i =>
      rw [advance] at h
      split at h
      · cases h
        exact ⟨rfl, rfl⟩
      · split at h <;> cases h <;> exact ⟨rfl, rfl⟩
  | scanUe i =>
      rw [advance] at h
      split at h
      · cases h
        exact ⟨rfl, rfl⟩
      · split at h <;> cases h <;> exact ⟨rfl, rfl⟩
  | findEnb u e =>
      rw [advance] at h
      split at h
      · split at h <;> cases h <;> exact ⟨rfl, rfl⟩
      · cases h
        exact ⟨rfl, rfl⟩
  | waitEnb u e =>
      rw [advance] at h
      split at h <;> cases h <;> exact ⟨rfl, rfl⟩
  | pendEnb i =>
      rw [advance] at h
      cases h
      cases c.mobilestream <;> exact ⟨rfl, rfl⟩
  | lookUp =>
      rw [advance] at h
      cases h
      exact sameBudget_lookUpError
  | acting actions =>
      cases actions with
      | nil =>
          cases h
          exact ⟨rfl, rfl⟩
      | cons a actions =>
          rw [advance] at h
          cases h
          exact sameBudget_act a
  | done => cases h
  | _ =>
      rw [advance] at h
      cases h
      exact ⟨rfl, rfl⟩

theorem told_assign (num : Nat) (address : Address) (left : Int) :
    ({ s with numUes := left }.sendto ((codeOk ||| 0x0B) :: word num) address).told =
      num % 2 ^ 32 :: s.told := by
  have hnum : cpNumber? ((codeOk ||| 0x0B) :: word num, address) = some (num % 2 ^ 32) := by
    rw [← bigEndian_word num]
    rfl
  rw [told, sendto, List.filterMap_cons_some hnum]
  rfl

end Controller

/-- The portions handed out so far, what the slaves read of them, and what is left: the sentinel
when nothing is. -/
structure Budget (size total : Nat) (s : Controller) (nums : List Nat) : Prop where
  portions : Portions size total nums
  told : s.told = nums.map (· % 2 ^ 32)
  left : s.numUes = if nums.sum < total then (total : Int) - nums.sum else -1

variable {c : Config} {s s' : Controller} {total : Nat} {nums : List Nat}

theorem Budget.same (h : Budget c.numThreads.toNat total s nums)
    (hsame : Controller.SameBudget s s') : Budget c.numThreads.toNat total s' nums :=
  ⟨h.portions, hsame.2.trans h.told, hsame.1.trans h.left⟩

theorem Budget.assignCpOnly (hthreads : 1 ≤ c.numThreads)
    (h : Budget c.numThreads.toNat total s nums) (t : Nat) (m : Message) :
    ∃ nums', Budget c.numThreads.toNat total (s.assignCpOnly c t m) nums' := by
  rw [Controller.assignCpOnly]
  split
  · next hassign =>
    have hlt : nums.sum < total := by
      by_contra hnot
      rw [h.left, if_neg hnot] at hassign
      exact hassign.2.2 rfl
    have hleft : s.numUes = (total : Int) - nums.sum := by rw [h.left, if_pos hlt]
    have hnum : ((if s.numUes ≤ c.numThreads then s.numUes else c.numThreads) % 2 ^ 32).toNat %
        2 ^ 32 = min c.numThreads.toNat (total - nums.sum) % 2 ^ 32 := by
      split <;> omega
    refine ⟨_, .hand h.portions hlt, ?_, ?_⟩
    · rw [Controller.told_goto, Controller.told_assign, hnum, h.told]
      rfl
    · show (if s.numUes ≤ c.numThreads then (-1 : Int) else s.numUes - c.numThreads) = _
      rw [List.sum_cons]
      split <;> split <;> omega
  · exact ⟨nums, h.same ⟨rfl, rfl⟩⟩

theorem Budget.step (hthreads : 1 ≤ c.numThreads) (h : Budget c.numThreads.toNat total s nums)
    {e : Event} (hstep : step c s e = some s') :
    ∃ nums', Budget c.numThreads.toNat total s' nums' := by
  cases e with
  | datagram data address =>
      rw [RanController.step] at hstep
      split at hstep
      · split at hstep <;> cases hstep <;> exact ⟨nums, h.same ⟨rfl, rfl⟩⟩
      · cases hstep
  | thread t =>
      rw [RanController.step] at hstep
      split at hstep
      · cases hstep
      · next th _ =>
        by_cases hpc : th.pc = .cpOnly
        · rw [hpc, Controller.advance] at hstep
          cases hstep
          exact h.assignCpOnly hthreads t th.message
        · exact ⟨nums, h.same (Controller.sameBudget_advance hpc hstep)⟩

theorem budget_of_run {enbs : List EnbEntry} {ues : List UeEntry} (hthreads : 1 ≤ c.numThreads)
    (hues : 1 ≤ ues.length) (h : Run (step c) Unguarded (initial enbs ues) s) :
    ∃ nums, Budget c.numThreads.toNat ues.length s nums := by
  have hstart : Budget c.numThreads.toNat ues.length (initial enbs ues) [] := by
    refine ⟨.none, rfl, ?_⟩
    have hpos : 0 < ues.length := hues
    rw [List.sum_nil, if_pos hpos, Nat.cast_zero, sub_zero]
    rfl
  have hkept : ∀ s e s', (∃ nums, Budget c.numThreads.toNat ues.length s nums) →
      Unguarded s e → step c s e = some s' →
      ∃ nums, Budget c.numThreads.toNat ues.length s' nums := by
    rintro s e s' ⟨nums, hnums⟩ _ hstep
    exact hnums.step hthreads hstep
  exact h.invariant hkept ⟨[], hstart⟩

/-- The double of the quotient rounds up to the right number of pods, for as many UEs as a double
counts. -/
theorem podsSuffice_of_le {ues : Nat} (hcp : c.cpMode = true) (hthreads : 1 ≤ c.numThreads)
    (hsmall : c.numThreads < 2 ^ 1075) (hues : 1 ≤ ues) (hle : ues ≤ 2 ^ 53) :
    PodsSuffice c ues := by
  obtain ⟨threads, hcast⟩ := Int.eq_ofNat_of_zero_le (by omega : 0 ≤ c.numThreads)
  rw [hcast] at hthreads hsmall
  have hpos : 0 < threads := by omega
  rw [PodsSuffice, uePods, if_pos hcp, hcast, Int.toNat_natCast]
  exact Doubles.trueDivide_natCast hues hle hpos (Doubles.half_smallest_lt hpos hsmall)

/-- What the slaves are told stays within the budget in every run; the four bytes of a message can
only make it less, which they do not while the UEs or the threads fit them. -/
theorem threadBudget_of_run {enbs : List EnbEntry} {ues : List UeEntry} (hcp : c.cpMode = true)
    (hthreads : 1 ≤ c.numThreads) (hues : 1 ≤ ues.length)
    (h : Run (step c) Unguarded (initial enbs ues) s) :
    WithinBudget c ues.length s.told ∧
      (ues.length < 2 ^ 32 ∨ c.numThreads < 2 ^ 32 → Exhausts c ues.length s.told) ∧
      (ues.length ≤ 2 ^ 53 ∧ c.numThreads < 2 ^ 1075 → PodsSuffice c ues.length) := by
  obtain ⟨nums, hnums⟩ := budget_of_run hthreads hues h
  have hmod : ∀ n ∈ nums, n % 2 ^ 32 ≤ n := fun n _ => Nat.mod_le n _
  refine ⟨⟨?_, ?_⟩, fun hfit hlength => ?_,
    fun hsmall => podsSuffice_of_le hcp hthreads hsmall.2 hues hsmall.1⟩
  · rw [hnums.told]
    intro n hn
    obtain ⟨num, hnum, rfl⟩ := List.mem_map.mp hn
    have hsize := hnums.portions.le_size num hnum
    have hle := hmod num hnum
    omega
  · rw [hnums.told]
    have hsum : (nums.map (· % 2 ^ 32)).sum ≤ (nums.map id).sum := List.sum_le_sum hmod
    rw [List.map_id] at hsum
    exact hsum.trans hnums.portions.sum_le
  · have hsame : s.told = nums := by
      rw [hnums.told]
      refine (List.map_congr_left fun n hn => ?_).trans (List.map_id nums)
      have hsize := hnums.portions.le_size n hn
      have htotal := hnums.portions.le_total n hn
      refine Nat.mod_eq_of_lt ?_
      omega
    rw [hsame] at hlength ⊢
    exact hnums.portions.sum_eq_total (by omega) hlength

/-- Slaves of two threads each. -/
def twoThreads : Config := ⟨true, 2, false⟩

/-- The quotient is rounded down, and a pod is missing. -/
example : uePods twoThreads (2 ^ 53 + 1) = some (2 ^ 52) := by decide +kernel

def fourUes : List UeEntry :=
  [⟨1, 0, .stopped, none⟩, ⟨2, 0, .stopped, none⟩, ⟨3, 0, .stopped, none⟩, ⟨4, 0, .stopped, none⟩]

/-- A new slave asks for a role, and its thread goes on up to the answer. -/
def initEvents (t : Nat) (address : Address) : List Event :=
  .datagram [0xFF, 0, 0, 0, 0] address :: List.replicate 6 (.thread t)

/-- The two slaves of an exact multiple. The lock is released in between. -/
def twoSlaves : List Event :=
  initEvents 0 ⟨1, 1⟩ ++ .thread 0 :: initEvents 1 ⟨2, 2⟩

theorem twoSlaves_told :
    (twoSlaves.foldlM (step twoThreads) (initial [] fourUes)).map Controller.told =
      some [2, 2] := by decide +kernel

theorem threadBudget_twoSlaves :
    ∃ s, Run (step twoThreads) Unguarded (initial [] fourUes) s ∧ s.told = [2, 2] ∧
      WithinBudget twoThreads 4 s.told ∧ Exhausts twoThreads 4 s.told ∧
      PodsSuffice twoThreads 4 := by
  obtain ⟨s, hs, htold⟩ := Option.map_eq_some_iff.mp twoSlaves_told
  have hrun := @Run.of_foldlM _ _ (step twoThreads) Unguarded twoSlaves (fun _ _ _ => trivial) _ _
    hs
  have hbudget := threadBudget_of_run (by rfl) (by decide) (by decide) hrun
  have hthreads : twoThreads.numThreads < 2 ^ 1075 :=
    (by decide : twoThreads.numThreads < 2 ^ 2).trans
      (pow_lt_pow_right₀ (by decide) (by decide))
  exact ⟨s, hrun, htold, hbudget.1, hbudget.2.1 (Or.inl (by decide)),
    hbudget.2.2 ⟨by decide, hthreads⟩⟩

theorem first_told {c : Config} (hcp : c.cpMode = true) {ues : List UeEntry}
    (hall : (ues.length : Int) ≤ c.numThreads) :
    ∃ s, Run (step c) Unguarded (initial [] ues) s ∧ s.told = [ues.length % 2 ^ 32] := by
  let m : Message := ⟨.init, ⟨1, 1⟩, 0, []⟩
  let waiting : Controller := { initial [] ues with lock := some 0, threads := [⟨m, .cpOnly⟩] }
  have hleft : (ues.length : Int) ≠ -1 := by omega
  have hassign : (waiting.assignCpOnly c 0 m).told = [ues.length % 2 ^ 32] := by
    rw [Controller.assignCpOnly, if_pos ⟨hcp, rfl, hleft⟩, Controller.told_goto,
      Controller.told_assign]
    show [((if (ues.length : Int) ≤ c.numThreads then (ues.length : Int) else c.numThreads) %
      2 ^ 32).toNat % 2 ^ 32] = _
    rw [if_pos hall]
    congr 1
    omega
  refine ⟨waiting.assignCpOnly c 0 m, ?_, hassign⟩
  exact @Run.of_foldlM _ _ (step c) Unguarded (initEvents 0 ⟨1, 1⟩) (fun _ _ _ => trivial) _ _ rfl

/-- `2 ^ 32` UEs for one slave of as many threads: its number has no bit left in four bytes. -/
theorem not_threadBudget_wide :
    ¬ ∀ (c : Config) (enbs : List EnbEntry) (ues : List UeEntry) (s : Controller),
      c.cpMode = true → 1 ≤ c.numThreads → 1 ≤ ues.length →
      Run (step c) Unguarded (initial enbs ues) s →
      WithinBudget c ues.length s.told ∧ Exhausts c ues.length s.told ∧
        PodsSuffice c ues.length := by
  intro h
  let c : Config := ⟨true, 2 ^ 32, false⟩
  let ues : List UeEntry := List.replicate (2 ^ 32) ⟨1, 0, .stopped, none⟩
  have hlength : ues.length = 2 ^ 32 := List.length_replicate
  have hall : (ues.length : Int) ≤ c.numThreads := by rw [hlength]; exact le_refl _
  obtain ⟨s, hrun, htold⟩ := first_told (c := c) rfl hall
  have hexhausts := (h c [] ues s rfl (by decide) (by omega) hrun).2.1
  rw [Exhausts, htold, hlength] at hexhausts
  exact absurd (hexhausts (by decide)) (by decide)

end PublicCloudCore.RanController
