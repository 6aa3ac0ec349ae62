import PublicCloudCore.RanController.AnalyzeMsg

/-!
# Exclusive roles

The controller as a desk that hands out roles under one lock. An eNB role is sent before the lock
is released, a UE role only after the thread has waited for its eNB. An error message of a UE that
is processed in between frees a role which its thread still sends.
-/

namespace PublicCloudCore.RanController

open Framework

def Pc.stage : Pc → DeskStage Role
  | .scanEnb _ => .inside
  | .pendEnb i => .claiming (.enb i)
  | .sendEnb i => .reserved (.enb i)
  | .addrEnb _ => .inside
  | .releaseEnb => .inside
  | .cpOnly => .inside
  | .releaseCp => .inside
  | .scanUe _ => .inside
  | .pendUe i => .claiming (.ue i)
  | .releaseUe i => .reserved (.ue i)
  | .findEnb u _ => .departed (.ue u)
  | .waitEnb u _ => .departed (.ue u)
  | .sendUe u => .departed (.ue u)
  | .releaseNone => .inside
  | .lookUp => .inside
  | .stopEnb i => .recovering (.enb i)
  | .stopUe i => .recovering (.ue i)
  | .finish => .inside
  | _ => .outside

namespace Controller

variable {s s' : Controller} {c : Config} {t : Nat}

def stage (s : Controller) (t : Nat) : DeskStage Role :=
  (s.threads[t]?.map fun th => th.pc.stage).getD .outside

def status (s : Controller) : Role → Option Status
  | .enb i => s.enbs[i]?.map EnbEntry.status
  | .ue i => s.ues[i]?.map UeEntry.status

def desk (s : Controller) : Desk Role Address where
  stage := s.stage
  holder := s.lock
  free r := s.status r = some .stopped
  history := s.history

theorem desk_stage (s : Controller) : s.desk.stage = s.stage := rfl

theorem desk_free (s : Controller) (q : Role) : s.desk.free q ↔ s.status q = some .stopped := .rfl

theorem goto_status (pc : Pc) : (s.goto t pc).status = s.status := by
  funext r
  cases r <;> rfl

theorem goto_stage {th : Thread} (h : s.threads[t]? = some th) (pc : Pc) :
    (s.goto t pc).stage = Function.update s.stage t pc.stage := by
  funext u
  by_cases hu : u = t
  · subst hu
    simp [stage, goto, h]
  · rw [Function.update_of_ne hu]
    simp [stage, goto, Ne.symm hu]

theorem stage_of_thread {th : Thread} (h : s.threads[t]? = some th) : s.stage t = th.pc.stage := by
  simp [stage, h]

theorem status_setEnbStatus (i : Nat) (status : Status) (q : Role) :
    (s.setEnbStatus i status).status q =
      if q = .enb i then (s.status q).map fun _ => status else s.status q := by
  cases q with
  | ue j => simp [Controller.status, setEnbStatus]
  | enb j =>
      by_cases hj : j = i
      · simp [Controller.status, setEnbStatus, hj, Function.comp_def]
      · simp [Controller.status, setEnbStatus, hj, Ne.symm hj]

theorem status_setUeStatus (i : Nat) (status : Status) (q : Role) :
    (s.setUeStatus i status).status q =
      if q = .ue i then (s.status q).map fun _ => status else s.status q := by
  cases q with
  | enb j => simp [Controller.status, setUeStatus]
  | ue j =>
      by_cases hj : j = i
      · simp [Controller.status, setUeStatus, hj, Function.comp_def]
      · simp [Controller.status, setUeStatus, hj, Ne.symm hj]

@[simp] theorem status_setEnbAddress (i : Nat) (a : Address) :
    (s.setEnbAddress i a).status = s.status := by
  funext q
  cases q with
  | ue j => rfl
  | enb j =>
      by_cases hj : i = j <;> simp [Controller.status, setEnbAddress, hj, Function.comp_def]

@[simp] theorem status_setUeAddress (i : Nat) (a : Address) :
    (s.setUeAddress i a).status = s.status := by
  funext q
  cases q with
  | enb j => rfl
  | ue j =>
      by_cases hj : i = j <;> simp [Controller.status, setUeAddress, hj, Function.comp_def]

@[simp] theorem status_setUeEnbId (i n : Nat) : (s.setUeEnbId i n).status = s.status := by
  funext q
  cases q with
  | enb j => rfl
  | ue j =>
      by_cases hj : i = j <;> simp [Controller.status, setUeEnbId, hj, Function.comp_def]

/-- Outside the lock no status becomes `stopped`. -/
theorem free_act {m : Message} {a : Action} {q : Role}
    (h : (s.act m a).status q = some .stopped) : s.status q = some .stopped := by
  cases a with
  | setConnected i =>
      rw [act, status_setEnbStatus] at h
      split at h
      · simp at h
      · exact h
  | setTraffic i | setIdle i | setDisconnected i =>
      rw [act, status_setUeStatus] at h
      split at h
      · simp at h
      · exact h
  | setEnbAddr i | setUeAddr i | setEnbId i n => simpa [act] using h
  | answerEnb e => exact h

@[simp] theorem act_threads (m : Message) (a : Action) : (s.act m a).threads = s.threads := by
  cases a <;> rfl

@[simp] theorem act_lock (m : Message) (a : Action) : (s.act m a).lock = s.lock := by
  cases a <;> rfl

@[simp] theorem act_history (m : Message) (a : Action) : (s.act m a).history = s.history := by
  cases a <;> rfl

section Actions

variable {th : Thread}

theorem step_quiet (hth : s.threads[t]? = some th) {pc : Pc}
    (hmove : DeskStage.Quiet th.pc.stage pc.stage) (hthreads : s'.threads = s.threads)
    (hlock : s'.lock = s.lock)
    (hfree : ∀ q, s'.status q = some .stopped → s.status q = some .stopped)
    (hhistory : s'.history = s.history) : Desk.Step s.desk (s'.goto t pc).desk t := by
  have hstage : s'.stage = s.stage := by
    funext u
    simp only [stage, hthreads]
  refine .quiet pc.stage ?_ ?_ hlock ?_ hhistory
  · rw [desk_stage, stage_of_thread hth]
    exact hmove
  · rw [desk_stage, goto_stage (by rw [hthreads, hth]), hstage, desk_stage]
  · intro q hq
    rw [desk_free, goto_status] at hq
    exact hfree q hq

theorem step_acquire (hth : s.threads[t]? = some th) (hout : th.pc.stage = .outside) {pc : Pc}
    (hin : pc.stage = .inside) (h : s.acquire t pc = some s') : Desk.Step s.desk s'.desk t := by
  rw [acquire] at h
  split at h
  · next hnone =>
      cases h
      refine .acquire ?_ hnone ?_ rfl ?_ rfl
      · rw [desk_stage, stage_of_thread hth, hout]
      · rw [← hin]
        exact goto_stage hth pc
      · intro q hq
        rw [desk_free, goto_status] at hq
        exact hq
  · cases h

theorem step_release (hth : s.threads[t]? = some th) (hin : th.pc.stage = .inside) {pc : Pc}
    (hout : pc.stage = .outside) : Desk.Step s.desk (s.release t pc).desk t := by
  refine .leave ?_ ?_ rfl ?_ rfl
  · rw [desk_stage, stage_of_thread hth, hin]
  · rw [← hout]
    exact goto_stage hth pc
  · intro q hq
    rw [release, desk_free, goto_status] at hq
    exact hq

theorem step_pendEnb (hth : s.threads[t]? = some th) {i : Nat} (hpc : th.pc = .pendEnb i)
    (hthreads : s'.threads = s.threads) (hlock : s'.lock = s.lock)
    (hstatus : s'.status = (s.setEnbStatus i .pending).status) (hhistory : s'.history = s.history) :
    Desk.Step s.desk (s'.goto t (.sendEnb i)).desk t := by
  have hstage : s'.stage = s.stage := by
    funext u
    simp only [stage, hthreads]
  refine .reserve (.enb i) ?_ ?_ hlock ?_ hhistory
  · rw [desk_stage, stage_of_thread hth, hpc]
    rfl
  · rw [desk_stage, goto_stage (by rw [hthreads, hth]), hstage, desk_stage]
    rfl
  · intro q hq
    rw [desk_free, goto_status, hstatus, status_setEnbStatus] at hq
    split at hq
    · simp at hq
    · next hne => exact ⟨hne, hq⟩

theorem step_pendUe (hth : s.threads[t]? = some th) {i : Nat} (hpc : th.pc = .pendUe i) :
    Desk.Step s.desk ((s.setUeStatus i .pending).goto t (.releaseUe i)).desk t := by
  refine .reserve (.ue i) ?_ ?_ rfl ?_ rfl
  · rw [desk_stage, stage_of_thread hth, hpc]
    rfl
  · exact goto_stage (s := s.setUeStatus i .pending) hth _
  · intro q hq
    rw [desk_free, goto_status, status_setUeStatus] at hq
    split at hq
    · simp at hq
    · next hne => exact ⟨hne, hq⟩

theorem stage_ne_departed_enb (s : Controller) (u i : Nat) : s.stage u ≠ .departed (.enb i) := by
  rw [stage]
  cases s.threads[u]? with
  | none => nofun
  | some th => cases h : th.pc <;> simp [Pc.stage, h]

theorem step_stopEnb (hth : s.threads[t]? = some th) {i : Nat} (hpc : th.pc = .stopEnb i) :
    Desk.Step s.desk
      (((s.setEnbStatus i .stopped).record (.recovered (.enb i))).goto t .finish).desk t := by
  refine .recover (.enb i) ?_ ?_ ?_ rfl ?_ rfl
  · rw [desk_stage, stage_of_thread hth, hpc]
    rfl
  · intro u
    exact s.stage_ne_departed_enb u i
  · exact goto_stage (s := (s.setEnbStatus i .stopped).record (.recovered (.enb i))) hth _
  · intro q hq
    by_cases hqi : q = .enb i
    · exact .inl hqi
    · rw [desk_free, goto_status] at hq
      have hs := status_setEnbStatus (s := s) i .stopped q
      rw [if_neg hqi] at hs
      exact .inr (hs.symm.trans hq)

theorem step_stopUe (hth : s.threads[t]? = some th) {i : Nat} (hpc : th.pc = .stopUe i)
    (hnone : ∀ u, s.stage u ≠ .departed (.ue i)) : Desk.Step s.desk
      (((s.setUeStatus i .stopped).record (.recovered (.ue i))).goto t .finish).desk t := by
  refine .recover (.ue i) ?_ hnone ?_ rfl ?_ rfl
  · rw [desk_stage, stage_of_thread hth, hpc]
    rfl
  · exact goto_stage (s := (s.setUeStatus i .stopped).record (.recovered (.ue i))) hth _
  · intro q hq
    by_cases hqi : q = .ue i
    · exact .inl hqi
    · rw [desk_free, goto_status] at hq
      have hs := status_setUeStatus (s := s) i .stopped q
      rw [if_neg hqi] at hs
      exact .inr (hs.symm.trans hq)

theorem step_lookUp (hth : s.threads[t]? = some th) (hpc : th.pc = .lookUp) :
    Desk.Step s.desk (s.lookUpError c t th.message).desk t := by
  have hquiet : ∀ {s' : Controller} {pc : Pc}, DeskStage.Quiet .inside pc.stage →
      s'.threads = s.threads → s'.lock = s.lock → s'.status = s.status →
      s'.history = s.history → Desk.Step s.desk (s'.goto t pc).desk t := by
    intro s' pc hmove hthreads hlock hstatus hhistory
    refine step_quiet hth ?_ hthreads hlock (fun q hq => ?_) hhistory
    · rw [hpc]
      exact hmove
    · rwa [hstatus] at hq
  rw [lookUpError]
  split
  · split
    · exact hquiet (.stuck _) rfl rfl rfl rfl
    · exact hquiet (.stay _) rfl rfl rfl rfl
    · exact hquiet (.recover _) rfl rfl rfl rfl
  · split
    · exact hquiet (.stuck _) rfl rfl rfl rfl
    · exact hquiet (.stay _) rfl rfl rfl rfl
    · split
      · split
        · exact hquiet (.stuck _) rfl rfl rfl rfl
        · split
          · refine hquiet (.recover _) rfl rfl ?_ rfl
            funext q
            cases q <;> rfl
          · exact hquiet (.stuck _) rfl rfl rfl rfl
      · exact hquiet (.recover _) rfl rfl rfl rfl

theorem stage_dispatch (s : Controller) (m : Message) : (s.dispatch m).stage = .outside := by
  rw [dispatch]
  split
  · rfl
  · rfl
  · rfl
  · rfl
  · cases s.unlockedActions m <;> rfl

theorem step_stay (hth : s.threads[t]? = some th) {pc : Pc} (hstage : pc.stage = th.pc.stage) :
    Desk.Step s.desk (s.goto t pc).desk t := by
  refine step_quiet hth ?_ rfl rfl (fun _ hq => hq) rfl
  rw [hstage]
  exact .stay _

theorem step_claim (hth : s.threads[t]? = some th) (hin : th.pc.stage = .inside) {r : Role}
    (hr : s.status r = some .stopped) {pc : Pc} (hclaim : pc.stage = .claiming r) :
    Desk.Step s.desk (s.goto t pc).desk t := by
  refine .claim r ?_ hr ?_ rfl (fun q hq => ?_) rfl
  · rw [desk_stage, stage_of_thread hth, hin]
  · rw [← hclaim]
    exact goto_stage hth pc
  · rw [desk_free, goto_status] at hq
    exact hq

theorem step_depart (hth : s.threads[t]? = some th) {r : Role} (hin : th.pc.stage = .reserved r)
    {pc : Pc} (hout : pc.stage = .departed r) : Desk.Step s.desk (s.release t pc).desk t := by
  refine .depart r ?_ ?_ rfl (fun q hq => ?_) rfl
  · rw [desk_stage, stage_of_thread hth, hin]
  · rw [← hout]
    exact goto_stage (s := { s with lock := none }) hth pc
  · rw [release, desk_free, goto_status] at hq
    cases q <;> exact hq

theorem status_record (d : Deal Role Address) : (s.record d).status = s.status := by
  funext q
  cases q <;> rfl

theorem step_hand (hth : s.threads[t]? = some th) {r : Role} (hin : th.pc.stage = .reserved r)
    {pc : Pc} (hpc : pc.stage = .inside) (address : Address) :
    Desk.Step s.desk ((s.record (.handed r address)).goto t pc).desk t := by
  refine .hand r address ?_ ?_ rfl (fun q hq => ?_) rfl
  · rw [desk_stage, stage_of_thread hth, hin]
  · rw [← hpc]
    exact goto_stage (s := s.record (.handed r address)) hth pc
  · rwa [desk_free, goto_status, status_record] at hq

theorem step_handLate (hth : s.threads[t]? = some th) {r : Role}
    (hin : th.pc.stage = .departed r) {pc : Pc} (hpc : pc.stage = .outside) (address : Address) :
    Desk.Step s.desk ((s.record (.handed r address)).goto t pc).desk t := by
  refine .handLate r address ?_ ?_ rfl (fun q hq => ?_) rfl
  · rw [desk_stage, stage_of_thread hth, hin]
  · rw [← hpc]
    exact goto_stage (s := s.record (.handed r address)) hth pc
  · rwa [desk_free, goto_status, status_record] at hq

theorem step_scanEnb (hth : s.threads[t]? = some th) {i : Nat} (hpc : th.pc = .scanEnb i)
    (h : s.advance c t th.message (.scanEnb i) = some s') : Desk.Step s.desk s'.desk t := by
  have hin : th.pc.stage = .inside := by rw [hpc]; rfl
  rw [advance] at h
  split at h
  · cases h
    exact step_stay hth hin.symm
  · next e he =>
      split at h
      · next hfree =>
          cases h
          refine step_claim hth hin (r := .enb i) ?_ rfl
          rw [Controller.status, he, Option.map_some, hfree.1]
      · cases h
        exact step_stay hth hin.symm

theorem step_scanUe (hth : s.threads[t]? = some th) {i : Nat} (hpc : th.pc = .scanUe i)
    (h : s.advance c t th.message (.scanUe i) = some s') : Desk.Step s.desk s'.desk t := by
  have hin : th.pc.stage = .inside := by rw [hpc]; rfl
  rw [advance] at h
  split at h
  · cases h
    exact step_stay hth hin.symm
  · next u hu =>
      split at h
      · next hfree =>
          cases h
          refine step_claim hth hin (r := .ue i) ?_ rfl
          rw [Controller.status, hu, Option.map_some, hfree]
      · cases h
        exact step_stay hth hin.symm

theorem step_findEnb (hth : s.threads[t]? = some th) {u e : Nat} (hpc : th.pc = .findEnb u e)
    (h : s.advance c t th.message (.findEnb u e) = some s') : Desk.Step s.desk s'.desk t := by
  have hin : th.pc.stage = .departed (.ue u) := by rw [hpc]; rfl
  rw [advance] at h
  split at h
  · split at h
    · cases h
      exact step_stay hth hin.symm
    · cases h
      exact step_stay hth hin.symm
  · cases h
    exact step_quiet hth (.stuck _) rfl rfl (fun _ hq => hq) rfl

theorem step_waitEnb (hth : s.threads[t]? = some th) {u e : Nat} (hpc : th.pc = .waitEnb u e)
    (h : s.advance c t th.message (.waitEnb u e) = some s') : Desk.Step s.desk s'.desk t := by
  have hin : th.pc.stage = .departed (.ue u) := by rw [hpc]; rfl
  rw [advance] at h
  split at h
  · cases h
    exact step_stay hth hin.symm
  · cases h
    exact step_stay hth hin.symm

theorem step_addrEnb (hth : s.threads[t]? = some th) {i : Nat} (hpc : th.pc = .addrEnb i)
    (address : Address) : Desk.Step s.desk ((s.setEnbAddress i address).goto t .finish).desk t := by
  refine step_quiet hth ?_ rfl rfl (fun q hq => ?_) rfl
  · rw [hpc]
    exact .stay _
  · rwa [status_setEnbAddress] at hq

theorem step_noRole (hth : s.threads[t]? = some th) (hpc : th.pc = .noRole) (bytes : List UInt8)
    (address : Address) : Desk.Step s.desk ((s.sendto bytes address).goto t .done).desk t := by
  refine step_quiet hth ?_ rfl rfl (fun q hq => ?_) rfl
  · rw [hpc]
    exact .stay _
  · cases q <;> exact hq

theorem step_cpOnly (hth : s.threads[t]? = some th) (hpc : th.pc = .cpOnly) :
    Desk.Step s.desk (s.assignCpOnly c t th.message).desk t := by
  have hin : th.pc.stage = .inside := by rw [hpc]; rfl
  rw [assignCpOnly]
  split
  · refine step_quiet hth ?_ rfl rfl (fun q hq => ?_) rfl
    · rw [hin]
      exact .stay _
    · cases q <;> exact hq
  · exact step_stay hth hin.symm

theorem step_acting (hth : s.threads[t]? = some th) {actions : List Action}
    (hpc : th.pc = .acting actions) (h : s.advance c t th.message (.acting actions) = some s') :
    Desk.Step s.desk s'.desk t := by
  have hout : th.pc.stage = .outside := by rw [hpc]; rfl
  cases actions with
  | nil =>
      rw [advance] at h
      cases h
      exact step_stay hth hout.symm
  | cons a actions =>
      rw [advance] at h
      cases h
      refine step_quiet hth ?_ (act_threads _ a) (act_lock _ a) (fun q hq => free_act hq)
        (act_history _ a)
      rw [hout]
      exact .stay _

/-- A thread's action is one of the desk, provided that no error of a UE is processed while a
thread outside the lock has its role in hand. -/
theorem step_advance (hth : s.threads[t]? = some th)
    (hnone : ∀ i, th.pc = .stopUe i → ∀ u, s.stage u ≠ .departed (.ue i))
    (h : s.advance c t th.message th.pc = some s') : Desk.Step s.desk s'.desk t := by
  cases hpc : th.pc with
  | start =>
      rw [hpc, advance] at h
      cases h
      exact step_stay hth (by rw [stage_dispatch, hpc]; rfl)
  | acquireEnb =>
      rw [hpc, advance] at h
      exact step_acquire hth (by rw [hpc]; rfl) rfl h
  | scanEnb i =>
      rw [hpc] at h
      exact step_scanEnb hth hpc h
  | pendEnb i =>
      rw [hpc, advance] at h
      cases h
      refine step_pendEnb hth hpc ?_ ?_ ?_ ?_
      · split <;> rfl
      · split <;> rfl
      · split
        · funext q
          cases q <;> rfl
        · rfl
      · split <;> rfl
  | sendEnb i =>
      rw [hpc, advance] at h
      cases h
      exact step_hand hth (r := .enb i) (by rw [hpc]; rfl) rfl _
  | addrEnb i =>
      rw [hpc, advance] at h
      cases h
      exact step_addrEnb hth hpc _
  | releaseEnb =>
      rw [hpc, advance] at h
      cases h
      exact step_release hth (by rw [hpc]; rfl) rfl
  | acquireCp =>
      rw [hpc, advance] at h
      exact step_acquire hth (by rw [hpc]; rfl) rfl h
  | cpOnly =>
      rw [hpc, advance] at h
      cases h
      exact step_cpOnly hth hpc
  | releaseCp =>
      rw [hpc, advance] at h
      cases h
      exact step_release hth (by rw [hpc]; rfl) rfl
  | acquireUe =>
      rw [hpc, advance] at h
      exact step_acquire hth (by rw [hpc]; rfl) rfl h
  | scanUe i =>
      rw [hpc] at h
      exact step_scanUe hth hpc h
  | pendUe i =>
      rw [hpc, advance] at h
      cases h
      exact step_pendUe hth hpc
  | releaseUe i =>
      rw [hpc, advance] at h
      cases h
      exact step_depart hth (r := .ue i) (by rw [hpc]; rfl) rfl
  | findEnb u e =>
      rw [hpc] at h
      exact step_findEnb hth hpc h
  | waitEnb u e =>
      rw [hpc] at h
      exact step_waitEnb hth hpc h
  | sendUe u =>
      rw [hpc, advance] at h
      cases h
      exact step_handLate hth (r := .ue u) (by rw [hpc]; rfl) rfl _
  | releaseNone =>
      rw [hpc, advance] at h
      cases h
      exact step_release hth (by rw [hpc]; rfl) rfl
  | noRole =>
      rw [hpc, advance] at h
      cases h
      exact step_noRole hth hpc _ _
  | acquireError =>
      rw [hpc, advance] at h
      exact step_acquire hth (by rw [hpc]; rfl) rfl h
  | lookUp =>
      rw [hpc, advance] at h
      cases h
      exact step_lookUp hth hpc
  | stopEnb i =>
      rw [hpc, advance] at h
      cases h
      exact step_stopEnb hth hpc
  | stopUe i =>
      rw [hpc, advance] at h
      cases h
      exact step_stopUe hth hpc (hnone i hpc)
  | finish =>
      rw [hpc, advance] at h
      cases h
      exact step_release hth (by rw [hpc]; rfl) rfl
  | acting actions =>
      rw [hpc] at h
      exact step_acting hth hpc h
  | done =>
      rw [hpc, advance] at h
      cases h

end Actions

theorem stage_spawn (s : Controller) (m : Message) : (s.spawn m).stage = s.stage := by
  funext u
  rw [stage, stage, spawn]
  by_cases hu : u < s.threads.length
  · rw [List.getElem?_append_left hu]
  · rw [List.getElem?_append_right (Nat.le_of_not_lt hu),
      List.getElem?_eq_none (Nat.le_of_not_lt hu)]
    cases u - s.threads.length with
    | zero => rfl
    | succ n => rfl

theorem desk_spawn (s : Controller) (m : Message) : (s.spawn m).desk = s.desk := by
  have hstatus : (s.spawn m).status = s.status := by
    funext q
    cases q <;> rfl
  simp only [desk, stage_spawn, hstatus]
  rfl

/-- Every role has been sent to at most one slave since its last error message. -/
def ExclusiveRoles (s : Controller) : Prop := ∀ r, (receivers r s.history).length ≤ 1

end Controller

/-- A UE role that a thread has taken from the list and not sent yet. -/
def Pc.inHand : Pc → Option Nat
  | .findEnb u _ => some u
  | .waitEnb u _ => some u
  | .sendUe u => some u
  | _ => none

/-- The step processes no error of a UE whose role some thread has in hand. -/
def noneInHand (s : Controller) : Event → Bool
  | .datagram _ _ => true
  | .thread t =>
      match s.threads[t]?.map Thread.pc with
      | some (.stopUe i) => s.threads.all fun th => th.pc.inHand != some i
      | _ => true

theorem Pc.inHand_of_stage {pc : Pc} {i : Nat} (h : pc.stage = .departed (.ue i)) :
    pc.inHand = some i := by
  cases pc <;> simp_all [stage, inHand]

namespace Controller

variable {s s' : Controller} {c : Config}

theorem stage_ne_departed_of_noneInHand {t : Nat} {th : Thread} (hth : s.threads[t]? = some th)
    (h : noneInHand s (.thread t)) (i : Nat) (hpc : th.pc = .stopUe i) (u : Nat) :
    s.stage u ≠ .departed (.ue i) := by
  intro hu
  rw [noneInHand, hth, Option.map_some, hpc] at h
  rw [stage] at hu
  cases hv : s.threads[u]? with
  | none =>
      rw [hv] at hu
      cases hu
  | some th' =>
      rw [hv] at hu
      have hne := List.all_eq_true.mp h th' (List.mem_of_getElem? hv)
      rw [Pc.inHand_of_stage hu] at hne
      simp at hne

theorem exclusive_step (h : s.desk.Exclusive) {e : Event} (hok : noneInHand s e)
    (hstep : step c s e = some s') : s'.desk.Exclusive := by
  cases e with
  | datagram data address =>
      rw [step] at hstep
      split at hstep
      · split at hstep
        · cases hstep
          exact h
        · cases hstep
          exact h
        · cases hstep
          rw [desk_spawn]
          exact h
      · cases hstep
  | thread t =>
      rw [step] at hstep
      split at hstep
      · cases hstep
      · next th hth =>
          exact h.step (step_advance hth (stage_ne_departed_of_noneInHand hth hok) hstep)

/-- In every run in which no error of a UE is processed while a thread has its role in hand, each
role is sent to at most one slave between two errors. -/
theorem exclusiveRoles_of_run {enbs : List EnbEntry} {ues : List UeEntry}
    (hrun : Run (step c) (fun s e => noneInHand s e) (initial enbs ues) s) : s.ExclusiveRoles := by
  have hinitial : (initial enbs ues).desk.Exclusive := by
    refine .initial ?_ rfl
    intro t
    rfl
  have hexclusive : s.desk.Exclusive :=
    hrun.invariant (fun _ _ _ h hok hstep => exclusive_step h hok hstep) hinitial
  exact hexclusive.once

def times (n t : Nat) : List Event := List.replicate n (.thread t)

def slave (n : Nat) : Address := ⟨UInt32.ofNat n, 5000⟩

def newSlave (n : Nat) : Event := .datagram [0xFF, 10, 0, 0, 1] (slave n)

/-- Slave 1 becomes the eNB and reports it, slave 2 becomes the UE, fails and is replaced by
slave 3. -/
def replacement : List Event :=
  [newSlave 1] ++ times 7 0 ++ [.datagram [0x81, 0, 0xE0, 0, 0] (slave 1)] ++ times 4 1 ++
  [newSlave 2] ++ times 15 2 ++ [.datagram [0x02, 0, 0, 0, 0] (slave 2)] ++ times 5 3 ++
  [newSlave 3] ++ times 15 4

/-- The UE role is taken by the thread of slave 2, which waits for the eNB. An error of the UE
makes the role free, the thread of slave 3 takes it too, and both send it. -/
def doubleAssignment : List Event :=
  [newSlave 1] ++ times 7 0 ++ [newSlave 2] ++ times 13 1 ++
  [.datagram [0x02, 0, 0, 0, 0] (slave 4)] ++ times 5 2 ++ [newSlave 3] ++ times 13 3 ++
  [.datagram [0x81, 0, 0xE0, 0, 0] (slave 1)] ++ times 4 4 ++ times 2 1 ++ times 2 3

def smallNetwork : Controller :=
  initial [⟨0, .stopped, none⟩] [⟨0, 0, .stopped, none⟩]

theorem exclusiveRoles_replacement : ∃ s,
    Run (step ⟨false, 1, false⟩) (fun s e => noneInHand s e) smallNetwork s ∧
    receivers (.ue 0) s.history = [slave 3] ∧ s.ExclusiveRoles := by
  have hsome : (replacement.foldlM (fun s e =>
      if noneInHand s e then step ⟨false, 1, false⟩ s e else none) smallNetwork).any
        (fun s => receivers (.ue 0) s.history = [slave 3]) := by decide +kernel
  obtain ⟨s, hs, hrole⟩ := (Option.any_eq_true _ _).mp hsome
  have hrun : Run _ (fun s e => noneInHand s e) _ s := Run.of_checked noneInHand (fun _ _ h => h) hs
  exact ⟨s, hrun, of_decide_eq_true hrole, exclusiveRoles_of_run hrun⟩

theorem not_exclusiveRoles_doubleAssignment : ∃ s, Run (step ⟨false, 1, false⟩) Unguarded
    smallNetwork s ∧ receivers (.ue 0) s.history = [slave 3, slave 2] ∧ ¬s.ExclusiveRoles := by
  have hsome : (doubleAssignment.foldlM (step ⟨false, 1, false⟩) smallNetwork).any
      (fun s => receivers (.ue 0) s.history = [slave 3, slave 2]) := by decide +kernel
  obtain ⟨s, hs, hrole⟩ := (Option.any_eq_true _ _).mp hsome
  have hreceivers := of_decide_eq_true hrole
  refine ⟨s, Run.of_foldlM (fun _ _ _ => trivial) hs, hreceivers, ?_⟩
  intro h
  have hone := h (.ue 0)
  rw [hreceivers] at hone
  exact absurd hone (by decide)

end Controller

end PublicCloudCore.RanController
