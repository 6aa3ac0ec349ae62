import PublicCloudCore.Frontend.Routing

/-!
# The downlink threads that are left

Every downlink thread reads the one UDP socket, and ends with the first `sctp_sendmsg` that fails,
whichever eNB it was for. As long as none fails, every eNB that is connected has its thread.
-/

namespace PublicCloudCore.Frontend

open Framework

/-- The eNB has been accepted and got past the creation of its downlink thread, and its association
is still up. -/
def State.Connected (s : State) (k : Nat) : Prop :=
  (∃ fd, s.descriptors.lookup fd = some (.association k)) ∧ k ∉ s.gone ∧
    ∀ fd, s.acceptLoop ≠ .accepted fd k

/-- Somebody reads the UDP socket when there is an eNB. -/
def State.DownlinkServed (s : State) : Prop :=
  (∃ k, s.Connected k) → ∃ j, (s.downlink j).isSome

/-- No `sctp_sendmsg` of a downlink thread fails. -/
def SendSucceeds (_ : State) (e : Event) : Prop :=
  ∀ k, e ≠ .downlinkSendmsg k false

structure State.ThreadAlive (s : State) : Prop where
  downlink : ∀ k, s.Connected k → (s.downlink k).isSome
  -- an uplink thread behind its loop has seen its eNB leave
  left : ∀ k th, s.uplink k = some th → th.stage = .disconnected ∨ th.stage = .cancelled →
    k ∈ s.gone
  replies : ∀ m ∈ s.toFrontend, m.bytes ≠ []

namespace State

variable {is5g : Bool} {s s' : State} {e : Event} {k : Nat}

theorem replies_ne_nil {m : Datagram} {responses : List (UInt8 × List UInt8)} :
    ∀ m' ∈ replies m responses, m'.bytes ≠ [] := by
  intro m' hm'
  obtain ⟨r, _, hr⟩ := List.mem_flatMap.mp hm'
  obtain ⟨bytes, hbytes, rfl⟩ := List.mem_map.mp hr
  rw [sendto] at hbytes
  split at hbytes
  · rw [List.mem_singleton.mp hbytes]
    simp [responseOut]
  · cases hbytes

/-- An eNB that is connected after a step was connected before it, or has just got its thread. -/
theorem Connected.of_step (hc : s.Consistent) (hstep : State.step is5g s e = some s')
    (hk : s'.Connected k) : s.Connected k ∨ s'.downlink k = some .receiving := by
  obtain ⟨⟨fd, hlookup⟩, hgone, hloop'⟩ := hk
  have hsame : s'.descriptors = s.descriptors → s'.acceptLoop = s.acceptLoop →
      (∀ j ∈ s.gone, j ∈ s'.gone) → s.Connected k := by
    intro hd hl hg
    rw [hd] at hlookup
    rw [hl] at hloop'
    exact ⟨⟨fd, hlookup⟩, fun hk => hgone (hg k hk), hloop'⟩
  -- the accept loop closes the descriptor of another eNB
  have hclose : ∀ fd' j, s.acceptLoop.Starting fd' j →
      s'.descriptors = s.descriptors.release fd' → s'.gone = s.gone → s.Connected k := by
    intro fd' j hstart hd hg
    rw [hd] at hlookup
    obtain ⟨hne, hold⟩ := SlotTable.lookup_release_eq_some_iff.mp hlookup
    rw [hg] at hgone
    refine ⟨⟨fd, hold⟩, hgone, ?_⟩
    intro fd'' haccepted
    have hk := (hc.starting fd'' k (Or.inl haccepted)).1
    have hfd := hc.single fd fd'' k hold hk
    cases hstart with
    | inl hstart =>
        rw [haccepted] at hstart
        cases hstart
        exact hne hfd
    | inr hstart =>
        rw [haccepted] at hstart
        cases hstart
  have hrelease : ∀ fd', s'.descriptors = s.descriptors.release fd' →
      s'.acceptLoop = s.acceptLoop → s'.gone = s.gone → s.Connected k := by
    intro fd' hd hl hg
    rw [hd] at hlookup
    rw [hl] at hloop'
    rw [hg] at hgone
    exact ⟨⟨fd, (SlotTable.lookup_release_eq_some_iff.mp hlookup).2⟩, hgone, hloop'⟩
  cases step_cases hstep with
  | accept hloop hfree =>
      cases SlotTable.lookup_install_eq_some_iff.mp hlookup with
      | inl hnew =>
          cases hnew.2
          exact absurd rfl (hloop' _)
      | inr hold =>
          refine Or.inl ⟨⟨fd, hold⟩, hgone, ?_⟩
          intro fd' haccepted
          rw [hloop] at haccepted
          cases haccepted
  | @createDownlink fd' j hloop =>
      by_cases hkj : k = j
      · exact Or.inr (if_pos hkj)
      · refine Or.inl ⟨⟨fd, hlookup⟩, hgone, ?_⟩
        intro fd'' haccepted
        rw [hloop] at haccepted
        cases haccepted
        exact hkj rfl
  | noDownlinkArgs hloop => exact Or.inl (hclose _ _ (Or.inl hloop) rfl rfl)
  | noDownlinkThread hloop => cases hlookup
  | createUplink hloop =>
      refine Or.inl ⟨⟨fd, hlookup⟩, hgone, ?_⟩
      intro fd' haccepted
      rw [hloop] at haccepted
      cases haccepted
  | noUplinkArgs hloop => exact Or.inl (hclose _ _ (Or.inr hloop) rfl rfl)
  | noUplinkThread hloop => exact Or.inl (hclose _ _ (Or.inr hloop) rfl rfl)
  | leave hk => exact Or.inl (hsame rfl rfl fun j hj => List.mem_cons_of_mem _ hj)
  | uplinkSocket hth hfree =>
      cases SlotTable.lookup_install_eq_some_iff.mp hlookup with
      | inl hnew => cases hnew.2
      | inr hold => exact Or.inl ⟨⟨fd, hold⟩, hgone, hloop'⟩
  | uplinkCloseTmp hth => exact Or.inl (hrelease _ rfl rfl rfl)
  | uplinkClose hth => exact Or.inl (hrelease _ rfl rfl rfl)
  | uplinkDisconnected hth =>
      exact Or.inl (hsame rfl rfl fun j hj => List.mem_append_right _ hj)
  | uplinkRecvmsg hth henb => exact Or.inl (hsame rfl rfl fun _ hj => hj)
  | noUplinkSocket hth => exact Or.inl (hsame rfl rfl fun _ hj => hj)
  | uplinkSendto hth => exact Or.inl (hsame rfl rfl fun _ hj => hj)
  | uplinkCancel hth => exact Or.inl (hsame rfl rfl fun _ hj => hj)
  | processMessage hm => exact Or.inl (hsame rfl rfl fun _ hj => hj)
  | downlinkRecv hth hm hstage => exact Or.inl (hsame rfl rfl fun _ hj => hj)
  | downlinkSendmsg hth hstage => exact Or.inl (hsame rfl rfl fun _ hj => hj)

theorem isSome_setDownlink {j : Nat} {stage : Option DownlinkStage}
    (h : (s.downlink k).isSome) (hstage : j = k → stage.isSome) :
    ((s.setDownlink j stage).downlink k).isSome := by
  by_cases hkj : k = j
  · have hsame : (s.setDownlink j stage).downlink k = stage := if_pos hkj
    rw [hsame]
    exact hstage hkj.symm
  · have hother : (s.setDownlink j stage).downlink k = s.downlink k := if_neg hkj
    rwa [hother]

theorem ThreadAlive.isSome_step (h : s.ThreadAlive) (hc : s.Consistent) (hok : SendSucceeds s e)
    (hstep : State.step is5g s e = some s') (hk : s'.Connected k) (halive : (s.downlink k).isSome) :
    (s'.downlink k).isSome := by
  cases step_cases hstep with
  | createDownlink hloop => exact isSome_setDownlink halive fun _ => rfl
  | noDownlinkThread hloop =>
      obtain ⟨⟨fd, hlookup⟩, _⟩ := hk
      cases hlookup
  | @noUplinkArgs fd j hloop =>
      apply isSome_setDownlink (s := s.close fd) halive
      intro hjk
      -- the descriptor of this eNB has just been closed
      obtain ⟨⟨fd', hlookup⟩, _⟩ := hk
      obtain ⟨hne, hold⟩ := SlotTable.lookup_release_eq_some_iff.mp hlookup
      rw [← hjk] at hold
      exact absurd (hc.single fd' fd j hold (hc.starting fd j (Or.inr hloop)).1) hne
  | @uplinkCancel j fd d hth =>
      apply isSome_setDownlink halive
      intro hdk
      have hd : d = j := (hc.uplink j _ hth).downlink
      have hgone := h.left j _ hth (Or.inl rfl)
      rw [← hd, hdk] at hgone
      exact absurd hgone hk.2.1
  | @downlinkRecv j i m hth hm stage hstage =>
      apply isSome_setDownlink halive
      intro _
      have hne : udpRead downlinkBufferLen m.bytes ≠ [] := by
        have hbytes := h.replies m (List.mem_of_getElem? hm)
        rw [udpRead, ne_eq, List.take_eq_nil_iff]
        exact not_or.mpr ⟨by decide, hbytes⟩
      rw [hstage, if_neg hne]
      rfl
  | @downlinkSendmsg j m succeeds stage hth hstage =>
      apply isSome_setDownlink halive
      intro _
      cases succeeds with
      | true =>
          rw [hstage]
          rfl
      | false => exact absurd rfl (hok j)
  | _ => exact halive

theorem ThreadAlive.left_setUplink (h : s.ThreadAlive) {j : Nat} {th : Option UplinkThread}
    {gone : List Nat} (hgone : ∀ i ∈ s.gone, i ∈ gone)
    (hth : ∀ th', th = some th' → th'.stage = .disconnected ∨ th'.stage = .cancelled → j ∈ gone) :
    ∀ k th', (s.setUplink j th).uplink k = some th' →
      th'.stage = .disconnected ∨ th'.stage = .cancelled → k ∈ gone :=
  setUplink_cases (P := fun k th' => th'.stage = .disconnected ∨ th'.stage = .cancelled → k ∈ gone)
    hth fun k th' hk _ hstage => hgone k (h.left k th' hk hstage)

theorem ThreadAlive.step (h : s.ThreadAlive) (hc : s.Consistent) (hok : SendSucceeds s e)
    (hstep : State.step is5g s e = some s') : s'.ThreadAlive where
  downlink k hk := by
    cases hk.of_step hc hstep with
    | inl hbefore => exact h.isSome_step hc hok hstep hk (h.downlink k hbefore)
    | inr hnew =>
        rw [hnew]
        rfl
  left := by
    have hmove : ∀ {j : Nat} {fd d : Nat} {stage : UplinkStage}, stage ≠ .disconnected →
        stage ≠ .cancelled → ∀ k th', (s.setUplink j (some ⟨fd, d, stage⟩)).uplink k = some th' →
        th'.stage = .disconnected ∨ th'.stage = .cancelled → k ∈ s.gone := by
      intro j fd d stage hne hne'
      apply h.left_setUplink (fun _ hi => hi)
      intro th' hth' hstage
      cases hth'
      cases hstage with
      | inl hstage => exact absurd hstage hne
      | inr hstage => exact absurd hstage hne'
    cases step_cases hstep with
    | noDownlinkThread hloop => exact fun k th hth => by cases hth
    | leave hk => exact fun k th hth hstage => List.mem_cons_of_mem _ (h.left k th hth hstage)
    | createUplink hloop => exact hmove nofun nofun
    | uplinkRecvmsg hth henb => exact hmove nofun nofun
    | uplinkSocket hth hfree => exact hmove nofun nofun
    | noUplinkSocket hth => exact h.left_setUplink (fun _ hi => hi) nofun
    | uplinkSendto hth => exact hmove nofun nofun
    | uplinkCloseTmp hth => exact hmove nofun nofun
    | @uplinkDisconnected j fd d hth =>
        apply h.left_setUplink (fun _ hi => List.mem_append_right _ hi)
        intro _ _ _
        have henb : s.enbAt fd = some j :=
          enbAt_natCast_eq_some_iff.mpr (hc.uplink j _ hth).association
        rw [henb]
        exact List.mem_cons_self
    | @uplinkCancel j fd d hth =>
        apply h.left_setUplink (fun _ hi => hi)
        intro _ _ _
        exact h.left j _ hth (Or.inl rfl)
    | uplinkClose hth => exact h.left_setUplink (fun _ hi => hi) nofun
    | _ => exact h.left
  replies := by
    cases step_cases hstep with
    | processMessage hm =>
        intro m hm
        cases List.mem_append.mp hm with
        | inl hold => exact h.replies m hold
        | inr hnew => exact replies_ne_nil m hnew
    | downlinkRecv hth hm hstage =>
        exact fun m hm => h.replies m (List.mem_of_mem_eraseIdx hm)
    | _ => exact h.replies

theorem threadAlive_initial : initial.ThreadAlive where
  downlink k hk := by
    obtain ⟨⟨fd, hlookup⟩, _⟩ := hk
    exact absurd (consistent_initial.counted fd k hlookup) (Nat.not_lt_zero k)
  left k th hth := by cases hth
  replies m hm := by cases hm

/-- Downlink goes on in the runs in which no `sctp_sendmsg` fails. -/
theorem downlinkServed_of_sends (hrun : Run (State.step is5g) SendSucceeds initial s) :
    s.DownlinkServed := by
  have hinv : s.Consistent ∧ s.ThreadAlive := by
    refine hrun.invariant (I := fun s => s.Consistent ∧ s.ThreadAlive) ?_
      ⟨consistent_initial, threadAlive_initial⟩
    intro t e t' ⟨hc, ha⟩ hok hstep
    exact ⟨hc.step hstep, ha.step hc hok hstep⟩
  intro ⟨k, hk⟩
  exact ⟨k, hinv.2.downlink k hk⟩

/-- Two eNBs, a reply that the thread of the second sends to the first, and the first leaves. -/
def twoEnbs : List Event := connect ++ connect ++ exchange 0 ++ deliver 1 ++ disconnect 0

theorem downlinkServed_twoEnbs : ∃ s, Run (State.step true) SendSucceeds initial s ∧
    s.sendings = [⟨0, 0⟩] ∧ s.gone = [0] ∧ s.Connected 1 ∧ s.DownlinkServed := by
  have hok : ∀ e ∈ twoEnbs, ∀ s, SendSucceeds s e := by
    intro e he s k hfails
    rw [hfails] at he
    exact absurd he (by simp [twoEnbs, connect, exchange, deliver, disconnect])
  obtain ⟨s, hs⟩ : ∃ s, twoEnbs.foldlM (State.step true) initial = some s := ⟨_, rfl⟩
  have hrun := Run.of_foldlM hok hs
  have hsent : s.sendings = [⟨0, 0⟩] ∧ s.gone = [0] := by
    cases hs
    decide +kernel
  have hconnected : s.Connected 1 := by
    refine ⟨⟨6, ?_⟩, ?_, fun fd h => ?_⟩
    · cases hs
      rfl
    · rw [hsent.2]
      decide
    · cases hs
      cases h
  exact ⟨s, hrun, hsent.1, hsent.2, hconnected, downlinkServed_of_sends hrun⟩

/-- The reply for an eNB that has left reaches the downlink thread of the other one. -/
def lateReply : List Event :=
  connect ++ exchange 0 ++ connect ++ disconnect 0 ++ [.downlinkRecv 1 0, .downlinkSendmsg 1 false]

theorem not_downlinkServed_of_unguarded :
    ¬ ∀ (is5g : Bool) (s : State), Run (State.step is5g) Unguarded initial s →
      s.DownlinkServed := by
  intro h
  obtain ⟨s, hs⟩ : ∃ s, lateReply.foldlM (State.step true) initial = some s := ⟨_, rfl⟩
  have hconnected : s.Connected 1 := by
    cases hs
    exact ⟨⟨6, rfl⟩, by decide, fun fd h => by cases h⟩
  have hnone : ∀ j, s.downlink j = none := by
    intro j
    cases hs
    by_cases hone : j = 1
    · exact if_pos hone
    by_cases hzero : j = 0
    · exact (if_neg hone).trans ((if_neg hone).trans (if_pos hzero))
    · exact (if_neg hone).trans ((if_neg hone).trans ((if_neg hzero).trans
        ((if_neg hone).trans (if_neg hzero))))
  obtain ⟨j, hj⟩ := h true s (Run.of_foldlM (fun _ _ _ => trivial) hs) ⟨1, hconnected⟩
  rw [hnone j] at hj
  cases hj

end State

end PublicCloudCore.Frontend
