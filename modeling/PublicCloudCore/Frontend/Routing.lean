import PublicCloudCore.Frontend.Threads

/-!
# The way back to the eNB

A reply finds its eNB by the descriptor in its first four bytes. It finds the right one as long as
no descriptor is handed out again while a datagram with that descriptor is on its way.
-/

namespace PublicCloudCore.Frontend

open Framework

/-- The datagrams between the uplink and the downlink threads. -/
def State.InFlight (s : State) (m : Datagram) : Prop :=
  m ∈ s.toWorker ∨ m ∈ s.toFrontend ∨ ∃ k, s.downlink k = some (.sending m)

/-- Every `sctp_sendmsg` so far has used the association that the message had come from. -/
def State.RoutedBack (s : State) : Prop :=
  ∀ x ∈ s.sendings, x.association = x.origin

/-- A new eNB does not get the descriptor of a datagram that is on its way. -/
def FreshDescriptor (s : State) (e : Event) : Prop :=
  e = .accept → ∀ m, s.InFlight m → arrayToInt m.bytes ≠ s.descriptors.lowestFree

/-- The descriptor of the datagram is the right association, or none. -/
structure State.Routes (s : State) (m : Datagram) : Prop where
  tagged : 4 ≤ m.bytes.length
  enbAt : ∀ k, s.enbAt (arrayToInt m.bytes) = some k → k = m.origin

structure State.Routing (s : State) : Prop where
  inFlight : ∀ m, s.InFlight m → s.Routes m
  routedBack : s.RoutedBack

namespace State

variable {is5g : Bool} {s s' : State} {e : Event} {m : Datagram}

/-- What a step does to the associations. -/
theorem enbAt_of_step (h : step is5g s e = some s') {fd : Int} {k : Nat}
    (hk : s'.enbAt fd = some k) :
    s.enbAt fd = some k ∨ e = .accept ∧ fd = s.descriptors.lowestFree := by
  obtain ⟨hpos, hlookup⟩ := enbAt_eq_some_iff.mp hk
  have hsame : s'.descriptors = s.descriptors → s.enbAt fd = some k := by
    intro hd
    rw [hd] at hlookup
    exact enbAt_eq_some_iff.mpr ⟨hpos, hlookup⟩
  have hrelease : ∀ fd', s'.descriptors = s.descriptors.release fd' → s.enbAt fd = some k := by
    intro fd' hd
    rw [hd] at hlookup
    exact enbAt_eq_some_iff.mpr ⟨hpos, (SlotTable.lookup_release_eq_some_iff.mp hlookup).2⟩
  cases step_cases h with
  | accept hloop hfree =>
      cases SlotTable.lookup_install_eq_some_iff.mp hlookup with
      | inl hnew => exact Or.inr ⟨rfl, by omega⟩
      | inr hold => exact Or.inl (enbAt_eq_some_iff.mpr ⟨hpos, hold⟩)
  | uplinkSocket hth hfree =>
      cases SlotTable.lookup_install_eq_some_iff.mp hlookup with
      | inl hnew => cases hnew.2
      | inr hold => exact Or.inl (enbAt_eq_some_iff.mpr ⟨hpos, hold⟩)
  | noDownlinkThread hloop => cases hlookup
  | noDownlinkArgs hloop => exact Or.inl (hrelease _ rfl)
  | noUplinkArgs hloop => exact Or.inl (hrelease _ rfl)
  | noUplinkThread hloop => exact Or.inl (hrelease _ rfl)
  | uplinkCloseTmp hth => exact Or.inl (hrelease _ rfl)
  | uplinkClose hth => exact Or.inl (hrelease _ rfl)
  | createDownlink hloop => exact Or.inl (hsame rfl)
  | createUplink hloop => exact Or.inl (hsame rfl)
  | leave hk => exact Or.inl (hsame rfl)
  | uplinkRecvmsg hth henb => exact Or.inl (hsame rfl)
  | noUplinkSocket hth => exact Or.inl (hsame rfl)
  | uplinkSendto hth => exact Or.inl (hsame rfl)
  | uplinkDisconnected hth => exact Or.inl (hsame rfl)
  | uplinkCancel hth => exact Or.inl (hsame rfl)
  | processMessage hm => exact Or.inl (hsame rfl)
  | downlinkRecv hth hm hstage => exact Or.inl (hsame rfl)
  | downlinkSendmsg hth hstage => exact Or.inl (hsame rfl)

theorem Routes.congr {m' : Datagram} (h : s.Routes m) (hlength : 4 ≤ m'.bytes.length)
    (htag : arrayToInt m'.bytes = arrayToInt m.bytes) (horigin : m'.origin = m.origin) :
    s.Routes m' where
  tagged := hlength
  enbAt k hk := by
    rw [htag] at hk
    rw [horigin]
    exact h.enbAt k hk

theorem Routes.udpRead (h : s.Routes m) (size : Nat) (hsize : 4 ≤ size) :
    s.Routes ⟨udpRead size m.bytes, m.origin⟩ := by
  refine h.congr ?_ ?_ rfl
  · rw [Framework.udpRead, List.length_take]
    have htagged := h.tagged
    omega
  · rw [← arrayToInt_take, ← arrayToInt_take m.bytes, Framework.udpRead, List.take_take,
      Nat.min_eq_left hsize]

theorem Routes.replies (h : s.Routes m) (responses : List (UInt8 × List UInt8)) :
    ∀ m' ∈ replies m responses, s.Routes m' := by
  intro m' hm'
  obtain ⟨r, _, hr⟩ := List.mem_flatMap.mp hm'
  obtain ⟨bytes, hbytes, rfl⟩ := List.mem_map.mp hr
  have hread := h.udpRead workerBufferLen (by decide)
  rw [sendto] at hbytes
  split at hbytes
  · rw [List.mem_singleton.mp hbytes]
    refine hread.congr ?_ (arrayToInt_responseOut hread.tagged _ _) rfl
    have htagged := hread.tagged
    rw [responseOut, List.length_append, List.length_take]
    simp only at htagged
    omega
  · cases hbytes

theorem Consistent.routes (h : s.Consistent) {k fd d tmp : Nat}
    (hth : s.uplink k = some ⟨fd, d, .bound tmp m⟩) : s.Routes m := by
  have hold := h.uplink k _ hth
  have hassoc : s.descriptors.lookup fd = some (.association k) := hold.association
  have hfd := h.int fd _ hassoc
  have hof : m.IsOf fd k := hold.stage.2
  obtain ⟨message, hbytes⟩ := hof.bytes
  have htag : arrayToInt m.bytes = fd := by
    rw [hbytes]
    apply arrayToInt_intToArray_append
    constructor <;> omega
  constructor
  · rw [hbytes, List.length_append, length_intToArray]
    omega
  · intro j hj
    rw [htag, enbAt_natCast_eq_some_iff, hassoc] at hj
    cases hj
    exact hof.origin.symm

theorem InFlight.mono (hm : s'.InFlight m) (hw : ∀ m ∈ s'.toWorker, m ∈ s.toWorker)
    (hf : ∀ m ∈ s'.toFrontend, m ∈ s.toFrontend)
    (hd : ∀ k, s'.downlink k = some (.sending m) → s.downlink k = some (.sending m)) :
    s.InFlight m := by
  rcases hm with hm | hm | ⟨k, hm⟩
  · exact Or.inl (hw m hm)
  · exact Or.inr (Or.inl (hf m hm))
  · exact Or.inr (Or.inr ⟨k, hd k hm⟩)

theorem downlink_setDownlink {j : Nat} {stage : Option DownlinkStage}
    (hstage : stage ≠ some (.sending m)) (k : Nat)
    (h : (s.setDownlink j stage).downlink k = some (.sending m)) :
    s.downlink k = some (.sending m) := by
  by_cases hkj : k = j
  · have hsame : (s.setDownlink j stage).downlink k = stage := if_pos hkj
    exact absurd (hsame.symm.trans h) hstage
  · have hother : (s.setDownlink j stage).downlink k = s.downlink k := if_neg hkj
    rwa [hother] at h

/-- Where a datagram in flight after a step comes from. -/
theorem Routing.inFlight_step (h : s.Routing) (hc : s.Consistent)
    (hstep : State.step is5g s e = some s') (hm : s'.InFlight m) :
    s.Routes m ∧ (e = .accept → s.InFlight m) := by
  have hold : s.InFlight m → s.Routes m ∧ (e = .accept → s.InFlight m) := by
    intro hm
    exact ⟨h.inFlight m hm, fun _ => hm⟩
  cases step_cases hstep with
  | accept hloop hfree => exact hold hm
  | noDownlinkArgs hloop => exact hold hm
  | createUplink hloop => exact hold hm
  | noUplinkThread hloop => exact hold hm
  | leave hk => exact hold hm
  | uplinkRecvmsg hth henb => exact hold hm
  | uplinkSocket hth hfree => exact hold hm
  | noUplinkSocket hth => exact hold hm
  | uplinkCloseTmp hth => exact hold hm
  | uplinkDisconnected hth => exact hold hm
  | uplinkClose hth => exact hold hm
  | createDownlink hloop =>
      exact hold (hm.mono (fun _ h => h) (fun _ h => h) (downlink_setDownlink nofun))
  | noDownlinkThread hloop =>
      exact hold (hm.mono (fun _ h => h) (fun _ h => h) fun _ hk => by cases hk)
  | noUplinkArgs hloop =>
      exact hold (hm.mono (fun _ h => h) (fun _ h => h) (downlink_setDownlink nofun))
  | uplinkCancel hth =>
      exact hold (hm.mono (fun _ h => h) (fun _ h => h) (downlink_setDownlink nofun))
  | uplinkSendto hth =>
      rcases hm with hm | hm | hm
      · rcases List.mem_append.mp hm with hm | hm
        · exact hold (Or.inl hm)
        · rw [List.mem_singleton.mp hm]
          exact ⟨hc.routes hth, nofun⟩
      · exact hold (Or.inr (Or.inl hm))
      · exact hold (Or.inr (Or.inr hm))
  | processMessage hmem =>
      rcases hm with hm | hm | hm
      · exact hold (Or.inl (List.mem_of_mem_eraseIdx hm))
      · rcases List.mem_append.mp hm with hm | hm
        · exact hold (Or.inr (Or.inl hm))
        · have hroutes := h.inFlight _ (Or.inl (List.mem_of_getElem? hmem))
          exact ⟨hroutes.replies _ m hm, nofun⟩
      · exact hold (Or.inr (Or.inr hm))
  | @downlinkRecv k i m₀ hth hmem stage hstage =>
      rcases hm with hm | hm | ⟨j, hm⟩
      · exact hold (Or.inl hm)
      · exact hold (Or.inr (Or.inl (List.mem_of_mem_eraseIdx hm)))
      · by_cases hread : stage = some (.sending m)
        · rw [hread] at hstage
          split at hstage
          · cases hstage
          · cases hstage
            have hroutes := h.inFlight m₀ (Or.inr (Or.inl (List.mem_of_getElem? hmem)))
            exact ⟨hroutes.udpRead _ (by decide), nofun⟩
        · exact hold (Or.inr (Or.inr ⟨j, downlink_setDownlink hread j hm⟩))
  | @downlinkSendmsg k m₀ succeeds stage hth hstage =>
      refine hold (hm.mono (fun _ h => h) (fun _ h => h) (downlink_setDownlink ?_))
      rw [hstage]
      split <;> exact nofun

/-- A call of `sctp_sendmsg` is for a datagram in flight. -/
theorem Routing.routedBack_step (h : s.Routing) (hstep : State.step is5g s e = some s') :
    s'.RoutedBack := by
  cases step_cases hstep with
  | @downlinkSendmsg k m succeeds stage hth hstage =>
      intro x hx
      rcases List.mem_append.mp hx with hx | hx
      · exact h.routedBack x hx
      · obtain ⟨enb, henb, rfl⟩ := Option.map_eq_some_iff.mp (Option.mem_toList.mp hx)
        exact (h.inFlight m (Or.inr (Or.inr ⟨k, hth⟩))).enbAt enb henb
  | _ => exact h.routedBack

theorem Routing.step (h : s.Routing) (hc : s.Consistent) (hok : FreshDescriptor s e)
    (hstep : State.step is5g s e = some s') : s'.Routing where
  inFlight m hm := by
    obtain ⟨hroutes, hbefore⟩ := h.inFlight_step hc hstep hm
    refine ⟨hroutes.tagged, fun k hk => ?_⟩
    cases enbAt_of_step hstep hk with
    | inl hold => exact hroutes.enbAt k hold
    | inr hnew => exact absurd hnew.2 (hok hnew.1 m (hbefore hnew.1))
  routedBack := h.routedBack_step hstep

theorem routing_initial : initial.Routing where
  inFlight m hm := by
    rcases hm with hm | hm | ⟨k, hm⟩ <;> cases hm
  routedBack x hx := by cases hx

/-- No reply is sent to another eNB in the runs that hand out fresh descriptors. -/
theorem routedBack_of_fresh (hrun : Run (State.step is5g) FreshDescriptor initial s) :
    s.RoutedBack := by
  have hinv : s.Consistent ∧ s.Routing := by
    refine hrun.invariant (I := fun s => s.Consistent ∧ s.Routing) ?_
      ⟨consistent_initial, routing_initial⟩
    intro t e t' ⟨hc, hr⟩ hok hstep
    exact ⟨hc.step hstep, hr.step hc hok hstep⟩
  exact hinv.2.routedBack

def connect : List Event := [.accept, .createDownlink .created, .createUplink .created]

def exchange (enb : Nat) : List Event :=
  [.uplinkRecvmsg enb [0], .uplinkSocket enb true, .uplinkSendto enb, .uplinkCloseTmp enb,
    .processMessage 0 [(1, [0])]]

def disconnect (enb : Nat) : List Event :=
  [.uplinkDisconnected enb, .uplinkCancel enb, .uplinkClose enb]

def deliver (enb : Nat) : List Event := [.downlinkRecv enb 0, .downlinkSendmsg enb true]

theorem exists_run_of_sendings {ok : State → Event → Prop} {events : List Event}
    {sendings : List Sending} (hok : ∀ e ∈ events, ∀ s, ok s e)
    (h : (events.foldlM (State.step is5g) s).map State.sendings = some sendings) :
    ∃ s', Run (State.step is5g) ok s s' ∧ s'.sendings = sendings := by
  obtain ⟨s', hs', hsendings⟩ := Option.map_eq_some_iff.mp h
  exact ⟨s', Run.of_foldlM hok hs', hsendings⟩

/-- With no datagram between the threads any descriptor is fresh. -/
theorem freshDescriptor_of_quiet (hw : s.toWorker = []) (hf : s.toFrontend = [])
    (hd : ∀ k m, s.downlink k ≠ some (.sending m)) (e : Event) : FreshDescriptor s e := by
  intro _ m hm
  rcases hm with hm | hm | ⟨k, hm⟩
  · rw [hw] at hm
    cases hm
  · rw [hf] at hm
    cases hm
  · exact absurd hm (hd k m)

/-- Two eNBs get the replies to their messages, each through the other's downlink thread. -/
theorem routedBack_twoEnbs : ∃ s, Run (State.step true) FreshDescriptor initial s ∧
    s.sendings = [⟨0, 0⟩, ⟨1, 1⟩] ∧ s.RoutedBack := by
  have hquiet : ∀ e, FreshDescriptor initial e :=
    freshDescriptor_of_quiet rfl rfl fun k m h => by cases h
  obtain ⟨s₁, hs₁⟩ : ∃ s₁, State.step true initial .accept = some s₁ := ⟨_, rfl⟩
  obtain ⟨s₂, hs₂⟩ : ∃ s₂, connect.tail.foldlM (State.step true) s₁ = some s₂ := by
    cases hs₁
    exact ⟨_, rfl⟩
  have hquiet₂ : ∀ e, FreshDescriptor s₂ e := by
    cases hs₁
    cases hs₂
    refine freshDescriptor_of_quiet rfl rfl fun k m h => ?_
    by_cases hk : k = 0
    · cases (if_pos hk).symm.trans h
    · cases (if_neg hk).symm.trans h
  obtain ⟨s₃, hs₃⟩ : ∃ s₃, State.step true s₂ .accept = some s₃ := by
    cases hs₁
    cases hs₂
    exact ⟨_, rfl⟩
  have hrest : ((connect.tail ++ exchange 0 ++ exchange 1 ++ deliver 1 ++ deliver 0).foldlM
      (State.step true) s₃).map State.sendings = some [⟨0, 0⟩, ⟨1, 1⟩] := by
    cases hs₁
    cases hs₂
    cases hs₃
    decide +kernel
  have hok : ∀ es : List Event, .accept ∉ es → ∀ e ∈ es, ∀ s, FreshDescriptor s e := by
    intro es hes e he s haccept
    exact absurd (haccept ▸ he) hes
  obtain ⟨s, hrun, hsendings⟩ :=
    exists_run_of_sendings (hok _ (by simp [connect, exchange, deliver])) hrest
  have hfirst := ((Run.refl initial).tail (hquiet _) hs₁).trans
    (Run.of_foldlM (hok connect.tail (by simp [connect])) hs₂)
  have hall := (hfirst.tail (hquiet₂ _) hs₃).trans hrun
  exact ⟨s, hall, hsendings, routedBack_of_fresh hall⟩

/-- The reply for an eNB that has gone is sent to the next one with its descriptor. -/
theorem not_routedBack_of_unguarded :
    ¬ ∀ (is5g : Bool) (s : State), Run (State.step is5g) Unguarded initial s → s.RoutedBack := by
  intro h
  obtain ⟨s, hrun, hsendings⟩ := @exists_run_of_sendings true initial Unguarded
    (connect ++ exchange 0 ++ disconnect 0 ++ connect ++ deliver 1) [⟨0, 1⟩]
    (fun _ _ _ => trivial) (by decide +kernel)
  have hback := h true s hrun ⟨0, 1⟩ (by rw [hsendings]; exact List.mem_singleton_self _)
  cases hback

end State

end PublicCloudCore.Frontend
