import PublicCloudCore.Multiplexer.Relay

/-!
# The routes of the multiplexer

The reference keeps the latest source of every identifier. The hash map has room for one
identifier in each slot of its table: the first one that comes keeps the slot, and every other one
that falls into it is lost. And the address that uplink datagrams are sent to is the one that the
last downlink datagram came from.
-/

namespace PublicCloudCore.Multiplexer

open Framework
open CorekubeDb (HashMap hashmapGet jhash arrayToUint32)

theorem exists_of_teidOf {payload : List UInt8} {t : UInt32} (h : teidOf payload = some t) :
    ∃ b0 b1 b2 b3 a b c d rest, payload = b0 :: b1 :: b2 :: b3 :: a :: b :: c :: d :: rest ∧
      arrayToUint32 [a, b, c, d] = t := by
  unfold teidOf at h
  split at h
  · exact ⟨_, _, _, _, _, _, _, _, _, rfl, Option.some.inj h⟩
  · cases h

theorem getUeTeid_write {payload : List UInt8} {t : UInt32} (h : teidOf payload = some t)
    (buffer : Mem UInt8) : getUeTeid (buffer.write 0 payload) = t := by
  obtain ⟨b0, b1, b2, b3, a, b, c, d, rest, rfl, rfl⟩ := exists_of_teidOf h
  rfl

theorem arrayToUint32_toNat (a b c d : UInt8) :
    (arrayToUint32 [a, b, c, d]).toNat =
      (a.toNat <<< 24) ||| (b.toNat <<< 16) ||| (c.toNat <<< 8) ||| d.toNat := by
  have hfits : ∀ (x : UInt8) (k : Nat), k ≤ 24 → x.toNat <<< k % 2 ^ 32 = x.toNat <<< k := by
    intro x k hk
    apply Nat.mod_eq_of_lt
    calc x.toNat <<< k = x.toNat * 2 ^ k := Nat.shiftLeft_eq _ _
      _ < 2 ^ 8 * 2 ^ k := Nat.mul_lt_mul_of_pos_right x.toNat_lt (Nat.two_pow_pos k)
      _ ≤ 2 ^ 8 * 2 ^ 24 := Nat.mul_le_mul_left _ (Nat.pow_le_pow_right Nat.two_pos hk)
  simp only [arrayToUint32, List.getD_cons_zero, List.getD_cons_succ, UInt32.toNat_or,
    UInt32.toNat_shiftLeft, UInt8.toNat_toUInt32]
  rw [← hfits a 24 (by decide), ← hfits b 16 (by decide), ← hfits c 8 (by decide)]
  rfl

/-- Python finds the same identifier, or runs over the end where there is none. -/
theorem teid_eq (payload : List UInt8) :
    NervionMultiplexer.teid payload = (teidOf payload).map UInt32.toNat := by
  cases h : teidOf payload with
  | some t =>
      obtain ⟨b0, b1, b2, b3, a, b, c, d, rest, rfl, rfl⟩ := exists_of_teidOf h
      simp [NervionMultiplexer.teid, arrayToUint32_toNat]
  | none =>
      rcases payload with _ | ⟨_, _ | ⟨_, _ | ⟨_, _ | ⟨_, _ | ⟨_, _ | ⟨_, _ | ⟨_, _ | ⟨_, rest⟩⟩⟩⟩⟩⟩⟩⟩
        <;> first | rfl | cases h

namespace NervionMultiplexer

variable {m : NervionMultiplexer} {core : Address} {past ps : List Packet}

structure Routes (m : NervionMultiplexer) (core : Address) (past : List Packet) : Prop where
  core : core = ⟨m.spgwIp, corePort⟩
  runs : m.Runs
  routes : ∀ t : UInt32, m.routes t.toNat = latestSource t past

theorem routes_start (spgwIp : UInt32) : (start spgwIp).Routes ⟨spgwIp, corePort⟩ [] :=
  ⟨rfl, ⟨rfl, rfl⟩, fun _ => rfl⟩

theorem Routes.step (h : m.Routes core past) {p : Packet} {t : UInt32}
    (ht : teidOf p.datagram.payload = some t) :
    (m.step p).1 = relayed core past p ∧ (m.step p).2.Routes core (p :: past) := by
  have hread : udpRead 65536 p.datagram.payload = p.datagram.payload := udpRead_bufferLen _
  cases p with
  | fromUe d =>
      simp only [Packet.datagram] at ht hread
      have hstep : m.step (.fromUe d) = ([⟨.core, ⟨m.spgwIp, 2152⟩, d.payload⟩],
          { m with routes := Function.update m.routes t.toNat (some d.source) }) := by
        simp [NervionMultiplexer.step, uplink, processMessage, h.runs.1, hread, teid_eq, ht]
      rw [hstep]
      refine ⟨by simp [relayed, h.core, corePort], h.core, h.runs, fun t' => ?_⟩
      by_cases heq : t' = t
      · simp [heq, latestSource, ht]
      · have hne : t'.toNat ≠ t.toNat := fun h => heq (UInt32.toNat_inj.mp h)
        simp [latestSource, ht, Function.update_of_ne hne, Ne.symm heq, h.routes]
  | fromCore d =>
      simp only [Packet.datagram] at ht hread
      have hget : m.getAddress d.payload = some (latestSource t past) := by
        simp [getAddress, teid_eq, ht, h.routes]
      have hnext : m.Routes core (.fromCore d :: past) := ⟨h.core, h.runs, h.routes⟩
      simp only [NervionMultiplexer.step, h.runs.2, if_true, downlink, hread, hget, relayed, ht,
        Option.bind_some]
      cases latestSource t past <;> exact ⟨rfl, hnext⟩

theorem not_runs_step {p : Packet} (hp : teidOf p.datagram.payload = none) :
    ¬ (m.step p).2.Runs := by
  have hread : udpRead 65536 p.datagram.payload = p.datagram.payload := udpRead_bufferLen _
  cases p with
  | fromUe d =>
      simp only [Packet.datagram] at hp hread
      by_cases hruns : m.uplinkRuns <;>
        simp [NervionMultiplexer.step, uplink, processMessage, Runs, hread, teid_eq, hp, hruns]
  | fromCore d =>
      simp only [Packet.datagram] at hp hread
      by_cases hruns : m.downlinkRuns <;>
        simp [NervionMultiplexer.step, downlink, getAddress, Runs, hread, teid_eq, hp, hruns]

theorem Routes.relays_iff (h : m.Routes core past) :
    Relays NervionMultiplexer.step Runs core past m ps ↔
      ∀ p ∈ ps, teidOf p.datagram.payload ≠ none := by
  induction ps generalizing m past with
  | nil => simp [Relays]
  | cons p ps ih =>
      rw [Relays, List.forall_mem_cons]
      cases ht : teidOf p.datagram.payload with
      | none => simp [not_runs_step ht]
      | some t =>
          obtain ⟨hsent, hnext⟩ := h.step ht
          rw [ih hnext]
          simp [hsent, hnext.runs]

end NervionMultiplexer

def slot (initval t : UInt32) : Nat := (jhash t initval).toNat % 8192

/-- The identifier that keeps the slot of `t`: the first one that came for it. -/
def keeper (initval t : UInt32) : List Packet → Option UInt32
  | [] => none
  | .fromCore _ :: past => keeper initval t past
  | .fromUe d :: past =>
      (keeper initval t past).or ((teidOf d.payload).filter (slot initval · = slot initval t))

def coreSource (core : Address) : List Packet → Address
  | [] => core
  | .fromUe _ :: past => coreSource core past
  | .fromCore d :: _ => d.source

variable {initval t : UInt32} {core : Address} {past ps : List Packet}

theorem keeper_fromUe {d : Datagram} (ht : teidOf d.payload = some t) (t' : UInt32) :
    keeper initval t' (.fromUe d :: past) =
      (keeper initval t' past).or (if slot initval t = slot initval t' then some t else none) := by
  simp [keeper, ht, Option.filter]

theorem latestSource_fromUe {d : Datagram} (ht : teidOf d.payload = some t) (t' : UInt32) :
    latestSource t' (.fromUe d :: past) = if t = t' then some d.source else latestSource t' past := by
  simp [latestSource, ht]

theorem latestSource_ne_none_cons (p : Packet) (h : latestSource t past ≠ none) :
    latestSource t (p :: past) ≠ none := by
  cases p with
  | fromCore d => exact h
  | fromUe d =>
      rw [latestSource]
      split
      · simp
      · exact h

/-- The keeper of a slot belongs there, and its route is known. -/
theorem keeper_spec {o : UInt32} (h : keeper initval t past = some o) :
    slot initval o = slot initval t ∧ latestSource o past ≠ none := by
  induction past with
  | nil => cases h
  | cons p past ih =>
      cases p with
      | fromCore d => exact ih h
      | fromUe d =>
          rw [keeper, Option.or_eq_some_iff] at h
          rcases h with h | ⟨_, h⟩
          · exact ⟨(ih h).1, latestSource_ne_none_cons _ (ih h).2⟩
          · obtain ⟨hteid, hslot⟩ := Option.filter_eq_some_iff.mp h
            simp_all [latestSource]

/-- The node in the slot of `t`, if there is one. -/
def slotNode (initval t : UInt32) (past : List Packet) : Option Data :=
  (keeper initval t past).bind fun o => (latestSource o past).map (⟨·, o⟩)

theorem slotNode_none (h : keeper initval t past = none) : slotNode initval t past = none := by
  simp [slotNode, h]

theorem slotNode_some {o : UInt32} (h : keeper initval t past = some o) :
    ∃ a, latestSource o past = some a ∧ slotNode initval t past = some ⟨a, o⟩ := by
  obtain ⟨a, ha⟩ := Option.ne_none_iff_exists'.mp (keeper_spec h).2
  exact ⟨a, ha, by simp [slotNode, h, ha]⟩

theorem keeper_congr {t' : UInt32} (h : slot initval t' = slot initval t) :
    keeper initval t' past = keeper initval t past := by
  induction past with
  | nil => rfl
  | cons p past ih => cases p <;> simp [keeper, ih, h]

theorem slotNode_fromUe {d : Datagram} (ht : teidOf d.payload = some t) (t' : UInt32) :
    slotNode initval t' (.fromUe d :: past) =
      if slot initval t' = slot initval t then
        match slotNode initval t past with
        | none => some ⟨d.source, t⟩
        | some node => some (if node.teid = t then ⟨d.source, t⟩ else node)
      else slotNode initval t' past := by
  by_cases hslot : slot initval t' = slot initval t
  · rw [if_pos hslot, slotNode, keeper_fromUe ht, keeper_congr hslot, hslot]
    cases hk : keeper initval t past with
    | none => simp [slotNode_none hk, latestSource_fromUe ht]
    | some o =>
        obtain ⟨a, ha, hnode⟩ := slotNode_some hk
        by_cases ho : o = t
        · simp [hnode, latestSource_fromUe ht, ho]
        · simp [hnode, latestSource_fromUe ht, ho, Ne.symm ho, ha]
  · rw [if_neg hslot, slotNode, slotNode, keeper_fromUe ht, if_neg (Ne.symm hslot), Option.or_none]
    cases hk : keeper initval t' past with
    | none => rfl
    | some o =>
        have ho : t ≠ o := fun heq => hslot (heq ▸ (keeper_spec hk).1.symm)
        simp [latestSource_fromUe ht, ho]

structure State.After (s : State) (core : Address) (initval : UInt32) (past : List Packet) :
    Prop where
  coreaddr : s.coreaddr = coreSource core past
  map_initval : s.map.initval = initval
  map_size : s.map.hashmapSize = 8192
  bucket : ∀ t, s.map.bucket t = (slotNode initval t past).toList

namespace State

variable {s : State}

private theorem bucket_init {α : Type} {hash : α → UInt32} (n : Nat) (initval t : UInt32) :
    (HashMap.init n initval : HashMap hash).bucket t = [] := by
  simp only [HashMap.bucket, HashMap.init, List.getD_eq_getElem?_getD, List.getElem?_replicate]
  split <;> rfl

theorem after_start (spgwIp initval : UInt32) (uplinkStack downlinkStack : Mem UInt8) :
    (start spgwIp initval uplinkStack downlinkStack).After ⟨spgwIp, corePort⟩ initval [] where
  coreaddr := rfl
  map_initval := rfl
  map_size := List.length_replicate
  bucket _ := bucket_init _ _ _

theorem After.index (h : s.After core initval past) (t : UInt32) : s.map.index t = slot initval t := by
  rw [HashMap.index, h.map_initval, h.map_size, slot]

theorem After.hashmapGet (h : s.After core initval past) (t : UInt32) :
    hashmapGet s.map t =
      if keeper initval t past = some t then (latestSource t past).map (⟨·, t⟩) else none := by
  rw [CorekubeDb.hashmapGet, h.bucket]
  cases hk : keeper initval t past with
  | none => simp [slotNode_none hk]
  | some o =>
      obtain ⟨a, ha, hnode⟩ := slotNode_some hk
      by_cases ho : o = t
      · subst ho
        simp [hnode, ha, dataHash]
      · simp [hnode, dataHash, ho]

theorem After.hashmapAdd (h : s.After core initval past) {d : Datagram}
    (ht : teidOf d.payload = some t) :
    ∃ map, hashmapAdd s.map ⟨d.source, t⟩ = some map ∧ map.initval = initval ∧
      map.hashmapSize = 8192 ∧
      ∀ t', map.bucket t' = (slotNode initval t' (.fromUe d :: past)).toList := by
  have hbucket := h.bucket t
  have hset : ∀ nodes t', (s.map.setBucket t nodes).bucket t' =
      if slot initval t' = slot initval t then nodes else (slotNode initval t' past).toList := by
    intro nodes t'
    rw [HashMap.bucket_setBucket, h.index, h.index, h.bucket]
  have hsize : ∀ nodes, (s.map.setBucket t nodes).hashmapSize = 8192 := by
    intro nodes
    rw [← h.map_size]
    exact List.length_set
  cases hnode : slotNode initval t past with
  | none =>
      rw [hnode] at hbucket
      refine ⟨s.map.setBucket t [⟨d.source, t⟩], ?_, h.map_initval, hsize _, fun t' => ?_⟩
      · simp [Multiplexer.hashmapAdd, dataHash, hbucket]
      · rw [hset, slotNode_fromUe ht, hnode]
        split <;> rfl
  | some node =>
      rw [hnode] at hbucket
      by_cases hkey : node.teid = t
      · refine ⟨s.map.setBucket t [⟨d.source, t⟩], ?_, h.map_initval, hsize _, fun t' => ?_⟩
        · simp [Multiplexer.hashmapAdd, dataHash, hbucket, hkey]
        · rw [hset, slotNode_fromUe ht, hnode]
          simp only [if_pos hkey]
          split <;> rfl
      · refine ⟨s.map, ?_, h.map_initval, h.map_size, fun t' => ?_⟩
        · simp [Multiplexer.hashmapAdd, dataHash, hbucket, hkey]
        · rw [slotNode_fromUe ht, hnode]
          simp only [if_neg hkey]
          split
          · rename_i hslot
            have hindex : s.map.index t' = s.map.index t := by rw [h.index, h.index, hslot]
            rw [← hbucket, HashMap.bucket, HashMap.bucket, hindex]
          · exact h.bucket t'

theorem After.uplink (h : s.After core initval past) {d : Datagram} (ht : teidOf d.payload = some t) :
    ∃ s', s.uplink d = ([⟨.core, s.coreaddr, d.payload⟩], some s') ∧
      s'.After core initval (.fromUe d :: past) := by
  obtain ⟨map, hadd, hinitval, hsize, hbucket⟩ := h.hashmapAdd ht
  refine ⟨{ s with map, uplinkBuffer := s.uplinkBuffer.write 0 d.payload }, ?_,
    h.coreaddr, hinitval, hsize, hbucket⟩
  simp only [State.uplink, udpRead_bufferLen, getUeTeid_write ht, hadd, Mem.read_write_same]

theorem After.downlink (h : s.After core initval past) {d : Datagram}
    (ht : teidOf d.payload = some t) (hk : keeper initval t past = some t) :
    ∃ s', s.downlink d = (relayed core past (.fromCore d), some s') ∧
      s'.After core initval (.fromCore d :: past) := by
  obtain ⟨a, ha⟩ := Option.ne_none_iff_exists'.mp (keeper_spec hk).2
  refine ⟨{ s with coreaddr := d.source, downlinkBuffer := s.downlinkBuffer.write 0 d.payload }, ?_,
    rfl, h.map_initval, h.map_size, h.bucket⟩
  simp only [State.downlink, udpRead_bufferLen, getUeTeid_write ht, h.hashmapGet, if_pos hk, ha,
    Option.map_some, Mem.read_write_same, relayed, ht, Option.bind_some]

theorem After.downlink_lost (h : s.After core initval past) {d : Datagram}
    (ht : teidOf d.payload = some t) (hk : keeper initval t past ≠ some t) :
    s.downlink d = ([], none) := by
  simp only [State.downlink, udpRead_bufferLen, getUeTeid_write ht, h.hashmapGet, if_neg hk]

end State

/-- The packet has an identifier; where it is for the core network, the last downlink datagram came
from the configured address, and where it is for a UE, its identifier was the first to come for its
slot. -/
def Served (core : Address) (initval : UInt32) (past : List Packet) : Packet → Prop
  | .fromUe d => teidOf d.payload ≠ none ∧ coreSource core past = core
  | .fromCore d => ∃ t, teidOf d.payload = some t ∧ keeper initval t past = some t

/-- A condition on each packet and its past. -/
def AtEach (P : List Packet → Packet → Prop) : List Packet → List Packet → Prop
  | _, [] => True
  | past, p :: ps => P past p ∧ AtEach P (p :: past) ps

theorem Served.teidOf_ne_none {p : Packet} (h : Served core initval past p) :
    teidOf p.datagram.payload ≠ none := by
  cases p with
  | fromUe d => exact h.1
  | fromCore d =>
      obtain ⟨t, ht, _⟩ := h
      simp [Packet.datagram, ht]

theorem AtEach.teidOf_ne_none (h : AtEach (Served core initval) past ps) :
    ∀ p ∈ ps, teidOf p.datagram.payload ≠ none := by
  induction ps generalizing past with
  | nil => simp
  | cons p ps ih => exact List.forall_mem_cons.mpr ⟨h.1.teidOf_ne_none, ih h.2⟩

namespace State

variable {s : State} {p : Packet}

theorem After.step_served (h : s.After core initval past) (hp : Served core initval past p) :
    ∃ s', Process.step (some s) p = (relayed core past p, some s') ∧
      s'.After core initval (p :: past) := by
  cases p with
  | fromUe d =>
      obtain ⟨t, ht⟩ := Option.ne_none_iff_exists'.mp hp.1
      obtain ⟨s', hstep, hnext⟩ := h.uplink ht
      rw [h.coreaddr, hp.2] at hstep
      exact ⟨s', hstep, hnext⟩
  | fromCore d =>
      obtain ⟨t, ht, hk⟩ := hp
      exact h.downlink ht hk

/-- A packet that is not served goes to another address, or ends the process. -/
theorem After.step_not_served (h : s.After core initval past)
    (hid : teidOf p.datagram.payload ≠ none) (hp : ¬ Served core initval past p) :
    (Process.step (some s) p).1 ≠ relayed core past p ∨ ¬ (Process.step (some s) p).2.Runs := by
  obtain ⟨t, ht⟩ := Option.ne_none_iff_exists'.mp hid
  cases p with
  | fromUe d =>
      left
      obtain ⟨s', hstep, _⟩ := h.uplink ht
      have hne : coreSource core past ≠ core := fun heq => hp ⟨hid, heq⟩
      change s.uplink d = ([⟨.core, s.coreaddr, d.payload⟩], some s') at hstep
      simpa [Process.step, hstep, relayed, h.coreaddr] using hne
  | fromCore d =>
      right
      have hk : keeper initval t past ≠ some t := fun heq => hp ⟨t, ht, heq⟩
      have hends : s.downlink d = ([], none) := h.downlink_lost ht hk
      simp [Process.step, hends, Process.Runs]

theorem After.relays_iff (h : s.After core initval past)
    (hids : ∀ p ∈ ps, teidOf p.datagram.payload ≠ none) :
    Relays Process.step Process.Runs core past (some s) ps ↔
      AtEach (Served core initval) past ps := by
  induction ps generalizing s past with
  | nil => simp [Relays, AtEach]
  | cons p ps ih =>
      rw [List.forall_mem_cons] at hids
      rw [Relays, AtEach]
      by_cases hp : Served core initval past p
      · obtain ⟨s', hstep, hnext⟩ := h.step_served hp
        rw [hstep, ih hnext hids.2]
        simp [hp, Process.Runs]
      · have hfails := h.step_not_served hids.1 hp
        simp only [hp, false_and, iff_false]
        rintro ⟨hsent, hruns, _⟩
        exact hfails.elim (fun hne => hne hsent) fun hends => hends hruns

end State

theorem Relays.sentBy_eq {σ τ : Type} {step : σ → Packet → List Sent × σ} {runs : σ → Prop}
    {step' : τ → Packet → List Sent × τ} {runs' : τ → Prop} {s : σ} {s' : τ}
    (h : Relays step runs core past s ps) (h' : Relays step' runs' core past s' ps) :
    sentBy step s ps = sentBy step' s' ps := by
  induction ps generalizing s s' past with
  | nil => rfl
  | cons p ps ih =>
      rw [sentBy, sentBy, h.1, h'.1, ih h.2.2 h'.2.2]

section

variable {spgwIp : UInt32} {uplinkStack downlinkStack : Mem UInt8}

theorem RelayAlike.served (h : RelayAlike spgwIp initval uplinkStack downlinkStack ps) :
    AtEach (Served ⟨spgwIp, corePort⟩ initval) [] ps := by
  have hids := (NervionMultiplexer.routes_start spgwIp).relays_iff.mp h.reference
  exact ((State.after_start spgwIp initval uplinkStack downlinkStack).relays_iff hids).mp h.process

theorem AtEach.relayAlike (h : AtEach (Served ⟨spgwIp, corePort⟩ initval) [] ps) :
    RelayAlike spgwIp initval uplinkStack downlinkStack ps := by
  have hids := h.teidOf_ne_none
  have hprocess := ((State.after_start spgwIp initval uplinkStack downlinkStack).relays_iff hids).mpr h
  have hreference := (NervionMultiplexer.routes_start spgwIp).relays_iff.mpr hids
  exact ⟨hprocess, hreference, hprocess.sentBy_eq hreference⟩

end

/-- The multiplexer and the reference agree on just these packets. -/
theorem relayAlike_iff (spgwIp initval : UInt32) (uplinkStack downlinkStack : Mem UInt8)
    (ps : List Packet) :
    RelayAlike spgwIp initval uplinkStack downlinkStack ps ↔
      AtEach (Served ⟨spgwIp, corePort⟩ initval) [] ps :=
  ⟨RelayAlike.served, AtEach.relayAlike⟩

/-- A datagram of a GTP-U tunnel, with nothing behind the header. -/
def tunnelDatagram (source : Address) (t : UInt8) : Datagram :=
  ⟨source, [0x30, 0xff, 0, 0, 0, 0, 0, t], Nat.le_of_ble_eq_true rfl⟩

/-- A UE talks, is answered from another port than the configured one, and talks again: what it
says goes to that port. -/
theorem not_relayAlike_otherPort :
    ¬ RelayAlike 0 0 (fun _ => 0) (fun _ => 0)
      [.fromUe (tunnelDatagram ⟨1, 4000⟩ 1), .fromCore (tunnelDatagram ⟨0, 9999⟩ 1),
        .fromUe (tunnelDatagram ⟨1, 4000⟩ 1)] := by
  intro h
  obtain ⟨_, _, ⟨_, hcore⟩, _⟩ := h.served
  exact absurd hcore (by decide)

end PublicCloudCore.Multiplexer
