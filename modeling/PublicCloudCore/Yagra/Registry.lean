import PublicCloudCore.Framework.LinkedList
import PublicCloudCore.Yagra.Frames

/-!
# The list of metrics of a connection

`yagra_define_metric` puts a node behind the last one and `yagra_observe_metric` looks a name up in
the list. The node keeps what the memory from `malloc` holds in its `next`.
-/

namespace PublicCloudCore.Yagra

open Framework MetricsBus

variable {A : Type}

/-- The memory, and `metrics` of `yagra_conn_t`. -/
structure Registry (A : Type) where
  heap : Heap A Metric
  metrics : Option A

/-- The arguments of a call, and what `send` and `malloc` return to it. -/
structure DefineCall (A : Type) where
  name : Text
  description : Text
  type : AggregationType
  response : Int
  node : A
  -- the content of the new memory
  prior : Node A Metric

/-- The name as `strncpy` copies it; the last of the 64 bytes is the zero. -/
def DefineCall.metric (c : DefineCall A) : Metric := ⟨c.name.take 63, c.type⟩

/-- `yagra_define_metric` with its return value; `none` where the walk to the last node takes more
steps than that or leaves the nodes. -/
def Registry.define [DecidableEq A] (fuel : Nat) (r : Registry A) (c : DefineCall A) :
    Option (Int × Registry A) :=
  match defineMetric c.name c.description c.type with
  | none => some (-1, r)
  | some _ =>
      if c.response < 0 then some (-1, r)
      else
        let heap := r.heap.set c.node (some ⟨c.metric, c.prior.next⟩)
        (heap.append fuel r.metrics c.node).map fun (metrics, heap) => (0, ⟨heap, metrics⟩)

/-- The lookup of `yagra_observe_metric`. -/
def Registry.findMetric (fuel : Nat) (r : Registry A) (text : Text) : Option (Option A) :=
  r.heap.find (fun m => m.name == text) fuel r.metrics

/-- The list and the calls that have returned 0. -/
structure Registering (A : Type) where
  registry : Registry A
  calls : List (DefineCall A)

namespace Registering

/-- After `yagra_init`, in any memory. -/
def start (heap : Heap A Metric) : Registering A := ⟨⟨heap, none⟩, []⟩

def define [DecidableEq A] (fuel : Nat) (s : Registering A) (c : DefineCall A) :
    Option (Registering A) :=
  match s.registry.define fuel c with
  | some (0, r) => some ⟨r, s.calls ++ [c]⟩
  | _ => none

/-- The metrics that the calls define. -/
def defined (s : Registering A) : List Metric := s.calls.map fun c => ⟨c.name, c.type⟩

/-- `malloc` returns memory that no earlier node has, and the name fits with its zero. -/
structure Allocates (s : Registering A) (c : DefineCall A) : Prop where
  fresh : c.node ∉ s.calls.map DefineCall.node
  short : c.name.length ≤ 63

/-- The list is what the calls have defined, and the lookup finds the defined names. -/
structure Registers (s : Registering A) : Prop where
  list : ∃ ns, s.registry.heap.Lists s.registry.metrics ns ∧ ns.map Prod.snd = s.defined
  finds : ∀ text fuel, s.defined.length ≤ fuel → ∃ found,
    s.registry.findMetric fuel text = some found ∧
      (found.isSome ↔ ∃ m ∈ s.defined, m.name = text)

/-- The memory for the node holds null where `next` is. -/
def Zeroed (s : Registering A) (c : DefineCall A) : Prop := s.Allocates c ∧ c.prior.next = none

variable {s s' : Registering A} {c : DefineCall A} {fuel : Nat}

def nodes (s : Registering A) : List (A × Metric) := s.calls.map fun c => (c.node, ⟨c.name, c.type⟩)

/-- The invariant: the nodes stand in the list in the order of the calls. -/
def InOrder (s : Registering A) : Prop := s.registry.heap.Lists s.registry.metrics s.nodes

theorem addresses_nodes (s : Registering A) :
    Heap.addresses s.nodes = s.calls.map DefineCall.node := by
  rw [Heap.addresses, nodes, List.map_map]
  rfl

theorem map_snd_nodes (s : Registering A) : s.nodes.map Prod.snd = s.defined := by
  rw [nodes, List.map_map]
  rfl

theorem length_nodes (s : Registering A) : s.nodes.length = s.defined.length := by
  rw [nodes, defined, List.length_map, List.length_map]

theorem InOrder.registers (hs : s.InOrder) : s.Registers where
  list := ⟨s.nodes, hs, s.map_snd_nodes⟩
  finds text fuel hfuel := by
    have hfind := Heap.Segment.find_eq hs (fun m => m.name == text) (s.length_nodes ▸ hfuel)
    refine ⟨_, hfind, ?_⟩
    rw [Option.isSome_map, List.find?_isSome, ← map_snd_nodes]
    simp only [beq_iff_eq, List.mem_map]
    constructor
    · rintro ⟨n, hn, hname⟩
      exact ⟨n.2, ⟨n, hn, rfl⟩, hname⟩
    · rintro ⟨_, ⟨n, hn, rfl⟩, hname⟩
      exact ⟨n, hn, hname⟩

variable [DecidableEq A]

/-- What a call that returns 0 makes of the list: one more node, and behind it what `next` holds. -/
theorem InOrder.define (hs : s.InOrder) (hc : s.Allocates c) (h : s.define fuel c = some s') :
    s'.calls = s.calls ++ [c] ∧
      s'.registry.heap.Segment s'.registry.metrics s'.nodes c.prior.next := by
  have hfresh : c.node ∉ Heap.addresses s.nodes := s.addresses_nodes ▸ hc.fresh
  have hmetric : c.metric = ⟨c.name, c.type⟩ := by
    rw [DefineCall.metric, List.take_of_length_le hc.short]
  have hset := hs.congr_set hfresh (some ⟨c.metric, c.prior.next⟩)
  have hnode := s.registry.heap.set_same c.node (some ⟨c.metric, c.prior.next⟩)
  rw [Registering.define, Registry.define] at h
  cases hframe : defineMetric c.name c.description c.type with
  | none =>
      rw [hframe] at h
      cases h
  | some frame =>
      rw [hframe] at h
      by_cases hresponse : c.response < 0
      · simp only [if_pos hresponse] at h
        cases h
      · simp only [if_neg hresponse] at h
        by_cases hfuel : s.nodes.length ≤ fuel
        · obtain ⟨p, heap, happend, hsegment⟩ := hset.append_eq hfresh hnode hfuel
          rw [happend] at h
          cases h
          refine ⟨rfl, ?_⟩
          rw [hmetric] at hsegment
          have hnodes : s.nodes ++ [(c.node, ⟨c.name, c.type⟩)] =
              Registering.nodes ⟨⟨heap, p⟩, s.calls ++ [c]⟩ := by
            rw [nodes, nodes, List.map_append]
            rfl
          rwa [hnodes] at hsegment
        · rw [hset.append_eq_none (Nat.not_le.mp hfuel)] at h
          cases h

theorem InOrder.define_returns (hs : s.InOrder) (hc : s.Allocates c)
    (hframe : (defineMetric c.name c.description c.type).isSome) (hresponse : 0 ≤ c.response)
    (hfuel : s.defined.length ≤ fuel) : ∃ s', s.define fuel c = some s' := by
  obtain ⟨frame, hframe⟩ := Option.isSome_iff_exists.mp hframe
  have hfresh : c.node ∉ Heap.addresses s.nodes := s.addresses_nodes ▸ hc.fresh
  have hset := hs.congr_set hfresh (some ⟨c.metric, c.prior.next⟩)
  have hnode := s.registry.heap.set_same c.node (some ⟨c.metric, c.prior.next⟩)
  obtain ⟨p, heap, happend, -⟩ := hset.append_eq hfresh hnode (s.length_nodes ▸ hfuel)
  refine ⟨⟨⟨heap, p⟩, s.calls ++ [c]⟩, ?_⟩
  simp only [Registering.define, Registry.define, hframe, if_neg (Int.not_lt.mpr hresponse),
    happend, Option.map_some]

theorem InOrder.registers_define_iff (hs : s.InOrder) (hc : s.Allocates c)
    (h : s.define fuel c = some s') : s'.Registers ↔ c.prior.next = none := by
  obtain ⟨hcalls, hsegment⟩ := hs.define hc h
  constructor
  · intro hregisters
    obtain ⟨ns, hlist, hns⟩ := hregisters.list
    obtain ⟨rest, rfl, hrest⟩ := hsegment.prefix_of_lists hlist
    have hlen := congrArg List.length hns
    rw [List.length_map, List.length_append, length_nodes] at hlen
    have hnil : rest = [] := List.length_eq_zero_iff.mp (by omega)
    subst hnil
    generalize c.prior.next = next at hrest
    cases hrest
    rfl
  · intro hnull
    rw [hnull] at hsegment
    exact InOrder.registers hsegment

/-- In a run whose every node comes from memory that holds null in `next`, the list is what has been
defined; after one more call exactly if its memory does, too. -/
theorem registers_iff (fuel : Nat) {heap : Heap A Metric}
    (hrun : Run (define fuel) Zeroed (start heap) s) :
    s.Registers ∧ ∀ c s', s.Allocates c → s.define fuel c = some s' →
      (s'.Registers ↔ c.prior.next = none) := by
  have hs : s.InOrder := hrun.invariant (fun t c t' ht hok hstep => by
    have hsegment := (ht.define hok.1 hstep).2
    rwa [hok.2] at hsegment) (.nil none)
  exact ⟨hs.registers, fun c s' hc h => hs.registers_define_iff hc h⟩

/-- The definition of the counter `x`, in the memory at that address. -/
def counterCall (node : Nat) (next : Option Nat) : DefineCall Nat where
  name := [0x78]
  description := []
  type := .sum
  response := 0
  node := node
  prior := ⟨⟨[], .none⟩, next⟩

theorem allocates_counterCall (heap : Heap Nat Metric) (next : Option Nat) :
    (start heap).Allocates (counterCall 0 next) := ⟨by simp [start], by simp [counterCall]⟩

/-- The definition of the average `y` in fresh memory. -/
def averageCall (node : Nat) : DefineCall Nat :=
  { counterCall node none with name := [0x79], type := .average }

/-- Two definitions in fresh memory, and a third. -/
theorem registers_threeMetrics : ∃ s s',
    Run (define 2) Zeroed (start fun _ : Nat => none) s ∧ s.Registers ∧
    s.defined = [⟨[0x78], .sum⟩, ⟨[0x79], .average⟩] ∧
    s.define 2 (averageCall 2) = some s' ∧ s'.Registers := by
  obtain ⟨s₁, hs₁⟩ : ∃ s₁,
      (start fun _ : Nat => none).define 2 (counterCall 0 none) = some s₁ := ⟨_, rfl⟩
  obtain ⟨s₂, hs₂⟩ : ∃ s₂, s₁.define 2 (averageCall 1) = some s₂ := by
    cases hs₁
    exact ⟨_, rfl⟩
  obtain ⟨s₃, hs₃⟩ : ∃ s₃, s₂.define 2 (averageCall 2) = some s₃ := by
    cases hs₁
    cases hs₂
    exact ⟨_, rfl⟩
  have hcalls₁ : s₁.calls = [counterCall 0 none] := by
    cases hs₁
    rfl
  have hcalls₂ : s₂.calls = [counterCall 0 none, averageCall 1] := by
    cases hs₁
    cases hs₂
    rfl
  have hsecond : s₁.Allocates (averageCall 1) :=
    ⟨by simp [hcalls₁, counterCall, averageCall], by decide⟩
  have hthird : s₂.Allocates (averageCall 2) :=
    ⟨by simp [hcalls₂, counterCall, averageCall], by decide⟩
  have hrun : Run (define 2) Zeroed (start fun _ : Nat => none) s₂ :=
    ((Run.refl _).tail ⟨allocates_counterCall _ none, rfl⟩ hs₁).tail ⟨hsecond, rfl⟩ hs₂
  obtain ⟨hregisters, hnext⟩ := registers_iff 2 hrun
  refine ⟨s₂, s₃, hrun, hregisters, ?_, hs₃, (hnext _ _ hthird hs₃).mpr rfl⟩
  rw [defined, hcalls₂]
  rfl

/-- A definition in memory whose old content is a pointer. -/
theorem not_registers_stalePointer :
    ¬ ∀ (fuel : Nat) (heap : Heap Nat Metric) (s : Registering Nat),
      Run (define fuel) Allocates (start heap) s → s.Registers := by
  intro h
  have hdefine : (start fun _ : Nat => none).define 1 (counterCall 0 (some 1)) =
      some ⟨⟨_, some 0⟩, [counterCall 0 (some 1)]⟩ := rfl
  have hallocates := allocates_counterCall (fun _ => none) (some 1)
  obtain ⟨ns, hlist, -⟩ := (h 1 _ _ ((Run.refl _).tail hallocates hdefine)).list
  have hlost : ∀ h : Heap Nat Metric, h 1 = none → h 0 = some ⟨⟨[0x78], .sum⟩, some 1⟩ →
      ¬ h.Lists (some 0) ns := by
    intro heap hone hzero hlist
    cases hlist with
    | cons hnode hrest =>
        rw [hzero] at hnode
        cases hnode
        cases hrest with
        | cons hnode' _ =>
            rw [hone] at hnode'
            cases hnode'
  exact hlost _ rfl rfl hlist

end Registering

end PublicCloudCore.Yagra
