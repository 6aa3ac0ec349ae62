import PublicCloudCore.Framework.RunningMean
import PublicCloudCore.Yagra.Aggregation

/-!
# The entry of an average

The entry of an average holds the running mean of the observed values and their number, as long as
the sum of the values fits 64 bits and their number 32.
-/

namespace PublicCloudCore.Yagra

open Framework

variable {conn : Connection}

/-- The observed values of a metric as numbers. -/
def observedValues (calls : List (Call conn)) (i : conn.Ref) : List Nat :=
  (observed calls i).map UInt64.toNat

/-- A further observation of the metric finds the entry by the pointer that the entry has. -/
def Observing.Reaches (i : conn.Ref) (s : Observing conn) (c : Call conn) : Prop :=
  conn.find c.name.text = some i → observed s.calls i ≠ [] →
    c.name = .own i ∧ s.batch.entriesOf i ≠ []

variable {s s' : Observing conn} {c : Call conn} {i : conn.Ref} {b b' : Batch conn}

/-- What becomes of the batch when a metric is observed that the connection knows. -/
inductive Observed (b : Batch conn) (c : Call conn) (i : conn.Ref) : Batch conn → Prop
  | append : Observed b c i ⟨b.metricData ++ [newMetricData i c.value], b.numMetrics + 1⟩
  -- the new entry of a metric without aggregation has taken the place of all others
  | replace : (conn.metric i).type = .none →
      Observed b c i ⟨[newMetricData i c.value], b.numMetrics + 1⟩
  | update {passed later : List (MetricData conn)} {d d' : MetricData conn} {code : Int} :
      c.name = .own i → b.metricData = passed ++ d :: later → d.metricName = i →
      aggregate (conn.metric i).type d c.value = .ok (some (code, d')) →
      Observed b c i { b with metricData := passed ++ d' :: later }

theorem aggregate_ne_none {type : AggregationType} (htype : type ≠ .none) (d : MetricData conn)
    (value : UInt64) : aggregate type d value ≠ .ok none := by
  intro h
  cases type with
  | none => exact htype rfl
  | average =>
      rw [aggregate] at h
      split at h
      · cases h
      · split at h <;> cases h
  | keepFirst => cases h
  | keepLast => cases h
  | min => cases h
  | max => cases h
  | sum => cases h
  | unknown code => cases h

theorem observed_of_observe (hb : s.batch.Pointed) (hfind : conn.find c.name.text = some i)
    (h : s.observe c = some s') : Observed s.batch c i s'.batch ∧ s'.calls = s.calls ++ [c] := by
  by_cases hhit : c.name = .own i ∧ s.batch.entriesOf i ≠ []
  · obtain ⟨hname, hne⟩ := hhit
    obtain ⟨passed, d, later, hsplit, hpassed, hd⟩ := exists_first_entry hne
    by_cases htype : (conn.metric i).type = .none
    · rw [Observing.observe_another hfind hname htype hsplit hpassed hd] at h
      obtain rfl := Option.some.inj h
      refine ⟨?_, rfl⟩
      show Observed _ _ _ (s.batch.add passed (newMetricData i c.value))
      rw [Batch.add]
      split
      · exact .replace htype
      · exact .append
    · rw [← hname] at hpassed
      have hobserve := @observeMetric_found _ _ _ _ c.value _ _ _ hfind hsplit hpassed
        (hname ▸ not_notNamed_own hd)
      rw [Observing.observe, hobserve] at h
      have hsome := aggregate_ne_none htype d c.value
      cases hresult : aggregate (conn.metric i).type d c.value with
      | error e =>
          rw [hresult] at h
          cases h
      | ok result =>
          rw [hresult] at h hsome
          cases result with
          | none => exact absurd rfl hsome
          | some r =>
              obtain ⟨code, d'⟩ := r
              cases h
              exact ⟨.update hname hsplit hd hresult, rfl⟩
  · have hmiss : c.name = .own i → s.batch.entriesOf i = [] := by
      intro hname
      by_contra hne
      exact hhit ⟨hname, hne⟩
    rw [hb.observe_append hfind hmiss] at h
    obtain rfl := Option.some.inj h
    exact ⟨.append, rfl⟩

theorem Batch.Pointed.newMetricData (hfind : conn.find c.name.text = some i) (value : UInt64) :
    Batch.Pointed ⟨[newMetricData i value], 1⟩ where
  found d hd := by
    obtain rfl := List.mem_singleton.mp hd
    exact (congrArg conn.find (conn.name_of_find hfind)).trans hfind
  counted d hd htype := by
    obtain rfl := List.mem_singleton.mp hd
    have haverage : (conn.metric i).type = .average := htype
    rw [Yagra.newMetricData, if_pos haverage]
    rfl

theorem Observed.pointed (h : Observed b c i b') (hb : b.Pointed)
    (hfind : conn.find c.name.text = some i) : b'.Pointed := by
  have hnew := Batch.Pointed.newMetricData hfind c.value
  cases h with
  | append =>
      constructor
      · intro d hd
        exact (List.mem_append.mp hd).elim (hb.found d) (hnew.found d)
      · intro d hd
        exact (List.mem_append.mp hd).elim (hb.counted d) (hnew.counted d)
  | replace => exact ⟨hnew.found, hnew.counted⟩
  | @update passed later d d' code hname hsplit hd hresult =>
      obtain ⟨hsame, -, hcounted⟩ := aggregate_spec hresult
      have hmem : ∀ e ∈ passed ++ d' :: later, e = d' ∨ e ∈ b.metricData := by
        intro e he
        rw [hsplit]
        simp only [List.mem_append, List.mem_cons] at he ⊢
        tauto
      have hold : d ∈ b.metricData := by simp [hsplit]
      constructor
      · intro e he
        rcases hmem e he with rfl | he
        · rw [hsame]
          exact hb.found d hold
        · exact hb.found e he
      · intro e he htype
        rcases hmem e he with rfl | he
        · rw [hsame, hd] at htype
          exact hcounted htype
        · exact hb.counted e he htype

theorem Observed.entriesOf_other {j : conn.Ref} (h : Observed b c j b') (hij : j ≠ i) :
    b'.entriesOf i = b.entriesOf i ∨ b'.entriesOf i = [] := by
  have hne : (newMetricData j c.value).metricName ≠ i := hij
  cases h with
  | append =>
      refine Or.inl ?_
      rw [entriesOf_concat _ _ _ b.numMetrics, if_neg hne]
      exact List.append_nil _
  | replace => exact Or.inr (List.filter_cons_of_neg (by rwa [decide_eq_true_eq]))
  | @update passed later d d' code hname hsplit hd hresult =>
      have hdi : d.metricName ≠ i := hd ▸ hij
      have hd'i : d'.metricName ≠ i := (aggregate_spec hresult).1 ▸ hdi
      have hbatch : b = ⟨passed ++ d :: later, b.numMetrics⟩ := by rw [← hsplit]
      refine Or.inl ?_
      rw [hbatch, entriesOf_split, entriesOf_split, if_neg hdi, if_neg hd'i]

structure Averages (vs : List Nat) (d : MetricData conn) : Prop where
  short : vs.length < 2 ^ 32
  count : d.extraData = some (UInt32.ofNat vs.length)
  value : vs.sum < 2 ^ 64 → d.value.toNat = runningMean vs

theorem averages_newMetricData (htype : (conn.metric i).type = .average) (value : UInt64) :
    Averages [value.toNat] (newMetricData i value) where
  short := by simp
  count := if_pos htype
  value _ := by simp [newMetricData, runningMean, meanStep]

variable {vs : List Nat} {d d' : MetricData conn}

theorem succ_ne_zero_iff {n : Nat} (h : n < 2 ^ 32) :
    UInt32.ofNat n + 1 ≠ 0 ↔ n + 1 < 2 ^ 32 := by
  have hcast : UInt32.ofNat n + 1 = UInt32.ofNat (n + 1) := by rw [UInt32.ofNat_add]; rfl
  rw [hcast, Ne, ← UInt32.toNat_inj, UInt32.toNat_ofNat']
  show (n + 1) % 2 ^ 32 ≠ 0 ↔ _
  omega

theorem Averages.aggregate_eq (h : Averages vs d) (value : UInt64)
    (hshort : vs.length + 1 < 2 ^ 32) : ∃ d', aggregate .average d value = .ok (some (0, d')) ∧
      d'.metricName = d.metricName ∧ Averages (vs ++ [value.toNat]) d' := by
  have hne : UInt32.ofNat vs.length + 1 ≠ 0 := (succ_ne_zero_iff h.short).mpr hshort
  have hcast : UInt32.ofNat vs.length + 1 = UInt32.ofNat (vs.length + 1) := by
    rw [UInt32.ofNat_add]
    rfl
  have haggregate : aggregate .average d value = .ok (some (0, { d with
      value := (value + d.value * (UInt32.ofNat vs.length).toUInt64) /
        (UInt32.ofNat vs.length + 1).toUInt64
      extraData := some (UInt32.ofNat vs.length + 1) })) := by
    simp only [aggregate, h.count, if_neg hne]
  refine ⟨_, haggregate, rfl, ?_⟩
  constructor
  · rwa [List.length_append]
  · rw [List.length_append, List.length_singleton, ← hcast]
  · intro hsum
    rw [List.sum_append, List.sum_singleton] at hsum
    have hvalue := h.value (by omega)
    have hmul := runningMean_mul_le vs
    have hlen : (UInt32.ofNat vs.length).toUInt64.toNat = vs.length := by
      rw [UInt32.toNat_toUInt64, UInt32.toNat_ofNat', Nat.mod_eq_of_lt h.short]
    have hlen' : (UInt32.ofNat vs.length + 1).toUInt64.toNat = vs.length + 1 := by
      rw [hcast, UInt32.toNat_toUInt64, UInt32.toNat_ofNat', Nat.mod_eq_of_lt hshort]
    have hprod : runningMean vs * vs.length < 2 ^ 64 := by omega
    rw [runningMean_concat, UInt64.toNat_div, UInt64.toNat_add, UInt64.toNat_mul, hvalue, hlen,
      hlen', Nat.mod_eq_of_lt hprod, Nat.mod_eq_of_lt (by omega), Nat.add_comm]

theorem Averages.aggregate_full (h : Averages vs d) (value : UInt64)
    (hfull : ¬ vs.length + 1 < 2 ^ 32) : aggregate .average d value = .error .divisionByZero := by
  have hzero : UInt32.ofNat vs.length + 1 = 0 := by
    by_contra hne
    exact hfull ((succ_ne_zero_iff h.short).mp hne)
  simp only [aggregate, h.count, if_pos hzero]

/-- The entry of an average that every observation has reached. -/
structure Observing.Averaged (i : conn.Ref) (s : Observing conn) : Prop where
  pointed : s.batch.Pointed
  fresh : observed s.calls i = [] → s.batch.entriesOf i = []
  entry : ∀ d ∈ s.batch.entriesOf i, s.batch.entriesOf i = [d] ∧
    Averages (observedValues s.calls i) d

theorem observedValues_concat (calls : List (Call conn)) (hfind : conn.find c.name.text = some i) :
    observedValues (calls ++ [c]) i = observedValues calls i ++ [c.value.toNat] := by
  rw [observedValues, observed_concat, if_pos hfind, List.map_append]
  rfl

theorem Observing.Averaged.observe_first (hs : s.Averaged i)
    (htype : (conn.metric i).type = .average) (hfind : conn.find c.name.text = some i)
    (hfirst : observed s.calls i = []) : ∃ s' d, s.observe c = some s' ∧
      s'.batch.entriesOf i = [d] ∧ Averages (observedValues (s.calls ++ [c]) i) d := by
  have hnone := hs.fresh hfirst
  have hnew : (newMetricData i c.value).metricName = i := rfl
  refine ⟨_, newMetricData i c.value, hs.pointed.observe_append hfind fun _ => hnone, ?_, ?_⟩
  · have hold : Batch.entriesOf ⟨s.batch.metricData, s.batch.numMetrics⟩ i = [] := hnone
    show Batch.entriesOf _ i = _
    rw [entriesOf_concat _ _ _ s.batch.numMetrics, if_pos hnew, hold, List.nil_append]
  · rw [observedValues_concat _ hfind, observedValues, hfirst]
    exact averages_newMetricData htype c.value

/-- A further observation goes into the entry, or its count has wrapped. -/
theorem Observing.Averaged.observe_further (hs : s.Averaged i)
    (htype : (conn.metric i).type = .average) (hfind : conn.find c.name.text = some i)
    (hname : c.name = .own i) (hne : s.batch.entriesOf i ≠ []) :
    (∃ s' d, s.observe c = some s' ∧ s'.batch.entriesOf i = [d] ∧
        Averages (observedValues (s.calls ++ [c]) i) d) ∨
      s.observe c = none ∧ ¬ (observedValues (s.calls ++ [c]) i).length < 2 ^ 32 := by
  obtain ⟨passed, d, later, hsplit, hpassed, hd⟩ := exists_first_entry hne
  rw [← hname] at hpassed
  have hobserve := @observeMetric_found _ _ _ _ c.value _ _ _ hfind hsplit hpassed
    (hname ▸ not_notNamed_own hd)
  have hmem : d ∈ s.batch.entriesOf i :=
    mem_entriesOf.mpr ⟨hsplit ▸ List.mem_append_right _ List.mem_cons_self, hd⟩
  obtain ⟨hsingle, haverages⟩ := hs.entry d hmem
  rw [htype] at hobserve
  rw [observedValues_concat _ hfind]
  by_cases hshort : (observedValues s.calls i).length + 1 < 2 ^ 32
  · obtain ⟨d', haggregate, hsame, hnew⟩ := haverages.aggregate_eq c.value hshort
    rw [haggregate] at hobserve
    refine Or.inl ⟨_, d', Observing.observe_of_ok 0 hobserve, ?_, hnew⟩
    have hbatch : s.batch = ⟨passed ++ d :: later, s.batch.numMetrics⟩ := by rw [← hsplit]
    have hold := entriesOf_split passed later d s.batch.numMetrics i
    rw [← hbatch, hsingle, if_pos hd] at hold
    have hlen := congrArg List.length hold
    simp only [List.length_append, List.length_singleton] at hlen
    have hempty : (Batch.mk passed s.batch.numMetrics).entriesOf i = [] ∧
        (Batch.mk later s.batch.numMetrics).entriesOf i = [] :=
      ⟨List.length_eq_zero_iff.mp (by omega), List.length_eq_zero_iff.mp (by omega)⟩
    show (Batch.mk (passed ++ d' :: later) s.batch.numMetrics).entriesOf i = [d']
    rw [entriesOf_split, if_pos (hsame.trans hd), hempty.1, hempty.2]
    rfl
  · rw [haverages.aggregate_full c.value hshort] at hobserve
    refine Or.inr ⟨by rw [Observing.observe, hobserve]; rfl, ?_⟩
    rwa [List.length_append]

theorem Observing.Averaged.observe_cases (hs : s.Averaged i)
    (htype : (conn.metric i).type = .average) (hfind : conn.find c.name.text = some i)
    (hreach : s.Reaches i c) :
    (∃ s' d, s.observe c = some s' ∧ s'.batch.entriesOf i = [d] ∧
        Averages (observedValues (s.calls ++ [c]) i) d) ∨
      s.observe c = none ∧ ¬ (observedValues (s.calls ++ [c]) i).length < 2 ^ 32 := by
  by_cases hfirst : observed s.calls i = []
  · exact Or.inl (hs.observe_first htype hfind hfirst)
  · obtain ⟨hname, hne⟩ := hreach hfind hfirst
    exact hs.observe_further htype hfind hname hne

theorem Observing.Averaged.observe (hs : s.Averaged i) (htype : (conn.metric i).type = .average)
    (hreach : s.Reaches i c) (h : s.observe c = some s') : s'.Averaged i := by
  cases hfind : conn.find c.name.text with
  | none =>
      have hsame : observed (s.calls ++ [c]) i = observed s.calls i := by
        rw [observed_concat, if_neg (by simp [hfind])]
      simp only [Observing.observe, observeMetric, hfind] at h
      obtain rfl := Option.some.inj h
      refine ⟨hs.pointed, ?_, ?_⟩
      · rw [hsame]
        exact hs.fresh
      · rw [observedValues, hsame]
        exact hs.entry
  | some j =>
      obtain ⟨hbatch, hcalls⟩ := observed_of_observe hs.pointed hfind h
      have hpointed := hbatch.pointed hs.pointed hfind
      by_cases hij : j = i
      · subst hij
        have hfresh : observed s'.calls j ≠ [] := by
          rw [hcalls, observed_concat, if_pos hfind]
          simp
        obtain ⟨t, d, ht, hsingle, haverages⟩ | ⟨hnone, -⟩ := hs.observe_cases htype hfind hreach
        · rw [h] at ht
          obtain rfl := Option.some.inj ht
          refine ⟨hpointed, fun hnil => absurd hnil hfresh, fun e he => ?_⟩
          rw [hsingle] at he
          obtain rfl := List.mem_singleton.mp he
          exact ⟨hsingle, hcalls ▸ haverages⟩
        · rw [h] at hnone
          cases hnone
      · have hsame : observed s'.calls i = observed s.calls i := by
          have hother : conn.find c.name.text ≠ some i := by
            rw [hfind]
            exact fun h => hij (Option.some.inj h)
          rw [hcalls, observed_concat, if_neg hother]
        rcases hbatch.entriesOf_other hij with hkept | hdropped
        · refine ⟨hpointed, ?_, ?_⟩
          · rw [hkept, hsame]
            exact hs.fresh
          · rw [hkept, observedValues, hsame]
            exact hs.entry
        · refine ⟨hpointed, fun _ => hdropped, fun e he => ?_⟩
          rw [hdropped] at he
          cases he

theorem Observing.averaged_of_run (htype : (conn.metric i).type = .average)
    (hrun : Run Observing.observe (Observing.Reaches i) (.start conn) s) : s.Averaged i := by
  apply hrun.invariant
  · intro t c t' ht hok hstep
    exact ht.observe htype hok hstep
  · refine ⟨(Observing.good_start conn).pointed, fun _ => rfl, fun _ hd => ?_⟩
    cases hd

/-- The entry holds the mean of the observed values, rounded down. -/
def HoldsMean (calls : List (Call conn)) (b : Batch conn) (i : conn.Ref) : Prop :=
  (b.entriesOf i).map (fun d => d.value.toNat) =
    [(observedValues calls i).sum / (observedValues calls i).length]

/-- After an observation the entry is the rounded mean exactly when the observed values lose little
to the divisions and their number fits 32 bits. -/
theorem holdsMean_iff (htype : (conn.metric i).type = .average)
    (hrun : Run Observing.observe (Observing.Reaches i) (.start conn) s)
    (hfind : conn.find c.name.text = some i) (hreach : s.Reaches i c)
    (hsum : (observedValues (s.calls ++ [c]) i).sum < 2 ^ 64) :
    (∃ s', s.observe c = some s' ∧ HoldsMean s'.calls s'.batch i) ↔
      LosesLittle (observedValues (s.calls ++ [c]) i) ∧
        (observedValues (s.calls ++ [c]) i).length < 2 ^ 32 := by
  have hs := Observing.averaged_of_run htype hrun
  have hne : observedValues (s.calls ++ [c]) i ≠ [] := by
    rw [observedValues_concat _ hfind]
    simp
  obtain ⟨t, d, ht, hd, haverages⟩ | ⟨hnone, hfull⟩ := hs.observe_cases htype hfind hreach
  · have hcalls := (observed_of_observe hs.pointed hfind ht).2
    have hholds : HoldsMean t.calls t.batch i ↔
        LosesLittle (observedValues (s.calls ++ [c]) i) := by
      rw [HoldsMean, hcalls, hd, List.map_singleton, haverages.value hsum, List.singleton_inj,
        runningMean_eq_iff hne]
    constructor
    · intro ⟨t', ht', hmean⟩
      rw [ht] at ht'
      obtain rfl := Option.some.inj ht'
      exact ⟨hholds.mp hmean, haverages.short⟩
    · intro ⟨hlittle, _⟩
      exact ⟨t, ht, hholds.mpr hlittle⟩
  · constructor
    · intro ⟨t, ht, _⟩
      rw [hnone] at ht
      cases ht
    · intro ⟨_, hshort⟩
      exact absurd hshort hfull

def averageConnection : Connection := ⟨[⟨[0x78], .average⟩]⟩

def averageMetric : averageConnection.Ref := ⟨0, Nat.one_pos⟩

/-- The batch after the observations of a latency, each through the pointer to the metric's name. -/
def averaging (value count : Nat) (vs : List UInt64) : Observing averageConnection :=
  ⟨⟨[⟨averageMetric, UInt64.ofNat value, some (UInt32.ofNat count)⟩], 1⟩,
    vs.map fun v => ⟨.own averageMetric, v⟩⟩

theorem reaches_averaging (value count : Nat) (vs : List UInt64) (v : UInt64) :
    (averaging value count vs).Reaches averageMetric ⟨.own averageMetric, v⟩ := by
  intro _ _
  refine ⟨rfl, ?_⟩
  show [_] ≠ []
  simp

theorem averaging_first (v : UInt64) :
    Run Observing.observe (Observing.Reaches averageMetric) (.start averageConnection)
      (averaging v.toNat 1 [v]) := by
  have hreach : (Observing.start averageConnection).Reaches averageMetric
      ⟨.own averageMetric, v⟩ := fun _ hne => absurd rfl hne
  refine (Run.refl _).tail hreach ?_
  rw [averaging, UInt64.ofNat_toNat]
  rfl

/-- The mean of 2 and 4. -/
theorem holdsMean_twoAndFour : ∃ s', (averaging 2 1 [2]).observe ⟨.own averageMetric, 4⟩ = some s' ∧
    HoldsMean s'.calls s'.batch averageMetric :=
  (holdsMean_iff rfl (averaging_first 2) rfl (reaches_averaging 2 1 [2] 4) (by decide)).mpr
    (by decide)

/-- The mean of 1, 2 and 3 is 1 in the batch. -/
theorem not_holdsMean_oneToThree :
    ¬ ∀ (conn : Connection) (i : conn.Ref) (s : Observing conn) (c : Call conn),
      (conn.metric i).type = .average →
        Run Observing.observe (Observing.Reaches i) (.start conn) s →
          conn.find c.name.text = some i → s.Reaches i c →
            (observedValues (s.calls ++ [c]) i).sum < 2 ^ 64 →
              ∃ s', s.observe c = some s' ∧ HoldsMean s'.calls s'.batch i := by
  intro h
  have hrun : Run Observing.observe (Observing.Reaches averageMetric) (.start averageConnection)
      (averaging 1 2 [1, 2]) :=
    (averaging_first 1).tail (reaches_averaging 1 1 [1] 2) rfl
  obtain ⟨s', hobserve, hmean⟩ := h averageConnection averageMetric _ ⟨.own averageMetric, 3⟩ rfl
    hrun rfl (reaches_averaging 1 2 [1, 2] 3) (by decide)
  have hresult : (averaging 1 2 [1, 2]).observe ⟨.own averageMetric, 3⟩ =
      some (averaging 1 3 [1, 2, 3]) := rfl
  rw [hresult] at hobserve
  obtain rfl := Option.some.inj hobserve
  revert hmean
  show ¬ [_] = [_]
  decide

end PublicCloudCore.Yagra
