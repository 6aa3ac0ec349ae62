import PublicCloudCore.Yagra.Batch

/-!
# What a batch holds of the observations

The value of an entry is a fold of the observations of its metric as long as every further
observation passes the pointer that the entry has.
-/

namespace PublicCloudCore.Yagra

open Framework

variable {conn : Connection}

/-- A call of `yagra_observe_metric`. -/
structure Call (conn : Connection) where
  name : NamePtr conn
  value : UInt64

def Call.valueOf? (i : conn.Ref) (c : Call conn) : Option UInt64 :=
  if conn.find c.name.text = some i then some c.value else none

def observed (calls : List (Call conn)) (i : conn.Ref) : List UInt64 :=
  calls.filterMap (Call.valueOf? i)

def strategyFold? : AggregationType → Option (List UInt64 → Option UInt64)
  | .keepFirst => some List.head?
  | .keepLast => some List.getLast?
  | .min => some List.min?
  | .max => some List.max?
  | .sum => some fun vs => if vs = [] then none else some vs.sum
  | _ => none

def Batch.entriesOf (b : Batch conn) (i : conn.Ref) : List (MetricData conn) :=
  b.metricData.filter fun d => d.metricName = i

/-- The batch is what the observations make of it. -/
structure Aggregates (calls : List (Call conn)) (b : Batch conn) : Prop where
  single : ∀ i, (conn.metric i).type ≠ .none → (b.entriesOf i).length ≤ 1
  value : ∀ i fold, strategyFold? (conn.metric i).type = some fold →
    (b.entriesOf i).map MetricData.value = (fold (observed calls i)).toList
  num : b.numMetrics.toInt = b.metricData.length

/-- The batch and the calls that have been made. -/
structure Observing (conn : Connection) where
  batch : Batch conn
  calls : List (Call conn)

def Observing.start (conn : Connection) : Observing conn := ⟨initBatch conn, []⟩

def Observing.observe (s : Observing conn) (c : Call conn) : Option (Observing conn) :=
  match observeMetric s.batch c.name c.value with
  | .ok (_, batch) => some ⟨batch, s.calls ++ [c]⟩
  | .error _ => none

/-- A call that keeps the batch: a further observation passes the pointer to the metric's own
name, one without aggregation does not pass it where the metric has the first entry, the counter of
an average does not wrap, and neither does the number of entries. -/
structure Call.Fits (c : Call conn) (b : Batch conn) (i : conn.Ref) : Prop where
  own : (conn.metric i).type ≠ .none → b.entriesOf i ≠ [] → c.name = .own i
  first : (conn.metric i).type = .none → c.name = .own i →
    b.metricData.head?.map MetricData.metricName ≠ some i
  count : (conn.metric i).type = .average → ∀ d ∈ b.entriesOf i, d.extraData ≠ some (-1)
  room : (conn.metric i).type = .none ∨ b.entriesOf i = [] → b.numMetrics ≠ Int32.maxValue

def Observing.Ok (s : Observing conn) (c : Call conn) : Prop :=
  ∀ i, conn.find c.name.text = some i → c.Fits s.batch i

def combine (type : AggregationType) (old new : UInt64) : UInt64 :=
  match type with
  | .keepLast => new
  | .min => if new < old then new else old
  | .max => if new > old then new else old
  | .sum => new + old
  | _ => old

theorem strategyFold?_nil {type : AggregationType} {fold : List UInt64 → Option UInt64}
    (h : strategyFold? type = some fold) : fold [] = none := by
  cases type <;> simp only [strategyFold?, Option.some.injEq, reduceCtorEq] at h <;>
    subst h <;> rfl

theorem min_eq_combine (old new : UInt64) : min old new = combine .min old new := by
  show (if old ≤ new then old else new) = if new < old then new else old
  by_cases h : new < old
  · rw [if_pos h, if_neg (UInt64.not_le.mpr h)]
  · rw [if_neg h, if_pos (UInt64.not_lt.mp h)]

theorem max_eq_combine (old new : UInt64) : max old new = combine .max old new := by
  show (if old ≤ new then new else old) = if new > old then new else old
  by_cases h : old < new
  · rw [if_pos h, if_pos (UInt64.le_of_lt h)]
  · rw [if_neg h]
    split
    · next hle => exact UInt64.le_antisymm (UInt64.not_lt.mp h) hle
    · rfl

theorem strategyFold?_concat {type : AggregationType} {fold : List UInt64 → Option UInt64}
    (h : strategyFold? type = some fold) (vs : List UInt64) (v : UInt64) :
    fold (vs ++ [v]) = some ((fold vs).elim v fun old => combine type old v) := by
  cases type with
  | keepFirst =>
      obtain rfl := Option.some.inj h
      cases vs <;> rfl
  | keepLast =>
      obtain rfl := Option.some.inj h
      rw [List.getLast?_concat]
      cases vs.getLast? <;> rfl
  | min =>
      obtain rfl := Option.some.inj h
      cases vs with
      | nil => rfl
      | cons a as =>
          rw [List.cons_append, List.min?_cons', List.min?_cons', List.foldl_append]
          exact congrArg some (min_eq_combine _ v)
  | max =>
      obtain rfl := Option.some.inj h
      cases vs with
      | nil => rfl
      | cons a as =>
          rw [List.cons_append, List.max?_cons', List.max?_cons', List.foldl_append]
          exact congrArg some (max_eq_combine _ v)
  | sum =>
      obtain rfl := Option.some.inj h
      cases vs with
      | nil => simp
      | cons a as =>
          simp only [List.cons_append, reduceCtorEq, if_false, Option.elim_some, combine]
          rw [← List.cons_append, List.sum_append, List.sum_singleton, UInt64.add_comm]
  | average => cases h
  | none => cases h
  | unknown code => cases h

theorem Connection.name_of_find {text : List UInt8} {i : conn.Ref} (h : conn.find text = some i) :
    (conn.metric i).name = text :=
  beq_iff_eq.mp (List.findFinIdx?_eq_some_iff.mp h).1

/-- Entries point at metrics that the lookup finds, and averages count. -/
structure Batch.Pointed (b : Batch conn) : Prop where
  found : ∀ d ∈ b.metricData, conn.find (conn.metric d.metricName).name = some d.metricName
  counted : ∀ d ∈ b.metricData, (conn.metric d.metricName).type = .average → d.extraData.isSome

variable {b : Batch conn} {name : NamePtr conn} {i : conn.Ref} {value : UInt64}

theorem notNamed_own (d : MetricData conn) (i : conn.Ref) :
    d.notNamed (.own i) = true ↔ d.metricName ≠ i := by
  rw [MetricData.notNamed, bne_iff_ne, Ne, NamePtr.own.injEq]

theorem Batch.Pointed.notNamed (hb : b.Pointed) (hfind : conn.find name.text = some i)
    (hname : name ≠ .own i) : ∀ d ∈ b.metricData, d.notNamed name = true := by
  intro d hd
  rw [MetricData.notNamed, bne_iff_ne]
  intro hown
  have hfound := hb.found d hd
  subst hown
  rw [NamePtr.text, hfound] at hfind
  exact hname (congrArg NamePtr.own (Option.some.inj hfind))

theorem mem_entriesOf {d : MetricData conn} :
    d ∈ b.entriesOf i ↔ d ∈ b.metricData ∧ d.metricName = i := by
  rw [Batch.entriesOf, List.mem_filter, decide_eq_true_eq]

theorem entriesOf_eq_nil_iff : b.entriesOf i = [] ↔ ∀ d ∈ b.metricData, d.metricName ≠ i := by
  rw [Batch.entriesOf, List.filter_eq_nil_iff]
  simp only [decide_eq_true_eq]

theorem observeMetric_append (hfind : conn.find name.text = some i)
    (hall : ∀ d ∈ b.metricData, d.notNamed name = true) :
    observeMetric b name value =
      .ok (0, ⟨b.metricData ++ [newMetricData i value], b.numMetrics + 1⟩) := by
  simp only [observeMetric, hfind, List.dropWhile_eq_nil_iff.mpr hall,
    List.takeWhile_eq_self_iff.mpr hall, Batch.add]
  split
  · next h => rw [h, List.nil_append]
  · rfl

theorem observeMetric_found {passed later : List (MetricData conn)} {d : MetricData conn}
    (hfind : conn.find name.text = some i) (hb : b.metricData = passed ++ d :: later)
    (hpassed : ∀ e ∈ passed, e.notNamed name = true) (hd : ¬ d.notNamed name = true) :
    observeMetric b name value = b.settle passed later (newMetricData i value)
      (aggregate (conn.metric i).type d value) := by
  have htake : b.metricData.takeWhile (MetricData.notNamed name) = passed := by
    rw [hb, List.takeWhile_append_of_pos hpassed, List.takeWhile_cons_of_neg hd, List.append_nil]
  have hdrop : b.metricData.dropWhile (MetricData.notNamed name) = d :: later := by
    rw [hb, List.dropWhile_append_of_pos hpassed, List.dropWhile_cons_of_neg hd]
  simp only [observeMetric, hfind, htake, hdrop]

theorem exists_first_entry (h : b.entriesOf i ≠ []) :
    ∃ passed d later, b.metricData = passed ++ d :: later ∧
      (∀ e ∈ passed, e.notNamed (.own i) = true) ∧ d.metricName = i := by
  obtain ⟨d, hd⟩ := List.exists_mem_of_ne_nil _ h
  have hsome : (b.metricData.find? fun d => d.metricName = i).isSome := by
    rw [List.find?_isSome]
    exact ⟨d, (mem_entriesOf.mp hd).1, decide_eq_true (mem_entriesOf.mp hd).2⟩
  obtain ⟨e, he⟩ := Option.isSome_iff_exists.mp hsome
  obtain ⟨hei, passed, later, hb, hpassed⟩ := List.find?_eq_some_iff_append.mp he
  refine ⟨passed, e, later, hb, fun f hf => ?_, of_decide_eq_true hei⟩
  rw [notNamed_own]
  simpa using hpassed f hf

theorem aggregate_spec {type : AggregationType} {d d' : MetricData conn} {code : Int}
    (h : aggregate type d value = .ok (some (code, d'))) :
    d'.metricName = d.metricName ∧ (∀ fold, strategyFold? type = some fold →
      d'.value = combine type d.value value) ∧ (type = .average → d'.extraData.isSome) := by
  cases type with
  | average =>
      simp only [aggregate] at h
      split at h
      · cases h
      · split at h
        · cases h
        · cases h
          exact ⟨rfl, fun _ hfold => (by cases hfold), fun _ => rfl⟩
  | none => cases h
  | keepFirst =>
      cases h
      exact ⟨rfl, fun _ _ => rfl, fun htype => by cases htype⟩
  | keepLast =>
      cases h
      exact ⟨rfl, fun _ _ => rfl, fun htype => by cases htype⟩
  | min =>
      cases h
      exact ⟨rfl, fun _ _ => rfl, fun htype => by cases htype⟩
  | max =>
      cases h
      exact ⟨rfl, fun _ _ => rfl, fun htype => by cases htype⟩
  | sum =>
      cases h
      exact ⟨rfl, fun _ _ => rfl, fun htype => by cases htype⟩
  | unknown code =>
      cases h
      exact ⟨rfl, fun _ hfold => (by cases hfold), fun htype => (by cases htype)⟩

theorem exists_aggregate {type : AggregationType} {d : MetricData conn} (value : UInt64)
    (htype : type ≠ .none)
    (hcount : type = .average → ∃ count, d.extraData = some count ∧ count ≠ -1) :
    ∃ code d', aggregate type d value = .ok (some (code, d')) := by
  cases type with
  | average =>
      obtain ⟨count, hd, hne⟩ := hcount rfl
      have hnonzero : count + 1 ≠ 0 := by
        intro hzero
        exact hne (eq_neg_of_add_eq_zero_left hzero)
      simp only [aggregate, hd, if_neg hnonzero]
      exact ⟨_, _, rfl⟩
  | none => exact absurd rfl htype
  | keepFirst => exact ⟨_, _, rfl⟩
  | keepLast => exact ⟨_, _, rfl⟩
  | min => exact ⟨_, _, rfl⟩
  | max => exact ⟨_, _, rfl⟩
  | sum => exact ⟨_, _, rfl⟩
  | unknown code => exact ⟨_, _, rfl⟩

structure Observing.Good (s : Observing conn) : Prop where
  aggregates : Aggregates s.calls s.batch
  pointed : s.batch.Pointed

theorem observed_concat (calls : List (Call conn)) (c : Call conn) (j : conn.Ref) :
    observed (calls ++ [c]) j =
      if conn.find c.name.text = some j then observed calls j ++ [c.value]
      else observed calls j := by
  rw [observed, List.filterMap_append]
  by_cases h : conn.find c.name.text = some j
  · have hvalue : c.valueOf? j = some c.value := if_pos h
    rw [if_pos h, List.filterMap_cons_some hvalue]
    rfl
  · have hvalue : c.valueOf? j = none := if_neg h
    rw [if_neg h, List.filterMap_cons_none hvalue, List.filterMap_nil, List.append_nil]
    rfl

theorem toInt_succ {n : Int32} (h : n ≠ Int32.maxValue) : (n + 1).toInt = n.toInt + 1 := by
  have hlt : n.toInt ≠ Int32.maxValue.toInt := fun heq => h (Int32.toInt_inj.mp heq)
  have hmax := Int32.toInt_maxValue
  have hle := n.toInt_le
  have hge := n.le_toInt
  rw [Int32.toInt_add]
  exact Int.bmod_eq_of_le (by rw [Int32.toInt_one]; omega) (by rw [Int32.toInt_one]; omega)

theorem toInt_succ_maxValue : (Int32.maxValue + 1).toInt = -2 ^ 31 := by decide

variable {s : Observing conn} {c : Call conn}

theorem entriesOf_concat (ds : List (MetricData conn)) (d : MetricData conn) (n m : Int32)
    (j : conn.Ref) :
    (Batch.mk (ds ++ [d]) n).entriesOf j =
      (Batch.mk ds m).entriesOf j ++ if d.metricName = j then [d] else [] := by
  rw [Batch.entriesOf, List.filter_append]
  congr 1
  by_cases h : d.metricName = j
  · rw [if_pos h]
    exact List.filter_cons_of_pos (decide_eq_true h)
  · rw [if_neg h]
    exact List.filter_cons_of_neg (by rwa [decide_eq_true_eq])

theorem Observing.Good.append (hs : s.Good) (hfind : conn.find c.name.text = some i)
    (hnew : (conn.metric i).type ≠ .none → s.batch.entriesOf i = [])
    (hroom : s.batch.numMetrics ≠ Int32.maxValue) :
    Good ⟨⟨s.batch.metricData ++ [newMetricData i c.value], s.batch.numMetrics + 1⟩,
      s.calls ++ [c]⟩ := by
  have hentries := entriesOf_concat s.batch.metricData (newMetricData i c.value)
    (s.batch.numMetrics + 1) s.batch.numMetrics
  constructor
  · constructor
    · intro j hj
      show (Batch.entriesOf _ j).length ≤ 1
      rw [hentries, List.length_append]
      by_cases hij : i = j
      · subst hij
        have hnil : Batch.entriesOf ⟨s.batch.metricData, s.batch.numMetrics⟩ i = [] := hnew hj
        rw [hnil]
        split <;> simp
      · have hne : (newMetricData i c.value).metricName ≠ j := hij
        rw [if_neg hne]
        exact hs.aggregates.single j hj
    · intro j fold hfold
      have hold : (s.batch.entriesOf j).map MetricData.value = _ := hs.aggregates.value j fold hfold
      show (Batch.entriesOf _ j).map MetricData.value = _
      rw [hentries, List.map_append, observed_concat, hfind]
      by_cases hij : i = j
      · subst hij
        have htype : (conn.metric i).type ≠ .none := by
          intro htype
          rw [htype] at hfold
          cases hfold
        rw [hnew htype] at hold
        have hnone : fold (observed s.calls i) = none := by
          cases hvalue : fold (observed s.calls i) with
          | none => rfl
          | some v =>
              rw [hvalue] at hold
              cases hold
        have hnil : Batch.entriesOf ⟨s.batch.metricData, s.batch.numMetrics⟩ i = [] := hnew htype
        have hname : (newMetricData i c.value).metricName = i := rfl
        rw [hnil, if_pos hname, if_pos rfl, strategyFold?_concat hfold, hnone]
        rfl
      · have hne : (newMetricData i c.value).metricName ≠ j := hij
        rw [if_neg hne, if_neg fun h => hij (Option.some.inj h), ← hold]
        exact List.append_nil _
    · show (s.batch.numMetrics + 1).toInt = ((s.batch.metricData ++ [_]).length : Int)
      rw [toInt_succ hroom, hs.aggregates.num, List.length_append, List.length_singleton]
      rfl
  · constructor
    · intro d hd
      rcases List.mem_append.mp hd with hd | hd
      · exact hs.pointed.found d hd
      · obtain rfl := List.mem_singleton.mp hd
        exact (congrArg conn.find (conn.name_of_find hfind)).trans hfind
    · intro d hd htype
      rcases List.mem_append.mp hd with hd | hd
      · exact hs.pointed.counted d hd htype
      · obtain rfl := List.mem_singleton.mp hd
        have haverage : (conn.metric i).type = .average := htype
        show (newMetricData i c.value).extraData.isSome
        rw [newMetricData, if_pos haverage]
        rfl

theorem entriesOf_split (passed later : List (MetricData conn)) (d : MetricData conn) (n : Int32)
    (j : conn.Ref) :
    (Batch.mk (passed ++ d :: later) n).entriesOf j =
      (Batch.mk passed n).entriesOf j ++
        ((if d.metricName = j then [d] else []) ++ (Batch.mk later n).entriesOf j) := by
  rw [Batch.entriesOf, List.filter_append]
  congr 1
  by_cases h : d.metricName = j
  · rw [if_pos h]
    exact List.filter_cons_of_pos (decide_eq_true h)
  · rw [if_neg h]
    exact List.filter_cons_of_neg (by rwa [decide_eq_true_eq])

theorem Observing.Good.update (hs : s.Good) (hfind : conn.find c.name.text = some i)
    (htype : (conn.metric i).type ≠ .none) {passed later : List (MetricData conn)}
    {d d' : MetricData conn} {code : Int} (hb : s.batch.metricData = passed ++ d :: later)
    (hd : d.metricName = i)
    (haggregate : aggregate (conn.metric i).type d c.value = .ok (some (code, d'))) :
    Good ⟨{ s.batch with metricData := passed ++ d' :: later }, s.calls ++ [c]⟩ := by
  obtain ⟨hname, hcombine, hcounted⟩ := aggregate_spec haggregate
  let n := s.batch.numMetrics
  have hbatch : s.batch = ⟨passed ++ d :: later, n⟩ := by rw [← hb]
  have hold : ∀ j, s.batch.entriesOf j = (Batch.mk passed n).entriesOf j ++
      ((if d.metricName = j then [d] else []) ++ (Batch.mk later n).entriesOf j) := by
    intro j
    rw [hbatch]
    exact entriesOf_split passed later d n j
  have hnew := entriesOf_split passed later d' n
  -- the entry is the only one of its metric
  have honly : (Batch.mk passed n).entriesOf i = [] ∧ (Batch.mk later n).entriesOf i = [] := by
    have hsingle := hs.aggregates.single i htype
    rw [hold, if_pos hd, List.length_append, List.length_append, List.length_singleton] at hsingle
    exact ⟨List.length_eq_zero_iff.mp (by omega), List.length_eq_zero_iff.mp (by omega)⟩
  have hentry : s.batch.entriesOf i = [d] := by rw [hold, if_pos hd, honly.1, honly.2]; rfl
  have hentry' : (Batch.mk (passed ++ d' :: later) n).entriesOf i = [d'] := by
    rw [hnew, if_pos (hname.trans hd), honly.1, honly.2]
    rfl
  have hother : ∀ j, j ≠ i →
      (Batch.mk (passed ++ d' :: later) n).entriesOf j = s.batch.entriesOf j := by
    intro j hj
    have hdj : d.metricName ≠ j := fun h => hj (h.symm.trans hd)
    rw [hnew, hold, if_neg hdj, if_neg (hname ▸ hdj)]
  constructor
  · constructor
    · intro j hj
      by_cases hij : j = i
      · subst hij
        exact Nat.le_of_eq (congrArg List.length hentry')
      · exact (congrArg List.length (hother j hij)).trans_le (hs.aggregates.single j hj)
    · intro j fold hfold
      have hvalue := hs.aggregates.value j fold hfold
      show (Batch.entriesOf _ j).map MetricData.value = (fold (observed (s.calls ++ [c]) j)).toList
      rw [observed_concat, hfind]
      by_cases hij : j = i
      · subst hij
        have hvalue : (fold (observed s.calls j)).toList = [d.value] := by
          rw [← hvalue, hentry]
          rfl
        have hsome : fold (observed s.calls j) = some d.value := by
          cases hfolded : fold (observed s.calls j) with
          | none =>
              rw [hfolded] at hvalue
              cases hvalue
          | some v =>
              rw [hfolded] at hvalue
              exact congrArg some (List.cons.inj hvalue).1
        rw [if_pos rfl, strategyFold?_concat hfold, hsome]
        exact (congrArg (List.map MetricData.value) hentry').trans
          (congrArg (fun v => [v]) (hcombine fold hfold))
      · rw [if_neg fun h => hij (Option.some.inj h).symm, ← hvalue]
        exact congrArg (List.map MetricData.value) (hother j hij)
    · have hnum := hs.aggregates.num
      rw [hb] at hnum
      rw [hnum, List.length_append, List.length_append]
      rfl
  · constructor
    · intro e he
      rcases List.mem_append.mp he with he | he
      · exact hs.pointed.found e (hb ▸ List.mem_append_left _ he)
      rcases List.mem_cons.mp he with rfl | he
      · rw [hname]
        exact hs.pointed.found d (hb ▸ List.mem_append_right _ List.mem_cons_self)
      · exact hs.pointed.found e (hb ▸ List.mem_append_right _ (List.mem_cons_of_mem _ he))
    · intro e he hetype
      rcases List.mem_append.mp he with he | he
      · exact hs.pointed.counted e (hb ▸ List.mem_append_left _ he) hetype
      rcases List.mem_cons.mp he with rfl | he
      · apply hcounted
        rwa [hname, hd] at hetype
      · exact hs.pointed.counted e (hb ▸ List.mem_append_right _ (List.mem_cons_of_mem _ he)) hetype

theorem Observing.observe_of_ok (code : Int) {batch : Batch conn}
    (h : observeMetric s.batch c.name c.value = .ok (code, batch)) :
    s.observe c = some ⟨batch, s.calls ++ [c]⟩ := by
  rw [observe, h]

theorem Batch.Pointed.observe_append (hb : s.batch.Pointed)
    (hfind : conn.find c.name.text = some i)
    (hmiss : c.name = .own i → s.batch.entriesOf i = []) :
    s.observe c = some ⟨⟨s.batch.metricData ++ [newMetricData i c.value], s.batch.numMetrics + 1⟩,
      s.calls ++ [c]⟩ := by
  apply Observing.observe_of_ok 0 (observeMetric_append hfind ?_)
  by_cases hname : c.name = .own i
  · intro d hd
    rw [hname, notNamed_own]
    exact entriesOf_eq_nil_iff.mp (hmiss hname) d hd
  · exact hb.notNamed hfind hname

theorem not_notNamed_own {d : MetricData conn} (hd : d.metricName = i) :
    ¬ d.notNamed (.own i) = true := by
  rw [notNamed_own]
  exact not_not_intro hd

/-- The search finds an entry of a metric without aggregation. -/
theorem Observing.observe_another {passed later : List (MetricData conn)} {d : MetricData conn}
    (hfind : conn.find c.name.text = some i) (hname : c.name = .own i)
    (htype : (conn.metric i).type = .none) (hb : s.batch.metricData = passed ++ d :: later)
    (hpassed : ∀ e ∈ passed, e.notNamed (.own i) = true) (hd : d.metricName = i) :
    s.observe c = some ⟨s.batch.add passed (newMetricData i c.value), s.calls ++ [c]⟩ := by
  rw [← hname] at hpassed
  apply observe_of_ok 0
  rw [observeMetric_found hfind hb hpassed (hname ▸ not_notNamed_own hd), htype]
  rfl

theorem Observing.Good.observe (hs : s.Good) (hok : s.Ok c) :
    ∃ s', s.observe c = some s' ∧ s'.Good := by
  cases hfind : conn.find c.name.text with
  | none =>
      have hsame : ∀ j, observed (s.calls ++ [c]) j = observed s.calls j := by
        intro j
        rw [observed_concat, hfind, if_neg (by simp)]
      refine ⟨⟨s.batch, s.calls ++ [c]⟩, observe_of_ok (-1) ?_, ?_⟩
      · simp only [observeMetric, hfind]
      · refine ⟨⟨hs.aggregates.single, fun j fold hfold => ?_, hs.aggregates.num⟩, hs.pointed⟩
        rw [hsame]
        exact hs.aggregates.value j fold hfold
  | some i =>
      have hfits := hok i hfind
      by_cases hhit : c.name = .own i ∧ s.batch.entriesOf i ≠ []
      · obtain ⟨hname, hne⟩ := hhit
        obtain ⟨passed, d, later, hb, hpassed, hd⟩ := exists_first_entry hne
        by_cases htype : (conn.metric i).type = .none
        · have hcons : passed ≠ [] := by
            intro hnil
            apply hfits.first htype hname
            rw [hb, hnil, ← hd]
            rfl
          have hadd : s.batch.add passed (newMetricData i c.value) =
              ⟨s.batch.metricData ++ [newMetricData i c.value], s.batch.numMetrics + 1⟩ := by
            rw [Batch.add, if_neg hcons]
          refine ⟨_, observe_another hfind hname htype hb hpassed hd, ?_⟩
          rw [hadd]
          exact hs.append hfind (fun h => absurd htype h) (hfits.room (Or.inl htype))
        · have hmem : d ∈ s.batch.metricData := hb ▸ List.mem_append_right _ List.mem_cons_self
          have hcount : (conn.metric i).type = .average →
              ∃ count, d.extraData = some count ∧ count ≠ -1 := by
            intro haverage
            obtain ⟨count, hcount⟩ :=
              Option.isSome_iff_exists.mp (hs.pointed.counted d hmem (hd ▸ haverage))
            refine ⟨count, hcount, fun hwrap => ?_⟩
            rw [hwrap] at hcount
            exact hfits.count haverage d (mem_entriesOf.mpr ⟨hmem, hd⟩) hcount
          obtain ⟨code, d', haggregate⟩ := exists_aggregate c.value htype hcount
          refine ⟨_, observe_of_ok code ?_, hs.update hfind htype hb hd haggregate⟩
          rw [← hname] at hpassed
          rw [observeMetric_found hfind hb hpassed (hname ▸ not_notNamed_own hd), haggregate,
            Batch.settle]
      · have hnone : (conn.metric i).type ≠ .none → s.batch.entriesOf i = [] := by
          intro htype
          by_contra hne
          exact hhit ⟨hfits.own htype hne, hne⟩
        have hmiss : c.name = .own i → s.batch.entriesOf i = [] := by
          intro hname
          by_contra hne
          exact hhit ⟨hname, hne⟩
        have hroom : (conn.metric i).type = .none ∨ s.batch.entriesOf i = [] :=
          or_iff_not_imp_left.mpr hnone
        exact ⟨_, hs.pointed.observe_append hfind hmiss, hs.append hfind hnone (hfits.room hroom)⟩

/-- A new entry wherever it goes does not fit a full counter. -/
theorem not_aggregates_full {calls : List (Call conn)} {ds : List (MetricData conn)}
    (hfull : s.batch.numMetrics = Int32.maxValue) :
    ¬ Aggregates calls ⟨ds, s.batch.numMetrics + 1⟩ := by
  intro h
  have hnum : (s.batch.numMetrics + 1).toInt = (ds.length : Int) := h.num
  rw [hfull, toInt_succ_maxValue] at hnum
  omega

/-- A call that leaves what the batch promises fits. -/
theorem Observing.Good.ok_of_aggregates (hs : s.Good) {s' : Observing conn}
    (hobserve : s.observe c = some s') (hafter : Aggregates s'.calls s'.batch) : s.Ok c := by
  intro i hfind
  have hown : (conn.metric i).type ≠ .none → s.batch.entriesOf i ≠ [] → c.name = .own i := by
    intro htype hne
    by_contra hname
    -- a second entry of the metric
    rw [hs.pointed.observe_append hfind fun h => absurd h hname] at hobserve
    obtain rfl := Option.some.inj hobserve
    have hsingle := hafter.single i htype
    have hnew : (newMetricData i c.value).metricName = i := rfl
    rw [entriesOf_concat _ _ _ s.batch.numMetrics, if_pos hnew, List.length_append] at hsingle
    have hpos : 0 < (s.batch.entriesOf i).length := List.length_pos_iff.mpr hne
    have hone : ([newMetricData i c.value] : List (MetricData conn)).length = 1 := rfl
    have hold : (Batch.mk s.batch.metricData s.batch.numMetrics).entriesOf i =
      s.batch.entriesOf i := rfl
    rw [hold, hone] at hsingle
    omega
  constructor
  · exact hown
  · intro htype hname hhead
    obtain ⟨d, hd, hdi⟩ := Option.map_eq_some_iff.mp hhead
    have hmem := List.mem_of_mem_head? hd
    have hne : s.batch.entriesOf i ≠ [] := List.ne_nil_of_mem (mem_entriesOf.mpr ⟨hmem, hdi⟩)
    obtain ⟨passed, e, later, hb, hpassed, he⟩ := exists_first_entry hne
    have hnil : passed = [] := by
      cases passed with
      | nil => rfl
      | cons f fs =>
          rw [hb] at hd
          obtain rfl := Option.some.inj hd
          exact absurd hdi ((notNamed_own _ _).mp (hpassed f List.mem_cons_self))
    -- the new entry has taken the place of the others
    rw [observe_another hfind hname htype hb hpassed he] at hobserve
    obtain rfl := Option.some.inj hobserve
    have hnum : (s.batch.numMetrics + 1).toInt =
        ((s.batch.add passed (newMetricData i c.value)).metricData.length : Int) := hafter.num
    rw [Batch.add, if_pos hnil] at hnum
    have hone : s.batch.numMetrics + 1 = 1 := Int32.toInt_inj.mp hnum
    have hzero : s.batch.numMetrics = 0 := by simpa using hone
    have hlen := hs.aggregates.num
    rw [hzero, hb] at hlen
    simp at hlen
    omega
  · intro htype d hd hwrap
    obtain ⟨hmem, hdi⟩ := mem_entriesOf.mp hd
    have hne : s.batch.entriesOf i ≠ [] := List.ne_nil_of_mem hd
    have hnot : (conn.metric i).type ≠ .none := by
      rw [htype]
      decide
    have hname := hown hnot hne
    obtain ⟨passed, e, later, hb, hpassed, he⟩ := exists_first_entry hne
    have hsingle := hs.aggregates.single i hnot
    have heq : e = d := by
      have hemem : e ∈ s.batch.entriesOf i :=
        mem_entriesOf.mpr ⟨hb ▸ List.mem_append_right _ List.mem_cons_self, he⟩
      obtain ⟨f, hf⟩ : ∃ f, s.batch.entriesOf i = [f] :=
        List.length_eq_one_iff.mp (Nat.le_antisymm hsingle (List.length_pos_iff.mpr hne))
      rw [hf] at hemem hd
      rw [List.mem_singleton.mp hemem, List.mem_singleton.mp hd]
    rw [← hname] at hpassed
    have hfault : observeMetric s.batch c.name c.value = .error .divisionByZero := by
      rw [observeMetric_found hfind hb hpassed (hname ▸ not_notNamed_own he), heq, htype]
      simp only [aggregate, hwrap]
      rfl
    rw [Observing.observe, hfault] at hobserve
    cases hobserve
  · intro hnew hfull
    by_cases hhit : c.name = .own i ∧ s.batch.entriesOf i ≠ []
    · obtain ⟨hname, hne⟩ := hhit
      have htype : (conn.metric i).type = .none := hnew.resolve_right hne
      obtain ⟨passed, d, later, hb, hpassed, hd⟩ := exists_first_entry hne
      rw [observe_another hfind hname htype hb hpassed hd] at hobserve
      obtain rfl := Option.some.inj hobserve
      exact not_aggregates_full hfull hafter
    · rw [hs.pointed.observe_append hfind] at hobserve
      · obtain rfl := Option.some.inj hobserve
        exact not_aggregates_full hfull hafter
      · intro hname
        by_contra hne
        exact hhit ⟨hname, hne⟩

theorem Observing.good_start (conn : Connection) : (Observing.start conn).Good where
  aggregates := {
    single := fun _ _ => Nat.zero_le 1
    value := fun i fold hfold => by
      rw [show observed (Observing.start conn).calls i = [] from rfl, strategyFold?_nil hfold]
      rfl
    num := rfl }
  pointed := {
    found := fun _ hd => by cases hd
    counted := fun _ hd => by cases hd }

/-- The batch is what the observations make of it after every call of a run whose calls fit, and
after no call that does not. -/
theorem aggregates_iff (hrun : Run Observing.observe Observing.Ok (.start conn) s) :
    Aggregates s.calls s.batch ∧
      ∀ c, s.Ok c ↔ ∃ s', s.observe c = some s' ∧ Aggregates s'.calls s'.batch := by
  have hs : s.Good := hrun.invariant (fun t c t' ht hok hstep => by
    obtain ⟨t'', hstep', ht'⟩ := ht.observe hok
    rw [hstep] at hstep'
    exact Option.some.inj hstep' ▸ ht') (Observing.good_start conn)
  refine ⟨hs.aggregates, fun c => ⟨fun hok => ?_, fun ⟨s', hobserve, hafter⟩ => ?_⟩⟩
  · obtain ⟨s', hobserve, hs'⟩ := hs.observe hok
    exact ⟨s', hobserve, hs'.aggregates⟩
  · exact hs.ok_of_aggregates hobserve hafter

/-- A connection with one metric, which is summed up. -/
def sumConnection : Connection := ⟨[⟨[0x78], .sum⟩]⟩

def sumMetric : sumConnection.Ref := ⟨0, Nat.one_pos⟩

/-- Two observations through the pointer to the metric's own name. -/
theorem aggregates_sum : ∃ s, Observing.observe (.start sumConnection) ⟨.own sumMetric, 2⟩ =
    some s ∧ s.Ok ⟨.own sumMetric, 3⟩ ∧
      ∃ s', s.observe ⟨.own sumMetric, 3⟩ = some s' ∧ Aggregates s'.calls s'.batch := by
  have hone : ∀ i : sumConnection.Ref, i = sumMetric := fun i => Fin.ext (Nat.lt_one_iff.mp i.2)
  have hok : ∀ (s : Observing sumConnection) (value : UInt64),
      s.batch.numMetrics ≠ Int32.maxValue → s.Ok ⟨.own sumMetric, value⟩ := by
    intro s value hroom i _
    obtain rfl := hone i
    exact {
      own := fun _ _ => rfl
      first := fun htype => by cases htype
      count := fun htype => by cases htype
      room := fun _ => hroom }
  have hstart := hok (.start sumConnection) 2 (by decide)
  have hfirst : Observing.observe (.start sumConnection) ⟨.own sumMetric, 2⟩ =
      some ⟨⟨[⟨sumMetric, 2, none⟩], 1⟩, [⟨.own sumMetric, 2⟩]⟩ := rfl
  have hsecond := hok ⟨⟨[⟨sumMetric, 2, none⟩], 1⟩, [⟨.own sumMetric, 2⟩]⟩ 3 (by decide)
  exact ⟨_, hfirst, hsecond,
    ((aggregates_iff ((Run.refl _).tail hstart hfirst)).2 _).mp hsecond⟩

/-- The name is one of a metric that has been defined. -/
def Observing.Defined (_ : Observing conn) (c : Call conn) : Prop :=
  (conn.find c.name.text).isSome

/-- Two observations through another pointer: the metric has two entries. -/
theorem not_aggregates_other_buffer :
    ¬ ∀ (conn : Connection) (s : Observing conn),
      Run Observing.observe Observing.Defined (.start conn) s → Aggregates s.calls s.batch := by
  intro h
  let c : Call sumConnection := ⟨.other [0x78], 2⟩
  have hdefined : ∀ s : Observing sumConnection, s.Defined c := fun _ => rfl
  have hrun : Run Observing.observe Observing.Defined (.start sumConnection)
      ⟨⟨[⟨sumMetric, 2, none⟩, ⟨sumMetric, 2, none⟩], 2⟩, [c, c]⟩ :=
    ((Run.refl _).tail (hdefined _) rfl).tail (hdefined _) rfl
  have hsingle := (h sumConnection _ hrun).single sumMetric (by decide)
  revert hsingle
  decide

end PublicCloudCore.Yagra
