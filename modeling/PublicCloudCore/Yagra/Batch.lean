import PublicCloudCore.Framework.Transition

/-!
# Batches of metrics

`yagra_observe_metric`. A batch points at the names that the connection holds, and the caller
passes a pointer of its own: the lookup compares the texts, the search in the batch the pointers.
-/

namespace PublicCloudCore.Yagra

open Framework

/-- `yagra_batch_aggregation_strategy`; `yagra_define_metric` stores any `int`. -/
inductive AggregationType
  | keepFirst
  | keepLast
  | min
  | max
  | average
  | sum
  | none
  | unknown (code : Int)
  deriving DecidableEq, Repr

structure Metric where
  name : List UInt8
  type : AggregationType

structure Connection where
  metrics : List Metric

namespace Connection

/-- A pointer to one of the connection's metrics, or to the name in it. -/
abbrev Ref (conn : Connection) := Fin conn.metrics.length

def metric (conn : Connection) (i : conn.Ref) : Metric := conn.metrics[i]

/-- The first metric of that name. -/
def find (conn : Connection) (text : List UInt8) : Option conn.Ref :=
  conn.metrics.findFinIdx? fun m => m.name == text

end Connection

/-- What the caller passes: the name in a metric of the connection, or a buffer elsewhere. -/
inductive NamePtr (conn : Connection)
  | own (i : conn.Ref)
  | other (text : List UInt8)
  deriving DecidableEq

def NamePtr.text {conn : Connection} : NamePtr conn → List UInt8
  | .own i => (conn.metric i).name
  | .other text => text

/-- `yagra_metric_data_t`; the extra data is the number of observations of an average. -/
structure MetricData (conn : Connection) where
  metricName : conn.Ref
  value : UInt64
  extraData : Option UInt32

structure Batch (conn : Connection) where
  metricData : List (MetricData conn)
  numMetrics : Int32

inductive ObserveFault
  | divisionByZero
  | nullCount
  deriving DecidableEq, Repr

variable {conn : Connection}

def initBatch (conn : Connection) : Batch conn := ⟨[], 0⟩

def newMetricData (i : conn.Ref) (value : UInt64) : MetricData conn where
  metricName := i
  value := value
  extraData := if (conn.metric i).type = .average then some 1 else none

/-- The new entry starts the list where the search has passed no entry. -/
def Batch.add (b : Batch conn) (passed : List (MetricData conn)) (d : MetricData conn) :
    Batch conn where
  metricData := if passed = [] then [d] else b.metricData ++ [d]
  numMetrics := b.numMetrics + 1

/-- The return value and what becomes of an entry that the search has found; `none` where the
metric is treated as another one. -/
def aggregate (type : AggregationType) (d : MetricData conn) (value : UInt64) :
    Except ObserveFault (Option (Int × MetricData conn)) :=
  match type with
  | .keepFirst => .ok (some (0, d))
  | .keepLast => .ok (some (0, { d with value }))
  | .sum => .ok (some (0, { d with value := value + d.value }))
  | .min => .ok (some (0, { d with value := if value < d.value then value else d.value }))
  | .max => .ok (some (0, { d with value := if value > d.value then value else d.value }))
  | .average =>
      match d.extraData with
      | none => .error .nullCount
      | some count =>
          if count + 1 = 0 then .error .divisionByZero
          else
            .ok (some (0, { d with
              value := (value + d.value * count.toUInt64) / (count + 1).toUInt64
              extraData := some (count + 1) }))
  | .none => .ok none
  | .unknown _ => .ok (some (-1, d))

def MetricData.notNamed (name : NamePtr conn) (d : MetricData conn) : Bool :=
  NamePtr.own d.metricName != name

/-- The batch when the search has found an entry between the passed and the later ones. -/
def Batch.settle (b : Batch conn) (passed later : List (MetricData conn)) (new : MetricData conn) :
    Except ObserveFault (Option (Int × MetricData conn)) → Except ObserveFault (Int × Batch conn)
  | .error e => .error e
  | .ok (some (code, d)) => .ok (code, { b with metricData := passed ++ d :: later })
  | .ok none => .ok (0, b.add passed new)

def observeMetric (b : Batch conn) (name : NamePtr conn) (value : UInt64) :
    Except ObserveFault (Int × Batch conn) :=
  match conn.find name.text with
  | none => .ok (-1, b)
  | some i =>
      let passed := b.metricData.takeWhile (MetricData.notNamed name)
      let new := newMetricData i value
      match b.metricData.dropWhile (MetricData.notNamed name) with
      | [] => .ok (0, b.add passed new)
      | d :: later => b.settle passed later new (aggregate (conn.metric i).type d value)

end PublicCloudCore.Yagra
