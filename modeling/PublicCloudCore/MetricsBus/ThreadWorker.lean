import PublicCloudCore.MetricsBus.Stod

/-!
# The metrics bus

`threadWorker` on the bytes that one client sends before the end of file. `asio::read` brings the
bytes that are asked for or throws a `std::system_error`, and a buffer over a `std::array` is no
longer than the array. The Prometheus library throws for names that `checkMetricName` refuses.
-/

namespace PublicCloudCore.MetricsBus

inductive MetricType
  | counter
  | gauge
  | summary
  deriving DecidableEq

/-- The registered families by name. -/
abbrev Metrics := List (Text × MetricType)

/-- What the sources leave open: the check of the Prometheus library, and the length that a header
of more than eight bytes makes, by shifts of 64 bits and more and bytes behind the array. -/
structure Surroundings where
  checkMetricName : Text → Bool
  longHeader : Text → Nat → Nat

inductive Command
  | register (name description type : Text)
  -- the counter of uplink packets, once for each line
  | line
  | observe (name value : Text)
  deriving DecidableEq

structure Bus where
  metrics : Metrics
  -- the commands so far, the latest last
  log : List Command

/-- A step of the thread: the bus and the exception that leaves it. -/
abbrev Outcome := Bus × Option StdException

def Outcome.andThen (r : Outcome) (f : Bus → Outcome) : Outcome :=
  match r.2 with
  | none => f r.1
  | some _ => r

def forEach {α : Type} (f : α → Bus → Outcome) : List α → Bus → Outcome
  | [], b => (b, none)
  | a :: as, b => (f a b).andThen (forEach f as)

def Bus.logged (b : Bus) (c : Command) : Bus := { b with log := b.log ++ [c] }

/-- The pieces that `std::getline` reads one after the other. -/
def getlines (delim : UInt8) : Text → List Text
  | [] => []
  | b :: t =>
      if b = delim then [] :: getlines delim t
      else
        match getlines delim t with
        | [] => [[b]]
        | piece :: pieces => (b :: piece) :: pieces

def newline : UInt8 := 0x0A
def bar : UInt8 := 0x7C
def colon : UInt8 := 0x3A

/-- `key_name` and `key_value`. -/
def keyValue (piece : Text) : Text × Text :=
  (piece.takeWhile (· != colon), (piece.dropWhile (· != colon)).drop 1)

def summaryText : Text := ascii ['s', 'u', 'm', 'm', 'a', 'r', 'y']
def gaugeText : Text := ascii ['g', 'a', 'u', 'g', 'e']
def nameText : Text := ascii ['n', 'a', 'm', 'e']
def descriptionText : Text := ascii ['d', 'e', 's', 'c', 'r', 'i', 'p', 't', 'i', 'o', 'n']
def typeText : Text := ascii ['t', 'y', 'p', 'e']

def metricType (type : Text) : MetricType :=
  if type = summaryText then .summary else if type = gaugeText then .gauge else .counter

def registerMetric (env : Surroundings) (name description type : Text) (b : Bus) : Outcome :=
  let b := b.logged (.register name description type)
  if (b.metrics.lookup name).isSome then (b, none)
  else if env.checkMetricName name then
    ({ b with metrics := (name, metricType type) :: b.metrics }, none)
  else (b, some .invalidArgument)

structure Definition where
  name : Text
  description : Text
  type : Text

def Definition.set (d : Definition) (piece : Text) : Definition :=
  let (key, value) := keyValue piece
  if key = nameText then { d with name := value }
  else if key = descriptionText then { d with description := value }
  else if key = typeText then { d with type := value }
  else d

def parseDefinition (line : Text) : Definition :=
  (getlines bar line).foldl Definition.set ⟨[], [], []⟩

def registerLine (env : Surroundings) (line : Text) : Bus → Outcome :=
  let d := parseDefinition line
  registerMetric env d.name d.description d.type

def processMetricDefinition (env : Surroundings) (message : Text) : Bus → Outcome :=
  forEach (registerLine env) (getlines newline message)

/-- A value for a registered metric goes through `std::stod`. -/
def observeValue (name value : Text) (b : Bus) : Outcome :=
  let b := b.logged (.observe name value)
  match b.metrics.lookup name with
  | none => (b, none)
  | some _ =>
      match stod value with
      | .ok () => (b, none)
      | .error e => (b, some e)

def observeLine (line : Text) (b : Bus) : Outcome :=
  forEach (fun piece => observeValue (keyValue piece).1 (keyValue piece).2) (getlines bar line)
    (b.logged .line)

def processMetricBatchObservation (message : Text) : Bus → Outcome :=
  forEach observeLine (getlines newline message)

/-- `asio::read` of `n` bytes. -/
def read (n : Nat) (stream : Text) : Option (Text × Text) :=
  if n ≤ stream.length then some (stream.take n, stream.drop n) else none

inductive MessageKind
  | definition
  | batch
  deriving DecidableEq

def findMarker : Text → Option (MessageKind × Text)
  | [] => none
  | b :: t =>
      if b ≠ 0x99 then findMarker t
      else
        match t with
        | [] => none
        | c :: t =>
            if c = 0x98 then some (.definition, t)
            else if c = 0x99 then some (.batch, t)
            else findMarker t

/-- The number that bytes spell, the lowest first. -/
def littleEndian : Text → Nat
  | [] => 0
  | b :: t => b.toNat + 256 * littleEndian t

def readDefinition (stream : Text) : Option (Text × Text) := do
  let (header, stream) ← read 2 stream
  read (min (littleEndian header) 1024) stream

/-- The body of a batch; a header of no bytes ends the message. -/
def readBatch (env : Surroundings) (stream : Text) : Option (Text × Text) := do
  let (header, stream) ← read 1 stream
  let headerLength := (header.headD 0).toNat
  let (header, stream) ← read (min headerLength 16) stream
  if headerLength = 0 then some ([], stream)
  else
    let length :=
      if headerLength ≤ 8 then littleEndian header else env.longHeader header headerLength
    read (min length 1024) stream

def readMessage (env : Surroundings) : MessageKind → Text → Option (Text × Text)
  | .definition => readDefinition
  | .batch => readBatch env

def processMessage (env : Surroundings) (kind : MessageKind) (message : Text) : Bus → Outcome :=
  match kind with
  | .definition => processMetricDefinition env message
  | .batch => processMetricBatchObservation message

theorem read_length {n : Nat} {stream message rest : Text}
    (h : read n stream = some (message, rest)) : rest.length ≤ stream.length := by
  rw [read] at h
  split at h
  · cases h
    simp
  · cases h

theorem findMarker_length {stream rest : Text} {kind : MessageKind}
    (h : findMarker stream = some (kind, rest)) : rest.length < stream.length := by
  fun_induction findMarker stream with
  | case1 => cases h
  | case2 b t hb ih =>
      have hlt := ih h
      rw [List.length_cons]
      omega
  | case3 => cases h
  | case4 =>
      cases h
      simp only [List.length_cons]
      omega
  | case5 =>
      cases h
      simp only [List.length_cons]
      omega
  | case6 b hb c t hc hc' ih =>
      have hlt := ih h
      simp only [List.length_cons]
      omega

theorem readMessage_length {env : Surroundings} {kind : MessageKind} {stream message rest : Text}
    (h : readMessage env kind stream = some (message, rest)) : rest.length ≤ stream.length := by
  cases kind with
  | definition =>
      rw [readMessage, readDefinition] at h
      obtain ⟨⟨header, stream'⟩, hread, hrest⟩ := Option.bind_eq_some_iff.mp h
      exact Nat.le_trans (read_length hrest) (read_length hread)
  | batch =>
      rw [readMessage, readBatch] at h
      obtain ⟨⟨one, stream₁⟩, hone, h⟩ := Option.bind_eq_some_iff.mp h
      obtain ⟨⟨header, stream₂⟩, hheader, h⟩ := Option.bind_eq_some_iff.mp h
      have hle := Nat.le_trans (read_length hheader) (read_length hone)
      simp only at h
      split at h
      · cases h
        exact hle
      · exact Nat.le_trans (read_length h) hle

/-- The loop of `threadWorker`; it ends with an exception. -/
def serve (env : Surroundings) (stream : Text) (b : Bus) : Bus × StdException :=
  match _hmarker : findMarker stream with
  | none => (b, .systemError)
  | some (kind, rest) =>
      match _hmessage : readMessage env kind rest with
      | none => (b, .systemError)
      | some (message, rest') =>
          match processMessage env kind message b with
          | (b, some e) => (b, e)
          | (b, none) => serve env rest' b
termination_by stream.length
decreasing_by
  exact Nat.lt_of_le_of_lt (readMessage_length _hmessage) (findMarker_length _hmarker)

/-- `threadWorker` with the exception that leaves it. The name of the peer is asked for in front of
the `try` block. -/
def threadWorker (env : Surroundings) (remoteEndpoint : Bool) (metrics : Metrics) (stream : Text) :
    Outcome :=
  if remoteEndpoint then
    match serve env stream ⟨metrics, []⟩ with
    | (b, .systemError) => (b, none)
    | (b, e) => (b, some e)
  else (⟨metrics, []⟩, some .systemError)

end PublicCloudCore.MetricsBus
