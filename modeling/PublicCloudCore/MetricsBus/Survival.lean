import PublicCloudCore.MetricsBus.ThreadWorker

/-!
# What ends the metrics bus

The messages of a stream are a list of commands, and the thread is their execution one after the
other. Two kinds of command throw what the thread does not catch: a definition whose name the
library refuses, and a value of a registered metric that is no number.
-/

namespace PublicCloudCore.MetricsBus

section Loops

variable {α β : Type} (f : α → Bus → Outcome)

theorem forEach_append (as bs : List α) (b : Bus) :
    forEach f (as ++ bs) b = (forEach f as b).andThen (forEach f bs) := by
  induction as generalizing b with
  | nil => rfl
  | cons a as ih =>
      rw [List.cons_append, forEach, forEach]
      cases h : f a b with
      | mk b' e =>
          cases e with
          | none => exact ih b'
          | some e => rfl

theorem forEach_map (g : β → α) (bs : List β) (b : Bus) :
    forEach f (bs.map g) b = forEach (fun x => f (g x)) bs b := by
  induction bs generalizing b with
  | nil => rfl
  | cons x bs ih =>
      rw [List.map_cons, forEach, forEach]
      congr 1
      funext b'
      exact ih b'

theorem forEach_flatMap (g : β → List α) (bs : List β) (b : Bus) :
    forEach f (bs.flatMap g) b = forEach (fun x => forEach f (g x)) bs b := by
  induction bs generalizing b with
  | nil => rfl
  | cons x bs ih =>
      rw [List.flatMap_cons, forEach_append, forEach]
      congr 1
      funext b'
      exact ih b'

end Loops

variable (env : Surroundings)

def perform : Command → Bus → Outcome
  | .register name description type => registerMetric env name description type
  | .line => fun b => (b.logged .line, none)
  | .observe name value => observeValue name value

def registerCommand (line : Text) : Command :=
  let d := parseDefinition line
  .register d.name d.description d.type

def observeCommand (piece : Text) : Command :=
  .observe (keyValue piece).1 (keyValue piece).2

def lineCommands (line : Text) : List Command := .line :: (getlines bar line).map observeCommand

def commandsOf : MessageKind → Text → List Command
  | .definition, message => (getlines newline message).map registerCommand
  | .batch, message => (getlines newline message).flatMap lineCommands

def messages (stream : Text) : List (MessageKind × Text) :=
  match _hmarker : findMarker stream with
  | none => []
  | some (kind, rest) =>
      match _hmessage : readMessage env kind rest with
      | none => []
      | some (message, rest') => (kind, message) :: messages rest'
termination_by stream.length
decreasing_by
  exact Nat.lt_of_le_of_lt (readMessage_length _hmessage) (findMarker_length _hmarker)

def commands (stream : Text) : List Command :=
  (messages env stream).flatMap fun m => commandsOf m.1 m.2

theorem observeLine_eq (line : Text) :
    observeLine line = forEach (perform env) (lineCommands line) := by
  funext b
  exact (forEach_map (perform env) observeCommand (getlines bar line) (b.logged .line)).symm

theorem processMessage_eq (kind : MessageKind) (message : Text) (b : Bus) :
    processMessage env kind message b = forEach (perform env) (commandsOf kind message) b := by
  cases kind with
  | definition =>
      exact (forEach_map (perform env) registerCommand (getlines newline message) b).symm
  | batch =>
      have hline : observeLine = fun line => forEach (perform env) (lineCommands line) := by
        funext line
        exact observeLine_eq env line
      rw [commandsOf, forEach_flatMap, ← hline]
      rfl

variable {env} {stream rest rest' message : Text} {kind : MessageKind}

theorem messages_of_end (h : findMarker stream = none) : messages env stream = [] := by
  rw [messages]
  split
  · rfl
  · next h' =>
      rw [h] at h'
      cases h'

theorem messages_of_cut (h : findMarker stream = some (kind, rest))
    (hm : readMessage env kind rest = none) : messages env stream = [] := by
  rw [messages]
  split
  · rfl
  · next h' =>
      rw [h] at h'
      cases h'
      split
      · rfl
      · next hm' =>
          rw [hm] at hm'
          cases hm'

theorem messages_of_message (h : findMarker stream = some (kind, rest))
    (hm : readMessage env kind rest = some (message, rest')) :
    messages env stream = (kind, message) :: messages env rest' := by
  rw [messages]
  split
  · next h' =>
      rw [h] at h'
      cases h'
  · next h' =>
      rw [h] at h'
      cases h'
      split
      · next hm' =>
          rw [hm] at hm'
          cases hm'
      · next hm' =>
          rw [hm] at hm'
          cases hm'
          rfl

/-- The end of file ends the loop that no command has ended. -/
def Outcome.orEnd (r : Outcome) : Bus × StdException := (r.1, r.2.getD .systemError)

theorem serve_eq (stream : Text) (b : Bus) :
    serve env stream b = (forEach (perform env) (commands env stream) b).orEnd := by
  fun_induction serve env stream b with
  | case1 stream b hmarker =>
      rw [commands, messages_of_end hmarker]
      rfl
  | case2 stream b kind rest hmarker hmessage =>
      rw [commands, messages_of_cut hmarker hmessage]
      rfl
  | case3 stream b kind rest hmarker message rest' hmessage b' e hprocess =>
      rw [commands, messages_of_message hmarker hmessage, List.flatMap_cons, forEach_append,
        ← processMessage_eq, hprocess]
      rfl
  | case4 stream b kind rest hmarker message rest' hmessage b' hprocess ih =>
      rw [commands, messages_of_message hmarker hmessage, List.flatMap_cons, forEach_append,
        ← processMessage_eq, hprocess]
      exact ih

/-- The name is in the map at first or is defined by an earlier command. -/
def Registered (metrics : Metrics) (before : List Command) (name : Text) : Prop :=
  (metrics.lookup name).isSome ∨
    ∃ description type, Command.register name description type ∈ before

/-- A definition brings a valid name or one that is registered, and a value for a registered
metric is a number that `std::stod` converts. -/
def Harmless (env : Surroundings) (metrics : Metrics) (before : List Command) : Command → Prop
  | .register name _ _ => env.checkMetricName name ∨ Registered metrics before name
  | .line => True
  | .observe name value => Registered metrics before name → stod value = .ok ()

theorem registered_nil (metrics : Metrics) (name : Text) :
    Registered metrics [] name ↔ (metrics.lookup name).isSome := by
  simp [Registered]

section Register

variable {name : Text} {b : Bus} (description type : Text)

theorem registerMetric_known (h : (b.metrics.lookup name).isSome) :
    registerMetric env name description type b =
      (b.logged (.register name description type), none) := by
  rw [registerMetric]
  exact if_pos h

theorem registerMetric_new (h : ¬(b.metrics.lookup name).isSome) (hc : env.checkMetricName name) :
    registerMetric env name description type b = (⟨(name, metricType type) :: b.metrics,
      b.log ++ [.register name description type]⟩, none) := by
  rw [registerMetric]
  exact (if_neg h).trans (if_pos hc)

theorem registerMetric_refused (h : ¬(b.metrics.lookup name).isSome)
    (hc : ¬env.checkMetricName name) : registerMetric env name description type b =
      (b.logged (.register name description type), some .invalidArgument) := by
  rw [registerMetric]
  exact (if_neg h).trans (if_neg hc)

end Register

theorem observeValue_eq (name value : Text) (b : Bus) : observeValue name value b =
    (b.logged (.observe name value), if (b.metrics.lookup name).isSome then
      match stod value with
      | .ok () => none
      | .error e => some e
    else none) := by
  rw [observeValue]
  simp only [Bus.logged]
  cases b.metrics.lookup name with
  | none => rfl
  | some t => cases stod value <;> rfl

theorem perform_ok_iff (c : Command) (b : Bus) :
    (perform env c b).2 = none ↔ Harmless env b.metrics [] c := by
  cases c with
  | line => exact ⟨fun _ => trivial, fun _ => rfl⟩
  | register name description type =>
      rw [Harmless, registered_nil, perform]
      by_cases hn : (b.metrics.lookup name).isSome
      · simp [registerMetric_known, hn]
      · by_cases hc : env.checkMetricName name
        · simp [registerMetric_new, hn, hc]
        · simp [registerMetric_refused, hn, hc]
  | observe name value =>
      rw [Harmless, registered_nil, perform, observeValue_eq]
      by_cases hn : (b.metrics.lookup name).isSome
      · cases hs : stod value <;> simp [hn]
      · simp [hn]

theorem perform_log (c : Command) (b : Bus) : (perform env c b).1.log = b.log ++ [c] := by
  cases c with
  | line => rfl
  | register name description type =>
      rw [perform]
      by_cases hn : (b.metrics.lookup name).isSome
      · rw [registerMetric_known _ _ hn]
        rfl
      · by_cases hc : env.checkMetricName name
        · rw [registerMetric_new _ _ hn hc]
        · rw [registerMetric_refused _ _ hn hc]
          rfl
  | observe name value =>
      rw [perform, observeValue_eq]
      rfl

theorem perform_ne_systemError (c : Command) (b : Bus) :
    (perform env c b).2 ≠ some .systemError := by
  cases c with
  | line => nofun
  | register name description type =>
      rw [perform]
      by_cases hn : (b.metrics.lookup name).isSome
      · rw [registerMetric_known _ _ hn]
        nofun
      · by_cases hc : env.checkMetricName name
        · rw [registerMetric_new _ _ hn hc]
          nofun
        · rw [registerMetric_refused _ _ hn hc]
          nofun
  | observe name value =>
      rw [perform, observeValue_eq]
      by_cases hn : (b.metrics.lookup name).isSome
      · have hs := stod_ne_systemError value
        cases hv : stod value with
        | ok u => simp [hn]
        | error e =>
            rw [hv] at hs
            simpa [hn] using hs
      · simp [hn]

/-- After a command that succeeds, the names of the map are those of before and the one that the
command defines. -/
theorem registered_perform {c : Command} {b : Bus} (h : (perform env c b).2 = none)
    (before : List Command) (name : Text) :
    Registered (perform env c b).1.metrics before name ↔
      Registered b.metrics (c :: before) name := by
  cases c with
  | line => simp [Registered, perform, Bus.logged]
  | observe n v =>
      rw [perform, observeValue_eq]
      simp [Registered, Bus.logged]
  | register n d t =>
      rw [perform] at h ⊢
      by_cases hn : (b.metrics.lookup n).isSome
      · rw [registerMetric_known _ _ hn]
        simp only [Registered, Bus.logged, List.mem_cons, Command.register.injEq]
        grind
      · by_cases hc : env.checkMetricName n
        · rw [registerMetric_new _ _ hn hc]
          simp only [Registered, List.lookup_cons, List.mem_cons, Command.register.injEq]
          by_cases he : name = n
          · subst he
            exact iff_of_true (.inl (by simp)) (.inr ⟨d, t, .inl ⟨rfl, rfl, rfl⟩⟩)
          · simp [he, beq_eq_false_iff_ne.mpr he]
        · rw [registerMetric_refused _ _ hn hc] at h
          cases h

theorem harmless_cons {c : Command} {b : Bus} (h : (perform env c b).2 = none)
    (before : List Command) (d : Command) :
    Harmless env (perform env c b).1.metrics before d ↔ Harmless env b.metrics (c :: before) d := by
  cases d with
  | line => rfl
  | register n x t => rw [Harmless, Harmless, registered_perform h]
  | observe n v => rw [Harmless, Harmless, registered_perform h]

theorem forEach_perform_iff (cs : List Command) (b : Bus) :
    (forEach (perform env) cs b).2 = none ↔
      ∀ before c after, cs = before ++ c :: after → Harmless env b.metrics before c := by
  induction cs generalizing b with
  | nil => simp [forEach]
  | cons c cs ih =>
      rw [forEach, Outcome.andThen]
      cases hc : (perform env c b).2 with
      | none =>
          have hfirst := (perform_ok_iff c b).mp hc
          simp only [ih]
          constructor
          · intro h before d after hcs
            cases before with
            | nil =>
                obtain ⟨rfl, -⟩ := List.cons.inj hcs
                exact hfirst
            | cons e before =>
                obtain ⟨rfl, hrest⟩ := List.cons.inj hcs
                exact (harmless_cons hc before d).mp (h before d after hrest)
          · intro h before d after hcs
            rw [harmless_cons hc]
            exact h (c :: before) d after (by rw [hcs, List.cons_append])
      | some e =>
          simp only [hc, reduceCtorEq, false_iff]
          intro h
          have hfirst := (perform_ok_iff c b).mpr (h [] c cs rfl)
          rw [hc] at hfirst
          cases hfirst

theorem forEach_perform_log {cs : List Command} {b : Bus}
    (h : (forEach (perform env) cs b).2 = none) :
    (forEach (perform env) cs b).1.log = b.log ++ cs := by
  induction cs generalizing b with
  | nil => simp [forEach]
  | cons c cs ih =>
      rw [forEach, Outcome.andThen] at h ⊢
      cases hc : (perform env c b).2 with
      | none =>
          simp only [hc] at h
          simp only [ih h, perform_log, List.append_assoc, List.singleton_append]
      | some e =>
          simp only [hc] at h
          cases h

theorem forEach_perform_ne_systemError (cs : List Command) (b : Bus) :
    (forEach (perform env) cs b).2 ≠ some .systemError := by
  induction cs generalizing b with
  | nil => nofun
  | cons c cs ih =>
      rw [forEach, Outcome.andThen]
      cases hc : (perform env c b).2 with
      | none => exact ih _
      | some e =>
          have hne := @perform_ne_systemError env c b
          simpa only [hc] using hne

/-- The handler of the thread catches the end of file and nothing else that happens here. -/
theorem threadWorker_eq (metrics : Metrics) (stream : Text) :
    threadWorker env true metrics stream =
      forEach (perform env) (commands env stream) ⟨metrics, []⟩ := by
  rw [threadWorker, if_pos rfl, serve_eq]
  have hne := @forEach_perform_ne_systemError env (commands env stream) ⟨metrics, []⟩
  generalize forEach (perform env) (commands env stream) ⟨metrics, []⟩ = r at hne ⊢
  obtain ⟨b, e⟩ := r
  cases e with
  | none => rfl
  | some e =>
      cases e with
      | systemError => exact absurd rfl hne
      | invalidArgument => rfl
      | outOfRange => rfl

/-- No exception leaves the thread, which has done all that the stream asks for. -/
def SurvivesClient (env : Surroundings) (remoteEndpoint : Bool) (metrics : Metrics)
    (stream : Text) : Prop :=
  (threadWorker env remoteEndpoint metrics stream).2 = none ∧
    (threadWorker env remoteEndpoint metrics stream).1.log = commands env stream

/-- The bus survives a client exactly when the name of the peer is known and every command of the
stream is harmless at its place. -/
theorem survivesClient_iff (env : Surroundings) (remoteEndpoint : Bool) (metrics : Metrics)
    (stream : Text) : SurvivesClient env remoteEndpoint metrics stream ↔
      remoteEndpoint ∧ ∀ before c after, commands env stream = before ++ c :: after →
        Harmless env metrics before c := by
  cases remoteEndpoint with
  | false => simp [SurvivesClient, threadWorker]
  | true =>
      have hiff := @forEach_perform_iff env (commands env stream) ⟨metrics, []⟩
      rw [SurvivesClient, threadWorker_eq, ← hiff]
      constructor
      · intro h
        exact ⟨rfl, h.1⟩
      · intro h
        exact ⟨h.2, forEach_perform_log h.2⟩

def isNameStart (b : UInt8) : Bool :=
  (0x61 ≤ toLower b && toLower b ≤ 0x7A) || b = 0x5F || b = colon

def prometheusName : Text → Bool
  | [] => false
  | b :: t => isNameStart b && t.all fun c => isNameStart c || (decimalDigit? c).isSome

def prometheus : Surroundings := ⟨prometheusName, fun _ _ => 0⟩

/-- The definition of the counter `a`, and a batch that observes it with the value `x`. -/
def textValue : Text :=
  [0x99, 0x98, 20, 0] ++ nameText ++ [colon, 0x61, bar] ++ typeText ++ [colon] ++
    ascii ['c', 'o', 'u', 'n', 't', 'e', 'r'] ++ [bar] ++
    [0x99, 0x99, 1, 4, 0x61, colon, 0x78, bar]

/-- The value `x` ends the bus. -/
theorem not_survivesClient_textValue :
    (threadWorker prometheus true [] textValue).2 = some .invalidArgument ∧
      ¬∀ env metrics stream, SurvivesClient env true metrics stream := by
  have hthrows : (threadWorker prometheus true [] textValue).2 = some .invalidArgument := by
    decide +kernel
  refine ⟨hthrows, ?_⟩
  intro h
  have hsurvives := (h prometheus [] textValue).1
  rw [hthrows] at hsurvives
  cases hsurvives

end PublicCloudCore.MetricsBus
