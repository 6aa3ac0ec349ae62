import PublicCloudCore.MetricsBus.Survival
import PublicCloudCore.Yagra.Frames

/-!
# From the metrics library to the bus

The frames of a connection, with other bytes between them, are the messages that the thread of the
bus reads, and each message is the call that was made. A definition that the Prometheus library
refuses ends the bus in front of the next frame.
-/

namespace PublicCloudCore.MetricsBus

open Yagra

section Separators

variable {delim : UInt8} {p t : Text}

theorem getlines_append (h : delim ∉ p) :
    getlines delim (p ++ delim :: t) = p :: getlines delim t := by
  induction p with
  | nil => rw [List.nil_append, getlines, if_pos rfl]
  | cons b p ih =>
      have hb : b ≠ delim := fun hb => h (by simp [hb])
      rw [List.cons_append, getlines, if_neg hb, ih fun hp => h (by simp [hp])]

theorem getlines_single (h : delim ∉ p) (hne : p ≠ []) : getlines delim p = [p] := by
  induction p with
  | nil => exact absurd rfl hne
  | cons b p ih =>
      have hb : b ≠ delim := fun hb => h (by simp [hb])
      rw [getlines, if_neg hb]
      cases p with
      | nil => rfl
      | cons c p => rw [ih (fun hp => h (by simp [hp])) (by simp)]

theorem getlines_pieces {α : Type} {piece : α → Text} (as : List α)
    (h : ∀ a ∈ as, delim ∉ piece a) :
    getlines delim (as.flatMap fun a => piece a ++ [delim]) = as.map piece := by
  induction as with
  | nil => rfl
  | cons a as ih =>
      rw [List.flatMap_cons, List.append_assoc, List.singleton_append,
        getlines_append (h a (by simp)), ih fun b hb => h b (by simp [hb]), List.map_cons]

theorem keyValue_append {key : Text} (h : colon ∉ key) (value : Text) :
    keyValue (key ++ colon :: value) = (key, value) := by
  have hkey : ∀ b ∈ key, (b != colon) = true := by
    intro b hb
    simp only [bne_iff_ne]
    intro he
    exact h (he ▸ hb)
  rw [keyValue, List.takeWhile_append_of_pos hkey, List.dropWhile_append_of_pos hkey]
  simp

end Separators

inductive LibraryCall
  | define (name description : Text) (type : AggregationType)
  | send (numMetrics : Int32) (entries : List (Text × UInt64))

def LibraryCall.frame : LibraryCall → Option Text
  | .define name description type => defineMetric name description type
  | .send numMetrics entries => sendEntries numMetrics entries

def amfText : Text := ascii ['a', 'm', 'f', '_']

/-- The type that a definition carries, empty for the strategies without one. -/
def typeName : AggregationType → Text
  | .sum => ascii ['c', 'o', 'u', 'n', 't', 'e', 'r']
  | .none => summaryText
  | .average => summaryText
  | _ => []

/-- The same call, as the bus is to see it. -/
def LibraryCall.decoded : LibraryCall → List Command
  | .define name description type => [.register (amfText ++ name) description (typeName type)]
  | .send _ entries => .line :: entries.map fun e =>
      .observe (amfText ++ e.1) (decimalText e.2.toNat)

/-- A name that fits between the separators of a batch, and a value that `%ld` prints without a
sign. -/
structure PlainEntry (e : Text × UInt64) : Prop where
  noBar : bar ∉ e.1
  noNewline : newline ∉ e.1
  noColon : colon ∉ e.1
  short : e.1.length < 64
  signed : e.2.toNat < 2 ^ 63

/-- Texts without separators; a batch holds no more entries than `num_metrics` counts, and the
estimate of its length fits an `int`. -/
def LibraryCall.Plain : LibraryCall → Prop
  | .define name description _ =>
      (bar ∉ name ∧ newline ∉ name) ∧ bar ∉ description ∧ newline ∉ description
  | .send numMetrics entries => (∀ e ∈ entries, PlainEntry e) ∧ entries ≠ [] ∧
      entries.length ≤ numMetrics.toInt ∧ numMetrics.toInt < 2 ^ 24

/-- A call with the frame that it sends and the other bytes that follow the frame. -/
structure Sending where
  call : LibraryCall
  frame : Text
  gap : Text
  sent : call.frame = some frame
  plain : call.Plain
  noMarker : 0x99 ∉ gap

def stream (gap : Text) (sendings : List Sending) : Text :=
  gap ++ sendings.flatMap fun s => s.frame ++ s.gap

theorem definitionBody_eq (name description : Text) (type : AggregationType) :
    definitionBody name description type = (nameText ++ colon :: (amfText ++ name)) ++ bar ::
      ((descriptionText ++ colon :: description) ++ bar :: typeField type) := by
  have hname : ascii ['n', 'a', 'm', 'e', ':', 'a', 'm', 'f', '_'] =
      nameText ++ colon :: amfText := rfl
  have hdescription : ascii ['d', 'e', 's', 'c', 'r', 'i', 'p', 't', 'i', 'o', 'n', ':'] =
      descriptionText ++ [colon] := rfl
  have hbar : ascii ['|'] = [bar] := rfl
  simp only [definitionBody, hname, hdescription, hbar, List.append_assoc, List.cons_append,
    List.nil_append]

theorem parseDefinition_body {name description : Text} (hname : bar ∉ name)
    (hdescription : bar ∉ description) (type : AggregationType) :
    parseDefinition (definitionBody name description type) =
      ⟨amfText ++ name, description, typeName type⟩ := by
  have hfirst : bar ∉ nameText ++ colon :: (amfText ++ name) := by
    simp only [List.mem_append, List.mem_cons, hname, or_false]
    decide
  have hsecond : bar ∉ descriptionText ++ colon :: description := by
    simp only [List.mem_append, List.mem_cons, hdescription, or_false]
    decide
  have hcolon : colon ∉ nameText ∧ colon ∉ descriptionText := by decide
  have hname : nameText ≠ descriptionText := by decide
  have hset : ∀ d : Definition, (d.set (nameText ++ colon :: (amfText ++ name))) =
      { d with name := amfText ++ name } := by
    intro d
    rw [Definition.set, keyValue_append hcolon.1]
    exact if_pos rfl
  have hset' : ∀ d : Definition, (d.set (descriptionText ++ colon :: description)) =
      { d with description := description } := by
    intro d
    rw [Definition.set, keyValue_append hcolon.2]
    exact (if_neg hname.symm).trans (if_pos rfl)
  rw [parseDefinition, definitionBody_eq, getlines_append hfirst, getlines_append hsecond,
    List.foldl_cons, List.foldl_cons, hset, hset']
  cases type <;> rfl

theorem newline_not_mem_definitionBody {name description : Text} (hname : newline ∉ name)
    (hdescription : newline ∉ description) (type : AggregationType) :
    newline ∉ definitionBody name description type := by
  have htype : newline ∉ typeField type := by
    cases type with
    | unknown code => exact List.not_mem_nil
    | _ => decide
  rw [definitionBody_eq]
  simp only [List.mem_append, List.mem_cons, hname, hdescription, htype, or_false]
  decide

def entryPiece (e : Text × UInt64) : Text :=
  (amfText ++ e.1) ++ colon :: decimalText e.2.toNat

theorem entryText_eq {e : Text × UInt64} (h : PlainEntry e) :
    entryText e.1 e.2 = entryPiece e ++ [bar] := by
  have hcolon : ascii [':'] = [colon] := rfl
  have hbar : ascii ['|'] = [bar] := rfl
  simp only [entryText, longText, if_pos h.signed, hcolon, hbar, entryPiece, amfText,
    List.append_assoc, List.cons_append, List.nil_append]

theorem not_mem_decimalText {b : UInt8} (hb : decimalDigit? b = none) (n : Nat) :
    b ∉ decimalText n := by
  intro h
  obtain ⟨d, hd, hdb⟩ := List.mem_map.mp h
  exact digitByte_ne (decimalDigits_lt hd) hb hdb

theorem not_mem_entryPiece {e : Text × UInt64} {b : UInt8} (hb : decimalDigit? b = none)
    (hamf : b ∉ amfText) (hname : b ∉ e.1) (hcolon : b ≠ colon) : b ∉ entryPiece e := by
  simp [entryPiece, hamf, hname, hcolon, not_mem_decimalText hb]

theorem batchBody_eq {entries : List (Text × UInt64)} (h : ∀ e ∈ entries, PlainEntry e) :
    batchBody entries = entries.flatMap fun e => entryPiece e ++ [bar] := by
  apply List.flatMap_congr
  intro e he
  exact entryText_eq (h e he)

theorem decimalText_length {n : Nat} (h : n < 2 ^ 63) : (decimalText n).length ≤ 19 := by
  rw [decimalText, List.length_map, decimalDigits]
  split
  · simp
  · rw [List.length_reverse, Nat.digits_length_le_iff (by decide)]
    omega

theorem entryPiece_length {e : Text × UInt64} (h : PlainEntry e) : (entryPiece e).length < 128 := by
  have hdecimal := decimalText_length h.signed
  have hshort := h.short
  have hamf : amfText.length = 4 := rfl
  simp only [entryPiece, List.length_append, List.length_cons]
  omega

theorem batchBody_length {entries : List (Text × UInt64)} (h : ∀ e ∈ entries, PlainEntry e) :
    (batchBody entries).length ≤ 128 * entries.length := by
  rw [batchBody_eq h]
  induction entries with
  | nil => simp
  | cons e entries ih =>
      have he := entryPiece_length (h e (by simp))
      have hrest := ih fun e' he' => h e' (by simp [he'])
      simp only [List.flatMap_cons, List.length_append, List.length_cons, List.length_nil]
      omega

theorem findMarker_append {gap : Text} (h : 0x99 ∉ gap) (t : Text) :
    findMarker (gap ++ t) = findMarker t := by
  induction gap with
  | nil => rfl
  | cons b gap ih =>
      have hb : b ≠ 0x99 := fun hb => h (by simp [hb])
      rw [List.cons_append, findMarker.eq_def]
      simp only [hb, ne_eq, not_false_eq_true, if_true]
      exact ih fun hg => h (by simp [hg])

theorem read_append (p t : Text) : read p.length (p ++ t) = some (p, t) := by
  simp [read]

theorem readDefinition_body {body : Text} (h : body.length ≤ 508) (t : Text) :
    readDefinition (lowBytes body.length 2 ++ body ++ t) = some (body, t) := by
  have hheader : littleEndian (lowBytes body.length 2) = body.length := by
    rw [littleEndian_lowBytes, Nat.mod_eq_of_lt]
    omega
  have hread := read_append (lowBytes body.length 2) (body ++ t)
  rw [lowBytes_length] at hread
  rw [readDefinition, List.append_assoc, hread]
  simp only [Option.bind_eq_bind, Option.bind_some, hheader]
  rw [Nat.min_eq_left (by omega), read_append]

theorem readBatch_body (env : Surroundings) {body : Text} {k : Nat} (hpos : 0 < k) (hk : k ≤ 8)
    (hfit : body.length < 256 ^ k) (h : body.length ≤ 512) (t : Text) :
    readBatch env (UInt8.ofNat k :: (lowBytes body.length k ++ body ++ t)) = some (body, t) := by
  have hheader : littleEndian (lowBytes body.length k) = body.length := by
    rw [littleEndian_lowBytes, Nat.mod_eq_of_lt hfit]
  have hone : read 1 (UInt8.ofNat k :: (lowBytes body.length k ++ body ++ t)) =
      some ([UInt8.ofNat k], lowBytes body.length k ++ (body ++ t)) := by
    rw [← List.append_assoc]
    exact read_append [UInt8.ofNat k] (lowBytes body.length k ++ body ++ t)
  have hbyte : (UInt8.ofNat k).toNat = k := by
    rw [UInt8.toNat_ofNat', Nat.mod_eq_of_lt]
    omega
  have hread := read_append (lowBytes body.length k) (body ++ t)
  rw [lowBytes_length] at hread
  rw [readBatch, hone]
  simp only [Option.bind_eq_bind, Option.bind_some, List.headD_cons, hbyte]
  rw [Nat.min_eq_left (by omega), hread]
  simp only [Option.bind_some, if_neg (Nat.ne_of_gt hpos), if_pos hk, hheader]
  rw [Nat.min_eq_left (by omega), read_append]

theorem maxLen_toNat {n : Int32} (hpos : 0 < n.toInt) (hlt : n.toInt < 2 ^ 24) :
    (maxLen n).toNat = 128 * n.toInt.toNat := by
  have hint : ((64 + 64) * n).toInt64.toInt = 128 * n.toInt := by
    have h128 : (64 + 64 : Int32).toInt = 128 := by decide
    rw [Int32.toInt_toInt64, Int32.toInt_mul, h128, Int.bmod_eq_of_le] <;> omega
  have hbits := BitVec.toInt_eq_toNat_cond ((64 + 64) * n).toInt64.toBitVec
  have hnat : (maxLen n).toNat = ((64 + 64) * n).toInt64.toBitVec.toNat := rfl
  have hdef : ((64 + 64) * n).toInt64.toInt = ((64 + 64) * n).toInt64.toBitVec.toInt := rfl
  have hlt' := ((64 + 64) * n).toInt64.toBitVec.isLt
  split at hbits <;> omega

/-- The message that a call sends. -/
def LibraryCall.message : LibraryCall → MessageKind × Text
  | .define name description type => (.definition, definitionBody name description type)
  | .send _ entries => (.batch, batchBody entries)

/-- The bus finds the frame of a call and reads the text of the call from it. -/
theorem messages_frame (env : Surroundings) (s : Sending) {gap : Text} (hgap : 0x99 ∉ gap)
    (t : Text) : messages env (gap ++ (s.frame ++ t)) = s.call.message :: messages env t := by
  obtain ⟨call, frame, _, hsent, hplain, -⟩ := s
  cases call with
  | define name description type =>
      rw [LibraryCall.frame, defineMetric] at hsent
      split at hsent
      · cases hsent
      · next hlen =>
          cases hsent
          have hread : readMessage env .definition (lowBytes (definitionBody name description
              type).length 2 ++ definitionBody name description type ++ t) =
                some (definitionBody name description type, t) :=
            readDefinition_body (by omega) t
          refine messages_of_message ?_ hread
          rw [findMarker_append hgap]
          rfl
  | send numMetrics entries =>
      obtain ⟨hentries, hne, hcount, hint⟩ := hplain
      rw [LibraryCall.frame, sendEntries] at hsent
      have hpos : 0 < entries.length := List.length_pos_iff.mpr hne
      have hmax := maxLen_toNat (n := numMetrics) (by omega) hint
      have hbody := batchBody_length hentries
      have hfit := lt_pow_byteCount (maxLen numMetrics).toNat
      have hbytes : byteCount (maxLen numMetrics).toNat ≤ 4 := by
        apply byteCount_le
        omega
      have hbytesPos : 0 < byteCount (maxLen numMetrics).toNat := by
        rw [byteCount, if_neg (by omega)]
        omega
      split at hsent
      · cases hsent
      · simp only at hsent
        split at hsent
        · cases hsent
        · next hlen =>
            cases hsent
            have hread := readBatch_body env hbytesPos (by omega) (by omega)
              (show (batchBody entries).length ≤ 512 by omega) t
            rw [show readBatch env = readMessage env .batch from rfl] at hread
            refine messages_of_message ?_ hread
            rw [findMarker_append hgap]
            rfl

theorem messages_stream (env : Surroundings) {gap : Text} (hgap : 0x99 ∉ gap)
    (sendings : List Sending) :
    messages env (stream gap sendings) = sendings.map fun s => s.call.message := by
  induction sendings generalizing gap with
  | nil =>
      have hend : findMarker (gap ++ []) = none := by rw [findMarker_append hgap]; rfl
      exact messages_of_end hend
  | cons s sendings ih =>
      rw [stream, List.flatMap_cons, List.append_assoc, messages_frame env s hgap, List.map_cons]
      congr 1
      exact ih s.noMarker

theorem commandsOf_message {c : LibraryCall} (h : c.Plain) :
    commandsOf c.message.1 c.message.2 = c.decoded := by
  cases c with
  | define name description type =>
      obtain ⟨hname, hdescription⟩ := h
      have hline := newline_not_mem_definitionBody hname.2 hdescription.2 type
      have hne : definitionBody name description type ≠ [] := by
        rw [definitionBody_eq]
        simp
      rw [LibraryCall.message, commandsOf, getlines_single hline hne, List.map_singleton,
        registerCommand, parseDefinition_body hname.1 hdescription.1]
      rfl
  | send numMetrics entries =>
      obtain ⟨hentries, hne, -⟩ := h
      have hline : newline ∉ batchBody entries := by
        rw [batchBody_eq hentries]
        intro hmem
        obtain ⟨e, he, hmem⟩ := List.mem_flatMap.mp hmem
        have hpiece := not_mem_entryPiece (e := e) (b := newline) rfl (by decide)
          (hentries e he).noNewline (by decide)
        simp only [List.mem_append, hpiece, List.mem_singleton, false_or] at hmem
        exact absurd hmem (by decide)
      have hnotEmpty : batchBody entries ≠ [] := by
        rw [batchBody_eq hentries]
        intro hnil
        obtain ⟨e, es, rfl⟩ := List.exists_cons_of_ne_nil hne
        simp at hnil
      have hpieces : getlines bar (batchBody entries) = entries.map entryPiece := by
        rw [batchBody_eq hentries]
        exact getlines_pieces entries fun e he =>
          not_mem_entryPiece rfl (by decide) (hentries e he).noBar (by decide)
      rw [LibraryCall.message, commandsOf, getlines_single hline hnotEmpty, List.flatMap_singleton,
        lineCommands, hpieces, List.map_map, LibraryCall.decoded]
      congr 1
      apply List.map_congr_left
      intro e he
      have hcolon : colon ∉ amfText ++ e.1 := by
        simp only [List.mem_append, (hentries e he).noColon, or_false]
        decide
      rw [Function.comp_apply, observeCommand, entryPiece, keyValue_append hcolon]

theorem commands_stream (env : Surroundings) {gap : Text} (hgap : 0x99 ∉ gap)
    (sendings : List Sending) :
    commands env (stream gap sendings) = sendings.flatMap fun s => s.call.decoded := by
  rw [commands, messages_stream env hgap, List.flatMap_map]
  apply List.flatMap_congr
  intro s _
  exact commandsOf_message s.plain

/-- The library takes the name of the definition, or the bus knows it from elsewhere. -/
def LibraryCall.Accepted (env : Surroundings) (metrics : Metrics) : LibraryCall → Prop
  | .define name _ _ =>
      env.checkMetricName (amfText ++ name) ∨ (metrics.lookup (amfText ++ name)).isSome
  | .send _ _ => True

theorem forEach_observe (env : Surroundings) {entries : List (Text × UInt64)}
    (h : ∀ e ∈ entries, PlainEntry e) (b : Bus) :
    forEach (perform env) (entries.map fun e => .observe (amfText ++ e.1) (decimalText e.2.toNat))
      b = (⟨b.metrics, b.log ++ entries.map fun e =>
        .observe (amfText ++ e.1) (decimalText e.2.toNat)⟩, none) := by
  induction entries generalizing b with
  | nil => simp [forEach]
  | cons e entries ih =>
      have hstod := stod_decimalText (h e (by simp)).signed
      rw [List.map_cons, forEach, perform, observeValue_eq, hstod]
      simp only [ite_self, Outcome.andThen, ih fun e' he' => h e' (by simp [he']), Bus.logged,
        List.append_assoc, List.singleton_append]

theorem forEach_send (env : Surroundings) {numMetrics : Int32} {entries : List (Text × UInt64)}
    (h : ∀ e ∈ entries, PlainEntry e) (b : Bus) :
    forEach (perform env) (LibraryCall.send numMetrics entries).decoded b =
      (⟨b.metrics, b.log ++ (LibraryCall.send numMetrics entries).decoded⟩, none) := by
  rw [LibraryCall.decoded, forEach]
  simp only [perform, Outcome.andThen, forEach_observe env h, Bus.logged, List.append_assoc,
    List.singleton_append]

theorem decoded_ne_nil (c : LibraryCall) : c.decoded ≠ [] := by
  cases c <;> simp [LibraryCall.decoded]

theorem flatMap_decoded_eq_nil {sendings : List Sending} :
    (sendings.flatMap fun s => s.call.decoded) = [] ↔ sendings = [] := by
  cases sendings with
  | nil => simp
  | cons s sendings => simp [decoded_ne_nil]

def AcceptedBeforeLast (env : Surroundings) (metrics : Metrics) (sendings : List Sending) : Prop :=
  ∀ before s after, sendings = before ++ s :: after → after ≠ [] → s.call.Accepted env metrics

theorem acceptedBeforeLast_cons {env : Surroundings} {metrics : Metrics} {s : Sending}
    {sendings : List Sending} : AcceptedBeforeLast env metrics (s :: sendings) ↔
      (sendings ≠ [] → s.call.Accepted env metrics) ∧ AcceptedBeforeLast env metrics sendings := by
  constructor
  · intro h
    refine ⟨h [] s sendings rfl, ?_⟩
    intro before t after hsplit
    exact h (s :: before) t after (by rw [hsplit, List.cons_append])
  · intro h before t after hsplit hafter
    cases before with
    | nil =>
        obtain ⟨rfl, rfl⟩ := List.cons.inj hsplit
        exact h.1 hafter
    | cons u before =>
        obtain ⟨rfl, hrest⟩ := List.cons.inj hsplit
        exact h.2 before t after hrest hafter

theorem accepted_cons {env : Surroundings} {metrics : Metrics} {name : Text} {type : MetricType}
    (h : env.checkMetricName name) (c : LibraryCall) :
    c.Accepted env ((name, type) :: metrics) ↔ c.Accepted env metrics := by
  cases c with
  | send n entries => rfl
  | define n d t =>
      rw [LibraryCall.Accepted, LibraryCall.Accepted, List.lookup_cons]
      by_cases he : amfText ++ n = name
      · rw [he]
        simp [h]
      · rw [beq_eq_false_iff_ne.mpr he]

theorem log_eq_iff (env : Surroundings) (sendings : List Sending) (b : Bus) :
    (forEach (perform env) (sendings.flatMap fun s => s.call.decoded) b).1.log =
      b.log ++ sendings.flatMap (fun s => s.call.decoded) ↔
        AcceptedBeforeLast env b.metrics sendings := by
  induction sendings generalizing b with
  | nil => simp [forEach, AcceptedBeforeLast]
  | cons s sendings ih =>
      rw [acceptedBeforeLast_cons, List.flatMap_cons, forEach_append, ← List.append_assoc]
      obtain ⟨call, _, _, _, hplain, _⟩ := s
      cases call with
      | send numMetrics entries =>
          rw [forEach_send env hplain.1]
          simp only [Outcome.andThen, ih, LibraryCall.Accepted]
          simp
      | define name description type =>
          have hone : forEach (perform env) (LibraryCall.define name description type).decoded b =
              registerMetric env (amfText ++ name) description (typeName type) b := by
            rw [LibraryCall.decoded, forEach, perform, Outcome.andThen]
            split
            · next h => exact Prod.ext rfl h.symm
            · rfl
          rw [hone]
          by_cases hn : (b.metrics.lookup (amfText ++ name)).isSome
          · rw [registerMetric_known _ _ hn]
            have haccepted : (LibraryCall.define name description type).Accepted env b.metrics :=
              .inr hn
            simp only [Outcome.andThen, haccepted, implies_true, true_and]
            exact ih _
          · by_cases hc : env.checkMetricName (amfText ++ name)
            · rw [registerMetric_new _ _ hn hc]
              have haccepted : (LibraryCall.define name description type).Accepted env b.metrics :=
                .inl hc
              have hsame : AcceptedBeforeLast env
                  ((amfText ++ name, metricType (typeName type)) :: b.metrics) sendings ↔
                    AcceptedBeforeLast env b.metrics sendings := by
                simp only [AcceptedBeforeLast, accepted_cons hc]
              simp only [Outcome.andThen, haccepted, implies_true, true_and, ← hsame]
              exact ih _
            · rw [registerMetric_refused _ _ hn hc]
              have hrefused : ¬(LibraryCall.define name description type).Accepted env b.metrics :=
                fun h => h.elim hc hn
              have hlog : b.log ++ (LibraryCall.define name description type).decoded =
                  b.log ++ (LibraryCall.define name description type).decoded ++
                    sendings.flatMap (fun s => s.call.decoded) ↔ sendings = [] := by
                rw [List.self_eq_append_right, flatMap_decoded_eq_nil]
              refine hlog.trans ?_
              cases sendings with
              | nil => simp [AcceptedBeforeLast]
              | cons t sendings => simp [hrefused]

/-- The bus decodes the calls of a connection, each with its texts and values and in their order,
exactly when the library takes the name of every definition but one that comes last. -/
theorem decodes_iff (env : Surroundings) (metrics : Metrics) {gap : Text} (hgap : 0x99 ∉ gap)
    (sendings : List Sending) :
    (threadWorker env true metrics (stream gap sendings)).1.log =
      sendings.flatMap (fun s => s.call.decoded) ↔
        ∀ before s after, sendings = before ++ s :: after → after ≠ [] →
          s.call.Accepted env metrics := by
  rw [threadWorker_eq, commands_stream env hgap]
  exact log_eq_iff env sendings ⟨metrics, []⟩

/-- A definition with the description `x` and nothing behind its frame. -/
def definition (name : Text) (type : AggregationType)
    (hframe : (defineMetric name [0x78] type).isSome) (hbar : bar ∉ name)
    (hnewline : newline ∉ name) : Sending where
  call := .define name [0x78] type
  frame := (defineMetric name [0x78] type).get hframe
  gap := []
  sent := (Option.some_get hframe).symm
  plain := ⟨⟨hbar, hnewline⟩, by decide⟩
  noMarker := List.not_mem_nil

/-- Two observations of `a`. -/
def observations : Sending where
  call := .send 2 [([0x61], 7), ([0x61], 10)]
  frame := [0x99, 0x99, 2, 17, 0] ++ entryPiece ([0x61], 7) ++ [bar] ++
    entryPiece ([0x61], 10) ++ [bar]
  gap := [0x00, 0x41]
  sent := by decide +kernel
  plain := by
    have hname : bar ∉ ([0x61] : Text) ∧ newline ∉ ([0x61] : Text) ∧ colon ∉ ([0x61] : Text) ∧
        ([0x61] : Text).length < 64 := by decide
    have hentry : ∀ v : UInt64, v.toNat < 2 ^ 63 → PlainEntry ([0x61], v) := fun v hv =>
      ⟨hname.1, hname.2.1, hname.2.2.1, hname.2.2.2, hv⟩
    refine ⟨?_, by simp, by decide, by decide⟩
    intro e he
    cases he with
    | head => exact hentry 7 (by decide)
    | tail _ he =>
        cases he with
        | head => exact hentry 10 (by decide)
        | tail _ he => cases he
  noMarker := by decide

def letterA : Sending := definition [0x61] .sum (by decide) (by decide) (by decide)

theorem decodes_observations :
    (threadWorker prometheus true [] (stream [0x41] [letterA, observations])).1.log =
      letterA.call.decoded ++ observations.call.decoded := by
  have hgap : (0x99 : UInt8) ∉ ([0x41] : Text) := by decide
  refine ((decodes_iff prometheus [] hgap [letterA, observations]).mpr ?_).trans rfl
  intro before s after hsplit _
  cases before with
  | nil =>
      obtain ⟨rfl, -⟩ := List.cons.inj hsplit
      exact .inl (by decide +kernel)
  | cons t before =>
      obtain ⟨-, hrest⟩ := List.cons.inj hsplit
      cases before with
      | nil =>
          obtain ⟨rfl, -⟩ := List.cons.inj hrest
          exact trivial
      | cons u before => simp at hrest

/-- The name `a b`, which Prometheus refuses. -/
def spaced : Sending := definition [0x61, 0x20, 0x62] .sum (by decide) (by decide) (by decide)

/-- The definition behind it is not decoded. -/
theorem not_decodes_spaced : ¬∀ gap : Text, 0x99 ∉ gap → ∀ sendings : List Sending,
    (threadWorker prometheus true [] (stream gap sendings)).1.log =
      sendings.flatMap (fun s => s.call.decoded) := by
  intro h
  have hlog := h [] List.not_mem_nil [spaced, letterA]
  revert hlog
  decide +kernel

end PublicCloudCore.MetricsBus
