import PublicCloudCore.Framework.LinkedList
import PublicCloudCore.Yagra.Frames

/-!
# Send buffers and the life of a batch

`yagra_define_metric` and `yagra_send_batch` print a message into a buffer on the stack and look at
its length afterwards. `yagra_send_batch` frees the entries that it has sent, and the batch keeps
its pointer to them.
-/

namespace PublicCloudCore.Yagra

open Framework MetricsBus

abbrev Write := Nat × Text

/-- Texts that `sprintf` prints one behind the other, each with the zero behind it. -/
def printed (offset : Nat) : List Text → List Write
  | [] => []
  | t :: ts => (offset, t ++ [0]) :: printed (offset + t.length) ts

/-- Single bytes from an offset on. -/
def stored (offset : Nat) : Text → List Write
  | [] => []
  | b :: bs => (offset, [b]) :: stored (offset + 1) bs

def WritesInside (size : Nat) (ws : List Write) : Prop := ∀ w ∈ ws, w.1 + w.2.length ≤ size

theorem writesInside_append (size : Nat) (vs ws : List Write) :
    WritesInside size (vs ++ ws) ↔ WritesInside size vs ∧ WritesInside size ws :=
  List.forall_mem_append

theorem writesInside_stored {size : Nat} {bs : Text} (offset : Nat)
    (h : offset + bs.length ≤ size) : WritesInside size (stored offset bs) := by
  induction bs generalizing offset with
  | nil => nofun
  | cons b bs ih =>
      rw [List.length_cons] at h
      refine List.forall_mem_cons.mpr ⟨?_, ih (offset + 1) (by omega)⟩
      show offset + 1 ≤ size
      omega

theorem writesInside_printed {size : Nat} {ts : List Text} (hne : ts ≠ []) (offset : Nat) :
    WritesInside size (printed offset ts) ↔ offset + ts.flatten.length < size := by
  induction ts generalizing offset with
  | nil => exact absurd rfl hne
  | cons t ts ih =>
      have hfirst : (t ++ [0]).length = t.length + 1 := List.length_append
      rw [printed, WritesInside, List.forall_mem_cons, hfirst, List.flatten_cons,
        List.length_append]
      cases ts with
      | nil =>
          simp only [printed, List.not_mem_nil, false_imp_iff, implies_true, and_true,
            List.flatten_nil, List.length_nil]
          omega
      | cons u ts =>
          have hrest := ih (by simp) (offset + t.length)
          rw [WritesInside] at hrest
          rw [hrest]
          omega

/-- What the calls of `sprintf` print; the last one is made for the strategies with a type. -/
def definitionTexts (name description : Text) (type : AggregationType) : List Text :=
  [ascii ['n', 'a', 'm', 'e', ':', 'a', 'm', 'f', '_'] ++ name ++ ascii ['|'],
    ascii ['d', 'e', 's', 'c', 'r', 'i', 'p', 't', 'i', 'o', 'n', ':'] ++ description ++
      ascii ['|']] ++
    if typeField type = [] then [] else [typeField type]

/-- The writes of `yagra_define_metric` to its buffer. -/
def defineWrites (name description : Text) (type : AggregationType) : List Write :=
  let texts := definitionTexts name description type
  printed 4 texts ++
    if 4 + texts.flatten.length > 512 then []
    else stored 0 (0x99 :: 0x98 :: lowBytes texts.flatten.length 2)

theorem flatten_definitionTexts (name description : Text) (type : AggregationType) :
    (definitionTexts name description type).flatten = definitionBody name description type := by
  rw [definitionTexts, definitionBody]
  split
  · next h => simp [h]
  · simp

/-- The frame of a definition lies in the buffer. -/
def DefinesInside (name description : Text) (type : AggregationType) : Prop :=
  WritesInside 512 (defineWrites name description type)

theorem definesInside_iff (name description : Text) (type : AggregationType) :
    DefinesInside name description type ↔
      4 + (definitionBody name description type).length < 512 := by
  have hne : definitionTexts name description type ≠ [] := by simp [definitionTexts]
  rw [DefinesInside, defineWrites, writesInside_append, writesInside_printed hne,
    flatten_definitionTexts]
  constructor
  · intro h
    exact h.1
  · intro h
    refine ⟨h, ?_⟩
    rw [if_neg (by omega)]
    apply writesInside_stored
    rw [List.length_cons, List.length_cons, lowBytes_length]
    decide

def headerLength (numMetrics : Int32) : Nat := 2 + 1 + byteCount (maxLen numMetrics).toNat

/-- The writes of `yagra_send_batch` to its buffer. -/
def sendWrites (numMetrics : Int32) (entries : List (Text × UInt64)) : List Write :=
  if numMetrics = 0 then []
  else
    let lengthBytes := byteCount (maxLen numMetrics).toNat
    let body := batchBody entries
    printed (headerLength numMetrics) (entries.map fun e => entryText e.1 e.2) ++
      if headerLength numMetrics + body.length > 512 then []
      else stored 0 (0x99 :: 0x99 :: UInt8.ofNat lengthBytes :: lowBytes body.length lengthBytes)

theorem headerLength_le (numMetrics : Int32) : headerLength numMetrics ≤ 11 := by
  have hcount : byteCount (maxLen numMetrics).toNat ≤ 8 :=
    byteCount_le (by have hlt := (maxLen numMetrics).toNat_lt; omega)
  rw [headerLength]
  omega

theorem writesInside_sendWrites {numMetrics : Int32} (hnum : numMetrics ≠ 0)
    (entries : List (Text × UInt64)) : WritesInside 1024 (sendWrites numMetrics entries) ↔
      headerLength numMetrics + (batchBody entries).length < 1024 := by
  have hheader := headerLength_le numMetrics
  have hstored : WritesInside 1024 (if headerLength numMetrics + (batchBody entries).length > 512
      then [] else stored 0 (0x99 :: 0x99 :: UInt8.ofNat (byteCount (maxLen numMetrics).toNat) ::
        lowBytes (batchBody entries).length (byteCount (maxLen numMetrics).toNat))) := by
    split
    · nofun
    · apply writesInside_stored
      simp only [List.length_cons, lowBytes_length]
      rw [headerLength] at hheader
      omega
  rw [sendWrites, if_neg hnum, writesInside_append, and_iff_left hstored]
  cases entries with
  | nil =>
      have hlt : headerLength numMetrics + (batchBody []).length < 1024 := by
        rw [batchBody, List.flatMap_nil, List.length_nil]
        omega
      exact iff_of_true (by nofun) hlt
  | cons e es =>
      rw [writesInside_printed (by simp), ← List.flatMap_def]
      rfl

variable {conn : Connection} {A : Type}

/-- The pointer and the number in `yagra_batch_data_t`. -/
structure BatchData (A : Type) where
  metricData : Option A
  numMetrics : Int32

def MetricData.printedAs (d : MetricData conn) : Text × UInt64 :=
  ((conn.metric d.metricName).name, d.value)

/-- `yagra_send_batch` on the entries in memory, with its return value; the batch is not written.
The entries are freed after `send` has succeeded. -/
def BatchData.send [DecidableEq A] (fuel : Nat) (heap : Heap A (MetricData conn))
    (batch : BatchData A) (response : Int) : Option (Int × Heap A (MetricData conn)) :=
  if batch.numMetrics = 0 then some (0, heap)
  else
    (heap.collect fuel batch.metricData).bind fun entries =>
      match sendEntries batch.numMetrics (entries.map MetricData.printedAs) with
      | none => some (-1, heap)
      | some _ =>
          if response < 0 then some (-1, heap)
          else (Heap.freeAll fuel batch.metricData heap).map fun heap => (0, heap)

/-- The buffer is not left, and the batch has its entries still, or none if they have been sent. -/
structure SendsSafely (ns : List (A × MetricData conn)) (batch : BatchData A) (response : Int)
    (heap' : Heap A (MetricData conn)) : Prop where
  inside : WritesInside 1024
    (sendWrites batch.numMetrics (ns.map fun n => n.2.printedAs))
  kept : ∃ ns', heap'.Lists batch.metricData ns' ∧
    if (sendEntries batch.numMetrics (ns.map fun n => n.2.printedAs)).isSome ∧ 0 ≤ response then
      ns' = [] ∧ batch.numMetrics = 0
    else ns' = ns

variable [DecidableEq A] {heap : Heap A (MetricData conn)} {batch : BatchData A}
  {ns : List (A × MetricData conn)} {fuel : Nat}

/-- The length of the frame, header included. -/
def frameLength (batch : BatchData A) (ns : List (A × MetricData conn)) : Nat :=
  headerLength batch.numMetrics + (batchBody (ns.map fun n => n.2.printedAs)).length

theorem sendEntries_isSome_iff (numMetrics : Int32) (entries : List (Text × UInt64)) :
    (sendEntries numMetrics entries).isSome ↔
      numMetrics ≠ 0 ∧ headerLength numMetrics + (batchBody entries).length ≤ 512 := by
  rw [sendEntries, headerLength]
  by_cases hnum : numMetrics = 0
  · simp [hnum]
  · rw [if_neg hnum]
    by_cases hlong : 2 + 1 + byteCount (maxLen numMetrics).toNat + (batchBody entries).length > 512
    · simp only [if_pos hlong]
      exact iff_of_false nofun fun h => Nat.not_le.mpr hlong h.2
    · simp only [if_neg hlong]
      exact iff_of_true rfl ⟨hnum, Nat.not_lt.mp hlong⟩

/-- What a call does to the memory. -/
theorem BatchData.send_eq (hlist : heap.Lists batch.metricData ns) (hfuel : ns.length ≤ fuel)
    (response : Int) : ∃ code, batch.send fuel heap response = some (code,
      if (sendEntries batch.numMetrics (ns.map fun n => n.2.printedAs)).isSome ∧ 0 ≤ response then
        fun a => if a ∈ Heap.addresses ns then none else heap a
      else heap) := by
  have hcollect := hlist.collect_eq hfuel
  have hfree := hlist.freeAll_eq hfuel
  have hprinted : (ns.map Prod.snd).map MetricData.printedAs = ns.map fun n => n.2.printedAs := by
    rw [List.map_map]
    rfl
  rw [send]
  by_cases hnum : batch.numMetrics = 0
  · have hnone : ¬ (sendEntries batch.numMetrics (ns.map fun n => n.2.printedAs)).isSome := by
      rw [sendEntries_isSome_iff]
      exact fun h => h.1 hnum
    rw [if_pos hnum, if_neg fun h => hnone h.1]
    exact ⟨0, rfl⟩
  · rw [if_neg hnum, hcollect, Option.bind_some, hprinted]
    cases sendEntries batch.numMetrics (ns.map fun n => n.2.printedAs) with
    | none => exact ⟨-1, rfl⟩
    | some frame =>
        by_cases hresponse : response < 0
        · have hno : ¬ ((some frame).isSome ∧ 0 ≤ response) :=
            fun h => Int.not_lt.mpr h.2 hresponse
          simp only [if_pos hresponse, if_neg hno]
          exact ⟨-1, rfl⟩
        · have hyes : (some frame).isSome ∧ 0 ≤ response := ⟨rfl, Int.not_lt.mp hresponse⟩
          simp only [if_neg hresponse, if_pos hyes, hfree]
          exact ⟨0, rfl⟩

/-- The pointer of a batch that has been sent leads to no list any more. -/
theorem not_lists_freed (hlist : heap.Lists batch.metricData ns) (hne : ns ≠ [])
    (ms : List (A × MetricData conn)) :
    ¬ Heap.Lists (fun a => if a ∈ Heap.addresses ns then none else heap a) batch.metricData ms := by
  intro hfreed
  obtain ⟨a, ha⟩ := hlist.exists_head hne
  rw [ha] at hlist hfreed
  cases hlist with
  | cons _ _ =>
      cases hfreed with
      | cons hnone _ => simp at hnone

/-- A batch is sent safely exactly when it is not sent and its frame lies in the buffer; a
definition stays in the buffer exactly when it leaves room for the zero. -/
theorem sendsSafely_iff (hlist : heap.Lists batch.metricData ns) (hfuel : ns.length ≤ fuel)
    (response : Int) (name description : Text) (type : AggregationType) :
    ((∃ code heap', batch.send fuel heap response = some (code, heap') ∧
        SendsSafely ns batch response heap') ↔
      batch.numMetrics = 0 ∨
        frameLength batch ns < 1024 ∧ (512 < frameLength batch ns ∨ response < 0)) ∧
      (DefinesInside name description type ↔
        4 + (definitionBody name description type).length < 512) := by
  refine ⟨?_, definesInside_iff name description type⟩
  obtain ⟨code, hsend⟩ := BatchData.send_eq hlist hfuel response
  have hsent := sendEntries_isSome_iff batch.numMetrics (ns.map fun n => n.2.printedAs)
  rw [← frameLength] at hsent
  constructor
  · rintro ⟨code', heap', hsend', hsafe⟩
    rw [hsend] at hsend'
    obtain ⟨-, rfl⟩ := Prod.mk.inj (Option.some.inj hsend')
    refine or_iff_not_imp_left.mpr fun hnum => ?_
    have hinside := (writesInside_sendWrites hnum _).mp hsafe.inside
    refine ⟨hinside, ?_⟩
    by_contra hno
    have hyes : (sendEntries batch.numMetrics (ns.map fun n => n.2.printedAs)).isSome ∧
        0 ≤ response := by
      rw [hsent]
      exact ⟨⟨hnum, by omega⟩, by omega⟩
    obtain ⟨ns', -, hkept⟩ := hsafe.kept
    rw [if_pos hyes] at hkept
    exact hnum hkept.2
  · intro hcond
    refine ⟨code, _, hsend, ?_⟩
    have hno : ¬ ((sendEntries batch.numMetrics (ns.map fun n => n.2.printedAs)).isSome ∧
        0 ≤ response) := by
      rw [hsent]
      rintro ⟨⟨hnum, hle⟩, hresponse⟩
      rcases hcond with hzero | ⟨-, hlong | hfailed⟩
      · exact hnum hzero
      · omega
      · omega
    constructor
    · rcases hcond with hzero | ⟨hinside, -⟩
      · rw [sendWrites, if_pos hzero]
        nofun
      · by_cases hzero : batch.numMetrics = 0
        · rw [sendWrites, if_pos hzero]
          nofun
        · exact (writesInside_sendWrites hzero _).mpr hinside
    · simp only [if_neg hno]
      exact ⟨ns, hlist, rfl⟩

/-- One entry at the address 0. -/
def oneEntry : Heap Nat (MetricData sumConnection) := fun a =>
  if a = 0 then some ⟨⟨sumMetric, 2, none⟩, none⟩ else none

def oneBatch : BatchData Nat := ⟨some 0, 1⟩

theorem lists_oneEntry : oneEntry.Lists oneBatch.metricData [(0, ⟨sumMetric, 2, none⟩)] :=
  .cons rfl (.nil none)

theorem frameLength_oneEntry :
    frameLength oneBatch [(0, (⟨sumMetric, 2, none⟩ : MetricData sumConnection))] = 12 := by
  decide +kernel

/-- The peer has closed the connection: the entry is still there. -/
theorem sendsSafely_closed : ∃ code heap',
    oneBatch.send 1 oneEntry (-1) = some (code, heap') ∧
      SendsSafely [(0, ⟨sumMetric, 2, none⟩)] oneBatch (-1) heap' :=
  (sendsSafely_iff lists_oneEntry (Nat.le_refl 1) (-1) [] [] .sum).1.mpr
    (Or.inr ⟨by rw [frameLength_oneEntry]; decide, Or.inr (by decide)⟩)

/-- The entry has been sent, and the batch points to the freed entry. -/
theorem not_sendsSafely_sent :
    ¬ ∀ (conn : Connection) (heap : Heap Nat (MetricData conn)) (batch : BatchData Nat)
        (ns : List (Nat × MetricData conn)) (fuel : Nat) (response : Int) (name description : Text)
        (type : AggregationType), heap.Lists batch.metricData ns → ns.length ≤ fuel →
      (∃ code heap', batch.send fuel heap response = some (code, heap') ∧
        SendsSafely ns batch response heap') ∧ DefinesInside name description type := by
  intro h
  obtain ⟨code, heap', hsend, hsafe⟩ :=
    (h sumConnection oneEntry oneBatch _ 1 0 [] [] .sum lists_oneEntry (Nat.le_refl 1)).1
  obtain ⟨code', hfreed⟩ := BatchData.send_eq lists_oneEntry (Nat.le_refl 1) 0
  rw [hsend, if_pos (by decide +kernel)] at hfreed
  obtain ⟨-, rfl⟩ := Prod.mk.inj (Option.some.inj hfreed)
  obtain ⟨ms, hlists, -⟩ := hsafe.kept
  exact not_lists_freed lists_oneEntry (by simp) ms hlists

end PublicCloudCore.Yagra
