import PublicCloudCore.MetricsBus.YagraRoundTrip

/-!
# The labels of a batch

`process_metric_batch_observation` collects the types of the message in the loop that applies the
values. The values in front of a type are labelled without it, and those behind a value that is no
number are not applied.
-/

namespace PublicCloudCore.MetricsBus

/-- A call of `Increment`, `Set` or `Observe`, by the type of the family. -/
structure Update (α : Type) where
  metric : Text
  type : MetricType
  labels : List (Text × Text)
  value : α

inductive TypeLabel
  | ngap
  | nas
  deriving DecidableEq

namespace TypeLabel

def metricName : TypeLabel → Text
  | .ngap => ascii ['a', 'm', 'f', '_', 'n', 'g', 'a', 'p', '_', 'm', 'e', 's', 's', 'a', 'g', 'e',
      '_', 't', 'y', 'p', 'e']
  | .nas => ascii ['a', 'm', 'f', '_', 'n', 'a', 's', '_', 'm', 'e', 's', 's', 'a', 'g', 'e', '_',
      't', 'y', 'p', 'e']

def labelName : TypeLabel → Text
  | .ngap => ascii ['n', 'g', 'a', 'p', '_', 't', 'y', 'p', 'e']
  | .nas => ascii ['n', 'a', 's', '_', 't', 'y', 'p', 'e']

end TypeLabel

def ueIdText : Text := ascii ['a', 'm', 'f', '_', 'u', 'e', '_', 'i', 'd']
def uplinkPacketsText : Text :=
  ascii ['u', 'p', 'l', 'i', 'n', 'k', '_', 'p', 'a', 'c', 'k', 'e', 't', 's']

/-- `ue_id`, `ngap_message_type` and `nas_message_type` of the loop over a line. -/
structure LineState where
  ueId : Text
  messageType : TypeLabel → Text

def LineState.start : LineState := ⟨[], fun _ => []⟩

def LineState.note (s : LineState) (name value : Text) : LineState where
  ueId := if name = ueIdText then value else s.ueId
  messageType l := if name = l.metricName then value else s.messageType l

def LineState.labels (s : LineState) : List (Text × Text) :=
  [(TypeLabel.ngap.labelName, s.messageType .ngap), (TypeLabel.nas.labelName, s.messageType .nas)]

section

variable {α : Type} (number : Text → α)

/-- The updates of the loop over the entries of a line, where `number` is the value that `std::stod`
makes of a text that it converts. -/
def pieceUpdates (metrics : Metrics) : LineState → List Text → List (Update α)
  | _, [] => []
  | s, piece :: pieces =>
      let (name, value) := keyValue piece
      match metrics.lookup name with
      | none => pieceUpdates metrics s pieces
      | some type =>
          let s := s.note name value
          match stod value with
          -- the exception ends the thread
          | .error _ => []
          | .ok () => ⟨name, type, s.labels, number value⟩ :: pieceUpdates metrics s pieces

def uplinkUpdates (metrics : Metrics) : List (Update α) :=
  if metrics.lookup uplinkPacketsText = some .counter then
    [⟨uplinkPacketsText, .counter, [], number (ascii ['1'])⟩]
  else []

def entryUpdates (metrics : Metrics) (line : Text) : List (Update α) :=
  pieceUpdates number metrics .start (getlines bar line)

/-- What `process_metric_batch_observation` applies for a line. -/
def lineUpdates (metrics : Metrics) (line : Text) : List (Update α) :=
  uplinkUpdates number metrics ++ entryUpdates number metrics line

end

structure Entry where
  name : Text
  type : MetricType
  value : Text

def entryOf? (metrics : Metrics) (piece : Text) : Option Entry :=
  (metrics.lookup (keyValue piece).1).map fun type => ⟨(keyValue piece).1, type, (keyValue piece).2⟩

/-- The entries of a line for registered metrics. -/
def entries (metrics : Metrics) (line : Text) : List Entry :=
  (getlines bar line).filterMap (entryOf? metrics)

/-- `std::stod` converts the value. -/
def Entry.Good (e : Entry) : Prop := stod e.value = .ok ()

variable {α : Type} (number : Text → α)

def Entry.update (e : Entry) (s : LineState) : Update α :=
  ⟨e.name, e.type, s.labels, number e.value⟩

def updatesOf : LineState → List Entry → List (Update α)
  | _, [] => []
  | s, e :: es =>
      match stod e.value with
      | .error _ => []
      | .ok () => e.update number (s.note e.name e.value) :: updatesOf (s.note e.name e.value) es

theorem pieceUpdates_eq (metrics : Metrics) (s : LineState) (pieces : List Text) :
    pieceUpdates number metrics s pieces =
      updatesOf number s (pieces.filterMap (entryOf? metrics)) := by
  induction pieces generalizing s with
  | nil => rfl
  | cons piece pieces ih =>
      cases htype : metrics.lookup (keyValue piece).1 with
      | none =>
          rw [List.filterMap_cons_none (by rw [entryOf?, htype]; rfl)]
          simp only [pieceUpdates, htype]
          exact ih s
      | some type =>
          have hread : entryOf? metrics piece =
              some ⟨(keyValue piece).1, type, (keyValue piece).2⟩ := by
            rw [entryOf?, htype]
            rfl
          rw [List.filterMap_cons_some hread]
          simp only [pieceUpdates, htype, updatesOf]
          cases stod (keyValue piece).2 with
          | error e => rfl
          | ok u => exact congrArg _ (ih _)

theorem entryUpdates_eq (metrics : Metrics) (line : Text) :
    entryUpdates number metrics line = updatesOf number .start (entries metrics line) :=
  pieceUpdates_eq number metrics .start (getlines bar line)

theorem observeLine_ok_iff (line : Text) (b : Bus) :
    (observeLine line b).2 = none ↔ ∀ e ∈ entries b.metrics line, e.Good := by
  have hmetrics : (b.logged .line).metrics = b.metrics := rfl
  rw [observeLine, entries, ← hmetrics]
  generalize b.logged .line = b
  induction getlines bar line generalizing b with
  | nil => exact iff_of_true rfl nofun
  | cons piece pieces ih =>
      rw [forEach, observeValue_eq, Outcome.andThen]
      cases htype : b.metrics.lookup (keyValue piece).1 with
      | none =>
          rw [List.filterMap_cons_none (by rw [entryOf?, htype]; rfl)]
          exact ih _
      | some type =>
          have hread : entryOf? b.metrics piece =
              some ⟨(keyValue piece).1, type, (keyValue piece).2⟩ := by
            rw [entryOf?, htype]
            rfl
          rw [List.filterMap_cons_some hread, List.forall_mem_cons, Entry.Good]
          simp only [Option.isSome_some, if_true]
          cases hvalue : stod (keyValue piece).2 with
          | error e => simp
          | ok u => exact (ih _).trans (by simp; rfl)

/-- Any order of the entries gives the same updates, and the values of a batch with both types are
labelled with them. -/
structure OrderFree (metrics : Metrics) (line : Text) : Prop where
  permuted : ∀ line', (getlines bar line').Perm (getlines bar line) →
    (lineUpdates number metrics line').Perm (lineUpdates number metrics line)
  labelled : ∀ e ∈ entries metrics line, ∀ f ∈ entries metrics line,
    e.name = TypeLabel.ngap.metricName → f.name = TypeLabel.nas.metricName →
      ∀ u ∈ entryUpdates number metrics line,
        u.labels = [(TypeLabel.ngap.labelName, e.value), (TypeLabel.nas.labelName, f.value)]

/-- No registered entry has a number, or all have one and no type stands beside another metric. -/
def Unmixed (es : List Entry) : Prop :=
  (∀ e ∈ es, ¬ e.Good) ∨
    (∀ e ∈ es, e.Good) ∧
      ∀ l : TypeLabel, ∀ e ∈ es, e.name = l.metricName → ∀ f ∈ es, f.name = e.name

variable {metrics : Metrics} {line line' : Text}

theorem not_mem_of_mem_getlines {delim : UInt8} {p t : Text} (h : p ∈ getlines delim t) :
    delim ∉ p := by
  induction t generalizing p with
  | nil => cases h
  | cons b t ih =>
      rw [getlines] at h
      split at h
      · rcases List.mem_cons.mp h with rfl | h
        · exact List.not_mem_nil
        · exact ih h
      · next hb =>
        cases hpieces : getlines delim t with
        | nil =>
            rw [hpieces] at h
            obtain rfl := List.mem_singleton.mp h
            exact fun hmem => hb (List.mem_singleton.mp hmem).symm
        | cons piece pieces =>
            rw [hpieces] at h ih
            rcases List.mem_cons.mp h with rfl | h
            · intro hmem
              rcases List.mem_cons.mp hmem with hdelim | hmem
              · exact hb hdelim.symm
              · exact ih List.mem_cons_self hmem
            · exact ih (List.mem_cons_of_mem _ h)

theorem exists_line_entry_first {e : Entry} (he : e ∈ entries metrics line) :
    ∃ line' es, (getlines bar line').Perm (getlines bar line) ∧
      entries metrics line' = e :: es := by
  obtain ⟨piece, hpiece, hread⟩ := List.mem_filterMap.mp he
  have hperm : (piece :: (getlines bar line).erase piece).Perm (getlines bar line) :=
    (List.perm_cons_erase hpiece).symm
  have hgetlines : getlines bar ((piece :: (getlines bar line).erase piece).flatMap
      fun p => p ++ [bar]) = piece :: (getlines bar line).erase piece := by
    have hnobar : ∀ p ∈ piece :: (getlines bar line).erase piece, bar ∉ id p :=
      fun p hp => not_mem_of_mem_getlines (hperm.mem_iff.mp hp)
    rw [← List.map_id (piece :: (getlines bar line).erase piece)]
    exact (getlines_pieces _ (by simpa using hnobar)).trans (by simp)
  let rest := ((getlines bar line).erase piece).filterMap (entryOf? metrics)
  refine ⟨_, rest, hgetlines ▸ hperm, ?_⟩
  rw [entries, hgetlines, List.filterMap_cons_some hread]

theorem entries_perm (h : (getlines bar line').Perm (getlines bar line)) :
    (entries metrics line').Perm (entries metrics line) := h.filterMap _

theorem not_good_nil : stod [] ≠ .ok () := by decide

theorem updatesOf_bad {e : Entry} (he : ¬ e.Good) (s : LineState) (es : List Entry) :
    updatesOf number s (e :: es) = [] := by
  rw [updatesOf]
  cases hvalue : stod e.value with
  | error _ => rfl
  | ok u => exact absurd hvalue he

theorem updatesOf_good {e : Entry} (he : e.Good) (s : LineState) (es : List Entry) :
    updatesOf number s (e :: es) = e.update number (s.note e.name e.value) ::
      updatesOf number (s.note e.name e.value) es := by
  rw [updatesOf, he]

/-- Every value is labelled as if it were alone. -/
theorem updatesOf_eq_map {es : List Entry} (s : LineState) (hgood : ∀ e ∈ es, e.Good)
    (htypes : ∀ l : TypeLabel, (∀ e ∈ es, e.name = l.metricName) ∨
      s.messageType l = [] ∧ ∀ e ∈ es, e.name ≠ l.metricName) :
    updatesOf number s es =
      es.map fun e => e.update number (LineState.start.note e.name e.value) := by
  induction es generalizing s with
  | nil => rfl
  | cons e es ih =>
      have hnote : ∀ l : TypeLabel, (s.note e.name e.value).messageType l =
          (LineState.start.note e.name e.value).messageType l := by
        intro l
        rcases htypes l with hall | ⟨hempty, hother⟩
        · have hname := hall e List.mem_cons_self
          simp only [LineState.note, if_pos hname]
        · have hname := hother e List.mem_cons_self
          simp only [LineState.note, if_neg hname, hempty]
          rfl
      have hlabels : (s.note e.name e.value).labels =
          (LineState.start.note e.name e.value).labels := by
        rw [LineState.labels, LineState.labels, hnote, hnote]
      rw [updatesOf_good number (hgood e List.mem_cons_self), List.map_cons, Entry.update, hlabels]
      refine congrArg _ (ih _ (fun f hf => hgood f (List.mem_cons_of_mem _ hf)) fun l => ?_)
      rcases htypes l with hall | ⟨hempty, hother⟩
      · exact Or.inl fun f hf => hall f (List.mem_cons_of_mem _ hf)
      · refine Or.inr ⟨?_, fun f hf => hother f (List.mem_cons_of_mem _ hf)⟩
        have hname := hother e List.mem_cons_self
        simp only [LineState.note, if_neg hname, hempty]

theorem mem_labels_iff (s : LineState) (l : TypeLabel) :
    (l.labelName, []) ∈ s.labels ↔ s.messageType l = [] := by
  have hne : TypeLabel.ngap.labelName ≠ TypeLabel.nas.labelName := by decide
  rw [LineState.labels, List.mem_pair, Prod.mk.injEq, Prod.mk.injEq]
  cases l with
  | ngap =>
      constructor
      · rintro (⟨-, h⟩ | ⟨h, -⟩)
        · exact h.symm
        · exact absurd h hne
      · exact fun h => Or.inl ⟨rfl, h.symm⟩
  | nas =>
      constructor
      · rintro (⟨h, -⟩ | ⟨-, h⟩)
        · exact absurd h.symm hne
        · exact h.symm
      · exact fun h => Or.inr ⟨rfl, h.symm⟩

theorem labelled_of_noted {es : List Entry} (l : TypeLabel) (s : LineState)
    (hgood : ∀ e ∈ es, e.Good) (hs : s.messageType l ≠ []) :
    ∀ u ∈ updatesOf number s es, (l.labelName, []) ∉ u.labels := by
  induction es generalizing s with
  | nil => nofun
  | cons e es ih =>
      have he := hgood e List.mem_cons_self
      have hvalue : e.value ≠ [] := by
        intro hnil
        rw [Entry.Good, hnil] at he
        exact not_good_nil he
      have hnoted : (s.note e.name e.value).messageType l ≠ [] := by
        simp only [LineState.note]
        split
        · exact hvalue
        · exact hs
      rw [updatesOf_good number he]
      refine List.forall_mem_cons.mpr
        ⟨?_, ih _ (fun f hf => hgood f (List.mem_cons_of_mem _ hf)) hnoted⟩
      rw [Entry.update, mem_labels_iff]
      exact hnoted

theorem perm_of_unmixed {es fs : List Entry} (h : Unmixed es) (hperm : fs.Perm es) :
    (updatesOf number .start fs).Perm (updatesOf number .start es) := by
  rcases h with hbad | ⟨hgood, hsame⟩
  · have hnil : ∀ ds : List Entry, (∀ e ∈ ds, ¬ e.Good) → updatesOf number .start ds = [] := by
      intro ds hds
      cases ds with
      | nil => rfl
      | cons e ds => exact updatesOf_bad number (hds e List.mem_cons_self) _ ds
    rw [hnil es hbad, hnil fs fun e he => hbad e (hperm.mem_iff.mp he)]
  · have htypes : ∀ l : TypeLabel, (∀ e ∈ es, e.name = l.metricName) ∨
        LineState.start.messageType l = [] ∧ ∀ e ∈ es, e.name ≠ l.metricName := by
      intro l
      by_cases hany : ∃ e ∈ es, e.name = l.metricName
      · obtain ⟨e, he, hname⟩ := hany
        exact Or.inl fun f hf => (hsame l e he hname f hf).trans hname
      · exact Or.inr ⟨rfl, fun e he hname => hany ⟨e, he, hname⟩⟩
    have htypes' : ∀ l : TypeLabel, (∀ e ∈ fs, e.name = l.metricName) ∨
        LineState.start.messageType l = [] ∧ ∀ e ∈ fs, e.name ≠ l.metricName := by
      intro l
      rcases htypes l with hall | ⟨hempty, hother⟩
      · exact Or.inl fun e he => hall e (hperm.mem_iff.mp he)
      · exact Or.inr ⟨hempty, fun e he => hother e (hperm.mem_iff.mp he)⟩
    rw [updatesOf_eq_map number _ hgood htypes,
      updatesOf_eq_map number _ (fun e he => hgood e (hperm.mem_iff.mp he)) htypes']
    exact hperm.map _

/-- Two orders with the same updates, apart from the increment for the line. -/
theorem OrderFree.entryUpdates_perm (h : OrderFree number metrics line) {line₁ line₂ : Text}
    (h₁ : (getlines bar line₁).Perm (getlines bar line))
    (h₂ : (getlines bar line₂).Perm (getlines bar line)) :
    (updatesOf number .start (entries metrics line₁)).Perm
      (updatesOf number .start (entries metrics line₂)) := by
  have hperm := (h.permuted line₁ h₁).trans (h.permuted line₂ h₂).symm
  rwa [lineUpdates, lineUpdates, List.perm_append_left_iff, entryUpdates_eq,
    entryUpdates_eq] at hperm

theorem OrderFree.unmixed (h : OrderFree number metrics line) : Unmixed (entries metrics line) := by
  refine or_iff_not_imp_left.mpr fun hany => ?_
  obtain ⟨g, hg, hggood⟩ : ∃ g ∈ entries metrics line, g.Good := by
    by_contra hno
    exact hany fun e he hgood => hno ⟨e, he, hgood⟩
  have hall : ∀ e ∈ entries metrics line, e.Good := by
    intro x hx
    by_contra hbad
    obtain ⟨line₁, es₁, hperm₁, hentries₁⟩ := exists_line_entry_first hx
    obtain ⟨line₂, es₂, hperm₂, hentries₂⟩ := exists_line_entry_first hg
    have hperm := h.entryUpdates_perm number hperm₁ hperm₂
    rw [hentries₁, hentries₂, updatesOf_bad number hbad, updatesOf_good number hggood] at hperm
    exact absurd hperm.length_eq (by simp)
  refine ⟨hall, fun l e he hname f hf => ?_⟩
  by_contra hother
  obtain ⟨line₁, es₁, hperm₁, hentries₁⟩ := exists_line_entry_first he
  obtain ⟨line₂, es₂, hperm₂, hentries₂⟩ := exists_line_entry_first hf
  have hperm := h.entryUpdates_perm number hperm₁ hperm₂
  have hfname : f.name ≠ l.metricName := fun hfl => hother (hfl.trans hname.symm)
  have hes₁ : ∀ d ∈ es₁, d.Good := fun d hd =>
    hall d ((entries_perm hperm₁).mem_iff.mp (hentries₁ ▸ List.mem_cons_of_mem _ hd))
  rw [hentries₁, hentries₂, updatesOf_good number (hall e he),
    updatesOf_good number (hall f hf)] at hperm
  -- `f` in front is without the type, and behind `e` no value is
  have hfirst := hperm.mem_iff.mpr List.mem_cons_self
  have hlabel : (l.labelName, []) ∈
      (f.update number (LineState.start.note f.name f.value)).labels := by
    rw [Entry.update, mem_labels_iff]
    simp only [LineState.note, if_neg hfname]
    rfl
  have hvalue : e.value ≠ [] := by
    intro hnil
    have hgood := hall e he
    rw [Entry.Good, hnil] at hgood
    exact not_good_nil hgood
  have hnoted : (LineState.start.note e.name e.value).messageType l ≠ [] := by
    simpa only [LineState.note, if_pos hname] using hvalue
  rcases List.mem_cons.mp hfirst with heq | hmem
  · rw [heq, Entry.update, mem_labels_iff] at hlabel
    exact hnoted hlabel
  · exact labelled_of_noted number l _ hes₁ hnoted _ hmem hlabel

/-- The order of a line does not matter exactly when its registered entries are not mixed. -/
theorem orderFree_iff (metrics : Metrics) (line : Text) :
    OrderFree number metrics line ↔ Unmixed (entries metrics line) := by
  constructor
  · exact fun h => h.unmixed
  · intro h
    constructor
    · intro line' hperm
      rw [lineUpdates, lineUpdates, entryUpdates_eq, entryUpdates_eq]
      exact (perm_of_unmixed number h (entries_perm hperm)).append_left _
    · intro e he f hf hngap hnas
      have hne : TypeLabel.nas.metricName ≠ TypeLabel.ngap.metricName := by decide
      rcases h with hbad | ⟨-, hsame⟩
      · rw [entryUpdates_eq]
        cases hes : entries metrics line with
        | nil =>
            rw [hes] at he
            cases he
        | cons d ds =>
            rw [updatesOf_bad number (hbad d (hes ▸ List.mem_cons_self))]
            nofun
      · have hname := hsame .ngap e he hngap f hf
        exact absurd (hnas.symm.trans (hname.trans hngap)) hne

/-- A counter and the type of the NGAP message, in the order of the worker. -/
def packetThenType : Text :=
  ascii ['a', ':', '1', '|'] ++ TypeLabel.ngap.metricName ++ ascii [':', '2', '|']

def twoMetrics : Metrics := [([0x61], .counter), (TypeLabel.ngap.metricName, .counter)]

/-- The counter in front of the type is labelled without it. -/
theorem not_orderFree_packetThenType :
    ¬ ∀ (metrics : Metrics) (line : Text), OrderFree (fun value : Text => value) metrics line := by
  intro h
  have hentries : entries twoMetrics packetThenType =
      [⟨[0x61], .counter, [0x31]⟩, ⟨TypeLabel.ngap.metricName, .counter, [0x32]⟩] := rfl
  have hgood : stod [0x31] = .ok () := by decide +kernel
  have hunmixed := (h twoMetrics packetThenType).unmixed
  rw [hentries] at hunmixed
  rcases hunmixed with hbad | ⟨-, hsame⟩
  · exact hbad _ List.mem_cons_self hgood
  · have hname := hsame .ngap _ (List.mem_cons_of_mem _ List.mem_cons_self) rfl _ List.mem_cons_self
    revert hname
    decide

end PublicCloudCore.MetricsBus
