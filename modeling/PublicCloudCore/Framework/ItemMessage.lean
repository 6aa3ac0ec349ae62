import PublicCloudCore.Framework.Memory

/-!
# Messages that carry a counted list of items

A header of three octets, the length of what follows, one more octet, a count of two octets, and
the items. An item is an identifier of two octets, a criticality, the length of its value and the
value. `WellNested` says that every length and the count agree with the octets that follow them.

An encoder fills a buffer from its front through a `Cursor`; `Cursor.written` is what it has filled
so far.
-/

namespace PublicCloudCore.Framework

structure Cursor (α : Type) where
  buffer : Mem α
  offset : Nat

namespace Cursor

variable {α : Type}

def start (buffer : Mem α) : Cursor α := ⟨buffer, 0⟩

def put (c : Cursor α) (block : Mem.Block α) : Cursor α where
  buffer := c.buffer.write c.offset block.1
  offset := c.offset + block.2

def putAll (c : Cursor α) (blocks : List (Mem.Block α)) : Cursor α := blocks.foldl put c

def update (c : Cursor α) (i : Nat) (f : α → α) : Cursor α where
  buffer := Function.update c.buffer i (f (c.buffer i))
  offset := c.offset

def written (c : Cursor α) : List α := c.buffer.read 0 c.offset

@[simp] theorem written_start (buffer : Mem α) : (start buffer).written = [] := rfl

@[simp] theorem putAll_nil (c : Cursor α) : c.putAll [] = c := rfl

@[simp] theorem putAll_cons (c : Cursor α) (b : Mem.Block α) (bs : List (Mem.Block α)) :
    c.putAll (b :: bs) = (c.put b).putAll bs := rfl

theorem written_put (c : Cursor α) {block : Mem.Block α} (h : block.1.length = block.2) :
    (c.put block).written = c.written ++ block.1 := by
  have hold : (c.buffer.write c.offset block.1).read 0 c.offset = c.buffer.read 0 c.offset :=
    Mem.read_write_disjoint _ _ _ _ _ (Or.inl (by simp))
  simp only [written, put, Mem.read_add, hold, Nat.zero_add, ← h, Mem.read_write_same]

theorem offset_putAll (c : Cursor α) (blocks : List (Mem.Block α)) :
    (c.putAll blocks).offset = c.offset + Mem.blocksLen blocks := by
  induction blocks generalizing c with
  | nil => rfl
  | cons b bs ih => simp [ih, put, Nat.add_assoc]

theorem written_putAll (c : Cursor α) {blocks : List (Mem.Block α)}
    (h : ∀ b ∈ blocks, b.1.length = b.2) :
    (c.putAll blocks).written = c.written ++ blocks.flatMap Prod.fst := by
  induction blocks generalizing c with
  | nil => simp
  | cons b bs ih =>
      simp [ih (c.put b) fun d hd => h d (by simp [hd]), written_put c (h b (by simp))]

theorem written_update (c : Cursor α) (i : Nat) (f : α → α) :
    (c.update i f).written = c.written.modify i f := by
  apply List.ext_getElem
  · simp [written, update]
  · intro j h₁ h₂
    by_cases hij : i = j
    · simp [written, update, hij]
    · simp [written, update, hij, Ne.symm hij]

end Cursor

structure Item where
  idHigh : UInt8
  idLow : UInt8
  criticality : UInt8
  value : List UInt8

namespace Item

def bytes (item : Item) : List UInt8 :=
  item.idHigh :: item.idLow :: item.criticality :: UInt8.ofNat item.value.length :: item.value

/-- Take the first item off. -/
def read : List UInt8 → Option (Item × List UInt8)
  | idHigh :: idLow :: criticality :: length :: rest =>
      if length < 128 ∧ length.toNat ≤ rest.length then
        some (⟨idHigh, idLow, criticality, rest.take length.toNat⟩, rest.drop length.toNat)
      else none
  | _ => none

def Wraps (item : Item) : Prop :=
  ∃ inner content, item.value = inner :: content ∧ inner.toNat + 1 = item.value.length

theorem read_append (item : Item) (h : item.value.length < 128) (rest : List UInt8) :
    read (item.bytes ++ rest) = some (item, rest) := by
  have hlen : (UInt8.ofNat item.value.length).toNat = item.value.length := by
    simp; omega
  have hlt : UInt8.ofNat item.value.length < 128 := by
    simp only [UInt8.lt_iff_toNat_lt, hlen]
    exact h
  simp [read, bytes, hlen, hlt]

end Item

def walk : Nat → List UInt8 → Option (List Item × List UInt8)
  | 0, bytes => some ([], bytes)
  | n + 1, bytes =>
      match Item.read bytes with
      | none => none
      | some (item, rest) =>
          match walk n rest with
          | none => none
          | some (items, last) => some (item :: items, last)

theorem walk_items {items : List Item} (h : ∀ item ∈ items, item.value.length < 128) :
    walk items.length (items.flatMap Item.bytes) = some (items, []) := by
  induction items with
  | nil => rfl
  | cons item items ih =>
      have hrest := ih fun i hi => h i (by simp [hi])
      simp [walk, Item.read_append item (h item (by simp)), hrest]

/-- The octet after the criticality counts what follows it, the two octets behind the next one
count the items, the items fill the message, and those with the identifier `wrapping` wrap their
content once more. -/
def WellNested (wrapping : UInt8 × UInt8) (message : List UInt8) : Prop :=
  ∃ (form code criticality length first countHigh countLow : UInt8) (body : List UInt8)
      (items : List Item),
    message = form :: code :: criticality :: length :: first :: countHigh :: countLow :: body ∧
      length < 128 ∧ length.toNat = body.length + 3 ∧
      256 * countHigh.toNat + countLow.toNat = items.length ∧
      walk items.length body = some (items, []) ∧
      ∀ item ∈ items, (item.idHigh, item.idLow) = wrapping → item.Wraps

variable {wrapping : UInt8 × UInt8}

def IsItem (wrapping : UInt8 × UInt8) (block : Mem.Block UInt8) : Prop :=
  block.1.length = block.2 ∧
    ∃ item : Item, block.1 = item.bytes ∧ item.value.length < 128 ∧
      ((item.idHigh, item.idLow) = wrapping → item.Wraps)

theorem bytes_of_length {idHigh idLow criticality length : UInt8} {value : List UInt8}
    (h : length.toNat = value.length) :
    idHigh :: idLow :: criticality :: length :: value =
      (Item.mk idHigh idLow criticality value).bytes := by
  simp [Item.bytes, ← h]

theorem isItem_plain {idHigh idLow criticality length : UInt8} {value : List UInt8} {step : Nat}
    (hid : (idHigh, idLow) ≠ wrapping) (hlen : length.toNat = value.length)
    (hsmall : value.length < 128) (hstep : value.length + 4 = step) :
    IsItem wrapping (idHigh :: idLow :: criticality :: length :: value, step) := by
  refine ⟨by simpa using hstep, ⟨idHigh, idLow, criticality, value⟩, bytes_of_length hlen,
    hsmall, ?_⟩
  intro h
  exact absurd h hid

theorem isItem_wrapped {idHigh idLow criticality length inner : UInt8} {content : List UInt8}
    {step : Nat} (hlen : length.toNat = content.length + 1) (hinner : inner.toNat = content.length)
    (hsmall : content.length + 1 < 128) (hstep : content.length + 5 = step) :
    IsItem wrapping (idHigh :: idLow :: criticality :: length :: inner :: content, step) := by
  refine ⟨by simpa using hstep, ⟨idHigh, idLow, criticality, inner :: content⟩,
    bytes_of_length (by simpa using hlen), by simpa using hsmall, ?_⟩
  intro _
  exact ⟨inner, content, rfl, by simp [hinner]⟩

theorem length_flatMap_blocks {blocks : List (Mem.Block UInt8)}
    (h : ∀ b ∈ blocks, IsItem wrapping b) :
    (blocks.flatMap Prod.fst).length = Mem.blocksLen blocks := by
  induction blocks with
  | nil => rfl
  | cons b bs ih => simp [ih fun c hc => h c (by simp [hc]), (h b (by simp)).1]

theorem exists_items {blocks : List (Mem.Block UInt8)} (h : ∀ b ∈ blocks, IsItem wrapping b) :
    ∃ items : List Item, items.length = blocks.length ∧
      blocks.flatMap Prod.fst = items.flatMap Item.bytes ∧
      ∀ item ∈ items, item.value.length < 128 ∧
        ((item.idHigh, item.idLow) = wrapping → item.Wraps) := by
  induction blocks with
  | nil => exact ⟨[], rfl, rfl, by simp⟩
  | cons b bs ih =>
      have ⟨items, hcount, hbytes, hitems⟩ := ih fun c hc => h c (by simp [hc])
      have ⟨_, item, hb, hitem⟩ := h b (by simp)
      exact ⟨item :: items, by simp [hcount], by simp [hb, hbytes],
        List.forall_mem_cons.mpr ⟨hitem, hitems⟩⟩

theorem wellNested_append {form code criticality length first countHigh countLow : UInt8}
    {blocks : List (Mem.Block UInt8)} (h : ∀ b ∈ blocks, IsItem wrapping b)
    (hsmall : length < 128) (hlen : length.toNat = Mem.blocksLen blocks + 3)
    (hcount : 256 * countHigh.toNat + countLow.toNat = blocks.length) :
    WellNested wrapping ([form, code, criticality, length, first, countHigh, countLow] ++
      blocks.flatMap Prod.fst) := by
  have ⟨items, hitemsLen, hbytes, hitems⟩ := exists_items h
  have hwalk : walk items.length (blocks.flatMap Prod.fst) = some (items, []) := by
    rw [hbytes]
    exact walk_items fun item hi => (hitems item hi).1
  exact ⟨form, code, criticality, length, first, countHigh, countLow, blocks.flatMap Prod.fst,
    items, rfl, hsmall, by rw [length_flatMap_blocks h, hlen], by rw [hcount, hitemsLen], hwalk,
    fun item hi => (hitems item hi).2⟩

end PublicCloudCore.Framework
