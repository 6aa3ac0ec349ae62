import PublicCloudCore.CorekubeDb.Columns
import PublicCloudCore.CorekubeDb.Duplicates
import PublicCloudCore.CorekubeDb.ImsiLookup
import PublicCloudCore.CorekubeDb.Opc

/-!
# Lines of the users file

A line of the file gives an IMSI, a key, the type of the operator's code and the code. `process_line`
stores what it has read when the columns run out, however many there were and whatever was in them,
so that the lines it rejects are those with a code type that is neither `op` nor `opc` and those
whose number the map already compares with.
-/

namespace PublicCloudCore.CorekubeDb

open Framework

/-- `0123456789abcdef` -/
def lowerHexDigits : List UInt8 :=
  [0x30, 0x31, 0x32, 0x33, 0x34, 0x35, 0x36, 0x37, 0x38, 0x39, 0x61, 0x62, 0x63, 0x64, 0x65, 0x66]

/-- `0123456789ABCDEF` -/
def upperHexDigits : List UInt8 :=
  [0x30, 0x31, 0x32, 0x33, 0x34, 0x35, 0x36, 0x37, 0x38, 0x39, 0x41, 0x42, 0x43, 0x44, 0x45, 0x46]

def hexValue (b : UInt8) : Nat :=
  if b ∈ lowerHexDigits then lowerHexDigits.idxOf b else upperHexDigits.idxOf b

def decodeHex : List UInt8 → List UInt8
  | hi :: lo :: digits => UInt8.ofNat (16 * hexValue hi + hexValue lo) :: decodeHex digits
  | _ => []

/-- A key or a code: 32 hexadecimal digits, perhaps behind `0x`. -/
structure HexColumn where
  marked : Bool
  digits : List UInt8
  length : digits.length = 32
  hex : ∀ b ∈ digits, b ∈ lowerHexDigits ++ upperHexDigits

namespace HexColumn

def mark (c : HexColumn) : List UInt8 := if c.marked then hexPrefix else []

def text (c : HexColumn) : List UInt8 := c.mark ++ c.digits

def bytes (c : HexColumn) : List UInt8 := decodeHex c.digits

end HexColumn

structure UserLine where
  imsi : List UInt8
  isImsi : IsImsi imsi
  key : HexColumn
  isOp : Bool
  code : HexColumn

namespace UserLine

def codeType (x : UserLine) : List UInt8 := if x.isOp then opText else opcText

def text (x : UserLine) : List UInt8 :=
  x.imsi ++ comma :: (x.key.text ++ comma :: (x.codeType ++ comma :: x.code.text))

/-- `opc` gives the code itself, `op` the one to make it from. -/
def opc (x : UserLine) (generateOpc : GenerateOpc) : List UInt8 :=
  if x.isOp then generateOpc.run x.key.bytes x.code.bytes else x.code.bytes

end UserLine

def Line.bytes (l : Line) : List UInt8 := l.mem.read 0 l.len

/-- The last line of a file may end without a newline. -/
def Line.Spells (l : Line) (x : UserLine) : Prop :=
  ∃ ending, (ending = [] ∨ ending = [0x0A]) ∧ l.bytes = x.text ++ ending

structure Recorded (generateOpc : GenerateOpc) (x : UserLine) (u : UserInfo) : Prop where
  imsi : u.imsi = x.imsi
  key : u.get .key = x.key.bytes
  opc : u.get .opc = x.opc generateOpc

/-- `generate_opc` of `crypto.c`, over what `Ekey` holds before. -/
def GenerateOpc.ofEkey (ekey : Mem UInt32) : GenerateOpc where
  run key op := .ofFn (Crypto.generateOpc ekey (.ofList key) (.ofList op))
  length_run _ _ := List.length_ofFn

/-- The operator code of a line of type `op` is encrypted under its key. -/
theorem Recorded.opc_of_isOp {ekey : Mem UInt32} {x : UserLine} {u : UserInfo}
    (h : Recorded (.ofEkey ekey) x u) (hop : x.isOp = true) :
    u.get .opc = .ofFn (Aes.xorBlock (Aes.aes128 (.ofList x.key.bytes) (.ofList x.code.bytes))
      (.ofList x.code.bytes)) := by
  rw [h.opc, UserLine.opc, if_pos hop]
  exact congrArg List.ofFn (Crypto.computeOpc_scheduled ekey _ _)

def Db.HasImsi (db : Db) (imsi : List UInt8) : Prop := ∃ u ∈ db.imsiMap.entries, u.imsi = imsi

def Line.Ignored (l : Line) : Prop := l.mem 0 = 0x23 ∨ l.len ≤ 1

instance (l : Line) : Decidable l.Ignored := inferInstanceAs (Decidable (l.mem 0 = 0x23 ∨ l.len ≤ 1))

theorem Line.zero_le_len (l : Line) : 0 ≤ l.len := Nat.zero_le l.len

/-- The calls of `key_to_hex` for the columns behind a token. -/
def Token.keyCallsBehind {l : Line} {p : Nat} (t : Token l p) (column : Nat) :
    List (Mem UInt8 × Nat) :=
  keyCalls t.line t.next_le column

/-- The calls of `key_to_hex` that `process_line` makes. -/
def Line.keyCalls (l : Line) : List (Mem UInt8 × Nat) :=
  if l.Ignored then []
  else
    match strtok l l.zero_le_len with
    | none => []
    | some t => t.keyCallsBehind 1

/-- `process_line` adds the record of a well-formed line with a new IMSI, leaves the map as it is
on every other line, and reads no key beyond its token and the NUL behind it. -/
structure LineHandled (generateOpc : GenerateOpc) (db : Db) (l : Line) (scratch : Scratch) :
    Prop where
  added : ∀ x, l.Spells x → ¬ db.HasImsi x.imsi → ∃ db' u,
    processLine generateOpc db l scratch = .ok db' ∧ Recorded generateOpc x u ∧
      db'.imsiMap.entries.Perm (u :: db.imsiMap.entries)
  unchanged : (∀ x, l.Spells x → db.HasImsi x.imsi) → ∃ db',
    processLine generateOpc db l scratch = .ok db' ∧ db'.imsiMap = db.imsiMap
  withinTokens : ∀ c ∈ l.keyCalls, ∀ i ∈ keyReads c.1 c.2, i ≤ c.2

theorem asciiMap_pair {hi lo : UInt8} (hhi : hi ∈ lowerHexDigits ++ upperHexDigits)
    (hlo : lo ∈ lowerHexDigits ++ upperHexDigits) :
    (asciiMap hi <<< 4) ||| asciiMap lo = UInt8.ofNat (16 * hexValue hi + hexValue lo) := by
  have key : ∀ hi ∈ lowerHexDigits ++ upperHexDigits, ∀ lo ∈ lowerHexDigits ++ upperHexDigits,
      (asciiMap hi <<< 4) ||| asciiMap lo = UInt8.ofNat (16 * hexValue hi + hexValue lo) := by
    decide +kernel
  exact key hi hhi lo hlo

theorem decodeHex_read (m : Mem UInt8) (p n : Nat)
    (h : ∀ b ∈ m.read p (2 * n), b ∈ lowerHexDigits ++ upperHexDigits) :
    (List.range n).map (fun k => (asciiMap (m (2 * k + p)) <<< 4) ||| asciiMap (m (2 * k + p + 1))) =
      decodeHex (m.read p (2 * n)) := by
  induction n generalizing p with
  | zero => rfl
  | succ n ih =>
      have hread : m.read p (2 * (n + 1)) = m p :: m (p + 1) :: m.read (p + 2) (2 * n) := by
        rw [Nat.mul_succ, Mem.read_succ, Mem.read_succ]
      rw [hread, List.forall_mem_cons, List.forall_mem_cons] at h
      rw [hread, decodeHex, ← asciiMap_pair h.1 h.2.1, ← ih (p + 2) h.2.2,
        List.range_succ_eq_map, List.map_cons, List.map_map]
      congr 1
      · simp
      · apply List.map_congr_left
        intro k _
        have hk : 2 * (k + 1) + p = 2 * k + (p + 2) := by omega
        simp only [Function.comp, Nat.succ_eq_add_one, hk]

theorem decodeHex_length {digits : List UInt8} {n : Nat} (h : digits.length = 2 * n) :
    (decodeHex digits).length = n := by
  induction n generalizing digits with
  | zero =>
      have hnil := List.length_eq_zero_iff.mp h
      simp [hnil, decodeHex]
  | succ n ih =>
      match digits, h with
      | hi :: lo :: digits, h =>
          have hrest : digits.length = 2 * n := by simpa [Nat.mul_succ] using h
          simp [decodeHex, ih hrest]

namespace HexColumn

variable (c : HexColumn)

theorem bytes_length : c.bytes.length = keyLen := decodeHex_length c.length

theorem ne_comma_of_mem_text {b : UInt8} (h : b ∈ c.text) : b ≠ comma ∧ b ≠ 0 := by
  have hmark : ∀ b ∈ hexPrefix, b ≠ comma ∧ b ≠ 0 := by
    decide +kernel
  have hdigits : ∀ b ∈ lowerHexDigits ++ upperHexDigits, b ≠ comma ∧ b ≠ 0 := by
    decide +kernel
  rcases List.mem_append.mp h with h | h
  · cases hmarked : c.marked
    · simp [mark, hmarked] at h
    · exact hmark b (by simpa [mark, hmarked] using h)
  · exact hdigits b (c.hex b h)

theorem text_length : c.text.length = c.mark.length + 32 := by simp [text, c.length]

theorem hexPrefix_iff (ending : List UInt8) : hexPrefix <+: c.text ++ ending ↔ c.marked = true := by
  cases hmarked : c.marked
  · have hx : (0x78 : UInt8) ∉ lowerHexDigits ++ upperHexDigits := by decide
    obtain ⟨hi, lo, digits, hdigits⟩ : ∃ hi lo digits, c.digits = hi :: lo :: digits := by
      match hc : c.digits, c.length with
      | hi :: lo :: digits, _ => exact ⟨hi, lo, digits, rfl⟩
    have hlo : lo ≠ 0x78 := ne_of_mem_of_not_mem (c.hex lo (by simp [hdigits])) hx
    simp [text, mark, hmarked, hdigits, hexPrefix, hlo.symm]
  · simp [text, mark, hmarked, hexPrefix]

theorem not_overReads (ending : List UInt8) : ¬ OverReads (c.text ++ ending) := by
  rintro ⟨hmark, hshort⟩
  have hmarked := (c.hexPrefix_iff ending).mp hmark
  rw [List.length_append, c.text_length, mark, if_pos hmarked] at hshort
  simp only [hexPrefix, List.length_cons, List.length_nil] at hshort
  omega

theorem keyToHex_eq {l : Line} {p : Nat} {t : Token l p} (h : t.First) {ending : List UInt8}
    (htext : t.text = c.text ++ ending) : keyToHex t.str t.strlen = c.bytes := by
  have hlen : t.strlen = c.mark.length + 32 + ending.length := by
    rw [← t.text_length, htext, List.length_append, c.text_length]
  have hholds : t.str.Holds 0 (c.mark ++ (c.digits ++ ending)) := by
    rw [← List.append_assoc]
    change t.str.Holds 0 (c.text ++ ending)
    rw [← htext, Mem.Holds, t.text_length]
    rfl
  rw [Mem.holds_append, Mem.holds_append, Nat.zero_add] at hholds
  have hdigits : t.str.read c.mark.length (2 * 16) = c.digits := hholds.2.1.read c.length
  have hskipped : skipped t.str = c.mark.length := by
    have hmark := c.hexPrefix_iff ending
    rw [← htext, h.hexPrefix_iff] at hmark
    cases hmarked : c.marked <;> simp [skipped, hmark, mark, hmarked, hexPrefix]
  have hcount : min 16 ((t.strlen + 1) / 2) = 16 := by omega
  rw [CorekubeDb.keyToHex_eq, hcount, hskipped, decodeHex_read, hdigits, bytes]
  rw [hdigits]
  exact c.hex

end HexColumn

namespace UserLine

variable (x : UserLine)

theorem codeType_isCodeType : IsCodeType x.codeType := by
  cases h : x.isOp <;> simp [codeType, IsCodeType, h]

theorem ne_comma_of_mem_codeType {b : UInt8} (h : b ∈ x.codeType) : b ≠ comma ∧ b ≠ 0 := by
  have key : ∀ b ∈ opText ++ opcText, b ≠ comma ∧ b ≠ 0 := by decide +kernel
  apply key
  cases hop : x.isOp <;> simp [codeType, hop] at h <;> simp [h]

theorem ne_comma_of_mem_imsi {b : UInt8} (h : b ∈ x.imsi) : b ≠ comma ∧ b ≠ 0 := by
  have hdigit := List.all_eq_true.mp x.isImsi.digits b h
  constructor
  · rintro rfl
    revert hdigit
    decide
  · rintro rfl
    revert hdigit
    decide

theorem ne_zero_of_mem_text {b : UInt8} (h : b ∈ x.text) : b ≠ 0 := by
  simp only [text, List.mem_append, List.mem_cons] at h
  rcases h with h | rfl | h | rfl | h | rfl | h
  · exact (x.ne_comma_of_mem_imsi h).2
  · exact comma_ne_zero
  · exact (x.key.ne_comma_of_mem_text h).2
  · exact comma_ne_zero
  · exact (x.ne_comma_of_mem_codeType h).2
  · exact comma_ne_zero
  · exact (x.code.ne_comma_of_mem_text h).2

theorem columns_text {ending : List UInt8} (h : ending = [] ∨ ending = [0x0A]) :
    columns (x.text ++ ending) = [x.imsi, x.key.text, x.codeType, x.code.text ++ ending] := by
  have hkey : x.key.text ≠ [] := by
    apply List.ne_nil_of_length_pos
    rw [x.key.text_length]
    omega
  have hcode : x.code.text ++ ending ≠ [] := by
    apply List.ne_nil_of_length_pos
    rw [List.length_append, x.code.text_length]
    omega
  have himsi : x.imsi ≠ [] := by
    apply List.ne_nil_of_length_pos
    rw [x.isImsi.length]
    decide
  have hcodeType : x.codeType ≠ [] := by
    cases hop : x.isOp <;> simp [codeType, hop, opText, opcText]
  have hlast : comma ∉ x.code.text ++ ending := by
    rw [List.mem_append, not_or]
    refine ⟨fun hc => (x.code.ne_comma_of_mem_text hc).1 rfl, ?_⟩
    rcases h with rfl | rfl <;> decide
  simp only [text, List.append_assoc, List.cons_append]
  rw [columns_cons himsi fun hc => (x.ne_comma_of_mem_imsi hc).1 rfl,
    columns_cons hkey fun hc => (x.key.ne_comma_of_mem_text hc).1 rfl,
    columns_cons hcodeType fun hc => (x.ne_comma_of_mem_codeType hc).1 rfl,
    columns_singleton hcode hlast]

end UserLine

def Line.columns (l : Line) : List (List UInt8) := CorekubeDb.columns (l.textFrom 0)

namespace Line.Spells

variable {l : Line} {x : UserLine}

theorem columns_eq (h : l.Spells x) : ∃ ending,
    l.columns = [x.imsi, x.key.text, x.codeType, x.code.text ++ ending] := by
  obtain ⟨ending, hending, hbytes⟩ := h
  have htext : l.textFrom 0 = x.text ++ ending := by
    rw [Line.textFrom, Nat.sub_zero]
    change l.bytes.takeWhile _ = _
    rw [hbytes, List.takeWhile_eq_self_iff]
    intro b hb
    rcases List.mem_append.mp hb with hb | hb
    · simpa using x.ne_zero_of_mem_text hb
    · rcases hending with rfl | rfl
      · cases hb
      · simp only [List.mem_singleton] at hb
        simp [hb]
  exact ⟨ending, by rw [Line.columns, htext, x.columns_text hending]⟩

theorem not_ignored (h : l.Spells x) : ¬ l.Ignored := by
  obtain ⟨ending, _, hbytes⟩ := h
  obtain ⟨b, imsi, himsi⟩ : ∃ b imsi, x.imsi = b :: imsi := by
    match hx : x.imsi, x.isImsi.length with
    | b :: imsi, _ => exact ⟨b, imsi, rfl⟩
  have hlen : l.len = (x.text ++ ending).length := by rw [← hbytes, Line.bytes, Mem.read_length]
  have hlong : 15 ≤ l.len := by
    rw [hlen]
    simp [UserLine.text, x.isImsi.length]
  obtain ⟨n, hn⟩ := Nat.exists_eq_add_of_le hlong
  have hfirst : l.mem 0 = b := by
    have hhead := congrArg List.head? hbytes
    rw [Line.bytes, hn, Nat.add_comm, Mem.read_succ] at hhead
    simpa [UserLine.text, himsi] using hhead
  have hdigit := List.all_eq_true.mp x.isImsi.digits b (by simp [himsi])
  rintro (hcomment | hshort)
  · rw [← hfirst, hcomment] at hdigit
    cases hdigit
  · omega

end Line.Spells

/-- The fifteen bytes that are stored as the IMSI, if the line has a column. -/
def Line.storedImsi (l : Line) : Option (List UInt8) :=
  (strtok l l.zero_le_len).map fun t => t.str.read 0 15

def imsiNumber (imsi : List UInt8) : UInt32 := (hashImsi (imsi ++ [0])).getD 0

/-- `hashmap_add` compares the number with a user that has it. -/
def Db.Refuses (db : Db) (imsi : List UInt8) : Prop :=
  ∃ u ∈ compared (db.imsiMap.bucket (imsiNumber imsi)), hashImsiUserInfo u = imsiNumber imsi

theorem hashImsiUserInfo_eq (u : UserInfo) : hashImsiUserInfo u = imsiNumber u.imsi := by
  rw [hashImsiUserInfo, u.get_imsi_eq, imsiNumber]

theorem hashmapAdd_eq_none_iff (db : Db) (u : UserInfo) :
    hashmapAdd db.imsiMap u = none ↔ db.Refuses u.imsi := by
  rw [hashmapAdd_eq, hashImsiUserInfo_eq u]
  simp [Db.Refuses]

theorem hashmapAdd_perm {db : Db} {u : UserInfo} (h : ¬ db.Refuses u.imsi) :
    ((hashmapAdd db.imsiMap u).getD db.imsiMap).entries.Perm (u :: db.imsiMap.entries) := by
  have hadd := (not_congr (hashmapAdd_eq_none_iff db u)).mpr h
  rw [hashmapAdd_eq] at hadd ⊢
  split at hadd
  · exact absurd rfl hadd
  · next hany =>
    rw [if_neg hany]
    exact db.imsiMap.entries_append_perm _ _

theorem getD_hashmapAdd_eq_iff (db : Db) (u : UserInfo) :
    (hashmapAdd db.imsiMap u).getD db.imsiMap = db.imsiMap ↔ db.Refuses u.imsi := by
  constructor
  · intro hsame
    by_contra hnew
    have hlen := (hashmapAdd_perm hnew).length_eq
    rw [hsame] at hlen
    simp at hlen
  · intro hrefuses
    rw [(hashmapAdd_eq_none_iff db u).mpr hrefuses]
    rfl

theorem UserInfo.imsi_eq_read (u : UserInfo) : u.imsi = u.mem.read 0 15 := by
  rw [UserInfo.imsi, UserInfo.get, UserInfo.copy]
  change (u.mem.read 0 (15 + 1)).take 15 = _
  rw [Mem.read_add]
  exact List.take_left' (Mem.read_length _ _ _)

theorem setUserImsi_imsi (mem : Mem UInt8) (str : Mem UInt8) :
    (setUserImsi mem (str.read 0 imsiLen)).imsi = str.read 0 15 := by
  rw [UserInfo.imsi_eq_read, setUserImsi]
  simp only
  rw [Mem.read_write_disjoint _ _ _ _ _ (Or.inl (by decide)), List.take_of_length_le (by simp),
    Mem.read_write_take _ _ _ _ (by simp [imsiLen])]
  change (str.read 0 (15 + 1)).take 15 = _
  rw [Mem.read_add]
  exact List.take_left' (Mem.read_length _ _ _)

/-- The record that `process_line` hands to the map. -/
def storedUser (newUser : UserInfo) (rand : RandStream) (node : Mem UInt8) : UserInfo :=
  (completeUserInfo newUser rand).1.copyTo node

theorem storedUser_get {newUser : UserInfo} {rand : RandStream} {node : Mem UInt8} {f : Field}
    (h : f ≠ .epcNasSequenceNumber ∧ f ≠ .nextHopChainingCount ∧ f ≠ .mmeUeS1apId ∧ f ≠ .tmsi ∧
      f ≠ .epcTeid ∧ f ≠ .pdnIpv4 ∧ f ≠ .rand) :
    (storedUser newUser rand node).get f = newUser.get f := by
  rw [storedUser, UserInfo.get_copyTo, completeUserInfo_get h]

theorem storedUser_imsi (newUser : UserInfo) (rand : RandStream) (node : Mem UInt8) :
    (storedUser newUser rand node).imsi = newUser.imsi := by
  rw [UserInfo.imsi, storedUser_get (by decide), UserInfo.imsi]

section Outcomes

variable {generateOpc : GenerateOpc} {db : Db} {l : Line} {scratch : Scratch}

theorem processLine_ignored (h : l.Ignored) : processLine generateOpc db l scratch = .ok db :=
  if_pos h

theorem processLine_noImsi (h : ¬ l.Ignored) (hnone : l.storedImsi = none) :
    processLine generateOpc db l scratch = .error .noImsi := by
  have ht : strtok l (Nat.zero_le l.len) = none := by simpa [Line.storedImsi] using hnone
  rw [processLine, if_neg (show ¬ (l.mem 0 = 0x23 ∨ l.len ≤ 1) from h), ht]

/-- A line with a column is stored under what the first column begins with, unless its code type
is neither. -/
theorem processLine_eq (h : ¬ l.Ignored) {t : Token l 0}
    (ht : strtok l (Nat.zero_le l.len) = some t) :
    processLine generateOpc db l scratch =
      match readColumns generateOpc t.line t.next_le 1 false scratch.opKey
        (setUserImsi scratch.user (t.str.read 0 imsiLen)) with
      | none => .ok db
      | some newUser => .ok { db with
          imsiMap :=
            (hashmapAdd db.imsiMap (storedUser newUser db.rand scratch.node)).getD db.imsiMap
          rand := (completeUserInfo newUser db.rand).2 } := by
  rw [processLine, if_neg (show ¬ (l.mem 0 = 0x23 ∨ l.len ≤ 1) from h), ht]
  rfl

theorem processLine_badCodeType (h : ¬ l.Ignored) {imsi : List UInt8}
    (himsi : l.storedImsi = some imsi) (hbad : BadCodeType 0 l.columns) :
    processLine generateOpc db l scratch = .ok db := by
  obtain ⟨t, ht, _⟩ := Option.map_eq_some_iff.mp himsi
  rw [Line.columns, (first_of_strtok ht).columns_eq, badCodeType_cons] at hbad
  have hnone := (readColumns_eq_none_iff generateOpc t.line t.next_le 1 false scratch.opKey
    (setUserImsi scratch.user (t.str.read 0 imsiLen)) (Nat.le_refl 1)).mpr (by simpa using hbad)
  rw [processLine_eq h ht, hnone]

variable (generateOpc db scratch) in
theorem processLine_stored (h : ¬ l.Ignored) {imsi : List UInt8}
    (himsi : l.storedImsi = some imsi) (hgood : ¬ BadCodeType 0 l.columns) :
    ∃ u rand, u.imsi = imsi ∧ processLine generateOpc db l scratch = .ok { db with
      imsiMap := (hashmapAdd db.imsiMap u).getD db.imsiMap
      rand } := by
  obtain ⟨t, ht, rfl⟩ := Option.map_eq_some_iff.mp himsi
  rw [Line.columns, (first_of_strtok ht).columns_eq, badCodeType_cons] at hgood
  cases hread : readColumns generateOpc t.line t.next_le 1 false scratch.opKey
      (setUserImsi scratch.user (t.str.read 0 imsiLen)) with
  | none =>
      have hbad := (readColumns_eq_none_iff _ _ _ _ _ _ _ (Nat.le_refl 1)).mp hread
      exact absurd (Or.inr hbad) hgood
  | some newUser =>
      refine ⟨storedUser newUser db.rand scratch.node, (completeUserInfo newUser db.rand).2, ?_, ?_⟩
      · rw [storedUser_imsi, UserInfo.imsi, readColumns_imsi hread]
        exact setUserImsi_imsi _ _
      · rw [processLine_eq h ht, hread]

end Outcomes

theorem Token.First.next_columns {l : Line} {p : Nat} {t : Token l p} (h : t.First)
    {first : List UInt8} {rest : List (List UInt8)}
    (hcolumns : columns (l.textFrom p) = first :: rest) :
    t.text = first ∧ columns (t.line.textFrom t.next) = rest := by
  rw [h.columns_eq] at hcolumns
  exact List.cons.inj hcolumns

theorem exists_first {l : Line} {p : Nat} (hp : p ≤ l.len) {first : List UInt8}
    {rest : List (List UInt8)} (h : columns (l.textFrom p) = first :: rest) :
    ∃ t, strtok l hp = some t ∧ t.First ∧ t.text = first ∧
      columns (t.line.textFrom t.next) = rest := by
  rcases strtok_spec l hp with ⟨_, hempty⟩ | ⟨t, ht, hfirst⟩
  · simp [h] at hempty
  · exact ⟨t, ht, hfirst, hfirst.next_columns h⟩

theorem readColumns_of_empty (generateOpc : GenerateOpc) {l : Line} {p : Nat} (hp : p ≤ l.len)
    (column : Nat) (opcFlag : Bool) (opKey : Mem UInt8) (u : UserInfo)
    (h : columns (l.textFrom p) = []) :
    readColumns generateOpc l hp column opcFlag opKey u = some u := by
  rcases strtok_spec l hp with ⟨hnone, _⟩ | ⟨t, ht, hfirst⟩
  · rw [readColumns, hnone]
  · simp [hfirst.columns_eq] at h

theorem opcText_ne_opText : opText ≠ opcText := by decide

theorem UserLine.readColumns_eq (x : UserLine) (generateOpc : GenerateOpc) {l : Line} {p : Nat}
    (hp : p ≤ l.len) (opKey : Mem UInt8) (u : UserInfo) {ending : List UInt8}
    (h : columns (l.textFrom p) = [x.key.text, x.codeType, x.code.text ++ ending]) :
    readColumns generateOpc l hp 1 false opKey u =
      some ((u.set .key Field.key_ne_imsi x.key.bytes).set .opc Field.opc_ne_imsi
        (x.opc generateOpc)) := by
  obtain ⟨tkey, htkey, hkey, hkeyText, hrest⟩ := exists_first hp h
  obtain ⟨ttype, httype, htype, htypeText, hrest⟩ := exists_first tkey.next_le hrest
  obtain ⟨tcode, htcode, hcode, hcodeText, hrest⟩ := exists_first ttype.next_le hrest
  have hkeyHex : keyToHex tkey.str tkey.strlen = x.key.bytes :=
    x.key.keyToHex_eq hkey (hkeyText.trans (List.append_nil _).symm)
  have hcodeHex : keyToHex tcode.str tcode.strlen = x.code.bytes :=
    x.code.keyToHex_eq hcode hcodeText
  have hstored : (u.set .key Field.key_ne_imsi x.key.bytes).get .key = x.key.bytes :=
    UserInfo.get_set_same _ _ x.key.bytes_length
  have hopKey : (opKey.write 0 x.code.bytes).read 0 keyLen = x.code.bytes := by
    rw [← x.code.bytes_length]
    exact Mem.read_write_same _ _ _
  rw [readColumns, htkey]
  simp only [hkeyHex]
  rw [readColumns, httype]
  cases hop : x.isOp with
  | true =>
      have hopc : ¬ ttype.is opcText := by
        rw [ttype.is_iff, htypeText, codeType, if_pos hop]
        exact opcText_ne_opText
      have hopText : ttype.is opText := by
        rw [ttype.is_iff, htypeText, codeType, if_pos hop]
      simp only [hopc, hopText, if_true, Bool.false_eq_true, if_false]
      rw [readColumns, htcode]
      simp only [if_true, hcodeHex, hopKey, hstored]
      rw [readColumns_of_empty _ _ _ _ _ _ hrest, opc, if_pos hop]
  | false =>
      have hopc : ttype.is opcText := by
        rw [ttype.is_iff, htypeText, codeType, hop]
        rfl
      simp only [hopc, if_true]
      rw [readColumns, htcode]
      simp only [Bool.false_eq_true, if_false, hcodeHex]
      rw [readColumns_of_empty _ _ _ _ _ _ hrest, opc, hop]
      rfl

theorem UserLine.opc_length (x : UserLine) (generateOpc : GenerateOpc) :
    (x.opc generateOpc).length = keyLen := by
  cases hop : x.isOp
  · simp [opc, hop, x.code.bytes_length]
  · simp [opc, hop, generateOpc.length_run]

/-- The structure that a well-formed line has filled when its columns run out; `str` is the memory
from its first column on. -/
def UserLine.newUser (x : UserLine) (generateOpc : GenerateOpc) (user str : Mem UInt8) : UserInfo :=
  ((setUserImsi user (str.read 0 imsiLen)).set .key Field.key_ne_imsi x.key.bytes).set .opc
    Field.opc_ne_imsi (x.opc generateOpc)

theorem UserLine.newUser_imsi (x : UserLine) (generateOpc : GenerateOpc) (user str : Mem UInt8) :
    (x.newUser generateOpc user str).imsi = str.read 0 15 := by
  rw [UserInfo.imsi, newUser, UserInfo.get_set_other _ _ (by decide)
    (Nat.le_of_eq (x.opc_length generateOpc)), UserInfo.get_set_other _ _ (by decide)
    (Nat.le_of_eq x.key.bytes_length)]
  exact setUserImsi_imsi _ _

theorem Line.Spells.processLine_newUser {l : Line} {x : UserLine} (h : l.Spells x)
    (generateOpc : GenerateOpc) (db : Db) (scratch : Scratch) :
    ∃ str : Mem UInt8, str.read 0 15 = x.imsi ∧
      processLine generateOpc db l scratch = .ok { db with
        imsiMap := (hashmapAdd db.imsiMap (storedUser (x.newUser generateOpc scratch.user str) db.rand
          scratch.node)).getD db.imsiMap
        rand := fun n => db.rand (n + 4) } := by
  obtain ⟨ending, hcolumns⟩ := h.columns_eq
  obtain ⟨t, ht, hfirst, htext, hrest⟩ := exists_first (Nat.zero_le l.len) hcolumns
  have hread := x.readColumns_eq generateOpc t.next_le scratch.opKey
    (setUserImsi scratch.user (t.str.read 0 imsiLen)) hrest
  have hlen : t.strlen = 15 := by rw [← t.text_length, htext, x.isImsi.length]
  refine ⟨t.str, by rw [← htext, Token.text, hlen], ?_⟩
  rw [CorekubeDb.processLine_eq h.not_ignored ht, hread]
  rfl

/-- What is stored is the record of the line. -/
theorem Line.Spells.processLine_eq {l : Line} {x : UserLine} (h : l.Spells x)
    (generateOpc : GenerateOpc) (db : Db) (scratch : Scratch) :
    ∃ u rand, Recorded generateOpc x u ∧ processLine generateOpc db l scratch = .ok { db with
      imsiMap := (hashmapAdd db.imsiMap u).getD db.imsiMap
      rand } := by
  obtain ⟨str, himsi, hrun⟩ := h.processLine_newUser generateOpc db scratch
  refine ⟨_, _, ?_, hrun⟩
  constructor
  · rw [storedUser_imsi, x.newUser_imsi, himsi]
  · rw [storedUser_get (by decide), UserLine.newUser, UserInfo.get_set_other _ _ (by decide)
      (Nat.le_of_eq (x.opc_length generateOpc)), UserInfo.get_set_same _ _ x.key.bytes_length]
  · rw [storedUser_get (by decide), UserLine.newUser,
      UserInfo.get_set_same _ _ (x.opc_length generateOpc)]

/-- A line that `process_line` handles as it is meant to: an ignored one, a well-formed one whose
IMSI is refused exactly if it is stored, and a malformed one that is rejected. -/
inductive Line.Sound (db : Db) (l : Line) : Prop
  | ignored (h : l.Ignored)
  | wellFormed (x : UserLine) (h : l.Spells x) (present : db.HasImsi x.imsi ↔ db.Refuses x.imsi)
  | malformed (imsi : List UInt8) (live : ¬ l.Ignored) (h : ∀ x, ¬ l.Spells x)
      (himsi : l.storedImsi = some imsi)
      (bounded : ∀ k ∈ keyColumns 0 l.columns, ¬ OverReads k)
      (rejected : BadCodeType 0 l.columns ∨ db.Refuses imsi)

theorem Line.keyCalls_le_iff {l : Line} (h : ¬ l.Ignored) :
    (∀ c ∈ l.keyCalls, ∀ i ∈ keyReads c.1 c.2, i ≤ c.2) ↔
      ∀ k ∈ keyColumns 0 l.columns, ¬ OverReads k := by
  rw [Line.keyCalls, if_neg h, Line.columns]
  rcases strtok_spec l (Nat.zero_le l.len) with ⟨hnone, hempty⟩ | ⟨t, ht, hfirst⟩
  · simp [hnone, hempty, keyColumns]
  · rw [ht, hfirst.columns_eq, keyColumns]
    exact CorekubeDb.keyCalls_le_iff t.line t.next_le (Nat.le_refl 1)

theorem Line.Spells.bounded {l : Line} {x : UserLine} (h : l.Spells x) :
    ∀ k ∈ keyColumns 0 l.columns, ¬ OverReads k := by
  obtain ⟨ending, hcolumns⟩ := h.columns_eq
  have hkey := x.key.not_overReads []
  rw [List.append_nil] at hkey
  have hcode := x.code.not_overReads ending
  simp [hcolumns, keyColumns, x.codeType_isCodeType, hkey, hcode]

theorem Line.Spells.imsi_eq {l : Line} {x y : UserLine} (hx : l.Spells x) (hy : l.Spells y) :
    x.imsi = y.imsi := by
  obtain ⟨_, hcolumns⟩ := hx.columns_eq
  obtain ⟨_, hcolumns'⟩ := hy.columns_eq
  rw [hcolumns] at hcolumns'
  exact (List.cons.inj hcolumns').1

section Handled

variable {generateOpc : GenerateOpc} {db : Db} {l : Line} {scratch : Scratch}

theorem Line.Spells.handled_iff {x : UserLine} (h : l.Spells x) :
    LineHandled generateOpc db l scratch ↔ (db.HasImsi x.imsi ↔ db.Refuses x.imsi) := by
  obtain ⟨u, rand, hrecorded, hrun⟩ := h.processLine_eq generateOpc db scratch
  have hsame := getD_hashmapAdd_eq_iff db u
  rw [hrecorded.imsi] at hsame
  constructor
  · intro hhandled
    constructor
    · intro hpresent
      obtain ⟨db', hdb', hmap⟩ := hhandled.unchanged fun y hy => by rwa [hy.imsi_eq h]
      rw [hrun] at hdb'
      cases hdb'
      exact hsame.mp hmap
    · intro hrefuses
      by_contra hnew
      obtain ⟨db', v, hdb', _, hperm⟩ := hhandled.added x h hnew
      rw [hrun] at hdb'
      cases hdb'
      have hlen := hperm.length_eq
      simp only [hsame.mpr hrefuses] at hlen
      simp at hlen
  · intro hpresent
    refine ⟨fun y hy hnew => ?_, fun hall => ?_,
      (Line.keyCalls_le_iff h.not_ignored).mpr h.bounded⟩
    · obtain ⟨v, rand, hrecorded, hrun⟩ := hy.processLine_eq generateOpc db scratch
      refine ⟨_, v, hrun, hrecorded, hashmapAdd_perm ?_⟩
      rw [hy.imsi_eq h] at hnew
      rw [hrecorded.imsi, hy.imsi_eq h]
      exact fun hrefuses => hnew (hpresent.mpr hrefuses)
    · exact ⟨_, hrun, hsame.mpr (hpresent.mp (hall x h))⟩

theorem handled_iff_of_malformed (hlive : ¬ l.Ignored) (h : ∀ x, ¬ l.Spells x) :
    LineHandled generateOpc db l scratch ↔ ∃ imsi, l.storedImsi = some imsi ∧
      (∀ k ∈ keyColumns 0 l.columns, ¬ OverReads k) ∧
      (BadCodeType 0 l.columns ∨ db.Refuses imsi) := by
  cases himsi : l.storedImsi with
  | none =>
      constructor
      · intro hhandled
        obtain ⟨db', hdb', _⟩ := hhandled.unchanged fun x hx => absurd hx (h x)
        rw [processLine_noImsi hlive himsi] at hdb'
        cases hdb'
      · rintro ⟨_, hnone, _⟩
        cases hnone
  | some imsi =>
      constructor
      · intro hhandled
        refine ⟨imsi, rfl, (Line.keyCalls_le_iff hlive).mp hhandled.withinTokens, ?_⟩
        by_contra hnot
        rw [not_or] at hnot
        obtain ⟨u, rand, rfl, hrun⟩ := processLine_stored generateOpc db scratch hlive himsi hnot.1
        obtain ⟨db', hdb', hmap⟩ := hhandled.unchanged fun x hx => absurd hx (h x)
        rw [hrun] at hdb'
        cases hdb'
        exact hnot.2 ((getD_hashmapAdd_eq_iff db u).mp hmap)
      · rintro ⟨_, himsi', hbounded, hrejected⟩
        cases himsi'
        refine ⟨fun x hx => absurd hx (h x), fun _ => ?_,
          (Line.keyCalls_le_iff hlive).mpr hbounded⟩
        by_cases hbad : BadCodeType 0 l.columns
        · exact ⟨db, processLine_badCodeType hlive himsi hbad, rfl⟩
        · obtain ⟨u, rand, rfl, hrun⟩ := processLine_stored generateOpc db scratch hlive himsi hbad
          exact ⟨_, hrun, (getD_hashmapAdd_eq_iff db u).mpr (hrejected.resolve_left hbad)⟩

/-- `process_line` does what a line is for exactly on the sound lines. -/
theorem lineHandled_iff (generateOpc : GenerateOpc) (db : Db) (l : Line) (scratch : Scratch) :
    LineHandled generateOpc db l scratch ↔ l.Sound db := by
  by_cases hignored : l.Ignored
  · refine iff_of_true ⟨fun x hx => absurd hignored hx.not_ignored, fun _ => ?_, ?_⟩
      (.ignored hignored)
    · exact ⟨db, processLine_ignored hignored, rfl⟩
    · simp [Line.keyCalls, hignored]
  by_cases hspells : ∃ x, l.Spells x
  · obtain ⟨x, hx⟩ := hspells
    rw [hx.handled_iff]
    constructor
    · exact .wellFormed x hx
    · intro hsound
      cases hsound with
      | ignored h => exact absurd h hignored
      | wellFormed y hy present => rwa [hx.imsi_eq hy]
      | malformed _ _ h => exact absurd hx (h x)
  · have hmalformed := not_exists.mp hspells
    rw [handled_iff_of_malformed hignored hmalformed]
    constructor
    · rintro ⟨imsi, himsi, hbounded, hrejected⟩
      exact .malformed imsi hignored hmalformed himsi hbounded hrejected
    · intro hsound
      cases hsound with
      | ignored h => exact absurd h hignored
      | wellFormed y hy => exact absurd hy (hmalformed y)
      | malformed imsi _ _ himsi hbounded hrejected => exact ⟨imsi, himsi, hbounded, hrejected⟩

end Handled

/-- A line with no more than an IMSI is stored. -/
theorem not_lineHandled_imsiAlone :
    ¬ ∀ (generateOpc : GenerateOpc) (db : Db) (l : Line) (scratch : Scratch),
      LineHandled generateOpc db l scratch := by
  intro h
  have hhandled := h .unused (.init none fun _ => 0) (.ofBytes (testNetworkImsi ++ [0x0A]))
    ⟨fun _ => 0, fun _ => 0, fun _ => 0⟩
  obtain ⟨db', hdb', hmap⟩ := hhandled.unchanged fun x hx => by
    obtain ⟨ending, hcolumns⟩ := hx.columns_eq
    have hone : (Line.ofBytes (testNetworkImsi ++ [0x0A])).columns.length = 1 := by decide +kernel
    rw [hcolumns] at hone
    cases hone
  have hrun : ((processLine .unused (.init none fun _ => 0) (.ofBytes (testNetworkImsi ++ [0x0A]))
      ⟨fun _ => 0, fun _ => 0, fun _ => 0⟩).toOption.any
        fun db => db.imsiMap.entries.length == 1) = true := by
    decide +kernel
  rw [hdb'] at hrun
  change (db'.imsiMap.entries.length == 1) = true at hrun
  rw [hmap] at hrun
  revert hrun
  decide

end PublicCloudCore.CorekubeDb
