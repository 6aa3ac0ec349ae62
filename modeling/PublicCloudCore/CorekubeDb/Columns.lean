import PublicCloudCore.CorekubeDb.UsersFile

/-!
# The columns of a line

`strtok` returns what stands between the commas of a line and leaves empty columns out. Which
columns reach `key_to_hex`, how far it reads them and which ones end the loop over the columns
follow from that list alone.
-/

namespace PublicCloudCore.CorekubeDb

open Framework

def columns (text : List UInt8) : List (List UInt8) := (text.splitOn comma).filter (· ≠ [])

@[simp] theorem columns_nil : columns [] = [] := rfl

@[simp] theorem columns_comma (text : List UInt8) : columns (comma :: text) = columns text := by
  simp [columns, List.splitOn_cons_eq_if_modifyHead]

theorem columns_dropWhile (text : List UInt8) :
    columns (text.dropWhile (· == comma)) = columns text := by
  induction text with
  | nil => rfl
  | cons b bs ih =>
      by_cases hb : b = comma
      · simp [hb, ih]
      · simp [hb]

theorem columns_cons {column : List UInt8} (hne : column ≠ []) (hcomma : comma ∉ column)
    (rest : List UInt8) : columns (column ++ comma :: rest) = column :: columns rest := by
  have hfirst : (column ++ comma :: rest).splitOn comma = column :: rest.splitOn comma := by
    apply List.splitOnP_append_cons_of_forall_mem
    · intro b hb
      simpa using ne_of_mem_of_not_mem hb hcomma
    · simp
  simp [columns, hfirst, hne]

theorem columns_singleton {column : List UInt8} (hne : column ≠ []) (hcomma : comma ∉ column) :
    columns column = [column] := by
  have hsingle : column.splitOn comma = [column] := by
    apply List.splitOnP_eq_singleton
    intro b hb
    simpa using ne_of_mem_of_not_mem hb hcomma
  simp [columns, hsingle, hne]

namespace Line

/-- The string at `p`. -/
def textFrom (l : Line) (p : Nat) : List UInt8 := (l.mem.read p (l.len - p)).takeWhile (· ≠ 0)

theorem textFrom_of_zero {l : Line} {p : Nat} (h : l.mem p = 0) : l.textFrom p = [] := by
  unfold textFrom
  cases hn : l.len - p with
  | zero => rfl
  | succ n => simp [Mem.read_succ, h]

theorem textFrom_of_ne_zero {l : Line} {p : Nat} (hp : p < l.len) (h : l.mem p ≠ 0) :
    l.textFrom p = l.mem p :: l.textFrom (p + 1) := by
  unfold textFrom
  obtain ⟨n, hn⟩ : ∃ n, l.len - p = n + 1 := ⟨l.len - p - 1, by omega⟩
  have hrest : l.len - (p + 1) = n := by omega
  simp [hn, hrest, Mem.read_succ, h]

theorem textFrom_cut {l : Line} {p q : Nat} (h : l.mem p ≠ 0) (hq : p < q) :
    (l.cut p h).textFrom q = l.textFrom q := by
  have hread : (l.mem.write p [0]).read q (l.len - q) = l.mem.read q (l.len - q) := by
    apply Mem.read_write_disjoint
    right
    simpa using hq
  exact congrArg (List.takeWhile (· ≠ 0)) hread

end Line

theorem textFrom_skipDelims (l : Line) (p : Nat) :
    l.textFrom (skipDelims l p) = (l.textFrom p).dropWhile (· == comma) := by
  fun_induction skipDelims l p with
  | case1 p h ih =>
      rw [ih, Line.textFrom_of_ne_zero h.1 (Line.ne_zero_of_comma h.2)]
      simp [h.2]
  | case2 p h =>
      by_cases hzero : l.mem p = 0
      · simp [Line.textFrom_of_zero hzero]
      · by_cases hp : p < l.len
        · have hb : l.mem p ≠ comma := fun hc => h ⟨hp, hc⟩
          simp [Line.textFrom_of_ne_zero hp hzero, hb]
        · have hempty : l.textFrom p = [] := by
            simp [Line.textFrom, Nat.sub_eq_zero_of_le (Nat.le_of_not_lt hp)]
          simp [hempty]

theorem textFrom_tokenEnd (l : Line) (p : Nat) :
    l.textFrom p = l.mem.read p (tokenEnd l p - p) ++ l.textFrom (tokenEnd l p) := by
  fun_induction tokenEnd l p with
  | case1 p h ih =>
      have hle := le_tokenEnd l (p + 1)
      have hlen : tokenEnd l (p + 1) - p = tokenEnd l (p + 1) - (p + 1) + 1 := by omega
      rw [hlen, Mem.read_succ, Line.textFrom_of_ne_zero h.1 h.2.2, ih]
      rfl
  | case2 p => simp

theorem comma_not_mem_token (l : Line) (p : Nat) :
    comma ∉ l.mem.read p (tokenEnd l p - p) := by
  fun_induction tokenEnd l p with
  | case1 p h ih =>
      have hle := le_tokenEnd l (p + 1)
      have hlen : tokenEnd l (p + 1) - p = tokenEnd l (p + 1) - (p + 1) + 1 := by omega
      rw [hlen, Mem.read_succ]
      simpa using ⟨Ne.symm h.2.1, ih⟩
  | case2 p => simp

theorem tokenEnd_stops (l : Line) {p : Nat} (hp : p ≤ l.len) (h : l.mem (tokenEnd l p) ≠ comma) :
    l.mem (tokenEnd l p) = 0 := by
  fun_induction tokenEnd l p with
  | case1 p hstep ih => exact ih hstep.1 h
  | case2 p hstop =>
      by_contra hzero
      exact hstop ⟨Line.lt_len hzero hp, h, hzero⟩

namespace Token

variable {l : Line} {p : Nat}

def text (t : Token l p) : List UInt8 := t.str.read 0 t.strlen

theorem text_length (t : Token l p) : t.text.length = t.strlen := by simp [text]

theorem is_iff (t : Token l p) (s : List UInt8) : t.is s = true ↔ t.text = s := by
  simp [Token.is, text]

/-- The token is the first column and `strtok` goes on behind it. -/
structure First (t : Token l p) : Prop where
  columns_eq : columns (l.textFrom p) = t.text :: columns (t.line.textFrom t.next)
  terminated : t.str t.strlen = 0
  strlen_pos : 0 < t.strlen

end Token

theorem strtok_spec (l : Line) {p : Nat} (hp : p ≤ l.len) :
    (strtok l hp = none ∧ columns (l.textFrom p) = []) ∨
      ∃ t, strtok l hp = some t ∧ t.First := by
  have hcolumns : columns (l.textFrom p) = columns (l.textFrom (skipDelims l p)) := by
    rw [textFrom_skipDelims, columns_dropWhile]
  by_cases hstart : l.mem (skipDelims l p) = 0
  · left
    rw [hcolumns, Line.textFrom_of_zero hstart]
    exact ⟨by simp [strtok, hstart], rfl⟩
  right
  have hlt := lt_tokenEnd hp hstart
  have hsplit := textFrom_tokenEnd l (skipDelims l p)
  have hfree := comma_not_mem_token l (skipDelims l p)
  have hne : l.mem.read (skipDelims l p) (tokenEnd l (skipDelims l p) - skipDelims l p) ≠ [] := by
    apply List.ne_nil_of_length_pos
    simpa using hlt
  by_cases hcomma : l.mem (tokenEnd l (skipDelims l p)) = comma
  · refine ⟨_, by rw [strtok, dif_neg hstart, dif_pos hcomma], ?_⟩
    have hzero := Line.ne_zero_of_comma hcomma
    have hend := Line.lt_len hzero (tokenEnd_le l (skipDelims_le l hp))
    constructor
    · have htext : (l.cut _ hzero).mem.read (skipDelims l p)
          (tokenEnd l (skipDelims l p) - skipDelims l p) =
          l.mem.read (skipDelims l p) (tokenEnd l (skipDelims l p) - skipDelims l p) := by
        apply Mem.read_write_disjoint
        omega
      simp only [Token.text, Token.str, Token.strlen, Mem.read_shift, Nat.add_zero]
      rw [htext, Line.textFrom_cut hzero (Nat.lt_succ_self _), hcolumns, hsplit,
        Line.textFrom_of_ne_zero hend hzero, hcomma, columns_cons hne hfree]
    · have hstop : skipDelims l p + (tokenEnd l (skipDelims l p) - skipDelims l p) =
          tokenEnd l (skipDelims l p) := by omega
      simp only [Token.str, Token.strlen, Mem.shift, hstop, Line.cut]
      exact Mem.write_inside l.mem (tokenEnd l (skipDelims l p)) [0] 0 (by simp)
    · simpa [Token.strlen] using hlt
  · refine ⟨_, by rw [strtok, dif_neg hstart, dif_neg hcomma], ?_⟩
    have hzero := tokenEnd_stops l (skipDelims_le l hp) hcomma
    constructor
    · simp only [Token.text, Token.str, Token.strlen, Mem.read_shift, Nat.add_zero]
      rw [Line.textFrom_of_zero hzero, hcolumns, hsplit, Line.textFrom_of_zero hzero,
        List.append_nil, columns_singleton hne hfree, columns_nil]
    · have hstop : skipDelims l p + (tokenEnd l (skipDelims l p) - skipDelims l p) =
          tokenEnd l (skipDelims l p) := by omega
      simp only [Token.str, Token.strlen, Mem.shift, hstop, hzero]
    · simpa [Token.strlen] using hlt

theorem columns_of_strtok {l : Line} {p : Nat} {hp : p ≤ l.len} (h : strtok l hp = none) :
    columns (l.textFrom p) = [] := by
  rcases strtok_spec l hp with ⟨_, hempty⟩ | ⟨t, ht, _⟩
  · exact hempty
  · simp [h] at ht

theorem first_of_strtok {l : Line} {p : Nat} {hp : p ≤ l.len} {t : Token l p}
    (h : strtok l hp = some t) : t.First := by
  rcases strtok_spec l hp with ⟨hnone, _⟩ | ⟨t', ht', hfirst⟩
  · simp [h] at hnone
  · rw [h] at ht'
    cases ht'
    exact hfirst

def skipped (keyStr : Mem UInt8) : Nat := if keyStr 0 = 0x30 ∧ keyStr 1 = 0x78 then 2 else 0

/-- The offsets from its argument at which `key_to_hex` reads. -/
def keyReads (keyStr : Mem UInt8) (strlen : Nat) : List Nat :=
  0 :: 1 :: (List.range (min 16 ((strlen + 1) / 2))).flatMap fun k =>
    [2 * k + skipped keyStr, 2 * k + skipped keyStr + 1]

theorem mem_keyReads {m : Mem UInt8} {n i : Nat} :
    i ∈ keyReads m n ↔ i = 0 ∨ i = 1 ∨ ∃ k < min 16 ((n + 1) / 2),
      i = 2 * k + skipped m ∨ i = 2 * k + skipped m + 1 := by
  simp [keyReads]

theorem keyToHex_eq (m : Mem UInt8) (n : Nat) :
    keyToHex m n = (List.range (min 16 ((n + 1) / 2))).map fun k =>
      (asciiMap (m (2 * k + skipped m)) <<< 4) ||| asciiMap (m (2 * k + skipped m + 1)) :=
  rfl

theorem keyToHex_length_le (m : Mem UInt8) (n : Nat) : (keyToHex m n).length ≤ keyLen := by
  simp [keyToHex_eq, keyLen]

theorem keyToHex_congr {m m' : Mem UInt8} {n : Nat} (h : ∀ i ∈ keyReads m n, m i = m' i) :
    keyToHex m n = keyToHex m' n := by
  have hskipped : skipped m = skipped m' := by
    simp [skipped, h 0 (by simp [keyReads]), h 1 (by simp [keyReads])]
  rw [keyToHex_eq, keyToHex_eq, ← hskipped]
  apply List.map_congr_left
  intro k hk
  have hk := List.mem_range.mp hk
  rw [h _ (mem_keyReads.mpr (Or.inr (Or.inr ⟨k, hk, Or.inl rfl⟩))),
    h _ (mem_keyReads.mpr (Or.inr (Or.inr ⟨k, hk, Or.inr rfl⟩)))]

/-- `"0x"`. -/
def hexPrefix : List UInt8 := [0x30, 0x78]

/-- The two characters that are skipped are missing at the end. -/
def OverReads (column : List UInt8) : Prop := hexPrefix <+: column ∧ column.length ≤ 32

namespace Token.First

variable {l : Line} {p : Nat} {t : Token l p}

theorem hexPrefix_iff (h : t.First) :
    hexPrefix <+: t.text ↔ t.str 0 = 0x30 ∧ t.str 1 = 0x78 := by
  have hpos := h.strlen_pos
  by_cases hlong : 2 ≤ t.strlen
  · obtain ⟨n, hn⟩ := Nat.exists_eq_add_of_le hlong
    have htext : t.text = t.str 0 :: t.str 1 :: t.str.read 2 n := by
      rw [Token.text, hn, Nat.add_comm, Mem.read_succ, Mem.read_succ]
    rw [htext]
    simp [hexPrefix, eq_comm]
  · have hone : t.strlen = 1 := by omega
    have hend := h.terminated
    rw [hone] at hend
    constructor
    · intro hmark
      have hle := hmark.length_le
      rw [t.text_length, hone] at hle
      simp [hexPrefix] at hle
    · rintro ⟨_, h1⟩
      rw [hend] at h1
      cases h1

/-- The reads stay within the token and its NUL unless a prefix is skipped in a short token. -/
theorem keyReads_le_iff (h : t.First) :
    (∀ i ∈ keyReads t.str t.strlen, i ≤ t.strlen) ↔ ¬ OverReads t.text := by
  have hpos := h.strlen_pos
  rw [OverReads, h.hexPrefix_iff, t.text_length]
  by_cases hskip : t.str 0 = 0x30 ∧ t.str 1 = 0x78
  · have htwo : skipped t.str = 2 := by simp [skipped, hskip]
    constructor
    · rintro hall ⟨_, hshort⟩
      have hlast := hall (2 * (min 16 ((t.strlen + 1) / 2) - 1) + skipped t.str + 1)
        (mem_keyReads.mpr (Or.inr (Or.inr ⟨_, by omega, Or.inr rfl⟩)))
      omega
    · intro hover i hi
      have hlong : 32 < t.strlen := Nat.lt_of_not_le fun hshort => hover ⟨hskip, hshort⟩
      rcases mem_keyReads.mp hi with rfl | rfl | ⟨k, hk, rfl | rfl⟩ <;> omega
  · have hzero : skipped t.str = 0 := by simp [skipped, hskip]
    constructor
    · exact fun _ hover => hskip hover.1
    · intro _ i hi
      rcases mem_keyReads.mp hi with rfl | rfl | ⟨k, hk, rfl | rfl⟩ <;> omega

end Token.First

/-- `"opc"` or `"op"`. -/
def IsCodeType (column : List UInt8) : Prop := column = opcText ∨ column = opText

instance (column : List UInt8) : Decidable (IsCodeType column) :=
  inferInstanceAs (Decidable (column = opcText ∨ column = opText))

/-- What the calls of `key_to_hex` get, from a column on: the memory at the token and its length. -/
def keyCalls (l : Line) {p : Nat} (hp : p ≤ l.len) (column : Nat) : List (Mem UInt8 × Nat) :=
  match strtok l hp with
  | none => []
  | some t =>
      let next := keyCalls t.line t.next_le (column + 1)
      match column with
      | 1 => (t.str, t.strlen) :: next
      | 2 => if t.is opcText || t.is opText then next else []
      | 3 => (t.str, t.strlen) :: next
      | _ => next
termination_by l.len - p
decreasing_by
  all_goals
    have := t.lt_next
    have := t.next_le
    have := t.line_len
    omega

/-- The columns of a key or a code, where the first column of the list has a number. -/
def keyColumns : Nat → List (List UInt8) → List (List UInt8)
  | _, [] => []
  | 0, _ :: rest => keyColumns 1 rest
  | 1, key :: rest => key :: keyColumns 2 rest
  | 2, codeType :: rest => if IsCodeType codeType then keyColumns 3 rest else []
  | 3, code :: _ => [code]
  | _, _ :: _ => []

theorem keyColumns_behind {column : Nat} (h : 4 ≤ column) (rest : List (List UInt8)) :
    keyColumns column rest = [] := by
  cases rest with
  | nil => simp [keyColumns]
  | cons _ _ =>
      obtain ⟨n, rfl⟩ := Nat.exists_eq_add_of_le h
      rw [Nat.add_comm]
      rfl

/-- The calls stay within their tokens exactly if no column makes them read on. -/
theorem keyCalls_le_iff (l : Line) {p : Nat} (hp : p ≤ l.len) {column : Nat} (h : 1 ≤ column) :
    (∀ c ∈ keyCalls l hp column, ∀ i ∈ keyReads c.1 c.2, i ≤ c.2) ↔
      ∀ k ∈ keyColumns column (columns (l.textFrom p)), ¬ OverReads k := by
  fun_induction keyCalls l hp column with
  | case1 l p hp column hnone =>
      rw [columns_of_strtok hnone]
      cases column <;> simp [keyColumns]
  | case2 l p hp t ht =>
      rename_i ih
      have hfirst := first_of_strtok ht
      rw [hfirst.columns_eq, keyColumns, List.forall_mem_cons, List.forall_mem_cons,
        ih (by decide), hfirst.keyReads_le_iff]
  | case3 l p hp t ht htype =>
      rename_i ih
      have hfirst := first_of_strtok ht
      have hcode : IsCodeType t.text := by simpa [IsCodeType, Token.is_iff] using htype
      rw [hfirst.columns_eq, keyColumns, if_pos hcode, ih (by decide)]
  | case4 l p hp t ht htype =>
      have hfirst := first_of_strtok ht
      have hcode : ¬ IsCodeType t.text := by simpa [IsCodeType, Token.is_iff] using htype
      rw [hfirst.columns_eq, keyColumns, if_neg hcode]
      simp
  | case5 l p hp t ht =>
      rename_i ih
      have hfirst := first_of_strtok ht
      rw [List.forall_mem_cons, ih (by decide), keyColumns_behind (by decide), hfirst.columns_eq,
        keyColumns, hfirst.keyReads_le_iff]
      simp
  | case6 =>
      rename_i column _ _ _ h1 h2 h3 ih
      have h1 : column ≠ 1 := h1
      have h2 : column ≠ 2 := h2
      have h3 : column ≠ 3 := h3
      have hbehind : 4 ≤ column := by omega
      rw [ih (by omega), keyColumns_behind hbehind, keyColumns_behind (by omega)]

/-- The third column is neither `op` nor `opc`, which ends the loop. -/
def BadCodeType (column : Nat) (cols : List (List UInt8)) : Prop :=
  ∃ i codeType, column + i = 2 ∧ cols[i]? = some codeType ∧ ¬ IsCodeType codeType

theorem badCodeType_cons (column : Nat) (first : List UInt8) (rest : List (List UInt8)) :
    BadCodeType column (first :: rest) ↔
      (column = 2 ∧ ¬ IsCodeType first) ∨ BadCodeType (column + 1) rest := by
  constructor
  · rintro ⟨i, codeType, hi, hget, hbad⟩
    cases i with
    | zero =>
        left
        simp only [List.getElem?_cons_zero, Option.some.injEq] at hget
        exact ⟨hi, hget ▸ hbad⟩
    | succ i => exact Or.inr ⟨i, codeType, by omega, by simpa using hget, hbad⟩
  · rintro (⟨hcolumn, hbad⟩ | ⟨i, codeType, hi, hget, hbad⟩)
    · exact ⟨0, first, hcolumn, rfl, hbad⟩
    · exact ⟨i + 1, codeType, by omega, by simpa using hget, hbad⟩

theorem not_badCodeType_behind {column : Nat} (h : 3 ≤ column) (cols : List (List UInt8)) :
    ¬ BadCodeType column cols := by
  rintro ⟨i, _, hi, _⟩
  omega

theorem readColumns_eq_none_iff (generateOpc : GenerateOpc) (l : Line) {p : Nat} (hp : p ≤ l.len)
    (column : Nat) (opcFlag : Bool) (opKey : Mem UInt8) (u : UserInfo) (h : 1 ≤ column) :
    readColumns generateOpc l hp column opcFlag opKey u = none ↔
      BadCodeType column (columns (l.textFrom p)) := by
  fun_induction readColumns generateOpc l hp column opcFlag opKey u with
  | case1 l p hp column _ _ _ hnone => simp [columns_of_strtok hnone, BadCodeType]
  | case2 l p hp _ _ _ t ht =>
      rename_i ih
      rw [(first_of_strtok ht).columns_eq, badCodeType_cons, ih _ _ _ (by decide)]
      simp
  | case3 l p hp _ _ _ t ht htype =>
      rename_i ih
      have hcode : IsCodeType t.text := Or.inl ((t.is_iff _).mp htype)
      rw [(first_of_strtok ht).columns_eq, badCodeType_cons, ih _ _ _ (by decide)]
      simp [hcode]
  | case4 l p hp _ _ _ t ht _ htype =>
      rename_i ih
      have hcode : IsCodeType t.text := Or.inr ((t.is_iff _).mp htype)
      rw [(first_of_strtok ht).columns_eq, badCodeType_cons, ih _ _ _ (by decide)]
      simp [hcode]
  | case5 l p hp _ _ _ t ht hopc hop =>
      have hcode : ¬ IsCodeType t.text := by
        simpa [IsCodeType, ← Token.is_iff] using And.intro hopc hop
      rw [(first_of_strtok ht).columns_eq, badCodeType_cons]
      simp [hcode]
  | case6 =>
      rename_i ih
      rw [ih _ _ _ (by decide)]
      simp [not_badCodeType_behind]
  | case7 =>
      rename_i ih
      rw [ih _ _ _ (by decide)]
      simp [not_badCodeType_behind]
  | case8 =>
      rename_i column _ _ _ _ _ _ h1 h2 h3 ih
      have h1 : column ≠ 1 := h1
      have h2 : column ≠ 2 := h2
      have hbehind : 3 ≤ column := by omega
      rw [ih _ _ _ (by omega)]
      simp [not_badCodeType_behind hbehind, not_badCodeType_behind (Nat.le_succ_of_le hbehind)]

theorem readColumns_imsi {generateOpc : GenerateOpc} {l : Line} {p : Nat} {hp : p ≤ l.len}
    {column : Nat} {opcFlag : Bool} {opKey : Mem UInt8} {u u' : UserInfo}
    (h : readColumns generateOpc l hp column opcFlag opKey u = some u') :
    u'.get .imsi = u.get .imsi := by
  fun_induction readColumns generateOpc l hp column opcFlag opKey u with
  | case1 => cases h; rfl
  | case2 =>
      rename_i ih
      rw [ih _ _ _ h]
      exact UserInfo.get_set_other _ _ (by decide) (keyToHex_length_le _ _)
  | case3 =>
      rename_i ih
      exact ih _ _ _ h
  | case4 =>
      rename_i ih
      exact ih _ _ _ h
  | case5 => cases h
  | case6 =>
      rename_i ih
      rw [ih _ _ _ h]
      exact UserInfo.get_set_other _ _ (by decide) (Nat.le_of_eq (generateOpc.length_run _ _))
  | case7 =>
      rename_i ih
      rw [ih _ _ _ h]
      exact UserInfo.get_set_other _ _ (by decide) (keyToHex_length_le _ _)
  | case8 =>
      rename_i ih
      exact ih _ _ _ h

end PublicCloudCore.CorekubeDb
