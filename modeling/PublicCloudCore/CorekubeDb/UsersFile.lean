import PublicCloudCore.CorekubeDb.Server

/-!
# The users file

`init_db` and `process_line`. A line is the memory that `getline` leaves behind, so a column that
is too short shows what lies behind it; memory that `malloc` returns and the stack hold anything.
`strtok` cuts the line at its commas while the columns are read.
-/

namespace PublicCloudCore.CorekubeDb

open Framework

def comma : UInt8 := 0x2C

/-- `len` bytes with a NUL behind them; what follows is an older content of the buffer. -/
structure Line where
  mem : Mem UInt8
  len : Nat
  terminated : mem len = 0

/-- `*p = 0` at a byte that is not NUL yet. -/
def Line.cut (l : Line) (p : Nat) (h : l.mem p ≠ 0) : Line where
  mem := l.mem.write p [0]
  len := l.len
  terminated := by
    have hne : l.len ≠ p := by
      rintro rfl
      exact h l.terminated
    rw [Mem.write_outside _ _ _ _ (by simp only [List.length_singleton]; omega)]
    exact l.terminated

/-- `strspn` with the delimiter. -/
def skipDelims (l : Line) (p : Nat) : Nat :=
  if p < l.len ∧ l.mem p = comma then skipDelims l (p + 1) else p
termination_by l.len - p

/-- `strcspn` with the delimiter. -/
def tokenEnd (l : Line) (p : Nat) : Nat :=
  if p < l.len ∧ l.mem p ≠ comma ∧ l.mem p ≠ 0 then tokenEnd l (p + 1) else p
termination_by l.len - p

theorem comma_ne_zero : comma ≠ 0 := by decide

theorem Line.ne_zero_of_comma {l : Line} {p : Nat} (h : l.mem p = comma) : l.mem p ≠ 0 := by
  rw [h]
  exact comma_ne_zero

theorem Line.lt_len {l : Line} {p : Nat} (h : l.mem p ≠ 0) (hp : p ≤ l.len) : p < l.len := by
  apply Nat.lt_of_le_of_ne hp
  intro heq
  rw [heq] at h
  exact h l.terminated

theorem le_skipDelims (l : Line) (p : Nat) : p ≤ skipDelims l p := by
  fun_induction skipDelims l p with
  | case1 p _ ih => exact Nat.le_of_succ_le ih
  | case2 => exact Nat.le_refl _

theorem le_tokenEnd (l : Line) (p : Nat) : p ≤ tokenEnd l p := by
  fun_induction tokenEnd l p with
  | case1 p _ ih => exact Nat.le_of_succ_le ih
  | case2 => exact Nat.le_refl _

theorem skipDelims_le (l : Line) {p : Nat} (h : p ≤ l.len) : skipDelims l p ≤ l.len := by
  fun_induction skipDelims l p with
  | case1 p hp ih => exact ih hp.1
  | case2 => exact h

theorem skipDelims_stops (l : Line) {p : Nat} (h : p ≤ l.len) : l.mem (skipDelims l p) ≠ comma := by
  fun_induction skipDelims l p with
  | case1 p hp ih => exact ih hp.1
  | case2 p hp =>
      intro hc
      exact hp ⟨Line.lt_len (Line.ne_zero_of_comma hc) h, hc⟩

theorem tokenEnd_le (l : Line) {p : Nat} (h : p ≤ l.len) : tokenEnd l p ≤ l.len := by
  fun_induction tokenEnd l p with
  | case1 p hp ih => exact ih hp.1
  | case2 => exact h

theorem lt_tokenEnd {l : Line} {p : Nat} (hp : p ≤ l.len) (h : l.mem (skipDelims l p) ≠ 0) :
    skipDelims l p < tokenEnd l (skipDelims l p) := by
  rw [tokenEnd, if_pos ⟨Line.lt_len h (skipDelims_le l hp), skipDelims_stops l hp, h⟩]
  exact le_tokenEnd l _

/-- What `strtok` returns from `p` on, the end of the token, the line as it is now and the pointer
that `strtok` keeps. -/
structure Token (l : Line) (p : Nat) where
  start : Nat
  stop : Nat
  line : Line
  next : Nat
  line_len : line.len = l.len
  lt_next : p < next
  next_le : next ≤ line.len

def strtok (l : Line) {p : Nat} (hp : p ≤ l.len) : Option (Token l p) :=
  if hstart : l.mem (skipDelims l p) = 0 then none
  else if hcomma : l.mem (tokenEnd l (skipDelims l p)) = comma then
    some {
      start := skipDelims l p
      stop := tokenEnd l (skipDelims l p)
      line := l.cut (tokenEnd l (skipDelims l p)) (Line.ne_zero_of_comma hcomma)
      next := tokenEnd l (skipDelims l p) + 1
      line_len := rfl
      lt_next := Nat.lt_succ_of_le ((le_skipDelims l p).trans (le_tokenEnd l _))
      next_le :=
        Line.lt_len (l := l) (Line.ne_zero_of_comma hcomma) (tokenEnd_le l (skipDelims_le l hp)) }
  else
    some {
      start := skipDelims l p
      stop := tokenEnd l (skipDelims l p)
      line := l
      next := tokenEnd l (skipDelims l p)
      line_len := rfl
      lt_next := Nat.lt_of_le_of_lt (le_skipDelims l p) (lt_tokenEnd hp hstart)
      next_le := tokenEnd_le l (skipDelims_le l hp) }

namespace Token

variable {l : Line} {p : Nat}

/-- `strlen(token)`. -/
def strlen (t : Token l p) : Nat := t.stop - t.start

def str (t : Token l p) : Mem UInt8 := t.line.mem.shift t.start

/-- `!strcmp(token, s)`. -/
def is (t : Token l p) (s : List UInt8) : Bool := t.str.read 0 t.strlen == s

end Token

/-- `"opc"`. -/
def opcText : List UInt8 := [0x6F, 0x70, 0x63]

/-- `"op"`. -/
def opText : List UInt8 := [0x6F, 0x70]

def asciiMap (b : UInt8) : UInt8 :=
  if 0x30 ≤ b ∧ b ≤ 0x39 then b - 0x30
  else if 0x41 ≤ b ∧ b ≤ 0x46 then b - 0x37
  else if 0x61 ≤ b ∧ b ≤ 0x66 then b - 0x57
  else 0

/-- The bytes that `key_to_hex` stores from `key_hex` on. -/
def keyToHex (keyStr : Mem UInt8) (strlen : Nat) : List UInt8 :=
  -- `0x` is skipped
  let err := if keyStr 0 = 0x30 ∧ keyStr 1 = 0x78 then 2 else 0
  (List.range (min 16 ((strlen + 1) / 2))).map fun k =>
    (asciiMap (keyStr (2 * k + err)) <<< 4) ||| asciiMap (keyStr (2 * k + err + 1))

/-- `generate_opc`, the AES of the operator's code and the key. -/
structure GenerateOpc where
  run : List UInt8 → List UInt8 → List UInt8
  length_run : ∀ key op, (run key op).length = keyLen

namespace Field

theorem key_ne_imsi : key ≠ imsi := by decide

theorem opc_ne_imsi : opc ≠ imsi := by decide

theorem mmeUeS1apId_ne_imsi : mmeUeS1apId ≠ imsi := by decide

theorem tmsi_ne_imsi : tmsi ≠ imsi := by decide

theorem epcTeid_ne_imsi : epcTeid ≠ imsi := by decide

theorem pdnIpv4_ne_imsi : pdnIpv4 ≠ imsi := by decide

end Field

/-- The loop over the columns behind the first one; `none` is the return for an operator's code
type that is neither. -/
def readColumns (generateOpc : GenerateOpc) (l : Line) {p : Nat} (hp : p ≤ l.len) (column : Nat)
    (opcFlag : Bool) (opKey : Mem UInt8) (u : UserInfo) : Option UserInfo :=
  match strtok l hp with
  | none => some u
  | some t =>
      let next := readColumns generateOpc t.line t.next_le (column + 1)
      let hex := keyToHex t.str t.strlen
      match column with
      | 1 => next opcFlag opKey (u.set .key Field.key_ne_imsi hex)
      | 2 =>
          if t.is opcText then next false opKey u
          else if t.is opText then next true opKey u
          else none
      | 3 =>
          if opcFlag then
            let opKey := opKey.write 0 hex
            next opcFlag opKey
              (u.set .opc Field.opc_ne_imsi (generateOpc.run (u.get .key) (opKey.read 0 keyLen)))
          else next opcFlag opKey (u.set .opc Field.opc_ne_imsi hex)
      | _ => next opcFlag opKey u
termination_by l.len - p
decreasing_by
  all_goals
    have := t.lt_next
    have := t.next_le
    have := t.line_len
    omega

def gatewayIp : UInt32 := 0xAC100001

def completeUserInfo (u : UserInfo) (rand : RandStream) : UserInfo × RandStream :=
  let u := setUserEpcNasSequenceNumber u 0
  let u := setUserNextHopChainingCount u 1
  let hash := hashImsiUserInfo u
  let u := u.set .mmeUeS1apId Field.mmeUeS1apId_ne_imsi (uint32ToArray hash)
  let u := u.set .tmsi Field.tmsi_ne_imsi (uint32ToArray hash)
  let u := u.set .epcTeid Field.epcTeid_ne_imsi (uint32ToArray hash)
  let u := u.set .pdnIpv4 Field.pdnIpv4_ne_imsi (uint32ToArray (gatewayIp + (hash &&& 0x0000FFFF)))
  generateRand u rand

theorem userInfoSize_pos : 15 < userInfoSize := by decide

/-- The copy that `hashmap_add` makes, in memory that held `node`. -/
def UserInfo.copyTo (u : UserInfo) (node : Mem UInt8) : UserInfo where
  mem := node.write 0 (u.mem.read 0 userInfoSize)
  imsi_terminated := by
    have h := Mem.write_inside node 0 (u.mem.read 0 userInfoSize) 15
      (by rw [Mem.read_length]; exact userInfoSize_pos)
    rw [Nat.zero_add] at h
    rw [h, Mem.getElem_read]
    exact u.imsi_terminated

/-- The memory that a line is read into: the new user, `op_key`, and the node of the map. -/
structure Scratch where
  user : Mem UInt8
  opKey : Mem UInt8
  node : Mem UInt8

/-- The IMSI of a user is what `malloc` has left in it. -/
inductive LoadFault
  | noImsi
  deriving DecidableEq, Repr

def processLine (generateOpc : GenerateOpc) (db : Db) (l : Line) (scratch : Scratch) :
    Except LoadFault Db :=
  -- a comment or an empty line
  if l.mem 0 = 0x23 ∨ l.len ≤ 1 then .ok db
  else
    match strtok l (Nat.zero_le l.len) with
    | none => .error .noImsi
    | some t =>
        let newUser := setUserImsi scratch.user (t.str.read 0 imsiLen)
        match readColumns generateOpc t.line t.next_le 1 false scratch.opKey newUser with
        | none => .ok db
        | some newUser =>
            let (newUser, rand) := completeUserInfo newUser db.rand
            .ok { db with
              imsiMap := (hashmapAdd db.imsiMap (newUser.copyTo scratch.node)).getD db.imsiMap
              rand }

/-- A line of the file and the memory it meets. -/
structure FileLine where
  line : Line
  scratch : Scratch

/-- What `init_hashmap` has drawn and how many entries its tables have, less one. -/
structure Tables where
  size : Nat
  imsiInitval : UInt32
  enbInitval : UInt32

def initDb (generateOpc : GenerateOpc) (tables : Tables) (rand : RandStream)
    (file : List FileLine) : Except LoadFault Db :=
  file.foldlM (fun db x => processLine generateOpc db x.line x.scratch)
    { imsiMap := .init tables.size tables.imsiInitval
      eNBs := .init tables.size tables.enbInitval
      rand }

theorem UserInfo.get_copyTo (u : UserInfo) (node : Mem UInt8) (f : Field) :
    (u.copyTo node).get f = u.get f := by
  apply Mem.read_congr
  intro i _ hi
  have hlt : i < userInfoSize := Nat.lt_of_lt_of_le hi f.end_le
  have h := Mem.write_inside node 0 (u.mem.read 0 userInfoSize) i
    (by rw [Mem.read_length]; exact hlt)
  rw [Nat.zero_add] at h
  show (node.write 0 (u.mem.read 0 userInfoSize)) i = u.mem i
  rw [h, Mem.getElem_read, Nat.zero_add]

/-- The identities that are made from the IMSI. -/
structure UserInfo.Complete (u : UserInfo) : Prop where
  mmeUeS1apId : u.get .mmeUeS1apId = uint32ToArray (hashImsiUserInfo u)
  tmsi : u.get .tmsi = uint32ToArray (hashImsiUserInfo u)

theorem completeUserInfo_get {u : UserInfo} {rand : RandStream} {f : Field}
    (h : f ≠ .epcNasSequenceNumber ∧ f ≠ .nextHopChainingCount ∧ f ≠ .mmeUeS1apId ∧ f ≠ .tmsi ∧
      f ≠ .epcTeid ∧ f ≠ .pdnIpv4 ∧ f ≠ .rand) :
    (completeUserInfo u rand).1.get f = u.get f := by
  obtain ⟨hepc, hncc, hmme, htmsi, hteid, hpdn, hrand⟩ := h
  simp only [completeUserInfo, generateRand, setUserEpcNasSequenceNumber,
    setUserNextHopChainingCount]
  rw [UserInfo.get_set_other _ _ hrand (Nat.le_of_eq rfl),
    UserInfo.get_set_other _ _ hpdn (Nat.le_of_eq rfl),
    UserInfo.get_set_other _ _ hteid (Nat.le_of_eq rfl),
    UserInfo.get_set_other _ _ htmsi (Nat.le_of_eq rfl),
    UserInfo.get_set_other _ _ hmme (Nat.le_of_eq rfl),
    UserInfo.get_set_other _ _ hncc (Nat.le_of_eq rfl),
    UserInfo.get_set_other _ _ hepc (Nat.le_of_eq rfl)]

theorem completeUserInfo_hash (u : UserInfo) (rand : RandStream) :
    hashImsiUserInfo (completeUserInfo u rand).1 = hashImsiUserInfo u :=
  hashImsiUserInfo_of_imsi_eq (completeUserInfo_get (by decide))

theorem UserInfo.Complete.copyTo {u : UserInfo} (h : u.Complete) (node : Mem UInt8) :
    (u.copyTo node).Complete := by
  have hhash : hashImsiUserInfo (u.copyTo node) = hashImsiUserInfo u :=
    hashImsiUserInfo_of_imsi_eq (u.get_copyTo node .imsi)
  constructor
  · rw [u.get_copyTo, hhash, h.mmeUeS1apId]
  · rw [u.get_copyTo, hhash, h.tmsi]

theorem processLine_cases {generateOpc : GenerateOpc} {db db' : Db} {l : Line} {scratch : Scratch}
    (h : processLine generateOpc db l scratch = .ok db') :
    db' = db ∨ ∃ u, db' = { db with
      imsiMap := (hashmapAdd db.imsiMap ((completeUserInfo u db.rand).1.copyTo scratch.node)).getD
        db.imsiMap
      rand := (completeUserInfo u db.rand).2 } := by
  unfold processLine at h
  split at h
  · cases h
    exact Or.inl rfl
  cases ht : strtok l (Nat.zero_le l.len) with
  | none =>
      rw [ht] at h
      cases h
  | some t =>
      simp only [ht] at h
      split at h
      · cases h
        exact Or.inl rfl
      · next u _ =>
        cases h
        exact Or.inr ⟨u, rfl⟩

/-- What holds of the empty tables and is kept by every line holds after the file. -/
theorem initDb_induction {generateOpc : GenerateOpc} {tables : Tables} {rand : RandStream}
    {P : Db → Prop}
    (hinit : P {
      imsiMap := .init tables.size tables.imsiInitval
      eNBs := .init tables.size tables.enbInitval
      rand })
    (hline : ∀ {db db' l scratch}, P db → processLine generateOpc db l scratch = .ok db' → P db')
    {file : List FileLine} {db : Db} (h : initDb generateOpc tables rand file = .ok db) : P db := by
  unfold initDb at h
  revert h hinit
  generalize ({
    imsiMap := .init tables.size tables.imsiInitval
    eNBs := .init tables.size tables.enbInitval
    rand } : Db) = db₀
  induction file generalizing db₀ with
  | nil =>
      intro h₀ h
      cases h
      exact h₀
  | cons x xs ih =>
      intro h₀ h
      rw [List.foldlM_cons] at h
      cases hx : processLine generateOpc db₀ x.line x.scratch with
      | error e =>
          rw [hx] at h
          cases h
      | ok db₁ =>
          rw [hx] at h
          exact ih db₁ (hline h₀ hx) h

def Line.ofBytes (bs : List UInt8) : Line where
  mem := Mem.ofList bs 0
  len := bs.length
  terminated := List.getD_eq_default _ _ (Nat.le_refl _)

def zeroKeyLine (imsi : List UInt8) : List UInt8 :=
  imsi ++ comma :: (List.replicate 32 0x30 ++ comma :: (opcText ++ comma ::
    (List.replicate 32 0x30 ++ [0x0A])))

def zeroKeyFile (imsis : List (List UInt8)) : List FileLine :=
  imsis.map fun imsi => ⟨.ofBytes (zeroKeyLine imsi), ⟨fun _ => 0, fun _ => 0, fun _ => 0⟩⟩

/-- No line of such a file asks for an operator's code to be converted. -/
def GenerateOpc.unused : GenerateOpc where
  run := fun _ _ => List.replicate keyLen 0
  length_run := fun _ _ => List.length_replicate

/-- A table of one list. -/
def oneList : Tables := ⟨0, 0, 0⟩

theorem exists_ok_of_any {ε α : Type} {x : Except ε α} {p : α → Bool}
    (h : x.toOption.any p = true) : ∃ a, x = .ok a ∧ p a = true := by
  cases x with
  | error e => cases h
  | ok a => exact ⟨a, rfl, h⟩

end PublicCloudCore.CorekubeDb
