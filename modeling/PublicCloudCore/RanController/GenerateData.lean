import PublicCloudCore.Framework.Transition
import PublicCloudCore.RanController.UserInput

/-!
# The UEs of the uploaded configurations

`generate_data` and `restart_experiment`. The controller keeps its eNBs and UEs in sets of objects
with their own equality and hash; an upload numbers its UEs from 1 on, and only a restart empties
the sets. The addresses of a request are valid and its file is there: otherwise nothing is loaded.
-/

namespace PublicCloudCore.RanController

open Framework

/-- `hash` of an object whose `__hash__` returns `n`. -/
def pyHash (n : Int) : Int :=
  let h := if -2 ^ 63 ≤ n ∧ n < 2 ^ 63 then n else n.tmod (2 ^ 61 - 1)
  if h = -1 then -2 else h

section Sets

variable {α H : Type} [DecidableEq H] (hash : α → H) (eq : α → α → Bool)

/-- `set.add`: an object with the same hash that is equal keeps the new one out. -/
def setAdd (s : List α) (x : α) : List α :=
  if s.any fun y => hash y = hash x && eq y x then s else s ++ [x]

theorem setAdd_of_apart {s : List α} {x : α} (h : ∀ y ∈ s, hash y ≠ hash x) :
    setAdd hash eq s x = s ++ [x] := by
  rw [setAdd, if_neg]
  rw [List.any_eq_true]
  rintro ⟨y, hy, hsame⟩
  rw [Bool.and_eq_true, decide_eq_true_eq] at hsame
  exact h y hy hsame.1

end Sets

/-- `old` is replaced by `new`, from the left. The number says how much of an occurrence is left. -/
def replaceFrom (old new : Token) : List Char → Nat → List Char
  | [], _ => []
  | _ :: cs, skip + 1 => replaceFrom old new cs skip
  | c :: cs, 0 =>
      if old.isPrefixOf (c :: cs) then new ++ replaceFrom old new cs (old.length - 1)
      else c :: replaceFrom old new cs 0

/-- `str.replace`. -/
def replace (t old new : Token) : Token := replaceFrom old new t 0

/-- What `int` strips; it knows fewer spaces than `str.strip` below the digits. -/
def spaces : List (Nat × Nat) :=
  [(0x09, 0x0D), (0x20, 0x20), (0x85, 0x85), (0xA0, 0xA0), (0x1680, 0x1680), (0x2000, 0x200A),
    (0x2028, 0x2029), (0x202F, 0x202F), (0x205F, 0x205F), (0x3000, 0x3000)]

def isSpace (c : Char) : Bool := spaces.any fun r => r.1 ≤ c.toNat && c.toNat ≤ r.2

def hexDigit? (c : Char) : Option Nat :=
  if 'a' ≤ c ∧ c ≤ 'f' then some (c.toNat - 87)
  else if 'A' ≤ c ∧ c ≤ 'F' then some (c.toNat - 55)
  else decimalDigit? c

/-- `int(t, 16)` of at most two characters. -/
def int16 (t : Token) : Except PyError Int :=
  match (t.dropWhile isSpace).rdropWhile isSpace with
  | [c] =>
      match hexDigit? c with
      | some n => .ok n
      | none => .error .valueError
  | [c, c'] =>
      match hexDigit? c, hexDigit? c' with
      | some n, some n' => .ok (16 * n + n')
      | none, some n' =>
          if c = '+' then .ok n' else if c = '-' then .ok (-n') else .error .valueError
      | _, none => .error .valueError
  | _ => .error .valueError

structure UeConfig where
  mcc : Token
  mnc : Token
  msin : Token
  key : Token
  opKey : Token
  trafficCommand : Token
  enb : Int
  controlPlane : List Char

structure ConfigFile where
  enbs : List Int
  ues : List UeConfig

/-- `processKey`; a key is sent byte by byte. -/
def processKey (key : Token) : Except PyError (List UInt8) :=
  let aux := replace key ['0', 'x'] []
  ((List.range 16).filter fun k => 2 * k < key.length).mapM fun k =>
    (int16 ((aux.drop (2 * k)).take 2)).map UInt8.ofInt

/-- The constructor of `UE`. -/
def UE.new (id : Nat) (c : UeConfig) : Except PyError UE :=
  match processKey c.key, processKey c.opKey with
  | .error e, _ => .error e
  | _, .error e => .error e
  | .ok key, .ok opKey => .ok {
      id := id
      mcc := c.mcc
      mnc := c.mnc
      msin := c.msin
      key := key
      opKey := opKey
      command := replace c.trafficCommand ['{', 'T', 'U', 'N', '}']
        ['t', 'u', 'n', 'N', 'e', 'r', 'v', 'i', 'o', 'n']
      serializedControlPlane := [] }

/-- `UE.__hash__`. -/
def msinHash (msin : Token) : Except PyError Int := (int msin).map fun n => pyHash n

/-- `UE.__eq__`. -/
def UE.eq (ue other : UE) : Bool := ue.id != other.id && ue.msin != other.msin

def enbId (num : Int) : Int := num + 14680064

def enbEq (num other : Int) : Bool := num != other && enbId num != enbId other

structure ControllerData where
  enbs : List Int
  ues : List UE

/-- `check_if_enb_exists` comes before the set's own comparison. -/
def loadEnb (enbs : List Int) (num : Int) : List Int :=
  if enbs.contains num then enbs else setAdd (fun n => pyHash (enbId n)) enbEq enbs num

def Loadable (enbs : List Int) (c : UeConfig) : Prop :=
  c.enb ∈ enbs ∧ validateControlPlaneActions c.controlPlane = true

instance (enbs : List Int) (c : UeConfig) : Decidable (Loadable enbs c) := by
  unfold Loadable
  infer_instance

/-- `set.add` of the UE, and the next number. -/
def addUe (d : ControllerData) (i : Nat) (ue : UE) : Except PyError (ControllerData × Nat) :=
  match msinHash ue.msin with
  | .error e => .error e
  | .ok _ => .ok ({ d with ues := setAdd (fun ue => msinHash ue.msin) UE.eq d.ues ue }, i + 1)

/-- One entry, with the number `i`. -/
def loadUe (d : ControllerData) (i : Nat) (c : UeConfig) : Except PyError (ControllerData × Nat) :=
  match UE.new i c with
  | .error e => .error e
  | .ok ue =>
      if Loadable d.enbs c then
        match serializeControlPlane c.controlPlane with
        | .error e => .error e
        | .ok data =>
            -- `check_if_ue_exists`
            if d.ues.any fun ue => ue.msin == c.msin then .ok (d, i)
            else addUe d i { ue with serializedControlPlane := data }
      else .ok (d, i)

/-- The loop over the entries; an exception leaves what has been loaded. -/
def loadUes : List UeConfig → ControllerData → Nat → ControllerData × Option PyError
  | [], d, _ => (d, none)
  | c :: cs, d, i =>
      match loadUe d i c with
      | .error e => (d, some e)
      | .ok (d', i') => loadUes cs d' i'

def generateData (d : ControllerData) (config : ConfigFile) : ControllerData × Option PyError :=
  loadUes config.ues { d with enbs := config.enbs.foldl loadEnb d.enbs } 1

/-- The sets, and the loadable entries of the uploads since they were empty. -/
structure Session where
  data : ControllerData
  entries : List UeConfig

def Session.start : Session := ⟨⟨[], []⟩, []⟩

inductive Request
  | upload (config : ConfigFile)
  | restartExperiment

def Session.step (s : Session) : Request → Option Session
  | .upload config =>
      let data := (generateData s.data config).1
      some ⟨data, s.entries ++ config.ues.filter fun c => Loadable data.enbs c⟩
  | .restartExperiment => some .start

/-- The MSINs are numbers. -/
def Request.Decimal : Request → Prop
  | .upload config => ∀ c ∈ config.ues, isdecimal c.msin = true
  | .restartExperiment => True

/-- One UE for every MSIN of the entries, and no two with one id. -/
structure Loaded (entries : List UeConfig) (ues : List UE) : Prop where
  msins : ∀ msin, msin ∈ ues.map UE.msin ↔ msin ∈ entries.map UeConfig.msin
  once : (ues.map UE.msin).Nodup
  ids : (ues.map UE.id).Nodup

/-- No exception comes of the entry: its keys are hexadecimal, and if it is loaded then the numbers
of its script and its MSIN can be read. -/
structure UeConfig.Readable (enbs : List Int) (c : UeConfig) : Prop where
  key : ∃ key, processKey c.key = .ok key
  opKey : ∃ opKey, processKey c.opKey = .ok opKey
  script : Loadable enbs c → ∃ data, serializeControlPlane c.controlPlane = .ok data
  msin : Loadable enbs c → c.msin.length ≤ intMaxStrDigits

variable {enbs : List Int} {d : ControllerData} {i : Nat} {c : UeConfig} {cs : List UeConfig}
  {entries : List UeConfig} {ues : List UE}

theorem msinHash_of_isdecimal {msin : Token} (h : isdecimal msin = true)
    (hlength : msin.length ≤ intMaxStrDigits) : ∃ hash, msinHash msin = .ok hash := by
  obtain ⟨n, hn⟩ := decimalValue?_of_isdecimal h
  refine ⟨pyHash n, ?_⟩
  rw [msinHash, int, hn]
  simp only [if_neg (Nat.not_lt.mpr hlength)]
  rfl

theorem UE.new_spec (hkey : ∃ key, processKey c.key = .ok key)
    (hopKey : ∃ opKey, processKey c.opKey = .ok opKey) (i : Nat) :
    ∃ ue, UE.new i c = .ok ue ∧ ue.id = i ∧ ue.msin = c.msin := by
  obtain ⟨key, hkey⟩ := hkey
  obtain ⟨opKey, hopKey⟩ := hopKey
  rw [UE.new, hkey, hopKey]
  exact ⟨_, rfl, rfl, rfl⟩

theorem any_msin_iff {msin : Token} :
    (ues.any fun ue => ue.msin == msin) = true ↔ msin ∈ ues.map UE.msin := by
  rw [List.any_eq_true, List.mem_map]
  simp only [beq_iff_eq]

theorem loadUe_skip (h : c.Readable d.enbs)
    (hskip : Loadable d.enbs c → c.msin ∈ d.ues.map UE.msin) : loadUe d i c = .ok (d, i) := by
  obtain ⟨ue, hnew, _⟩ := UE.new_spec h.key h.opKey i
  rw [loadUe, hnew]
  by_cases hload : Loadable d.enbs c
  · obtain ⟨data, hdata⟩ := h.script hload
    simp only [if_pos hload, hdata]
    exact if_pos (any_msin_iff.mpr (hskip hload))
  · exact if_neg hload

/-- A new MSIN gives a UE with the next number, if its hash is that of no other. -/
theorem loadUe_add (h : c.Readable d.enbs) (hdecimal : isdecimal c.msin = true)
    (hload : Loadable d.enbs c) (hnew : c.msin ∉ d.ues.map UE.msin)
    (hapart : ∀ ue ∈ d.ues, msinHash ue.msin ≠ msinHash c.msin) :
    ∃ ue : UE, ue.id = i ∧ ue.msin = c.msin ∧
      loadUe d i c = .ok ({ d with ues := d.ues ++ [ue] }, i + 1) := by
  obtain ⟨ue, hue, hid, hmsin⟩ := UE.new_spec h.key h.opKey i
  obtain ⟨data, hdata⟩ := h.script hload
  obtain ⟨hash, hhash⟩ := msinHash_of_isdecimal hdecimal (h.msin hload)
  refine ⟨{ ue with serializedControlPlane := data }, hid, hmsin, ?_⟩
  rw [loadUe, hue]
  simp only [if_pos hload, hdata]
  rw [if_neg (any_msin_iff.not.mpr hnew), addUe]
  simp only [hmsin, hhash]
  rw [setAdd_of_apart]
  exact hapart

theorem Loaded.nil : Loaded [] [] := ⟨fun _ => Iff.rfl, .nil, .nil⟩

theorem Loaded.present (h : Loaded entries ues) {new : List UeConfig}
    (hpresent : ∀ c ∈ new, c.msin ∈ ues.map UE.msin) : Loaded (entries ++ new) ues := by
  refine ⟨fun msin => ?_, h.once, h.ids⟩
  rw [List.map_append, List.mem_append, ← h.msins msin]
  refine ⟨Or.inl, fun hmem => ?_⟩
  rcases hmem with hmem | hmem
  · exact hmem
  · obtain ⟨c, hc, rfl⟩ := List.mem_map.mp hmem
    exact hpresent c hc

theorem Loaded.concat (h : Loaded entries ues) {ue : UE} (hmsin : ue.msin = c.msin)
    (hnew : c.msin ∉ ues.map UE.msin) (hid : ∀ ue' ∈ ues, ue'.id ≠ ue.id) :
    Loaded (entries ++ [c]) (ues ++ [ue]) := by
  refine ⟨fun msin => ?_, ?_, ?_⟩
  · rw [List.map_append, List.map_append, List.mem_append, List.mem_append, h.msins msin,
      List.map_singleton, List.map_singleton, hmsin]
  · rw [List.map_append, List.map_singleton, List.nodup_append]
    refine ⟨h.once, List.nodup_singleton _, fun msin hmem msin' hmem' => ?_⟩
    rw [List.mem_singleton.mp hmem', hmsin]
    rintro rfl
    exact hnew hmem
  · rw [List.map_append, List.map_singleton, List.nodup_append]
    refine ⟨h.ids, List.nodup_singleton _, fun id hmem id' hmem' => ?_⟩
    obtain ⟨ue', hue', rfl⟩ := List.mem_map.mp hmem
    rw [List.mem_singleton.mp hmem']
    exact hid ue' hue'

theorem loadUes_present (hreadable : ∀ c ∈ cs, c.Readable d.enbs)
    (hpresent : ∀ c ∈ cs, Loadable d.enbs c → c.msin ∈ d.ues.map UE.msin) :
    loadUes cs d i = (d, none) := by
  induction cs with
  | nil => rfl
  | cons c cs ih =>
      rw [loadUes, loadUe_skip (hreadable c List.mem_cons_self) (hpresent c List.mem_cons_self)]
      exact ih (fun c' hc' => hreadable c' (List.mem_cons_of_mem c hc'))
        (fun c' hc' => hpresent c' (List.mem_cons_of_mem c hc'))

def Apart (msins : List Token) : Prop :=
  ∀ msin ∈ msins, ∀ msin' ∈ msins, msin ≠ msin' → msinHash msin ≠ msinHash msin'

theorem loadUes_fresh {msins : List Token} (hapart : Apart msins)
    (hreadable : ∀ c ∈ cs, c.Readable d.enbs) (hdecimal : ∀ c ∈ cs, isdecimal c.msin = true)
    (hcs : ∀ c ∈ cs, Loadable d.enbs c → c.msin ∈ msins) (hues : ∀ ue ∈ d.ues, ue.msin ∈ msins)
    (hbelow : ∀ ue ∈ d.ues, ue.id < i) (hloaded : Loaded entries d.ues) :
    (loadUes cs d i).1.enbs = d.enbs ∧
      Loaded (entries ++ cs.filter fun c => Loadable d.enbs c) (loadUes cs d i).1.ues := by
  induction cs generalizing d i entries with
  | nil =>
      rw [List.filter_nil, List.append_nil]
      exact ⟨rfl, hloaded⟩
  | cons c cs ih =>
      have hrest : ∀ {p : UeConfig → Prop}, (∀ c' ∈ c :: cs, p c') → ∀ c' ∈ cs, p c' :=
        fun h c' hc' => h c' (List.mem_cons_of_mem c hc')
      have hc := hreadable c List.mem_cons_self
      by_cases hload : Loadable d.enbs c
      · rw [List.filter_cons_of_pos (by exact decide_eq_true hload), List.append_cons]
        by_cases hpresent : c.msin ∈ d.ues.map UE.msin
        · rw [loadUes, loadUe_skip hc fun _ => hpresent]
          refine ih (hrest hreadable) (hrest hdecimal) (hrest hcs) hues hbelow ?_
          exact hloaded.present fun c' hc' => (List.mem_singleton.mp hc') ▸ hpresent
        · have hmem := hcs c List.mem_cons_self hload
          have hhash : ∀ ue ∈ d.ues, msinHash ue.msin ≠ msinHash c.msin := by
            intro ue hue
            refine hapart _ (hues ue hue) _ hmem fun hsame => hpresent ?_
            exact hsame ▸ List.mem_map_of_mem hue
          obtain ⟨ue, hid, hmsin, hadd⟩ :=
            loadUe_add (i := i) hc (hdecimal c List.mem_cons_self) hload hpresent hhash
          rw [loadUes, hadd]
          refine @ih { d with ues := d.ues ++ [ue] } (i + 1) _ (hrest hreadable) (hrest hdecimal)
            (hrest hcs) ?_ ?_ ?_
          · intro ue' hue'
            rcases List.mem_append.mp hue' with hold | hnew
            · exact hues ue' hold
            · rw [List.mem_singleton.mp hnew, hmsin]
              exact hmem
          · intro ue' hue'
            rcases List.mem_append.mp hue' with hold | hnew
            · exact (hbelow ue' hold).trans (Nat.lt_succ_self i)
            · rw [List.mem_singleton.mp hnew, hid]
              exact Nat.lt_succ_self i
          · refine hloaded.concat hmsin hpresent fun ue' hue' => ?_
            rw [hid]
            exact Nat.ne_of_lt (hbelow ue' hue')
      · rw [List.filter_cons_of_neg (by simpa using hload), loadUes,
          loadUe_skip hc fun h => absurd h hload]
        exact ih (hrest hreadable) (hrest hdecimal) (hrest hcs) hues hbelow hloaded

/-- An upload on empty sets, or one that brings no new MSIN: the numbers start with 1 again. No
entry raises an exception, and no two MSINs to load have one hash. -/
structure SafeUpload (d : ControllerData) (config : ConfigFile) : Prop where
  readable : ∀ c ∈ config.ues, c.Readable (config.enbs.foldl loadEnb d.enbs)
  fresh : d.ues = [] ∨ ∀ c ∈ config.ues, Loadable (config.enbs.foldl loadEnb d.enbs) c →
    c.msin ∈ d.ues.map UE.msin
  apart : Apart ((config.ues.filter fun c =>
    Loadable (config.enbs.foldl loadEnb d.enbs) c).map UeConfig.msin)

theorem mem_loadable {config : ConfigFile} (hc : c ∈ config.ues) (hload : Loadable enbs c) :
    c ∈ config.ues.filter fun c => Loadable enbs c :=
  List.mem_filter.mpr ⟨hc, decide_eq_true hload⟩

theorem Loaded.generateData (h : Loaded entries d.ues) {config : ConfigFile}
    (hdecimal : ∀ c ∈ config.ues, isdecimal c.msin = true)
    (hsafe : SafeUpload d config) :
    Loaded (entries ++ config.ues.filter fun c => Loadable (generateData d config).1.enbs c)
      (generateData d config).1.ues := by
  let d' : ControllerData := { d with enbs := config.enbs.foldl loadEnb d.enbs }
  show Loaded (entries ++ config.ues.filter fun c => Loadable (loadUes config.ues d' 1).1.enbs c)
    (loadUes config.ues d' 1).1.ues
  rcases hsafe.fresh with hnone | hpresent
  · have hno : ∀ {p : UE → Prop}, ∀ ue ∈ d'.ues, p ue := by
      intro p ue hue
      rw [show d'.ues = [] from hnone] at hue
      cases hue
    have hcs : ∀ c ∈ config.ues, Loadable d'.enbs c →
        c.msin ∈ (config.ues.filter fun c => Loadable d'.enbs c).map UeConfig.msin :=
      fun c hc hload => List.mem_map_of_mem (mem_loadable hc hload)
    have hfresh := loadUes_fresh (i := 1) hsafe.apart hsafe.readable hdecimal hcs hno hno h
    rw [hfresh.1]
    exact hfresh.2
  · rw [loadUes_present hsafe.readable hpresent]
    refine h.present fun c hc => ?_
    rw [List.mem_filter, decide_eq_true_eq] at hc
    exact hpresent c hc.1 hc.2

def Request.Safe (s : Session) : Request → Prop
  | .upload config => SafeUpload s.data config
  | .restartExperiment => True

/-- The sets are as they should be in every state of a run of safe uploads and restarts. -/
theorem loaded_of_run {s : Session}
    (h : Run Session.step (fun s r => r.Decimal ∧ r.Safe s) .start s) :
    Loaded s.entries s.data.ues := by
  refine h.invariant (I := fun s => Loaded s.entries s.data.ues) (fun s r s' hs hok hstep => ?_)
    Loaded.nil
  cases r with
  | upload config =>
      cases hstep
      exact hs.generateData hok.1 hok.2
  | restartExperiment =>
      cases hstep
      exact Loaded.nil

/-- An eNB with a UE for each MSIN, whose script is `init-0`. -/
def ofMsins (msins : List Token) : ConfigFile :=
  ⟨[1], msins.map fun msin => ⟨[], [], msin, [], [], [], 1, init ++ ['-', '0']⟩⟩

variable {msins : List Token}

theorem ofMsins_decimal (h : ∀ msin ∈ msins, isdecimal msin = true) :
    (Request.upload (ofMsins msins)).Decimal := by
  intro c hc
  obtain ⟨msin, hmsin, rfl⟩ := List.mem_map.mp hc
  exact h msin hmsin

theorem ofMsins_safe (hshort : ∀ msin ∈ msins, msin.length ≤ intMaxStrDigits)
    (hapart : Apart msins) : SafeUpload ⟨[], []⟩ (ofMsins msins) where
  readable := by
    have hscript : serializeControlPlane (init ++ ['-', '0']) = .ok [0, 0, 0, 0] := by
      decide +kernel
    intro c hc
    obtain ⟨msin, hmsin, rfl⟩ := List.mem_map.mp hc
    exact ⟨⟨[], rfl⟩, ⟨[], rfl⟩, fun _ => ⟨_, hscript⟩, fun _ => hshort msin hmsin⟩
  fresh := Or.inl rfl
  apart := by
    have honly : ∀ msin ∈ ((ofMsins msins).ues.filter fun c =>
        Loadable ((ofMsins msins).enbs.foldl loadEnb []) c).map UeConfig.msin, msin ∈ msins := by
      intro msin hmsin
      obtain ⟨c, hc, rfl⟩ := List.mem_map.mp hmsin
      obtain ⟨msin', hmsin', rfl⟩ := List.mem_map.mp (List.mem_filter.mp hc).1
      exact hmsin'
    intro msin hmsin msin' hmsin'
    exact hapart msin (honly msin hmsin) msin' (honly msin' hmsin')

/-- Two uploads of two UEs with a restart in between; one UE comes with both. -/
theorem loaded_restarted :
    ∃ s, Run Session.step (fun s r => r.Decimal ∧ r.Safe s) .start s ∧
      s.data.ues.map UE.msin = [['2'], ['3']] ∧ Loaded s.entries s.data.ues := by
  have hsafe : ∀ msins : List Token, (∀ msin ∈ msins, isdecimal msin = true) →
      (∀ msin ∈ msins, msin.length ≤ intMaxStrDigits) → Apart msins →
      (Request.upload (ofMsins msins)).Decimal ∧ SafeUpload ⟨[], []⟩ (ofMsins msins) :=
    fun _ hdecimal hshort hapart => ⟨ofMsins_decimal hdecimal, ofMsins_safe hshort hapart⟩
  have hstart : Run Session.step (fun s r => r.Decimal ∧ r.Safe s) .start .start := .refl _
  have hfirst := hstart.tail (e := Request.upload (ofMsins [['1'], ['2']]))
    (hsafe _ (by decide) (by decide) (by rw [Apart]; decide)) rfl
  have hrestart := hfirst.tail (e := Request.restartExperiment) ⟨trivial, trivial⟩ rfl
  have hsecond := hrestart.tail (e := Request.upload (ofMsins [['2'], ['3']]))
    (hsafe _ (by decide) (by decide) (by rw [Apart]; decide)) rfl
  exact ⟨_, hsecond, by decide +kernel, loaded_of_run hsecond⟩

/-- Without the restart both UEs get the number 1. -/
theorem not_loaded_twoUploads :
    ¬ ∀ s, Run Session.step (fun _ r => r.Decimal) .start s → Loaded s.entries s.data.ues := by
  intro h
  have hstart : Run Session.step (fun _ r => r.Decimal) .start .start := .refl _
  have hfirst := hstart.tail (e := Request.upload (ofMsins [['1']]))
    (ofMsins_decimal (by decide)) rfl
  have hsecond := hfirst.tail (e := Request.upload (ofMsins [['2']]))
    (ofMsins_decimal (by decide)) rfl
  have hids := (h _ hsecond).ids
  revert hids
  decide +kernel

end PublicCloudCore.RanController
