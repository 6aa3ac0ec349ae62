import PublicCloudCore.RanEmulator.ControllerMsg

/-!
# The configuration of a UE

What `UE.serialize` writes and what `analyze_controller_msg` reads of it.
-/

namespace PublicCloudCore.RanEmulator

open Framework RanController

theorem readHalfWord_of_holds {buffer : Mem UInt8} {p n : Nat}
    (h : buffer.Holds p (halfWord n)) : (readHalfWord buffer p).toNat = n % 2 ^ 16 := by
  obtain ⟨h0, h1, _⟩ : buffer p = _ ∧ buffer (p + 1) = _ ∧ _ := by
    simpa only [halfWord, Mem.holds_cons] using h
  have hvalue := bigEndian_halfWord n
  simp only [bigEndian, halfWord, List.foldl_cons, List.foldl_nil] at hvalue
  rw [readHalfWord, h0, h1, UInt16.toNat_ofNat']
  omega

/-- What the decoder reads; `n` is the length of the command, and the position behind the command
has lost its higher bits. -/
structure UeData.ReadFrom (d : UeData) (buffer : Mem UInt8) (len n : Nat) : Prop where
  id : d.id = buffer.read 1 4
  mcc : d.mcc = buffer.read 5 3 ++ [0]
  mnc : d.mnc = buffer.read 8 2 ++ [0, 0]
  msin : d.msin = buffer.read 10 10 ++ [0, 0]
  key : d.key = buffer.read 20 16
  opKey : d.opKey = buffer.read 36 16
  command : d.command = buffer.read 54 n ++ [0]
  enbIp : d.enbIp = buffer.read ((54 + n) % 256) 4
  spgwPort : d.spgwPort = readHalfWord buffer ((62 + n) % 256)
  controlPlane : d.controlPlane =
    buffer.read ((64 + n) % 256) (((len : Int) - ((64 + n) % 256 : Nat)) % 65536).toNat

theorem toNat_add_toUInt8 (p : UInt8) (n : UInt16) :
    (p + n.toUInt8).toNat = (p.toNat + n.toNat) % 256 := by
  rw [UInt8.toNat_add, UInt16.toNat_toUInt8]
  omega

theorem toNat_ofInt (i : Int) : (UInt16.ofInt i).toNat = (i % 65536).toNat := by
  rw [UInt16.ofInt, UInt16.toNat_ofNat']
  omega

theorem analyzeUeBehaviour_readFrom (ip : SlaveIp) (buffer : Mem UInt8) (len : Nat) (cpMode : Int) :
    ∃ d, analyzeUeBehaviour ip buffer len cpMode = .startUe d ∧
      d.ReadFrom buffer len (readHalfWord buffer 52).toNat := by
  let commandLen := readHalfWord buffer 52
  have hcommand : ((54 : UInt8) + commandLen.toUInt8).toNat = (54 + commandLen.toNat) % 256 :=
    toNat_add_toUInt8 _ _
  have hport : ((54 : UInt8) + commandLen.toUInt8 + 4 + 4).toNat =
      (62 + commandLen.toNat) % 256 := by
    rw [UInt8.toNat_add, UInt8.toNat_add, hcommand]
    show (((54 + commandLen.toNat) % 256 + 4) % 256 + 4) % 256 = _
    omega
  have hplane : ((54 : UInt8) + commandLen.toUInt8 + 4 + 4 + 2).toNat =
      (64 + commandLen.toNat) % 256 := by
    rw [UInt8.toNat_add, hport]
    show ((62 + commandLen.toNat) % 256 + 2) % 256 = _
    omega
  let plane : UInt8 := 54 + commandLen.toUInt8 + 4 + 4 + 2
  let planeLen := UInt16.ofInt (len - plane.toNat)
  have hend : ¬ len + 4 < (plane + planeLen.toUInt8 + 4).toNat := by
    rw [UInt8.toNat_add, toNat_add_toUInt8, toNat_ofInt]
    show ¬ len + 4 < ((plane.toNat + _) % 256 + 4) % 256
    omega
  refine ⟨_, if_neg hend, ?_⟩
  exact {
    id := rfl
    mcc := rfl
    mnc := rfl
    msin := rfl
    key := rfl
    opKey := rfl
    command := rfl
    enbIp := congrArg (fun p => buffer.read p 4) hcommand
    spgwPort := congrArg (readHalfWord buffer) hport
    controlPlane := by
      show buffer.read plane.toNat planeLen.toNat = _
      rw [toNat_ofInt, show plane.toNat = _ from hplane] }

def notNul (b : UInt8) : Bool := b != 0

def cString (a : List UInt8) : List Char := (a.takeWhile notNul).map fun b => Char.ofNat b.toNat

/-- A UE as the configuration describes it, with an ASCII command. -/
structure WellFormed (ue : UE) : Prop where
  mcc : ue.mcc.length = 3
  mnc : ue.mnc.length = 2
  msin : ue.msin.length = 10
  digits : ∀ c ∈ ue.imsi, c.isDigit
  key : ue.key.length = 16
  opKey : ue.opKey.length = 16
  command : ∀ c ∈ ue.command, c.toNat < 128

/-- The slave has the UE's configuration. -/
structure UeData.Recovers (d : UeData) (ue : UE) (address : UInt32) (port : Nat) : Prop where
  id : bigEndian d.id = ue.id
  mcc : cString d.mcc = ue.mcc
  mnc : cString d.mnc = ue.mnc
  msin : cString d.msin = ue.msin
  key : d.key = ue.key
  opKey : d.opKey = ue.opKey
  command : cString d.command = ue.command
  enbIp : d.enbIp = word address.toNat
  spgwPort : d.spgwPort.toNat = port
  controlPlane : d.controlPlane = ue.serializedControlPlane

theorem ord_toNat {c : Char} (h : c.toNat < 128) : (ord c).toNat = c.toNat := by
  rw [ord, UInt8.toNat_ofNat']
  omega

theorem ord_eq_zero_iff {c : Char} (h : c.toNat < 128) : ord c = 0 ↔ c.toNat = 0 := by
  rw [← UInt8.toNat_inj, ord_toNat h]
  rfl

theorem cString_ord {cs : List Char} (hascii : ∀ c ∈ cs, c.toNat < 128)
    (hnul : ∀ c ∈ cs, c.toNat ≠ 0) (k : Nat) :
    cString (cs.map ord ++ 0 :: List.replicate k 0) = cs := by
  induction cs with
  | nil => rfl
  | cons c cs ih =>
      have hc := hascii c List.mem_cons_self
      have hne : notNul (ord c) = true := by
        rw [notNul, bne_iff_ne, Ne, ord_eq_zero_iff hc]
        exact hnul c List.mem_cons_self
      have hrest := ih (fun d hd => hascii d (List.mem_cons_of_mem _ hd))
        fun d hd => hnul d (List.mem_cons_of_mem _ hd)
      rw [cString] at hrest ⊢
      rw [List.map_cons, List.cons_append, List.takeWhile_cons_of_pos hne, List.map_cons, hrest,
        ord_toNat hc, Char.ofNat_toNat]

theorem ne_zero_of_mem_cString {a : List UInt8} {c : Char} (h : c ∈ cString a) : c.toNat ≠ 0 := by
  obtain ⟨b, hb, rfl⟩ := List.mem_map.mp h
  have hne : b ≠ 0 := bne_iff_ne.mp (List.mem_takeWhile_imp (p := notNul) hb)
  have hlt := b.toNat_lt
  have hvalid : b.toNat.isValidChar := Or.inl (by omega)
  show (Char.ofNat b.toNat).toNat ≠ 0
  rw [Char.toNat_ofNat, if_pos hvalid]
  intro hzero
  exact hne (UInt8.toNat_inj.mp hzero)

theorem isDigit_ascii {c : Char} (h : c.isDigit) : c.toNat < 128 ∧ c.toNat ≠ 0 := by
  have hbounds := Char.isDigit_iff_toNat.mp h
  have hzero : '0'.toNat = 48 := rfl
  have hnine : '9'.toNat = 57 := rfl
  omega

theorem holds_fields {ue : UE} {code : UInt8} {address multiplexer epc : UInt32}
    {buffer : Mem UInt8} (hue : WellFormed ue)
    (h : buffer.Holds 0 ((ue.fields code address multiplexer epc).flatten ++
      ue.serializedControlPlane)) :
    buffer 0 = code ∧ buffer.read 1 4 = word ue.id ∧ buffer.read 5 3 = ue.mcc.map ord ∧
      buffer.read 8 2 = ue.mnc.map ord ∧ buffer.read 10 10 = ue.msin.map ord ∧
      buffer.read 20 16 = ue.key ∧ buffer.read 36 16 = ue.opKey ∧
      (readHalfWord buffer 52).toNat = ue.command.length % 2 ^ 16 ∧
      buffer.Holds 54 (ue.command.map ord ++ (word address.toNat ++ (word multiplexer.toNat ++
        (halfWord (multiplexerPort multiplexer epc) ++ ue.serializedControlPlane)))) := by
  have hword : ∀ n, (word n).length = 4 := fun _ => rfl
  have hhalf : ∀ n, (halfWord n).length = 2 := fun _ => rfl
  simp only [UE.fields, UE.imsi, List.flatten_cons, List.flatten_nil, List.append_nil,
    List.map_append, List.append_assoc, List.cons_append, List.nil_append, Mem.holds_append, Mem.holds_cons,
    hword, hhalf, List.length_map, hue.mcc, hue.mnc, hue.msin, hue.key, hue.opKey] at h ⊢
  obtain ⟨hcode, hid, hmcc, hmnc, hmsin, hkey, hopKey, hlen, hrest⟩ := h
  refine ⟨hcode, hid.read (hword _), hmcc.read ?_, hmnc.read ?_, hmsin.read ?_, hkey.read hue.key,
    hopKey.read hue.opKey, readHalfWord_of_holds hlen, hrest⟩
  · rw [List.length_map, hue.mcc]
  · rw [List.length_map, hue.mnc]
  · rw [List.length_map, hue.msin]

theorem fields_length {ue : UE} (hue : WellFormed ue) (code : UInt8)
    (address multiplexer epc : UInt32) :
    (ue.fields code address multiplexer epc).flatten.length = 64 + ue.command.length := by
  have hword : ∀ n, (word n).length = 4 := fun _ => rfl
  have hhalf : ∀ n, (halfWord n).length = 2 := fun _ => rfl
  simp only [UE.fields, UE.imsi, List.flatten_cons, List.flatten_nil, List.length_append,
    List.length_cons, List.length_nil, List.length_map, hword, hhalf, hue.mcc, hue.mnc, hue.msin,
    hue.key, hue.opKey]
  omega

theorem analyzeControllerMsg_ue {ip : SlaveIp} {buffer : Mem UInt8} {len : Nat} {cpMode : Int}
    (hlen : 0 < len) (hcode : buffer 0 = RanController.codeOk ||| RanController.codeUeBehaviour) :
    analyzeControllerMsg ip buffer len cpMode = analyzeUeBehaviour ip buffer len cpMode := by
  have hpos : ¬ (len : Int) ≤ 0 := by omega
  have hne : RanController.codeOk ||| RanController.codeUeBehaviour ≠ codeError := by decide
  rw [analyzeControllerMsg, if_neg hpos, hcode, if_neg hne]
  exact if_pos rfl

/-- What is read behind a command of `n` bytes comes from its place exactly if `n` is at most
191. -/
theorem UeData.ReadFrom.recovers_iff {d : UeData} {ue : UE} {buffer : Mem UInt8}
    {code : UInt8} {address multiplexer epc : UInt32} (hue : WellFormed ue)
    (hlen : 64 + ue.command.length + ue.serializedControlPlane.length ≤ 1024)
    (hbuffer : buffer.Holds 0 ((ue.fields code address multiplexer epc).flatten ++
      ue.serializedControlPlane))
    (hd : d.ReadFrom buffer (64 + ue.command.length + ue.serializedControlPlane.length)
      ue.command.length) :
    d.Recovers ue address (multiplexerPort multiplexer epc) ↔
      ue.id < 2 ^ 32 ∧ ue.command.length ≤ 191 ∧ ∀ c ∈ ue.command, c.toNat ≠ 0 := by
  obtain ⟨_, hid, hmcc, hmnc, hmsin, hkey, hopKey, _, hrest⟩ := holds_fields hue hbuffer
  have hdigits : ∀ cs ⊆ ue.imsi, ∀ c ∈ cs, c.toNat < 128 ∧ c.toNat ≠ 0 := by
    intro cs hcs c hc
    exact isDigit_ascii (hue.digits c (hcs hc))
  have htext : ∀ cs ⊆ ue.imsi, ∀ k, cString (cs.map ord ++ 0 :: List.replicate k 0) = cs := by
    intro cs hcs k
    exact cString_ord (fun c hc => (hdigits cs hcs c hc).1) (fun c hc => (hdigits cs hcs c hc).2) k
  have hmccIn : ue.mcc ⊆ ue.imsi := by
    rw [UE.imsi, List.append_assoc]
    exact List.subset_append_left _ _
  have hmncIn : ue.mnc ⊆ ue.imsi := by
    rw [UE.imsi, List.append_assoc]
    exact List.Subset.trans (List.subset_append_left _ _) (List.subset_append_right _ _)
  have hmsinIn : ue.msin ⊆ ue.imsi := List.subset_append_right _ _
  rw [Mem.holds_append, List.length_map] at hrest
  obtain ⟨hcommand, hrest⟩ := hrest
  have hcommand := hcommand.read (List.length_map ord)
  constructor
  · intro h
    have hplane := congrArg List.length (hd.controlPlane.symm.trans h.controlPlane)
    rw [Mem.read_length] at hplane
    refine ⟨?_, by omega, fun c hc => ?_⟩
    · have hvalue := h.id
      rw [hd.id, hid, bigEndian_word] at hvalue
      omega
    · rw [← h.command] at hc
      exact ne_zero_of_mem_cString hc
  · intro ⟨hidLt, hshort, hnul⟩
    have hword : ∀ n, (word n).length = 4 := fun _ => rfl
    have hhalf : ∀ n, (halfWord n).length = 2 := fun _ => rfl
    simp only [Mem.holds_append, hword, hhalf] at hrest
    obtain ⟨henb, _, hport, hplane⟩ := hrest
    have hport := readHalfWord_of_holds hport
    have hplane := hplane.read rfl
    exact {
      id := by
        rw [hd.id, hid, bigEndian_word]
        omega
      mcc := by
        rw [hd.mcc, hmcc]
        exact htext _ hmccIn 0
      mnc := by
        rw [hd.mnc, hmnc]
        exact htext _ hmncIn 1
      msin := by
        rw [hd.msin, hmsin]
        exact htext _ hmsinIn 1
      key := hd.key.trans hkey
      opKey := hd.opKey.trans hopKey
      command := by
        rw [hd.command, hcommand]
        exact cString_ord hue.command hnul 0
      enbIp := by
        rw [hd.enbIp, Nat.mod_eq_of_lt (by omega)]
        exact henb.read (hword _)
      spgwPort := by
        rw [hd.spgwPort, Nat.mod_eq_of_lt (by omega), show 62 + ue.command.length =
          54 + ue.command.length + 4 + 4 by omega, hport]
        rw [multiplexerPort]
        split <;> rfl
      controlPlane := by
        rw [hd.controlPlane, Nat.mod_eq_of_lt (by omega), show 64 + ue.command.length =
          54 + ue.command.length + 4 + 4 + 2 by omega]
        rw [show ∀ n : Int, n = ue.serializedControlPlane.length → n.toNat =
          ue.serializedControlPlane.length by omega]
        · exact hplane
        · omega }

/-- The slave recovers the UE's configuration from the message exactly if the command has at most
191 characters, no NUL among them, and the identifier fits its four bytes. -/
theorem analyzeControllerMsg_serialize_iff {ue : UE} (hue : WellFormed ue) {enb : ENB}
    {address : UInt32} (henb : enb.address = some address) (multiplexer epc : UInt32)
    {message : List UInt8}
    (hmessage : message = ue.serialize (RanController.codeOk ||| RanController.codeUeBehaviour) enb
      multiplexer epc)
    (hlen : message.length ≤ 1024) (ip : SlaveIp) {buffer : Mem UInt8} (cpMode : Int)
    (hbuffer : buffer.read 0 message.length = message) :
    (∃ d, analyzeControllerMsg ip buffer message.length cpMode = .startUe d ∧
        d.Recovers ue address (multiplexerPort multiplexer epc)) ↔
      ue.id < 2 ^ 32 ∧ ue.command.length ≤ 191 ∧ ∀ c ∈ ue.command, c.toNat ≠ 0 := by
  have hlength : message.length =
      64 + ue.command.length + ue.serializedControlPlane.length := by
    rw [hmessage, ue.serialize_of_address _ henb, List.length_append, fields_length hue]
  rw [hlength] at hlen
  have hholds : buffer.Holds 0 message := hbuffer
  rw [hmessage, ue.serialize_of_address _ henb] at hholds
  obtain ⟨hcode, _, _, _, _, _, _, hcommandLen, _⟩ := holds_fields hue hholds
  rw [Nat.mod_eq_of_lt (by omega)] at hcommandLen
  obtain ⟨d, hstart, hd⟩ := analyzeUeBehaviour_readFrom ip buffer message.length cpMode
  rw [hcommandLen, hlength] at hd
  rw [analyzeControllerMsg_ue (by omega) hcode, hstart, ← hd.recovers_iff hue hlen hholds]
  constructor
  · rintro ⟨d', hd', hrecovers⟩
    obtain rfl := ControllerAction.startUe.inj hd'
    exact hrecovers
  · intro hrecovers
    exact ⟨d, rfl, hrecovers⟩

def letterUe (n : Nat) : UE where
  id := 1
  mcc := ['2', '0', '8']
  mnc := ['9', '3']
  msin := List.replicate 10 '0'
  key := List.replicate 16 0
  opKey := List.replicate 16 0
  command := List.replicate n 'a'
  serializedControlPlane := [0, 0, 0, 1]

theorem letterUe_wellFormed (n : Nat) : WellFormed (letterUe n) where
  mcc := rfl
  mnc := rfl
  msin := rfl
  digits := fun c hc => List.all_eq_true.mp (by decide : (letterUe 0).imsi.all Char.isDigit) c hc
  key := rfl
  opKey := rfl
  command := fun c hc => by
    rw [List.eq_of_mem_replicate hc]
    decide

def localhost : UInt32 := 0x7F000001

def letterMessage (n : Nat) : List UInt8 :=
  (letterUe n).serialize (RanController.codeOk ||| RanController.codeUeBehaviour)
    ⟨some localhost⟩ localhost localhost

def noIp : SlaveIp := ⟨[], []⟩

theorem letterMessage_eq (n : Nat) :
    letterMessage n = (letterUe n).serialize
      (RanController.codeOk ||| RanController.codeUeBehaviour) ⟨some localhost⟩ localhost
      localhost := rfl

theorem analyzeControllerMsg_letter : ∃ d,
    analyzeControllerMsg noIp (Mem.ofList (letterMessage 1) 0) (letterMessage 1).length 0 =
      .startUe d ∧ d.Recovers (letterUe 1) localhost (multiplexerPort localhost localhost) := by
  have hlen : (letterMessage 1).length ≤ 1024 := by decide +kernel
  apply (analyzeControllerMsg_serialize_iff (letterUe_wellFormed 1) rfl localhost localhost
    (letterMessage_eq 1) hlen noIp 0 (Mem.read_ofList _ _)).mpr
  refine ⟨Nat.one_lt_two_pow (by decide), by decide, fun c hc => ?_⟩
  rw [List.eq_of_mem_replicate hc]
  decide

def ControllerAction.controlPlaneLen : ControllerAction → Nat
  | .startUe d => d.controlPlane.length
  | _ => 0

/-- Behind a command of 192 letters, the control plane is read from the start of the message. -/
theorem not_recovers_long_command :
    ¬ ∀ (ue : UE) (enb : ENB) (address multiplexer epc : UInt32) (message : List UInt8)
      (ip : SlaveIp) (buffer : Mem UInt8) (cpMode : Int), WellFormed ue →
      enb.address = some address →
      message = ue.serialize (RanController.codeOk ||| RanController.codeUeBehaviour) enb
        multiplexer epc →
      message.length ≤ 1024 → buffer.read 0 message.length = message →
      ∃ d, analyzeControllerMsg ip buffer message.length cpMode = .startUe d ∧
        d.Recovers ue address (multiplexerPort multiplexer epc) := by
  intro h
  obtain ⟨d, hstart, hrecovers⟩ := h (letterUe 192) ⟨some localhost⟩ localhost localhost localhost
    (letterMessage 192) noIp (Mem.ofList (letterMessage 192) 0) 0 (letterUe_wellFormed 192) rfl
    (letterMessage_eq 192) (by decide +kernel) (Mem.read_ofList _ _)
  have hlen : (analyzeControllerMsg noIp (Mem.ofList (letterMessage 192) 0)
      (letterMessage 192).length 0).controlPlaneLen = 260 := by
    decide +kernel
  rw [hstart, ControllerAction.controlPlaneLen, hrecovers.controlPlane] at hlen
  revert hlen
  decide

end PublicCloudCore.RanEmulator
