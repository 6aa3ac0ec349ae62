import PublicCloudCore.Framework.ItemMessage
import PublicCloudCore.RanEmulator.GutiSearch

/-!
# The walk over the items of an S1AP message

Well-formed messages with what they say, and the walk of `analyze_downlink_NAS_Transport` over them.
Behind a NAS-PDU the parser goes on at the first octet of its value, not behind it.
-/

namespace PublicCloudCore.RanEmulator.S1apAnalysis

open Framework Framework.Parser UeRecord

inductive EmmMessage
  | authenticationRequest (keySetIdentifier : UInt8) (rand autn : Vector UInt8 16)
  | securityModeCommand (algs : UInt8) (rest : List UInt8)
  | other (type : UInt8) (rest : List UInt8)
      (h : type ≠ authenticationRequest ∧ type ≠ securityModeCommand)

namespace EmmMessage

def bytes : EmmMessage → List UInt8
  | authenticationRequest keySetIdentifier rand autn =>
      S1apAnalysis.authenticationRequest :: keySetIdentifier :: (rand.toList ++ 0x10 :: autn.toList)
  | securityModeCommand algs rest => S1apAnalysis.securityModeCommand :: algs :: rest
  | other type rest _ => type :: rest

def effect : EmmMessage → NasEffect
  | authenticationRequest _ rand autn => .challenge rand.toList autn.toList
  | securityModeCommand algs _ => .algorithms algs
  | other _ _ _ => .none

end EmmMessage

/-- A message behind its discriminator, in plain or behind a security header. -/
inductive Nas
  | plain (message : EmmMessage)
  | secured (header : UInt8) (mac : Vector UInt8 4) (sequenceNumber : UInt8) (message : EmmMessage)
      (h : header &&& 0x0F = 0x07 ∧ header ≠ 0x07)

namespace Nas

def message : Nas → EmmMessage
  | plain message => message
  | secured _ _ _ message _ => message

def header : Nas → UInt8
  | plain _ => 0x07
  | secured header _ _ _ _ => header

def bytes : Nas → List UInt8
  | plain message => 0x07 :: message.bytes
  | secured header mac sequenceNumber message _ =>
      header :: (mac.toList ++ sequenceNumber :: 0x07 :: message.bytes)

end Nas

inductive IE
  | nasPdu (criticality : UInt8) (nas : Nas)
  | mmeUeS1apId (criticality : UInt8) (id : List UInt8)
  | other (item : Item) (h : 256 * item.idHigh.toNat + item.idLow.toNat ≠ idNasPdu ∧
      256 * item.idHigh.toNat + item.idLow.toNat ≠ idMmeUeS1apIe)

namespace IE

def item : IE → Item
  | nasPdu criticality nas =>
      ⟨0x00, 0x1A, criticality, UInt8.ofNat nas.bytes.length :: nas.bytes⟩
  | mmeUeS1apId criticality id => ⟨0x00, 0x00, criticality, id⟩
  | other item _ => item

def id (ie : IE) : Nat := 256 * ie.item.idHigh.toNat + ie.item.idLow.toNat

def size (ie : IE) : Nat := 4 + ie.item.value.length

end IE

/-- The items with the offsets at which they start, from here on. -/
def placed : Nat → List IE → List (Nat × IE)
  | _, [] => []
  | offset, ie :: ies => (offset, ie) :: placed (offset + ie.size) ies

def itemBytes (ies : List IE) : List UInt8 := ies.flatMap fun ie => ie.item.bytes

/-- A message value with items whose lengths take one octet. -/
structure Message where
  first : UInt8
  ies : List IE
  count : ies.length < 65536
  short : ∀ ie ∈ ies, ie.item.value.length < 128
  ids : ∀ criticality id, .mmeUeS1apId criticality id ∈ ies → id.length ≤ mmeS1apIdSize

namespace Message

def bytes (message : Message) : List UInt8 :=
  message.first :: UInt8.ofNat (message.ies.length / 256) :: UInt8.ofNat message.ies.length ::
    itemBytes message.ies

def placed (message : Message) : List (Nat × IE) := S1apAnalysis.placed 3 message.ies

end Message

def NasEffect.update (challenge : Bool) (identity : Identity) : NasEffect → Identity
  | .none => identity
  | .challenge rand autn => if challenge then { identity with rand, autn } else identity
  | .algorithms algs => { identity with algorithms := algs }

def IE.update (challenge : Bool) (identity : Identity) : IE → Identity
  | nasPdu _ nas => nas.message.effect.update challenge identity
  | mmeUeS1apId _ id => { identity with mmeS1apId := id }
  | other _ _ => identity

/-- The NAS message that the caller waits for: with a challenge to fill also an Authentication
Request. -/
def EmmMessage.Expected (challenge : Bool) : EmmMessage → Prop
  | authenticationRequest _ _ _ => challenge = true
  | securityModeCommand _ _ => True
  | other _ _ _ => False

def Message.ExpectedPresent (challenge : Bool) (message : Message) : Prop :=
  ∃ criticality nas, .nasPdu criticality nas ∈ message.ies ∧ nas.message.Expected challenge

/-- The parser looks for an item where one starts and nowhere else, and leaves in the UE what the
message says. -/
def WalksItems (message : Message) (behind : Mem UInt8) : Prop :=
  ∀ challenge m, ∃ fuel,
    Yields (behind.write 0 message.bytes)
      (analyzeDownlinkNasTransport message.bytes.length fuel challenge) m []
      fun ret m' starts => starts = message.placed.map Prod.fst ∧
        identity m' = message.ies.foldl (IE.update challenge) (identity m) ∧
        (message.ExpectedPresent challenge → ret = 0)

def IE.IsNasPdu : IE → Prop
  | nasPdu _ _ => True
  | mmeUeS1apId _ _ => False
  | other _ _ => False

/-- No item follows a NAS-PDU. -/
def NasLast (ies : List IE) : Prop := ∀ ie ∈ ies.dropLast, ¬ ie.IsNasPdu

/-- The parser knows the security header of the NAS message, or the octet that it takes for the
type, the first one of the MAC, happens to have the same effect. -/
def ReadsNas (value : Mem UInt8) : Nat × IE → Prop
  | (offset, .nasPdu _ nas) => nas.header = 0x07 ∨ nas.header = 0x27 ∨ nas.header = 0x37 ∨
      effectAt value (offset + 6) = nas.message.effect
  | (_, .mmeUeS1apId _ _) => True
  | (_, .other _ _) => True

structure WalkCondition (message : Message) (value : Mem UInt8) : Prop where
  nasLast : NasLast message.ies
  readsNas : ∀ x ∈ message.placed, ReadsNas value x
  searchesEnd : ∃ iterations, ∀ x ∈ message.placed, ItemEnds value iterations x.1

section

variable {value m : Mem UInt8} {offset : Nat}

theorem effectAt_of_holds {message : EmmMessage} (h : value.Holds offset message.bytes) :
    effectAt value offset = message.effect := by
  cases message with
  | authenticationRequest keySetIdentifier rand autn =>
      rw [EmmMessage.bytes, Mem.holds_cons, Mem.holds_cons, Mem.holds_append, Mem.holds_cons] at h
      obtain ⟨htype, _, hrand, _, hautn⟩ := h
      rw [Vector.length_toList] at hautn
      rw [effectAt, if_pos htype, hrand.read rand.length_toList, hautn.read autn.length_toList]
      rfl
  | securityModeCommand algs rest =>
      rw [EmmMessage.bytes, Mem.holds_cons, Mem.holds_cons] at h
      rw [effectAt, h.1, h.2.1]
      rfl
  | other type rest htype =>
      rw [EmmMessage.bytes, Mem.holds_cons] at h
      rw [effectAt, h.1, if_neg htype.1, if_neg htype.2]
      rfl

theorem header_of_holds {nas : Nas} (h : value.Holds offset nas.bytes) :
    value offset = nas.header := by
  cases nas with
  | plain message => exact ((Mem.holds_cons _ _ _ _).mp h).1
  | secured header mac sequenceNumber message hkind => exact ((Mem.holds_cons _ _ _ _).mp h).1

theorem readsNas_iff {criticality : UInt8} {nas : Nas}
    (h : value.Holds (offset + 4) (IE.nasPdu criticality nas).item.value) :
    ReadsNas value (offset, .nasPdu criticality nas) ↔
      effectAt value (nasTypeAt value (offset + 4)) = nas.message.effect := by
  have hnas : value.Holds (offset + 5) nas.bytes := ((Mem.holds_cons _ _ _ _).mp h).2
  have hheader : value (offset + 4 + 1) = nas.header := header_of_holds hnas
  rw [ReadsNas]
  by_cases hknown : nas.header = 0x37 ∨ nas.header = 0x27
  · have htype : nasTypeAt value (offset + 4) = offset + 12 := if_pos (hheader ▸ hknown)
    cases nas with
    | plain message => exact absurd hknown (by simp [Nas.header])
    | secured header mac sequenceNumber message hkind =>
        rw [Nas.bytes, Mem.holds_cons, Mem.holds_append, Mem.holds_cons, Mem.holds_cons] at hnas
        have hmessage : value.Holds (offset + 5 + 1 + mac.toList.length + 1 + 1) message.bytes :=
          hnas.2.2.2.2
        rw [Vector.length_toList] at hmessage
        have heffect := effectAt_of_holds hmessage
        rw [htype]
        exact iff_of_true (by tauto) heffect
  · have htype : nasTypeAt value (offset + 4) = offset + 6 := if_neg (hheader ▸ hknown)
    rw [htype]
    cases nas with
    | plain message =>
        have hmessage : value.Holds (offset + 6) message.bytes :=
          ((Mem.holds_cons _ _ _ _).mp hnas).2
        exact iff_of_true (Or.inl rfl) (effectAt_of_holds hmessage)
    | secured header mac sequenceNumber message hkind =>
        have hplain : (Nas.secured header mac sequenceNumber message hkind).header ≠ 0x07 := hkind.2
        tauto

end

section

variable {cells : Nat → Prop} {fuel ret offset : Nat} {valueLen : UInt8}

/-- The cells of the fields that items set, other than the identifier and a NAS-PDU. -/
def ItemCell (k : Nat) : Prop :=
  spgwIpAt ≤ k ∧ k < gutiAt + 10 ∨ securityCapabilitiesAt ≤ k

theorem not_itemCell_of_identityCell {k : Nat} (h : IdentityCell k) : ¬ ItemCell k := by
  simp only [IdentityCell, ItemCell, algorithmsAt, mmeS1apIdLenAt, mmeS1apIdAt, randAt, autnAt,
    spgwIpAt, gutiAt, securityCapabilitiesAt] at *
  omega

theorem leaves_searchGuti : (searchGuti fuel offset).Leaves cells := by
  induction fuel generalizing offset with
  | zero => trivial
  | succ fuel ih =>
      apply (leaves_load offset).bind
      intro _
      exact leaves_ite ((leaves_load _).bind fun _ => ih)
        (leaves_ite ((leaves_load _).bind fun _ => leaves_pure _) ih)

theorem leaves_analyzeErabToBeSetupList (h : ∀ k, cells k → ¬ ItemCell k) :
    (analyzeErabToBeSetupList fuel ret offset).Leaves cells := by
  have hcopy : ∀ {target source n}, spgwIpAt ≤ target → target + n ≤ gutiAt + 10 →
      (copy target source n).Leaves cells := by
    intro target source n hlo hhi
    apply leaves_copy
    intro i hi hcell
    exact h _ hcell (Or.inl ⟨by omega, by omega⟩)
  have hname : ∀ source length, (setApnName source length).Leaves cells := by
    intro source length
    apply (hcopy (by decide) (by simp only [apnNameAt, gutiAt]; omega)).bind
    intro _
    apply leaves_store
    intro i hi hcell
    apply h _ hcell
    simp only [ItemCell, apnNameAt, spgwIpAt, gutiAt, List.length_singleton] at *
    omega
  have hteid : ∀ teid, (setGtpTeid teid).Leaves cells := by
    intro teid
    apply leaves_store
    intro i hi hcell
    apply h _ hcell
    simp only [ItemCell, EnbThreads.littleEndian, gtpTeidAt, spgwIpAt, gutiAt, List.length_cons,
      List.length_nil] at *
    omega
  have hpdn : ∀ offset, (analyzePdnAddress fuel ret offset).Leaves cells := fun _ =>
    (leaves_load _).bind fun _ => leaves_ite (leaves_pure _)
      ((hcopy (by decide) (by decide)).bind fun _ => leaves_searchGuti.bind fun _ =>
        (hcopy (by decide) (by decide)).bind fun _ => leaves_pure _)
  have hbearer : ∀ offset, (analyzeBearerContext fuel ret offset).Leaves cells := fun _ =>
    (leaves_load _).bind fun _ => leaves_ite (leaves_pure _)
      (leaves_glance.bind fun _ => (leaves_load _).bind fun _ => (hname _ _).bind fun _ => hpdn _)
  have haccept : ∀ offset, (analyzeAttachAccept fuel ret offset).Leaves cells := fun _ =>
    (leaves_load _).bind fun _ => leaves_ite (leaves_pure _)
      (leaves_glance.bind fun _ => hbearer _)
  exact leaves_load16.bind fun _ => leaves_ite (leaves_pure _)
    (leaves_glance.bind fun _ => (hcopy (by decide) (by decide)).bind fun _ =>
      leaves_load32.bind fun _ => (hteid _).bind fun _ => haccept _)

theorem leaves_analyzeItem {id : Nat} (h : ∀ k, cells k → id ≠ idMmeUeS1apIe ∧ ¬ ItemCell k) :
    (analyzeItem fuel id valueLen ret offset).Leaves cells := by
  have hprint : (printValue valueLen offset).Leaves cells :=
    leaves_glance.bind fun _ => leaves_pure _
  have hbitrate : ∀ tag offset, (printBitrate tag offset).Leaves cells := fun _ _ =>
    (leaves_load _).bind fun _ => leaves_ite leaves_glance (leaves_pure _)
  have hcapabilities : (setSecurityCapabilities offset).Leaves cells := by
    apply leaves_copy
    intro i hi hcell
    exact (h _ hcell).2 (Or.inr (Nat.le_add_right _ _))
  rw [analyzeItem]
  by_cases hmme : id = idMmeUeS1apIe
  · have hnone : ∀ k, ¬ cells k := fun k hk => (h k hk).1 hmme
    rw [if_pos hmme]
    exact ((leaves_copy fun i _ => hnone _).bind fun _ => leaves_store fun i _ => hnone _).bind
      fun _ => hprint
  · rw [if_neg hmme]
    apply leaves_ite ((hbitrate _ _).bind fun _ => (hbitrate _ _).bind fun _ => leaves_pure _)
    apply leaves_ite (leaves_analyzeErabToBeSetupList fun k hk => (h k hk).2)
    apply leaves_ite (hcapabilities.bind fun _ => leaves_pure _)
    apply leaves_ite (leaves_glance.bind fun _ => leaves_pure _)
    apply leaves_ite (leaves_glance.bind fun _ => leaves_pure _)
    apply leaves_ite (leaves_glance.bind fun _ => leaves_pure _)
    exact hprint

end

section

variable {value m m' : Mem UInt8} {challenge : Bool}

theorem identity_store_effectAt {p : Nat} :
    identity ((effectAt value p).store challenge m) =
      (effectAt value p).update challenge (identity m) := by
  rw [effectAt]
  split
  · cases challenge with
    | false => rfl
    | true => exact identity_write_challenge (Mem.read_length ..) (Mem.read_length ..)
  · split
    · exact identity_write_algorithms _
    · rfl

end

def readUpdate (value : Mem UInt8) (challenge : Bool) (identity : Identity) : Nat × IE → Identity
  | (offset, .nasPdu _ _) =>
      (effectAt value (nasTypeAt value (offset + 4))).update challenge identity
  | (_, .mmeUeS1apId _ id) => { identity with mmeS1apId := id }
  | (_, .other _ _) => identity

theorem readUpdate_eq {value : Mem UInt8} {challenge : Bool} {identity : Identity} {offset : Nat}
    {ie : IE} (hholds : value.Holds (offset + 4) ie.item.value)
    (h : ReadsNas value (offset, ie)) :
    readUpdate value challenge identity (offset, ie) = ie.update challenge identity := by
  cases ie with
  | nasPdu criticality nas => rw [readUpdate, (readsNas_iff hholds).mp h, IE.update]
  | mmeUeS1apId criticality id => rfl
  | other item h => rfl

@[simp] theorem placed_map_snd (offset : Nat) (ies : List IE) :
    (placed offset ies).map Prod.snd = ies := by
  induction ies generalizing offset with
  | nil => rfl
  | cons ie ies ih => rw [placed, List.map_cons, ih]

section

variable {value m : Mem UInt8} {seen : List Nat} {len fuel ret offset : Nat} {challenge : Bool}
  {ie : IE} {ies : List IE}

theorem holds_item (h : value.Holds offset ie.item.bytes) (hshort : ie.item.value.length < 128) :
    word value offset = ie.id ∧ (value (offset + 3)).toNat = ie.item.value.length ∧
      value (offset + 3) = UInt8.ofNat ie.item.value.length ∧
        value.Holds (offset + 4) ie.item.value := by
  rw [Item.bytes, Mem.holds_cons, Mem.holds_cons, Mem.holds_cons, Mem.holds_cons] at h
  obtain ⟨hhigh, hlow, _, hlen, hvalue⟩ := h
  have hnat : (UInt8.ofNat ie.item.value.length).toNat = ie.item.value.length :=
    UInt8.toNat_ofNat_of_lt' (by simp [UInt8.size]; omega)
  refine ⟨by rw [word, hhigh, hlow, IE.id], ?_, hlen, hvalue⟩
  rw [← hnat]
  exact congrArg UInt8.toNat hlen

theorem id_eq_nas_iff : ie.id = idNasPdu ↔ ie.IsNasPdu := by
  cases ie with
  | nasPdu criticality nas => exact iff_of_true rfl trivial
  | mmeUeS1apId criticality mmeId =>
      exact iff_of_false (by simp [IE.id, IE.item, idNasPdu]) id
  | other item h => exact iff_of_false h.1 id

theorem yields_item (hholds : value.Holds offset ie.item.bytes)
    (hshort : ie.item.value.length < 128)
    (hid : ∀ criticality id, ie = .mmeUeS1apId criticality id → id.length ≤ mmeS1apIdSize)
    (hnas : ¬ ie.IsNasPdu) (hends : ItemEnds value fuel offset) :
    Yields value (analyzeItem fuel (word value offset) (value (offset + 3)) ret (offset + 4)) m seen
      fun _ m' s => s = seen ∧
        identity m' = readUpdate value challenge (identity m) (offset, ie) := by
  obtain ⟨hword, hlen, hbyte, hvalue⟩ := holds_item hholds hshort
  cases ie with
  | nasPdu criticality nas => exact absurd trivial hnas
  | mmeUeS1apId criticality id =>
      have hmme : word value offset = idMmeUeS1apIe := hword
      have hread : value.read (offset + 4) id.length = id := hvalue
      have hlen : (value (offset + 3)).toNat = id.length := hlen
      have hbyte : value (offset + 3) = UInt8.ofNat id.length := hbyte
      rw [analyzeItem, if_pos hmme, yields_bind, yields_setMmeS1apId, yields_printValue, hlen,
        hbyte, hread, identity_write_mmeS1apId (hid _ _ rfl)]
      exact ⟨rfl, rfl⟩
  | other item h =>
      have hid : word value offset ≠ idMmeUeS1apIe := fun heq => h.2 (hword.symm.trans heq)
      have hruns : Yields value (analyzeItem fuel (word value offset) (value (offset + 3)) ret
          (offset + 4)) m seen fun _ _ _ => True := yields_analyzeItem.mpr hends
      have hleaves : (analyzeItem fuel (word value offset) (value (offset + 3)) ret
          (offset + 4)).Leaves IdentityCell :=
        leaves_analyzeItem fun _ hk => ⟨hid, not_itemCell_of_identityCell hk⟩
      apply (hruns.leaves hleaves).mono
      intro _ _ _ hpost
      exact ⟨hpost.2.2, identity_congr hpost.2.1⟩

theorem nasLast_cons : NasLast (ie :: ies) ↔ (ies = [] ∨ ¬ ie.IsNasPdu) ∧ NasLast ies := by
  cases ies with
  | nil => simp [NasLast]
  | cons ie' ies => simp [NasLast]

structure Lies (value : Mem UInt8) (len offset : Nat) (ies : List IE) : Prop where
  holds : value.Holds offset (itemBytes ies)
  len : len = offset + (itemBytes ies).length
  short : ∀ ie ∈ ies, ie.item.value.length < 128
  ids : ∀ criticality id, .mmeUeS1apId criticality id ∈ ies → id.length ≤ mmeS1apIdSize

namespace Lies

theorem length_bytes (ie : IE) : ie.item.bytes.length = ie.size := by
  simp only [Item.bytes, IE.size, List.length_cons]
  omega

theorem head (h : Lies value len offset (ie :: ies)) : value.Holds offset ie.item.bytes :=
  ((Mem.holds_append _ _ _ _).mp h.holds).1

theorem tail (h : Lies value len offset (ie :: ies)) : Lies value len (offset + ie.size) ies where
  holds := length_bytes ie ▸ ((Mem.holds_append _ _ _ _).mp h.holds).2
  len := by
    have hsplit : (itemBytes (ie :: ies)).length = ie.size + (itemBytes ies).length := by
      rw [← length_bytes]
      exact List.length_append
    rw [h.len, hsplit, Nat.add_assoc]
  short := fun ie' hie => h.short ie' (List.mem_cons_of_mem _ hie)
  ids := fun criticality id hie => h.ids criticality id (List.mem_cons_of_mem _ hie)

theorem lt (h : Lies value len offset (ie :: ies)) : offset < len := by
  have htail := h.tail.len
  simp only [IE.size] at htail
  omega

end Lies

/-- Over items that end, with none behind a NAS-PDU, the parser walks from boundary to boundary. -/
theorem yields_walk (h : Lies value len offset ies) (hlast : NasLast ies)
    (hends : ∀ x ∈ placed offset ies, ItemEnds value fuel x.1) :
    Yields value (analyzeItems len fuel challenge ies.length ret offset) m seen fun ret' m' s =>
      s = seen ++ (placed offset ies).map Prod.fst ∧
        identity m' = (placed offset ies).foldl (readUpdate value challenge) (identity m) ∧
        ∀ p criticality nas, (p, .nasPdu criticality nas) ∈ placed offset ies →
          ∃ before, ret' = retAt value challenge before (nasTypeAt value (p + 4)) := by
  induction ies generalizing offset ret m seen with
  | nil =>
      show Yields value (pure ret) m seen _
      simp [placed]
  | cons ie ies ih =>
      obtain ⟨hnext, hrest⟩ := nasLast_cons.mp hlast
      obtain ⟨hword, hsize, _, _⟩ := holds_item h.head (h.short ie List.mem_cons_self)
      have hhead : ItemEnds value fuel offset := hends (offset, ie) List.mem_cons_self
      have htail := fun m ret seen => @ih m seen ret _ h.tail hrest
        fun x hx => hends x (List.mem_cons_of_mem _ hx)
      rw [List.length_cons, yields_analyzeItems_succ h.lt]
      by_cases hnas : ie.IsNasPdu
      · rw [if_pos (hword.trans (id_eq_nas_iff.mpr hnas))]
        have hnil : ies = [] := hnext.resolve_right (not_not.mpr hnas)
        subst hnil
        show Yields value (pure _) _ _ _
        cases ie with
        | nasPdu criticality nas =>
            simp only [yields_pure, placed, List.map_cons, List.map_nil, List.foldl_cons,
              List.foldl_nil, readUpdate, identity_store_effectAt, List.mem_singleton]
            refine ⟨trivial, trivial, ?_⟩
            intro p criticality' nas' heq
            obtain ⟨rfl, _⟩ := Prod.mk.inj heq
            exact ⟨ret, rfl⟩
        | mmeUeS1apId criticality id => exact hnas.elim
        | other item hother => exact hnas.elim
      · have hid : word value offset ≠ idNasPdu := fun heq =>
          hnas (id_eq_nas_iff.mp (hword.symm.trans heq))
        rw [if_neg hid]
        apply (yields_item h.head (h.short ie List.mem_cons_self)
          (fun criticality id heq => h.ids criticality id (heq ▸ List.mem_cons_self)) hnas
          hhead).mono
        intro ret' m' s hitem
        rw [hsize, Nat.add_assoc]
        apply (htail m' ret' s).mono
        intro ret'' m'' s' hpost
        refine ⟨?_, ?_, ?_⟩
        · rw [hpost.1, hitem.1, placed, List.map_cons, List.append_assoc]
          rfl
        · rw [hpost.2.1, hitem.2, placed, List.foldl_cons]
        · intro p criticality nas hmem
          rcases List.mem_cons.mp hmem with heq | hmem
          · obtain ⟨_, rfl⟩ := Prod.mk.inj heq
            exact absurd trivial hnas
          · exact hpost.2.2 p criticality nas hmem

theorem exists_start {n : Nat} {post : Nat → Mem UInt8 → List Nat → Prop} (hlt : offset < len)
    (hrun : Yields value (analyzeItems len fuel challenge (n + 1) ret offset) m seen post) :
    ∃ ret' m' s, post ret' m' (seen ++ offset :: s) := by
  rw [analyzeItems, if_neg (Nat.not_le.mpr hlt), yields_bind, yields_observe, yields_iff] at hrun
  obtain ⟨ret', m', _, _, hpost⟩ := hrun
  rw [List.append_assoc] at hpost
  exact ⟨ret', m', _, hpost⟩

/-- A run that looks for items exactly where they start gets over all of them, and none of them is
behind a NAS-PDU. -/
theorem walk_of_yields (h : Lies value len offset ies)
    (hrun : Yields value (analyzeItems len fuel challenge ies.length ret offset) m seen
      fun _ _ s => s = seen ++ (placed offset ies).map Prod.fst) :
    NasLast ies ∧ ∀ x ∈ placed offset ies, ItemEnds value fuel x.1 := by
  induction ies generalizing offset ret m seen with
  | nil => simp [NasLast, placed]
  | cons ie ies ih =>
      obtain ⟨hword, hsize, _, _⟩ := holds_item h.head (h.short ie List.mem_cons_self)
      have hstarts : seen ++ (placed offset (ie :: ies)).map Prod.fst =
          seen ++ [offset] ++ (placed (offset + ie.size) ies).map Prod.fst := by
        rw [placed, List.map_cons, List.append_assoc]
        rfl
      rw [List.length_cons, yields_analyzeItems_succ h.lt, hstarts] at hrun
      rw [nasLast_cons, placed, List.forall_mem_cons]
      by_cases hnas : ie.IsNasPdu
      · rw [if_pos (hword.trans (id_eq_nas_iff.mpr hnas))] at hrun
        have hhead : ItemEnds value fuel offset := fun herab => by
          rw [hword, id_eq_nas_iff.mpr hnas] at herab
          cases herab
        cases ies with
        | nil => simpa [NasLast, placed] using hhead
        | cons ie' ies =>
            have hlt : offset + 4 < len := by
              have htail := h.tail.lt
              simp only [IE.size] at htail
              omega
            obtain ⟨_, _, s, hs⟩ := exists_start hlt hrun
            have hnext : offset + 4 = offset + ie.size :=
              (List.cons.inj (List.append_cancel_left hs)).1
            have hvalue : ie.item.value ≠ [] := by
              cases ie with
              | nasPdu criticality nas => exact List.cons_ne_nil _ _
              | mmeUeS1apId criticality id => exact hnas.elim
              | other item hother => exact hnas.elim
            have hlength := List.length_pos_of_ne_nil hvalue
            simp only [IE.size] at hnext
            omega
      · have hid : word value offset ≠ idNasPdu := fun heq =>
          hnas (id_eq_nas_iff.mp (hword.symm.trans heq))
        rw [if_neg hid, hsize, Nat.add_assoc] at hrun
        have hhead : ItemEnds value fuel offset :=
          yields_analyzeItem.mp (hrun.mono fun _ _ _ _ => trivial)
        have hleaves : (analyzeItem fuel (word value offset) (value (offset + 3)) ret
            (offset + 4)).Leaves fun _ => False := leaves_analyzeItem fun _ h => h.elim
        have hsilent := hrun.leaves hleaves
        obtain ⟨ret', m', _, _, hrest, _, hseen⟩ := yields_iff.mp hsilent
        rw [hseen] at hrest
        obtain ⟨hlast, hends⟩ := ih h.tail hrest
        exact ⟨⟨Or.inr hnas, hlast⟩, hhead, hends⟩

end

theorem Message.lies (message : Message) (behind : Mem UInt8) :
    word (behind.write 0 message.bytes) 1 = message.ies.length ∧
      Lies (behind.write 0 message.bytes) message.bytes.length 3 message.ies := by
  have hholds : (behind.write 0 message.bytes).Holds 0 message.bytes := Mem.read_write_same ..
  have hlen : message.bytes.length = 3 + (itemBytes message.ies).length := by
    simp only [Message.bytes, List.length_cons]
    omega
  rw [hlen]
  generalize behind.write 0 message.bytes = value at hholds
  rw [Message.bytes, Mem.holds_cons, Mem.holds_cons, Mem.holds_cons] at hholds
  obtain ⟨_, hhigh, hlow, hitems⟩ := hholds
  have hcount := message.count
  refine ⟨?_, hitems, rfl, message.short, message.ids⟩
  rw [word, hhigh, hlow, UInt8.toNat_ofNat', UInt8.toNat_ofNat']
  omega

theorem retAt_of_expected {value : Mem UInt8} {challenge : Bool} {message : EmmMessage}
    {ret p : Nat} (heffect : effectAt value p = message.effect)
    (h : message.Expected challenge) : retAt value challenge ret p = 0 := by
  rw [effectAt] at heffect
  rw [retAt]
  split_ifs at heffect with hauth hcommand
  · cases message with
    | authenticationRequest keySetIdentifier rand autn =>
        have hchallenge : challenge = true := h
        rw [if_pos hauth, if_pos hchallenge]
    | securityModeCommand algs rest => cases heffect
    | other type rest hother => exact h.elim
  · rw [if_neg hauth, if_pos hcommand]
  · cases message with
    | authenticationRequest keySetIdentifier rand autn => cases heffect
    | securityModeCommand algs rest => cases heffect
    | other type rest hother => exact h.elim

theorem effect_eq_of_update {e e' : NasEffect} {i j : Identity} (hrand : i.rand ≠ j.rand)
    (halgs : i.algorithms ≠ j.algorithms) (hi : e.update true i = e'.update true i)
    (hj : e.update true j = e'.update true j) : e = e' := by
  have hri := congrArg Identity.rand hi
  have hrj := congrArg Identity.rand hj
  have hai := congrArg Identity.algorithms hi
  have haj := congrArg Identity.algorithms hj
  cases e with
  | none =>
      cases e' with
      | none => rfl
      | challenge rand autn => exact absurd (Eq.trans (b := rand) hri hrj.symm) hrand
      | algorithms algs => exact absurd (Eq.trans (b := algs) hai haj.symm) halgs
  | challenge rand autn =>
      have hautn := congrArg Identity.autn hi
      cases e' with
      | none => exact absurd (Eq.trans (b := rand) hri.symm hrj) hrand
      | challenge rand' autn' => exact congrArg₂ NasEffect.challenge hri hautn
      | algorithms algs => exact absurd (Eq.trans (b := algs) hai haj.symm) halgs
  | algorithms algs =>
      cases e' with
      | none => exact absurd (Eq.trans (b := algs) hai.symm haj) halgs
      | challenge rand autn => exact absurd (Eq.trans (b := rand) hri hrj.symm) hrand
      | algorithms algs' => exact congrArg NasEffect.algorithms hai

section

variable {value : Mem UInt8} {len offset : Nat} {challenge : Bool} {ies : List IE}

theorem Lies.of_mem_placed (h : Lies value len offset ies) {x : Nat × IE}
    (hx : x ∈ placed offset ies) : value.Holds (x.1 + 4) x.2.item.value := by
  induction ies generalizing offset with
  | nil => cases hx
  | cons ie ies ih =>
      rcases List.mem_cons.mp hx with rfl | hx
      · exact (holds_item h.head (h.short ie List.mem_cons_self)).2.2.2
      · exact ih h.tail hx

theorem foldl_readUpdate (h : Lies value len offset ies)
    (hreads : ∀ x ∈ placed offset ies, ReadsNas value x) (i : Identity) :
    (placed offset ies).foldl (readUpdate value challenge) i =
      ies.foldl (IE.update challenge) i := by
  induction ies generalizing offset i with
  | nil => rfl
  | cons ie ies ih =>
      have hholds := h.of_mem_placed (x := (offset, ie)) List.mem_cons_self
      rw [placed, List.foldl_cons, List.foldl_cons,
        readUpdate_eq hholds (hreads _ List.mem_cons_self)]
      exact ih h.tail (fun x hx => hreads x (List.mem_cons_of_mem _ hx)) _

/-- A walk that stores what the message says reads the NAS message where it stands. -/
theorem readsNas_of_foldl (h : Lies value len offset ies) (hlast : NasLast ies) {i j : Identity}
    (hrand : i.rand ≠ j.rand) (halgs : i.algorithms ≠ j.algorithms)
    (hi : (placed offset ies).foldl (readUpdate value true) i = ies.foldl (IE.update true) i)
    (hj : (placed offset ies).foldl (readUpdate value true) j = ies.foldl (IE.update true) j) :
    ∀ x ∈ placed offset ies, ReadsNas value x := by
  induction ies generalizing offset i j with
  | nil => simp [placed]
  | cons ie ies ih =>
      obtain ⟨hnext, hrest⟩ := nasLast_cons.mp hlast
      rw [placed, List.forall_mem_cons]
      rw [placed, List.foldl_cons, List.foldl_cons] at hi hj
      cases ie with
      | nasPdu criticality nas =>
          have hnil : ies = [] := hnext.resolve_right (not_not.mpr trivial)
          subst hnil
          have hholds := h.of_mem_placed (x := (offset, _)) List.mem_cons_self
          exact ⟨(readsNas_iff hholds).mpr (effect_eq_of_update hrand halgs hi hj),
            fun x hx => absurd hx List.not_mem_nil⟩
      | mmeUeS1apId criticality id =>
          exact ⟨trivial, ih h.tail hrest (i := { i with mmeS1apId := id })
            (j := { j with mmeS1apId := id }) hrand halgs hi hj⟩
      | other item hother => exact ⟨trivial, ih h.tail hrest hrand halgs hi hj⟩

end

/-- The walk over a well-formed message is right exactly if nothing follows the NAS-PDU, the
security header of its message is known, and every search for a GUTI ends. -/
theorem walksItems_iff (message : Message) (behind : Mem UInt8) :
    WalksItems message behind ↔ WalkCondition message (behind.write 0 message.bytes) := by
  obtain ⟨hcount, hlies⟩ := message.lies behind
  rw [WalksItems]
  generalize behind.write 0 message.bytes = value at *
  simp only [analyzeDownlinkNasTransport, yields_bind, yields_load16, hcount]
  constructor
  · intro h
    have hfold : ∀ m, (NasLast message.ies ∧
        ∃ iterations, ∀ x ∈ message.placed, ItemEnds value iterations x.1) ∧
          message.placed.foldl (readUpdate value true) (identity m) =
            message.ies.foldl (IE.update true) (identity m) := by
      intro m
      obtain ⟨fuel, hrun⟩ := h true m
      obtain ⟨hlast, hends⟩ := walk_of_yields hlies (hrun.mono fun _ _ _ hpost => hpost.1)
      obtain ⟨_, _, _, hpost, hwalk⟩ := hrun.exists_and (yields_walk hlies hlast hends)
      exact ⟨⟨hlast, fuel, hends⟩, hwalk.2.1.symm.trans hpost.2.1⟩
    obtain ⟨⟨hlast, hends⟩, hzero⟩ := hfold fun _ => 0
    obtain ⟨_, hone⟩ := hfold fun _ => 1
    exact ⟨hlast, readsNas_of_foldl hlies hlast (by decide) (by decide) hzero hone, hends⟩
  · intro h challenge m
    obtain ⟨fuel, hends⟩ := h.searchesEnd
    refine ⟨fuel, (yields_walk hlies h.nasLast hends).mono ?_⟩
    intro ret m' s hpost
    refine ⟨hpost.1, hpost.2.1.trans (foldl_readUpdate hlies h.readsNas _), ?_⟩
    rintro ⟨criticality, nas, hmem, hexpected⟩
    rw [← placed_map_snd 3 message.ies] at hmem
    obtain ⟨⟨p, ie⟩, hplaced, rfl⟩ := List.mem_map.mp hmem
    obtain ⟨before, rfl⟩ := hpost.2.2 p criticality nas hplaced
    exact retAt_of_expected ((readsNas_iff (hlies.of_mem_placed hplaced)).mp
      (h.readsNas _ hplaced)) hexpected

/-- A Downlink NAS Transport whose Authentication Request is followed by the identifier that the eNB
gave the UE. -/
def requestBeforeId : Message where
  first := 0x00
  ies := [.nasPdu 0x00 (.plain (.authenticationRequest 0x00 (Vector.replicate 16 0x11)
      (Vector.replicate 16 0x22))),
    .other ⟨0x00, 0x08, 0x00, [0x00, 0x01]⟩ (by decide)]
  count := by decide
  short := by decide
  ids := by
    intro criticality id h
    simp at h

theorem not_walksItems : ¬ ∀ message behind, WalksItems message behind := by
  intro h
  obtain ⟨fuel, hrun⟩ := h requestBeforeId (fun _ => 0) true fun _ => 0
  obtain ⟨hcount, hlies⟩ := requestBeforeId.lies fun _ => 0
  rw [analyzeDownlinkNasTransport, yields_bind, yields_load16, hcount] at hrun
  have hlast := (walk_of_yields hlies (hrun.mono fun _ _ _ hpost => hpost.1)).1
  exact hlast _ List.mem_cons_self trivial

end PublicCloudCore.RanEmulator.S1apAnalysis
