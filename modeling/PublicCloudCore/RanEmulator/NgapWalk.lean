import PublicCloudCore.RanEmulator.NgapAnalysis

/-!
# The walk over the items of an NGAP message

Well-formed messages with what they say, and the walk of `analyze_message_items` over them. A length
below 128 takes one octet and a longer one two. The parser expects of each kind of message one of
the two for its length, and one octet for the length of an item, except of a PDU session list.
-/

namespace PublicCloudCore.RanEmulator.NgapAnalysis

open Framework Framework.Parser UeRecord

def lengthOctets (n : Nat) : List UInt8 :=
  if n < 128 then [UInt8.ofNat n] else [UInt8.ofNat (128 + n / 256), UInt8.ofNat n]

inductive MmMessage
  | authenticationRequest (keySetIdentifier : UInt8) (abba : List UInt8)
      (rand autn : Vector UInt8 16) (rest : List UInt8) (h : abba.length < 256)
  /-- An Authentication Request with an EAP message in place of the challenge. -/
  | eapRequest (keySetIdentifier : UInt8) (abba : List UInt8) (rest : List UInt8)
      (h : abba.length < 256 ∧ rest.head? ≠ some 0x21)
  | securityModeCommand (algs : UInt8) (rest : List UInt8)
  | registrationAccept (result : UInt8) (guti : Vector UInt8 10) (rest : List UInt8)
  | acceptWithoutGuti (result : UInt8) (rest : List UInt8) (h : rest.head? ≠ some 0x77)
  | other (type : UInt8) (rest : List UInt8)
      (h : type ∉ [authenticationRequest, securityModeCommand, registrationAccept])

namespace MmMessage

def type : MmMessage → UInt8
  | authenticationRequest _ _ _ _ _ _ => NgapAnalysis.authenticationRequest
  | eapRequest _ _ _ _ => NgapAnalysis.authenticationRequest
  | securityModeCommand _ _ => NgapAnalysis.securityModeCommand
  | registrationAccept _ _ _ => NgapAnalysis.registrationAccept
  | acceptWithoutGuti _ _ _ => NgapAnalysis.registrationAccept
  | other type _ _ => type

def bytes : MmMessage → List UInt8
  | authenticationRequest keySetIdentifier abba rand autn rest _ =>
      NgapAnalysis.authenticationRequest :: keySetIdentifier :: UInt8.ofNat abba.length ::
        (abba ++ 0x21 :: (rand.toList ++ 0x20 :: 0x10 :: (autn.toList ++ rest)))
  | eapRequest keySetIdentifier abba rest _ =>
      NgapAnalysis.authenticationRequest :: keySetIdentifier :: UInt8.ofNat abba.length ::
        (abba ++ rest)
  | securityModeCommand algs rest => NgapAnalysis.securityModeCommand :: algs :: rest
  | registrationAccept result guti rest =>
      NgapAnalysis.registrationAccept :: 0x01 :: result ::
        ([0x77, 0x00, 0x0b, 0xf2] ++ (guti.toList ++ rest))
  | acceptWithoutGuti result rest _ => NgapAnalysis.registrationAccept :: 0x01 :: result :: rest
  | other type rest _ => type :: rest

def effect : MmMessage → NasEffect
  | authenticationRequest _ _ rand autn _ _ => .challenge rand.toList autn.toList
  | eapRequest _ _ _ _ => .none
  | securityModeCommand algs _ => .algorithms algs
  | registrationAccept _ guti _ => .guti guti.toList
  | acceptWithoutGuti _ _ _ => .none
  | other _ _ _ => .none

end MmMessage

inductive Nas
  | plain (message : MmMessage)
  | secured (header : UInt8) (mac : Vector UInt8 4) (sequenceNumber : UInt8) (message : MmMessage)
      (h : header ≠ 0x00)

namespace Nas

def message : Nas → MmMessage
  | plain message => message
  | secured _ _ _ message _ => message

def header : Nas → UInt8
  | plain _ => 0x00
  | secured header _ _ _ _ => header

def bytes : Nas → List UInt8
  | plain message => 0x7e :: 0x00 :: message.bytes
  | secured header mac sequenceNumber message _ =>
      0x7e :: header :: (mac.toList ++ sequenceNumber :: 0x7e :: 0x00 :: message.bytes)

end Nas

inductive IE
  | amfUeNgapId (criticality : UInt8) (id : List UInt8) (h : id.length ≤ mmeS1apIdSize)
  | guami (criticality first : UInt8) (octets : Vector UInt8 6)
  | nasPdu (criticality : UInt8) (nas : Nas)
  | other (id criticality : UInt8) (value : List UInt8)
      (h : id ∉ [idAmfUeNgapId, idGuami, idNasPdu])

namespace IE

def id : IE → UInt8
  | amfUeNgapId _ _ _ => idAmfUeNgapId
  | guami _ _ _ => idGuami
  | nasPdu _ _ => idNasPdu
  | other id _ _ _ => id

def criticality : IE → UInt8
  | amfUeNgapId criticality _ _ => criticality
  | guami criticality _ _ => criticality
  | nasPdu criticality _ => criticality
  | other _ criticality _ _ => criticality

def value : IE → List UInt8
  | amfUeNgapId _ id _ => id
  | guami _ first octets => first :: octets.toList
  | nasPdu _ nas => lengthOctets nas.bytes.length ++ nas.bytes
  | other _ _ value _ => value

def bytes (ie : IE) : List UInt8 :=
  0x00 :: ie.id :: ie.criticality :: (lengthOctets ie.value.length ++ ie.value)

def size (ie : IE) : Nat := ie.bytes.length

end IE

/-- The items with the offsets at which they start, from here on. -/
def placed : Nat → List IE → List (Nat × IE)
  | _, [] => []
  | offset, ie :: ies => (offset, ie) :: placed (offset + ie.size) ies

def itemBytes (ies : List IE) : List UInt8 := ies.flatMap IE.bytes

def contentBytes (first : UInt8) (ies : List IE) : List UInt8 :=
  first :: UInt8.ofNat (ies.length / 256) :: UInt8.ofNat ies.length :: itemBytes ies

def IE.IsForEnb (ie : IE) : Prop :=
  ie.id ∉ [idAmfUeNgapId, idGuami, idNasPdu, idPduSessionResourceSetupListSuReq]

/-- A message that a caller accepts, with no item more than once. -/
structure Pdu where
  caller : Caller
  criticality : UInt8
  first : UInt8
  ies : List IE
  accepted : criticality = caller.expected.criticality ∨ caller.expected.strict = false
  nonempty : ies ≠ []
  distinct : (ies.map IE.id).Nodup
  small : (contentBytes first ies).length < 16384
  setup : caller = .ngSetupResponse → ∀ ie ∈ ies, ie.IsForEnb

namespace Pdu

def content (pdu : Pdu) : List UInt8 := contentBytes pdu.first pdu.ies

def bytes (pdu : Pdu) : List UInt8 :=
  pdu.caller.expected.form :: pdu.caller.expected.code :: pdu.criticality ::
    (lengthOctets pdu.content.length ++ pdu.content)

def placed (pdu : Pdu) : List (Nat × IE) :=
  NgapAnalysis.placed (6 + (lengthOctets pdu.content.length).length) pdu.ies

end Pdu

structure NasFields where
  rand : List UInt8
  autn : List UInt8
  algorithms : UInt8
  guti : List UInt8

/-- The fields of the record that items set. -/
structure Stored where
  amfUeNgapId : List UInt8
  guami : List UInt8
  nas : NasFields

def stored (record : Mem UInt8) : Stored where
  amfUeNgapId := (identity record).mmeS1apId
  guami := record.read guamiAt 6
  nas :=
    { rand := (identity record).rand
      autn := (identity record).autn
      algorithms := (identity record).algorithms
      guti := record.read gutiAt 10 }

def NasEffect.update (fields : NasFields) : NasEffect → NasFields
  | .none => fields
  | .challenge rand autn => { fields with rand, autn }
  | .algorithms algs => { fields with algorithms := algs }
  | .guti octets => { fields with guti := octets }

def IE.update (stored : Stored) : IE → Stored
  | amfUeNgapId _ id _ => { stored with amfUeNgapId := id }
  | guami _ _ octets => { stored with guami := octets.toList }
  | nasPdu _ nas => { stored with nas := nas.message.effect.update stored.nas }
  | other _ _ _ _ => stored

/-- The caller returns `OK`, the loop looks for the items where they start, and the record, if there
is one, holds what they say. -/
def Walks (value : Mem UInt8) (pdu : Pdu) (record : Option (Mem UInt8)) : Prop :=
  (pdu.caller.analyze.exec (serve value) record).result = some 0 ∧
    (pdu.caller.analyze.exec (serve value) record).emitted = pdu.placed.map Prod.fst ∧
    (pdu.caller.analyze.exec (serve value) record).state.map stored =
      record.map fun m => pdu.ies.foldl IE.update (stored m)

/-- So it is for every UE, and a message that stands at the front of a buffer. -/
def WalksPdu (pdu : Pdu) (behind : Mem UInt8) : Prop :=
  ∀ m, Walks (behind.write 0 pdu.bytes) pdu (pdu.caller.record m)

/-- The parser steps over an item whose length takes one octet, and over a PDU session list of less
than 256. -/
def IE.Steps (ie : IE) : Prop :=
  ie.value.length < 128 ∨ ie.id = idPduSessionResourceSetupListSuReq ∧ ie.value.length < 256

def Nas.Known (nas : Nas) : Prop :=
  match nas.message with
  | .authenticationRequest _ abba _ _ _ _ => nas.header = 0x00 ∧ abba.length = 2
  | .eapRequest _ _ _ _ => nas.header ≠ 0x00
  | .securityModeCommand _ _ => nas.header = 0x03
  | .registrationAccept _ _ _ => nas.header = 0x02
  | .acceptWithoutGuti _ _ _ => nas.header ≠ 0x02
  | .other _ _ _ => True

/-- The parser finds the NAS message, or what it takes for one happens to have the same effect. -/
def ReadsNas (value : Mem UInt8) : Nat × IE → Prop
  | (offset, .nasPdu criticality nas) =>
      (IE.nasPdu criticality nas).value.length < 128 ∧ nas.Known ∨
        nasEffectAt value (offset + 1) = nas.message.effect
  | (_, .amfUeNgapId _ _ _) => True
  | (_, .guami _ _ _) => True
  | (_, .other _ _ _ _) => True

structure WalkCondition (pdu : Pdu) (value : Mem UInt8) : Prop where
  header : pdu.content.length < 128 ↔ pdu.caller.expected.items = 4
  steps : ∀ ie ∈ pdu.ies.dropLast, ie.Steps
  readsNas : ∀ x ∈ pdu.placed, ReadsNas value x

theorem length_lengthOctets (n : Nat) : (lengthOctets n).length = if n < 128 then 1 else 2 := by
  rw [lengthOctets]
  split <;> rfl

theorem IE.size_eq (ie : IE) :
    ie.size = 3 + (lengthOctets ie.value.length).length + ie.value.length := by
  simp only [IE.size, IE.bytes, List.length_cons, List.length_append]
  omega

section

variable {value m : Mem UInt8} {offset : Nat} {ie : IE}

theorem holds_item (h : value.Holds offset ie.bytes) :
    value (offset + 1) = ie.id ∧ value.Holds (offset + 3) (lengthOctets ie.value.length) ∧
      value.Holds (offset + 3 + (lengthOctets ie.value.length).length) ie.value := by
  rw [IE.bytes, Mem.holds_cons, Mem.holds_cons, Mem.holds_cons, Mem.holds_append] at h
  exact ⟨h.2.1, h.2.2.2⟩

theorem holds_short (h : value.Holds offset ie.bytes) (hshort : ie.value.length < 128) :
    value (offset + 3) = UInt8.ofNat ie.value.length ∧ value.Holds (offset + 4) ie.value := by
  obtain ⟨_, hlength, hvalue⟩ := holds_item h
  rw [lengthOctets, if_pos hshort] at hlength hvalue
  exact ⟨((Mem.holds_cons _ _ _ _).mp hlength).1, hvalue⟩

theorem behindItem_eq_iff (h : value.Holds offset ie.bytes) (hsmall : ie.value.length < 16384) :
    behindItem value (offset + 1) = offset + ie.size ↔ ie.Steps := by
  obtain ⟨hid, hlength, _⟩ := holds_item h
  rw [ie.size_eq, length_lengthOctets, behindItem, pduSessionOffset, hid, IE.Steps]
  by_cases hshort : ie.value.length < 128
  · obtain ⟨hoctet, _⟩ := holds_short h hshort
    have hnat : (value (offset + 1 + 2)).toNat = ie.value.length := by
      rw [show offset + 1 + 2 = offset + 3 from rfl, hoctet, UInt8.toNat_ofNat']
      omega
    have hne : value (offset + 1 + 2) ≠ 0x80 := by
      intro heq
      rw [heq] at hnat
      simp at hnat
      omega
    simp only [hne, if_false, hnat, hshort, if_true, true_or, iff_true]
    split <;> omega
  · rw [lengthOctets, if_neg hshort, Mem.holds_cons, Mem.holds_cons] at hlength
    have hhigh : (value (offset + 1 + 2)).toNat = 128 + ie.value.length / 256 := by
      rw [show offset + 1 + 2 = offset + 3 from rfl, hlength.1, UInt8.toNat_ofNat']
      omega
    have hlow : (value (offset + 1 + 1 + 2)).toNat = ie.value.length % 256 := by
      rw [show offset + 1 + 1 + 2 = offset + 3 + 1 from rfl, hlength.2.1, UInt8.toNat_ofNat']
    have hextra : value (offset + 1 + 2) = 0x80 ↔ ie.value.length < 256 := by
      rw [← UInt8.toNat_inj, hhigh]
      simp
    simp only [hextra, hshort, if_false, false_or]
    by_cases hlist : ie.id = idPduSessionResourceSetupListSuReq
    · simp only [hlist, if_true, true_and]
      split <;> omega
    · simp only [hlist, if_false, false_and, iff_false, hhigh]
      omega

end

section

variable {value : Mem UInt8} {offset : Nat}

theorem type_of_holds {message : MmMessage} (h : value.Holds offset message.bytes) :
    value offset = message.type := by
  cases message <;> exact ((Mem.holds_cons _ _ _ _).mp h).1

theorem nasEffectAt_of_plain {message : MmMessage}
    (h : value.Holds (offset + 4) (Nas.plain message).bytes) (hknown : (Nas.plain message).Known) :
    nasEffectAt value offset = message.effect := by
  rw [Nas.bytes, Mem.holds_cons, Mem.holds_cons] at h
  obtain ⟨_, hheader, hmessage⟩ := h
  have htype := type_of_holds hmessage
  have heffect : nasEffectAt value offset = if value (offset + 6) = authenticationRequest then
      .challenge (value.read (offset + 12) 16) (value.read (offset + 30) 16) else .none := by
    rw [nasEffectAt, show value (offset + 5) = 0x00 from hheader]
    rfl
  rw [heffect, show value (offset + 6) = message.type from htype]
  cases message with
  | authenticationRequest keySetIdentifier abba rand autn rest habba =>
      have hlength : abba.length = 2 := hknown.2
      rw [MmMessage.bytes, Mem.holds_cons, Mem.holds_cons, Mem.holds_cons, Mem.holds_append,
        Mem.holds_cons, Mem.holds_append, Mem.holds_cons, Mem.holds_cons, Mem.holds_append,
        hlength, Vector.length_toList] at hmessage
      obtain ⟨_, _, _, _, _, hrand, _, _, hautn, _⟩ := hmessage
      rw [MmMessage.type, if_pos rfl, MmMessage.effect]
      exact congrArg₂ NasEffect.challenge (hrand.read rand.length_toList)
        (hautn.read autn.length_toList)
  | eapRequest keySetIdentifier abba rest h => exact absurd rfl hknown
  | securityModeCommand algs rest =>
      have hthree : (0x00 : UInt8) = 0x03 := hknown
      exact absurd hthree (by decide)
  | registrationAccept result guti rest =>
      have htwo : (0x00 : UInt8) = 0x02 := hknown
      exact absurd htwo (by decide)
  | acceptWithoutGuti result rest h => rfl
  | other type rest hother =>
      have hne : type ≠ authenticationRequest := by
        rintro rfl
        exact hother (by simp)
      exact if_neg hne

theorem nasEffectAt_of_secured {header sequenceNumber : UInt8} {mac : Vector UInt8 4}
    {message : MmMessage} {hheader : header ≠ 0x00}
    (h : value.Holds (offset + 4)
      (Nas.secured header mac sequenceNumber message hheader).bytes)
    (hknown : (Nas.secured header mac sequenceNumber message hheader).Known) :
    nasEffectAt value offset = message.effect := by
  rw [Nas.bytes, Mem.holds_cons, Mem.holds_cons, Mem.holds_append, Mem.holds_cons, Mem.holds_cons,
    Mem.holds_cons, Vector.length_toList] at h
  obtain ⟨_, hoctet, _, _, _, _, hmessage⟩ := h
  have htype : value (offset + 13) = message.type := type_of_holds hmessage
  have heffect : nasEffectAt value offset =
      if header = 0x02 ∧ value (offset + 13) = registrationAccept then
        .guti (value.read (offset + 20) 10)
      else if header = 0x03 ∧ value (offset + 13) = securityModeCommand then
        .algorithms (value (offset + 14))
      else .none := by
    rw [nasEffectAt, show value (offset + 5) = header from hoctet]
    grind
  rw [heffect, htype]
  cases message with
  | authenticationRequest keySetIdentifier abba rand autn rest habba =>
      exact absurd hknown.1 hheader
  | eapRequest keySetIdentifier abba rest h =>
      simp [authenticationRequest, registrationAccept, securityModeCommand, MmMessage.type,
        MmMessage.effect]
  | securityModeCommand algs rest =>
      have hthree : header = 0x03 := hknown
      rw [MmMessage.bytes, Mem.holds_cons, Mem.holds_cons] at hmessage
      have halgs : value (offset + 14) = algs := hmessage.2.1
      simp [hthree, halgs, MmMessage.type, MmMessage.effect]
  | registrationAccept result guti rest =>
      have htwo : header = 0x02 := hknown
      rw [MmMessage.bytes, Mem.holds_cons, Mem.holds_cons, Mem.holds_cons, Mem.holds_append,
        Mem.holds_append] at hmessage
      have hguti : value.read (offset + 20) 10 = guti.toList :=
        hmessage.2.2.2.2.1.read guti.length_toList
      simp [htwo, hguti, MmMessage.type, MmMessage.effect]
  | acceptWithoutGuti result rest h =>
      have htwo : header ≠ 0x02 := hknown
      simp [htwo, registrationAccept, securityModeCommand, MmMessage.type, MmMessage.effect]
  | other type rest hother =>
      simp only [List.mem_cons, List.not_mem_nil, or_false, not_or] at hother
      simp [hother, MmMessage.type, MmMessage.effect]

theorem readsNas_eq {criticality : UInt8} {nas : Nas}
    (h : value.Holds offset (IE.nasPdu criticality nas).bytes)
    (hreads : ReadsNas value (offset, .nasPdu criticality nas)) :
    nasEffectAt value (offset + 1) = nas.message.effect := by
  rcases hreads with ⟨hshort, hknown⟩ | heffect
  · have hvalue := (holds_short h hshort).2
    have hlength : nas.bytes.length < 128 := by
      rw [IE.value, List.length_append] at hshort
      omega
    rw [IE.value, lengthOctets, if_pos hlength, Mem.holds_append] at hvalue
    have hnas : value.Holds (offset + 1 + 4) nas.bytes := hvalue.2
    cases nas with
    | plain message => exact nasEffectAt_of_plain hnas hknown
    | secured header mac sequenceNumber message hheader => exact nasEffectAt_of_secured hnas hknown
  · exact heffect

end

section

variable {m m' : Mem UInt8}

def StoredCell (k : Nat) : Prop :=
  IdentityCell k ∨ guamiAt ≤ k ∧ k < guamiAt + 6 ∨ gutiAt ≤ k ∧ k < gutiAt + 10

theorem stored_congr (h : ∀ k, StoredCell k → m' k = m k) : stored m' = stored m := by
  have hidentity : identity m' = identity m := identity_congr fun k hk => h k (Or.inl hk)
  have hguami : m'.read guamiAt 6 = m.read guamiAt 6 :=
    Mem.read_congr fun k hlo hhi => h k (Or.inr (Or.inl ⟨hlo, hhi⟩))
  have hguti : m'.read gutiAt 10 = m.read gutiAt 10 :=
    Mem.read_congr fun k hlo hhi => h k (Or.inr (Or.inr ⟨hlo, hhi⟩))
  rw [stored, stored, hidentity, hguami, hguti]

theorem stored_write_outside {p : Nat} {bytes : List UInt8}
    (h : ∀ i < bytes.length, ¬ StoredCell (p + i)) : stored (m.write p bytes) = stored m := by
  apply stored_congr
  intro k hk
  apply Mem.write_outside
  by_contra hinside
  have hat := h (k - p) (by omega)
  rw [show p + (k - p) = k by omega] at hat
  exact hat hk

theorem stored_write_amfUeNgapId {id : List UInt8} (h : id.length ≤ mmeS1apIdSize) :
    stored ((m.write mmeS1apIdAt id).write mmeS1apIdLenAt [UInt8.ofNat id.length]) =
      { stored m with amfUeNgapId := id } := by
  have habove : ∀ p n, mmeS1apIdLenAt < p → ((m.write mmeS1apIdAt id).write mmeS1apIdLenAt
      [UInt8.ofNat id.length]).read p n = m.read p n := by
    intro p n hp
    rw [Mem.read_write_disjoint _ _ _ _ _ (Or.inr hp), Mem.read_write_disjoint _ _ _ _ _ (Or.inr (by
      simp only [mmeS1apIdAt, mmeS1apIdLenAt, mmeS1apIdSize] at *; omega))]
  rw [stored, identity_write_mmeS1apId h, habove _ _ (by decide), habove _ _ (by decide)]
  rfl

theorem stored_write_guami {octets : List UInt8} (h : octets.length = 6) :
    stored (m.write guamiAt octets) = { stored m with guami := octets } := by
  have hidentity : identity (m.write guamiAt octets) = identity m := by
    apply identity_congr
    intro k hk
    apply Mem.write_outside
    simp only [IdentityCell, algorithmsAt, mmeS1apIdAt, mmeS1apIdLenAt, randAt, autnAt,
      guamiAt] at *
    omega
  have hguami : (m.write guamiAt octets).read guamiAt 6 = octets := by
    rw [← h, Mem.read_write_same]
  rw [stored, hidentity, hguami, Mem.read_write_disjoint _ _ _ _ _ (Or.inl (by decide))]
  rfl

theorem stored_store_nasEffectAt (value : Mem UInt8) (offset : Nat) :
    stored ((nasEffectAt value offset).store m) =
      { stored m with nas := (nasEffectAt value offset).update (stored m).nas } := by
  have hchallenge : ∀ rand autn : List UInt8, rand.length = 16 → autn.length = 16 →
      stored ((m.write randAt rand).write autnAt autn) =
        { stored m with nas := { (stored m).nas with rand, autn } } := by
    intro rand autn hrand hautn
    have hread : ∀ p n, p + n ≤ randAt ∨ autnAt + 16 ≤ p →
        ((m.write randAt rand).write autnAt autn).read p n = m.read p n := by
      intro p n hp
      simp only [randAt, autnAt] at *
      rw [Mem.read_write_disjoint _ _ _ _ _ (by omega),
        Mem.read_write_disjoint _ _ _ _ _ (by omega)]
    rw [stored, identity_write_challenge hrand hautn, hread _ _ (Or.inr (by decide)),
      hread _ _ (Or.inl (by decide))]
    rfl
  have halgorithms : ∀ algs, stored (m.write algorithmsAt [algs]) =
      { stored m with nas := { (stored m).nas with algorithms := algs } } := by
    intro algs
    rw [stored, identity_write_algorithms,
      Mem.read_write_disjoint _ _ _ _ _ (Or.inr (by simp [algorithmsAt, guamiAt])),
      Mem.read_write_disjoint _ _ _ _ _ (Or.inr (by simp [algorithmsAt, gutiAt]))]
    rfl
  have hguti : ∀ octets : List UInt8, octets.length = 10 → stored (m.write gutiAt octets) =
      { stored m with nas := { (stored m).nas with guti := octets } } := by
    intro octets hlength
    have hidentity : identity (m.write gutiAt octets) = identity m := by
      apply identity_congr
      intro k hk
      apply Mem.write_outside
      simp only [IdentityCell, algorithmsAt, mmeS1apIdAt, mmeS1apIdLenAt, randAt, autnAt,
        gutiAt] at *
      omega
    have hread : (m.write gutiAt octets).read gutiAt 10 = octets := by
      rw [← hlength, Mem.read_write_same]
    rw [stored, hidentity, hread,
      Mem.read_write_disjoint _ _ _ _ _ (Or.inr (by simp [hlength, gutiAt, guamiAt]))]
    rfl
  rw [nasEffectAt]
  split_ifs
  · exact hguti _ (Mem.read_length ..)
  · rfl
  · exact halgorithms _
  · rfl
  · exact hchallenge _ _ (Mem.read_length ..) (Mem.read_length ..)
  · rfl
  · rfl

theorem stored_pduSessionListStore (value : Mem UInt8) (offset : Nat) :
    stored (pduSessionListStore value offset m) = stored m := by
  have hspare : ∀ (m : Mem UInt8) p (bytes : List UInt8), bytes.length = 4 →
      mmeS1apIdLenAt < p → p + 4 ≤ gutiAt → stored (m.write p bytes) = stored m := by
    intro m p bytes hlength hlo hhi
    apply stored_write_outside
    intro i hi hcell
    simp only [StoredCell, IdentityCell, algorithmsAt, mmeS1apIdAt, mmeS1apIdLenAt, randAt, autnAt,
      guamiAt, gutiAt] at *
    omega
  rw [pduSessionListStore, pduSessionStore]
  split
  · rw [hspare _ _ _ rfl (by decide) (by decide),
      hspare _ _ _ (Mem.read_length ..) (by decide) (by decide),
      hspare _ _ _ (Mem.read_length ..) (by decide) (by decide)]
  · rfl

end

structure Lies (value : Mem UInt8) (offset : Nat) (ies : List IE) : Prop where
  holds : value.Holds offset (itemBytes ies)
  small : ∀ ie ∈ ies, ie.value.length < 16384

def readUpdate (value : Mem UInt8) (stored : Stored) : Nat × IE → Stored
  | (offset, .nasPdu _ _) =>
      { stored with nas := (nasEffectAt value (offset + 1)).update stored.nas }
  | (_, .amfUeNgapId _ id _) => { stored with amfUeNgapId := id }
  | (_, .guami _ _ octets) => { stored with guami := octets.toList }
  | (_, .other _ _ _ _) => stored

section

variable {value m : Mem UInt8} {offset : Nat} {ie : IE} {ies : List IE} {s t : Stored}

theorem mem_of_mem_placed {x : Nat × IE} (hx : x ∈ placed offset ies) : x.2 ∈ ies := by
  induction ies generalizing offset with
  | nil => cases hx
  | cons ie ies ih =>
      rcases List.mem_cons.mp hx with rfl | hx
      · exact List.mem_cons_self
      · exact List.mem_cons_of_mem _ (ih hx)

namespace Lies

theorem head (h : Lies value offset (ie :: ies)) : value.Holds offset ie.bytes :=
  ((Mem.holds_append _ _ _ _).mp h.holds).1

theorem tail (h : Lies value offset (ie :: ies)) : Lies value (offset + ie.size) ies where
  holds := ((Mem.holds_append _ _ _ _).mp h.holds).2
  small := fun ie' hie => h.small ie' (List.mem_cons_of_mem _ hie)

theorem of_mem_placed (h : Lies value offset ies) {x : Nat × IE} (hx : x ∈ placed offset ies) :
    value.Holds x.1 x.2.bytes := by
  induction ies generalizing offset with
  | nil => cases hx
  | cons ie ies ih =>
      rcases List.mem_cons.mp hx with rfl | hx
      · exact h.head
      · exact ih h.tail hx

end Lies

/-- The loop looks for the items where they start if it steps over all but the last. -/
theorem walkStarts_eq_iff (h : Lies value offset ies) :
    walkStarts value ies.length offset = (placed offset ies).map Prod.fst ↔
      ∀ ie ∈ ies.dropLast, ie.Steps := by
  induction ies generalizing offset with
  | nil => simp [walkStarts, placed]
  | cons ie ies ih =>
      cases ies with
      | nil => simp [walkStarts, placed]
      | cons ie' ies =>
          have hnext := behindItem_eq_iff h.head (h.small ie List.mem_cons_self)
          rw [List.dropLast_cons_cons, List.forall_mem_cons, ← hnext, ← ih h.tail]
          simp only [List.length_cons, walkStarts, placed, List.map_cons, List.cons.injEq, true_and]
          apply and_congr_right
          intro hstart
          rw [hstart]

theorem stored_itemStore (h : value.Holds offset ie.bytes) :
    stored (itemStore value (offset + 1) m) = readUpdate value (stored m) (offset, ie) := by
  cases ie with
  | amfUeNgapId criticality id hlength =>
      have hid : value (offset + 1) = idAmfUeNgapId := (holds_item h).1
      have hshort : (IE.amfUeNgapId criticality id hlength).value.length < 128 :=
        lt_of_le_of_lt hlength (by decide)
      obtain ⟨hoctet, hvalue⟩ := holds_short h hshort
      have hnat : (UInt8.ofNat id.length).toNat = id.length :=
        UInt8.toNat_ofNat_of_lt' (lt_of_le_of_lt hlength (by decide))
      have hread : value.read (offset + 1 + 3) id.length = id := hvalue.read rfl
      rw [itemStore, if_pos hid, show value (offset + 1 + 2) = UInt8.ofNat id.length from hoctet,
        hnat, hread, stored_write_amfUeNgapId hlength]
      rfl
  | guami criticality first octets =>
      have hid : value (offset + 1) = idGuami := (holds_item h).1
      have hshort : (IE.guami criticality first octets).value.length < 128 := by
        rw [IE.value, List.length_cons, Vector.length_toList]
        decide
      have hvalue := (holds_short h hshort).2
      rw [IE.value, Mem.holds_cons] at hvalue
      have hread : value.read (offset + 1 + 4) 6 = octets.toList :=
        hvalue.2.read octets.length_toList
      rw [itemStore, hid, if_neg (by decide), if_pos rfl, hread,
        stored_write_guami octets.length_toList]
      rfl
  | nasPdu criticality nas =>
      have hid : value (offset + 1) = idNasPdu := (holds_item h).1
      rw [itemStore, hid, if_neg (by decide), if_neg (by decide), if_neg (by decide), if_pos rfl,
        stored_store_nasEffectAt]
      rfl
  | other id criticality octets hother =>
      have hid : value (offset + 1) = id := (holds_item h).1
      simp only [List.mem_cons, List.not_mem_nil, or_false, not_or] at hother
      simp only [itemStore, hid, hother, if_false, readUpdate]
      split
      · exact stored_pduSessionListStore _ _
      · rfl

theorem stored_foldl (h : Lies value offset ies) :
    stored (((placed offset ies).map Prod.fst).foldl
      (fun m start => itemStore value (start + 1) m) m) =
        (placed offset ies).foldl (readUpdate value) (stored m) := by
  induction ies generalizing offset m with
  | nil => rfl
  | cons ie ies ih =>
      rw [placed, List.map_cons, List.foldl_cons, List.foldl_cons, ih h.tail,
        stored_itemStore h.head]

theorem foldl_readUpdate (h : Lies value offset ies)
    (hreads : ∀ x ∈ placed offset ies, ReadsNas value x) :
    (placed offset ies).foldl (readUpdate value) s = ies.foldl IE.update s := by
  induction ies generalizing offset s with
  | nil => rfl
  | cons ie ies ih =>
      rw [placed, List.forall_mem_cons] at hreads
      have hhead : readUpdate value s (offset, ie) = ie.update s := by
        cases ie with
        | nasPdu criticality nas => rw [readUpdate, readsNas_eq h.head hreads.1, IE.update]
        | amfUeNgapId criticality id hlength => rfl
        | guami criticality first octets => rfl
        | other id criticality octets hother => rfl
      rw [placed, List.foldl_cons, List.foldl_cons, hhead, ih h.tail hreads.2]

theorem nas_foldl_readUpdate (h : idNasPdu ∉ ies.map IE.id) :
    ((placed offset ies).foldl (readUpdate value) s).nas = s.nas := by
  induction ies generalizing offset s with
  | nil => rfl
  | cons ie ies ih =>
      rw [List.map_cons, List.mem_cons, not_or] at h
      cases ie with
      | nasPdu criticality nas => exact absurd rfl h.1
      | amfUeNgapId criticality id hlength => exact ih h.2
      | guami criticality first octets => exact ih h.2
      | other id criticality octets hother => exact ih h.2

theorem nas_foldl_update (h : idNasPdu ∉ ies.map IE.id) :
    (ies.foldl IE.update s).nas = s.nas := by
  induction ies generalizing s with
  | nil => rfl
  | cons ie ies ih =>
      rw [List.map_cons, List.mem_cons, not_or] at h
      cases ie with
      | nasPdu criticality nas => exact absurd rfl h.1
      | amfUeNgapId criticality id hlength => exact ih h.2
      | guami criticality first octets => exact ih h.2
      | other id criticality octets hother => exact ih h.2

theorem effect_eq_of_update {e e' : NasEffect} {f g : NasFields} (hrand : f.rand ≠ g.rand)
    (halgs : f.algorithms ≠ g.algorithms) (hguti : f.guti ≠ g.guti)
    (hf : e.update f = e'.update f) (hg : e.update g = e'.update g) : e = e' := by
  cases f
  cases g
  cases e <;> cases e' <;> simp_all [NasEffect.update]

/-- A walk that leaves what the message says reads the NAS message. -/
theorem readsNas_of_foldl (h : Lies value offset ies) (hdistinct : (ies.map IE.id).Nodup)
    (hrand : s.nas.rand ≠ t.nas.rand) (halgs : s.nas.algorithms ≠ t.nas.algorithms)
    (hguti : s.nas.guti ≠ t.nas.guti)
    (hs : (placed offset ies).foldl (readUpdate value) s = ies.foldl IE.update s)
    (ht : (placed offset ies).foldl (readUpdate value) t = ies.foldl IE.update t) :
    ∀ x ∈ placed offset ies, ReadsNas value x := by
  induction ies generalizing offset s t with
  | nil => simp [placed]
  | cons ie ies ih =>
      rw [List.map_cons, List.nodup_cons] at hdistinct
      rw [placed, List.foldl_cons, List.foldl_cons] at hs ht
      rw [placed, List.forall_mem_cons]
      cases ie with
      | nasPdu criticality nas =>
          have hrest : ∀ x ∈ placed (offset + (IE.nasPdu criticality nas).size) ies,
              ReadsNas value x := by
            rintro ⟨p, ie⟩ hx
            have hmem := mem_of_mem_placed hx
            cases ie with
            | nasPdu criticality' nas' => exact absurd (List.mem_map_of_mem hmem) hdistinct.1
            | amfUeNgapId criticality id hlength => trivial
            | guami criticality first octets => trivial
            | other id criticality octets hother => trivial
          have hns := congrArg Stored.nas hs
          have hnt := congrArg Stored.nas ht
          rw [nas_foldl_readUpdate hdistinct.1, nas_foldl_update hdistinct.1] at hns hnt
          exact ⟨Or.inr (effect_eq_of_update hrand halgs hguti hns hnt), hrest⟩
      | amfUeNgapId criticality id hlength =>
          exact ⟨trivial, ih h.tail hdistinct.2 (s := { s with amfUeNgapId := id })
            (t := { t with amfUeNgapId := id }) hrand halgs hguti hs ht⟩
      | guami criticality first octets =>
          exact ⟨trivial, ih h.tail hdistinct.2 (s := { s with guami := octets.toList })
            (t := { t with guami := octets.toList }) hrand halgs hguti hs ht⟩
      | other id criticality octets hother =>
          exact ⟨trivial, ih h.tail hdistinct.2 hrand halgs hguti hs ht⟩

end

theorem length_le_itemBytes (ies : List IE) : ies.length ≤ (itemBytes ies).length ∧
    ∀ ie ∈ ies, ie.value.length ≤ (itemBytes ies).length := by
  induction ies with
  | nil => simp
  | cons ie ies ih =>
      have hsplit : (itemBytes (ie :: ies)).length = ie.size + (itemBytes ies).length :=
        List.length_append
      have hsize := ie.size_eq
      rw [hsplit, List.length_cons, List.forall_mem_cons]
      refine ⟨by omega, by omega, ?_⟩
      intro ie' hie
      have hle := ih.2 ie' hie
      omega

section

variable {value m : Mem UInt8} {pdu : Pdu}

theorem header_iff : (pdu.content.length < 128 ↔ pdu.caller.expected.items = 4) ↔
    pdu.caller.expected.items = 3 + (lengthOctets pdu.content.length).length := by
  have hitems : pdu.caller.expected.items = 4 ∨ pdu.caller.expected.items = 5 := by
    cases pdu.caller <;> decide
  rw [length_lengthOctets]
  split <;> omega

theorem Pdu.lies (h : value.Holds 0 pdu.bytes) :
    word value (4 + (lengthOctets pdu.content.length).length) = pdu.ies.length ∧
      Lies value (6 + (lengthOctets pdu.content.length).length) pdu.ies := by
  have hbytes := length_le_itemBytes pdu.ies
  have hsmall : (itemBytes pdu.ies).length < 16384 := by
    have hcontent := pdu.small
    rw [contentBytes] at hcontent
    simp only [List.length_cons] at hcontent
    omega
  rw [Pdu.bytes, Mem.holds_cons, Mem.holds_cons, Mem.holds_cons, Mem.holds_append] at h
  obtain ⟨_, _, _, _, hcontent⟩ := h
  generalize (lengthOctets pdu.content.length).length = l at hcontent ⊢
  rw [Pdu.content, contentBytes, Mem.holds_cons, Mem.holds_cons, Mem.holds_cons] at hcontent
  obtain ⟨_, hhigh, hlow, hitems⟩ := hcontent
  rw [show 0 + 1 + 1 + 1 + l + 1 = 4 + l by omega] at hhigh hlow
  rw [show 0 + 1 + 1 + 1 + l + 1 + 1 + 1 = 6 + l by omega] at hitems
  refine ⟨?_, hitems, fun ie hie => lt_of_le_of_lt (hbytes.2 ie hie) hsmall⟩
  rw [word, hhigh, hlow, UInt8.toNat_ofNat', UInt8.toNat_ofNat']
  omega

def startsOf (value : Mem UInt8) (pdu : Pdu) : List Nat :=
  walkStarts value (word value (pdu.caller.expected.items + 1)) (pdu.caller.expected.items + 3)

theorem accepts_of_holds (h : value.Holds 0 pdu.bytes) :
    value 0 = pdu.caller.expected.form ∧ value 1 = pdu.caller.expected.code ∧
      (value 2 = pdu.caller.expected.criticality ∨ pdu.caller.expected.strict = false) := by
  rw [Pdu.bytes, Mem.holds_cons, Mem.holds_cons, Mem.holds_cons] at h
  obtain ⟨hform, hcode, hcriticality, _⟩ := h
  refine ⟨hform, hcode, ?_⟩
  rw [show value 2 = pdu.criticality from hcriticality]
  exact pdu.accepted

theorem yields_analyze (h : value.Holds 0 pdu.bytes)
    {post : Nat → Mem UInt8 → List Nat → Prop} :
    Yields value pdu.caller.analyze m [] post ↔
      post 0 ((startsOf value pdu).foldl (fun m start => itemStore value (start + 1) m) m)
        (startsOf value pdu) := by
  obtain ⟨hform, hcode, hcriticality⟩ := accepts_of_holds h
  rw [Caller.analyze_eq, analyzePdu]
  simp [accepts, hform, hcode, hcriticality, analyzeMessageItems, yields_ite, yields_analyzeItems,
    startsOf]

theorem yieldsNull_analyze (h : value.Holds 0 pdu.bytes) {post : Nat → List Nat → Prop} :
    YieldsNull value pdu.caller.analyze [] post ↔
      (∀ start ∈ startsOf value pdu, Silent value (start + 1)) ∧ post 0 (startsOf value pdu) := by
  obtain ⟨hform, hcode, hcriticality⟩ := accepts_of_holds h
  rw [Caller.analyze_eq, analyzePdu]
  simp [accepts, hform, hcode, hcriticality, analyzeMessageItems, yieldsNull_ite,
    yieldsNull_analyzeItems, startsOf]

/-- The loop starts where the items do exactly if the header is as long as expected and it steps
over all items but the last. -/
theorem startsOf_eq_iff (h : value.Holds 0 pdu.bytes) :
    startsOf value pdu = pdu.placed.map Prod.fst ↔
      (pdu.content.length < 128 ↔ pdu.caller.expected.items = 4) ∧
        ∀ ie ∈ pdu.ies.dropLast, ie.Steps := by
  obtain ⟨hcount, hlies⟩ := Pdu.lies h
  rw [header_iff]
  by_cases hitems : pdu.caller.expected.items = 3 + (lengthOctets pdu.content.length).length
  · rw [startsOf, hitems, show 3 + (lengthOctets pdu.content.length).length + 1 =
      4 + (lengthOctets pdu.content.length).length by omega, hcount,
      show 3 + (lengthOctets pdu.content.length).length + 3 =
        6 + (lengthOctets pdu.content.length).length by omega, Pdu.placed, walkStarts_eq_iff hlies]
    exact (and_iff_right rfl).symm
  · refine iff_of_false ?_ fun hsteps => hitems hsteps.1
    intro hstarts
    rw [startsOf, Pdu.placed] at hstarts
    cases hies : pdu.ies with
    | nil => exact pdu.nonempty hies
    | cons ie ies =>
        rw [hies, placed, List.map_cons] at hstarts
        cases hword : word value (pdu.caller.expected.items + 1) with
        | zero =>
            rw [hword] at hstarts
            exact absurd hstarts (by simp [walkStarts])
        | succ n =>
            rw [hword, walkStarts] at hstarts
            have hfirst := (List.cons.inj hstarts).1
            omega

theorem walks_some (h : value.Holds 0 pdu.bytes) :
    Walks value pdu (some m) ↔ startsOf value pdu = pdu.placed.map Prod.fst ∧
      pdu.placed.foldl (readUpdate value) (stored m) = pdu.ies.foldl IE.update (stored m) := by
  have hlies := (Pdu.lies h).2
  have hfold : stored ((pdu.placed.map Prod.fst).foldl
      (fun m start => itemStore value (start + 1) m) m) =
        pdu.placed.foldl (readUpdate value) (stored m) := stored_foldl hlies
  constructor
  · rintro ⟨hresult, hemitted, hstate⟩
    obtain ⟨m', hm⟩ := exists_state value pdu.caller.analyze m
    rw [hm] at hstate
    have hyields : Yields value pdu.caller.analyze m [] fun _ m' s =>
        s = pdu.placed.map Prod.fst ∧ stored m' = pdu.ies.foldl IE.update (stored m) :=
      yields_iff.mpr ⟨0, m', hresult, hm, hemitted, Option.some.inj hstate⟩
    obtain ⟨hstarts, hstored⟩ := (yields_analyze h).mp hyields
    rw [hstarts, hfold] at hstored
    exact ⟨hstarts, hstored⟩
  · rintro ⟨hstarts, hstored⟩
    have hyields : Yields value pdu.caller.analyze m [] fun b m' s => b = 0 ∧
        s = pdu.placed.map Prod.fst ∧ stored m' = pdu.ies.foldl IE.update (stored m) := by
      rw [yields_analyze h, hstarts, hfold]
      exact ⟨rfl, rfl, hstored⟩
    obtain ⟨_, m', hresult, hm, rfl, hemitted, hm'⟩ := yields_iff.mp hyields
    rw [Walks, hm]
    exact ⟨hresult, hemitted, congrArg some hm'⟩

theorem silent_of_isForEnb {offset : Nat} {ie : IE} (h : value.Holds offset ie.bytes)
    (hforEnb : ie.IsForEnb) : Silent value (offset + 1) := by
  rw [IE.IsForEnb, ← (holds_item h).1] at hforEnb
  simp only [List.mem_cons, List.not_mem_nil, or_false, not_or] at hforEnb
  exact ⟨hforEnb.1, hforEnb.2.1, fun hlist => absurd hlist hforEnb.2.2.2,
    fun hnas => absurd hnas hforEnb.2.2.1⟩

theorem walks_null (h : value.Holds 0 pdu.bytes) (hforEnb : ∀ ie ∈ pdu.ies, ie.IsForEnb) :
    Walks value pdu none ↔ startsOf value pdu = pdu.placed.map Prod.fst := by
  have hlies := (Pdu.lies h).2
  constructor
  · rintro ⟨hresult, hemitted, hstate⟩
    have hyields : YieldsNull value pdu.caller.analyze [] fun _ s =>
        s = pdu.placed.map Prod.fst :=
      yieldsNull_iff.mpr ⟨0, hresult, Option.map_eq_none_iff.mp hstate, hemitted⟩
    exact ((yieldsNull_analyze h).mp hyields).2
  · intro hstarts
    have hsilent : ∀ start ∈ pdu.placed.map Prod.fst, Silent value (start + 1) := by
      intro start hstart
      obtain ⟨x, hx, rfl⟩ := List.mem_map.mp hstart
      exact silent_of_isForEnb (hlies.of_mem_placed hx) (hforEnb _ (mem_of_mem_placed hx))
    have hyields : YieldsNull value pdu.caller.analyze [] fun b s =>
        b = 0 ∧ s = pdu.placed.map Prod.fst := by
      rw [yieldsNull_analyze h, hstarts]
      exact ⟨hsilent, rfl, rfl⟩
    obtain ⟨_, hresult, hstate, rfl, hemitted⟩ := yieldsNull_iff.mp hyields
    rw [Walks, hstate]
    exact ⟨hresult, hemitted, rfl⟩

end

/-- The walk over a message is right exactly if its length takes the octets that the caller expects,
the parser steps over all its items but the last, and it reads the NAS message. -/
theorem walksPdu_iff (pdu : Pdu) (behind : Mem UInt8) :
    WalksPdu pdu behind ↔ WalkCondition pdu (behind.write 0 pdu.bytes) := by
  have hholds : (behind.write 0 pdu.bytes).Holds 0 pdu.bytes := Mem.read_write_same ..
  rw [WalksPdu]
  generalize behind.write 0 pdu.bytes = value at *
  have hlies := (Pdu.lies hholds).2
  by_cases hsetup : pdu.caller = .ngSetupResponse
  · have hrecord : ∀ m, pdu.caller.record m = none := fun m => by rw [hsetup]; rfl
    have hforEnb := pdu.setup hsetup
    have hreads : ∀ x ∈ pdu.placed, ReadsNas value x := by
      rintro ⟨p, ie⟩ hx
      cases ie with
      | nasPdu criticality nas =>
          exact absurd (hforEnb _ (mem_of_mem_placed hx)) fun h => h (by simp [IE.id])
      | amfUeNgapId criticality id hlength => trivial
      | guami criticality first octets => trivial
      | other id criticality octets hother => trivial
    simp only [hrecord, walks_null hholds hforEnb, startsOf_eq_iff hholds]
    exact ⟨fun h => ⟨(h fun _ => 0).1, (h fun _ => 0).2, hreads⟩, fun h _ => ⟨h.header, h.steps⟩⟩
  · have hrecord : ∀ m, pdu.caller.record m = some m := by
      intro m
      cases hcaller : pdu.caller
      case ngSetupResponse => exact absurd hcaller hsetup
      all_goals rfl
    simp only [hrecord, walks_some hholds, startsOf_eq_iff hholds]
    constructor
    · intro h
      have hreads := readsNas_of_foldl hlies pdu.distinct (by decide) (by decide) (by decide)
        (h fun _ => 0).2 (h fun _ => 1).2
      exact ⟨(h fun _ => 0).1.1, (h fun _ => 0).1.2, hreads⟩
    · intro h m
      exact ⟨⟨h.header, h.steps⟩, foldl_readUpdate hlies h.readsNas⟩

def ueIds : List IE :=
  [.amfUeNgapId 0x00 [0x00, 0x01] (by decide), .other 0x55 0x00 [0x00, 0x01] (by decide)]

def shortRequest : Pdu where
  caller := .ngRegistrationRequest
  criticality := criticalityReject
  first := 0x00
  ies := ueIds ++ [.guami 0x00 0x00 (Vector.replicate 6 0x11)]
  accepted := Or.inl rfl
  nonempty := by decide
  distinct := by decide
  small := by decide
  setup := by
    intro h
    cases h

theorem not_walksPdu : ¬ ∀ pdu behind, WalksPdu pdu behind := by
  intro h
  have hholds : (Mem.write (fun _ => 0) 0 shortRequest.bytes).Holds 0 shortRequest.bytes :=
    Mem.read_write_same ..
  have hwalks := (walks_some hholds).mp (h shortRequest (fun _ => 0) fun _ => 0)
  have hheader := ((startsOf_eq_iff hholds).mp hwalks.1).1
  exact absurd (hheader.mp (by decide)) (by decide)

end PublicCloudCore.RanEmulator.NgapAnalysis
