import PublicCloudCore.RanEmulator.NgapWalk

/-!
# The parameters of a PDU session

PDU Session Resource Setup Requests in the layout that the parser expects, with their parameters
left open. The parser takes the first octet 0x29 behind the header of the NAS message for the
identifier of the PDU address, and the first octets 00 8b from there on for that of the GTP tunnel.
-/

namespace PublicCloudCore.RanEmulator.NgapAnalysis

open Framework Framework.Parser UeRecord

structure Parameters where
  pduAddress : Vector UInt8 4
  transportLayerAddress : Vector UInt8 4
  teid : Vector UInt8 4

/-- The item of a session without its parameters: what is in front of the NAS-PDU, the protected
NAS-PDU with the octets before and after the PDU address, and the transfer with the octets in front
of the GTP tunnel and behind it. -/
structure SessionItem where
  first : UInt8
  flags : UInt8
  sessionId : UInt8
  header : UInt8
  mac : Vector UInt8 4
  sequenceNumber : UInt8
  before : List UInt8
  after : List UInt8
  between : List UInt8
  criticality : UInt8
  preamble : Vector UInt8 2
  rest : List UInt8
  isProtected : header ∈ [0x01, 0x02, 0x03, 0x04]

namespace SessionItem

def leading (item : SessionItem) : List UInt8 :=
  item.mac.toList ++ item.sequenceNumber :: item.before

/-- Between the identifier of the PDU address and the second octet of that of the GTP tunnel. -/
def middle (item : SessionItem) (pduAddress : Vector UInt8 4) : List UInt8 :=
  0x05 :: 0x01 :: (pduAddress.toList ++ (item.after ++ (item.between ++ [0x00])))

def nas (item : SessionItem) (pduAddress : Vector UInt8 4) : List UInt8 :=
  0x7e :: item.header ::
    (item.leading ++ 0x29 :: 0x05 :: 0x01 :: (pduAddress.toList ++ item.after))

def value (item : SessionItem) (p : Parameters) : List UInt8 :=
  item.first :: item.flags :: item.sessionId :: UInt8.ofNat (item.nas p.pduAddress).length ::
    (item.nas p.pduAddress ++ (item.between ++ 0x00 :: 0x8b :: item.criticality :: 0x0a ::
      (item.preamble.toList ++ (p.transportLayerAddress.toList ++ (p.teid.toList ++ item.rest)))))

/-- Where the identifier of the PDU address is, from the identifier of the item. -/
def addressIndex (item : SessionItem) : Nat := 9 + item.leading.length

def gtpIndex (item : SessionItem) : Nat :=
  item.addressIndex + 8 + item.after.length + item.between.length

end SessionItem

def sessionIe (criticality : UInt8) (session : SessionItem) (p : Parameters) : IE :=
  .other idPduSessionResourceSetupListSuReq criticality (session.value p) (by decide)

/-- The other items of the request are such that the parser gets to the session and past it. -/
structure Request where
  first : UInt8
  front : List IE
  criticality : UInt8
  session : SessionItem
  back : List IE
  nasShort : ∀ pduAddress, (session.nas pduAddress).length < 128
  sessionShort : ∀ p, (session.value p).length < 256
  steps : ∀ ie ∈ front ++ back.dropLast, ie.Steps
  distinct : (front.map IE.id ++ idPduSessionResourceSetupListSuReq :: back.map IE.id).Nodup
  long : ∀ p, 128 ≤ (contentBytes first (front ++ sessionIe criticality session p :: back)).length ∧
    (contentBytes first (front ++ sessionIe criticality session p :: back)).length < 16384

def Request.pdu (r : Request) (p : Parameters) : Pdu where
  caller := .ngPduSessionEstablishmentAccept
  criticality := criticalityReject
  first := r.first
  ies := r.front ++ sessionIe r.criticality r.session p :: r.back
  accepted := Or.inl rfl
  nonempty := by simp
  distinct := by
    rw [List.map_append, List.map_cons]
    exact r.distinct
  small := (r.long p).2
  setup := by
    intro h
    cases h

structure SessionFields where
  pdnIp : List UInt8
  spgwIp : List UInt8
  gtpTeid : List UInt8

def sessionFields (record : Mem UInt8) : SessionFields where
  pdnIp := record.read pdnIpAt 4
  spgwIp := record.read spgwIpAt 4
  gtpTeid := record.read gtpTeidAt 4

/-- The TEID is a number of the emulator's own byte order. -/
def Parameters.fields (p : Parameters) : SessionFields where
  pdnIp := p.pduAddress.toList
  spgwIp := p.transportLayerAddress.toList
  gtpTeid := EnbThreads.littleEndian (longWord (Mem.ofList p.teid.toList 0) 0)

/-- What the record of a UE says of its session behind a request. -/
def sessionBehind (r : Request) (behind m : Mem UInt8) (p : Parameters) : Option SessionFields :=
  (analyzeNGPDUSessionEstablishmentAccept.exec (serve (behind.write 0 (r.pdu p).bytes))
    (some m)).state.map sessionFields

/-- Whatever the PDU address, it is stored; and with this one, whatever the tunnel, its parameters
are. -/
structure ParametersStored (r : Request) (behind : Mem UInt8) (pduAddress : Vector UInt8 4) :
    Prop where
  address : ∀ m p, (sessionBehind r behind m p).map SessionFields.pdnIp =
    some p.pduAddress.toList
  tunnel : ∀ m p, p.pduAddress = pduAddress → sessionBehind r behind m p = some p.fields

/-- No octet in front of the PDU address is like its identifier, and no two octets from there to the
GTP tunnel are like its identifier. -/
structure Unambiguous (session : SessionItem) (pduAddress : Vector UInt8 4) : Prop where
  address : 0x29 ∉ session.leading
  tunnel : ¬ [0x00, 0x8b] <:+: session.middle pduAddress

section

variable {value value' : Mem UInt8} {offset k : Nat} {item : SessionItem} {p q : Parameters}

theorem length_middle (pduAddress : Vector UInt8 4) :
    (item.middle pduAddress).length = 7 + item.after.length + item.between.length := by
  simp only [SessionItem.middle, List.length_cons, List.length_append, Vector.length_toList,
    List.length_nil]
  omega

theorem length_nas (pduAddress : Vector UInt8 4) :
    (item.nas pduAddress).length = 9 + item.leading.length + item.after.length := by
  simp only [SessionItem.nas, List.length_cons, List.length_append, Vector.length_toList]
  omega

theorem length_value (p : Parameters) :
    (item.value p).length = item.gtpIndex + 10 + item.rest.length := by
  simp only [SessionItem.value, List.length_cons, List.length_append, Vector.length_toList,
    length_nas, SessionItem.gtpIndex, SessionItem.addressIndex]
  omega

def SessionItem.opening (item : SessionItem) : List UInt8 :=
  0x7e :: item.header :: (item.leading ++ [0x29, 0x05, 0x01])

def SessionItem.toTunnel (item : SessionItem) (pduAddress : Vector UInt8 4) : List UInt8 :=
  0x7e :: item.header :: (item.leading ++ 0x29 :: (item.middle pduAddress ++
    0x8b :: item.criticality :: 0x0a :: item.preamble.toList))

theorem length_opening : item.opening.length = item.addressIndex - 4 := by
  simp only [SessionItem.opening, SessionItem.addressIndex, List.length_cons, List.length_append,
    List.length_nil]
  omega

theorem length_toTunnel (pduAddress : Vector UInt8 4) :
    (item.toTunnel pduAddress).length = item.gtpIndex - 2 := by
  simp only [SessionItem.toTunnel, SessionItem.gtpIndex, SessionItem.addressIndex, List.length_cons,
    List.length_append, Vector.length_toList, length_middle]
  omega

structure SessionHolds (value : Mem UInt8) (offset : Nat) (item : SessionItem) (p : Parameters) :
    Prop where
  length : (value (offset + 2)).toNat = (item.value p).length
  holds : value.Holds (offset + 3) (item.value p)

namespace SessionHolds

theorem toTunnel_append (h : SessionHolds value offset item p) : value.Holds (offset + 7)
    (item.toTunnel p.pduAddress ++
      (p.transportLayerAddress.toList ++ (p.teid.toList ++ item.rest))) := by
  have hholds := h.holds
  rw [SessionItem.value, Mem.holds_cons, Mem.holds_cons, Mem.holds_cons, Mem.holds_cons] at hholds
  have hvalue := hholds.2.2.2.2
  simpa only [SessionItem.nas, SessionItem.toTunnel, SessionItem.middle, List.cons_append,
    List.append_assoc, List.nil_append] using hvalue

theorem toTunnel (h : SessionHolds value offset item p) :
    value.Holds (offset + 7) (item.toTunnel p.pduAddress) :=
  ((Mem.holds_append _ _ _ _).mp h.toTunnel_append).1

theorem opening_append (h : SessionHolds value offset item p) : value.Holds (offset + 7)
    (item.opening ++ (p.pduAddress.toList ++ (item.after ++ item.between))) := by
  have hholds := h.holds
  rw [SessionItem.value, Mem.holds_cons, Mem.holds_cons, Mem.holds_cons, Mem.holds_cons,
    ← List.append_assoc, Mem.holds_append] at hholds
  have hvalue := hholds.2.2.2.2.1
  simpa only [SessionItem.nas, SessionItem.opening, List.cons_append, List.append_assoc,
    List.nil_append] using hvalue

theorem opening (h : SessionHolds value offset item p) :
    value.Holds (offset + 7) item.opening :=
  ((Mem.holds_append _ _ _ _).mp h.opening_append).1

theorem pduAddress (h : SessionHolds value offset item p) :
    value.read (offset + item.addressIndex + 3) 4 = p.pduAddress.toList := by
  have hvalue := ((Mem.holds_append _ _ _ _).mp h.opening_append).2
  rw [length_opening, Mem.holds_append, show offset + 7 + (item.addressIndex - 4) =
    offset + item.addressIndex + 3 by simp only [SessionItem.addressIndex]; omega] at hvalue
  exact hvalue.1.read p.pduAddress.length_toList

theorem tunnel (h : SessionHolds value offset item p) :
    value.Holds (offset + item.gtpIndex + 5) p.transportLayerAddress.toList ∧
      value.Holds (offset + item.gtpIndex + 9) p.teid.toList := by
  have hvalue := ((Mem.holds_append _ _ _ _).mp h.toTunnel_append).2
  rw [length_toTunnel, Mem.holds_append, Mem.holds_append, Vector.length_toList,
    show offset + 7 + (item.gtpIndex - 2) = offset + item.gtpIndex + 5 by
      simp only [SessionItem.gtpIndex, SessionItem.addressIndex]; omega] at hvalue
  exact ⟨hvalue.1, hvalue.2.1⟩

theorem places (h : SessionHolds value offset item p) :
    value (offset + 7) = 0x7e ∧ value (offset + 8) = item.header ∧
      value.Holds (offset + 9) item.leading ∧ value (offset + item.addressIndex) = 0x29 ∧
        value.Holds (offset + item.addressIndex + 1) (item.middle p.pduAddress) ∧
          value (offset + item.gtpIndex) = 0x8b := by
  have hvalue := h.toTunnel
  rw [SessionItem.toTunnel, Mem.holds_cons, Mem.holds_cons, Mem.holds_append, Mem.holds_cons,
    Mem.holds_append, Mem.holds_cons, length_middle] at hvalue
  obtain ⟨hdiscriminator, hheader, hleading, haddress, hmiddle, hgtp, _⟩ := hvalue
  rw [show offset + 7 + 1 + 1 + item.leading.length = offset + item.addressIndex by
    simp only [SessionItem.addressIndex]; omega] at haddress hmiddle hgtp
  rw [show offset + item.addressIndex + 1 + (7 + item.after.length + item.between.length) =
    offset + item.gtpIndex by simp only [SessionItem.gtpIndex]; omega] at hgtp
  exact ⟨hdiscriminator, hheader, hleading, haddress, hmiddle, hgtp⟩

theorem gtpIndex_lt (h : SessionHolds value offset item p) :
    item.gtpIndex < scanBound value offset := by
  rw [scanBound, h.length, length_value]
  omega

end SessionHolds

theorem pduAddressAt_eq (h : SessionHolds value offset item p) (hleading : 0x29 ∉ item.leading) :
    pduAddressAt value offset = item.addressIndex := by
  obtain ⟨hdiscriminator, hheader, hholds, haddress, _⟩ := h.places
  have hbound := h.gtpIndex_lt
  apply firstFrom_eq (by simp only [SessionItem.addressIndex]; omega)
    (by simp only [SessionItem.gtpIndex] at hbound; omega) haddress
  intro k hlo hhi hk
  rcases (by omega : k = 7 ∨ k = 8 ∨ 9 ≤ k) with rfl | rfl | hnine
  · rw [hdiscriminator] at hk
    exact absurd hk (by decide)
  · rw [hheader] at hk
    exact absurd (hk ▸ item.isProtected) (by decide)
  · apply hleading
    rw [hholds.mem_iff]
    exact ⟨k - 9, by simp only [SessionItem.addressIndex] at hhi; omega,
      by rw [show offset + 9 + (k - 9) = offset + k by omega, hk]⟩

theorem exists_of_mem_leading (h : SessionHolds value offset item p)
    (hleading : 0x29 ∈ item.leading) :
    ∃ i, 7 ≤ i ∧ i < item.addressIndex ∧ value (offset + i) = 0x29 := by
  obtain ⟨i, hi, hat⟩ := h.places.2.2.1.mem_iff.mp hleading
  exact ⟨9 + i, by omega, by simp only [SessionItem.addressIndex]; omega,
    by rw [← Nat.add_assoc, hat]⟩

theorem gtpIdAt_eq (h : SessionHolds value offset item p)
    (haddress : pduAddressAt value offset = item.addressIndex)
    (hmiddle : ¬ [0x00, 0x8b] <:+: item.middle p.pduAddress) :
    gtpIdAt value offset = item.gtpIndex := by
  obtain ⟨_, _, _, hidentifier, hholds, hgtp⟩ := h.places
  have hbound := h.gtpIndex_lt
  have hcells := hholds
  rw [SessionItem.middle, Mem.holds_cons, Mem.holds_cons, Mem.holds_append, Mem.holds_append,
    Mem.holds_append, Mem.holds_cons, Vector.length_toList] at hcells
  obtain ⟨hfive, _, _, _, _, hzero, _⟩ := hcells
  rw [gtpIdAt, haddress]
  apply firstFrom_eq (by simp only [SessionItem.gtpIndex]; omega) (by omega)
  · refine ⟨hgtp, ?_⟩
    rw [← hzero]
    congr 1
    simp only [SessionItem.gtpIndex]
    omega
  · rintro k hlo hhi ⟨hk, hbefore⟩
    rcases (by omega : k = item.addressIndex ∨ k = item.addressIndex + 1 ∨
      item.addressIndex + 2 ≤ k) with rfl | rfl | htwo
    · rw [hidentifier] at hk
      exact absurd hk (by decide)
    · rw [← Nat.add_assoc, hfive] at hk
      exact absurd hk (by decide)
    · apply hmiddle
      rw [hholds.pair_infix_iff, length_middle]
      refine ⟨k - item.addressIndex - 2, ?_, ?_, ?_⟩
      · simp only [SessionItem.gtpIndex] at hhi
        omega
      · rw [← hbefore]
        congr 1
        omega
      · rw [← hk]
        congr 1
        omega

theorem exists_of_infix_middle (h : SessionHolds value offset item p)
    (hmiddle : [0x00, 0x8b] <:+: item.middle p.pduAddress) :
    ∃ i, item.addressIndex ≤ i ∧ i < item.gtpIndex ∧ value (offset + i) = 0x8b ∧
      value (offset + i - 1) = 0x00 := by
  obtain ⟨i, hi, hzero, hat⟩ := h.places.2.2.2.2.1.pair_infix_iff.mp hmiddle
  rw [length_middle] at hi
  refine ⟨item.addressIndex + 2 + i, by omega, by simp only [SessionItem.gtpIndex]; omega, ?_, ?_⟩
  · rw [← hat]
    congr 1
    omega
  · rw [← hzero]
    congr 1
    omega

theorem pduAddressAt_congr (h : SessionHolds value offset item p)
    (h' : SessionHolds value' offset item q) (hleading : 0x29 ∈ item.leading) :
    pduAddressAt value offset = pduAddressAt value' offset ∧
      pduAddressAt value offset < item.addressIndex := by
  obtain ⟨i, hlo, hhi, hat⟩ := exists_of_mem_leading h hleading
  have hbound : scanBound value offset = scanBound value' offset := by
    rw [scanBound, scanBound, h.length, h'.length, length_value, length_value]
  constructor
  · rw [pduAddressAt, pduAddressAt, ← hbound]
    apply firstFrom_congr hlo hat
    intro k hk hki
    rw [h.opening.cell_eq h'.opening (by omega) (by rw [length_opening]; omega)]
  · exact lt_of_le_of_lt (firstFrom_le hlo hat) hhi

theorem gtpIdAt_congr (h : SessionHolds value offset item p)
    (h' : SessionHolds value' offset item q) (hp : p.pduAddress = q.pduAddress)
    (haddress : pduAddressAt value offset = item.addressIndex)
    (haddress' : pduAddressAt value' offset = item.addressIndex)
    (hmiddle : [0x00, 0x8b] <:+: item.middle p.pduAddress) :
    gtpIdAt value offset = gtpIdAt value' offset ∧ item.addressIndex ≤ gtpIdAt value offset ∧
      gtpIdAt value offset < item.gtpIndex := by
  obtain ⟨i, hlo, hhi, hat⟩ := exists_of_infix_middle h hmiddle
  have hbound : scanBound value offset = scanBound value' offset := by
    rw [scanBound, scanBound, h.length, h'.length, length_value, length_value]
  have hcells := h'.toTunnel
  rw [← hp] at hcells
  have hcell : ∀ k, 7 ≤ k → k < item.gtpIndex → value (offset + k) = value' (offset + k) :=
    fun k hk hki => h.toTunnel.cell_eq hcells (by omega) (by rw [length_toTunnel]; omega)
  rw [gtpIdAt, gtpIdAt, haddress, haddress', ← hbound]
  refine ⟨?_, le_firstFrom, lt_of_le_of_lt (firstFrom_le hlo hat) hhi⟩
  apply firstFrom_congr hlo hat
  intro k hk hki
  have hseven : 8 ≤ k := by
    simp only [SessionItem.addressIndex] at hk
    omega
  rw [hcell k (by omega) (by omega), show offset + k - 1 = offset + (k - 1) by omega,
    hcell (k - 1) (by omega) (by omega)]

end

section

variable {m m' : Mem UInt8}

def SessionCell (k : Nat) : Prop :=
  spgwIpAt ≤ k ∧ k < spgwIpAt + 4 ∨ gtpTeidAt ≤ k ∧ k < gtpTeidAt + 4 ∨
    pdnIpAt ≤ k ∧ k < pdnIpAt + 4

theorem sessionFields_write_outside {p : Nat} {bytes : List UInt8}
    (h : p + bytes.length ≤ spgwIpAt ∨ pdnIpAt + 4 ≤ p) :
    sessionFields (m.write p bytes) = sessionFields m := by
  have hcell : ∀ k, SessionCell k → m.write p bytes k = m k := by
    intro k hk
    apply Mem.write_outside
    simp only [SessionCell, spgwIpAt, gtpTeidAt, pdnIpAt] at *
    omega
  rw [sessionFields, sessionFields]
  congr 1
  · exact Mem.read_congr fun k hlo hhi => hcell k (Or.inr (Or.inr ⟨hlo, hhi⟩))
  · exact Mem.read_congr fun k hlo hhi => hcell k (Or.inl ⟨hlo, hhi⟩)
  · exact Mem.read_congr fun k hlo hhi => hcell k (Or.inr (Or.inl ⟨hlo, hhi⟩))

theorem sessionFields_store_nasEffectAt (value : Mem UInt8) (offset : Nat) :
    sessionFields ((nasEffectAt value offset).store m) = sessionFields m := by
  rw [nasEffectAt]
  split_ifs
  · exact sessionFields_write_outside (Or.inr (by decide))
  · rfl
  · exact sessionFields_write_outside (Or.inl (by simp [algorithmsAt, spgwIpAt]))
  · rfl
  · exact (sessionFields_write_outside (Or.inr (by decide))).trans
      (sessionFields_write_outside (Or.inr (by decide)))
  · rfl
  · rfl

theorem IE.amfUeNgapId_short {ie : IE} (h : ie.id = idAmfUeNgapId) :
    ie.value.length ≤ mmeS1apIdSize := by
  cases ie with
  | amfUeNgapId criticality id hlength => exact hlength
  | guami criticality first octets =>
      have hid : idGuami = idAmfUeNgapId := h
      exact absurd hid (by decide)
  | nasPdu criticality nas =>
      have hid : idNasPdu = idAmfUeNgapId := h
      exact absurd hid (by decide)
  | other id criticality octets hother =>
      have hid : id = idAmfUeNgapId := h
      exact absurd (hid ▸ hother) (by decide)

theorem sessionFields_itemStore {value : Mem UInt8} {offset : Nat} {ie : IE}
    (h : value.Holds offset ie.bytes) (hlist : ie.id ≠ idPduSessionResourceSetupListSuReq) :
    sessionFields (itemStore value (offset + 1) m) = sessionFields m := by
  have hid : value (offset + 1) = ie.id := (holds_item h).1
  rw [itemStore]
  split_ifs with hamf hguami hsession hnas
  · have hsize := IE.amfUeNgapId_short (hid.symm.trans hamf)
    have hoctet := (holds_short h (lt_of_le_of_lt hsize (by decide))).1
    have hnat : (value (offset + 1 + 2)).toNat = ie.value.length := by
      rw [show value (offset + 1 + 2) = UInt8.ofNat ie.value.length from hoctet]
      exact UInt8.toNat_ofNat_of_lt' (lt_of_le_of_lt hsize (by decide))
    rw [hnat]
    refine (sessionFields_write_outside (Or.inl ?_)).trans (sessionFields_write_outside (Or.inl ?_))
    · simp [mmeS1apIdLenAt, spgwIpAt]
    · rw [Mem.read_length]
      simp only [mmeS1apIdAt, mmeS1apIdSize, spgwIpAt] at *
      omega
  · exact sessionFields_write_outside (Or.inr (by decide))
  · exact absurd (hid.symm.trans hsession) hlist
  · exact sessionFields_store_nasEffectAt _ _
  · rfl

theorem sessionFields_foldl {value : Mem UInt8} {offset : Nat} {ies : List IE}
    (h : Lies value offset ies) (hlist : idPduSessionResourceSetupListSuReq ∉ ies.map IE.id) :
    sessionFields (((placed offset ies).map Prod.fst).foldl
      (fun m start => itemStore value (start + 1) m) m) = sessionFields m := by
  induction ies generalizing offset m with
  | nil => rfl
  | cons ie ies ih =>
      rw [List.map_cons, List.mem_cons, not_or] at hlist
      rw [placed, List.map_cons, List.foldl_cons, ih h.tail hlist.2,
        sessionFields_itemStore h.head fun heq => hlist.1 heq.symm]

/-- What the parser takes for the parameters of the session whose identifier is here. -/
def foundFields (value : Mem UInt8) (offset : Nat) : SessionFields where
  pdnIp := value.read (offset + pduAddressAt value offset + 3) 4
  spgwIp := value.read (offset + gtpIdAt value offset + 5) 4
  gtpTeid := EnbThreads.littleEndian (longWord value (offset + gtpIdAt value offset + 9))

end

theorem placed_append (offset : Nat) (ies ies' : List IE) :
    placed offset (ies ++ ies') =
      placed offset ies ++ placed (offset + (ies.map IE.size).sum) ies' := by
  induction ies generalizing offset with
  | nil => rfl
  | cons ie ies ih =>
      rw [List.cons_append, placed, placed, ih, List.cons_append, List.map_cons, List.sum_cons,
        Nat.add_assoc]

theorem length_itemBytes (ies : List IE) :
    (itemBytes ies).length = (ies.map IE.size).sum := List.length_flatMap

theorem Lies.append {value : Mem UInt8} {offset : Nat} {ies ies' : List IE}
    (h : Lies value offset (ies ++ ies')) :
    Lies value offset ies ∧ Lies value (offset + (ies.map IE.size).sum) ies' := by
  have hholds := h.holds
  rw [itemBytes, List.flatMap_append, Mem.holds_append] at hholds
  have hlength : (ies.flatMap IE.bytes).length = (ies.map IE.size).sum := length_itemBytes ies
  rw [hlength] at hholds
  exact ⟨⟨hholds.1, fun ie hie => h.small ie (List.mem_append_left _ hie)⟩,
    ⟨hholds.2, fun ie hie => h.small ie (List.mem_append_right _ hie)⟩⟩

namespace Request

variable (r : Request)

/-- Where the item of the session starts. -/
def start : Nat := 8 + (r.front.map IE.size).sum

/-- Where the parser takes its identifier to be: an octet further on if its length takes two. -/
def sessionAt : Nat :=
  if r.session.gtpIndex + 10 + r.session.rest.length < 128 then r.start + 1 else r.start + 2

variable {r} {value m : Mem UInt8} {p : Parameters}

theorem steps_pdu : ∀ ie ∈ (r.pdu p).ies.dropLast, ie.Steps := by
  have hsession : (sessionIe r.criticality r.session p).Steps :=
    Or.inr ⟨rfl, r.sessionShort p⟩
  have hsteps := r.steps
  intro ie hie
  rw [Request.pdu, List.dropLast_append_of_ne_nil (List.cons_ne_nil _ _)] at hie
  rcases List.mem_append.mp hie with hfront | hback
  · exact hsteps ie (List.mem_append_left _ hfront)
  · cases hr : r.back with
    | nil =>
        rw [hr] at hback
        exact absurd hback List.not_mem_nil
    | cons ie' ies =>
        rw [hr, List.dropLast_cons_cons] at hback
        rcases List.mem_cons.mp hback with rfl | hback
        · exact hsession
        · exact hsteps ie (List.mem_append_right _ (hr ▸ hback))

theorem startsOf_pdu (h : value.Holds 0 (r.pdu p).bytes) :
    startsOf value (r.pdu p) = (r.pdu p).placed.map Prod.fst := by
  have hfive : (r.pdu p).caller.expected.items = 5 := rfl
  rw [startsOf_eq_iff h, hfive]
  exact ⟨iff_of_false (Nat.not_lt.mpr (r.long p).1) (by decide), steps_pdu⟩

theorem lies (h : value.Holds 0 (r.pdu p).bytes) :
    Lies value 8 (r.front ++ sessionIe r.criticality r.session p :: r.back) ∧
      (r.pdu p).placed = placed 8 (r.front ++ sessionIe r.criticality r.session p :: r.back) := by
  have hlong : ¬ (r.pdu p).content.length < 128 := Nat.not_lt.mpr (r.long p).1
  have htwo : (lengthOctets (r.pdu p).content.length).length = 2 := by
    rw [length_lengthOctets, if_neg hlong]
  have hlies := (Pdu.lies h).2
  rw [Pdu.placed, htwo]
  rw [htwo] at hlies
  exact ⟨hlies, rfl⟩

theorem sessionHolds (h : value.Holds 0 (r.pdu p).bytes) :
    pduSessionOffset value (r.start + 1) = r.sessionAt ∧
      SessionHolds value r.sessionAt r.session p := by
  have hholds : value.Holds r.start (sessionIe r.criticality r.session p).bytes :=
    (lies h).1.append.2.head
  obtain ⟨_, hlength, hvalue⟩ := holds_item hholds
  have hsize : (sessionIe r.criticality r.session p).value.length =
      r.session.gtpIndex + 10 + r.session.rest.length := length_value p
  have hshort : r.session.gtpIndex + 10 + r.session.rest.length < 256 :=
    length_value p ▸ r.sessionShort p
  rw [hsize] at hlength hvalue
  rw [pduSessionOffset, sessionAt]
  by_cases hone : r.session.gtpIndex + 10 + r.session.rest.length < 128
  · rw [lengthOctets, if_pos hone] at hlength hvalue
    have hoctet : (value (r.start + 1 + 2)).toNat =
        r.session.gtpIndex + 10 + r.session.rest.length := by
      rw [show value (r.start + 1 + 2) = _ from ((Mem.holds_cons _ _ _ _).mp hlength).1,
        UInt8.toNat_ofNat_of_lt' (lt_trans hone (by decide))]
    have hne : value (r.start + 1 + 2) ≠ 0x80 := by
      intro heq
      rw [heq] at hoctet
      exact absurd hone (Nat.not_lt.mpr (Nat.le_of_eq hoctet))
    rw [if_neg hne, if_pos hone]
    exact ⟨rfl, hoctet.trans (length_value p).symm, hvalue⟩
  · rw [lengthOctets, if_neg hone] at hlength hvalue
    rw [Mem.holds_cons, Mem.holds_cons] at hlength
    have hextra : value (r.start + 1 + 2) = 0x80 := by
      rw [show value (r.start + 1 + 2) = _ from hlength.1,
        show (r.session.gtpIndex + 10 + r.session.rest.length) / 256 = 0 by omega]
      rfl
    have hoctet : (value (r.start + 2 + 2)).toNat =
        r.session.gtpIndex + 10 + r.session.rest.length := by
      rw [show value (r.start + 2 + 2) = _ from hlength.2.1, UInt8.toNat_ofNat_of_lt' hshort]
    rw [if_pos hextra, if_neg hone]
    exact ⟨rfl, hoctet.trans (length_value p).symm, hvalue⟩

/-- The run stores what the parser finds in the item of the session. -/
theorem sessionBehind_eq (r : Request) (behind m : Mem UInt8) (p : Parameters) :
    sessionBehind r behind m p =
      some (foundFields (behind.write 0 (r.pdu p).bytes) r.sessionAt) := by
  have hholds : (behind.write 0 (r.pdu p).bytes).Holds 0 (r.pdu p).bytes := Mem.read_write_same ..
  rw [sessionBehind]
  generalize behind.write 0 (r.pdu p).bytes = value at hholds
  obtain ⟨hlies, hplaced⟩ := lies hholds
  obtain ⟨hoffset, hsession⟩ := sessionHolds hholds
  obtain ⟨hfront, hrest⟩ := hlies.append
  have hdistinct := r.distinct
  rw [List.nodup_append, List.nodup_cons] at hdistinct
  have hid : value (r.start + 1) = idPduSessionResourceSetupListSuReq := (holds_item hrest.head).1
  have hitem : ∀ m, sessionFields (itemStore value (r.start + 1) m) =
      foundFields value r.sessionAt := by
    intro m
    rw [itemStore, hid, if_neg (by decide), if_neg (by decide), if_pos rfl, pduSessionListStore,
      hoffset, if_pos hsession.places.1]
    rfl
  have hyields : Yields value (r.pdu p).caller.analyze m [] fun _ m' _ =>
      sessionFields m' = foundFields value r.sessionAt := by
    rw [yields_analyze hholds, startsOf_pdu hholds, hplaced, placed_append, placed,
      List.map_append, List.map_cons, List.foldl_append, List.foldl_cons,
      sessionFields_foldl hrest.tail hdistinct.2.1.1]
    exact hitem _
  obtain ⟨_, m', _, hstate, hfields⟩ := yields_iff.mp hyields
  rw [show analyzeNGPDUSessionEstablishmentAccept = (r.pdu p).caller.analyze from rfl, hstate]
  exact congrArg some hfields

end Request

section

variable {value value' : Mem UInt8} {offset : Nat} {item : SessionItem} {p q : Parameters}

theorem longWord_of_holds {k : Nat} {octets : List UInt8} (h : value.Holds k octets)
    (hlength : octets.length = 4) : longWord value k = longWord (Mem.ofList octets 0) 0 := by
  have hcell : ∀ i < 4, value (k + i) = Mem.ofList octets 0 i := by
    intro i hi
    have hread : (value.shift k).read 0 octets.length =
        (Mem.ofList octets 0).read 0 octets.length := by
      rw [Mem.read_shift, Mem.read_ofList]
      exact h
    exact Mem.cell_eq_of_read_eq hread (Nat.zero_le i) (by omega)
  rw [longWord, longWord, show value k = _ from hcell 0 (by decide), hcell 1 (by decide),
    hcell 2 (by decide), hcell 3 (by decide)]

theorem pdnIp_foundFields (h : SessionHolds value offset item p) (hleading : 0x29 ∉ item.leading) :
    (foundFields value offset).pdnIp = p.pduAddress.toList := by
  rw [foundFields, pduAddressAt_eq h hleading, h.pduAddress]

theorem foundFields_eq (h : SessionHolds value offset item p) (hleading : 0x29 ∉ item.leading)
    (hmiddle : ¬ [0x00, 0x8b] <:+: item.middle p.pduAddress) :
    foundFields value offset = p.fields := by
  have haddress := pduAddressAt_eq h hleading
  rw [foundFields, haddress, gtpIdAt_eq h haddress hmiddle, h.pduAddress,
    h.tunnel.1.read p.transportLayerAddress.length_toList,
    longWord_of_holds h.tunnel.2 p.teid.length_toList]
  rfl

/-- A scan that ends too early finds the same first octet whatever the PDU address. -/
theorem pdnIp_unlike (h : SessionHolds value offset item p) (h' : SessionHolds value' offset item q)
    (hleading : 0x29 ∈ item.leading) :
    (foundFields value offset).pdnIp.head? = (foundFields value' offset).pdnIp.head? := by
  obtain ⟨heq, hlt⟩ := pduAddressAt_congr h h' hleading
  have hseven : 7 ≤ pduAddressAt value offset := le_firstFrom
  have hcell := h.opening.cell_eq h'.opening (i := offset + pduAddressAt value offset + 3)
    (by omega) (by rw [length_opening]; omega)
  show some (value (offset + pduAddressAt value offset + 3)) =
    some (value' (offset + pduAddressAt value' offset + 3))
  rw [← heq, hcell]

theorem spgwIp_unlike (h : SessionHolds value offset item p)
    (h' : SessionHolds value' offset item q) (hp : p.pduAddress = q.pduAddress)
    (hleading : 0x29 ∉ item.leading) (hmiddle : [0x00, 0x8b] <:+: item.middle p.pduAddress) :
    (foundFields value offset).spgwIp.head? = (foundFields value' offset).spgwIp.head? := by
  obtain ⟨heq, hge, hlt⟩ := gtpIdAt_congr h h' hp (pduAddressAt_eq h hleading)
    (pduAddressAt_eq h' hleading) hmiddle
  have hcells := h'.toTunnel
  rw [← hp] at hcells
  have hnine : 9 ≤ item.addressIndex := Nat.le_add_right 9 _
  have hcell := h.toTunnel.cell_eq hcells (i := offset + gtpIdAt value offset + 5)
    (by omega) (by rw [length_toTunnel]; omega)
  show some (value (offset + gtpIdAt value offset + 5)) =
    some (value' (offset + gtpIdAt value' offset + 5))
  rw [← heq, hcell]

end

theorem Request.sessionHolds_bytes (r : Request) (behind : Mem UInt8) (p : Parameters) :
    SessionHolds (behind.write 0 (r.pdu p).bytes) r.sessionAt r.session p :=
  (sessionHolds (Mem.read_write_same ..)).2

theorem replicate_unlike : (Vector.replicate 4 (0x00 : UInt8)).toList.head? ≠
    (Vector.replicate 4 (0x01 : UInt8)).toList.head? := by decide

theorem Request.not_mem_leading {r : Request} {behind : Mem UInt8}
    (h : ∀ m p, (sessionBehind r behind m p).map SessionFields.pdnIp =
      some p.pduAddress.toList) : 0x29 ∉ r.session.leading := by
  intro hmem
  have haddress := fun p => h (fun _ => 0) p
  simp only [sessionBehind_eq, Option.map_some, Option.some.injEq] at haddress
  have hhead := fun a b => pdnIp_unlike (r.sessionHolds_bytes behind ⟨a, a, a⟩)
    (r.sessionHolds_bytes behind ⟨b, b, b⟩) hmem
  simp only [haddress] at hhead
  exact replicate_unlike (hhead _ _)

/-- The parameters of a session come from their fields exactly if no octets in front of a field are
like the identifier that the parser looks for. -/
theorem parametersStored_iff (r : Request) (behind : Mem UInt8) (pduAddress : Vector UInt8 4) :
    ParametersStored r behind pduAddress ↔ Unambiguous r.session pduAddress := by
  have hholds := r.sessionHolds_bytes behind
  constructor
  · intro h
    have hleading := Request.not_mem_leading h.address
    refine ⟨hleading, fun hinfix => ?_⟩
    have htunnel := fun p => h.tunnel (fun _ => 0) p
    simp only [Request.sessionBehind_eq, Option.some.injEq] at htunnel
    have hhead := spgwIp_unlike (hholds ⟨pduAddress, Vector.replicate 4 0x00, pduAddress⟩)
      (hholds ⟨pduAddress, Vector.replicate 4 0x01, pduAddress⟩) rfl hleading hinfix
    rw [htunnel _ rfl, htunnel _ rfl] at hhead
    exact replicate_unlike hhead
  · intro h
    constructor
    · intro m p
      rw [Request.sessionBehind_eq, Option.map_some, pdnIp_foundFields (hholds p) h.address]
    · rintro m p rfl
      rw [Request.sessionBehind_eq, foundFields_eq (hholds p) h.address h.tunnel]

/-- A PDU Session Establishment Accept with the sequence number 41. -/
def acceptFortyOne : SessionItem where
  first := 0x00
  flags := 0x40
  sessionId := 0x01
  header := 0x02
  mac := Vector.replicate 4 0x11
  sequenceNumber := 0x29
  before := [0x7e, 0x00, 0x68, 0x01, 0x00, 0x13, 0x2e, 0x01, 0x00, 0xc2, 0x11, 0x00, 0x00]
  after := [0x22, 0x01, 0x01]
  between := [0x00, 0x00, 0x20, 0x01, 0x00] ++ List.replicate 60 0x01
  criticality := 0x00
  preamble := #v[0x01, 0xf0]
  rest := [0x00, 0x86, 0x00, 0x01, 0x00]
  isProtected := by decide

def requestFortyOne : Request where
  first := 0x00
  front := ueIds
  criticality := 0x00
  session := acceptFortyOne
  back := []
  nasShort := by
    intro pduAddress
    rw [length_nas]
    decide
  sessionShort := by
    intro p
    rw [length_value]
    decide
  steps := by
    intro ie hie
    simp only [ueIds, List.dropLast_nil, List.append_nil, List.mem_cons, List.not_mem_nil,
      or_false] at hie
    rcases hie with rfl | rfl
    · exact Or.inl (by decide)
    · exact Or.inl (by decide)
  distinct := by decide
  long := by
    intro p
    have hvalue : (sessionIe 0x00 acceptFortyOne p).value.length = 118 :=
      (length_value p).trans (by decide)
    have hsize : (sessionIe 0x00 acceptFortyOne p).size = 122 := by
      rw [IE.size_eq, hvalue]
      rfl
    simp only [contentBytes, List.length_cons, length_itemBytes, ueIds, List.cons_append,
      List.nil_append, List.map_cons, List.map_nil, List.sum_cons, List.sum_nil, hsize]
    decide

theorem not_parametersStored : ¬ ∀ (r : Request) (behind m : Mem UInt8) (p : Parameters),
    sessionBehind r behind m p = some p.fields := by
  intro h
  have hleading := @Request.not_mem_leading requestFortyOne (fun _ => 0) fun m p => by
    rw [h]
    rfl
  exact hleading (by decide)

end PublicCloudCore.RanEmulator.NgapAnalysis
