import PublicCloudCore.CorekubeDb.IdentityCoherence

/-!
# Addresses of the users

`complete_user_info` adds to the gateway's address the last sixteen bits of the number that the
IMSI ends in. The number itself has up to thirty bits.
-/

namespace PublicCloudCore.CorekubeDb

open Framework

def UserInfo.pdnAddress (u : UserInfo) : UInt32 := arrayToUint32 (u.get .pdnIpv4)

/-- No two users have one address, and none has the gateway's. -/
structure Db.DistinctAddresses (db : Db) : Prop where
  nodup : (db.imsiMap.entries.map UserInfo.pdnAddress).Nodup
  gateway : gatewayIp ∉ db.imsiMap.entries.map UserInfo.pdnAddress

/-- The last sixteen bits of the number that an IMSI ends in. -/
def hostPart (s : List UInt8) : Nat := decimal (lastNine s) 0 % 2 ^ 16

theorem toNat_and_low (n : UInt32) : (n &&& 0x0000FFFF).toNat = n.toNat % 2 ^ 16 := by
  rw [UInt32.toNat_and]
  exact Nat.and_two_pow_sub_one_eq_mod n.toNat 16

theorem IsImsi.hash_toNat {u : UserInfo} (h : IsImsi u.imsi) :
    (hashImsiUserInfo u).toNat = decimal (lastNine u.imsi) 0 := by
  obtain ⟨hdigits, hlen⟩ := h.lastNine_digits
  have hbound := decimal_lt hdigits 0
  rw [hlen] at hbound
  have hne : lastNine u.imsi ≠ [] := by
    intro hnil
    rw [hnil] at hlen
    cases hlen
  have hhash := hashImsi_get_imsi u
  rw [u.get_imsi_eq, h.hashImsi_append, atoi_digits hdigits hne,
    Nat.min_eq_left (by omega)] at hhash
  rw [← Option.some.inj hhash, UInt32.toNat_ofNat']
  omega

/-- The address that `complete_user_info` gives to an IMSI's number. -/
def addressOf (hash : UInt32) : UInt32 := gatewayIp + (hash &&& 0x0000FFFF)

theorem addressOf_eq_iff (a b : UInt32) :
    addressOf a = addressOf b ↔ a.toNat % 2 ^ 16 = b.toNat % 2 ^ 16 := by
  rw [addressOf, addressOf, UInt32.add_right_inj, ← toNat_and_low, ← toNat_and_low]
  exact UInt32.toNat_inj.symm

theorem addressOf_eq_gatewayIp_iff (a : UInt32) :
    addressOf a = gatewayIp ↔ a.toNat % 2 ^ 16 = 0 := by
  have hzero : addressOf 0 = gatewayIp := by decide
  rw [← hzero, addressOf_eq_iff]
  rfl

theorem completeUserInfo_pdnAddress (u : UserInfo) (rand : RandStream) :
    (completeUserInfo u rand).1.pdnAddress =
      addressOf (hashImsiUserInfo (completeUserInfo u rand).1) := by
  have hhash : hashImsiUserInfo (setUserNextHopChainingCount (setUserEpcNasSequenceNumber u 0) 1) =
      hashImsiUserInfo u := by
    apply hashImsiUserInfo_of_imsi_eq
    exact (UserInfo.get_set_other _ _ (by decide) (Nat.le_of_eq rfl)).trans
      (UserInfo.get_set_other _ _ (by decide) (Nat.le_of_eq rfl))
  rw [completeUserInfo_hash]
  simp only [UserInfo.pdnAddress, completeUserInfo, generateRand, hhash]
  rw [UserInfo.get_set_other _ _ (by decide) (Nat.le_of_eq rfl), UserInfo.get_set_same _ _ rfl,
    arrayToUint32_uint32ToArray]
  rfl

theorem initDb_pdnAddress {generateOpc : GenerateOpc} {tables : Tables} {rand : RandStream}
    {file : List FileLine} {db : Db} (h : initDb generateOpc tables rand file = .ok db) :
    ∀ u ∈ db.imsiMap.entries, u.pdnAddress = addressOf (hashImsiUserInfo u) := by
  apply initDb_induction
    (P := fun db => ∀ u ∈ db.imsiMap.entries, u.pdnAddress = addressOf (hashImsiUserInfo u)) ?_ ?_ h
  · intro u hu
    obtain ⟨l, hl, hul⟩ := List.mem_flatten.mp hu
    rw [List.eq_of_mem_replicate hl] at hul
    cases hul
  · intro db db' l scratch ih hline
    rcases processLine_cases hline with rfl | ⟨u, rfl⟩
    · exact ih
    intro v hv
    rcases HashMap.mem_entries_add hv with rfl | hv
    · have hsame := UserInfo.get_copyTo (completeUserInfo u db.rand).1 scratch.node
      rw [hashImsiUserInfo_of_imsi_eq (hsame .imsi), UserInfo.pdnAddress, hsame]
      exact completeUserInfo_pdnAddress u db.rand
    · exact ih v hv

/-- The addresses are distinct, and none is the gateway's, exactly if the IMSIs' last nine digits
differ in their last sixteen bits and none of them has sixteen zeros there. -/
theorem distinctAddresses_iff {generateOpc : GenerateOpc} {tables : Tables} {rand : RandStream}
    {file : List FileLine} {db : Db} (hload : initDb generateOpc tables rand file = .ok db)
    (hdistinct : db.DistinctUsers) :
    db.DistinctAddresses ↔
      (db.imsiMap.entries.map fun u => hostPart u.imsi).Nodup ∧
        ∀ u ∈ db.imsiMap.entries, hostPart u.imsi ≠ 0 := by
  have haddress := initDb_pdnAddress hload
  have hpart : ∀ u ∈ db.imsiMap.entries,
      hostPart u.imsi = (hashImsiUserInfo u).toNat % 2 ^ 16 := by
    intro u hu
    rw [hostPart, (hdistinct.isImsi u hu).hash_toNat]
  have hinj : ∀ u ∈ db.imsiMap.entries, ∀ v ∈ db.imsiMap.entries,
      (u.pdnAddress = v.pdnAddress ↔ hostPart u.imsi = hostPart v.imsi) := by
    intro u hu v hv
    rw [haddress u hu, haddress v hv, hpart u hu, hpart v hv]
    exact addressOf_eq_iff _ _
  have hgateway : ∀ u ∈ db.imsiMap.entries, (u.pdnAddress = gatewayIp ↔ hostPart u.imsi = 0) := by
    intro u hu
    rw [haddress u hu, hpart u hu]
    exact addressOf_eq_gatewayIp_iff _
  have hentries := List.Nodup.of_map _ hdistinct.distinct
  constructor
  · intro h
    constructor
    · apply List.Nodup.map_on ?_ hentries
      intro u hu v hv huv
      exact List.inj_on_of_nodup_map h.nodup hu hv ((hinj u hu v hv).mpr huv)
    · intro u hu hzero
      apply h.gateway
      rw [← (hgateway u hu).mpr hzero]
      exact List.mem_map_of_mem hu
  · intro h
    constructor
    · apply List.Nodup.map_on ?_ hentries
      intro u hu v hv huv
      exact List.inj_on_of_nodup_map h.1 hu hv ((hinj u hu v hv).mp huv)
    · intro hmem
      obtain ⟨u, hu, hsame⟩ := List.mem_map.mp hmem
      exact h.2 u hu ((hgateway u hu).mp hsame)

theorem distinctAddresses_neighbours : ∃ db,
    initDb .unused oneList (fun _ => 0) (zeroKeyFile neighbourImsis) = .ok db ∧
      db.imsiMap.entries.length = 2 ∧ db.DistinctAddresses := by
  obtain ⟨db, hload, hdistinct, hlength, hparts⟩ := exists_loaded_of_check neighbourImsis
    (fun db => db.imsiMap.entries.length = 2 ∧
      (db.imsiMap.entries.map fun u => hostPart u.imsi).Nodup ∧
      ∀ u ∈ db.imsiMap.entries, hostPart u.imsi ≠ 0) (by decide +kernel)
  exact ⟨db, hload, hlength, (distinctAddresses_iff hload hdistinct).mpr hparts⟩

/-- `testNetworkImsi` and the IMSI that is 65536 higher. -/
def sharedAddressImsis : List (List UInt8) :=
  [testNetworkImsi, [48, 48, 49, 48, 49, 48, 48, 48, 48, 48, 54, 53, 53, 51, 55]]

/-- Two users of one file can have one address. -/
theorem not_distinctAddresses :
    ¬ ∀ (generateOpc : GenerateOpc) (tables : Tables) (rand : RandStream) (file : List FileLine)
      (db : Db), initDb generateOpc tables rand file = .ok db → db.DistinctUsers →
      db.DistinctAddresses := by
  intro h
  obtain ⟨db, hload, hdistinct, hshared⟩ := exists_loaded_of_check sharedAddressImsis
    (fun db => ¬ (db.imsiMap.entries.map UserInfo.pdnAddress).Nodup) (by decide +kernel)
  exact hshared (h _ _ _ _ db hload hdistinct).nodup

end PublicCloudCore.CorekubeDb
