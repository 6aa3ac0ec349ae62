import PublicCloudCore.CorekubeDb.UsersFile
import PublicCloudCore.Framework.Transition

/-!
# Users by IMSI

`hash_imsi` keeps the last nine digits of an IMSI, and the map knows its entries by that number
alone. A request for an IMSI therefore reaches the user whose IMSI ends in the same nine digits,
whatever its first six digits are.
-/

namespace PublicCloudCore.CorekubeDb

open Framework

private theorem digit_value_lt {b : UInt8} (h : isDigit b) : b.toNat - 0x30 < 10 := by
  simp only [isDigit, Bool.and_eq_true, decide_eq_true_eq] at h
  have hle := UInt8.le_iff_toNat_le.mp h.2
  have hval : (0x39 : UInt8).toNat = 57 := rfl
  omega

private theorem digit_le {b : UInt8} (h : isDigit b) : 0x30 ≤ b.toNat := by
  simp only [isDigit, Bool.and_eq_true, decide_eq_true_eq] at h
  exact UInt8.le_iff_toNat_le.mp h.1

/-- The number that digits spell behind a number. -/
def decimal (ds : List UInt8) (n : Nat) : Nat :=
  ds.foldl (fun n b => n * 10 + (b.toNat - 0x30)) n

theorem digitsValue_digits {ds rest : List UInt8} (h : ds.all isDigit) (n : Nat) :
    digitsValue (ds ++ 0 :: rest) n = some (decimal ds n) := by
  induction ds generalizing n with
  | nil => rfl
  | cons b bs ih =>
      rw [List.all_cons, Bool.and_eq_true] at h
      rw [List.cons_append, digitsValue, if_pos h.1]
      exact ih h.2 _

theorem decimal_lt {ds : List UInt8} (h : ds.all isDigit) (n : Nat) :
    decimal ds n < (n + 1) * 10 ^ ds.length := by
  induction ds generalizing n with
  | nil => simp [decimal]
  | cons b bs ih =>
      rw [List.all_cons, Bool.and_eq_true] at h
      have hb := digit_value_lt h.1
      rw [List.length_cons, Nat.pow_succ]
      calc decimal bs (n * 10 + (b.toNat - 0x30))
          < (n * 10 + (b.toNat - 0x30) + 1) * 10 ^ bs.length := ih h.2 _
        _ ≤ ((n + 1) * 10) * 10 ^ bs.length := Nat.mul_le_mul_right _ (by omega)
        _ = (n + 1) * (10 ^ bs.length * 10) := by ring

private theorem decimal_injective {as bs : List UInt8} (ha : as.all isDigit)
    (hb : bs.all isDigit) (hlen : as.length = bs.length) {n m : Nat}
    (h : decimal as n = decimal bs m) : n = m ∧ as = bs := by
  induction as generalizing bs n m with
  | nil =>
      cases bs with
      | nil => exact ⟨h, rfl⟩
      | cons b bs => cases hlen
  | cons a as ih =>
      cases bs with
      | nil => cases hlen
      | cons b bs =>
          rw [List.all_cons, Bool.and_eq_true] at ha hb
          obtain ⟨hnm, rfl⟩ := ih ha.2 hb.2 (Nat.succ.inj hlen) h
          have hnm : n * 10 + (a.toNat - 0x30) = m * 10 + (b.toNat - 0x30) := hnm
          have hav := digit_value_lt ha.1
          have hbv := digit_value_lt hb.1
          have hale := digit_le ha.1
          have hble := digit_le hb.1
          have hab : a = b := UInt8.toNat_inj.mp (by omega)
          exact ⟨by omega, by rw [hab]⟩

theorem atoi_digits {ds rest : List UInt8} (h : ds.all isDigit) (hne : ds ≠ []) :
    atoi (ds ++ 0 :: rest) =
      some (UInt32.ofNat (min (decimal ds 0) (2 ^ 63 - 1))) := by
  rcases ds with _ | ⟨b, bs⟩
  · exact absurd rfl hne
  have hvalue : digitsValue (b :: bs ++ 0 :: rest) 0 = _ := digitsValue_digits h 0
  rw [List.all_cons, Bool.and_eq_true] at h
  have hle := digit_le h.1
  have hlt := digit_value_lt h.1
  have hspace : isSpace b = false := by
    simp only [isSpace, Bool.or_eq_false_iff, Bool.and_eq_false_iff, beq_eq_false_iff_ne,
      decide_eq_false_iff_not, UInt8.le_iff_toNat_le]
    constructor
    · rintro rfl
      revert hle
      decide
    · have hval : (0x0D : UInt8).toNat = 13 := rfl
      omega
  have hminus : b ≠ 0x2D := by
    rintro rfl
    revert hle
    decide
  have hplus : b ≠ 0x2B := by
    rintro rfl
    revert hle
    decide
  rw [List.cons_append] at hvalue ⊢
  simp only [atoi, hspace, Bool.false_eq_true, if_false, if_neg hminus, if_neg hplus, hvalue]
  rfl

theorem atoi_digits_injective {as bs rest more : List UInt8} (ha : as.all isDigit)
    (hb : bs.all isDigit) (hlen : as.length = bs.length) (hnine : as.length ≤ 9) (hne : as ≠ [])
    (h : atoi (as ++ 0 :: rest) = atoi (bs ++ 0 :: more)) : as = bs := by
  have hne' : bs ≠ [] := by
    rintro rfl
    exact hne (List.length_eq_zero_iff.mp hlen)
  rw [atoi_digits ha hne, atoi_digits hb hne'] at h
  have hbound : ∀ {ds : List UInt8}, ds.all isDigit → ds.length ≤ 9 → decimal ds 0 < 10 ^ 9 := by
    intro ds hds hle
    have := decimal_lt hds 0
    rw [Nat.zero_add, Nat.one_mul] at this
    exact Nat.lt_of_lt_of_le this (Nat.pow_le_pow_right (by decide) hle)
  have hA := hbound ha hnine
  have hB := hbound hb (by omega)
  have hnat := congrArg UInt32.toNat (Option.some.inj h)
  rw [Nat.min_eq_left (by omega), Nat.min_eq_left (by omega)] at hnat
  simp only [UInt32.toNat_ofNat'] at hnat
  rw [Nat.mod_eq_of_lt (by omega), Nat.mod_eq_of_lt (by omega)] at hnat
  exact (decimal_injective ha hb hlen hnat).2

structure IsImsi (s : List UInt8) : Prop where
  length : s.length = 15
  digits : s.all isDigit

/-- The stored IMSI without its NUL. -/
def UserInfo.imsi (u : UserInfo) : List UInt8 := (u.get .imsi).take 15

theorem UserInfo.get_imsi_eq (u : UserInfo) : u.get .imsi = u.imsi ++ [0] := by
  have hlast : (u.get .imsi).drop 15 = [0] := congrArg (fun b => [b]) u.imsi_terminated
  rw [UserInfo.imsi, ← hlast, List.take_append_drop]

def lastNine (s : List UInt8) : List UInt8 := s.drop 6

/-- `hash_imsi` gives the user's IMSI and `s` the same number. -/
def EndsLike (s : List UInt8) (u : UserInfo) : Prop := hashImsi (u.get .imsi) = hashImsi (s ++ [0])

theorem IsImsi.hashImsi_append {s : List UInt8} (h : IsImsi s) (rest : List UInt8) :
    hashImsi (s ++ 0 :: rest) = atoi (lastNine s ++ 0 :: rest) := by
  rw [hashImsi, List.drop_append_of_le_length (by rw [h.length]; decide)]
  rfl

theorem IsImsi.lastNine_digits {s : List UInt8} (h : IsImsi s) :
    (lastNine s).all isDigit ∧ (lastNine s).length = 9 := by
  constructor
  · apply List.all_eq_true.mpr
    intro b hb
    exact List.all_eq_true.mp h.digits b (List.mem_of_mem_drop hb)
  · rw [lastNine, List.length_drop, h.length]

/-- Two IMSIs have one number exactly if they end in the same nine digits. -/
theorem hashImsi_eq_iff {s t rest more : List UInt8} (hs : IsImsi s) (ht : IsImsi t) :
    hashImsi (s ++ 0 :: rest) = hashImsi (t ++ 0 :: more) ↔ lastNine s = lastNine t := by
  obtain ⟨hsd, hslen⟩ := hs.lastNine_digits
  obtain ⟨htd, htlen⟩ := ht.lastNine_digits
  have hne : ∀ {l : List UInt8}, l.length = 9 → l ≠ [] := by
    intro l hl hnil
    rw [hnil] at hl
    cases hl
  rw [hs.hashImsi_append, ht.hashImsi_append]
  constructor
  · exact atoi_digits_injective hsd htd (hslen.trans htlen.symm) (Nat.le_of_eq hslen) (hne hslen)
  · intro h
    rw [atoi_digits hsd (hne hslen), atoi_digits htd (hne htlen), h]

/-- A request whose identity is an IMSI; what follows the IMSI is any bytes. -/
def imsiRequest (s rest : List UInt8) : List UInt8 := ItemType.imsi.code :: (s ++ 0 :: rest)

/-- The key of an IMSI, which is one user's key exactly if that user's IMSI ends like it. -/
theorem IsImsi.identify {s : List UInt8} (h : IsImsi s) :
    ∃ key, (∀ rest, identify (imsiRequest s rest) = .ok (.user key)) ∧
      ∀ u, hashImsiUserInfo u = key ↔ EndsLike s u := by
  obtain ⟨key, hkey⟩ : ∃ key, ∀ rest, hashImsi (s ++ 0 :: rest) = some key := by
    obtain ⟨hd, hlen⟩ := h.lastNine_digits
    have hne : lastNine s ≠ [] := by
      intro hnil
      rw [hnil] at hlen
      cases hlen
    exact ⟨_, fun rest => by rw [h.hashImsi_append, atoi_digits hd hne]⟩
  refine ⟨key, fun rest => ?_, fun u => ?_⟩
  · simp only [imsiRequest, CorekubeDb.identify, ItemType.ofCode_code, hkey]
  · rw [EndsLike, hashImsi_get_imsi, hkey []]
    exact (Option.some.injEq _ _).symm.to_iff

/-- `001010000000001` -/
def testNetworkImsi : List UInt8 := [48, 48, 49, 48, 49, 48, 48, 48, 48, 48, 48, 48, 48, 48, 49]

end PublicCloudCore.CorekubeDb
