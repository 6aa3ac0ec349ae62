import Mathlib

/-!
# `std::stod`

Which texts `std::stod` converts, and what it throws for the others. It reads the longest number at
the start of the text as `strtod` does in the `C` locale and throws `std::out_of_range` where
`strtod` reports `ERANGE`: the number rounds to infinity, or it is tiny and not exact.
-/

namespace PublicCloudCore.MetricsBus

abbrev Text := List UInt8

def ascii (cs : List Char) : Text := cs.map fun c => UInt8.ofNat c.toNat

inductive StdException
  | systemError
  | invalidArgument
  | outOfRange
  deriving DecidableEq

def isSpace (b : UInt8) : Bool := b = 0x20 || (0x09 ≤ b && b ≤ 0x0D)

def toLower (b : UInt8) : UInt8 := if 0x41 ≤ b ∧ b ≤ 0x5A then b + 0x20 else b

def decimalDigit? (b : UInt8) : Option Nat :=
  if 0x30 ≤ b ∧ b ≤ 0x39 then some (b.toNat - 0x30) else none

def hexDigit? (b : UInt8) : Option Nat :=
  if 0x61 ≤ toLower b ∧ toLower b ≤ 0x66 then some ((toLower b).toNat - 0x57)
  else decimalDigit? b

def readDigits (digit? : UInt8 → Option Nat) : Text → List Nat × Text
  | [] => ([], [])
  | b :: t =>
      match digit? b with
      | none => ([], b :: t)
      | some d => (d :: (readDigits digit? t).1, (readDigits digit? t).2)

def spelled (base : Nat) (ds : List Nat) : Nat := ds.foldl (fun n d => base * n + d) 0

/-- The digits before and after a point, how many are after it, and what follows. -/
def readMantissa (digit? : UInt8 → Option Nat) (base : Nat) (t : Text) :
    Option (Nat × Nat × Text) :=
  let (whole, rest) := readDigits digit? t
  let (fraction, rest) :=
    match rest with
    | 0x2E :: t => readDigits digit? t
    | _ => ([], rest)
  if whole = [] ∧ fraction = [] then none
  else some (spelled base (whole ++ fraction), fraction.length, rest)

def readSign : Text → Bool × Text
  | 0x2B :: t => (false, t)
  | 0x2D :: t => (true, t)
  | t => (false, t)

/-- The exponent behind its letter; zero where no digits follow the letter. -/
def readExponent (letter : UInt8) : Text → Int
  | [] => 0
  | b :: t =>
      if toLower b = letter then
        let (negative, t) := readSign t
        let e : Int := spelled 10 (readDigits decimalDigit? t).1
        if negative then -e else e
      else 0

def readDecimal (t : Text) : Option ℚ :=
  (readMantissa decimalDigit? 10 t).map fun (m, fraction, rest) =>
    m * (10 : ℚ) ^ (readExponent 0x65 rest - fraction)

def readHex : Text → Option ℚ
  | 0x30 :: b :: t =>
      if toLower b = 0x78 then
        (readMantissa hexDigit? 16 t).map fun (m, fraction, rest) =>
          m * (2 : ℚ) ^ (readExponent 0x70 rest - 4 * fraction)
      else none
  | _ => none

/-- `inf`, `infinity` and `nan`, in any case. -/
def isSpecial (t : Text) : Bool :=
  let start := (t.take 3).map toLower
  start = [0x69, 0x6E, 0x66] || start = [0x6E, 0x61, 0x6E]

/-- Whether a magnitude is in the range of `double`. -/
def checkRange (v : ℚ) : Except StdException Unit :=
  if (2 : ℚ) ^ 1024 - 2 ^ 970 ≤ v then .error .outOfRange
  else if v < (2 : ℚ) ^ (-1022 : ℤ) - 2 ^ (-1076 : ℤ) ∧ (v * 2 ^ 1074).den ≠ 1 then
    .error .outOfRange
  else .ok ()

def stod (t : Text) : Except StdException Unit :=
  let t := (readSign (t.dropWhile isSpace)).2
  if isSpecial t then .ok ()
  else
    match (readHex t).or (readDecimal t) with
    | none => .error .invalidArgument
    | some v => checkRange v

theorem stod_ne_systemError (t : Text) : stod t ≠ .error .systemError := by
  rw [stod]
  split
  · nofun
  · split
    · nofun
    · rw [checkRange]
      split
      · nofun
      · split <;> nofun

def decimalDigits (n : Nat) : List Nat := if n = 0 then [0] else (Nat.digits 10 n).reverse

def digitByte (d : Nat) : UInt8 := UInt8.ofNat (0x30 + d)

/-- `%ld` of a number. -/
def decimalText (n : Nat) : Text := (decimalDigits n).map digitByte

theorem decimalDigits_lt {n d : Nat} (h : d ∈ decimalDigits n) : d < 10 := by
  rw [decimalDigits] at h
  split at h
  · rw [List.mem_singleton] at h
    omega
  · exact Nat.digits_lt_base (by decide) (List.mem_reverse.mp h)

theorem decimalDigits_ne_nil (n : Nat) : decimalDigits n ≠ [] := by
  rw [decimalDigits]
  split
  · nofun
  · next hn =>
      intro h
      exact hn (Nat.digits_eq_nil_iff_eq_zero.mp (List.reverse_eq_nil_iff.mp h))

theorem spelled_decimalDigits (n : Nat) : spelled 10 (decimalDigits n) = n := by
  rw [decimalDigits]
  split
  · next hn =>
      rw [hn]
      rfl
  · rw [spelled, List.foldl_reverse]
    have hfold : (fun d n => 10 * n + d) = fun (d n : Nat) => d + 10 * n := by
      funext d n
      omega
    rw [hfold]
    exact (Nat.ofDigits_eq_foldr 10 (Nat.digits 10 n)).symm.trans (Nat.ofDigits_digits 10 n)

theorem decimalDigit?_digitByte {d : Nat} (h : d < 10) : decimalDigit? (digitByte d) = some d := by
  interval_cases d <;> decide

theorem toLower_digitByte {d : Nat} (h : d < 10) : toLower (digitByte d) = digitByte d := by
  interval_cases d <;> decide

theorem isSpace_digitByte {d : Nat} (h : d < 10) : isSpace (digitByte d) = false := by
  interval_cases d <;> decide

theorem digitByte_ne {d : Nat} (h : d < 10) {b : UInt8} (hb : decimalDigit? b = none) :
    digitByte d ≠ b := by
  intro hdb
  rw [← hdb, decimalDigit?_digitByte h] at hb
  cases hb

theorem readDigits_map_digitByte {ds : List Nat} (h : ∀ d ∈ ds, d < 10) :
    readDigits decimalDigit? (ds.map digitByte) = (ds, []) := by
  induction ds with
  | nil => rfl
  | cons d ds ih =>
      rw [List.map_cons, readDigits, decimalDigit?_digitByte (h d (by simp)),
        ih fun d hd => h d (by simp [hd])]

theorem readDecimal_decimalText (n : Nat) : readDecimal (decimalText n) = some (n : ℚ) := by
  have hdigits : readDigits decimalDigit? (decimalText n) = (decimalDigits n, []) :=
    readDigits_map_digitByte fun d hd => decimalDigits_lt hd
  simp [readDecimal, readMantissa, hdigits, decimalDigits_ne_nil, spelled_decimalDigits,
    readExponent]

theorem checkRange_natCast {n : Nat} (h : n < 2 ^ 63) : checkRange (n : ℚ) = .ok () := by
  have hbig : ¬(2 : ℚ) ^ 1024 - 2 ^ 970 ≤ n := by
    have hn : (n : ℚ) < 2 ^ 63 := by exact_mod_cast h
    have hle : (2 : ℚ) ^ 63 ≤ 2 ^ 970 := pow_le_pow_right₀ (by norm_num) (by decide)
    have hsplit : (2 : ℚ) ^ 1024 = 2 ^ 54 * 2 ^ 970 := by rw [← pow_add]
    rw [hsplit]
    generalize (2 : ℚ) ^ 970 = x at hle
    linarith
  have hint : ((n : ℚ) * 2 ^ 1074).den = 1 := by
    have hcast : (n : ℚ) * 2 ^ 1074 = ((n * 2 ^ 1074 : ℕ) : ℚ) := by
      rw [Nat.cast_mul, Nat.cast_pow, Nat.cast_ofNat]
    rw [hcast]
    exact Rat.den_natCast _
  rw [checkRange, if_neg hbig, if_neg]
  intro hsmall
  exact hsmall.2 hint

/-- `std::stod` converts what `%ld` prints for a number of 63 bits. -/
theorem stod_decimalText {n : Nat} (h : n < 2 ^ 63) : stod (decimalText n) = .ok () := by
  obtain ⟨d, ds, hds⟩ := List.exists_cons_of_ne_nil (decimalDigits_ne_nil n)
  have htext : decimalText n = digitByte d :: ds.map digitByte := by rw [decimalText, hds]; rfl
  have hlt : ∀ e ∈ d :: ds, e < 10 := fun e he => decimalDigits_lt (hds ▸ he)
  have hd : d < 10 := hlt d (by simp)
  have hspace : (decimalText n).dropWhile isSpace = decimalText n := by
    rw [htext, List.dropWhile_cons_of_neg]
    simp [isSpace_digitByte hd]
  have hsign : readSign (decimalText n) = (false, decimalText n) := by
    rw [htext, readSign.eq_def]
    split
    · next h => exact absurd (List.cons.inj h).1 (digitByte_ne hd rfl)
    · next h => exact absurd (List.cons.inj h).1 (digitByte_ne hd rfl)
    · rfl
  have hspecial : isSpecial (decimalText n) = false := by
    rw [htext, isSpecial, List.take_succ_cons, List.map_cons, toLower_digitByte hd]
    simp [digitByte_ne hd (b := 0x69) rfl, digitByte_ne hd (b := 0x6E) rfl]
  have hhex : readHex (decimalText n) = none := by
    cases ds with
    | nil =>
        rw [htext, List.map_nil, readHex.eq_def]
        split
        · next h => simp at h
        · rfl
    | cons e ds =>
        have he : e < 10 := hlt e (by simp)
        rw [htext, List.map_cons, readHex.eq_def]
        split
        · next h =>
            obtain ⟨-, htail⟩ := List.cons.inj h
            obtain ⟨rfl, -⟩ := List.cons.inj htail
            rw [toLower_digitByte he, if_neg (digitByte_ne he rfl)]
        · rfl
  simp only [stod, hspace, hsign, hspecial, hhex, readDecimal_decimalText, Option.none_or,
    Bool.false_eq_true, if_false]
  exact checkRange_natCast h

end PublicCloudCore.MetricsBus
