import PublicCloudCore.RanController.UE

/-!
# Control plane scripts

`validate_control_plane_actions` and `serialize_control_plane`. A string is the list of its
characters; `isdigit` and `int` know the digits of Unicode 14, of which only the decimal ones are
numbers.
-/

namespace PublicCloudCore.RanController

abbrev Token := List Char

/-- The zeros of the decimal digits; the other nine digits follow each of them. -/
def decimalZeros : List Nat :=
  [0x30, 0x660, 0x6F0, 0x7C0, 0x966, 0x9E6, 0xA66, 0xAE6, 0xB66, 0xBE6, 0xC66, 0xCE6, 0xD66, 0xDE6,
    0xE50, 0xED0, 0xF20, 0x1040, 0x1090, 0x17E0, 0x1810, 0x1946, 0x19D0, 0x1A80, 0x1A90, 0x1B50,
    0x1BB0, 0x1C40, 0x1C50, 0xA620, 0xA8D0, 0xA900, 0xA9D0, 0xA9F0, 0xAA50, 0xABF0, 0xFF10, 0x104A0,
    0x10D30, 0x11066, 0x110F0, 0x11136, 0x111D0, 0x112F0, 0x11450, 0x114D0, 0x11650, 0x116C0,
    0x11730, 0x118E0, 0x11950, 0x11C50, 0x11D50, 0x11DA0, 0x16A60, 0x16AC0, 0x16B50, 0x1D7CE,
    0x1D7D8, 0x1D7E2, 0x1D7EC, 0x1D7F6, 0x1E140, 0x1E2F0, 0x1E950, 0x1FBF0]

/-- The digits that are not decimal: superscripts, circled digits and the like. -/
def otherDigits : List (Nat × Nat) :=
  [(0xB2, 0xB3), (0xB9, 0xB9), (0x1369, 0x1371), (0x19DA, 0x19DA), (0x2070, 0x2070),
    (0x2074, 0x2079), (0x2080, 0x2089), (0x2460, 0x2468), (0x2474, 0x247C), (0x2488, 0x2490),
    (0x24EA, 0x24EA), (0x24F5, 0x24FD), (0x24FF, 0x24FF), (0x2776, 0x277E), (0x2780, 0x2788),
    (0x278A, 0x2792), (0x10A40, 0x10A43), (0x10E60, 0x10E68), (0x11052, 0x1105A),
    (0x1F100, 0x1F10A)]

def decimalDigit? (c : Char) : Option Nat :=
  (decimalZeros.find? fun z => z ≤ c.toNat ∧ c.toNat < z + 10).map fun z => c.toNat - z

def isDigitChar (c : Char) : Bool :=
  (decimalDigit? c).isSome || otherDigits.any fun r => r.1 ≤ c.toNat && c.toNat ≤ r.2

/-- `str.isdigit`. -/
def isdigit (t : Token) : Bool := t != [] && t.all isDigitChar

/-- `str.isdecimal`: the token is a decimal number. -/
def isdecimal (t : Token) : Bool := t != [] && t.all fun c => (decimalDigit? c).isSome

def decimalValue? (t : Token) : Option Nat :=
  t.foldlM (fun n c => (decimalDigit? c).map fun d => 10 * n + d) 0

theorem decimalValue?_of_isdecimal {t : Token} (h : isdecimal t = true) :
    ∃ n, decimalValue? t = some n := by
  rw [isdecimal, Bool.and_eq_true, List.all_eq_true] at h
  have hfold : ∀ (cs : List Char) (n : Nat), (∀ c ∈ cs, (decimalDigit? c).isSome = true) →
      ∃ m, cs.foldlM (fun n c => (decimalDigit? c).map fun d => 10 * n + d) n = some m := by
    intro cs
    induction cs with
    | nil => exact fun n _ => ⟨n, rfl⟩
    | cons c cs ih =>
        intro n hcs
        obtain ⟨d, hd⟩ := Option.isSome_iff_exists.mp (hcs c List.mem_cons_self)
        rw [List.foldlM_cons, hd]
        exact ih _ fun c' hc' => hcs c' (List.mem_cons_of_mem c hc')
  exact hfold t 0 h.2

inductive PyError
  | keyError
  | indexError
  | valueError
  deriving DecidableEq, Repr

/-- `sys.get_int_max_str_digits()`. -/
def intMaxStrDigits : Nat := 4300

/-- `int(t)` of a string of digits. -/
def int (t : Token) : Except PyError Nat :=
  match decimalValue? t with
  | none => .error .valueError
  | some n => if intMaxStrDigits < t.length then .error .valueError else .ok n

def init : Token := ['i', 'n', 'i', 't']
def inf : Token := ['i', 'n', 'f']
def detach : Token := ['d', 'e', 't', 'a', 'c', 'h']
def detachSwitchOff : Token := detach ++ ['_', 's', 'w', 'i', 't', 'c', 'h', '_', 'o', 'f', 'f']
def attach : Token := ['a', 't', 't', 'a', 'c', 'h']
def moveToIdle : Token := ['m', 'o', 'v', 'e', '_', 't', 'o', '_', 'i', 'd', 'l', 'e']
def moveToConnected : Token :=
  ['m', 'o', 'v', 'e', '_', 't', 'o', '_', 'c', 'o', 'n', 'n', 'e', 'c', 't', 'e', 'd']
def x2handover : Token := ['x', '2', 'h', 'a', 'n', 'd', 'o', 'v', 'e', 'r']
def s1handover : Token := ['s', '1', 'h', 'a', 'n', 'd', 'o', 'v', 'e', 'r']

/-- What the validation adds to its counter, and the byte of the action. -/
abbrev ActionEntry := Int × UInt8

def actions : List (Token × ActionEntry) :=
  [(init, 0, 0), (detach, 1, 1), (detachSwitchOff, 1, 2), (attach, -1, 3), (moveToIdle, 3, 4),
    (moveToConnected, -3, 5)]

def specialActions : List (Token × ActionEntry) :=
  [(x2handover, 0, 6), (attach, -1, 7), (s1handover, 0, 8)]

/-- What an action adds to the counter; `none` where the validation returns false. -/
def counterStep? (a : Token) : Option Int :=
  match actions.lookup a with
  | some entry => some entry.1
  | none =>
      if x2handover.isPrefixOf a || attach.isPrefixOf a || s1handover.isPrefixOf a then
        match a.splitOn '_' with
        | [name, number] =>
            match specialActions.lookup name with
            | some entry => if isdigit number then some entry.1 else none
            | none => none
        | _ => none
      else none

/-- The loop over the tokens behind the first, with `counter` and `numFlag`; `none` where the
validation returns false. -/
def validateTokens : List Token → Int → Bool → Option (Int × Bool)
  | [], counter, numFlag => some (counter, numFlag)
  | a :: as, counter, numFlag =>
      if isdigit a || a == inf then
        if numFlag then none else validateTokens as counter true
      else if a = init then none
      else
        match counterStep? a with
        | none => none
        | some d =>
            if counter + d ≠ 0 ∧ (counter + d) % 2 = 0 then none
            else if numFlag then validateTokens as (counter + d) false
            else none

def validateControlPlaneActions (actionsString : List Char) : Bool :=
  match actionsString.splitOn '-' with
  | [] => false
  | first :: rest =>
      if first = init then
        match validateTokens rest 0 false with
        | none => false
        | some (counter, numFlag) =>
            !((counter != 0 && (first :: rest).getLast? != some inf) || !numFlag)
      else false

def threeBytes (n : Nat) : List UInt8 := [byteAt n 2, byteAt n 1, byteAt n 0]

def serializeAction (a : Token) : Except PyError (List UInt8) :=
  match actions.lookup a with
  | some entry => .ok [entry.2]
  | none =>
      -- the structure of a handover also serves an attach to an eNB
      match a.splitOn '_' with
      | [] => .error .indexError
      | name :: fields =>
          match specialActions.lookup name with
          | none => .error .keyError
          | some entry =>
              match fields with
              | [] => .error .indexError
              | number :: _ =>
                  match int number with
                  | .error e => .error e
                  | .ok enbId => .ok (entry.2 :: (threeBytes enbId ++ [0]))

def serializeTokens : List Token → Except PyError (List UInt8)
  | [] => .ok []
  | a :: rest =>
      match serializeAction a with
      | .error e => .error e
      | .ok action =>
          match rest with
          | [] => .error .indexError
          | delay :: rest =>
              if delay = inf then .ok (action ++ [0xFF, 0xFF, 0xFF])
              else
                match int delay with
                | .error e => .error e
                | .ok n =>
                    match serializeTokens rest with
                    | .error e => .error e
                    | .ok data => .ok (action ++ threeBytes n ++ data)

def serializeControlPlane (actionsStrings : List Char) : Except PyError (List UInt8) :=
  serializeTokens (actionsStrings.splitOn '-')

end PublicCloudCore.RanController
