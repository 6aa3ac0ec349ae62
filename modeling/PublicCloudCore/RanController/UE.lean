import PublicCloudCore.Framework.Memory

/-!
# The roles that the RAN controller hands out

`UE.serialize` makes the message that turns a slave into a UE. Addresses are the numbers that
`inet_aton` makes of them.
-/

namespace PublicCloudCore.RanController

def codeOk : UInt8 := 0x80
def codeUeBehaviour : UInt8 := 0x02

/-- `(n >> 8 * k) & 0xFF`. -/
def byteAt (n k : Nat) : UInt8 := UInt8.ofNat (n >>> (8 * k))

/-- The four bytes of a number, the highest first. -/
def word (n : Nat) : List UInt8 := [byteAt n 3, byteAt n 2, byteAt n 1, byteAt n 0]

def halfWord (n : Nat) : List UInt8 := [byteAt n 1, byteAt n 0]

/-- `ord(c) & 0xFF`. -/
def ord (c : Char) : UInt8 := UInt8.ofNat c.toNat

/-- What `UE.serialize` reads of an eNB: the address of the slave that runs it. -/
structure ENB where
  address : Option UInt32

/-- What `serialize` reads of a UE. -/
structure UE where
  id : Nat
  mcc : List Char
  mnc : List Char
  msin : List Char
  key : List UInt8
  opKey : List UInt8
  command : List Char
  serializedControlPlane : List UInt8

def UE.imsi (ue : UE) : List Char := ue.mcc ++ ue.mnc ++ ue.msin

/-- The port of the gateway behind a multiplexer, or of the gateway itself. -/
def multiplexerPort (multiplexer epc : UInt32) : Nat := if epc = multiplexer then 2152 else 2154

/-- The fields of the message in front of the control plane. -/
def UE.fields (ue : UE) (code : UInt8) (address multiplexer epc : UInt32) : List (List UInt8) :=
  [[code], word ue.id, ue.imsi.map ord, ue.key, ue.opKey, halfWord ue.command.length,
    ue.command.map ord, word address.toNat, word multiplexer.toNat,
    halfWord (multiplexerPort multiplexer epc)]

def UE.serialize (ue : UE) (code : UInt8) (enb : ENB) (multiplexer epc : UInt32) : List UInt8 :=
  match enb.address with
  -- the slave of the eNB is not known yet
  | none => []
  | some address =>
      (ue.fields code address multiplexer epc).flatten ++ ue.serializedControlPlane

theorem UE.serialize_of_address (ue : UE) (code : UInt8) {enb : ENB} {address : UInt32}
    (h : enb.address = some address) (multiplexer epc : UInt32) :
    ue.serialize code enb multiplexer epc =
      (ue.fields code address multiplexer epc).flatten ++ ue.serializedControlPlane := by
  rw [serialize, h]

theorem byteAt_toNat (n k : Nat) : (byteAt n k).toNat = n / 2 ^ (8 * k) % 256 := by
  rw [byteAt, UInt8.toNat_ofNat', Nat.shiftRight_eq_div_pow]

def bigEndian (bs : List UInt8) : Nat := bs.foldl (fun n b => 256 * n + b.toNat) 0

theorem bigEndian_word (n : Nat) : bigEndian (word n) = n % 2 ^ 32 := by
  simp only [bigEndian, word, List.foldl_cons, List.foldl_nil, byteAt_toNat]
  omega

theorem bigEndian_halfWord (n : Nat) : bigEndian (halfWord n) = n % 2 ^ 16 := by
  simp only [bigEndian, halfWord, List.foldl_cons, List.foldl_nil, byteAt_toNat]
  omega

end PublicCloudCore.RanController
