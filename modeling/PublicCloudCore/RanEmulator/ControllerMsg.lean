import PublicCloudCore.RanController.UE

/-!
# Messages of the controller

`analyze_controller_msg`. The buffer is memory: the datagram lies at its start, and what follows
is an older content of the stack. The decoder keeps its position in a `uint8_t`.
-/

namespace PublicCloudCore.RanEmulator

open Framework RanController

def codeError : UInt8 := 0x00
def codeOk : UInt8 := 0x80
def codeEnbBehaviour : UInt8 := 0x01
def codeUeBehaviour : UInt8 := 0x02
def codeCpModeOnly : UInt8 := 0x0B

/-- `ue_data`; the character arrays with the zeros that `bzero` leaves behind the text, `command`
and `control_plane` as the blocks that `calloc` returns. -/
structure UeData where
  id : List UInt8
  mcc : List UInt8
  mnc : List UInt8
  msin : List UInt8
  key : List UInt8
  opKey : List UInt8
  command : List UInt8
  enbIp : List UInt8
  localIp : List UInt8
  ueIp : List UInt8
  spgwPort : UInt16
  threadId : Int
  controlPlane : List UInt8

structure EnbData where
  id : List UInt8
  mcc : List UInt8
  mnc : List UInt8
  epcIp : List UInt8
  enbIp : List UInt8

/-- The globals `local_ip` and `ue_ip`. -/
structure SlaveIp where
  localIp : List UInt8
  ueIp : List UInt8

inductive ControllerAction
  | none
  | abort
  | startUe (data : UeData)
  | startEnb (data : EnbData)
  | wrongFormat (response : UInt8)
  | startCpModeOnly (numThreads : Nat)

/-- `buffer[p] << 8 | buffer[p + 1]`. -/
def readHalfWord (buffer : Mem UInt8) (p : Nat) : UInt16 :=
  UInt16.ofNat ((buffer p).toNat * 256 + (buffer (p + 1)).toNat)

def analyzeUeBehaviour (ip : SlaveIp) (buffer : Mem UInt8) (len : Nat) (cpMode : Int) :
    ControllerAction :=
  let offset : UInt8 := 1
  let id := buffer.read offset.toNat 4
  let offset := offset + 4
  let mcc := buffer.read offset.toNat 3 ++ [0]
  let offset := offset + 3
  let mnc := buffer.read offset.toNat 2 ++ [0, 0]
  let offset := offset + 2
  let msin := buffer.read offset.toNat 10 ++ [0, 0]
  let offset := offset + 10
  let key := buffer.read offset.toNat 16
  let offset := offset + 16
  let opKey := buffer.read offset.toNat 16
  let offset := offset + 16
  let commandLen := readHalfWord buffer offset.toNat
  let offset := offset + 2
  let command := buffer.read offset.toNat commandLen.toNat ++ [0]
  let offset := offset + commandLen.toUInt8
  let enbIp := buffer.read offset.toNat 4
  let offset := offset + 4
  let tempIp := buffer.read offset.toNat 4
  let offset := offset + 4
  let spgwPort := readHalfWord buffer offset.toNat
  let offset := offset + 2
  let ueIp := if spgwPort = 2152 then ip.ueIp else tempIp
  let controlPlaneLen := UInt16.ofInt (len - offset.toNat)
  let controlPlane := buffer.read offset.toNat controlPlaneLen.toNat
  let offset := offset + controlPlaneLen.toUInt8
  let offset := offset + 4
  if len + 4 < offset.toNat then .wrongFormat codeUeBehaviour
  else
    .startUe { id, mcc, mnc, msin, key, opKey, command, enbIp, localIp := ip.localIp, ueIp,
               spgwPort, threadId := cpMode, controlPlane }

def analyzeEnbBehaviour (ip : SlaveIp) (buffer : Mem UInt8) (len : Nat) : ControllerAction :=
  if len < 14 then .wrongFormat codeEnbBehaviour
  else
    .startEnb {
      id := buffer.read 1 4
      mcc := (buffer.read 5 3).map (· + 0x30) ++ [0]
      mnc := (buffer.read 8 2).map (· + 0x30) ++ [0, 0]
      epcIp := buffer.read 10 4
      enbIp := ip.localIp }

def analyzeControllerMsg (ip : SlaveIp) (buffer : Mem UInt8) (len : Int) (cpMode : Int) :
    ControllerAction :=
  if len ≤ 0 then .none
  else if buffer 0 = codeError then .abort
  else if buffer 0 = codeOk ||| codeUeBehaviour then
    analyzeUeBehaviour ip buffer len.toNat cpMode
  else if buffer 0 = codeOk ||| codeEnbBehaviour then analyzeEnbBehaviour ip buffer len.toNat
  else if buffer 0 = codeOk ||| codeCpModeOnly then
    .startCpModeOnly (bigEndian (buffer.read 1 4))
  else .none

end PublicCloudCore.RanEmulator
