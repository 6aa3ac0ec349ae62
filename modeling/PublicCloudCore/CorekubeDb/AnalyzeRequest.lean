import PublicCloudCore.CorekubeDb.Records

/-!
# `analyze_request`

The server's request handler in `corekubeDB.c`. A request is the bytes from its first byte to
the end of the array it lies in, of which `request_len` were received; `request + offset` is the
list without its first `offset` bytes. What the C code does not define (a read behind the
request array, a write behind the response array, the `user` pointer that a `NEW_ENB` identity
leaves unset) is a `Fault`.
-/

namespace PublicCloudCore.CorekubeDb

open Framework

inductive Fault
  | requestOverrun
  | responseOverflow
  | noUser
  deriving DecidableEq, Repr

structure Work where
  user : Option UserInfo
  eNBs : HashMap hashEnbInfo
  rand : RandStream
  response : Mem UInt8
  resOffset : Nat

def theUser : Option UserInfo → Except Fault UserInfo
  | some u => .ok u
  | none => .error .noUser

/-- `memcpy(get_user_field(user), request+offset+1+skip, len)`. -/
structure PushTarget where
  field : Field
  field_ne_imsi : field ≠ .imsi
  skip : Nat
  len : Nat

/-- The PUSH switch, as far as it stores into the user. -/
def pushTarget : ItemType → Option PushTarget
  | .mmeUeS1apId => some ⟨.mmeUeS1apId, by decide, 0, mmeUeS1apIdLen⟩
  | .enbUeS1apId => some ⟨.enbUeS1apId, by decide, 0, enbUeS1apIdLen⟩
  | .targetEnbUeS1apId => some ⟨.targetEnbUeS1apId, by decide, 0, enbUeS1apIdLen⟩
  | .ueTeid => some ⟨.ueTeid, by decide, 0, teidLen⟩
  | .spgwIp => some ⟨.spgwIp, by decide, 0, ipLen⟩
  | .enbIp => some ⟨.enbIp, by decide, 0, ipLen⟩
  -- `request[offset+6]`
  | .epcNasSequenceNumber => some ⟨.epcNasSequenceNumber, by decide, 5, 1⟩
  | .ueNasSequenceNumber => some ⟨.ueNasSequenceNumber, by decide, 5, 1⟩
  | .nextHopChainingCount => some ⟨.nextHopChainingCount, by decide, 0, 1⟩
  | .authRes => some ⟨.authRes, by decide, 0, authResLen⟩
  | .encKey => some ⟨.encKey, by decide, 0, keyLen⟩
  | .intKey => some ⟨.intKey, by decide, 0, keyLen⟩
  | .kasme1 => some ⟨.kasme1, by decide, 0, keyLen⟩
  | .kasme2 => some ⟨.kasme2, by decide, 0, keyLen⟩
  | .knh1 => some ⟨.knh1, by decide, 0, keyLen⟩
  | .knh2 => some ⟨.knh2, by decide, 0, keyLen⟩
  | .enbSourceSocket => some ⟨.enbSourceSocket, by decide, 0, socketLen⟩
  | .enbTargetSocket => some ⟨.enbTargetSocket, by decide, 0, socketLen⟩
  -- PDN_IP is commented out in the source
  | _ => none

def memcpyToUser (w : Work) (target : PushTarget) (value : List UInt8) : Except Fault Work := do
  let u ← theUser w.user
  if value.length < target.skip + target.len then .error .requestOverrun
  else
    .ok { w with
      user := some (u.set target.field target.field_ne_imsi
        ((value.drop target.skip).take target.len)) }

/-- `NEW_ENB`: a failed `hashmap_add` leaves the map as it was. -/
def pushEnb (w : Work) (value : List UInt8) : Except Fault Work :=
  if h : value.length < 8 then .error .requestOverrun
  else
    let newEnb := createEnb value (value.drop 4) (by rw [List.length_drop]; omega)
    .ok { w with eNBs := (hashmapAdd w.eNBs newEnb).getD w.eNBs }

/-- One turn of the PUSH loop; `value` is `request+offset+1`. -/
def pushItem (w : Work) (tag : UInt8) (value : List UInt8) : Except Fault Work :=
  match ItemType.ofCode tag with
  | some .newEnb => pushEnb w value
  | some item =>
      match pushTarget item with
      | some target => memcpyToUser w target value
      | none => .ok w
  | none => .ok w

/-- `while(request[offset] != 0)`, without a bound on `offset`. -/
def pushLoop (request : List UInt8) (w : Work) (offset : Nat) : Except Fault (Work × Nat) :=
  match _h : request.drop offset with
  | [] => .error .requestOverrun
  | tag :: value =>
      if tag = 0 then .ok (w, offset)
      else
        match pushItem w tag value with
        | .error e => .error e
        | .ok w' => pushLoop request w' (offset + 17)
termination_by request.length - offset
decreasing_by
  have := congrArg List.length _h
  simp only [List.length_drop, List.length_cons] at this
  omega

/-- What a case of the PULL switch does: the item code it puts at `response[res_offset]`, the
bytes behind it, and the user and the random numbers afterwards. -/
structure PullAnswer where
  tag : ItemType
  bytes : List UInt8
  user : Option UserInfo
  rand : RandStream

/-- A case that copies `n` bytes from a member of the user. -/
def answerField (user : Option UserInfo) (rand : RandStream) (tag : ItemType) (f : Field)
    (n : Nat) : Except Fault (Option PullAnswer) := do
  let u ← theUser user
  .ok (some ⟨tag, u.copy f n, some u, rand⟩)

/-- `memset(response+res_offset+1, 0, 16)` and one byte stored at `response[res_offset+1+i]`. -/
def zeroFilled (i : Nat) (value : UInt8) : List UInt8 := (List.replicate 16 0).set i value

/-- The PULL switch; `args` is `request+offset+1`. An item without a case writes nothing. -/
def pullSwitch (user : Option UserInfo) (eNBs : HashMap hashEnbInfo) (rand : RandStream)
    (tag : UInt8) (args : List UInt8) : Except Fault (Option PullAnswer) :=
  match ItemType.ofCode tag with
  | some .imsi => do
      let u ← theUser user
      -- `response[res_offset+16] = 0` falls on the last of the copied bytes
      .ok (some ⟨.imsi, (u.copy .imsi imsiLen).set 15 0, some u, rand⟩)
  | some .msin => do
      let u ← theUser user
      .ok (some ⟨.msin, getUserMsin u, some u, rand⟩)
  | some .tmsi => answerField user rand .tmsi .tmsi tmsiLen
  | some .enbUeS1apId => answerField user rand .enbUeS1apId .enbUeS1apId enbUeS1apIdLen
  | some .targetEnbUeS1apId =>
      answerField user rand .targetEnbUeS1apId .targetEnbUeS1apId enbUeS1apIdLen
  | some .ueTeid => answerField user rand .ueTeid .ueTeid teidLen
  -- the three address cases pass their item code as the length
  | some .spgwIp => answerField user rand .spgwIp .spgwIp ItemType.spgwIp.code.toNat
  | some .enbIp => answerField user rand .enbIp .enbIp ItemType.enbIp.code.toNat
  | some .pdnIp => answerField user rand .pdnIp .pdnIpv4 ItemType.pdnIp.code.toNat
  | some .epcNasSequenceNumber => do
      let u ← theUser user
      let tmpNas := getUserEpcNasSequenceNumber u
      .ok (some ⟨.epcNasSequenceNumber, zeroFilled 5 tmpNas,
        some (setUserEpcNasSequenceNumber u (tmpNas + 1)), rand⟩)
  | some .ueNasSequenceNumber => do
      let u ← theUser user
      let tmpNas := getUserUeNasSequenceNumber u
      .ok (some ⟨.ueNasSequenceNumber, zeroFilled 0 tmpNas,
        some (setUserUeNasSequenceNumber u (tmpNas + 1)), rand⟩)
  | some .ueNasSequenceNumberNoInc => do
      let u ← theUser user
      .ok (some ⟨.ueNasSequenceNumber, zeroFilled 0 (getUserUeNasSequenceNumber u), some u, rand⟩)
  | some .nextHopChainingCount => do
      let u ← theUser user
      let tmpNas := getUserNextHopChainingCount u
      .ok (some ⟨.nextHopChainingCount, zeroFilled 0 tmpNas,
        some (setUserNextHopChainingCount u (tmpNas + 1)), rand⟩)
  | some .key => answerField user rand .key .key keyLen
  | some .opc => answerField user rand .opc .opc keyLen
  | some .rand => answerField user rand .rand .rand randLen
  | some .randUpdate => do
      let u ← theUser user
      let (u', rand') := generateRand u rand
      .ok (some ⟨.randUpdate, u.copy .rand randLen, some u', rand'⟩)
  | some .mmeUeS1apId => answerField user rand .mmeUeS1apId .mmeUeS1apId mmeUeS1apIdLen
  | some .epcTeid => answerField user rand .epcTeid .epcTeid teidLen
  | some .authRes => answerField user rand .authRes .authRes authResLen
  | some .encKey => answerField user rand .encKey .encKey keyLen
  | some .intKey => answerField user rand .intKey .intKey keyLen
  | some .kasme1 => answerField user rand .kasme1 .kasme1 keyLen
  | some .kasme2 => answerField user rand .kasme2 .kasme2 keyLen
  | some .knh1 => answerField user rand .knh1 .knh1 keyLen
  | some .knh2 => answerField user rand .knh2 .knh2 keyLen
  -- the sockets are four bytes long and sixteen are copied
  | some .enbSourceSocket => answerField user rand .enbSourceSocket .enbSourceSocket keyLen
  | some .enbTargetSocket => answerField user rand .enbTargetSocket .enbTargetSocket keyLen
  | some .getEnb =>
      if args.length < 4 then .error .requestOverrun
      else
        match hashmapGet eNBs (arrayToUint32 (args.take 4)) with
        | none => .ok (some ⟨.getEnb, [], user, rand⟩)
        | some enb => .ok (some ⟨.getEnb, enb.sockNum, user, rand⟩)
  | _ => .ok none

/-- One turn of the PULL loop, the step to the next slot of the response included. -/
def pullItem (w : Work) (tag : UInt8) (args : List UInt8) : Except Fault Work := do
  match ← pullSwitch w.user w.eNBs w.rand tag args with
  | none => .ok { w with resOffset := w.resOffset + 17 }
  | some a =>
      if bufferLen < w.resOffset + 1 + a.bytes.length then .error .responseOverflow
      else
        .ok { w with
          user := a.user
          rand := a.rand
          response := w.response.write w.resOffset (a.tag.code :: a.bytes)
          resOffset := w.resOffset + 17 }

/-- How far the case of an item moves `offset`: `GET_ENB` skips the identifier. -/
def argLen (tag : UInt8) : Nat := if tag = ItemType.getEnb.code then 4 else 0

/-- `while(offset < request_len && request[offset] != EOM)`. -/
def pullLoop (request : List UInt8) (requestLen : Nat) (w : Work) (offset : Nat) :
    Except Fault (Work × Nat) :=
  if offset < requestLen then
    match request.drop offset with
    | [] => .error .requestOverrun
    | tag :: args =>
        if tag = ItemType.eom.code then .ok (w, offset)
        else
          match pullItem w tag args with
          | .error e => .error e
          | .ok w' => pullLoop request requestLen w' (offset + argLen tag + 1)
  else .ok (w, offset)
termination_by requestLen - offset

inductive Identity
  | user (key : UInt32)
  | newEnb
  | invalid
  deriving DecidableEq, Repr

/-- The switch over `request[0]`, up to the lookup. -/
def identify : List UInt8 → Except Fault Identity
  | [] => .error .requestOverrun
  | tag :: value =>
      match ItemType.ofCode tag with
      | some .imsi => match hashImsi value with
          | some key => .ok (.user key)
          | none => .error .requestOverrun
      | some .msin => match hashMsin value with
          | some key => .ok (.user key)
          | none => .error .requestOverrun
      | some .tmsi =>
          if value.length < tmsiLen then .error .requestOverrun
          else .ok (.user (hashTmsi (value.take tmsiLen)))
      | some .mmeUeS1apId =>
          if value.length < mmeUeS1apIdLen then .error .requestOverrun
          else .ok (.user (hashMmeUeS1apId (value.take mmeUeS1apIdLen)))
      | some .newEnb => .ok .newEnb
      | _ => .ok .invalid

/-- `for(i = 1; i < request_len; i++) if(request[i] == EOM) break;` -/
def scanEom (request : List UInt8) (requestLen i : Nat) : Nat :=
  if i < requestLen then
    if request[i]? = some ItemType.eom.code then i else scanEom request requestLen (i + 1)
  else i
termination_by requestLen - i

structure Answer where
  consumed : Nat
  response : Mem UInt8
  responseLen : Nat
  db : Db

/-- The exit for an invalid identity and for a user that does not exist. -/
def refuse (db : Db) (request : List UInt8) (requestLen : Nat) (response : Mem UInt8) : Answer where
  consumed := scanEom request requestLen 1 + 1
  response := response.write 0 [0]
  responseLen := 1
  db := db

/-- The two loops. -/
def serve (w : Work) (request : List UInt8) (requestLen : Nat) : Except Fault (Work × Nat) := do
  let (w, offset) ← pushLoop request w 17
  let (w, offset) ← pullLoop request requestLen w (offset + 1)
  .ok (w, offset + 1)

/-- The variables when the lookup has ended. -/
def Work.start (db : Db) (user : Option UserInfo) (response : Mem UInt8) : Work where
  user
  eNBs := db.eNBs
  rand := db.rand
  response
  resOffset := 0

/-- The stores of a call, all of them made through the pointers that the lookups returned. -/
def Work.commit (w : Work) (db : Db) (key : UInt32) : Db where
  imsiMap := match w.user with
    | some u => hashmapStore db.imsiMap key u
    | none => db.imsiMap
  eNBs := w.eNBs
  rand := w.rand

def analyzeRequest (db : Db) (request : List UInt8) (requestLen : Nat) (response : Mem UInt8) :
    Except Fault Answer := do
  match ← identify request with
  | .invalid => .ok (refuse db request requestLen response)
  | .newEnb =>
      let (w, consumed) ← serve (.start db none response) request requestLen
      .ok { consumed, response := w.response, responseLen := w.resOffset,
            db := { db with eNBs := w.eNBs, rand := w.rand } }
  | .user key =>
      match db.user? key with
      | none => .ok (refuse db request requestLen response)
      | some u =>
          let (w, consumed) ← serve (.start db (some u) response) request requestLen
          .ok { consumed, response := w.response, responseLen := w.resOffset, db := w.commit db key }

end PublicCloudCore.CorekubeDb
