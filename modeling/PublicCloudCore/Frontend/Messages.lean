import PublicCloudCore.Framework.Transport

/-!
# Messages through the frontend

The bytes of a message between the eNB and the worker: the reads of `uplink_thread`, the datagram
it sends, the buffer of the worker, the reply that starts with the same four bytes, and what
`downlink_thread` hands to `sctp_sendmsg`.
-/

namespace PublicCloudCore.Frontend

open Framework

def intToArray (num : Int) : List UInt8 :=
  [UInt8.ofNat (num / 2 ^ 24 % 256).toNat, UInt8.ofNat (num / 2 ^ 16 % 256).toNat,
    UInt8.ofNat (num / 2 ^ 8 % 256).toNat, UInt8.ofNat (num % 256).toNat]

@[simp] theorem length_intToArray (num : Int) : (intToArray num).length = 4 := rfl

def byteAt (buffer : List UInt8) (i : Nat) : Int := (buffer.getD i 0).toNat

def joinBytes (buffer : List UInt8) : Int :=
  2 ^ 24 * byteAt buffer 0 + 2 ^ 16 * byteAt buffer 1 + 2 ^ 8 * byteAt buffer 2 + byteAt buffer 3

def arrayToInt (buffer : List UInt8) : Int :=
  if joinBytes buffer < 2 ^ 31 then joinBytes buffer else joinBytes buffer - 2 ^ 32

/-- The values of an `int`. -/
def IsInt (num : Int) : Prop := -2 ^ 31 ≤ num ∧ num < 2 ^ 31

private theorem toNat_ofNat_byte (x : Int) :
    (((UInt8.ofNat (x % 256).toNat).toNat : Nat) : Int) = x % 256 := by
  rw [UInt8.toNat_ofNat']
  omega

theorem joinBytes_intToArray_append (num : Int) (rest : List UInt8) :
    joinBytes (intToArray num ++ rest) = num % 2 ^ 32 := by
  have hbyte0 : byteAt (intToArray num ++ rest) 0 = num / 2 ^ 24 % 256 := toNat_ofNat_byte _
  have hbyte1 : byteAt (intToArray num ++ rest) 1 = num / 2 ^ 16 % 256 := toNat_ofNat_byte _
  have hbyte2 : byteAt (intToArray num ++ rest) 2 = num / 2 ^ 8 % 256 := toNat_ofNat_byte _
  have hbyte3 : byteAt (intToArray num ++ rest) 3 = num % 256 := toNat_ofNat_byte _
  rw [joinBytes, hbyte0, hbyte1, hbyte2, hbyte3]
  omega

theorem arrayToInt_intToArray_append {num : Int} (h : IsInt num) (rest : List UInt8) :
    arrayToInt (intToArray num ++ rest) = num := by
  obtain ⟨hlow, hhigh⟩ := h
  rw [arrayToInt, joinBytes_intToArray_append]
  split <;> omega

theorem byteAt_take (buffer : List UInt8) {i : Nat} (h : i < 4) :
    byteAt (buffer.take 4) i = byteAt buffer i := by
  rw [byteAt, List.getD_eq_getElem?_getD, List.getElem?_take_of_lt h, byteAt,
    List.getD_eq_getElem?_getD]

theorem arrayToInt_take (buffer : List UInt8) : arrayToInt (buffer.take 4) = arrayToInt buffer := by
  have hjoin : joinBytes (buffer.take 4) = joinBytes buffer := by
    rw [joinBytes, joinBytes, byteAt_take _ (Nat.zero_lt_succ _), byteAt_take _ (by decide),
      byteAt_take _ (by decide), byteAt_take _ (by decide)]
  rw [arrayToInt, arrayToInt, hjoin]

def s1apPpid : UInt32 := 18

def ngapPpid : UInt32 := 60

def acceptedPpid (flag5g : Bool) : UInt32 := if flag5g then ngapPpid else s1apPpid

def uplinkBufferLen : Nat := 1020

theorem uplinkBufferLen_pos : 0 < uplinkBufferLen := by decide

/-- The bytes of one `sctp_recvmsg` and the PPID that comes with them. -/
structure Recvmsg where
  ppid : UInt32
  bytes : List UInt8
  deriving Repr, DecidableEq

def recvmsgs (ppid : UInt32) (message : List UInt8) : List Recvmsg :=
  (sctpReads uplinkBufferLen uplinkBufferLen_pos message).map fun bytes => ⟨ppid, bytes⟩

/-- The datagrams that `uplink_thread` sends for these reads. -/
def uplinkLoop (flag5g : Bool) (sockEnb : Int) : List Recvmsg → List (List UInt8)
  | [] => []
  | r :: rs =>
      if r.bytes = [] then
        []
      else if r.ppid ≠ acceptedPpid flag5g then
        uplinkLoop flag5g sockEnb rs
      else
        (intToArray sockEnb ++ r.bytes) :: uplinkLoop flag5g sockEnb rs

theorem uplinkLoop_recvmsgs (flag5g : Bool) (sockEnb : Int) (message : List UInt8) :
    uplinkLoop flag5g sockEnb (recvmsgs (acceptedPpid flag5g) message) =
      (sctpReads uplinkBufferLen uplinkBufferLen_pos message).map (intToArray sockEnb ++ ·) := by
  have hne : ∀ bytes ∈ sctpReads uplinkBufferLen uplinkBufferLen_pos message, bytes ≠ [] := by
    intro bytes h
    exact List.length_pos_iff.mp (length_of_mem_sctpReads h).1
  rw [recvmsgs]
  generalize sctpReads uplinkBufferLen uplinkBufferLen_pos message = reads at hne
  induction reads with
  | nil => rfl
  | cons bytes rest ih =>
      have hbytes : bytes ≠ [] := hne bytes (by simp)
      have hrest := ih fun b hb => hne b (by simp [hb])
      simp only [List.map_cons, uplinkLoop, if_neg hbytes, ne_eq, not_true_eq_false, if_false]
      rw [hrest]

theorem uplinkLoop_other_ppid {flag5g : Bool} {ppid : UInt32} (h : ppid ≠ acceptedPpid flag5g)
    (sockEnb : Int) (message : List UInt8) :
    uplinkLoop flag5g sockEnb (recvmsgs ppid message) = [] := by
  rw [recvmsgs]
  induction sctpReads uplinkBufferLen uplinkBufferLen_pos message with
  | nil => rfl
  | cons bytes rest ih =>
      simp only [List.map_cons, uplinkLoop]
      split
      · rfl
      · exact ih

def workerBufferLen : Nat := 1024

/-- The assertion on `n` and the two messages that test the resiliency of the worker. -/
def passesToHandler (buffer : List UInt8) : Bool :=
  0 < buffer.length && !(buffer.length == 3 && (buffer.getD 0 0 == 3 || buffer.getD 0 0 == 4))

/-- What `start_listener` passes to `process_message` of the datagrams sent to it. -/
def startListener (datagrams : List (List UInt8)) : List (List UInt8) :=
  (datagrams.map (udpRead workerBufferLen)).takeWhile passesToHandler

/-- `response_out`, of the datagram that is answered and one encoded response. -/
def responseOut (buffer : List UInt8) (sctpStreamID : UInt8) (response : List UInt8) :
    List UInt8 :=
  buffer.take 4 ++ sctpStreamID :: response

theorem arrayToInt_responseOut {buffer : List UInt8} (h : 4 ≤ buffer.length)
    (sctpStreamID : UInt8) (response : List UInt8) :
    arrayToInt (responseOut buffer sctpStreamID response) = arrayToInt buffer := by
  rw [← arrayToInt_take (responseOut buffer sctpStreamID response), responseOut,
    List.take_append_of_le_length (by simpa using h), List.take_take, Nat.min_self,
    arrayToInt_take]

/-- The largest payload of a UDP datagram. -/
def udpMaxLen : Nat := 65507

def sendto (datagram : List UInt8) : List (List UInt8) :=
  if datagram.length ≤ udpMaxLen then [datagram] else []

def downlinkBufferLen : Nat := 1024

/-- The arguments of one `sctp_sendmsg`: `len` is an `int` that the call takes as a size. -/
structure Sendmsg where
  sockEnb : Int
  msg : List UInt8
  len : Int
  ppid : UInt32
  stream : UInt8
  deriving Repr, DecidableEq

/-- What `downlink_thread` sends after one `recv`. -/
def downlinkSend (flag5g : Bool) (buffer : List UInt8) : Sendmsg where
  sockEnb := arrayToInt buffer
  msg := buffer.drop 5
  len := buffer.length - 5
  ppid := acceptedPpid flag5g
  stream := buffer.getD 4 0

theorem downlinkSend_sockEnb (flag5g : Bool) (buffer : List UInt8) :
    (downlinkSend flag5g buffer).sockEnb = arrayToInt buffer := by
  rw [downlinkSend]

/-- The SCTP messages that reach the eNB: there is none without bytes. -/
def Sendmsg.messages (m : Sendmsg) : List (List UInt8) :=
  if 0 < m.len then [m.msg.take m.len.toNat] else []

/-- `downlink_thread` on the datagrams sent to it, as long as no `sctp_sendmsg` fails. -/
def downlinkLoop (flag5g : Bool) (datagrams : List (List UInt8)) : List Sendmsg :=
  ((datagrams.map (udpRead downlinkBufferLen)).takeWhile (· ≠ [])).map (downlinkSend flag5g)

theorem downlinkLoop_responseOut (flag5g : Bool) {buffer : List UInt8} (h : 4 ≤ buffer.length)
    (sctpStreamID : UInt8) (response : List UInt8) :
    downlinkLoop flag5g [responseOut buffer sctpStreamID response] =
      [{ sockEnb := arrayToInt buffer
         msg := response.take 1019
         len := (response.take 1019).length
         ppid := acceptedPpid flag5g
         stream := sctpStreamID }] := by
  have htag : (buffer.take 4).length = 4 := by
    rw [List.length_take]
    omega
  have hread : udpRead downlinkBufferLen (responseOut buffer sctpStreamID response) =
      responseOut buffer sctpStreamID (response.take 1019) := by
    rw [responseOut, udpRead_prefix _ _ (by rw [htag]; decide), htag]
    rfl
  have hne : responseOut buffer sctpStreamID (response.take 1019) ≠ [] := by
    simp [responseOut]
  have hdrop : (responseOut buffer sctpStreamID (response.take 1019)).drop 5 =
      response.take 1019 := by
    rw [responseOut, List.drop_append, htag, List.drop_of_length_le (by rw [htag]; decide)]
    rfl
  have hlength : (responseOut buffer sctpStreamID (response.take 1019)).length =
      (response.take 1019).length + 5 := by
    rw [responseOut, List.length_append, htag, List.length_cons]
    omega
  have hstream : (responseOut buffer sctpStreamID (response.take 1019)).getD 4 0 =
      sctpStreamID := by
    rw [responseOut, List.getD_append_right _ _ _ _ (by rw [htag]), htag]
    rfl
  simp only [downlinkLoop, List.map_cons, List.map_nil, hread, List.takeWhile_cons, ne_eq, hne,
    not_false_eq_true, decide_true, if_true, List.takeWhile_nil, downlinkSend, hdrop, hlength,
    hstream, arrayToInt_responseOut h]
  simp

/-- The worker gets one datagram, and after the tag it is the message. -/
def UplinkTransparent (flag5g : Bool) (sockEnb : Int) (message : List UInt8) : Prop :=
  ∃ datagram, startListener (uplinkLoop flag5g sockEnb (recvmsgs (acceptedPpid flag5g) message)) =
    [datagram] ∧ datagram.drop 4 = message

/-- The eNB gets one message, and it is the encoded response to the datagram. -/
def DownlinkTransparent (flag5g : Bool) (datagram : List UInt8) (sctpStreamID : UInt8)
    (response : List UInt8) : Prop :=
  (downlinkLoop flag5g (sendto (responseOut datagram sctpStreamID response))).flatMap
    Sendmsg.messages = [response]

theorem startListener_uplinkLoop (flag5g : Bool) (sockEnb : Int) (message : List UInt8) :
    startListener (uplinkLoop flag5g sockEnb (recvmsgs (acceptedPpid flag5g) message)) =
      (sctpReads uplinkBufferLen uplinkBufferLen_pos message).map (intToArray sockEnb ++ ·) := by
  have hread : ((sctpReads uplinkBufferLen uplinkBufferLen_pos message).map
      (intToArray sockEnb ++ ·)).map (udpRead workerBufferLen) =
        (sctpReads uplinkBufferLen uplinkBufferLen_pos message).map (intToArray sockEnb ++ ·) := by
    rw [List.map_map]
    apply List.map_congr_left
    intro bytes h
    apply udpRead_of_length_le
    have hle := (length_of_mem_sctpReads h).2
    rw [List.length_append, length_intToArray]
    exact Nat.add_le_add_left hle 4
  rw [uplinkLoop_recvmsgs, startListener, hread]
  apply List.takeWhile_eq_self_iff.mpr
  intro datagram h
  obtain ⟨bytes, hbytes, rfl⟩ := List.mem_map.mp h
  have hlength : (intToArray sockEnb ++ bytes).length = 4 + bytes.length := by
    rw [List.length_append, length_intToArray]
  have hthree : (4 + bytes.length == 3) = false := by
    apply beq_false_of_ne
    omega
  rw [passesToHandler, hlength, hthree, Bool.false_and, Bool.not_false, Bool.and_true]
  apply decide_eq_true
  omega

theorem uplinkTransparent_iff {flag5g : Bool} {sockEnb : Int} {message : List UInt8} :
    UplinkTransparent flag5g sockEnb message ↔ 0 < message.length ∧ message.length ≤ 1020 := by
  rw [UplinkTransparent, startListener_uplinkLoop]
  constructor
  · intro ⟨datagram, hone, hdrop⟩
    obtain ⟨bytes, hreads, htagged⟩ := List.map_eq_singleton_iff.mp hone
    have hbytes : bytes = message := by
      rw [← hdrop, ← htagged]
      rfl
    rw [hbytes] at hreads
    exact sctpReads_eq_singleton_iff.mp hreads
  · intro h
    have hone : sctpReads uplinkBufferLen uplinkBufferLen_pos message = [message] :=
      sctpReads_eq_singleton_iff.mpr h
    rw [hone]
    exact ⟨_, rfl, rfl⟩

theorem downlinkTransparent_iff {flag5g : Bool} {datagram : List UInt8} {sctpStreamID : UInt8}
    {response : List UInt8} (h : 4 ≤ datagram.length) :
    DownlinkTransparent flag5g datagram sctpStreamID response ↔
      0 < response.length ∧ response.length ≤ 1019 := by
  have hlength : (responseOut datagram sctpStreamID response).length = response.length + 5 := by
    rw [responseOut, List.length_append, List.length_take, List.length_cons]
    omega
  have hlen : (response.take 1019).length = min 1019 response.length := List.length_take
  rw [DownlinkTransparent, sendto]
  by_cases hudp : (responseOut datagram sctpStreamID response).length ≤ udpMaxLen
  · rw [if_pos hudp, downlinkLoop_responseOut flag5g h, List.flatMap_singleton]
    simp only [Sendmsg.messages, Int.toNat_natCast, List.take_length, Int.natCast_pos]
    constructor
    · intro hone
      split at hone
      · next hpos =>
        have hsame := List.singleton_inj.mp hone
        rw [hlen] at hpos
        exact ⟨by omega, List.take_eq_self_iff _ |>.mp hsame⟩
      · cases hone
    · intro ⟨hpos, hle⟩
      rw [if_pos (by omega), List.take_of_length_le hle]
  · rw [if_neg hudp]
    constructor
    · intro hone
      cases hone
    · intro ⟨_, hle⟩
      rw [hlength, udpMaxLen] at hudp
      omega

/-- The messages that pass the frontend whole, and the replies to them that do. -/
theorem transparent_iff (flag5g : Bool) (sockEnb : Int) (message : List UInt8)
    (sctpStreamID : UInt8) (response : List UInt8) :
    (UplinkTransparent flag5g sockEnb message ↔ 0 < message.length ∧ message.length ≤ 1020) ∧
      (DownlinkTransparent flag5g (intToArray sockEnb ++ message) sctpStreamID response ↔
        0 < response.length ∧ response.length ≤ 1019) := by
  refine ⟨uplinkTransparent_iff, downlinkTransparent_iff ?_⟩
  rw [List.length_append, length_intToArray]
  exact Nat.le_add_right _ _

/-- One byte more than the buffers hold, in either direction. -/
theorem not_transparent_above_the_buffers :
    ¬ (∀ (flag5g : Bool) (sockEnb : Int) (message : List UInt8), 0 < message.length →
        UplinkTransparent flag5g sockEnb message) ∧
      ¬ (∀ (flag5g : Bool) (sockEnb : Int) (message : List UInt8) (sctpStreamID : UInt8)
          (response : List UInt8), 0 < message.length → 0 < response.length →
          DownlinkTransparent flag5g (intToArray sockEnb ++ message) sctpStreamID response) := by
  constructor
  · intro h
    have hlong := h true 5 (List.replicate 1021 0) (by rw [List.length_replicate]; omega)
    have hle := (uplinkTransparent_iff.mp hlong).2
    rw [List.length_replicate] at hle
    omega
  · intro h
    have hlong := h true 5 [0] 1 (List.replicate 1020 0) Nat.one_pos (by rw [List.length_replicate]; omega)
    have hle := ((downlinkTransparent_iff (by simp)).mp hlong).2
    rw [List.length_replicate] at hle
    omega

end PublicCloudCore.Frontend
