import PublicCloudCore.Multiplexer.Relay
import PublicCloudCore.RanEmulator.CoreMessages
import PublicCloudCore.RanEmulator.UeRecord

/-!
# The data plane

The two threads of `data_plane.c` and the functions that set what they share. `downlink_thread`
receives a datagram over the one before it and its source into `spgw_addr`; how long the datagram
is does not count, and a packet that is no GTP packet has the TEID 0 and the length of an earlier
one. A tunnel is what the threads are for: the payload of a datagram for its TEID goes to the TUN
device, and what comes from there goes to its peer.
-/

namespace PublicCloudCore.RanEmulator

open Framework
open Multiplexer (Address Datagram)
open UeRecord (word longWord)

/-- What the threads of the data plane meet: a datagram, and a packet of the TUN device, or an
error in its place; and a store of `update_data_plane`, or `start_data_plane`. -/
inductive TunnelEvent
  | datagram (d : Datagram)
  | packet (bytes : Option (List UInt8))
  | spgwIp (ip : UInt32)
  | teid (teid : UInt32)
  | start (spgwIp : UInt32) (teid : UInt32) (spgwPort : UInt16)

/-- What comes of it. `none` are bytes that do not all lie in the buffer. -/
inductive TunnelOutput
  | tun (bytes : Option (List UInt8))
  | sent (dest : Address) (bytes : List UInt8)
  | silent
  deriving DecidableEq

def gtpFlags : UInt8 := 0x30
def gtpMessageType : UInt8 := 0xFF
def bufferDataLen : Nat := 2048

/-- `generate_gtp_header`, in network order. -/
def generateGtpHeader (teid : UInt32) (len : Int) : List UInt8 :=
  let length := UInt16.ofInt len
  [gtpFlags, gtpMessageType, (length >>> 8).toUInt8, length.toUInt8] ++ CoreMessages.htonl teid

/-- What a turn of `uplink_thread` sends: `len + 8` bytes, and `len` is -1 after an error. A packet
is not longer than the MTU of 1500 bytes. -/
def uplinkBytes (teid : UInt32) : Option (List UInt8) → List UInt8
  | some packet => generateGtpHeader teid packet.length ++ packet
  | none => (generateGtpHeader teid (-1)).take 7

/-- The payload that a datagram has for a TEID: as many bytes behind its header as the header says,
if they are there. -/
def gtpPayload (teid : UInt32) (datagram : List UInt8) : List UInt8 :=
  let header := Mem.ofList datagram 0
  if 8 ≤ datagram.length ∧ header 0 &&& 0xF0 = gtpFlags ∧ header 1 = gtpMessageType ∧
      longWord header 4 = teid ∧ word header 2 ≤ datagram.length - 8 then
    (datagram.drop 8).take (word header 2)
  else []

structure Tunnel where
  peer : Address
  teid : UInt32

def Tunnel.step (t : Tunnel) : TunnelEvent → TunnelOutput × Tunnel
  | .datagram d => (.tun (some (gtpPayload t.teid d.payload)), t)
  | .packet bytes => (.sent t.peer (uplinkBytes t.teid bytes), t)
  | .spgwIp ip => (.silent, { t with peer := ⟨ip, t.peer.port⟩ })
  | .teid teid => (.silent, { t with teid })
  | .start ip teid port => (.silent, ⟨⟨ip, port⟩, teid⟩)

def Tunnel.outputs (t : Tunnel) : List TunnelEvent → List TunnelOutput
  | [] => []
  | e :: es => (t.step e).1 :: (t.step e).2.outputs es

/-- The global variables that the threads share, and the buffer of `downlink_thread` with the stack
behind it. -/
structure DataPlane where
  spgwAddr : Address
  gtpTeid : UInt32
  buffer : Mem UInt8
  packetLen : Int

namespace DataPlane

def IsGtp (buf : Mem UInt8) : Prop := buf 0 &&& 0xF0 = gtpFlags ∧ buf 1 = gtpMessageType

instance (buf : Mem UInt8) : Decidable (IsGtp buf) := inferInstanceAs (Decidable (_ ∧ _))

/-- `analyze_gtp_header`: the TEID, and what it leaves in `len`. -/
def analyzeGtpHeader (buf : Mem UInt8) (len : Int) : UInt32 × Int :=
  if IsGtp buf then (longWord buf 4, word buf 2) else (0, len)

/-- `tun_write` of `n` bytes from `buffer + 8`. -/
def tunWrite (buf : Mem UInt8) (n : Int) : Option (List UInt8) :=
  if 0 ≤ n ∧ n + 8 ≤ bufferDataLen then some (buf.read 8 n.toNat) else none

/-- The buffer with a datagram received into it. -/
def received (buf : Mem UInt8) (payload : List UInt8) : Mem UInt8 :=
  buf.write 0 (udpRead bufferDataLen payload)

def recvfrom (s : DataPlane) (d : Datagram) : DataPlane :=
  { s with
    spgwAddr := d.source
    buffer := received s.buffer d.payload }

/-- The rest of the turn of `downlink_thread`: the bytes that go to the TUN device. -/
def forward (s : DataPlane) : Option (List UInt8) × DataPlane :=
  let (teid, packetLen) := analyzeGtpHeader s.buffer s.packetLen
  (if s.gtpTeid = teid then tunWrite s.buffer packetLen else some [], { s with packetLen })

def downlink (s : DataPlane) (d : Datagram) : Option (List UInt8) × DataPlane :=
  (s.recvfrom d).forward

/-- A turn of a thread, or a store of another. -/
def step (s : DataPlane) : TunnelEvent → TunnelOutput × DataPlane
  | .datagram d => ((.tun (s.downlink d).1), (s.downlink d).2)
  | .packet bytes => (.sent s.spgwAddr (uplinkBytes s.gtpTeid bytes), s)
  | .spgwIp ip => (.silent, { s with spgwAddr := ⟨ip, s.spgwAddr.port⟩ })
  | .teid teid => (.silent, { s with gtpTeid := teid })
  | .start ip teid port => (.silent, { s with spgwAddr := ⟨ip, port⟩, gtpTeid := teid })

def outputs (s : DataPlane) : List TunnelEvent → List TunnelOutput
  | [] => []
  | e :: es => (s.step e).1 :: (s.step e).2.outputs es

def tunnel (s : DataPlane) : Tunnel := ⟨s.spgwAddr, s.gtpTeid⟩

/-- The data plane does what its tunnel does, and is that tunnel, all the way. -/
def Tunnels (s : DataPlane) : List TunnelEvent → Prop
  | [] => True
  | e :: es => (s.step e).1 = (s.tunnel.step e).1 ∧ (s.step e).2.tunnel = (s.tunnel.step e).2 ∧
      (s.step e).2.Tunnels es

/-- A datagram from the SPGW. With it in the buffer, a GTP header for the UE there is the header of
the datagram and no longer than it says, unless it says zero; and anything else is not taken for a
packet of the length of an earlier one. -/
def Fits (s : DataPlane) (d : Datagram) : Prop :=
  let buf := received s.buffer d.payload
  d.source = s.spgwAddr ∧
    if IsGtp buf then
      longWord buf 4 = s.gtpTeid → word buf 2 = 0 ∨
        8 ≤ d.payload.length ∧ word buf 2 ≤ d.payload.length - 8 ∧
          word buf 2 + 8 ≤ bufferDataLen
    else s.gtpTeid = 0 → s.packetLen = 0

/-- Every datagram on the way fits. -/
def FitsAll (s : DataPlane) : List TunnelEvent → Prop
  | [] => True
  | e :: es => (∀ d, e = .datagram d → s.Fits d) ∧ (s.step e).2.FitsAll es

section Forward

variable {s : DataPlane} {d : Datagram} {teid : UInt32} {payload : List UInt8} {m : Mem UInt8}

theorem tunWrite_eq_nil_iff {n : Int} : tunWrite m n = some [] ↔ n = 0 := by
  rw [tunWrite]
  constructor
  · intro h
    split at h
    · next hn =>
      have hlength := congrArg List.length (Option.some.inj h)
      rw [Mem.read_length, List.length_nil] at hlength
      omega
    · cases h
  · rintro rfl
    rfl

theorem received_apply {i : Nat} (hi : i < payload.length) (hlen : i < bufferDataLen) :
    received m payload i = Mem.ofList payload 0 i := by
  have hread : i < (udpRead bufferDataLen payload).length := by
    rw [udpRead, List.length_take]
    omega
  have hinside := Mem.write_inside m 0 _ i hread
  rw [Nat.zero_add] at hinside
  rw [received, hinside, Mem.ofList, List.getD_eq_getElem _ _ hi]
  exact List.getElem_take

theorem read_received {k : Nat} (hn : 8 + k ≤ payload.length) (hlen : 8 + k ≤ bufferDataLen) :
    (received m payload).read 8 k = (payload.drop 8).take k := by
  apply List.ext_getElem
  · rw [Mem.read_length, List.length_take, List.length_drop]
    omega
  · intro i hi hi'
    rw [Mem.read_length] at hi
    rw [Mem.getElem_read, received_apply (by omega) (by omega), Mem.ofList,
      List.getD_eq_getElem _ _ (by omega), List.getElem_take, List.getElem_drop]

theorem gtpPayload_eq (hn : 8 ≤ payload.length) :
    gtpPayload teid payload =
      let buf := received m payload
      if IsGtp buf ∧ longWord buf 4 = teid ∧ word buf 2 ≤ payload.length - 8 then
        (payload.drop 8).take (word buf 2)
      else [] := by
  have hsame : ∀ i < 8, received m payload i = Mem.ofList payload 0 i :=
    fun i hi => received_apply (by omega) (Nat.lt_trans hi (by decide))
  have h0 := hsame 0 (by decide)
  have h1 := hsame 1 (by decide)
  have hword : word (received m payload) 2 =
      word (Mem.ofList payload 0) 2 := by
    rw [word, word, hsame 2 (by decide), hsame 3 (by decide)]
  have hlong : longWord (received m payload) 4 =
      longWord (Mem.ofList payload 0) 4 := by
    rw [longWord, longWord, hsame 4 (by decide), hsame 5 (by decide), hsame 6 (by decide),
      hsame 7 (by decide)]
  simp only [gtpPayload, IsGtp, h0, h1, hword, hlong, hn, true_and, and_assoc]

theorem gtpPayload_short (hn : ¬8 ≤ payload.length) : gtpPayload teid payload = [] := by
  simp [gtpPayload, hn]

theorem gtpPayload_eq_nil (h : ¬(8 ≤ payload.length ∧
    IsGtp (received m payload) ∧
    longWord (received m payload) 4 = teid ∧
    word (received m payload) 2 ≤ payload.length - 8)) :
    gtpPayload teid payload = [] := by
  by_cases hn : 8 ≤ payload.length
  · rw [gtpPayload_eq (m := m) hn]
    exact if_neg fun hdue => h ⟨hn, hdue⟩
  · exact gtpPayload_short hn

theorem gtpPayload_of_due (hn : 8 ≤ payload.length)
    (hgtp : IsGtp (received m payload))
    (hteid : longWord (received m payload) 4 = teid)
    (hlen : word (received m payload) 2 ≤ payload.length - 8) :
    gtpPayload teid payload =
      (payload.drop 8).take (word (received m payload) 2) := by
  rw [gtpPayload_eq (m := m) hn]
  exact if_pos ⟨hgtp, hteid, hlen⟩

theorem tunWrite_eq_gtpPayload_iff
    (hgtp : IsGtp (received m payload))
    (hteid : longWord (received m payload) 4 = teid) :
    tunWrite (received m payload) (word (received m payload) 2) =
        some (gtpPayload teid payload) ↔
      word (received m payload) 2 = 0 ∨ 8 ≤ payload.length ∧
        word (received m payload) 2 ≤ payload.length - 8 ∧
          word (received m payload) 2 + 8 ≤ bufferDataLen := by
  by_cases hzero : word (received m payload) 2 = 0
  · have hnil : gtpPayload teid payload = [] := by
      by_cases hn : 8 ≤ payload.length
      · have hlen : word (received m payload) 2 ≤ payload.length - 8 := by omega
        rw [gtpPayload_of_due (m := m) hn hgtp hteid hlen, hzero, List.take_zero]
      · exact gtpPayload_short hn
    rw [hnil, tunWrite_eq_nil_iff, Int.natCast_eq_zero]
    simp [hzero]
  by_cases hdue : 8 ≤ payload.length ∧ word (received m payload) 2 ≤ payload.length - 8
  · rw [gtpPayload_of_due (m := m) hdue.1 hgtp hteid hdue.2, tunWrite]
    by_cases hlen : word (received m payload) 2 + 8 ≤ bufferDataLen
    · rw [if_pos (by omega), Int.toNat_natCast, read_received (by omega) (by omega)]
      simp [hdue, hlen]
    · rw [if_neg (by omega)]
      simp [hzero, hlen]
  · have hnil : gtpPayload teid payload = [] :=
      gtpPayload_eq_nil (m := m) fun h => hdue ⟨h.1, h.2.2.2⟩
    have hnot : ¬(8 ≤ payload.length ∧ word (received m payload) 2 ≤ payload.length - 8 ∧
        word (received m payload) 2 + 8 ≤ bufferDataLen) := fun h => hdue ⟨h.1, h.2.1⟩
    rw [hnil, tunWrite_eq_nil_iff, Int.natCast_eq_zero]
    simp [hzero, hnot]

/-- The step: a turn of `downlink_thread` does what the tunnel does if and only if its datagram
fits. -/
theorem downlink_eq_iff : ((s.downlink d).1 = some (gtpPayload s.gtpTeid d.payload) ∧
    (s.downlink d).2.spgwAddr = s.spgwAddr) ↔ s.Fits d := by
  have hsource : (s.downlink d).2.spgwAddr = d.source := rfl
  rw [hsource, and_comm, Fits]
  refine and_congr_right fun _ => ?_
  by_cases hgtp : IsGtp (received s.buffer d.payload)
  · have hwritten : (s.downlink d).1 =
        let buf := received s.buffer d.payload
        if s.gtpTeid = longWord buf 4 then tunWrite buf (word buf 2) else some [] := by
      simp only [downlink, forward, recvfrom, analyzeGtpHeader, hgtp, if_true]
    rw [hwritten, if_pos hgtp]
    by_cases hteid : longWord (received s.buffer d.payload) 4 = s.gtpTeid
    · rw [if_pos hteid.symm, tunWrite_eq_gtpPayload_iff hgtp hteid]
      simp [hteid]
    · have hnil : gtpPayload s.gtpTeid d.payload = [] :=
        gtpPayload_eq_nil fun h => hteid h.2.2.1
      simp [Ne.symm hteid, hteid, hnil]
  · have hwritten : (s.downlink d).1 =
        let buf := received s.buffer d.payload
        if s.gtpTeid = 0 then tunWrite buf s.packetLen else some [] := by
      simp only [downlink, forward, recvfrom, analyzeGtpHeader, hgtp, if_false]
    have hnil : gtpPayload s.gtpTeid d.payload = [] := gtpPayload_eq_nil fun h => hgtp h.2.1
    rw [hwritten, if_neg hgtp, hnil]
    by_cases hteid : s.gtpTeid = 0
    · simp only [hteid, if_true, tunWrite_eq_nil_iff, true_imp_iff]
    · simp [hteid]

end Forward

section Runs

variable {s : DataPlane}

theorem downlink_tunnel_eq_iff {d : Datagram} :
    (s.downlink d).2.tunnel = s.tunnel ↔ (s.downlink d).2.spgwAddr = s.spgwAddr := by
  have hteid : (s.downlink d).2.gtpTeid = s.gtpTeid := rfl
  simp [tunnel, hteid]

theorem step_eq_iff (e : TunnelEvent) : ((s.step e).1 = (s.tunnel.step e).1 ∧
    (s.step e).2.tunnel = (s.tunnel.step e).2) ↔ ∀ d, e = .datagram d → s.Fits d := by
  cases e with
  | datagram d =>
      simp only [step, Tunnel.step, TunnelOutput.tun.injEq, TunnelEvent.datagram.injEq]
      rw [downlink_tunnel_eq_iff, forall_eq']
      exact downlink_eq_iff
  | packet bytes => simp [step, Tunnel.step, tunnel]
  | spgwIp ip => simp [step, Tunnel.step, tunnel]
  | teid teid => simp [step, Tunnel.step, tunnel]
  | start ip teid port => simp [step, Tunnel.step, tunnel]

/-- The data plane is its tunnel if and only if every datagram that it receives fits. -/
theorem tunnels_iff_fitsAll (s : DataPlane) (events : List TunnelEvent) :
    s.Tunnels events ↔ s.FitsAll events := by
  induction events generalizing s with
  | nil => exact Iff.rfl
  | cons e events ih =>
      rw [Tunnels, FitsAll, ← and_assoc, step_eq_iff, ih]

theorem Tunnels.outputs_eq {events : List TunnelEvent} (h : s.Tunnels events) :
    s.outputs events = s.tunnel.outputs events := by
  induction events generalizing s with
  | nil => rfl
  | cons e events ih =>
      obtain ⟨houtput, htunnel, hrest⟩ := h
      rw [outputs, Tunnel.outputs, ih hrest, houtput, htunnel]

/-- A packet with one byte of payload, and one byte behind it: the payload goes to the TUN device
once more. -/
theorem not_tunnels : ¬∀ (s : DataPlane) (events : List TunnelEvent), s.Tunnels events := by
  intro h
  let spgw : Address := ⟨0x0A000001, 2152⟩
  let packet : Datagram :=
    ⟨spgw, [0x30, 0xFF, 0, 1, 0, 0, 0, 7, 0xAA], by decide⟩
  let byte : Datagram := ⟨spgw, [0x30], by decide⟩
  obtain ⟨-, -, hbyte, -⟩ := h ⟨spgw, 7, fun _ => 0, 0⟩ [.datagram packet, .datagram byte]
  exact absurd hbyte (by decide)

end Runs

end DataPlane

end PublicCloudCore.RanEmulator
