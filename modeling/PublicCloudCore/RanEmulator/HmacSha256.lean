import PublicCloudCore.RanEmulator.Sha256

/-!
# SHA-256 in chunks, and HMAC

Between two calls the record holds the state after the complete blocks of what it has taken, and in
its buffer the bytes that wait for the rest of a block. A turn of the loop in `sha256_update` keeps
this, so the cuts of a message do not matter, and `sha_256` is HMAC over it.
-/

namespace PublicCloudCore.RanEmulator

open Framework

namespace Sha

/-- The state and the bytes that wait, after a message. -/
def stream (message : List UInt8) : Sha256.Vars × List UInt8 :=
  Blocks.absorb 64 Sha256.compress (Sha256.initial, []) message

theorem length_stream (message : List UInt8) : (stream message).2.length = message.length % 64 := by
  rw [stream, Blocks.length_absorb (by decide)]
  simp

theorem stream_append (message chunk : List UInt8) :
    stream (message ++ chunk) = Blocks.absorb 64 Sha256.compress (stream message) chunk :=
  Blocks.absorb_append message chunk

/-- A message has been taken, and so many bytes are counted. -/
structure Takes (sha : Sha) (message : List UInt8) (counted : Nat) : Prop where
  state : sha.state = (stream message).1
  buffer : Packed sha.buffer (stream message).2
  length : number sha.length 8 ≡ 8 * counted [MOD 256 ^ 8]

theorem initial_eq : Sha256.initial = ⟨0x6a09e667, 0xbb67ae85, 0x3c6ef372, 0xa54ff53a, 0x510e527f,
    0x9b05688c, 0x1f83d9ab, 0x5be0cd19⟩ := by
  rw [Sha256.initial, Sha256.Vars.mk.injEq]
  decide +kernel

theorem takes_nil (sha : Sha) : sha.sha256Initialize.Takes [] 0 where
  state := initial_eq.symm
  buffer := packed_clear sha.buffer
  length := by
    have hzero : number sha.sha256Initialize.length 8 = 0 := number_clear fun _ hi => if_pos hi
    rw [hzero, Nat.mul_zero]

namespace Takes

variable {sha : Sha} {message : List UInt8} {counted : Nat}

theorem turn (h : sha.Takes message counted) {chunk left : List UInt8} {buffer : Mem UInt32}
    {index : Nat} (hbuffer : (fillBlock sha.buffer chunk (stream message).2.length).1 = buffer)
    (hrest : (fillBlock sha.buffer chunk (stream message).2.length).2 = (left, index)) :
    (if index = 64 then { sha with buffer := buffer }.processBlock
      else { sha with buffer := buffer }).Takes
      (message ++ chunk.take (64 - (stream message).2.length)) counted := by
  have hlt : (stream message).2.length < 64 := by
    rw [length_stream]
    exact Nat.mod_lt _ (by decide)
  obtain ⟨hleft, hpacked⟩ := fillBlock_eq chunk h.buffer (Nat.le_of_lt hlt)
  have htaken := List.length_take (i := 64 - (stream message).2.length) (l := chunk)
  rw [hbuffer] at hpacked
  rw [hrest] at hleft
  cases hleft
  split
  · next hfull =>
    have hne : chunk.take (64 - (stream message).2.length) ≠ [] := by
      intro hnil
      rw [hnil, List.length_nil] at htaken
      omega
    have hstream : Blocks.absorb 64 Sha256.compress (stream message) _ = _ :=
      Blocks.absorb_full hne (by omega)
    rw [← stream_append] at hstream
    constructor
    · rw [processBlock_state hpacked, hstream, h.state]
    · rw [hstream]
      exact packed_clear _
    · exact h.length
  · next hpart =>
    have hstream : Blocks.absorb 64 Sha256.compress (stream message)
        (chunk.take (64 - (stream message).2.length)) = _ := Blocks.absorb_short (by omega)
    rw [← stream_append] at hstream
    constructor
    · rw [hstream]
      exact h.state
    · rw [hstream]
      exact hpacked
    · exact h.length

theorem feed {chunk : List UInt8} (h : sha.Takes message (message.length + chunk.length)) :
    (sha.feed chunk).Takes (message ++ chunk) (message ++ chunk).length := by
  induction hlen : chunk.length using Nat.strong_induction_on generalizing sha message chunk with
  | _ len ih =>
    cases chunk with
    | nil =>
        rw [Sha.feed, List.append_nil]
        exact h
    | cons b rest =>
        have hindex : nextIndex sha.length (rest.length + 1) = (stream message).2.length := by
          rw [nextIndex_eq h.length (by simp), length_stream, List.length_cons,
            Nat.add_sub_cancel_right]
        have hlt := nextIndex_lt sha.length (rest.length + 1)
        rw [hindex] at hlt
        obtain ⟨hleft, -⟩ := fillBlock_eq (b :: rest) h.buffer (Nat.le_of_lt hlt)
        have hturn := h.turn rfl hleft
        rw [Sha.feed, hindex, hleft]
        generalize hcut : 64 - (stream message).2.length = cut at *
        have hrest : ((b :: rest).drop cut).length < len := by
          rw [← hlen, List.length_drop, List.length_cons]
          omega
        have hcounted : message.length + (b :: rest).length =
            (message ++ (b :: rest).take cut).length + ((b :: rest).drop cut).length := by
          rw [List.length_append, List.length_take, List.length_drop]
          omega
        rw [hcounted] at hturn
        have hall := ih _ hrest hturn rfl
        rwa [List.append_assoc, List.take_append_drop] at hall

theorem sha256Update (h : sha.Takes message message.length) {chunk : List UInt8}
    (hchunk : chunk.length < 2 ^ 32) :
    (sha.sha256Update chunk).Takes (message ++ chunk) (message ++ chunk).length := by
  refine feed ⟨h.state, h.buffer, ?_⟩
  have hadded := number_addLength sha.length (UInt32.ofNat chunk.length)
  rw [UInt32.toNat_ofNat', Nat.mod_eq_of_lt hchunk] at hadded
  rw [Nat.mul_add]
  exact hadded.trans (h.length.add_right _)

theorem chunks (h : sha.Takes message message.length) (chunks : List (List UInt8))
    (hchunks : ∀ chunk ∈ chunks, chunk.length < 2 ^ 32) :
    (chunks.foldl Sha.sha256Update sha).Takes (message ++ chunks.flatten)
      (message ++ chunks.flatten).length := by
  induction chunks generalizing sha message with
  | nil =>
      rw [List.flatten_nil, List.append_nil]
      exact h
  | cons chunk chunks ih =>
      have hfirst := h.sha256Update (hchunks chunk List.mem_cons_self)
      have hall := ih hfirst fun c hc => hchunks c (List.mem_cons_of_mem chunk hc)
      rwa [List.append_assoc] at hall

end Takes

theorem read_terminator (k : Nat) (bytes : List UInt8) :
    (Mem.write (Mem.ofList [0x80] 0) (k + 1) bytes).read 0 (k + 1 + bytes.length) =
      0x80 :: List.replicate k 0 ++ bytes := by
  have hzeros : (Mem.ofList [(0x80 : UInt8)] 0).read 1 k = List.replicate k 0 := by
    refine List.eq_replicate_iff.mpr ⟨Mem.read_length _ _ _, fun b hb => ?_⟩
    obtain ⟨i, -, rfl⟩ := List.mem_map.mp hb
    exact List.getD_eq_default _ _ (by simp)
  rw [Mem.read_add, Nat.zero_add, Mem.read_write_same,
    Mem.read_write_disjoint _ _ _ _ _ (Or.inl (by omega)), Mem.read_succ, hzeros]
  rfl

theorem digest_eq (state : Sha256.Vars) : ((List.range 32).map fun i =>
    (stateWord state (i / 4) >>> UInt32.ofNat (24 - 8 * (i % 4))).toUInt8) =
      Sha256.digest state := rfl

/-- The terminator is the padding of FIPS 180-4. -/
theorem Takes.terminator {sha : Sha} {message : List UInt8}
    (h : sha.Takes message message.length) :
    (Mem.write (Mem.ofList [0x80] 0) (terminatorLength sha.length - 8)
      (sha.length.read 0 8)).read 0 (terminatorLength sha.length) =
      Sha256.padding message.length := by
  have hread := read_terminator ((119 - message.length % 64) % 64) (sha.length.read 0 8)
  rw [Mem.read_length] at hread
  rw [terminatorLength_eq h.length, Nat.add_sub_cancel, hread, read_length h.length]
  rfl

theorem Takes.state_padding {sha : Sha} {message : List UInt8}
    (h : sha.Takes message message.length) :
    (sha.sha256Update (Sha256.padding message.length)).state =
      (Blocks.ofList 64 (message ++ Sha256.padding message.length)).foldl Sha256.compress
        Sha256.initial := by
  have hpadding := (Sha256.length_padding message.length).2.2
  rw [(h.sha256Update (by omega)).state]
  exact Blocks.absorb_state (by decide) _ _ _

/-- `sha256_finalize` stores the hash of all that was taken. -/
theorem Takes.hash_sha256Finalize {sha : Sha} {message last : List UInt8}
    (h : sha.Takes message message.length) (hlast : last.length < 2 ^ 32) :
    (sha.sha256Finalize last).hash = Sha256.hash (message ++ last) := by
  have hall : (if last.length > 0 then sha.sha256Update last else sha).Takes (message ++ last)
      (message ++ last).length := by
    split
    · exact h.sha256Update hlast
    · next hnone =>
      have hnil : last = [] := List.length_eq_zero_iff.mp (by omega)
      rw [hnil, List.append_nil]
      exact h
  simp only [Sha.sha256Finalize]
  rw [digest_eq, hall.terminator, hall.state_padding, Sha256.hash]

/-- `sha256_get`, over what the record holds before. -/
def sha256Get (stack : Sha) (message : List UInt8) : List UInt8 :=
  (stack.sha256Initialize.sha256Finalize message).hash

theorem sha256Get_eq (stack : Sha) {message : List UInt8} (hmessage : message.length < 2 ^ 32) :
    stack.sha256Get message = Sha256.hash message :=
  (takes_nil stack).hash_sha256Finalize hmessage

theorem takes_first (sha : Sha) {chunk : List UInt8} (hchunk : chunk.length < 2 ^ 32) :
    (sha.sha256Initialize.sha256Update chunk).Takes chunk chunk.length :=
  (takes_nil sha).sha256Update hchunk

end Sha

/-- `hmac_sha256` -/
structure Hmac where
  digest : List UInt8
  key : Mem UInt8
  sha : Sha

namespace Hmac

/-- The loops that fill `hmac->key`. -/
def storeKey (stored : Mem UInt8) (key : List UInt8) : Mem UInt8 :=
  stored.write 0 (key.map (· ^^^ 0x36) ++ List.replicate (64 - key.length) 0x36)

def hmacSha256Initialize (hmac : Hmac) (key : List UInt8) : Hmac :=
  let hmac :=
    if key.length ≤ 64 then { hmac with key := storeKey hmac.key key }
    else
      let sha := hmac.sha.sha256Initialize.sha256Finalize key
      { hmac with key := storeKey hmac.key sha.hash, sha := sha }
  { hmac with sha := hmac.sha.sha256Initialize.sha256Update (hmac.key.read 0 64) }

def hmacSha256Update (hmac : Hmac) (message : List UInt8) : Hmac :=
  { hmac with sha := hmac.sha.sha256Update message }

def hmacSha256Finalize (hmac : Hmac) (message : List UInt8) : Hmac :=
  let sha := hmac.sha.sha256Finalize message
  let digest := sha.hash
  let key := hmac.key.write 0 ((hmac.key.read 0 64).map (· ^^^ (0x36 ^^^ 0x5c)))
  let sha := (sha.sha256Initialize.sha256Update (key.read 0 64)).sha256Finalize digest
  ⟨sha.hash, key, sha⟩

def inner (key : List UInt8) : List UInt8 := (Sha256.blockKey key).map (· ^^^ 0x36)

@[simp] theorem length_inner (key : List UInt8) : (inner key).length = 64 := by
  rw [inner, List.length_map, Sha256.length_blockKey]

/-- The block is stored, and the message has been taken behind it. -/
structure Takes (hmac : Hmac) (key message : List UInt8) : Prop where
  stored : hmac.key.read 0 64 = inner key
  taken : hmac.sha.Takes (inner key ++ message) (inner key ++ message).length

theorem read_storeKey (stored : Mem UInt8) {key : List UInt8} (hkey : key.length ≤ 64) :
    (storeKey stored key).read 0 64 =
      (key ++ List.replicate (64 - key.length) 0).map (· ^^^ 0x36) := by
  have hlength : (key.map (· ^^^ 0x36) ++ List.replicate (64 - key.length) 0x36).length = 64 := by
    simp; omega
  have hread := Mem.read_write_same stored 0
    (key.map (· ^^^ 0x36) ++ List.replicate (64 - key.length) 0x36)
  rw [hlength] at hread
  rw [storeKey, hread, List.map_append, List.map_replicate]
  rfl

theorem takes_nil (hmac : Hmac) {key : List UInt8} (hkey : key.length < 2 ^ 32) :
    (hmac.hmacSha256Initialize key).Takes key [] := by
  have hstored : (hmac.hmacSha256Initialize key).key.read 0 64 = inner key := by
    rw [hmacSha256Initialize, inner, Sha256.blockKey]
    split
    · next hshort => exact read_storeKey hmac.key hshort
    · have hhash := Sha.sha256Get_eq hmac.sha hkey
      rw [Sha.sha256Get] at hhash
      simp only [hhash]
      exact read_storeKey hmac.key (by simp)
  constructor
  · exact hstored
  · rw [List.append_nil, ← hstored]
    exact Sha.takes_first _ (by simp)

namespace Takes

variable {hmac : Hmac} {key message : List UInt8}

theorem hmacSha256Update (h : hmac.Takes key message) {chunk : List UInt8}
    (hchunk : chunk.length < 2 ^ 32) :
    (hmac.hmacSha256Update chunk).Takes key (message ++ chunk) where
  stored := h.stored
  taken := by
    rw [← List.append_assoc]
    exact h.taken.sha256Update hchunk

theorem digest_hmacSha256Finalize (h : hmac.Takes key message) {last : List UInt8}
    (hlast : last.length < 2 ^ 32) :
    (hmac.hmacSha256Finalize last).digest = Sha256.hmac key (message ++ last) := by
  have hdigest := h.taken.hash_sha256Finalize hlast
  have hpads : (inner key).map (· ^^^ (0x36 ^^^ 0x5c)) =
      (Sha256.blockKey key).map (· ^^^ 0x5c) := by
    rw [inner, List.map_map]
    refine List.map_congr_left fun b _ => ?_
    rw [Function.comp_apply, ← UInt8.xor_assoc, UInt8.xor_assoc b, UInt8.xor_self, UInt8.xor_zero]
  have hlength : ((Sha256.blockKey key).map (· ^^^ 0x5c)).length = 64 := by simp
  have hread := Mem.read_write_same hmac.key 0 ((Sha256.blockKey key).map (· ^^^ 0x5c))
  rw [hlength] at hread
  have hshort : (Sha256.hash (inner key ++ (message ++ last))).length < 2 ^ 32 := by simp
  have houter := Sha.takes_first (hmac.sha.sha256Finalize last) (hlength.trans_lt (by decide))
  have hfinal := houter.hash_sha256Finalize hshort
  rw [List.append_assoc] at hdigest
  simp only [hmacSha256Finalize, h.stored, hpads, hread, hdigest]
  exact hfinal

end Takes

end Hmac

/-- `sha_256`; what it writes to `digest`, over what the record holds before. -/
def sha256 (stack : Hmac) (message key : List UInt8) : List UInt8 :=
  ((stack.hmacSha256Initialize key).hmacSha256Finalize message).digest

/-- However a message is cut, the digest is that of FIPS 180-4, and with a key it is HMAC. -/
theorem hash_of_chunks :
    (∀ (stack : Sha) (chunks : List (List UInt8)) (last : List UInt8),
      (∀ chunk ∈ chunks, chunk.length < 2 ^ 31) → last.length < 2 ^ 31 →
        ((chunks.foldl Sha.sha256Update stack.sha256Initialize).sha256Finalize last).hash =
          Sha256.hash (chunks.flatten ++ last)) ∧
    ∀ (stack : Hmac) (key message : List UInt8), key.length < 2 ^ 31 → message.length < 2 ^ 31 →
      sha256 stack message key = Sha256.hmac key message := by
  constructor
  · intro stack chunks last hchunks hlast
    have hall := (Sha.takes_nil stack).chunks chunks fun chunk hchunk =>
      (hchunks chunk hchunk).trans (by decide)
    exact hall.hash_sha256Finalize (hlast.trans (by decide))
  · intro stack key message hkey hmessage
    have hstart := Hmac.takes_nil stack (hkey.trans (by decide))
    exact hstart.digest_hmacSha256Finalize (hmessage.trans (by decide))

/-- Three chunks, one of them empty, and a key that is longer than a block. -/
theorem hash_of_chunks_three :
    (([[0x61], [], [0x62, 0x63]].foldl Sha.sha256Update
      (Sha.sha256Initialize ⟨[], fun _ => 7, Sha256.initial, fun _ => 9⟩)).sha256Finalize
        [0x64]).hash = Sha256.hash [0x61, 0x62, 0x63, 0x64] ∧
    sha256 ⟨[], fun _ => 3, ⟨[], fun _ => 7, Sha256.initial, fun _ => 9⟩⟩ [0x61]
      (List.replicate 65 1) = Sha256.hmac (List.replicate 65 1) [0x61] := by
  constructor
  · exact hash_of_chunks.1 _ [[0x61], [], [0x62, 0x63]] [0x64] (by decide) (by decide)
  · exact hash_of_chunks.2 _ (List.replicate 65 1) [0x61] (by simp) (by decide)

end PublicCloudCore.RanEmulator
