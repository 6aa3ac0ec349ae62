import PublicCloudCore.MetricsBus.ThreadWorker
import PublicCloudCore.Yagra.Aggregation

/-!
# Frames of the metrics library

What `yagra_define_metric` and `yagra_send_batch` send: a marker, the length of the text and the
text. The texts are C strings, so they hold no zero; the zero that `sprintf` puts behind the text
is not sent.
-/

namespace PublicCloudCore.Yagra

open MetricsBus

/-- `(n >> (k * 8)) & 0xFF`. -/
def byteAt (n k : Nat) : UInt8 := UInt8.ofNat (n >>> (8 * k))

def lowBytes (n k : Nat) : Text := (List.range k).map (byteAt n)

def typeField : AggregationType → Text
  | .sum => ascii ['t', 'y', 'p', 'e', ':', 'c', 'o', 'u', 'n', 't', 'e', 'r', '|']
  | .none => ascii ['t', 'y', 'p', 'e', ':', 's', 'u', 'm', 'm', 'a', 'r', 'y', '|']
  | .average => ascii ['t', 'y', 'p', 'e', ':', 's', 'u', 'm', 'm', 'a', 'r', 'y', '|']
  | _ => []

def definitionBody (name description : Text) (type : AggregationType) : Text :=
  ascii ['n', 'a', 'm', 'e', ':', 'a', 'm', 'f', '_'] ++ name ++ ascii ['|'] ++
    ascii ['d', 'e', 's', 'c', 'r', 'i', 'p', 't', 'i', 'o', 'n', ':'] ++ description ++
    ascii ['|'] ++ typeField type

/-- What `yagra_define_metric` sends; nothing where the frame is too long. -/
def defineMetric (name description : Text) (type : AggregationType) : Option Text :=
  let body := definitionBody name description type
  if 4 + body.length > 512 then none
  else some (0x99 :: 0x98 :: (lowBytes body.length 2 ++ body))

/-- `%ld` of a `uint64_t`. -/
def longText (value : UInt64) : Text :=
  if value.toNat < 2 ^ 63 then decimalText value.toNat
  else 0x2D :: decimalText (2 ^ 64 - value.toNat)

def entryText (name : Text) (value : UInt64) : Text :=
  ascii ['a', 'm', 'f', '_'] ++ name ++ ascii [':'] ++ longText value ++ ascii ['|']

def batchBody (entries : List (Text × UInt64)) : Text :=
  entries.flatMap fun e => entryText e.1 e.2

def byteCount (n : Nat) : Nat := if n = 0 then 0 else byteCount (n / 256) + 1

/-- `(YAGRA_MAX_METRIC_NAME_LENGTH + 64) * num_metrics`, an `int` that becomes unsigned. -/
def maxLen (numMetrics : Int32) : UInt64 := ((64 + 64) * numMetrics).toInt64.toUInt64

/-- What `yagra_send_batch` sends. -/
def sendEntries (numMetrics : Int32) (entries : List (Text × UInt64)) : Option Text :=
  if numMetrics = 0 then none
  else
    let lengthBytes := byteCount (maxLen numMetrics).toNat
    let body := batchBody entries
    if 2 + 1 + lengthBytes + body.length > 512 then none
    else
      some (0x99 :: 0x99 :: UInt8.ofNat lengthBytes :: (lowBytes body.length lengthBytes ++ body))

theorem lowBytes_length (n k : Nat) : (lowBytes n k).length = k := by
  simp [lowBytes]

theorem lowBytes_succ (n k : Nat) : lowBytes n (k + 1) = byteAt n 0 :: lowBytes (n / 256) k := by
  simp only [lowBytes, List.range_succ_eq_map, List.map_cons, List.map_map]
  congr 1
  apply List.map_congr_left
  intro i _
  have hpow : 2 ^ (8 * (i + 1)) = 256 * 2 ^ (8 * i) := by
    rw [Nat.mul_succ, pow_add]
    omega
  simp only [byteAt, Function.comp_apply, Nat.succ_eq_add_one, Nat.shiftRight_eq_div_pow, hpow,
    Nat.div_div_eq_div_mul]

/-- The receiver reads back the lowest bytes of a length. -/
theorem littleEndian_lowBytes (n k : Nat) : littleEndian (lowBytes n k) = n % 256 ^ k := by
  induction k generalizing n with
  | zero => simp [lowBytes, littleEndian, Nat.mod_one]
  | succ k ih =>
      have hbyte : (byteAt n 0).toNat = n % 256 := by simp [byteAt]
      rw [lowBytes_succ, littleEndian, ih, hbyte, pow_succ, Nat.mul_comm (256 ^ k), Nat.mod_mul]

theorem lt_pow_byteCount (n : Nat) : n < 256 ^ byteCount n := by
  fun_induction byteCount n with
  | case1 => simp
  | case2 n hn ih =>
      rw [pow_succ]
      omega

theorem byteCount_le {n k : Nat} (h : n < 256 ^ k) : byteCount n ≤ k := by
  induction k generalizing n with
  | zero =>
      have hn : n = 0 := by simpa using h
      rw [byteCount, if_pos hn]
  | succ k ih =>
      rw [byteCount]
      split
      · omega
      · have hk := ih (n := n / 256) (by rw [pow_succ] at h; omega)
        omega

end PublicCloudCore.Yagra
