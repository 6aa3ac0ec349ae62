import Mathlib

/-!
# Reads of a message through a buffer

SCTP hands a message that is longer than the buffer over in pieces, one for each read. UDP hands
over what fits and drops the rest of the datagram.
-/

namespace PublicCloudCore.Framework

variable {α : Type}

def udpRead (size : Nat) (datagram : List α) : List α := datagram.take size

theorem udpRead_of_length_le {size : Nat} {datagram : List α} (h : datagram.length ≤ size) :
    udpRead size datagram = datagram :=
  List.take_of_length_le h

theorem udpRead_prefix (size : Nat) {front : List α} (back : List α) (h : front.length ≤ size) :
    udpRead size (front ++ back) = front ++ udpRead (size - front.length) back := by
  rw [udpRead, List.take_append, List.take_of_length_le h]
  rfl

def sctpReads (size : Nat) (hsize : 0 < size) (message : List α) : List (List α) :=
  if hnil : message = [] then
    []
  else
    message.take size :: sctpReads size hsize (message.drop size)
termination_by message.length
decreasing_by
  have hpos := List.length_pos_iff.mpr hnil
  simp only [List.length_drop]
  omega

section

variable {size : Nat} {hsize : 0 < size} {message : List α}

theorem sctpReads_nil : sctpReads size hsize ([] : List α) = [] := by
  rw [sctpReads]
  rfl

theorem sctpReads_of_ne_nil (h : message ≠ []) :
    sctpReads size hsize message =
      message.take size :: sctpReads size hsize (message.drop size) := by
  rw [sctpReads, dif_neg h]

theorem length_of_mem_sctpReads {piece : List α} (h : piece ∈ sctpReads size hsize message) :
    0 < piece.length ∧ piece.length ≤ size := by
  induction message using sctpReads.induct size hsize with
  | case1 =>
      rw [sctpReads_nil] at h
      cases h
  | case2 message hne ih =>
      rw [sctpReads_of_ne_nil hne] at h
      cases h with
      | head =>
          have hpos := List.length_pos_iff.mpr hne
          rw [List.length_take]
          omega
      | tail _ h => exact ih h

/-- One read returns the whole message when the buffer holds it. -/
theorem sctpReads_eq_singleton_iff :
    sctpReads size hsize message = [message] ↔ 0 < message.length ∧ message.length ≤ size := by
  constructor
  · intro h
    apply length_of_mem_sctpReads
    rw [h]
    exact List.mem_singleton_self _
  · intro ⟨hpos, hle⟩
    have hne := List.length_pos_iff.mp hpos
    rw [sctpReads_of_ne_nil hne, List.take_of_length_le hle, List.drop_of_length_le hle,
      sctpReads_nil]

end

end PublicCloudCore.Framework
