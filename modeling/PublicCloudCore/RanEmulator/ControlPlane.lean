import PublicCloudCore.RanController.UserInput

/-!
# The control plane of a UE

`do_control_plane_action` and `control_plane`. The actions and the sleeps are what the thread does;
an action that is not known is none.
-/

namespace PublicCloudCore.RanEmulator

open Framework RanController

/-- What the thread can do; a handover names the target eNB. -/
inductive Action
  | init
  | detach
  | detachSwitchOff
  | attach
  | moveToIdle
  | moveToConnected
  | x2Handover (enb : Nat)
  | attachToEnb (enb : Nat)
  | s1Handover (enb : Nat)
  deriving DecidableEq, Repr

inductive Event
  | act (a : Action)
  | sleep (seconds : Nat)
  deriving DecidableEq, Repr

/-- `p[1] << 16 | p[2] << 8 | p[3]`. -/
def readThreeBytes (p : Mem UInt8) : Nat :=
  (p 1).toNat * 65536 + (p 2).toNat * 256 + (p 3).toNat

def doControlPlaneAction (action : Mem UInt8) : Option Action × Bool :=
  match (action 0).toNat with
  | 0 => (some .init, false)
  | 1 => (some .detach, false)
  | 2 => (some .detachSwitchOff, false)
  | 3 => (some .attach, false)
  | 4 => (some .moveToIdle, false)
  | 5 => (some .moveToConnected, false)
  | 6 => (some (.x2Handover (readThreeBytes action)), true)
  | 7 => (some (.attachToEnb (readThreeBytes action)), true)
  | 8 => (some (.s1Handover (readThreeBytes action)), true)
  | _ => (none, false)

def actEvents (a : Option Action) : List Event := a.toList.map .act

def infSleep : Nat := 16777215

/-- The loop over the records from `i` on: what is done, and whether the thread returns. -/
def controlPlanePass (controlPlane : Mem UInt8) (len i : Nat) : List Event × Bool :=
  if i < len then
    let (action, handover) := doControlPlaneAction (controlPlane.shift i)
    let i' := if handover then i + 4 else i
    -- a handover is the last command
    if handover ∧ len ≤ i' then (actEvents action, false)
    else
      let cpSleep := readThreeBytes (controlPlane.shift i')
      if cpSleep = infSleep then (actEvents action, true)
      else
        let (events, returned) := controlPlanePass controlPlane len (i' + 4)
        (actEvents action ++ .sleep cpSleep :: events, returned)
  else ([], false)
termination_by len - i
decreasing_by
  split <;> omega

/-- The infinite loop, for `n` rounds of it at most. -/
def rounds (round : List Event × Bool) : Nat → List Event × Bool
  | 0 => ([], false)
  | n + 1 =>
      if round.2 then round
      else (round.1 ++ (rounds round n).1, (rounds round n).2)

/-- The thread, for `n` rounds; `control_plane_len` has two bytes. -/
def controlPlane (controlPlane : Mem UInt8) (controlPlaneLen : UInt16) (n : Nat) :
    List Event × Bool :=
  rounds (controlPlanePass controlPlane controlPlaneLen.toNat 0) n

end PublicCloudCore.RanEmulator
