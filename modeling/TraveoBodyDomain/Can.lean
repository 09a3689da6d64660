import Mathlib.Tactic.Common

/-!
# CAN FD frames

`can_hal.h`, and what the FBL's CAN port does with the length of a frame: a
CAN FD frame carries one of sixteen lengths, so the port pads what it sends.
-/

namespace TraveoBodyDomain

/-- `CAN_MAX_DLEN`. -/
def canMaxDlen : Nat :=
  64

/-- `CAN_FLAG_FDF`. -/
def canFlagFdf : UInt8 :=
  0x04

/-- `can_raw_frame_t`, its `len` bytes of data. -/
structure CanRawFrame where
  id : UInt32
  flags : UInt8
  data : List UInt8
  fits : data.length ≤ canMaxDlen
  deriving Repr, DecidableEq

/-- `dlc_to_len`. -/
def dlcToLen (dlc : Nat) : Nat :=
  [0, 1, 2, 3, 4, 5, 6, 7, 8, 12, 16, 20, 24, 32, 48, 64].getD (dlc % 16) 0

/-- `len_to_dlc`. -/
def lenToDlc (len : Nat) : Nat :=
  if len ≤ 8 then len
  else if len ≤ 12 then 9
  else if len ≤ 16 then 10
  else if len ≤ 20 then 11
  else if len ≤ 24 then 12
  else if len ≤ 32 then 13
  else if len ≤ 48 then 14
  else 15

/-- The data field on the wire: the length the DLC stands for. -/
def canFdLen (len : Nat) : Nat :=
  dlcToLen (lenToDlc len)

/-- What fits a frame fits the data field it is padded to. -/
theorem le_canFdLen
    {len : Nat}
    (fits : len ≤ canMaxDlen) :
    len ≤ canFdLen len := by
  have every : ∀ len < 65, len ≤ canFdLen len := by decide
  exact every len (Nat.lt_succ_of_le fits)

/-- No data field is longer than a frame can be. -/
theorem canFdLen_le
    {len : Nat}
    (fits : len ≤ canMaxDlen) :
    canFdLen len ≤ canMaxDlen := by
  have every : ∀ len < 65, canFdLen len ≤ canMaxDlen := by decide
  exact every len (Nat.lt_succ_of_le fits)

/-- `hal_send`: the frame as it leaves the controller, padded with zeros. -/
def halSend (frame : CanRawFrame) : CanRawFrame where
  id := frame.id
  flags := frame.flags
  data :=
    frame.data ++
      List.replicate (canFdLen frame.data.length - frame.data.length) 0
  fits := by
    rw [List.length_append, List.length_replicate]
    have longer := le_canFdLen frame.fits
    have bounded := canFdLen_le frame.fits
    omega

/--
`hal_recv` into a frame whose data field held `data`: only the bytes the frame
carries are written.
-/
def halRecv (data : List UInt8) (frame : CanRawFrame) : List UInt8 :=
  frame.data ++ data.drop frame.data.length

end TraveoBodyDomain
