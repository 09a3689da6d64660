import Mathlib.Tactic.Common
import TraveoBodyDomain.Lib.LittleEndian

/-!
# Body-domain messages

`body_msgs.c`: packing and decoding of the message PDUs.  A buffer with its
length is a list, `buf_len` is the room of an output buffer, and a return value
of 0 is `none`.
-/

namespace TraveoBodyDomain

open LittleEndian

/-- `MSG_ID_DOOR_CMD`. -/
def msgIdDoorCmd : UInt16 :=
  0x120

/-- `MSG_ID_LIGHT_CMD`. -/
def msgIdLightCmd : UInt16 :=
  0x121

/-- `MSG_ID_SENSOR_RPT`. -/
def msgIdSensorRpt : UInt16 :=
  0x200

/-- `MSG_ID_FRESHNESS_SYNC`. -/
def msgIdFreshnessSync : UInt16 :=
  0x2F0

/-- `MSG_ID_GW_FRESHNESS_SYNC`. -/
def msgIdGwFreshnessSync : UInt16 :=
  0x1F0

/-- `door_cmd_t`. -/
inductive DoorCmd where
  | lock
  | unlock
  deriving Repr, DecidableEq

/-- The enumerator's value on the wire. -/
def DoorCmd.toByte : DoorCmd → UInt8
  | .lock => 0
  | .unlock => 1

/-- `light_cmd_msg_t`. -/
structure LightCmdMsg where
  brightnessPct : UInt8
  deriving Repr, DecidableEq

/-- `sensor_report_msg_t`. -/
structure SensorReportMsg where
  ambientRaw : UInt16
  doorAjar : UInt8
  deriving Repr, DecidableEq

/-- `body_msg_t` of a kind other than `BODY_MSG_NONE`. -/
inductive BodyMsg where
  | doorCmd (cmd : DoorCmd)
  | lightCmd (msg : LightCmdMsg)
  | sensorReport (msg : SensorReportMsg)
  deriving Repr, DecidableEq

/-- `pack_light_cmd`. -/
def packLightCmd
    (msg : LightCmdMsg)
    (bufLen : Nat) :
    Option (List UInt8) :=
  if bufLen < 1 then
    none
  else if 100 < msg.brightnessPct then
    none
  else
    some [msg.brightnessPct]

/-- `pack_sensor_report`: big-endian ambient value, then the flag. -/
def packSensorReport
    (msg : SensorReportMsg)
    (bufLen : Nat) :
    Option (List UInt8) :=
  if bufLen < 3 then
    none
  else if 1023 < msg.ambientRaw then
    none
  else if 1 < msg.doorAjar then
    none
  else
    some
      [((msg.ambientRaw >>> 8) &&& 0xFF).toUInt8,
        (msg.ambientRaw &&& 0xFF).toUInt8,
        msg.doorAjar]

/-- `unpack_light_cmd`. -/
def unpackLightCmd : List UInt8 → Option LightCmdMsg
  | [] => none
  | brightness :: _ =>
      if 100 < brightness then none else some ⟨brightness⟩

/-- `unpack_sensor_report`. -/
def unpackSensorReport : List UInt8 → Option SensorReportMsg
  | high :: low :: ajar :: _ =>
      let ambient := (high.toUInt16 <<< 8) ||| low.toUInt16
      if 1023 < ambient then
        none
      else if 1 < ajar then
        none
      else
        some ⟨ambient, ajar⟩
  | _ => none

/-- The door branch of `body_decode`. -/
def unpackDoorCmd : List UInt8 → Option DoorCmd
  | [] => none
  | cmd :: _ =>
      if 1 < cmd then
        none
      else if cmd = 0 then
        some .lock
      else
        some .unlock

/-- `body_decode`. -/
def bodyDecode
    (id : UInt32)
    (buf : List UInt8) :
    Option BodyMsg :=
  if id = msgIdDoorCmd.toUInt32 then
    (unpackDoorCmd buf).map .doorCmd
  else if id = msgIdLightCmd.toUInt32 then
    (unpackLightCmd buf).map .lightCmd
  else if id = msgIdSensorRpt.toUInt32 then
    (unpackSensorReport buf).map .sensorReport
  else
    none

/-- `body_msg_pdu_len`. -/
def bodyMsgPduLen (id : UInt32) : Nat :=
  if id = msgIdDoorCmd.toUInt32 then
    1
  else if id = msgIdLightCmd.toUInt32 then
    1
  else if id = msgIdSensorRpt.toUInt32 then
    3
  else if id = msgIdFreshnessSync.toUInt32 then
    2
  else if id = msgIdGwFreshnessSync.toUInt32 then
    2
  else
    0

/-- A door command decodes to itself. -/
theorem bodyDecode_door
    (cmd : DoorCmd) :
    bodyDecode msgIdDoorCmd.toUInt32 [cmd.toByte] = some (.doorCmd cmd) := by
  cases cmd <;> decide

/-- A light command packs into one byte. -/
theorem length_packLightCmd
    {msg : LightCmdMsg}
    {bufLen : Nat}
    {pdu : List UInt8}
    (packed : packLightCmd msg bufLen = some pdu) :
    pdu.length = 1 := by
  unfold packLightCmd at packed
  split at packed
  next => cases packed
  next =>
    split at packed
    next => cases packed
    next =>
      cases packed
      rfl

/-- A sensor report packs into three bytes. -/
theorem length_packSensorReport
    {msg : SensorReportMsg}
    {bufLen : Nat}
    {pdu : List UInt8}
    (packed : packSensorReport msg bufLen = some pdu) :
    pdu.length = 3 := by
  unfold packSensorReport at packed
  split at packed
  next => cases packed
  next =>
    split at packed
    next => cases packed
    next =>
      split at packed
      next => cases packed
      next =>
        cases packed
        rfl

/-- A light command that packs decodes to itself. -/
theorem bodyDecode_light
    {msg : LightCmdMsg}
    {bufLen : Nat}
    {pdu : List UInt8}
    (packed : packLightCmd msg bufLen = some pdu) :
    bodyDecode msgIdLightCmd.toUInt32 pdu = some (.lightCmd msg) := by
  unfold packLightCmd at packed
  split at packed
  next => cases packed
  next =>
    split at packed
    next => cases packed
    next inRange =>
      cases packed
      have isLight :
          bodyDecode msgIdLightCmd.toUInt32 [msg.brightnessPct] =
            (unpackLightCmd [msg.brightnessPct]).map .lightCmd :=
        rfl
      rw [isLight, unpackLightCmd, if_neg inRange]
      rfl

/-- Two bytes of an ambient value, high byte first, give it back. -/
theorem ambient_bytes
    (ambient : UInt16) :
    (((ambient >>> 8) &&& 0xFF).toUInt8.toUInt16 <<< 8) |||
        (ambient &&& 0xFF).toUInt8.toUInt16 =
      ambient := by
  apply UInt16.toNat_inj.mp
  have small := ambient.toNat_lt
  have low : ambient.toNat % 256 < 2 ^ 8 := Nat.mod_lt _ (by decide)
  have whole :
      ambient.toNat % 256 + 2 ^ 8 * (ambient.toNat / 256) =
        ambient.toNat := by
    omega
  have highFits : ambient.toNat / 256 < 256 := by
    omega
  have shifted : (ambient.toNat / 256) <<< 8 < 65536 := by
    rw [Nat.shiftLeft_eq]
    omega
  have mask : (0xFF : UInt16).toNat = 0xFF := rfl
  have eight : (8 : UInt16).toNat % 16 = 8 := rfl
  simp only [UInt16.toNat_or, UInt16.toNat_shiftLeft, UInt8.toNat_toUInt16,
    UInt16.toNat_toUInt8, UInt16.toNat_and, UInt16.toNat_shiftRight,
    mask, eight, and_byte, Nat.mod_mod]
  rw [Nat.shiftRight_eq_div_pow, Nat.mod_eq_of_lt highFits,
    Nat.mod_eq_of_lt shifted, Nat.or_comm, or_shiftLeft _ _ low, whole]

/-- A sensor report that packs decodes to itself. -/
theorem bodyDecode_sensor
    {msg : SensorReportMsg}
    {bufLen : Nat}
    {pdu : List UInt8}
    (packed : packSensorReport msg bufLen = some pdu) :
    bodyDecode msgIdSensorRpt.toUInt32 pdu = some (.sensorReport msg) := by
  unfold packSensorReport at packed
  split at packed
  next => cases packed
  next =>
    split at packed
    next => cases packed
    next ambientInRange =>
      split at packed
      next => cases packed
      next ajarInRange =>
        cases packed
        have isSensor :
            ∀ buf,
              bodyDecode msgIdSensorRpt.toUInt32 buf =
                (unpackSensorReport buf).map .sensorReport :=
          fun _ => rfl
        rw [isSensor, unpackSensorReport, ambient_bytes]
        simp [ambientInRange, ajarInRange]

end TraveoBodyDomain
