import Mathlib.Tactic.Common
import TraveoBodyDomain.Messages

/-!
# What the two nodes do with a message

`bodyctl.c` of the gateway turns a decoded message into commands;
`actuator_fsm.c` of the actuator turns a command into the state of the door and
the light, and `light_output_update` drives the lamp from it.  A message of kind
`BODY_MSG_NONE`, like a NULL pointer, is `none`.
-/

namespace TraveoBodyDomain

/-!
## The gateway
-/

/-- `bodyctl_state_t`. -/
structure BodyctlState where
  doorLocked : Bool
  lightPct : UInt8
  doorAjar : Bool
  deriving Repr, DecidableEq

/-- `bodyctl_output_t`. -/
structure BodyctlOutput where
  lockCmdValid : Bool
  lockLocked : Bool
  lightCmdValid : Bool
  lightPct : UInt8
  deriving Repr, DecidableEq

/-- `bodyctl_init`. -/
def bodyctlInit : BodyctlState where
  doorLocked := false
  lightPct := 0
  doorAjar := false

/-- The output `bodyctl_step` starts from: no command this step. -/
def BodyctlOutput.noCommand : BodyctlOutput where
  lockCmdValid := false
  lockLocked := false
  lightCmdValid := false
  lightPct := 0

/-- `bodyctl_step`. -/
def bodyctlStep
    (st : BodyctlState)
    (input : Option BodyMsg) :
    BodyctlState × BodyctlOutput :=
  let out := BodyctlOutput.noCommand
  match input with
  | none => (st, out)
  | some (.doorCmd cmd) =>
      let st := { st with doorLocked := cmd == .lock }
      (st, { out with lockCmdValid := true, lockLocked := st.doorLocked })
  | some (.lightCmd msg) =>
      let st := { st with lightPct := msg.brightnessPct }
      (st, { out with lightCmdValid := true, lightPct := st.lightPct })
  | some (.sensorReport msg) =>
      let st := { st with doorAjar := msg.doorAjar != 0 }
      if st.doorAjar then
        let st := { st with lightPct := 100 }
        (st, { out with lightCmdValid := true, lightPct := st.lightPct })
      else
        let st := { st with lightPct := 0 }
        (st, { out with lightCmdValid := true, lightPct := st.lightPct })

/-- The courtesy light of a door that is ajar or closed. -/
def courtesyPct (ajar : Bool) : UInt8 :=
  if ajar then 100 else 0

/-- A sensor report commands the courtesy light, and no lock. -/
theorem bodyctlStep_sensorReport
    (st : BodyctlState)
    (msg : SensorReportMsg) :
    bodyctlStep st (some (.sensorReport msg)) =
      ({ st with
          doorAjar := msg.doorAjar != 0
          lightPct := courtesyPct (msg.doorAjar != 0) },
        { BodyctlOutput.noCommand with
          lightCmdValid := true
          lightPct := courtesyPct (msg.doorAjar != 0) }) := by
  cases ajar : msg.doorAjar != 0 <;> simp [bodyctlStep, courtesyPct, ajar]

/-!
## The actuator
-/

/-- The static state of `actuator_fsm.c`. -/
structure ActuatorFsm where
  doorLocked : Bool
  lightPct : UInt8
  deriving Repr, DecidableEq

/-- `actuator_fsm_init`: door locked, light off. -/
def actuatorFsmInit : ActuatorFsm where
  doorLocked := true
  lightPct := 0

/-- `actuator_fsm_apply`. -/
def actuatorFsmApply
    (fsm : ActuatorFsm) :
    Option BodyMsg → ActuatorFsm
  | some (.doorCmd cmd) => { fsm with doorLocked := cmd == .lock }
  | some (.lightCmd msg) => { fsm with lightPct := msg.brightnessPct }
  | _ => fsm

/-- A `LOG_EVT_DBG_U32` record of the actuator: its value and its tag. -/
structure DebugRecord where
  value : UInt32
  tag : UInt16
  deriving Repr, DecidableEq

/-- The lamp of the actuator and `s_last_pct`. -/
structure LightOutput where
  lit : Bool
  lastPct : UInt8
  deriving Repr, DecidableEq

/-- What `demo_io_init` and the initialiser of `s_last_pct` leave. -/
def LightOutput.init : LightOutput where
  lit := false
  lastPct := 0xFF

/-- `light_output_update`. -/
def lightOutputUpdate
    (fsm : ActuatorFsm)
    (output : LightOutput) :
    LightOutput × List DebugRecord :=
  let pct := fsm.lightPct
  let output := { output with lit := decide (0 < pct) }
  if pct ≠ output.lastPct then
    ({ output with lastPct := pct }, [⟨pct.toUInt32, 0x3520⟩])
  else
    (output, [])

/-- The lamp is driven from the commanded brightness. -/
theorem lightOutputUpdate_lit
    (fsm : ActuatorFsm)
    (output : LightOutput) :
    (lightOutputUpdate fsm output).1.lit = decide (0 < fsm.lightPct) := by
  unfold lightOutputUpdate
  dsimp only
  split <;> rfl

/-- The report the actuator sends for its door switch. -/
def sensorReportOf (ajar : Bool) : SensorReportMsg where
  ambientRaw := 0
  doorAjar := if ajar then 1 else 0

/-- What the gateway reads off such a report is the switch. -/
theorem sensorReportOf_ajar
    (ajar : Bool) :
    ((sensorReportOf ajar).doorAjar != 0) = ajar := by
  cases ajar <;> rfl

/-!
## The reprogramming button
-/

/-- The static state of `poll_reprogram_button`. -/
structure ReprogramButton where
  lowCount : UInt32
  pressed : Bool
  deriving Repr, DecidableEq

/-- Its initialisers. -/
def ReprogramButton.init : ReprogramButton where
  lowCount := 0
  pressed := false

/-- `APP_BTN_DEBOUNCE`. -/
def appBtnDebounce : UInt32 :=
  3

/-- `poll_reprogram_button` at a pin level; whether it raises the request. -/
def pollReprogramButton
    (button : ReprogramButton)
    (low : Bool) :
    ReprogramButton × Bool :=
  let lowCount :=
    if low then
      if button.lowCount < appBtnDebounce then
        button.lowCount + 1
      else
        button.lowCount
    else
      0
  let stable := decide (appBtnDebounce ≤ lowCount)
  (⟨lowCount, stable⟩, stable && !button.pressed)

end TraveoBodyDomain
