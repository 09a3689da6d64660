import Mathlib.Tactic.Common
import TraveoBodyDomain.Lib.Relay
import TraveoBodyDomain.Lib.Layer
import TraveoBodyDomain.Control.Logic
import TraveoBodyDomain.Node.Network

/-!
# The tasks of the two nodes

`can_task` of both nodes and `app_task` of the gateway, over the network of the
two SecOC glues.  A task is where it is in its loop; one action is what it does
up to the next call or the next point where it may be preempted.  The two tasks
of the gateway, the receive interrupts, the power and the bus take their turns
in any order.  A call of the glue is one step of the network.
-/

namespace TraveoBodyDomain

/-- `RAW_FRAME_QDEPTH`. -/
def rawFrameQdepth : Nat :=
  16

/-- `APP_MSG_QDEPTH`. -/
def appMsgQdepth : Nat :=
  8

/-- Where `can_task` is in its loop. -/
inductive CanTaskAt where
  | sync
  | receive
  deriving Repr, DecidableEq

/-- Where `app_task` is in its loop, with the output `apply_output` is given. -/
inductive AppTaskAt where
  | receive
  | door (out : BodyctlOutput)
  | light (out : BodyctlOutput)
  | button
  deriving Repr, DecidableEq

/-- The static state of the gateway's tasks. -/
structure GatewayTasks where
  rawQ : BoundedQueue CanRawFrame rawFrameQdepth
  msgQ : BoundedQueue BodyMsg appMsgQdepth
  canAt : CanTaskAt
  syncSent : Bool
  appAt : AppTaskAt
  body : BodyctlState
  button : ReprogramButton
  deriving DecidableEq

/-- The static state of the actuator's CAN task. -/
structure ActuatorTasks where
  rawQ : BoundedQueue CanRawFrame rawFrameQdepth
  canAt : CanTaskAt
  syncSent : Bool
  fsm : ActuatorFsm
  output : LightOutput
  lastAjar : Bool
  deriving DecidableEq

/-- `can_task_create`, `app_task_create` and what the tasks do before their loops. -/
def GatewayTasks.create : GatewayTasks where
  rawQ := .empty
  msgQ := .empty
  canAt := .sync
  syncSent := false
  appAt := .receive
  body := bodyctlInit
  button := .init

/-- `can_task_create` of the actuator. -/
def ActuatorTasks.create : ActuatorTasks where
  rawQ := .empty
  canAt := .sync
  syncSent := false
  fsm := actuatorFsmInit
  output := .init
  lastAjar := false

/-- The two nodes with their tasks; a node that does not run has none. -/
structure Vehicle where
  net : Network
  gateway : Option GatewayTasks
  actuator : Option ActuatorTasks

/-- Both nodes without power, whatever their stores hold. -/
def Vehicle.unpowered (stores : Side → FreshnessStore) : Vehicle where
  net := .unpowered stores
  gateway := none
  actuator := none

/-- One choice of the environment and of the schedulers. -/
inductive VehicleAction where
  | powerLoss (side : Side)
  | boot
      (side : Side)
      (status : SecocStoreStatus)
      (outcomes : List CommitOutcome)
  /-- A receive interrupt. -/
  | arrives (side : Side) (f : CanRawFrame)
  /-- A turn of `can_task`: the pin level and the result of `can_tx` it may see. -/
  | canTask
      (side : Side)
      (ajar sent macUp : Bool)
      (outcomes : List CommitOutcome)
  /-- A turn of `app_task`: the level of the button it may see. -/
  | appTask (low macUp : Bool) (outcomes : List CommitOutcome)
  deriving DecidableEq

/-- What an observer of the vehicle sees. -/
inductive VehicleEvent where
  | net (event : NetEvent)
  /-- The door switch was read for a report. -/
  | sampled (ajar : Bool)
  /-- `bodyctl_step` took a message. -/
  | stepped (msg : BodyMsg)
  /-- `actuator_fsm_apply` took a command; the state and the lamp it left. -/
  | actuated (msg : BodyMsg) (fsm : ActuatorFsm) (lit : Bool)
  | logged (record : DebugRecord)
  /-- `app_request_reprogram`. -/
  | reprogram
  deriving DecidableEq

/-- Whether a call of a builder returned a frame. -/
def didBuild (events : List NetEvent) : Bool :=
  events.any fun
    | .built _ _ => true
    | _ => false

/-- Whether a call faulted. -/
def didFault (events : List NetEvent) : Bool :=
  events.any fun
    | .faulted _ => true
    | _ => false

/-- The message a call of a verifier returned, if it did. -/
def handedMessage (events : List NetEvent) : Option BodyMsg :=
  events.findSome? fun
    | .handedOn _ _ msg => some msg
    | _ => none

section Step

variable (cmac : UInt32 → List UInt8 → FullTag)

/-- `can_rx_callback` of either node: a full queue drops the frame. -/
def canRxCallback
    (vehicle : Vehicle)
    (f : CanRawFrame) :
    Side → Vehicle
  | .gateway =>
      { vehicle with
        gateway :=
          vehicle.gateway.map fun tasks =>
            { tasks with rawQ := tasks.rawQ.send f } }
  | .actuator =>
      { vehicle with
        actuator :=
          vehicle.actuator.map fun tasks =>
            { tasks with rawQ := tasks.rawQ.send f } }

/-- What `can_task` of the gateway does with what a verifier returned. -/
def GatewayTasks.handle
    (tasks : GatewayTasks)
    (events : List NetEvent) :
    Option GatewayTasks :=
  if didFault events then
    none
  else
    match handedMessage events with
    | none => some tasks
    | some msg => some { tasks with msgQ := tasks.msgQ.send msg }

/-- What `can_task` of the actuator does with what a verifier returned. -/
def ActuatorTasks.handle
    (tasks : ActuatorTasks)
    (events : List NetEvent) :
    Option ActuatorTasks × List VehicleEvent :=
  if didFault events then
    (none, [])
  else
    match handedMessage events with
    | none => (some tasks, [])
    | some msg =>
        let fsm := actuatorFsmApply tasks.fsm (some msg)
        let (output, logs) := lightOutputUpdate fsm tasks.output
        (some { tasks with fsm := fsm, output := output },
          .actuated msg fsm output.lit :: logs.map .logged)

/-- A turn of `can_task` on the gateway. -/
def gatewayCanTask
    (net : Network)
    (tasks : GatewayTasks)
    (sent macUp : Bool)
    (outcomes : List CommitOutcome) :
    Network × Option GatewayTasks × List VehicleEvent :=
  match tasks.canAt with
  | .sync =>
      let tasks := { tasks with canAt := .receive }
      if tasks.syncSent then
        (net, some tasks, [])
      else
        let (net, events) :=
          networkStep cmac net (.build (.bootSync .gateway) macUp outcomes)
        (net, some { tasks with syncSent := didBuild events && sent },
          events.map .net)
  | .receive =>
      let tasks := { tasks with canAt := .sync }
      match tasks.rawQ.receive with
      | none => (net, some tasks, [])
      | some (frame, rawQ) =>
          let (net, events) :=
            networkStep cmac net (.deliver .gateway frame macUp outcomes)
          (net, { tasks with rawQ := rawQ }.handle events, events.map .net)

/--
A turn of `app_task`.  A raised `g_reprogram_request` is served at once: the
handshake is written and the core resets into the bootloader.
-/
def gatewayAppTask
    (net : Network)
    (tasks : GatewayTasks)
    (low macUp : Bool)
    (outcomes : List CommitOutcome) :
    Network × Option GatewayTasks × List VehicleEvent :=
  match tasks.appAt with
  | .receive =>
      match tasks.msgQ.receive with
      | none => (net, some { tasks with appAt := .button }, [])
      | some (msg, msgQ) =>
          let (body, out) := bodyctlStep tasks.body (some msg)
          (net,
            some { tasks with msgQ := msgQ, body := body, appAt := .door out },
            [.stepped msg])
  -- The two halves of `apply_output`.
  | .door out =>
      let tasks := { tasks with appAt := .light out }
      if out.lockCmdValid then
        let (net, events) :=
          networkStep cmac net (.build (.doorCmd out.lockLocked) macUp outcomes)
        (net, some tasks, events.map .net)
      else
        (net, some tasks, [])
  | .light out =>
      let tasks := { tasks with appAt := .button }
      if out.lightCmdValid then
        let (net, events) :=
          networkStep cmac net (.build (.lightCmd out.lightPct) macUp outcomes)
        (net, some tasks, events.map .net)
      else
        (net, some tasks, [])
  | .button =>
      let (button, raised) := pollReprogramButton tasks.button low
      if raised then
        let (net, events) := networkStep cmac net (.powerLoss .gateway)
        (net, none, events.map .net ++ [.reprogram])
      else
        (net, some { tasks with button := button, appAt := .receive }, [])

/-- A turn of `can_task` on the actuator. -/
def actuatorCanTask
    (net : Network)
    (tasks : ActuatorTasks)
    (ajar sent macUp : Bool)
    (outcomes : List CommitOutcome) :
    Network × Option ActuatorTasks × List VehicleEvent :=
  match tasks.canAt with
  | .sync =>
      let tasks := { tasks with canAt := .receive }
      if tasks.syncSent then
        (net, some tasks, [])
      else
        let (net, events) :=
          networkStep cmac net (.build (.bootSync .actuator) macUp outcomes)
        (net, some { tasks with syncSent := didBuild events && sent },
          events.map .net)
  | .receive =>
      let tasks := { tasks with canAt := .sync }
      match tasks.rawQ.receive with
      | some (frame, rawQ) =>
          let (net, events) :=
            networkStep cmac net (.deliver .actuator frame macUp outcomes)
          let (tasks, own) := { tasks with rawQ := rawQ }.handle events
          (net, tasks, events.map .net ++ own)
      | none =>
          -- The receive timed out: a report for the door switch.
          let logs :=
            if ajar ≠ tasks.lastAjar then
              [DebugRecord.mk (if ajar then 1 else 0) 0x3521]
            else
              []
          let (net, events) :=
            networkStep cmac net
              (.build (.telemetry (sensorReportOf ajar)) macUp outcomes)
          (net, some { tasks with lastAjar := ajar },
            logs.map .logged ++ .sampled ajar :: events.map .net)

/-- One step of the vehicle.  The tasks of a node that does not run take no turns. -/
def vehicleStep : Machine.Step Vehicle VehicleAction VehicleEvent
  | vehicle, .powerLoss side =>
      let (net, events) := networkStep cmac vehicle.net (.powerLoss side)
      (match side with
        | .gateway => { vehicle with net := net, gateway := none }
        | .actuator => { vehicle with net := net, actuator := none },
        events.map .net)
  | vehicle, .boot side status outcomes =>
      let (net, events) :=
        networkStep cmac vehicle.net (.boot side status outcomes)
      (match side with
        | .gateway => { vehicle with net := net, gateway := some .create }
        | .actuator => { vehicle with net := net, actuator := some .create },
        events.map .net)
  | vehicle, .arrives side f => (canRxCallback vehicle f side, [])
  | vehicle, .canTask .gateway _ sent macUp outcomes =>
      match vehicle.gateway with
      | none => (vehicle, [])
      | some tasks =>
          let (net, gateway, events) :=
            gatewayCanTask cmac vehicle.net tasks sent macUp outcomes
          ({ vehicle with net := net, gateway := gateway }, events)
  | vehicle, .canTask .actuator ajar sent macUp outcomes =>
      match vehicle.actuator with
      | none => (vehicle, [])
      | some tasks =>
          let (net, actuator, events) :=
            actuatorCanTask cmac vehicle.net tasks ajar sent macUp outcomes
          ({ vehicle with net := net, actuator := actuator }, events)
  | vehicle, .appTask low macUp outcomes =>
      match vehicle.gateway with
      | none => (vehicle, [])
      | some tasks =>
          let (net, gateway, events) :=
            gatewayAppTask cmac vehicle.net tasks low macUp outcomes
          ({ vehicle with net := net, gateway := gateway }, events)

end Step

end TraveoBodyDomain
