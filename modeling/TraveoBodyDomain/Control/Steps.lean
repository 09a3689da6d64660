import Mathlib.Tactic.Common
import TraveoBodyDomain.Control.Vehicle
import TraveoBodyDomain.Node.Authenticity

/-!
# What one turn of a task does

The vehicle is a layer over the network: a turn makes at most one call of the
glue.  For each task, the turns it can take, with what they leave of the state
that the messages pass through.
-/

namespace TraveoBodyDomain

/-!
## The calls a turn makes
-/

/-- The network event a vehicle event is, if it is one. -/
def VehicleEvent.netEvent? : VehicleEvent → Option NetEvent
  | .net event => some event
  | _ => none

/-- The network events of a history, in order. -/
def netHistory (history : List VehicleEvent) : List NetEvent :=
  history.filterMap VehicleEvent.netEvent?

@[simp] theorem netHistory_append
    (first second : List VehicleEvent) :
    netHistory (first ++ second) = netHistory first ++ netHistory second :=
  List.filterMap_append

@[simp] theorem netHistory_map_net
    (events : List NetEvent) :
    netHistory (events.map .net) = events := by
  induction events with
  | nil =>
      rfl
  | cons event rest inductionHypothesis =>
      exact congrArg (event :: ·) inductionHypothesis

@[simp] theorem netHistory_map_logged
    (logs : List DebugRecord) :
    netHistory (logs.map .logged) = [] := by
  induction logs with
  | nil =>
      rfl
  | cons record rest inductionHypothesis =>
      exact inductionHypothesis

@[simp] theorem netHistory_cons_sampled
    (ajar : Bool)
    (rest : List VehicleEvent) :
    netHistory (.sampled ajar :: rest) = netHistory rest :=
  rfl

@[simp] theorem netHistory_cons_actuated
    (msg : BodyMsg)
    (fsm : ActuatorFsm)
    (lit : Bool)
    (rest : List VehicleEvent) :
    netHistory (.actuated msg fsm lit :: rest) = netHistory rest :=
  rfl

/-- The call a turn of `can_task` on the gateway makes. -/
def GatewayTasks.canCalls
    (tasks : GatewayTasks)
    (macUp : Bool)
    (outcomes : List CommitOutcome) :
    List NetAction :=
  match tasks.canAt with
  | .sync =>
      if tasks.syncSent then
        []
      else
        [.build (.bootSync .gateway) macUp outcomes]
  | .receive =>
      match tasks.rawQ.receive with
      | none => []
      | some (frame, _) => [.deliver .gateway frame macUp outcomes]

/-- The call a turn of `app_task` makes. -/
def GatewayTasks.appCalls
    (tasks : GatewayTasks)
    (low macUp : Bool)
    (outcomes : List CommitOutcome) :
    List NetAction :=
  match tasks.appAt with
  | .receive => []
  | .door out =>
      if out.lockCmdValid then
        [.build (.doorCmd out.lockLocked) macUp outcomes]
      else
        []
  | .light out =>
      if out.lightCmdValid then
        [.build (.lightCmd out.lightPct) macUp outcomes]
      else
        []
  | .button =>
      if (pollReprogramButton tasks.button low).2 then
        [.powerLoss .gateway]
      else
        []

/-- The call a turn of `can_task` on the actuator makes. -/
def ActuatorTasks.canCalls
    (tasks : ActuatorTasks)
    (ajar macUp : Bool)
    (outcomes : List CommitOutcome) :
    List NetAction :=
  match tasks.canAt with
  | .sync =>
      if tasks.syncSent then
        []
      else
        [.build (.bootSync .actuator) macUp outcomes]
  | .receive =>
      match tasks.rawQ.receive with
      | none => [.build (.telemetry (sensorReportOf ajar)) macUp outcomes]
      | some (frame, _) => [.deliver .actuator frame macUp outcomes]

/-- The calls of the glue one action of the vehicle makes. -/
def Vehicle.calls (vehicle : Vehicle) : VehicleAction → List NetAction
  | .powerLoss side => [.powerLoss side]
  | .boot side status outcomes => [.boot side status outcomes]
  | .arrives _ _ => []
  | .canTask .gateway _ _ macUp outcomes =>
      match vehicle.gateway with
      | none => []
      | some tasks => tasks.canCalls macUp outcomes
  | .canTask .actuator ajar _ macUp outcomes =>
      match vehicle.actuator with
      | none => []
      | some tasks => tasks.canCalls ajar macUp outcomes
  | .appTask low macUp outcomes =>
      match vehicle.gateway with
      | none => []
      | some tasks => tasks.appCalls low macUp outcomes

section Turns

variable {cmac : UInt32 → List UInt8 → FullTag}
  {net : Network}
  {outcomes : List CommitOutcome}

/-- What a turn of a task makes of the network is what its calls make of it. -/
def Follows
    (cmac : UInt32 → List UInt8 → FullTag)
    (net : Network)
    (calls : List NetAction)
    (netAfter : Network)
    (events : List VehicleEvent) : Prop :=
  netAfter = Machine.final (networkStep cmac) net calls ∧
    netHistory events = Machine.trace (networkStep cmac) net calls

/-- Without a call nothing happens to the network. -/
theorem Follows.none : Follows cmac net [] net [] :=
  ⟨rfl, rfl⟩

/-- One call, whose events are told among others that are not the network's. -/
theorem Follows.one
    {call : NetAction}
    {events : List VehicleEvent}
    (told : netHistory events = (networkStep cmac net call).2) :
    Follows cmac net [call] (networkStep cmac net call).1 events := by
  refine ⟨rfl, ?_⟩
  rw [told, Machine.trace_cons, Machine.trace_nil, List.append_nil]

/-- What the actuator does with a message is not the network's. -/
@[simp] theorem netHistory_handle
    (tasks : ActuatorTasks)
    (events : List NetEvent) :
    netHistory (tasks.handle events).2 = [] := by
  unfold ActuatorTasks.handle
  split
  · rfl
  · split
    · rfl
    · exact netHistory_map_logged _

/-- A turn of `can_task` on the gateway makes its calls. -/
theorem gatewayCanTask_follows
    (tasks : GatewayTasks)
    (sent macUp : Bool) :
    Follows cmac net (tasks.canCalls macUp outcomes)
      (gatewayCanTask cmac net tasks sent macUp outcomes).1
      (gatewayCanTask cmac net tasks sent macUp outcomes).2.2 := by
  cases isAt : tasks.canAt with
  | sync =>
      cases done : tasks.syncSent <;>
        simp only [gatewayCanTask, GatewayTasks.canCalls, isAt, done]
      · exact Follows.one (netHistory_map_net _)
      · exact Follows.none
  | receive =>
      rcases taken : tasks.rawQ.receive with _ | ⟨frame, rawQ⟩ <;>
        simp only [gatewayCanTask, GatewayTasks.canCalls, isAt, taken]
      · exact Follows.none
      · exact Follows.one (netHistory_map_net _)

/-- A turn of `app_task` makes its calls. -/
theorem gatewayAppTask_follows
    (tasks : GatewayTasks)
    (low macUp : Bool) :
    Follows cmac net (tasks.appCalls low macUp outcomes)
      (gatewayAppTask cmac net tasks low macUp outcomes).1
      (gatewayAppTask cmac net tasks low macUp outcomes).2.2 := by
  cases isAt : tasks.appAt with
  | receive =>
      rcases taken : tasks.msgQ.receive with _ | ⟨msg, msgQ⟩ <;>
        simp only [gatewayAppTask, GatewayTasks.appCalls, isAt, taken]
      · exact Follows.none
      · exact ⟨rfl, rfl⟩
  | door out =>
      cases asked : out.lockCmdValid <;>
        simp only [gatewayAppTask, GatewayTasks.appCalls, isAt, asked]
      · exact Follows.none
      · exact Follows.one (netHistory_map_net _)
  | light out =>
      cases asked : out.lightCmdValid <;>
        simp only [gatewayAppTask, GatewayTasks.appCalls, isAt, asked]
      · exact Follows.none
      · exact Follows.one (netHistory_map_net _)
  | button =>
      rcases polled : pollReprogramButton tasks.button low with
        ⟨button, _ | _⟩ <;>
        simp only [gatewayAppTask, GatewayTasks.appCalls, isAt, polled]
      · exact Follows.none
      · exact Follows.one rfl

/-- A turn of `can_task` on the actuator makes its calls. -/
theorem actuatorCanTask_follows
    (tasks : ActuatorTasks)
    (ajar sent macUp : Bool) :
    Follows cmac net (tasks.canCalls ajar macUp outcomes)
      (actuatorCanTask cmac net tasks ajar sent macUp outcomes).1
      (actuatorCanTask cmac net tasks ajar sent macUp outcomes).2.2 := by
  cases isAt : tasks.canAt with
  | sync =>
      cases done : tasks.syncSent <;>
        simp only [actuatorCanTask, ActuatorTasks.canCalls, isAt, done]
      · exact Follows.one (netHistory_map_net _)
      · exact Follows.none
  | receive =>
      rcases taken : tasks.rawQ.receive with _ | ⟨frame, rawQ⟩ <;>
        simp only [actuatorCanTask, ActuatorTasks.canCalls, isAt, taken]
      · exact Follows.one (by simp)
      · exact Follows.one (by simp)

end Turns

/-- The vehicle over the network of the two glues. -/
def vehicleLayer (cmac : UInt32 → List UInt8 → FullTag) :
    Machine.Layer (networkStep cmac) (vehicleStep cmac) where
  base := Vehicle.net
  actions := Vehicle.calls
  shown := VehicleEvent.netEvent?
  follows := by
    intro vehicle action
    show Follows cmac vehicle.net (vehicle.calls action)
      (vehicleStep cmac vehicle action).1.net (vehicleStep cmac vehicle action).2
    cases action with
    | powerLoss side =>
        cases side <;> exact Follows.one (netHistory_map_net _)
    | boot side status outcomes =>
        cases side <;> exact Follows.one (netHistory_map_net _)
    | arrives side f =>
        cases side <;> exact Follows.none
    | canTask side ajar sent macUp outcomes =>
        cases side with
        | gateway =>
            rcases running : vehicle.gateway with _ | tasks <;>
              simp only [vehicleStep, Vehicle.calls, running]
            · exact Follows.none
            · exact gatewayCanTask_follows tasks sent macUp
        | actuator =>
            rcases running : vehicle.actuator with _ | tasks <;>
              simp only [vehicleStep, Vehicle.calls, running]
            · exact Follows.none
            · exact actuatorCanTask_follows tasks ajar sent macUp
    | appTask low macUp outcomes =>
        rcases running : vehicle.gateway with _ | tasks <;>
          simp only [vehicleStep, Vehicle.calls, running]
        · exact Follows.none
        · exact gatewayAppTask_follows tasks low macUp

/-!
## What the calls show
-/

section Calls

variable {cmac : UInt32 → List UInt8 → FullTag}
  {net : Network}
  {outcomes : List CommitOutcome}

/-- Building shows the request it built for, at most once, and nothing else. -/
theorem networkStep_build_events
    (request : Request)
    (up : Bool) :
    (networkStep cmac net (.build request up outcomes)).2 = [] ∨
      ∃ record,
        (networkStep cmac net (.build request up outcomes)).2 =
          [.built request record] := by
  rcases networkStep_build request up with ⟨tx, store, sent, ran, did⟩
  rw [ran]
  rcases did with ⟨-, -, rfl⟩ | ⟨-, -, -, -, rfl | ⟨epoch, counter, -, rfl⟩⟩
  · exact Or.inl rfl
  · exact Or.inl rfl
  · exact Or.inr ⟨_, rfl⟩

/-- The message of a request is built on its own ID, or nothing is. -/
theorem builtMessages_build
    (request : Request)
    (up : Bool)
    (canId : UInt16) :
    builtMessages canId
        (networkStep cmac net (.build request up outcomes)).2 = [] ∨
      request.canId = canId ∧
        builtMessages canId
            (networkStep cmac net (.build request up outcomes)).2 =
          request.message.toList := by
  rcases networkStep_build_events request up with silent | ⟨record, built⟩
  · exact Or.inl (by rw [silent]; rfl)
  · rw [built]
    by_cases own : request.canId = canId
    · refine Or.inr ⟨own, ?_⟩
      cases asked : request.message <;> simp [builtMessages, own, asked]
    · exact Or.inl (by simp [builtMessages, own])

/-- Building hands nothing on. -/
theorem handedMessages_build
    (request : Request)
    (up : Bool)
    (side : Side)
    (canId : UInt16) :
    handedMessages side canId
      (networkStep cmac net (.build request up outcomes)).2 = [] := by
  rcases networkStep_build_events request up with silent | ⟨record, built⟩
  · rw [silent]
    rfl
  · rw [built]
    rfl

/-- What a delivered frame shows: at most one message, decoded under its ID. -/
structure DeliveryShows
    (side : Side)
    (f : CanRawFrame)
    (events : List NetEvent)
    (handed : Option BodyMsg) : Prop where
  message : handedMessage events = handed
  messages :
    ∀ receiver canId,
      handedMessages receiver canId events =
        if side = receiver ∧ f.id.toUInt16 = canId then
          handed.toList
        else
          []
  nothingBuilt : ∀ canId, builtMessages canId events = []
  quietFault : didFault events = true → handed = none
  decoded :
    ∀ msg, handed = some msg →
      side.listens f ∧ ∃ pdu, bodyDecode f.id pdu = some msg

/-- Events without a message. -/
theorem DeliveryShows.silent
    {side : Side}
    {f : CanRawFrame}
    {events : List NetEvent}
    (noMessage :
      ∀ event ∈ events,
        (∃ receiver record, event = .accepted receiver record) ∨
          ∃ receiver, event = .faulted receiver) :
    DeliveryShows side f events none := by
  refine ⟨?_, ?_, ?_, fun _ => rfl, fun msg same => by cases same⟩
  · refine List.findSome?_eq_none_iff.mpr ?_
    intro event member
    rcases noMessage event member with ⟨_, _, rfl⟩ | ⟨_, rfl⟩ <;> rfl
  · intro receiver canId
    refine (List.filterMap_eq_nil_iff.mpr ?_).trans (ite_self []).symm
    intro event member
    rcases noMessage event member with ⟨_, _, rfl⟩ | ⟨_, rfl⟩ <;> rfl
  · intro canId
    refine List.filterMap_eq_nil_iff.mpr ?_
    intro event member
    rcases noMessage event member with ⟨_, _, rfl⟩ | ⟨_, rfl⟩ <;> rfl

/-- What a delivery shows, whatever the frame. -/
theorem networkStep_deliver_shows
    (side : Side)
    (f : CanRawFrame)
    (up : Bool) :
    ∃ handed,
      DeliveryShows side f
        (networkStep cmac net (.deliver side f up outcomes)).2 handed := by
  by_cases listens : side.listens f
  · rcases networkStep_deliver up listens with
        ⟨result, nodeAfter, events, processed, ran, did⟩
    rw [ran]
    rcases did with ⟨-, -, -, -, rfl⟩ | ⟨handled, spec, -, rfl⟩
    · exact ⟨none, .silent (by simp)⟩
    · refine ⟨handled.handedOn, ?_, ?_, ?_, ?_, ?_⟩
      · unfold handedMessage handledEvents
        split <;> cases handled.handedOn <;>
          simp [apply_ite]
      · intro receiver canId
        rw [handedMessages_append, handedMessages_handledEvents]
        have nothing :
            handedMessages receiver canId
                (if result.verdict = .accept then
                    [.accepted side (recordOf f)]
                  else
                    []) = [] := by
          split <;> rfl
        rw [nothing, List.nil_append]
      · intro canId
        unfold handledEvents
        split <;> split <;> cases handled.handedOn <;> rfl
      · intro faulted
        unfold didFault handledEvents at faulted
        cases handled.handedOn <;> split at faulted <;> split at faulted <;>
          simp at faulted
      · intro msg handed
        refine ⟨listens, released result, ?_⟩
        have decoded := spec.handedOn
        rw [handed] at decoded
        split at decoded
        · exact decoded.symm
        · cases decoded
  · rw [networkStep_deliver_other up listens]
    exact ⟨none, .silent (by simp)⟩

/-- What the gateway hands on are sensor reports. -/
theorem DeliveryShows.report
    {f : CanRawFrame}
    {events : List NetEvent}
    {msg : BodyMsg}
    (shows : DeliveryShows .gateway f events (some msg)) :
    f.id.toUInt16 = msgIdSensorRpt ∧ ∃ report, msg = .sensorReport report := by
  obtain ⟨⟨canId, registered, isId⟩, pdu, decoded⟩ := shows.decoded msg rfl
  simp only [Side.config, NodeA.config, List.mem_cons, List.not_mem_nil,
    or_false] at registered
  rcases registered with rfl | rfl
  · refine ⟨by rw [isId, UInt16.toUInt16_toUInt32], ?_⟩
    rw [isId] at decoded
    have isSensor :
        bodyDecode msgIdSensorRpt.toUInt32 pdu =
          (unpackSensorReport pdu).map .sensorReport :=
      rfl
    rw [isSensor] at decoded
    obtain ⟨report, -, rfl⟩ := Option.map_eq_some_iff.mp decoded
    exact ⟨report, rfl⟩
  · rw [isId] at decoded
    cases decoded

/-- What the actuator hands on are commands, under their own IDs. -/
theorem DeliveryShows.command
    {f : CanRawFrame}
    {events : List NetEvent}
    {msg : BodyMsg}
    (shows : DeliveryShows .actuator f events (some msg)) :
    (f.id.toUInt16 = msgIdDoorCmd ∧ ∃ cmd, msg = .doorCmd cmd) ∨
      (f.id.toUInt16 = msgIdLightCmd ∧ ∃ light, msg = .lightCmd light) := by
  obtain ⟨⟨canId, registered, isId⟩, pdu, decoded⟩ := shows.decoded msg rfl
  simp only [Side.config, NodeB.config, List.mem_cons, List.not_mem_nil,
    or_false] at registered
  rw [isId] at decoded
  have onId : f.id.toUInt16 = canId := by
    rw [isId, UInt16.toUInt16_toUInt32]
  rcases registered with rfl | rfl | rfl
  · have isDoor :
        bodyDecode msgIdDoorCmd.toUInt32 pdu =
          (unpackDoorCmd pdu).map .doorCmd :=
      rfl
    rw [isDoor] at decoded
    obtain ⟨cmd, -, rfl⟩ := Option.map_eq_some_iff.mp decoded
    exact Or.inl ⟨onId, cmd, rfl⟩
  · have isLight :
        bodyDecode msgIdLightCmd.toUInt32 pdu =
          (unpackLightCmd pdu).map .lightCmd :=
      rfl
    rw [isLight] at decoded
    obtain ⟨light, -, rfl⟩ := Option.map_eq_some_iff.mp decoded
    exact Or.inr ⟨onId, light, rfl⟩
  · cases decoded

end Calls

end TraveoBodyDomain
