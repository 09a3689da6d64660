import Mathlib.Tactic.Common
import TraveoBodyDomain.Control.DoorHolds

/-!
# The stages between the switch and the lamp

From the door switch of the actuator to its lamp a reading passes two nodes,
two queues and the bus twice.  Each stage here passes on, in their order and
none of them twice, some of what it was given: a step at a time.
-/

namespace TraveoBodyDomain

/-!
## What an observer of the stages sees
-/

/-- The readings of the door switch that were reported. -/
def samples (history : List VehicleEvent) : List Bool :=
  history.filterMap fun
    | .sampled ajar => some ajar
    | _ => none

/-- The messages `bodyctl_step` took. -/
def steppedMessages (history : List VehicleEvent) : List BodyMsg :=
  history.filterMap fun
    | .stepped msg => some msg
    | _ => none

/-- The commands the actuator carried out. -/
def actuatedMessages (history : List VehicleEvent) : List BodyMsg :=
  history.filterMap fun
    | .actuated msg _ _ => some msg
    | _ => none

/-- The light commands the actuator carried out. -/
def actuatedLights (history : List VehicleEvent) : List BodyMsg :=
  history.filterMap fun
    | .actuated (.lightCmd light) _ _ => some (.lightCmd light)
    | _ => none

@[simp] theorem samples_append
    (first second : List VehicleEvent) :
    samples (first ++ second) = samples first ++ samples second :=
  List.filterMap_append

@[simp] theorem steppedMessages_append
    (first second : List VehicleEvent) :
    steppedMessages (first ++ second) =
      steppedMessages first ++ steppedMessages second :=
  List.filterMap_append

@[simp] theorem actuatedLights_append
    (first second : List VehicleEvent) :
    actuatedLights (first ++ second) =
      actuatedLights first ++ actuatedLights second :=
  List.filterMap_append

/-- Events of one kind are none of another. -/
theorem filterMap_map_of_none
    {α β γ : Type}
    {pick : β → Option γ}
    {kind : α → β}
    (never : ∀ value, pick (kind value) = none)
    (values : List α) :
    (values.map kind).filterMap pick = [] := by
  induction values with
  | nil =>
      rfl
  | cons value rest inductionHypothesis =>
      rw [List.map_cons, List.filterMap_cons_none (never value)]
      exact inductionHypothesis

@[simp] theorem samples_map_net
    (events : List NetEvent) :
    samples (events.map .net) = [] :=
  filterMap_map_of_none (fun _ => rfl) events

@[simp] theorem samples_map_logged
    (logs : List DebugRecord) :
    samples (logs.map .logged) = [] :=
  filterMap_map_of_none (fun _ => rfl) logs

@[simp] theorem steppedMessages_map_net
    (events : List NetEvent) :
    steppedMessages (events.map .net) = [] :=
  filterMap_map_of_none (fun _ => rfl) events

@[simp] theorem steppedMessages_map_logged
    (logs : List DebugRecord) :
    steppedMessages (logs.map .logged) = [] :=
  filterMap_map_of_none (fun _ => rfl) logs

@[simp] theorem actuatedLights_map_net
    (events : List NetEvent) :
    actuatedLights (events.map .net) = [] :=
  filterMap_map_of_none (fun _ => rfl) events

@[simp] theorem actuatedLights_map_logged
    (logs : List DebugRecord) :
    actuatedLights (logs.map .logged) = [] :=
  filterMap_map_of_none (fun _ => rfl) logs

/-- A door command carried out is no light command. -/
theorem actuatedLights_door
    (cmd : DoorCmd)
    (fsm : ActuatorFsm)
    (lit : Bool)
    (logs : List DebugRecord) :
    actuatedLights (.actuated (.doorCmd cmd) fsm lit :: logs.map .logged) =
      [] :=
  actuatedLights_map_logged logs

/-- A light command carried out is one. -/
theorem actuatedLights_light
    (light : LightCmdMsg)
    (fsm : ActuatorFsm)
    (lit : Bool)
    (logs : List DebugRecord) :
    actuatedLights (.actuated (.lightCmd light) fsm lit :: logs.map .logged) =
      [.lightCmd light] :=
  congrArg (BodyMsg.lightCmd light :: ·) (actuatedLights_map_logged logs)

/-- What a run only ever actuated with lights are all its commands. -/
theorem actuatedMessages_eq_lights
    {history : List VehicleEvent}
    (held : ∀ event ∈ history, event.HoldsDoor) :
    actuatedMessages history = actuatedLights history := by
  refine List.filterMap_congr ?_
  intro event member
  cases event with
  | actuated msg fsm lit =>
      obtain ⟨⟨light, rfl⟩, -⟩ := held _ member
      rfl
  | _ => rfl

/-!
## The calls a stage is not made of
-/

section Calls

variable {cmac : UInt32 → List UInt8 → FullTag}
  {net : Network}
  {canId : UInt16}
  {side : Side}

/-- A call that builds nothing under an ID shows nothing built for it. -/
theorem BuildsNot.silent
    {call : NetAction}
    (buildsNot : BuildsNot canId call) :
    builtMessages canId (networkStep cmac net call).2 = [] := by
  cases call with
  | powerLoss side => rfl
  | boot side status outcomes => rfl
  | build request up outcomes =>
      rcases builtMessages_build request up canId with silent | ⟨own, -⟩
      · exact silent
      · exact (buildsNot own).elim
  | deliver side f up outcomes =>
      obtain ⟨handed, shows⟩ :=
        @networkStep_deliver_shows cmac net outcomes side f up
      exact shows.nothingBuilt canId

/-- Calls that build nothing under an ID show nothing built for it. -/
theorem builtMessages_trace
    {calls : List NetAction}
    (buildsNot : ∀ call ∈ calls, BuildsNot canId call) :
    builtMessages canId (Machine.trace (networkStep cmac) net calls) = [] := by
  induction calls generalizing net with
  | nil =>
      rfl
  | cons call rest inductionHypothesis =>
      rw [Machine.trace_cons, builtMessages_append,
        (buildsNot call List.mem_cons_self).silent, List.nil_append]
      exact
        inductionHypothesis fun later member =>
          buildsNot later (List.mem_cons_of_mem _ member)

/-- The call delivers nothing to the node. -/
def DeliversNot (side : Side) : NetAction → Prop
  | .deliver receiver _ _ _ => receiver ≠ side
  | _ => True

/-- A call that delivers nothing to a node hands nothing on there. -/
theorem DeliversNot.silent
    {call : NetAction}
    (deliversNot : DeliversNot side call) :
    handedMessages side canId (networkStep cmac net call).2 = [] := by
  cases call with
  | powerLoss side => rfl
  | boot side status outcomes => rfl
  | build request up outcomes =>
      exact handedMessages_build request up side canId
  | deliver receiver f up outcomes =>
      obtain ⟨handed, shows⟩ :=
        @networkStep_deliver_shows cmac net outcomes receiver f up
      rw [shows.messages]
      exact if_neg fun both => deliversNot both.1

/-- Calls that deliver nothing to a node hand nothing on there. -/
theorem handedMessages_trace
    {calls : List NetAction}
    (deliversNot : ∀ call ∈ calls, DeliversNot side call) :
    handedMessages side canId (Machine.trace (networkStep cmac) net calls) =
      [] := by
  induction calls generalizing net with
  | nil =>
      rfl
  | cons call rest inductionHypothesis =>
      rw [Machine.trace_cons, handedMessages_append,
        (deliversNot call List.mem_cons_self).silent, List.nil_append]
      exact
        inductionHypothesis fun later member =>
          deliversNot later (List.mem_cons_of_mem _ member)

end Calls

/-!
## From the switch to the report, and from the command to the lamp
-/

/-- The report a reading asks for. -/
def reportOf (ajar : Bool) : BodyMsg :=
  .sensorReport (sensorReportOf ajar)

/-- The command that sets the courtesy light of a door. -/
def courtesyCmd (ajar : Bool) : BodyMsg :=
  .lightCmd ⟨courtesyPct ajar⟩

/-- The light command `bodyctl_step` outputs for a message, if any. -/
def BodyctlOutput.lightAsked (out : BodyctlOutput) : Option BodyMsg :=
  if out.lightCmdValid then
    some (.lightCmd ⟨out.lightPct⟩)
  else
    none

/-- The light command a message asks for, whatever the state. -/
def lightAsked (msg : BodyMsg) : Option BodyMsg :=
  (bodyctlStep bodyctlInit (some msg)).2.lightAsked

/-- The output does not depend on the state. -/
theorem bodyctlStep_lightAsked
    (st : BodyctlState)
    (msg : BodyMsg) :
    (bodyctlStep st (some msg)).2.lightAsked = lightAsked msg := by
  cases msg with
  | doorCmd cmd => rfl
  | lightCmd light => rfl
  | sensorReport report =>
      rw [lightAsked, bodyctlStep_sensorReport, bodyctlStep_sensorReport]

/-- A report asks for the courtesy light. -/
theorem lightAsked_reportOf
    (ajar : Bool) :
    lightAsked (reportOf ajar) = some (courtesyCmd ajar) := by
  rw [lightAsked, reportOf, bodyctlStep_sensorReport, sensorReportOf_ajar]
  rfl

section Ends

variable {cmac : UInt32 → List UInt8 → FullTag}
  {vehicle : Vehicle}

/-- The calls of a step show in its events. -/
theorem netHistory_vehicleStep
    (action : VehicleAction) :
    netHistory (vehicleStep cmac vehicle action).2 =
      Machine.trace (networkStep cmac) vehicle.net (vehicle.calls action) :=
  ((vehicleLayer cmac).follows vehicle action).2

/-- Only a turn of the actuator's CAN task on an empty queue builds a report. -/
theorem ActuatorTasks.canCalls_reports
    {net : Network}
    (tasks : ActuatorTasks)
    (ajar sent macUp : Bool)
    (outcomes : List CommitOutcome) :
    let events := (actuatorCanTask cmac net tasks ajar sent macUp outcomes).2.2
    (builtMessages msgIdSensorRpt (netHistory events)).Sublist
      ((samples events).map reportOf) := by
  intro events
  cases isAt : tasks.canAt with
  | sync =>
      have shown :=
        (@actuatorCanTask_follows cmac net outcomes tasks ajar sent macUp).2
      have quiet :
          ∀ call ∈ tasks.canCalls ajar macUp outcomes,
            BuildsNot msgIdSensorRpt call := by
        intro call member
        cases done : tasks.syncSent <;>
          simp only [ActuatorTasks.canCalls, isAt, done, Bool.false_eq_true,
            ↓reduceIte, List.mem_singleton, List.not_mem_nil] at member
        rw [member]
        show Side.actuator.config.bootSyncId ≠ msgIdSensorRpt
        decide
      rw [shown, builtMessages_trace quiet]
      exact List.nil_sublist _
  | receive =>
      rcases taken : tasks.rawQ.receive with _ | ⟨frame, rawQ⟩
      · have shown :
            events =
              (if ajar ≠ tasks.lastAjar then
                [DebugRecord.mk (if ajar then 1 else 0) 0x3521]
              else
                []).map .logged ++
                .sampled ajar ::
                  (networkStep cmac net
                    (.build (.telemetry (sensorReportOf ajar)) macUp
                      outcomes)).2.map .net := by
          simp only [events, actuatorCanTask, isAt, taken]
        have sampled : samples events = [ajar] := by
          rw [shown, samples_append, samples_map_logged, List.nil_append]
          exact congrArg (ajar :: ·) (samples_map_net _)
        have told :
            netHistory events =
              (networkStep cmac net
                (.build (.telemetry (sensorReportOf ajar)) macUp
                  outcomes)).2 := by
          rw [shown]
          simp
        rw [sampled, told]
        rcases
          @builtMessages_build cmac net outcomes
            (.telemetry (sensorReportOf ajar)) macUp msgIdSensorRpt with
          silent | ⟨-, built⟩
        · rw [silent]
          exact List.nil_sublist _
        · rw [built]
          exact List.Sublist.refl _
      · have shown :=
          (@actuatorCanTask_follows cmac net outcomes tasks ajar sent macUp).2
        have quiet :
            ∀ call ∈ tasks.canCalls ajar macUp outcomes,
              BuildsNot msgIdSensorRpt call := by
          intro call member
          simp only [ActuatorTasks.canCalls, isAt, taken,
            List.mem_singleton] at member
          rw [member]
          trivial
        rw [shown, builtMessages_trace quiet]
        exact List.nil_sublist _

/-- What `can_task` of the gateway calls: its boot sync, or a delivery. -/
theorem GatewayTasks.mem_canCalls
    {tasks : GatewayTasks}
    {macUp : Bool}
    {outcomes : List CommitOutcome}
    {call : NetAction}
    (member : call ∈ tasks.canCalls macUp outcomes) :
    call = .build (.bootSync .gateway) macUp outcomes ∨
      ∃ f, call = .deliver .gateway f macUp outcomes := by
  unfold GatewayTasks.canCalls at member
  split at member
  · split at member
    · cases member
    · exact Or.inl (List.mem_singleton.mp member)
  · split at member
    · cases member
    · exact Or.inr ⟨_, List.mem_singleton.mp member⟩

/-- What `app_task` calls: a builder of a command, or the reset. -/
theorem GatewayTasks.mem_appCalls
    {tasks : GatewayTasks}
    {low macUp : Bool}
    {outcomes : List CommitOutcome}
    {call : NetAction}
    (member : call ∈ tasks.appCalls low macUp outcomes) :
    (∃ locked, call = .build (.doorCmd locked) macUp outcomes) ∨
      (∃ pct, call = .build (.lightCmd pct) macUp outcomes) ∨
      call = .powerLoss .gateway := by
  unfold GatewayTasks.appCalls at member
  split at member
  · cases member
  · split at member
    · exact Or.inl ⟨_, List.mem_singleton.mp member⟩
    · cases member
  · split at member
    · exact Or.inr (Or.inl ⟨_, List.mem_singleton.mp member⟩)
    · cases member
  · split at member
    · exact Or.inr (Or.inr (List.mem_singleton.mp member))
    · cases member

/-- The gateway builds no report. -/
theorem gatewayCalls_buildNoReport
    {tasks : GatewayTasks}
    {low macUp : Bool}
    {outcomes : List CommitOutcome}
    {call : NetAction}
    (member :
      call ∈ tasks.canCalls macUp outcomes ∨
        call ∈ tasks.appCalls low macUp outcomes) :
    BuildsNot msgIdSensorRpt call := by
  rcases member with ofCan | ofApp
  · rcases GatewayTasks.mem_canCalls ofCan with rfl | ⟨f, rfl⟩
    · show Side.gateway.config.bootSyncId ≠ msgIdSensorRpt
      decide
    · trivial
  · rcases GatewayTasks.mem_appCalls ofApp with
      ⟨locked, rfl⟩ | ⟨pct, rfl⟩ | rfl
    · show msgIdDoorCmd ≠ msgIdSensorRpt
      decide
    · show msgIdLightCmd ≠ msgIdSensorRpt
      decide
    · trivial

/-- Every report built tells a reading of the switch. -/
theorem vehicleStep_reports
    (action : VehicleAction) :
    (builtMessages msgIdSensorRpt
        (netHistory (vehicleStep cmac vehicle action).2)).Sublist
      ((samples (vehicleStep cmac vehicle action).2).map reportOf) := by
  have ofQuiet :
      (∀ call ∈ vehicle.calls action, BuildsNot msgIdSensorRpt call) →
        (builtMessages msgIdSensorRpt
            (netHistory (vehicleStep cmac vehicle action).2)).Sublist
          ((samples (vehicleStep cmac vehicle action).2).map reportOf) := by
    intro quiet
    rw [netHistory_vehicleStep, builtMessages_trace quiet]
    exact List.nil_sublist _
  cases action with
  | powerLoss side =>
      refine ofQuiet fun call member => ?_
      rw [List.mem_singleton.mp member]
      trivial
  | boot side status outcomes =>
      refine ofQuiet fun call member => ?_
      rw [List.mem_singleton.mp member]
      trivial
  | arrives side f =>
      exact ofQuiet fun call member => by cases member
  | canTask side ajar sent macUp outcomes =>
      cases side with
      | gateway =>
          refine ofQuiet fun call member => ?_
          rcases running : vehicle.gateway with _ | tasks <;>
            simp only [Vehicle.calls, running, List.not_mem_nil] at member
          exact
            @gatewayCalls_buildNoReport tasks false macUp outcomes call
              (Or.inl member)
      | actuator =>
          rcases running : vehicle.actuator with _ | tasks
          · refine ofQuiet fun call member => ?_
            simp only [Vehicle.calls, running, List.not_mem_nil] at member
          · simp only [vehicleStep, running]
            exact tasks.canCalls_reports ajar sent macUp outcomes
  | appTask low macUp outcomes =>
      refine ofQuiet fun call member => ?_
      rcases running : vehicle.gateway with _ | tasks <;>
        simp only [Vehicle.calls, running, List.not_mem_nil] at member
      exact gatewayCalls_buildNoReport (Or.inr member)

/-- The actuator carries out the commands handed on to it, at most once each. -/
theorem actuatorCanTask_lights
    {net : Network}
    (tasks : ActuatorTasks)
    (ajar sent macUp : Bool)
    (outcomes : List CommitOutcome) :
    let events := (actuatorCanTask cmac net tasks ajar sent macUp outcomes).2.2
    (actuatedLights events).Sublist
      (handedMessages .actuator msgIdLightCmd (netHistory events)) := by
  intro events
  cases isAt : tasks.canAt with
  | sync =>
      have none : actuatedLights events = [] := by
        cases done : tasks.syncSent <;>
          simp only [events, actuatorCanTask, isAt, done, Bool.false_eq_true,
            ↓reduceIte]
        · exact actuatedLights_map_net _
        · rfl
      rw [none]
      exact List.nil_sublist _
  | receive =>
      rcases taken : tasks.rawQ.receive with _ | ⟨frame, rawQ⟩
      · have none : actuatedLights events = [] := by
          simp only [events, actuatorCanTask, isAt, taken,
            actuatedLights_append, actuatedLights_map_logged, List.nil_append]
          exact actuatedLights_map_net _
        rw [none]
        exact List.nil_sublist _
      · obtain ⟨handed, shows⟩ :=
          @networkStep_deliver_shows cmac net outcomes .actuator frame macUp
        have own :
            (actuatedLights
                (ActuatorTasks.handle
                  { tasks with rawQ := rawQ, canAt := .sync }
                  (networkStep cmac net
                    (.deliver .actuator frame macUp outcomes)).2).2).Sublist
              (handedMessages .actuator msgIdLightCmd
                (networkStep cmac net
                  (.deliver .actuator frame macUp outcomes)).2) := by
          unfold ActuatorTasks.handle
          split
          · exact List.nil_sublist _
          · rw [shows.message]
            rcases handed with _ | msg
            · exact List.nil_sublist _
            · rcases shows.command with ⟨-, cmd, rfl⟩ | ⟨onId, light, rfl⟩
              · dsimp only
                rw [actuatedLights_door]
                exact List.nil_sublist _
              · rw [shows.messages, if_pos ⟨rfl, onId⟩]
                dsimp only
                rw [actuatedLights_light]
                exact List.Sublist.refl _
        simp only [events, actuatorCanTask, isAt, taken, actuatedLights_append,
          actuatedLights_map_net, List.nil_append, netHistory_append,
          netHistory_map_net, netHistory_handle, List.append_nil]
        exact own

/-- Every light command carried out was handed on to the actuator. -/
theorem vehicleStep_lights
    (action : VehicleAction) :
    (actuatedLights (vehicleStep cmac vehicle action).2).Sublist
      (handedMessages .actuator msgIdLightCmd
        (netHistory (vehicleStep cmac vehicle action).2)) := by
  by_cases itsTurn :
      ∃ ajar sent macUp outcomes,
        action = .canTask .actuator ajar sent macUp outcomes
  · obtain ⟨ajar, sent, macUp, outcomes, rfl⟩ := itsTurn
    rcases running : vehicle.actuator with _ | tasks <;>
      simp only [vehicleStep, running]
    · exact List.nil_sublist _
    · exact actuatorCanTask_lights tasks ajar sent macUp outcomes
  · have others :=
      (@vehicleStep_actuator cmac vehicle action
        fun ajar sent macUp outcomes same =>
          itsTurn ⟨ajar, sent, macUp, outcomes, same⟩).2
    have none : actuatedLights (vehicleStep cmac vehicle action).2 = [] := by
      refine List.filterMap_eq_nil_iff.mpr fun event member => ?_
      cases event with
      | actuated msg fsm lit => exact (others _ member msg fsm lit rfl).elim
      | _ => rfl
    rw [none]
    exact List.nil_sublist _

/-- The actuator builds no light command and delivers nothing to the gateway. -/
theorem ActuatorTasks.canCalls_elsewhere
    {tasks : ActuatorTasks}
    {ajar macUp : Bool}
    {outcomes : List CommitOutcome}
    {call : NetAction}
    (member : call ∈ tasks.canCalls ajar macUp outcomes) :
    BuildsNot msgIdLightCmd call ∧ DeliversNot .gateway call := by
  unfold ActuatorTasks.canCalls at member
  split at member
  · split at member
    · cases member
    · rw [List.mem_singleton.mp member]
      refine ⟨?_, trivial⟩
      show Side.actuator.config.bootSyncId ≠ msgIdLightCmd
      decide
  · split at member
    · rw [List.mem_singleton.mp member]
      refine ⟨?_, trivial⟩
      show msgIdSensorRpt ≠ msgIdLightCmd
      decide
    · rw [List.mem_singleton.mp member]
      exact ⟨trivial, fun same => by cases same⟩

/-- The actuator never takes a turn of `bodyctl_step`. -/
theorem actuatorCanTask_steps
    {net : Network}
    (tasks : ActuatorTasks)
    (ajar sent macUp : Bool)
    (outcomes : List CommitOutcome) :
    steppedMessages
      (actuatorCanTask cmac net tasks ajar sent macUp outcomes).2.2 = [] := by
  cases isAt : tasks.canAt with
  | sync =>
      cases done : tasks.syncSent <;>
        simp only [actuatorCanTask, isAt, done, Bool.false_eq_true, ↓reduceIte]
      · exact steppedMessages_map_net _
      · rfl
  | receive =>
      rcases taken : tasks.rawQ.receive with _ | ⟨frame, rawQ⟩ <;>
        simp only [actuatorCanTask, isAt, taken, steppedMessages_append,
          steppedMessages_map_net, steppedMessages_map_logged, List.nil_append]
      · exact steppedMessages_map_net _
      · unfold ActuatorTasks.handle
        split
        · rfl
        · split
          · rfl
          · exact steppedMessages_map_logged _

end Ends

/-!
## Through the gateway
-/

/-- The reports waiting for `app_task`. -/
def queuedReports (tasks : Option GatewayTasks) : List BodyMsg :=
  tasks.elim [] fun tasks => tasks.msgQ.items

/-- The light command `apply_output` still has to build. -/
def pendingLight (tasks : Option GatewayTasks) : List BodyMsg :=
  tasks.elim [] fun tasks =>
    (tasks.appAt.output?.bind BodyctlOutput.lightAsked).toList

/-- What the gateway's queue and its application pass on. -/
structure GatewayRelays
    (tasks : Option GatewayTasks)
    (history : List VehicleEvent) : Prop where
  queue :
    Relays (handedMessages .gateway msgIdSensorRpt (netHistory history))
      (steppedMessages history) (queuedReports tasks)
  output :
    Relays ((steppedMessages history).filterMap lightAsked)
      (builtMessages msgIdLightCmd (netHistory history)) (pendingLight tasks)

namespace GatewayRelays

variable {cmac : UInt32 → List UInt8 → FullTag}
  {tasks after : Option GatewayTasks}
  {history events : List VehicleEvent}

/-- Nothing happened yet. -/
theorem start : GatewayRelays none [] :=
  ⟨Relays.start, Relays.start⟩

/-- A step that neither takes a report nor builds a light, and may lose both. -/
theorem quiet
    (inv : GatewayRelays tasks history)
    (noReport :
      handedMessages .gateway msgIdSensorRpt (netHistory events) = [])
    (noStep : steppedMessages events = [])
    (noLight : builtMessages msgIdLightCmd (netHistory events) = [])
    (fewerReports : (queuedReports after).Sublist (queuedReports tasks))
    (fewerLights : (pendingLight after).Sublist (pendingLight tasks)) :
    GatewayRelays after (history ++ events) := by
  refine ⟨?_, ?_⟩
  · rw [netHistory_append, handedMessages_append, noReport, List.append_nil,
      steppedMessages_append, noStep, List.append_nil]
    exact inv.queue.lose fewerReports
  · rw [netHistory_append, builtMessages_append, noLight, List.append_nil,
      steppedMessages_append, noStep, List.append_nil]
    exact inv.output.lose fewerLights

/-- The queue takes what a delivery handed on, or drops it. -/
theorem deliver
    {tasks : GatewayTasks}
    {f : CanRawFrame}
    {netEvents : List NetEvent}
    {handed : Option BodyMsg}
    (inv : GatewayRelays (some tasks) history)
    (shows : DeliveryShows .gateway f netEvents handed) :
    GatewayRelays (tasks.handle netEvents)
      (history ++ netEvents.map .net) := by
  have noLight :
      builtMessages msgIdLightCmd (netHistory (netEvents.map .net)) = [] := by
    rw [netHistory_map_net]
    exact shows.nothingBuilt msgIdLightCmd
  have handedOn :
      handedMessages .gateway msgIdSensorRpt
          (netHistory (netEvents.map .net)) =
        handed.toList := by
    rw [netHistory_map_net, shows.messages]
    rcases handed with _ | msg
    · exact ite_self []
    · exact if_pos ⟨rfl, shows.report.1⟩
  unfold GatewayTasks.handle
  cases faulted : didFault netEvents with
  | true =>
      rw [if_pos rfl]
      refine
        inv.quiet ?_ (steppedMessages_map_net _) noLight (List.nil_sublist _)
          (List.nil_sublist _)
      rw [handedOn, shows.quietFault faulted]
      rfl
  | false =>
      rw [if_neg Bool.false_ne_true, shows.message]
      rcases handed with _ | msg
      · exact
          inv.quiet handedOn (steppedMessages_map_net _) noLight
            (List.Sublist.refl _) (List.Sublist.refl _)
      · refine ⟨?_, ?_⟩
        · rw [netHistory_append, handedMessages_append, handedOn,
            steppedMessages_append, steppedMessages_map_net, List.append_nil]
          exact inv.queue.send msg
        · rw [netHistory_append, builtMessages_append, noLight,
            List.append_nil, steppedMessages_append, steppedMessages_map_net,
            List.append_nil]
          exact inv.output

/-- `bodyctl_step` takes the oldest report and leaves the light it asks for. -/
theorem receive
    {tasks : GatewayTasks}
    {msg : BodyMsg}
    {msgQ : BoundedQueue BodyMsg appMsgQdepth}
    (inv : GatewayRelays (some tasks) history)
    (isAt : tasks.appAt = .receive)
    (taken : tasks.msgQ.receive = some (msg, msgQ)) :
    GatewayRelays
      (some
        { tasks with
          msgQ := msgQ
          body := (bodyctlStep tasks.body (some msg)).1
          appAt := .door (bodyctlStep tasks.body (some msg)).2 })
      (history ++ [.stepped msg]) := by
  have stepped :
      steppedMessages (history ++ [.stepped msg]) =
        steppedMessages history ++ [msg] :=
    steppedMessages_append _ _
  have told : netHistory (history ++ [.stepped msg]) = netHistory history := by
    rw [netHistory_append]
    exact List.append_nil _
  refine ⟨?_, ?_⟩
  · rw [stepped, told]
    exact inv.queue.receive taken
  · have idle : pendingLight (some tasks) = [] := by
      rw [pendingLight, Option.elim_some, isAt]
      rfl
    have output := inv.output
    rw [idle] at output
    rw [stepped, told, List.filterMap_append]
    have asked :
        pendingLight
            (some
              { tasks with
                msgQ := msgQ
                body := (bodyctlStep tasks.body (some msg)).1
                appAt := .door (bodyctlStep tasks.body (some msg)).2 }) =
          [msg].filterMap lightAsked := by
      show (bodyctlStep tasks.body (some msg)).2.lightAsked.toList = _
      rw [bodyctlStep_lightAsked]
      cases asks : lightAsked msg <;> simp [asks]
    rw [asked]
    exact output.hold _

/-- The light asked for is built, or lost. -/
theorem light
    {net : Network}
    {tasks : GatewayTasks}
    {out : BodyctlOutput}
    (inv : GatewayRelays (some tasks) history)
    (isAt : tasks.appAt = .light out)
    (macUp : Bool)
    (outcomes : List CommitOutcome)
    (asked : out.lightCmdValid = true) :
    GatewayRelays (some { tasks with appAt := .button })
      (history ++
        (networkStep cmac net
          (.build (.lightCmd out.lightPct) macUp outcomes)).2.map .net) := by
  have pending :
      pendingLight (some tasks) = [.lightCmd ⟨out.lightPct⟩] := by
    rw [pendingLight, Option.elim_some, isAt]
    show out.lightAsked.toList = _
    rw [BodyctlOutput.lightAsked, if_pos asked]
    rfl
  have handedOn :
      handedMessages .gateway msgIdSensorRpt
          (networkStep cmac net
            (.build (.lightCmd out.lightPct) macUp outcomes)).2 =
        [] :=
    handedMessages_build _ _ _ _
  rcases
    @builtMessages_build cmac net outcomes (.lightCmd out.lightPct) macUp
      msgIdLightCmd with
    silent | ⟨-, built⟩
  · refine inv.quiet ?_ (steppedMessages_map_net _) ?_ (List.Sublist.refl _)
      (List.nil_sublist _)
    · rw [netHistory_map_net, handedOn]
    · rw [netHistory_map_net, silent]
  · have output := inv.output
    rw [pending] at output
    refine ⟨?_, ?_⟩
    · rw [netHistory_append, netHistory_map_net, handedMessages_append,
        handedOn, List.append_nil, steppedMessages_append,
        steppedMessages_map_net, List.append_nil]
      exact inv.queue
    · rw [netHistory_append, netHistory_map_net, builtMessages_append, built,
        steppedMessages_append, steppedMessages_map_net, List.append_nil]
      exact output.pass

/-- A turn of `can_task` on the gateway. -/
theorem canTask
    {net : Network}
    {tasks : GatewayTasks}
    (inv : GatewayRelays (some tasks) history)
    (sent macUp : Bool)
    (outcomes : List CommitOutcome) :
    GatewayRelays (gatewayCanTask cmac net tasks sent macUp outcomes).2.1
      (history ++
        (gatewayCanTask cmac net tasks sent macUp outcomes).2.2) := by
  cases isAt : tasks.canAt with
  | sync =>
      cases done : tasks.syncSent <;>
        simp only [gatewayCanTask, isAt, done, Bool.false_eq_true, ↓reduceIte]
      · refine inv.quiet ?_ (steppedMessages_map_net _) ?_
          (List.Sublist.refl _) (List.Sublist.refl _)
        · rw [netHistory_map_net]
          exact handedMessages_build _ _ _ _
        · rw [netHistory_map_net]
          refine BuildsNot.silent ?_
          show Side.gateway.config.bootSyncId ≠ msgIdLightCmd
          decide
      · exact inv.quiet rfl rfl rfl (List.Sublist.refl _) (List.Sublist.refl _)
  | receive =>
      rcases taken : tasks.rawQ.receive with _ | ⟨frame, rawQ⟩ <;>
        simp only [gatewayCanTask, isAt, taken]
      · exact inv.quiet rfl rfl rfl (List.Sublist.refl _) (List.Sublist.refl _)
      · obtain ⟨handed, shows⟩ :=
          @networkStep_deliver_shows cmac net outcomes .gateway frame macUp
        have kept :
            GatewayRelays
              (some { tasks with rawQ := rawQ, canAt := .sync }) history :=
          ⟨inv.queue, inv.output⟩
        exact kept.deliver shows

/-- A turn of `app_task`. -/
theorem appTask
    {net : Network}
    {tasks : GatewayTasks}
    (inv : GatewayRelays (some tasks) history)
    (low macUp : Bool)
    (outcomes : List CommitOutcome) :
    GatewayRelays (gatewayAppTask cmac net tasks low macUp outcomes).2.1
      (history ++
        (gatewayAppTask cmac net tasks low macUp outcomes).2.2) := by
  cases isAt : tasks.appAt with
  | receive =>
      rcases taken : tasks.msgQ.receive with _ | ⟨msg, msgQ⟩ <;>
        simp only [gatewayAppTask, isAt, taken]
      · exact
          inv.quiet rfl rfl rfl (List.Sublist.refl _) (List.nil_sublist _)
      · exact inv.receive isAt taken
  | door out =>
      have still :
          pendingLight (some { tasks with appAt := .light out }) =
            pendingLight (some tasks) := by
        rw [pendingLight, pendingLight, Option.elim_some, Option.elim_some,
          isAt]
        rfl
      cases asked : out.lockCmdValid <;>
        simp only [gatewayAppTask, isAt, asked, Bool.false_eq_true, ↓reduceIte]
      · exact
          inv.quiet rfl rfl rfl (List.Sublist.refl _)
            (still ▸ List.Sublist.refl _)
      · refine inv.quiet ?_ (steppedMessages_map_net _) ?_
          (List.Sublist.refl _) (still ▸ List.Sublist.refl _)
        · rw [netHistory_map_net]
          exact handedMessages_build _ _ _ _
        · rw [netHistory_map_net]
          refine BuildsNot.silent ?_
          show msgIdDoorCmd ≠ msgIdLightCmd
          decide
  | light out =>
      cases asked : out.lightCmdValid <;>
        simp only [gatewayAppTask, isAt, asked, Bool.false_eq_true, ↓reduceIte]
      · exact
          inv.quiet rfl rfl rfl (List.Sublist.refl _) (List.nil_sublist _)
      · exact inv.light isAt macUp outcomes asked
  | button =>
      rcases polled : pollReprogramButton tasks.button low with
        ⟨button, _ | _⟩ <;>
        simp only [gatewayAppTask, isAt, polled, Bool.false_eq_true,
          ↓reduceIte]
      · exact
          inv.quiet rfl rfl rfl (List.Sublist.refl _) (List.nil_sublist _)
      · exact
          inv.quiet rfl rfl rfl (List.nil_sublist _) (List.nil_sublist _)

/-- A step at the actuator, or of the bus, neither takes a report nor a light. -/
theorem elsewhere
    {vehicle : Vehicle}
    {action : VehicleAction}
    (inv : GatewayRelays vehicle.gateway history)
    (calls :
      ∀ call ∈ vehicle.calls action,
        BuildsNot msgIdLightCmd call ∧ DeliversNot .gateway call)
    (noStep : steppedMessages (vehicleStep cmac vehicle action).2 = [])
    (fewerReports :
      (queuedReports (vehicleStep cmac vehicle action).1.gateway).Sublist
        (queuedReports vehicle.gateway))
    (fewerLights :
      (pendingLight (vehicleStep cmac vehicle action).1.gateway).Sublist
        (pendingLight vehicle.gateway)) :
    GatewayRelays (vehicleStep cmac vehicle action).1.gateway
      (history ++ (vehicleStep cmac vehicle action).2) := by
  refine inv.quiet ?_ noStep ?_ fewerReports fewerLights
  · rw [netHistory_vehicleStep]
    exact handedMessages_trace fun call member => (calls call member).2
  · rw [netHistory_vehicleStep]
    exact builtMessages_trace fun call member => (calls call member).1

/-- Every step of the vehicle. -/
theorem step
    {vehicle : Vehicle}
    (action : VehicleAction)
    (inv : GatewayRelays vehicle.gateway history) :
    GatewayRelays (vehicleStep cmac vehicle action).1.gateway
      (history ++ (vehicleStep cmac vehicle action).2) := by
  cases action with
  | powerLoss side =>
      refine inv.elsewhere ?_ (by cases side <;> rfl) ?_ ?_
      · intro call member
        rw [List.mem_singleton.mp member]
        exact ⟨trivial, trivial⟩
      · cases side
        · exact List.nil_sublist _
        · exact List.Sublist.refl _
      · cases side
        · exact List.nil_sublist _
        · exact List.Sublist.refl _
  | boot side status outcomes =>
      refine inv.elsewhere ?_ (by cases side <;> rfl) ?_ ?_
      · intro call member
        rw [List.mem_singleton.mp member]
        exact ⟨trivial, trivial⟩
      · cases side
        · exact List.nil_sublist _
        · exact List.Sublist.refl _
      · cases side
        · exact List.nil_sublist _
        · exact List.Sublist.refl _
  | arrives side f =>
      have same :
          queuedReports (vehicleStep cmac vehicle (.arrives side f)).1.gateway =
              queuedReports vehicle.gateway ∧
            pendingLight (vehicleStep cmac vehicle (.arrives side f)).1.gateway =
              pendingLight vehicle.gateway := by
        cases side
        · cases running : vehicle.gateway <;>
            simp [vehicleStep, canRxCallback, running, queuedReports,
              pendingLight]
        · exact ⟨rfl, rfl⟩
      refine inv.elsewhere ?_ rfl (same.1 ▸ List.Sublist.refl _)
        (same.2 ▸ List.Sublist.refl _)
      intro call member
      cases member
  | canTask side ajar sent macUp outcomes =>
      cases side with
      | gateway =>
          rcases running : vehicle.gateway with _ | tasks <;>
            rw [running] at inv <;>
            simp only [vehicleStep, running]
          · rw [List.append_nil]
            exact inv
          · exact inv.canTask sent macUp outcomes
      | actuator =>
          rcases running : vehicle.actuator with _ | tasks
          · simp only [vehicleStep, running]
            rw [List.append_nil]
            exact inv
          · refine inv.elsewhere ?_ ?_ ?_ ?_
            · simp only [Vehicle.calls, running]
              exact fun call member => tasks.canCalls_elsewhere member
            · simp only [vehicleStep, running]
              exact actuatorCanTask_steps tasks ajar sent macUp outcomes
            · simp only [vehicleStep, running]
              exact List.Sublist.refl _
            · simp only [vehicleStep, running]
              exact List.Sublist.refl _
  | appTask low macUp outcomes =>
      rcases running : vehicle.gateway with _ | tasks <;>
        rw [running] at inv <;>
        simp only [vehicleStep, running]
      · rw [List.append_nil]
        exact inv
      · exact inv.appTask low macUp outcomes

end GatewayRelays

end TraveoBodyDomain
