import Mathlib.Tactic.Common
import TraveoBodyDomain.Control.Steps
import TraveoBodyDomain.Node.Unbuilt

/-!
# The door holds

The gateway forwards nothing but sensor reports to its application, a report
only ever commands the courtesy light, and so the gateway never builds a door
command.  With an ideal MAC nobody else can: whatever is sent on the bus, the
actuator accepts no door command and the door stays locked.
-/

namespace TraveoBodyDomain

/-- What `bodyctl_step` outputs for a report: the courtesy light. -/
def courtesyOutput (ajar : Bool) : BodyctlOutput :=
  { BodyctlOutput.noCommand with
    lightCmdValid := true
    lightPct := courtesyPct ajar }

/-- The output `apply_output` is working on. -/
def AppTaskAt.output? : AppTaskAt → Option BodyctlOutput
  | .door out => some out
  | .light out => some out
  | _ => none

/-- The gateway's application is only given reports, and only lights. -/
structure GatewayTasks.Courteous (tasks : GatewayTasks) : Prop where
  reports : ∀ msg ∈ tasks.msgQ.items, ∃ report, msg = .sensorReport report
  output :
    ∀ out, tasks.appAt.output? = some out → ∃ ajar, out = courtesyOutput ajar

/-- The gateway, when it runs, is courteous. -/
def Vehicle.Courteous (vehicle : Vehicle) : Prop :=
  ∀ tasks, vehicle.gateway = some tasks → tasks.Courteous

namespace GatewayTasks.Courteous

variable {tasks : GatewayTasks}

/-- The tasks as they are created. -/
theorem create : GatewayTasks.create.Courteous := by
  refine ⟨?_, ?_⟩
  · intro msg member
    cases member
  · intro out working
    cases working

/-- A report put into the queue. -/
theorem queued
    (courteous : tasks.Courteous)
    (report : SensorReportMsg) :
    GatewayTasks.Courteous
      { tasks with msgQ := tasks.msgQ.send (.sensorReport report) } := by
  refine ⟨?_, courteous.output⟩
  intro msg member
  by_cases room : tasks.msgQ.HasRoom
  · rw [BoundedQueue.send_of_room room, List.mem_append,
      List.mem_singleton] at member
    rcases member with old | rfl
    · exact courteous.reports msg old
    · exact ⟨report, rfl⟩
  · rw [BoundedQueue.send_of_full room] at member
    exact courteous.reports msg member

/-- A delivered frame queues a report, or nothing. -/
theorem handle
    {f : CanRawFrame}
    {events : List NetEvent}
    {handed : Option BodyMsg}
    (courteous : tasks.Courteous)
    (shows : DeliveryShows .gateway f events handed)
    {after : GatewayTasks}
    (ran : tasks.handle events = some after) :
    after.Courteous := by
  unfold GatewayTasks.handle at ran
  cases faulted : didFault events with
  | true =>
      rw [if_pos faulted] at ran
      cases ran
  | false =>
      rw [if_neg (by simp [faulted]), shows.message] at ran
      rcases handed with _ | msg
      · cases ran
        exact courteous
      · cases ran
        obtain ⟨-, report, rfl⟩ := shows.report
        exact courteous.queued report

/-- A turn of `can_task`. -/
theorem canTask
    {cmac : UInt32 → List UInt8 → FullTag}
    {net : Network}
    {sent macUp : Bool}
    {outcomes : List CommitOutcome}
    (courteous : tasks.Courteous)
    {after : GatewayTasks}
    (ran :
      (gatewayCanTask cmac net tasks sent macUp outcomes).2.1 = some after) :
    after.Courteous := by
  cases isAt : tasks.canAt with
  | sync =>
      cases done : tasks.syncSent <;>
        simp only [gatewayCanTask, isAt, done] at ran <;>
        cases ran <;>
        exact ⟨courteous.reports, courteous.output⟩
  | receive =>
      rcases taken : tasks.rawQ.receive with _ | ⟨frame, rawQ⟩ <;>
        simp only [gatewayCanTask, isAt, taken] at ran
      · cases ran
        exact ⟨courteous.reports, courteous.output⟩
      · obtain ⟨handed, shows⟩ :=
          @networkStep_deliver_shows cmac net outcomes .gateway frame macUp
        have kept :
            GatewayTasks.Courteous
              { tasks with rawQ := rawQ, canAt := .sync } :=
          ⟨courteous.reports, courteous.output⟩
        exact kept.handle shows ran

/-- A turn of `app_task`. -/
theorem appTask
    {cmac : UInt32 → List UInt8 → FullTag}
    {net : Network}
    {low macUp : Bool}
    {outcomes : List CommitOutcome}
    (courteous : tasks.Courteous)
    {after : GatewayTasks}
    (ran :
      (gatewayAppTask cmac net tasks low macUp outcomes).2.1 = some after) :
    after.Courteous := by
  cases isAt : tasks.appAt with
  | receive =>
      rcases taken : tasks.msgQ.receive with _ | ⟨msg, msgQ⟩ <;>
        simp only [gatewayAppTask, isAt, taken] at ran <;>
        cases ran
      · exact ⟨courteous.reports, fun out working => by cases working⟩
      · have items := BoundedQueue.items_of_receive taken
        refine ⟨?_, ?_⟩
        · intro other member
          refine courteous.reports other ?_
          rw [items]
          exact List.mem_cons_of_mem _ member
        · intro out working
          obtain ⟨report, rfl⟩ :=
            courteous.reports msg (by rw [items]; exact List.mem_cons_self)
          cases working
          rw [bodyctlStep_sensorReport]
          exact ⟨_, rfl⟩
  | door out =>
      have output := courteous.output
      rw [isAt] at output
      cases asked : out.lockCmdValid <;>
        simp only [gatewayAppTask, isAt, asked] at ran <;>
        cases ran <;>
        exact ⟨courteous.reports, output⟩
  | light out =>
      cases asked : out.lightCmdValid <;>
        simp only [gatewayAppTask, isAt, asked] at ran <;>
        cases ran <;>
        exact ⟨courteous.reports, fun out working => by cases working⟩
  | button =>
      rcases polled : pollReprogramButton tasks.button low with
        ⟨button, _ | _⟩ <;>
        simp only [gatewayAppTask, isAt, polled] at ran <;>
        cases ran
      exact ⟨courteous.reports, fun out working => by cases working⟩

/-- A courteous application never asks for a door command. -/
theorem appCalls
    (courteous : tasks.Courteous)
    (low macUp : Bool)
    (outcomes : List CommitOutcome) :
    ∀ call ∈ tasks.appCalls low macUp outcomes, BuildsNot msgIdDoorCmd call := by
  intro call member
  cases isAt : tasks.appAt with
  | receive =>
      simp only [GatewayTasks.appCalls, isAt, List.not_mem_nil] at member
  | door out =>
      have output := courteous.output out
      rw [isAt] at output
      obtain ⟨ajar, rfl⟩ := output rfl
      simp [GatewayTasks.appCalls, isAt, courtesyOutput,
        BodyctlOutput.noCommand] at member
  | light out =>
      cases asked : out.lightCmdValid <;>
        simp only [GatewayTasks.appCalls, isAt, asked, Bool.false_eq_true,
          ↓reduceIte, List.mem_singleton, List.not_mem_nil] at member
      subst member
      show msgIdLightCmd ≠ msgIdDoorCmd
      decide
  | button =>
      cases raised : (pollReprogramButton tasks.button low).2 <;>
        simp only [GatewayTasks.appCalls, isAt, raised, Bool.false_eq_true,
          ↓reduceIte, List.mem_singleton, List.not_mem_nil] at member
      subst member
      trivial

end GatewayTasks.Courteous

section Vehicle

variable {cmac : UInt32 → List UInt8 → FullTag}
  {vehicle : Vehicle}

/-- Every step of the vehicle keeps the gateway courteous. -/
theorem vehicleStep_courteous
    (courteous : vehicle.Courteous)
    (action : VehicleAction) :
    (vehicleStep cmac vehicle action).1.Courteous := by
  intro after running
  cases action with
  | powerLoss side =>
      cases side with
      | gateway => cases running
      | actuator => exact courteous after running
  | boot side status outcomes =>
      cases side with
      | gateway =>
          cases running
          exact .create
      | actuator => exact courteous after running
  | arrives side f =>
      cases side with
      | gateway =>
          obtain ⟨tasks, before, rfl⟩ := Option.map_eq_some_iff.mp running
          exact ⟨(courteous tasks before).reports, (courteous tasks before).output⟩
      | actuator => exact courteous after running
  | canTask side ajar sent macUp outcomes =>
      cases side with
      | gateway =>
          rcases before : vehicle.gateway with _ | tasks <;>
            simp only [vehicleStep, before] at running
          · cases running
          · exact (courteous tasks before).canTask running
      | actuator =>
          rcases before : vehicle.actuator with _ | tasks <;>
            simp only [vehicleStep, before] at running <;>
            exact courteous after running
  | appTask low macUp outcomes =>
      rcases before : vehicle.gateway with _ | tasks <;>
        simp only [vehicleStep, before] at running
      · cases running
      · exact (courteous tasks before).appTask running

/-- No task of a courteous vehicle ever builds a door command. -/
theorem Vehicle.Courteous.calls
    (courteous : vehicle.Courteous)
    (action : VehicleAction) :
    ∀ call ∈ vehicle.calls action, BuildsNot msgIdDoorCmd call := by
  have syncs :
      ∀ side : Side, (Request.bootSync side).canId ≠ msgIdDoorCmd := by
    intro side
    cases side <;> decide
  intro call member
  cases action with
  | powerLoss side =>
      rw [List.mem_singleton.mp member]
      trivial
  | boot side status outcomes =>
      rw [List.mem_singleton.mp member]
      trivial
  | arrives side f =>
      cases member
  | canTask side ajar sent macUp outcomes =>
      cases side with
      | gateway =>
          rcases before : vehicle.gateway with _ | tasks <;>
            simp only [Vehicle.calls, before, List.not_mem_nil] at member
          unfold GatewayTasks.canCalls at member
          split at member
          · split at member
            · cases member
            · rw [List.mem_singleton.mp member]
              exact syncs .gateway
          · split at member
            · cases member
            · rw [List.mem_singleton.mp member]
              trivial
      | actuator =>
          rcases before : vehicle.actuator with _ | tasks <;>
            simp only [Vehicle.calls, before, List.not_mem_nil] at member
          unfold ActuatorTasks.canCalls at member
          split at member
          · split at member
            · cases member
            · rw [List.mem_singleton.mp member]
              exact syncs .actuator
          · split at member
            · rw [List.mem_singleton.mp member]
              show msgIdSensorRpt ≠ msgIdDoorCmd
              decide
            · rw [List.mem_singleton.mp member]
              trivial
  | appTask low macUp outcomes =>
      rcases before : vehicle.gateway with _ | tasks <;>
        simp only [Vehicle.calls, before, List.not_mem_nil] at member
      exact (courteous tasks before).appCalls low macUp outcomes call member

/-!
## The actuator
-/

/-- An actuation that moves no door and finds it locked. -/
def VehicleEvent.HoldsDoor : VehicleEvent → Prop
  | .actuated msg fsm _ =>
      (∃ light, msg = .lightCmd light) ∧ fsm.doorLocked = true
  | _ => True

/-- Network and debug events move no door. -/
theorem VehicleEvent.holdsDoor_of_other
    {events : List VehicleEvent}
    (others : ∀ event ∈ events, ∀ msg fsm lit, event ≠ .actuated msg fsm lit) :
    ∀ event ∈ events, event.HoldsDoor := by
  intro event member
  cases event with
  | actuated msg fsm lit => exact (others _ member msg fsm lit rfl).elim
  | _ => trivial

/-- A delivery that accepts no door command leaves the door locked. -/
theorem ActuatorTasks.handle_locked
    {tasks : ActuatorTasks}
    {f : CanRawFrame}
    {events : List NetEvent}
    {handed : Option BodyMsg}
    (shows : DeliveryShows .actuator f events handed)
    (noDoor : ∀ cmd, handed ≠ some (.doorCmd cmd))
    (locked : tasks.fsm.doorLocked = true) :
    (∀ after, (tasks.handle events).1 = some after →
        after.fsm.doorLocked = true) ∧
      ∀ event ∈ (tasks.handle events).2, event.HoldsDoor := by
  unfold ActuatorTasks.handle
  cases faulted : didFault events with
  | true =>
      rw [if_pos rfl]
      refine ⟨fun after ran => ?_, fun event member => ?_⟩
      · cases ran
      · cases member
  | false =>
      rw [if_neg Bool.false_ne_true, shows.message]
      rcases handed with _ | msg
      · refine ⟨fun after ran => ?_, fun event member => ?_⟩
        · cases ran
          exact locked
        · cases member
      · rcases shows.command with ⟨-, cmd, rfl⟩ | ⟨-, light, rfl⟩
        · exact (noDoor cmd rfl).elim
        · refine ⟨fun after ran => ?_, fun event member => ?_⟩
          · cases ran
            exact locked
          · rcases List.mem_cons.mp member with rfl | logged
            · exact ⟨⟨light, rfl⟩, locked⟩
            · obtain ⟨record, -, rfl⟩ := List.mem_map.mp logged
              trivial

/-- What holds in every run: the gateway sends no door command, nor does it pass. -/
structure DoorInv (vehicle : Vehicle) (history : List VehicleEvent) : Prop where
  courteous : vehicle.Courteous
  unbuilt : UnbuiltInv msgIdDoorCmd vehicle.net (netHistory history)
  locked :
    ∀ tasks, vehicle.actuator = some tasks → tasks.fsm.doorLocked = true
  held : ∀ event ∈ history, event.HoldsDoor

/-- A door command handed on at the actuator would have been accepted. -/
theorem noDoor_of_unbuilt
    {net : Network}
    {history : List NetEvent}
    {f : CanRawFrame}
    {up : Bool}
    {outcomes : List CommitOutcome}
    {handed : Option BodyMsg}
    (inv : UnbuiltInv msgIdDoorCmd net history)
    (ideal : IdealMac cmac net (.deliver .actuator f up outcomes))
    (shows :
      DeliveryShows .actuator f
        (networkStep cmac net (.deliver .actuator f up outcomes)).2 handed) :
    ∀ cmd, handed ≠ some (.doorCmd cmd) := by
  intro cmd isDoor
  subst isDoor
  have onId : f.id.toUInt16 = msgIdDoorCmd := by
    rcases shows.command with ⟨onId, -⟩ | ⟨-, light, same⟩
    · exact onId
    · cases same
  obtain ⟨listens, -⟩ := shows.decoded _ rfl
  have after := inv.step _ ideal trivial
  rcases @networkStep_deliver cmac net .actuator outcomes f up listens with
      ⟨result, nodeAfter, events, processed, ran, did⟩
  rw [ran] at shows after
  have accepted : .accepted .actuator (recordOf f) ∈ events := by
    have handedOn := shows.messages .actuator msgIdDoorCmd
    rw [if_pos ⟨rfl, onId⟩] at handedOn
    rcases did with ⟨-, -, -, -, rfl⟩ | ⟨handled, spec, -, rfl⟩
    · cases handedOn
    · by_cases accepts : result.verdict = .accept
      · rw [if_pos accepts]
        exact List.mem_cons_self
      · rw [if_neg accepts, List.nil_append,
          handledEvents_of_drop spec accepts] at handedOn
        cases handedOn
  exact
    after.accepted .actuator _ (List.mem_append_right _ accepted)
      (show (recordOf f).value.canId = msgIdDoorCmd from onId)

/-- A turn of `can_task` on the actuator leaves the door locked. -/
theorem actuatorCanTask_locked
    {tasks : ActuatorTasks}
    {history : List VehicleEvent}
    {ajar sent macUp : Bool}
    {outcomes : List CommitOutcome}
    (unbuilt : UnbuiltInv msgIdDoorCmd vehicle.net (netHistory history))
    (ideal :
      Machine.Allowed (networkStep cmac) (IdealMac cmac) vehicle.net
        (tasks.canCalls ajar macUp outcomes))
    (locked : tasks.fsm.doorLocked = true) :
    let turn :=
      actuatorCanTask cmac vehicle.net tasks ajar sent macUp outcomes
    (∀ after, turn.2.1 = some after → after.fsm.doorLocked = true) ∧
      ∀ event ∈ turn.2.2, event.HoldsDoor := by
  have netOnly :
      ∀ events : List NetEvent,
        ∀ event ∈ events.map VehicleEvent.net, event.HoldsDoor := by
    intro events event member
    obtain ⟨one, -, rfl⟩ := List.mem_map.mp member
    trivial
  cases isAt : tasks.canAt with
  | sync =>
      cases done : tasks.syncSent <;>
        simp only [actuatorCanTask, isAt, done, Bool.false_eq_true, ↓reduceIte]
      · refine ⟨fun after ran => ?_, netOnly _⟩
        cases ran
        exact locked
      · refine ⟨fun after ran => ?_, fun event member => ?_⟩
        · cases ran
          exact locked
        · cases member
  | receive =>
      rcases taken : tasks.rawQ.receive with _ | ⟨frame, rawQ⟩ <;>
        simp only [actuatorCanTask, isAt, taken]
      · refine ⟨fun after ran => ?_, fun event member => ?_⟩
        · cases ran
          exact locked
        · rcases List.mem_append.mp member with logged | reported
          · obtain ⟨record, -, rfl⟩ := List.mem_map.mp logged
            trivial
          · rcases List.mem_cons.mp reported with rfl | told
            · trivial
            · exact netOnly _ event told
      · simp only [ActuatorTasks.canCalls, isAt, taken] at ideal
        obtain ⟨handed, shows⟩ :=
          @networkStep_deliver_shows cmac vehicle.net outcomes .actuator frame
            macUp
        have noDoor := noDoor_of_unbuilt unbuilt ideal.1 shows
        have handled :=
          @ActuatorTasks.handle_locked { tasks with rawQ := rawQ, canAt := .sync }
            frame _ handed shows noDoor locked
        refine ⟨handled.1, fun event member => ?_⟩
        rcases List.mem_append.mp member with told | own
        · exact netOnly _ event told
        · exact handled.2 event own

/-- A move of the vehicle other than a turn of the actuator's CAN task. -/
theorem vehicleStep_actuator
    (action : VehicleAction)
    (notItsTurn :
      ∀ ajar sent macUp outcomes,
        action ≠ .canTask .actuator ajar sent macUp outcomes) :
    ((vehicleStep cmac vehicle action).1.actuator = none ∨
        (vehicleStep cmac vehicle action).1.actuator = some .create ∨
        (vehicleStep cmac vehicle action).1.actuator = vehicle.actuator ∨
        ∃ f,
          (vehicleStep cmac vehicle action).1.actuator =
            vehicle.actuator.map fun tasks =>
              { tasks with rawQ := tasks.rawQ.send f }) ∧
      ∀ event ∈ (vehicleStep cmac vehicle action).2,
        ∀ msg fsm lit, event ≠ .actuated msg fsm lit := by
  have netOnly :
      ∀ events : List NetEvent,
        ∀ event ∈ events.map VehicleEvent.net,
          ∀ msg fsm lit, event ≠ .actuated msg fsm lit := by
    intro events event member msg fsm lit same
    obtain ⟨one, -, rfl⟩ := List.mem_map.mp member
    cases same
  cases action with
  | powerLoss side =>
      cases side
      · exact ⟨Or.inr (Or.inr (Or.inl rfl)), netOnly _⟩
      · exact ⟨Or.inl rfl, netOnly _⟩
  | boot side status outcomes =>
      cases side
      · exact ⟨Or.inr (Or.inr (Or.inl rfl)), netOnly _⟩
      · exact ⟨Or.inr (Or.inl rfl), netOnly _⟩
  | arrives side f =>
      cases side
      · exact ⟨Or.inr (Or.inr (Or.inl rfl)), fun event member => by cases member⟩
      · exact
          ⟨Or.inr (Or.inr (Or.inr ⟨f, rfl⟩)), fun event member => by
            cases member⟩
  | canTask side ajar sent macUp outcomes =>
      cases side with
      | actuator => exact (notItsTurn ajar sent macUp outcomes rfl).elim
      | gateway =>
          rcases running : vehicle.gateway with _ | tasks <;>
            simp only [vehicleStep, running]
          · exact
              ⟨Or.inr (Or.inr (Or.inl trivial)), fun event member => by
                cases member⟩
          · refine ⟨Or.inr (Or.inr (Or.inl trivial)), ?_⟩
            cases isAt : tasks.canAt with
            | sync =>
                cases done : tasks.syncSent <;>
                  simp only [gatewayCanTask, isAt, done, Bool.false_eq_true,
                    ↓reduceIte]
                · exact netOnly _
                · exact netOnly []
            | receive =>
                rcases taken : tasks.rawQ.receive with _ | ⟨frame, rawQ⟩ <;>
                  simp only [gatewayCanTask, isAt, taken]
                · exact netOnly []
                · exact netOnly _
  | appTask low macUp outcomes =>
      rcases running : vehicle.gateway with _ | tasks <;>
        simp only [vehicleStep, running]
      · exact
          ⟨Or.inr (Or.inr (Or.inl trivial)), fun event member => by
            cases member⟩
      · refine ⟨Or.inr (Or.inr (Or.inl trivial)), ?_⟩
        intro event member msg fsm lit same
        subst same
        cases isAt : tasks.appAt with
        | receive =>
            rcases taken : tasks.msgQ.receive with _ | ⟨msg, msgQ⟩ <;>
              simp [gatewayAppTask, isAt, taken] at member
        | door out =>
            cases asked : out.lockCmdValid <;>
              simp [gatewayAppTask, isAt, asked] at member
        | light out =>
            cases asked : out.lightCmdValid <;>
              simp [gatewayAppTask, isAt, asked] at member
        | button =>
            rcases polled : pollReprogramButton tasks.button low with
              ⟨button, _ | _⟩ <;>
              simp [gatewayAppTask, isAt, polled] at member

namespace DoorInv

variable {history : List VehicleEvent}

/-- Both nodes are without power. -/
theorem start
    (stores : Side → FreshnessStore) :
    DoorInv (.unpowered stores) [] := by
  refine ⟨?_, .start msgIdDoorCmd stores, ?_, ?_⟩
  · intro tasks running
    cases running
  · intro tasks running
    cases running
  · intro event member
    cases member

/-- Every step keeps the door locked, as long as the MAC is ideal. -/
theorem step
    (action : VehicleAction)
    (inv : DoorInv vehicle history)
    (ideal : (vehicleLayer cmac).Meets (IdealMac cmac) vehicle action) :
    DoorInv (vehicleStep cmac vehicle action).1
      (history ++ (vehicleStep cmac vehicle action).2) := by
  have buildsNot :
      (vehicleLayer cmac).Meets (fun _ => BuildsNot msgIdDoorCmd) vehicle
        action :=
    Machine.allowed_of_forall_mem (inv.courteous.calls action) _
  have unbuilt :
      UnbuiltInv msgIdDoorCmd (vehicleStep cmac vehicle action).1.net
        (netHistory (history ++ (vehicleStep cmac vehicle action).2)) :=
    (vehicleLayer cmac).preserves
      (fun _ _ action inv guard => inv.step action guard.1 guard.2) inv.unbuilt
      (ideal.and buildsNot)
  have turn :
      (∀ after, (vehicleStep cmac vehicle action).1.actuator = some after →
          after.fsm.doorLocked = true) ∧
        ∀ event ∈ (vehicleStep cmac vehicle action).2, event.HoldsDoor := by
    by_cases itsTurn :
        ∃ ajar sent macUp outcomes,
          action = .canTask .actuator ajar sent macUp outcomes
    · obtain ⟨ajar, sent, macUp, outcomes, rfl⟩ := itsTurn
      rcases running : vehicle.actuator with _ | tasks <;>
        simp only [vehicleStep, running]
      · refine ⟨fun after ran => ?_, fun event member => ?_⟩
        · cases ran
        · cases member
      · have allowed : Machine.Allowed (networkStep cmac) (IdealMac cmac)
            vehicle.net (tasks.canCalls ajar macUp outcomes) := by
          have meets := ideal
          simp only [Machine.Layer.Meets, vehicleLayer, Vehicle.calls,
            running] at meets
          exact meets
        exact
          actuatorCanTask_locked inv.unbuilt allowed (inv.locked tasks running)
    · obtain ⟨left, others⟩ :=
        @vehicleStep_actuator cmac vehicle action
          fun ajar sent macUp outcomes same =>
            itsTurn ⟨ajar, sent, macUp, outcomes, same⟩
      refine ⟨fun after ran => ?_, VehicleEvent.holdsDoor_of_other others⟩
      rcases left with isNone | isNew | isSame | ⟨f, isSame⟩
      · rw [isNone] at ran
        cases ran
      · rw [isNew] at ran
        cases ran
        rfl
      · exact inv.locked after (isSame ▸ ran)
      · rw [isSame] at ran
        obtain ⟨tasks, before, rfl⟩ := Option.map_eq_some_iff.mp ran
        exact inv.locked tasks before
  refine
    ⟨vehicleStep_courteous inv.courteous action, unbuilt, turn.1, ?_⟩
  intro event member
  rcases List.mem_append.mp member with old | new
  · exact inv.held event old
  · exact turn.2 event new

end DoorInv

end Vehicle

/--
In every run of the vehicle in which the MAC is ideal, whatever an attacker
sends and however the tasks, boots and power losses interleave: neither node
accepts a door command, the actuator is only ever moved by light commands, and
after every step its door is locked.
-/
theorem door_stays_locked
    (cmac : UInt32 → List UInt8 → FullTag)
    (stores : Side → FreshnessStore)
    (actions : List VehicleAction)
    (ideal :
      Machine.Allowed (vehicleStep cmac)
        ((vehicleLayer cmac).Meets (IdealMac cmac)) (.unpowered stores)
        actions) :
    let vehicle := Machine.final (vehicleStep cmac) (.unpowered stores) actions
    let trace := Machine.trace (vehicleStep cmac) (.unpowered stores) actions
    (∀ side record,
        .net (.accepted side record) ∈ trace →
          record.value.canId ≠ msgIdDoorCmd) ∧
      (∀ msg fsm lit,
        .actuated msg fsm lit ∈ trace →
          (∃ light, msg = .lightCmd light) ∧ fsm.doorLocked = true) ∧
      ∀ tasks, vehicle.actuator = some tasks → tasks.fsm.doorLocked = true := by
  intro vehicle trace
  have inv : DoorInv vehicle trace :=
    Machine.invariant_of_start
      (fun _ _ action inv ideal => inv.step action ideal) (.start stores) ideal
  refine ⟨?_, fun msg fsm lit member => inv.held _ member, inv.locked⟩
  intro side record member
  refine inv.unbuilt.accepted side record ?_
  exact List.mem_filterMap.mpr ⟨_, member, rfl⟩

/-- The first report of a door that is ajar. -/
def ajarReport : CanRawFrame where
  id := 0x200
  flags := canFlagFdf
  data := [0, 0, 1, 1, 0, 1, 0, 0x00, 0x02, 1, 0, 1, 0, 0, 0]
  fits := by decide

/-- The gateway's first light command, under the ID it was sent on or another. -/
def lightOnAs (id : UInt32) : CanRawFrame where
  id := id
  flags := canFlagFdf
  data := [100, 1, 0, 1, 0, 0x21, 0x01, 1, 0, 1, 0, 100, 0]
  fits := by decide

/-- A door opens; its light command arrives re-labelled, and then as it was sent. -/
def attackedCourtesy : List VehicleAction :=
  [.boot .gateway .ok [], .boot .actuator .ok [],
    .canTask .actuator true true true [], .canTask .actuator true true true [],
    .arrives .gateway ajarReport,
    .canTask .gateway false true true [], .canTask .gateway false true true [],
    .appTask false true [], .appTask false true [], .appTask false true [],
    .arrives .actuator (lightOnAs 0x120), .arrives .actuator (lightOnAs 0x121),
    .canTask .actuator true true true [], .canTask .actuator true true true [],
    .canTask .actuator true true true [], .canTask .actuator true true true []]

/-- The lamp is lit and the door stays locked. -/
theorem door_stays_locked_under_attack :
    let start := Vehicle.unpowered fun _ => .blank
    let vehicle :=
      Machine.final (vehicleStep paddedMac) start attackedCourtesy
    (∃ tasks,
        vehicle.actuator = some tasks ∧ tasks.output.lit = true) ∧
      ∀ tasks, vehicle.actuator = some tasks → tasks.fsm.doorLocked = true :=
  ⟨⟨_, rfl, by decide⟩,
    (door_stays_locked paddedMac _ attackedCourtesy (by decide)).2.2⟩

end TraveoBodyDomain
