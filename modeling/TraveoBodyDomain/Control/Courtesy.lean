import Mathlib.Tactic.Common
import TraveoBodyDomain.Control.Stages

/-!
# The courtesy light

The stages from the door switch to the lamp, put together: the light commands
carried out are, in order, among those the readings of the switch ask for, and
the lamp shows the last of them.
-/

namespace TraveoBodyDomain

/-!
## The lamp
-/

/-- The lamp shows the last light carried out, and was dark before the first. -/
structure LampInv
    (tasks : Option ActuatorTasks)
    (history : List VehicleEvent) : Prop where
  driven :
    ∀ light fsm lit,
      .actuated (.lightCmd light) fsm lit ∈ history →
        lit = decide (0 < light.brightnessPct)
  commanded :
    ∀ running,
      tasks = some running →
        running.output.lit = true →
        ∃ msg fsm, .actuated msg fsm true ∈ history

namespace LampInv

variable {cmac : UInt32 → List UInt8 → FullTag}
  {history events : List VehicleEvent}

/-- Nothing happened yet. -/
theorem start : LampInv none [] := by
  refine ⟨?_, ?_⟩
  · intro light fsm lit member
    cases member
  · intro running isRunning
    cases isRunning

/-- A step that carries nothing out, after which the lamp is dark or as before. -/
theorem quiet
    {tasks after : Option ActuatorTasks}
    (inv : LampInv tasks history)
    (others : ∀ event ∈ events, ∀ msg fsm lit, event ≠ .actuated msg fsm lit)
    (output :
      ∀ running,
        after = some running →
          running.output.lit = true →
          ∃ before,
            tasks = some before ∧ before.output.lit = true) :
    LampInv after (history ++ events) := by
  refine ⟨?_, ?_⟩
  · intro light fsm lit member
    rcases List.mem_append.mp member with old | new
    · exact inv.driven light fsm lit old
    · exact (others _ new _ fsm lit rfl).elim
  · intro running isRunning isLit
    obtain ⟨before, wasRunning, wasLit⟩ := output running isRunning isLit
    obtain ⟨msg, fsm, member⟩ := inv.commanded before wasRunning wasLit
    exact ⟨msg, fsm, List.mem_append_left _ member⟩

/-- What the actuator does with a delivery. -/
theorem handle
    {tasks : ActuatorTasks}
    {netEvents : List NetEvent}
    (inv : LampInv (some tasks) history) :
    LampInv (tasks.handle netEvents).1
      (history ++ (netEvents.map .net ++ (tasks.handle netEvents).2)) := by
  have netOnly :
      ∀ event ∈ netEvents.map VehicleEvent.net,
        ∀ msg fsm lit, event ≠ .actuated msg fsm lit := by
    intro event member msg fsm lit same
    obtain ⟨one, -, rfl⟩ := List.mem_map.mp member
    cases same
  unfold ActuatorTasks.handle
  split
  · rw [List.append_nil]
    refine inv.quiet netOnly ?_
    intro running isRunning
    cases isRunning
  · split
    · rw [List.append_nil]
      exact inv.quiet netOnly fun running isRunning isLit =>
        ⟨running, isRunning, isLit⟩
    · next msg _ =>
      dsimp only
      refine ⟨?_, ?_⟩
      · intro light fsm lit member
        rcases List.mem_append.mp member with old | new
        · exact inv.driven light fsm lit old
        · rcases List.mem_append.mp new with told | own
          · exact (netOnly _ told _ fsm lit rfl).elim
          · rcases List.mem_cons.mp own with same | logged
            · cases same
              exact lightOutputUpdate_lit _ _
            · obtain ⟨record, -, same⟩ := List.mem_map.mp logged
              cases same
      · intro running isRunning isLit
        cases isRunning
        refine ⟨msg, actuatorFsmApply tasks.fsm (some msg), ?_⟩
        refine List.mem_append_right _ (List.mem_append_right _ ?_)
        rw [← isLit]
        exact List.mem_cons_self

/-- A turn of `can_task` on the actuator. -/
theorem canTask
    {net : Network}
    {tasks : ActuatorTasks}
    (inv : LampInv (some tasks) history)
    (ajar sent macUp : Bool)
    (outcomes : List CommitOutcome) :
    LampInv (actuatorCanTask cmac net tasks ajar sent macUp outcomes).2.1
      (history ++
        (actuatorCanTask cmac net tasks ajar sent macUp outcomes).2.2) := by
  have netOnly :
      ∀ netEvents : List NetEvent,
        ∀ event ∈ netEvents.map VehicleEvent.net,
          ∀ msg fsm lit, event ≠ .actuated msg fsm lit := by
    intro netEvents event member msg fsm lit same
    obtain ⟨one, -, rfl⟩ := List.mem_map.mp member
    cases same
  have still :
      ∀ after : ActuatorTasks,
        after.output = tasks.output →
          ∀ running,
            some after = some running →
              running.output.lit = true →
              ∃ before,
                some tasks = some before ∧ before.output.lit = true := by
    intro after same running isRunning isLit
    cases isRunning
    exact ⟨tasks, rfl, same ▸ isLit⟩
  cases isAt : tasks.canAt with
  | sync =>
      cases done : tasks.syncSent <;>
        simp only [actuatorCanTask, isAt, done, Bool.false_eq_true, ↓reduceIte]
      · exact inv.quiet (netOnly _) (still _ rfl)
      · exact inv.quiet (netOnly []) (still _ rfl)
  | receive =>
      rcases taken : tasks.rawQ.receive with _ | ⟨frame, rawQ⟩ <;>
        simp only [actuatorCanTask, isAt, taken]
      · refine inv.quiet ?_ (still _ rfl)
        intro event member msg fsm lit same
        rcases List.mem_append.mp member with logged | reported
        · obtain ⟨record, -, rfl⟩ := List.mem_map.mp logged
          cases same
        · rcases List.mem_cons.mp reported with rfl | told
          · cases same
          · exact netOnly _ event told msg fsm lit same
      · have kept :
            LampInv (some { tasks with rawQ := rawQ, canAt := .sync })
              history := by
          refine ⟨inv.driven, ?_⟩
          intro running isRunning isLit
          cases isRunning
          exact inv.commanded tasks rfl isLit
        exact kept.handle

/-- Every step of the vehicle. -/
theorem step
    {vehicle : Vehicle}
    (action : VehicleAction)
    (inv : LampInv vehicle.actuator history) :
    LampInv (vehicleStep cmac vehicle action).1.actuator
      (history ++ (vehicleStep cmac vehicle action).2) := by
  by_cases itsTurn :
      ∃ ajar sent macUp outcomes,
        action = .canTask .actuator ajar sent macUp outcomes
  · obtain ⟨ajar, sent, macUp, outcomes, rfl⟩ := itsTurn
    rcases running : vehicle.actuator with _ | tasks <;>
      rw [running] at inv <;>
      simp only [vehicleStep, running]
    · rw [List.append_nil]
      exact inv
    · exact inv.canTask ajar sent macUp outcomes
  · obtain ⟨left, others⟩ :=
      @vehicleStep_actuator cmac vehicle action
        fun ajar sent macUp outcomes same =>
          itsTurn ⟨ajar, sent, macUp, outcomes, same⟩
    refine inv.quiet others ?_
    intro running isRunning isLit
    rcases left with isNone | isNew | isSame | ⟨f, isSame⟩
    · rw [isNone] at isRunning
      cases isRunning
    · rw [isNew] at isRunning
      cases isRunning
      cases isLit
    · exact ⟨running, isSame ▸ isRunning, isLit⟩
    · rw [isSame] at isRunning
      obtain ⟨tasks, before, rfl⟩ := Option.map_eq_some_iff.mp isRunning
      exact ⟨tasks, before, isLit⟩

end LampInv

/-!
## From the switch to the lamp
-/

/-- What holds of the vehicle and of everything it showed. -/
structure CourtesyInv (vehicle : Vehicle) (history : List VehicleEvent) :
    Prop where
  door : DoorInv vehicle history
  net : NetInv vehicle.net (netHistory history)
  receives : ∀ side, SideReceives side vehicle.net (netHistory history)
  reports :
    (builtMessages msgIdSensorRpt (netHistory history)).Sublist
      ((samples history).map reportOf)
  gateway : GatewayRelays vehicle.gateway history
  lights :
    (actuatedLights history).Sublist
      (handedMessages .actuator msgIdLightCmd (netHistory history))
  lamp : LampInv vehicle.actuator history

/-- No tag is forged, no sender epoch wraps, no receiver boots on epoch 0xFFFF. -/
def GuardedNet (cmac : UInt32 → List UInt8 → FullTag) :
    Network → NetAction → Prop :=
  fun net action =>
    IdealMac cmac net action ∧
      NoEpochWrap net action ∧
      NoPeerFloorWrap .gateway net action ∧
      NoPeerFloorWrap .actuator net action

instance GuardedNet.decidable
    (cmac : UInt32 → List UInt8 → FullTag)
    (net : Network)
    (action : NetAction) :
    Decidable (GuardedNet cmac net action) :=
  inferInstanceAs (Decidable (_ ∧ _))

namespace CourtesyInv

variable {cmac : UInt32 → List UInt8 → FullTag}
  {vehicle : Vehicle}
  {history : List VehicleEvent}

/-- Both nodes are without power. -/
theorem start
    (stores : Side → FreshnessStore) :
    CourtesyInv (.unpowered stores) [] where
  door := .start stores
  net := .start stores
  receives := fun side => .start secocDomRxPeer (stores side)
  reports := List.Sublist.refl []
  gateway := .start
  lights := List.Sublist.refl []
  lamp := .start

/-- Every guarded step. -/
theorem step
    (action : VehicleAction)
    (inv : CourtesyInv vehicle history)
    (guarded : (vehicleLayer cmac).Meets (GuardedNet cmac) vehicle action) :
    CourtesyInv (vehicleStep cmac vehicle action).1
      (history ++ (vehicleStep cmac vehicle action).2) := by
  have nets :
      NetInv (vehicleStep cmac vehicle action).1.net
          (netHistory (history ++ (vehicleStep cmac vehicle action).2)) ∧
        ∀ side,
          SideReceives side (vehicleStep cmac vehicle action).1.net
            (netHistory (history ++ (vehicleStep cmac vehicle action).2)) := by
    refine
      @Machine.Layer.preserves _ _ _ _ _ _ _ _ (vehicleLayer cmac)
        (GuardedNet cmac)
        (fun net history =>
          NetInv net history ∧ ∀ side, SideReceives side net history)
        ?_ _ _ _ ⟨inv.net, inv.receives⟩ guarded
    rintro net history action ⟨isNet, receives⟩ ⟨ideal, noWrap, ofA, ofB⟩
    refine ⟨isNet.step action ideal noWrap, ?_⟩
    intro side
    cases side
    · exact (receives .gateway).step action isNet ofA
    · exact (receives .actuator).step action isNet ofB
  have ideal : (vehicleLayer cmac).Meets (IdealMac cmac) vehicle action :=
    Machine.Allowed.mono (fun _ _ guard => guard.1) guarded
  refine
    { door := inv.door.step action ideal
      net := nets.1
      receives := nets.2
      reports := ?_
      gateway := inv.gateway.step action
      lights := ?_
      lamp := inv.lamp.step action }
  · rw [netHistory_append, builtMessages_append, samples_append,
      List.map_append]
    exact inv.reports.append (vehicleStep_reports action)
  · rw [netHistory_append, handedMessages_append, actuatedLights_append]
    exact inv.lights.append (vehicleStep_lights action)

/-- Stage by stage, the lights carried out were asked for by the readings. -/
theorem actuated_sublist
    (inv : CourtesyInv vehicle history) :
    (actuatedMessages history).Sublist ((samples history).map courtesyCmd) := by
  have heardByGateway :
      (handedMessages .gateway msgIdSensorRpt (netHistory history)).Sublist
        ((samples history).map reportOf) := by
    have owned :
        ∀ request : Request,
          request.canId = msgIdSensorRpt → request.side = .actuator := by
      intro request onId
      rw [Request.side_eq, onId]
      rfl
    exact
      (inv.net.handed_sublist_built (inv.receives .gateway) owned).trans
        inv.reports
  have asked :
      ((samples history).map reportOf).filterMap lightAsked =
        (samples history).map courtesyCmd := by
    rw [List.filterMap_map, ← List.filterMap_eq_map]
    exact List.filterMap_congr fun ajar _ => lightAsked_reportOf ajar
  have built :
      (builtMessages msgIdLightCmd (netHistory history)).Sublist
        ((samples history).map courtesyCmd) := by
    have stepped := inv.gateway.queue.passed_sublist.trans heardByGateway
    rw [← asked]
    exact inv.gateway.output.passed_sublist.trans (stepped.filterMap lightAsked)
  have carriedOut :=
    inv.lights.trans
      (inv.net.handed_sublist_built (inv.receives .actuator)
        (command_side (Or.inr rfl)))
  rw [actuatedMessages_eq_lights inv.door.held]
  exact carriedOut.trans built

/-- What is carried out lights the lamp exactly when the door was ajar. -/
theorem actuated_lit
    (inv : CourtesyInv vehicle history)
    {msg : BodyMsg}
    {fsm : ActuatorFsm}
    {lit : Bool}
    (member : .actuated msg fsm lit ∈ history) :
    lit ∈ samples history ∧ msg = courtesyCmd lit := by
  have isMessage : msg ∈ actuatedMessages history :=
    List.mem_filterMap.mpr ⟨_, member, rfl⟩
  obtain ⟨ajar, sampled, rfl⟩ :=
    List.mem_map.mp (inv.actuated_sublist.subset isMessage)
  have isLit := inv.lamp.driven _ fsm lit member
  have same : lit = ajar := by
    rw [isLit]
    cases ajar <;> rfl
  rw [same]
  exact ⟨sampled, rfl⟩

end CourtesyInv

/--
In every run in which no tag is forged, no sender epoch wraps and no receiver
boots on the durable epoch 0xFFFF, whatever is dropped, repeated or injected and
however tasks, boots and power losses interleave: the commands carried out are,
in order and none of them twice, courtesy lights of the readings of the door
switch; each leaves the lamp lit exactly when its reading was a door ajar; and a
lamp that is lit was lit by one.
-/
theorem courtesy_light_follows_the_door
    (cmac : UInt32 → List UInt8 → FullTag)
    (stores : Side → FreshnessStore)
    (actions : List VehicleAction)
    (guarded :
      Machine.Allowed (vehicleStep cmac)
        ((vehicleLayer cmac).Meets (GuardedNet cmac)) (.unpowered stores)
        actions) :
    let vehicle := Machine.final (vehicleStep cmac) (.unpowered stores) actions
    let trace := Machine.trace (vehicleStep cmac) (.unpowered stores) actions
    (actuatedMessages trace).Sublist ((samples trace).map courtesyCmd) ∧
      (∀ msg fsm lit,
        .actuated msg fsm lit ∈ trace →
          lit ∈ samples trace ∧ msg = courtesyCmd lit) ∧
      ∀ tasks,
        vehicle.actuator = some tasks →
          tasks.output.lit = true →
          true ∈ samples trace := by
  intro vehicle trace
  have inv : CourtesyInv vehicle trace :=
    Machine.invariant_of_start
      (fun _ _ action inv guarded => inv.step action guarded) (.start stores)
      guarded
  refine ⟨inv.actuated_sublist, fun msg fsm lit => inv.actuated_lit, ?_⟩
  intro tasks running isLit
  obtain ⟨msg, fsm, member⟩ := inv.lamp.commanded tasks running isLit
  exact (inv.actuated_lit member).1

/-- After the light is on its command is replayed, and the door closes. -/
def replayedCourtesy : List VehicleAction :=
  attackedCourtesy ++
    [.arrives .actuator (lightOnAs 0x121),
      .canTask .actuator true true true [], .canTask .actuator true true true [],
      .canTask .actuator false true true [],
      .canTask .actuator false true true []]

/-- The light went on once, for the door that was ajar. -/
theorem courtesy_light_follows_the_door_under_replay :
    let start := Vehicle.unpowered fun _ => .blank
    let trace := Machine.trace (vehicleStep paddedMac) start replayedCourtesy
    actuatedMessages trace = [courtesyCmd true] ∧
      samples trace = [true, false] ∧
      (actuatedMessages trace).Sublist ((samples trace).map courtesyCmd) :=
  ⟨by decide, by decide,
    (courtesy_light_follows_the_door paddedMac _ replayedCourtesy
      (by decide)).1⟩

end TraveoBodyDomain
