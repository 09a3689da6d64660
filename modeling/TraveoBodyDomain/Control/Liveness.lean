import Mathlib.Tactic.Common
import TraveoBodyDomain.Control.Courtesy
import TraveoBodyDomain.Node.Delivery

/-!
# A reading reaches the lamp

Whatever was sent, lost, forged or rebooted before: once both senders are up,
neither receiver is ahead of its peer and the queues have drained, the next
reading of the door switch sets the lamp, if nothing interferes with the two
frames it takes.
-/

namespace TraveoBodyDomain

section Network

variable {cmac : UInt32 → List UInt8 → FullTag}
  {net : Network}
  {history : List NetEvent}

/-- What makes a genuine frame acceptable, in every state a run reaches. -/
structure LiveInv (net : Network) (history : List NetEvent) : Prop where
  resync : ResyncInv net history
  ids : ∀ side, TxIds side (net.node side).app.tx
  receivers : ∀ side, RxInitialised (net.node side).app.rx

namespace LiveInv

/-- Both nodes are without power, nothing ever committed. -/
theorem start : LiveInv .cold [] where
  resync := .start
  ids := fun _ live => absurd live Bool.false_ne_true
  receivers := fun _ => Or.inl ⟨rfl, rfl⟩

/-- Every step keeps it, with an ideal MAC and no epoch wrap. -/
theorem step
    (action : NetAction)
    (inv : LiveInv net history)
    (ideal : IdealMac cmac net action)
    (noWrap : NoEpochWrap net action) :
    LiveInv (networkStep cmac net action).1
      (history ++ (networkStep cmac net action).2) where
  resync := inv.resync.step action ideal noWrap
  ids := networkStep_txIds inv.ids action
  receivers := networkStep_rxInitialised inv.receivers action

end LiveInv

/-- A message a node was asked to send gets across in one frame. -/
structure Crosses
    (cmac : UInt32 → List UInt8 → FullTag)
    (net : Network)
    (request : Request)
    (msg : BodyMsg)
    (frame : CanRawFrame) : Prop where
  noWrap : NoEpochWrap net (.build request true [])
  ideal :
    IdealMac cmac (networkStep cmac net (.build request true [])).1
      (.deliver request.side.peer frame true [])
  handed :
    handedMessage
        (networkStep cmac (networkStep cmac net (.build request true [])).1
          (.deliver request.side.peer frame true [])).2 =
      some msg
  noFault :
    didFault
        (networkStep cmac (networkStep cmac net (.build request true [])).1
          (.deliver request.side.peer frame true [])).2 =
      false
  senderRx :
    ((networkStep cmac (networkStep cmac net (.build request true [])).1
        (.deliver request.side.peer frame true [])).1.node
        request.side).app.gRx =
      (net.node request.side).app.gRx
  receiverTx :
    ((networkStep cmac (networkStep cmac net (.build request true [])).1
        (.deliver request.side.peer frame true [])).1.node
        request.side.peer).app.tx =
      (net.node request.side.peer).app.tx

/-- What a delivery that hands a message on shows and leaves. -/
theorem networkStep_deliver_handed
    {side : Side}
    {frame : CanRawFrame}
    {msg : BodyMsg}
    {handled : Handled FreshnessStore}
    (received :
      side.receive durablePort (oracle cmac true) (net.node side).app frame
          ((net.node side).store.arm []) =
        .ok handled)
    (handsOn : handled.handedOn = some msg) :
    handedMessage (networkStep cmac net (.deliver side frame true [])).2 =
        some msg ∧
      didFault (networkStep cmac net (.deliver side frame true [])).2 =
        false ∧
      (networkStep cmac net (.deliver side frame true [])).1 =
        net.setNode side ⟨handled.app, handled.store⟩ := by
  have ran :
      networkStep cmac net (.deliver side frame true []) =
        (net.setNode side ⟨handled.app, handled.store⟩,
          acceptance (oracle cmac true) side (net.node side).app frame
              ((net.node side).store.arm []) ++
            handledEvents side frame handled) := by
    simp only [networkStep, received]
  rw [ran]
  refine ⟨?_, ?_, rfl⟩
  · unfold handedMessage acceptance handledEvents
    rw [handsOn]
    split <;> simp
  · unfold didFault acceptance handledEvents
    rw [handsOn]
    split <;> split <;> simp

/-- A genuine message crosses to a peer whose receiver is not ahead. -/
theorem message_crosses
    {request : Request}
    {msg : BodyMsg}
    (inv : LiveInv net history)
    (asked : request.message = some msg)
    (packs : (request.pdu (net.node request.side).app).isSome = true)
    (up : (net.node request.side).Up)
    (bound : (net.node request.side.peer).app.gRx.storeSet = true)
    (notAhead :
      (net.node request.side.peer).app.gRx.floor ≤
        (net.node request.side).app.tx.epoch)
    (room : (net.node request.side).app.tx.epoch ≠ 0xFFFF) :
    ∃ f,
      frameBuilt cmac net request true [] = some f ∧
        ∀ padded, PaddedFrom f padded → Crosses cmac net request msg padded := by
  obtain ⟨pdu, packed⟩ := Option.isSome_iff_exists.mp packs
  obtain ⟨f, built, length⟩ :=
    @frameBuilt_reliable cmac _ _ _ [] up (inv.ids request.side) packed
      (fun outcome member => by cases member)
  refine ⟨f, built, fun padded isPadded => ?_⟩
  obtain ⟨pduAgain, epoch, counter, tx, store, packedAgain, issues, isId,
    isRecord, verifies, ran⟩ := ResyncInv.frameBuilt_spec built
  have noWrap : NoEpochWrap net (.build request true []) :=
    fun _ _ isMax => (room isMax).elim
  have onId : f.id.toUInt16 = request.canId := by
    rw [isId, UInt16.toUInt16_toUInt32]
  have isFrame : padded.id = request.canId.toUInt32 :=
    isPadded.sameId.trans isId
  have configured : bodyMsgPduLen f.id.toUInt16.toUInt32 ≠ 0 :=
    (Side.listens_id ⟨_, Side.sends_heard request, isId⟩).2.2
  obtain ⟨sameRecord, verifiesPadded⟩ :=
    isPadded.verifies configured (by rw [onId]; exact length) verifies
  have passes :=
    inv.resync.next_passes request up bound (UInt16.not_lt.mpr notAhead)
      (noWrap packs) issues
  have takes :
      Takes cmac (net.node request.side.peer) padded true [] := by
    refine ⟨verifiesPadded, ?_, fun _ => rfl⟩
    rw [sameRecord, isRecord]
    exact passes
  have arrives : Arrives cmac request (net.node request.side)
      (net.node request.side.peer) padded [] := by
    refine Arrives.of_takes (inv.receivers _) isFrame ?_ takes
    rw [sameRecord, isRecord]
    exact packedAgain
  obtain ⟨handled, received, handsOn⟩ := arrives.message msg asked
  -- Building left the peer alone.
  have peerStays :
      (networkStep cmac net (.build request true [])).1.node request.side.peer =
        net.node request.side.peer := by
    rw [ran]
    exact setNode_node_other net _ (Side.peer_ne _)
  obtain ⟨shown, noFault, left⟩ :=
    @networkStep_deliver_handed cmac
      (networkStep cmac net (.build request true [])).1 request.side.peer padded
      msg handled (by rw [peerStays]; exact received) handsOn
  refine ⟨noWrap, ?_, shown, noFault, ?_, ?_⟩
  · show TaggedIfVerified
      (networkStep cmac net (.build request true [])).1.tagged _ _
    rw [verifiesPadded, sameRecord, ran]
    refine List.mem_append_right _ ?_
    have isInput :
        buildMacInput padded.id.toUInt16
            (freshnessField (recordOf f).value.epoch
              (recordOf f).value.counter)
            (recordOf f).pdu =
          (recordOf f).macInput := by
      rw [isPadded.sameId]
      rfl
    exact List.mem_singleton.mpr (congrArg (secocMacKeyId, ·) isInput)
  · rw [left, setNode_node_other _ _ (Side.peer_ne _).symm, ran]
    show ((net.setNode request.side _).node request.side).app.gRx = _
    rw [setNode_node_same]
    rfl
  · rw [left, setNode_node_same]
    have spec :=
      receive_spec (oracle cmac true) (net.node request.side.peer).app
        ((net.node request.side.peer).store.arm [])
        ⟨_, Side.sends_heard request, isFrame⟩
    rw [received] at spec
    rcases spec.adoption with ⟨sameTx, -⟩ | ⟨-, isSync, -⟩
    · exact sameTx
    · rw [Side.peer_peer, isFrame] at isSync
      have sync := Request.eq_bootSync (UInt16.toUInt32_inj.mp isSync)
      rw [sync] at asked
      cases asked

end Network

/-- Both nodes run and wait: nothing queued, every command of theirs sent. -/
structure Vehicle.Waits
    (vehicle : Vehicle)
    (gateway : GatewayTasks)
    (actuator : ActuatorTasks) : Prop where
  gatewayRuns : vehicle.gateway = some gateway
  actuatorRuns : vehicle.actuator = some actuator
  gatewayCan : gateway.canAt = .receive
  gatewayRaw : gateway.rawQ.items = []
  gatewayApp : gateway.appAt = .receive
  gatewayMsg : gateway.msgQ.items = []
  actuatorCan : actuator.canAt = .receive
  actuatorRaw : actuator.rawQ.items = []
  synced : actuator.syncSent = true

/-- The actuator reports, the gateway hears it and steps, up to its light command. -/
def reportTurns (ajar : Bool) (report : CanRawFrame) : List VehicleAction :=
  [.canTask .actuator ajar true true [], .arrives .gateway report,
    .canTask .gateway false true true [], .appTask false true [],
    .appTask false true []]

/-- The gateway commands, the actuator hears it and carries it out. -/
def commandTurns (ajar : Bool) (command : CanRawFrame) : List VehicleAction :=
  [.appTask false true [], .arrives .actuator command,
    .canTask .actuator ajar true true [], .canTask .actuator ajar true true []]

/-- An empty queue holds what is sent to it. -/
theorem BoundedQueue.receive_send_empty
    {α : Type}
    {depth : Nat}
    {queue : BoundedQueue α depth}
    (positive : 0 < depth)
    (isEmpty : queue.items = [])
    (value : α) :
    ∃ rest,
      (queue.send value).receive = some (value, rest) ∧ rest.items = [] := by
  have room : queue.HasRoom := by
    rw [BoundedQueue.HasRoom, isEmpty]
    exact positive
  refine BoundedQueue.receive_of_items ?_
  rw [BoundedQueue.send_of_room room, isEmpty]
  rfl

section Turns

variable {cmac : UInt32 → List UInt8 → FullTag}
  {vehicle : Vehicle}
  {gateway : GatewayTasks}
  {actuator : ActuatorTasks}

/-- The first half: the report crosses and asks for the courtesy light. -/
theorem report_reaches_the_application
    {ajar : Bool}
    {report : CanRawFrame}
    (waits : vehicle.Waits gateway actuator)
    (crosses :
      Crosses cmac vehicle.net (.telemetry (sensorReportOf ajar))
        (reportOf ajar) report) :
    ∃ gatewayAfter,
      Machine.final (vehicleStep cmac) vehicle (reportTurns ajar report) =
          { net :=
              (networkStep cmac
                (networkStep cmac vehicle.net
                  (.build (.telemetry (sensorReportOf ajar)) true [])).1
                (.deliver .gateway report true [])).1
            gateway := some gatewayAfter
            actuator :=
              some { actuator with canAt := .sync, lastAjar := ajar } } ∧
        gatewayAfter.appAt = .light (courtesyOutput ajar) := by
  obtain ⟨rawQ, rawTaken, -⟩ :=
    BoundedQueue.receive_send_empty (by decide : 0 < rawFrameQdepth)
      waits.gatewayRaw report
  obtain ⟨msgQ, msgTaken, -⟩ :=
    BoundedQueue.receive_send_empty (by decide : 0 < appMsgQdepth)
      waits.gatewayMsg (reportOf ajar)
  have actuatorIdle := BoundedQueue.receive_eq_none.mpr waits.actuatorRaw
  have handed := crosses.handed
  have noFault := crosses.noFault
  simp only [Request.side, Side.peer] at handed noFault
  refine
    ⟨{ gateway with
        rawQ := rawQ
        canAt := .sync
        msgQ := msgQ
        body := (bodyctlStep gateway.body (some (reportOf ajar))).1
        appAt := .light (courtesyOutput ajar) }, ?_, rfl⟩
  have output :
      (bodyctlStep gateway.body (some (reportOf ajar))).2 =
        courtesyOutput ajar := by
    rw [reportOf, bodyctlStep_sensorReport, sensorReportOf_ajar]
    rfl
  simp only [reportTurns, Machine.final_cons, Machine.final_nil, vehicleStep,
    waits.gatewayRuns, waits.actuatorRuns, actuatorCanTask, waits.actuatorCan,
    actuatorIdle, canRxCallback, Option.map_some, gatewayCanTask,
    waits.gatewayCan, rawTaken, GatewayTasks.handle, noFault, handed,
    Bool.false_eq_true, ↓reduceIte, gatewayAppTask, waits.gatewayApp, msgTaken,
    output, courtesyOutput, BodyctlOutput.noCommand]

/-- The second half: the command crosses and sets the lamp. -/
theorem command_reaches_the_lamp
    {ajar : Bool}
    {command : CanRawFrame}
    (gatewayRuns : vehicle.gateway = some gateway)
    (actuatorRuns : vehicle.actuator = some actuator)
    (commanding : gateway.appAt = .light (courtesyOutput ajar))
    (isAt : actuator.canAt = .sync)
    (isEmpty : actuator.rawQ.items = [])
    (synced : actuator.syncSent = true)
    (crosses :
      Crosses cmac vehicle.net (.lightCmd (courtesyPct ajar))
        (courtesyCmd ajar) command) :
    ∃ tasks,
      (Machine.final (vehicleStep cmac) vehicle
          (commandTurns ajar command)).actuator = some tasks ∧
        tasks.output.lit = ajar := by
  obtain ⟨rawQ, rawTaken, -⟩ :=
    BoundedQueue.receive_send_empty (by decide : 0 < rawFrameQdepth) isEmpty
      command
  have handed := crosses.handed
  have noFault := crosses.noFault
  simp only [Request.side, Side.peer] at handed noFault
  simp only [commandTurns, Machine.final_cons, Machine.final_nil, vehicleStep,
    gatewayRuns, actuatorRuns, gatewayAppTask, commanding, courtesyOutput,
    ↓reduceIte, canRxCallback, Option.map_some, actuatorCanTask, isAt, synced,
    rawTaken, ActuatorTasks.handle, noFault, handed, Bool.false_eq_true]
  refine ⟨_, rfl, ?_⟩
  refine (lightOutputUpdate_lit _ _).trans ?_
  cases ajar <;> rfl

end Turns

/-- Both glues are up, and neither receiver is ahead of its peer's sender. -/
def Network.InStep (net : Network) : Prop :=
  ∀ side,
    (net.node side).Up ∧
      (net.node side).app.gRx.storeSet = true ∧
      (net.node side.peer).app.gRx.floor ≤ (net.node side).app.tx.epoch ∧
      (net.node side).app.tx.epoch ≠ 0xFFFF

/--
From every state a run with an ideal MAC and no epoch wrap reaches, in which the
nodes wait and are in step: the next reading of the door switch becomes a report,
the report delivered to the gateway becomes a command, and the command delivered
to the actuator sets the lamp to the reading, however the controllers pad the
two frames.
-/
theorem reading_reaches_the_lamp
    (cmac : UInt32 → List UInt8 → FullTag)
    (actions : List VehicleAction)
    (guarded :
      Machine.Allowed (vehicleStep cmac)
        ((vehicleLayer cmac).Meets fun net action =>
          IdealMac cmac net action ∧ NoEpochWrap net action)
        (.unpowered fun _ => .blank) actions)
    (gateway : GatewayTasks)
    (actuator : ActuatorTasks)
    (ajar : Bool) :
    let vehicle :=
      Machine.final (vehicleStep cmac) (.unpowered fun _ => .blank) actions
    vehicle.Waits gateway actuator →
      vehicle.net.InStep →
        ∃ report,
          frameBuilt cmac vehicle.net (.telemetry (sensorReportOf ajar)) true
              [] = some report ∧
            ∀ padded, PaddedFrom report padded →
              let heard :=
                Machine.final (vehicleStep cmac) vehicle
                  (reportTurns ajar padded)
              ∃ command,
                frameBuilt cmac heard.net (.lightCmd (courtesyPct ajar)) true
                    [] = some command ∧
                  ∀ paddedCommand, PaddedFrom command paddedCommand →
                    ∃ tasks,
                      (Machine.final (vehicleStep cmac) heard
                          (commandTurns ajar paddedCommand)).actuator =
                        some tasks ∧
                      tasks.output.lit = ajar := by
  intro vehicle waits inStep
  have inv :
      LiveInv vehicle.net
        (netHistory
          (Machine.trace (vehicleStep cmac) (.unpowered fun _ => .blank)
            actions)) :=
    @Machine.invariant_of_start _ _ _ (vehicleStep cmac) _
      (fun vehicle history => LiveInv vehicle.net (netHistory history))
      (fun _ _ _ inv guard =>
        (vehicleLayer cmac).preserves
          (fun _ _ action inv guard => inv.step action guard.1 guard.2) inv
          guard)
      _ _ .start guarded
  obtain ⟨upA, boundA, behindA, roomA⟩ := inStep .gateway
  obtain ⟨upB, boundB, behindB, roomB⟩ := inStep .actuator
  have packs :
      ∀ app,
        ((Request.telemetry (sensorReportOf ajar)).pdu app).isSome = true ∧
          ((Request.lightCmd (courtesyPct ajar)).pdu app).isSome = true := by
    intro app
    cases ajar <;> exact ⟨rfl, rfl⟩
  obtain ⟨report, built, crosses⟩ :=
    @message_crosses cmac _ _ (.telemetry (sensorReportOf ajar)) (reportOf ajar)
      inv rfl (packs _).1 upB boundA behindB roomB
  refine ⟨report, built, ?_⟩
  intro padded isPadded heard
  have crossed := crosses padded isPadded
  obtain ⟨gatewayAfter, ran, commanding⟩ :=
    report_reaches_the_application waits crossed
  have invHeard :=
    (inv.step (.build (.telemetry (sensorReportOf ajar)) true []) trivial
      crossed.noWrap).step
      (.deliver .gateway padded true []) crossed.ideal trivial
  have isHeard : heard = _ := ran
  have netHeard := congrArg Vehicle.net isHeard
  have senderRx := crossed.senderRx
  have receiverTx := crossed.receiverTx
  simp only [Request.side, Side.peer] at senderRx receiverTx invHeard
  obtain ⟨command, builtCommand, crossesCommand⟩ :=
    @message_crosses cmac _ _ (.lightCmd (courtesyPct ajar)) (courtesyCmd ajar)
      invHeard rfl (packs _).2
      (by rw [Node.Up, Request.side, receiverTx]; exact upA)
      (by rw [Request.side, Side.peer, senderRx]; exact boundB)
      (by
        rw [Request.side, Side.peer, senderRx, receiverTx]
        exact behindA)
      (by rw [Request.side, receiverTx]; exact roomA)
  refine ⟨command, by rw [netHeard]; exact builtCommand, ?_⟩
  intro paddedCommand isPaddedCommand
  have crossedCommand := crossesCommand paddedCommand isPaddedCommand
  rw [isHeard]
  exact
    command_reaches_the_lamp rfl rfl commanding rfl waits.actuatorRaw
      waits.synced crossedCommand

/-- Both nodes boot and send their syncs. -/
def bootedVehicle : List VehicleAction :=
  [.boot .gateway .ok [], .boot .actuator .ok [],
    .canTask .gateway false true true [], .canTask .actuator false true true []]

/-- The first reading of an open door lights the lamp. -/
theorem first_reading_reaches_the_lamp :
    let vehicle :=
      Machine.final (vehicleStep paddedMac) (.unpowered fun _ => .blank)
        bootedVehicle
    let heard :=
      Machine.final (vehicleStep paddedMac) vehicle (reportTurns true ajarReport)
    ∃ tasks,
      (Machine.final (vehicleStep paddedMac) heard
          (commandTurns true (lightOnAs 0x121))).actuator = some tasks ∧
        tasks.output.lit = true := by
  intro vehicle heard
  obtain ⟨report, built, reported⟩ :=
    reading_reaches_the_lamp paddedMac bootedVehicle (by decide) _ _ true
      ⟨rfl, rfl, rfl, rfl, rfl, rfl, rfl, rfl, rfl⟩
      (fun side => by cases side <;> decide)
  have isReport :
      frameBuilt paddedMac vehicle.net (.telemetry (sensorReportOf true)) true
          [] = some ajarReport := by
    decide
  rw [isReport] at built
  cases built
  obtain ⟨command, builtCommand, commanded⟩ :=
    reported ajarReport ⟨rfl, ⟨[], rfl⟩, by decide⟩
  have isCommand :
      frameBuilt paddedMac heard.net (.lightCmd (courtesyPct true)) true [] =
        some (lightOnAs 0x121) := by
    decide
  rw [isCommand] at builtCommand
  cases builtCommand
  exact commanded _ ⟨rfl, ⟨[], rfl⟩, by decide⟩

end TraveoBodyDomain
