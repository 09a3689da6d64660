import Mathlib.Tactic.Common
import TraveoBodyDomain.Node.Invariants
import TraveoBodyDomain.Secoc.Receiver

/-!
# Actuation is authentic

What the actuator hands on for a command ID is, in order and without
repetition, among the commands the gateway built for that ID.  The sender half
holds in every run; the receiver half needs that the actuator never boots on
the durable peer epoch 0xFFFF.
-/

namespace TraveoBodyDomain

/-!
## The receiver of one node
-/

namespace ReceiverInv

variable {app appAfter : SecocApp}
  {store storeAfter : FreshnessStore}
  {accepted : List FreshValue}

/-- The receive verdict keeps the invariant, with the value it accepts. -/
theorem ofVerdict
    {cmac : UInt32 → List UInt8 → FullTag}
    {up : Bool}
    {f : CanRawFrame}
    {result : SecocRxResult FreshnessStore}
    (inv : ReceiverInv secocDomRxPeer app.gRx store accepted)
    (bound : RxBound app.rx)
    (configured : bodyMsgPduLen f.id.toUInt16.toUInt32 ≠ 0)
    (processed : rxProcess durablePort (oracle cmac up) app f store = result)
    (rxAfter : appAfter.rx = result.rx) :
    ReceiverInv secocDomRxPeer appAfter.gRx result.store
      (accepted ++
        if result.verdict = .accept then [(recordOf f).value] else []) := by
  by_cases verdict : result.verdict = .accept
  · rw [if_pos verdict]
    rcases rxProcess_accept processed bound configured verdict with ⟨heard⟩
    have before : app.gRx = heard.fresh := by
      rw [SecocApp.gRx, heard.freshSet]
      rfl
    have after : appAfter.gRx = heard.freshAfter := by
      rw [SecocApp.gRx, rxAfter, heard.rxAfter]
      rfl
    rw [before] at inv
    rw [after]
    exact inv.accept heard.passes heard.committed
  · rw [if_neg verdict, List.append_nil]
    rcases rxProcess_drop processed bound configured verdict with
        ⟨freshKept, kept⟩
    have same : appAfter.gRx = app.gRx := by
      rw [SecocApp.gRx, rxAfter, freshKept]
      rfl
    rw [same]
    rcases kept with kept | ⟨fresh, freshSet, -, passes, ran⟩
    · rw [kept]
      exact inv
    · have isOwn : app.gRx = fresh := by
        rw [SecocApp.gRx, freshSet]
        rfl
      rw [isOwn] at inv ⊢
      have refused := inv.accept passes ran
      rw [if_neg Bool.false_ne_true, List.append_nil] at refused
      exact refused

end ReceiverInv

/-!
## The receiver of one side of the network
-/

/-- The freshness values a node accepted. -/
def acceptedValues
    (side : Side)
    (history : List NetEvent) :
    List FreshValue :=
  (acceptedRecords side history).map (·.value)

/-- The receiver of `side` and the values it accepted agree. -/
def SideReceives
    (side : Side)
    (net : Network)
    (history : List NetEvent) : Prop :=
  ReceiverInv secocDomRxPeer (net.node side).app.gRx (net.node side).store
    (acceptedValues side history)

/-- No boot of `side` computes its floor from the durable epoch 0xFFFF. -/
def NoPeerFloorWrap (side : Side) : Network → NetAction → Prop
  | net, .boot booted status _ =>
      booted = side →
        status ≠ .broken →
        (net.node side).store.slot secocDomRxPeer ≠ some 0xFFFF
  | _, _ => True

instance NoPeerFloorWrap.decidable (side : Side) :
    ∀ net action, Decidable (NoPeerFloorWrap side net action)
  | _, .powerLoss _ => inferInstanceAs (Decidable True)
  | _, .boot _ _ _ => inferInstanceAs (Decidable (_ → _))
  | _, .build _ _ _ => inferInstanceAs (Decidable True)
  | _, .deliver _ _ _ _ => inferInstanceAs (Decidable True)

namespace SideReceives

variable {cmac : UInt32 → List UInt8 → FullTag}
  {side : Side}
  {net : Network}
  {history : List NetEvent}

/-- A step at the other node leaves this receiver alone. -/
theorem elsewhere
    {other : Side}
    {node : Node}
    {events : List NetEvent}
    (receives : SideReceives side net history)
    (different : side ≠ other)
    (silent : acceptedRecords side events = []) :
    SideReceives side (net.setNode other node) (history ++ events) := by
  unfold SideReceives acceptedValues at receives ⊢
  rw [setNode_node_other net node different, acceptedRecords_append, silent,
    List.append_nil]
  exact receives

/-- A boot that wraps no floor. -/
theorem boot
    {booted : Side}
    {status : SecocStoreStatus}
    {outcomes : List CommitOutcome}
    (receives : SideReceives side net history)
    (noWrap : NoPeerFloorWrap side net (.boot booted status outcomes)) :
    SideReceives side
      (networkStep cmac net (.boot booted status outcomes)).1
      (history ++
        (networkStep cmac net (.boot booted status outcomes)).2) := by
  rcases ran :
      secocAppInit booted.config durablePort status .reset
        ((net.node booted).store.arm outcomes) with ⟨app, store⟩
  simp only [networkStep, ran]
  by_cases own : side = booted
  · subst own
    have armed :
        ReceiverInv secocDomRxPeer .reset
          ((net.node side).store.arm outcomes) (acceptedValues side history) :=
      receives.reset.of_slot_eq rfl
    unfold SideReceives acceptedValues
    rw [setNode_node_same, acceptedRecords_append]
    simp only [acceptedRecords, List.filterMap_cons_none,
      List.filterMap_nil, List.append_nil]
    rcases secocAppInit_spec ran with
        ⟨-, -, ⟨-, -, isRx, isStore⟩ |
          ⟨usable, txBooted, rxBooted, txRan, rxRan⟩⟩
    · rw [isRx, isStore]
      exact armed
    · have slotKept :
          store.slot secocDomRxPeer =
            ((net.node side).store.arm outcomes).slot secocDomRxPeer :=
        secocTxBoot_slot_other txRan (by decide)
      refine (armed.of_slot_eq slotKept).boot ?_ rxRan
      intro _
      rw [slotKept]
      exact noWrap rfl usable
  · exact receives.elsewhere own rfl

/-- A frame built at either node. -/
theorem build
    {request : Request}
    {up : Bool}
    {outcomes : List CommitOutcome}
    (receives : SideReceives side net history)
    (inv : NetInv net history) :
    SideReceives side
      (networkStep cmac net (.build request up outcomes)).1
      (history ++
        (networkStep cmac net (.build request up outcomes)).2) := by
  rcases networkStep_build request up with ⟨tx, store, sent, ran, did⟩
  rw [ran]
  have silent : acceptedRecords side (sent.map (.built request)) = [] := by
    simp [acceptedRecords, List.filterMap_map]
  by_cases own : side = request.side
  · have slotKept :
        store.slot secocDomRxPeer =
          (net.node request.side).store.slot secocDomRxPeer := by
      rcases did with ⟨-, rfl, -⟩ | ⟨pdu, issued, -, issues, -⟩
      · rfl
      · have kept :
            store.slot secocDomRxPeer =
              ((net.node request.side).store.arm outcomes).slot
                secocDomRxPeer := by
          refine secocTxNext_slot_other issues ?_
          intro live
          rw [(inv.nodes request.side).sender.ownDomain live]
          decide
        exact kept
    unfold SideReceives acceptedValues at receives ⊢
    rw [acceptedRecords_append, silent, List.append_nil]
    subst own
    simp only [Network.setNode, Function.update_self]
    exact receives.of_slot_eq slotKept
  · exact receives.elsewhere own silent

/-- A frame delivered to either node. -/
theorem deliver
    {receiver : Side}
    {f : CanRawFrame}
    {up : Bool}
    {outcomes : List CommitOutcome}
    (receives : SideReceives side net history)
    (inv : NetInv net history) :
    SideReceives side
      (networkStep cmac net (.deliver receiver f up outcomes)).1
      (history ++
        (networkStep cmac net (.deliver receiver f up outcomes)).2) := by
  by_cases listens : receiver.listens f
  · rcases networkStep_deliver up listens with
        ⟨result, nodeAfter, events, processed, ran, did⟩
    rw [ran]
    by_cases own : side = receiver
    · subst own
      have armed :
          ReceiverInv secocDomRxPeer (net.node side).app.gRx
            ((net.node side).store.arm outcomes)
            (acceptedValues side history) :=
        receives.of_slot_eq rfl
      have node := inv.nodes side
      have configured := (Side.listens_id listens).2.2
      unfold SideReceives acceptedValues
      simp only [setNode_node_same, acceptedRecords_append, List.map_append]
      rcases did with ⟨accepted, -, -, rfl, rfl⟩ | ⟨handled, spec, rfl, rfl⟩
      · have heard :
            ReceiverInv secocDomRxPeer
              (SecocApp.gRx { (net.node side).app with rx := result.rx })
              result.store _ :=
          armed.ofVerdict node.rxBound configured processed rfl
        rw [if_pos accepted] at heard
        have told :
            acceptedRecords side
                [.accepted side (recordOf f), .faulted side] =
              [recordOf f] := by
          simp [acceptedRecords]
        rw [told]
        exact heard.reset
      · have heard :=
          armed.ofVerdict node.rxBound configured processed spec.rxAfter
        have told :
            acceptedRecords side
                (if result.verdict = .accept then
                    [.accepted side (recordOf f)]
                  else
                    []) =
              if result.verdict = .accept then [recordOf f] else [] := by
          split <;> simp [acceptedRecords]
        rw [acceptedRecords_append, acceptedRecords_handledEvents, told,
          List.append_nil, apply_ite (List.map _), List.map_singleton,
          List.map_nil]
        refine heard.of_slot_eq ?_
        rcases spec.adoption with ⟨-, isStore, -⟩ | ⟨-, -, moved, adopted, -⟩
        · rw [isStore]
        · refine secocTxAdoptFloor_slot_other adopted ?_
          intro live
          rw [node.sender.ownDomain live]
          decide
    · refine receives.elsewhere own ?_
      rcases did with ⟨-, -, -, -, rfl⟩ | ⟨handled, spec, -, rfl⟩
      · simp [acceptedRecords, Ne.symm own]
      · rw [acceptedRecords_append, acceptedRecords_handledEvents]
        split <;> simp [acceptedRecords, Ne.symm own]
  · rw [networkStep_deliver_other up listens]
    by_cases own : side = receiver
    · subst own
      unfold SideReceives
      rw [setNode_node_same, List.append_nil]
      exact receives.of_slot_eq rfl
    · exact receives.elsewhere own rfl

/-- Every step that wraps no floor at `side` keeps the receiver invariant. -/
theorem step
    (action : NetAction)
    (receives : SideReceives side net history)
    (inv : NetInv net history)
    (noWrap : NoPeerFloorWrap side net action) :
    SideReceives side (networkStep cmac net action).1
      (history ++ (networkStep cmac net action).2) := by
  cases action with
  | powerLoss lost =>
      by_cases own : side = lost
      · subst own
        unfold SideReceives
        simp only [networkStep, setNode_node_same, List.append_nil]
        exact receives.reset
      · exact receives.elsewhere own rfl
  | boot booted status outcomes =>
      exact receives.boot noWrap
  | build request up outcomes =>
      exact receives.build inv
  | deliver receiver f up outcomes =>
      exact receives.deliver inv

end SideReceives

/-!
## What is handed on was built
-/

/-- The messages built for an ID are what the records built for it decode to. -/
theorem NetInv.builtMessages_eq
    {net : Network}
    {history : List NetEvent}
    (inv : NetInv net history)
    {canId : UInt16}
    {owner : Side}
    (owned : ∀ request : Request, request.canId = canId → request.side = owner) :
    builtMessages canId history =
      (recordsOn canId (builtRecords owner history)).filterMap
        fun record => bodyDecode canId.toUInt32 record.pdu := by
  have each := inv.builtFor
  clear inv
  induction history with
  | nil =>
      rfl
  | cons event rest inductionHypothesis =>
      have later :=
        inductionHypothesis fun request record member =>
          each request record (List.mem_cons_of_mem _ member)
      cases event with
      | built request record =>
          rcases each request record (List.mem_cons_self ..) with
              ⟨onId, decoded⟩
          by_cases same : request.canId = canId
          · rw [same] at onId decoded
            have message :
                builtMessages canId (.built request record :: rest) =
                  request.message.toList ++ builtMessages canId rest := by
              cases asked : request.message <;>
                simp [builtMessages, same, asked]
            have first :
                recordsOn canId
                    (builtRecords owner (.built request record :: rest)) =
                  record :: recordsOn canId (builtRecords owner rest) := by
              simp [builtRecords, recordsOn, owned request same, onId]
            rw [message, first, ← decoded, later, List.filterMap_cons]
            cases bodyDecode canId.toUInt32 record.pdu <;> rfl
          · rw [← onId] at same
            have message :
                builtMessages canId (.built request record :: rest) =
                  builtMessages canId rest := by
              rw [onId] at same
              simp [builtMessages, same]
            have skipped :
                recordsOn canId
                    (builtRecords owner (.built request record :: rest)) =
                  recordsOn canId (builtRecords owner rest) := by
              by_cases own : request.side = owner <;>
                simp [builtRecords, recordsOn, own, same]
            rw [message, skipped, later]
      | _ =>
          exact later

/--
What `side` hands on for an ID that one node sends is a subsequence of what was
built for it.
-/
theorem NetInv.handed_sublist_built
    {net : Network}
    {history : List NetEvent}
    {side owner : Side}
    {canId : UInt16}
    (inv : NetInv net history)
    (receives : SideReceives side net history)
    (owned : ∀ request : Request, request.canId = canId → request.side = owner) :
    (handedMessages side canId history).Sublist
      (builtMessages canId history) := by
  have members :
      recordsOn canId (acceptedRecords side history) ⊆
        recordsOn canId (builtRecords owner history) := by
    intro record member
    rcases List.mem_filter.mp member with ⟨accepted, onId⟩
    rcases inv.acceptedBuilt side record (mem_acceptedRecords.mp accepted) with
        ⟨request, built⟩
    have ofRequest := (inv.builtFor request record built).1
    have onRequest : request.canId = canId := by
      rw [← ofRequest]
      exact of_decide_eq_true onId
    have isBuilt :=
      mem_builtRecords.mpr ⟨request, owned request onRequest, built⟩
    exact List.mem_filter.mpr ⟨isBuilt, onId⟩
  have irreflexive : ∀ record : SecuredRecord, ¬ record.before record :=
    fun _ => Increasing.lexLt_irrefl _
  have asymmetric :
      ∀ first second : SecuredRecord,
        first.before second → ¬ second.before first :=
    fun _ _ before => Increasing.lexLt_asymm before
  have records :
      (recordsOn canId (acceptedRecords side history)).Sublist
        (recordsOn canId (builtRecords owner history)) :=
    Increasing.sublist_of_subset irreflexive asymmetric
      (recordsOn_pairwise (receives.increasing canId))
      (recordsOn_pairwise ((inv.nodes owner).sender.increasing canId))
      members
  rw [inv.handedDecoded, inv.builtMessages_eq owned]
  exact records.filterMap _

/-- Command IDs are the gateway's to send. -/
theorem command_side
    {canId : UInt16}
    (command : canId = msgIdDoorCmd ∨ canId = msgIdLightCmd)
    (request : Request)
    (onId : request.canId = canId) :
    request.side = .gateway := by
  rw [Request.side_eq, onId]
  rcases command with rfl | rfl <;> rfl

/-!
## The run that repeats a command
-/

/-- The gateway booted on the durable epoch `epoch`, its commits acknowledged. -/
def gatewayBootedOn (epoch : UInt16) : Node :=
  let (app, store) :=
    secocAppInit NodeA.config durablePort .ok .reset
      { slot := Function.update (fun _ => none) secocDomTxSelf (some epoch)
        outcomes := []
        acknowledged := [] }
  ⟨app, store⟩

/-- The store that boot left is again one that holds a single epoch. -/
theorem gatewayBootedOn_store
    (epoch : UInt16) :
    (gatewayBootedOn epoch).store.arm [] =
      { slot :=
          Function.update (fun _ => none) secocDomTxSelf (some (epoch + 1))
        outcomes := []
        acknowledged := [] } := by
  have slots :
      (gatewayBootedOn epoch).store.slot =
        Function.update
          (Function.update (fun _ => none) secocDomTxSelf (some epoch))
          secocDomTxSelf (some (epoch + 1)) :=
    rfl
  rw [DurableMap.arm, slots, Function.update_idem]

/-- That boot made the next epoch durable. -/
theorem gatewayBootedOn_slot
    (epoch : UInt16) :
    (gatewayBootedOn epoch).store.slot secocDomTxSelf = some (epoch + 1) := by
  have slots := congrArg DurableMap.slot (gatewayBootedOn_store epoch)
  rw [DurableMap.arm_slot] at slots
  rw [slots]
  dsimp only
  rw [Function.update_self]

section Boots

variable (cmac : UInt32 → List UInt8 → FullTag)

/-- The first boot of the gateway: a cold store counts as epoch 0. -/
theorem networkStep_boot_cold :
    networkStep cmac .cold (.boot .gateway .ok []) =
      (Network.cold.setNode .gateway (gatewayBootedOn 0),
        [.booted .gateway]) := by
  have slots :
      (gatewayBootedOn 0).store.slot =
        Function.update (fun _ => none) secocDomTxSelf (some 1) :=
    congrArg DurableMap.slot (gatewayBootedOn_store 0)
  have same :
      gatewayBootedOn 0 =
        ⟨(gatewayBootedOn 0).app,
          { (gatewayBootedOn 0).store with
            slot :=
              Function.update (fun _ => none) secocDomTxSelf (some 1) }⟩ := by
    rw [← slots]
  rw [same]
  rfl

/-- One more boot of the gateway. -/
theorem networkStep_boot_again
    (epoch : UInt16) :
    networkStep cmac
        (Network.cold.setNode .gateway (gatewayBootedOn epoch))
        (.boot .gateway .ok []) =
      (Network.cold.setNode .gateway (gatewayBootedOn (epoch + 1)),
        [.booted .gateway]) := by
  simp only [networkStep, setNode_node_same, gatewayBootedOn_store]
  simp only [Network.setNode, Function.update_idem]
  rfl

/-- The gateway boots until its epoch is `n + 1`. -/
theorem gateway_boots
    (n : Nat)
    (small : n < 65535) :
    let boots := List.replicate (n + 1) (NetAction.boot .gateway .ok [])
    Machine.Leads (networkStep cmac) .cold boots
        (Network.cold.setNode .gateway (gatewayBootedOn (UInt16.ofNat n)))
        (List.replicate (n + 1) (.booted .gateway)) ∧
      Machine.Allowed (networkStep cmac)
        (fun net action => IdealMac cmac net action ∧ NoEpochWrap net action)
        .cold boots := by
  induction n with
  | zero =>
      refine
        ⟨Machine.Leads.cons (networkStep_boot_cold cmac) ⟨rfl, rfl⟩,
          ⟨trivial, ?_⟩, trivial⟩
      intro _ full
      cases full
  | succ n inductionHypothesis =>
      rcases inductionHypothesis (by omega) with ⟨leads, allowed⟩
      have next : UInt16.ofNat (n + 1) = UInt16.ofNat n + 1 :=
        UInt16.ofNat_add n 1
      have boots :
          List.replicate (n + 1 + 1) (NetAction.boot .gateway .ok []) =
            List.replicate (n + 1) (.boot .gateway .ok []) ++
              [.boot .gateway .ok []] :=
        List.replicate_succ'
      have booted :
          List.replicate (n + 1 + 1) (NetEvent.booted .gateway) =
            List.replicate (n + 1) (.booted .gateway) ++ [.booted .gateway] :=
        List.replicate_succ'
      rw [boots, booted, next]
      refine
        ⟨leads.append
            (Machine.Leads.cons (networkStep_boot_again cmac _) ⟨rfl, rfl⟩),
          Machine.allowed_append.mpr ⟨allowed, ⟨trivial, ?_⟩, trivial⟩⟩
      rw [leads.1]
      intro _ full
      rw [setNode_node_same, gatewayBootedOn_slot, ← next] at full
      have numbers := congrArg UInt16.toNat (Option.some.inj full)
      have fits : n + 1 < 65536 := by omega
      rw [UInt16.toNat_ofNat_of_lt' fits] at numbers
      have isMax : n + 1 = 65535 := numbers
      omega

end Boots

/-- The unlock command as the gateway sends it first in epoch 0xFFFF. -/
def unlockAtMaxEpoch : CanRawFrame where
  id := 0x120
  flags := canFlagFdf
  data := [1, 0xFF, 0xFF, 1, 0, 0x20, 0x01, 0xFF, 0xFF, 1, 0, 1, 0]
  fits := by decide

/-- The gateway reaches epoch 0xFFFF; its one command is recorded and repeated. -/
def repeatedCommand : List NetAction :=
  [.build (.doorCmd false) true [], .boot .actuator .ok [],
    .deliver .actuator unlockAtMaxEpoch true [], .powerLoss .actuator,
    .boot .actuator .ok [], .deliver .actuator unlockAtMaxEpoch true []]

/-- A recorded command the actuator carries out again after its reboot. -/
theorem actuator_repeats_command_at_max_epoch :
    let actions :=
      List.replicate 65535 (NetAction.boot .gateway .ok []) ++ repeatedCommand
    let trace := Machine.trace (networkStep paddedMac) .cold actions
    Machine.Allowed (networkStep paddedMac)
        (fun net action =>
          IdealMac paddedMac net action ∧ NoEpochWrap net action)
        .cold actions ∧
      ¬ (handedMessages .actuator msgIdDoorCmd trace).Sublist
        (builtMessages msgIdDoorCmd trace) := by
  intro actions trace
  rcases gateway_boots paddedMac 65534 (by decide) with ⟨leads, allowed⟩
  have isEpoch : UInt16.ofNat 65534 = 65534 := rfl
  rw [isEpoch] at leads
  have later :
      Machine.Allowed (networkStep paddedMac)
        (fun net action =>
          IdealMac paddedMac net action ∧ NoEpochWrap net action)
        (Network.cold.setNode .gateway (gatewayBootedOn 65534))
        repeatedCommand := by
    decide
  have shown :
      Machine.trace (networkStep paddedMac)
          (Network.cold.setNode .gateway (gatewayBootedOn 65534))
          repeatedCommand =
        [.built (.doorCmd false) ⟨⟨msgIdDoorCmd, 0xFFFF, 1⟩, [1]⟩,
          .booted .actuator,
          .accepted .actuator ⟨⟨msgIdDoorCmd, 0xFFFF, 1⟩, [1]⟩,
          .handedOn .actuator msgIdDoorCmd (.doorCmd .unlock),
          .booted .actuator,
          .accepted .actuator ⟨⟨msgIdDoorCmd, 0xFFFF, 1⟩, [1]⟩,
          .handedOn .actuator msgIdDoorCmd (.doorCmd .unlock)] := by
    decide
  constructor
  · rw [Machine.allowed_append, leads.1]
    exact ⟨allowed, later⟩
  · have split : trace = _ ++ _ := Machine.trace_append _ _ _ _
    rw [leads.1, leads.2, shown] at split
    rw [split, handedMessages_append, builtMessages_append,
      handedMessages_booted, builtMessages_booted]
    decide

/--
In every run in which the MAC is ideal, no sender epoch wraps and the actuator
never boots on the durable peer epoch 0xFFFF, the actuator hands on, for each
command ID, a subsequence of the commands the gateway built for that ID: in
their order and none of them twice.
-/
theorem actuation_authentic
    (cmac : UInt32 → List UInt8 → FullTag)
    (stores : Side → FreshnessStore)
    (actions : List NetAction)
    (ideal :
      Machine.Allowed (networkStep cmac) (IdealMac cmac)
        (.unpowered stores) actions)
    (noEpochWrap :
      Machine.Allowed (networkStep cmac) NoEpochWrap
        (.unpowered stores) actions)
    (noFloorWrap :
      Machine.Allowed (networkStep cmac) (NoPeerFloorWrap .actuator)
        (.unpowered stores) actions)
    (canId : UInt16)
    (command : canId = msgIdDoorCmd ∨ canId = msgIdLightCmd) :
    let trace := Machine.trace (networkStep cmac) (.unpowered stores) actions
    (handedMessages .actuator canId trace).Sublist
      (builtMessages canId trace) := by
  intro trace
  have start :
      NetInv (.unpowered stores) [] ∧
        SideReceives .actuator (.unpowered stores) [] :=
    ⟨.start stores, .start secocDomRxPeer (stores .actuator)⟩
  have preserved :
      ∀ net history action,
        NetInv net history ∧ SideReceives .actuator net history →
        (IdealMac cmac net action ∧ NoEpochWrap net action) ∧
          NoPeerFloorWrap .actuator net action →
        NetInv (networkStep cmac net action).1
            (history ++ (networkStep cmac net action).2) ∧
          SideReceives .actuator (networkStep cmac net action).1
            (history ++ (networkStep cmac net action).2) := by
    rintro net history action ⟨inv, receives⟩ ⟨⟨isIdeal, noWrap⟩, noFloor⟩
    exact
      ⟨inv.step action isIdeal noWrap, receives.step action inv noFloor⟩
  have inv :=
    Machine.invariant_of_start preserved start
      ((ideal.and noEpochWrap).and noFloorWrap)
  exact inv.1.handed_sublist_built inv.2 (command_side command)

/-- A door command as the gateway sends it; its tag covers the ID and the value. -/
def doorFrame
    (id : UInt32)
    (cmd epoch counter : UInt8)
    (padding : Fin 8) :
    CanRawFrame where
  id := id
  flags := canFlagFdf
  data :=
    [cmd, epoch, 0, counter, 0, 0x20, 0x01, epoch, 0, counter, 0, cmd, 0] ++
      List.replicate padding 0xAA
  fits := by
    rw [List.length_append, List.length_replicate]
    exact (Nat.add_le_add_left padding.isLt.le 13).trans (by decide)

/-- Three commands, captured, re-labelled, padded, replayed and delayed. -/
def attackedCommands : List NetAction :=
  [.boot .gateway .ok [], .boot .actuator .ok [],
    .build (.doorCmd false) true [], .build (.doorCmd true) true [],
    .deliver .actuator (doorFrame 0x121 0 1 2 0) true [],
    .deliver .actuator (doorFrame 0x120 1 1 1 3) true [.failedOld],
    .deliver .actuator (doorFrame 0x120 1 1 1 3) true [],
    .deliver .actuator (doorFrame 0x120 0 1 2 0) true [],
    .deliver .actuator (doorFrame 0x120 1 1 1 0) true [],
    .powerLoss .actuator, .boot .actuator .ok [],
    .deliver .actuator (doorFrame 0x120 0 1 2 0) true [],
    .boot .gateway .ok [], .build (.doorCmd false) true [],
    .deliver .actuator (doorFrame 0x120 1 2 1 0) true []]

/-- All three commands arrive once and in order, whatever the attacker does. -/
theorem actuation_authentic_under_attack :
    let trace := Machine.trace (networkStep paddedMac) .cold attackedCommands
    handedMessages .actuator msgIdDoorCmd trace =
        [.doorCmd .unlock, .doorCmd .lock, .doorCmd .unlock] ∧
      (handedMessages .actuator msgIdDoorCmd trace).Sublist
        (builtMessages msgIdDoorCmd trace) :=
  ⟨by decide,
    actuation_authentic paddedMac _ attackedCommands (by decide) (by decide)
      (by decide) msgIdDoorCmd (Or.inl rfl)⟩

end TraveoBodyDomain
