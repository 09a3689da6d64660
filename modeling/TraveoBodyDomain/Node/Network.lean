import Mathlib.Tactic.Common
import Mathlib.Logic.Function.Basic
import TraveoBodyDomain.Lib.Machine
import TraveoBodyDomain.Node.App
import TraveoBodyDomain.Secoc.Sender

/-!
# The two nodes on a hostile bus

A network is the two nodes and the MAC inputs their senders had tagged.  An
action boots a node, takes its power, lets it build a frame, or delivers it any
frame at all: what the bus or an attacker drops, repeats, reorders, re-labels,
pads or reflects is a choice of which frames are delivered when.
-/

namespace TraveoBodyDomain

/-- The two nodes. -/
inductive Side where
  | gateway
  | actuator
  deriving Repr, DecidableEq

/-- The other node. -/
def Side.peer : Side → Side
  | .gateway => .actuator
  | .actuator => .gateway

/-- The IDs of a node's glue. -/
def Side.config : Side → AppConfig
  | .gateway => NodeA.config
  | .actuator => NodeB.config

/-- A node: the static state of its glue and its freshness store. -/
structure Node where
  app : SecocApp
  store : FreshnessStore

/-- The secured content of a frame, padding dropped. -/
structure SecuredRecord where
  value : FreshValue
  pdu : List UInt8
  deriving Repr, DecidableEq

/-- What a frame carries under the PDU length configured for its ID. -/
def recordOf (f : CanRawFrame) : SecuredRecord :=
  let canId := f.id.toUInt16
  let pduLen := bodyMsgPduLen canId.toUInt32
  { value :=
      { canId := canId
        epoch := getU16le (f.data.drop pduLen)
        counter := getU16le (f.data.drop (pduLen + 2)) }
    pdu := f.data.take pduLen }

/-- The MAC input of a record. -/
def SecuredRecord.macInput (record : SecuredRecord) : List UInt8 :=
  buildMacInput record.value.canId
    (freshnessField record.value.epoch record.value.counter) record.pdu

/-- What the application asks a node to send. -/
inductive Request where
  | doorCmd (locked : Bool)
  | lightCmd (brightnessPct : UInt8)
  | telemetry (rpt : SensorReportMsg)
  | bootSync (side : Side)
  deriving Repr, DecidableEq

namespace Request

/-- The node asked. -/
def side : Request → Side
  | .doorCmd _ => .gateway
  | .lightCmd _ => .gateway
  | .telemetry _ => .actuator
  | .bootSync side => side

/-- The CAN ID of the frame asked for. -/
def canId : Request → UInt16
  | .doorCmd _ => msgIdDoorCmd
  | .lightCmd _ => msgIdLightCmd
  | .telemetry _ => msgIdSensorRpt
  | .bootSync side => side.config.bootSyncId

/-- The message asked for, unless it is a boot sync. -/
def message : Request → Option BodyMsg
  | .doorCmd locked => some (.doorCmd (if locked then .lock else .unlock))
  | .lightCmd brightnessPct => some (.lightCmd ⟨brightnessPct⟩)
  | .telemetry rpt => some (.sensorReport rpt)
  | .bootSync _ => none

/-- The PDU the builder packs, unless it refuses the message. -/
def pdu (app : SecocApp) : Request → Option (List UInt8)
  | .doorCmd locked =>
      some [(if locked then DoorCmd.lock else DoorCmd.unlock).toByte]
  | .lightCmd brightnessPct => packLightCmd ⟨brightnessPct⟩ 1
  | .telemetry rpt => packSensorReport rpt 8
  | .bootSync _ => some (putU16le app.gRx.floor)

/-- The builder of the node asked. -/
def build
    {Store : Type}
    (port : FreshnessStoreIf Store)
    (mac : SecocMac)
    (app : SecocApp)
    (store : Store) :
    Request → Option CanRawFrame × SecocApp × Store
  | .doorCmd locked => NodeA.secocAppBuildDoorCmd port mac app locked store
  | .lightCmd brightnessPct =>
      NodeA.secocAppBuildLightCmd port mac app brightnessPct store
  | .telemetry rpt => NodeB.secocAppBuildTelemetry port mac app rpt store
  | .bootSync .gateway => NodeA.secocAppBuildBootSync port mac app store
  | .bootSync .actuator => NodeB.secocAppBuildBootSync port mac app store

/-- Every builder packs, and secures what it packed under its own ID. -/
theorem build_eq
    {Store : Type}
    (port : FreshnessStoreIf Store)
    (mac : SecocMac)
    (app : SecocApp)
    (store : Store)
    (request : Request) :
    request.build port mac app store =
      match request.pdu app with
      | none => (none, app, store)
      | some pdu => buildSecured port mac app request.canId pdu store := by
  cases request with
  | doorCmd locked =>
      rfl
  | lightCmd brightnessPct =>
      rfl
  | telemetry rpt =>
      rfl
  | bootSync side =>
      cases side <;> rfl

/-- A packed PDU has the configured length and decodes to the message asked. -/
theorem pdu_spec
    {app : SecocApp}
    {request : Request}
    {pdu : List UInt8}
    (packed : request.pdu app = some pdu) :
    pdu.length = bodyMsgPduLen request.canId.toUInt32 ∧
      bodyDecode request.canId.toUInt32 pdu = request.message := by
  cases request with
  | doorCmd locked =>
      cases packed
      exact ⟨rfl, bodyDecode_door _⟩
  | lightCmd brightnessPct =>
      exact ⟨length_packLightCmd packed, bodyDecode_light packed⟩
  | telemetry rpt =>
      exact ⟨length_packSensorReport packed, bodyDecode_sensor packed⟩
  | bootSync side =>
      cases packed
      cases side <;> exact ⟨rfl, rfl⟩

/-- Each ID is one node's to send. -/
theorem side_eq
    (request : Request) :
    request.side =
      if request.canId ∈ NodeB.config.txIds then .actuator else .gateway := by
  cases request with
  | doorCmd locked =>
      rfl
  | lightCmd brightnessPct =>
      rfl
  | telemetry rpt =>
      rfl
  | bootSync side =>
      cases side <;> rfl

/-- What a node listens to is its peer's to send. -/
theorem side_of_rxIds
    {side : Side}
    {request : Request}
    (heard : request.canId ∈ side.config.rxIds) :
    request.side = side.peer := by
  rw [side_eq]
  generalize request.canId = canId at heard
  cases side <;>
    simp only [Side.config, NodeA.config, NodeB.config, List.mem_cons,
      List.not_mem_nil, or_false] at heard
  · rcases heard with rfl | rfl <;> rfl
  · rcases heard with rfl | rfl | rfl <;> rfl

/-- The ID of a boot sync carries nothing else. -/
theorem eq_bootSync
    {side : Side}
    {request : Request}
    (onId : request.canId = side.config.bootSyncId) :
    request = .bootSync side := by
  have otherIds :
      ∀ side : Side,
        msgIdDoorCmd ≠ side.config.bootSyncId ∧
          msgIdLightCmd ≠ side.config.bootSyncId ∧
          msgIdSensorRpt ≠ side.config.bootSyncId := by
    intro side
    cases side <;> decide
  obtain ⟨notDoor, notLight, notSensor⟩ := otherIds side
  cases request with
  | doorCmd locked =>
      exact (notDoor onId).elim
  | lightCmd brightnessPct =>
      exact (notLight onId).elim
  | telemetry rpt =>
      exact (notSensor onId).elim
  | bootSync other =>
      cases side <;> cases other
      · rfl
      · exact absurd onId (by decide)
      · exact absurd onId (by decide)
      · rfl

end Request

/-- The receive dispatch of a node's CAN task. -/
def Side.receive
    {Store : Type}
    (port : FreshnessStoreIf Store)
    (mac : SecocMac)
    (app : SecocApp)
    (f : CanRawFrame)
    (store : Store) :
    Side → Except Fault (Handled Store)
  | .gateway => NodeA.canTaskReceive port mac app f store
  | .actuator => NodeB.canTaskReceive port mac app f store

/-- The frames a node's CAN task hands to SecOC. -/
def Side.listens (side : Side) (f : CanRawFrame) : Prop :=
  ∃ canId ∈ side.config.rxIds, f.id = canId.toUInt32

instance (side : Side) (f : CanRawFrame) : Decidable (side.listens f) :=
  inferInstanceAs (Decidable (∃ canId ∈ side.config.rxIds, _))

/-- The network, with the key and input of every tag made for a sender. -/
structure Network where
  node : Side → Node
  tagged : List (UInt32 × List UInt8)

/-- Both nodes without power, whatever their stores hold; nothing tagged yet. -/
def Network.unpowered (stores : Side → FreshnessStore) : Network where
  node := fun side => ⟨.reset, stores side⟩
  tagged := []

/-- Both nodes without power, nothing ever committed. -/
def Network.cold : Network :=
  .unpowered fun _ => .blank

/-- Replace one node. -/
def Network.setNode
    (net : Network)
    (side : Side)
    (node : Node) :
    Network :=
  { net with node := Function.update net.node side node }

/-- One choice of the environment. -/
inductive NetAction where
  | powerLoss (side : Side)
  | boot
      (side : Side)
      (status : SecocStoreStatus)
      (outcomes : List CommitOutcome)
  | build
      (request : Request)
      (macUp : Bool)
      (outcomes : List CommitOutcome)
  | deliver
      (side : Side)
      (f : CanRawFrame)
      (macUp : Bool)
      (outcomes : List CommitOutcome)
  deriving Repr, DecidableEq

/-- What an observer of the network sees. -/
inductive NetEvent where
  | booted (side : Side)
  | built (request : Request) (record : SecuredRecord)
  | accepted (side : Side) (record : SecuredRecord)
  | handedOn (side : Side) (canId : UInt16) (msg : BodyMsg)
  | adopted (side : Side) (record : SecuredRecord)
  | faulted (side : Side)
  deriving Repr, DecidableEq

/-- A CMAC that tells the inputs of short frames apart: their bytes, padded. -/
def paddedMac (_ : UInt32) (msg : List UInt8) : FullTag :=
  Vector.ofFn fun i => msg.getD i 0

section Step

variable (cmac : UInt32 → List UInt8 → FullTag)

/-- The oracle of a call: the CMAC, or no tag when the M0+ does not answer. -/
def oracle (up : Bool) : SecocMac :=
  fun keyId msg => if up then some (cmac keyId msg) else none

/-- The acceptance a delivery causes, seen from outside. -/
def acceptance
    (mac : SecocMac)
    (side : Side)
    (app : SecocApp)
    (f : CanRawFrame)
    (store : FreshnessStore) :
    List NetEvent :=
  if
    side.listens f ∧
      (rxProcess durablePort mac app f store).verdict = .accept
  then
    [.accepted side (recordOf f)]
  else
    []

/-- What a handled frame shows besides its acceptance. -/
def handledEvents
    (side : Side)
    (f : CanRawFrame)
    (handled : Handled FreshnessStore) :
    List NetEvent :=
  handled.handedOn.toList.map (.handedOn side f.id.toUInt16) ++
    if handled.log.any (·.evt == .secocResync) then
      [.adopted side (recordOf f)]
    else
      []

/--
One step of the network.  A boot starts from RAM as reset leaves it; a fault
stops the node, with what its store already committed.
-/
def networkStep : Machine.Step Network NetAction NetEvent
  | net, .powerLoss side =>
      (net.setNode side ⟨.reset, (net.node side).store⟩, [])
  | net, .boot side status outcomes =>
      let (app, store) :=
        secocAppInit side.config durablePort status .reset
          ((net.node side).store.arm outcomes)
      (net.setNode side ⟨app, store⟩, [.booted side])
  | net, .build request macUp outcomes =>
      let node := net.node request.side
      match
        request.build durablePort (oracle cmac macUp) node.app
          (node.store.arm outcomes)
      with
      | (none, app, store) => (net.setNode request.side ⟨app, store⟩, [])
      | (some f, app, store) =>
          ({ net.setNode request.side ⟨app, store⟩ with
              tagged :=
                net.tagged ++ [(secocMacKeyId, (recordOf f).macInput)] },
            [.built request (recordOf f)])
  | net, .deliver side f macUp outcomes =>
      let node := net.node side
      let mac := oracle cmac macUp
      let store := node.store.arm outcomes
      let accepted := acceptance mac side node.app f store
      match side.receive durablePort mac node.app f store with
      | .error _ =>
          (net.setNode side
              ⟨.reset, (rxProcess durablePort mac node.app f store).store⟩,
            accepted ++ [.faulted side])
      | .ok handled =>
          (net.setNode side ⟨handled.app, handled.store⟩,
            accepted ++ handledEvents side f handled)

/-- What verifies under `canId` has a MAC input that was tagged. -/
def TaggedIfVerified
    (tagged : List (UInt32 × List UInt8))
    (canId : UInt16) :
    Except SecocVerifyFailure Verified → Prop
  | .error _ => True
  | .ok verified =>
      (secocMacKeyId,
        buildMacInput canId
          (freshnessField verified.epoch verified.counter)
          verified.pdu) ∈ tagged

/-- The MAC is ideal: a delivered tag verifies only for an input tagged before. -/
def IdealMac : Network → NetAction → Prop
  | net, .deliver _ f _ _ =>
      TaggedIfVerified net.tagged f.id.toUInt16
        (rxVerify (oracle cmac true) (some bodyMsgPduLen) gCy f.id.toUInt16
          f.data canMaxDlen)
  | _, _ => True

/-- No sender epoch is bumped from 0xFFFF, by a boot or by a rollover. -/
def NoEpochWrap : Network → NetAction → Prop
  | net, .boot side status outcomes =>
      status ≠ .broken →
        (net.node side).store.slot secocDomTxSelf = some 0xFFFF →
        ((net.node side).store.arm outcomes).nextOutcome = .failedOld
  | net, .build request _ outcomes =>
      let node := net.node request.side
      (request.pdu node.app).isSome = true →
        rolloverDue node.app.tx request.canId = true →
        node.app.tx.epoch = 0xFFFF →
        (node.store.arm outcomes).nextOutcome = .failedOld
  | _, _ => True

instance TaggedIfVerified.decidable
    (tagged : List (UInt32 × List UInt8))
    (canId : UInt16) :
    ∀ result, Decidable (TaggedIfVerified tagged canId result)
  | .error _ => inferInstanceAs (Decidable True)
  | .ok _ => inferInstanceAs (Decidable (_ ∈ _))

instance IdealMac.decidable :
    ∀ net action, Decidable (IdealMac cmac net action)
  | _, .powerLoss _ => inferInstanceAs (Decidable True)
  | _, .boot _ _ _ => inferInstanceAs (Decidable True)
  | _, .build _ _ _ => inferInstanceAs (Decidable True)
  | _, .deliver _ _ _ _ =>
      inferInstanceAs (Decidable (TaggedIfVerified _ _ _))

instance NoEpochWrap.decidable :
    ∀ net action, Decidable (NoEpochWrap net action)
  | _, .powerLoss _ => inferInstanceAs (Decidable True)
  | _, .boot _ _ _ => inferInstanceAs (Decidable (_ → _))
  | _, .build _ _ _ => inferInstanceAs (Decidable (_ → _))
  | _, .deliver _ _ _ _ => inferInstanceAs (Decidable True)

end Step

end TraveoBodyDomain
