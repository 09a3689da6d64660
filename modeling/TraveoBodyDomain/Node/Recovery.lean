import Mathlib.Tactic.Common
import TraveoBodyDomain.Node.Adoption

/-!
# A boot sync recovers a silenced direction

When a receiver's floor is ahead of its peer's epoch, its next boot sync gets
through, since the peer's own floor is then not ahead; the peer adopts the
floor and its next frame passes.  Every other sync leaves the epochs alone.
-/

namespace TraveoBodyDomain

/-- The receiver keeps no epoch past its peer's sender epoch. -/
def HeardBounded (receiver sender : Node) : Prop :=
  receiver.app.gRx.current ≤ sender.app.tx.epoch ∧
    persistedEpoch receiver.store secocDomRxPeer ≤ sender.app.tx.epoch

/-- The receiver refuses whatever the sender sends at its present epoch. -/
def Ahead (receiver sender : Node) : Prop :=
  sender.app.tx.epoch < receiver.app.gRx.floor

instance (receiver sender : Node) : Decidable (Ahead receiver sender) :=
  inferInstanceAs (Decidable (_ < _))

section Statements

variable (cmac : UInt32 → List UInt8 → FullTag)

/-- The frame `side` builds for `request` in `net`, unless it refuses. -/
def frameBuilt
    (net : Network)
    (request : Request)
    (up : Bool)
    (outcomes : List CommitOutcome) :
    Option CanRawFrame :=
  let node := net.node request.side
  (request.build durablePort (oracle cmac up) node.app
    (node.store.arm outcomes)).1

/--
A sync `side` builds now is accepted when delivered next to a peer whose M0+
and commits work, and the peer's next frame then passes the check of `side`.
-/
def SyncRecovers (net : Network) (side : Side) : Prop :=
  ∀ up outcomes sync syncOutcomes,
    NoEpochWrap net (.build (.bootSync side) up outcomes) →
      frameBuilt cmac net (.bootSync side) up outcomes = some sync →
        (∀ outcome ∈ syncOutcomes, outcome = .acknowledged) →
          let built :=
            (networkStep cmac net (.build (.bootSync side) up outcomes)).1
          let delivered :=
            networkStep cmac built (.deliver side.peer sync true syncOutcomes)
          .accepted side.peer (recordOf sync) ∈ delivered.2 ∧
            ∀ request up outcomes next,
              request.side = side.peer →
                frameBuilt cmac delivered.1 request up outcomes = some next →
                  secocRxCheck (delivered.1.node side).app.gRx
                    (recordOf next).value.canId (recordOf next).value.epoch
                    (recordOf next).value.counter = .ok

/-- A sync that `side` accepted, or one before it, moves no sender epoch. -/
def OldSyncsInert
    (net : Network)
    (history : List NetEvent)
    (side : Side) : Prop :=
  ∀ taken sync up outcomes,
    .accepted side taken ∈ history →
      sync.id = side.peer.config.bootSyncId.toUInt32 →
        (recordOf sync).value.canId = taken.value.canId →
          ¬ taken.before (recordOf sync) →
            IdealMac cmac net (.deliver side sync up outcomes) →
              ∀ node,
                ((networkStep cmac net (.deliver side sync up outcomes)).1.node
                    node).app.tx.epoch =
                  (net.node node).app.tx.epoch

/-- The syncs of one boot of `side` make its peer adopt a floor at most once. -/
def OneAdoptionPerBoot
    (history : List NetEvent)
    (side : Side) : Prop :=
  ∀ boot,
    ((adoptedRecords side.peer history).filter fun record =>
      (boot, record) ∈ syncBoots side 0 history).length ≤ 1

end Statements

/-!
## Bounds
-/

/-- A receiver is behind its peer while the peer is up. -/
theorem ResyncInv.heardBounded
    {net : Network}
    {history : List NetEvent}
    {side : Side}
    (inv : ResyncInv net history)
    (peerUp : (net.node side.peer).Up) :
    HeardBounded (net.node side) (net.node side.peer) := by
  have heard := inv.heard side
  have sender := (inv.base.nodes side.peer).sender
  exact
    ⟨heard.ctx.current.le_epoch sender peerUp,
      heard.persisted.le_epoch sender peerUp⟩

/-- One boot, one floor, one adoption. -/
theorem AdoptionInv.oneAdoptionPerBoot
    {net : Network}
    {history : List NetEvent}
    (inv : AdoptionInv net history)
    (side : Side) :
    OneAdoptionPerBoot history side := by
  intro boot
  have increasing :=
    (inv.increasing side.peer).filter
      fun record => decide ((boot, record) ∈ syncBoots side 0 history)
  cases listed :
      (adoptedRecords side.peer history).filter fun record =>
        decide ((boot, record) ∈ syncBoots side 0 history) with
  | nil =>
      exact Nat.zero_le 1
  | cons first rest =>
      cases rest with
      | nil =>
          exact Nat.le_refl 1
      | cons second rest =>
          rw [listed, List.pairwise_cons] at increasing
          have later := increasing.1 second (List.mem_cons_self ..)
          have ofBoot :
              ∀ record ∈ first :: second :: rest,
                (boot, record) ∈ syncBoots side 0 history := by
            intro record member
            rw [← listed] at member
            exact of_decide_eq_true (List.mem_filter.mp member).2
          have same :=
            (inv.bootFloors side).same boot first second
              (ofBoot first (by simp)) (ofBoot second (by simp))
          rw [same] at later
          exact absurd later (UInt16.lt_irrefl _)

/-- A sync already passed by moves no sender epoch. -/
theorem ResyncInv.oldSyncsInert
    {cmac : UInt32 → List UInt8 → FullTag}
    {net : Network}
    {history : List NetEvent}
    {side : Side}
    (inv : ResyncInv net history)
    (up : (net.node side).Up) :
    OldSyncsInert cmac net history side := by
  intro taken sync macUp outcomes accepted isSync sameId notAfter ideal other
  by_cases listens : side.listens sync
  · obtain ⟨registered, -, configured⟩ := Side.listens_id listens
    obtain ⟨result, nodeAfter, events, processed, ran, did⟩ :=
      networkStep_deliver macUp listens
    rw [ran]
    have node := inv.base.nodes side
    rcases Side.eq_or_peer side other with rfl | rfl
    · simp only [setNode_node_same]
      rcases did with ⟨-, -, down, -⟩ | ⟨handled, spec, rfl, -⟩
      · unfold Node.Up at up
        rw [up] at down
        cases down
      · rcases spec.adoption with ⟨sameTx, -⟩ | ⟨isAccept, -, moved, adopted, -⟩
        · rw [sameTx]
        · obtain ⟨heard⟩ :=
            rxProcess_accept processed node.rxBound configured isAccept
          obtain ⟨request, built⟩ :=
            inv.base.built_of_verified ideal heard.verifies
          have onId := (inv.base.builtFor request _ built).1
          have isBootSync : request = .bootSync other.peer := by
            apply Request.eq_bootSync
            rw [← onId, recordOf, isSync, UInt16.toUInt16_toUInt32]
          rw [isBootSync] at built
          rcases
              inv.takenSyncs other up taken _ accepted built sameId notAfter with
            holds | behind
          · have isOwn : (net.node other).app.gRx = heard.fresh := by
              rw [SecocApp.gRx, heard.freshSet]
              rfl
            rw [isOwn] at holds
            exact (holds.refused heard.passes).elim
          · rw [heard.releasedPdu] at adopted
            rcases secocTxAdoptFloor_cases adopted with
                ⟨-, sameTx, -⟩ | ⟨-, above, -⟩
            · exact congrArg SecocTxCtx.epoch sameTx
            · exact absurd above (UInt16.not_lt.mpr behind)
    · rw [setNode_node_other net nodeAfter side.peer_ne]
  · rw [networkStep_deliver_other macUp listens]
    rcases Side.eq_or_peer side other with rfl | rfl
    · simp only [setNode_node_same]
    · rw [setNode_node_other net _ side.peer_ne]

/-!
## The sync that gets through
-/

/-- The peer of a node listens to every ID the node sends. -/
theorem Side.sends_heard
    (request : Request) :
    request.canId ∈ request.side.peer.config.rxIds := by
  cases request with
  | doorCmd locked =>
      exact .head _
  | lightCmd brightnessPct =>
      exact .tail _ (.head _)
  | telemetry rpt =>
      exact .head _
  | bootSync side =>
      cases side <;> decide

namespace ResyncInv

variable {cmac : UInt32 → List UInt8 → FullTag}
  {net : Network}
  {history : List NetEvent}
  {side : Side}

/-- What a node issues next passes at a peer whose floor is not ahead of it. -/
theorem next_passes
    {outcomes : List CommitOutcome}
    {epoch counter : UInt16}
    {tx : SecocTxCtx}
    {store : FreshnessStore}
    (inv : ResyncInv net history)
    (request : Request)
    (up : (net.node request.side).Up)
    (bound : (net.node request.side.peer).app.gRx.storeSet = true)
    (notAhead : ¬ Ahead (net.node request.side.peer) (net.node request.side))
    (noWrap :
      rolloverDue (net.node request.side).app.tx request.canId = true →
        (net.node request.side).app.tx.epoch = 0xFFFF →
        ((net.node request.side).store.arm outcomes).nextOutcome =
          .failedOld)
    (issues :
      secocTxNext durablePort (net.node request.side).app.tx request.canId
          ((net.node request.side).store.arm outcomes) =
        (some (epoch, counter), tx, store)) :
    secocRxCheck (net.node request.side.peer).app.gRx request.canId epoch
      counter = .ok := by
  have heard := inv.heard request.side.peer
  rw [Side.peer_peer] at heard
  have sender := (inv.base.nodes request.side).sender
  have epochs := secocTxNext_epoch_le noWrap issues
  obtain ⟨slot, found⟩ : ∃ slot,
      findSlot (net.node request.side.peer).app.gRx.ids request.canId =
        some slot := by
    rw [heard.rxIds bound]
    exact findSlot_of_mem (Side.sends_heard request)
  have floorBehind :
      (net.node request.side.peer).app.gRx.floor ≤
        (net.node request.side).app.tx.epoch :=
    UInt16.not_lt.mp notAhead
  have currentBehind := heard.ctx.current.le_epoch sender up
  refine secocRxCheck_ok.mpr ⟨slot, found, ?_⟩
  rcases secocTxNext_cases issues with
      ⟨isNone, -⟩ | ⟨idx, issuing, ⟨-, -, isIssued, rfl⟩ | ⟨room, -, isIssued, -⟩⟩
  · cases isNone
  · cases isIssued
    simp only [SecocTxCtx.setCounter_epoch, SecocTxCtx.restart_epoch] at epochs
    exact ⟨UInt16.le_trans floorBehind epochs, Or.inl (by grind)⟩
  · cases isIssued
    refine ⟨floorBehind, ?_⟩
    by_cases atCurrent :
        (net.node request.side).app.tx.epoch =
          (net.node request.side.peer).app.gRx.current
    · refine Or.inr ⟨atCurrent, ?_⟩
      rcases heard.ctx.high request.canId slot found with cold | spent
      · rw [cold]
        grind
      · have behind :=
          sender.countersAhead up _ spent atCurrent.symm idx issuing
        simp only at behind
        grind
    · left
      grind

/-- A frame that was built, with the value issued for it and the step taken. -/
theorem frameBuilt_spec
    {request : Request}
    {up : Bool}
    {outcomes : List CommitOutcome}
    {f : CanRawFrame}
    (built : frameBuilt cmac net request up outcomes = some f) :
    ∃ pdu epoch counter tx store,
      request.pdu (net.node request.side).app = some pdu ∧
        secocTxNext durablePort (net.node request.side).app.tx request.canId
            ((net.node request.side).store.arm outcomes) =
          (some (epoch, counter), tx, store) ∧
        f.id = request.canId.toUInt32 ∧
        recordOf f = ⟨⟨request.canId, epoch, counter⟩, pdu⟩ ∧
        rxVerify (oracle cmac true) (some bodyMsgPduLen) gCy f.id.toUInt16
            f.data canMaxDlen =
          .ok
            ⟨(recordOf f).value.epoch, (recordOf f).value.counter,
              (recordOf f).pdu⟩ ∧
        networkStep cmac net (.build request up outcomes) =
          ({ net.setNode request.side
                ⟨{ (net.node request.side).app with tx := tx }, store⟩ with
              tagged :=
                net.tagged ++ [(secocMacKeyId, (recordOf f).macInput)] },
            [.built request (recordOf f)]) := by
  unfold frameBuilt at built
  simp only [Request.build_eq] at built
  cases packed : request.pdu (net.node request.side).app with
  | none =>
      rw [packed] at built
      cases built
  | some pdu =>
      rw [packed] at built
      rcases ran :
          buildSecured durablePort (oracle cmac up)
            (net.node request.side).app request.canId pdu
            ((net.node request.side).store.arm outcomes) with
          ⟨frame, appAfter, storeAfter⟩
      simp only [ran] at built
      subst built
      have length := (Request.pdu_spec packed).1
      obtain ⟨issued, tx, issues, rfl, spec⟩ := buildSecured_spec length ran
      obtain ⟨epoch, counter, rfl, isId, isRecord⟩ := spec f rfl
      have configured : bodyMsgPduLen request.canId.toUInt32 ≠ 0 := by
        have listens : request.side.peer.listens f :=
          ⟨_, Side.sends_heard request, isId⟩
        have known := (Side.listens_id listens).2.2
        rw [isId, UInt16.toUInt16_toUInt32] at known
        exact known
      refine
        ⟨pdu, epoch, counter, tx, storeAfter, rfl, issues, isId, isRecord,
          buildSecured_verifies length configured ran, ?_⟩
      simp only [networkStep, Request.build_eq]
      rw [packed]
      simp only [ran]

/-- A live peer that hears a sync ahead of its epoch adopts the floor. -/
theorem sync_adopted
    {sync : CanRawFrame}
    {floor : UInt16}
    {outcomes : List CommitOutcome}
    (inv : ResyncInv net history)
    (up : (net.node side).Up)
    (isSync : sync.id = side.peer.config.bootSyncId.toUInt32)
    (carries : (recordOf sync).pdu = putU16le floor)
    (above : (net.node side).app.tx.epoch < floor)
    (reliable : ∀ outcome ∈ outcomes, outcome = .acknowledged)
    (verifies :
      rxVerify (oracle cmac true) (some bodyMsgPduLen) gCy sync.id.toUInt16
          sync.data canMaxDlen =
        .ok
          ⟨(recordOf sync).value.epoch, (recordOf sync).value.counter,
            (recordOf sync).pdu⟩)
    (passes :
      secocRxCheck (net.node side).app.gRx (recordOf sync).value.canId
        (recordOf sync).value.epoch (recordOf sync).value.counter = .ok) :
    ∃ app store events,
      networkStep cmac net (.deliver side sync true outcomes) =
          (net.setNode side ⟨app, store⟩, events) ∧
        app.tx = (net.node side).app.tx.restart floor ∧
        .accepted side (recordOf sync) ∈ events := by
  have heard := inv.heard side
  have node := inv.base.nodes side
  obtain ⟨cySet, lenSet, live⟩ := heard.wired up
  have listens : side.listens sync := by
    refine ⟨_, ?_, isSync⟩
    have sent := Side.sends_heard (.bootSync side.peer)
    rw [Request.side, Side.peer_peer] at sent
    exact sent
  have configured := (Side.listens_id listens).2.2
  cases freshSet : (net.node side).app.rx.fresh with
  | none =>
      simp [SecocApp.gRx, freshSet, SecocRxCtx.reset] at live
  | some fresh =>
      have isOwn : (net.node side).app.gRx = fresh := by
        simp [SecocApp.gRx, freshSet]
      rw [isOwn] at passes
      have armed :
          ((net.node side).store.arm outcomes).Reliable :=
        reliable
      obtain ⟨freshAfter, storeAfter, committed, stays⟩ :=
        secocRxAccept_reliable armed passes
      obtain ⟨accepted, sameStore⟩ :=
        rxProcess_accepts cySet lenSet freshSet verifies passes committed
      obtain ⟨result, nodeAfter, events, processed, ran, did⟩ :=
        networkStep_deliver true listens
      rw [processed] at accepted sameStore
      obtain ⟨hears⟩ :=
        rxProcess_accept processed node.rxBound configured accepted
      rcases did with ⟨-, -, down, -⟩ | ⟨handled, spec, rfl, rfl⟩
      · unfold Node.Up at up
        rw [up] at down
        cases down
      · refine ⟨handled.app, handled.store, _, ran, ?_, ?_⟩
        · rcases spec.adoption with
              ⟨-, -, -, notSync⟩ | ⟨-, -, moved, adopted, -⟩
          · refine absurd isSync (notSync accepted ?_)
            rw [hears.releasedPdu, carries, length_putU16le]
          · have sameFloor : getU16le (released result) = floor := by
              rw [hears.releasedPdu, carries]
              exact getU16le_putU16le floor []
            rw [sameFloor, sameStore] at adopted
            obtain ⟨last, moves⟩ :=
              secocTxAdoptFloor_reliable stays up above
            rw [moves] at adopted
            have same := Except.ok.inj adopted
            exact (congrArg (fun after => after.2.1) same).symm
        · rw [if_pos accepted]
          simp

/-- A sync ahead of the peer's epoch gets through and is adopted. -/
theorem syncRecovers
    (inv : ResyncInv net history)
    (up : (net.node side).Up)
    (peerUp : (net.node side.peer).Up)
    (ahead : Ahead (net.node side) (net.node side.peer)) :
    SyncRecovers cmac net side := by
  intro macUp outcomes sync syncOutcomes noWrap isBuilt reliable built delivered
  obtain ⟨pdu, epoch, counter, tx, store, packed, issues, isSync, isRecord,
    verifies, ran⟩ := frameBuilt_spec isBuilt
  have notAhead : ¬ Ahead (net.node side.peer) (net.node side) := by
    intro peerAhead
    rcases inv.apart side up peerUp with behind | behind
    · exact absurd ahead (UInt16.not_lt.mpr behind)
    · exact absurd peerAhead (UInt16.not_lt.mpr behind)
  have passes :
      secocRxCheck (net.node side.peer).app.gRx (recordOf sync).value.canId
        (recordOf sync).value.epoch (recordOf sync).value.counter = .ok := by
    rw [isRecord]
    exact
      inv.next_passes (.bootSync side) up ((inv.heard _).wired peerUp).2.2
        notAhead
        (noWrap (by rw [packed]; rfl)) issues
  have invBuilt : ResyncInv built _ := inv.build noWrap
  have builtIs : built = _ := congrArg Prod.fst ran
  have peerKept : built.node side.peer = net.node side.peer := by
    rw [builtIs]
    exact setNode_node_other net _ side.peer_ne
  have sideKept :
      (built.node side).app.gRx = (net.node side).app.gRx ∧
        (built.node side).Up := by
    rw [builtIs]
    simp only [Network.setNode, Request.side, Function.update_self]
    exact ⟨rfl, (secocTxNext_storeSet issues).trans up⟩
  have carries : (recordOf sync).pdu = putU16le (net.node side).app.gRx.floor := by
    rw [isRecord]
    exact (Option.some.inj packed).symm
  have upBuilt : (built.node side.peer).Up := by
    rw [peerKept]
    exact peerUp
  rw [← Side.peer_peer side] at isSync
  obtain ⟨app, storeAfter, events, deliveredIs, adopted, accepted⟩ :=
    invBuilt.sync_adopted upBuilt isSync carries (by rw [peerKept]; exact ahead)
      reliable verifies (by rw [peerKept]; exact passes)
  have deliveredTo : delivered = _ := deliveredIs
  refine ⟨by rw [deliveredTo]; exact accepted, ?_⟩
  intro request nextUp nextOutcomes next isPeer nextBuilt
  have ideal :
      IdealMac cmac built (.deliver side.peer sync true syncOutcomes) := by
    simp only [IdealMac, verifies]
    rw [builtIs]
    exact List.mem_append_right _ (List.mem_singleton_self _)
  have invDelivered : ResyncInv delivered.1 _ := invBuilt.deliver ideal
  obtain ⟨nextPdu, nextEpoch, nextCounter, nextTx, nextStore, -, nextIssues,
    -, nextRecord, -, -⟩ := frameBuilt_spec nextBuilt
  have sender : delivered.1.node request.side = ⟨app, storeAfter⟩ := by
    rw [deliveredTo, isPeer]
    exact setNode_node_same ..
  have receiver :
      (delivered.1.node request.side.peer).app.gRx =
          (net.node side).app.gRx ∧
        (delivered.1.node request.side.peer).Up := by
    rw [deliveredTo, isPeer, Side.peer_peer]
    dsimp only
    rw [setNode_node_other built _ (Ne.symm side.peer_ne)]
    exact sideKept
  have senderUp : (delivered.1.node request.side).Up := by
    rw [sender]
    unfold Node.Up
    dsimp only
    rw [adopted]
    exact upBuilt
  have caughtUp :
      ¬ Ahead (delivered.1.node request.side.peer)
        (delivered.1.node request.side) := by
    unfold Ahead
    rw [receiver.1, sender]
    dsimp only
    rw [adopted]
    exact UInt16.lt_irrefl _
  have passesNext :=
    invDelivered.next_passes request senderUp
      ((invDelivered.heard _).wired receiver.2).2.2 caughtUp ?_ nextIssues
  · rw [nextRecord]
    rw [isPeer, Side.peer_peer] at passesNext
    exact passesNext
  · intro due
    rw [sender] at due
    dsimp only at due
    rw [adopted] at due
    exact absurd due (rolloverDue_restart _ _ _)

end ResyncInv

/-!
## Runs of the two nodes
-/

/-- The actuator's first report, as it sends it in epoch 1. -/
def firstReport : CanRawFrame where
  id := 0x200
  flags := canFlagFdf
  data := [0, 0, 0, 1, 0, 1, 0, 0x00, 0x02, 1, 0, 1, 0, 0, 0]
  fits := by decide

/-- The first sync of the gateway in epoch 2, for the floor 2. -/
def gatewaySync : CanRawFrame where
  id := 0x1F0
  flags := canFlagFdf
  data := [2, 0, 2, 0, 1, 0, 0xF0, 0x01, 2, 0, 1, 0, 2, 0]
  fits := by decide

/-- The gateway hears a report and reboots: its floor is ahead of the actuator. -/
def gatewayReboots : List NetAction :=
  [.boot .gateway .ok [], .boot .actuator .ok [],
    .build (.telemetry ⟨0, 0⟩) true [],
    .deliver .gateway firstReport true [], .boot .gateway .ok []]

/--
A fresh sync is refused when the peer's commit fails, and a sync of an earlier
boot that was never delivered still moves the peer's epoch.
-/
theorem sync_refused_and_older_sync_adopted :
    let run := Machine.final (networkStep paddedMac) .cold
    let ahead := run gatewayReboots
    let synced := run (gatewayReboots ++ [.build (.bootSync .gateway) true []])
    let later :=
      gatewayReboots ++
        [.build (.bootSync .gateway) true [], .boot .gateway .ok [],
          .build (.bootSync .gateway) true []]
    let delivered :=
      networkStep paddedMac synced
        (.deliver .actuator gatewaySync true [.failedOld])
    let older :=
      networkStep paddedMac (run later) (.deliver .actuator gatewaySync true [])
    Machine.Allowed (networkStep paddedMac)
        (fun net action =>
          IdealMac paddedMac net action ∧ NoEpochWrap net action)
        .cold (later ++ [.deliver .actuator gatewaySync true []]) ∧
      (ahead.node .gateway).Up ∧ (ahead.node .actuator).Up ∧
      Ahead (ahead.node .gateway) (ahead.node .actuator) ∧
      frameBuilt paddedMac ahead (.bootSync .gateway) true [] =
        some gatewaySync ∧
      .accepted .actuator (recordOf gatewaySync) ∉ delivered.2 ∧
      (older.1.node .actuator).app.tx.epoch ≠
        ((run later).node .actuator).app.tx.epoch := by
  decide

/--
In every state a run with an ideal MAC and no epoch wrap reaches with both
nodes up: no receiver is past its peer's epoch; not both floors are ahead; the
next sync of a node whose floor is ahead gets through, is adopted and lets the
peer's next frame pass; a sync already accepted, or one before it, moves no
epoch.  In every such run only syncs are adopted, one at most for each boot.
-/
theorem resync_recovers_and_stays_bounded
    (cmac : UInt32 → List UInt8 → FullTag)
    (actions : List NetAction)
    (ideal :
      Machine.Allowed (networkStep cmac) (IdealMac cmac) .cold actions)
    (noEpochWrap :
      Machine.Allowed (networkStep cmac) NoEpochWrap .cold actions) :
    let net := Machine.final (networkStep cmac) .cold actions
    let trace := Machine.trace (networkStep cmac) .cold actions
    (∀ side,
        (net.node side).Up →
          (net.node side.peer).Up →
            HeardBounded (net.node side) (net.node side.peer) ∧
              ¬ (Ahead (net.node side) (net.node side.peer) ∧
                  Ahead (net.node side.peer) (net.node side)) ∧
              (Ahead (net.node side) (net.node side.peer) →
                SyncRecovers cmac net side) ∧
              OldSyncsInert cmac net trace side) ∧
      ∀ side,
        (∀ record,
            .adopted side record ∈ trace →
              .built (.bootSync side.peer) record ∈ trace) ∧
          OneAdoptionPerBoot trace side := by
  intro net trace
  have preserved :
      ∀ net history action,
        AdoptionInv net history →
        IdealMac cmac net action ∧ NoEpochWrap net action →
        AdoptionInv (networkStep cmac net action).1
          (history ++ (networkStep cmac net action).2) :=
    fun _ _ action inv guard => inv.step action guard.1 guard.2
  have inv : AdoptionInv net trace :=
    Machine.invariant_of_start preserved .start (ideal.and noEpochWrap)
  constructor
  · intro side up peerUp
    refine
      ⟨inv.base.heardBounded peerUp, ?_, inv.base.syncRecovers up peerUp,
        inv.base.oldSyncsInert up⟩
    rintro ⟨ahead, peerAhead⟩
    rcases inv.base.apart side up peerUp with behind | behind
    · exact absurd ahead (UInt16.not_lt.mpr behind)
    · exact absurd peerAhead (UInt16.not_lt.mpr behind)
  · intro side
    exact ⟨inv.syncs side, inv.oneAdoptionPerBoot side⟩

/-- The gateway's reboot, its sync, and the report that gets through again. -/
theorem resync_recovers_after_gateway_reboot :
    let net := Machine.final (networkStep paddedMac) .cold gatewayReboots
    Ahead (net.node .gateway) (net.node .actuator) ∧
      SyncRecovers paddedMac net .gateway :=
  ⟨by decide,
    ((resync_recovers_and_stays_bounded paddedMac gatewayReboots (by decide)
      (by decide)).1 .gateway (by decide) (by decide)).2.2.1 (by decide)⟩

end TraveoBodyDomain
