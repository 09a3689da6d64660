import Mathlib.Tactic.Common
import TraveoBodyDomain.Node.Recovery

/-!
# A boot sync whose floor is not adopted

Handling a boot sync makes two durable commits: the receiver takes the frame,
then the sender adopts its floor.  When only the first one succeeds, the frame
is spent and the floor is lost.
-/

namespace TraveoBodyDomain

/-- The receive state of a node: as reset leaves it, or as its glue binds it. -/
def RxInitialised (rx : SecocRx) : Prop :=
  (rx.cy = none ∧ rx.fresh = none) ∨
    (rx.cy = some gCy ∧ rx.pduLenOf = some bodyMsgPduLen)

section Statements

variable (cmac : UInt32 → List UInt8 → FullTag)

/--
The frame verifies, its value passes `secoc_rx_check`, and the commit that a
newer epoch needs is scheduled to succeed.
-/
def Takes
    (node : Node)
    (f : CanRawFrame)
    (up : Bool)
    (outcomes : List CommitOutcome) : Prop :=
  rxVerify (oracle cmac up) (some bodyMsgPduLen) gCy f.id.toUInt16 f.data
        canMaxDlen =
      .ok
        ⟨(recordOf f).value.epoch, (recordOf f).value.counter,
          (recordOf f).pdu⟩ ∧
    secocRxCheck node.app.gRx (recordOf f).value.canId
        (recordOf f).value.epoch (recordOf f).value.counter = .ok ∧
    (node.app.gRx.current < (recordOf f).value.epoch →
      outcomes.headD .acknowledged = .acknowledged)

/-- What the schedule has for the commit after the receiver's. -/
def adoptionOutcome
    (node : Node)
    (f : CanRawFrame)
    (outcomes : List CommitOutcome) :
    CommitOutcome :=
  if node.app.gRx.current < (recordOf f).value.epoch then
    outcomes.tail.headD .acknowledged
  else
    outcomes.headD .acknowledged

/-- The sender is at the floor of the sync already, or can commit it. -/
def CanAdopt
    (node : Node)
    (f : CanRawFrame)
    (outcomes : List CommitOutcome) : Prop :=
  (recordOf f).syncFloor ≤ node.app.tx.epoch ∨
    (node.app.tx.storeSet = true ∧
      adoptionOutcome node f outcomes = .acknowledged)

/-- A sync that the action makes its node take is one that the node can adopt. -/
def AdoptsTakenSync (net : Network) : NetAction → Prop
  | .deliver side f up outcomes =>
      f.id = side.peer.config.bootSyncId.toUInt32 →
        Takes cmac (net.node side) f up outcomes →
          CanAdopt (net.node side) f outcomes
  | _ => True

/--
A sync that the action makes its node take leaves the sender at its floor; one
that is not taken leaves the receiver as it was, to take it when it comes again.
-/
def KeepsSync (net : Network) : NetAction → Prop
  | .deliver side f up outcomes =>
      f.id = side.peer.config.bootSyncId.toUInt32 →
        let step := networkStep cmac net (.deliver side f up outcomes)
        (.accepted side (recordOf f) ∈ step.2 →
            (recordOf f).syncFloor ≤ (step.1.node side).app.tx.epoch) ∧
          (.accepted side (recordOf f) ∉ step.2 →
            (step.1.node side).app.gRx = (net.node side).app.gRx)
  | _ => True

end Statements

/-!
## The receive state
-/

/-- The receive state is bound or not bound. -/
theorem RxInitialised.bound
    {rx : SecocRx}
    (initialised : RxInitialised rx) :
    RxBound rx := by
  rcases initialised with ⟨noCy, -⟩ | bound
  · exact Or.inl noCy
  · exact Or.inr bound

/-- A receiver that knows an ID was bound. -/
theorem RxInitialised.of_check
    {app : SecocApp}
    {canId epoch counter : UInt16}
    (initialised : RxInitialised app.rx)
    (passes : secocRxCheck app.gRx canId epoch counter = .ok) :
    app.rx.cy = some gCy ∧
      app.rx.pduLenOf = some bodyMsgPduLen ∧
      app.rx.fresh = some app.gRx := by
  obtain ⟨idx, found, -⟩ := secocRxCheck_ok.mp passes
  cases freshSet : app.rx.fresh with
  | none =>
      simp [SecocApp.gRx, freshSet, SecocRxCtx.reset, findSlot] at found
  | some fresh =>
      rcases initialised with ⟨-, noFresh⟩ | ⟨cySet, lenSet⟩
      · rw [noFresh] at freshSet
        cases freshSet
      · refine ⟨cySet, lenSet, ?_⟩
        simp [SecocApp.gRx, freshSet]

/-- The receive verdict keeps the receive state. -/
theorem RxInitialised.process
    {mac : SecocMac}
    {app : SecocApp}
    {f : CanRawFrame}
    {store : FreshnessStore}
    {result : SecocRxResult FreshnessStore}
    (initialised : RxInitialised app.rx)
    (processed : rxProcess durablePort mac app f store = result) :
    RxInitialised result.rx := by
  obtain ⟨sameCy, sameLen⟩ := rxProcess_bindings processed
  rcases initialised with ⟨noCy, noFresh⟩ | ⟨cySet, lenSet⟩
  · left
    by_cases accepted : result.verdict = .accept
    · obtain ⟨one, -⟩ := secocRxProcess_accept processed accepted
      rw [one.freshSet] at noFresh
      cases noFresh
    · obtain ⟨-, sameFresh, -⟩ := secocRxProcess_drop processed accepted
      exact ⟨sameCy.trans noCy, sameFresh.trans noFresh⟩
  · exact Or.inr ⟨sameCy.trans cySet, sameLen.trans lenSet⟩

section Steps

variable {cmac : UInt32 → List UInt8 → FullTag}
  {net : Network}
  {side : Side}
  {f : CanRawFrame}
  {up : Bool}
  {outcomes : List CommitOutcome}

/-- Every step keeps the receive states of both nodes. -/
theorem networkStep_rxInitialised
    (initialised : ∀ side, RxInitialised (net.node side).app.rx)
    (action : NetAction)
    (side : Side) :
    RxInitialised ((networkStep cmac net action).1.node side).app.rx := by
  have replaced
      (acting : Side)
      (node : Node)
      (one : RxInitialised node.app.rx) :
      RxInitialised ((net.setNode acting node).node side).app.rx := by
    rcases Side.eq_or_peer acting side with rfl | rfl
    · rw [setNode_node_same]
      exact one
    · rw [setNode_node_other net node acting.peer_ne]
      exact initialised _
  cases action with
  | powerLoss acting =>
      exact replaced acting _ (Or.inl ⟨rfl, rfl⟩)
  | boot acting status outcomes =>
      rcases ran :
          secocAppInit acting.config durablePort status .reset
            ((net.node acting).store.arm outcomes) with ⟨app, store⟩
      obtain ⟨cySet, lenSet, -⟩ := secocAppInit_spec ran
      simp only [networkStep, ran]
      exact replaced acting _ (Or.inr ⟨cySet, lenSet⟩)
  | build request up outcomes =>
      obtain ⟨tx, store, sent, ran, -⟩ := networkStep_build request up
      rw [ran]
      exact replaced request.side _ (initialised request.side)
  | deliver acting f up outcomes =>
      by_cases listens : acting.listens f
      · obtain ⟨result, nodeAfter, events, processed, ran, did⟩ :=
          networkStep_deliver up listens
        rw [ran]
        rcases did with ⟨-, -, -, rfl, -⟩ | ⟨handled, spec, rfl, -⟩
        · exact replaced acting _ (Or.inl ⟨rfl, rfl⟩)
        · refine replaced acting _ ?_
          rw [spec.rxAfter]
          exact (initialised acting).process processed
      · rw [networkStep_deliver_other up listens]
        exact replaced acting _ (initialised acting)

/-- In every run the receive states are as reset or the glue leaves them. -/
theorem final_rxInitialised
    (stores : Side → FreshnessStore)
    (actions : List NetAction)
    (side : Side) :
    RxInitialised
      ((Machine.final (networkStep cmac) (.unpowered stores) actions).node
        side).app.rx := by
  have run :=
    @Machine.invariant_of_start _ _ _ (networkStep cmac) (fun _ _ => True)
      (fun net _ => ∀ side, RxInitialised (net.node side).app.rx)
      (fun _ _ action initialised _ =>
        networkStep_rxInitialised initialised action)
      actions (.unpowered stores) (fun _ => Or.inl ⟨rfl, rfl⟩)
      (Machine.allowed_of_forall (fun _ _ => trivial) _ _)
  exact run side

/-- `secoc_rx_process` accepts exactly what its node takes. -/
theorem rxProcess_accept_iff
    {node : Node}
    (initialised : RxInitialised node.app.rx)
    (configured : bodyMsgPduLen f.id.toUInt16.toUInt32 ≠ 0) :
    (rxProcess durablePort (oracle cmac up) node.app f
        (node.store.arm outcomes)).verdict = .accept ↔
      Takes cmac node f up outcomes := by
  constructor
  · intro accepted
    rcases secocRxProcess_accept rfl accepted with
        ⟨⟨cy, fresh, freshAfter, verified, storeNext, isCy, freshSet, verifies,
          passes, committed⟩, -⟩
    rcases initialised with ⟨-, noFresh⟩ | ⟨cySet, lenSet⟩
    · rw [noFresh] at freshSet
      cases freshSet
    · have isOwn : node.app.gRx = fresh := by
        simp [SecocApp.gRx, freshSet]
      rw [lenSet, Option.some.inj (isCy.symm.trans cySet),
        List.length_replicate] at verifies
      have carried := rxVerify_record configured verifies
      subst carried
      refine ⟨verifies, isOwn.symm ▸ passes, ?_⟩
      have succeeds := congrArg Prod.fst committed
      rw [isOwn]
      exact (secocRxAccept_fst passes).mp succeeds
  · rintro ⟨verifies, passes, acknowledges⟩
    obtain ⟨cySet, lenSet, freshSet⟩ := initialised.of_check passes
    have succeeds :=
      (@secocRxAccept_fst _ (node.store.arm outcomes) _ _ _ passes).mpr
        acknowledges
    exact
      (rxProcess_accepts cySet lenSet freshSet verifies passes
        (Prod.ext succeeds rfl)).1

/-- A PDU that verifies has the length configured for its ID. -/
theorem length_of_rxVerify
    {mac : SecocMac}
    {canId : UInt16}
    {frame : List UInt8}
    {cap : Nat}
    {verified : Verified}
    (configured : bodyMsgPduLen canId.toUInt32 ≠ 0)
    (verifies :
      rxVerify mac (some bodyMsgPduLen) gCy canId frame cap = .ok verified) :
    verified.pdu.length = bodyMsgPduLen canId.toUInt32 := by
  unfold rxVerify secocVerifyLen at verifies
  simp only [ne_eq, configured, not_false_eq_true, ↓reduceIte] at verifies
  split at verifies
  next => cases verifies
  next =>
    split at verifies
    next => cases verifies
    next long =>
      exact (securedFrame_of_verifyCore (by omega) verifies).1

/-- The peer's boot sync is one of the frames a node listens to. -/
theorem Side.listens_sync
    (isSync : f.id = side.peer.config.bootSyncId.toUInt32) :
    side.listens f := by
  have sent := Side.sends_heard (.bootSync side.peer)
  rw [Request.side, Side.peer_peer] at sent
  exact ⟨_, sent, isSync⟩

/-- A sync that verifies has two bytes. -/
theorem length_of_sync
    {mac : SecocMac}
    (isSync : f.id = side.peer.config.bootSyncId.toUInt32)
    (verifies :
      rxVerify mac (some bodyMsgPduLen) gCy f.id.toUInt16 f.data canMaxDlen =
        .ok
          ⟨(recordOf f).value.epoch, (recordOf f).value.counter,
            (recordOf f).pdu⟩) :
    (recordOf f).pdu.length = 2 := by
  have configured := (Side.listens_id (Side.listens_sync isSync)).2.2
  have length := length_of_rxVerify configured verifies
  rw [isSync, UInt16.toUInt16_toUInt32] at length
  rw [length]
  cases side <;> rfl

/-- An accepted sync of two bytes or more hands its floor on. -/
theorem handleSync_taken
    {mac : SecocMac}
    {app : SecocApp}
    {store : FreshnessStore}
    {result : SecocRxResult FreshnessStore}
    (processed : rxProcess durablePort mac app f store = result)
    (accepted : result.verdict = .accept)
    (long : 2 ≤ (released result).length) :
    handleSync durablePort mac app f store =
      match
        secocRxSyncAdopt durablePort app.tx f.id.toUInt16
          (getU16le (released result)) result.store
      with
      | .error fault => .error fault
      | .ok (_, tx, storeAfter, resync) =>
          .ok
            ⟨{ app with rx := result.rx, tx := tx }, storeAfter,
              result.log ++ resync, none⟩ := by
  unfold handleSync rxAuthentic
  simp only [processed, accepted, ↓reduceIte]
  rw [if_neg (Nat.not_lt.mpr long)]
  cases
    secocRxSyncAdopt durablePort app.tx f.id.toUInt16
      (getU16le (released result)) result.store with
  | error fault =>
      rfl
  | ok after =>
      rfl

/-- A sync that is taken reaches `secoc_tx_adopt_floor` with the floor it carries. -/
theorem networkStep_sync
    (initialised : RxInitialised (net.node side).app.rx)
    (isSync : f.id = side.peer.config.bootSyncId.toUInt32)
    (takes : Takes cmac (net.node side) f up outcomes) :
    ∃ result,
      rxProcess durablePort (oracle cmac up) (net.node side).app f
          ((net.node side).store.arm outcomes) = result ∧
        result.store.nextOutcome = adoptionOutcome (net.node side) f outcomes ∧
        match
          secocTxAdoptFloor durablePort (net.node side).app.tx
            (recordOf f).syncFloor result.store
        with
        | .error _ =>
            networkStep cmac net (.deliver side f up outcomes) =
              (net.setNode side ⟨.reset, result.store⟩,
                [.accepted side (recordOf f), .faulted side])
        | .ok (moved, tx, store) =>
            networkStep cmac net (.deliver side f up outcomes) =
              (net.setNode side
                  ⟨{ (net.node side).app with rx := result.rx, tx := tx },
                    store⟩,
                .accepted side (recordOf f) ::
                  if moved then [.adopted side (recordOf f)] else []) := by
  have listens := Side.listens_sync isSync
  have configured := (Side.listens_id listens).2.2
  have accepted := (rxProcess_accept_iff initialised configured).mpr takes
  have noResync :=
    rxProcess_log (oracle cmac up) (net.node side).app f
      ((net.node side).store.arm outcomes)
  have shown :
      acceptance (oracle cmac up) side (net.node side).app f
        ((net.node side).store.arm outcomes) = [.accepted side (recordOf f)] :=
    if_pos ⟨listens, accepted⟩
  have received :
      side.receive durablePort (oracle cmac up) (net.node side).app f
          ((net.node side).store.arm outcomes) =
        handleSync durablePort (oracle cmac up) (net.node side).app f
          ((net.node side).store.arm outcomes) := by
    rcases receive_listens listens with ⟨notSync, -⟩ | ⟨-, handled⟩
    · exact absurd isSync notSync
    · exact handled
  generalize processed :
    rxProcess durablePort (oracle cmac up) (net.node side).app f
      ((net.node side).store.arm outcomes) = result at accepted noResync
  obtain ⟨heard⟩ :=
    rxProcess_accept processed initialised.bound configured accepted
  have length := length_of_sync isSync takes.1
  refine ⟨result, rfl, ?_, ?_⟩
  · have isOwn : (net.node side).app.gRx = heard.fresh := by
      simp [SecocApp.gRx, heard.freshSet]
    rw [DurableMap.nextOutcome, secocRxAccept_outcomes heard.committed,
      adoptionOutcome, isOwn]
    split <;> rfl
  · have handled :=
      handleSync_taken processed accepted
        (by rw [heard.releasedPdu, length])
    have sameFloor : getU16le (released result) = (recordOf f).syncFloor := by
      rw [heard.releasedPdu, SecuredRecord.syncFloor]
    rw [sameFloor, ← received, secocRxSyncAdopt] at handled
    cases adopted :
        secocTxAdoptFloor durablePort (net.node side).app.tx
          (recordOf f).syncFloor result.store with
    | error fault =>
        rw [adopted] at handled
        simp only [networkStep, handled, shown, processed]
        rfl
    | ok after =>
        rcases after with ⟨moved, tx, store⟩
        rw [adopted] at handled
        simp only [networkStep, handled, shown]
        cases moved <;> simp [handledEvents, noResync]

/-- A sync that is not taken leaves the node's contexts alone. -/
theorem networkStep_sync_refused
    (initialised : RxInitialised (net.node side).app.rx)
    (isSync : f.id = side.peer.config.bootSyncId.toUInt32)
    (refused : ¬ Takes cmac (net.node side) f up outcomes) :
    ∃ node,
      networkStep cmac net (.deliver side f up outcomes) =
          (net.setNode side node, []) ∧
        node.app.tx = (net.node side).app.tx ∧
        node.app.gRx = (net.node side).app.gRx := by
  have listens := Side.listens_sync isSync
  have configured := (Side.listens_id listens).2.2
  obtain ⟨result, nodeAfter, events, processed, ran, did⟩ :=
    networkStep_deliver up listens
  have dropped : result.verdict ≠ .accept := by
    rw [← processed]
    exact mt (rxProcess_accept_iff initialised configured).mp refused
  rcases did with ⟨accepted, -⟩ | ⟨handled, spec, rfl, rfl⟩
  · exact absurd accepted dropped
  · refine ⟨⟨handled.app, handled.store⟩, ?_, ?_, ?_⟩
    · rw [ran, if_neg dropped, handledEvents_of_drop spec dropped]
      rfl
    · rcases spec.adoption with ⟨sameTx, -⟩ | ⟨accepted, -⟩
      · exact sameTx
      · exact absurd accepted dropped
    · obtain ⟨sameFresh, -⟩ :=
        rxProcess_drop processed initialised.bound configured dropped
      simp only [SecocApp.gRx, spec.rxAfter, sameFresh]

/-- A delivery keeps its sync exactly when the node can adopt what it takes. -/
theorem keepsSync_iff
    (initialised : RxInitialised (net.node side).app.rx) :
    KeepsSync cmac net (.deliver side f up outcomes) ↔
      AdoptsTakenSync cmac net (.deliver side f up outcomes) := by
  refine forall_congr' fun isSync => ?_
  by_cases takes : Takes cmac (net.node side) f up outcomes
  · obtain ⟨result, -, schedule, did⟩ := networkStep_sync initialised isSync takes
    have reaches :=
      @secocTxAdoptFloor_reaches (net.node side).app.tx result.store
        (recordOf f).syncFloor
    rw [schedule] at reaches
    have canAdopt :
        (Takes cmac (net.node side) f up outcomes →
            CanAdopt (net.node side) f outcomes) ↔
          CanAdopt (net.node side) f outcomes :=
      ⟨fun adopts => adopts takes, fun can _ => can⟩
    rw [canAdopt, CanAdopt, ← reaches]
    cases adopted :
        secocTxAdoptFloor durablePort (net.node side).app.tx
          (recordOf f).syncFloor result.store with
    | error fault =>
        rw [adopted] at did
        -- A fault is a floor above the epoch of a sender that never booted.
        have positive : ¬ (recordOf f).syncFloor ≤ 0 := by
          intro isZero
          have behind := UInt16.le_trans isZero (@UInt16.zero_le (net.node side).app.tx.epoch)
          rw [secocTxAdoptFloor, if_pos behind] at adopted
          cases adopted
        simp [did, SecocApp.reset, SecocTxCtx.reset, positive]
    | ok after =>
        rcases after with ⟨moved, tx, store⟩
        rw [adopted] at did
        simp [did]
  · obtain ⟨node, ran, -, sameRx⟩ :=
      networkStep_sync_refused initialised isSync takes
    simp [ran, sameRx, takes]

end Steps

/--
In every run, whatever is delivered and whichever commits fail: no sync is lost
exactly when every sync that a node takes is one whose floor its sender has
reached, or has booted for and can commit.
-/
theorem no_sync_is_lost_iff_floors_commit
    (cmac : UInt32 → List UInt8 → FullTag)
    (stores : Side → FreshnessStore)
    (actions : List NetAction) :
    Machine.Allowed (networkStep cmac) (KeepsSync cmac) (.unpowered stores)
        actions ↔
      Machine.Allowed (networkStep cmac) (AdoptsTakenSync cmac)
        (.unpowered stores) actions := by
  refine
    @Machine.allowed_congr _ _ _ (networkStep cmac) _ _
      (fun net => ∀ side, RxInitialised (net.node side).app.rx) actions ?_ ?_ _
      fun _ => Or.inl ⟨rfl, rfl⟩
  · exact fun net action _ initialised =>
      networkStep_rxInitialised initialised action
  · intro net action _ initialised
    cases action with
    | powerLoss side =>
        exact Iff.rfl
    | boot side status outcomes =>
        exact Iff.rfl
    | build request up outcomes =>
        exact Iff.rfl
    | deliver side f up outcomes =>
        exact keepsSync_iff (initialised side)

/--
The actuator takes the gateway's sync, its own commit fails, and the sync is
refused when it comes again: the actuator stays at epoch 1, the gateway's floor
is 2.
-/
theorem sync_taken_and_floor_lost :
    let before := gatewayReboots ++ [.build (.bootSync .gateway) true []]
    let lost : NetAction :=
      .deliver .actuator gatewaySync true [.acknowledged, .failedOld]
    let run := Machine.final (networkStep paddedMac) .cold
    let taken := networkStep paddedMac (run before) lost
    let again :=
      networkStep paddedMac taken.1 (.deliver .actuator gatewaySync true [])
    Machine.Allowed (networkStep paddedMac) (IdealMac paddedMac) .cold
        (before ++ [lost]) ∧
      taken.2 = [.accepted .actuator (recordOf gatewaySync)] ∧
      (taken.1.node .actuator).app.tx.epoch = 1 ∧
      (recordOf gatewaySync).syncFloor = 2 ∧
      again.2 = [] ∧
      ¬ KeepsSync paddedMac (run before) lost := by
  intro before lost run taken again
  have events : taken.2 = [.accepted .actuator (recordOf gatewaySync)] := by
    decide
  have epoch : (taken.1.node .actuator).app.tx.epoch = 1 := by
    decide
  refine ⟨by decide, events, epoch, by decide, by decide, ?_⟩
  intro keeps
  have reached := (keeps rfl).1 (by rw [events]; exact List.mem_singleton_self _)
  rw [epoch] at reached
  exact absurd reached (by decide)

end TraveoBodyDomain
