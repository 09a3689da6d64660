import Mathlib.Tactic.Common
import TraveoBodyDomain.Node.LostSync

/-!
# A node whose sender did not boot

When the commit of `secoc_tx_boot` fails, the receiver of the node boots all
the same.  The sender context stays as reset left it: nothing can be built with
it, but a sync the receiver takes still reaches `secoc_tx_adopt_floor`, and any
floor above 0 makes that dereference the store pointer that was never set.
-/

namespace TraveoBodyDomain

section Statements

variable (cmac : UInt32 → List UInt8 → FullTag) (side : Side)

/-- The action does not stop the node, send from it or change its sender. -/
def FailsSafe (net : Network) (action : NetAction) : Prop :=
  let step := networkStep cmac net action
  .faulted side ∉ step.2 ∧
    (∀ request record,
      .built request record ∈ step.2 → request.side ≠ side) ∧
    (step.1.node side).app.tx = (net.node side).app.tx

/-- A sync that the action makes the node take asks for floor 0. -/
def AsksNoFloor (net : Network) : NetAction → Prop
  | .deliver receiver f up outcomes =>
      receiver = side →
        f.id = side.peer.config.bootSyncId.toUInt32 →
          Takes cmac (net.node side) f up outcomes →
            (recordOf f).syncFloor = 0
  | _ => True

/-- The action is no boot of the node. -/
def NetAction.NoBootOf : NetAction → Prop
  | .boot booted _ _ => booted ≠ side
  | _ => True

instance NetAction.NoBootOf.decidable :
    ∀ action, Decidable (NetAction.NoBootOf side action)
  | .powerLoss _ => inferInstanceAs (Decidable True)
  | .boot _ _ _ => inferInstanceAs (Decidable (_ ≠ _))
  | .build _ _ _ => inferInstanceAs (Decidable True)
  | .deliver _ _ _ _ => inferInstanceAs (Decidable True)

/-- A node that runs without a booted sender. -/
structure SenderDown (node : Node) : Prop where
  tx : node.app.tx = .reset
  rx : RxInitialised node.app.rx

end Statements

section Steps

variable {cmac : UInt32 → List UInt8 → FullTag}
  {net : Network}
  {side : Side}

/-- A boot whose sender commit fails leaves the receiver live, the sender not. -/
theorem boot_senderDown
    {status : SecocStoreStatus}
    {outcomes : List CommitOutcome}
    (usable : status ≠ .broken)
    (fails : outcomes.headD .acknowledged ≠ .acknowledged) :
    let node := (networkStep cmac net (.boot side status outcomes)).1.node side
    SenderDown node ∧ node.app.gRx.storeSet = true := by
  rcases ran :
      secocAppInit side.config durablePort status .reset
        ((net.node side).store.arm outcomes) with ⟨app, store⟩
  simp only [networkStep, ran, setNode_node_same]
  rcases secocAppInit_spec ran with
      ⟨cySet, lenSet, ⟨broken, -⟩ | ⟨-, txBooted, rxBooted, txRan, rxRan⟩⟩
  · exact absurd broken usable
  · refine ⟨⟨?_, Or.inr ⟨cySet, lenSet⟩⟩, ?_⟩
    · rcases secocTxBoot_cases txRan with
          ⟨-, isTx, -⟩ | ⟨idsFit, -, -, committed, -⟩
      · exact isTx
      · have succeeds := congrArg Prod.fst committed
        rw [durablePort_commit, DurableMap.commit_fst] at succeeds
        exact absurd succeeds fails
    · obtain ⟨idsFit, booted⟩ := HeardInv.secocRxBoot_config side .reset store
      have isRx := congrArg Prod.snd (rxRan.symm.trans booted)
      simp only at isRx
      rw [isRx]
      rfl

/-- A sender that did not boot issues nothing. -/
theorem SenderDown.issues_nothing
    {node : Node}
    (down : SenderDown node)
    (canId : UInt16)
    (store : FreshnessStore) :
    secocTxNext durablePort node.app.tx canId store =
      (none, node.app.tx, store) := by
  rw [down.tx]
  rfl

/-- Handling a frame builds none and stops no node. -/
theorem mem_handledEvents
    {f : CanRawFrame}
    {handled : Handled FreshnessStore}
    {event : NetEvent}
    (member : event ∈ handledEvents side f handled) :
    (∃ canId msg, event = .handedOn side canId msg) ∨
      event = .adopted side (recordOf f) := by
  rcases List.mem_append.mp member with handed | adopted
  · obtain ⟨msg, -, rfl⟩ := List.mem_map.mp handed
    exact Or.inl ⟨_, _, rfl⟩
  · split at adopted
    · exact Or.inr (List.mem_singleton.mp adopted)
    · cases adopted

/-- A delivery builds no frame and stops no other node. -/
theorem mem_deliverEvents
    {f : CanRawFrame}
    {up : Bool}
    {outcomes : List CommitOutcome}
    {event : NetEvent}
    (member : event ∈ (networkStep cmac net (.deliver side f up outcomes)).2) :
    (∀ request record, event ≠ .built request record) ∧
      ∀ other, event = .faulted other → other = side := by
  by_cases listens : side.listens f
  · obtain ⟨result, nodeAfter, events, -, ran, did⟩ :=
      networkStep_deliver up listens
    rw [ran] at member
    rcases did with ⟨-, -, -, -, rfl⟩ | ⟨handled, -, -, rfl⟩
    · rcases List.mem_pair.mp member with rfl | rfl <;> simp
    · rcases List.mem_append.mp member with accepted | shown
      · split at accepted
        · rw [List.mem_singleton.mp accepted]
          simp
        · cases accepted
      · rcases mem_handledEvents shown with ⟨canId, msg, rfl⟩ | rfl <;> simp
  · rw [networkStep_deliver_other up listens] at member
    cases member

/-- A data frame does not reach the sender. -/
theorem networkStep_data
    {f : CanRawFrame}
    {up : Bool}
    {outcomes : List CommitOutcome}
    (notSync : f.id ≠ side.peer.config.bootSyncId.toUInt32) :
    .faulted side ∉ (networkStep cmac net (.deliver side f up outcomes)).2 ∧
      ((networkStep cmac net (.deliver side f up outcomes)).1.node side).app.tx =
        (net.node side).app.tx := by
  by_cases listens : side.listens f
  · obtain ⟨result, nodeAfter, events, -, ran, did⟩ :=
      networkStep_deliver up listens
    rcases did with ⟨-, isSync, -⟩ | ⟨handled, spec, rfl, rfl⟩
    · exact absurd isSync notSync
    · rw [ran]
      refine ⟨?_, ?_⟩
      · intro member
        rcases List.mem_append.mp member with accepted | shown
        · split at accepted <;> simp at accepted
        · rcases mem_handledEvents shown with ⟨canId, msg, same⟩ | same <;>
            cases same
      · rw [setNode_node_same]
        rcases spec.adoption with ⟨sameTx, -⟩ | ⟨-, isSync, -⟩
        · exact sameTx
        · exact absurd isSync notSync
  · rw [networkStep_deliver_other up listens, setNode_node_same]
    exact ⟨List.not_mem_nil, rfl⟩

/-- Handling a sync without a booted sender: a fault, unless it asks for 0. -/
theorem SenderDown.sync
    (down : SenderDown (net.node side))
    {f : CanRawFrame}
    {up : Bool}
    {outcomes : List CommitOutcome}
    (isSync : f.id = side.peer.config.bootSyncId.toUInt32) :
    let step := networkStep cmac net (.deliver side f up outcomes)
    (step.1.node side).app.tx = .reset ∧
      (.faulted side ∉ step.2 ↔
        (Takes cmac (net.node side) f up outcomes →
          (recordOf f).syncFloor = 0)) := by
  intro step
  by_cases takes : Takes cmac (net.node side) f up outcomes
  · obtain ⟨result, -, -, did⟩ := networkStep_sync down.rx isSync takes
    by_cases zero : (recordOf f).syncFloor = 0
    · have adopted :
          secocTxAdoptFloor durablePort (net.node side).app.tx
              (recordOf f).syncFloor result.store =
            .ok (false, .reset, result.store) := by
        rw [down.tx, zero]
        rfl
      rw [adopted] at did
      simp [step, did, zero]
    · have above : ¬ (recordOf f).syncFloor ≤ SecocTxCtx.reset.epoch := by
        intro isZero
        exact zero (UInt16.le_antisymm isZero UInt16.zero_le)
      have adopted :
          secocTxAdoptFloor durablePort (net.node side).app.tx
              (recordOf f).syncFloor result.store = .error .nullStore := by
        rw [down.tx, secocTxAdoptFloor, if_neg above]
        rfl
      rw [adopted] at did
      simp [step, did, zero, takes, SecocApp.reset]
  · obtain ⟨node, ran, sameTx, -⟩ :=
      networkStep_sync_refused down.rx isSync takes
    simp [step, ran, sameTx, takes, down.tx]

/-- One action other than a boot of the node. -/
theorem SenderDown.step
    (down : SenderDown (net.node side))
    {action : NetAction}
    (noBoot : action.NoBootOf side) :
    ((networkStep cmac net action).1.node side).app.tx = .reset ∧
      (FailsSafe cmac side net action ↔ AsksNoFloor cmac side net action) := by
  have elsewhere {acting : Side} (other : acting ≠ side) (node : Node) :
      (net.setNode acting node).node side = net.node side :=
    setNode_node_other net node (Ne.symm other)
  cases action with
  | powerLoss acting =>
      by_cases same : acting = side
      · subst same
        simp [networkStep, FailsSafe, AsksNoFloor, SecocApp.reset, down.tx]
      · simp [networkStep, FailsSafe, AsksNoFloor, elsewhere same, down.tx]
  | boot acting status outcomes =>
      simp [networkStep, FailsSafe, AsksNoFloor, elsewhere noBoot, down.tx]
  | build request up outcomes =>
      obtain ⟨tx, store, sent, ran, did⟩ :=
        @networkStep_build cmac net outcomes request up
      by_cases same : request.side = side
      · subst same
        have nothing : tx = .reset ∧ sent = [] := by
          rcases did with ⟨rfl, -, rfl⟩ | ⟨pdu, issued, -, issues, sentOne⟩
          · exact ⟨down.tx, rfl⟩
          · rw [down.issues_nothing] at issues
            cases issues
            rcases sentOne with rfl | ⟨epoch, counter, isIssued, -⟩
            · exact ⟨down.tx, rfl⟩
            · cases isIssued
        simp [FailsSafe, AsksNoFloor, ran, nothing, Network.setNode, down.tx]
      · have kept :
            (networkStep cmac net (.build request up outcomes)).1.node side =
              net.node side := by
          rw [ran]
          exact elsewhere same _
        refine ⟨by rw [kept, down.tx], iff_of_true ⟨?_, ?_, ?_⟩ trivial⟩
        · simp [ran]
        · intro other record member
          rw [ran] at member
          obtain ⟨one, -, built⟩ := List.mem_map.mp member
          cases built
          exact same
        · rw [kept]
  | deliver acting f up outcomes =>
      have notBuilt :
          ∀ request record,
            .built request record ∈
                (networkStep cmac net (.deliver acting f up outcomes)).2 →
              request.side ≠ side :=
        fun request record member =>
          absurd rfl ((mem_deliverEvents member).1 request record)
      by_cases same : acting = side
      · subst same
        by_cases isSync : f.id = acting.peer.config.bootSyncId.toUInt32
        · obtain ⟨isReset, safe⟩ := @SenderDown.sync cmac _ _ down f up outcomes isSync
          refine ⟨isReset, ?_⟩
          rw [AsksNoFloor]
          constructor
          · exact fun failsSafe _ _ => safe.mp failsSafe.1
          · exact fun asks =>
              ⟨safe.mpr (asks rfl isSync), notBuilt, isReset.trans down.tx.symm⟩
        · obtain ⟨noFault, kept⟩ :=
            @networkStep_data cmac net acting f up outcomes isSync
          exact
            ⟨kept.trans down.tx,
              iff_of_true ⟨noFault, notBuilt, kept⟩
                fun _ isSync' => absurd isSync' isSync⟩
      · have kept :
            (networkStep cmac net (.deliver acting f up outcomes)).1.node side =
              net.node side := by
          by_cases listens : acting.listens f
          · obtain ⟨result, nodeAfter, events, -, ran, -⟩ :=
              networkStep_deliver up listens
            rw [ran]
            exact elsewhere same _
          · rw [networkStep_deliver_other up listens]
            exact elsewhere same _
        refine
          ⟨by rw [kept, down.tx],
            iff_of_true ⟨?_, notBuilt, by rw [kept]⟩
              fun isSame => absurd isSame same⟩
        exact fun member => same ((mem_deliverEvents member).2 side rfl).symm

end Steps

/--
A node boots, wherever a run has got to, and the commit of its sender fails:
until its next boot, whatever is delivered to it and asked of it, the node is
not stopped, sends nothing and leaves its sender alone exactly when every sync
it takes asks for floor 0.
-/
theorem failed_sender_boot_is_safe_iff_no_floor
    (cmac : UInt32 → List UInt8 → FullTag)
    (stores : Side → FreshnessStore)
    (before : List NetAction)
    (side : Side)
    (status : SecocStoreStatus)
    (usable : status ≠ .broken)
    (outcomes : List CommitOutcome)
    (fails : outcomes.headD .acknowledged ≠ .acknowledged)
    (actions : List NetAction)
    (running : ∀ action ∈ actions, action.NoBootOf side) :
    let net := Machine.final (networkStep cmac) (.unpowered stores) before
    let booted := (networkStep cmac net (.boot side status outcomes)).1
    (booted.node side).app.tx = .reset ∧
      (booted.node side).app.gRx.storeSet = true ∧
      (Machine.Allowed (networkStep cmac) (FailsSafe cmac side) booted actions ↔
        Machine.Allowed (networkStep cmac) (AsksNoFloor cmac side) booted
          actions) := by
  intro net booted
  obtain ⟨down, rxLive⟩ := @boot_senderDown cmac net side status outcomes usable fails
  refine ⟨down.tx, rxLive, ?_⟩
  have initialised : ∀ side, RxInitialised (booted.node side).app.rx :=
    networkStep_rxInitialised (final_rxInitialised stores before)
      (.boot side status outcomes)
  refine
    @Machine.allowed_congr _ _ _ (networkStep cmac) _ _
      (fun net =>
        SenderDown (net.node side) ∧
          ∀ side, RxInitialised (net.node side).app.rx)
      actions ?_ ?_ _ ⟨down, initialised⟩
  · rintro state action member ⟨down, initialised⟩
    have after := @networkStep_rxInitialised cmac state initialised action
    exact ⟨⟨(down.step (running action member)).1, after side⟩, after⟩
  · rintro state action member ⟨down, -⟩
    exact (down.step (running action member)).2

/-- The actuator's first sync: floor 1, in epoch 1. -/
def actuatorSync : CanRawFrame where
  id := 0x2F0
  flags := canFlagFdf
  data := [1, 0, 1, 0, 1, 0, 0xF0, 0x02, 1, 0, 1, 0, 1, 0]
  fits := by decide

/-- The gateway boots with the actuator's first sync on the bus. -/
def syncOnTheBus : List NetAction :=
  [.boot .actuator .ok [], .build (.bootSync .actuator) true []]

/-- The gateway's sender commit fails, and the first sync it hears stops it. -/
theorem first_sync_stops_the_gateway :
    let run := Machine.final (networkStep paddedMac) .cold
    let boot : NetAction := .boot .gateway .ok [.failedOld]
    let hears : NetAction := .deliver .gateway actuatorSync true []
    let booted := run (syncOnTheBus ++ [boot])
    Machine.Allowed (networkStep paddedMac) (IdealMac paddedMac) .cold
        (syncOnTheBus ++ [boot, hears]) ∧
      (networkStep paddedMac booted hears).2 =
        [.accepted .gateway (recordOf actuatorSync), .faulted .gateway] ∧
      ¬ FailsSafe paddedMac .gateway booted hears := by
  intro run boot hears booted
  have stops :
      (networkStep paddedMac booted hears).2 =
        [.accepted .gateway (recordOf actuatorSync), .faulted .gateway] := by
    decide
  refine ⟨by decide, stops, ?_⟩
  intro safe
  exact safe.1 (by rw [stops]; simp)

/-- Without the sync the same gateway refuses to build, and stays up. -/
theorem gateway_without_sender_is_safe :
    let booted :=
      (networkStep paddedMac
        (Machine.final (networkStep paddedMac) (.unpowered fun _ => .blank)
          syncOnTheBus)
        (.boot .gateway .ok [.failedOld])).1
    Machine.Allowed (networkStep paddedMac) (FailsSafe paddedMac .gateway)
      booted [.build (.doorCmd true) true []] :=
  (failed_sender_boot_is_safe_iff_no_floor paddedMac (fun _ => .blank)
    syncOnTheBus .gateway .ok (by decide) [.failedOld] (by decide)
    [.build (.doorCmd true) true []] (by decide)).2.2.mpr ⟨trivial, trivial⟩

end TraveoBodyDomain
