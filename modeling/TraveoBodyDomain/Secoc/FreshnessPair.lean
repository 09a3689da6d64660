import Mathlib.Tactic.Common
import TraveoBodyDomain.Lib.Machine
import TraveoBodyDomain.Secoc.Receiver
import TraveoBodyDomain.Secoc.Sender

/-!
# A sender and its receiver

The freshness layer of two nodes with all that was ever on the bus between them:
what is sent may be lost, delayed and repeated, each end may reboot at any time,
and commits may fail.
-/

namespace TraveoBodyDomain

/-- What both ends of a pair are bound to. -/
structure FreshnessConfig where
  txDomain : UInt8
  rxDomain : UInt8
  ids : List UInt16
  idsFit : ids.length ≤ secocMaxIds

/-- A sender and its receiver, and all that was ever on the bus. -/
structure FreshnessPair where
  tx : SecocTxCtx
  txStore : FreshnessStore
  rx : SecocRxCtx
  rxStore : FreshnessStore
  sent : List FreshValue
  syncs : List UInt16

/-- Two nodes without RAM contents that sent nothing. -/
def FreshnessPair.unpowered
    (txStore rxStore : FreshnessStore) :
    FreshnessPair :=
  ⟨.reset, txStore, .reset, rxStore, [], []⟩

/-- What may happen to a pair, with the outcomes of the commits it makes. -/
inductive FreshnessAction where
  | txPowerLoss
  | txReboot (outcomes : List CommitOutcome)
  | send (canId : UInt16) (outcomes : List CommitOutcome)
  | deliverSync (floor : UInt16) (outcomes : List CommitOutcome)
  | rxPowerLoss
  | rxReboot
  | deliver (value : FreshValue) (outcomes : List CommitOutcome)
  | sendSync
  deriving Repr, DecidableEq

/-- The outcomes an action schedules. -/
def FreshnessAction.outcomes : FreshnessAction → List CommitOutcome
  | .txReboot outcomes => outcomes
  | .send _ outcomes => outcomes
  | .deliverSync _ outcomes => outcomes
  | .deliver _ outcomes => outcomes
  | _ => []

/-- What an observer of a pair sees. -/
inductive FreshnessEvent where
  | issued (value : FreshValue)
  | accepted (value : FreshValue)
  deriving Repr, DecidableEq

/-- The values accepted in a trace, in order. -/
def acceptedIn (trace : List FreshnessEvent) : List FreshValue :=
  trace.filterMap fun
    | .accepted value => some value
    | .issued _ => none

@[simp] theorem acceptedIn_nil :
    acceptedIn [] = [] :=
  rfl

@[simp] theorem acceptedIn_append
    (first second : List FreshnessEvent) :
    acceptedIn (first ++ second) = acceptedIn first ++ acceptedIn second :=
  List.filterMap_append

@[simp] theorem acceptedIn_map_issued
    (values : List FreshValue) :
    acceptedIn (values.map .issued) = [] := by
  simp [acceptedIn]

/--
One step of a pair.

What was on the bus once, a value or the floor of a boot sync, may be delivered
at any time and any number of times, or never.
-/
def freshnessStep (config : FreshnessConfig) :
    Machine.Step FreshnessPair FreshnessAction FreshnessEvent
  | pair, .txPowerLoss => ({ pair with tx := .reset }, [])
  | pair, .txReboot outcomes =>
      let (_, tx, txStore) :=
        secocTxBoot durablePort .reset config.txDomain config.ids
          (pair.txStore.arm outcomes)
      ({ pair with tx := tx, txStore := txStore }, [])
  | pair, .send canId outcomes =>
      let (result, tx, txStore) :=
        secocTxNext durablePort pair.tx canId (pair.txStore.arm outcomes)
      let values := issueOf canId result
      ({ pair with
          tx := tx
          txStore := txStore
          sent := pair.sent ++ values },
        values.map .issued)
  | pair, .deliverSync floor outcomes =>
      if floor ∈ pair.syncs then
        match
          secocTxAdoptFloor durablePort pair.tx floor
            (pair.txStore.arm outcomes)
        with
        | .ok (_, tx, txStore) =>
            ({ pair with tx := tx, txStore := txStore }, [])
        | .error _ => ({ pair with tx := .reset }, [])
      else
        (pair, [])
  | pair, .rxPowerLoss => ({ pair with rx := .reset }, [])
  | pair, .rxReboot =>
      let (_, rx) :=
        secocRxBoot durablePort .reset config.rxDomain config.ids pair.rxStore
      ({ pair with rx := rx }, [])
  | pair, .deliver value outcomes =>
      if
        value ∈ pair.sent ∧
          secocRxCheck pair.rx value.canId value.epoch value.counter = .ok
      then
        let (succeeded, rx, rxStore) :=
          secocRxAccept durablePort pair.rx value.canId value.epoch
            value.counter (pair.rxStore.arm outcomes)
        ({ pair with rx := rx, rxStore := rxStore },
          if succeeded then [.accepted value] else [])
      else
        (pair, [])
  | pair, .sendSync =>
      ({ pair with syncs := pair.syncs ++ [pair.rx.floor] }, [])

namespace FreshnessConfig

/-- The sender right after a boot into `epoch`. -/
def txUp
    (config : FreshnessConfig)
    (epoch : UInt16) :
    SecocTxCtx :=
  .registered config.txDomain epoch config.ids config.idsFit

/-- The receiver right after a boot on the durable epoch `persisted`. -/
def rxUp
    (config : FreshnessConfig)
    (persisted : UInt16) :
    SecocRxCtx :=
  .registered config.rxDomain persisted config.ids config.idsFit

end FreshnessConfig

/--
What a step does to the receiver: nothing, it loses its RAM, it boots, or it is
handed a value that passes.
-/
theorem freshnessStep_receiver
    (config : FreshnessConfig)
    (pair : FreshnessPair)
    (action : FreshnessAction) :
    let after := (freshnessStep config pair action).1
    let values := acceptedIn (freshnessStep config pair action).2
    (after.rxStore = pair.rxStore ∧ values = [] ∧
        (after.rx = pair.rx ∨ after.rx = .reset ∨
          after.rx =
            config.rxUp (persistedEpoch pair.rxStore config.rxDomain))) ∨
      ∃ value outcomes succeeded,
        secocRxCheck pair.rx value.canId value.epoch value.counter = .ok ∧
          secocRxAccept durablePort pair.rx value.canId value.epoch
              value.counter (pair.rxStore.arm outcomes) =
            (succeeded, after.rx, after.rxStore) ∧
          values = if succeeded then [value] else [] := by
  intro after values
  cases action with
  | txPowerLoss => exact .inl ⟨rfl, rfl, .inl rfl⟩
  | txReboot outcomes => exact .inl ⟨rfl, rfl, .inl rfl⟩
  | sendSync => exact .inl ⟨rfl, rfl, .inl rfl⟩
  | rxPowerLoss => exact .inl ⟨rfl, rfl, .inr (.inl rfl)⟩
  | send canId outcomes =>
      exact .inl ⟨rfl, acceptedIn_map_issued _, .inl rfl⟩
  | deliverSync floor outcomes =>
      refine .inl ?_
      simp only [after, values, freshnessStep]
      split
      · split
        · exact ⟨rfl, rfl, .inl rfl⟩
        · exact ⟨rfl, rfl, .inl rfl⟩
      · exact ⟨rfl, rfl, .inl rfl⟩
  | rxReboot =>
      refine .inl ⟨rfl, rfl, .inr ?_⟩
      rcases ran :
          secocRxBoot durablePort .reset config.rxDomain config.ids
            pair.rxStore with ⟨booted, rx⟩
      simp only [after, freshnessStep, ran]
      rcases secocRxBoot_cases ran with ⟨-, rfl⟩ | ⟨idsFit, -, -, rfl⟩
      · exact .inl rfl
      · exact .inr rfl
  | deliver value outcomes =>
      by_cases taken :
          value ∈ pair.sent ∧
            secocRxCheck pair.rx value.canId value.epoch value.counter = .ok
      · rcases ran :
            secocRxAccept durablePort pair.rx value.canId value.epoch
              value.counter (pair.rxStore.arm outcomes) with
            ⟨succeeded, rx, rxStore⟩
        refine .inr ⟨value, outcomes, succeeded, taken.2, ?_, ?_⟩
        · simp only [after, freshnessStep, if_pos taken, ran]
        · simp only [values, freshnessStep, if_pos taken, ran]
          cases succeeded with
          | true => rfl
          | false => rfl
      · refine .inl ?_
        simp only [after, values, freshnessStep, if_neg taken]
        exact ⟨trivial, rfl, .inl trivial⟩

/-!
## What a receiver ever accepted is not above its epoch
-/

/-- No accepted epoch is above the persisted one or, in a live node, its own. -/
structure EpochInv
    (domain : UInt8)
    (ctx : SecocRxCtx)
    (store : FreshnessStore)
    (accepted : List FreshValue) : Prop where
  ownDomain : ctx.storeSet = true → ctx.domain = domain
  currentPersisted :
    ctx.storeSet = true → ctx.current ≤ persistedEpoch store domain
  acceptedPersisted :
    ∀ one ∈ accepted, one.epoch ≤ persistedEpoch store domain
  acceptedCurrent :
    ctx.storeSet = true → ∀ one ∈ accepted, one.epoch ≤ ctx.current

namespace EpochInv

variable {domain : UInt8}
  {ctx ctxAfter : SecocRxCtx}
  {store storeAfter : FreshnessStore}
  {accepted : List FreshValue}

/-- A receiver without RAM contents that accepted nothing. -/
theorem start
    (domain : UInt8)
    (store : FreshnessStore) :
    EpochInv domain .reset store [] := by
  constructor <;> simp [SecocRxCtx.reset]

/-- Losing the RAM context keeps the invariant. -/
theorem reset
    (inv : EpochInv domain ctx store accepted) :
    EpochInv domain .reset store accepted := by
  refine ⟨?_, ?_, inv.acceptedPersisted, ?_⟩ <;> simp [SecocRxCtx.reset]

/-- A boot keeps it, also the one whose floor wraps. -/
theorem boot
    {config : FreshnessConfig}
    (inv : EpochInv config.rxDomain ctx store accepted) :
    EpochInv config.rxDomain (config.rxUp (persistedEpoch store config.rxDomain))
      store accepted :=
  ⟨fun _ => rfl, fun _ => UInt16.le_refl _, inv.acceptedPersisted,
    fun _ => inv.acceptedPersisted⟩

/-- Accepting what the check let pass keeps it. -/
theorem accept
    {value : FreshValue}
    {succeeded : Bool}
    (inv : EpochInv domain ctx store accepted)
    (passes :
      secocRxCheck ctx value.canId value.epoch value.counter = .ok)
    (ran :
      secocRxAccept durablePort ctx value.canId value.epoch value.counter
        store = (succeeded, ctxAfter, storeAfter)) :
    EpochInv domain ctxAfter storeAfter
      (accepted ++ if succeeded then [value] else []) := by
  obtain ⟨slot, registered, -, rule⟩ := secocRxCheck_ok.mp passes
  have live := ctx.idsNeedStore (ids_ne_nil_of_findSlot registered)
  have behind : ∀ one ∈ accepted, one.epoch ≤ value.epoch := by
    intro one member
    have notAbove := inv.acceptedCurrent live one member
    rcases rule with newer | ⟨same, -⟩
    · exact UInt16.le_of_lt (UInt16.lt_of_le_of_lt notAbove newer)
    · exact same ▸ notAbove
  have withValue : ∀ one ∈ accepted ++ [value], one.epoch ≤ value.epoch := by
    intro one member
    rcases List.mem_append.mp member with old | new
    · exact behind one old
    · exact List.mem_singleton.mp new ▸ UInt16.le_refl _
  rcases secocRxAccept_cases ran with
      ⟨rfl, rfl, rfl | ⟨idx, -, newer, failed⟩⟩ |
      ⟨idx, rfl, -, ⟨newer, committed, rfl⟩ | ⟨notNewer, rfl, rfl⟩⟩
  · simpa using inv
  · rw [durablePort_commit, inv.ownDomain live] at failed
    simp only [Bool.false_eq_true, ↓reduceIte, List.append_nil]
    rcases persistedEpoch_commit failed with replaced | kept
    · refine ⟨inv.ownDomain, ?_, ?_, inv.acceptedCurrent⟩
      · exact fun _ => replaced ▸ UInt16.le_of_lt newer
      · exact replaced ▸ behind
    · refine ⟨inv.ownDomain, ?_, ?_, inv.acceptedCurrent⟩
      · exact kept ▸ inv.currentPersisted
      · exact kept ▸ inv.acceptedPersisted
  · rw [durablePort_commit, inv.ownDomain live] at committed
    have persisted := persistedEpoch_commit_true committed
    refine ⟨fun _ => inv.ownDomain live, ?_, ?_, fun _ => withValue⟩
    · exact fun _ => persisted ▸ UInt16.le_refl _
    · exact persisted ▸ withValue
  · have same : value.epoch = ctx.current := by
      rcases rule with newer | ⟨same, -⟩
      · exact absurd newer (UInt16.not_lt.mpr notNewer)
      · exact same
    have least := inv.currentPersisted live
    refine ⟨fun _ => inv.ownDomain live, fun _ => least, ?_, ?_⟩
    · exact fun one member =>
        UInt16.le_trans (withValue one member) (same ▸ least)
    · exact fun _ one member => same ▸ withValue one member

/-- Every step of a pair keeps it. -/
theorem step
    {config : FreshnessConfig}
    {pair : FreshnessPair}
    (inv : EpochInv config.rxDomain pair.rx pair.rxStore accepted)
    (action : FreshnessAction) :
    EpochInv config.rxDomain
      (freshnessStep config pair action).1.rx
      (freshnessStep config pair action).1.rxStore
      (accepted ++ acceptedIn (freshnessStep config pair action).2) := by
  rcases freshnessStep_receiver config pair action with
    ⟨sameStore, nothing, kept | lost | booted⟩ |
      ⟨value, outcomes, succeeded, passes, ran, values⟩
  · rw [sameStore, nothing, kept, List.append_nil]
    exact inv
  · rw [sameStore, nothing, lost, List.append_nil]
    exact inv.reset
  · rw [sameStore, nothing, booted, List.append_nil]
    exact inv.boot
  · have armed :
        EpochInv config.rxDomain pair.rx (pair.rxStore.arm outcomes) accepted :=
      ⟨inv.ownDomain, inv.currentPersisted, inv.acceptedPersisted,
        inv.acceptedCurrent⟩
    rw [values]
    exact armed.accept passes ran

/-- Every run of a pair keeps it. -/
theorem run
    {config : FreshnessConfig}
    {pair : FreshnessPair}
    (inv : EpochInv config.rxDomain pair.rx pair.rxStore accepted)
    (actions : List FreshnessAction) :
    EpochInv config.rxDomain
      (Machine.final (freshnessStep config) pair actions).rx
      (Machine.final (freshnessStep config) pair actions).rxStore
      (accepted ++
        acceptedIn (Machine.trace (freshnessStep config) pair actions)) := by
  refine
    @Machine.invariant_of_start _ _ _ (freshnessStep config) (fun _ _ => True)
      (fun pair history =>
        EpochInv config.rxDomain pair.rx pair.rxStore
          (accepted ++ acceptedIn history))
      ?_ actions pair ?_ (Machine.allowed_of_forall (fun _ _ => trivial) _ _)
  · intro pair history action inv _
    rw [acceptedIn_append, ← List.append_assoc]
    exact inv.step action
  · exact (List.append_nil accepted).symm ▸ inv

/-- Every run from power-up keeps it. -/
theorem reached
    (config : FreshnessConfig)
    (txStore rxStore : FreshnessStore)
    (actions : List FreshnessAction) :
    let start := FreshnessPair.unpowered txStore rxStore
    EpochInv config.rxDomain
      (Machine.final (freshnessStep config) start actions).rx
      (Machine.final (freshnessStep config) start actions).rxStore
      (acceptedIn (Machine.trace (freshnessStep config) start actions)) := by
  have initially :
      EpochInv config.rxDomain (FreshnessPair.unpowered txStore rxStore).rx
        (FreshnessPair.unpowered txStore rxStore).rxStore [] :=
    .start config.rxDomain rxStore
  exact initially.run actions

end EpochInv

/-- A store whose commits all work. -/
theorem reliable_arm_nil
    (store : FreshnessStore) :
    (store.arm []).Reliable :=
  fun _ member => absurd member List.not_mem_nil

section Steps

variable {config : FreshnessConfig}
  {pair : FreshnessPair}
  {canId : UInt16}
  {idx : Nat}

/-- A registered ID with room left gets the next counter of its epoch. -/
theorem freshnessStep_send
    (found : findSlot pair.tx.ids canId = some idx)
    (room : pair.tx.counterAt idx ≠ 0xFFFF)
    (outcomes : List CommitOutcome) :
    freshnessStep config pair (.send canId outcomes) =
      ({ pair with
          tx := pair.tx.setCounter idx (pair.tx.counterAt idx + 1)
          txStore := pair.txStore.arm outcomes
          sent :=
            pair.sent ++
              [⟨canId, pair.tx.epoch, pair.tx.counterAt idx + 1⟩] },
        [.issued ⟨canId, pair.tx.epoch, pair.tx.counterAt idx + 1⟩]) := by
  simp [freshnessStep, secocTxNext, found, room, spendCounter, issueOf]

/-- A value on the bus that passes the check is accepted when commits work. -/
theorem freshnessStep_deliver
    {value : FreshValue}
    (onBus : value ∈ pair.sent)
    (passes :
      secocRxCheck pair.rx value.canId value.epoch value.counter = .ok) :
    ∃ rx rxStore,
      secocRxAccept durablePort pair.rx value.canId value.epoch value.counter
          (pair.rxStore.arm []) = (true, rx, rxStore) ∧
        freshnessStep config pair (.deliver value []) =
          ({ pair with rx := rx, rxStore := rxStore }, [.accepted value]) := by
  obtain ⟨rx, rxStore, ran, -⟩ :=
    secocRxAccept_reliable (reliable_arm_nil pair.rxStore) passes
  refine ⟨rx, rxStore, ran, ?_⟩
  simp only [freshnessStep, if_pos (And.intro onBus passes), ran, ↓reduceIte]

/-- The next value of an ID, sent and delivered, is accepted when it passes. -/
theorem send_then_deliver
    (found : findSlot pair.tx.ids canId = some idx)
    (room : pair.tx.counterAt idx ≠ 0xFFFF)
    (passes :
      secocRxCheck pair.rx canId pair.tx.epoch (pair.tx.counterAt idx + 1) =
        .ok) :
    ∃ txStore rx rxStore,
      secocRxAccept durablePort pair.rx canId pair.tx.epoch
          (pair.tx.counterAt idx + 1) (pair.rxStore.arm []) =
        (true, rx, rxStore) ∧
      Machine.Leads (freshnessStep config) pair
        [.send canId [],
          .deliver ⟨canId, pair.tx.epoch, pair.tx.counterAt idx + 1⟩ []]
        { pair with
          tx := pair.tx.setCounter idx (pair.tx.counterAt idx + 1)
          txStore := txStore
          rx := rx
          rxStore := rxStore
          sent :=
            pair.sent ++
              [⟨canId, pair.tx.epoch, pair.tx.counterAt idx + 1⟩] }
        [.issued ⟨canId, pair.tx.epoch, pair.tx.counterAt idx + 1⟩,
          .accepted ⟨canId, pair.tx.epoch, pair.tx.counterAt idx + 1⟩] := by
  obtain ⟨rx, rxStore, ran, delivered⟩ :=
    @freshnessStep_deliver config
      { pair with
        tx := pair.tx.setCounter idx (pair.tx.counterAt idx + 1)
        txStore := pair.txStore.arm []
        sent :=
          pair.sent ++ [⟨canId, pair.tx.epoch, pair.tx.counterAt idx + 1⟩] }
      ⟨canId, pair.tx.epoch, pair.tx.counterAt idx + 1⟩
      (List.mem_append_right _ (List.mem_singleton_self _)) passes
  exact
    ⟨pair.txStore.arm [], rx, rxStore, ran,
      .cons (freshnessStep_send found room []) (.cons delivered (.nil _ _))⟩

end Steps

section Reboots

variable {config : FreshnessConfig}

/-- A receiver reboots into what its store persists. -/
theorem freshnessStep_rxReboot
    (someId : config.ids ≠ [])
    (pair : FreshnessPair) :
    freshnessStep config pair .rxReboot =
      ({ pair with
          rx := config.rxUp (persistedEpoch pair.rxStore config.rxDomain) },
        []) := by
  have idsOk : config.ids.length ≠ 0 ∧ config.ids.length ≤ secocMaxIds :=
    ⟨by simpa using someId, config.idsFit⟩
  simp only [freshnessStep, secocRxBoot, dif_pos idsOk]
  rfl

/-- A sender reboots into the epoch after the persisted one. -/
theorem freshnessStep_txReboot
    (someId : config.ids ≠ [])
    (pair : FreshnessPair) :
    ∃ storeAfter,
      freshnessStep config pair (.txReboot []) =
          ({ pair with
              tx :=
                config.txUp
                  (persistedEpoch pair.txStore config.txDomain + 1)
              txStore := storeAfter },
            []) ∧
        persistedEpoch storeAfter config.txDomain =
          persistedEpoch pair.txStore config.txDomain + 1 := by
  have idsOk : config.ids.length ≠ 0 ∧ config.ids.length ≤ secocMaxIds :=
    ⟨by simpa using someId, config.idsFit⟩
  obtain ⟨next, committed, -⟩ :=
    @DurableMap.commit_reliable _ _ _ _ config.txDomain
      (persistedEpoch pair.txStore config.txDomain + 1)
      (reliable_arm_nil pair.txStore)
  refine ⟨next, ?_, persistedEpoch_commit_true committed⟩
  unfold persistedEpoch at committed
  simp only [freshnessStep, secocTxBoot, dif_pos idsOk, durablePort_load,
    durablePort_commit, DurableMap.arm_slot, committed]
  rfl

/-- Rebooting a sender again and again counts its epoch up. -/
theorem txReboots
    (someId : config.ids ≠ [])
    (more : Nat)
    (pair : FreshnessPair) :
    ∃ storeAfter,
      Machine.Leads (freshnessStep config) pair
        (List.replicate (more + 1) (.txReboot []))
        { pair with
          tx :=
            config.txUp
              (persistedEpoch pair.txStore config.txDomain +
                UInt16.ofNat (more + 1))
          txStore := storeAfter }
        [] := by
  induction more generalizing pair with
  | zero =>
      obtain ⟨storeAfter, stepped, -⟩ := freshnessStep_txReboot someId pair
      exact ⟨storeAfter, .cons stepped (.nil _ _)⟩
  | succ more inductionHypothesis =>
      obtain ⟨storeBetween, stepped, counted⟩ :=
        freshnessStep_txReboot someId pair
      obtain ⟨storeAfter, leads⟩ :=
        inductionHypothesis
          { pair with
            tx :=
              config.txUp (persistedEpoch pair.txStore config.txDomain + 1)
            txStore := storeBetween }
      have sum :
          persistedEpoch pair.txStore config.txDomain + 1 +
              UInt16.ofNat (more + 1) =
            persistedEpoch pair.txStore config.txDomain +
              UInt16.ofNat (more + 1 + 1) := by
        rw [UInt16.ofNat_add (more + 1) 1, UInt16.add_assoc,
          UInt16.add_comm 1]
        rfl
      refine ⟨storeAfter, ?_⟩
      rw [List.replicate_succ, ← sum, ← counted]
      exact .cons stepped leads

end Reboots

/-- A boot sync of a rebooted pair lifts the sender to the receiver's floor. -/
theorem freshnessStep_deliverSync
    {config : FreshnessConfig}
    {pair : FreshnessPair}
    {floor epoch : UInt16}
    (onBus : floor ∈ pair.syncs)
    (booted : pair.tx = config.txUp epoch) :
    ∃ reached storeAfter,
      floor ≤ reached ∧
        freshnessStep config pair (.deliverSync floor []) =
          ({ pair with tx := config.txUp reached, txStore := storeAfter },
            []) := by
  by_cases behind : floor ≤ epoch
  · refine ⟨epoch, pair.txStore.arm [], behind, ?_⟩
    have stays :
        secocTxAdoptFloor durablePort pair.tx floor (pair.txStore.arm []) =
          .ok (false, pair.tx, pair.txStore.arm []) :=
      if_pos (booted ▸ behind)
    rw [← booted]
    simp only [freshnessStep, if_pos onBus, stays]
  · obtain ⟨storeAfter, adopts⟩ :=
      @secocTxAdoptFloor_reliable pair.tx _ floor
        (reliable_arm_nil pair.txStore) (booted ▸ rfl)
        (booted ▸ UInt16.not_le.mp behind)
    have restarted : pair.tx.restart floor = config.txUp floor := by
      rw [booted]
      rfl
    refine ⟨floor, storeAfter, UInt16.le_refl _, ?_⟩
    rw [← restarted]
    simp only [freshnessStep, if_pos onBus, adopts]

/-!
## What the highest epoch lets pass
-/

/--
What a step does to the receiver's RAM: nothing, it is lost, it boots, or it
takes up a value that passes.
-/
theorem freshnessStep_rx
    (config : FreshnessConfig)
    (pair : FreshnessPair)
    (action : FreshnessAction) :
    let after := (freshnessStep config pair action).1
    let values := acceptedIn (freshnessStep config pair action).2
    after.rx = pair.rx ∨ after.rx = .reset ∨
      after.rx = config.rxUp (persistedEpoch pair.rxStore config.rxDomain) ∨
      ∃ value idx,
        findSlot pair.rx.ids value.canId = some idx ∧
          ((pair.rx.current < value.epoch ∧
              after.rx = (pair.rx.adopt value.epoch).setHigh idx value.counter) ∨
            (value.epoch = pair.rx.current ∧
              after.rx = pair.rx.setHigh idx value.counter)) ∧
          values = [value] := by
  intro after values
  rcases freshnessStep_receiver config pair action with
    ⟨-, -, kept | lost | booted⟩ |
      ⟨value, outcomes, succeeded, passes, ran, isValue⟩
  · exact .inl kept
  · exact .inr (.inl lost)
  · exact .inr (.inr (.inl booted))
  · obtain ⟨slot, -, -, rule⟩ := secocRxCheck_ok.mp passes
    rcases secocRxAccept_cases ran with
        ⟨-, kept, -⟩ |
        ⟨idx, rfl, found, ⟨newer, -, taken⟩ | ⟨notNewer, -, taken⟩⟩
    · exact .inl kept
    · exact
        .inr (.inr (.inr ⟨value, idx, found, .inl ⟨newer, taken⟩, isValue⟩))
    · have same : value.epoch = pair.rx.current := by
        rcases rule with newer | ⟨same, -⟩
        · exact absurd newer (UInt16.not_lt.mpr notNewer)
        · exact same
      exact
        .inr (.inr (.inr ⟨value, idx, found, .inr ⟨same, taken⟩, isValue⟩))

/-- The receiver would accept this counter of epoch 0xFFFF. -/
def PassesAtMax (ctx : SecocRxCtx) (canId counter : UInt16) : Prop :=
  secocRxCheck ctx canId 0xFFFF counter = .ok

/-- No epoch is above 0xFFFF. -/
theorem epoch_le_max (epoch : UInt16) : epoch ≤ 0xFFFF :=
  UInt16.le_iff_toNat_le.mpr (Nat.le_of_lt_succ epoch.toNat_lt)

/-- It is in an earlier epoch, or has not reached that counter. -/
theorem passesAtMax_iff
    {ctx : SecocRxCtx}
    {canId counter : UInt16} :
    PassesAtMax ctx canId counter ↔
      ∃ idx,
        findSlot ctx.ids canId = some idx ∧
          (ctx.current = 0xFFFF → ctx.highAt idx < counter) := by
  rw [PassesAtMax, secocRxCheck_ok]
  constructor
  · rintro ⟨idx, found, -, below | ⟨-, above⟩⟩
    · exact ⟨idx, found, fun top => absurd (top ▸ below) (UInt16.lt_irrefl _)⟩
    · exact ⟨idx, found, fun _ => above⟩
  · rintro ⟨idx, found, above⟩
    refine ⟨idx, found, epoch_le_max _, ?_⟩
    by_cases top : ctx.current = 0xFFFF
    · exact .inr ⟨top.symm, above top⟩
    · exact .inl (UInt16.lt_of_le_of_ne (epoch_le_max _) top)

/-- So does every later counter. -/
theorem PassesAtMax.mono
    {ctx : SecocRxCtx}
    {canId counter later : UInt16}
    (passes : PassesAtMax ctx canId counter)
    (notBefore : counter ≤ later) :
    PassesAtMax ctx canId later := by
  obtain ⟨idx, found, above⟩ := passesAtMax_iff.mp passes
  exact
    passesAtMax_iff.mpr
      ⟨idx, found, fun top => UInt16.lt_of_lt_of_le (above top) notBefore⟩

/-- Right after a boot every counter would be accepted. -/
theorem rxUp_passesAtMax
    {config : FreshnessConfig}
    {canId counter : UInt16}
    (registered : canId ∈ config.ids)
    (spent : counter ≠ 0)
    (persisted : UInt16) :
    PassesAtMax (config.rxUp persisted) canId counter := by
  obtain ⟨slot, found⟩ := findSlot_of_mem registered
  refine passesAtMax_iff.mpr ⟨slot, found, fun _ => ?_⟩
  rw [FreshnessConfig.rxUp, SecocRxCtx.registered_highAt]
  exact UInt16.pos_iff_ne_zero.mpr spent

/-- A receiver that runs has the IDs it is configured with. -/
theorem receiver_ids
    {config : FreshnessConfig}
    {pair : FreshnessPair}
    (start : pair.rx.storeSet = true → pair.rx.ids = config.ids)
    (actions : List FreshnessAction) :
    let last := Machine.final (freshnessStep config) pair actions
    last.rx.storeSet = true → last.rx.ids = config.ids := by
  refine
    @Machine.invariant_of_start _ _ _ (freshnessStep config) (fun _ _ => True)
      (fun pair _ => pair.rx.storeSet = true → pair.rx.ids = config.ids)
      ?_ actions pair start (Machine.allowed_of_forall (fun _ _ => trivial) _ _)
  intro pair _ action configured _
  rcases freshnessStep_rx config pair action with
    kept | lost | booted | ⟨value, idx, found, ⟨-, taken⟩ | ⟨-, taken⟩, -⟩
  · rw [kept]
    exact configured
  · rw [lost]
    intro live
    cases live
  · rw [booted]
    exact fun _ => rfl
  · rw [taken]
    exact configured
  · rw [taken]
    exact configured

/--
A counter of epoch 0xFFFF that would be accepted stays so, over reboots too, until
one that is not below it has been accepted.
-/
theorem passesAtMax_or_accepted
    {config : FreshnessConfig}
    {pair : FreshnessPair}
    {canId counter : UInt16}
    (registered : canId ∈ config.ids)
    (spent : counter ≠ 0)
    (start : pair.rx.storeSet = true → PassesAtMax pair.rx canId counter)
    (actions : List FreshnessAction) :
    let last := Machine.final (freshnessStep config) pair actions
    (last.rx.storeSet = true → PassesAtMax last.rx canId counter) ∨
      ∃ later, counter ≤ later ∧
        ⟨canId, 0xFFFF, later⟩ ∈
          acceptedIn (Machine.trace (freshnessStep config) pair actions) := by
  refine
    @Machine.invariant_of_start _ _ _ (freshnessStep config) (fun _ _ => True)
      (fun pair history =>
        (pair.rx.storeSet = true → PassesAtMax pair.rx canId counter) ∨
          ∃ later, counter ≤ later ∧
            ⟨canId, 0xFFFF, later⟩ ∈ acceptedIn history)
      ?_ actions pair (.inl start)
      (Machine.allowed_of_forall (fun _ _ => trivial) _ _)
  rintro pair history action (passes | ⟨later, notBefore, old⟩) -
  · rw [acceptedIn_append]
    rcases freshnessStep_rx config pair action with
      kept | lost | booted | ⟨value, idx, found, taken, isValue⟩
    · rw [kept]
      exact .inl passes
    · rw [lost]
      refine .inl fun live => ?_
      cases live
    · rw [booted]
      exact .inl fun _ => rxUp_passesAtMax registered spent _
    · have live := pair.rx.idsNeedStore (ids_ne_nil_of_findSlot found)
      obtain ⟨slot, holds, above⟩ := passesAtMax_iff.mp (passes live)
      obtain ⟨inRange, -⟩ := findSlot_some found
      by_cases reached :
          value.canId = canId ∧ value.epoch = 0xFFFF ∧ counter ≤ value.counter
      · obtain ⟨rfl, isMax, notBefore⟩ := reached
        refine .inr ⟨value.counter, notBefore, List.mem_append_right _ ?_⟩
        rw [isValue, ← isMax]
        exact List.mem_singleton_self _
      · refine .inl fun _ => ?_
        have slots : slot = idx → value.canId = canId := by
          rintro rfl
          exact findSlot_injective found holds
        have counted : value.epoch = 0xFFFF → slot = idx →
            value.counter < counter := fun isMax same =>
          UInt16.not_le.mp fun notBefore =>
            reached ⟨slots same, isMax, notBefore⟩
        rcases taken with ⟨newer, taken⟩ | ⟨isCurrent, taken⟩
        · rw [taken]
          refine passesAtMax_iff.mpr ⟨slot, holds, fun top => ?_⟩
          by_cases same : slot = idx
          · rw [same,
              @SecocRxCtx.setHigh_highAt_same (pair.rx.adopt value.epoch) idx _
                inRange]
            exact counted top same
          · rw [SecocRxCtx.setHigh_highAt_other _ same,
              SecocRxCtx.adopt_highAt]
            exact UInt16.pos_iff_ne_zero.mpr spent
        · rw [taken]
          refine passesAtMax_iff.mpr ⟨slot, holds, fun top => ?_⟩
          by_cases same : slot = idx
          · rw [same, SecocRxCtx.setHigh_highAt_same _ inRange]
            exact counted (isCurrent.trans top) same
          · rw [SecocRxCtx.setHigh_highAt_other _ same]
            exact above top
  · rw [acceptedIn_append]
    exact .inr ⟨later, notBefore, List.mem_append_left _ old⟩

/-- What sending alone leaves: the epoch, the IDs and the receiver. -/
structure OnlySent (before after : FreshnessPair) : Prop where
  epoch : after.tx.epoch = before.tx.epoch
  ids : after.tx.ids = before.tx.ids
  rx : after.rx = before.rx

/-- A counter with room left counts up. -/
theorem toNat_succ_of_room
    {counter : UInt16}
    (room : counter.toNat < 0xFFFF) :
    (counter + 1).toNat = counter.toNat + 1 := by
  rw [UInt16.toNat_add, Nat.mod_eq_of_lt]
  · rfl
  · exact Nat.succ_lt_succ room

/-- Frames of one ID that never arrive only spend its counter. -/
theorem sends
    {config : FreshnessConfig}
    {canId : UInt16}
    {idx : Nat}
    (times : Nat)
    {pair : FreshnessPair}
    (found : findSlot pair.tx.ids canId = some idx)
    (room : (pair.tx.counterAt idx).toNat + times ≤ 0xFFFF) :
    let actions := List.replicate times (.send canId [])
    let last := Machine.final (freshnessStep config) pair actions
    OnlySent pair last ∧
      acceptedIn (Machine.trace (freshnessStep config) pair actions) = [] ∧
      (last.tx.counterAt idx).toNat =
        (pair.tx.counterAt idx).toNat + times ∧
      ∀ other ≠ idx, last.tx.counterAt other = pair.tx.counterAt other := by
  induction times generalizing pair with
  | zero =>
      exact ⟨⟨rfl, rfl, rfl⟩, rfl, rfl, fun _ _ => rfl⟩
  | succ times inductionHypothesis =>
      have notFull : pair.tx.counterAt idx ≠ 0xFFFF := by
        intro full
        rw [full] at room
        exact absurd room (by simp)
      obtain ⟨inRange, -⟩ := findSlot_some found
      have counted :
          (pair.tx.counterAt idx + 1).toNat =
            (pair.tx.counterAt idx).toNat + 1 :=
        toNat_succ_of_room (by omega)
      intro actions last
      have written :=
        @SecocTxCtx.setCounter_counterAt_same pair.tx idx
          (pair.tx.counterAt idx + 1) inRange
      obtain ⟨onlySent, quiet, reached, others⟩ :=
        @inductionHypothesis
          { pair with
            tx := pair.tx.setCounter idx (pair.tx.counterAt idx + 1)
            txStore := pair.txStore.arm []
            sent :=
              pair.sent ++
                [⟨canId, pair.tx.epoch, pair.tx.counterAt idx + 1⟩] }
          found
          (by rw [written, counted]; omega)
      simp only [last, actions, List.replicate_succ, Machine.final_cons,
        Machine.trace_cons, freshnessStep_send found notFull]
      refine ⟨⟨onlySent.epoch, onlySent.ids, onlySent.rx⟩, ?_, ?_, ?_⟩
      · rw [acceptedIn_append, quiet]
        rfl
      · rw [reached, written, counted]
        omega
      · intro other different
        rw [others other different]
        exact SecocTxCtx.setCounter_counterAt_other _ different

/-- Lost frames bring the unused counters of any IDs to any values. -/
theorem sends_each
    {config : FreshnessConfig}
    {times : UInt16 → Nat}
    {targets : List UInt16}
    {pair : FreshnessPair}
    (different : targets.Nodup)
    (few : ∀ canId ∈ targets, times canId ≤ 0xFFFF)
    (registered : ∀ canId ∈ targets, canId ∈ pair.tx.ids)
    (unused :
      ∀ canId ∈ targets, ∀ idx,
        findSlot pair.tx.ids canId = some idx → pair.tx.counterAt idx = 0) :
    let actions :=
      targets.flatMap fun canId =>
        List.replicate (times canId) (.send canId [])
    let last := Machine.final (freshnessStep config) pair actions
    OnlySent pair last ∧
      acceptedIn (Machine.trace (freshnessStep config) pair actions) = [] ∧
      (∀ canId ∈ targets, ∀ idx,
        findSlot pair.tx.ids canId = some idx →
          (last.tx.counterAt idx).toNat = times canId) ∧
      ∀ canId ∉ targets, ∀ idx,
        findSlot pair.tx.ids canId = some idx →
          last.tx.counterAt idx = pair.tx.counterAt idx := by
  induction targets generalizing pair with
  | nil =>
      exact
        ⟨⟨rfl, rfl, rfl⟩, rfl, fun _ member => absurd member List.not_mem_nil,
          fun _ _ _ _ => rfl⟩
  | cons first rest inductionHypothesis =>
      obtain ⟨notAgain, restDifferent⟩ := List.nodup_cons.mp different
      have isHead : first ∈ first :: rest := List.mem_cons_self
      obtain ⟨slot, found⟩ := findSlot_of_mem (registered first isHead)
      have start : pair.tx.counterAt slot = 0 := unused first isHead slot found
      obtain ⟨firstOnly, firstQuiet, firstReached, firstOthers⟩ :=
        @sends config first slot (times first) pair found (by
          rw [start]
          exact (Nat.zero_add _).trans_le (few first isHead))
      rw [start] at firstReached
      -- The other IDs have other slots, which are as unused as before.
      have otherSlot :
          ∀ canId ≠ first, ∀ idx,
            findSlot pair.tx.ids canId = some idx → idx ≠ slot := by
        rintro canId notFirst idx holds rfl
        exact notFirst (findSlot_injective holds found)
      obtain ⟨restOnly, restQuiet, restReached, restOthers⟩ :=
        @inductionHypothesis
          (Machine.final (freshnessStep config) pair
            (List.replicate (times first) (.send first [])))
          restDifferent
          (fun canId member => few canId (List.mem_cons_of_mem _ member))
          (fun canId member =>
            firstOnly.ids ▸ registered canId (List.mem_cons_of_mem _ member))
          (by
            intro canId member idx holds
            rw [firstOnly.ids] at holds
            have notFirst : canId ≠ first := by
              rintro rfl
              exact notAgain member
            rw [firstOthers idx (otherSlot canId notFirst idx holds)]
            exact unused canId (List.mem_cons_of_mem _ member) idx holds)
      rw [firstOnly.ids] at restReached restOthers
      simp only [List.flatMap_cons, Machine.final_append, Machine.trace_append,
        acceptedIn_append]
      refine ⟨⟨?_, ?_, ?_⟩, ?_, ?_, ?_⟩
      · exact restOnly.epoch.trans firstOnly.epoch
      · exact restOnly.ids.trans firstOnly.ids
      · exact restOnly.rx.trans firstOnly.rx
      · rw [firstQuiet, restQuiet]
        rfl
      · intro canId member idx holds
        rcases List.mem_cons.mp member with rfl | later
        · rw [restOthers canId notAgain idx holds]
          cases found.symm.trans holds
          rw [firstReached]
          exact Nat.zero_add _
        · exact restReached canId later idx holds
      · intro canId absent idx holds
        have notFirst : canId ≠ first := by
          rintro rfl
          exact absent isHead
        rw [restOthers canId (fun later => absent (.tail _ later)) idx holds]
        exact firstOthers idx (otherSlot canId notFirst idx holds)

end TraveoBodyDomain
