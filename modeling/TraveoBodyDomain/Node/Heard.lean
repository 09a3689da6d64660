import Mathlib.Tactic.Common
import TraveoBodyDomain.Node.Invariants
import TraveoBodyDomain.Secoc.Receiver

/-!
# What a receiver holds about its peer

Every epoch and counter a receiver keeps, in RAM or in its store, is one the
peer spent on a frame it built.  The peer's own invariant then bounds them by
its sender epoch.  While a node stays up its receiver only moves forward.
-/

namespace TraveoBodyDomain

/-- The epoch 0 of a cold store, or one of the values spent. -/
def HeardEpoch
    (spent : List FreshValue)
    (epoch : UInt16) : Prop :=
  epoch = 0 ∨ ∃ one ∈ spent, one.epoch = epoch

namespace HeardEpoch

variable {spent more : List FreshValue}
  {epoch : UInt16}

/-- What was heard stays heard when more is spent. -/
theorem mono
    (heard : HeardEpoch spent epoch)
    (grows : spent ⊆ more) :
    HeardEpoch more epoch := by
  rcases heard with isCold | ⟨one, member, same⟩
  · exact Or.inl isCold
  · exact Or.inr ⟨one, grows member, same⟩

/-- An epoch heard is at most the live epoch of the sender. -/
theorem le_epoch
    {domain : UInt8}
    {ctx : SecocTxCtx}
    {store : FreshnessStore}
    (heard : HeardEpoch spent epoch)
    (sender : SenderInv domain ctx store spent)
    (live : ctx.storeSet = true) :
    epoch ≤ ctx.epoch := by
  rcases heard with rfl | ⟨one, member, rfl⟩
  · exact UInt16.zero_le
  · exact sender.issuedBehind live one member

/-- The floor above an epoch heard is at most the epoch the sender boots to. -/
theorem floor_le_boot
    {domain : UInt8}
    {ctx : SecocTxCtx}
    {store : FreshnessStore}
    (heard : HeardEpoch spent epoch)
    (sender : SenderInv domain ctx store spent)
    (noWrap : store.slot domain ≠ some 0xFFFF) :
    epoch + 1 ≤ (store.slot domain).getD 0 + 1 := by
  have notFull : (store.slot domain).getD 0 ≠ 0xFFFF := by
    cases holds : store.slot domain with
    | none =>
        decide
    | some durable =>
        rintro rfl
        exact noWrap holds
  have below : epoch ≤ (store.slot domain).getD 0 := by
    rcases heard with rfl | ⟨one, member, rfl⟩
    · exact UInt16.zero_le
    · obtain ⟨durable, holds, least⟩ := sender.issuedDurable one member
      rw [holds]
      exact least
  grind

end HeardEpoch

/-- A receiver context keeps only what its peer spent. -/
structure HeardCtx
    (ctx : SecocRxCtx)
    (spent : List FreshValue) : Prop where
  current : HeardEpoch spent ctx.current
  high :
    ∀ canId idx,
      findSlot ctx.ids canId = some idx →
        ctx.highAt idx = 0 ∨
          ⟨canId, ctx.current, ctx.highAt idx⟩ ∈ spent
  floor :
    ctx.storeSet = true →
      ∃ heard, HeardEpoch spent heard ∧ ctx.floor = heard + 1

/-- The receiver refuses a value that is not past what it holds for the ID. -/
def SecocRxCtx.Holds
    (ctx : SecocRxCtx)
    (value : FreshValue) : Prop :=
  value.epoch < ctx.current ∨
    (value.epoch = ctx.current ∧
      ∀ idx, findSlot ctx.ids value.canId = some idx →
        value.counter ≤ ctx.highAt idx)

/-- A value the receiver holds does not pass its check. -/
theorem SecocRxCtx.Holds.refused
    {ctx : SecocRxCtx}
    {value : FreshValue}
    (holds : ctx.Holds value) :
    secocRxCheck ctx value.canId value.epoch value.counter ≠ .ok := by
  intro passes
  obtain ⟨idx, found, -, rule⟩ := secocRxCheck_ok.mp passes
  rcases holds with older | ⟨same, counters⟩
  · grind
  · have behind := counters idx found
    grind

/-- What is before a value held for the same ID is held. -/
theorem SecocRxCtx.Holds.of_not_before
    {ctx : SecocRxCtx}
    {value earlier : FreshValue}
    (holds : ctx.Holds value)
    (sameId : earlier.canId = value.canId)
    (notAfter :
      ¬ Increasing.lexLt (value.epoch, value.counter)
        (earlier.epoch, earlier.counter)) :
    ctx.Holds earlier := by
  have order :
      earlier.epoch < value.epoch ∨
        (earlier.epoch = value.epoch ∧ earlier.counter ≤ value.counter) := by
    simp only [Increasing.lexLt, not_or, not_and] at notAfter
    grind
  rcases holds with older | ⟨same, counters⟩
  · left
    grind
  · rcases order with before | ⟨sameEpoch, behind⟩
    · left
      grind
    · right
      refine ⟨sameEpoch.trans same, ?_⟩
      intro idx found
      rw [sameId] at found
      exact UInt16.le_trans behind (counters idx found)

namespace HeardCtx

variable {ctx ctxAfter : SecocRxCtx}
  {store storeAfter : FreshnessStore}
  {spent more : List FreshValue}

/-- A context without RAM contents keeps nothing. -/
theorem reset
    (spent : List FreshValue) :
    HeardCtx .reset spent := by
  refine ⟨Or.inl rfl, ?_, ?_⟩ <;>
    simp [SecocRxCtx.reset, findSlot]

/-- More values spent do no harm. -/
theorem mono
    (heard : HeardCtx ctx spent)
    (grows : spent ⊆ more) :
    HeardCtx ctx more := by
  refine ⟨heard.current.mono grows, ?_, ?_⟩
  · intro canId idx found
    exact (heard.high canId idx found).imp_right fun member => grows member
  · intro live
    obtain ⟨epoch, isHeard, same⟩ := heard.floor live
    exact ⟨epoch, isHeard.mono grows, same⟩

/-- A boot keeps only the persisted epoch. -/
theorem boot
    {domain : UInt8}
    {ids : List UInt16}
    {booted : Bool}
    (persisted : HeardEpoch spent (persistedEpoch store domain))
    (ran :
      secocRxBoot durablePort .reset domain ids store = (booted, ctxAfter)) :
    HeardCtx ctxAfter spent := by
  rcases secocRxBoot_cases ran with ⟨-, rfl⟩ | ⟨idsFit, -, -, rfl⟩
  · exact reset spent
  · refine ⟨persisted, ?_, ?_⟩
    · intro canId idx _
      exact Or.inl (SecocRxCtx.registered_highAt ..)
    · intro _
      exact ⟨_, persisted, rfl⟩

/-- Accepting a value the peer spent keeps it and moves past it. -/
theorem accept
    {canId epoch counter : UInt16}
    {accepted : Bool}
    (heard : HeardCtx ctx spent)
    (wasSpent : ⟨canId, epoch, counter⟩ ∈ spent)
    (passes : secocRxCheck ctx canId epoch counter = .ok)
    (ran :
      secocRxAccept durablePort ctx canId epoch counter store =
        (accepted, ctxAfter, storeAfter)) :
    HeardCtx ctxAfter spent := by
  rcases secocRxAccept_cases ran with
      ⟨-, rfl, -⟩ | ⟨idx, -, found, ⟨-, -, rfl⟩ | ⟨notNewer, -, rfl⟩⟩
  · exact heard
  · obtain ⟨inRange, -⟩ := findSlot_some found
    refine ⟨Or.inr ⟨_, wasSpent, rfl⟩, ?_, heard.floor⟩
    intro other otherIdx otherFound
    by_cases same : otherIdx = idx
    · subst same
      rw [findSlot_injective otherFound found]
      right
      have written :
          ((ctx.adopt epoch).setHigh otherIdx counter).highAt otherIdx =
            counter :=
        SecocRxCtx.setHigh_highAt_same counter inRange
      rw [written]
      exact wasSpent
    · left
      rw [SecocRxCtx.setHigh_highAt_other _ same, SecocRxCtx.adopt_highAt]
  · obtain ⟨inRange, -⟩ := findSlot_some found
    obtain ⟨again, -, -, rule⟩ := secocRxCheck_ok.mp passes
    have atCurrent : epoch = ctx.current := by
      rcases rule with newer | ⟨same, -⟩
      · exact absurd newer (UInt16.not_lt.mpr notNewer)
      · exact same
    refine ⟨heard.current, ?_, heard.floor⟩
    intro other otherIdx otherFound
    by_cases same : otherIdx = idx
    · subst same
      rw [findSlot_injective otherFound found,
        SecocRxCtx.setHigh_highAt_same _ inRange]
      right
      rw [atCurrent] at wasSpent
      exact wasSpent
    · rw [SecocRxCtx.setHigh_highAt_other _ same]
      exact heard.high other otherIdx otherFound

end HeardCtx

/-!
## A receiver that stays up moves forward
-/

/-- The same receiver later: its floor stands and what it held it still holds. -/
structure RxForward (before after : SecocRxCtx) : Prop where
  floor : after.floor = before.floor
  ids : after.ids = before.ids
  storeSet : after.storeSet = before.storeSet
  holds : ∀ value, before.Holds value → after.Holds value

namespace RxForward

variable {ctx ctxAfter : SecocRxCtx}
  {store storeAfter : FreshnessStore}

/-- Nothing happened. -/
theorem refl (ctx : SecocRxCtx) : RxForward ctx ctx :=
  ⟨rfl, rfl, rfl, fun _ holds => holds⟩

/-- Accepting a value moves past it. -/
theorem accept
    {canId epoch counter : UInt16}
    {accepted : Bool}
    (passes : secocRxCheck ctx canId epoch counter = .ok)
    (ran :
      secocRxAccept durablePort ctx canId epoch counter store =
        (accepted, ctxAfter, storeAfter)) :
    RxForward ctx ctxAfter ∧
      (accepted = true → ctxAfter.Holds ⟨canId, epoch, counter⟩) := by
  rcases secocRxAccept_cases ran with
      ⟨rfl, rfl, -⟩ | ⟨idx, rfl, found, ⟨newer, -, rfl⟩ | ⟨notNewer, -, rfl⟩⟩
  · exact ⟨refl _, by simp⟩
  · obtain ⟨inRange, -⟩ := findSlot_some found
    refine ⟨⟨rfl, rfl, rfl, ?_⟩, fun _ => Or.inr ⟨rfl, ?_⟩⟩
    · rintro value (older | ⟨same, -⟩)
      · exact Or.inl (UInt16.lt_trans older newer)
      · rw [← same] at newer
        exact Or.inl newer
    · intro again foundAgain
      have sameSlot : again = idx :=
        Option.some.inj (foundAgain.symm.trans found)
      have written :
          ((ctx.adopt epoch).setHigh idx counter).highAt idx = counter :=
        SecocRxCtx.setHigh_highAt_same counter inRange
      rw [sameSlot, written]
      exact UInt16.le_refl _
  · obtain ⟨inRange, -⟩ := findSlot_some found
    obtain ⟨again, foundAgain, -, rule⟩ := secocRxCheck_ok.mp passes
    have sameSlot : again = idx :=
      Option.some.inj (foundAgain.symm.trans found)
    subst sameSlot
    have atCurrent : epoch = ctx.current ∧ ctx.highAt again < counter := by
      rcases rule with newer | fresh
      · exact absurd newer (UInt16.not_lt.mpr notNewer)
      · exact fresh
    refine ⟨⟨rfl, rfl, rfl, ?_⟩, fun _ => Or.inr ⟨atCurrent.1, ?_⟩⟩
    · rintro value (older | ⟨same, counters⟩)
      · exact Or.inl older
      · refine Or.inr ⟨same, ?_⟩
        intro idx foundIdx
        have behind := counters idx foundIdx
        by_cases sameIdx : idx = again
        · subst sameIdx
          rw [SecocRxCtx.setHigh_highAt_same _ inRange]
          exact UInt16.le_trans behind (UInt16.le_of_lt atCurrent.2)
        · rw [SecocRxCtx.setHigh_highAt_other _ sameIdx]
          exact behind
    · intro idx foundIdx
      have sameIdx : idx = again :=
        Option.some.inj (foundIdx.symm.trans found)
      rw [sameIdx, SecocRxCtx.setHigh_highAt_same _ inRange]
      exact UInt16.le_refl _

end RxForward

/-!
## One node
-/

/-- The node's sender booted, so its mount and its boots succeeded. -/
def Node.Up (node : Node) : Prop :=
  node.app.tx.storeSet = true

instance (node : Node) : Decidable node.Up :=
  inferInstanceAs (Decidable (_ = true))

/-- A node, with the freshness values its peer spent on frames it built. -/
structure HeardInv
    (side : Side)
    (node : Node)
    (spent : List FreshValue) : Prop where
  persisted : HeardEpoch spent (persistedEpoch node.store secocDomRxPeer)
  ctx : HeardCtx node.app.gRx spent
  rxIds :
    node.app.gRx.storeSet = true → node.app.gRx.ids = side.config.rxIds
  wired :
    node.Up →
      node.app.rx.cy = some gCy ∧
        node.app.rx.pduLenOf = some bodyMsgPduLen ∧
        node.app.gRx.storeSet = true

/-- What one step does to the node it acts on. -/
inductive NodeChange (before after : Node) : Prop where
  | off (down : ¬ after.Up)
  | boots
      (noWrap : before.store.slot secocDomTxSelf ≠ some 0xFFFF)
      (next :
        after.app.tx.epoch =
          (before.store.slot secocDomTxSelf).getD 0 + 1)
  | stays
      (epoch :
        after.Up → before.Up ∧ before.app.tx.epoch ≤ after.app.tx.epoch)
      (forward : RxForward before.app.gRx after.app.gRx)

/-- Issuing a value never lowers the sender epoch, short of the wrap. -/
theorem secocTxNext_epoch_le
    {ctx ctxAfter : SecocTxCtx}
    {canId : UInt16}
    {issued : Option (UInt16 × UInt16)}
    {store storeAfter : FreshnessStore}
    (noWrap :
      rolloverDue ctx canId = true →
        ctx.epoch = 0xFFFF → store.nextOutcome = .failedOld)
    (ran :
      secocTxNext durablePort ctx canId store =
        (issued, ctxAfter, storeAfter)) :
    ctx.epoch ≤ ctxAfter.epoch := by
  rcases secocTxNext_cases ran with
      ⟨-, rfl, -⟩ |
      ⟨idx, found, ⟨full, committed, -, rfl⟩ | ⟨-, -, -, rfl⟩⟩
  · exact UInt16.le_refl _
  · have notFull : ctx.epoch ≠ 0xFFFF := by
      intro atMax
      have kept := noWrap (rolloverDue_of_full found full) atMax
      have refused := (DurableMap.commit_failedOld kept committed).1
      cases refused
    simp only [SecocTxCtx.setCounter_epoch, SecocTxCtx.restart_epoch]
    grind
  · exact UInt16.le_refl _

/-- A floor adoption never lowers the sender epoch. -/
theorem secocTxAdoptFloor_epoch_le
    {ctx ctxAfter : SecocTxCtx}
    {requestedFloor : UInt16}
    {moved : Bool}
    {store storeAfter : FreshnessStore}
    (ran :
      secocTxAdoptFloor durablePort ctx requestedFloor store =
        .ok (moved, ctxAfter, storeAfter)) :
    ctx.epoch ≤ ctxAfter.epoch ∧ ctxAfter.storeSet = ctx.storeSet := by
  rcases secocTxAdoptFloor_cases ran with
      ⟨-, rfl, -⟩ | ⟨-, above, -, -, rfl⟩
  · exact ⟨UInt16.le_refl _, rfl⟩
  · exact ⟨UInt16.le_of_lt above, rfl⟩

/-- Handling a frame never lowers the sender epoch and leaves a sender up. -/
theorem HandledFrame.epoch_le
    {side : Side}
    {app : SecocApp}
    {f : CanRawFrame}
    {result : SecocRxResult FreshnessStore}
    {handled : Handled FreshnessStore}
    (spec : HandledFrame side app f result handled) :
    app.tx.epoch ≤ handled.app.tx.epoch ∧
      handled.app.tx.storeSet = app.tx.storeSet := by
  rcases spec.adoption with ⟨sameTx, -⟩ | ⟨-, -, moved, adopted, -⟩
  · rw [sameTx]
    exact ⟨UInt16.le_refl _, rfl⟩
  · exact secocTxAdoptFloor_epoch_le adopted

/-- The receive verdict moves the receiver forward, past what it accepts. -/
theorem rxProcess_forward
    {cmac : UInt32 → List UInt8 → FullTag}
    {up : Bool}
    {app appAfter : SecocApp}
    {f : CanRawFrame}
    {store : FreshnessStore}
    {result : SecocRxResult FreshnessStore}
    (processed : rxProcess durablePort (oracle cmac up) app f store = result)
    (bound : RxBound app.rx)
    (configured : bodyMsgPduLen f.id.toUInt16.toUInt32 ≠ 0)
    (rxAfter : appAfter.rx = result.rx) :
    RxForward app.gRx appAfter.gRx ∧
      (result.verdict = .accept →
        appAfter.gRx.Holds (recordOf f).value) := by
  by_cases accepted : result.verdict = .accept
  · obtain ⟨heard⟩ := rxProcess_accept processed bound configured accepted
    have before : app.gRx = heard.fresh := by
      rw [SecocApp.gRx, heard.freshSet]
      rfl
    have after : appAfter.gRx = heard.freshAfter := by
      rw [SecocApp.gRx, rxAfter, heard.rxAfter]
      rfl
    obtain ⟨forward, holds⟩ := RxForward.accept heard.passes heard.committed
    rw [before, after]
    exact ⟨forward, fun _ => holds rfl⟩
  · obtain ⟨freshKept, -⟩ :=
      rxProcess_drop processed bound configured accepted
    have same : appAfter.gRx = app.gRx := by
      rw [SecocApp.gRx, rxAfter, freshKept]
      rfl
    rw [same]
    exact ⟨.refl _, fun isAccept => (accepted isAccept).elim⟩

namespace HeardInv

variable {side : Side}
  {node : Node}
  {spent more : List FreshValue}

/-- More values spent do no harm. -/
theorem mono
    (inv : HeardInv side node spent)
    (grows : spent ⊆ more) :
    HeardInv side node more :=
  ⟨inv.persisted.mono grows, inv.ctx.mono grows, inv.rxIds, inv.wired⟩

/-- A node without power keeps what its store holds about the peer. -/
theorem unpowered
    {store : FreshnessStore}
    (heard : HeardEpoch spent (persistedEpoch store secocDomRxPeer)) :
    HeardInv side ⟨.reset, store⟩ spent := by
  refine ⟨heard, .reset spent, ?_, ?_⟩
  · intro live
    cases live
  · intro up
    cases up

/-- The store's other domains do not concern the receiver. -/
theorem persisted_of_slot_eq
    {store : FreshnessStore}
    (inv : HeardInv side node spent)
    (same :
      store.slot secocDomRxPeer = node.store.slot secocDomRxPeer) :
    HeardEpoch spent (persistedEpoch store secocDomRxPeer) := by
  have kept := inv.persisted
  unfold persistedEpoch at kept ⊢
  rw [same]
  exact kept

/-- The receiver boot of either node succeeds. -/
theorem secocRxBoot_config
    (side : Side)
    (ctx : SecocRxCtx)
    (store : FreshnessStore) :
    ∃ idsFit,
      secocRxBoot durablePort ctx secocDomRxPeer side.config.rxIds store =
        (true,
          .registered secocDomRxPeer (persistedEpoch store secocDomRxPeer)
            side.config.rxIds idsFit) := by
  cases side <;> exact ⟨by decide, rfl⟩

/-- A boot either leaves the sender down or moves it to the next epoch. -/
theorem boot
    {status : SecocStoreStatus}
    {outcomes : List CommitOutcome}
    {app : SecocApp}
    {store : FreshnessStore}
    (inv : HeardInv side node spent)
    (noWrap :
      status ≠ .broken →
        node.store.slot secocDomTxSelf = some 0xFFFF →
        (node.store.arm outcomes).nextOutcome = .failedOld)
    (ran :
      secocAppInit side.config durablePort status .reset
          (node.store.arm outcomes) =
        (app, store)) :
    HeardInv side ⟨app, store⟩ spent ∧ NodeChange node ⟨app, store⟩ := by
  rcases secocAppInit_spec ran with
      ⟨cySet, lenSet, ⟨-, isTx, isRx, rfl⟩ |
        ⟨usable, txBooted, rxBooted, txRan, rxRan⟩⟩
  · have down : ¬ Node.Up ⟨app, node.store.arm outcomes⟩ := by
      unfold Node.Up
      rw [isTx]
      decide
    refine ⟨⟨inv.persisted, ?_, ?_, fun up => (down up).elim⟩, .off down⟩
    · rw [isRx]
      exact .reset spent
    · rw [isRx]
      intro live
      cases live
  · have slotKept :
        store.slot secocDomRxPeer =
          (node.store.arm outcomes).slot secocDomRxPeer :=
      secocTxBoot_slot_other txRan (by decide)
    have persisted := inv.persisted_of_slot_eq slotKept
    obtain ⟨idsFit, rxIs⟩ := secocRxBoot_config side .reset store
    have isRx := congrArg Prod.snd (rxRan.symm.trans rxIs)
    simp only at isRx
    refine ⟨⟨persisted, .boot persisted rxRan, ?_, ?_⟩, ?_⟩
    · intro _
      rw [isRx]
      rfl
    · intro _
      refine ⟨cySet, lenSet, ?_⟩
      rw [isRx]
      rfl
    · rcases secocTxBoot_cases txRan with
          ⟨-, isTx, -⟩ | ⟨idsFit, -, -, committed, isTx⟩
      · apply NodeChange.off
        unfold Node.Up
        rw [isTx]
        decide
      · refine .boots ?_ ?_
        · intro full
          have kept := noWrap usable full
          have refused := (DurableMap.commit_failedOld kept committed).1
          cases refused
        · rw [isTx]
          rfl

/-- Building a frame leaves the receiver alone. -/
theorem build
    {canId : UInt16}
    {outcomes : List CommitOutcome}
    {issued : Option (UInt16 × UInt16)}
    {tx : SecocTxCtx}
    {store : FreshnessStore}
    {built : List FreshValue}
    (inv : HeardInv side node spent)
    (own : NodeInv node built)
    (noWrap :
      rolloverDue node.app.tx canId = true →
        node.app.tx.epoch = 0xFFFF →
        (node.store.arm outcomes).nextOutcome = .failedOld)
    (ran :
      secocTxNext durablePort node.app.tx canId (node.store.arm outcomes) =
        (issued, tx, store)) :
    HeardInv side ⟨{ node.app with tx := tx }, store⟩ spent ∧
      NodeChange node ⟨{ node.app with tx := tx }, store⟩ := by
  have slotKept :
      store.slot secocDomRxPeer =
        (node.store.arm outcomes).slot secocDomRxPeer := by
    refine secocTxNext_slot_other ran ?_
    intro live
    rw [own.sender.ownDomain live]
    decide
  have epochs := secocTxNext_epoch_le noWrap ran
  have sameLive := secocTxNext_storeSet ran
  have wasUp :
      Node.Up ⟨{ node.app with tx := tx }, store⟩ → node.Up := by
    intro up
    exact sameLive.symm.trans up
  refine
    ⟨⟨inv.persisted_of_slot_eq slotKept, inv.ctx, inv.rxIds,
        fun up => inv.wired (wasUp up)⟩, ?_⟩
  exact .stays (fun up => ⟨wasUp up, epochs⟩) (.refl _)

/-- Committing an epoch that was heard keeps the persisted one heard. -/
theorem heard_of_accept
    {ctx ctxAfter : SecocRxCtx}
    {store storeAfter : FreshnessStore}
    {canId epoch counter : UInt16}
    {accepted : Bool}
    (persisted : HeardEpoch spent (persistedEpoch store secocDomRxPeer))
    (heard : HeardEpoch spent epoch)
    (ownDomain : ctx.storeSet = true → ctx.domain = secocDomRxPeer)
    (ran :
      secocRxAccept durablePort ctx canId epoch counter store =
        (accepted, ctxAfter, storeAfter)) :
    HeardEpoch spent (persistedEpoch storeAfter secocDomRxPeer) := by
  have committing :
      ∀ {succeeded idx},
        findSlot ctx.ids canId = some idx →
        durablePort.commit store ctx.domain epoch = (succeeded, storeAfter) →
        HeardEpoch spent (persistedEpoch storeAfter secocDomRxPeer) := by
    intro succeeded idx found committed
    have live := ctx.idsNeedStore (ids_ne_nil_of_findSlot found)
    rw [durablePort_commit, ownDomain live] at committed
    rcases persistedEpoch_commit committed with replaced | kept
    · rw [replaced]
      exact heard
    · rw [kept]
      exact persisted
  rcases secocRxAccept_cases ran with
      ⟨-, -, rfl | ⟨idx, found, -, committed⟩⟩ |
      ⟨idx, -, found, ⟨-, committed, -⟩ | ⟨-, rfl, -⟩⟩
  · exact persisted
  · exact committing found committed
  · exact committing found committed
  · exact persisted

/-- The receive verdict, at a receiver whose peer spent what verifies. -/
theorem verdict
    {cmac : UInt32 → List UInt8 → FullTag}
    {up : Bool}
    {f : CanRawFrame}
    {outcomes : List CommitOutcome}
    {result : SecocRxResult FreshnessStore}
    {built : List FreshValue}
    (inv : HeardInv side node spent)
    (own : NodeInv node built)
    (configured : bodyMsgPduLen f.id.toUInt16.toUInt32 ≠ 0)
    (processed :
      rxProcess durablePort (oracle cmac up) node.app f
          (node.store.arm outcomes) =
        result)
    (wasSpent :
      rxVerify (oracle cmac true) (some bodyMsgPduLen) gCy f.id.toUInt16
            f.data canMaxDlen =
          .ok
            ⟨(recordOf f).value.epoch, (recordOf f).value.counter,
              (recordOf f).pdu⟩ →
        (recordOf f).value ∈ spent) :
    HeardEpoch spent (persistedEpoch result.store secocDomRxPeer) ∧
      ∀ appAfter : SecocApp,
        appAfter.rx = result.rx → HeardCtx appAfter.gRx spent := by
  have armed :
      HeardEpoch spent
        (persistedEpoch (node.store.arm outcomes) secocDomRxPeer) :=
    inv.persisted
  have ownDomain :
      ∀ fresh, node.app.gRx = fresh →
        fresh.storeSet = true → fresh.domain = secocDomRxPeer := by
    rintro fresh rfl
    exact own.rxDomain
  by_cases accepted : result.verdict = .accept
  · obtain ⟨heard⟩ :=
      rxProcess_accept processed own.rxBound configured accepted
    have before : node.app.gRx = heard.fresh := by
      rw [SecocApp.gRx, heard.freshSet]
      rfl
    have spentOne := wasSpent heard.verifies
    constructor
    · exact
        heard_of_accept armed (Or.inr ⟨_, spentOne, rfl⟩)
          (ownDomain _ before) heard.committed
    · intro appAfter rxAfter
      have after : appAfter.gRx = heard.freshAfter := by
        rw [SecocApp.gRx, rxAfter, heard.rxAfter]
        rfl
      have ctx := inv.ctx
      rw [before] at ctx
      rw [after]
      exact ctx.accept spentOne heard.passes heard.committed
  · obtain ⟨freshKept, kept⟩ :=
      rxProcess_drop processed own.rxBound configured accepted
    constructor
    · rcases kept with kept | ⟨fresh, freshSet, verifies, -, failed⟩
      · rw [kept]
        exact armed
      · have before : node.app.gRx = fresh := by
          rw [SecocApp.gRx, freshSet]
          rfl
        exact
          heard_of_accept armed (Or.inr ⟨_, wasSpent verifies, rfl⟩)
            (ownDomain _ before) failed
    · intro appAfter rxAfter
      have same : appAfter.gRx = node.app.gRx := by
        rw [SecocApp.gRx, rxAfter, freshKept]
        rfl
      rw [same]
      exact inv.ctx

/-- Handling a frame, at a node whose peer spent what verifies. -/
theorem receive
    {mac : SecocMac}
    {f : CanRawFrame}
    {outcomes : List CommitOutcome}
    {result : SecocRxResult FreshnessStore}
    {handled : Handled FreshnessStore}
    {built : List FreshValue}
    (inv : HeardInv side node spent)
    (own : NodeInv node built)
    (processed :
      rxProcess durablePort mac node.app f (node.store.arm outcomes) = result)
    (persisted :
      HeardEpoch spent (persistedEpoch result.store secocDomRxPeer))
    (ctx : HeardCtx handled.app.gRx spent)
    (forward : RxForward node.app.gRx handled.app.gRx)
    (spec : HandledFrame side node.app f result handled) :
    HeardInv side ⟨handled.app, handled.store⟩ spent ∧
      NodeChange node ⟨handled.app, handled.store⟩ := by
  obtain ⟨epochs, sameLive⟩ := spec.epoch_le
  have wasUp : Node.Up ⟨handled.app, handled.store⟩ → node.Up := by
    intro up
    exact sameLive.symm.trans up
  refine ⟨⟨?_, ctx, ?_, ?_⟩, .stays (fun up => ⟨wasUp up, epochs⟩) forward⟩
  · rcases spec.adoption with ⟨-, sameStore, -⟩ | ⟨-, -, moved, adopted, -⟩
    · rw [sameStore]
      exact persisted
    · have slotKept :
          handled.store.slot secocDomRxPeer =
            result.store.slot secocDomRxPeer := by
        refine secocTxAdoptFloor_slot_other adopted ?_
        intro live
        rw [own.sender.ownDomain live]
        decide
      unfold persistedEpoch at persisted ⊢
      rw [slotKept]
      exact persisted
  · intro live
    have wasLive : node.app.gRx.storeSet = true :=
      forward.storeSet.symm.trans live
    rw [forward.ids]
    exact inv.rxIds wasLive
  · intro up
    obtain ⟨cySet, lenSet, live⟩ := inv.wired (wasUp up)
    refine ⟨?_, ?_, forward.storeSet.trans live⟩
    · rw [spec.rxAfter, (rxProcess_bindings processed).1]
      exact cySet
    · rw [spec.rxAfter, (rxProcess_bindings processed).2]
      exact lenSet

end HeardInv

end TraveoBodyDomain
