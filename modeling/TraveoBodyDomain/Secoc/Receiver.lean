import Mathlib.Tactic.Common
import TraveoBodyDomain.Lib.Machine
import TraveoBodyDomain.Secoc.Freshness

/-!
# A receiver accepts a freshness value at most once

The RAM high-water is lost at a reboot; the floor, one above the highest epoch
ever accepted, replaces it.  The one boot that does not bar the past is the
boot on the durable epoch 0xFFFF, whose floor wraps to 0.
-/

namespace TraveoBodyDomain

/-- The highest epoch persisted for `domain`, 0 on a cold store. -/
def persistedEpoch
    (store : FreshnessStore)
    (domain : UInt8) :
    UInt16 :=
  (store.slot domain).getD 0

/-- Persisting an epoch leaves that epoch or the old one. -/
theorem persistedEpoch_commit
    {store next : FreshnessStore}
    {domain : UInt8}
    {epoch : UInt16}
    {succeeded : Bool}
    (committed : store.commit domain epoch = (succeeded, next)) :
    persistedEpoch next domain = epoch ∨
      persistedEpoch next domain = persistedEpoch store domain := by
  unfold persistedEpoch
  rcases DurableMap.commit_slot_same committed with replaced | kept
  · left
    rw [replaced, Option.getD_some]
  · right
    rw [kept]

/-- An acknowledged epoch is the one persisted. -/
theorem persistedEpoch_commit_true
    {store next : FreshnessStore}
    {domain : UInt8}
    {epoch : UInt16}
    (committed : store.commit domain epoch = (true, next)) :
    persistedEpoch next domain = epoch := by
  unfold persistedEpoch
  rw [(DurableMap.commit_true committed).1, Function.update_self,
    Option.getD_some]

/-- The RAM context, the persisted epoch and the values accepted agree. -/
structure ReceiverInv
    (domain : UInt8)
    (ctx : SecocRxCtx)
    (store : FreshnessStore)
    (accepted : List FreshValue) : Prop where
  ownDomain : ctx.storeSet = true → ctx.domain = domain
  currentPersisted :
    ctx.storeSet = true → ctx.current ≤ persistedEpoch store domain
  acceptedPersisted :
    ∀ one ∈ accepted, one.epoch ≤ persistedEpoch store domain
  acceptedBarred :
    ctx.storeSet = true →
      ∀ one ∈ accepted,
        one.epoch < ctx.floor ∨
          one.epoch < ctx.current ∨
          (one.epoch = ctx.current ∧
            ∀ idx, findSlot ctx.ids one.canId = some idx →
              one.counter ≤ ctx.highAt idx)
  increasing :
    ∀ canId, (pairsOf canId accepted).Pairwise Increasing.lexLt

namespace ReceiverInv

variable {domain : UInt8}
  {ctx ctxAfter : SecocRxCtx}
  {store storeAfter : FreshnessStore}
  {accepted : List FreshValue}

/-- A node without RAM contents that accepted nothing. -/
theorem start
    (domain : UInt8)
    (store : FreshnessStore) :
    ReceiverInv domain .reset store [] := by
  constructor <;> simp [SecocRxCtx.reset]

/-- Losing the RAM context loses nothing the invariant needs. -/
theorem reset
    (inv : ReceiverInv domain ctx store accepted) :
    ReceiverInv domain .reset store accepted := by
  refine ⟨?_, ?_, inv.acceptedPersisted, ?_, inv.increasing⟩ <;>
    simp [SecocRxCtx.reset]

/-- The store may change as long as it persists what the invariant uses. -/
theorem withStore
    (inv : ReceiverInv domain ctx store accepted)
    (current :
      ctx.storeSet = true →
        ctx.current ≤ persistedEpoch storeAfter domain)
    (past : ∀ one ∈ accepted, one.epoch ≤ persistedEpoch storeAfter domain) :
    ReceiverInv domain ctx storeAfter accepted :=
  ⟨inv.ownDomain, current, past, inv.acceptedBarred, inv.increasing⟩

/-- Another domain's commits do not concern the receiver. -/
theorem of_slot_eq
    (inv : ReceiverInv domain ctx store accepted)
    (same : storeAfter.slot domain = store.slot domain) :
    ReceiverInv domain ctx storeAfter accepted := by
  have persisted :
      persistedEpoch storeAfter domain = persistedEpoch store domain := by
    unfold persistedEpoch
    rw [same]
  refine inv.withStore ?_ ?_
  · rw [persisted]
    exact inv.currentPersisted
  · rw [persisted]
    exact inv.acceptedPersisted

/-- Everything accepted before is at most a value the rule lets pass. -/
theorem accepted_le_of_ok
    {canId epoch counter : UInt16}
    (inv : ReceiverInv domain ctx store accepted)
    (passes : secocRxCheck ctx canId epoch counter = .ok) :
    ∀ one ∈ accepted, one.epoch ≤ epoch := by
  intro one member
  rcases secocRxCheck_ok.mp passes with ⟨idx, found, aboveFloor, rule⟩
  have live := ctx.idsNeedStore (ids_ne_nil_of_findSlot found)
  have barred := inv.acceptedBarred live one member
  grind

/-- What passes the rule follows everything accepted for its ID. -/
theorem follows_of_ok
    {canId epoch counter : UInt16}
    (inv : ReceiverInv domain ctx store accepted)
    (passes : secocRxCheck ctx canId epoch counter = .ok) :
    ∀ pair ∈ pairsOf canId accepted,
      Increasing.lexLt pair (epoch, counter) := by
  intro pair member
  have old := mem_pairsOf.mp member
  rcases secocRxCheck_ok.mp passes with ⟨idx, found, aboveFloor, rule⟩
  have live := ctx.idsNeedStore (ids_ne_nil_of_findSlot found)
  rcases inv.acceptedBarred live _ old with
      belowFloor | belowCurrent | ⟨atCurrent, counters⟩
  · left
    simp only at belowFloor
    grind
  · left
    simp only at belowCurrent
    grind
  · have behind := counters idx found
    simp only at atCurrent behind
    rcases rule with newer | ⟨sameEpoch, aboveHigh⟩
    · left
      grind
    · right
      constructor
      · grind
      · grind

/-- A failed commit of a newer epoch that passed keeps the invariant. -/
theorem refused
    {canId epoch counter : UInt16}
    (inv : ReceiverInv domain ctx store accepted)
    (passes : secocRxCheck ctx canId epoch counter = .ok)
    (newer : ctx.current < epoch)
    (failed : store.commit domain epoch = (false, storeAfter)) :
    ReceiverInv domain ctx storeAfter accepted := by
  rcases persistedEpoch_commit failed with replaced | kept
  · refine inv.withStore ?_ ?_
    · rw [replaced]
      exact fun _ => UInt16.le_of_lt newer
    · rw [replaced]
      exact inv.accepted_le_of_ok passes
  · refine inv.withStore ?_ ?_
    · rw [kept]
      exact inv.currentPersisted
    · rw [kept]
      exact inv.acceptedPersisted

/-- A newer epoch that passed is persisted and adopted with its first value. -/
theorem adopts
    {canId epoch counter : UInt16}
    {idx : Nat}
    (inv : ReceiverInv domain ctx store accepted)
    (passes : secocRxCheck ctx canId epoch counter = .ok)
    (found : findSlot ctx.ids canId = some idx)
    (newer : ctx.current < epoch)
    (committed : store.commit domain epoch = (true, storeAfter)) :
    ReceiverInv domain ((ctx.adopt epoch).setHigh idx counter) storeAfter
      (accepted ++ [⟨canId, epoch, counter⟩]) := by
  have past := inv.accepted_le_of_ok passes
  have live := ctx.idsNeedStore (ids_ne_nil_of_findSlot found)
  have persisted := persistedEpoch_commit_true committed
  rcases findSlot_some found with ⟨inRange, -⟩
  constructor
  · exact fun _ => inv.ownDomain live
  · intro _
    rw [persisted]
    exact UInt16.le_refl _
  · intro one member
    rw [persisted]
    rcases List.mem_append.mp member with old | new
    · exact past one old
    · rw [List.mem_singleton.mp new]
      exact UInt16.le_refl _
  · intro _ one member
    rcases List.mem_append.mp member with old | new
    · rcases inv.acceptedBarred live one old with
          belowFloor | belowCurrent | ⟨atCurrent, -⟩
      · exact Or.inl belowFloor
      · exact Or.inr (Or.inl (UInt16.lt_trans belowCurrent newer))
      · rw [← atCurrent] at newer
        exact Or.inr (Or.inl newer)
    · rw [List.mem_singleton.mp new]
      refine Or.inr (Or.inr ⟨rfl, ?_⟩)
      intro other otherFound
      have sameSlot : other = idx :=
        Option.some.inj (otherFound.symm.trans found)
      have written :
          ((ctx.adopt epoch).setHigh idx counter).highAt idx = counter :=
        SecocRxCtx.setHigh_highAt_same counter inRange
      rw [sameSlot, written]
      exact UInt16.le_refl _
  · exact increasing_concat inv.increasing (inv.follows_of_ok passes)

/-- A later counter of the current epoch raises one high-water. -/
theorem counts
    {canId counter : UInt16}
    {idx : Nat}
    (inv : ReceiverInv domain ctx store accepted)
    (passes : secocRxCheck ctx canId ctx.current counter = .ok)
    (found : findSlot ctx.ids canId = some idx)
    (above : ctx.highAt idx < counter) :
    ReceiverInv domain (ctx.setHigh idx counter) store
      (accepted ++ [⟨canId, ctx.current, counter⟩]) := by
  have live := ctx.idsNeedStore (ids_ne_nil_of_findSlot found)
  rcases findSlot_some found with ⟨inRange, -⟩
  constructor
  · exact fun _ => inv.ownDomain live
  · exact fun _ => inv.currentPersisted live
  · intro one member
    rcases List.mem_append.mp member with old | new
    · exact inv.acceptedPersisted one old
    · rw [List.mem_singleton.mp new]
      exact inv.currentPersisted live
  · intro _ one member
    rcases List.mem_append.mp member with old | new
    · rcases inv.acceptedBarred live one old with
          belowFloor | belowCurrent | ⟨sameEpoch, behind⟩
      · exact Or.inl belowFloor
      · exact Or.inr (Or.inl belowCurrent)
      · refine Or.inr (Or.inr ⟨sameEpoch, ?_⟩)
        intro other otherFound
        by_cases sameOther : other = idx
        · subst sameOther
          rw [SecocRxCtx.setHigh_highAt_same _ inRange]
          have := behind other otherFound
          grind
        · rw [SecocRxCtx.setHigh_highAt_other _ sameOther]
          exact behind other otherFound
    · rw [List.mem_singleton.mp new]
      refine Or.inr (Or.inr ⟨rfl, ?_⟩)
      intro other otherFound
      have sameOther : other = idx :=
        Option.some.inj (otherFound.symm.trans found)
      rw [sameOther, SecocRxCtx.setHigh_highAt_same _ inRange]
      exact UInt16.le_refl _
  · exact increasing_concat inv.increasing (inv.follows_of_ok passes)

/-- Accepting a value the check passed keeps the invariant. -/
theorem accept
    {canId epoch counter : UInt16}
    {succeeded : Bool}
    (inv : ReceiverInv domain ctx store accepted)
    (passes : secocRxCheck ctx canId epoch counter = .ok)
    (ran :
      secocRxAccept durablePort ctx canId epoch counter store =
        (succeeded, ctxAfter, storeAfter)) :
    ReceiverInv domain ctxAfter storeAfter
      (accepted ++ if succeeded then [⟨canId, epoch, counter⟩] else []) := by
  rcases secocRxCheck_ok.mp passes with ⟨slot, registered, -, rule⟩
  have live := ctx.idsNeedStore (ids_ne_nil_of_findSlot registered)
  rcases secocRxAccept_cases ran with
      ⟨rfl, rfl, rfl | ⟨idx, -, newer, failed⟩⟩ |
      ⟨idx, rfl, found, ⟨newer, committed, rfl⟩ | ⟨notNewer, rfl, rfl⟩⟩
  · simpa using inv
  · rw [durablePort_commit, inv.ownDomain live] at failed
    simpa using inv.refused passes newer failed
  · rw [durablePort_commit, inv.ownDomain live] at committed
    exact inv.adopts passes found newer committed
  · have sameSlot : slot = idx :=
      Option.some.inj (registered.symm.trans found)
    rcases rule with newer | ⟨rfl, above⟩
    · exact absurd newer (UInt16.not_lt.mpr notNewer)
    · exact inv.counts passes found (sameSlot ▸ above)

/-- A boot keeps the invariant unless its floor wraps. -/
theorem boot
    {ids : List UInt16}
    {booted : Bool}
    (inv : ReceiverInv domain ctx store accepted)
    (noWrap :
      ids.length ≠ 0 ∧ ids.length ≤ secocMaxIds →
        store.slot domain ≠ some 0xFFFF)
    (ran :
      secocRxBoot durablePort ctx domain ids store = (booted, ctxAfter)) :
    ReceiverInv domain ctxAfter store accepted := by
  rcases secocRxBoot_cases ran with ⟨-, rfl⟩ | ⟨idsFit, -, idsSome, rfl⟩
  · exact inv
  · have idsOk : ids.length ≠ 0 ∧ ids.length ≤ secocMaxIds :=
      ⟨by simpa using idsSome, idsFit⟩
    have notFull : persistedEpoch store domain ≠ 0xFFFF := by
      unfold persistedEpoch
      cases holds : store.slot domain with
      | none =>
          decide
      | some durable =>
          rintro rfl
          exact noWrap idsOk holds
    constructor
    · exact fun _ => rfl
    · exact fun _ => UInt16.le_refl _
    · exact inv.acceptedPersisted
    · intro _ one member
      left
      have persisted := inv.acceptedPersisted one member
      have next : one.epoch < persistedEpoch store domain + 1 := by
        grind
      exact next
    · exact inv.increasing

end ReceiverInv

/-!
## Runs of one receiver
-/

/-- A receiver node: its RAM context and its durable store. -/
structure Receiver where
  ctx : SecocRxCtx
  store : FreshnessStore

/-- What may happen to a receiver, with the outcomes of the commits it makes. -/
inductive ReceiverAction where
  | powerLoss
  | rxBoot (ids : List UInt16) (outcomes : List CommitOutcome)
  | rxCheck (canId epoch counter : UInt16)
  | rxAccept (canId epoch counter : UInt16) (outcomes : List CommitOutcome)
  deriving Repr, DecidableEq

/--
One step of a receiver that keeps the sender's epoch under `domain`; it shows
the values for which `secoc_rx_accept` returned true.

The accept of `rxAccept` is only called when the check right before it passes.
-/
def receiverStep (domain : UInt8) :
    Machine.Step Receiver ReceiverAction FreshValue
  | receiver, .powerLoss => ({ receiver with ctx := .reset }, [])
  | receiver, .rxBoot ids outcomes =>
      let (_, ctx) :=
        secocRxBoot durablePort receiver.ctx domain ids
          (receiver.store.arm outcomes)
      (⟨ctx, receiver.store⟩, [])
  | receiver, .rxCheck _ _ _ => (receiver, [])
  | receiver, .rxAccept canId epoch counter outcomes =>
      if secocRxCheck receiver.ctx canId epoch counter = .ok then
        let (succeeded, ctx, store) :=
          secocRxAccept durablePort receiver.ctx canId epoch counter
            (receiver.store.arm outcomes)
        (⟨ctx, store⟩, if succeeded then [⟨canId, epoch, counter⟩] else [])
      else
        (receiver, [])

/-- No boot computes its floor from the durable epoch 0xFFFF. -/
def NoFloorWrap (domain : UInt8) : Receiver → ReceiverAction → Prop
  | receiver, .rxBoot ids _ =>
      ids.length ≠ 0 ∧ ids.length ≤ secocMaxIds →
        receiver.store.slot domain ≠ some 0xFFFF
  | _, _ => True

instance NoFloorWrap.decidable (domain : UInt8) :
    ∀ receiver action, Decidable (NoFloorWrap domain receiver action)
  | _, .powerLoss => inferInstanceAs (Decidable True)
  | _, .rxBoot _ _ => inferInstanceAs (Decidable (_ → _))
  | _, .rxCheck _ _ _ => inferInstanceAs (Decidable True)
  | _, .rxAccept _ _ _ _ => inferInstanceAs (Decidable True)

/-- Every step that wraps no floor keeps the receiver invariant. -/
theorem receiverInv_step
    {domain : UInt8}
    {receiver : Receiver}
    {history : List FreshValue}
    (action : ReceiverAction)
    (inv : ReceiverInv domain receiver.ctx receiver.store history)
    (noWrap : NoFloorWrap domain receiver action) :
    ReceiverInv domain
      (receiverStep domain receiver action).1.ctx
      (receiverStep domain receiver action).1.store
      (history ++ (receiverStep domain receiver action).2) := by
  cases action with
  | powerLoss =>
      simpa [receiverStep] using inv.reset
  | rxBoot ids outcomes =>
      rcases ran :
          secocRxBoot durablePort receiver.ctx domain ids
            (receiver.store.arm outcomes) with ⟨booted, ctxAfter⟩
      have armed :
          ReceiverInv domain receiver.ctx (receiver.store.arm outcomes)
            history :=
        inv.of_slot_eq rfl
      simp only [receiverStep, ran, List.append_nil]
      exact (armed.boot noWrap ran).of_slot_eq rfl
  | rxCheck canId epoch counter =>
      simpa [receiverStep] using inv
  | rxAccept canId epoch counter outcomes =>
      by_cases passes : secocRxCheck receiver.ctx canId epoch counter = .ok
      · rcases ran :
            secocRxAccept durablePort receiver.ctx canId epoch counter
              (receiver.store.arm outcomes) with
            ⟨succeeded, ctxAfter, storeAfter⟩
        have armed :
            ReceiverInv domain receiver.ctx (receiver.store.arm outcomes)
              history :=
          inv.of_slot_eq rfl
        simp only [receiverStep, passes, ↓reduceIte, ran]
        exact armed.accept passes ran
      · simpa [receiverStep, passes] using inv

/-- A replay the receiver accepts again after booting on epoch 0xFFFF. -/
theorem receiver_accepts_replay_at_max_epoch :
    let actions : List ReceiverAction :=
      [.rxBoot [0x120] [], .rxAccept 0x120 0xFFFF 1 [], .powerLoss,
        .rxBoot [0x120] [], .rxAccept 0x120 0xFFFF 1 []]
    ¬ (Machine.trace (receiverStep 1) ⟨.reset, .blank⟩ actions).Nodup := by
  decide

/--
In every run in which no boot finds the durable epoch 0xFFFF, no value is
accepted twice, whatever is offered, whenever power is lost and whichever
commits fail.
-/
theorem receiver_accepts_at_most_once
    (domain : UInt8)
    (store : FreshnessStore)
    (actions : List ReceiverAction)
    (noWrap :
      Machine.Allowed (receiverStep domain) (NoFloorWrap domain)
        ⟨.reset, store⟩ actions) :
    (Machine.trace (receiverStep domain) ⟨.reset, store⟩ actions).Nodup := by
  have start : ReceiverInv domain .reset store [] := .start domain store
  have preserved :
      ∀ receiver history action,
        ReceiverInv domain receiver.ctx receiver.store history →
        NoFloorWrap domain receiver action →
        ReceiverInv domain (receiverStep domain receiver action).1.ctx
          (receiverStep domain receiver action).1.store
          (history ++ (receiverStep domain receiver action).2) :=
    fun _ _ action => receiverInv_step action
  have inv := Machine.invariant_of_start preserved start noWrap
  exact nodup_of_increasing inv.increasing

/-- A run with a reboot, a failed commit and a replay that is refused. -/
theorem receiver_accepts_at_most_once_after_reboot :
    let actions : List ReceiverAction :=
      [.rxBoot [0x120, 0x121] [], .rxAccept 0x120 7 1 [],
        .rxAccept 0x121 7 1 [], .rxAccept 0x120 9 1 [.failedOld], .powerLoss,
        .rxBoot [0x120, 0x121] [], .rxAccept 0x120 7 1 [],
        .rxAccept 0x120 9 1 []]
    let accepted := Machine.trace (receiverStep 1) ⟨.reset, .blank⟩ actions
    accepted = [⟨0x120, 7, 1⟩, ⟨0x121, 7, 1⟩, ⟨0x120, 9, 1⟩] ∧
      accepted.Nodup :=
  ⟨by decide, receiver_accepts_at_most_once 1 .blank _ (by decide)⟩

end TraveoBodyDomain
