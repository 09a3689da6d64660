import Mathlib.Tactic.Common
import TraveoBodyDomain.Lib.Machine
import TraveoBodyDomain.Secoc.Freshness

/-!
# A sender never reuses a freshness value

The invariant ties the RAM context, its counters and the durable epoch to the
values already issued.  Every sender operation keeps it, whatever the commit it
makes does, so the values issued for one ID increase for ever: across
rollovers, floor adoptions and reboots.
-/

namespace TraveoBodyDomain

/-- The durable epoch of `domain` is at least `epoch`. -/
def Covers
    (store : FreshnessStore)
    (domain : UInt8)
    (epoch : UInt16) : Prop :=
  ∃ durable, store.slot domain = some durable ∧ epoch ≤ durable

namespace Covers

variable {store next : FreshnessStore}
  {domain : UInt8}
  {epoch value : UInt16}

/-- Covering depends on the domain's slot only. -/
theorem of_slot_eq
    (covers : Covers store domain epoch)
    (same : next.slot domain = store.slot domain) :
    Covers next domain epoch := by
  rcases covers with ⟨durable, holds, least⟩
  exact ⟨durable, same.trans holds, least⟩

/-- Committing a value that is no smaller keeps an epoch covered. -/
theorem commit
    {succeeded : Bool}
    (covers : Covers store domain epoch)
    (notBelow : epoch ≤ value)
    (committed : store.commit domain value = (succeeded, next)) :
    Covers next domain epoch := by
  rcases DurableMap.commit_slot_same committed with replaced | kept
  · exact ⟨value, replaced, notBelow⟩
  · exact covers.of_slot_eq kept

/-- An acknowledged commit covers everything up to its value. -/
theorem of_commit
    (notBelow : epoch ≤ value)
    (committed : store.commit domain value = (true, next)) :
    Covers next domain epoch := by
  refine ⟨value, ?_, notBelow⟩
  rw [(DurableMap.commit_true committed).1, Function.update_self]

/-- A covered epoch is below the next one to boot with, short of the wrap. -/
theorem lt_next
    (covers : Covers store domain epoch)
    (noWrap : store.slot domain ≠ some 0xFFFF) :
    epoch < (store.slot domain).getD 0 + 1 := by
  rcases covers with ⟨durable, holds, least⟩
  have notFull : durable ≠ 0xFFFF := by
    rintro rfl
    exact noWrap holds
  rw [holds]
  simp only [Option.getD_some]
  grind

end Covers

/-- What a call of `secoc_tx_next` adds to the values issued. -/
def issueOf
    (canId : UInt16)
    (result : Option (UInt16 × UInt16)) :
    List FreshValue :=
  result.toList.map fun pair => ⟨canId, pair.1, pair.2⟩

/-- The next value of `canId` needs a new epoch first. -/
def rolloverDue
    (ctx : SecocTxCtx)
    (canId : UInt16) :
    Bool :=
  (findSlot ctx.ids canId).any fun idx => ctx.counterAt idx == 0xFFFF

/-- A full counter makes the rollover due. -/
theorem rolloverDue_of_full
    {ctx : SecocTxCtx}
    {canId : UInt16}
    {idx : Nat}
    (found : findSlot ctx.ids canId = some idx)
    (full : ctx.counterAt idx = 0xFFFF) :
    rolloverDue ctx canId = true := by
  simp [rolloverDue, found, full]

/-- Right after a restart no rollover is due. -/
theorem rolloverDue_restart
    (ctx : SecocTxCtx)
    (epoch canId : UInt16) :
    ¬ rolloverDue (ctx.restart epoch) canId = true := by
  unfold rolloverDue
  cases findSlot (ctx.restart epoch).ids canId with
  | none =>
      simp
  | some idx =>
      simp

/-- The RAM context, the durable epoch and the values issued agree. -/
structure SenderInv
    (domain : UInt8)
    (ctx : SecocTxCtx)
    (store : FreshnessStore)
    (issued : List FreshValue) : Prop where
  ownDomain : ctx.storeSet = true → ctx.domain = domain
  liveDurable : ctx.storeSet = true → Covers store domain ctx.epoch
  issuedDurable : ∀ one ∈ issued, Covers store domain one.epoch
  issuedBehind : ctx.storeSet = true → ∀ one ∈ issued, one.epoch ≤ ctx.epoch
  countersAhead :
    ctx.storeSet = true →
      ∀ one ∈ issued, one.epoch = ctx.epoch →
        ∀ idx, findSlot ctx.ids one.canId = some idx →
          one.counter ≤ ctx.counterAt idx
  increasing :
    ∀ canId, (pairsOf canId issued).Pairwise Increasing.lexLt

namespace SenderInv

variable {domain : UInt8}
  {ctx ctxAfter : SecocTxCtx}
  {store storeAfter : FreshnessStore}
  {issued : List FreshValue}

/-- A node without RAM contents that issued nothing. -/
theorem start
    (domain : UInt8)
    (store : FreshnessStore) :
    SenderInv domain .reset store [] := by
  constructor <;> simp [SecocTxCtx.reset]

/-- Losing the RAM context loses nothing the invariant needs. -/
theorem reset
    (inv : SenderInv domain ctx store issued) :
    SenderInv domain .reset store issued := by
  refine ⟨?_, ?_, inv.issuedDurable, ?_, ?_, inv.increasing⟩ <;>
    simp [SecocTxCtx.reset]

/-- The store may change as long as it covers what the context and issues use. -/
theorem withStore
    (inv : SenderInv domain ctx store issued)
    (kept :
      ∀ epoch,
        Covers store domain epoch →
        (ctx.storeSet = true → epoch ≤ ctx.epoch) →
        Covers storeAfter domain epoch) :
    SenderInv domain ctx storeAfter issued where
  ownDomain := inv.ownDomain
  liveDurable := by
    intro live
    exact kept ctx.epoch (inv.liveDurable live) (fun _ => UInt16.le_refl _)
  issuedDurable := by
    intro one member
    refine kept one.epoch (inv.issuedDurable one member) ?_
    intro live
    exact inv.issuedBehind live one member
  issuedBehind := inv.issuedBehind
  countersAhead := inv.countersAhead
  increasing := inv.increasing

/-- Another domain's commits do not concern the sender. -/
theorem of_slot_eq
    (inv : SenderInv domain ctx store issued)
    (same : storeAfter.slot domain = store.slot domain) :
    SenderInv domain ctx storeAfter issued :=
  inv.withStore fun _ covers _ => covers.of_slot_eq same

/-- A refused commit of a later epoch keeps the invariant. -/
theorem refused
    {value : UInt16}
    (inv : SenderInv domain ctx store issued)
    (live : ctx.storeSet = true)
    (notBelow : ctx.epoch ≤ value)
    (failed : store.commit ctx.domain value = (false, storeAfter)) :
    SenderInv domain ctx storeAfter issued := by
  rw [inv.ownDomain live] at failed
  refine inv.withStore ?_
  intro epoch covers behind
  have notBelowValue : epoch ≤ value := by
    have behindLive := behind live
    grind
  exact covers.commit notBelowValue failed

/-- Moving to a later epoch, committed first, restarts the counters. -/
theorem restart
    {value : UInt16}
    (inv : SenderInv domain ctx store issued)
    (live : ctx.storeSet = true)
    (later : ctx.epoch < value)
    (committed : store.commit ctx.domain value = (true, storeAfter)) :
    SenderInv domain (ctx.restart value) storeAfter issued := by
  rw [inv.ownDomain live] at committed
  have behind : ∀ one ∈ issued, one.epoch < value := by
    intro one member
    have := inv.issuedBehind live one member
    grind
  constructor
  · exact fun _ => inv.ownDomain live
  · exact fun _ => Covers.of_commit (UInt16.le_refl _) committed
  · intro one member
    exact Covers.of_commit (UInt16.le_of_lt (behind one member)) committed
  · exact fun _ one member => UInt16.le_of_lt (behind one member)
  · intro _ one member sameEpoch
    have := behind one member
    simp only [SecocTxCtx.restart_epoch] at sameEpoch
    grind
  · exact inv.increasing

/-- Handing out the next counter of a registered ID with room left. -/
theorem spend
    {canId : UInt16}
    {idx : Nat}
    (inv : SenderInv domain ctx store issued)
    (found : findSlot ctx.ids canId = some idx)
    (room : ctx.counterAt idx ≠ 0xFFFF) :
    SenderInv domain
      (ctx.setCounter idx (ctx.counterAt idx + 1)) store
      (issued ++ [⟨canId, ctx.epoch, ctx.counterAt idx + 1⟩]) := by
  have live : ctx.storeSet = true :=
    ctx.idsNeedStore (ids_ne_nil_of_findSlot found)
  have grows : ctx.counterAt idx < ctx.counterAt idx + 1 := by
    grind
  constructor
  · exact fun _ => inv.ownDomain live
  · exact fun _ => inv.liveDurable live
  · intro one member
    rcases List.mem_append.mp member with old | new
    · exact inv.issuedDurable one old
    · rw [List.mem_singleton.mp new]
      exact inv.liveDurable live
  · intro _ one member
    rcases List.mem_append.mp member with old | new
    · exact inv.issuedBehind live one old
    · rw [List.mem_singleton.mp new]
      exact UInt16.le_refl _
  · intro _ one member sameEpoch other otherFound
    rcases findSlot_some found with ⟨inRange, -⟩
    by_cases sameSlot : other = idx
    · subst sameSlot
      rw [SecocTxCtx.setCounter_counterAt_same _ inRange]
      rcases List.mem_append.mp member with old | new
      · have := inv.countersAhead live one old sameEpoch other otherFound
        grind
      · rw [List.mem_singleton.mp new]
        exact UInt16.le_refl _
    · rw [SecocTxCtx.setCounter_counterAt_other _ sameSlot]
      rcases List.mem_append.mp member with old | new
      · exact inv.countersAhead live one old sameEpoch other otherFound
      · rw [List.mem_singleton.mp new] at otherFound
        have sameFound : some other = some idx :=
          otherFound.symm.trans found
        exact (sameSlot (Option.some.inj sameFound)).elim
  · refine increasing_concat inv.increasing ?_
    intro pair member
    have old := mem_pairsOf.mp member
    have behind := inv.issuedBehind live _ old
    by_cases sameEpoch : pair.1 = ctx.epoch
    · right
      have ahead := inv.countersAhead live _ old sameEpoch idx found
      refine ⟨sameEpoch, ?_⟩
      grind
    · left
      grind

/-- `secoc_tx_boot` keeps the invariant unless it wraps the epoch. -/
theorem boot
    {ids : List UInt16}
    {booted : Bool}
    (inv : SenderInv domain ctx store issued)
    (noWrap :
      ids.length ≠ 0 ∧ ids.length ≤ secocMaxIds →
        store.slot domain = some 0xFFFF → store.nextOutcome = .failedOld)
    (ran :
      secocTxBoot durablePort ctx domain ids store =
        (booted, ctxAfter, storeAfter)) :
    SenderInv domain ctxAfter storeAfter issued := by
  rcases secocTxBoot_cases ran with
      ⟨-, rfl, rfl | ⟨idsOk, committed⟩⟩ | ⟨idsFit, -, idsSome, committed, rfl⟩
  · exact inv
  · by_cases full : store.slot domain = some 0xFFFF
    · have kept := DurableMap.commit_failedOld (noWrap idsOk full) committed
      exact inv.of_slot_eq (congrFun kept.2 domain)
    · refine inv.withStore ?_
      intro epoch covers _
      exact
        covers.commit (UInt16.le_of_lt (covers.lt_next full)) committed
  · have notFull : store.slot domain ≠ some 0xFFFF := by
      intro full
      have idsOk : ids.length ≠ 0 ∧ ids.length ≤ secocMaxIds :=
        ⟨by simpa using idsSome, idsFit⟩
      have kept := DurableMap.commit_failedOld (noWrap idsOk full) committed
      exact Bool.noConfusion kept.1
    have behind :
        ∀ one ∈ issued, one.epoch < (store.slot domain).getD 0 + 1 := by
      intro one member
      exact (inv.issuedDurable one member).lt_next notFull
    constructor
    · exact fun _ => rfl
    · exact fun _ => Covers.of_commit (UInt16.le_refl _) committed
    · intro one member
      exact Covers.of_commit (UInt16.le_of_lt (behind one member)) committed
    · exact fun _ one member => UInt16.le_of_lt (behind one member)
    · intro _ one member sameEpoch
      have earlier := behind one member
      rw [sameEpoch] at earlier
      exact absurd earlier (UInt16.lt_irrefl _)
    · exact inv.increasing

/-- `secoc_tx_next` keeps the invariant unless it wraps the epoch. -/
theorem next
    {canId : UInt16}
    {result : Option (UInt16 × UInt16)}
    (inv : SenderInv domain ctx store issued)
    (noWrap :
      rolloverDue ctx canId = true →
        ctx.epoch = 0xFFFF → store.nextOutcome = .failedOld)
    (ran :
      secocTxNext durablePort ctx canId store =
        (result, ctxAfter, storeAfter)) :
    SenderInv domain ctxAfter storeAfter (issued ++ issueOf canId result) := by
  rcases secocTxNext_cases ran with
      ⟨rfl, rfl, rfl | ⟨idx, found, full, committed⟩⟩ |
      ⟨idx, found,
        ⟨full, committed, rfl, rfl⟩ | ⟨room, rfl, rfl, rfl⟩⟩
  · simpa [issueOf] using inv
  · have live := ctxAfter.idsNeedStore (ids_ne_nil_of_findSlot found)
    have due := rolloverDue_of_full found full
    simp only [issueOf, Option.toList_none, List.map_nil, List.append_nil]
    by_cases atMax : ctxAfter.epoch = 0xFFFF
    · have kept := DurableMap.commit_failedOld (noWrap due atMax) committed
      exact inv.of_slot_eq (congrFun kept.2 domain)
    · exact inv.refused live (by grind) committed
  · have live := ctx.idsNeedStore (ids_ne_nil_of_findSlot found)
    have due := rolloverDue_of_full found full
    have notMax : ctx.epoch ≠ 0xFFFF := by
      intro atMax
      have kept := DurableMap.commit_failedOld (noWrap due atMax) committed
      exact Bool.noConfusion kept.1
    have restarted := inv.restart live (by grind) committed
    -- The restarted context has the same slots, all with room.
    have spent := restarted.spend found (by simp)
    simpa [issueOf] using spent
  · simpa [issueOf] using inv.spend found room

/-- `secoc_tx_adopt_floor` keeps the invariant. -/
theorem adoptFloor
    {requestedFloor : UInt16}
    {moved : Bool}
    (inv : SenderInv domain ctx store issued)
    (ran :
      secocTxAdoptFloor durablePort ctx requestedFloor store =
        .ok (moved, ctxAfter, storeAfter)) :
    SenderInv domain ctxAfter storeAfter issued := by
  rcases secocTxAdoptFloor_cases ran with
      ⟨-, rfl, rfl | ⟨above, live, committed⟩⟩ |
      ⟨-, above, live, committed, rfl⟩
  · exact inv
  · exact inv.refused live (UInt16.le_of_lt above) committed
  · exact inv.restart live above committed

end SenderInv

/-!
## Runs of one sender
-/

/-- A sender node: its RAM context and its durable store. -/
structure Sender where
  ctx : SecocTxCtx
  store : FreshnessStore

/-- What may happen to a sender, with the outcomes of the commits it makes. -/
inductive SenderAction where
  | powerLoss
  | txBoot (ids : List UInt16) (outcomes : List CommitOutcome)
  | txNext (canId : UInt16) (outcomes : List CommitOutcome)
  | adoptFloor (requestedFloor : UInt16) (outcomes : List CommitOutcome)
  deriving Repr, DecidableEq

/-- What an observer of a sender sees. -/
inductive SenderEvent where
  | committed (domain : UInt8) (epoch : UInt16)
  | issued (one : FreshValue)
  deriving Repr, DecidableEq

/-- The commits a call was told are durable. -/
def commitEvents (store : FreshnessStore) : List SenderEvent :=
  store.acknowledged.map fun commit => .committed commit.1 commit.2

/--
One step of a sender that keeps its epoch under `domain`.

Power lost inside a call is covered: before its commit it is `powerLoss`, after
it the call with a commit that failed with the new value durable, and then
`powerLoss`.  A call through the NULL store pointer ends in the fault handler,
which only a reset leaves.
-/
def senderStep (domain : UInt8) :
    Machine.Step Sender SenderAction SenderEvent
  | sender, .powerLoss => ({ sender with ctx := .reset }, [])
  | sender, .txBoot ids outcomes =>
      let (_, ctx, store) :=
        secocTxBoot durablePort sender.ctx domain ids
          (sender.store.arm outcomes)
      (⟨ctx, store⟩, commitEvents store)
  | sender, .txNext canId outcomes =>
      let (result, ctx, store) :=
        secocTxNext durablePort sender.ctx canId (sender.store.arm outcomes)
      (⟨ctx, store⟩, commitEvents store ++ (issueOf canId result).map .issued)
  | sender, .adoptFloor requestedFloor outcomes =>
      match
        secocTxAdoptFloor durablePort sender.ctx requestedFloor
          (sender.store.arm outcomes)
      with
      | .ok (_, ctx, store) => (⟨ctx, store⟩, commitEvents store)
      | .error _ => ({ sender with ctx := .reset }, [])

/--
The step does not bump the epoch from 0xFFFF.

A bump is attempted by a boot on that durable epoch and by a rollover in that
epoch; it only has no effect when the store keeps the old value.
-/
def NoWrapBump (domain : UInt8) : Sender → SenderAction → Prop
  | sender, .txBoot ids outcomes =>
      ids.length ≠ 0 ∧ ids.length ≤ secocMaxIds →
        sender.store.slot domain = some 0xFFFF →
        (sender.store.arm outcomes).nextOutcome = .failedOld
  | sender, .txNext canId outcomes =>
      rolloverDue sender.ctx canId = true →
        sender.ctx.epoch = 0xFFFF →
        (sender.store.arm outcomes).nextOutcome = .failedOld
  | _, _ => True

/-- The values issued in a trace, in order. -/
def issuedIn (trace : List SenderEvent) : List FreshValue :=
  trace.filterMap fun
    | .issued one => some one
    | .committed _ _ => none

/-- The call is one of `secoc_tx_next`, `secoc_tx_adopt_floor` and fails. -/
def ReturnsFalse : Sender → SenderAction → Prop
  | sender, .txNext canId outcomes =>
      (secocTxNext durablePort sender.ctx canId
        (sender.store.arm outcomes)).1 = none
  | sender, .adoptFloor requestedFloor outcomes =>
      ∃ ctx store,
        secocTxAdoptFloor durablePort sender.ctx requestedFloor
          (sender.store.arm outcomes) = .ok (false, ctx, store)
  | _, _ => False

instance NoWrapBump.decidable (domain : UInt8) :
    ∀ sender action, Decidable (NoWrapBump domain sender action)
  | _, .powerLoss => inferInstanceAs (Decidable True)
  | _, .txBoot _ _ => inferInstanceAs (Decidable (_ → _))
  | _, .txNext _ _ => inferInstanceAs (Decidable (_ → _))
  | _, .adoptFloor _ _ => inferInstanceAs (Decidable True)

@[simp] theorem issuedIn_append
    (first second : List SenderEvent) :
    issuedIn (first ++ second) = issuedIn first ++ issuedIn second :=
  List.filterMap_append

@[simp] theorem issuedIn_commitEvents
    (store : FreshnessStore) :
    issuedIn (commitEvents store) = [] := by
  simp [issuedIn, commitEvents]

@[simp] theorem issuedIn_map_issued
    (issued : List FreshValue) :
    issuedIn (issued.map .issued) = issued := by
  simp [issuedIn, List.filterMap_map]

/-- A commit acknowledged during a call is the only one the call reports. -/
theorem commitEvents_of_commit
    {store next : FreshnessStore}
    {outcomes : List CommitOutcome}
    {domain : UInt8}
    {epoch : UInt16}
    (committed : (store.arm outcomes).commit domain epoch = (true, next)) :
    commitEvents next = [.committed domain epoch] := by
  simp [commitEvents, (DurableMap.commit_true committed).2]

/-- An issue may only follow the durable commit of its epoch. -/
def NeedsCommit
    (domain : UInt8)
    (event cause : SenderEvent) : Prop :=
  ∃ one, event = .issued one ∧ cause = .committed domain one.epoch

/-- What holds after every run of a sender, with what the run showed. -/
structure SenderRunInv
    (domain : UInt8)
    (sender : Sender)
    (history : List SenderEvent) : Prop where
  values : SenderInv domain sender.ctx sender.store (issuedIn history)
  epochCommitted :
    sender.ctx.storeSet = true →
      .committed domain sender.ctx.epoch ∈ history
  commitsPrecede : Machine.CausesPrecede (NeedsCommit domain) history

namespace SenderRunInv

variable {domain : UInt8}
  {sender : Sender}
  {history : List SenderEvent}

/-- Scheduling outcomes does not touch what is durable. -/
theorem armed
    (inv : SenderRunInv domain sender history)
    (outcomes : List CommitOutcome) :
    SenderInv domain sender.ctx (sender.store.arm outcomes)
      (issuedIn history) :=
  inv.values.of_slot_eq rfl

/-- Reported commits may be added to the history at any time. -/
theorem commitsPrecede_commitEvents
    (inv : SenderRunInv domain sender history)
    (store : FreshnessStore) :
    Machine.CausesPrecede (NeedsCommit domain)
      (history ++ commitEvents store) := by
  refine inv.commitsPrecede.append_free ?_
  intro event member cause needed
  rcases List.mem_map.mp member with ⟨commit, -, rfl⟩
  rcases needed with ⟨one, isIssue, -⟩
  cases isIssue

/-- A boot keeps the run invariant. -/
theorem txBoot
    {ids : List UInt16}
    {outcomes : List CommitOutcome}
    (inv : SenderRunInv domain sender history)
    (noWrap : NoWrapBump domain sender (.txBoot ids outcomes)) :
    SenderRunInv domain
      (senderStep domain sender (.txBoot ids outcomes)).1
      (history ++ (senderStep domain sender (.txBoot ids outcomes)).2) := by
  rcases ran :
      secocTxBoot durablePort sender.ctx domain ids
        (sender.store.arm outcomes) with ⟨booted, ctxAfter, storeAfter⟩
  have values := (inv.armed outcomes).boot noWrap ran
  simp only [senderStep, ran]
  refine ⟨by simpa using values, ?_, inv.commitsPrecede_commitEvents _⟩
  intro live
  rcases secocTxBoot_cases ran with
      ⟨-, rfl, -⟩ | ⟨idsFit, -, -, committed, rfl⟩
  · exact List.mem_append_left _ (inv.epochCommitted live)
  · rw [durablePort_commit] at committed
    rw [commitEvents_of_commit committed]
    exact List.mem_append_right _ (List.mem_singleton_self _)

/-- A floor adoption keeps the run invariant. -/
theorem adoptFloor
    {requestedFloor : UInt16}
    {outcomes : List CommitOutcome}
    (inv : SenderRunInv domain sender history) :
    SenderRunInv domain
      (senderStep domain sender (.adoptFloor requestedFloor outcomes)).1
      (history ++
        (senderStep domain sender (.adoptFloor requestedFloor outcomes)).2) := by
  rcases ran :
      secocTxAdoptFloor durablePort sender.ctx requestedFloor
        (sender.store.arm outcomes) with fault | ⟨moved, ctxAfter, storeAfter⟩
  · simp only [senderStep, ran, List.append_nil]
    exact ⟨inv.values.reset, by simp [SecocTxCtx.reset], inv.commitsPrecede⟩
  · have values :=
      (inv.values.of_slot_eq (DurableMap.arm_slot outcomes _ ▸ rfl)).adoptFloor
        ran
    simp only [senderStep, ran]
    refine ⟨by simpa using values, ?_, inv.commitsPrecede_commitEvents _⟩
    intro live
    rcases secocTxAdoptFloor_cases ran with
        ⟨-, rfl, -⟩ | ⟨-, -, wasLive, committed, rfl⟩
    · exact List.mem_append_left _ (inv.epochCommitted live)
    · rw [durablePort_commit, inv.values.ownDomain wasLive] at committed
      rw [commitEvents_of_commit committed]
      exact List.mem_append_right _ (List.mem_singleton_self _)

/-- Issuing a value keeps the run invariant. -/
theorem txNext
    {canId : UInt16}
    {outcomes : List CommitOutcome}
    (inv : SenderRunInv domain sender history)
    (noWrap : NoWrapBump domain sender (.txNext canId outcomes)) :
    SenderRunInv domain
      (senderStep domain sender (.txNext canId outcomes)).1
      (history ++ (senderStep domain sender (.txNext canId outcomes)).2) := by
  rcases ran :
      secocTxNext durablePort sender.ctx canId
        (sender.store.arm outcomes) with ⟨result, ctxAfter, storeAfter⟩
  have values := (inv.armed outcomes).next noWrap ran
  have epochCommitted :
      ctxAfter.storeSet = true →
        SenderEvent.committed domain ctxAfter.epoch ∈
          history ++ commitEvents storeAfter := by
    intro live
    rcases secocTxNext_cases ran with
        ⟨-, rfl, -⟩ |
        ⟨idx, found, ⟨-, committed, -, rfl⟩ | ⟨-, -, -, rfl⟩⟩
    · exact List.mem_append_left _ (inv.epochCommitted live)
    · have wasLive := sender.ctx.idsNeedStore (ids_ne_nil_of_findSlot found)
      rw [durablePort_commit, inv.values.ownDomain wasLive] at committed
      rw [commitEvents_of_commit committed]
      exact List.mem_append_right _ (List.mem_singleton_self _)
    · exact List.mem_append_left _ (inv.epochCommitted live)
  have precede := inv.commitsPrecede_commitEvents storeAfter
  simp only [senderStep, ran]
  rw [← List.append_assoc]
  refine ⟨by simpa using values, ?_, ?_⟩
  · intro live
    exact List.mem_append_left _ (epochCommitted live)
  · cases result with
    | none =>
        simpa [issueOf] using precede
    | some pair =>
        simp only [issueOf, Option.toList_some, List.map_cons, List.map_nil]
        apply precede.concat
        rintro cause ⟨one, isIssue, rfl⟩
        cases isIssue
        -- The pair carries the epoch of the context after the call.
        rcases secocTxNext_cases ran with
            ⟨absent, -, -⟩ |
            ⟨idx, found, ⟨-, -, issued, rfl⟩ | ⟨-, -, issued, rfl⟩⟩
        · cases absent
        · cases issued
          exact epochCommitted (sender.ctx.idsNeedStore
            (ids_ne_nil_of_findSlot found))
        · cases issued
          exact epochCommitted (sender.ctx.idsNeedStore
            (ids_ne_nil_of_findSlot found))

/-- Every allowed step keeps the run invariant. -/
theorem step
    (action : SenderAction)
    (inv : SenderRunInv domain sender history)
    (noWrap : NoWrapBump domain sender action) :
    SenderRunInv domain (senderStep domain sender action).1
      (history ++ (senderStep domain sender action).2) := by
  cases action with
  | powerLoss =>
      simp only [senderStep, List.append_nil]
      exact ⟨inv.values.reset, by simp [SecocTxCtx.reset], inv.commitsPrecede⟩
  | txBoot ids outcomes =>
      exact inv.txBoot noWrap
  | txNext canId outcomes =>
      exact inv.txNext noWrap
  | adoptFloor requestedFloor outcomes =>
      exact inv.adoptFloor

end SenderRunInv

/-- A call that fails issues nothing and leaves the RAM context alone. -/
theorem returnsFalse_unchanged
    (domain : UInt8)
    {sender : Sender}
    {action : SenderAction}
    (failed : ReturnsFalse sender action) :
    (senderStep domain sender action).1.ctx = sender.ctx ∧
      issuedIn (senderStep domain sender action).2 = [] := by
  cases action with
  | powerLoss =>
      exact failed.elim
  | txBoot ids outcomes =>
      exact failed.elim
  | txNext canId outcomes =>
      rcases ran :
          secocTxNext durablePort sender.ctx canId
            (sender.store.arm outcomes) with ⟨result, ctxAfter, storeAfter⟩
      simp only [ReturnsFalse, ran] at failed
      subst failed
      simp only [senderStep, ran]
      rcases secocTxNext_cases ran with
          ⟨-, rfl, -⟩ | ⟨idx, -, ⟨-, -, issued, -⟩ | ⟨-, -, issued, -⟩⟩
      · simp [issueOf]
      · cases issued
      · cases issued
  | adoptFloor requestedFloor outcomes =>
      rcases failed with ⟨ctxAfter, storeAfter, ran⟩
      simp only [senderStep, ran, issuedIn_commitEvents, and_true]
      rcases secocTxAdoptFloor_cases ran with
          ⟨-, unchanged, -⟩ | ⟨moved, -⟩
      · exact unchanged
      · cases moved

/--
Sender freshness over every run that never bumps the epoch from 0xFFFF: the
pairs issued for one ID increase strictly, so no value is issued twice; every
issue follows the durable commit of its epoch; a failed call changes nothing.
-/
theorem sender_freshness_unique
    (domain : UInt8)
    (store : FreshnessStore)
    (actions : List SenderAction)
    (noWrap :
      Machine.Allowed (senderStep domain) (NoWrapBump domain)
        ⟨.reset, store⟩ actions) :
    let trace := Machine.trace (senderStep domain) ⟨.reset, store⟩ actions
    (∀ canId,
        (pairsOf canId (issuedIn trace)).Pairwise Increasing.lexLt) ∧
      (issuedIn trace).Nodup ∧
      (∀ before one after,
        trace = before ++ .issued one :: after →
          .committed domain one.epoch ∈ before) ∧
      (∀ sender action,
        ReturnsFalse sender action →
          (senderStep domain sender action).1.ctx = sender.ctx ∧
            issuedIn (senderStep domain sender action).2 = []) := by
  intro trace
  have start : SenderRunInv domain ⟨.reset, store⟩ [] :=
    ⟨.start domain store, by simp [SecocTxCtx.reset],
      Machine.causesPrecede_nil _⟩
  have inv : SenderRunInv domain _ trace :=
    Machine.invariant_of_start
      (fun _ _ action => SenderRunInv.step action) start noWrap
  refine ⟨inv.values.increasing, nodup_of_increasing inv.values.increasing, ?_, ?_⟩
  · intro before one after split
    exact inv.commitsPrecede before _ after split _ ⟨one, rfl, rfl⟩
  · intro sender action failed
    exact returnsFalse_unchanged domain failed

/-- A run with a reboot, a boot whose commit fails and a floor adoption. -/
theorem sender_freshness_unique_after_failed_boot :
    let actions : List SenderAction :=
      [.txBoot [0x120, 0x121] [], .txNext 0x120 [], .powerLoss,
        .txBoot [0x120] [.failedNew], .txNext 0x120 [], .txBoot [0x120] [],
        .txNext 0x120 [], .adoptFloor 9 [], .txNext 0x120 []]
    let trace := Machine.trace (senderStep 0) ⟨.reset, .blank⟩ actions
    issuedIn trace = [⟨0x120, 1, 1⟩, ⟨0x120, 3, 1⟩, ⟨0x120, 9, 1⟩] ∧
      (issuedIn trace).Nodup :=
  ⟨by decide, (sender_freshness_unique 0 .blank _ (by decide)).2.1⟩

end TraveoBodyDomain
