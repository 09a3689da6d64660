import Mathlib.Tactic.Common
import TraveoBodyDomain.Lib.Machine
import TraveoBodyDomain.Secoc.Sender

/-!
# `secoc_tx_next` preempted by a floor adoption

On the gateway the App task calls `secoc_tx_next` and the CAN task, of higher
priority, may run a whole `secoc_tx_adopt_floor` between any two of its
assignments.  Here the call advances one assignment at a time.  Without a
preemption the steps compute `secocTxNext`.  An adoption after the counter was
stored and before the epoch is read pairs the old counter with the new epoch;
at every other point an adoption is harmless.
-/

namespace TraveoBodyDomain

/-- Where a call of `secoc_tx_next` is: the assignment it makes next. -/
inductive TxNextPoint where
  | testCounter
  | computeBumped
  | commitBumped (bumped : UInt16)
  | setEpoch (bumped : UInt16)
  | resetCounter (i : Nat)
  | computeNext
  | setCounter (next : UInt16)
  | readEpoch (next : UInt16)
  | writeCounter (epoch next : UInt16)
  deriving Repr, DecidableEq

/-- A call in progress: its ID, the slot found for it, where it is. -/
structure TxNextCall where
  canId : UInt16
  idx : Nat
  point : TxNextPoint
  deriving Repr, DecidableEq

/-- `g_tx`, its store and the App task's call, if one is in progress. -/
structure PreemptedSender where
  ctx : SecocTxCtx
  store : FreshnessStore
  call : Option TxNextCall

/-- The App task enters the call or advances it; the CAN task adopts a floor. -/
inductive PreemptedAction where
  | enter (canId : UInt16)
  | advance
  | adoptFloor (requestedFloor : UInt16)
  deriving Repr, DecidableEq

/-- One assignment of the call in progress. -/
def advanceCall
    (ctx : SecocTxCtx)
    (store : FreshnessStore)
    (call : TxNextCall) :
    PreemptedSender × List FreshValue :=
  let goto (ctx : SecocTxCtx) (store : FreshnessStore) (point : TxNextPoint) :
      PreemptedSender × List FreshValue :=
    (⟨ctx, store, some { call with point := point }⟩, [])
  match call.point with
  | .testCounter =>
      if ctx.counterAt call.idx = 0xFFFF then
        goto ctx store .computeBumped
      else
        goto ctx store .computeNext
  | .computeBumped => goto ctx store (.commitBumped (ctx.epoch + 1))
  | .commitBumped bumped =>
      match durablePort.commit store ctx.domain bumped with
      | (false, next) => (⟨ctx, next, none⟩, [])
      | (true, next) => goto ctx next (.setEpoch bumped)
  | .setEpoch bumped => goto { ctx with epoch := bumped } store (.resetCounter 0)
  | .resetCounter i =>
      if i < ctx.ids.length then
        goto (ctx.setCounter i 0) store (.resetCounter (i + 1))
      else
        goto ctx store .computeNext
  | .computeNext => goto ctx store (.setCounter (ctx.counterAt call.idx + 1))
  | .setCounter next =>
      goto (ctx.setCounter call.idx next) store (.readEpoch next)
  | .readEpoch next => goto ctx store (.writeCounter ctx.epoch next)
  | .writeCounter epoch next =>
      (⟨ctx, store, none⟩, [⟨call.canId, epoch, next⟩])

/-- One step of the two tasks; it shows the values `secoc_tx_next` returns. -/
def preemptedStep :
    Machine.Step PreemptedSender PreemptedAction FreshValue
  | sender, .enter canId =>
      match sender.call, findSlot sender.ctx.ids canId with
      | none, some idx =>
          ({ sender with call := some ⟨canId, idx, .testCounter⟩ }, [])
      -- Not registered: the call returns false at once.
      | none, none => (sender, [])
      | some _, _ => (sender, [])
  | sender, .advance =>
      match sender.call with
      | none => (sender, [])
      | some call => advanceCall sender.ctx sender.store call
  | sender, .adoptFloor requestedFloor =>
      match
        secocTxAdoptFloor durablePort sender.ctx requestedFloor sender.store
      with
      | .ok (_, ctx, store) => (⟨ctx, store, sender.call⟩, [])
      | .error _ => (sender, [])

/-- The step does not compute a bump from epoch 0xFFFF. -/
def NoBumpFromMax : PreemptedSender → PreemptedAction → Prop
  | sender, .advance =>
      sender.call.map TxNextCall.point = some .computeBumped →
        sender.ctx.epoch ≠ 0xFFFF
  | _, _ => True

/-- The call has stored its counter and not yet read the epoch. -/
def betweenStoreAndRead : Option TxNextCall → Bool
  | some ⟨_, _, .readEpoch _⟩ => true
  | _ => false

/-- No adoption moves the epoch between those two assignments. -/
def NoTornIssue : PreemptedSender → PreemptedAction → Prop
  | sender, .adoptFloor requestedFloor =>
      betweenStoreAndRead sender.call = true →
        requestedFloor ≤ sender.ctx.epoch
  | _, _ => True

instance NoBumpFromMax.decidable :
    ∀ sender action, Decidable (NoBumpFromMax sender action)
  | _, .enter _ => inferInstanceAs (Decidable True)
  | _, .advance => inferInstanceAs (Decidable (_ → _))
  | _, .adoptFloor _ => inferInstanceAs (Decidable True)

instance NoTornIssue.decidable :
    ∀ sender action, Decidable (NoTornIssue sender action)
  | _, .enter _ => inferInstanceAs (Decidable True)
  | _, .advance => inferInstanceAs (Decidable True)
  | _, .adoptFloor _ => inferInstanceAs (Decidable (_ → _))

/-!
## Without a preemption the steps compute `secocTxNext`
-/

/-- The loop clears every counter from `i` on. -/
private theorem resetCounter_loop
    (canId : UInt16)
    (idx : Nat)
    (store : FreshnessStore)
    (remaining : Nat)
    {ctx : SecocTxCtx}
    {i : Nat}
    (left : i + remaining = ctx.ids.length)
    (cleared : ∀ j < i, ctx.counterAt j = 0) :
    Machine.Leads preemptedStep
      ⟨ctx, store, some ⟨canId, idx, .resetCounter i⟩⟩
      (List.replicate (remaining + 1) .advance)
      ⟨ctx.restart ctx.epoch, store, some ⟨canId, idx, .computeNext⟩⟩ [] := by
  induction remaining generalizing ctx i with
  | zero =>
      have past : ¬ i < ctx.ids.length := by omega
      have counters : ctx.counter = List.replicate ctx.ids.length 0 := by
        apply List.ext_getElem
        · rw [List.length_replicate, ctx.counterSized]
        · intro j inRange _
          have zero := cleared j (by rw [ctx.counterSized] at inRange; omega)
          unfold SecocTxCtx.counterAt at zero
          rw [List.getD_eq_getElem _ _ inRange] at zero
          rw [zero, List.getElem_replicate]
      have same : ctx.restart ctx.epoch = ctx := by
        cases ctx
        simp only [SecocTxCtx.restart] at counters ⊢
        simp [counters]
      simp [Machine.Leads, preemptedStep, advanceCall, past, same]
  | succ remaining inductionHypothesis =>
      have inside : i < ctx.ids.length := by omega
      have clearedNext :
          ∀ j < i + 1, (ctx.setCounter i 0).counterAt j = 0 := by
        intro j below
        by_cases same : j = i
        · subst same
          exact SecocTxCtx.setCounter_counterAt_same 0 inside
        · rw [SecocTxCtx.setCounter_counterAt_other 0 same]
          exact cleared j (by omega)
      have leftNext :
          i + 1 + remaining = (ctx.setCounter i 0).ids.length := by
        rw [SecocTxCtx.setCounter_ids]
        omega
      have rest := inductionHypothesis leftNext clearedNext
      have clears :
          preemptedStep
              ⟨ctx, store, some ⟨canId, idx, .resetCounter i⟩⟩ .advance =
            (⟨ctx.setCounter i 0, store,
              some ⟨canId, idx, .resetCounter (i + 1)⟩⟩, []) := by
        simp [preemptedStep, advanceCall, inside]
      rw [List.replicate_succ]
      exact Machine.Leads.cons clears rest

/-- The last four assignments hand out the next counter. -/
private theorem issue_steps
    (canId : UInt16)
    (idx : Nat)
    (store : FreshnessStore)
    (ctx : SecocTxCtx) :
    Machine.Leads preemptedStep
      ⟨ctx, store, some ⟨canId, idx, .computeNext⟩⟩
      (List.replicate 4 .advance)
      ⟨ctx.setCounter idx (ctx.counterAt idx + 1), store, none⟩
      [⟨canId, ctx.epoch, ctx.counterAt idx + 1⟩] := by
  constructor <;> rfl

/--
A call that is not preempted computes `secocTxNext`: the same context, the same
store and the same value returned.
-/
theorem secocTxNext_unpreempted
    (canId : UInt16)
    (ctx : SecocTxCtx)
    (store : FreshnessStore) :
    ∃ steps,
      Machine.Leads preemptedStep ⟨ctx, store, none⟩
        (.enter canId :: List.replicate steps .advance)
        ⟨(secocTxNext durablePort ctx canId store).2.1,
          (secocTxNext durablePort ctx canId store).2.2, none⟩
        (issueOf canId (secocTxNext durablePort ctx canId store).1) := by
  cases found : findSlot ctx.ids canId with
  | none =>
      refine ⟨0, ?_⟩
      simp [Machine.Leads, preemptedStep, secocTxNext, found, issueOf]
  | some idx =>
      have enters :
          preemptedStep ⟨ctx, store, none⟩ (.enter canId) =
            (⟨ctx, store, some ⟨canId, idx, .testCounter⟩⟩, []) := by
        simp [preemptedStep, found]
      by_cases full : ctx.counterAt idx = 0xFFFF
      · rcases committed :
            store.commit ctx.domain (ctx.epoch + 1) with ⟨succeeded, next⟩
        cases succeeded with
        | false =>
            refine ⟨3, Machine.Leads.cons enters ?_⟩
            simp [Machine.Leads, preemptedStep, advanceCall, secocTxNext, found,
              full, committed, List.replicate_succ]
        | true =>
            have bump :
                Machine.Leads preemptedStep
                  ⟨ctx, store, some ⟨canId, idx, .testCounter⟩⟩
                  (List.replicate 4 .advance)
                  ⟨{ ctx with epoch := ctx.epoch + 1 }, next,
                    some ⟨canId, idx, .resetCounter 0⟩⟩ [] := by
              simp [Machine.Leads, preemptedStep, advanceCall, full, committed,
                List.replicate_succ]
            have loop :=
              resetCounter_loop canId idx next ctx.ids.length
                (Nat.zero_add
                  ({ ctx with epoch := ctx.epoch + 1 } : SecocTxCtx).ids.length)
                (fun j below => absurd below (Nat.not_lt_zero j))
            have issue :=
              issue_steps canId idx next (ctx.restart (ctx.epoch + 1))
            have steps := (bump.append loop).append issue
            refine ⟨4 + (ctx.ids.length + 1) + 4, ?_⟩
            rw [List.replicate_add, List.replicate_add]
            refine Machine.Leads.cons enters ?_
            simpa [secocTxNext, found, full, committed, spendCounter, issueOf]
              using steps
      · have issue := issue_steps canId idx store ctx
        refine ⟨1 + 4, ?_⟩
        rw [List.replicate_add]
        have test :
            Machine.Leads preemptedStep
              ⟨ctx, store, some ⟨canId, idx, .testCounter⟩⟩
              (List.replicate 1 .advance)
              ⟨ctx, store, some ⟨canId, idx, .computeNext⟩⟩ [] := by
          simp [Machine.Leads, preemptedStep, advanceCall, full]
        refine Machine.Leads.cons enters ?_
        simpa [secocTxNext, found, full, spendCounter, issueOf]
          using test.append issue

/-!
## No value is issued twice
-/

/-- Everything issued is at or behind the context. -/
def IssuedBehind
    (ctx : SecocTxCtx)
    (issued : List FreshValue) : Prop :=
  ∀ one ∈ issued,
    one.epoch < ctx.epoch ∨
      (one.epoch = ctx.epoch ∧
        ∀ idx, findSlot ctx.ids one.canId = some idx →
          one.counter ≤ ctx.counterAt idx)

/-- Everything issued is of an earlier epoch. -/
def IssuedBefore
    (epoch : UInt16)
    (issued : List FreshValue) : Prop :=
  ∀ one ∈ issued, one.epoch < epoch

/-- Everything issued for `canId` in the context's epoch is below `next`. -/
def IssuedBelow
    (ctx : SecocTxCtx)
    (canId next : UInt16)
    (issued : List FreshValue) : Prop :=
  ∀ one ∈ issued, one.canId = canId → one.epoch = ctx.epoch → one.counter < next

section Behind

variable {ctx : SecocTxCtx}
  {issued : List FreshValue}
  {epoch : UInt16}

/-- A later epoch is later than everything behind the context. -/
theorem IssuedBehind.before
    (behind : IssuedBehind ctx issued)
    (later : ctx.epoch < epoch) :
    IssuedBefore epoch issued := by
  intro one member
  rcases behind one member with earlier | ⟨same, -⟩
  · exact UInt16.lt_trans earlier later
  · rw [same]
    exact later

/-- What is of an earlier epoch is behind any context of that epoch. -/
theorem IssuedBefore.behind
    (before : IssuedBefore ctx.epoch issued) :
    IssuedBehind ctx issued :=
  fun one member => Or.inl (before one member)

/-- What is of an earlier epoch has no counter in this one. -/
theorem IssuedBefore.below
    {canId next : UInt16}
    (before : IssuedBefore ctx.epoch issued) :
    IssuedBelow ctx canId next issued := by
  intro one member _ sameEpoch
  have earlier := before one member
  rw [sameEpoch] at earlier
  exact absurd earlier (UInt16.lt_irrefl _)

/-- The value about to be returned follows everything issued for its ID. -/
theorem IssuedBehind.follows
    {canId next : UInt16}
    (behind : IssuedBehind ctx issued)
    (below : IssuedBelow ctx canId next issued) :
    ∀ pair ∈ pairsOf canId issued,
      Increasing.lexLt pair (ctx.epoch, next) := by
  intro pair member
  have old := mem_pairsOf.mp member
  rcases behind _ old with earlier | ⟨sameEpoch, -⟩
  · exact Or.inl earlier
  · exact Or.inr ⟨sameEpoch, below _ old rfl sameEpoch⟩

/-- Storing the next counter of an ID puts its next value behind, too. -/
theorem IssuedBehind.setCounter
    {canId next : UInt16}
    {idx : Nat}
    (behind : IssuedBehind ctx issued)
    (below : IssuedBelow ctx canId next issued)
    (found : findSlot ctx.ids canId = some idx) :
    IssuedBehind (ctx.setCounter idx next)
      (issued ++ [⟨canId, ctx.epoch, next⟩]) := by
  rcases findSlot_some found with ⟨inRange, -⟩
  intro one member
  rcases List.mem_append.mp member with old | new
  · rcases behind one old with earlier | ⟨sameEpoch, counters⟩
    · exact Or.inl earlier
    · refine Or.inr ⟨sameEpoch, ?_⟩
      intro other otherFound
      by_cases sameSlot : other = idx
      · subst sameSlot
        have sameId := findSlot_injective otherFound found
        rw [SecocTxCtx.setCounter_counterAt_same next inRange]
        exact UInt16.le_of_lt (below one old sameId sameEpoch)
      · rw [SecocTxCtx.setCounter_counterAt_other next sameSlot]
        exact counters other otherFound
  · rw [List.mem_singleton.mp new]
    refine Or.inr ⟨rfl, ?_⟩
    intro other otherFound
    have sameSlot : other = idx :=
      Option.some.inj (otherFound.symm.trans found)
    rw [sameSlot, SecocTxCtx.setCounter_counterAt_same next inRange]
    exact UInt16.le_refl _

end Behind

/-- What holds at each point of a call in progress. -/
def CallInv
    (ctx : SecocTxCtx)
    (issued : List FreshValue)
    (call : TxNextCall) : Prop :=
  match call.point with
  | .testCounter => IssuedBehind ctx issued
  | .computeBumped => IssuedBehind ctx issued
  | .commitBumped bumped =>
      IssuedBehind ctx issued ∧ IssuedBefore bumped issued
  | .setEpoch bumped => IssuedBefore bumped issued
  | .resetCounter i =>
      IssuedBefore ctx.epoch issued ∧ ∀ j < i, ctx.counterAt j = 0
  | .computeNext =>
      IssuedBehind ctx issued ∧ ctx.counterAt call.idx ≠ 0xFFFF
  | .setCounter next =>
      IssuedBehind ctx issued ∧ IssuedBelow ctx call.canId next issued
  | .readEpoch next =>
      IssuedBehind ctx (issued ++ [⟨call.canId, ctx.epoch, next⟩]) ∧
        IssuedBelow ctx call.canId next issued
  | .writeCounter epoch next =>
      IssuedBehind ctx (issued ++ [⟨call.canId, epoch, next⟩]) ∧
        ∀ pair ∈ pairsOf call.canId issued,
          Increasing.lexLt pair (epoch, next)

/-- What holds of the two tasks, with the values returned so far. -/
structure PreemptedInv
    (sender : PreemptedSender)
    (issued : List FreshValue) : Prop where
  idle : sender.call = none → IssuedBehind sender.ctx issued
  inCall :
    ∀ call, sender.call = some call →
      findSlot sender.ctx.ids call.canId = some call.idx ∧
        CallInv sender.ctx issued call
  increasing :
    ∀ canId, (pairsOf canId issued).Pairwise Increasing.lexLt

namespace PreemptedInv

variable {ctx ctxAfter : SecocTxCtx}
  {store storeAfter : FreshnessStore}
  {issued : List FreshValue}

/-- The invariant while no call is in progress. -/
theorem ofIdle
    (behind : IssuedBehind ctx issued)
    (increasing :
      ∀ canId, (pairsOf canId issued).Pairwise Increasing.lexLt) :
    PreemptedInv ⟨ctx, store, none⟩ issued where
  idle := fun _ => behind
  inCall := by
    intro call isCall
    cases isCall
  increasing := increasing

/-- The invariant while a call is in progress. -/
theorem ofCall
    {call : TxNextCall}
    (found : findSlot ctx.ids call.canId = some call.idx)
    (inCall : CallInv ctx issued call)
    (increasing :
      ∀ canId, (pairsOf canId issued).Pairwise Increasing.lexLt) :
    PreemptedInv ⟨ctx, store, some call⟩ issued where
  idle := fun absent => by cases absent
  inCall := by
    intro same isCall
    cases isCall
    exact ⟨found, inCall⟩
  increasing := increasing

/-- One assignment of the call keeps the invariant unless it wraps the epoch. -/
theorem advance
    {call : TxNextCall}
    (found : findSlot ctx.ids call.canId = some call.idx)
    (inCall : CallInv ctx issued call)
    (increasing :
      ∀ canId, (pairsOf canId issued).Pairwise Increasing.lexLt)
    (noWrap : call.point = .computeBumped → ctx.epoch ≠ 0xFFFF) :
    PreemptedInv (advanceCall ctx store call).1
      (issued ++ (advanceCall ctx store call).2) := by
  rcases call with ⟨canId, idx, point⟩
  have inRange : idx < ctx.ids.length := (findSlot_some found).1
  cases point with
  | testCounter =>
      by_cases full : ctx.counterAt idx = 0xFFFF
      · simp only [advanceCall, full, ↓reduceIte, List.append_nil]
        exact ofCall found inCall increasing
      · simp only [advanceCall, full, ↓reduceIte, List.append_nil]
        exact ofCall found ⟨inCall, full⟩ increasing
  | computeBumped =>
      have notMax := noWrap rfl
      have later : ctx.epoch < ctx.epoch + 1 := by grind
      simp only [advanceCall, List.append_nil]
      exact ofCall found ⟨inCall, inCall.before later⟩ increasing
  | commitBumped bumped =>
      rcases committed :
          store.commit ctx.domain bumped with ⟨succeeded, next⟩
      cases succeeded with
      | false =>
          simp only [advanceCall, durablePort_commit, committed,
            List.append_nil]
          exact ofIdle inCall.1 increasing
      | true =>
          simp only [advanceCall, durablePort_commit, committed,
            List.append_nil]
          exact ofCall found inCall.2 increasing
  | setEpoch bumped =>
      simp only [advanceCall, List.append_nil]
      refine ofCall found ⟨inCall, ?_⟩ increasing
      intro j below
      exact absurd below (Nat.not_lt_zero j)
  | resetCounter i =>
      rcases inCall with ⟨before, cleared⟩
      by_cases inside : i < ctx.ids.length
      · simp only [advanceCall, inside, ↓reduceIte, List.append_nil]
        refine ofCall found ⟨before, ?_⟩ increasing
        intro j below
        by_cases same : j = i
        · subst same
          exact SecocTxCtx.setCounter_counterAt_same 0 inside
        · rw [SecocTxCtx.setCounter_counterAt_other 0 same]
          exact cleared j (by omega)
      · simp only [advanceCall, inside, ↓reduceIte, List.append_nil]
        refine ofCall found ⟨before.behind, ?_⟩ increasing
        rw [cleared idx (by omega)]
        decide
  | computeNext =>
      rcases inCall with ⟨behind, room⟩
      simp only [advanceCall, List.append_nil]
      refine ofCall found ⟨behind, ?_⟩ increasing
      intro one member sameId sameEpoch
      rcases behind one member with earlier | ⟨-, counters⟩
      · rw [sameEpoch] at earlier
        exact absurd earlier (UInt16.lt_irrefl _)
      · rw [← sameId] at found
        have reached := counters idx found
        grind
  | setCounter next =>
      rcases inCall with ⟨behind, below⟩
      simp only [advanceCall, List.append_nil]
      exact ofCall found ⟨behind.setCounter below found, below⟩ increasing
  | readEpoch next =>
      rcases inCall with ⟨behind, below⟩
      have issuedBehind : IssuedBehind ctx issued :=
        fun one member => behind one (List.mem_append_left _ member)
      simp only [advanceCall, List.append_nil]
      exact ofCall found ⟨behind, issuedBehind.follows below⟩ increasing
  | writeCounter epoch next =>
      rcases inCall with ⟨behind, follows⟩
      exact ofIdle behind (increasing_concat increasing follows)

/-- A moving adoption is harmless unless it tears the issue in progress. -/
theorem adopt
    {call : TxNextCall}
    {requestedFloor : UInt16}
    (inCall : CallInv ctx issued call)
    (later : ctx.epoch < requestedFloor)
    (noTear : betweenStoreAndRead (some call) = false) :
    CallInv (ctx.restart requestedFloor) issued call := by
  rcases call with ⟨canId, idx, point⟩
  have restarted :
      ∀ values, IssuedBehind ctx values →
        IssuedBefore (ctx.restart requestedFloor).epoch values :=
    fun _ behind => behind.before later
  cases point with
  | testCounter =>
      exact (restarted _ inCall).behind
  | computeBumped =>
      exact (restarted _ inCall).behind
  | commitBumped bumped =>
      exact ⟨(restarted _ inCall.1).behind, inCall.2⟩
  | setEpoch bumped =>
      exact inCall
  | resetCounter i =>
      refine ⟨?_, fun j _ => SecocTxCtx.restart_counterAt ctx _ j⟩
      exact restarted _ inCall.1.behind
  | computeNext =>
      refine ⟨(restarted _ inCall.1).behind, ?_⟩
      simp
  | setCounter next =>
      have before := restarted _ inCall.1
      exact ⟨before.behind, before.below⟩
  | readEpoch next =>
      simp [betweenStoreAndRead] at noTear
  | writeCounter epoch next =>
      exact ⟨(restarted _ inCall.1).behind, inCall.2⟩

/-- Every allowed step of the two tasks keeps the invariant. -/
theorem step
    {sender : PreemptedSender}
    (action : PreemptedAction)
    (inv : PreemptedInv sender issued)
    (allowed : NoBumpFromMax sender action ∧ NoTornIssue sender action) :
    PreemptedInv (preemptedStep sender action).1
      (issued ++ (preemptedStep sender action).2) := by
  rcases sender with ⟨ctx, store, call⟩
  cases action with
  | enter canId =>
      cases call with
      | some call =>
          simpa [preemptedStep] using inv
      | none =>
          cases found : findSlot ctx.ids canId with
          | none =>
              simpa [preemptedStep, found] using inv
          | some idx =>
              simp only [preemptedStep, found, List.append_nil]
              exact ofCall found (inv.idle rfl) inv.increasing
  | advance =>
      cases call with
      | none =>
          simpa [preemptedStep] using inv
      | some call =>
          rcases inv.inCall call rfl with ⟨found, inCall⟩
          refine advance found inCall inv.increasing ?_
          intro atBump
          exact allowed.1 (congrArg some atBump)
  | adoptFloor requestedFloor =>
      rcases ran :
          secocTxAdoptFloor durablePort ctx requestedFloor store with
          fault | ⟨moved, ctxAfter, storeAfter⟩
      · simpa [preemptedStep, ran] using inv
      · simp only [preemptedStep, ran, List.append_nil]
        rcases secocTxAdoptFloor_cases ran with
            ⟨-, rfl, -⟩ | ⟨-, later, -, -, rfl⟩
        · exact ⟨inv.idle, inv.inCall, inv.increasing⟩
        · cases call with
          | none =>
              have before := (inv.idle rfl).before later
              exact ofIdle before.behind inv.increasing
          | some call =>
              rcases inv.inCall call rfl with ⟨found, inCall⟩
              refine ofCall found (adopt inCall later ?_) inv.increasing
              by_contra torn
              have notMoving := allowed.2 (by simpa using torn)
              exact absurd later (UInt16.not_lt.mpr notMoving)

end PreemptedInv

/--
An adoption between storing the counter and reading the epoch: the pair it
tears is issued again, with every commit succeeding and no epoch wrapped.
-/
theorem preempted_sender_issues_twice :
    let booted :=
      secocTxBoot durablePort .reset 0 [0x120, 0x121, 0x1F0] .blank
    let actions : List PreemptedAction :=
      [.enter 0x120, .advance, .advance, .advance, .adoptFloor 5, .advance,
        .advance, .enter 0x120, .advance, .advance, .advance, .advance,
        .advance]
    let start : PreemptedSender := ⟨booted.2.1, booted.2.2, none⟩
    Machine.Allowed preemptedStep NoBumpFromMax start actions ∧
      ¬ (Machine.trace preemptedStep start actions).Nodup := by
  decide

/--
In every run in which no adoption moves the epoch between those two
assignments, no value is issued twice.
-/
theorem preempted_sender_issues_once
    (ctx : SecocTxCtx)
    (store : FreshnessStore)
    (actions : List PreemptedAction)
    (allowed :
      Machine.Allowed preemptedStep
        (fun sender action =>
          NoBumpFromMax sender action ∧ NoTornIssue sender action)
        ⟨ctx, store, none⟩ actions) :
    (Machine.trace preemptedStep ⟨ctx, store, none⟩ actions).Nodup := by
  have start : PreemptedInv ⟨ctx, store, none⟩ [] := by
    apply PreemptedInv.ofIdle
    · intro one member
      cases member
    · intro canId
      exact List.Pairwise.nil
  have inv :=
    Machine.invariant_of_start
      (fun _ _ action => PreemptedInv.step action) start allowed
  exact nodup_of_increasing inv.increasing

/-- Adoptions at three other points of a call and of its rollover. -/
theorem preempted_sender_issues_once_around_adoptions :
    let booted :=
      secocTxBoot durablePort .reset 0 [0x120, 0x121, 0x1F0] .blank
    let actions : List PreemptedAction :=
      [.enter 0x120, .adoptFloor 3, .advance, .advance, .adoptFloor 5,
        .advance, .advance, .adoptFloor 7, .advance, .enter 0x120, .advance,
        .advance, .advance, .advance, .advance]
    let start : PreemptedSender := ⟨booted.2.1, booted.2.2, none⟩
    let issued := Machine.trace preemptedStep start actions
    issued = [⟨0x120, 5, 1⟩, ⟨0x120, 7, 1⟩] ∧ issued.Nodup :=
  ⟨by decide, preempted_sender_issues_once _ _ _ (by decide)⟩

end TraveoBodyDomain
