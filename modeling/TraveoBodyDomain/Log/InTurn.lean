import Mathlib.Algebra.BigOperators.Group.List.Basic
import TraveoBodyDomain.Log.Nested

/-!
# Calls that come to the ring in turn

What has been written to the statics, together with what the calls in progress
still owe them, is at every moment what the trace shows: the number that comes
next, the drops, and the drops that are in no report.  Each access of a call
moves as much from one side to the other, and a call that comes to the ring in
turn adds to both.
-/

namespace TraveoBodyDomain

/-- The sum of what the calls still owe. -/
def owed {α : Type} [AddCommMonoid α]
    (debt : LogDebts → α)
    (calls : List LogEvtCall) : α :=
  (calls.map fun call => debt call.point.debts).sum

/-- What was dropped and is in no report: nothing, if it is about to be cleared. -/
def unreported (s : LogState) (calls : List LogEvtCall) : UInt32 :=
  if calls.any fun call => call.point.debts.clear then 0 else s.pendingOverflow

/-- What holds between what a call owes and where a call is that it suspended. -/
structure DebtsApart
    (pending : UInt32)
    (inner : LogDebts)
    (outer : LogEvtPoint) : Prop where
  moves : inner.seq ≠ 0 → outer.debts.seq = 0
  counts : inner.dropped ≠ 0 → outer.storesDropped = false
  adds :
    inner.pending ≠ 0 →
      outer.storesPending = false ∧ outer.debts.clear = false
  clears : inner.clear = true → outer.storesPending = true → pending = 0

/-- The calls in progress do not overwrite what one of them owes. -/
def AllApart (pending : UInt32) (calls : List LogEvtCall) : Prop :=
  calls.Pairwise fun inner outer =>
    DebtsApart pending inner.point.debts outer.point

/-- The invariant of the runs in which every call comes to the ring in turn. -/
structure NestedInv
    (image : LogImage)
    (core : LogCore)
    (state : NestedLog)
    (trace : List LogEvent) : Prop where
  fits : state.log.Fits image
  sameCore : state.log.core = core
  fifo : sentBytes trace ++ logContent image state.log = storedBytes trace
  numbered : Numbered core 0 (storedRecords trace)
  seqBound : state.log.seq.toNat < 64
  seq :
    (state.log.seq.toNat +
          owed (fun debts => debts.seq.toNat) state.calls) % 64 =
      (storedRecords trace).length % 64
  counted :
    state.log.dropped + owed LogDebts.dropped state.calls =
      UInt32.ofNat (dropCount trace)
  announced :
    totalCount reportCount trace + unreported state.log state.calls +
        owed LogDebts.pending state.calls =
      UInt32.ofNat (dropCount trace)
  current : ∀ call ∈ state.calls, call.point.Current state.log
  apart : AllApart state.log.pendingOverflow state.calls

/-- The invariant gives what is to hold. -/
theorem NestedInv.keeps
    {image : LogImage}
    {core : LogCore}
    {state : NestedLog}
    {trace : List LogEvent}
    (inv : NestedInv image core state trace) :
    NestedLogKeeps image core state trace := by
  refine ⟨inv.numbered, inv.fifo, ?_, ?_⟩
  · intro idle
    have counted := inv.counted
    rw [idle] at counted
    exact (add_zero _).symm.trans counted
  · intro idle
    have announced := inv.announced
    rw [idle] at announced
    exact (add_zero _).symm.trans announced

/-- What is owed where the call is now, or after it has returned. -/
def debtsAt : Option LogEvtPoint → LogDebts
  | none => ⟨0, false, 0, 0⟩
  | some point => point.debts

section Calls

variable {call : LogEvtCall}
  {suspended : List LogEvtCall}
  {point : Option LogEvtPoint}

/-- The running call's part of what is owed. -/
theorem owed_cons {α : Type} [AddCommMonoid α] (debt : LogDebts → α) :
    owed debt (call :: suspended) =
      debt call.point.debts + owed debt suspended :=
  List.sum_cons

/-- The same after it went on. -/
theorem owed_goOnAt {α : Type} [AddCommMonoid α]
    {debt : LogDebts → α}
    (noDebts : debt ⟨0, false, 0, 0⟩ = 0) :
    owed debt (goOnAt call suspended point) =
      debt (debtsAt point) + owed debt suspended := by
  cases point with
  | none =>
      rw [debtsAt, noDebts, zero_add]
      rfl
  | some point =>
      exact owed_cons debt

/-- Whoever owes nothing disturbs nobody. -/
theorem DebtsApart.of_noDebts
    (pending : UInt32)
    (outer : LogEvtPoint) :
    DebtsApart pending ⟨0, false, 0, 0⟩ outer :=
  ⟨fun moves => (moves rfl).elim, fun counts => (counts rfl).elim,
    fun adds => (adds rfl).elim, fun clears => (Bool.false_ne_true clears).elim⟩

/-- A running call that owes no more than it did disturbs nobody. -/
theorem AllApart.goOnAt
    {pending : UInt32}
    (running :
      ∀ outer ∈ suspended, DebtsApart pending (debtsAt point) outer.point)
    (others : AllApart pending suspended) :
    AllApart pending (goOnAt call suspended point) := by
  cases point with
  | none =>
      exact others
  | some point =>
      exact List.pairwise_cons.mpr ⟨running, others⟩

end Calls

section Accesses

variable {image : LogImage}
  {core : LogCore}
  {s next : LogState}
  {call : LogEvtCall}
  {suspended : List LogEvtCall}
  {trace : List LogEvent}

/-- What a call has loaded stays current when it is not written. -/
theorem LogEvtPoint.Current.keep
    {point : LogEvtPoint}
    (before : point.Current s)
    (dropped : point.storesDropped = true → next.dropped = s.dropped)
    (pending :
      point.storesPending = true →
        next.pendingOverflow = s.pendingOverflow)
    (seq : point.debts.seq ≠ 0 → next.seq = s.seq) :
    point.Current next := by
  cases point with
  | storeDropped loaded =>
      exact before.trans (dropped rfl).symm
  | storePending loaded =>
      exact before.trans (pending rfl).symm
  | storeSeq reported loaded =>
      have owes : seqStep reported ≠ 0 := by
        cases reported <;> decide
      exact before.trans (seq owes).symm
  | _ =>
      trivial

/--
An access outside the lock keeps the invariant when what it adds to the statics
is what the call no longer owes.
-/
theorem NestedInv.access
    {point : Option LogEvtPoint}
    (inv : NestedInv image core ⟨s, call :: suspended⟩ trace)
    (frame :
      next =
        { s with
          seq := next.seq
          dropped := next.dropped
          pendingOverflow := next.pendingOverflow })
    (seqBound : next.seq.toNat < 64)
    (seq :
      (next.seq.toNat + (debtsAt point).seq.toNat) % 64 =
        (s.seq.toNat + call.point.debts.seq.toNat) % 64)
    (counted :
      next.dropped + (debtsAt point).dropped =
        s.dropped + call.point.debts.dropped)
    (announced :
      unreported next (goOnAt call suspended point) +
          (debtsAt point).pending =
        unreported s (call :: suspended) + call.point.debts.pending)
    (current : ∀ now ∈ point, now.Current next)
    (others :
      ∀ outer ∈ suspended, outer.point.Current s → outer.point.Current next)
    (apart : AllApart next.pendingOverflow (goOnAt call suspended point)) :
    NestedInv image core ⟨next, goOnAt call suspended point⟩ trace := by
  have used : next.used = s.used := by
    rw [frame]
    rfl
  have content : logContent image next = logContent image s := by
    rw [frame]
    rfl
  refine
    ⟨?_, ?_, ?_, inv.numbered, seqBound, ?_, ?_, ?_, ?_, apart⟩
  · change next.used ≤ _
    rw [used]
    exact inv.fits
  · change next.core = core
    rw [frame]
    exact inv.sameCore
  · rw [content]
    exact inv.fifo
  · have before := inv.seq
    rw [owed_cons] at before
    rw [owed_goOnAt rfl]
    dsimp only at before ⊢
    omega
  · have before := inv.counted
    rw [owed_cons, ← add_assoc] at before
    rw [owed_goOnAt rfl, ← add_assoc, counted]
    exact before
  · have before := inv.announced
    rw [owed_cons] at before
    rw [owed_goOnAt rfl, ← before]
    calc
      _ = totalCount reportCount trace +
            (unreported next (goOnAt call suspended point) +
              (debtsAt point).pending) +
          owed LogDebts.pending suspended := by
        abel
      _ = _ := by
        rw [announced]
        abel
  · have stays :
        ∀ outer ∈ suspended, outer.point.Current next :=
      fun outer member =>
        others outer member
          (inv.current outer (List.mem_cons_of_mem _ member))
    cases point with
    | none =>
        exact stays
    | some now =>
        exact List.forall_mem_cons.mpr ⟨current now rfl, stays⟩

/-- A load keeps the invariant. -/
theorem NestedInv.load
    {point : LogEvtPoint}
    (inv : NestedInv image core ⟨s, call :: suspended⟩ trace)
    (sameDebts : point.debts = call.point.debts)
    (current : point.Current s) :
    NestedInv image core ⟨s, goOnAt call suspended (some point)⟩ trace := by
  have running := List.pairwise_cons.mp inv.apart
  refine
    inv.access rfl inv.seqBound ?_ ?_ ?_ ?_ (fun _ _ same => same)
      (AllApart.goOnAt ?_ running.2)
  · rw [debtsAt, sameDebts]
  · rw [debtsAt, sameDebts]
  · unfold unreported goOnAt
    rw [debtsAt, List.any_cons, List.any_cons, sameDebts]
  · rintro now ⟨⟩
    exact current
  · intro outer member
    rw [debtsAt, sameDebts]
    exact running.1 outer member

/-- Counting the drop keeps the invariant. -/
theorem NestedInv.storeDropped
    {dropped : UInt32}
    (inv : NestedInv image core ⟨s, call :: suspended⟩ trace)
    (isAt : call.point = .storeDropped dropped) :
    NestedInv image core
      ⟨{ s with dropped := dropped + 1 },
        goOnAt call suspended (some .loadPending)⟩ trace := by
  have running := List.pairwise_cons.mp inv.apart
  have current : dropped = s.dropped := by
    have now := inv.current call (List.mem_cons_self ..)
    rwa [isAt] at now
  have stored :
      ∀ outer ∈ suspended, outer.point.storesDropped = false := by
    intro outer member
    apply (running.1 outer member).counts
    rw [isAt]
    change (1 : UInt32) ≠ 0
    decide
  refine
    inv.access rfl inv.seqBound ?_ ?_ ?_ ?_ ?_ (AllApart.goOnAt ?_ running.2)
  · rw [isAt]
    rfl
  · rw [isAt, current]
    exact add_zero _
  · unfold unreported goOnAt
    rw [List.any_cons, List.any_cons, isAt]
    rfl
  · rintro now ⟨⟩
    trivial
  · intro outer member before
    refine before.keep ?_ (fun _ => rfl) (fun _ => rfl)
    intro stores
    rw [stored outer member] at stores
    cases stores
  · intro outer member
    have apart := running.1 outer member
    rw [isAt] at apart
    exact ⟨apart.moves, fun counts => (counts rfl).elim, apart.adds, apart.clears⟩

/-- Noting the drop for the next report keeps the invariant. -/
theorem NestedInv.storePending
    {pending : UInt32}
    (inv : NestedInv image core ⟨s, call :: suspended⟩ trace)
    (isAt : call.point = .storePending pending) :
    NestedInv image core
      ⟨{ s with pendingOverflow := pending + 1 },
        goOnAt call suspended none⟩ trace := by
  have running := List.pairwise_cons.mp inv.apart
  have current : pending = s.pendingOverflow := by
    have now := inv.current call (List.mem_cons_self ..)
    rwa [isAt] at now
  have alone :
      ∀ outer ∈ suspended,
        outer.point.storesPending = false ∧
          outer.point.debts.clear = false := by
    intro outer member
    apply (running.1 outer member).adds
    rw [isAt]
    change (1 : UInt32) ≠ 0
    decide
  have nobodyClears :
      (suspended.any fun call => call.point.debts.clear) = false :=
    List.any_eq_false.mpr fun outer member =>
      Bool.not_eq_true _ ▸ (alone outer member).2
  refine inv.access rfl inv.seqBound ?_ ?_ ?_ ?_ ?_ ?_
  · rw [isAt]
    rfl
  · rw [isAt]
    rfl
  · unfold unreported goOnAt
    rw [List.any_cons, isAt, nobodyClears, current]
    exact add_zero _
  · rintro now ⟨⟩
  · intro outer member before
    refine before.keep (fun _ => rfl) ?_ (fun _ => rfl)
    intro stores
    rw [(alone outer member).1] at stores
    cases stores
  · refine running.2.imp_of_mem ?_
    intro inner outer innerMember outerMember apart
    refine ⟨apart.moves, apart.counts, apart.adds, ?_⟩
    intro clears
    rw [(alone inner innerMember).2] at clears
    cases clears

/-- Moving the sequence number on keeps the invariant. -/
theorem NestedInv.storeSeq
    {reported : Bool}
    {seq : UInt8}
    (inv : NestedInv image core ⟨s, call :: suspended⟩ trace)
    (isAt : call.point = .storeSeq reported seq) :
    NestedInv image core
      ⟨{ s with seq := logSeqAfter seq (seqStep reported) },
        goOnAt call suspended
          (if reported then some .clearPending else none)⟩ trace := by
  have running := List.pairwise_cons.mp inv.apart
  have current : seq = s.seq := by
    have now := inv.current call (List.mem_cons_self ..)
    rwa [isAt] at now
  have moved : ∀ outer ∈ suspended, outer.point.debts.seq = 0 := by
    intro outer member
    apply (running.1 outer member).moves
    rw [isAt]
    change seqStep reported ≠ 0
    cases reported <;> decide
  have bound := inv.seqBound
  have next :
      (logSeqAfter seq (seqStep reported)).toNat =
        (s.seq.toNat + (seqStep reported).toNat) % 64 := by
    apply logSeqAfter_toNat
    rw [current, Nat.mod_eq_of_lt bound]
  refine inv.access rfl ?_ ?_ ?_ ?_ ?_ ?_ (AllApart.goOnAt ?_ running.2)
  · dsimp only
    rw [next]
    exact Nat.mod_lt _ (by decide)
  · have nothing :
        (debtsAt (if reported then some .clearPending else none)).seq = 0 := by
      cases reported <;> rfl
    dsimp only
    rw [next, nothing, isAt]
    exact Nat.mod_mod ..
  · rw [isAt]
    cases reported <;> rfl
  · unfold unreported goOnAt
    rw [List.any_cons, isAt]
    cases reported <;> rfl
  · intro now member
    cases reported with
    | false =>
        cases member
    | true =>
        cases member
        trivial
  · intro outer member before
    exact
      before.keep (fun _ => rfl) (fun _ => rfl)
        fun moves => (moves (moved outer member)).elim
  · intro outer member
    have apart := running.1 outer member
    rw [isAt] at apart
    cases reported with
    | false =>
        exact DebtsApart.of_noDebts ..
    | true =>
        exact
          ⟨fun moves => (moves rfl).elim, apart.counts, apart.adds,
            apart.clears⟩

/-- Clearing what was reported keeps the invariant. -/
theorem NestedInv.clearPending
    (inv : NestedInv image core ⟨s, call :: suspended⟩ trace)
    (isAt : call.point = .clearPending) :
    NestedInv image core
      ⟨{ s with pendingOverflow := 0 }, goOnAt call suspended none⟩
      trace := by
  have running := List.pairwise_cons.mp inv.apart
  refine inv.access rfl inv.seqBound ?_ ?_ ?_ ?_ ?_ ?_
  · rw [isAt]
    rfl
  · rw [isAt]
    rfl
  · unfold unreported goOnAt
    rw [List.any_cons, isAt]
    exact congrArg (· + 0) (ite_self _)
  · rintro now ⟨⟩
  · intro outer member before
    refine before.keep (fun _ => rfl) ?_ (fun _ => rfl)
    intro stores
    have clears : call.point.debts.clear = true := by
      rw [isAt]
      rfl
    exact ((running.1 outer member).clears clears stores).symm
  · refine running.2.imp ?_
    intro inner outer apart
    exact ⟨apart.moves, apart.counts, apart.adds, fun _ _ => rfl⟩

/-- The ring takes the records if and only if they fit. -/
theorem logTryEnqueue_fst
    (image : LogImage)
    (s : LogState)
    (call : LogEvtCall)
    (seq : UInt8)
    (count : Option UInt32) :
    (logTryEnqueue image (call.overflowBytes s.core seq count)
        (logRecEncode (call.eventRec s.core seq count)) s).1 =
      logHasRoom image s (call.need s.core seq count) := by
  have some_ : call.need s.core seq count ≠ 0 := by
    rw [LogEvtCall.need, length_logRecEncode]
    exact Nat.succ_ne_zero _
  unfold logTryEnqueue
  dsimp only
  rw [LogEvtCall.need] at some_ ⊢
  rw [if_neg some_]
  cases logHasRoom image s _ <;> rfl

/-- The bytes of what a call puts into the ring. -/
theorem storedBytes_items
    (call : LogEvtCall)
    (core : LogCore)
    (seq : UInt8)
    (count : Option UInt32) :
    storedBytes ((call.items core seq count).map .stored) =
      call.overflowBytes core seq count ++
        logRecEncode (call.eventRec core seq count) := by
  cases count with
  | none =>
      exact List.append_nil _
  | some reported =>
      exact storedBytes_pair _ _

/-- The records of a call are numbered on. -/
theorem items_numbered
    (call : LogEvtCall)
    (core : LogCore)
    {seq : UInt8}
    {n : Nat}
    (count : Option UInt32)
    (number : seq.toNat = n % 64) :
    Numbered core n
        (storedRecords ((call.items core seq count).map .stored)) ∧
      (storedRecords ((call.items core seq count).map .stored)).length =
        (seqStep count.isSome).toNat := by
  cases count with
  | none =>
      exact ⟨⟨rfl, number, trivial⟩, rfl⟩
  | some reported =>
      exact ⟨⟨rfl, number, rfl, logSeqAfter_toNat number, trivial⟩, rfl⟩

/-- A call that is dropped in turn keeps the invariant. -/
theorem NestedInv.drop
    {seq : UInt8}
    {count : Option UInt32}
    (inv : NestedInv image core ⟨s, call :: suspended⟩ trace)
    (isAt : call.point = .enqueue seq count)
    (inTurn : DropsInTurn suspended) :
    NestedInv image core ⟨s, goOnAt call suspended (some .loadDropped)⟩
      (trace ++ [.dropped]) := by
  have running := List.pairwise_cons.mp inv.apart
  have one : dropCount (trace ++ [.dropped]) = dropCount trace + 1 :=
    dropCount_append ..
  refine
    ⟨inv.fits, inv.sameCore, ?_, ?_, inv.seqBound, ?_, ?_, ?_, ?_,
      @AllApart.goOnAt call suspended (some .loadDropped) _ ?_ running.2⟩
  · rw [sentBytes_append, storedBytes_append, ← inv.fifo]
    exact List.append_nil _ ▸ List.append_nil _ ▸ rfl
  · rw [storedRecords, storedItems_append]
    exact List.append_nil _ ▸ inv.numbered
  · have before := inv.seq
    rw [owed_cons, isAt] at before
    rw [storedRecords, storedItems_append, owed_goOnAt rfl]
    exact List.append_nil _ ▸ before
  · have before := inv.counted
    rw [owed_cons, isAt] at before
    rw [one, UInt32.ofNat_add, ← before, owed_goOnAt rfl]
    change _ + (1 + _) = _ + (0 + _) + 1
    abel
  · have before := inv.announced
    rw [owed_cons, isAt] at before
    have same :
        unreported s (goOnAt call suspended (some .loadDropped)) =
          unreported s (call :: suspended) := by
      unfold unreported goOnAt
      rw [List.any_cons, List.any_cons, isAt]
      rfl
    rw [one, UInt32.ofNat_add, ← before, owed_goOnAt rfl, same,
      totalCount_append]
    change _ + 0 + _ + (1 + _) = _ + (0 + _) + 1
    abel
  · exact
      List.forall_mem_cons.mpr
        ⟨trivial, fun outer member =>
          inv.current outer (List.mem_cons_of_mem _ member)⟩
  · intro outer member
    exact
      ⟨fun moves => (moves rfl).elim, fun _ => inTurn.dropped outer member,
        fun _ => ⟨inTurn.pending outer member, inTurn.cleared outer member⟩,
        fun clears => (Bool.false_ne_true clears).elim⟩

/-- What a call reports in turn is what was unreported. -/
theorem announced_items
    {core : LogCore}
    {seq : UInt8}
    {count : Option UInt32}
    {ring : Nat → UInt8}
    {head : UInt32}
    (isAt : call.point = .enqueue seq count)
    (inTurn : StoresInTurn s suspended seq count) :
    totalCount reportCount ((call.items core seq count).map .stored) +
        unreported { s with ring := ring, head := head }
          (goOnAt call suspended (some (.loadSeq count.isSome))) =
      unreported s (call :: suspended) := by
  unfold unreported goOnAt
  rw [List.any_cons, List.any_cons, isAt]
  cases count with
  | none =>
      exact zero_add _
  | some reported =>
      have current := inTurn.pending reported rfl
      have reports :
          totalCount reportCount
              ((call.items core seq (some reported)).map .stored) =
            reported := by
        change reported + (0 + 0) = reported
        abel
      rw [reports]
      change reported + 0 = if _ then 0 else s.pendingOverflow
      rw [add_zero]
      split
      · next clears =>
          obtain ⟨outer, member, clear⟩ := List.any_eq_true.mp clears
          by_contra nonzero
          rw [(inTurn.once reported rfl nonzero outer member).1] at clear
          cases clear
      · exact current

/-- A call that is stored in turn keeps the invariant. -/
theorem NestedInv.store
    {seq : UInt8}
    {count : Option UInt32}
    (inv : NestedInv image core ⟨s, call :: suspended⟩ trace)
    (isAt : call.point = .enqueue seq count)
    (inTurn : StoresInTurn s suspended seq count)
    (enqueued :
      Enqueued image s
        (call.overflowBytes s.core seq count ++
          logRecEncode (call.eventRec s.core seq count)) next) :
    NestedInv image core
      ⟨next, goOnAt call suspended (some (.loadSeq count.isSome))⟩
      (trace ++ (call.items s.core seq count).map .stored) := by
  have running := List.pairwise_cons.mp inv.apart
  obtain ⟨⟨ring, head, rfl⟩, fits, appended⟩ := enqueued
  have nobodyMoves :
      owed (fun debts => debts.seq.toNat) suspended = 0 := by
    apply List.sum_eq_zero
    intro part member
    obtain ⟨outer, outerMember, rfl⟩ := List.mem_map.mp member
    exact congrArg UInt8.toNat (inTurn.moved outer outerMember)
  have seqNow := inv.seq
  rw [owed_cons, isAt, nobodyMoves] at seqNow
  have number : seq.toNat = (storedRecords trace).length % 64 := by
    rw [inTurn.current, ← Nat.mod_eq_of_lt inv.seqBound]
    exact seqNow
  obtain ⟨numbered, many⟩ := items_numbered call s.core count number
  have records :
      storedRecords (trace ++ (call.items s.core seq count).map .stored) =
        storedRecords trace ++
          storedRecords ((call.items s.core seq count).map .stored) := by
    rw [storedRecords, storedItems_append, recordsIn_append]
    rfl
  have noDrop :
      dropCount (trace ++ (call.items s.core seq count).map .stored) =
        dropCount trace := by
    rw [dropCount_append]
    cases count <;> rfl
  have noneSent :
      sentBytes ((call.items s.core seq count).map .stored) = [] := by
    cases count <;> rfl
  have sameCore : s.core = core := inv.sameCore
  refine
    ⟨fits, sameCore, ?_, ?_, inv.seqBound, ?_, ?_, ?_, ?_,
      @AllApart.goOnAt call suspended (some (.loadSeq count.isSome)) _ ?_
        running.2⟩
  · rw [sentBytes_append, storedBytes_append, ← inv.fifo, noneSent,
      List.append_nil, appended, storedBytes_items, List.append_assoc]
  · rw [records, numbered_append, Nat.zero_add, ← sameCore]
    rw [← sameCore] at inv
    exact ⟨inv.numbered, numbered⟩
  · rw [records, List.length_append, many, owed_goOnAt rfl, nobodyMoves]
    change (s.seq.toNat + ((seqStep count.isSome).toNat + 0)) % 64 = _
    change (s.seq.toNat + 0) % 64 = _ at seqNow
    omega
  · have before := inv.counted
    rw [owed_cons, isAt] at before
    rw [noDrop, owed_goOnAt rfl]
    exact before
  · have before := inv.announced
    rw [owed_cons, isAt] at before
    rw [noDrop, owed_goOnAt rfl, ← before, totalCount_append,
      add_assoc (totalCount reportCount trace), announced_items isAt inTurn]
    rfl
  · exact
      List.forall_mem_cons.mpr
        ⟨trivial, fun outer member =>
          (inv.current outer (List.mem_cons_of_mem _ member)).keep
            (fun _ => rfl) (fun _ => rfl) (fun _ => rfl)⟩
  · intro outer member
    refine
      ⟨fun _ => inTurn.moved outer member, fun counts => (counts rfl).elim,
        fun adds => (adds rfl).elim, ?_⟩
    intro reports stores
    obtain ⟨reported, rfl⟩ := Option.isSome_iff_exists.mp reports
    by_contra pending
    have current := inTurn.pending reported rfl
    have alone :=
      inTurn.once reported rfl (current ▸ pending) outer member
    rw [alone.2] at stores
    cases stores

/-- The running call's next access keeps the invariant. -/
theorem NestedInv.advance
    (inv : NestedInv image core ⟨s, call :: suspended⟩ trace)
    (inTurn : ReachesRingInTurn image ⟨s, call :: suspended⟩ .advance) :
    NestedInv image core
      (nestedStep image ⟨s, call :: suspended⟩ .advance).1
      (trace ++ (nestedStep image ⟨s, call :: suspended⟩ .advance).2) := by
  simp only [nestedStep]
  unfold advanceLogEvt
  cases isAt : call.point with
  | readSeq =>
      rw [List.append_nil]
      exact inv.load (isAt ▸ rfl) trivial
  | testPending seq =>
      dsimp only
      split
      · rw [List.append_nil]
        exact inv.load (isAt ▸ rfl) trivial
      · rw [List.append_nil]
        exact inv.load (isAt ▸ rfl) trivial
  | readPending seq =>
      rw [List.append_nil]
      exact inv.load (isAt ▸ rfl) trivial
  | enqueue seq count =>
      have inTurn := inTurn call rfl (seq, count) (isAt ▸ rfl)
      dsimp only at inTurn ⊢
      split
      · next next refused =>
          have unchanged := logTryEnqueue_refused (congrArg Prod.fst refused)
          rw [refused] at unchanged
          cases unchanged
          rw [← logTryEnqueue_fst, refused, if_neg Bool.false_ne_true] at inTurn
          exact inv.drop isAt inTurn
      · next next stored =>
          have enqueued :=
            logTryEnqueue_stored inv.fits (congrArg Prod.fst stored)
          rw [stored] at enqueued
          rw [← logTryEnqueue_fst, stored, if_pos rfl] at inTurn
          exact inv.store isAt inTurn enqueued
  | loadDropped =>
      rw [List.append_nil]
      exact inv.load (isAt ▸ rfl) rfl
  | storeDropped dropped =>
      rw [List.append_nil]
      exact inv.storeDropped isAt
  | loadPending =>
      rw [List.append_nil]
      exact inv.load (isAt ▸ rfl) rfl
  | storePending pending =>
      rw [List.append_nil]
      exact inv.storePending isAt
  | loadSeq reported =>
      rw [List.append_nil]
      exact inv.load (isAt ▸ rfl) rfl
  | storeSeq reported seq =>
      rw [List.append_nil]
      exact inv.storeSeq isAt
  | clearPending =>
      rw [List.append_nil]
      exact inv.clearPending isAt

end Accesses

section Runs

variable {image : LogImage} {core : LogCore} {before : LogState}

/-- A call that begins keeps the invariant. -/
theorem NestedInv.enter
    {s : LogState}
    {call : LogEvtCall}
    {calls : List LogEvtCall}
    {trace : List LogEvent}
    (inv : NestedInv image core ⟨s, calls⟩ trace)
    (isAt : call.point = .readSeq) :
    NestedInv image core ⟨s, call :: calls⟩ trace := by
  refine
    ⟨inv.fits, inv.sameCore, inv.fifo, inv.numbered, inv.seqBound, ?_, ?_, ?_,
      ?_, ?_⟩
  · rw [owed_cons, isAt]
    change (s.seq.toNat + (0 + _)) % 64 = _
    rw [Nat.zero_add]
    exact inv.seq
  · rw [owed_cons, isAt]
    change s.dropped + (0 + _) = _
    rw [zero_add]
    exact inv.counted
  · have same : unreported s (call :: calls) = unreported s calls := by
      unfold unreported
      rw [List.any_cons, isAt]
      rfl
    dsimp only
    rw [owed_cons, isAt, same]
    change _ + (0 + _) = _
    rw [zero_add]
    exact inv.announced
  · refine List.forall_mem_cons.mpr ⟨?_, inv.current⟩
    rw [isAt]
    trivial
  · refine List.pairwise_cons.mpr ⟨?_, inv.apart⟩
    intro outer _
    rw [isAt]
    exact DebtsApart.of_noDebts _ _

/-- A drain keeps the invariant. -/
theorem NestedInv.drain
    {s : LogState}
    {calls : List LogEvtCall}
    {trace : List LogEvent}
    (inv : NestedInv image core ⟨s, calls⟩ trace)
    (maxBytes : Nat)
    (answers : List SinkAnswer) :
    NestedInv image core ⟨(logDrain image maxBytes answers s).2.2, calls⟩
      (trace ++ [.sent (logDrain image maxBytes answers s).2.1]) := by
  have drained : Drained image s (logDrain image maxBytes answers s).2.1
      (logDrain image maxBytes answers s).2.2 :=
    logDrainLoop_drains maxBytes answers maxBytes false inv.fits
  obtain ⟨frame, fits, taken⟩ := drained
  generalize (logDrain image maxBytes answers s).2.2 = next at *
  generalize (logDrain image maxBytes answers s).2.1 = bytes at *
  subst frame
  have records : storedRecords (trace ++ [.sent bytes]) = storedRecords trace := by
    rw [storedRecords, storedItems_append]
    exact congrArg recordsIn (List.append_nil _)
  have drops : dropCount (trace ++ [.sent bytes]) = dropCount trace :=
    dropCount_append ..
  refine
    ⟨fits, inv.sameCore, ?_, records ▸ inv.numbered, inv.seqBound,
      records ▸ inv.seq, drops ▸ inv.counted, ?_, ?_, inv.apart⟩
  · have fifo := inv.fifo
    rw [taken] at fifo
    have sent : sentBytes [.sent bytes] = bytes :=
      List.append_nil _
    rw [sentBytes_append, storedBytes_append, sent, List.append_assoc, fifo]
    exact (List.append_nil _).symm
  · rw [drops, totalCount_append]
    exact (congrArg (· + _ + _) (add_zero _)).trans inv.announced
  · intro call member
    exact
      (inv.current call member).keep (fun _ => rfl) (fun _ => rfl)
        (fun _ => rfl)

/-- Every step of a program whose calls come to the ring in turn. -/
theorem nestedStep_inv
    {state : NestedLog}
    {history : List LogEvent}
    {action : NestedAction}
    (inv : NestedInv image core state history)
    (inTurn : ReachesRingInTurn image state action) :
    NestedInv image core (nestedStep image state action).1
      (history ++ (nestedStep image state action).2) := by
  obtain ⟨s, calls⟩ := state
  cases action with
  | call nowMs evt arg0 arg1 =>
      simp only [nestedStep, List.append_nil]
      exact inv.enter rfl
  | advance =>
      cases calls with
      | nil =>
          simp only [nestedStep, List.append_nil]
          exact inv
      | cons call suspended =>
          exact inv.advance inTurn
  | drain maxBytes answers =>
      exact inv.drain maxBytes answers

/-- `log_init` logs its banner, or nothing. -/
theorem logInit_eq :
    logInit image core before = (logReset core before, []) ∨
      ∃ text,
        logInit image core before =
          logStep image (logReset core before) (.text text) := by
  cases core with
  | security =>
      exact .inl rfl
  | app =>
      exact .inr ⟨_, rfl⟩

/-- After `log_init` the invariant holds. -/
theorem nestedStart_inv :
    NestedInv image core (nestedStart image core before)
      (logInit image core before).2 := by
  have conserves := @logRun_conserves image core before []
  have shown :
      (logRun image core before []).2 = (logInit image core before).2 :=
    List.append_nil _
  rw [shown] at conserves
  have counted := conserves.counted
  have start :
      (logInit image core before).1.Fits image ∧
        (logInit image core before).1.core = core ∧
          Numbered core 0 (storedRecords (logInit image core before).2) ∧
            (logInit image core before).1.seq.toNat =
              (0 + (storedRecords (logInit image core before).2).length) %
                64 := by
    have fits := @logReset_fits image core before
    rcases @logInit_eq image core before with reset | ⟨text, banner⟩
    · rw [reset]
      exact ⟨fits, rfl, trivial, rfl⟩
    · rw [banner]
      exact ⟨(logStep_keeps _ fits).fits, logStep_numbered _ fits rfl rfl⟩
  obtain ⟨fits, sameCore, numbered, seq⟩ := start
  rw [Nat.zero_add] at seq
  refine
    ⟨fits, sameCore, conserves.fifo, numbered, ?_, ?_, ?_, ?_, ?_, .nil⟩
  · exact seq ▸ Nat.mod_lt _ (by decide)
  · change ((logInit image core before).1.seq.toNat + 0) % 64 = _
    rw [Nat.add_zero, seq, Nat.mod_mod]
  · exact (add_zero _).trans counted
  · have announced := conserves.announced
    rw [counted] at announced
    exact (add_zero _).trans announced.symm
  · intro call member
    cases member

end Runs

/--
In every run in which each call that comes to the ring comes there in turn, and
in every state that it reaches, the records are numbered without a break, and
whenever no call is in progress every drop was counted once, and is in one
report or still to be reported.
-/
theorem nested_producers_keep_the_log
    (image : LogImage)
    (core : LogCore)
    (before : LogState)
    (actions : List NestedAction)
    (inTurn :
      Machine.Allowed (nestedStep image) (ReachesRingInTurn image)
        (nestedStart image core before) actions) :
    NestedLogKeeps image core (nestedRun image core before actions).1
      (nestedRun image core before actions).2 :=
  (Machine.invariant (fun _ _ _ inv inTurn => nestedStep_inv inv inTurn)
    nestedStart_inv inTurn).keeps

/-- A call that is not preempted, for so many accesses. -/
def wholeCall (accesses : Nat) : List NestedAction :=
  .call 0 0x0401 0 0 :: List.replicate accesses .advance

/-- Four records, which fill the ring of `smallImage`. -/
def fillingCalls : List NestedAction :=
  (List.replicate 4 (wholeCall 5)).flatten

/--
A full ring: a call is preempted before it reads anything, and after it read the
pending count, by calls that are dropped as it is itself; then the ring is
drained, and a call that is preempted by one that reports the drops logs its
event behind it.
-/
def harmlessPreemptions : List NestedAction :=
  fillingCalls ++ .call 0 0x0402 0 0 :: wholeCall 7 ++
    List.replicate 3 .advance ++ wholeCall 8 ++ List.replicate 5 .advance ++
      .drain 0 [.accepts 64] :: .call 1 0x0403 0 0 :: wholeCall 7 ++
        List.replicate 5 .advance

/-- Its three drops are counted, and are in the one report. -/
theorem harmless_preemptions_keep_the_log :
    (nestedRun smallImage .security blankLog harmlessPreemptions).1.calls = [] ∧
      dropCount
          (nestedRun smallImage .security blankLog harmlessPreemptions).2 = 3 ∧
      NestedLogKeeps smallImage .security
        (nestedRun smallImage .security blankLog harmlessPreemptions).1
        (nestedRun smallImage .security blankLog harmlessPreemptions).2 :=
  ⟨by decide +kernel, by decide +kernel,
    nested_producers_keep_the_log smallImage .security blankLog
      harmlessPreemptions (by decide +kernel)⟩

/-- A call is preempted by another after it has read the sequence number. -/
def overtakenCall : List NestedAction :=
  .call 0 0x0402 0 0 :: .advance :: wholeCall 5 ++ List.replicate 4 .advance

/-- A drop is counted while another one is being counted. -/
def overwrittenCount : List NestedAction :=
  fillingCalls ++ .call 0 0x0402 0 0 :: List.replicate 4 .advance ++
    wholeCall 7 ++ List.replicate 3 .advance

/-- A call is dropped after another has read the count that it reports. -/
def clearedUnreported : List NestedAction :=
  fillingCalls ++ wholeCall 7 ++ .call 0 0x0402 0 0 ::
    List.replicate 3 .advance ++ wholeCall 8 ++
      .drain 0 [.accepts 64] :: List.replicate 4 .advance

/--
Two records under one number; two drops that are counted once; two drops of
which one was reported, and none is to be reported.
-/
theorem nested_producers_can_break_the_log :
    ((storedRecords
            (nestedRun smallImage .security blankLog overtakenCall).2).map
          LogRec.seq =
        [0, 0] ∧
      ¬ NestedLogKeeps smallImage .security
        (nestedRun smallImage .security blankLog overtakenCall).1
        (nestedRun smallImage .security blankLog overtakenCall).2) ∧
    (logDropped
          (nestedRun smallImage .security blankLog overwrittenCount).1.log =
        1 ∧
      ¬ NestedLogKeeps smallImage .security
        (nestedRun smallImage .security blankLog overwrittenCount).1
        (nestedRun smallImage .security blankLog overwrittenCount).2) ∧
    (totalCount reportCount
          (nestedRun smallImage .security blankLog clearedUnreported).2 =
        1 ∧
      ¬ NestedLogKeeps smallImage .security
        (nestedRun smallImage .security blankLog clearedUnreported).1
        (nestedRun smallImage .security blankLog clearedUnreported).2) := by
  refine
    ⟨⟨by decide +kernel, ?_⟩, ⟨by decide +kernel, ?_⟩,
      ⟨by decide +kernel, ?_⟩⟩
  · intro keeps
    have twoRecords :
        ∃ first second,
          storedRecords
              (nestedRun smallImage .security blankLog overtakenCall).2 =
            [first, second] ∧ second.seq = 0 :=
      ⟨⟨.security, 0, 0x0401, 0, 0, 0⟩, ⟨.security, 0, 0x0402, 0, 0, 0⟩,
        by decide +kernel, rfl⟩
    obtain ⟨first, second, records, repeated⟩ := twoRecords
    have numbered := keeps.numbered
    rw [records] at numbered
    have number : second.seq.toNat = 1 := numbered.2.2.2.1
    rw [repeated] at number
    cases number
  · intro keeps
    have counted := keeps.counted (by decide +kernel)
    revert counted
    decide +kernel
  · intro keeps
    have announced := keeps.announced (by decide +kernel)
    revert announced
    decide +kernel

end TraveoBodyDomain
