import TraveoBodyDomain.Log.Loss

/-!
# `log_evt` preempted by `log_evt`

Only the copy into the ring is made under the lock.  The sequence number and the
two counts are read before it and written after it, one load and one store at a
time, and between any two of these a call from an interrupt or from a task of
higher priority may run as a whole, and be preempted itself.

Without a preemption the steps compute `logEvt`.  A preemption does no harm as
long as every call that reaches the ring does so in turn: nothing that it read
has become stale, and nothing that it is going to write is overwritten by a call
that it suspended.
-/

namespace TraveoBodyDomain

/-- Where a call of `log_evt` is: the access it makes next. -/
inductive LogEvtPoint where
  | readSeq
  | testPending (seq : UInt8)
  | readPending (seq : UInt8)
  /-- the records are encoded, and `log_try_enqueue` is called -/
  | enqueue (seq : UInt8) (count : Option UInt32)
  | loadDropped
  | storeDropped (dropped : UInt32)
  | loadPending
  | storePending (pending : UInt32)
  | loadSeq (reported : Bool)
  | storeSeq (reported : Bool) (seq : UInt8)
  | clearPending
  deriving Repr, DecidableEq

/-- A call in progress: its arguments, when it was made, where it is. -/
structure LogEvtCall where
  nowMs : UInt32
  evt : UInt16
  arg0 : UInt32
  arg1 : UInt16
  point : LogEvtPoint
  deriving Repr, DecidableEq

/-- The log and the calls in progress, the running one first. -/
structure NestedLog where
  log : LogState
  calls : List LogEvtCall

/-- A call preempts the running one; the running one goes on; a drain. -/
inductive NestedAction where
  | call (nowMs : UInt32) (evt : UInt16) (arg0 : UInt32) (arg1 : UInt16)
  | advance
  | drain (maxBytes : Nat) (answers : List SinkAnswer)
  deriving Repr, DecidableEq

namespace LogEvtCall

variable (call : LogEvtCall) (core : LogCore) (seq : UInt8)

/-- The record that reports a count. -/
def overflowRec (count : UInt32) : LogRec :=
  ⟨core, seq, logEvtOverflow, call.nowMs, count, 0⟩

/-- The record of the event, behind a report if there is one. -/
def eventRec (count : Option UInt32) : LogRec :=
  ⟨core, if count.isSome then logSeqAfter seq 1 else seq, call.evt, call.nowMs,
    call.arg0, call.arg1⟩

/-- The bytes of `overflow_rec`, as many as `overflow_len`. -/
def overflowBytes : Option UInt32 → List UInt8
  | none => []
  | some count => logRecEncode (call.overflowRec core seq count)

/-- What the call puts into the ring. -/
def items (count : Option UInt32) : List LogItem :=
  match count with
  | none => [.event (call.eventRec core seq count)]
  | some reported =>
      [.report (call.overflowRec core seq reported),
        .event (call.eventRec core seq count)]

end LogEvtCall

/-- By how much `log_evt` moves the sequence number on. -/
def seqStep (reported : Bool) : UInt8 :=
  if reported then 2 else 1

/--
The next access of a call: what becomes of the log, where the call is then, if
it has not returned, and what is seen of it.
-/
def advanceLogEvt
    (image : LogImage)
    (s : LogState)
    (call : LogEvtCall) :
    LogState × Option LogEvtPoint × List LogEvent :=
  match call.point with
  | .readSeq => (s, some (.testPending s.seq), [])
  | .testPending seq =>
      if s.pendingOverflow ≠ 0 then
        (s, some (.readPending seq), [])
      else
        (s, some (.enqueue seq none), [])
  | .readPending seq => (s, some (.enqueue seq (some s.pendingOverflow)), [])
  | .enqueue seq count =>
      match logTryEnqueue image (call.overflowBytes s.core seq count)
          (logRecEncode (call.eventRec s.core seq count)) s with
      | (false, next) => (next, some .loadDropped, [.dropped])
      | (true, next) =>
          (next, some (.loadSeq count.isSome),
            (call.items s.core seq count).map .stored)
  | .loadDropped => (s, some (.storeDropped s.dropped), [])
  | .storeDropped dropped =>
      ({ s with dropped := dropped + 1 }, some .loadPending, [])
  | .loadPending => (s, some (.storePending s.pendingOverflow), [])
  | .storePending pending =>
      ({ s with pendingOverflow := pending + 1 }, none, [])
  | .loadSeq reported => (s, some (.storeSeq reported s.seq), [])
  | .storeSeq reported seq =>
      ({ s with seq := logSeqAfter seq (seqStep reported) },
        if reported then some .clearPending else none, [])
  | .clearPending => ({ s with pendingOverflow := 0 }, none, [])

/-- The calls when the running one is now at `point`, or has returned. -/
def goOnAt
    (call : LogEvtCall)
    (suspended : List LogEvtCall) :
    Option LogEvtPoint → List LogEvtCall
  | none => suspended
  | some point => { call with point := point } :: suspended

/-- One step of the program with its interrupts. -/
def nestedStep (image : LogImage) :
    Machine.Step NestedLog NestedAction LogEvent
  | state, .call nowMs evt arg0 arg1 =>
      ({ state with
        calls := ⟨nowMs, evt, arg0, arg1, .readSeq⟩ :: state.calls }, [])
  | ⟨s, []⟩, .advance => (⟨s, []⟩, [])
  | ⟨s, call :: suspended⟩, .advance =>
      let (s, point, events) := advanceLogEvt image s call
      (⟨s, goOnAt call suspended point⟩, events)
  | state, .drain maxBytes answers =>
      let (_, bytes, s) := logDrain image maxBytes answers state.log
      ({ state with log := s }, [.sent bytes])

/-- After `log_init`, before any call. -/
def nestedStart
    (image : LogImage)
    (core : LogCore)
    (before : LogState) : NestedLog :=
  ⟨(logInit image core before).1, []⟩

/-- `log_init`, and then the steps; the last state and all that is shown. -/
def nestedRun
    (image : LogImage)
    (core : LogCore)
    (before : LogState)
    (actions : List NestedAction) : NestedLog × List LogEvent :=
  (Machine.final (nestedStep image) (nestedStart image core before) actions,
    (logInit image core before).2 ++
      Machine.trace (nestedStep image) (nestedStart image core before) actions)

/--
A call that is not preempted computes `logEvt`, whatever it preempted: the same
log, and the same is seen.
-/
theorem logEvt_unpreempted
    (image : LogImage)
    (s : LogState)
    (suspended : List LogEvtCall)
    (nowMs : UInt32)
    (evt : UInt16)
    (arg0 : UInt32)
    (arg1 : UInt16) :
    ∃ steps,
      Machine.Leads (nestedStep image) ⟨s, suspended⟩
        (.call nowMs evt arg0 arg1 :: List.replicate steps .advance)
        ⟨(logEvt image nowMs evt arg0 arg1 s).1, suspended⟩
        (logEvt image nowMs evt arg0 arg1 s).2 := by
  by_cases pending : s.pendingOverflow ≠ 0
  · rcases enqueued :
        logTryEnqueue image
          (logRecEncode
            ⟨s.core, s.seq, logEvtOverflow, nowMs, s.pendingOverflow, 0⟩)
          (logRecEncode
            ⟨s.core, logSeqAfter s.seq 1, evt, nowMs, arg0, arg1⟩) s
      with ⟨stored, next⟩
    cases stored with
    | false =>
        refine ⟨8, ?_⟩
        simp [Machine.Leads, nestedStep, advanceLogEvt, goOnAt, logEvt, pending,
          enqueued, List.replicate_succ, LogEvtCall.overflowBytes,
          LogEvtCall.overflowRec, LogEvtCall.eventRec, logNoteDrop]
    | true =>
        refine ⟨7, ?_⟩
        simp [Machine.Leads, nestedStep, advanceLogEvt, goOnAt, logEvt, pending,
          enqueued, List.replicate_succ, LogEvtCall.overflowBytes,
          LogEvtCall.overflowRec, LogEvtCall.eventRec, LogEvtCall.items,
          seqStep]
  · rcases enqueued :
        logTryEnqueue image []
          (logRecEncode ⟨s.core, s.seq, evt, nowMs, arg0, arg1⟩) s
      with ⟨stored, next⟩
    cases stored with
    | false =>
        refine ⟨7, ?_⟩
        simp [Machine.Leads, nestedStep, advanceLogEvt, goOnAt, logEvt, pending,
          enqueued, List.replicate_succ, LogEvtCall.overflowBytes,
          LogEvtCall.eventRec, logNoteDrop]
    | true =>
        refine ⟨5, ?_⟩
        simp [Machine.Leads, nestedStep, advanceLogEvt, goOnAt, logEvt, pending,
          enqueued, List.replicate_succ, LogEvtCall.overflowBytes,
          LogEvtCall.eventRec, LogEvtCall.items, seqStep]

/-!
## What a call still owes

A call that was stored still has to move the sequence number on and, if it
reported the pending count, to clear it; a call that was dropped still has to
count the drop twice.
-/

/-- What a call still has to do to the statics. -/
structure LogDebts where
  /-- by how much it moves the sequence number on -/
  seq : UInt8
  /-- it clears the pending count -/
  clear : Bool
  /-- what it adds to the drops -/
  dropped : UInt32
  /-- what it adds to the pending count -/
  pending : UInt32
  deriving Repr, DecidableEq

namespace LogEvtPoint

/-- What a call at this point still owes. -/
def debts : LogEvtPoint → LogDebts
  | .loadDropped | .storeDropped _ => ⟨0, false, 1, 1⟩
  | .loadPending | .storePending _ => ⟨0, false, 0, 1⟩
  | .loadSeq reported | .storeSeq reported _ =>
      ⟨seqStep reported, reported, 0, 0⟩
  | .clearPending => ⟨0, true, 0, 0⟩
  | _ => ⟨0, false, 0, 0⟩

/-- The first number and the reported count of what goes into the ring next. -/
def records? : LogEvtPoint → Option (UInt8 × Option UInt32)
  | .enqueue seq count => some (seq, count)
  | _ => none

/-- The call has loaded the drops and stores them next. -/
def storesDropped : LogEvtPoint → Bool
  | .storeDropped _ => true
  | _ => false

/-- The call has loaded the pending count and stores it next. -/
def storesPending : LogEvtPoint → Bool
  | .storePending _ => true
  | _ => false

/-- What the call has loaded in order to store it is not stale. -/
def Current (s : LogState) : LogEvtPoint → Prop
  | .storeDropped dropped => dropped = s.dropped
  | .storePending pending => pending = s.pendingOverflow
  | .storeSeq _ seq => seq = s.seq
  | _ => True

end LogEvtPoint

/--
The records get the numbers that come next, and the count that they report is
the pending one, which no suspended call has reported already or overwrites.
-/
structure StoresInTurn
    (s : LogState)
    (suspended : List LogEvtCall)
    (seq : UInt8)
    (count : Option UInt32) : Prop where
  current : seq = s.seq
  moved : ∀ outer ∈ suspended, outer.point.debts.seq = 0
  pending : ∀ reported ∈ count, reported = s.pendingOverflow
  once :
    ∀ reported ∈ count,
      reported ≠ 0 →
        ∀ outer ∈ suspended,
          outer.point.debts.clear = false ∧ outer.point.storesPending = false

/-- No suspended call overwrites one of the counts or clears the pending one. -/
structure DropsInTurn (suspended : List LogEvtCall) : Prop where
  dropped : ∀ outer ∈ suspended, outer.point.storesDropped = false
  pending : ∀ outer ∈ suspended, outer.point.storesPending = false
  cleared : ∀ outer ∈ suspended, outer.point.debts.clear = false

-- Only the count at hand is tried, and not every value that a count may have.
instance StoresInTurn.decidable
    (s : LogState)
    (suspended : List LogEvtCall)
    (seq : UInt8)
    (count : Option UInt32) :
    Decidable (StoresInTurn s suspended seq count) :=
  haveI : Decidable (∀ reported ∈ count, reported = s.pendingOverflow) :=
    Option.decidableForallMem count
  haveI :
      Decidable
        (∀ reported ∈ count,
          reported ≠ 0 →
            ∀ outer ∈ suspended,
              outer.point.debts.clear = false ∧
                outer.point.storesPending = false) :=
    Option.decidableForallMem count
  decidable_of_iff
    (seq = s.seq ∧
      (∀ outer ∈ suspended, outer.point.debts.seq = 0) ∧
      (∀ reported ∈ count, reported = s.pendingOverflow) ∧
      ∀ reported ∈ count,
        reported ≠ 0 →
          ∀ outer ∈ suspended,
            outer.point.debts.clear = false ∧
              outer.point.storesPending = false)
    ⟨fun ⟨a, b, c, d⟩ => ⟨a, b, c, d⟩, fun ⟨a, b, c, d⟩ => ⟨a, b, c, d⟩⟩

instance DropsInTurn.decidable (suspended : List LogEvtCall) :
    Decidable (DropsInTurn suspended) :=
  decidable_of_iff
    ((∀ outer ∈ suspended, outer.point.storesDropped = false) ∧
      (∀ outer ∈ suspended, outer.point.storesPending = false) ∧
      ∀ outer ∈ suspended, outer.point.debts.clear = false)
    ⟨fun ⟨a, b, c⟩ => ⟨a, b, c⟩, fun ⟨a, b, c⟩ => ⟨a, b, c⟩⟩

/-- How many bytes a call asks the ring for. -/
def LogEvtCall.need
    (call : LogEvtCall)
    (core : LogCore)
    (seq : UInt8)
    (count : Option UInt32) : Nat :=
  (call.overflowBytes core seq count).length +
    (logRecEncode (call.eventRec core seq count)).length

/-- A running call that comes to the ring comes there in turn. -/
def ReachesRingInTurn (image : LogImage) : NestedLog → NestedAction → Prop
  | state, .advance =>
      ∀ call ∈ state.calls.head?,
        ∀ records ∈ call.point.records?,
          if
            logHasRoom image state.log
                (call.need state.log.core records.1 records.2) = true
          then
            StoresInTurn state.log state.calls.tail records.1 records.2
          else
            DropsInTurn state.calls.tail
  | _, .call .. => True
  | _, .drain .. => True

instance ReachesRingInTurn.decidable (image : LogImage) :
    ∀ state action, Decidable (ReachesRingInTurn image state action)
  | state, .advance =>
      haveI (call : LogEvtCall) :
          Decidable
            (∀ records ∈ call.point.records?,
              if
                logHasRoom image state.log
                    (call.need state.log.core records.1 records.2) = true
              then
                StoresInTurn state.log state.calls.tail records.1 records.2
              else
                DropsInTurn state.calls.tail) :=
        Option.decidableForallMem _
      Option.decidableForallMem state.calls.head?
  | _, .call .. => inferInstanceAs (Decidable True)
  | _, .drain .. => inferInstanceAs (Decidable True)

/--
What is to hold in every state that a run reaches: the records that went into
the ring, in the order of the ring, are numbered without a break, and, when no
call is in progress, every drop was counted once, and is in one report or still
to be reported.
-/
structure NestedLogKeeps
    (image : LogImage)
    (core : LogCore)
    (state : NestedLog)
    (trace : List LogEvent) : Prop where
  numbered : Numbered core 0 (storedRecords trace)
  fifo : sentBytes trace ++ logContent image state.log = storedBytes trace
  counted :
    state.calls = [] →
      logDropped state.log = UInt32.ofNat (dropCount trace)
  announced :
    state.calls = [] →
      totalCount reportCount trace + state.log.pendingOverflow =
        UInt32.ofNat (dropCount trace)

end TraveoBodyDomain
