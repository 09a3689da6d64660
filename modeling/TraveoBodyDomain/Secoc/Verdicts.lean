import Mathlib.Tactic.Common
import TraveoBodyDomain.Lib.Machine
import TraveoBodyDomain.Secoc.Rx

/-!
# Verdicts, counters and events

Everything one call of `secoc_rx_process` can do, whatever its pointers, and
what that makes of a whole run of calls: the counters are the events, and only
an accept moves the freshness.  The port a run goes through writes down every
commit it is asked for.
-/

namespace TraveoBodyDomain

/-- The event that goes with a verdict. -/
def SecocRxVerdict.evt : SecocRxVerdict → LogEvt
  | .accept => .secocAccept
  | .dropMac => .secocRejectMac
  | .dropFreshness => .secocRejectFreshness

/-- The counter that goes with a verdict. -/
def SecocRx.counter
    (rx : SecocRx) :
    SecocRxVerdict → UInt32
  | .accept => rx.nAccept
  | .dropMac => rx.nDropMac
  | .dropFreshness => rx.nDropFresh

/-- Different verdicts log different events. -/
theorem SecocRxVerdict.evt_inj
    {first second : SecocRxVerdict} :
    first.evt = second.evt ↔ first = second := by
  cases first <;> cases second <;> decide

/-!
## One call
-/

/-- The arguments of one call of `secoc_rx_process`, and the oracle it meets. -/
structure RxCall where
  mac : SecocMac
  canId : UInt16
  frame : List UInt8
  pduOut : Option (List UInt8)
  pduLen : Option Nat

/-- The call, on a receiver. -/
def RxCall.process
    {Store : Type}
    (port : FreshnessStoreIf Store)
    (call : RxCall)
    (rx : SecocRx)
    (store : Store) :
    SecocRxResult Store :=
  secocRxProcess port call.mac rx call.canId call.frame call.pduOut call.pduLen
    store

/-- A call whose pointers are set and whose frame the verifier returned OK for. -/
structure VerifiedCall
    (rx : SecocRx)
    (call : RxCall) where
  cy : SecocCrypto
  fresh : SecocRxCtx
  out : List UInt8
  len : Nat
  verified : Verified
  cySet : rx.cy = some cy
  freshSet : rx.fresh = some fresh
  outSet : call.pduOut = some out
  lenSet : call.pduLen = some len
  verifies :
    rxVerify call.mac rx.pduLenOf cy call.canId call.frame out.length =
      .ok verified

/-- There is only one way for a call to have verified. -/
instance VerifiedCall.subsingleton
    (rx : SecocRx)
    (call : RxCall) :
    Subsingleton (VerifiedCall rx call) where
  allEq := by
    rintro ⟨cy, fresh, out, len, verified, cySet, freshSet, outSet, lenSet,
      verifies⟩
    rintro ⟨cy', fresh', out', len', verified', cySet', freshSet', outSet',
      lenSet', verifies'⟩
    cases cySet.symm.trans cySet'
    cases freshSet.symm.trans freshSet'
    cases outSet.symm.trans outSet'
    cases lenSet.symm.trans lenSet'
    cases verifies.symm.trans verifies'
    rfl

namespace VerifiedCall

variable {rx : SecocRx} {call : RxCall} {Store : Type}

/-- `secoc_rx_check` lets the frame through. -/
def Fresh (one : VerifiedCall rx call) : Prop :=
  secocRxCheck one.fresh call.canId one.verified.epoch one.verified.counter =
    .ok

/-- The commit an epoch above the current one needs succeeds. -/
def Commits
    (port : FreshnessStoreIf Store)
    (store : Store)
    (one : VerifiedCall rx call) : Prop :=
  one.fresh.current < one.verified.epoch →
    (port.commit store one.fresh.domain one.verified.epoch).1 = true

/-- The output buffer once the verifier copied the PDU. -/
def written (one : VerifiedCall rx call) : List UInt8 :=
  one.verified.pdu ++ one.out.drop one.verified.pdu.length

end VerifiedCall

section OneCall

variable {Store : Type}
  {port : FreshnessStoreIf Store}
  {rx : SecocRx}
  {call : RxCall}
  {store : Store}

/-- Without a verified frame a call is a MAC drop, under every port. -/
theorem process_unverified
    (unverified : VerifiedCall rx call → False) :
    ∃ reason, ∀ port : FreshnessStoreIf Store,
      call.process port rx store =
        dropMac rx call.canId reason call.pduOut (call.pduLen.map fun _ => 0)
          store := by
  rcases call with ⟨mac, canId, frame, pduOut, pduLen⟩
  unfold RxCall.process secocRxProcess
  dsimp only
  rcases cySet : rx.cy with _ | cy
  · exact ⟨_, fun port => rfl⟩
  rcases freshSet : rx.fresh with _ | fresh
  · exact ⟨_, fun port => rfl⟩
  rcases pduOut with _ | out
  · exact ⟨_, fun port => rfl⟩
  rcases pduLen with _ | len
  · exact ⟨_, fun port => rfl⟩
  rcases verifies :
      rxVerify mac rx.pduLenOf cy canId frame out.length with
      reason | verified
  · exact ⟨reason, fun port => by simp only [Option.map_some, verifies]⟩
  · exact
      (unverified
        ⟨cy, fresh, out, len, verified, cySet, freshSet, rfl, rfl,
          verifies⟩).elim

/-- What a call with a verified frame does. -/
theorem process_verified
    (one : VerifiedCall rx call) :
    call.process port rx store =
      match
        secocRxCheck one.fresh call.canId one.verified.epoch
          one.verified.counter
      with
      | .ok =>
          match
            secocRxAccept port one.fresh call.canId one.verified.epoch
              one.verified.counter store
          with
          | (false, fresh, store) =>
              dropFresh { rx with fresh := some fresh } call.canId
                one.verified.counter (some one.written) (some 0) store
          | (true, fresh, store) =>
              { verdict := .accept
                rx :=
                  { rx with
                    fresh := some fresh
                    nAccept := rx.nAccept + 1 }
                pduOut := some one.written
                pduLen := some one.verified.pdu.length
                store := store
                log :=
                  [⟨.secocAccept, call.canId.toUInt32,
                    one.verified.counter⟩] }
      | _ =>
          dropFresh rx call.canId one.verified.counter (some one.written)
            (some 0) store := by
  obtain
    ⟨cy, fresh, out, len, verified, cySet, freshSet, outSet, lenSet,
      verifies⟩ := one
  unfold RxCall.process secocRxProcess
  simp only [cySet, freshSet, outSet, lenSet, Option.map_some, verifies]
  rfl

/-- A verified frame that is stale or unknown is a freshness drop. -/
theorem process_stale
    (one : VerifiedCall rx call)
    (stale : ¬ one.Fresh) :
    call.process port rx store =
      dropFresh rx call.canId one.verified.counter (some one.written) (some 0)
        store := by
  rw [process_verified one]
  split
  next passes => exact (stale passes).elim
  next => rfl

/-- A fresh frame whose commit fails is a freshness drop, after that commit. -/
theorem process_uncommitted
    (one : VerifiedCall rx call)
    (passes : one.Fresh)
    (fails : ¬ one.Commits port store) :
    one.fresh.current < one.verified.epoch ∧
      ∃ next,
        port.commit store one.fresh.domain one.verified.epoch =
            (false, next) ∧
          call.process port rx store =
            dropFresh rx call.canId one.verified.counter (some one.written)
              (some 0) next := by
  obtain ⟨newer, refused⟩ := Classical.not_imp.mp fails
  obtain ⟨idx, found, -, -⟩ := secocRxCheck_ok.mp passes
  rcases committed :
      port.commit store one.fresh.domain one.verified.epoch with
      ⟨succeeded, next⟩
  rw [committed, Bool.not_eq_true] at refused
  cases refused
  have ran :
      secocRxAccept port one.fresh call.canId one.verified.epoch
          one.verified.counter store =
        (false, one.fresh, next) := by
    unfold secocRxAccept
    simp only [found, if_pos newer, committed]
  have same : { rx with fresh := some one.fresh } = rx := by
    rw [← one.freshSet]
  refine ⟨newer, next, rfl, ?_⟩
  rw [process_verified one]
  have checked := passes
  unfold VerifiedCall.Fresh at checked
  simp only [checked, ran, same]

/-- A fresh frame that needs no commit, or one that succeeds, is accepted. -/
theorem process_accepted
    (one : VerifiedCall rx call)
    (passes : one.Fresh)
    (commits : one.Commits port store) :
    ∃ freshAfter storeAfter,
      secocRxAccept port one.fresh call.canId one.verified.epoch
          one.verified.counter store =
        (true, freshAfter, storeAfter) ∧
      call.process port rx store =
        { verdict := .accept
          rx :=
            { rx with
              fresh := some freshAfter
              nAccept := rx.nAccept + 1 }
          pduOut := some one.written
          pduLen := some one.verified.pdu.length
          store := storeAfter
          log :=
            [⟨.secocAccept, call.canId.toUInt32, one.verified.counter⟩] } := by
  have succeeds := (secocRxAccept_fst_iff passes).mpr commits
  rcases ran :
      secocRxAccept port one.fresh call.canId one.verified.epoch
        one.verified.counter store with
      ⟨accepted, freshAfter, storeAfter⟩
  rw [ran] at succeeds
  cases succeeds
  refine ⟨freshAfter, storeAfter, rfl, ?_⟩
  rw [process_verified one]
  have checked := passes
  unfold VerifiedCall.Fresh at checked
  simp only [checked, ran]

/-- Everything a call can do. -/
theorem process_cases
    (port : FreshnessStoreIf Store)
    (rx : SecocRx)
    (call : RxCall)
    (store : Store) :
    (VerifiedCall rx call → False) ∨
      ∃ one : VerifiedCall rx call,
        ¬ one.Fresh ∨ one.Fresh ∧ ¬ one.Commits port store ∨
          one.Fresh ∧ one.Commits port store := by
  by_cases verified : Nonempty (VerifiedCall rx call)
  · obtain ⟨one⟩ := verified
    refine Or.inr ⟨one, ?_⟩
    by_cases passes : one.Fresh
    · by_cases commits : one.Commits port store
      · exact Or.inr (Or.inr ⟨passes, commits⟩)
      · exact Or.inr (Or.inl ⟨passes, commits⟩)
    · exact Or.inl passes
  · exact Or.inl fun one => verified ⟨one⟩

/-- A call accepts exactly a verified frame that is fresh and committed. -/
theorem process_accepts_iff :
    (call.process port rx store).verdict = .accept ↔
      ∃ one : VerifiedCall rx call, one.Fresh ∧ one.Commits port store := by
  constructor
  · intro accepted
    rcases process_cases port rx call store with
        unverified | ⟨one, stale | ⟨passes, fails⟩ | ⟨passes, commits⟩⟩
    · obtain ⟨reason, ran⟩ := @process_unverified _ _ _ store unverified
      rw [ran port] at accepted
      cases accepted
    · rw [process_stale one stale] at accepted
      cases accepted
    · obtain ⟨-, next, -, ran⟩ := process_uncommitted one passes fails
      rw [ran] at accepted
      cases accepted
    · exact ⟨one, passes, commits⟩
  · rintro ⟨one, passes, commits⟩
    obtain ⟨_, _, -, ran⟩ := process_accepted one passes commits
    rw [ran]

/-- A call drops at the MAC exactly when its frame does not verify. -/
theorem process_dropsMac_iff :
    (call.process port rx store).verdict = .dropMac ↔
      (VerifiedCall rx call → False) := by
  constructor
  · intro dropped one
    rcases process_cases port rx call store with
        unverified | ⟨one, stale | ⟨passes, fails⟩ | ⟨passes, commits⟩⟩
    · exact unverified one
    · rw [process_stale one stale] at dropped
      cases dropped
    · obtain ⟨-, next, -, ran⟩ := process_uncommitted one passes fails
      rw [ran] at dropped
      cases dropped
    · obtain ⟨_, _, -, ran⟩ := process_accepted one passes commits
      rw [ran] at dropped
      cases dropped
  · intro unverified
    obtain ⟨reason, ran⟩ := @process_unverified _ _ _ store unverified
    rw [ran port]
    rfl

/-- The three ways a call comes back. -/
inductive CallEnd
    (rx : SecocRx)
    (call : RxCall) :
    SecocRxResult Store → Prop where
  | droppedMac
      (reason : SecocVerifyFailure)
      (store : Store) :
      CallEnd rx call
        (dropMac rx call.canId reason call.pduOut (call.pduLen.map fun _ => 0)
          store)
  | droppedFresh
      (counter : UInt16)
      (out : List UInt8)
      (store : Store) :
      CallEnd rx call
        (dropFresh rx call.canId counter (some out)
          (call.pduLen.map fun _ => 0) store)
  | accepted
      (fresh : SecocRxCtx)
      (counter : UInt16)
      (out : List UInt8)
      (len : Nat)
      (store : Store) :
      CallEnd rx call
        { verdict := .accept
          rx := { rx with fresh := some fresh, nAccept := rx.nAccept + 1 }
          pduOut := some out
          pduLen := some len
          store := store
          log := [⟨.secocAccept, call.canId.toUInt32, counter⟩] }

/-- Every call comes back in one of them. -/
theorem process_ends :
    CallEnd rx call (call.process port rx store) := by
  rcases process_cases port rx call store with
      unverified | ⟨one, stale | ⟨passes, fails⟩ | ⟨passes, commits⟩⟩
  · obtain ⟨reason, ran⟩ := @process_unverified _ _ _ store unverified
    rw [ran port]
    exact .droppedMac reason store
  · have noPdu : some 0 = call.pduLen.map fun _ => 0 := by
      rw [one.lenSet]
      rfl
    rw [process_stale one stale, noPdu]
    exact .droppedFresh _ _ _
  · have noPdu : some 0 = call.pduLen.map fun _ => 0 := by
      rw [one.lenSet]
      rfl
    obtain ⟨-, next, -, ran⟩ := process_uncommitted one passes fails
    rw [ran, noPdu]
    exact .droppedFresh _ _ _
  · obtain ⟨_, _, -, ran⟩ := process_accepted one passes commits
    rw [ran]
    exact .accepted _ _ _ _ _

namespace CallEnd

variable {result : SecocRxResult Store}

/-- However a call ends, it adds one to the counter of its verdict alone. -/
theorem counter
    (ends : CallEnd rx call result)
    (kind : SecocRxVerdict) :
    result.rx.counter kind =
      rx.counter kind + if kind = result.verdict then 1 else 0 := by
  cases ends with
  | droppedMac reason store =>
      cases kind <;> simp [dropMac, SecocRx.counter]
  | droppedFresh counter out store =>
      cases kind <;> simp [dropFresh, SecocRx.counter]
  | accepted fresh counter out len store =>
      cases kind <;> simp [SecocRx.counter]

/-- However a call ends, it logs the one event of its verdict. -/
theorem log
    (ends : CallEnd rx call result) :
    ∃ arg1,
      result.log = [⟨result.verdict.evt, call.canId.toUInt32, arg1⟩] := by
  cases ends with
  | droppedMac reason store => exact ⟨reason.code, rfl⟩
  | droppedFresh counter out store => exact ⟨counter, rfl⟩
  | accepted fresh counter out len store => exact ⟨counter, rfl⟩

/-- A call that drops leaves the freshness context and reports no length. -/
theorem dropped
    (ends : CallEnd rx call result)
    (drops : result.verdict ≠ .accept) :
    result.rx.fresh = rx.fresh ∧
      result.pduLen = call.pduLen.map fun _ => 0 := by
  cases ends with
  | droppedMac reason store => exact ⟨rfl, rfl⟩
  | droppedFresh counter out store => exact ⟨rfl, rfl⟩
  | accepted fresh counter out len store => exact (drops rfl).elim

end CallEnd

end OneCall

/-!
## The commits of a call
-/

/-- One call of the commit port, and its answer. -/
structure EpochCommit where
  domain : UInt8
  epoch : UInt16
  succeeded : Bool
  deriving Repr, DecidableEq

/-- The port, with every commit written down. -/
def recordingPort
    {Store : Type}
    (port : FreshnessStoreIf Store) :
    FreshnessStoreIf (Store × List EpochCommit) where
  load := fun store domain => port.load store.1 domain
  commit := fun store domain epoch =>
    let answer := port.commit store.1 domain epoch
    (answer.1, answer.2, store.2 ++ [⟨domain, epoch, answer.1⟩])

section Commits

variable {Store : Type}
  {port : FreshnessStoreIf Store}
  {rx : SecocRx}
  {call : RxCall}
  {store : Store × List EpochCommit}

/-- A dropped call made no commit, or one that failed for a newer epoch. -/
theorem process_drop_commits
    (dropped :
      (call.process (recordingPort port) rx store).verdict ≠ .accept) :
    (call.process (recordingPort port) rx store).store = store ∨
      ∃ one : VerifiedCall rx call,
        one.fresh.current < one.verified.epoch ∧
          (call.process (recordingPort port) rx store).store.2 =
            store.2 ++ [⟨one.fresh.domain, one.verified.epoch, false⟩] := by
  rcases process_cases (recordingPort port) rx call store with
      unverified | ⟨one, stale | ⟨passes, fails⟩ | ⟨passes, commits⟩⟩
  · obtain ⟨reason, ran⟩ := @process_unverified _ _ _ store unverified
    rw [ran]
    exact Or.inl rfl
  · rw [process_stale one stale]
    exact Or.inl rfl
  · obtain ⟨newer, next, failed, ran⟩ := process_uncommitted one passes fails
    refine Or.inr ⟨one, newer, ?_⟩
    have answer := congrArg Prod.fst failed
    have after := congrArg (fun result => result.2.2) failed
    dsimp only [recordingPort] at answer after
    rw [ran, ← answer]
    exact after.symm
  · exact (dropped (process_accepts_iff.mpr ⟨one, passes, commits⟩)).elim

/-- An accepted call made one commit, for a newer epoch, or none. -/
theorem process_accept_commits
    (one : VerifiedCall rx call)
    (passes : one.Fresh)
    (commits : one.Commits (recordingPort port) store) :
    (call.process (recordingPort port) rx store).store.2 =
      if one.fresh.current < one.verified.epoch then
        store.2 ++ [⟨one.fresh.domain, one.verified.epoch, true⟩]
      else
        store.2 := by
  obtain ⟨freshAfter, storeAfter, accepted, ran⟩ :=
    process_accepted one passes commits
  rw [ran]
  rcases secocRxAccept_cases accepted with
      ⟨refused, -⟩ | ⟨idx, -, -, ⟨newer, committed, -⟩ | ⟨covered, rfl, -⟩⟩
  · cases refused
  · have answer := congrArg Prod.fst committed
    have after := congrArg (fun result => result.2.2) committed
    dsimp only [recordingPort] at answer after
    rw [if_pos newer, ← answer]
    exact after.symm
  · rw [if_neg (UInt16.not_lt.mpr covered)]

end Commits

/-!
## Runs of calls
-/

/-- A bound receiver, its store, and the commits it asked for so far. -/
structure RxRun (Store : Type) where
  rx : SecocRx
  store : Store × List EpochCommit

/-- One call on the receiver; it shows what the call logs. -/
def rxRunStep
    {Store : Type}
    (port : FreshnessStoreIf Store) :
    Machine.Step (RxRun Store) RxCall LogRecord :=
  fun run call =>
    let result := call.process (recordingPort port) run.rx run.store
    (⟨result.rx, result.store⟩, result.log)

/-- A receiver just bound, before its first call. -/
def RxRun.bound
    {Store : Type}
    (cy : Option SecocCrypto)
    (fresh : Option SecocRxCtx)
    (pduLenOf : Option (UInt32 → Nat))
    (store : Store) :
    RxRun Store where
  rx := secocRxSetPduLenOf (secocRxInit cy fresh) pduLenOf
  store := (store, [])

/-- The events of one kind among those logged. -/
def countEvt
    (kind : SecocRxVerdict)
    (log : List LogRecord) :
    Nat :=
  log.countP fun one => one.evt = kind.evt

/-- One verdict, one counter, one event: what a call does to a receiver. -/
structure OneVerdict
    {Store : Type}
    (port : FreshnessStoreIf Store)
    (run : RxRun Store)
    (call : RxCall)
    (result : SecocRxResult (Store × List EpochCommit)) : Prop where
  oneCounter :
    ∀ kind,
      result.rx.counter kind =
        run.rx.counter kind + if kind = result.verdict then 1 else 0
  oneEvent :
    ∃ arg1, result.log = [⟨result.verdict.evt, call.canId.toUInt32, arg1⟩]
  accepts :
    result.verdict = .accept ↔
      ∃ one : VerifiedCall run.rx call,
        one.Fresh ∧ one.Commits port run.store.1
  commits :
    result.store.2 = run.store.2 ∨
      ∃ one : VerifiedCall run.rx call,
        one.fresh.current < one.verified.epoch ∧
          result.store.2 =
            run.store.2 ++
              [⟨one.fresh.domain, one.verified.epoch,
                result.verdict = .accept⟩]
  dropKeepsFresh :
    result.verdict ≠ .accept →
      result.rx.fresh = run.rx.fresh ∧
        result.store.2.filter (·.succeeded) =
          run.store.2.filter (·.succeeded)
  dropMacKeepsStore :
    result.verdict = .dropMac →
      result.store = run.store ∧
        ∀ other : FreshnessStoreIf (Store × List EpochCommit),
          call.process other run.rx run.store = result

/-- Every call on every receiver has one verdict, one counter, one event. -/
theorem oneVerdict_process
    {Store : Type}
    (port : FreshnessStoreIf Store)
    (run : RxRun Store)
    (call : RxCall) :
    OneVerdict port run call
      (call.process (recordingPort port) run.rx run.store) where
  oneCounter := process_ends.counter
  oneEvent := process_ends.log
  accepts := process_accepts_iff
  commits := by
    by_cases verdict :
        (call.process (recordingPort port) run.rx run.store).verdict = .accept
    · obtain ⟨one, passes, commits⟩ := process_accepts_iff.mp verdict
      have made := process_accept_commits one passes commits
      split at made
      next newer =>
        refine Or.inr ⟨one, newer, ?_⟩
        simpa only [verdict, decide_true] using made
      next => exact Or.inl made
    · rcases process_drop_commits verdict with same | ⟨one, newer, made⟩
      · exact Or.inl (congrArg Prod.snd same)
      · refine Or.inr ⟨one, newer, ?_⟩
        simpa only [verdict, decide_false] using made
  dropKeepsFresh := by
    intro verdict
    refine ⟨(process_ends.dropped verdict).1, ?_⟩
    rcases process_drop_commits verdict with same | ⟨one, -, made⟩
    · rw [same]
    · rw [made, List.filter_append]
      simp
  dropMacKeepsStore := by
    intro verdict
    obtain ⟨reason, ran⟩ :=
      @process_unverified _ _ _ run.store (process_dropsMac_iff.mp verdict)
    refine ⟨?_, fun other => ?_⟩
    · rw [ran]
      rfl
    · rw [ran, ran]

/-- A call moves a counter by the events of its kind that it logs. -/
theorem OneVerdict.counts
    {Store : Type}
    {port : FreshnessStoreIf Store}
    {run : RxRun Store}
    {call : RxCall}
    {result : SecocRxResult (Store × List EpochCommit)}
    (one : OneVerdict port run call result)
    (kind : SecocRxVerdict) :
    result.rx.counter kind =
      run.rx.counter kind + UInt32.ofNat (countEvt kind result.log) := by
  obtain ⟨arg1, logged⟩ := one.oneEvent
  rw [one.oneCounter kind, logged]
  unfold countEvt
  rw [List.countP_singleton]
  by_cases same : kind = result.verdict
  · simp [same]
  · have other : ¬ result.verdict.evt = kind.evt := by
      rw [SecocRxVerdict.evt_inj]
      exact fun equal => same equal.symm
    simp [same, other]

/-- Over a run, a counter moves by the events of its kind, modulo 2^32. -/
theorem counter_final
    {Store : Type}
    (port : FreshnessStoreIf Store)
    (kind : SecocRxVerdict)
    (calls : List RxCall)
    (run : RxRun Store) :
    (Machine.final (rxRunStep port) run calls).rx.counter kind =
      run.rx.counter kind +
        UInt32.ofNat
          (countEvt kind (Machine.trace (rxRunStep port) run calls)) := by
  induction calls generalizing run with
  | nil =>
      simp [countEvt]
  | cons call rest inductionHypothesis =>
      have first := (oneVerdict_process port run call).counts kind
      rw [Machine.final_cons, Machine.trace_cons, inductionHypothesis]
      change
        (call.process (recordingPort port) run.rx run.store).rx.counter kind +
            _ = _
      rw [first, UInt32.add_assoc, ← UInt32.ofNat_add]
      congr 2
      exact List.countP_append.symm

/--
In every run of calls on a receiver just bound, every call has one verdict, one
counter and one event, and every counter is the number of its events.
-/
theorem one_verdict_one_counter_one_event
    {Store : Type}
    (port : FreshnessStoreIf Store)
    (cy : Option SecocCrypto)
    (fresh : Option SecocRxCtx)
    (pduLenOf : Option (UInt32 → Nat))
    (store : Store)
    (calls : List RxCall) :
    (∀ before call after,
        calls = before ++ call :: after →
          OneVerdict port
            (Machine.final (rxRunStep port)
              (.bound cy fresh pduLenOf store) before)
            call
            (call.process (recordingPort port)
              (Machine.final (rxRunStep port)
                (.bound cy fresh pduLenOf store) before).rx
              (Machine.final (rxRunStep port)
                (.bound cy fresh pduLenOf store) before).store)) ∧
      ∀ kind,
        (Machine.final (rxRunStep port)
              (.bound cy fresh pduLenOf store) calls).rx.counter kind =
          UInt32.ofNat
            (countEvt kind
              (Machine.trace (rxRunStep port)
                (.bound cy fresh pduLenOf store) calls)) := by
  refine ⟨fun before call after _ => oneVerdict_process port _ call, ?_⟩
  intro kind
  have zero :
      (RxRun.bound cy fresh pduLenOf store).rx.counter kind = 0 := by
    cases kind <;> rfl
  rw [counter_final, zero, UInt32.zero_add]

/-!
## What a dropped call leaves in the output buffer
-/

/-- A dropped call reports no length and leaves every output byte. -/
def DropReleasesNothing
    {Store : Type}
    (port : FreshnessStoreIf Store)
    (rx : SecocRx)
    (call : RxCall)
    (store : Store) : Prop :=
  (call.process port rx store).verdict ≠ .accept →
    (call.process port rx store).pduLen = call.pduLen.map (fun _ => 0) ∧
      (call.process port rx store).pduOut = call.pduOut

/-- A frame that verifies is accepted, or its PDU was in the buffer already. -/
def CopiesOnlyAccepted
    {Store : Type}
    (port : FreshnessStoreIf Store)
    (rx : SecocRx)
    (call : RxCall)
    (store : Store) : Prop :=
  ∀ one : VerifiedCall rx call,
    one.Fresh ∧ one.Commits port store ∨
      one.out.take one.verified.pdu.length = one.verified.pdu

/-- The copy of the verifier shows unless the buffer started with the PDU. -/
theorem VerifiedCall.written_eq_iff
    {rx : SecocRx}
    {call : RxCall}
    (one : VerifiedCall rx call) :
    some one.written = call.pduOut ↔
      one.out.take one.verified.pdu.length = one.verified.pdu := by
  rw [one.outSet, Option.some_inj]
  unfold VerifiedCall.written
  constructor
  · intro same
    have start := congrArg (List.take one.verified.pdu.length) same
    rw [List.take_left] at start
    exact start.symm
  · intro start
    calc
      one.verified.pdu ++ one.out.drop one.verified.pdu.length
          = one.out.take one.verified.pdu.length ++
              one.out.drop one.verified.pdu.length := by rw [start]
      _ = one.out := List.take_append_drop _ _

/-- A dropped call with a verified frame has written its PDU. -/
theorem process_drop_writes
    {Store : Type}
    {port : FreshnessStoreIf Store}
    {rx : SecocRx}
    {call : RxCall}
    {store : Store}
    (one : VerifiedCall rx call)
    (dropped : (call.process port rx store).verdict ≠ .accept) :
    (call.process port rx store).pduOut = some one.written := by
  by_cases passes : one.Fresh
  · by_cases commits : one.Commits port store
    · exact (dropped (process_accepts_iff.mpr ⟨one, passes, commits⟩)).elim
    · obtain ⟨-, next, -, ran⟩ := process_uncommitted one passes commits
      rw [ran]
      rfl
  · rw [process_stale one passes]
    rfl

/-- A replayed frame is dropped, with its PDU in the output buffer. -/
theorem replay_leaves_its_pdu :
    let fresh :=
      SecocRxCtx.registered 0 0 [0x120] (by decide)
    let rx := secocRxInit (some ⟨1⟩) (some fresh)
    let call : RxCall :=
      { mac := fun _ _ => some (Vector.replicate 16 0)
        canId := 0x120
        frame := 0xAA :: List.replicate 12 0
        pduOut := some [0, 0]
        pduLen := some 0 }
    (call.process durablePort rx .blank).verdict = .dropFreshness ∧
      (call.process durablePort rx .blank).pduOut = some [0xAA, 0] ∧
      ¬ DropReleasesNothing durablePort rx call .blank := by
  intro fresh rx call
  have verdict :
      (call.process durablePort rx .blank).verdict = .dropFreshness := by
    decide +kernel
  have written :
      (call.process durablePort rx .blank).pduOut = some [0xAA, 0] := by
    decide +kernel
  refine ⟨verdict, written, ?_⟩
  intro releases
  have kept := (releases (by rw [verdict]; decide)).2
  rw [written] at kept
  exact absurd kept (by decide)

/-- A call that drops releases nothing exactly when it copies only what it
accepts. -/
theorem drop_releases_nothing_iff
    {Store : Type}
    (port : FreshnessStoreIf Store)
    (rx : SecocRx)
    (call : RxCall)
    (store : Store) :
    DropReleasesNothing port rx call store ↔
      CopiesOnlyAccepted port rx call store := by
  constructor
  · intro releases one
    by_cases accepted :
        (call.process port rx store).verdict = .accept
    · obtain ⟨again, passes, commits⟩ := process_accepts_iff.mp accepted
      have same : again = one := Subsingleton.elim _ _
      subst same
      exact Or.inl ⟨passes, commits⟩
    · right
      rw [← one.written_eq_iff, ← process_drop_writes one accepted]
      exact (releases accepted).2
  · intro copies dropped
    refine ⟨(process_ends.dropped dropped).2, ?_⟩
    by_cases verified : Nonempty (VerifiedCall rx call)
    · obtain ⟨one⟩ := verified
      rw [process_drop_writes one dropped]
      rcases copies one with ⟨passes, commits⟩ | start
      · exact
          (dropped (process_accepts_iff.mpr ⟨one, passes, commits⟩)).elim
      · exact one.written_eq_iff.mpr start
    · obtain ⟨reason, ran⟩ :=
        @process_unverified _ _ _ store fun one => verified ⟨one⟩
      rw [ran port]
      rfl

end TraveoBodyDomain
