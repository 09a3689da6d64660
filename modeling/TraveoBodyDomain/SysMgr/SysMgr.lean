import Mathlib.Logic.Function.Basic
import TraveoBodyDomain.Lib.Machine

/-!
# The system manager

`sysmgr.c`: a table of resources is brought up one entry after the other.  A
tick looks at the first entry that is not settled, and calls at most one of its
callbacks.  What that callback returns, and the time, come with the tick.
-/

namespace TraveoBodyDomain

/-- `SYSMGR_MAX_RESOURCES`. -/
def sysmgrMaxResources : Nat :=
  16

/-- `sysmgr_res_state_t`. -/
inductive SysmgrResState where
  | uninit
  | initializing
  | ready
  | degraded
  | failed
  deriving Repr, DecidableEq

/-- `sysmgr_fail_policy_t`. -/
inductive SysmgrFailPolicy where
  | retryInplace
  | systemReset
  | degrade
  deriving Repr, DecidableEq

/--
`sysmgr_resource_t`; `deps` are its first `dep_count` dependencies, and
`hasPollReady` tells whether `poll_ready` is not NULL.
-/
structure SysmgrResource where
  id : UInt8
  deps : List UInt8
  hasPollReady : Bool
  initTimeoutMs : UInt32
  maxRetries : UInt8
  onExhausted : SysmgrFailPolicy
  deriving Repr, DecidableEq

/-- `sysmgr_runtime_t`. -/
structure SysmgrRuntime where
  state : SysmgrResState
  attempts : UInt8
  pollStarted : Bool
  startedMs : UInt32
  deriving Repr, DecidableEq

/-- The statics of `sysmgr.c`; `hasReset` tells whether `g_reset_fn` is set. -/
structure Sysmgr where
  table : Nat → SysmgrResource
  count : Nat
  hasReset : Bool
  rt : Nat → SysmgrRuntime

/-- A callback that the manager calls, and the entry it does so for. -/
inductive SysmgrEvent where
  | init (i : Nat)
  | pollReady (i : Nat)
  | reset (i : Nat)
  deriving Repr, DecidableEq

/-- The entry a callback is called for. -/
def SysmgrEvent.entry : SysmgrEvent → Nat
  | .init i => i
  | .pollReady i => i
  | .reset i => i

/-- The argument of `sysmgr_tick`, and what a callback it calls returns. -/
structure SysmgrTick where
  nowMs : UInt32
  initRc : Int32
  pollRc : Int32
  deriving Repr, DecidableEq

/-- `g_rt[i] = runtime`. -/
def Sysmgr.set (s : Sysmgr) (i : Nat) (runtime : SysmgrRuntime) : Sysmgr :=
  { s with rt := Function.update s.rt i runtime }

/-- What `sysmgr_init` makes of every entry. -/
def sysmgrUntouched : SysmgrRuntime :=
  { state := .uninit, attempts := 0, pollStarted := false, startedMs := 0 }

/-- `sysmgr_init`, over whatever the runtime array held `before`. -/
def sysmgrInit
    (table : Nat → SysmgrResource)
    (count : Nat)
    (hasReset : Bool)
    (before : Nat → SysmgrRuntime) : Sysmgr :=
  let gCount :=
    if count ≤ sysmgrMaxResources then count else sysmgrMaxResources
  { table := table
    count := gCount
    hasReset := hasReset
    rt := fun i => if i < gCount then sysmgrUntouched else before i }

/-- `is_terminal`. -/
def sysmgrIsTerminal (state : SysmgrResState) : Bool :=
  state = .ready || state = .degraded || state = .failed

section Lookups

variable (s : Sysmgr)

/-- `find_index`. -/
def sysmgrFindIndex (id : UInt8) : Nat :=
  ((List.range s.count).find? fun i => (s.table i).id = id).getD s.count

/-- `deps_satisfied`. -/
def sysmgrDepsSatisfied (idx : Nat) : Bool :=
  (s.table idx).deps.all fun dep =>
    let depIdx := sysmgrFindIndex s dep
    depIdx < s.count && (s.rt depIdx).state = .ready

/-- `any_dep_unready_terminal`. -/
def sysmgrAnyDepUnreadyTerminal (idx : Nat) : Bool :=
  (s.table idx).deps.any fun dep =>
    let depIdx := sysmgrFindIndex s dep
    depIdx < s.count && sysmgrIsTerminal (s.rt depIdx).state &&
      (s.rt depIdx).state ≠ .ready

/-- `sysmgr_res_state`. -/
def sysmgrResState (id : UInt8) : SysmgrResState :=
  let idx := sysmgrFindIndex s id
  if idx < s.count then (s.rt idx).state else .uninit

/-- `sysmgr_settled`. -/
def sysmgrSettled : Bool :=
  (List.range s.count).all fun i => sysmgrIsTerminal (s.rt i).state

/-- The loop of `sysmgr_tick`: the first entry that is not terminal. -/
def sysmgrCurrent : Nat :=
  ((List.range s.count).find? fun i =>
    !sysmgrIsTerminal (s.rt i).state).getD s.count

end Lookups

/-- `handle_failure`. -/
def sysmgrHandleFailure (s : Sysmgr) (idx : Nat) : Sysmgr × List SysmgrEvent :=
  let r := s.table idx
  let totalAllowed := r.maxRetries.toNat + 1
  if (s.rt idx).attempts.toNat < totalAllowed then
    (s.set idx
      { s.rt idx with state := .initializing, pollStarted := false }, [])
  else
    match r.onExhausted with
    | .retryInplace =>
        (s.set idx
          { s.rt idx with
            attempts := 0
            state := .initializing
            pollStarted := false }, [])
    | .systemReset =>
        (s.set idx { s.rt idx with state := .failed },
          if s.hasReset then [.reset idx] else [])
    | .degrade => (s.set idx { s.rt idx with state := .degraded }, [])

/-- `attempt_init`. -/
def sysmgrAttemptInit
    (s : Sysmgr)
    (idx : Nat)
    (tick : SysmgrTick) : Sysmgr × List SysmgrEvent :=
  let r := s.table idx
  let s :=
    s.set idx
      { s.rt idx with
        attempts := (s.rt idx).attempts + 1
        startedMs := tick.nowMs }
  if tick.initRc = 0 then
    if r.hasPollReady then
      (s.set idx { s.rt idx with state := .initializing, pollStarted := true },
        [.init idx])
    else
      (s.set idx { s.rt idx with state := .ready }, [.init idx])
  else
    let (s, events) := sysmgrHandleFailure s idx
    (s, .init idx :: events)

/-- `sysmgr_tick`. -/
def sysmgrTick (s : Sysmgr) (tick : SysmgrTick) : Sysmgr × List SysmgrEvent :=
  let idx := sysmgrCurrent s
  if idx ≥ s.count then
    (s, [])
  else if (s.rt idx).state = .uninit then
    if !sysmgrDepsSatisfied s idx then
      if sysmgrAnyDepUnreadyTerminal s idx then
        (s.set idx { s.rt idx with state := .degraded }, [])
      else
        (s, [])
    else
      sysmgrAttemptInit s idx tick
  else
    let r := s.table idx
    if !(s.rt idx).pollStarted then
      sysmgrAttemptInit s idx tick
    else if !r.hasPollReady then
      (s.set idx { s.rt idx with state := .ready }, [])
    else if tick.pollRc = 0 then
      (s.set idx { s.rt idx with state := .ready }, [.pollReady idx])
    else if r.initTimeoutMs ≠ 0 ∧
        tick.nowMs - (s.rt idx).startedMs ≥ r.initTimeoutMs then
      let (s, events) := sysmgrHandleFailure s idx
      (s, .pollReady idx :: events)
    else
      (s, [.pollReady idx])

/-- `sysmgr_init`, and then the ticks. -/
def sysmgrRun
    (table : Nat → SysmgrResource)
    (count : Nat)
    (hasReset : Bool)
    (before : Nat → SysmgrRuntime)
    (ticks : List SysmgrTick) : Sysmgr :=
  Machine.final sysmgrTick (sysmgrInit table count hasReset before) ticks

/-- The callbacks that the ticks call, in order. -/
def sysmgrCalls
    (table : Nat → SysmgrResource)
    (count : Nat)
    (hasReset : Bool)
    (before : Nat → SysmgrRuntime)
    (ticks : List SysmgrTick) : List SysmgrEvent :=
  Machine.trace sysmgrTick (sysmgrInit table count hasReset before) ticks

end TraveoBodyDomain
