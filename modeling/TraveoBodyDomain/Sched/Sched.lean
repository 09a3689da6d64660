import Mathlib.Logic.Function.Basic
import TraveoBodyDomain.Lib.Machine

/-!
# The scheduler

`sched.c`: a table of tasks, a bitmap of the priorities at which a task is
ready, the delays that the tick counts down, and the task that runs.  A task
that starts the scheduler, yields or delays selects its successor at once; the
tick only asks for a switch.

A pointer is its address, and NULL is 0.
-/

namespace TraveoBodyDomain

/-- `SCHED_MAX_TASKS`. -/
def schedMaxTasks : Nat :=
  8

/-- `SCHED_MAX_PRIORITIES`. -/
def schedMaxPriorities : Nat :=
  32

/-- `SCHED_IDLE_ID`. -/
def schedIdleId : Nat :=
  schedMaxTasks

/-- `SCHED_IDLE_PRIORITY`. -/
def schedIdlePriority : UInt8 :=
  31

/-- `SCHED_IDLE_STACK_WORDS`. -/
def schedIdleStackWords : UInt32 :=
  64

/-- `sched_task_state_t`. -/
inductive SchedTaskState where
  | suspended
  | ready
  | running
  | blocked
  deriving Repr, DecidableEq

/-- `sched_tcb_t`. -/
structure SchedTcb where
  sp : UInt32
  priority : UInt8
  state : SchedTaskState
  delayTicks : UInt32
  stackBase : UInt32
  stackSize : UInt32
  entry : UInt32
  arg : UInt32
  id : Nat
  deriving Repr, DecidableEq

/-- `sched_err_t`. -/
inductive SchedErr where
  | ok
  | full
  | null
  | priority
  | stack
  deriving Repr, DecidableEq

/-- The statics of `sched.c`; `g_current_task` is `none` for `UINT8_MAX`. -/
structure Sched where
  tasks : Nat → SchedTcb
  taskCount : Nat
  tickCount : UInt32
  readyBitmap : BitVec 32
  currentTask : Option Nat
  rrIndex : UInt8 → UInt8

/-- `sched_port_init_stack`, and where the idle task and its stack lie. -/
structure SchedPort where
  initStack : (stackTop entry arg : UInt32) → UInt32
  idleTask : UInt32
  idleStack : UInt32

/-- The task is eligible to run. -/
def SchedTcb.isLive (tcb : SchedTcb) : Bool :=
  tcb.state = .ready || tcb.state = .running

namespace Sched

/-- `g_tasks[i] = tcb`. -/
def setTask (s : Sched) (i : Nat) (tcb : SchedTcb) : Sched :=
  { s with tasks := Function.update s.tasks i tcb }

/-- `g_tasks[i].state = state`. -/
def setState (s : Sched) (i : Nat) (state : SchedTaskState) : Sched :=
  s.setTask i { s.tasks i with state := state }

/-- `g_ready_bitmap |= (1U << priority)`. -/
def setBit (s : Sched) (priority : UInt8) : Sched :=
  { s with readyBitmap := s.readyBitmap ||| (1#32 <<< priority.toNat) }

/-- `g_ready_bitmap &= ~(1U << priority)`. -/
def clearBit (s : Sched) (priority : UInt8) : Sched :=
  { s with readyBitmap := s.readyBitmap &&& ~~~(1#32 <<< priority.toNat) }

/-- The round-robin index of a priority, moved on. -/
def rotate (s : Sched) (priority : UInt8) : Sched :=
  { s with
    rrIndex :=
      Function.update s.rrIndex priority
        ((s.rrIndex priority + 1) % UInt8.ofNat schedMaxTasks) }

end Sched

section Selection

variable (s : Sched)

/-- `sched_find_highest_ready_priority`; `none` is `UINT8_MAX`. -/
def schedFindHighestReadyPriority : Option UInt8 :=
  if s.readyBitmap = 0 then
    none
  else
    some (UInt8.ofNat s.readyBitmap.ctz.toNat)

/-- The loop that collects the tasks of a priority that are eligible to run. -/
def schedReadyAt (priority : UInt8) : List Nat :=
  (List.range s.taskCount).filter fun i =>
    (s.tasks i).priority = priority && (s.tasks i).isLive

/-- `sched_count_ready_at`. -/
def schedCountReadyAt (priority : UInt8) : Nat :=
  (schedReadyAt s priority).length

/-- `sched_pick_task_at_priority`; `none` is `UINT8_MAX`. -/
def schedPickTaskAtPriority (priority : UInt8) : Option Nat :=
  let candidates := schedReadyAt s priority
  if candidates.length = 0 then
    none
  else
    candidates[(s.rrIndex priority).toNat % candidates.length]?

/-- `sched_choose_next`. -/
def schedChooseNext : Nat :=
  match schedFindHighestReadyPriority s with
  | none => schedIdleId
  | some prio => (schedPickTaskAtPriority s prio).getD schedIdleId

/-- `sched_set_running`, of a task. -/
def schedSetRunning (next : Nat) : Sched :=
  let demoted : Sched :=
    match s.currentTask with
    | some current =>
        if (s.tasks current).state = .running then
          s.setState current .ready
        else
          s
    | none => s
  { demoted.setState next .running with currentTask := some next }

/-- `sched_update_bitmap_for`. -/
def schedUpdateBitmapFor (priority : UInt8) : Sched :=
  if schedCountReadyAt s priority > 0 then
    s.setBit priority
  else
    s.clearBit priority

end Selection

/-- `sched_init`. -/
def schedInit (port : SchedPort) (s : Sched) : Sched :=
  let slots (i : Nat) : SchedTcb :=
    if i < schedMaxTasks + 1 then
      { s.tasks i with state := .suspended, sp := 0 }
    else
      s.tasks i
  let idle : SchedTcb :=
    { slots schedIdleId with
      id := schedIdleId
      entry := port.idleTask
      arg := 0
      priority := schedIdlePriority
      state := .ready
      delayTicks := 0
      stackBase := port.idleStack
      stackSize := schedIdleStackWords
      sp :=
        port.initStack (port.idleStack + 4 * schedIdleStackWords) port.idleTask
          0 }
  { tasks := Function.update slots schedIdleId idle
    taskCount := 0
    tickCount := 0
    readyBitmap := 0
    currentTask := none
    rrIndex := fun priority =>
      if priority.toNat < schedMaxPriorities then 0 else s.rrIndex priority }

/-- `sched_task_create`. -/
def schedTaskCreate
    (port : SchedPort)
    (entry arg : UInt32)
    (priority : UInt8)
    (stackBase stackSize : UInt32)
    (s : Sched) : SchedErr × Sched :=
  if entry = 0 then
    (.null, s)
  else if stackBase = 0 then
    (.stack, s)
  else if priority.toNat ≥ schedMaxPriorities then
    (.priority, s)
  else if s.taskCount ≥ schedMaxTasks then
    (.full, s)
  else
    let id := s.taskCount
    let tcb : SchedTcb :=
      { id := id
        entry := entry
        arg := arg
        priority := priority
        stackBase := stackBase
        stackSize := stackSize
        delayTicks := 0
        state := .ready
        sp := port.initStack (stackBase + 4 * stackSize) entry arg }
    let s := (s.setTask id tcb).setBit priority
    (.ok, { s with taskCount := s.taskCount + 1 })

/-- What the scheduler asks the port for. -/
inductive SchedEvent where
  | created (err : SchedErr)
  | startFirstTask
  | triggerSwitch
  deriving Repr, DecidableEq

/-- `sched_start`. -/
def schedStart (s : Sched) : Sched :=
  schedSetRunning s (schedChooseNext s)

/-- `sched_yield`. -/
def schedYield (s : Sched) : Sched :=
  let rotated : Sched :=
    match s.currentTask with
    | some current => s.rotate (s.tasks current).priority
    | none => s
  schedSetRunning rotated (schedChooseNext rotated)

/-- `sched_delay`. -/
def schedDelay (ticks : UInt32) (s : Sched) : Sched :=
  if ticks = 0 then
    schedYield s
  else
    match s.currentTask with
    | none => s
    | some current =>
        if current = schedIdleId then
          s
        else
          let prio := (s.tasks current).priority
          let blocked : Sched :=
            s.setTask current
              { s.tasks current with state := .blocked, delayTicks := ticks }
          let updated := schedUpdateBitmapFor blocked prio
          schedSetRunning updated (schedChooseNext updated)

/-- The loop of `sched_tick` at one task: the state, and whether to switch. -/
def schedTickTask (progress : Sched × Bool) (i : Nat) : Sched × Bool :=
  let (s, needSwitch) := progress
  let tcb := s.tasks i
  if tcb.state = .blocked ∧ tcb.delayTicks > 0 then
    let left := tcb.delayTicks - 1
    if left = 0 then
      let s :=
        (s.setTask i { tcb with delayTicks := 0, state := .ready }).setBit
          tcb.priority
      let urgent :=
        match s.currentTask with
        | some current => tcb.priority < (s.tasks current).priority
        | none => false
      (s, needSwitch || urgent)
    else
      (s.setTask i { tcb with delayTicks := left }, needSwitch)
  else
    (s, needSwitch)

/-- `sched_tick`, and whether it asks for a switch. -/
def schedTick (s : Sched) : Sched × Bool :=
  let (s, needSwitch) :=
    (List.range s.taskCount).foldl schedTickTask
      ({ s with tickCount := s.tickCount + 1 }, false)
  match s.currentTask with
  | none => (s, needSwitch)
  | some current =>
      let prio := (s.tasks current).priority
      if schedCountReadyAt s prio > 1 then
        (s.rotate prio, true)
      else
        (s, needSwitch)

/-- A call. -/
inductive SchedAction where
  | create (entry arg : UInt32) (priority : UInt8) (stackBase stackSize : UInt32)
  | start
  | yield
  | delay (ticks : UInt32)
  | tick
  deriving Repr, DecidableEq

/-- One call after the other. -/
def schedStep (port : SchedPort) : Machine.Step Sched SchedAction SchedEvent
  | s, .create entry arg priority stackBase stackSize =>
      let (err, s) :=
        schedTaskCreate port entry arg priority stackBase stackSize s
      (s, [.created err])
  | s, .start => (schedStart s, [.startFirstTask])
  | s, .yield => (schedYield s, [.triggerSwitch])
  | s, .delay ticks => (schedDelay ticks s, [.triggerSwitch])
  | s, .tick =>
      let (s, needSwitch) := schedTick s
      (s, if needSwitch then [.triggerSwitch] else [])

/-- `sched_init`, and then the calls. -/
def schedRun
    (port : SchedPort)
    (before : Sched)
    (actions : List SchedAction) : Sched :=
  Machine.final (schedStep port) (schedInit port before) actions

end TraveoBodyDomain
