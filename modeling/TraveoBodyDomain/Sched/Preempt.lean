import TraveoBodyDomain.Sched.Tick

/-!
# Which switches a tick asks for

`sched_tick` only asks for a switch; the port makes it later.  A switch is
pending from the tick that asks for it until a task is selected.  The tick
decides from two conditions of its own, and not from the selection: whether it
wakes a task with a priority value below the current task's, and whether two
created tasks are awake at the current priority.
-/

namespace TraveoBodyDomain

/-- What the port does with a switch that was asked for: the core selects. -/
def schedSwitch (s : Sched) : Sched :=
  schedSetRunning s (schedChooseNext s)

/-- A call, or a switch that the port makes. -/
inductive SchedCall where
  | call (action : SchedAction)
  | switch
  deriving Repr, DecidableEq

/-- What the scheduler is after a call or a switch. -/
def schedCall (port : SchedPort) (s : Sched) : SchedCall → Sched
  | .call action => (schedStep port s action).1
  | .switch => schedSwitch s

/-- What the scheduler is after some calls and switches. -/
def schedCalls (port : SchedPort) (s : Sched) (calls : List SchedCall) : Sched :=
  calls.foldl (schedCall port) s

/-- The call selects a task. -/
def Sched.reselects (s : Sched) : SchedAction → Bool
  | .start => true
  | .yield => true
  | .delay ticks =>
      ticks = 0 ||
        match s.currentTask with
        | some current => current ≠ schedIdleId
        | none => false
  | .create .. => false
  | .tick => false

/-- The scheduler, and whether a tick asked for a switch that is still due. -/
structure SchedPending where
  sched : Sched
  pending : Bool

/-- A tick: the state before it, the scheduler behind it, and what it asked. -/
structure SchedTickRecord where
  before : SchedPending
  after : Sched
  requested : Bool

/-- One call, or one switch; only ticks are recorded. -/
def pendingStep
    (port : SchedPort) : Machine.Step SchedPending SchedCall SchedTickRecord
  | s, .switch => (⟨schedSwitch s.sched, false⟩, [])
  | s, .call .tick =>
      let (after, requested) := schedTick s.sched
      (⟨after, s.pending || requested⟩, [⟨s, after, requested⟩])
  | s, .call action =>
      (⟨schedCall port s.sched (.call action),
          s.pending && !s.sched.reselects action⟩, [])

/-- `sched_init`, with no switch pending. -/
def SchedPending.start (port : SchedPort) (before : Sched) : SchedPending :=
  ⟨schedInit port before, false⟩

/--
If the selection behind a tick is not the current task, a switch was asked for:
by that tick, or by one before it and it is still due.
-/
def SchedTickRecord.Complete (event : SchedTickRecord) : Prop :=
  ∀ current,
    event.after.currentTask = some current →
      schedChooseNext event.after ≠ current →
        event.requested = true ∨ event.before.pending = true

/-- `i` is to run before the current task; every created task is before idle. -/
def Sched.Outranks (s : Sched) (i current : Nat) : Prop :=
  current = schedIdleId ∨ (s.tasks i).priority < (s.tasks current).priority

/-- No task that is eligible to run is to run before the current task. -/
def Sched.Unopposed (s : Sched) : Prop :=
  ∀ current,
    s.currentTask = some current →
      ∀ i < s.taskCount,
        (s.tasks i).isLive = true →
          ¬s.Outranks i current

/-- The tasks that the next tick wakes. -/
def Sched.dueTasks (s : Sched) : List Nat :=
  (List.range s.taskCount).filter fun i => (s.tasks i).Due

/--
With no switch pending, no task is created that is to run before the current
one, and no tick wakes a single task, of the idle task's priority, while idle
runs.
-/
def SchedPending.Requestable
    (port : SchedPort)
    (s : SchedPending) : SchedCall → Prop
  | .call (.create entry arg priority stackBase stackSize) =>
      (schedTaskCreate port entry arg priority stackBase stackSize
          s.sched).1 = .ok →
        s.pending = false →
          ∀ current,
            s.sched.currentTask = some current →
              current ≠ schedIdleId ∧
                (s.sched.tasks current).priority ≤ priority
  | .call .tick =>
      s.pending = false →
        s.sched.currentTask = some schedIdleId →
          ∀ i,
            s.sched.dueTasks = [i] →
              (s.sched.tasks i).priority ≠ schedIdlePriority
  | _ => True

section Selection

variable {s : Sched}

/-- The bit of a task that is eligible to run. -/
theorem Sched.Consistent.bitSet_of_live
    (consistent : s.Consistent)
    {i : Nat}
    (created : i < s.taskCount)
    (live : (s.tasks i).isLive = true) :
    s.BitSet (s.tasks i).priority.toNat :=
  (consistent.bits _).mpr
    ⟨i, created, rfl, (SchedTcb.isLive_iff _).mp live⟩

/-- Behind a selection no task is to run before the current one. -/
theorem Sched.Selected.unopposed
    (selected : s.Selected) :
    s.Unopposed := by
  intro current isCurrent i created live outranks
  obtain ⟨chosen, isChosen, isIdle, urgent⟩ := selected.urgent
  obtain rfl : chosen = current :=
    Option.some.inj (isChosen.symm.trans isCurrent)
  have bit := selected.consistent.bitSet_of_live created live
  by_cases idle : chosen = schedIdleId
  · have empty := isIdle.mp idle
    simp [Sched.BitSet, empty] at bit
  · rcases outranks with isIdle | lower
    · exact idle isIdle
    · exact
        absurd ((urgent idle).2.2 _ bit)
          (Nat.not_le.mpr (UInt8.lt_iff_toNat_lt.mp lower))

/-- Two members of a list with no room for two are the same. -/
theorem eq_of_mem_short
    {tasks : List Nat}
    (short : tasks.length ≤ 1)
    {i j : Nat}
    (first : i ∈ tasks)
    (second : j ∈ tasks) :
    i = j := by
  rcases tasks with _ | ⟨task, _ | ⟨other, rest⟩⟩
  · cases first
  · rw [List.mem_singleton.mp first, List.mem_singleton.mp second]
  · rw [List.length_cons, List.length_cons] at short
    omega

/-- The current task, alone at its priority and unopposed, is the selection. -/
theorem schedChooseNext_unopposed
    (consistent : s.Consistent)
    (settled : s.Settled)
    (unopposed : s.Unopposed)
    {current : Nat}
    (isCurrent : s.currentTask = some current)
    (alone : (schedReadyAt s (s.tasks current).priority).length ≤ 1) :
    schedChooseNext s = current := by
  have running := settled current isCurrent
  have live : (s.tasks current).isLive = true :=
    (SchedTcb.isLive_iff _).mpr (Or.inr running)
  by_cases empty : s.readyBitmap = 0
  · rw [schedChooseNext_idle empty]
    rcases consistent.current current isCurrent with created | isIdle
    · have bit := consistent.bitSet_of_live created live
      simp [Sched.BitSet, empty] at bit
    · exact isIdle.symm
  · obtain ⟨urgent, chosenLive⟩ := schedChooseNext_urgent consistent empty
    have below := unopposed current isCurrent _ urgent.1 chosenLive
    obtain ⟨notIdle, notLower⟩ := not_or.mp below
    have created : current < s.taskCount :=
      (consistent.current current isCurrent).resolve_right notIdle
    have atMost :=
      urgent.2.2 _ (consistent.bitSet_of_live created live)
    have samePriority :
        (s.tasks (schedChooseNext s)).priority = (s.tasks current).priority :=
      UInt8.le_antisymm (UInt8.le_iff_toNat_le.mpr atMost)
        (UInt8.not_lt.mp notLower)
    have chosenMember :=
      mem_schedReadyAt.mpr ⟨urgent.1, samePriority, chosenLive⟩
    have currentMember := mem_schedReadyAt.mpr ⟨created, rfl, live⟩
    exact eq_of_mem_short alone chosenMember currentMember

end Selection

section Steps

variable {s : Sched}

/-- A task that is due is one of those the tick wakes. -/
theorem mem_dueTasks
    {i : Nat} :
    i ∈ s.dueTasks ↔ i < s.taskCount ∧ (s.tasks i).Due := by
  simp [Sched.dueTasks]

/-- A task that is awake counts at its priority. -/
theorem mem_awakeAt
    {priority : UInt8}
    {i : Nat} :
    i ∈ s.awakeAt priority ↔
      i < s.taskCount ∧ (s.tasks i).priority = priority ∧ s.Awake i := by
  simp [Sched.awakeAt, Sched.Awake]

/-- The tasks eligible to run behind a tick are those that were awake. -/
theorem Sched.Ticked.readyAt
    {current : Nat}
    (ticked : s.Ticked current)
    (priority : UInt8) :
    schedReadyAt (schedTick s).1 priority = s.awakeAt priority :=
  schedReadyAt_counted ticked.taskCount (schedTick_tasks s) priority

/-- A tick that asks for nothing. -/
theorem Sched.Ticked.quiet_iff
    {current : Nat}
    (ticked : s.Ticked current) :
    (schedTick s).2 = false ↔
      (∀ i < s.taskCount,
        (s.tasks i).Due →
          (s.tasks current).priority ≤ (s.tasks i).priority) ∧
        (s.awakeAt (s.tasks current).priority).length ≤ 1 := by
  rw [← Bool.not_eq_true, ticked.needSwitch, not_or, Nat.not_lt]
  refine and_congr_left' ?_
  constructor
  · intro none i created due
    by_contra lower
    exact none ⟨i, created, due, UInt8.not_le.mp lower⟩
  · rintro each ⟨i, created, due, lower⟩
    exact absurd (each i created due) (UInt8.not_le.mpr lower)

/-- A single task that is due is the list of them. -/
theorem dueTasks_eq_singleton
    {i : Nat}
    (created : i < s.taskCount)
    (due : (s.tasks i).Due)
    (only : ∀ j ∈ s.dueTasks, j = i) :
    s.dueTasks = [i] := by
  have copies := List.eq_replicate_iff.mpr ⟨rfl, only⟩
  have distinct : s.dueTasks.Nodup := List.nodup_range.filter _
  rw [copies] at distinct
  have atMost := List.nodup_replicate.mp distinct
  have atLeast : 0 < s.dueTasks.length :=
    List.length_pos_of_mem (mem_dueTasks.mpr ⟨created, due⟩)
  rw [copies, Nat.le_antisymm atMost atLeast]
  rfl

/-- No created task has a priority value above the idle task's. -/
theorem Sched.Consistent.priority_le_idle
    (consistent : s.Consistent)
    {i : Nat}
    (created : i < s.taskCount) :
    (s.tasks i).priority ≤ schedIdlePriority := by
  have small : (s.tasks i).priority.toNat < 32 :=
    consistent.priorities i created
  rw [UInt8.le_iff_toNat_le]
  change _ ≤ 31
  omega

/-- A tick that asks for nothing leaves the current task unopposed. -/
theorem Sched.Ticked.unopposed
    {current : Nat}
    (ticked : s.Ticked current)
    (isCurrent : s.currentTask = some current)
    (consistent : s.Consistent)
    (lowest : (s.tasks schedIdleId).priority = schedIdlePriority)
    (unopposed : s.Unopposed)
    (quiet : (schedTick s).2 = false)
    (notAlone :
      current = schedIdleId →
        ∀ i,
          s.dueTasks = [i] →
            (s.tasks i).priority ≠ schedIdlePriority) :
    (schedTick s).1.Unopposed := by
  obtain ⟨notLower, notTwo⟩ := ticked.quiet_iff.mp quiet
  intro other isOther i created live outranks
  obtain rfl : current = other :=
    Option.some.inj (ticked.currentTask.symm.trans isOther)
  rw [ticked.taskCount] at created
  rw [Sched.Outranks, schedTick_priority, schedTick_priority] at outranks
  rw [schedTick_tasks, if_pos created] at live
  rcases SchedTcb.counted_live.mp live with before | due
  · exact unopposed current isCurrent i created before outranks
  · rcases outranks with rfl | lower
    · -- idle runs, so the tick wakes tasks of the idle priority only
      have atIdle {j : Nat} (member : j ∈ s.dueTasks) :
          (s.tasks j).priority = schedIdlePriority := by
        obtain ⟨inside, wakes⟩ := mem_dueTasks.mp member
        have above := notLower j inside wakes
        rw [lowest] at above
        exact UInt8.le_antisymm (consistent.priority_le_idle inside) above
      have isDue := mem_dueTasks.mpr ⟨created, due⟩
      have awake {j : Nat} (member : j ∈ s.dueTasks) :
          j ∈ s.awakeAt (s.tasks schedIdleId).priority := by
        obtain ⟨inside, wakes⟩ := mem_dueTasks.mp member
        exact
          mem_awakeAt.mpr
            ⟨inside, (atIdle member).trans (Eq.symm lowest), Or.inr wakes⟩
      refine notAlone rfl i ?_ (atIdle isDue)
      exact
        dueTasks_eq_singleton created due fun j member =>
          eq_of_mem_short notTwo (awake member) (awake isDue)
    · exact absurd (notLower i created due) (UInt8.not_le.mpr lower)

/-- `sched_set_running` changes no priority. -/
@[simp] theorem schedSetRunning_priority
    (s : Sched)
    (next i : Nat) :
    ((schedSetRunning s next).tasks i).priority = (s.tasks i).priority := by
  rw [schedSetRunning_tasks]

@[simp] theorem schedSetRunning_rrIndex
    (s : Sched)
    (next : Nat) :
    (schedSetRunning s next).rrIndex = s.rrIndex := by
  simp only [schedSetRunning]
  split <;> [split; skip] <;> rfl

/-- What holds between any two calls. -/
structure Sched.Sound (s : Sched) : Prop where
  consistent : s.Consistent
  settled : s.Settled
  lowest : (s.tasks schedIdleId).priority = schedIdlePriority
  indices :
    ∀ priority : UInt8,
      priority.toNat < schedMaxPriorities →
        (s.rrIndex priority).toNat < schedMaxTasks

/-- Moving an index on keeps the indices inside the table. -/
theorem rotate_indices
    (indices :
      ∀ priority : UInt8,
        priority.toNat < schedMaxPriorities →
          (s.rrIndex priority).toNat < schedMaxTasks)
    (moved : UInt8) :
    ∀ priority : UInt8,
      priority.toNat < schedMaxPriorities →
        ((s.rotate moved).rrIndex priority).toNat < schedMaxTasks := by
  intro priority small
  by_cases same : priority = moved
  · subst same
    simp only [Sched.rotate, Function.update_self, UInt8.toNat_mod]
    exact Nat.mod_lt _ (by decide)
  · simp only [Sched.rotate, Function.update_of_ne same]
    exact indices priority small

/-- Selecting and promoting a task keeps what holds between calls. -/
theorem Sched.Sound.switch
    (sound : s.Sound) :
    (schedSwitch s).Sound where
  consistent := sound.consistent.select.consistent
  settled := sound.consistent.select.settled
  lowest := (schedSetRunning_priority ..).trans sound.lowest
  indices := by
    rw [schedSwitch, schedSetRunning_rrIndex]
    exact sound.indices

/-- `sched_yield` selects among the tasks behind a moved index. -/
theorem schedYield_eq
    (s : Sched) :
    schedYield s =
      schedSwitch
        (match s.currentTask with
        | some current => s.rotate (s.tasks current).priority
        | none => s) :=
  rfl

/-- Moving an index on keeps what holds between calls. -/
theorem Sched.Sound.rotate
    (sound : s.Sound)
    (priority : UInt8) :
    (s.rotate priority).Sound :=
  ⟨sound.consistent.rotate priority, sound.settled, sound.lowest,
    rotate_indices sound.indices priority⟩

/-- So does `sched_yield`. -/
theorem Sched.Sound.yield
    (sound : s.Sound) :
    (schedYield s).Sound := by
  rw [schedYield_eq]
  refine Sched.Sound.switch ?_
  split
  · exact sound.rotate _
  · exact sound

/-- A created task that delays itself. -/
theorem schedDelay_eq
    {current : Nat}
    {ticks : UInt32}
    (later : ticks ≠ 0)
    (isCurrent : s.currentTask = some current)
    (user : current ≠ schedIdleId) :
    schedDelay ticks s =
      schedSwitch
        (schedUpdateBitmapFor
          (s.setTask current
            { s.tasks current with state := .blocked, delayTicks := ticks })
          (s.tasks current).priority) := by
  rw [schedDelay, if_neg later, isCurrent]
  exact if_neg user

/-- So does a delay of the current task. -/
theorem Sched.Sound.delay
    (sound : s.Sound)
    (ticks : UInt32) :
    (schedDelay ticks s).Sound := by
  by_cases now : ticks = 0
  · rw [schedDelay, if_pos now]
    exact sound.yield
  cases isCurrent : s.currentTask with
  | none =>
      rw [schedDelay, if_neg now, isCurrent]
      exact sound
  | some current =>
      by_cases idle : current = schedIdleId
      · rw [schedDelay, if_neg now, isCurrent]
        simp only [if_pos idle]
        exact sound
      · have created :=
          (sound.consistent.current current isCurrent).resolve_right idle
        have selected :=
          schedDelay_selected sound.consistent created isCurrent ticks
        refine ⟨selected.consistent, selected.settled, ?_, ?_⟩
        · rw [schedDelay_eq now isCurrent idle, schedSwitch,
            schedSetRunning_priority, schedUpdateBitmapFor_eq]
          simp only [Sched.setTask, Function.update_of_ne (Ne.symm idle)]
          exact sound.lowest
        · rw [schedDelay_eq now isCurrent idle, schedSwitch,
            schedSetRunning_rrIndex, schedUpdateBitmapFor_eq]
          exact sound.indices

/-- So does a tick. -/
theorem Sched.Sound.tick
    (sound : s.Sound) :
    (schedTick s).1.Sound := by
  have kept := schedTick_keeps sound.consistent sound.settled
  refine ⟨kept.1, kept.2.1, (schedTick_priority ..).trans sound.lowest, ?_⟩
  obtain ⟨progress, passed, unfolded⟩ := schedTick_eq s
  have indices :
      ∀ priority : UInt8,
        priority.toNat < schedMaxPriorities →
          (progress.1.rrIndex priority).toNat < schedMaxTasks := by
    rw [passed.rrIndex]
    exact sound.indices
  rw [unfolded]
  split
  · exact indices
  · split
    · exact rotate_indices indices _
    · exact indices

/-- So does a created task. -/
theorem Sched.Sound.create
    (sound : s.Sound)
    (port : SchedPort)
    (entry arg : UInt32)
    (priority : UInt8)
    (stackBase stackSize : UInt32) :
    (schedTaskCreate port entry arg priority stackBase stackSize s).2.Sound := by
  have kept :=
    schedTaskCreate_keeps sound.consistent sound.settled port entry arg priority
      stackBase stackSize
  refine ⟨kept.1, kept.2, ?_, ?_⟩
  · unfold schedTaskCreate
    split_ifs with noEntry noStack badPriority full
    iterate 4 exact sound.lowest
    have other : schedIdleId ≠ s.taskCount :=
      Nat.ne_of_gt (Nat.not_le.mp full)
    simp only [Sched.setBit, Sched.setTask, Function.update_of_ne other]
    exact sound.lowest
  · unfold schedTaskCreate
    split_ifs
    all_goals exact sound.indices

/-- Every call and every switch keeps what holds between calls. -/
theorem Sched.Sound.call
    (sound : s.Sound)
    (port : SchedPort)
    (call : SchedCall) :
    (schedCall port s call).Sound := by
  cases call with
  | switch =>
      exact sound.switch
  | call action =>
      cases action with
      | create entry arg priority stackBase stackSize =>
          exact sound.create port entry arg priority stackBase stackSize
      | start =>
          exact sound.switch
      | yield =>
          exact sound.yield
      | delay ticks =>
          exact sound.delay ticks
      | tick =>
          exact sound.tick

/-- `sched_init` establishes it. -/
theorem schedInit_sound
    (port : SchedPort)
    (before : Sched) :
    (schedInit port before).Sound := by
  obtain ⟨consistent, settled⟩ := schedInit_consistent port before
  refine ⟨consistent, settled, ?_, ?_⟩
  · simp only [schedInit, Function.update_self]
  · intro priority small
    simp only [schedInit, if_pos small]
    decide

/-- It holds after every sequence of calls and switches. -/
theorem Sched.Sound.calls
    (sound : s.Sound)
    (port : SchedPort)
    (calls : List SchedCall) :
    (schedCalls port s calls).Sound := by
  induction calls generalizing s with
  | nil =>
      exact sound
  | cons call rest inductionHypothesis =>
      exact inductionHypothesis (sound.call port call)

/-- A created task that is not to run before the current one opposes nothing. -/
theorem Sched.Unopposed.create
    (unopposed : s.Unopposed)
    (sound : s.Sound)
    (port : SchedPort)
    (entry arg : UInt32)
    (priority : UInt8)
    (stackBase stackSize : UInt32)
    (behind :
      (schedTaskCreate port entry arg priority stackBase stackSize s).1 = .ok →
        ∀ current,
          s.currentTask = some current →
            current ≠ schedIdleId ∧ (s.tasks current).priority ≤ priority) :
    (schedTaskCreate port entry arg priority stackBase stackSize
      s).2.Unopposed := by
  unfold schedTaskCreate at behind ⊢
  split_ifs at behind ⊢ with noEntry noStack badPriority full
  iterate 4 exact unopposed
  intro current isCurrent i inside live outranks
  obtain ⟨user, notLower⟩ := behind rfl current isCurrent
  have created : current < s.taskCount :=
    (sound.consistent.current current isCurrent).resolve_right user
  simp only [Sched.Outranks, Sched.setBit, Sched.setTask,
    Function.update_of_ne (Nat.ne_of_lt created)] at live outranks
  have inTable : i < s.taskCount + 1 := inside
  rcases Nat.lt_succ_iff_lt_or_eq.mp inTable with old | rfl
  · rw [Function.update_of_ne (Nat.ne_of_lt old)] at live outranks
    exact unopposed current isCurrent i old live outranks
  · rw [Function.update_self] at outranks
    rcases outranks with isIdle | lower
    · exact user isIdle
    · exact absurd notLower (UInt8.not_le.mpr lower)

/-- The call selects, or it is a delay that changes nothing. -/
theorem schedStep_reselects
    (sound : s.Sound)
    (port : SchedPort)
    {action : SchedAction}
    (selects : s.reselects action = true) :
    (schedStep port s action).1.Selected := by
  refine schedStep_selected sound.consistent port ?_
  cases action with
  | create => cases selects
  | start => trivial
  | yield => trivial
  | tick => cases selects
  | delay ticks =>
      rcases Bool.or_eq_true_iff.mp selects with now | user
      · exact Or.inl (of_decide_eq_true now)
      · cases isCurrent : s.currentTask with
        | none =>
            rw [isCurrent] at user
            cases user
        | some current =>
            rw [isCurrent] at user
            have created :=
              (sound.consistent.current current isCurrent).resolve_right
                (of_decide_eq_true user)
            exact Or.inr ⟨current, created, isCurrent⟩

/-- What holds between any two calls, with the switches that are pending. -/
structure SchedPending.Sound (s : SchedPending) : Prop where
  sched : s.sched.Sound
  told : s.pending = true ∨ s.sched.Unopposed

end Steps

section Runs

variable {port : SchedPort} {s : SchedPending}

/-- A selection leaves nothing to ask for. -/
theorem SchedPending.Sound.selected
    {after : Sched}
    {pending : Bool}
    (sound : after.Sound)
    (selected : after.Selected) :
    SchedPending.Sound ⟨after, pending⟩ :=
  ⟨sound, Or.inr selected.unopposed⟩

/-- One tick: what it leaves, and what it has asked for. -/
theorem SchedPending.Sound.tick
    (sound : s.Sound)
    (requestable : s.Requestable port (.call .tick)) :
    SchedPending.Sound
        ⟨(schedTick s.sched).1, s.pending || (schedTick s.sched).2⟩ ∧
      SchedTickRecord.Complete
        ⟨s, (schedTick s.sched).1, (schedTick s.sched).2⟩ := by
  have after := sound.sched.tick
  by_cases told : s.pending = true
  · exact
      ⟨⟨after, Or.inl (by rw [told]; rfl)⟩, fun _ _ _ => Or.inr told⟩
  by_cases asked : (schedTick s.sched).2 = true
  · exact
      ⟨⟨after, Or.inl (by rw [asked, Bool.or_true])⟩,
        fun _ _ _ => Or.inl asked⟩
  have quiet := eq_false_of_ne_true asked
  have still := (schedTick_keeps sound.sched.consistent sound.sched.settled).2.2
  have unopposed : (schedTick s.sched).1.Unopposed := by
    intro current isCurrent
    have before := still.symm.trans isCurrent
    refine
      (schedTick_spec before).unopposed before sound.sched.consistent
        sound.sched.lowest (sound.told.resolve_left told) quiet ?_ current
        isCurrent
    rintro rfl
    exact requestable (eq_false_of_ne_true told) before
  refine ⟨⟨after, Or.inr unopposed⟩, ?_⟩
  intro current isCurrent differs
  have ticked := schedTick_spec (still.symm.trans isCurrent)
  refine absurd ?_ differs
  refine
    schedChooseNext_unopposed after.consistent after.settled unopposed isCurrent
      ?_
  rw [ticked.readyAt, schedTick_priority]
  exact (ticked.quiet_iff.mp quiet).2

/-- A tick that wakes one task, of the idle task's priority, while idle runs. -/
theorem lone_idle_priority_wake
    {s : Sched}
    (sound : s.Sound)
    (isIdle : s.currentTask = some schedIdleId)
    (unopposed : s.Unopposed)
    {i : Nat}
    (alone : s.dueTasks = [i])
    (lowest : (s.tasks i).priority = schedIdlePriority) :
    (schedTick s).2 = false ∧ schedChooseNext (schedTick s).1 ≠ schedIdleId := by
  have only {j : Nat} (created : j < s.taskCount) (due : (s.tasks j).Due) :
      j = i := by
    have member : j ∈ s.dueTasks := mem_dueTasks.mpr ⟨created, due⟩
    rw [alone] at member
    exact List.mem_singleton.mp member
  have isDue : i < s.taskCount ∧ (s.tasks i).Due :=
    mem_dueTasks.mp (by rw [alone]; exact List.mem_singleton_self i)
  constructor
  · refine (schedTick_spec isIdle).quiet_iff.mpr ⟨?_, ?_⟩
    · intro j created due
      rw [only created due, sound.lowest, lowest]
      exact UInt8.le_refl _
    · -- a task that is awake was not eligible before, so it is the one due
      have same : ∀ j ∈ s.awakeAt (s.tasks schedIdleId).priority, j = i := by
        intro j member
        obtain ⟨created, -, live | due⟩ := mem_awakeAt.mp member
        · exact (unopposed _ isIdle j created live (Or.inl rfl)).elim
        · exact only created due
      have distinct : (s.awakeAt (s.tasks schedIdleId).priority).Nodup :=
        List.nodup_range.filter _
      rw [List.eq_replicate_iff.mpr ⟨rfl, same⟩] at distinct
      exact List.nodup_replicate.mp distinct
  · have after := sound.tick
    have live : ((schedTick s).1.tasks i).isLive = true := by
      rw [schedTick_tasks, if_pos isDue.1]
      exact SchedTcb.counted_live.mpr (Or.inr isDue.2)
    have created : i < (schedTick s).1.taskCount := by
      rw [(schedTick_spec isIdle).taskCount]
      exact isDue.1
    have bit := after.consistent.bitSet_of_live created live
    have ready : (schedTick s).1.readyBitmap ≠ 0 := by
      intro empty
      simp [Sched.BitSet, empty] at bit
    have chosen := schedChooseNext_urgent after.consistent ready
    exact after.consistent.ne_idle chosen.1.1

/--
Where no switch is missing yet, `SchedPending.Requestable` says exactly which
ticks ask for the switch they make necessary.
-/
theorem SchedPending.Sound.tick_complete_iff
    (sound : s.Sound) :
    SchedTickRecord.Complete
        ⟨s, (schedTick s.sched).1, (schedTick s.sched).2⟩ ↔
      s.Requestable port (.call .tick) := by
  refine ⟨?_, fun requestable => (sound.tick requestable).2⟩
  intro complete none isIdle i alone lowest
  have unopposed : s.sched.Unopposed :=
    sound.told.resolve_left (by rw [none]; exact Bool.false_ne_true)
  obtain ⟨quiet, differs⟩ :=
    lone_idle_priority_wake sound.sched isIdle unopposed alone lowest
  rcases complete schedIdleId (schedTick_spec isIdle).currentTask differs with
    asked | pending
  · exact Bool.false_ne_true (quiet.symm.trans asked)
  · exact Bool.false_ne_true (none.symm.trans pending)

/-- A call that is no tick. -/
theorem SchedPending.Sound.call
    (sound : s.Sound)
    {action : SchedAction}
    (noTick : action ≠ .tick)
    (requestable : s.Requestable port (.call action)) :
    SchedPending.Sound
      ⟨schedCall port s.sched (.call action),
        s.pending && !s.sched.reselects action⟩ := by
  have after := sound.sched.call port (.call action)
  by_cases selects : s.sched.reselects action = true
  · exact .selected after (schedStep_reselects sound.sched port selects)
  rw [eq_false_of_ne_true selects, Bool.not_false, Bool.and_true]
  refine ⟨after, ?_⟩
  rcases sound.told with told | unopposed
  · exact Or.inl told
  by_cases told : s.pending = true
  · exact Or.inl told
  refine Or.inr ?_
  cases action with
  | start => exact absurd rfl selects
  | yield => exact absurd rfl selects
  | tick => exact absurd rfl noTick
  | create entry arg priority stackBase stackSize =>
      exact
        unopposed.create sound.sched port entry arg priority stackBase stackSize
          fun accepted =>
            requestable accepted (eq_false_of_ne_true told)
  | delay ticks =>
      obtain ⟨later, noUser⟩ := not_or.mp (mt Bool.or_eq_true_iff.mpr selects)
      have unchanged : schedDelay ticks s.sched = s.sched := by
        refine
          schedDelay_other sound.sched.consistent (fun now => later ?_) ?_
        · exact decide_eq_true now
        · intro i created isCurrent
          rw [isCurrent] at noUser
          exact
            noUser (decide_eq_true (sound.sched.consistent.ne_idle created))
      change (schedDelay ticks s.sched).Unopposed
      rw [unchanged]
      exact unopposed

/-- A tick is recorded. -/
theorem pendingStep_tick :
    pendingStep port s (.call .tick) =
      (⟨(schedTick s.sched).1, s.pending || (schedTick s.sched).2⟩,
        [⟨s, (schedTick s.sched).1, (schedTick s.sched).2⟩]) :=
  rfl

/-- One call or switch of a run. -/
theorem pendingStep_complete
    (sound : s.Sound)
    {call : SchedCall}
    (requestable : s.Requestable port call) :
    SchedPending.Sound (pendingStep port s call).1 ∧
      ∀ event ∈ (pendingStep port s call).2, event.Complete := by
  cases call with
  | switch =>
      exact
        ⟨.selected sound.sched.switch sound.sched.consistent.select,
          fun _ member => absurd member List.not_mem_nil⟩
  | call action =>
      by_cases isTick : action = .tick
      · subst isTick
        obtain ⟨after, complete⟩ := sound.tick requestable
        rw [pendingStep_tick]
        refine ⟨after, fun event member => ?_⟩
        rw [List.mem_singleton.mp member]
        exact complete
      · have kept := sound.call isTick requestable
        cases action with
        | tick => exact absurd rfl isTick
        | create | start | yield | delay =>
            exact ⟨kept, fun _ member => absurd member List.not_mem_nil⟩

/-- `sched_init` leaves nothing to ask for. -/
theorem SchedPending.start_sound
    (port : SchedPort)
    (before : Sched) :
    (SchedPending.start port before).Sound :=
  ⟨schedInit_sound port before, Or.inr nofun⟩

/--
In every run of calls and switches whose creations and ticks are as
`SchedPending.Requestable` asks, no tick leaves a selection behind that is not
the current task and that no switch was asked for.
-/
theorem ticks_ask_for_every_switch
    (port : SchedPort)
    (before : Sched)
    (calls : List SchedCall)
    (requestable :
      Machine.Allowed (pendingStep port) (SchedPending.Requestable port)
        (.start port before) calls) :
    ∀ event ∈ Machine.trace (pendingStep port) (.start port before) calls,
      event.Complete := by
  have preserved :
      ∀ (state : SchedPending) (history : List SchedTickRecord) call,
        (state.Sound ∧ ∀ event ∈ history, event.Complete) →
          state.Requestable port call →
            (pendingStep port state call).1.Sound ∧
              ∀ event ∈ history ++ (pendingStep port state call).2,
                event.Complete := by
    rintro state history call ⟨sound, each⟩ allowed
    obtain ⟨after, now⟩ := pendingStep_complete sound allowed
    refine ⟨after, fun event member => ?_⟩
    rcases List.mem_append.mp member with earlier | here
    · exact each event earlier
    · exact now event here
  exact
    (Machine.invariant_of_start preserved
      ⟨SchedPending.start_sound port before,
        fun _ member => absurd member List.not_mem_nil⟩ requestable).2

end Runs

/-- A port that leaves the stack pointer where it is. -/
def stackPort : SchedPort where
  initStack := fun stackTop _ _ => stackTop
  idleTask := 0x100
  idleStack := 0x2000

/-- Statics that were never written. -/
def zeroedSched : Sched where
  tasks := fun i =>
    { sp := 0
      priority := 0
      state := .suspended
      delayTicks := 0
      stackBase := 0
      stackSize := 0
      entry := 0
      arg := 0
      id := i }
  taskCount := 0
  tickCount := 0
  readyBitmap := 0
  currentTask := none
  rrIndex := fun _ => 0

/-- Two tasks, of which the more urgent one delays itself and wakes. -/
def preemptedCalls : List SchedCall :=
  [.call (.create 0x200 0 0 0x3000 64), .call (.create 0x300 0 1 0x4000 64),
    .call .start, .call (.delay 2), .call .tick, .call .tick, .switch]

/-- Both ticks ask for the switch they lead to. -/
theorem woken_task_is_asked_for :
    (Machine.trace (pendingStep stackPort) (.start stackPort zeroedSched)
        preemptedCalls).length = 2 ∧
      ∀ event ∈
          Machine.trace (pendingStep stackPort) (.start stackPort zeroedSched)
            preemptedCalls,
        event.Complete := by
  refine
    ⟨by decide +kernel,
      ticks_ask_for_every_switch stackPort zeroedSched preemptedCalls ?_⟩
  refine ⟨fun _ _ _ none => ?_, fun _ _ _ none => ?_, trivial, trivial, ?_, ?_,
    trivial, trivial⟩
  · cases none
  · cases none
  · intro _ isIdle
    exact absurd isIdle (by decide +kernel)
  · intro _ isIdle
    exact absurd isIdle (by decide +kernel)

/-- One task of the idle task's priority, which delays itself for one tick. -/
def idlePriorityCalls : List SchedCall :=
  [.call (.create 0x200 0 31 0x3000 64), .call .start, .call (.delay 1)]

/-- The idle task runs, and the next tick wakes that task. -/
def idlePriorityDue : SchedPending :=
  Machine.final (pendingStep stackPort) (.start stackPort zeroedSched)
    idlePriorityCalls

/--
Behind the tick the task is READY and the selection, the idle task is current,
and no switch was asked for.
-/
theorem idle_priority_task_is_not_asked_for :
    ∃ event ∈
        Machine.trace (pendingStep stackPort) (.start stackPort zeroedSched)
          (idlePriorityCalls ++ [.call .tick]),
      event.after.currentTask = some schedIdleId ∧
        (event.after.tasks 0).state = .ready ∧
          schedChooseNext event.after = 0 ∧ ¬event.Complete := by
  have current :
      (schedTick idlePriorityDue.sched).1.currentTask = some schedIdleId := by
    decide +kernel
  have ready :
      ((schedTick idlePriorityDue.sched).1.tasks 0).state = .ready := by
    decide +kernel
  have chosen : schedChooseNext (schedTick idlePriorityDue.sched).1 = 0 := by
    decide +kernel
  have quiet : (schedTick idlePriorityDue.sched).2 = false := by
    decide +kernel
  have none : idlePriorityDue.pending = false := by
    decide +kernel
  have recorded :
      (⟨idlePriorityDue, (schedTick idlePriorityDue.sched).1,
          (schedTick idlePriorityDue.sched).2⟩ : SchedTickRecord) ∈
        Machine.trace (pendingStep stackPort) (.start stackPort zeroedSched)
          (idlePriorityCalls ++ [.call .tick]) := by
    rw [Machine.trace_append, Machine.trace_cons, Machine.trace_nil,
      pendingStep_tick, List.append_nil]
    exact List.mem_append_right _ (List.mem_singleton_self _)
  generalize schedTick idlePriorityDue.sched = ticked
    at current ready chosen quiet recorded
  refine ⟨_, recorded, current, ready, chosen, fun complete => ?_⟩
  have idleOther : schedChooseNext ticked.1 ≠ schedIdleId := by
    rw [chosen]
    decide
  rcases complete schedIdleId current idleOther with asked | pending
  · exact Bool.false_ne_true (quiet.symm.trans asked)
  · exact Bool.false_ne_true (none.symm.trans pending)

end TraveoBodyDomain
