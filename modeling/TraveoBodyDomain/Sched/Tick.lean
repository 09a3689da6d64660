import TraveoBodyDomain.Sched.Invariant

/-!
# What a tick does

`sched_tick` counts every delay down by one and wakes the tasks whose delay is
over.  It asks for a switch when it wakes a task with a priority value below
the current task's, or when it has moved on the round-robin index.
-/

namespace TraveoBodyDomain

/-- The next tick wakes the task. -/
def SchedTcb.Due (tcb : SchedTcb) : Prop :=
  tcb.state = .blocked ∧ tcb.delayTicks = 1

instance (tcb : SchedTcb) : Decidable tcb.Due :=
  inferInstanceAs (Decidable (_ ∧ _))

/-- A task after its delay was counted down. -/
def SchedTcb.counted (tcb : SchedTcb) : SchedTcb :=
  if tcb.Due then
    { tcb with delayTicks := 0, state := .ready }
  else if tcb.state = .blocked ∧ 0 < tcb.delayTicks then
    { tcb with delayTicks := tcb.delayTicks - 1 }
  else
    tcb

namespace SchedTcb

variable {tcb : SchedTcb}

@[simp] theorem counted_priority : tcb.counted.priority = tcb.priority := by
  unfold counted
  split
  · rfl
  · split <;> rfl

/-- A task that is due becomes READY. -/
theorem counted_of_due
    (due : tcb.Due) :
    tcb.counted = { tcb with delayTicks := 0, state := .ready } :=
  if_pos due

/-- A longer delay gets shorter by one. -/
theorem counted_of_waiting
    (blocked : tcb.state = .blocked)
    (longer : 1 < tcb.delayTicks) :
    tcb.counted = { tcb with delayTicks := tcb.delayTicks - 1 } := by
  have notDue : ¬tcb.Due := fun due =>
    absurd due.2.symm (UInt32.ne_of_lt longer)
  have positive : 0 < tcb.delayTicks := UInt32.lt_trans (by decide) longer
  rw [counted, if_neg notDue, if_pos ⟨blocked, positive⟩]

/-- The tasks that are eligible to run after the tick. -/
theorem counted_live :
    tcb.counted.isLive = true ↔ tcb.isLive = true ∨ tcb.Due := by
  by_cases due : tcb.Due
  · rw [counted_of_due due]
    exact iff_of_true rfl (Or.inr due)
  · have same : tcb.counted.isLive = tcb.isLive := by
      rw [counted, if_neg due]
      split <;> rfl
    rw [same]
    exact (or_iff_left due).symm

end SchedTcb

/-- The loop of `sched_tick` has passed the first `n` tasks. -/
structure Sched.CountedTo
    (s : Sched)
    (n : Nat)
    (progress : Sched × Bool) : Prop where
  tasks :
    ∀ i,
      progress.1.tasks i =
        if i < n then (s.tasks i).counted else s.tasks i
  taskCount : progress.1.taskCount = s.taskCount
  currentTask : progress.1.currentTask = s.currentTask
  rrIndex : progress.1.rrIndex = s.rrIndex
  needSwitch :
    progress.2 = true ↔
      ∃ i < n,
        (s.tasks i).Due ∧
          ∃ current,
            s.currentTask = some current ∧
              (s.tasks i).priority < (s.tasks current).priority

/-- The priorities are those before the tick. -/
theorem Sched.CountedTo.priority
    {s : Sched}
    {n : Nat}
    {progress : Sched × Bool}
    (passed : s.CountedTo n progress)
    (i : Nat) :
    (progress.1.tasks i).priority = (s.tasks i).priority := by
  rw [passed.tasks]
  split
  · exact SchedTcb.counted_priority
  · rfl

/-- The last tick of a delay. -/
theorem SchedTcb.due_iff
    {tcb : SchedTcb} :
    tcb.Due ↔
      (tcb.state = .blocked ∧ tcb.delayTicks > 0) ∧ tcb.delayTicks - 1 = 0 := by
  have last : tcb.delayTicks - 1 = 0 ↔ tcb.delayTicks = 1 := by grind
  rw [last]
  constructor
  · rintro ⟨blocked, one⟩
    refine ⟨⟨blocked, ?_⟩, one⟩
    rw [one]
    decide
  · rintro ⟨⟨blocked, -⟩, one⟩
    exact ⟨blocked, one⟩

/-- What the loop does at one task. -/
theorem schedTickTask_eq
    (p : Sched)
    (needSwitch : Bool)
    (n : Nat) :
    schedTickTask (p, needSwitch) n =
      if (p.tasks n).Due then
        ((p.setTask n (p.tasks n).counted).setBit (p.tasks n).priority,
          needSwitch ||
            match p.currentTask with
            | some current =>
                decide ((p.tasks n).priority < (p.tasks current).priority)
            | none => false)
      else
        (p.setTask n (p.tasks n).counted, needSwitch) := by
  by_cases due : (p.tasks n).Due
  · obtain ⟨waits, last⟩ := SchedTcb.due_iff.mp due
    rw [if_pos due, SchedTcb.counted_of_due due]
    have samePriority (current : Nat) :
        (Function.update p.tasks n
            { p.tasks n with delayTicks := 0, state := .ready }
            current).priority =
          (p.tasks current).priority := by
      by_cases same : current = n
      · rw [same, Function.update_self]
      · rw [Function.update_of_ne same]
    simp only [schedTickTask, if_pos waits, if_pos last, Sched.setTask,
      Sched.setBit]
    cases p.currentTask with
    | none =>
        rfl
    | some current =>
        simp only [samePriority current]
  · rw [if_neg due]
    by_cases waits : (p.tasks n).state = .blocked ∧ (p.tasks n).delayTicks > 0
    · have more : (p.tasks n).delayTicks - 1 ≠ 0 :=
        fun last => due (SchedTcb.due_iff.mpr ⟨waits, last⟩)
      have counted :
          (p.tasks n).counted =
            { p.tasks n with delayTicks := (p.tasks n).delayTicks - 1 } := by
        rw [SchedTcb.counted, if_neg due]
        exact if_pos waits
      simp only [schedTickTask, if_pos waits, if_neg more, counted]
    · have counted : (p.tasks n).counted = p.tasks n := by
        rw [SchedTcb.counted, if_neg due]
        exact if_neg waits
      simp only [schedTickTask, if_neg waits, counted]
      rw [Sched.setTask, Function.update_eq_self]

/-- One round of the loop, at the task the loop has come to. -/
theorem schedTickTask_passes
    {s : Sched}
    {n : Nat}
    {progress : Sched × Bool}
    (passed : s.CountedTo n progress) :
    s.CountedTo (n + 1) (schedTickTask progress n) := by
  rcases progress with ⟨p, needSwitch⟩
  have here : p.tasks n = s.tasks n :=
    (passed.tasks n).trans (if_neg (Nat.lt_irrefl n))
  -- the loop leaves the tasks it has not come to as they were
  have others (i : Nat) :
      Function.update p.tasks n (s.tasks n).counted i =
        if i < n + 1 then (s.tasks i).counted else s.tasks i := by
    by_cases same : i = n
    · subst same
      rw [Function.update_self, if_pos (Nat.lt_succ_self i)]
    · rw [Function.update_of_ne same, passed.tasks i]
      have sameSide : i < n + 1 ↔ i < n := by omega
      simp only [sameSide]
  rw [schedTickTask_eq, here]
  by_cases due : (s.tasks n).Due
  · rw [if_pos due]
    refine
      ⟨others, passed.taskCount, passed.currentTask, passed.rrIndex, ?_⟩
    rw [Nat.exists_lt_succ_right, Bool.or_eq_true, passed.needSwitch]
    refine or_congr_right ?_
    rw [show p.currentTask = s.currentTask from passed.currentTask]
    cases s.currentTask with
    | none =>
        refine iff_of_false Bool.false_ne_true ?_
        rintro ⟨-, _, none, -⟩
        cases none
    | some current =>
        have samePriority :
            (p.tasks current).priority = (s.tasks current).priority :=
          passed.priority current
        rw [decide_eq_true_iff, samePriority]
        constructor
        · exact fun urgent => ⟨due, current, rfl, urgent⟩
        · rintro ⟨-, _, ⟨⟩, urgent⟩
          exact urgent
  · rw [if_neg due]
    refine
      ⟨others, passed.taskCount, passed.currentTask, passed.rrIndex, ?_⟩
    rw [Nat.exists_lt_succ_right, passed.needSwitch]
    exact (or_iff_left fun both => due both.1).symm

/-- The loop of `sched_tick`, over the first `n` tasks. -/
theorem schedTickTasks_pass
    (s : Sched)
    (n : Nat) :
    s.CountedTo n
      ((List.range n).foldl schedTickTask
        ({ s with tickCount := s.tickCount + 1 }, false)) := by
  induction n with
  | zero =>
      refine
        ⟨fun i => (if_neg (Nat.not_lt_zero i)).symm, rfl, rfl, rfl, ?_⟩
      refine iff_of_false Bool.false_ne_true ?_
      rintro ⟨i, below, -⟩
      exact Nat.not_lt_zero i below
  | succ n inductionHypothesis =>
      rw [List.range_succ, List.foldl_append]
      exact schedTickTask_passes inductionHypothesis

/-- `i` runs, is READY or wakes in the next tick. -/
def Sched.Awake (s : Sched) (i : Nat) : Prop :=
  (s.tasks i).isLive = true ∨ (s.tasks i).Due

/-- The created tasks of a priority that are awake. -/
def Sched.awakeAt (s : Sched) (priority : UInt8) : List Nat :=
  (List.range s.taskCount).filter fun i =>
    (s.tasks i).priority = priority &&
      ((s.tasks i).isLive || decide (s.tasks i).Due)

/-- What `sched_tick` does when a task is current. -/
structure Sched.Ticked (s : Sched) (current : Nat) : Prop where
  taskCount : (schedTick s).1.taskCount = s.taskCount
  currentTask : (schedTick s).1.currentTask = some current
  rrIndex :
    (schedTick s).1.rrIndex =
      if 1 < (s.awakeAt (s.tasks current).priority).length then
        (s.rotate (s.tasks current).priority).rrIndex
      else
        s.rrIndex
  needSwitch :
    (schedTick s).2 = true ↔
      (∃ i < s.taskCount,
        (s.tasks i).Due ∧
          (s.tasks i).priority < (s.tasks current).priority) ∨
        1 < (s.awakeAt (s.tasks current).priority).length

/-- When delays have been counted down, those are eligible that were awake. -/
theorem schedReadyAt_counted
    {s after : Sched}
    (sameCount : after.taskCount = s.taskCount)
    (counted :
      ∀ i,
        after.tasks i =
          if i < s.taskCount then (s.tasks i).counted else s.tasks i)
    (priority : UInt8) :
    schedReadyAt after priority = s.awakeAt priority := by
  rw [schedReadyAt, sameCount]
  refine List.filter_congr fun i member => ?_
  have created := List.mem_range.mp member
  rw [counted, if_pos created, SchedTcb.counted_priority, Bool.eq_iff_iff]
  simp only [Bool.and_eq_true, Bool.or_eq_true, decide_eq_true_eq,
    SchedTcb.counted_live]

/-- `sched_tick` is its loop, and then the round-robin among equals. -/
theorem schedTick_eq
    (s : Sched) :
    ∃ progress,
      s.CountedTo s.taskCount progress ∧
        schedTick s =
          match progress.1.currentTask with
          | none => progress
          | some current =>
              if schedCountReadyAt progress.1
                  (progress.1.tasks current).priority > 1 then
                (progress.1.rotate (progress.1.tasks current).priority, true)
              else
                progress :=
  ⟨_, schedTickTasks_pass s s.taskCount, rfl⟩

/-- A tick counts every delay down, also before the scheduler runs. -/
theorem schedTick_tasks
    (s : Sched)
    (i : Nat) :
    (schedTick s).1.tasks i =
      if i < s.taskCount then (s.tasks i).counted else s.tasks i := by
  obtain ⟨progress, passed, unfolded⟩ := schedTick_eq s
  rw [unfolded, ← passed.tasks i]
  split
  · rfl
  · split <;> rfl

/-- A tick changes no priority. -/
@[simp] theorem schedTick_priority
    (s : Sched)
    (i : Nat) :
    ((schedTick s).1.tasks i).priority = (s.tasks i).priority := by
  rw [schedTick_tasks]
  split
  · exact SchedTcb.counted_priority
  · rfl

/-- `sched_tick`, once the scheduler runs. -/
theorem schedTick_spec
    {s : Sched}
    {current : Nat}
    (isCurrent : s.currentTask = some current) :
    s.Ticked current := by
  obtain ⟨⟨p, needSwitch⟩, passed, unfolded⟩ := schedTick_eq s
  have stillCurrent : p.currentTask = some current :=
    passed.currentTask.trans isCurrent
  have samePriority :
      (p.tasks current).priority = (s.tasks current).priority :=
    passed.priority current
  have count :
      schedCountReadyAt p (s.tasks current).priority =
        (s.awakeAt (s.tasks current).priority).length :=
    congrArg List.length (schedReadyAt_counted passed.taskCount passed.tasks _)
  have urgent :
      needSwitch = true ↔
        ∃ i < s.taskCount,
          (s.tasks i).Due ∧
            (s.tasks i).priority < (s.tasks current).priority := by
    refine passed.needSwitch.trans ?_
    rw [isCurrent]
    constructor
    · rintro ⟨i, created, due, _, ⟨⟩, lower⟩
      exact ⟨i, created, due, lower⟩
    · rintro ⟨i, created, due, lower⟩
      exact ⟨i, created, due, current, rfl, lower⟩
  simp only [stillCurrent, samePriority, count] at unfolded
  by_cases several : 1 < (s.awakeAt (s.tasks current).priority).length
  · have ticked : schedTick s = (p.rotate (s.tasks current).priority, true) :=
      unfolded.trans (if_pos several)
    refine ⟨?_, ?_, ?_, ?_⟩ <;> rw [ticked]
    · exact passed.taskCount
    · exact stillCurrent
    · rw [if_pos several]
      simp only [Sched.rotate, show p.rrIndex = s.rrIndex from passed.rrIndex]
    · exact iff_of_true rfl (Or.inr several)
  · have ticked : schedTick s = (p, needSwitch) :=
      unfolded.trans (if_neg several)
    refine ⟨?_, ?_, ?_, ?_⟩ <;> rw [ticked]
    · exact passed.taskCount
    · exact stillCurrent
    · rw [if_neg several]
      exact passed.rrIndex
    · exact urgent.trans (or_iff_left several).symm

end TraveoBodyDomain
