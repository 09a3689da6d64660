import TraveoBodyDomain.Sched.Preempt

/-!
# How long a delay lasts

A task that delays itself shares the loop of `sched_tick` with every other
task, and its state word with the selection.  `Sched.Waits` is what a call
leaves alone unless it is a tick, and what a tick brings one nearer to its end.
-/

namespace TraveoBodyDomain

/-- `i` is a created task that is blocked, with `left` ticks to go. -/
structure Sched.Waits (s : Sched) (i left : Nat) : Prop where
  sound : s.Sound
  created : i < s.taskCount
  blocked : (s.tasks i).state = .blocked
  delay : (s.tasks i).delayTicks.toNat = left

/-- How many of the calls are ticks. -/
def ticksIn (calls : List SchedCall) : Nat :=
  calls.count (.call .tick)

section Selection

variable {s : Sched} {i : Nat}

/-- The selection is the idle task, or a task that is eligible to run. -/
theorem schedChooseNext_ne_blocked
    (user : i ≠ schedIdleId)
    (blocked : (s.tasks i).state = .blocked) :
    schedChooseNext s ≠ i := by
  have picked {priority : UInt8} {j : Nat}
      (pick : schedPickTaskAtPriority s priority = some j) : j ≠ i := by
    rintro rfl
    by_cases none : (schedReadyAt s priority).length = 0
    · rw [schedPickTaskAtPriority, if_pos none] at pick
      cases pick
    · rw [schedPickTaskAtPriority, if_neg none] at pick
      have live := (mem_schedReadyAt.mp (List.mem_of_getElem? pick)).2.2
      simp [SchedTcb.isLive, blocked] at live
  unfold schedChooseNext
  cases schedFindHighestReadyPriority s with
  | none =>
      exact user.symm
  | some priority =>
      cases pick : schedPickTaskAtPriority s priority with
      | none =>
          simpa [pick] using user.symm
      | some j =>
          simpa [pick] using picked pick

/-- A selection does not touch a task that is blocked. -/
theorem schedSwitch_blocked
    (user : i ≠ schedIdleId)
    (blocked : (s.tasks i).state = .blocked) :
    (schedSwitch s).tasks i = s.tasks i := by
  have notNext : i ≠ schedChooseNext s :=
    (schedChooseNext_ne_blocked user blocked).symm
  have notDemoted :
      ¬(s.currentTask = some i ∧ (s.tasks i).state = .running) := by
    rintro ⟨-, running⟩
    rw [blocked] at running
    cases running
  rw [schedSwitch, schedSetRunning_tasks, if_neg notNext, if_neg notDemoted]

@[simp] theorem schedSwitch_taskCount
    (s : Sched) :
    (schedSwitch s).taskCount = s.taskCount :=
  schedSetRunning_taskCount ..

end Selection

section Calls

variable {s : Sched} {i left : Nat}

/-- A task that waits is not the idle task. -/
theorem Sched.Waits.user
    (waits : s.Waits i left) :
    i ≠ schedIdleId :=
  waits.sound.consistent.ne_idle waits.created

/-- It is not the current task. -/
theorem Sched.Waits.not_current
    (waits : s.Waits i left) :
    s.currentTask ≠ some i := by
  intro isCurrent
  have running := waits.sound.settled i isCurrent
  rw [waits.blocked] at running
  cases running

/-- The core does not select it. -/
theorem Sched.Waits.not_chosen
    (waits : s.Waits i left) :
    schedChooseNext s ≠ i :=
  schedChooseNext_ne_blocked waits.user waits.blocked

/-- A created task stays as it is when another one is created. -/
theorem schedTaskCreate_task
    (port : SchedPort)
    (entry arg : UInt32)
    (priority : UInt8)
    (stackBase stackSize : UInt32)
    (created : i < s.taskCount) :
    let after :=
      (schedTaskCreate port entry arg priority stackBase stackSize s).2
    after.tasks i = s.tasks i ∧ s.taskCount ≤ after.taskCount := by
  intro after
  by_cases accepted :
      (schedTaskCreate port entry arg priority stackBase stackSize s).1 = .ok
  · have other : i ≠ s.taskCount := Nat.ne_of_lt created
    simp only [after]
    unfold schedTaskCreate at accepted ⊢
    split_ifs at accepted ⊢
    exact ⟨Function.update_of_ne other .., Nat.le_succ _⟩
  · have unchanged : after = s :=
      schedTaskCreate_rejected port entry arg priority stackBase stackSize s
        accepted
    rw [unchanged]
    exact ⟨rfl, Nat.le_refl _⟩

/-- A yield does not touch it. -/
theorem schedYield_blocked
    (user : i ≠ schedIdleId)
    (blocked : (s.tasks i).state = .blocked) :
    (schedYield s).tasks i = s.tasks i ∧
      (schedYield s).taskCount = s.taskCount := by
  rw [schedYield_eq, schedSwitch_taskCount]
  cases s.currentTask with
  | none =>
      exact ⟨schedSwitch_blocked user blocked, rfl⟩
  | some current =>
      have rotated :
          ((s.rotate (s.tasks current).priority).tasks i).state = .blocked :=
        blocked
      exact ⟨schedSwitch_blocked user rotated, rfl⟩

/-- Neither does a delay, which is another task's. -/
theorem Sched.Waits.delay_task
    (waits : s.Waits i left)
    (ticks : UInt32) :
    (schedDelay ticks s).tasks i = s.tasks i ∧
      (schedDelay ticks s).taskCount = s.taskCount := by
  by_cases now : ticks = 0
  · rw [schedDelay, if_pos now]
    exact schedYield_blocked waits.user waits.blocked
  cases isCurrent : s.currentTask with
  | none =>
      rw [schedDelay, if_neg now, isCurrent]
      exact ⟨rfl, rfl⟩
  | some current =>
      by_cases idle : current = schedIdleId
      · rw [schedDelay, if_neg now, isCurrent]
        simp only [if_pos idle, and_self]
      · have other : i ≠ current := by
          rintro rfl
          exact waits.not_current isCurrent
        have same :
            (schedUpdateBitmapFor
                (s.setTask current
                  { s.tasks current with state := .blocked, delayTicks := ticks })
                (s.tasks current).priority).tasks i =
              s.tasks i := by
          rw [schedUpdateBitmapFor_eq]
          exact Function.update_of_ne other ..
        rw [schedDelay_eq now isCurrent idle, schedSwitch_taskCount]
        refine ⟨?_, by rw [schedUpdateBitmapFor_eq]; rfl⟩
        rw [schedSwitch_blocked waits.user (by rw [same]; exact waits.blocked),
          same]

/-- Only a tick brings the end of a delay nearer. -/
theorem Sched.Waits.call
    (waits : s.Waits i left)
    (port : SchedPort)
    {call : SchedCall}
    (noTick : call ≠ .call .tick) :
    (schedCall port s call).Waits i left := by
  have frame :
      (schedCall port s call).tasks i = s.tasks i ∧
        s.taskCount ≤ (schedCall port s call).taskCount := by
    cases call with
    | switch =>
        exact
          ⟨schedSwitch_blocked waits.user waits.blocked,
            Nat.le_of_eq (schedSwitch_taskCount s).symm⟩
    | call action =>
        cases action with
        | create entry arg priority stackBase stackSize =>
            exact
              schedTaskCreate_task port entry arg priority stackBase stackSize
                waits.created
        | start =>
            exact
              ⟨schedSwitch_blocked waits.user waits.blocked,
                Nat.le_of_eq (schedSwitch_taskCount s).symm⟩
        | yield =>
            have kept := schedYield_blocked waits.user waits.blocked
            exact ⟨kept.1, Nat.le_of_eq kept.2.symm⟩
        | delay ticks =>
            have kept := waits.delay_task ticks
            exact ⟨kept.1, Nat.le_of_eq kept.2.symm⟩
        | tick =>
            exact absurd rfl noTick
  obtain ⟨same, atLeast⟩ := frame
  refine
    ⟨waits.sound.call port call, Nat.lt_of_lt_of_le waits.created atLeast, ?_, ?_⟩
  · rw [same]
    exact waits.blocked
  · rw [same]
    exact waits.delay

/-- A tick creates no task. -/
theorem schedTick_taskCount
    (s : Sched) :
    (schedTick s).1.taskCount = s.taskCount := by
  obtain ⟨progress, passed, unfolded⟩ := schedTick_eq s
  rw [unfolded, ← passed.taskCount]
  split
  · rfl
  · split <;> rfl

/-- A tick before the last one. -/
theorem Sched.Waits.tick
    (waits : s.Waits i (left + 1))
    (more : 0 < left) :
    (schedTick s).1.Waits i left := by
  have longer : 1 < (s.tasks i).delayTicks := by
    rw [UInt32.lt_iff_toNat_lt, waits.delay, UInt32.toNat_one]
    omega
  have counted :
      (schedTick s).1.tasks i =
        { s.tasks i with delayTicks := (s.tasks i).delayTicks - 1 } := by
    rw [schedTick_tasks, if_pos waits.created,
      SchedTcb.counted_of_waiting waits.blocked longer]
  refine ⟨waits.sound.tick, ?_, ?_, ?_⟩
  · rw [schedTick_taskCount]
    exact waits.created
  · rw [counted]
    exact waits.blocked
  · rw [counted, UInt32.toNat_sub_of_le _ _ (UInt32.le_of_lt longer),
      waits.delay]
    rfl

/-- The last tick of a delay wakes the task and sets the bit of its priority. -/
theorem Sched.Waits.last_tick
    (waits : s.Waits i 1) :
    ((schedTick s).1.tasks i).state = .ready ∧
      (schedTick s).1.BitSet (s.tasks i).priority.toNat := by
  have due : (s.tasks i).Due :=
    ⟨waits.blocked, UInt32.toNat_inj.mp waits.delay⟩
  have woken : ((schedTick s).1.tasks i).state = .ready := by
    rw [schedTick_tasks, if_pos waits.created, SchedTcb.counted_of_due due]
  have created : i < (schedTick s).1.taskCount := by
    rw [schedTick_taskCount]
    exact waits.created
  refine ⟨woken, ?_⟩
  have bit :=
    waits.sound.tick.consistent.bitSet_of_live created
      ((SchedTcb.isLive_iff _).mpr (Or.inl woken))
  rw [schedTick_priority] at bit
  exact bit

/-- Calls with fewer ticks than the delay has left. -/
theorem Sched.Waits.calls
    (waits : s.Waits i left)
    (port : SchedPort)
    {calls : List SchedCall}
    (fewer : ticksIn calls < left) :
    (schedCalls port s calls).Waits i (left - ticksIn calls) := by
  induction calls generalizing s left with
  | nil =>
      exact waits
  | cons call rest inductionHypothesis =>
      rw [ticksIn, List.count_cons] at fewer ⊢
      by_cases isTick : call = .call .tick
      · subst isTick
        rw [beq_self_eq_true, if_pos rfl] at fewer ⊢
        obtain ⟨left, rfl⟩ : ∃ before, left = before + 1 :=
          ⟨left - 1, by omega⟩
        have ticked : (schedCall port s (.call .tick)).Waits i left :=
          waits.tick (by omega)
        rw [Nat.add_sub_add_right]
        exact inductionHypothesis ticked (by rw [ticksIn]; omega)
      · have still : (call == .call .tick) = false :=
          beq_eq_false_iff_ne.mpr isTick
        rw [still, if_neg Bool.false_ne_true, Nat.add_zero] at fewer ⊢
        exact inductionHypothesis (waits.call port isTick) fewer

/-- A task that delays itself waits for as many ticks as it asked for. -/
theorem Sched.Sound.delayed
    (sound : s.Sound)
    (isCurrent : s.currentTask = some i)
    (user : i ≠ schedIdleId)
    {ticks : UInt32}
    (later : ticks ≠ 0) :
    (schedDelay ticks s).Waits i ticks.toNat := by
  have created : i < s.taskCount :=
    (sound.consistent.current i isCurrent).resolve_right user
  have task :
      (schedUpdateBitmapFor
          (s.setTask i
            { s.tasks i with state := .blocked, delayTicks := ticks })
          (s.tasks i).priority).tasks i =
        { s.tasks i with state := .blocked, delayTicks := ticks } := by
    rw [schedUpdateBitmapFor_eq]
    exact Function.update_self ..
  have kept :
      (schedDelay ticks s).tasks i =
        { s.tasks i with state := .blocked, delayTicks := ticks } := by
    rw [schedDelay_eq later isCurrent user,
      schedSwitch_blocked user (by rw [task]), task]
  refine ⟨sound.delay ticks, ?_, by rw [kept], by rw [kept]⟩
  rw [schedDelay_eq later isCurrent user, schedSwitch_taskCount,
    schedUpdateBitmapFor_eq]
  exact created

end Calls

section Runs

variable {current : Nat}

/--
After `sched_delay` by a user task, that task is BLOCKED and not selected as
long as fewer ticks have come than it asked for, whatever else is called.  The
tick that makes them as many makes it READY, and sets the bit of its priority.
-/
theorem delay_is_exact
    (port : SchedPort)
    (before : Sched)
    (calls : List SchedCall)
    (isCurrent :
      (schedCalls port (schedInit port before) calls).currentTask =
        some current)
    (user : current ≠ schedIdleId)
    {ticks : UInt32}
    (later : ticks ≠ 0)
    (more : List SchedCall) :
    let issued := schedCalls port (schedInit port before) calls
    let s := schedCalls port issued (.call (.delay ticks) :: more)
    let ticked := schedCall port s (.call .tick)
    (ticksIn more < ticks.toNat →
      (s.tasks current).state = .blocked ∧
        s.currentTask ≠ some current ∧
          schedChooseNext s ≠ current) ∧
      (ticksIn more + 1 = ticks.toNat →
        (ticked.tasks current).state = .ready ∧
          ticked.BitSet (ticked.tasks current).priority.toNat) := by
  intro issued s ticked
  have sound : issued.Sound := (schedInit_sound port before).calls port calls
  have waits := sound.delayed isCurrent user later
  have after (fewer : ticksIn more < ticks.toNat) :
      s.Waits current (ticks.toNat - ticksIn more) :=
    waits.calls port fewer
  refine ⟨fun fewer => ?_, fun last => ?_⟩
  · have waiting := after fewer
    exact ⟨waiting.blocked, waiting.not_current, waiting.not_chosen⟩
  · have waiting := after (by omega)
    rw [show ticks.toNat - ticksIn more = 1 by omega] at waiting
    obtain ⟨ready, bit⟩ := waiting.last_tick
    rw [← schedTick_priority] at bit
    exact ⟨ready, bit⟩

/-- One task, which the core has started. -/
def startedCalls : List SchedCall :=
  [.call (.create 0x200 0 0 0x3000 64), .call .start]

/-- A delay of two ticks, in the course of which another task is created. -/
theorem delayed_task_waits_for_two_ticks :
    let issued :=
      schedCalls stackPort (schedInit stackPort zeroedSched) startedCalls
    let s :=
      schedCalls stackPort issued
        [.call (.delay 2), .call (.create 0x300 0 0 0x4000 64), .call .tick]
    (s.tasks 0).state = .blocked ∧
      ((schedCall stackPort s (.call .tick)).tasks 0).state = .ready := by
  have isCurrent :
      (schedCalls stackPort (schedInit stackPort zeroedSched)
        startedCalls).currentTask = some 0 := by
    decide +kernel
  have later : (2 : UInt32) ≠ 0 := by decide
  have delayed :=
    delay_is_exact stackPort zeroedSched startedCalls isCurrent (by decide)
      later [.call (.create 0x300 0 0 0x4000 64), .call .tick]
  exact ⟨(delayed.1 (by decide)).1, (delayed.2 (by decide)).1⟩

end Runs

end TraveoBodyDomain
