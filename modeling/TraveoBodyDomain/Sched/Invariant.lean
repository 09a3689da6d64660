import TraveoBodyDomain.Sched.Sched

/-!
# The ready bitmap follows the tasks

Five calls change the bitmap, the states, the delays and the current task, each
in its own order.  `Sched.Consistent` is what ties them together, also inside a
call, between a task's blocking and the selection of its successor.
`Sched.Settled` is what holds besides at the end of each call.
-/

namespace TraveoBodyDomain

/-- `i` is a task: a created one, or the idle task. -/
def Sched.IsTask (s : Sched) (i : Nat) : Prop :=
  i < s.taskCount ∨ i = schedIdleId

/-- Bit `p` of the ready bitmap is set. -/
def Sched.BitSet (s : Sched) (p : Nat) : Prop :=
  s.readyBitmap.getLsbD p = true

/-- A created task of priority `p` is READY or RUNNING. -/
def Sched.HasLiveAt (s : Sched) (p : Nat) : Prop :=
  ∃ i < s.taskCount,
    (s.tasks i).priority.toNat = p ∧
      ((s.tasks i).state = .ready ∨ (s.tasks i).state = .running)

/-- `i` is a created task of the most urgent priority whose bit is set. -/
def Sched.MostUrgent (s : Sched) (i : Nat) : Prop :=
  i < s.taskCount ∧
    s.BitSet (s.tasks i).priority.toNat ∧
    ∀ p, s.BitSet p → (s.tasks i).priority.toNat ≤ p

/-- What ties the statics together, at every point of a call. -/
structure Sched.Consistent (s : Sched) : Prop where
  room : s.taskCount ≤ schedMaxTasks
  priorities :
    ∀ i < s.taskCount, (s.tasks i).priority.toNat < schedMaxPriorities
  bits : ∀ p, s.BitSet p ↔ s.HasLiveAt p
  delays :
    ∀ i, s.IsTask i →
      (0 < (s.tasks i).delayTicks ↔ (s.tasks i).state = .blocked)
  idle : (s.tasks schedIdleId).isLive = true
  current : ∀ i, s.currentTask = some i → s.IsTask i
  running :
    ∀ i, s.IsTask i → (s.tasks i).state = .running → s.currentTask = some i

/-- The current task, when there is one, is RUNNING. -/
def Sched.Settled (s : Sched) : Prop :=
  ∀ i, s.currentTask = some i → (s.tasks i).state = .running

theorem SchedTcb.isLive_iff (tcb : SchedTcb) :
    tcb.isLive = true ↔ tcb.state = .ready ∨ tcb.state = .running := by
  simp [SchedTcb.isLive]

/-- A created task is not the idle task. -/
theorem Sched.Consistent.ne_idle
    {s : Sched}
    (consistent : s.Consistent)
    {i : Nat}
    (created : i < s.taskCount) :
    i ≠ schedIdleId :=
  Nat.ne_of_lt (Nat.lt_of_lt_of_le created consistent.room)

/-- A task that is eligible to run has no delay left. -/
theorem Sched.Consistent.delay_of_live
    {s : Sched}
    (consistent : s.Consistent)
    {i : Nat}
    (isTask : s.IsTask i)
    (live : (s.tasks i).isLive = true) :
    ¬0 < (s.tasks i).delayTicks := by
  intro positive
  have blocked := (consistent.delays i isTask).mp positive
  rcases (SchedTcb.isLive_iff _).mp live with ready | running
  · simp [blocked] at ready
  · simp [blocked] at running

section Bits

variable (s : Sched)

/-- Setting a bit sets that bit. -/
theorem Sched.bitSet_setBit
    {priority : UInt8}
    (small : priority.toNat < schedMaxPriorities)
    (p : Nat) :
    (s.setBit priority).BitSet p ↔ s.BitSet p ∨ p = priority.toNat := by
  have shifted := @BitVec.getLsbD_twoPow 32 priority.toNat p
  rw [BitVec.twoPow_eq] at shifted
  simp only [schedMaxPriorities] at small
  simp only [Sched.BitSet, Sched.setBit, BitVec.getLsbD_or, shifted, small,
    decide_true, Bool.true_and, Bool.or_eq_true, decide_eq_true_eq]
  exact or_congr_right eq_comm

/-- Clearing a bit clears that bit. -/
theorem Sched.bitSet_clearBit
    {priority : UInt8}
    (small : priority.toNat < schedMaxPriorities)
    (p : Nat) :
    (s.clearBit priority).BitSet p ↔ s.BitSet p ∧ p ≠ priority.toNat := by
  have shifted := @BitVec.getLsbD_twoPow 32 priority.toNat p
  rw [BitVec.twoPow_eq] at shifted
  simp only [schedMaxPriorities] at small
  have inWord (bit : s.readyBitmap.getLsbD p = true) : p < 32 :=
    BitVec.lt_of_getLsbD bit
  simp only [Sched.BitSet, Sched.clearBit, BitVec.getLsbD_and,
    BitVec.getLsbD_not, shifted, small, decide_true, Bool.true_and,
    Bool.and_eq_true, decide_eq_true_eq, Bool.not_eq_true',
    decide_eq_false_iff_not]
  exact
    ⟨fun both => ⟨both.1, fun same => both.2.2 same.symm⟩,
      fun both => ⟨both.1, inWord both.1, fun same => both.2 same.symm⟩⟩

end Bits

section Selection

variable {s : Sched}

/-- The tasks the two loops of the selection count. -/
theorem mem_schedReadyAt
    {priority : UInt8}
    {i : Nat} :
    i ∈ schedReadyAt s priority ↔
      i < s.taskCount ∧ (s.tasks i).priority = priority ∧
        (s.tasks i).isLive = true := by
  simp [schedReadyAt]

/-- A priority has an eligible task when the count is positive. -/
theorem schedCountReadyAt_pos
    {priority : UInt8} :
    schedCountReadyAt s priority > 0 ↔ s.HasLiveAt priority.toNat := by
  simp only [schedCountReadyAt, gt_iff_lt, List.length_pos_iff_exists_mem,
    mem_schedReadyAt, Sched.HasLiveAt, ← SchedTcb.isLive_iff, UInt8.toNat_inj]

/-- The pick is one of the eligible tasks, when there is one. -/
theorem schedPickTaskAtPriority_mem
    {priority : UInt8}
    (live : s.HasLiveAt priority.toNat) :
    ∃ i, schedPickTaskAtPriority s priority = some i ∧
      i ∈ schedReadyAt s priority := by
  have positive : 0 < (schedReadyAt s priority).length :=
    schedCountReadyAt_pos.mpr live
  have inside :
      (s.rrIndex priority).toNat % (schedReadyAt s priority).length <
        (schedReadyAt s priority).length :=
    Nat.mod_lt _ positive
  refine ⟨_, ?_, List.getElem_mem inside⟩
  rw [schedPickTaskAtPriority, if_neg (Nat.ne_of_gt positive),
    List.getElem?_eq_getElem inside]

/-- With no bit set the idle task is chosen. -/
theorem schedChooseNext_idle
    (empty : s.readyBitmap = 0) :
    schedChooseNext s = schedIdleId := by
  simp [schedChooseNext, schedFindHighestReadyPriority, empty]

/-- The most urgent ready priority: its bit is the lowest. -/
theorem schedFindHighestReadyPriority_spec
    {priority : UInt8}
    (found : schedFindHighestReadyPriority s = some priority) :
    s.BitSet priority.toNat ∧ ∀ p, s.BitSet p → priority.toNat ≤ p := by
  unfold schedFindHighestReadyPriority at found
  split at found
  · cases found
  · next ready =>
      have lowest : s.BitSet s.readyBitmap.ctz.toNat :=
        BitVec.getLsbD_true_ctz_of_ne_zero ready
      have small : s.readyBitmap.ctz.toNat < 32 := BitVec.lt_of_getLsbD lowest
      have same : priority.toNat = s.readyBitmap.ctz.toNat := by
        rw [← Option.some.inj found, UInt8.toNat_ofNat']
        omega
      rw [same]
      refine ⟨lowest, fun p bit => ?_⟩
      by_contra earlier
      have clear : s.readyBitmap.getLsbD p = false :=
        BitVec.getLsbD_false_of_lt_ctz (Nat.not_le.mp earlier)
      exact Bool.false_ne_true (clear.symm.trans bit)

/-- With a bit set, an eligible task of the lowest one is chosen. -/
theorem schedChooseNext_urgent
    (consistent : s.Consistent)
    (ready : s.readyBitmap ≠ 0) :
    s.MostUrgent (schedChooseNext s) ∧
      (s.tasks (schedChooseNext s)).isLive = true := by
  obtain ⟨priority, found⟩ :
      ∃ priority, schedFindHighestReadyPriority s = some priority :=
    ⟨_, if_neg ready⟩
  obtain ⟨lowest, least⟩ := schedFindHighestReadyPriority_spec found
  rcases schedPickTaskAtPriority_mem ((consistent.bits _).mp lowest) with
    ⟨i, picked, member⟩
  have chosen : schedChooseNext s = i := by
    simp [schedChooseNext, found, picked]
  rcases mem_schedReadyAt.mp member with ⟨created, samePriority, live⟩
  rw [chosen]
  refine ⟨⟨created, ?_, ?_⟩, live⟩
  · rw [samePriority]
    exact lowest
  · rw [samePriority]
    exact least

/-- The choice is a task that is eligible to run. -/
theorem schedChooseNext_live
    (consistent : s.Consistent) :
    s.IsTask (schedChooseNext s) ∧
      (s.tasks (schedChooseNext s)).isLive = true := by
  by_cases empty : s.readyBitmap = 0
  · rw [schedChooseNext_idle empty]
    exact ⟨Or.inr rfl, consistent.idle⟩
  · have urgent := schedChooseNext_urgent consistent empty
    exact ⟨Or.inl urgent.1.1, urgent.2⟩

end Selection

section Running

variable (s : Sched) (next : Nat)

/-- `sched_set_running` only changes states. -/
theorem schedSetRunning_tasks
    (i : Nat) :
    (schedSetRunning s next).tasks i =
      { s.tasks i with
        state :=
          if i = next then
            .running
          else if s.currentTask = some i ∧ (s.tasks i).state = .running then
            .ready
          else
            (s.tasks i).state } := by
  cases current : s.currentTask with
  | none =>
      by_cases same : i = next <;>
        simp [schedSetRunning, current, Sched.setState, Sched.setTask, same]
  | some outgoing =>
      by_cases ran : (s.tasks outgoing).state = .running <;>
      by_cases same : i = next <;>
      by_cases left : i = outgoing <;>
        simp_all [schedSetRunning, Sched.setState, Sched.setTask,
          Function.update_apply, eq_comm]

@[simp] theorem schedSetRunning_currentTask :
    (schedSetRunning s next).currentTask = some next :=
  rfl

@[simp] theorem schedSetRunning_taskCount :
    (schedSetRunning s next).taskCount = s.taskCount := by
  simp only [schedSetRunning]
  split <;> [split; skip] <;> rfl

@[simp] theorem schedSetRunning_readyBitmap :
    (schedSetRunning s next).readyBitmap = s.readyBitmap := by
  simp only [schedSetRunning]
  split <;> [split; skip] <;> rfl

/-- Promoting an eligible task leaves the same tasks eligible. -/
theorem schedSetRunning_live
    {s : Sched}
    {next : Nat}
    (live : (s.tasks next).isLive = true)
    (i : Nat) :
    ((schedSetRunning s next).tasks i).isLive = (s.tasks i).isLive := by
  rw [schedSetRunning_tasks]
  by_cases same : i = next
  · subst same
    rw [live]
    simp [SchedTcb.isLive]
  · by_cases demoted : s.currentTask = some i ∧ (s.tasks i).state = .running
    · simp [SchedTcb.isLive, same, demoted]
    · simp only [SchedTcb.isLive, same, demoted, if_false]

/-- Promoting an eligible task leaves the same priorities with one. -/
theorem schedSetRunning_hasLiveAt
    {s : Sched}
    {next : Nat}
    (live : (s.tasks next).isLive = true)
    (p : Nat) :
    (schedSetRunning s next).HasLiveAt p ↔ s.HasLiveAt p := by
  simp only [Sched.HasLiveAt, ← SchedTcb.isLive_iff,
    schedSetRunning_live live, schedSetRunning_taskCount]
  simp only [schedSetRunning_tasks]

/-- After `sched_set_running` of an eligible task, that task alone runs. -/
theorem Sched.Consistent.setRunning
    {s : Sched}
    (consistent : s.Consistent)
    {next : Nat}
    (isTask : s.IsTask next)
    (live : (s.tasks next).isLive = true) :
    (schedSetRunning s next).Consistent ∧ (schedSetRunning s next).Settled := by
  have sameTask (i : Nat) : (schedSetRunning s next).IsTask i ↔ s.IsTask i := by
    simp [Sched.IsTask]
  refine ⟨⟨?_, ?_, ?_, ?_, ?_, ?_, ?_⟩, ?_⟩
  · simpa using consistent.room
  · simpa [schedSetRunning_tasks] using consistent.priorities
  · intro p
    rw [schedSetRunning_hasLiveAt live, ← consistent.bits p]
    simp [Sched.BitSet]
  · intro i is
    have delays := consistent.delays i ((sameTask i).mp is)
    rw [schedSetRunning_tasks]
    by_cases same : i = next
    · subst same
      simpa using consistent.delay_of_live isTask live
    · by_cases demoted : s.currentTask = some i ∧ (s.tasks i).state = .running
      · have none := consistent.delay_of_live ((sameTask i).mp is)
          ((SchedTcb.isLive_iff _).mpr (Or.inr demoted.2))
        simpa [same, demoted] using none
      · simpa only [same, demoted, if_false] using delays
  · rw [schedSetRunning_live live]
    exact consistent.idle
  · intro i became
    rw [schedSetRunning_currentTask, Option.some.injEq] at became
    exact (sameTask i).mpr (became ▸ isTask)
  · intro i is ran
    rw [schedSetRunning_currentTask, Option.some.injEq]
    by_contra other
    rw [schedSetRunning_tasks] at ran
    by_cases demoted : s.currentTask = some i ∧ (s.tasks i).state = .running
    · simp [Ne.symm other, demoted] at ran
    · simp only [Ne.symm other, demoted, if_false] at ran
      exact demoted ⟨consistent.running i ((sameTask i).mp is) ran, ran⟩
  · intro i became
    rw [schedSetRunning_currentTask, Option.some.injEq] at became
    simp [schedSetRunning_tasks, became]

/-- What a call that selects a successor leaves behind. -/
structure Sched.Selected (s : Sched) : Prop where
  consistent : s.Consistent
  settled : s.Settled
  urgent :
    ∃ i, s.currentTask = some i ∧
      (i = schedIdleId ↔ s.readyBitmap = 0) ∧
      (i ≠ schedIdleId → s.MostUrgent i)

/-- Selecting and promoting from a consistent state. -/
theorem Sched.Consistent.select
    {s : Sched}
    (consistent : s.Consistent) :
    (schedSetRunning s (schedChooseNext s)).Selected := by
  have chosen := schedChooseNext_live consistent
  have kept := consistent.setRunning chosen.1 chosen.2
  refine ⟨kept.1, kept.2, schedChooseNext s, rfl, ?_, ?_⟩
  · rw [schedSetRunning_readyBitmap]
    constructor
    · intro isIdle
      by_contra ready
      have urgent := (schedChooseNext_urgent consistent ready).1
      exact consistent.ne_idle urgent.1 isIdle
    · exact schedChooseNext_idle
  · intro user
    have ready : s.readyBitmap ≠ 0 :=
      fun empty => user (schedChooseNext_idle empty)
    have urgent := (schedChooseNext_urgent consistent ready).1
    simpa [Sched.MostUrgent, Sched.BitSet, schedSetRunning_tasks] using urgent

end Running

section Calls

variable {s : Sched}

/-- `sched_init` leaves no created task and the idle task ready. -/
theorem schedInit_consistent
    (port : SchedPort)
    (before : Sched) :
    (schedInit port before).Consistent ∧ (schedInit port before).Settled := by
  refine ⟨⟨?_, ?_, ?_, ?_, ?_, ?_, ?_⟩, ?_⟩
  · simp [schedInit]
  · simp [schedInit]
  · simp [schedInit, Sched.BitSet, Sched.HasLiveAt]
  · intro i isTask
    have isIdle : i = schedIdleId := by
      simpa [schedInit, Sched.IsTask] using isTask
    simp [schedInit, isIdle]
  · simp [schedInit, SchedTcb.isLive]
  · simp [schedInit]
  · intro i isTask
    have isIdle : i = schedIdleId := by
      simpa [schedInit, Sched.IsTask] using isTask
    simp [schedInit, isIdle]
  · simp [schedInit, Sched.Settled]

/-- The round-robin index is no part of it. -/
theorem Sched.Consistent.rotate
    (consistent : s.Consistent)
    (priority : UInt8) :
    (s.rotate priority).Consistent :=
  ⟨consistent.room, consistent.priorities, consistent.bits, consistent.delays,
    consistent.idle, consistent.current, consistent.running⟩

/-- `sched_yield` selects a successor. -/
theorem schedYield_selected
    (consistent : s.Consistent) :
    (schedYield s).Selected := by
  cases current : s.currentTask with
  | none =>
      simpa [schedYield, current] using consistent.select
  | some i =>
      simpa [schedYield, current] using
        (consistent.rotate (s.tasks i).priority).select

/-- A rejected `sched_task_create` changes nothing. -/
theorem schedTaskCreate_rejected
    (port : SchedPort)
    (entry arg : UInt32)
    (priority : UInt8)
    (stackBase stackSize : UInt32)
    (s : Sched)
    (rejected :
      (schedTaskCreate port entry arg priority stackBase stackSize s).1 ≠ .ok) :
    (schedTaskCreate port entry arg priority stackBase stackSize s).2 = s := by
  unfold schedTaskCreate at rejected ⊢
  split_ifs at rejected ⊢ <;> first | rfl | exact absurd rfl rejected

/-- A created task is eligible to run, and its bit is set. -/
theorem schedTaskCreate_keeps
    (consistent : s.Consistent)
    (settled : s.Settled)
    (port : SchedPort)
    (entry arg : UInt32)
    (priority : UInt8)
    (stackBase stackSize : UInt32) :
    (schedTaskCreate port entry arg priority stackBase stackSize s).2.Consistent ∧
      (schedTaskCreate port entry arg priority stackBase stackSize s).2.Settled := by
  unfold schedTaskCreate
  split_ifs with noEntry noStack badPriority full
  iterate 4 exact ⟨consistent, settled⟩
  have small : priority.toNat < schedMaxPriorities := Nat.not_le.mp badPriority
  have room : s.taskCount < schedMaxTasks := Nat.not_le.mp full
  have idleOther : schedIdleId ≠ s.taskCount := Nat.ne_of_gt room
  -- the slot of the new task was not a task, so no other task changes
  have oldOther {i : Nat} (isTask : s.IsTask i) : i ≠ s.taskCount := by
    rcases isTask with created | isIdle
    · exact Nat.ne_of_lt created
    · exact isIdle ▸ idleOther
  have cases {i : Nat} (is : i < s.taskCount + 1 ∨ i = schedIdleId) :
      i = s.taskCount ∨ s.IsTask i := by
    rcases is with created | isIdle
    · rcases Nat.lt_succ_iff_lt_or_eq.mp created with old | new
      · exact Or.inr (Or.inl old)
      · exact Or.inl new
    · exact Or.inr (Or.inr isIdle)
  refine ⟨⟨?_, ?_, ?_, ?_, ?_, ?_, ?_⟩, ?_⟩
  · exact room
  · intro i created
    rcases cases (Or.inl created) with new | old
    · simpa [Sched.setTask, Sched.setBit, new] using small
    · have notIdle : i ≠ schedIdleId :=
        Nat.ne_of_lt (Nat.lt_of_lt_of_le created room)
      simpa [Sched.setTask, Sched.setBit, Function.update_of_ne (oldOther old)]
        using consistent.priorities i (old.resolve_right notIdle)
  · intro p
    refine (Sched.bitSet_setBit _ small p).trans ?_
    constructor
    · rintro (bit | new)
      · rcases (consistent.bits p).mp bit with ⟨i, created, live⟩
        refine ⟨i, Nat.lt_succ_of_lt created, ?_⟩
        simpa [Sched.setTask, Sched.setBit,
          Function.update_of_ne (Nat.ne_of_lt created)] using live
      · refine ⟨s.taskCount, Nat.lt_succ_self _, ?_⟩
        simp [Sched.setTask, Sched.setBit, new]
    · rintro ⟨i, created, live⟩
      rcases Nat.lt_succ_iff_lt_or_eq.mp created with old | new
      · have other : i ≠ s.taskCount := Nat.ne_of_lt old
        refine Or.inl ((consistent.bits p).mpr ⟨i, old, ?_⟩)
        simpa [Sched.setTask, Sched.setBit, other] using live
      · refine Or.inr ?_
        simpa [Sched.setTask, Sched.setBit, new, eq_comm] using live
  · intro i is
    rcases cases is with new | old
    · simp [Sched.setTask, Sched.setBit, new]
    · simpa [Sched.setTask, Sched.setBit, Function.update_of_ne (oldOther old)]
        using consistent.delays i old
  · simpa [Sched.setTask, Sched.setBit, Function.update_of_ne idleOther]
      using consistent.idle
  · intro i became
    rcases consistent.current i became with created | isIdle
    · exact Or.inl (Nat.lt_succ_of_lt created)
    · exact Or.inr isIdle
  · intro i is
    rcases cases is with new | old
    · simp [Sched.setTask, Sched.setBit, new]
    · simpa [Sched.setTask, Sched.setBit, Function.update_of_ne (oldOther old)]
        using consistent.running i old
  · intro i became
    simpa [Sched.setTask, Sched.setBit,
      Function.update_of_ne (oldOther (consistent.current i became))]
      using settled i became

/--
Changing the state of a created task, with its bit made to follow.

`keptBit` says what the bit of its priority must be; the other bits stay.
-/
theorem Sched.Consistent.setTask
    (consistent : s.Consistent)
    {i : Nat}
    (created : i < s.taskCount)
    {tcb : SchedTcb}
    (samePriority : tcb.priority = (s.tasks i).priority)
    (delays : 0 < tcb.delayTicks ↔ tcb.state = .blocked)
    (notRunning : tcb.state ≠ .running)
    {bitmap : BitVec 32}
    (bits :
      ∀ p, bitmap.getLsbD p = true ↔ (s.setTask i tcb).HasLiveAt p) :
    ({ s.setTask i tcb with readyBitmap := bitmap } : Sched).Consistent := by
  have idleOther : schedIdleId ≠ i := (consistent.ne_idle created).symm
  refine ⟨consistent.room, ?_, bits, ?_, ?_, consistent.current, ?_⟩
  · intro j inside
    have small := consistent.priorities j inside
    by_cases same : j = i
    · subst same
      simpa [Sched.setTask, samePriority] using small
    · simpa [Sched.setTask, same] using small
  · intro j isTask
    by_cases same : j = i
    · subst same
      simpa [Sched.setTask] using delays
    · simpa [Sched.setTask, same] using consistent.delays j isTask
  · simpa [Sched.setTask, idleOther] using consistent.idle
  · intro j isTask ran
    by_cases same : j = i
    · subst same
      simp [Sched.setTask, notRunning] at ran
    · exact consistent.running j isTask (by simpa [Sched.setTask, same] using ran)

/-- A change of a task that leaves the tasks eligible at `p` as they were. -/
theorem Sched.hasLiveAt_setTask
    {i : Nat}
    {tcb : SchedTcb}
    {p : Nat}
    (samePriority : tcb.priority = (s.tasks i).priority)
    (sameState :
      p = (s.tasks i).priority.toNat → tcb.state = (s.tasks i).state) :
    (s.setTask i tcb).HasLiveAt p ↔ s.HasLiveAt p := by
  have atEach (j : Nat) :
      ((s.setTask i tcb).tasks j).priority.toNat = p ∧
          (((s.setTask i tcb).tasks j).state = .ready ∨
            ((s.setTask i tcb).tasks j).state = .running) ↔
        (s.tasks j).priority.toNat = p ∧
          ((s.tasks j).state = .ready ∨ (s.tasks j).state = .running) := by
    by_cases same : j = i
    · subst same
      simp only [Sched.setTask, Function.update_self, samePriority]
      refine and_congr_right fun atP => ?_
      rw [sameState atP.symm]
    · simp [Sched.setTask, same]
  simp only [Sched.HasLiveAt, atEach]
  rfl

/-- `sched_update_bitmap_for` sets the bit as the tasks say. -/
theorem bitSet_schedUpdateBitmapFor
    {priority : UInt8}
    (small : priority.toNat < schedMaxPriorities)
    (p : Nat) :
    (schedUpdateBitmapFor s priority).BitSet p ↔
      if p = priority.toNat then s.HasLiveAt p else s.BitSet p := by
  unfold schedUpdateBitmapFor
  by_cases live : s.HasLiveAt priority.toNat
  · rw [if_pos (schedCountReadyAt_pos.mpr live), s.bitSet_setBit small]
    by_cases same : p = priority.toNat <;> simp [same, live]
  · rw [if_neg (mt schedCountReadyAt_pos.mp live), s.bitSet_clearBit small]
    by_cases same : p = priority.toNat <;> simp [same, live]

/-- `sched_update_bitmap_for` changes the bitmap only. -/
theorem schedUpdateBitmapFor_eq
    (priority : UInt8) :
    schedUpdateBitmapFor s priority =
      { s with
        readyBitmap := (schedUpdateBitmapFor s priority).readyBitmap } := by
  unfold schedUpdateBitmapFor
  split <;> rfl

/-- `sched_delay` by a created task blocks it and selects a successor. -/
theorem schedDelay_selected
    (consistent : s.Consistent)
    {i : Nat}
    (created : i < s.taskCount)
    (current : s.currentTask = some i)
    (ticks : UInt32) :
    (schedDelay ticks s).Selected := by
  by_cases immediate : ticks = 0
  · simpa [schedDelay, immediate] using schedYield_selected consistent
  have small := consistent.priorities i created
  have delayed :
      (schedUpdateBitmapFor
        (s.setTask i
          { s.tasks i with state := .blocked, delayTicks := ticks })
        (s.tasks i).priority).Consistent := by
    rw [schedUpdateBitmapFor_eq]
    refine consistent.setTask created ?_ ?_ ?_ ?_
    · rfl
    · simpa using UInt32.pos_iff_ne_zero.mpr immediate
    · simp
    · intro p
      refine (bitSet_schedUpdateBitmapFor small p).trans ?_
      by_cases same : p = (s.tasks i).priority.toNat
      · rw [if_pos same]
      · rw [if_neg same, Sched.hasLiveAt_setTask ?_ (absurd · same)]
        · exact consistent.bits p
        · rfl
  have selected := delayed.select
  simpa [schedDelay, immediate, current, consistent.ne_idle created] using
    selected

/-- `sched_delay` that is not a created task's changes nothing. -/
theorem schedDelay_other
    (consistent : s.Consistent)
    {ticks : UInt32}
    (later : ticks ≠ 0)
    (other : ∀ i < s.taskCount, s.currentTask ≠ some i) :
    schedDelay ticks s = s := by
  rw [schedDelay, if_neg later]
  cases current : s.currentTask with
  | none =>
      rfl
  | some i =>
      rcases consistent.current i current with created | isIdle
      · exact absurd current (other i created)
      · simp [isIdle]

/-- One round of the loop of `sched_tick`. -/
theorem schedTickTask_keeps
    (consistent : s.Consistent)
    (settled : s.Settled)
    (needSwitch : Bool)
    {i : Nat}
    (created : i < s.taskCount) :
    (schedTickTask (s, needSwitch) i).1.Consistent ∧
      (schedTickTask (s, needSwitch) i).1.Settled ∧
      (schedTickTask (s, needSwitch) i).1.taskCount = s.taskCount ∧
      (schedTickTask (s, needSwitch) i).1.currentTask = s.currentTask := by
  unfold schedTickTask
  by_cases waits : (s.tasks i).state = .blocked ∧ (s.tasks i).delayTicks > 0
  swap
  · simpa [waits] using ⟨consistent, settled⟩
  have notCurrent {j : Nat} (current : s.currentTask = some j) : j ≠ i := by
    rintro rfl
    simp [settled j current] at waits
  by_cases last : (s.tasks i).delayTicks - 1 = 0
  · have small := consistent.priorities i created
    have woken :
        ((s.setTask i
          { s.tasks i with delayTicks := 0, state := .ready }).setBit
            (s.tasks i).priority).Consistent := by
      refine consistent.setTask created ?_ ?_ ?_ ?_
      · rfl
      · simp
      · simp
      · intro p
        refine (Sched.bitSet_setBit _ small p).trans ?_
        by_cases same : p = (s.tasks i).priority.toNat
        · refine iff_of_true (Or.inr same) ⟨i, created, ?_⟩
          simp [Sched.setTask, same]
        · rw [Sched.hasLiveAt_setTask ?_ (absurd · same), ← consistent.bits p]
          · simp [same, Sched.BitSet, Sched.setTask]
          · rfl
    simp only [if_pos waits, if_pos last]
    refine ⟨woken, ?_, rfl, rfl⟩
    intro j current
    simpa [Sched.setBit, Sched.setTask, notCurrent current] using
      settled j current
  · have counted :
        ({ s.setTask i
            { s.tasks i with delayTicks := (s.tasks i).delayTicks - 1 } with
          readyBitmap := s.readyBitmap } : Sched).Consistent := by
      refine consistent.setTask created ?_ ?_ ?_ ?_
      · rfl
      · simpa [waits.1] using UInt32.pos_iff_ne_zero.mpr last
      · simp [waits.1]
      · intro p
        refine (consistent.bits p).trans (Sched.hasLiveAt_setTask ?_ ?_).symm
        · rfl
        · exact fun _ => rfl
    simp only [if_pos waits, if_neg last]
    refine ⟨counted, ?_, rfl, rfl⟩
    intro j current
    simpa [Sched.setTask, notCurrent current] using settled j current

/-- The loop of `sched_tick`, up to any task. -/
theorem schedTickTasks_keep
    (indices : List Nat)
    (progress : Sched × Bool)
    (consistent : progress.1.Consistent)
    (settled : progress.1.Settled)
    (created : ∀ i ∈ indices, i < progress.1.taskCount) :
    (indices.foldl schedTickTask progress).1.Consistent ∧
      (indices.foldl schedTickTask progress).1.Settled ∧
      (indices.foldl schedTickTask progress).1.currentTask =
        progress.1.currentTask := by
  induction indices generalizing progress with
  | nil =>
      exact ⟨consistent, settled, rfl⟩
  | cons i rest inductionHypothesis =>
      have kept :=
        schedTickTask_keeps consistent settled progress.2
          (created i List.mem_cons_self)
      have later :=
        inductionHypothesis _ kept.1 kept.2.1 fun j member =>
          kept.2.2.1 ▸ created j (List.mem_cons_of_mem i member)
      exact ⟨later.1, later.2.1, later.2.2.trans kept.2.2.2⟩

/-- `sched_tick` wakes tasks, and selects none. -/
theorem schedTick_keeps
    (consistent : s.Consistent)
    (settled : s.Settled) :
    (schedTick s).1.Consistent ∧ (schedTick s).1.Settled ∧
      (schedTick s).1.currentTask = s.currentTask := by
  have ticked :
      ({ s with tickCount := s.tickCount + 1 } : Sched).Consistent :=
    ⟨consistent.room, consistent.priorities, consistent.bits,
      consistent.delays, consistent.idle, consistent.current,
      consistent.running⟩
  have kept :=
    schedTickTasks_keep (List.range s.taskCount)
      ({ s with tickCount := s.tickCount + 1 }, false) ticked settled
      fun _ member => List.mem_range.mp member
  unfold schedTick
  generalize
    (List.range s.taskCount).foldl schedTickTask
      ({ s with tickCount := s.tickCount + 1 }, false) = progress at kept ⊢
  rcases progress with ⟨after, needSwitch⟩
  dsimp only at kept ⊢
  cases afterCurrent : after.currentTask with
  | none =>
      exact kept
  | some current =>
      dsimp only
      split
      · exact ⟨kept.1.rotate _, kept.2⟩
      · exact kept

end Calls

section Runs

variable {s : Sched}

/-- The call selects a successor; a delay does when a created task issues it. -/
def Sched.Selects (s : Sched) : SchedAction → Prop
  | .start => True
  | .yield => True
  | .delay ticks => ticks = 0 ∨ ∃ i < s.taskCount, s.currentTask = some i
  | .create .. => False
  | .tick => False

/-- Every call that selects a successor selects the most urgent task. -/
theorem schedStep_selected
    (consistent : s.Consistent)
    (port : SchedPort)
    {action : SchedAction}
    (selects : s.Selects action) :
    (schedStep port s action).1.Selected := by
  cases action with
  | create =>
      exact selects.elim
  | start =>
      exact consistent.select
  | yield =>
      exact schedYield_selected consistent
  | delay ticks =>
      rcases selects with rfl | ⟨i, created, current⟩
      · exact schedYield_selected consistent
      · exact schedDelay_selected consistent created current ticks
  | tick =>
      exact selects.elim

/-- Every call leaves what it found, and a current task once there is one. -/
theorem schedStep_keeps
    (consistent : s.Consistent)
    (settled : s.Settled)
    (port : SchedPort)
    (action : SchedAction) :
    (schedStep port s action).1.Consistent ∧
      (schedStep port s action).1.Settled ∧
      (s.currentTask ≠ none ∨ action = .start →
        (schedStep port s action).1.currentTask ≠ none) := by
  by_cases selects : s.Selects action
  · have selected := schedStep_selected consistent port selects
    rcases selected.urgent with ⟨i, current, _⟩
    exact ⟨selected.consistent, selected.settled, fun _ => by simp [current]⟩
  cases action with
  | start =>
      exact (selects trivial).elim
  | yield =>
      exact (selects trivial).elim
  | create entry arg priority stackBase stackSize =>
      have kept :=
        schedTaskCreate_keeps consistent settled port entry arg priority
          stackBase stackSize
      refine ⟨kept.1, kept.2, fun some => ?_⟩
      simp only [schedStep, schedTaskCreate]
      simp only [reduceCtorEq, or_false] at some
      split_ifs <;> exact some
  | delay ticks =>
      have unchanged : schedDelay ticks s = s := by
        refine schedDelay_other consistent (fun zero => ?_) ?_
        · exact selects (Or.inl zero)
        · exact fun i created current => selects (Or.inr ⟨i, created, current⟩)
      simpa [schedStep, unchanged] using ⟨consistent, settled⟩
  | tick =>
      have kept := schedTick_keeps consistent settled
      refine ⟨kept.1, kept.2.1, fun some => ?_⟩
      simp only [reduceCtorEq, or_false] at some
      exact kept.2.2 ▸ some

/-- Every sequence of calls leaves what it found. -/
theorem schedFinal_keeps
    (port : SchedPort)
    (actions : List SchedAction)
    (consistent : s.Consistent)
    (settled : s.Settled) :
    (Machine.final (schedStep port) s actions).Consistent ∧
      (Machine.final (schedStep port) s actions).Settled ∧
      (s.currentTask ≠ none ∨ .start ∈ actions →
        (Machine.final (schedStep port) s actions).currentTask ≠ none) := by
  induction actions generalizing s with
  | nil =>
      exact ⟨consistent, settled, fun some => by simpa using some⟩
  | cons action rest inductionHypothesis =>
      have kept := schedStep_keeps consistent settled port action
      have later := inductionHypothesis kept.1 kept.2.1
      refine ⟨later.1, later.2.1, fun started => later.2.2 ?_⟩
      rw [List.mem_cons] at started
      rcases started with some | here | there
      · exact Or.inl (kept.2.2 (Or.inl some))
      · exact Or.inl (kept.2.2 (Or.inr here.symm))
      · exact Or.inr there

/--
Bitmap, states, delays and current task agree in every reachable state.

`before` is what the statics held before `sched_init`.
-/
theorem ready_bitmap_follows_the_tasks
    (port : SchedPort)
    (before : Sched)
    (actions : List SchedAction) :
    let s := schedRun port before actions
    (∀ p, s.BitSet p ↔ s.HasLiveAt p) ∧
      (.start ∈ actions →
        ∃ current, s.currentTask = some current ∧ s.IsTask current ∧
          ∀ i, s.IsTask i → ((s.tasks i).state = .running ↔ i = current)) ∧
      (∀ i, s.IsTask i →
        (0 < (s.tasks i).delayTicks ↔ (s.tasks i).state = .blocked)) ∧
      (∀ current, s.currentTask = some current →
        (s.tasks current).state ≠ .blocked) ∧
      (∀ entry arg priority stackBase stackSize,
        (schedTaskCreate port entry arg priority stackBase stackSize s).1 ≠
            .ok →
          (schedTaskCreate port entry arg priority stackBase stackSize s).2 =
            s) ∧
      ∀ action, s.Selects action →
        let after := (schedStep port s action).1
        ∃ current, after.currentTask = some current ∧
          (current = schedIdleId ↔ after.readyBitmap = 0) ∧
          (current ≠ schedIdleId → after.MostUrgent current) := by
  have first := schedInit_consistent port before
  have kept := schedFinal_keeps port actions first.1 first.2
  have consistent : (schedRun port before actions).Consistent := kept.1
  have settled : (schedRun port before actions).Settled := kept.2.1
  refine ⟨consistent.bits, ?_, consistent.delays, ?_, ?_, ?_⟩
  · intro started
    rcases Option.ne_none_iff_exists'.mp (kept.2.2 (Or.inr started)) with
      ⟨current, isCurrent⟩
    refine ⟨current, isCurrent, consistent.current current isCurrent, ?_⟩
    intro i isTask
    constructor
    · intro ran
      have same := (consistent.running i isTask ran).symm.trans isCurrent
      exact Option.some.inj same
    · rintro rfl
      exact settled i isCurrent
  · intro current isCurrent blocked
    simp [settled current isCurrent] at blocked
  · exact fun entry arg priority stackBase stackSize =>
      schedTaskCreate_rejected port entry arg priority stackBase stackSize _
  · intro action selects
    exact (schedStep_selected consistent port selects).urgent

end Runs

end TraveoBodyDomain
