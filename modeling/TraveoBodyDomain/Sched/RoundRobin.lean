import TraveoBodyDomain.Lib.Rotation
import TraveoBodyDomain.Sched.Preempt

/-!
# Round-robin among equals

The index of a priority goes round the task table, and picks by its remainder
among the tasks that are eligible to run at that priority.  Where their number
does not divide the size of the table, a turn is lost each time the index starts
again.
-/

namespace TraveoBodyDomain

/-- What moves the index on: a yield, or a tick with the switch it asks for. -/
inductive SchedRotation where
  | yield
  | tick
  deriving Repr, DecidableEq

/-- One rotation; `none` is a tick that asks for no switch. -/
def schedRotate (s : Sched) : SchedRotation → Option Sched
  | .yield => some (schedYield s)
  | .tick =>
      if (schedTick s).2 = true then
        some (schedSwitch (schedTick s).1)
      else
        none

/-- The states that some consecutive rotations lead through. -/
def schedRotations : Sched → List SchedRotation → Option (List Sched)
  | _, [] => some []
  | s, rotation :: rest =>
      match schedRotate s rotation with
      | none => none
      | some after => (schedRotations after rest).map (after :: ·)

/-- `ring` are the tasks eligible to run at the most urgent ready priority. -/
def Sched.Ring (priority : UInt8) (ring : List Nat) (s : Sched) : Prop :=
  schedFindHighestReadyPriority s = some priority ∧
    schedReadyAt s priority = ring

/-- The index by which the next rotation selects at a priority. -/
def Sched.nextIndex (s : Sched) (priority : UInt8) (current : Nat) : Nat :=
  if (s.tasks current).priority = priority then
    ((s.rrIndex priority).toNat + 1) % schedMaxTasks
  else
    (s.rrIndex priority).toNat

section Rotation

variable {s : Sched} {priority : UInt8} {ring : List Nat}

/-- The index that is moved on goes round the table. -/
theorem rotate_rrIndex
    (s : Sched)
    (priority : UInt8)
    (small : (s.rrIndex priority).toNat < schedMaxTasks) :
    ((s.rotate priority).rrIndex priority).toNat =
      ((s.rrIndex priority).toNat + 1) % schedMaxTasks := by
  change (s.rrIndex priority).toNat < 8 at small
  simp only [Sched.rotate, Function.update_self, UInt8.toNat_mod,
    UInt8.toNat_add]
  change ((s.rrIndex priority).toNat + 1) % 256 % 8 = _
  rw [Nat.mod_eq_of_lt (by omega : (s.rrIndex priority).toNat + 1 < 256)]
  rfl

/-- An index of another priority stays. -/
theorem rotate_rrIndex_of_ne
    (s : Sched)
    {moved : UInt8}
    (other : priority ≠ moved) :
    (s.rotate moved).rrIndex priority = s.rrIndex priority :=
  Function.update_of_ne other _ _

/-- The selection from a ring. -/
theorem Sched.Ring.chosen
    (isRing : s.Ring priority ring)
    (positive : 0 < ring.length) :
    some (schedChooseNext s) =
      ring[(s.rrIndex priority).toNat % ring.length]? := by
  have inside : (s.rrIndex priority).toNat % ring.length < ring.length :=
    Nat.mod_lt _ positive
  have picked :
      schedPickTaskAtPriority s priority =
        ring[(s.rrIndex priority).toNat % ring.length]? := by
    rw [schedPickTaskAtPriority, isRing.2]
    exact if_neg (Nat.ne_of_gt positive)
  rw [schedChooseNext, isRing.1]
  dsimp only
  rw [picked, List.getElem?_eq_getElem inside]
  rfl

/-- A most urgent ready priority has a task that is eligible to run. -/
theorem Sched.Ring.positive
    (isRing : s.Ring priority ring)
    (consistent : s.Consistent) :
    0 < ring.length := by
  rw [← isRing.2]
  exact
    schedCountReadyAt_pos.mpr
      ((consistent.bits _).mp (schedFindHighestReadyPriority_spec isRing.1).1)

/-- A selection leaves the ring as it was. -/
theorem Sched.Consistent.ring_switch
    (consistent : s.Consistent) :
    (schedSwitch s).Ring priority ring ↔ s.Ring priority ring := by
  have live := (schedChooseNext_live consistent).2
  have sameReady : schedReadyAt (schedSwitch s) priority = schedReadyAt s priority := by
    rw [schedReadyAt, schedReadyAt, schedSwitch, schedSetRunning_taskCount]
    refine List.filter_congr fun i _ => ?_
    rw [schedSetRunning_priority, schedSetRunning_live live]
  have sameHighest :
      schedFindHighestReadyPriority (schedSwitch s) =
        schedFindHighestReadyPriority s := by
    rw [schedFindHighestReadyPriority, schedFindHighestReadyPriority, schedSwitch,
      schedSetRunning_readyBitmap]
  rw [Sched.Ring, Sched.Ring, sameReady, sameHighest]

/-- A switch selects from the ring, and stays at its priority. -/
theorem Sched.Consistent.switch_ring
    (consistent : s.Consistent)
    (isRing : (schedSwitch s).Ring priority ring) :
    ∃ next,
      (schedSwitch s).currentTask = some next ∧
        some next = ring[(s.rrIndex priority).toNat % ring.length]? ∧
          ((schedSwitch s).tasks next).priority = priority := by
  have before := consistent.ring_switch.mp isRing
  have chosen := before.chosen (before.positive consistent)
  refine ⟨schedChooseNext s, rfl, chosen, ?_⟩
  have member : schedChooseNext s ∈ ring :=
    List.mem_of_getElem? chosen.symm
  rw [← isRing.2] at member
  exact (mem_schedReadyAt.mp member).2.1

/-- A tick that asks for a switch, with the ring unopposed behind it. -/
theorem schedTick_nextIndex
    {current : Nat}
    (sound : s.Sound)
    (small : priority.toNat < schedMaxPriorities)
    (isCurrent : s.currentTask = some current)
    (asked : (schedTick s).2 = true)
    (isRing : (schedTick s).1.Ring priority ring) :
    ((schedTick s).1.rrIndex priority).toNat =
      s.nextIndex priority current := by
  have ticked := schedTick_spec isCurrent
  rw [ticked.rrIndex, Sched.nextIndex]
  by_cases atPriority : (s.tasks current).priority = priority
  · have several : 1 < (s.awakeAt (s.tasks current).priority).length := by
      refine (ticked.needSwitch.mp asked).resolve_left ?_
      -- a task that wakes at a lower value would be ahead of the ring
      rintro ⟨i, created, due, lower⟩
      have after := sound.tick.consistent
      have live : ((schedTick s).1.tasks i).isLive = true := by
        rw [schedTick_tasks, if_pos created]
        exact SchedTcb.counted_live.mpr (Or.inr due)
      have bit :=
        after.bitSet_of_live (ticked.taskCount.symm ▸ created) live
      have least := (schedFindHighestReadyPriority_spec isRing.1).2 _ bit
      rw [schedTick_priority, ← atPriority] at least
      exact absurd least (Nat.not_le.mpr (UInt8.lt_iff_toNat_lt.mp lower))
    rw [if_pos several, if_pos atPriority, atPriority]
    exact rotate_rrIndex s priority (sound.indices priority small)
  · rw [if_neg atPriority]
    split
    · rw [rotate_rrIndex_of_ne s (Ne.symm atPriority)]
    · rfl

/-- One rotation: it selects by the next index, and leaves the index there. -/
theorem schedRotate_spec
    {current : Nat}
    (sound : s.Sound)
    (small : priority.toNat < schedMaxPriorities)
    (isCurrent : s.currentTask = some current)
    {rotation : SchedRotation}
    {after : Sched}
    (rotated : schedRotate s rotation = some after)
    (isRing : after.Ring priority ring) :
    after.Sound ∧
      ∃ next,
        after.currentTask = some next ∧
          some next = ring[s.nextIndex priority current % ring.length]? ∧
            (after.rrIndex priority).toNat = s.nextIndex priority current ∧
              (after.tasks next).priority = priority := by
  have selected
      {x : Sched}
      (x_sound : x.Sound)
      (isSwitch : after = schedSwitch x)
      (index : (x.rrIndex priority).toNat = s.nextIndex priority current) :
      after.Sound ∧
        ∃ next,
          after.currentTask = some next ∧
            some next = ring[s.nextIndex priority current % ring.length]? ∧
              (after.rrIndex priority).toNat = s.nextIndex priority current ∧
                (after.tasks next).priority = priority := by
    subst isSwitch
    obtain ⟨next, isNext, pick, atPriority⟩ :=
      x_sound.consistent.switch_ring isRing
    rw [index] at pick
    refine ⟨x_sound.switch, next, isNext, pick, ?_, atPriority⟩
    rw [schedSwitch, schedSetRunning_rrIndex, index]
  cases rotation with
  | yield =>
      have isSwitch : after = schedYield s := (Option.some.inj rotated).symm
      rw [schedYield_eq, isCurrent] at isSwitch
      refine selected (sound.rotate _) isSwitch ?_
      rw [Sched.nextIndex]
      by_cases atPriority : (s.tasks current).priority = priority
      · rw [if_pos atPriority, atPriority]
        exact rotate_rrIndex s priority (sound.indices priority small)
      · rw [if_neg atPriority, rotate_rrIndex_of_ne s (Ne.symm atPriority)]
  | tick =>
      by_cases asked : (schedTick s).2 = true
      · have isSwitch : after = schedSwitch (schedTick s).1 := by
          rw [schedRotate, if_pos asked] at rotated
          exact (Option.some.inj rotated).symm
        refine selected sound.tick isSwitch ?_
        rw [isSwitch] at isRing
        exact
          schedTick_nextIndex sound small isCurrent asked
            (sound.tick.consistent.ring_switch.mp isRing)
      · rw [schedRotate, if_neg asked] at rotated
        cases rotated

/-- The next index is inside the table. -/
theorem Sched.Sound.nextIndex_lt
    (sound : s.Sound)
    (small : priority.toNat < schedMaxPriorities)
    (current : Nat) :
    s.nextIndex priority current < schedMaxTasks := by
  rw [Sched.nextIndex]
  split
  · exact Nat.mod_lt _ (by decide)
  · exact sound.indices priority small

/-- Consecutive rotations of a ring that stays go round the table. -/
theorem schedRotations_walk
    {current : Nat}
    {rotations : List SchedRotation}
    {states : List Sched}
    (sound : s.Sound)
    (small : priority.toNat < schedMaxPriorities)
    (isCurrent : s.currentTask = some current)
    (rotated : schedRotations s rotations = some states)
    (stays : ∀ state ∈ states, state.Ring priority ring) :
    states.length = rotations.length ∧
      Rotation.Walks schedMaxTasks (s.nextIndex priority current)
        (ring.map some) (states.map Sched.currentTask) := by
  induction rotations generalizing s current states with
  | nil =>
      cases rotated
      exact ⟨rfl, fun j below => (Nat.not_lt_zero j below).elim⟩
  | cons rotation rest inductionHypothesis =>
      rw [schedRotations] at rotated
      cases first : schedRotate s rotation with
      | none =>
          rw [first] at rotated
          cases rotated
      | some after =>
          rw [first] at rotated
          obtain ⟨later, ran, rfl⟩ := Option.map_eq_some_iff.mp rotated
          obtain ⟨afterSound, next, isNext, pick, index, atPriority⟩ :=
            schedRotate_spec sound small isCurrent first
              (stays after List.mem_cons_self)
          obtain ⟨length, walks⟩ :=
            inductionHypothesis afterSound isNext ran
              fun state member => stays state (List.mem_cons_of_mem _ member)
          refine ⟨congrArg (· + 1) length, ?_⟩
          have inTable := sound.nextIndex_lt small current
          have moved :
              after.nextIndex priority next =
                (s.nextIndex priority current + 1) % schedMaxTasks := by
            rw [Sched.nextIndex, if_pos atPriority, index]
          intro j below
          cases j with
          | zero =>
              rw [List.map_cons, List.getElem?_cons_zero, isNext,
                List.length_map, Nat.add_zero, Nat.mod_eq_of_lt inTable,
                List.getElem?_map, ← pick]
              rfl
          | succ j =>
              have step :=
                walks j (Nat.lt_of_succ_lt_succ below)
              rw [List.map_cons, List.getElem?_cons_succ, step, moved,
                Nat.mod_add_mod, Nat.add_assoc, Nat.add_comm 1 j]

end Rotation

/--
From every reachable state and for every run of rotations in which `ring` stays
the tasks that are READY or RUNNING at the most urgent ready priority: each has
its turn once in every window as long as the ring exactly when their number
divides the size of the task table, or the index starts again in no window.
-/
theorem rotations_are_fair_iff
    (port : SchedPort)
    (before : Sched)
    (calls : List SchedCall)
    {current : Nat}
    {priority : UInt8}
    {ring : List Nat}
    {rotations : List SchedRotation}
    {states : List Sched}
    (isCurrent :
      (schedCalls port (schedInit port before) calls).currentTask =
        some current)
    (rotated :
      schedRotations (schedCalls port (schedInit port before) calls)
          rotations =
        some states)
    (stays :
      ∀ state ∈ schedCalls port (schedInit port before) calls :: states,
        state.Ring priority ring) :
    Rotation.Fair (ring.map some) (states.map Sched.currentTask) ↔
      ring.length ∣ schedMaxTasks ∨
        ∀ start,
          start + ring.length ≤ rotations.length →
            ((schedCalls port (schedInit port before) calls).nextIndex priority
                  current + start) % schedMaxTasks + ring.length ≤
              schedMaxTasks := by
  have sound := (schedInit_sound port before).calls port calls
  generalize schedCalls port (schedInit port before) calls = s
    at isCurrent rotated stays sound ⊢
  have isRing := stays s List.mem_cons_self
  have small : priority.toNat < schedMaxPriorities :=
    BitVec.lt_of_getLsbD (schedFindHighestReadyPriority_spec isRing.1).1
  have distinct : ring.Nodup := by
    rw [← isRing.2]
    exact List.nodup_range.filter _
  have room : ring.length ≤ schedMaxTasks := by
    rw [← isRing.2]
    refine Nat.le_trans (List.length_filter_le _ _) ?_
    rw [List.length_range]
    exact sound.consistent.room
  obtain ⟨length, walks⟩ :=
    schedRotations_walk sound small isCurrent rotated
      fun state member => stays state (List.mem_cons_of_mem _ member)
  have fair :=
    walks.fair_iff (distinct.map (Option.some_injective Nat))
      (by rw [List.length_map]; exact isRing.positive sound.consistent)
      (by rw [List.length_map]; exact room)
  rw [List.length_map, List.length_map, length] at fair
  exact fair

instance Sched.Ring.decidable (priority : UInt8) (ring : List Nat) (s : Sched) :
    Decidable (s.Ring priority ring) :=
  inferInstanceAs (Decidable (_ ∧ _))

/-- Some tasks of priority 1, and the start. -/
def equalTasks (count : Nat) : Sched :=
  schedCalls stackPort (schedInit stackPort zeroedSched)
    (List.replicate count (.call (.create 0x200 0 1 0x3000 64)) ++
      [.call .start])

/-- Two tasks take turns by yields and ticks. -/
theorem two_tasks_take_turns :
    ∃ states,
      schedRotations (equalTasks 2) [.yield, .tick, .tick] = some states ∧
        Rotation.Fair ([0, 1].map some) (states.map Sched.currentTask) := by
  have runs :
      (schedRotations (equalTasks 2) [.yield, .tick, .tick]).map
          (fun states =>
            decide (∀ state ∈ equalTasks 2 :: states, state.Ring 1 [0, 1])) =
        some true := by
    decide +kernel
  obtain ⟨states, rotated, stays⟩ := Option.map_eq_some_iff.mp runs
  refine ⟨states, rotated, ?_⟩
  exact
    (rotations_are_fair_iff stackPort zeroedSched _
      (by decide +kernel : (equalTasks 2).currentTask = some 0) rotated
      (of_decide_eq_true stays)).mpr (Or.inl (by decide))

/-- Where the index starts again, one of three tasks loses its turn. -/
theorem one_of_three_loses_its_turn :
    ∃ states,
      schedRotations (equalTasks 3) (List.replicate 8 .yield) = some states ∧
        (∀ state ∈ equalTasks 3 :: states, state.Ring 1 [0, 1, 2]) ∧
          ((states.map Sched.currentTask).drop 5).take 3 =
              [some 0, some 1, some 0] ∧
            ¬Rotation.Fair ([0, 1, 2].map some)
              (states.map Sched.currentTask) := by
  have runs :
      (schedRotations (equalTasks 3) (List.replicate 8 .yield)).map
          (fun states =>
            (decide
                (∀ state ∈ equalTasks 3 :: states, state.Ring 1 [0, 1, 2]),
              states.length,
              ((states.map Sched.currentTask).drop 5).take 3)) =
        some (true, 8, [some 0, some 1, some 0]) := by
    decide +kernel
  obtain ⟨states, rotated, seen⟩ := Option.map_eq_some_iff.mp runs
  obtain ⟨stays, length, picks⟩ :=
    (Prod.mk.injEq ..).mp seen |>.imp_right (Prod.mk.injEq ..).mp
  refine ⟨states, rotated, of_decide_eq_true stays, picks, fun fair => ?_⟩
  have inside :
      5 + (([0, 1, 2] : List Nat).map some).length ≤
        (states.map Sched.currentTask).length := by
    rw [List.length_map, List.length_map, length]
    decide
  have turn := fair 5 inside (some 2) (by decide)
  have three : (([0, 1, 2] : List Nat).map some).length = 3 := rfl
  rw [three, picks] at turn
  exact absurd turn (by decide)

end TraveoBodyDomain
