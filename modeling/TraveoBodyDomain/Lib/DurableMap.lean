import Mathlib.Tactic.Common
import Mathlib.Logic.Function.Basic

/-!
# A durable map whose commits may fail

The map survives a power loss.  A commit either is acknowledged, and then the
value is durable, or it fails, and then either the old or the attempted value
is what survives.  The environment schedules the outcomes.  The map also keeps
the commits acknowledged since it was last armed, so that a run can report
them.
-/

/-- What the environment makes of one commit. -/
inductive CommitOutcome where
  | acknowledged
  | failedOld
  | failedNew
  deriving Repr, DecidableEq

/-- Durable values, the outcomes still scheduled, the commits acknowledged. -/
structure DurableMap (Key Value : Type) where
  slot : Key → Option Value
  outcomes : List CommitOutcome
  acknowledged : List (Key × Value)

namespace DurableMap

variable {Key Value : Type}

/-- A map in which nothing was ever committed. -/
def blank : DurableMap Key Value where
  slot := fun _ => none
  outcomes := []
  acknowledged := []

/-- Schedule the outcomes of the next calls and forget what was reported. -/
def arm (outcomes : List CommitOutcome) (map : DurableMap Key Value) :
    DurableMap Key Value :=
  { map with outcomes := outcomes, acknowledged := [] }

/-- The outcome of the next commit; a schedule that ran out acknowledges. -/
def nextOutcome (map : DurableMap Key Value) : CommitOutcome :=
  map.outcomes.headD .acknowledged

/-- No commit still scheduled fails. -/
def Reliable (map : DurableMap Key Value) : Prop :=
  ∀ outcome ∈ map.outcomes, outcome = .acknowledged

/-- Commit `value` under `key`, as the schedule decides. -/
def commit [DecidableEq Key]
    (map : DurableMap Key Value)
    (key : Key)
    (value : Value) :
    Bool × DurableMap Key Value :=
  match map.nextOutcome with
  | .acknowledged =>
      (true,
        { slot := Function.update map.slot key (some value)
          outcomes := map.outcomes.tail
          acknowledged := map.acknowledged ++ [(key, value)] })
  | .failedOld =>
      (false, { map with outcomes := map.outcomes.tail })
  | .failedNew =>
      (false,
        { map with
          slot := Function.update map.slot key (some value)
          outcomes := map.outcomes.tail })

@[simp] theorem arm_slot
    (outcomes : List CommitOutcome)
    (map : DurableMap Key Value) :
    (map.arm outcomes).slot = map.slot :=
  rfl

@[simp] theorem arm_acknowledged
    (outcomes : List CommitOutcome)
    (map : DurableMap Key Value) :
    (map.arm outcomes).acknowledged = [] :=
  rfl

@[simp] theorem arm_nextOutcome
    (outcomes : List CommitOutcome)
    (map : DurableMap Key Value) :
    (map.arm outcomes).nextOutcome = outcomes.headD .acknowledged :=
  rfl

@[simp] theorem arm_outcomes
    (outcomes : List CommitOutcome)
    (map : DurableMap Key Value) :
    (map.arm outcomes).outcomes = outcomes :=
  rfl

section Commit

variable [DecidableEq Key]
  {map next : DurableMap Key Value}
  {key : Key}
  {value : Value}

/-- An acknowledged commit is durable and reported. -/
theorem commit_true
    (committed : map.commit key value = (true, next)) :
    next.slot = Function.update map.slot key (some value) ∧
      next.acknowledged = map.acknowledged ++ [(key, value)] := by
  unfold commit at committed
  cases outcome : map.nextOutcome <;> simp [outcome] at committed
  subst next
  exact ⟨rfl, rfl⟩

/-- A failed commit leaves the old or the attempted value and reports nothing. -/
theorem commit_false
    (failed : map.commit key value = (false, next)) :
    (next.slot = map.slot ∨
        next.slot = Function.update map.slot key (some value)) ∧
      next.acknowledged = map.acknowledged := by
  unfold commit at failed
  cases outcome : map.nextOutcome <;> simp [outcome] at failed
  · subst next
    exact ⟨Or.inl rfl, rfl⟩
  · subst next
    exact ⟨Or.inr rfl, rfl⟩

/-- A commit scheduled to fail with the old value kept changes nothing. -/
theorem commit_failedOld
    {succeeded : Bool}
    (kept : map.nextOutcome = .failedOld)
    (committed : map.commit key value = (succeeded, next)) :
    succeeded = false ∧ next.slot = map.slot := by
  unfold commit at committed
  simp only [kept] at committed
  cases committed
  exact ⟨rfl, rfl⟩

/-- A commit succeeds exactly when the schedule says so. -/
theorem commit_fst :
    (map.commit key value).1 = true ↔ map.nextOutcome = .acknowledged := by
  unfold commit
  cases map.nextOutcome <;> simp

/-- A commit takes one outcome off the schedule. -/
theorem commit_outcomes :
    (map.commit key value).2.outcomes = map.outcomes.tail := by
  unfold commit
  cases map.nextOutcome <;> rfl

/-- A map on which no scheduled commit fails acknowledges, and stays so. -/
theorem commit_reliable
    (reliable : map.Reliable) :
    ∃ next,
      map.commit key value = (true, next) ∧ next.Reliable := by
  have acknowledges : map.nextOutcome = .acknowledged := by
    unfold nextOutcome
    cases schedule : map.outcomes with
    | nil =>
        rfl
    | cons first rest =>
        exact reliable first (by simp [schedule])
  unfold commit
  rw [acknowledges]
  refine ⟨_, rfl, ?_⟩
  intro outcome member
  exact reliable outcome (List.mem_of_mem_tail member)

/-- A commit never touches another key. -/
theorem commit_slot_other
    {succeeded : Bool}
    (committed : map.commit key value = (succeeded, next))
    {other : Key}
    (different : other ≠ key) :
    next.slot other = map.slot other := by
  cases succeeded with
  | true =>
      rw [(commit_true committed).1, Function.update_of_ne different]
  | false =>
      rcases (commit_false committed).1 with kept | replaced
      · rw [kept]
      · rw [replaced, Function.update_of_ne different]

/-- After a commit its key holds the attempted or the old value. -/
theorem commit_slot_same
    {succeeded : Bool}
    (committed : map.commit key value = (succeeded, next)) :
    next.slot key = some value ∨ next.slot key = map.slot key := by
  cases succeeded with
  | true =>
      left
      rw [(commit_true committed).1, Function.update_self]
  | false =>
      rcases (commit_false committed).1 with kept | replaced
      · right
        rw [kept]
      · left
        rw [replaced, Function.update_self]

end Commit

end DurableMap
