import Mathlib.Data.Option.Basic

/-!
# Two programs alongside each other

Programs with a state that may fail, run from related states.  They agree when
they fail together, and otherwise end with the same value in related states.
A part of one may stand for a part of the other wherever the two agree.
-/

namespace Alongside

variable {Value Other Left Right : Type}

/-- What follows a program that ended starts where that left off. -/
theorem followed
    {program : StateT Left Option Value}
    {next : Value → StateT Left Option Other}
    {left leftAfter : Left}
    {value : Value}
    (ended : program left = some (value, leftAfter)) :
    (program >>= next) left = next value leftAfter := by
  show StateT.bind program next left = _
  simp only [StateT.bind, ended]
  rfl

/-- Both runs failed, or both ended with one value in related states. -/
def Agree
    (related : Left → Right → Prop)
    (first : Option (Value × Left))
    (second : Option (Value × Right)) : Prop :=
  Option.Rel
    (fun ended other => ended.1 = other.1 ∧ related ended.2 other.2)
    first second

namespace Agree

variable
  {related weaker : Left → Right → Prop}
  {left leftAfter : Left}
  {right rightAfter : Right}

/-- Nothing is done on either side. -/
theorem done
    (value : Value)
    (start : related left right) :
    Agree related
      ((pure value : StateT Left Option Value) left)
      ((pure value : StateT Right Option Value) right) :=
  .some ⟨rfl, start⟩

/-- Both sides fail. -/
theorem failed :
    Agree related
      ((failure : StateT Left Option Value) left)
      ((failure : StateT Right Option Value) right) :=
  .none

/--
What follows agrees, from wherever the first parts lead; the value is one that
the left part returned.
-/
theorem bind
    {program : StateT Left Option Value}
    {counterpart : StateT Right Option Value}
    {next : Value → StateT Left Option Other}
    {follow : Value → StateT Right Option Other}
    (parts : Agree related (program left) (counterpart right))
    (rest :
      ∀ value leftAfter rightAfter,
        program left = some (value, leftAfter) →
          related leftAfter rightAfter →
            Agree weaker (next value leftAfter) (follow value rightAfter)) :
    Agree weaker ((program >>= next) left) ((counterpart >>= follow) right) := by
  show Agree weaker (StateT.bind program next left)
    (StateT.bind counterpart follow right)
  unfold StateT.bind
  cases ranLeft : program left with
  | none =>
      rw [ranLeft] at parts
      cases ranRight : counterpart right with
      | none =>
          exact .none
      | some _ =>
          rw [ranRight] at parts
          cases parts
  | some ended =>
      rw [ranLeft] at parts
      cases ranRight : counterpart right with
      | none =>
          rw [ranRight] at parts
          cases parts
      | some other =>
          rw [ranRight] at parts
          obtain ⟨value, leftAfter⟩ := ended
          obtain ⟨same, rightAfter⟩ := other
          cases parts with
          | some pair =>
              obtain ⟨rfl, reached⟩ := pair
              exact rest value leftAfter rightAfter ranLeft reached

/-- Where one side ended, so did the other. -/
theorem ended
    {first : Option (Value × Left)}
    {second : Option (Value × Right)}
    {value : Value}
    (agree : Agree related first second)
    (ran : first = some (value, leftAfter)) :
    ∃ rightAfter,
      second = some (value, rightAfter) ∧ related leftAfter rightAfter := by
  subst ran
  cases agree with
  | some pair =>
      obtain ⟨rfl, reached⟩ := pair
      exact ⟨_, rfl, reached⟩

end Agree

end Alongside
