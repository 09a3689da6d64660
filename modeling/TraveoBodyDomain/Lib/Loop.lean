import Mathlib.Tactic.Common

/-!
# Loops that need not end

A loop is run for a number of turns, and has no result when these are too few.
That it ends means that enough turns give a result, and that more of them give
the same one.
-/

namespace Loop

variable {State Result Other : Type}

/-- What the body of a loop leads to: one more turn, or the result. -/
inductive Turn (State Result : Type) where
  | again (state : State)
  | done (result : Result)
  deriving Repr, DecidableEq

/-- A loop, for a number of turns. -/
def run (body : State → Turn State Result) : Nat → State → Option Result
  | 0, _ => none
  | turns + 1, state =>
      match body state with
      | .again next => run body turns next
      | .done result => some result

/-- Enough turns give the result. -/
def Returns (program : Nat → Option Result) (result : Result) : Prop :=
  ∃ enough, ∀ turns, enough ≤ turns → program turns = some result

section Programs

variable {program : Nat → Option Result} {result : Result}

/-- A program without a loop returns. -/
theorem returns_some
    (result : Result) :
    Returns (fun _ => some result) result :=
  ⟨0, fun _ _ => rfl⟩

/-- A program returns one result. -/
theorem Returns.unique
    {other : Result}
    (returns : Returns program result)
    (returnsOther : Returns program other) :
    result = other := by
  obtain ⟨enough, given⟩ := returns
  obtain ⟨enoughOther, givenOther⟩ := returnsOther
  have both := given (max enough enoughOther) (Nat.le_max_left ..)
  rw [givenOther _ (Nat.le_max_right ..)] at both
  exact (Option.some.inj both).symm

/-- One program after the other. -/
theorem Returns.bind
    {next : Result → Nat → Option Other}
    {last : Other}
    (returns : Returns program result)
    (follows : Returns (next result) last) :
    Returns (fun turns => (program turns).bind fun r => next r turns) last := by
  obtain ⟨enough, given⟩ := returns
  obtain ⟨enoughNext, givenNext⟩ := follows
  refine ⟨max enough enoughNext, fun turns many => ?_⟩
  have first := given turns (Nat.le_trans (Nat.le_max_left ..) many)
  have second := givenNext turns (Nat.le_trans (Nat.le_max_right ..) many)
  simp only [first, Option.bind_some, second]

/-- A result that is worked on. -/
theorem Returns.map
    (returns : Returns program result)
    (f : Result → Other) :
    Returns (fun turns => (program turns).map f) (f result) := by
  obtain ⟨enough, given⟩ := returns
  refine ⟨enough, fun turns many => ?_⟩
  simp only [given turns many, Option.map_some]

/-- A program that needs more turns whatever it is given does not return. -/
theorem not_returns
    (never : ∀ turns, program turns = none) :
    ¬∃ result, Returns program result := by
  rintro ⟨result, enough, given⟩
  have some := given enough (Nat.le_refl enough)
  rw [never enough] at some
  cases some

end Programs

section Rules

variable {body : State → Turn State Result} {state next : State} {result : Result}

/-- The last turn. -/
theorem returns_of_done
    (ends : body state = .done result) :
    Returns (fun turns => run body turns state) result := by
  refine ⟨1, fun turns many => ?_⟩
  obtain ⟨less, rfl⟩ := Nat.exists_eq_add_of_le' many
  simp only [run, ends]

/-- A turn before it. -/
theorem returns_of_again
    (more : body state = .again next)
    (returns : Returns (fun turns => run body turns next) result) :
    Returns (fun turns => run body turns state) result := by
  obtain ⟨enough, given⟩ := returns
  refine ⟨enough + 1, fun turns many => ?_⟩
  obtain ⟨less, rfl⟩ :=
    Nat.exists_eq_add_of_le' (Nat.le_trans (Nat.le_add_left 1 enough) many)
  simp only [run, more]
  exact given less (Nat.le_of_succ_le_succ many)

/-- What a loop returns, it returns after one more turn. -/
theorem returns_again_iff
    (more : body state = .again next) :
    Returns (fun turns => run body turns state) result ↔
      Returns (fun turns => run body turns next) result := by
  refine ⟨fun ⟨enough, given⟩ => ⟨enough, fun turns many => ?_⟩,
    returns_of_again more⟩
  have longer := given (turns + 1) (Nat.le_succ_of_le many)
  simp only [run, more] at longer
  exact longer

/--
Partial correctness: the turns keep the invariant, and the last one establishes
what is wanted.
-/
theorem Returns.wanted
    {Inv : State → Prop}
    {Wanted : Result → Prop}
    (again :
      ∀ state next, Inv state → body state = .again next → Inv next)
    (done :
      ∀ state result, Inv state → body state = .done result → Wanted result)
    (start : Inv state)
    (returns : Returns (fun turns => run body turns state) result) :
    Wanted result := by
  obtain ⟨enough, given⟩ := returns
  have returned := given enough (Nat.le_refl enough)
  clear given
  induction enough generalizing state with
  | zero =>
      cases returned
  | succ turns inductionHypothesis =>
      cases turn : body state with
      | done last =>
          simp only [run, turn] at returned
          rw [← Option.some.inj returned]
          exact done state last start turn
      | again next =>
          simp only [run, turn] at returned
          exact inductionHypothesis (again state next start turn) returned

/--
Total correctness: the turns keep the invariant and bring a measure down, and
the last one establishes what is wanted.
-/
theorem returns_of_measure
    {Inv : State → Prop}
    {Wanted : Result → Prop}
    (measure : State → Nat)
    (again :
      ∀ state next,
        Inv state → body state = .again next →
          Inv next ∧ measure next < measure state)
    (done :
      ∀ state result, Inv state → body state = .done result → Wanted result)
    (start : Inv state) :
    ∃ result, Returns (fun turns => run body turns state) result ∧
      Wanted result := by
  induction bound : measure state using Nat.strongRecOn generalizing state with
  | ind n inductionHypothesis =>
      cases turn : body state with
      | done result =>
          exact ⟨result, returns_of_done turn, done state result start turn⟩
      | again next =>
          obtain ⟨kept, less⟩ := again state next start turn
          obtain ⟨result, returns, wanted⟩ :=
            inductionHypothesis (measure next) (bound ▸ less) kept rfl
          exact ⟨result, returns_of_again turn returns, wanted⟩

/-- A loop whose every turn leads to another one has no result. -/
theorem run_eq_none
    {Inv : State → Prop}
    (again :
      ∀ state, Inv state → ∃ next, body state = .again next ∧ Inv next)
    (start : Inv state)
    (turns : Nat) :
    run body turns state = none := by
  induction turns generalizing state with
  | zero =>
      rfl
  | succ turns inductionHypothesis =>
      obtain ⟨next, more, kept⟩ := again state start
      simp only [run, more]
      exact inductionHypothesis kept

end Rules

end Loop
