import Mathlib.Tactic.Common
import Mathlib.Data.List.Basic

/-!
# Runs of a machine whose environment chooses the action

Every choice of the environment (what arrives, which call fails, when power is
lost) is part of the action, so one step is a function.  A step also reports
what an observer sees of it.  This module gives the two halves of a run, the
final state and the observed trace, and the one induction every safety proof
over runs uses.
-/

namespace Machine

variable {State Action Event : Type}

/-- One step: the next state and the events it shows, in order. -/
abbrev Step (State Action Event : Type) :=
  State → Action → State × List Event

/-- The state an action list leads to. -/
def final (step : Step State Action Event) : State → List Action → State
  | state, [] => state
  | state, action :: rest => final step (step state action).1 rest

/-- The events an action list shows, in order. -/
def trace (step : Step State Action Event) : State → List Action → List Event
  | _, [] => []
  | state, action :: rest =>
      (step state action).2 ++ trace step (step state action).1 rest

/-- Every action meets `guard` in the state it is taken in. -/
def Allowed
    (step : Step State Action Event)
    (guard : State → Action → Prop) : State → List Action → Prop
  | _, [] => True
  | state, action :: rest =>
      guard state action ∧ Allowed step guard (step state action).1 rest

instance Allowed.decidable
    (step : Step State Action Event)
    (guard : State → Action → Prop)
    [∀ state action, Decidable (guard state action)] :
    ∀ state actions, Decidable (Allowed step guard state actions)
  | _, [] => inferInstanceAs (Decidable True)
  | state, action :: rest =>
      haveI := Allowed.decidable step guard (step state action).1 rest
      inferInstanceAs (Decidable (guard state action ∧ _))

@[simp] theorem final_nil
    (step : Step State Action Event)
    (state : State) :
    final step state [] = state :=
  rfl

@[simp] theorem final_cons
    (step : Step State Action Event)
    (state : State)
    (action : Action)
    (rest : List Action) :
    final step state (action :: rest) =
      final step (step state action).1 rest :=
  rfl

@[simp] theorem trace_nil
    (step : Step State Action Event)
    (state : State) :
    trace step state [] = [] :=
  rfl

@[simp] theorem trace_cons
    (step : Step State Action Event)
    (state : State)
    (action : Action)
    (rest : List Action) :
    trace step state (action :: rest) =
      (step state action).2 ++ trace step (step state action).1 rest :=
  rfl

/-- A run over a concatenation goes through the state between the halves. -/
theorem final_append
    (step : Step State Action Event)
    (state : State)
    (first second : List Action) :
    final step state (first ++ second) =
      final step (final step state first) second := by
  induction first generalizing state with
  | nil =>
      rfl
  | cons action rest inductionHypothesis =>
      exact inductionHypothesis (step state action).1

/-- The trace of a concatenation is the concatenation of the traces. -/
theorem trace_append
    (step : Step State Action Event)
    (state : State)
    (first second : List Action) :
    trace step state (first ++ second) =
      trace step state first ++
        trace step (final step state first) second := by
  induction first generalizing state with
  | nil =>
      rfl
  | cons action rest inductionHypothesis =>
      simp [inductionHypothesis, List.append_assoc]

/-- What the steps show does not matter to where they lead. -/
theorem final_congr
    {Sight : Type}
    {step : Step State Action Event}
    {other : Step State Action Sight}
    (same : ∀ state action, (step state action).1 = (other state action).1)
    (state : State)
    (actions : List Action) :
    final step state actions = final other state actions := by
  induction actions generalizing state with
  | nil =>
      rfl
  | cons action rest inductionHypothesis =>
      rw [final_cons, final_cons, same, inductionHypothesis]

/-- The actions lead from `state` to `last` and show `events`. -/
def Leads
    (step : Step State Action Event)
    (state : State)
    (actions : List Action)
    (last : State)
    (events : List Event) : Prop :=
  final step state actions = last ∧ trace step state actions = events

/-- No step. -/
theorem Leads.nil
    (step : Step State Action Event)
    (state : State) :
    Leads step state [] state [] :=
  ⟨rfl, rfl⟩

/-- One step, and what follows it. -/
theorem Leads.cons
    {step : Step State Action Event}
    {state next last : State}
    {action : Action}
    {rest : List Action}
    {first events : List Event}
    (stepped : step state action = (next, first))
    (follows : Leads step next rest last events) :
    Leads step state (action :: rest) last (first ++ events) := by
  simp only [Leads, final_cons, trace_cons, stepped]
  exact ⟨follows.1, by rw [follows.2]⟩

/-- Two runs, one after the other. -/
theorem Leads.append
    {step : Step State Action Event}
    {state middle last : State}
    {first second : List Action}
    {early late : List Event}
    (before : Leads step state first middle early)
    (after : Leads step middle second last late) :
    Leads step state (first ++ second) last (early ++ late) := by
  constructor
  · rw [final_append, before.1, after.1]
  · rw [trace_append, before.1, before.2, after.2]

/-- A concatenation is allowed when each half is, from where it starts. -/
theorem allowed_append
    {step : Step State Action Event}
    {guard : State → Action → Prop}
    {state : State}
    {first second : List Action} :
    Allowed step guard state (first ++ second) ↔
      Allowed step guard state first ∧
        Allowed step guard (final step state first) second := by
  induction first generalizing state with
  | nil =>
      simp [Allowed]
  | cons action rest inductionHypothesis =>
      simp [Allowed, inductionHypothesis, and_assoc]

/-- A guard that every action meets allows every run. -/
theorem allowed_of_forall
    {step : Step State Action Event}
    {guard : State → Action → Prop}
    (always : ∀ state action, guard state action)
    (state : State)
    (actions : List Action) :
    Allowed step guard state actions := by
  induction actions generalizing state with
  | nil =>
      trivial
  | cons action rest inductionHypothesis =>
      exact ⟨always state action, inductionHypothesis (step state action).1⟩

/-- A guard that every action of a run meets, wherever it is taken. -/
theorem allowed_of_forall_mem
    {step : Step State Action Event}
    {guard : Action → Prop}
    {actions : List Action}
    (each : ∀ action ∈ actions, guard action)
    (state : State) :
    Allowed step (fun _ => guard) state actions := by
  induction actions generalizing state with
  | nil =>
      trivial
  | cons action rest inductionHypothesis =>
      refine ⟨each action List.mem_cons_self, ?_⟩
      exact
        inductionHypothesis
          (fun later member => each later (List.mem_cons_of_mem _ member)) _

/-- A run is allowed when each action meets the guard where the run takes it. -/
theorem allowed_iff_splits
    {step : Step State Action Event}
    {guard : State → Action → Prop}
    {state : State}
    {actions : List Action} :
    Allowed step guard state actions ↔
      ∀ before action after,
        actions = before ++ action :: after →
          guard (final step state before) action := by
  constructor
  · rintro allowed before action after rfl
    exact (allowed_append.mp allowed).2.1
  · intro each
    induction actions generalizing state with
    | nil =>
        trivial
    | cons action rest inductionHypothesis =>
        refine ⟨each [] action rest rfl, inductionHypothesis ?_⟩
        intro before later after split
        exact each (action :: before) later after (by rw [split]; rfl)

/-- Two guards may be checked together. -/
theorem Allowed.and
    {step : Step State Action Event}
    {first second : State → Action → Prop}
    {state : State}
    {actions : List Action}
    (meetsFirst : Allowed step first state actions)
    (meetsSecond : Allowed step second state actions) :
    Allowed step (fun state action => first state action ∧ second state action)
      state actions := by
  induction actions generalizing state with
  | nil =>
      trivial
  | cons action rest inductionHypothesis =>
      exact
        ⟨⟨meetsFirst.1, meetsSecond.1⟩,
          inductionHypothesis meetsFirst.2 meetsSecond.2⟩

/-- A weaker guard allows at least the same runs. -/
theorem Allowed.mono
    {step : Step State Action Event}
    {strong weak : State → Action → Prop}
    (weaker : ∀ state action, strong state action → weak state action)
    {state : State}
    {actions : List Action}
    (allowed : Allowed step strong state actions) :
    Allowed step weak state actions := by
  induction actions generalizing state with
  | nil =>
      trivial
  | cons action rest inductionHypothesis =>
      exact ⟨weaker state action allowed.1, inductionHypothesis allowed.2⟩

/-- Guards that agree wherever a run can get to allow the same run. -/
theorem allowed_congr
    {step : Step State Action Event}
    {first second : State → Action → Prop}
    {Inv : State → Prop}
    {actions : List Action}
    (preserved :
      ∀ state, ∀ action ∈ actions, Inv state → Inv (step state action).1)
    (agree :
      ∀ state, ∀ action ∈ actions,
        Inv state → (first state action ↔ second state action))
    {state : State}
    (start : Inv state) :
    Allowed step first state actions ↔ Allowed step second state actions := by
  induction actions generalizing state with
  | nil =>
      exact Iff.rfl
  | cons action rest inductionHypothesis =>
      have isHead : action ∈ action :: rest := List.mem_cons_self
      refine and_congr (agree state action isHead start) ?_
      refine inductionHypothesis ?_ ?_ (preserved state action isHead start)
      · exact fun state later member =>
          preserved state later (List.mem_cons_of_mem _ member)
      · exact fun state later member =>
          agree state later (List.mem_cons_of_mem _ member)

/--
Rewriting every action of an allowed run changes nothing that can be seen, when
no single rewritten step does anything else than the step it replaces.
-/
theorem rewritten_run
    {step : Step State Action Event}
    {guard : State → Action → Prop}
    {rewritten : Action → Action}
    (sameStep :
      ∀ state action,
        guard state action →
        step state (rewritten action) = step state action)
    {actions : List Action}
    {state : State}
    (allowed : Allowed step guard state actions) :
    final step state (actions.map rewritten) = final step state actions ∧
      trace step state (actions.map rewritten) = trace step state actions := by
  induction actions generalizing state with
  | nil =>
      exact ⟨rfl, rfl⟩
  | cons action rest inductionHypothesis =>
      obtain ⟨sameFinal, sameTrace⟩ := inductionHypothesis allowed.2
      have first := sameStep state action allowed.1
      rw [List.map_cons, final_cons, final_cons, trace_cons, trace_cons, first]
      exact ⟨sameFinal, by rw [sameTrace]⟩

/--
The induction behind every safety property over runs.

`Inv` relates a state to everything observed on the way to it.  If each allowed
step preserves it, it holds at the end of every allowed run.
-/
theorem invariant
    {step : Step State Action Event}
    {guard : State → Action → Prop}
    {Inv : State → List Event → Prop}
    (preserved :
      ∀ state history action,
        Inv state history →
        guard state action →
        Inv (step state action).1 (history ++ (step state action).2))
    {actions : List Action}
    {state : State}
    {history : List Event}
    (start : Inv state history)
    (allowed : Allowed step guard state actions) :
    Inv (final step state actions) (history ++ trace step state actions) := by
  induction actions generalizing state history with
  | nil =>
      simpa using start
  | cons action rest inductionHypothesis =>
      have next := preserved state history action start allowed.1
      simpa [List.append_assoc] using inductionHypothesis next allowed.2

/-- The same induction from an empty history. -/
theorem invariant_of_start
    {step : Step State Action Event}
    {guard : State → Action → Prop}
    {Inv : State → List Event → Prop}
    (preserved :
      ∀ state history action,
        Inv state history →
        guard state action →
        Inv (step state action).1 (history ++ (step state action).2))
    {actions : List Action}
    {state : State}
    (start : Inv state [])
    (allowed : Allowed step guard state actions) :
    Inv (final step state actions) (trace step state actions) := by
  simpa using invariant preserved start allowed

/-- Every event meets `meets`, given the events before it. -/
def EachMeets
    (meets : List Event → Event → Prop)
    (trace : List Event) : Prop :=
  ∀ before event after,
    trace = before ++ event :: after →
      meets before event

/-- So does none. -/
theorem eachMeets_nil
    (meets : List Event → Event → Prop) :
    EachMeets meets [] := by
  intro before event after split
  simp at split

/-- One more event that meets it keeps the property. -/
theorem EachMeets.concat
    {meets : List Event → Event → Prop}
    {trace : List Event}
    {last : Event}
    (each : EachMeets meets trace)
    (met : meets trace last) :
    EachMeets meets (trace ++ [last]) := by
  intro before event after split
  rcases List.eq_nil_or_concat after with rfl | ⟨rest, final, rfl⟩
  · have ends := List.append_inj' split rfl
    rw [← ends.1, ← List.head_eq_of_cons_eq ends.2]
    exact met
  · have shorter : trace = before ++ event :: rest := by
      have regrouped :
          trace ++ [last] = (before ++ event :: rest) ++ [final] := by
        rw [split, List.concat_eq_append, List.append_assoc,
          List.cons_append]
      exact (List.append_inj' regrouped rfl).1
    exact each before event rest shorter

/--
Every event of `trace` that needs a cause has it before itself.

`needs event cause` says that `event` may only be observed after `cause`.
-/
def CausesPrecede
    (needs : Event → Event → Prop)
    (trace : List Event) : Prop :=
  ∀ before event after,
    trace = before ++ event :: after →
      ∀ cause, needs event cause → cause ∈ before

/-- Nothing observed, nothing to justify. -/
theorem causesPrecede_nil
    (needs : Event → Event → Prop) :
    CausesPrecede needs [] :=
  eachMeets_nil fun before event => ∀ cause, needs event cause → cause ∈ before

/-- One more event keeps the property when its own causes were observed. -/
theorem CausesPrecede.concat
    {needs : Event → Event → Prop}
    {trace : List Event}
    {last : Event}
    (precede : CausesPrecede needs trace)
    (justified : ∀ cause, needs last cause → cause ∈ trace) :
    CausesPrecede needs (trace ++ [last]) :=
  EachMeets.concat precede justified

/-- Events that need no cause may follow. -/
theorem CausesPrecede.append_free
    {needs : Event → Event → Prop}
    {trace more : List Event}
    (precede : CausesPrecede needs trace)
    (free : ∀ event ∈ more, ∀ cause, ¬ needs event cause) :
    CausesPrecede needs (trace ++ more) := by
  induction more generalizing trace with
  | nil =>
      simpa using precede
  | cons event rest inductionHypothesis =>
      have one : CausesPrecede needs (trace ++ [event]) := by
        apply precede.concat
        intro cause needed
        exact (free event (List.mem_cons_self ..) cause needed).elim
      have rest :=
        inductionHypothesis one fun later member =>
          free later (List.mem_cons_of_mem _ member)
      simpa [List.append_assoc] using rest

/-!
## The latest action that matters
-/

/-- The last action that is not idle meets `meets`, given those before it. -/
def Latest
    (Idle : Action → Prop)
    (meets : List Action → Action → Prop)
    (actions : List Action) : Prop :=
  ∃ before last after,
    actions = before ++ last :: after ∧
      meets before last ∧
      ∀ action ∈ after, Idle action

section Latest

variable {Idle : Action → Prop} {meets : List Action → Action → Prop}

/-- Without an action there is no latest one. -/
theorem not_latest_nil :
    ¬ Latest Idle meets [] := by
  rintro ⟨before, last, after, split, -⟩
  simp at split

/-- An idle action changes nothing about the latest one that matters. -/
theorem latest_concat_idle
    (busy : ∀ before last, meets before last → ¬ Idle last)
    {actions : List Action}
    {action : Action}
    (idle : Idle action) :
    Latest Idle meets (actions ++ [action]) ↔ Latest Idle meets actions := by
  constructor
  · rintro ⟨before, last, after, split, met, idles⟩
    rcases List.eq_nil_or_concat after with rfl | ⟨rest, final, rfl⟩
    · have ends := List.append_inj' split rfl
      cases ends.2
      exact (busy before action met idle).elim
    · rw [List.concat_eq_append] at split idles
      have regrouped :
          actions ++ [action] = (before ++ last :: rest) ++ [final] := by
        rw [split, List.append_assoc, List.cons_append]
      refine ⟨before, last, rest, (List.append_inj' regrouped rfl).1, met, ?_⟩
      exact fun one member => idles one (List.mem_append_left _ member)
  · rintro ⟨before, last, after, rfl, met, idles⟩
    refine ⟨before, last, after ++ [action], by simp, met, ?_⟩
    intro one member
    rcases List.mem_append.mp member with earlier | new
    · exact idles one earlier
    · rw [List.mem_singleton.mp new]
      exact idle

/-- An action that matters is the latest one. -/
theorem latest_concat_busy
    {actions : List Action}
    {action : Action}
    (busy : ¬ Idle action) :
    Latest Idle meets (actions ++ [action]) ↔ meets actions action := by
  constructor
  · rintro ⟨before, last, after, split, met, idles⟩
    rcases List.eq_nil_or_concat after with rfl | ⟨rest, final, rfl⟩
    · have ends := List.append_inj' split rfl
      cases ends.2
      rw [ends.1]
      exact met
    · rw [List.concat_eq_append] at split idles
      have regrouped :
          actions ++ [action] = (before ++ last :: rest) ++ [final] := by
        rw [split, List.append_assoc, List.cons_append]
      cases (List.append_inj' regrouped rfl).2
      exact (busy (idles action (by simp))).elim
  · intro met
    exact ⟨actions, action, [], rfl, met, fun one member => by cases member⟩

end Latest

end Machine
