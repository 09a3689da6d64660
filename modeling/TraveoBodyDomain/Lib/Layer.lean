import Mathlib.Tactic.Common
import TraveoBodyDomain.Lib.Machine

/-!
# A machine built on another machine

Every step of the outer machine takes some actions of the inner one and shows,
among its own events, what these show.  An invariant of the inner machine is
then one of the part of the outer machine that the inner one is.
-/

namespace Machine

variable {Inner Action Event Outer Move Sight : Type}

/-- How the steps of an outer machine are made of the actions of an inner one. -/
structure Layer
    (inner : Step Inner Action Event)
    (outer : Step Outer Move Sight) where
  /-- The part of the state that is the inner machine's. -/
  base : Outer → Inner
  /-- The inner actions one move takes. -/
  actions : Outer → Move → List Action
  /-- The inner event an outer one is, if it is one. -/
  shown : Sight → Option Event
  follows :
    ∀ state move,
      base (outer state move).1 = final inner (base state) (actions state move) ∧
        (outer state move).2.filterMap shown =
          trace inner (base state) (actions state move)

namespace Layer

variable {inner : Step Inner Action Event} {outer : Step Outer Move Sight}

/-- Every inner action of a move meets `guard` where it is taken. -/
def Meets
    (layer : Layer inner outer)
    (guard : Inner → Action → Prop)
    (state : Outer)
    (move : Move) : Prop :=
  Allowed inner guard (layer.base state) (layer.actions state move)

instance Meets.decidable
    (layer : Layer inner outer)
    (guard : Inner → Action → Prop)
    [∀ state action, Decidable (guard state action)]
    (state : Outer)
    (move : Move) :
    Decidable (layer.Meets guard state move) :=
  inferInstanceAs (Decidable (Allowed inner guard _ _))

/-- An invariant of the inner machine and its events, kept by one move. -/
theorem preserves
    (layer : Layer inner outer)
    {guard : Inner → Action → Prop}
    {Inv : Inner → List Event → Prop}
    (preserved :
      ∀ state history action,
        Inv state history →
        guard state action →
        Inv (inner state action).1 (history ++ (inner state action).2))
    {state : Outer}
    {move : Move}
    {history : List Sight}
    (inv : Inv (layer.base state) (history.filterMap layer.shown))
    (met : layer.Meets guard state move) :
    Inv (layer.base (outer state move).1)
      ((history ++ (outer state move).2).filterMap layer.shown) := by
  rw [List.filterMap_append, (layer.follows state move).1,
    (layer.follows state move).2]
  exact invariant preserved inv met

end Layer

end Machine
