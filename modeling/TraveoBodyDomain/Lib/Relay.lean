import Mathlib.Tactic.Common
import Mathlib.Data.List.Basic

/-!
# Bounded queues and what passes through them

A queue of fixed depth that refuses what does not fit, and the law of any stage
that takes values in, may drop some, holds some and passes some on: what it
passed on, followed by what it holds, is a sublist of what came in.
-/

universe u v

variable {α : Type u} {β : Type v}

/-- A first-in-first-out queue with room for `depth` values. -/
structure BoundedQueue (α : Type u) (depth : Nat) where
  items : List α
  bounded : items.length ≤ depth
  deriving DecidableEq

namespace BoundedQueue

variable {depth : Nat}

/-- Nothing queued. -/
def empty : BoundedQueue α depth where
  items := []
  bounded := Nat.zero_le depth

/-- There is room for one more value. -/
def HasRoom (queue : BoundedQueue α depth) : Prop :=
  queue.items.length < depth

instance (queue : BoundedQueue α depth) : Decidable queue.HasRoom :=
  inferInstanceAs (Decidable (_ < _))

/-- Append a value, or refuse it at once when there is no room. -/
def send (queue : BoundedQueue α depth) (value : α) : BoundedQueue α depth :=
  if room : queue.HasRoom then
    { items := queue.items ++ [value]
      bounded := by
        rw [List.length_append]
        exact room }
  else
    queue

/-- Take the oldest value, if there is one. -/
def receive (queue : BoundedQueue α depth) :
    Option (α × BoundedQueue α depth) :=
  match taken : queue.items with
  | [] => none
  | value :: rest =>
      some
        (value,
          { items := rest
            bounded := by
              have bounded := queue.bounded
              rw [taken] at bounded
              exact Nat.le_of_succ_le bounded })

@[simp] theorem empty_items :
    (empty : BoundedQueue α depth).items = [] :=
  rfl

/-- With room the value is queued last. -/
theorem send_of_room
    {queue : BoundedQueue α depth}
    (room : queue.HasRoom)
    (value : α) :
    (queue.send value).items = queue.items ++ [value] := by
  rw [send, dif_pos room]

/-- Without room the value is dropped and the queue keeps what it has. -/
theorem send_of_full
    {queue : BoundedQueue α depth}
    (full : ¬ queue.HasRoom)
    (value : α) :
    queue.send value = queue := by
  rw [send, dif_neg full]

/-- An empty queue has nothing to take. -/
theorem receive_eq_none
    {queue : BoundedQueue α depth} :
    queue.receive = none ↔ queue.items = [] := by
  unfold receive
  split
  next isEmpty =>
    exact ⟨fun _ => isEmpty, fun _ => rfl⟩
  next value rest taken =>
    constructor
    · intro nothing
      cases nothing
    · intro isEmpty
      rw [isEmpty] at taken
      cases taken

/-- What is taken is the oldest value, and the rest stays. -/
theorem items_of_receive
    {queue rest : BoundedQueue α depth}
    {value : α}
    (taken : queue.receive = some (value, rest)) :
    queue.items = value :: rest.items := by
  unfold receive at taken
  split at taken
  next => cases taken
  next first others isItems =>
    cases taken
    exact isItems

/-- Whatever is queued behind a value, the value is taken first. -/
theorem receive_of_items
    {queue : BoundedQueue α depth}
    {value : α}
    {others : List α}
    (isItems : queue.items = value :: others) :
    ∃ rest, queue.receive = some (value, rest) ∧ rest.items = others := by
  rcases taken : queue.receive with _ | ⟨first, rest⟩
  · rw [receive_eq_none.mp taken] at isItems
    cases isItems
  · have same := items_of_receive taken
    rw [isItems] at same
    cases same
    exact ⟨rest, rfl, rfl⟩

end BoundedQueue

/--
A stage passed on `passed` and holds `held` of what arrived: each value at most
once and in the order of arrival, whatever it dropped.
-/
def Relays (arrived passed held : List α) : Prop :=
  (passed ++ held).Sublist arrived

namespace Relays

variable {arrived passed held : List α}

/-- Nothing arrived yet. -/
theorem start : Relays ([] : List α) [] [] :=
  List.Sublist.refl []

/-- What arrives may be dropped. -/
theorem drop
    (relays : Relays arrived passed held)
    (more : List α) :
    Relays (arrived ++ more) passed held :=
  relays.trans (List.sublist_append_left arrived more)

/-- What arrives may be held behind what is held. -/
theorem hold
    (relays : Relays arrived passed held)
    (more : List α) :
    Relays (arrived ++ more) passed (held ++ more) := by
  unfold Relays at relays ⊢
  rw [← List.append_assoc]
  exact relays.append (List.Sublist.refl more)

/-- What arrives may be held or dropped. -/
theorem offer
    (relays : Relays arrived passed held)
    (value : α)
    {heldAfter : List α}
    (either : heldAfter = held ++ [value] ∨ heldAfter = held) :
    Relays (arrived ++ [value]) passed heldAfter := by
  rcases either with rfl | rfl
  · exact relays.hold [value]
  · exact relays.drop [value]

/-- The oldest value held is passed on. -/
theorem pass
    {value : α}
    (relays : Relays arrived passed (value :: held)) :
    Relays arrived (passed ++ [value]) held := by
  unfold Relays at relays ⊢
  rw [List.append_assoc]
  exact relays

/-- Held values may be lost. -/
theorem lose
    {kept : List α}
    (relays : Relays arrived passed held)
    (fewer : kept.Sublist held) :
    Relays arrived passed kept :=
  ((List.Sublist.refl passed).append fewer).trans relays

/-- What was passed on had arrived, in that order. -/
theorem passed_sublist
    (relays : Relays arrived passed held) :
    passed.Sublist arrived :=
  (List.sublist_append_left passed held).trans relays

/-- Offering a value to a queue holds it or drops it. -/
theorem send
    {depth : Nat}
    {queue : BoundedQueue α depth}
    (relays : Relays arrived passed queue.items)
    (value : α) :
    Relays (arrived ++ [value]) passed (queue.send value).items := by
  refine relays.offer value ?_
  by_cases room : queue.HasRoom
  · exact Or.inl (BoundedQueue.send_of_room room value)
  · exact Or.inr (by rw [BoundedQueue.send_of_full room])

/-- Taking a value from a queue passes it on. -/
theorem receive
    {depth : Nat}
    {queue rest : BoundedQueue α depth}
    {value : α}
    (relays : Relays arrived passed queue.items)
    (taken : queue.receive = some (value, rest)) :
    Relays arrived (passed ++ [value]) rest.items := by
  rw [BoundedQueue.items_of_receive taken] at relays
  exact relays.pass

end Relays
