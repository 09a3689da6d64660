import Mathlib.Algebra.GroupWithZero.Nat
import Mathlib.Data.Fintype.Basic
import Mathlib.Tactic.FinCases

/-!
# Two slots, of which the newest is in force

Each slot holds a record or nothing.  The record of the higher rank is in
force, slot 0 on a tie, and a new record always goes to the slot that is not in
force.  So whatever a write does to its slot, what is in force afterwards is
the old record or the new one.
-/

namespace TwoSlot

/-- There is a slot. -/
instance neZero : NeZero 2 :=
  ⟨Nat.succ_ne_zero 1⟩

variable {Record : Type}

/-- The slot in force: the higher rank, slot 0 on a tie. -/
def newest
    (rank : Record → Nat)
    (slots : Fin 2 → Option Record) : Option (Fin 2) :=
  match slots 0, slots 1 with
  | some first, some second =>
      if rank first < rank second then some 1 else some 0
  | some _, none => some 0
  | none, some _ => some 1
  | none, none => none

/-- The record in force. -/
def inForce
    (rank : Record → Nat)
    (slots : Fin 2 → Option Record) : Option Record :=
  (newest rank slots).bind slots

/-- The slot a new record goes to. -/
def target (current : Option (Fin 2)) : Fin 2 :=
  if current = some 0 then 1 else 0

/-- The slot in force is never the target. -/
theorem ne_target
    (slot : Fin 2) :
    slot ≠ target (some slot) := by
  revert slot
  decide

/-- The other slot of the other slot. -/
theorem target_target
    (slot : Fin 2) :
    target (some (target (some slot))) = slot := by
  revert slot
  decide

section Newest

variable {rank : Record → Nat} {slots : Fin 2 → Option Record}

/-- The slot in force holds a record, and the other slot none of higher rank. -/
theorem newest_some
    {slot : Fin 2}
    (current : newest rank slots = some slot) :
    ∃ record,
      slots slot = some record ∧
        ∀ other, slots (target (some slot)) = some other →
          rank other ≤ rank record := by
  unfold newest at current
  cases first : slots 0 <;> cases second : slots 1 <;>
    simp only [first, second] at current
  · cases current
  · cases current
    exact ⟨_, second, by simp [target, first]⟩
  · cases current
    exact ⟨_, first, by simp [target, second]⟩
  · split at current <;> cases current
    · refine ⟨_, second, ?_⟩
      simp [target, first]
      omega
    · refine ⟨_, first, ?_⟩
      simp [target, second]
      omega

/-- No slot is in force exactly when both are empty. -/
theorem newest_none :
    newest rank slots = none ↔ ∀ slot, slots slot = none := by
  constructor
  · intro nothing slot
    unfold newest at nothing
    cases first : slots 0 <;> cases second : slots 1 <;>
      simp only [first, second] at nothing
    · fin_cases slot
      · exact first
      · exact second
    · cases nothing
    · cases nothing
    · split at nothing <;> cases nothing
  · intro empty
    simp [newest, empty]

/-- Nothing is in force exactly when both slots are empty. -/
theorem inForce_none :
    inForce rank slots = none ↔ ∀ slot, slots slot = none := by
  have empty : newest rank slots = none ↔ ∀ slot, slots slot = none :=
    newest_none
  rw [← empty]
  unfold inForce
  cases current : newest rank slots with
  | none =>
      simp
  | some slot =>
      obtain ⟨record, holds, _⟩ := newest_some current
      simp [holds]

/-- Next to an empty slot, what is in force is what the other slot holds. -/
theorem inForce_of_empty
    {slot : Fin 2}
    (empty : slots slot = none) :
    inForce rank slots = slots (target (some slot)) := by
  fin_cases slot
  · have first : slots 0 = none := empty
    cases second : slots 1 <;> simp [inForce, newest, target, first, second]
  · have second : slots 1 = none := empty
    cases first : slots 0 <;> simp [inForce, newest, target, first, second]

/-- Of two records the one of the higher rank is in force. -/
theorem inForce_of_higher
    {slot : Fin 2}
    {lower higher : Record}
    (holdsLower : slots slot = some lower)
    (holdsHigher : slots (target (some slot)) = some higher)
    (less : rank lower < rank higher) :
    inForce rank slots = some higher := by
  fin_cases slot
  · have first : slots 0 = some lower := holdsLower
    have second : slots 1 = some higher := holdsHigher
    simp [inForce, newest, first, second, less]
  · have second : slots 1 = some lower := holdsLower
    have first : slots 0 = some higher := holdsHigher
    simp [inForce, newest, first, second, Nat.not_lt.mpr less.le]

section Write

variable
  {after : Fin 2 → Option Record}
  {record : Record}
  (others :
    ∀ slot, slot ≠ target (newest rank slots) → after slot = slots slot)
include others

/-- The slot in force keeps its record when another is written. -/
private theorem kept_of_others
    {slot : Fin 2}
    (current : newest rank slots = some slot) :
    after slot = slots slot := by
  apply others
  rw [current]
  exact ne_target slot

/-- The target now holds a record ranked above the one in force. -/
theorem newest_of_replaced
    (replaced : after (target (newest rank slots)) = some record)
    (newer : ∀ old, inForce rank slots = some old → rank old < rank record) :
    newest rank after = some (target (newest rank slots)) := by
  cases current : newest rank slots with
  | none =>
      rw [current] at replaced others
      have other : after 1 = none := by
        rw [others 1 (by decide)]
        exact newest_none.mp current 1
      have filled : after 0 = some record := replaced
      simp [newest, filled, other, target]
  | some slot =>
      obtain ⟨old, holds, _⟩ := newest_some current
      have below : rank old < rank record := by
        apply newer
        simp [inForce, current, holds]
      have kept := (kept_of_others others current).trans holds
      rw [current] at replaced
      fin_cases slot
      · have first : after 0 = some old := kept
        have second : after 1 = some record := replaced
        simp [newest, first, second, target, below]
      · have second : after 1 = some old := kept
        have first : after 0 = some record := replaced
        simp [newest, first, second, target, Nat.not_lt.mpr below.le]

/-- A newer record written to the target comes into force. -/
theorem inForce_of_replaced
    (replaced : after (target (newest rank slots)) = some record)
    (newer : ∀ old, inForce rank slots = some old → rank old < rank record) :
    inForce rank after = some record := by
  rw [inForce, newest_of_replaced others replaced newer]
  exact replaced

/-- A target that lost or kept its record leaves the record in force. -/
theorem inForce_of_kept
    (target :
      after (target (newest rank slots)) = none ∨
        after (target (newest rank slots)) =
          slots (target (newest rank slots))) :
    inForce rank after = inForce rank slots := by
  rcases target with lost | same
  · cases current : newest rank slots with
    | none =>
        have empty := newest_none.mp current
        have nothing : inForce rank slots = none := by
          simp [inForce, current]
        rw [nothing]
        apply inForce_none.mpr
        intro slot
        by_cases isTarget : slot = TwoSlot.target (newest rank slots)
        · rw [isTarget, lost]
        · rw [others slot isTarget, empty]
    | some slot =>
        obtain ⟨old, holds, _⟩ := newest_some current
        have kept := (kept_of_others others current).trans holds
        rw [current] at lost
        unfold inForce
        rw [current, Option.bind_some, holds]
        fin_cases slot
        · have first : after 0 = some old := kept
          have second : after 1 = none := lost
          simp [newest, first, second]
        · have second : after 1 = some old := kept
          have first : after 0 = none := lost
          simp [newest, first, second]
  · have unchanged : after = slots := by
      funext slot
      by_cases isTarget : slot = TwoSlot.target (newest rank slots)
      · rw [isTarget, same]
      · exact others slot isTarget
    rw [unchanged]

end Write

end Newest

end TwoSlot
