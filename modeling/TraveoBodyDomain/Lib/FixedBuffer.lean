import Mathlib.Tactic.Common

/-!
# Buffers of a fixed size

A buffer never changes its size.  A copy into it names the cells it reads and
those it writes, and is refused when any of them lies outside.
-/

/-- `size` cells. -/
structure FixedBuffer (α : Type) (size : Nat) where
  cells : List α
  sized : cells.length = size
  deriving Repr, DecidableEq

namespace FixedBuffer

variable {α : Type} {size : Nat}

/-- A buffer with the same value in every cell. -/
def filled (size : Nat) (value : α) : FixedBuffer α size where
  cells := List.replicate size value
  sized := List.length_replicate

/-- One cell is stored to. -/
def store (buf : FixedBuffer α size) (off : Nat) (value : α) :
    FixedBuffer α size where
  cells := buf.cells.set off value
  sized := by rw [List.length_set, buf.sized]

/-- The first cells are replaced. -/
def overwrite
    (buf : FixedBuffer α size)
    (values : List α)
    (fits : values.length ≤ size) :
    FixedBuffer α size where
  cells := values ++ buf.cells.drop values.length
  sized := by
    rw [List.length_append, List.length_drop, buf.sized]
    omega

/-- Values are stored one after the other, from the cell `off` on. -/
def storeAll (buf : FixedBuffer α size) : Nat → List α → FixedBuffer α size
  | _, [] => buf
  | off, value :: rest => (buf.store off value).storeAll (off + 1) rest

/-- The cells a copy reads and writes are there. -/
def InRange
    (size dstOff : Nat)
    (src : List α)
    (srcOff len : Nat) : Prop :=
  srcOff + len ≤ src.length ∧ dstOff + len ≤ size

instance InRange.decidable
    (size dstOff : Nat)
    (src : List α)
    (srcOff len : Nat) :
    Decidable (InRange size dstOff src srcOff len) :=
  inferInstanceAs (Decidable (_ ∧ _))

/--
`len` cells of `src` from `srcOff` on are copied to `dstOff`; `none` when the
copy is out of range.
-/
def copy
    (dst : FixedBuffer α size)
    (dstOff : Nat)
    (src : List α)
    (srcOff len : Nat) :
    Option (FixedBuffer α size) :=
  if inRange : InRange size dstOff src srcOff len then
    some
      { cells :=
          dst.cells.take dstOff ++
            ((src.drop srcOff).take len ++ dst.cells.drop (dstOff + len))
        sized := by
          obtain ⟨reads, writes⟩ := inRange
          simp only [List.length_append, List.length_take, List.length_drop,
            dst.sized]
          omega }
  else
    none

variable
  {dst : FixedBuffer α size}
  {dstOff srcOff len : Nat}
  {src : List α}

/-- A copy is refused exactly when it is out of range. -/
theorem copy_eq_none :
    dst.copy dstOff src srcOff len = none ↔
      ¬ InRange size dstOff src srcOff len := by
  unfold copy
  split
  next inRange => simp [inRange]
  next outside => simp [outside]

/-- What the cells up to the end of a copy hold after it. -/
theorem copy_of_inRange
    (inRange : InRange size dstOff src srcOff len) :
    ∃ after,
      dst.copy dstOff src srcOff len = some after ∧
        after.cells.take (dstOff + len) =
          dst.cells.take dstOff ++ (src.drop srcOff).take len := by
  unfold copy
  rw [dif_pos inRange]
  refine ⟨_, rfl, ?_⟩
  obtain ⟨reads, writes⟩ := inRange
  have start :
      (dst.cells.take dstOff ++ (src.drop srcOff).take len).length =
        dstOff + len := by
    simp only [List.length_append, List.length_take, List.length_drop,
      dst.sized]
    omega
  have regrouped :
      dst.cells.take dstOff ++
          ((src.drop srcOff).take len ++ dst.cells.drop (dstOff + len)) =
        (dst.cells.take dstOff ++ (src.drop srcOff).take len) ++
          dst.cells.drop (dstOff + len) :=
    (List.append_assoc _ _ _).symm
  exact (congrArg (List.take _) regrouped).trans (List.take_left' start)

/-- A buffer is what its cells are. -/
@[ext] theorem ext
    {first second : FixedBuffer α size}
    (same : first.cells = second.cells) :
    first = second := by
  cases first
  cases second
  cases same
  rfl

/-- What a buffer holds once values were stored one after the other. -/
theorem storeAll_cells
    (buf : FixedBuffer α size)
    (off : Nat)
    (values : List α)
    (fits : off + values.length ≤ size) :
    (buf.storeAll off values).cells =
      buf.cells.take off ++ values ++ buf.cells.drop (off + values.length) := by
  induction values generalizing buf off with
  | nil =>
      simp [storeAll]
  | cons value rest inductionHypothesis =>
      rw [List.length_cons] at fits
      have inside : off < buf.cells.length := by
        rw [buf.sized]
        omega
      have start :
          (buf.cells.set off value).take (off + 1) =
            buf.cells.take off ++ [value] := by
        rw [List.take_set, List.take_succ_eq_append_getElem inside,
          List.set_append_right _ _ (List.length_take_le _ _)]
        simp [Nat.min_eq_left (Nat.le_of_lt inside)]
      have behind :
          (buf.cells.set off value).drop (off + 1 + rest.length) =
            buf.cells.drop (off + 1 + rest.length) := by
        rw [List.drop_set_of_lt (by omega)]
      rw [storeAll, inductionHypothesis _ _ (by omega)]
      change
        (buf.cells.set off value).take (off + 1) ++ rest ++
          (buf.cells.set off value).drop (off + 1 + rest.length) = _
      rw [start, behind, List.length_cons, List.append_assoc _ [value],
        List.singleton_append, Nat.add_assoc, Nat.add_comm 1]

/-- The first cells are what was stored from the first cell on. -/
theorem take_storeAll
    (buf : FixedBuffer α size)
    (values : List α)
    (fits : values.length ≤ size) :
    (buf.storeAll 0 values).cells.take values.length = values := by
  rw [storeAll_cells _ _ _ (by omega), List.take_zero, List.nil_append]
  exact List.take_left

end FixedBuffer
