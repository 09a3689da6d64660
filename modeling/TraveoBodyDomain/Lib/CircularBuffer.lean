import Mathlib.Tactic.Common
import Mathlib.Data.Nat.ModEq

/-!
# A circular buffer addressed by running positions

The buffer has `cap` cells.  Positions run on without end, and the cell of a
position is its remainder by `cap`.  Readers and writers that count positions
modulo some multiple of `cap` address the same cells.
-/

namespace CircularBuffer

variable {α : Type}

/-- The `n` cells from the position `start` on, in order. -/
def contents (mem : Nat → α) (cap start n : Nat) : List α :=
  (List.range n).map fun i => mem ((start + i) % cap)

/-- Consecutive cells from `first` on are overwritten. -/
def overwrite (mem : Nat → α) (first : Nat) (values : List α) : Nat → α :=
  fun i => if first ≤ i then (values[i - first]?).getD (mem i) else mem i

/-- What does not fit behind the cell of `start` goes to the front. -/
def write (mem : Nat → α) (cap start : Nat) (values : List α) : Nat → α :=
  let behind := min values.length (cap - start % cap)
  overwrite (overwrite mem (start % cap) (values.take behind)) 0
    (values.drop behind)

@[simp] theorem length_contents (mem : Nat → α) (cap start n : Nat) :
    (contents mem cap start n).length = n := by
  simp [contents]

@[simp] theorem contents_zero (mem : Nat → α) (cap start : Nat) :
    contents mem cap start 0 = [] :=
  rfl

/-- What lies from a position on, in two parts. -/
theorem contents_add (mem : Nat → α) (cap start n m : Nat) :
    contents mem cap start (n + m) =
      contents mem cap start n ++ contents mem cap (start + n) m := by
  simp [contents, List.range_add, Nat.add_assoc, Function.comp_def]

/-- Without the first `k` values, the rest lies `k` positions further on. -/
theorem contents_drop
    {mem : Nat → α}
    {cap start n k : Nat}
    (inside : k ≤ n) :
    contents mem cap start n =
      contents mem cap start k ++ contents mem cap (start + k) (n - k) := by
  rw [← contents_add, Nat.add_sub_cancel' inside]

/-- Only the cell of the start counts. -/
theorem contents_congr
    {mem : Nat → α}
    {cap start other n : Nat}
    (same : start ≡ other [MOD cap]) :
    contents mem cap start n = contents mem cap other n := by
  apply List.map_congr_left
  intro i _
  exact congrArg mem (same.add_right i)

/-- Up to the end of the buffer the cells are consecutive. -/
theorem contents_before_end
    {mem : Nat → α}
    {cap start n : Nat}
    (fits : start % cap + n ≤ cap) :
    contents mem cap start n =
      (List.range n).map fun i => mem (start % cap + i) := by
  apply List.map_congr_left
  intro i member
  have below := List.mem_range.mp member
  rw [Nat.add_mod, Nat.mod_eq_of_lt (by omega : i < cap),
    Nat.mod_eq_of_lt (by omega : start % cap + i < cap)]

/-- An overwritten cell. -/
theorem overwrite_inside
    {mem : Nat → α}
    {first j : Nat}
    {values : List α}
    (inside : j < values.length) :
    overwrite mem first values (first + j) = values[j] := by
  simp [overwrite, inside]

/-- A cell outside of what is overwritten. -/
theorem overwrite_outside
    {mem : Nat → α}
    {first i : Nat}
    {values : List α}
    (outside : i < first ∨ first + values.length ≤ i) :
    overwrite mem first values i = mem i := by
  unfold overwrite
  rcases outside with before | behind
  · rw [if_neg (by omega)]
  · rw [if_pos (by omega), List.getElem?_eq_none (by omega)]
    rfl

/-- Nothing to overwrite. -/
@[simp] theorem overwrite_nil (mem : Nat → α) (first : Nat) :
    overwrite mem first [] = mem := by
  funext i
  simp [overwrite]

section Write

variable {mem : Nat → α} {cap start : Nat} {values : List α}

/-- The cells of the positions that are written. -/
theorem write_inside
    {j : Nat}
    (fits : values.length ≤ cap)
    (inside : j < values.length) :
    write mem cap start values ((start + j) % cap) = values[j] := by
  have someCells : 0 < cap := by omega
  have startCell := Nat.mod_lt start someCells
  unfold write
  by_cases behind : start % cap + j < cap
  · have cell : (start + j) % cap = start % cap + j := by
      rw [Nat.add_mod, Nat.mod_eq_of_lt (by omega : j < cap),
        Nat.mod_eq_of_lt behind]
    rw [cell, overwrite_outside, overwrite_inside]
    · exact List.getElem_take
    · rw [List.length_take]
      omega
    · right
      rw [List.length_drop]
      omega
  · have cell : (start + j) % cap = 0 + (start % cap + j - cap) := by
      rw [Nat.add_mod, Nat.mod_eq_of_lt (by omega : j < cap),
        Nat.mod_eq_sub_mod (by omega), Nat.mod_eq_of_lt (by omega), Nat.zero_add]
    have inRest :
        start % cap + j - cap <
          (values.drop (min values.length (cap - start % cap))).length := by
      rw [List.length_drop]
      omega
    rw [cell, overwrite_inside inRest, List.getElem_drop]
    congr 1
    omega

/-- The cells of other positions are left alone. -/
theorem write_outside
    {i : Nat}
    (cell : i < cap)
    (apart : ∀ j < values.length, (start + j) % cap ≠ i) :
    write mem cap start values i = mem i := by
  have startCell := Nat.mod_lt start (Nat.zero_lt_of_lt cell)
  unfold write
  have notFront :
      0 + (values.drop (min values.length (cap - start % cap))).length ≤ i := by
    rw [List.length_drop]
    by_contra inFront
    refine apart (i + (cap - start % cap)) (by omega) ?_
    have wraps :
        start % cap + (i + (cap - start % cap)) = i + cap := by
      omega
    rw [← Nat.mod_add_mod, wraps, Nat.add_mod_right, Nat.mod_eq_of_lt cell]
  rw [overwrite_outside (.inr notFront), overwrite_outside]
  rw [List.length_take]
  by_contra inBack
  refine apart (i - start % cap) (by omega) ?_
  have back : start % cap + (i - start % cap) = i := by
    omega
  rw [← Nat.mod_add_mod, back, Nat.mod_eq_of_lt cell]

/-- Only the cell of the start counts. -/
theorem write_congr
    {other : Nat}
    (same : start ≡ other [MOD cap]) :
    write mem cap start values = write mem cap other values := by
  have cell : start % cap = other % cap := same
  unfold write
  rw [cell]

/-- What was written can be read. -/
theorem contents_write_self (fits : values.length ≤ cap) :
    contents (write mem cap start values) cap start values.length =
      values := by
  apply List.ext_getElem
  · simp
  · intro j _ inside
    simp only [contents, List.getElem_map, List.getElem_range]
    exact write_inside fits inside

/-- What lies before the written positions, within one turn, stays. -/
theorem contents_write_before
    {n : Nat}
    (fits : n + values.length ≤ cap) :
    contents (write mem cap (start + n) values) cap start n =
      contents mem cap start n := by
  apply List.map_congr_left
  intro i member
  have below := List.mem_range.mp member
  have someCells : 0 < cap := by omega
  refine write_outside (Nat.mod_lt _ someCells) ?_
  intro j inside sameCell
  have same : n + j ≡ i [MOD cap] := by
    refine Nat.ModEq.add_left_cancel' start ?_
    rw [← Nat.add_assoc]
    exact sameCell
  have equal := same.eq_of_lt_of_lt (by omega) (by omega)
  omega

/-- Writing behind the contents appends to them. -/
theorem contents_write
    {n : Nat}
    (fits : n + values.length ≤ cap) :
    contents (write mem cap (start + n) values) cap start
        (n + values.length) =
      contents mem cap start n ++ values := by
  rw [contents_add, contents_write_before fits,
    contents_write_self (Nat.le_trans (Nat.le_add_left ..) fits)]

end Write

end CircularBuffer
