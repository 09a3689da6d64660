import Mathlib.Tactic.Common

/-!
# Aligned blocks and their parts

A block of a size is aligned when it starts at a multiple of that size.  A range
lies in at most one aligned block of a size.  A block is tiled by parts of equal
length; those that a range meets are together the range itself exactly when both
ends of the range lie between two parts.
-/

namespace AlignedBlock

/-- The aligned block at `start` contains `[base, stop)`. -/
structure Contains (size start base stop : Nat) : Prop where
  aligned : size ∣ start
  below : start ≤ base
  above : stop ≤ start + size

section Blocks

variable {size start base stop : Nat}

/-- The block is the one its size and the range determine. -/
theorem Contains.start_eq
    (contains : Contains size start base stop)
    (nonempty : base < stop) :
    start = base - base % size := by
  obtain ⟨⟨q, rfl⟩, below, above⟩ := contains
  have inside : base - size * q < size := by omega
  have remainder : base % size = base - size * q := by
    conv_lhs => rw [show base = base - size * q + size * q by omega]
    rw [Nat.add_mul_mod_self_left, Nat.mod_eq_of_lt inside]
  omega

/-- There is such a block when the range does not leave that one. -/
theorem contains_of_le
    (above : stop ≤ base - base % size + size) :
    Contains size (base - base % size) base stop :=
  ⟨Nat.dvd_sub_mod base, Nat.sub_le .., above⟩

end Blocks

section Parts

variable {start part base stop : Nat}

/-- `x` lies in the `i`-th part of a block. -/
def InPart (start part i x : Nat) : Prop :=
  start + i * part ≤ x ∧ x < start + (i + 1) * part

/-- The range meets the `i`-th part. -/
def Meets (start part base stop i : Nat) : Prop :=
  ∃ x, InPart start part i x ∧ base ≤ x ∧ x < stop

/-- Two ranges meet when neither ends before the other begins. -/
theorem meets_iff
    (positive : 0 < part)
    (nonempty : base < stop)
    (i : Nat) :
    Meets start part base stop i ↔
      start + i * part < stop ∧ base < start + (i + 1) * part := by
  have wide : start + (i + 1) * part = start + i * part + part := by
    rw [Nat.succ_mul, Nat.add_assoc]
  constructor
  · rintro ⟨x, ⟨low, high⟩, above, below⟩
    exact ⟨Nat.lt_of_le_of_lt low below, Nat.lt_of_le_of_lt above high⟩
  · rintro ⟨early, late⟩
    refine ⟨max (start + i * part) base, ⟨Nat.le_max_left .., ?_⟩,
      Nat.le_max_right .., ?_⟩
    · exact Nat.max_lt.mpr ⟨by omega, late⟩
    · exact Nat.max_lt.mpr ⟨early, nonempty⟩

/-- Every address behind the start lies in a part. -/
theorem inPart_div
    (positive : 0 < part)
    {x : Nat}
    (behind : start ≤ x) :
    InPart start part ((x - start) / part) x := by
  have whole := Nat.div_add_mod (x - start) part
  have rest := Nat.mod_lt (x - start) positive
  rw [Nat.mul_comm] at whole
  rw [InPart, Nat.succ_mul]
  omega

/-- A range that its parts do not leave begins and ends between two parts. -/
theorem dvd_of_tiled
    (positive : 0 < part)
    (aligned : part ∣ start)
    (behind : start ≤ base)
    (nonempty : base < stop)
    (tiled :
      ∀ i x,
        Meets start part base stop i →
          InPart start part i x →
            base ≤ x ∧ x < stop) :
    part ∣ base ∧ part ∣ stop := by
  constructor
  · -- the part that `base` lies in does not begin before it
    have inside := inPart_div positive behind
    generalize (base - start) / part = i at inside
    have meets : Meets start part base stop i :=
      ⟨base, inside, Nat.le_refl base, nonempty⟩
    have first : InPart start part i (start + i * part) :=
      ⟨Nat.le_refl _, by rw [Nat.succ_mul]; omega⟩
    have above := (tiled i _ meets first).1
    have same : base = start + i * part :=
      Nat.le_antisymm above inside.1
    rw [same]
    exact Nat.dvd_add aligned (Nat.dvd_mul_left part i)
  · -- and the one that the last address lies in does not end behind it
    have inside := inPart_div positive (show start ≤ stop - 1 by omega)
    generalize (stop - 1 - start) / part = i at inside
    have meets : Meets start part base stop i :=
      ⟨stop - 1, inside, by omega, by omega⟩
    have last : InPart start part i (start + (i + 1) * part - 1) := by
      rw [InPart, Nat.succ_mul]
      omega
    have below := (tiled i _ meets last).2
    have same : stop = start + (i + 1) * part := by
      have high := inside.2
      have low := inside.1
      rw [Nat.succ_mul] at high below ⊢
      omega
    rw [same]
    exact Nat.dvd_add aligned (Nat.dvd_mul_left part (i + 1))

/-- Between two parts, a part that the range meets does not leave it. -/
theorem within_of_dvd
    (positive : 0 < part)
    (aligned : part ∣ start)
    (nonempty : base < stop)
    (low : part ∣ base)
    (high : part ∣ stop)
    {i x : Nat}
    (meets : Meets start part base stop i)
    (inside : InPart start part i x) :
    base ≤ x ∧ x < stop := by
  obtain ⟨early, late⟩ := (meets_iff positive nonempty i).mp meets
  have apart {a b : Nat} (divides : part ∣ a) (dividesOther : part ∣ b)
      (less : a < b) : a + part ≤ b := by
    have least := Nat.le_of_dvd (by omega) (Nat.dvd_sub dividesOther divides)
    omega
  have begins : part ∣ start + i * part :=
    Nat.dvd_add aligned (Nat.dvd_mul_left part i)
  have ends : part ∣ start + (i + 1) * part :=
    Nat.dvd_add aligned (Nat.dvd_mul_left part (i + 1))
  have above := apart begins high early
  have below := apart low ends late
  obtain ⟨least, most⟩ := inside
  rw [Nat.succ_mul] at below most
  omega

/--
The parts that a range meets, of `parts` many, are the range exactly when its
ends lie between two parts.
-/
theorem meeting_parts_iff
    {parts : Nat}
    (positive : 0 < part)
    (aligned : part ∣ start)
    (behind : start ≤ base)
    (nonempty : base < stop)
    (before : stop ≤ start + parts * part) :
    (∀ x,
      (∃ i < parts, Meets start part base stop i ∧ InPart start part i x) ↔
        base ≤ x ∧ x < stop) ↔
      part ∣ base ∧ part ∣ stop := by
  have isPart {i : Nat} (meets : Meets start part base stop i) : i < parts := by
    have early := ((meets_iff positive nonempty i).mp meets).1
    have less : i * part < parts * part := by omega
    exact Nat.lt_of_mul_lt_mul_right less
  constructor
  · intro same
    refine dvd_of_tiled positive aligned behind nonempty fun i x meets inside => ?_
    exact (same x).mp ⟨i, isPart meets, meets, inside⟩
  · rintro ⟨low, high⟩ x
    constructor
    · rintro ⟨i, -, meets, inside⟩
      exact within_of_dvd positive aligned nonempty low high meets inside
    · rintro ⟨above, below⟩
      have inside := inPart_div positive (Nat.le_trans behind above)
      have meets : Meets start part base stop ((x - start) / part) :=
        ⟨x, inside, above, below⟩
      exact ⟨_, isPart meets, meets, inside⟩

end Parts

end AlignedBlock
