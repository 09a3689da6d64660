import Mathlib.Tactic.Common
import Mathlib.Data.List.Nodup
import Mathlib.Data.List.Count
import Mathlib.Data.List.Perm.Subperm
import Mathlib.Data.Nat.ModEq

/-!
# Taking turns by a counter

A counter goes round a table of `size` slots, and picks from a ring of members
by its remainder.  In a window of as many picks as the ring has members each
member has its turn once, unless the counter starts again inside the window and
the ring does not divide the table.
-/

namespace Rotation

variable {α : Type}

/-- In every window as long as the ring, every member has its turn once. -/
def Fair [DecidableEq α] (ring selected : List α) : Prop :=
  ∀ start,
    start + ring.length ≤ selected.length →
      ∀ member ∈ ring,
        ((selected.drop start).take ring.length).count member = 1

/-- The picks of a counter that starts at `first`. -/
def Walks (size first : Nat) (ring selected : List α) : Prop :=
  ∀ j < selected.length,
    selected[j]? = ring[(first + j) % size % ring.length]?

/-- No two slots of a window pick the same member. -/
def Apart (size k a : Nat) : Prop :=
  ∀ i j,
    i < k →
      j < k →
        (a + i) % size % k = (a + j) % size % k → i = j

/-- Different slots less than a ring apart have different remainders. -/
theorem eq_of_mod_eq
    {k a i j : Nat}
    (below : i < k)
    (other : j < k)
    (same : (a + i) % k = (a + j) % k) :
    i = j := by
  have congruent : i ≡ j [MOD k] := Nat.ModEq.add_left_cancel' a same
  exact congruent.eq_of_lt_of_lt below other

/-- A counter that goes on through the window picks different members. -/
theorem apart_of_straight
    {size k a : Nat}
    (straight : a % size + k ≤ size) :
    Apart size k a := by
  intro i j below other same
  have inside {d : Nat} (small : d < k) : (a + d) % size = a % size + d := by
    rw [Nat.add_mod, Nat.mod_eq_of_lt (by omega : d < size),
      Nat.mod_eq_of_lt (by omega)]
  rw [inside below, inside other] at same
  exact eq_of_mod_eq below other same

/-- So does one whose table is a number of whole rings. -/
theorem apart_of_dvd
    {size k : Nat}
    (whole : k ∣ size)
    (a : Nat) :
    Apart size k a := by
  intro i j below other same
  rw [Nat.mod_mod_of_dvd _ whole, Nat.mod_mod_of_dvd _ whole] at same
  exact eq_of_mod_eq below other same

/-- A counter that starts again inside the window picks a member twice. -/
theorem not_apart
    {size k a : Nat}
    (positive : 0 < k)
    (room : k ≤ size)
    (partly : ¬k ∣ size)
    (wraps : size < a % size + k) :
    ¬Apart size k a := by
  intro apart
  obtain ⟨b, isB⟩ : ∃ b, a % size = b := ⟨_, rfl⟩
  obtain ⟨q, r, whole, rBelow⟩ : ∃ q r, size = k * q + r ∧ r < k :=
    ⟨size / k, size % k, (Nat.div_add_mod size k).symm, Nat.mod_lt size positive⟩
  have rPositive : 0 < r := by
    refine Nat.pos_of_ne_zero fun none => partly ⟨q, ?_⟩
    rw [whole, none, Nat.add_zero]
  have bBelow : b < size :=
    isB ▸ Nat.mod_lt a (Nat.lt_of_lt_of_le positive room)
  rw [isB] at wraps
  have slot (d : Nat) : (a + d) % size = (b + d) % size := by
    rw [Nat.add_mod, isB, Nat.add_mod b d size, Nat.mod_eq_of_lt bBelow]
  -- a remainder that comes up just before the wrap and again behind it
  obtain ⟨t, early, behind, after⟩ :
      ∃ t, t < r ∧ size + t < b + k ∧ b + r ≤ size + t := by
    rcases Nat.lt_or_ge (size + (r - 1)) (b + k) with below | above
    · exact ⟨r - 1, by omega, below, by omega⟩
    · exact ⟨b + k - size - 1, by omega, by omega, by omega⟩
  have small : t % k = t := Nat.mod_eq_of_lt (by omega)
  have first : (a + (size - r + t - b)) % size % k = t := by
    have value : b + (size - r + t - b) = k * q + t := by omega
    rw [slot, value, Nat.mod_eq_of_lt (by omega : k * q + t < size),
      Nat.mul_add_mod, small]
  have second : (a + (size - b + t)) % size % k = t := by
    have value : b + (size - b + t) = size + t := by omega
    rw [slot, value, Nat.add_mod_left, Nat.mod_eq_of_lt (by omega : t < size),
      small]
  have same :=
    apart (size - r + t - b) (size - b + t) (by omega) (by omega)
      (first.trans second.symm)
  omega

/-- When the slots of a window pick different members. -/
theorem apart_iff
    {size k a : Nat}
    (positive : 0 < k)
    (room : k ≤ size) :
    Apart size k a ↔ k ∣ size ∨ a % size + k ≤ size := by
  constructor
  · intro apart
    by_contra neither
    obtain ⟨partly, wraps⟩ := not_or.mp neither
    exact not_apart positive room partly (Nat.not_le.mp wraps) apart
  · rintro (whole | straight)
    · exact apart_of_dvd whole a
    · exact apart_of_straight straight

/-- In a window as long as the ring, fair and free of repetitions are the same. -/
theorem turns_iff_nodup
    [DecidableEq α]
    {ring window : List α}
    (long : window.length = ring.length)
    (inside : ∀ member ∈ window, member ∈ ring) :
    (∀ member ∈ ring, window.count member = 1) ↔ window.Nodup := by
  constructor
  · intro turns
    refine List.nodup_iff_count_le_one.mpr fun member => ?_
    by_cases isMember : member ∈ ring
    · exact Nat.le_of_eq (turns member isMember)
    · rw [List.count_eq_zero.mpr fun here => isMember (inside member here)]
      exact Nat.zero_le 1
  · intro once member isMember
    have all : window.Perm ring :=
      (List.subperm_of_subset once inside).perm_of_length_le
        (Nat.le_of_eq long.symm)
    exact List.count_eq_one_of_mem once (all.mem_iff.mpr isMember)

variable {size first : Nat} {ring selected : List α}

/-- A pick of a window. -/
theorem Walks.window
    (walks : Walks size first ring selected)
    {start i : Nat}
    (inside : start + ring.length ≤ selected.length)
    (below : i < ring.length) :
    ((selected.drop start).take ring.length)[i]? =
      ring[(first + start + i) % size % ring.length]? := by
  rw [List.getElem?_take_of_lt below, List.getElem?_drop,
    walks (start + i) (by omega), Nat.add_assoc]

/-- A window is free of repetitions when its slots pick different members. -/
theorem Walks.nodup_iff
    (walks : Walks size first ring selected)
    (distinct : ring.Nodup)
    {start : Nat}
    (inside : start + ring.length ≤ selected.length) :
    ((selected.drop start).take ring.length).Nodup ↔
      Apart size ring.length (first + start) := by
  have long : ((selected.drop start).take ring.length).length = ring.length := by
    rw [List.length_take, List.length_drop]
    omega
  have picked {i : Nat} (below : i < ring.length) :
      (first + start + i) % size % ring.length < ring.length :=
    Nat.mod_lt _ (Nat.lt_of_le_of_lt (Nat.zero_le i) below)
  rw [List.nodup_iff_getElem?_ne_getElem?]
  constructor
  · intro differ i j below other same
    by_contra unequal
    rcases Nat.lt_or_gt_of_ne unequal with lower | higher
    · refine differ i j lower (long.symm ▸ other) ?_
      rw [walks.window inside below, walks.window inside other, same]
    · refine differ j i higher (long.symm ▸ below) ?_
      rw [walks.window inside below, walks.window inside other, same]
  · intro apart i j lower other same
    rw [long] at other
    have below : i < ring.length := Nat.lt_trans lower other
    rw [walks.window inside below, walks.window inside other] at same
    have equal := (List.getElem?_inj (picked below) distinct).mp same
    exact Nat.ne_of_lt lower (apart i j below other equal)

/-- A window of picks is made of members. -/
theorem Walks.mem_ring
    (walks : Walks size first ring selected)
    {start : Nat}
    {member : α}
    (isPicked : member ∈ (selected.drop start).take ring.length) :
    member ∈ ring := by
  have isSelected : member ∈ selected :=
    List.mem_of_mem_drop (List.mem_of_mem_take isPicked)
  obtain ⟨j, below, isMember⟩ := List.mem_iff_getElem.mp isSelected
  have pick := walks j below
  rw [List.getElem?_eq_getElem below, isMember] at pick
  exact List.mem_of_getElem? pick.symm

/--
The picks are fair exactly when the ring divides the table, or the counter
starts again in no window.
-/
theorem Walks.fair_iff
    [DecidableEq α]
    (walks : Walks size first ring selected)
    (distinct : ring.Nodup)
    (positive : 0 < ring.length)
    (room : ring.length ≤ size) :
    Fair ring selected ↔
      ring.length ∣ size ∨
        ∀ start,
          start + ring.length ≤ selected.length →
            (first + start) % size + ring.length ≤ size := by
  have atEach {start : Nat} (inside : start + ring.length ≤ selected.length) :
      (∀ member ∈ ring,
          ((selected.drop start).take ring.length).count member = 1) ↔
        ring.length ∣ size ∨ (first + start) % size + ring.length ≤ size := by
    refine (turns_iff_nodup ?_ fun _ => walks.mem_ring).trans ?_
    · rw [List.length_take, List.length_drop]
      omega
    · exact (walks.nodup_iff distinct inside).trans (apart_iff positive room)
  constructor
  · intro fair
    by_cases whole : ring.length ∣ size
    · exact Or.inl whole
    · exact
        Or.inr fun start inside =>
          ((atEach inside).mp (fair start inside)).resolve_left whole
  · rintro (whole | straight) start inside
    · exact (atEach inside).mpr (Or.inl whole)
    · exact (atEach inside).mpr (Or.inr (straight start inside))

end Rotation
