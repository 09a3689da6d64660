import Mathlib.Algebra.Group.Nat.Defs
import Mathlib.Tactic.Common

/-!
# Arithmetic on machine words

The same program can be run with words that wrap around, as the machine has
them, and with words that trap.  Where both runs give the same result, nothing
overflowed.
-/

/-- Addition and subtraction of 32-bit words; `none` is a trap. -/
structure WordArith where
  add : UInt32 → UInt32 → Option UInt32
  sub : UInt32 → UInt32 → Option UInt32

namespace WordArith

/-- The machine's arithmetic, modulo 2^32. -/
def wrapping : WordArith where
  add := fun a b => some (a + b)
  sub := fun a b => some (a - b)

/-- Arithmetic that traps where a result does not fit. -/
def trapping : WordArith where
  add := fun a b =>
    if a.toNat + b.toNat < 2 ^ 32 then some (a + b) else none
  sub := fun a b => if b ≤ a then some (a - b) else none

/-- Both agree with numbers wherever a result fits. -/
structure Exact (words : WordArith) : Prop where
  add :
    ∀ {a b : UInt32},
      a.toNat + b.toNat < 2 ^ 32 →
        ∃ c, words.add a b = some c ∧ c.toNat = a.toNat + b.toNat
  sub :
    ∀ {a b : UInt32},
      b.toNat ≤ a.toNat →
        ∃ c, words.sub a b = some c ∧ c.toNat = a.toNat - b.toNat

/-- A sum that fits. -/
theorem toNat_add_of_fits
    {a b : UInt32}
    (fits : a.toNat + b.toNat < 2 ^ 32) :
    (a + b).toNat = a.toNat + b.toNat := by
  rw [UInt32.toNat_add]
  exact Nat.mod_eq_of_lt fits

theorem wrapping_exact : wrapping.Exact where
  add := fun fits => ⟨_, rfl, toNat_add_of_fits fits⟩
  sub := fun le =>
    ⟨_, rfl, UInt32.toNat_sub_of_le _ _ (UInt32.le_iff_toNat_le.mpr le)⟩

theorem trapping_exact : trapping.Exact where
  add := fun fits => ⟨_, if_pos fits, toNat_add_of_fits fits⟩
  sub := fun le =>
    ⟨_, if_pos (UInt32.le_iff_toNat_le.mpr le),
      UInt32.toNat_sub_of_le _ _ (UInt32.le_iff_toNat_le.mpr le)⟩

/-- A sum that fits is the sum of the words. -/
theorem Exact.add_eq
    {words : WordArith}
    (exact : words.Exact)
    {a b : UInt32}
    (fits : a.toNat + b.toNat < 2 ^ 32) :
    words.add a b = some (a + b) := by
  obtain ⟨c, sum, value⟩ := exact.add fits
  rw [sum, UInt32.toNat_inj.mp (value.trans (toNat_add_of_fits fits).symm)]

/-- A difference that fits is the difference of the words. -/
theorem Exact.sub_eq
    {words : WordArith}
    (exact : words.Exact)
    {a b : UInt32}
    (le : b ≤ a) :
    words.sub a b = some (a - b) := by
  obtain ⟨c, difference, value⟩ := exact.sub (UInt32.le_iff_toNat_le.mp le)
  rw [difference,
    UInt32.toNat_inj.mp (value.trans (UInt32.toNat_sub_of_le _ _ le).symm)]

/--
A call ends and its words do not overflow: with turns to spare it returns this
result, in wrapping and in trapping arithmetic.
-/
def Returns
    {Result : Type}
    (call : WordArith → Nat → Option Result)
    (result : Result) : Prop :=
  ∃ enough, ∀ turns, enough < turns →
    call wrapping turns = some result ∧ call trapping turns = some result

/-- What holds of exact arithmetic holds of both. -/
theorem Returns.of_exact
    {Result : Type}
    {call : WordArith → Nat → Option Result}
    {result : Result}
    (enough : Nat)
    (returns :
      ∀ {words : WordArith}, words.Exact →
        ∀ {turns}, enough < turns → call words turns = some result) :
    Returns call result :=
  ⟨enough, fun _ above =>
    ⟨returns wrapping_exact above, returns trapping_exact above⟩⟩

end WordArith

/-- The same with multiplication. -/
structure WordRing extends WordArith where
  mul : UInt32 → UInt32 → Option UInt32

namespace WordRing

/-- The machine's arithmetic, modulo 2^32. -/
def wrapping : WordRing where
  toWordArith := WordArith.wrapping
  mul := fun a b => some (a * b)

/-- Arithmetic that traps where a result does not fit. -/
def trapping : WordRing where
  toWordArith := WordArith.trapping
  mul := fun a b => if a.toNat * b.toNat < 2 ^ 32 then some (a * b) else none

/-- Both agree with numbers wherever a result fits. -/
structure Exact (words : WordRing) : Prop extends words.toWordArith.Exact where
  mul :
    ∀ {a b : UInt32},
      a.toNat * b.toNat < 2 ^ 32 →
        words.mul a b = some (a * b)

theorem wrapping_exact : wrapping.Exact where
  toExact := WordArith.wrapping_exact
  mul := fun _ => rfl

theorem trapping_exact : trapping.Exact where
  toExact := WordArith.trapping_exact
  mul := fun fits => if_pos fits

/-- A product that fits. -/
theorem toNat_mul_of_fits
    {a b : UInt32}
    (fits : a.toNat * b.toNat < 2 ^ 32) :
    (a * b).toNat = a.toNat * b.toNat := by
  rw [UInt32.toNat_mul]
  exact Nat.mod_eq_of_lt fits

end WordRing
