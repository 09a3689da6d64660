import Mathlib.Algebra.Group.Nat.Defs
import Mathlib.Logic.Function.Iterate
import Mathlib.Tactic.Common

/-!
# Cyclic redundancy checks

A reflected CRC register of any width, into which digits of `k` bits are fed,
lowest bit first.  A step is linear, and it is injective when the polynomial has
its top bit: a burst that is no longer than the register is always detected.
-/

namespace Crc

variable {w k : Nat}

/-- The register moves down, and the polynomial is added for a bit that leaves. -/
def step (poly r : BitVec w) : BitVec w :=
  if r.getLsbD 0 then (r >>> 1) ^^^ poly else r >>> 1

/-- `n` steps. -/
def steps (poly : BitVec w) (n : Nat) : BitVec w → BitVec w :=
  (step poly)^[n]

/-- A digit is added to the low bits of the register, and leaves. -/
def feed (poly r : BitVec w) (digit : BitVec k) : BitVec w :=
  steps poly k (r ^^^ digit.setWidth w)

/-- A message, digit by digit. -/
def absorb (poly r : BitVec w) (message : List (BitVec k)) : BitVec w :=
  message.foldl (feed poly) r

/-- The digits of a message as one word, the first one lowest. -/
def word (w : Nat) : List (BitVec k) → BitVec w
  | [] => 0#w
  | digit :: rest => digit.setWidth w ^^^ (word w rest <<< k)

/-- Lists of one length that differ, and only in `n` consecutive places. -/
structure Burst {Digit : Type} (n : Nat) (u v : List Digit) : Prop where
  length : u.length = v.length
  distinct : u ≠ v
  window :
    ∃ start, ∀ i, i < start ∨ start + n ≤ i → u[i]? = v[i]?

/-!
## Linearity
-/

section Linear

variable {poly : BitVec w}

/-- A step is linear. -/
theorem step_xor
    (a b : BitVec w) :
    step poly (a ^^^ b) = step poly a ^^^ step poly b := by
  unfold step
  rw [BitVec.getLsbD_xor, BitVec.ushiftRight_xor_distrib]
  cases a.getLsbD 0 <;> cases b.getLsbD 0
  · rfl
  · exact BitVec.xor_assoc _ _ _
  · change (a >>> 1) ^^^ (b >>> 1) ^^^ poly = ((a >>> 1) ^^^ poly) ^^^ (b >>> 1)
    ac_rfl
  · -- The polynomial is added twice, and is gone.
    have twice :
        ((a >>> 1) ^^^ poly) ^^^ ((b >>> 1) ^^^ poly) =
          (a >>> 1) ^^^ (b >>> 1) ^^^ (poly ^^^ poly) := by
      ac_rfl
    rw [BitVec.xor_self, BitVec.xor_zero] at twice
    exact twice.symm

/-- Steps are linear. -/
theorem steps_xor
    (n : Nat)
    (a b : BitVec w) :
    steps poly n (a ^^^ b) = steps poly n a ^^^ steps poly n b := by
  induction n generalizing a b with
  | zero =>
      rfl
  | succ n inductionHypothesis =>
      simp only [steps, Function.iterate_succ_apply, step_xor] at *
      exact inductionHypothesis _ _

/-- What a step makes zero was zero, if the polynomial has its top bit. -/
theorem eq_zero_of_step
    (top : poly.msb = true)
    {r : BitVec w}
    (zero : step poly r = 0#w) :
    r = 0#w := by
  unfold step at zero
  cases low : r.getLsbD 0 with
  | true =>
      rw [low, if_pos rfl, BitVec.xor_eq_zero_iff] at zero
      rw [← zero, BitVec.msb_ushiftRight] at top
      cases top
  | false =>
      rw [low] at zero
      refine BitVec.eq_of_getLsbD_eq fun i inside => ?_
      rw [BitVec.getLsbD_zero]
      cases i with
      | zero =>
          exact low
      | succ i =>
          have bit := congrArg (fun moved => moved.getLsbD i) zero
          rw [Nat.add_comm, ← BitVec.getLsbD_ushiftRight]
          exact bit.trans BitVec.getLsbD_zero

/-- A step loses nothing. -/
theorem step_injective
    (top : poly.msb = true) :
    Function.Injective (step poly) := by
  intro a b same
  refine BitVec.xor_eq_zero_iff.mp (eq_zero_of_step top ?_)
  rw [step_xor, same, BitVec.xor_self]

/-- Steps lose nothing. -/
theorem steps_injective
    (top : poly.msb = true)
    (n : Nat) :
    Function.Injective (steps poly n) :=
  (step_injective top).iterate n

/-- Steps after steps. -/
theorem steps_add
    (n m : Nat)
    (r : BitVec w) :
    steps poly (n + m) r = steps poly n (steps poly m r) :=
  Function.iterate_add_apply _ n m r

end Linear

/-!
## Words
-/

section Words

variable {message : List (BitVec k)}

/-- The bits of the first digit, and then those of the others. -/
theorem getLsbD_word_cons
    (digit : BitVec k)
    (rest : List (BitVec k))
    {i : Nat}
    (inside : i < w) :
    (word w (digit :: rest)).getLsbD i =
      if i < k then digit.getLsbD i else (word w rest).getLsbD (i - k) := by
  rw [word, BitVec.getLsbD_xor, BitVec.getLsbD_setWidth,
    BitVec.getLsbD_shiftLeft]
  by_cases first : i < k
  · simp [inside, first]
  · simp [inside, first, BitVec.getLsbD_of_ge digit i (Nat.not_lt.mp first)]

/-- A word has no bits above its digits. -/
theorem getLsbD_word_of_ge
    {i : Nat}
    (above : k * message.length ≤ i) :
    (word w message).getLsbD i = false := by
  induction message generalizing i with
  | nil =>
      exact BitVec.getLsbD_zero
  | cons digit rest inductionHypothesis =>
      rw [List.length_cons, Nat.mul_succ] at above
      by_cases inside : i < w
      · rw [getLsbD_word_cons digit rest inside, if_neg (by omega)]
        exact inductionHypothesis (by omega)
      · exact BitVec.getLsbD_of_ge _ _ (Nat.not_lt.mp inside)

/-- As many digits as fit a word are determined by it. -/
theorem word_injective
    {other : List (BitVec k)}
    (sameLength : message.length = other.length)
    (fits : k * message.length ≤ w)
    (same : word w message = word w other) :
    message = other := by
  induction message generalizing other with
  | nil =>
      exact (List.length_eq_zero_iff.mp sameLength.symm).symm
  | cons digit rest inductionHypothesis =>
      cases other with
      | nil =>
          cases sameLength
      | cons otherDigit otherRest =>
          have restLength : rest.length = otherRest.length :=
            Nat.succ.inj sameLength
          rw [List.length_cons, Nat.mul_succ] at fits
          have bit {i : Nat} (inside : i < w) :
              (if i < k then digit.getLsbD i else (word w rest).getLsbD (i - k)) =
                if i < k then
                  otherDigit.getLsbD i
                else
                  (word w otherRest).getLsbD (i - k) := by
            rw [← getLsbD_word_cons digit rest inside,
              ← getLsbD_word_cons otherDigit otherRest inside, same]
          have first : digit = otherDigit := by
            refine BitVec.eq_of_getLsbD_eq fun i low => ?_
            have equal := bit (show i < w by omega)
            rwa [if_pos low, if_pos low] at equal
          have later : word w rest = word w otherRest := by
            refine BitVec.eq_of_getLsbD_eq fun i inside => ?_
            by_cases shifted : i + k < w
            · have equal := bit shifted
              rwa [if_neg (by omega), if_neg (by omega),
                Nat.add_sub_cancel] at equal
            · rw [getLsbD_word_of_ge (by omega),
                getLsbD_word_of_ge (restLength ▸ (by omega))]
          rw [first, inductionHypothesis restLength (by omega) later]

/-- The number a word stands for, when its digits fit. -/
theorem toNat_word_cons
    (digit : BitVec k)
    (rest : List (BitVec k))
    (fits : k * (rest.length + 1) ≤ w) :
    (word w (digit :: rest)).toNat =
      digit.toNat + 2 ^ k * (word w rest).toNat := by
  rw [Nat.mul_succ] at fits
  refine Nat.eq_of_testBit_eq fun i => ?_
  rw [Nat.add_comm, Nat.testBit_two_pow_mul_add _ digit.isLt,
    BitVec.testBit_toNat, BitVec.testBit_toNat, BitVec.testBit_toNat]
  by_cases inside : i < w
  · exact getLsbD_word_cons digit rest inside
  · rw [BitVec.getLsbD_of_ge _ _ (Nat.not_lt.mp inside), if_neg (by omega),
      getLsbD_word_of_ge (by omega)]

/-- Steps move a word down that has room above its digits. -/
theorem steps_shiftLeft
    {poly : BitVec w}
    {r : BitVec w}
    {n : Nat}
    (room : ∀ i, w - n ≤ i → r.getLsbD i = false) :
    steps poly n (r <<< n) = r := by
  induction n with
  | zero =>
      rw [BitVec.shiftLeft_zero]
      rfl
  | succ n inductionHypothesis =>
      have low : (r <<< (n + 1)).getLsbD 0 = false := by
        rw [BitVec.getLsbD_shiftLeft]
        simp
      have moved : step poly (r <<< (n + 1)) = r <<< n := by
        rw [step, low, if_neg Bool.false_ne_true]
        refine BitVec.eq_of_getLsbD_eq fun i inside => ?_
        rw [BitVec.getLsbD_ushiftRight, BitVec.getLsbD_shiftLeft,
          BitVec.getLsbD_shiftLeft, Nat.add_comm 1 i, Nat.add_sub_add_right]
        by_cases last : i + 1 < w
        · simp [inside, last]
        · rw [room (i - n) (by omega), Bool.and_false, Bool.and_false]
      have after : steps poly (n + 1) (r <<< (n + 1)) =
          steps poly n (step poly (r <<< (n + 1))) :=
        Function.iterate_succ_apply _ n _
      rw [after, moved]
      exact inductionHypothesis fun i above => room i (by omega)

/-- A message that fits the register is absorbed as one word. -/
theorem absorb_eq_steps
    (poly r : BitVec w)
    (fits : k * message.length ≤ w) :
    absorb poly r message =
      steps poly (k * message.length) (r ^^^ word w message) := by
  induction message generalizing r with
  | nil =>
      rw [word, BitVec.xor_zero]
      rfl
  | cons digit rest inductionHypothesis =>
      rw [List.length_cons, Nat.mul_succ] at fits
      have down : steps poly k (word w rest <<< k) = word w rest :=
        steps_shiftLeft fun i above => getLsbD_word_of_ge (by omega)
      have later := inductionHypothesis (feed poly r digit) (by omega)
      calc
        absorb poly r (digit :: rest) = absorb poly (feed poly r digit) rest :=
          rfl
        _ = steps poly (k * rest.length) (feed poly r digit ^^^ word w rest) :=
          later
        _ = steps poly (k * rest.length)
              (steps poly k (r ^^^ word w (digit :: rest))) := by
          rw [word, ← BitVec.xor_assoc, steps_xor k _ (word w rest <<< k), down,
            feed]
        _ = steps poly (k * (digit :: rest).length)
              (r ^^^ word w (digit :: rest)) := by
          rw [← steps_add, List.length_cons, Nat.mul_succ]

/-- A message is absorbed part by part. -/
theorem absorb_append
    (poly r : BitVec w)
    (first second : List (BitVec k)) :
    absorb poly r (first ++ second) = absorb poly (absorb poly r first) second :=
  List.foldl_append

end Words

/-!
## What is detected
-/

section Detection

variable {poly : BitVec w} {n : Nat} {u v : List (BitVec k)}

/-- A register is not forgotten, whatever message follows. -/
theorem absorb_injective
    (top : poly.msb = true)
    (message : List (BitVec k)) :
    Function.Injective fun r => absorb poly r message := by
  intro r other same
  induction message generalizing r other with
  | nil =>
      exact same
  | cons digit rest inductionHypothesis =>
      have fed : feed poly r digit = feed poly other digit :=
        inductionHypothesis same
      exact (BitVec.xor_left_inj _).mp (steps_injective top k fed)

/-- Lists that differ by a burst share what is before and after it. -/
theorem Burst.split
    {Digit : Type}
    {u v : List Digit}
    (burst : Burst n u v) :
    ∃ before first second after,
      u = before ++ (first ++ after) ∧ v = before ++ (second ++ after) ∧
        first.length = second.length ∧ first.length ≤ n ∧ first ≠ second := by
  obtain ⟨start, outside⟩ := burst.window
  have sameBefore : u.take start = v.take start := by
    refine List.ext_getElem? fun i => ?_
    by_cases inside : i < start
    · rw [List.getElem?_take_of_lt inside, List.getElem?_take_of_lt inside]
      exact outside i (.inl inside)
    · rw [List.getElem?_take_eq_none (Nat.not_lt.mp inside),
        List.getElem?_take_eq_none (Nat.not_lt.mp inside)]
  have sameAfter : u.drop (start + n) = v.drop (start + n) := by
    refine List.ext_getElem? fun i => ?_
    rw [List.getElem?_drop, List.getElem?_drop]
    exact outside _ (.inr (Nat.le_add_right _ _))
  have parts (l : List Digit) :
      l = l.take start ++ ((l.drop start).take n ++ l.drop (start + n)) := by
    rw [← List.drop_drop, List.take_append_drop, List.take_append_drop]
  refine ⟨u.take start, (u.drop start).take n, (v.drop start).take n,
    u.drop (start + n), parts u, ?_, ?_, List.length_take_le _ _, ?_⟩
  · rw [sameBefore, sameAfter]
    exact parts v
  · rw [List.length_take, List.length_take, List.length_drop,
      List.length_drop, burst.length]
  · intro same
    have equal := parts u
    rw [sameBefore, same, sameAfter, ← parts v] at equal
    exact burst.distinct equal

/-- A burst that is no longer than the register is detected. -/
theorem absorb_ne_of_burst
    (top : poly.msb = true)
    (fits : k * n ≤ w)
    (burst : Burst n u v)
    (r : BitVec w) :
    absorb poly r u ≠ absorb poly r v := by
  intro same
  obtain ⟨before, first, second, after, rfl, rfl, sameLength, short, different⟩ :=
    burst.split
  have firstFits : k * first.length ≤ w :=
    Nat.le_trans (Nat.mul_le_mul_left k short) fits
  have secondFits : k * second.length ≤ w := sameLength ▸ firstFits
  simp only [absorb_append] at same
  have together := absorb_injective top after same
  rw [absorb_eq_steps poly (absorb poly r before) firstFits,
    absorb_eq_steps poly (absorb poly r before) secondFits,
    sameLength] at together
  have words := (BitVec.xor_right_inj _).mp (steps_injective top _ together)
  exact different (word_injective sameLength firstFits words)

/-- A check that fills the register is right when it makes the register this. -/
theorem absorb_check_iff
    (top : poly.msb = true)
    (r final : BitVec w)
    (message check : List (BitVec k))
    (fills : k * check.length = w) :
    word w check = absorb poly r message ^^^ final ↔
      absorb poly r (message ++ check) = steps poly w final := by
  rw [absorb_append, absorb_eq_steps _ _ (Nat.le_of_eq fills), fills,
    (steps_injective top w).eq_iff]
  constructor
  · intro isCheck
    rw [isCheck, ← BitVec.xor_assoc, BitVec.xor_self, BitVec.zero_xor]
  · intro isFinal
    rw [← isFinal, ← BitVec.xor_assoc, BitVec.xor_self, BitVec.zero_xor]

end Detection

/-!
## By table
-/

section Table

variable {w k : Nat}

/-- A register is its low digit, and what is above it. -/
theorem low_xor_high (r : BitVec w) (k : Nat) :
    (r.setWidth k).setWidth w ^^^ ((r >>> k) <<< k) = r := by
  refine BitVec.eq_of_getLsbD_eq fun i inside => ?_
  rw [BitVec.getLsbD_xor, BitVec.getLsbD_setWidth, BitVec.getLsbD_setWidth,
    BitVec.getLsbD_shiftLeft, BitVec.getLsbD_ushiftRight]
  by_cases low : i < k
  · simp [inside, low]
  · simp [inside, low, Nat.add_sub_cancel' (Nat.le_of_not_lt low)]

/-- The steps of a digit: those of the low digit, looked up, and a shift. -/
theorem steps_table (poly r : BitVec w) (k : Nat) :
    steps poly k r =
      steps poly k ((r.setWidth k).setWidth w) ^^^ (r >>> k) := by
  have above : ∀ i, w - k ≤ i → (r >>> k).getLsbD i = false := by
    intro i past
    rw [BitVec.getLsbD_ushiftRight]
    exact BitVec.getLsbD_of_ge _ _ (by omega)
  have parts :=
    @steps_xor w poly k ((r.setWidth k).setWidth w) ((r >>> k) <<< k)
  rw [low_xor_high, steps_shiftLeft above] at parts
  exact parts

end Table

end Crc
