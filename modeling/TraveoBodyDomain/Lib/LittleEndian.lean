import Mathlib.Tactic.Common
import Mathlib.Tactic.Ring

/-!
# Little-endian bytes

Natural numbers as little-endian byte lists of a fixed width, the arithmetic
that shift-and-or code is compared with.
-/

namespace LittleEndian

/-- The low `width` bytes of `value`, least significant first. -/
def toLe : Nat → Nat → List UInt8
  | 0, _ => []
  | width + 1, value => UInt8.ofNat value :: toLe width (value / 256)

/-- The number a byte list denotes, least significant byte first. -/
def ofLe : List UInt8 → Nat
  | [] => 0
  | byte :: rest => byte.toNat + 256 * ofLe rest

@[simp] theorem length_toLe
    (width value : Nat) :
    (toLe width value).length = width := by
  induction width generalizing value with
  | zero =>
      rfl
  | succ width inductionHypothesis =>
      simp [toLe, inductionHypothesis]

/-- Reading back what was written loses only what did not fit. -/
theorem ofLe_toLe
    (width value : Nat) :
    ofLe (toLe width value) = value % 256 ^ width := by
  induction width generalizing value with
  | zero =>
      simp [toLe, ofLe, Nat.mod_one]
  | succ width inductionHypothesis =>
      have low : (UInt8.ofNat value).toNat = value % 256 :=
        UInt8.toNat_ofNat'
      rw [toLe, ofLe, low, inductionHypothesis, Nat.pow_succ', Nat.mod_mul]

/-- Writing back what was read gives the same bytes. -/
theorem toLe_ofLe
    (bytes : List UInt8) :
    toLe bytes.length (ofLe bytes) = bytes := by
  induction bytes with
  | nil =>
      rfl
  | cons byte rest inductionHypothesis =>
      have small := byte.toNat_lt
      have low : UInt8.ofNat (byte.toNat + 256 * ofLe rest) = byte := by
        apply UInt8.toNat_inj.mp
        simp only [UInt8.toNat_ofNat']
        omega
      have high : (byte.toNat + 256 * ofLe rest) / 256 = ofLe rest := by
        omega
      simp only [List.length_cons, ofLe, toLe, low, high, inductionHypothesis]

/-- Or-ing a byte below shifted bits adds it. -/
theorem or_shiftLeft
    {low : Nat}
    (high bits : Nat)
    (fits : low < 2 ^ bits) :
    low ||| high <<< bits = low + 2 ^ bits * high := by
  rw [Nat.or_comm, ← Nat.shiftLeft_add_eq_or_of_lt fits, Nat.shiftLeft_eq]
  ring

/-- Masking with 0xFF keeps the low byte. -/
theorem and_byte
    (value : Nat) :
    value &&& 0xFF = value % 256 :=
  Nat.and_two_pow_sub_one_eq_mod value 8

/-- A 16-bit word split by shifting and masking. -/
theorem split16
    (v : UInt16) :
    [(v &&& 0xFF).toUInt8, ((v >>> 8) &&& 0xFF).toUInt8] =
      toLe 2 v.toNat := by
  simp only [toLe]
  congr 1
  · apply UInt8.toNat_inj.mp
    simp [and_byte]
  · congr 1
    apply UInt8.toNat_inj.mp
    simp [and_byte, Nat.shiftRight_eq_div_pow]

/-- A 32-bit word split by shifting and masking. -/
theorem split32
    (v : UInt32) :
    [(v &&& 0xFF).toUInt8, ((v >>> 8) &&& 0xFF).toUInt8,
        ((v >>> 16) &&& 0xFF).toUInt8, ((v >>> 24) &&& 0xFF).toUInt8] =
      toLe 4 v.toNat := by
  simp only [toLe, Nat.div_div_eq_div_mul]
  congr 1
  · apply UInt8.toNat_inj.mp
    simp [and_byte]
  congr 1
  · apply UInt8.toNat_inj.mp
    simp [and_byte, Nat.shiftRight_eq_div_pow]
  congr 1
  · apply UInt8.toNat_inj.mp
    simp [and_byte, Nat.shiftRight_eq_div_pow]
  · congr 1
    apply UInt8.toNat_inj.mp
    simp [and_byte, Nat.shiftRight_eq_div_pow]

/-- Two bytes joined by shifting and or-ing. -/
theorem join16
    (first second : UInt8) :
    (first.toUInt16 ||| (second.toUInt16 <<< 8)).toNat =
      ofLe [first, second] := by
  have low := first.toNat_lt
  have high := second.toNat_lt
  have small : second.toNat <<< 8 < 65536 := by
    rw [Nat.shiftLeft_eq]
    omega
  simp only [UInt16.toNat_or, UInt8.toNat_toUInt16, UInt16.toNat_shiftLeft,
    ofLe]
  simp only [UInt16.toNat_ofNat, Nat.mod_eq_of_lt small]
  rw [or_shiftLeft _ _ low]
  omega

/-- Four bytes joined by shifting and or-ing. -/
theorem join32
    (first second third fourth : UInt8) :
    (first.toUInt32 ||| (second.toUInt32 <<< 8) |||
        (third.toUInt32 <<< 16) ||| (fourth.toUInt32 <<< 24)).toNat =
      ofLe [first, second, third, fourth] := by
  have lowest := first.toNat_lt
  have lower := second.toNat_lt
  have higher := third.toNat_lt
  have highest := fourth.toNat_lt
  have two :
      first.toNat ||| second.toNat <<< 8 =
        first.toNat + 256 * second.toNat :=
    or_shiftLeft _ _ lowest
  have three :
      (first.toNat + 256 * second.toNat) ||| third.toNat <<< 16 =
        first.toNat + 256 * second.toNat + 65536 * third.toNat :=
    or_shiftLeft _ _ (by omega)
  have four :
      (first.toNat + 256 * second.toNat + 65536 * third.toNat) |||
          fourth.toNat <<< 24 =
        first.toNat + 256 * second.toNat + 65536 * third.toNat +
          16777216 * fourth.toNat :=
    or_shiftLeft _ _ (by omega)
  have fitsSecond : second.toNat <<< 8 < 4294967296 := by
    rw [Nat.shiftLeft_eq]
    omega
  have fitsThird : third.toNat <<< 16 < 4294967296 := by
    rw [Nat.shiftLeft_eq]
    omega
  have fitsFourth : fourth.toNat <<< 24 < 4294967296 := by
    rw [Nat.shiftLeft_eq]
    omega
  simp only [UInt32.toNat_or, UInt8.toNat_toUInt32, UInt32.toNat_shiftLeft,
    ofLe]
  simp only [UInt32.toNat_ofNat, Nat.mod_eq_of_lt fitsSecond,
    Nat.mod_eq_of_lt fitsThird, Nat.mod_eq_of_lt fitsFourth]
  simp only [two, three, four]
  omega

/-- Two bytes joined, and split again. -/
theorem split16_join16
    (first second : UInt8) :
    let v := first.toUInt16 ||| (second.toUInt16 <<< 8)
    [(v &&& 0xFF).toUInt8, ((v >>> 8) &&& 0xFF).toUInt8] =
      [first, second] := by
  intro v
  rw [split16, join16]
  exact toLe_ofLe [first, second]

end LittleEndian
