import Mathlib.Data.Nat.Log
import Mathlib.Data.Nat.Bitwise
import TraveoBodyDomain.Lib.AlignedBlock
import TraveoBodyDomain.Lib.Loop

/-!
# Protection regions

`prot_region.c`: the smallest aligned power-of-two region that contains a
target, and the mask of its eighths that lie outside of the target.  Sizes are
computed in 64 bits, and encoded from 32.
-/

namespace TraveoBodyDomain

/-- `PROT_REGION_MIN_SIZE`. -/
def protRegionMinSize : UInt32 :=
  256

/-- `PROT_SIZE_INVALID`. -/
def protSizeInvalid : UInt8 :=
  0xFF

/-- `prot_region_t`. -/
structure ProtRegion where
  base : UInt32
  sizeCode : UInt8
  subregionDisable : UInt8
  exact : Bool
  deriving Repr, DecidableEq

/-- The loop of `prot_encode_region_size`, over what is left and the code. -/
def protSizeLoop (state : UInt32 × UInt8) : Loop.Turn (UInt32 × UInt8) UInt8 :=
  let (s, code) := state
  if s > 1 then .again (s >>> 1, code + 1) else .done code

/-- `prot_encode_region_size`. -/
def protEncodeRegionSize (turns : Nat) (sizeBytes : UInt32) : Option UInt8 :=
  if sizeBytes < protRegionMinSize ∨ sizeBytes &&& (sizeBytes - 1) ≠ 0 then
    some protSizeInvalid
  else
    (Loop.run protSizeLoop turns (sizeBytes, 0)).map fun code => code - 1

/-- The loop of `prot_region_cover` that grows the region. -/
def protGrowLoop (base stop r : UInt64) : Loop.Turn UInt64 UInt64 :=
  if r ≤ 0x100000000 then
    let regionBase := base &&& ~~~(r - 1)
    if regionBase + r ≥ stop then .done r else .again (r <<< 1)
  else
    .done r

/-- The `i`-th eighth of the region intersects the target. -/
def protIntersects (regionBase sub base stop : UInt64) (i : Nat) : Bool :=
  let subStart := regionBase + UInt64.ofNat i * sub
  let subEnd := subStart + sub
  subStart < stop && subEnd > base

/-- The loop of `prot_region_cover` over the eighths of the region. -/
def protDisable (regionBase sub base stop : UInt64) : UInt8 :=
  (List.range 8).foldl
    (fun disable i =>
      if protIntersects regionBase sub base stop i then
        disable
      else
        disable ||| ((1 : UInt32) <<< UInt32.ofNat i).toUInt8)
    0

/--
`prot_region_cover`: `hasOut` tells whether `out` is not NULL, and a region is
what `*out` holds when the function returns true.
-/
def protRegionCover
    (turns : Nat)
    (base len : UInt32)
    (hasOut : Bool) : Option (Option ProtRegion) :=
  if !hasOut || len = 0 then
    some none
  else
    let stop := base.toUInt64 + len.toUInt64
    if stop > 0x100000000 then
      some none
    else
      (Loop.run (protGrowLoop base.toUInt64 stop) turns
          protRegionMinSize.toUInt64).bind fun r =>
        if r > 0x100000000 then
          some none
        else
          let regionBase := (base.toUInt64 &&& ~~~(r - 1)).toUInt32
          let sub := r >>> 3
          let disable :=
            protDisable regionBase.toUInt64 sub base.toUInt64 stop
          let exact := base.toUInt64 % sub = 0 && stop % sub = 0
          (protEncodeRegionSize turns r.toUInt32).map fun sizeCode =>
            some
              { base := regionBase
                sizeCode := sizeCode
                subregionDisable := disable
                exact := exact }

/-!
## The size of the region
-/

section Size

variable {r : UInt64} {k : Nat}

/-- Clearing the low bits of an address leaves the start of its block. -/
theorem toNat_and_not_sub_one
    (power : r.toNat = 2 ^ k)
    (small : k < 64)
    (x : UInt64) :
    (x &&& ~~~(r - 1)).toNat = x.toNat - x.toNat % 2 ^ k := by
  have one : (1 : UInt64) ≤ r := by
    rw [UInt64.le_iff_toNat_le, power]
    exact Nat.one_le_two_pow
  have lowBits : (r - 1).toNat = 2 ^ k - 1 := by
    rw [UInt64.toNat_sub_of_le _ _ one, power]
    rfl
  have inWord : 2 ^ k - 1 < 2 ^ 64 :=
    Nat.lt_of_le_of_lt (Nat.sub_le ..)
      (Nat.pow_lt_pow_right (by decide) small)
  have start : x.toNat - x.toNat % 2 ^ k = x.toNat / 2 ^ k * 2 ^ k := by
    have whole := Nat.div_add_mod x.toNat (2 ^ k)
    rw [Nat.mul_comm] at whole
    omega
  have complement :
      UInt64.size - 1 - (2 ^ k - 1) = 2 ^ 64 - ((2 ^ k - 1) + 1) := by
    rw [show UInt64.size = 2 ^ 64 from rfl]
    omega
  rw [UInt64.toNat_and, UInt64.toNat_not, lowBits, start, complement]
  refine Nat.eq_of_testBit_eq fun i => ?_
  rw [Nat.testBit_and, Nat.testBit_two_pow_sub_succ inWord,
    Nat.testBit_two_pow_sub_one, Nat.testBit_mul_two_pow,
    Nat.testBit_div_two_pow]
  by_cases high : k ≤ i
  · have inside : x.toNat.testBit i = true → i < 64 := by
      intro bit
      by_contra outside
      rw [Nat.testBit_lt_two_pow (Nat.lt_of_lt_of_le x.toNat_lt
        (Nat.pow_le_pow_right (by decide) (Nat.not_lt.mp outside)))] at bit
      cases bit
    rw [Nat.sub_add_cancel high]
    cases bit : x.toNat.testBit i with
    | false => simp
    | true => simp [high, inside bit]
  · simp [high, Nat.not_le.mp high]

/-- One turn of the loop of `prot_encode_region_size` halves what is left. -/
theorem protSizeLoop_returns
    {s : UInt32}
    (power : s.toNat = 2 ^ k)
    (code : UInt8) :
    Loop.Returns (fun turns => Loop.run protSizeLoop turns (s, code))
      (code + UInt8.ofNat k) := by
  induction k generalizing s code with
  | zero =>
      have one : ¬s > 1 := by
        rw [gt_iff_lt, UInt32.lt_iff_toNat_lt, power]
        decide
      have last : protSizeLoop (s, code) = .done code := if_neg one
      rw [show code + UInt8.ofNat 0 = code from UInt8.add_zero code]
      exact Loop.returns_of_done last
  | succ k inductionHypothesis =>
      have more : s > 1 := by
        rw [gt_iff_lt, UInt32.lt_iff_toNat_lt, power]
        exact Nat.one_lt_two_pow (Nat.succ_ne_zero k)
      have turn : protSizeLoop (s, code) = .again (s >>> 1, code + 1) :=
        if_pos more
      have half : (s >>> 1).toNat = 2 ^ k := by
        rw [UInt32.toNat_shiftRight, power, Nat.pow_succ]
        exact Nat.mul_div_cancel _ (by decide)
      have counted :
          code + UInt8.ofNat (k + 1) = code + 1 + UInt8.ofNat k := by
        rw [UInt8.ofNat_add, UInt8.add_comm (UInt8.ofNat k), ← UInt8.add_assoc]
        rfl
      rw [counted]
      exact Loop.returns_of_again turn (inductionHypothesis half (code + 1))

/-- The code of a size that is a power of two. -/
theorem protEncodeRegionSize_power
    {sizeBytes : UInt32}
    (power : sizeBytes.toNat = 2 ^ k)
    (least : 8 ≤ k) :
    Loop.Returns (fun turns => protEncodeRegionSize turns sizeBytes)
      (UInt8.ofNat (k - 1)) := by
  have bigEnough : ¬sizeBytes < protRegionMinSize := by
    rw [UInt32.lt_iff_toNat_lt, power, Nat.not_lt]
    have atLeast : (2 : Nat) ^ 8 ≤ 2 ^ k :=
      Nat.pow_le_pow_right Nat.two_pos least
    exact atLeast
  have one : (1 : UInt32) ≤ sizeBytes := by
    rw [UInt32.le_iff_toNat_le, power]
    exact Nat.one_le_two_pow
  have single : sizeBytes &&& (sizeBytes - 1) = 0 := by
    refine UInt32.toNat_inj.mp ?_
    rw [UInt32.toNat_and, UInt32.toNat_sub_of_le _ _ one, power,
      UInt32.toNat_one, Nat.and_two_pow_sub_one_eq_mod, Nat.mod_self]
    rfl
  have valid :
      ¬(sizeBytes < protRegionMinSize ∨ sizeBytes &&& (sizeBytes - 1) ≠ 0) :=
    not_or.mpr ⟨bigEnough, not_not.mpr single⟩
  have code : (0 : UInt8) + UInt8.ofNat k - 1 = UInt8.ofNat (k - 1) := by
    obtain ⟨k, rfl⟩ : ∃ less, k = less + 1 := ⟨k - 1, by omega⟩
    rw [UInt8.ofNat_add, Nat.add_sub_cancel, UInt8.zero_add]
    exact UInt8.add_sub_cancel ..
  simp only [protEncodeRegionSize, if_neg valid]
  rw [← code]
  exact (protSizeLoop_returns power 0).map fun code => code - 1

/-- No region that is grown to `2 ^ k` bytes has contained the target before. -/
structure ProtGrowing (base stop k : Nat) : Prop where
  least : 8 ≤ k
  most : k ≤ 32
  smaller :
    ∀ j < k, 8 ≤ j → ¬stop ≤ base - base % 2 ^ j + 2 ^ j

/-- The region has eight parts, and no fewer bytes than it starts with. -/
theorem ProtGrowing.eighths
    {base stop : Nat}
    (growing : ProtGrowing base stop k) :
    8 * (2 ^ k / 8) = 2 ^ k ∧ 2 ^ 8 ≤ 2 ^ k := by
  have divides : (2 : Nat) ^ 3 ∣ 2 ^ k :=
    Nat.pow_dvd_pow 2 (Nat.le_trans (by decide) growing.least)
  exact
    ⟨Nat.mul_div_cancel' divides,
      Nat.pow_le_pow_right Nat.two_pos growing.least⟩

/-- The whole address space contains every target. -/
theorem ProtGrowing.most_of_again
    {base stop : Nat}
    (growing : ProtGrowing base stop k)
    (inSpace : base < 2 ^ 32)
    (stopInSpace : stop ≤ 2 ^ 32)
    (outside : ¬stop ≤ base - base % 2 ^ k + 2 ^ k) :
    ProtGrowing base stop (k + 1) := by
  have below : k ≠ 32 := by
    rintro rfl
    rw [Nat.mod_eq_of_lt inSpace, Nat.sub_self, Nat.zero_add] at outside
    exact outside stopInSpace
  have most := growing.most
  refine ⟨Nat.le_succ_of_le growing.least, by omega, fun j before atLeast => ?_⟩
  rcases Nat.lt_succ_iff_lt_or_eq.mp before with earlier | rfl
  · exact growing.smaller j earlier atLeast
  · exact outside

/-- One turn of the loop that grows the region. -/
theorem protGrowLoop_eq
    {base stop : UInt64}
    (power : r.toNat = 2 ^ k)
    (most : k ≤ 32)
    (inSpace : base.toNat < 2 ^ 32) :
    protGrowLoop base stop r =
      if stop.toNat ≤ base.toNat - base.toNat % 2 ^ k + 2 ^ k then
        .done r
      else
        .again (r <<< 1) := by
  have bound : (2 : Nat) ^ k ≤ 2 ^ 32 :=
    Nat.pow_le_pow_right (by decide) most
  have representable : r ≤ 0x100000000 := by
    rw [UInt64.le_iff_toNat_le, power]
    exact bound
  have start := toNat_and_not_sub_one power (by omega) base
  have sum :
      ((base &&& ~~~(r - 1)) + r).toNat =
        base.toNat - base.toNat % 2 ^ k + 2 ^ k := by
    rw [UInt64.toNat_add, start, power, Nat.mod_eq_of_lt]
    omega
  have reached :
      (base &&& ~~~(r - 1)) + r ≥ stop ↔
        stop.toNat ≤ base.toNat - base.toNat % 2 ^ k + 2 ^ k := by
    rw [ge_iff_le, UInt64.le_iff_toNat_le, sum]
  simp only [protGrowLoop, if_pos representable, reached]

/-- The size while the region is grown. -/
def ProtSized (base stop : Nat) (r : UInt64) : Prop :=
  ∃ k, r.toNat = 2 ^ k ∧ ProtGrowing base stop k

/-- The size when the region contains the target. -/
def ProtGrown (base stop : Nat) (r : UInt64) : Prop :=
  ∃ k,
    r.toNat = 2 ^ k ∧ ProtGrowing base stop k ∧
      stop ≤ base - base % 2 ^ k + 2 ^ k

/-- The region is grown to the smallest size whose block contains the target. -/
theorem protGrowLoop_returns
    {base stop : UInt64}
    (inSpace : base.toNat < 2 ^ 32)
    (stopInSpace : stop.toNat ≤ 2 ^ 32) :
    ∃ r,
      Loop.Returns
          (fun turns =>
            Loop.run (protGrowLoop base stop) turns protRegionMinSize.toUInt64)
          r ∧
        ProtGrown base.toNat stop.toNat r := by
  have again (r next : UInt64) (sized : ProtSized base.toNat stop.toNat r)
      (more : protGrowLoop base stop r = .again next) :
      ProtSized base.toNat stop.toNat next ∧
        33 - Nat.log2 next.toNat < 33 - Nat.log2 r.toNat := by
    obtain ⟨k, power, growing⟩ := sized
    rw [protGrowLoop_eq power growing.most inSpace] at more
    by_cases contains :
        stop.toNat ≤ base.toNat - base.toNat % 2 ^ k + 2 ^ k
    · rw [if_pos contains] at more
      cases more
    · rw [if_neg contains] at more
      obtain rfl := Loop.Turn.again.inj more
      have bigger := growing.most_of_again inSpace stopInSpace contains
      have doubled : (r <<< 1).toNat = 2 ^ (k + 1) := by
        have bound : (2 : Nat) ^ (k + 1) ≤ 2 ^ 32 :=
          Nat.pow_le_pow_right Nat.two_pos bigger.most
        rw [UInt64.toNat_shiftLeft, power]
        change 2 ^ k <<< 1 % 2 ^ 64 = 2 ^ (k + 1)
        rw [Nat.shiftLeft_eq, Nat.pow_one, ← Nat.pow_succ]
        exact Nat.mod_eq_of_lt (by omega)
      refine ⟨⟨k + 1, doubled, bigger⟩, ?_⟩
      rw [doubled, power, Nat.log2_two_pow, Nat.log2_two_pow]
      have most := growing.most
      omega
  have done (r result : UInt64) (sized : ProtSized base.toNat stop.toNat r)
      (ends : protGrowLoop base stop r = .done result) :
      ProtGrown base.toNat stop.toNat result := by
    obtain ⟨k, power, growing⟩ := sized
    rw [protGrowLoop_eq power growing.most inSpace] at ends
    by_cases contains :
        stop.toNat ≤ base.toNat - base.toNat % 2 ^ k + 2 ^ k
    · rw [if_pos contains] at ends
      obtain rfl := Loop.Turn.done.inj ends
      exact ⟨k, power, growing, contains⟩
    · rw [if_neg contains] at ends
      cases ends
  have start :
      ProtSized base.toNat stop.toNat protRegionMinSize.toUInt64 :=
    ⟨8, rfl, Nat.le_refl 8, by decide, fun j less atLeast => by omega⟩
  exact Loop.returns_of_measure _ again done start

end Size

/-!
## The eighths of the region
-/

section Eighths

variable {regionBase sub base stop : UInt64}

/-- The mask after the loop has passed the first `n` eighths. -/
theorem testBit_foldl_disable
    (keeps : Nat → Bool)
    {n : Nat}
    (inByte : n ≤ 8)
    (i : Nat) :
    ((List.range n).foldl
        (fun (disable : UInt8) i =>
          if keeps i then
            disable
          else
            disable ||| ((1 : UInt32) <<< UInt32.ofNat i).toUInt8)
        0).toNat.testBit i =
      (decide (i < n) && !keeps i) := by
  induction n with
  | zero =>
      simp
  | succ n inductionHypothesis =>
      have earlier := inductionHypothesis (Nat.le_of_succ_le inByte)
      have bit :
          ((1 : UInt32) <<< UInt32.ofNat n).toUInt8.toNat = 2 ^ n := by
        have each :
            ∀ n < 8, ((1 : UInt32) <<< UInt32.ofNat n).toUInt8.toNat = 2 ^ n := by
          decide
        exact each n inByte
      rw [List.range_succ, List.foldl_append, List.foldl_cons, List.foldl_nil]
      cases kept : keeps n with
      | true =>
          rw [if_pos rfl, earlier]
          by_cases same : i = n
          · simp [same, kept]
          · have sameSide : i < n + 1 ↔ i < n := by omega
            simp only [sameSide]
      | false =>
          rw [if_neg Bool.false_ne_true, UInt8.toNat_or, bit, Nat.testBit_or,
            earlier, Nat.testBit_two_pow]
          by_cases same : i = n
          · simp [same, kept]
          · have sameSide : i < n + 1 ↔ i < n := by omega
            simp [sameSide, Ne.symm same]

/-- The test of an eighth, where nothing overflows. -/
theorem protIntersects_iff
    {i : Nat}
    (inRegion : i < 8)
    (fits : regionBase.toNat + 8 * sub.toNat ≤ 2 ^ 33) :
    protIntersects regionBase sub base stop i = true ↔
      regionBase.toNat + i * sub.toNat < stop.toNat ∧
        base.toNat < regionBase.toNat + (i + 1) * sub.toNat := by
  have most : i * sub.toNat ≤ 7 * sub.toNat :=
    Nat.mul_le_mul_right _ (by omega)
  have index : (UInt64.ofNat i).toNat = i := by
    rw [UInt64.toNat_ofNat']
    exact Nat.mod_eq_of_lt (by omega)
  have product : (UInt64.ofNat i * sub).toNat = i * sub.toNat := by
    rw [UInt64.toNat_mul, index]
    exact Nat.mod_eq_of_lt (by omega)
  have start :
      (regionBase + UInt64.ofNat i * sub).toNat =
        regionBase.toNat + i * sub.toNat := by
    rw [UInt64.toNat_add, product]
    exact Nat.mod_eq_of_lt (by omega)
  have ends :
      (regionBase + UInt64.ofNat i * sub + sub).toNat =
        regionBase.toNat + (i + 1) * sub.toNat := by
    rw [UInt64.toNat_add, start, Nat.succ_mul, Nat.add_assoc]
    exact Nat.mod_eq_of_lt (by omega)
  simp only [protIntersects, Bool.and_eq_true, decide_eq_true_eq, gt_iff_lt,
    UInt64.lt_iff_toNat_lt, start, ends]

/-- A bit of the mask is set when its eighth does not meet the target. -/
theorem testBit_protDisable
    {i : Nat}
    (inRegion : i < 8)
    (positive : 0 < sub.toNat)
    (nonempty : base.toNat < stop.toNat)
    (fits : regionBase.toNat + 8 * sub.toNat ≤ 2 ^ 33) :
    (protDisable regionBase sub base stop).toNat.testBit i = true ↔
      ¬AlignedBlock.Meets regionBase.toNat sub.toNat base.toNat stop.toNat i := by
  rw [protDisable, testBit_foldl_disable _ (Nat.le_refl 8),
    AlignedBlock.meets_iff positive nonempty,
    ← protIntersects_iff inRegion fits]
  simp [inRegion]

end Eighths

/-!
## What a region describes
-/

/-- The bytes a region spans. -/
def ProtRegion.size (region : ProtRegion) : Nat :=
  2 ^ (region.sizeCode.toNat + 1)

/-- The `i`-th eighth of a region is disabled. -/
def ProtRegion.Disabled (region : ProtRegion) (i : Nat) : Prop :=
  region.subregionDisable.toNat.testBit i = true

/-- The region describes the target: it is the contract of the header. -/
structure ProtRegion.Describes (region : ProtRegion) (base len : Nat) : Prop where
  valid : 7 ≤ region.sizeCode.toNat ∧ region.sizeCode.toNat < 32
  contains :
    AlignedBlock.Contains region.size region.base.toNat base (base + len)
  smallest :
    ∀ k start,
      8 ≤ k →
        AlignedBlock.Contains (2 ^ k) start base (base + len) →
          region.size ≤ 2 ^ k
  disabled :
    ∀ i < 8,
      region.Disabled i ↔
        ¬AlignedBlock.Meets region.base.toNat (region.size / 8) base
          (base + len) i
  exact :
    region.exact = true ↔
      ∀ x,
        (∃ i < 8,
          ¬region.Disabled i ∧
            AlignedBlock.InPart region.base.toNat (region.size / 8) i x) ↔
          base ≤ x ∧ x < base + len

/-- A target is rejected, or it is described. -/
structure ProtCovered
    (base len : Nat)
    (hasOut : Bool)
    (result : Option ProtRegion) : Prop where
  rejected :
    result = none ↔ len = 0 ∨ 2 ^ 32 < base + len ∨ hasOut = false
  described :
    ∀ region, result = some region → region.Describes base len

/-- The region that was grown to `2 ^ k` bytes, and what the code makes of it. -/
structure ProtFound (base len k : Nat) (region : ProtRegion) : Prop where
  growing : ProtGrowing base (base + len) k
  contains : base + len ≤ base - base % 2 ^ k + 2 ^ k
  start : region.base.toNat = base - base % 2 ^ k
  sizeCode :
    region.sizeCode = if k = 32 then protSizeInvalid else UInt8.ofNat (k - 1)
  disabled :
    ∀ i < 8,
      region.Disabled i ↔
        ¬AlignedBlock.Meets region.base.toNat (2 ^ k / 8) base (base + len) i
  exact :
    region.exact = true ↔ 2 ^ k / 8 ∣ base ∧ 2 ^ k / 8 ∣ base + len

section Cover

variable {base len : UInt32} {k : Nat}

/-- The code of the size is computed from its lower 32 bits. -/
theorem protEncodeRegionSize_returns
    {r : UInt64}
    (power : r.toNat = 2 ^ k)
    (least : 8 ≤ k)
    (most : k ≤ 32) :
    Loop.Returns (fun turns => protEncodeRegionSize turns r.toUInt32)
      (if k = 32 then protSizeInvalid else UInt8.ofNat (k - 1)) := by
  have narrowed : r.toUInt32.toNat = 2 ^ k % 2 ^ 32 := by
    rw [UInt64.toNat_toUInt32, power]
  by_cases whole : k = 32
  · subst whole
    have zero : r.toUInt32 = 0 := UInt32.toNat_inj.mp narrowed
    rw [zero, if_pos rfl]
    exact Loop.returns_some protSizeInvalid
  · have fits : (2 : Nat) ^ k < 2 ^ 32 :=
      Nat.pow_lt_pow_right (by decide) (by omega)
    rw [Nat.mod_eq_of_lt fits] at narrowed
    rw [if_neg whole]
    exact protEncodeRegionSize_power narrowed least

/-- A target that is accepted. -/
theorem protRegionCover_returns
    (nonempty : len ≠ 0)
    (inSpace : base.toNat + len.toNat ≤ 2 ^ 32) :
    ∃ k region,
      Loop.Returns (fun turns => protRegionCover turns base len true)
          (some region) ∧
        ProtFound base.toNat len.toNat k region := by
  have stop :
      (base.toUInt64 + len.toUInt64).toNat = base.toNat + len.toNat := by
    rw [UInt64.toNat_add, UInt32.toNat_toUInt64, UInt32.toNat_toUInt64]
    exact Nat.mod_eq_of_lt (by omega)
  have positive : 0 < len.toNat := by
    rw [Nat.pos_iff_ne_zero]
    exact fun zero => nonempty (UInt32.toNat_inj.mp zero)
  have notPast : ¬base.toUInt64 + len.toUInt64 > 0x100000000 := by
    rw [gt_iff_lt, UInt64.lt_iff_toNat_lt, stop, Nat.not_lt]
    exact inSpace
  have baseInSpace : base.toUInt64.toNat < 2 ^ 32 := by
    rw [UInt32.toNat_toUInt64]
    exact base.toNat_lt
  obtain ⟨r, returns, k, power, growing, contains⟩ :=
    protGrowLoop_returns baseInSpace (stop ▸ inSpace)
  rw [stop, UInt32.toNat_toUInt64] at growing contains
  have bound : (2 : Nat) ^ k ≤ 2 ^ 32 :=
    Nat.pow_le_pow_right Nat.two_pos growing.most
  have representable : ¬r > 0x100000000 := by
    rw [gt_iff_lt, UInt64.lt_iff_toNat_lt, power, Nat.not_lt]
    exact bound
  have start :
      (base.toUInt64 &&& ~~~(r - 1)).toUInt32.toNat =
        base.toNat - base.toNat % 2 ^ k := by
    rw [UInt64.toNat_toUInt32,
      toNat_and_not_sub_one power (Nat.lt_of_le_of_lt growing.most (by decide)),
      UInt32.toNat_toUInt64]
    exact Nat.mod_eq_of_lt (Nat.lt_of_le_of_lt (Nat.sub_le ..) base.toNat_lt)
  have sub : (r >>> 3).toNat = 2 ^ k / 8 := by
    rw [UInt64.toNat_shiftRight, power]
    exact Nat.shiftRight_eq_div_pow (2 ^ k) 3
  obtain ⟨eighths, atLeast⟩ := growing.eighths
  have accepted : ¬((!true || decide (len = 0)) = true) := by
    simp [nonempty]
  let region : ProtRegion :=
    { base := (base.toUInt64 &&& ~~~(r - 1)).toUInt32
      sizeCode := if k = 32 then protSizeInvalid else UInt8.ofNat (k - 1)
      subregionDisable :=
        protDisable (base.toUInt64 &&& ~~~(r - 1)).toUInt32.toUInt64 (r >>> 3)
          base.toUInt64 (base.toUInt64 + len.toUInt64)
      exact :=
        base.toUInt64 % (r >>> 3) = 0 &&
          (base.toUInt64 + len.toUInt64) % (r >>> 3) = 0 }
  refine
    ⟨k, region, ?_, growing, contains, start, rfl, fun i inRegion => ?_, ?_⟩
  · simp only [protRegionCover, if_neg accepted, if_neg notPast]
    refine Loop.Returns.bind returns ?_
    simp only [if_neg representable]
    exact
      (protEncodeRegionSize_returns power growing.least growing.most).map _
  · have bits :=
      @testBit_protDisable
        (base.toUInt64 &&& ~~~(r - 1)).toUInt32.toUInt64 (r >>> 3)
        base.toUInt64 (base.toUInt64 + len.toUInt64) i inRegion
    rw [stop, sub, UInt32.toNat_toUInt64, UInt32.toNat_toUInt64, start] at bits
    rw [start]
    exact bits (by omega) (by omega) (by omega)
  · have remainder (x : UInt64) : x % (r >>> 3) = 0 ↔ 2 ^ k / 8 ∣ x.toNat := by
      rw [← UInt64.toNat_inj, UInt64.toNat_mod, sub]
      exact Nat.dvd_iff_mod_eq_zero.symm
    simp only [region, Bool.and_eq_true, decide_eq_true_eq, remainder, stop,
      UInt32.toNat_toUInt64]

/-- The region is the whole address space when the target crosses its middle. -/
theorem ProtFound.whole_iff
    {base len : Nat}
    {region : ProtRegion}
    (found : ProtFound base len k region)
    (inSpace : base + len ≤ 2 ^ 32) :
    k = 32 ↔ base < 2 ^ 31 ∧ 2 ^ 31 < base + len := by
  constructor
  · rintro rfl
    have outside := found.growing.smaller 31 (by decide) (by decide)
    by_contra half
    refine outside ?_
    by_cases low : base < 2 ^ 31
    · rw [Nat.mod_eq_of_lt low]
      omega
    · have remainder : base % 2 ^ 31 = base - 2 ^ 31 := by
        rw [Nat.mod_eq_sub_mod (Nat.not_lt.mp low)]
        exact Nat.mod_eq_of_lt (by omega)
      omega
  · rintro ⟨low, high⟩
    by_contra notWhole
    have most := found.growing.most
    have contains := found.contains
    -- a smaller block begins before the middle, so it ends there at the latest
    have middle : 2 ^ k ∣ 2 ^ 31 := Nat.pow_dvd_pow 2 (by omega)
    have start : 2 ^ k ∣ base - base % 2 ^ k := Nat.dvd_sub_mod base
    have least := Nat.le_of_dvd (by omega) (Nat.dvd_sub middle start)
    omega

/-- The region is a block that contains the target. -/
theorem ProtFound.block
    {base len : Nat}
    {region : ProtRegion}
    (found : ProtFound base len k region) :
    AlignedBlock.Contains (2 ^ k) region.base.toNat base (base + len) := by
  rw [found.start]
  exact AlignedBlock.contains_of_le found.contains

/-- No smaller block contains the target. -/
theorem ProtFound.smallest
    {base len : Nat}
    {region : ProtRegion}
    (found : ProtFound base len k region)
    (nonempty : 0 < len)
    {j start : Nat}
    (atMin : 8 ≤ j)
    (smaller : AlignedBlock.Contains (2 ^ j) start base (base + len)) :
    2 ^ k ≤ 2 ^ j := by
  by_contra bigger
  have less : j < k := by
    by_contra notLess
    exact bigger (Nat.pow_le_pow_right Nat.two_pos (Nat.not_lt.mp notLess))
  refine found.growing.smaller j less atMin ?_
  rw [← smaller.start_eq (by omega)]
  exact smaller.above

/-- The enabled parts are the target when both its ends are ends of parts. -/
theorem ProtFound.exact_iff
    {base len : Nat}
    {region : ProtRegion}
    (found : ProtFound base len k region)
    (nonempty : 0 < len) :
    region.exact = true ↔
      ∀ x,
        (∃ i < 8,
          ¬region.Disabled i ∧
            AlignedBlock.InPart region.base.toNat (2 ^ k / 8) i x) ↔
          base ≤ x ∧ x < base + len := by
  obtain ⟨eighths, atLeast⟩ := found.growing.eighths
  have enabled {i : Nat} (inRegion : i < 8) :
      ¬region.Disabled i ↔
        AlignedBlock.Meets region.base.toNat (2 ^ k / 8) base (base + len) i :=
    not_iff_comm.mp (found.disabled i inRegion).symm
  have contains := found.block
  have above := contains.above
  have tiled :=
    AlignedBlock.meeting_parts_iff (by omega)
      (Nat.dvd_trans ⟨8, by omega⟩ contains.aligned) contains.below
      (show base < base + len by omega)
      (show base + len ≤ region.base.toNat + 8 * (2 ^ k / 8) by omega)
  rw [found.exact]
  refine tiled.symm.trans (forall_congr' fun x => iff_congr ?_ Iff.rfl)
  refine exists_congr fun i => and_congr_right fun inRegion => ?_
  exact and_congr_left' (enabled inRegion).symm

/-- What was found meets the contract when its size could be encoded. -/
theorem ProtFound.describes_iff
    {base len : Nat}
    {region : ProtRegion}
    (found : ProtFound base len k region)
    (nonempty : 0 < len) :
    region.Describes base len ↔ k ≠ 32 := by
  have most := found.growing.most
  have least := found.growing.least
  have code := found.sizeCode
  constructor
  · rintro described rfl
    rw [if_pos rfl] at code
    have valid := described.valid.2
    rw [code] at valid
    exact absurd valid (by decide)
  · intro encoded
    rw [if_neg encoded] at code
    have number : region.sizeCode.toNat = k - 1 := by
      rw [code, UInt8.toNat_ofNat']
      exact Nat.mod_eq_of_lt (by omega)
    have size : region.size = 2 ^ k := by
      rw [ProtRegion.size, number, Nat.sub_add_cancel (by omega)]
    refine ⟨?_, ?_, fun j start atMin smaller => ?_, ?_, ?_⟩
    · rw [number]
      omega
    · rw [size]
      exact found.block
    · rw [size]
      exact found.smallest nonempty atMin smaller
    · rw [size]
      exact found.disabled
    · rw [size]
      exact found.exact_iff nonempty

/-- What is rejected at once. -/
theorem protRegionCover_rejects
    {hasOut : Bool}
    (bad : len = 0 ∨ 2 ^ 32 < base.toNat + len.toNat ∨ hasOut = false)
    (turns : Nat) :
    protRegionCover turns base len hasOut = some none := by
  by_cases noTarget : (!hasOut || decide (len = 0)) = true
  · rw [protRegionCover, if_pos noTarget]
  · have past : base.toUInt64 + len.toUInt64 > 0x100000000 := by
      simp only [Bool.or_eq_true, Bool.not_eq_true', decide_eq_true_eq,
        not_or, Bool.not_eq_false] at noTarget
      rcases bad with zero | past | noOut
      · exact absurd zero noTarget.2
      · rw [gt_iff_lt, UInt64.lt_iff_toNat_lt, UInt64.toNat_add,
          UInt32.toNat_toUInt64, UInt32.toNat_toUInt64, Nat.mod_eq_of_lt]
        · exact past
        · have baseFits := base.toNat_lt
          have lenFits := len.toNat_lt
          omega
      · rw [noTarget.1] at noOut
        cases noOut
    rw [protRegionCover, if_neg noTarget]
    exact if_pos past

/--
The region is described as the header says unless the target crosses the middle
of the address space: then the region is all of it, and its size has no code.
-/
theorem region_cover_iff
    (base len : UInt32)
    (hasOut : Bool) :
    ∃ result,
      Loop.Returns (fun turns => protRegionCover turns base len hasOut)
          result ∧
        (ProtCovered base.toNat len.toNat hasOut result ↔
          ¬(hasOut = true ∧ base.toNat + len.toNat ≤ 2 ^ 32 ∧
            base.toNat < 2 ^ 31 ∧ 2 ^ 31 < base.toNat + len.toNat)) := by
  have noLength : len.toNat = 0 ↔ len = 0 :=
    @UInt32.toNat_inj len 0
  by_cases bad : len = 0 ∨ 2 ^ 32 < base.toNat + len.toNat ∨ hasOut = false
  · refine ⟨none, ⟨0, fun turns _ => protRegionCover_rejects bad turns⟩, ?_⟩
    refine iff_of_true ⟨?_, fun region isRegion => by cases isRegion⟩ ?_
    · rw [noLength]
      exact iff_of_true rfl bad
    · rintro ⟨isOut, inSpace, low, high⟩
      rcases bad with zero | past | noOut
      · rw [noLength.mpr zero] at high
        omega
      · omega
      · rw [isOut] at noOut
        cases noOut
  · obtain ⟨nonempty, notPast, isOut⟩ :
        len ≠ 0 ∧ ¬2 ^ 32 < base.toNat + len.toNat ∧ ¬hasOut = false := by
      simpa only [not_or] using bad
    obtain rfl : hasOut = true := eq_true_of_ne_false isOut
    have inSpace := Nat.not_lt.mp notPast
    have positive : 0 < len.toNat :=
      Nat.pos_of_ne_zero fun zero => nonempty (noLength.mp zero)
    obtain ⟨k, region, returns, found⟩ :=
      protRegionCover_returns nonempty inSpace
    refine ⟨some region, returns, ?_⟩
    have meets : ProtCovered base.toNat len.toNat true (some region) ↔
        region.Describes base.toNat len.toNat := by
      constructor
      · exact fun covered => covered.described region rfl
      · refine fun described => ⟨?_, fun other same => ?_⟩
        · rw [noLength]
          exact iff_of_false (by simp) bad
        · rw [← Option.some.inj same]
          exact described
    rw [meets, found.describes_iff positive, not_iff_not,
      found.whole_iff inSpace]
    exact ⟨fun crosses => ⟨rfl, inSpace, crosses⟩, fun crosses => crosses.2.2⟩

/-- A target of 512 bytes around the middle is given a size without a code. -/
theorem crossing_region_has_no_size :
    protRegionCover 64 0x7FFFFF00 0x200 true =
        some (some ⟨0, protSizeInvalid, 0xE7, false⟩) ∧
      ¬ProtCovered 0x7FFFFF00 0x200 true
          (some ⟨0, protSizeInvalid, 0xE7, false⟩) := by
  refine ⟨by decide, fun covered => ?_⟩
  have valid := (covered.described _ rfl).valid.2
  exact absurd valid (by decide)

end Cover

end TraveoBodyDomain
