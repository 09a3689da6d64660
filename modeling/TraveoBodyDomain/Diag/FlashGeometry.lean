import TraveoBodyDomain.Diag.Flash
import TraveoBodyDomain.Lib.WordArith

/-!
# What the flash port erases and programs

The functions of `port_flash.c` once more, in 32-bit arithmetic and with loops
that may not end: `none` is an overflow, where the arithmetic traps, or a loop
that needs more turns.  Neither happens, and `Diag.Flash`, which computes with
natural numbers, describes the same functions.

The sectors of the hardware are given apart from the code: 32 KB below
0x100F0000, 8 KB from there on.
-/

namespace TraveoBodyDomain

section Words

variable (words : WordArith)

/-- `in_app_region`, in words. -/
def inAppRegionWord (addr len : UInt32) : Option Bool :=
  if len = 0 then
    some false
  else if addr < 0x10040000 then
    some false
  else if 0xD0000 < len then
    some false
  else
    (words.sub addr 0x10040000).bind fun off =>
      (words.sub 0xD0000 len).map fun room => decide (off ≤ room)

/-- `fbl_flash_sector_size`, in words. -/
def fblFlashSectorSizeWord (addr : UInt32) : UInt32 :=
  if 0x100F0000 ≤ addr then 0x2000 else 0x8000

/-- The loop of `hal_write`, from the offset `off` on. -/
def halWriteLoop
    (addr : UInt32)
    (src : List UInt8)
    (len : UInt32) :
    Nat → UInt32 → CodeFlash → Option (Bool × CodeFlash)
  | 0, _, _ => none
  | turns + 1, off, flash =>
      if off < len then
        (words.add addr off).bind fun row =>
          let data := (src.drop off.toNat).take flashProgramRowSize
          let (programmed, flash) := flash.run (.programRow row.toNat data)
          if programmed then
            (words.add off 0x200).bind fun off =>
              halWriteLoop addr src len turns off flash
          else
            some (false, flash)
      else
        some (true, flash)

/-- `hal_write`; true is a return of 0. -/
def halWrite
    (turns : Nat)
    (addr : UInt32)
    (src : List UInt8)
    (len : UInt32)
    (flash : CodeFlash) : Option (Bool × CodeFlash) :=
  (inAppRegionWord words addr len).bind fun inRegion =>
    if inRegion = false then
      some (false, flash)
    else if addr % 0x200 ≠ 0 then
      some (false, flash)
    else if len % 0x200 ≠ 0 then
      some (false, flash)
    else
      halWriteLoop words addr src len turns 0 flash

/-- `hal_erase_sector`; true is a return of 0. -/
def halEraseSector
    (sectorAddr : UInt32)
    (flash : CodeFlash) : Option (Bool × CodeFlash) :=
  let ssz := fblFlashSectorSizeWord sectorAddr
  (inAppRegionWord words sectorAddr ssz).bind fun inRegion =>
    if inRegion = false then
      some (false, flash)
    else if sectorAddr % ssz ≠ 0 then
      some (false, flash)
    else
      some (flash.run (.eraseSector sectorAddr.toNat))

/-- The loop of `hal_erase_range`, from `pos` on. -/
def halEraseLoop (stop : UInt32) :
    Nat → UInt32 → CodeFlash → Option (Bool × CodeFlash)
  | 0, _, _ => none
  | turns + 1, pos, flash =>
      if pos < stop then
        let ssz := fblFlashSectorSizeWord pos
        (words.sub stop pos).bind fun left =>
          if left < ssz then
            some (false, flash)
          else
            let (erased, flash) := flash.run (.eraseSector pos.toNat)
            if erased then
              (words.add pos ssz).bind fun pos =>
                halEraseLoop stop turns pos flash
            else
              some (false, flash)
      else
        some (true, flash)

/-- `hal_erase_range`; true is a return of 0. -/
def halEraseRange
    (turns : Nat)
    (addr len : UInt32)
    (flash : CodeFlash) : Option (Bool × CodeFlash) :=
  (inAppRegionWord words addr len).bind fun inRegion =>
    if inRegion = false then
      some (false, flash)
    else if addr % 0x8000 ≠ 0 then
      some (false, flash)
    else if len % 0x8000 ≠ 0 then
      some (false, flash)
    else
      (words.add addr len).bind fun stop =>
        halEraseLoop words stop turns addr flash

end Words

instance SectorStart.decidable (pos : Nat) : Decidable (SectorStart pos) :=
  inferInstanceAs (Decidable (_ = _))

/-!
## The words do not overflow
-/

section Exact

variable {words : WordArith} (exact : words.Exact)

include exact

/-- The bounds check is that of `Diag.Flash`, for all words. -/
theorem inAppRegionWord_eq (addr len : UInt32) :
    inAppRegionWord words addr len =
      some (inAppRegion addr.toNat len.toNat) := by
  unfold inAppRegionWord
  have lenZero : len = 0 ↔ len.toNat = 0 := UInt32.toNat_inj.symm
  have below : addr < 0x10040000 ↔ addr.toNat < fblAppFlashBase :=
    UInt32.lt_iff_toNat_lt
  have tooLong : 0xD0000 < len ↔ fblAppFlashSize < len.toNat :=
    UInt32.lt_iff_toNat_lt
  simp only [lenZero, below, tooLong]
  split
  · next empty =>
      simp [inAppRegion, empty]
  · next notEmpty =>
      split
      · next low =>
          simp [inAppRegion, Nat.not_le.mpr low]
      · next notLow =>
          split
          · next long =>
              simp [inAppRegion, Nat.not_le.mpr long]
          · next fits =>
              obtain ⟨off, offEq, offNat⟩ :=
                @exact.sub addr 0x10040000 (Nat.not_lt.mp notLow)
              obtain ⟨room, roomEq, roomNat⟩ :=
                @exact.sub 0xD0000 len (Nat.not_lt.mp fits)
              have compared :
                  off ≤ room ↔
                    addr.toNat - fblAppFlashBase ≤
                      fblAppFlashSize - len.toNat := by
                rw [UInt32.le_iff_toNat_le, offNat, roomNat]
                exact Iff.rfl
              rw [offEq, roomEq]
              simp [inAppRegion, notEmpty, Nat.not_lt.mp notLow,
                Nat.not_lt.mp fits, compared]

omit exact in
/-- The size of a sector, in words. -/
theorem fblFlashSectorSizeWord_toNat (addr : UInt32) :
    (fblFlashSectorSizeWord addr).toNat = fblFlashSectorSize addr.toNat := by
  have small :
      0x100F0000 ≤ addr ↔ flashSmallRegionStart ≤ addr.toNat :=
    UInt32.le_iff_toNat_le
  unfold fblFlashSectorSizeWord fblFlashSectorSize
  simp only [small]
  split <;> rfl

/-- The erase loop is the walk of `Diag.Flash`, with turns to spare. -/
theorem halEraseLoop_eq
    {stop pos : UInt32}
    {turns fuel : Nat}
    {flash : CodeFlash}
    (starts : SectorStart pos.toNat)
    (coarse : stop.toNat % flashLargeSectorSize = 0)
    (enough : stop.toNat - pos.toNat < turns)
    (fuelled : stop.toNat - pos.toNat ≤ fuel) :
    halEraseLoop words stop turns pos flash =
      some (eraseWalk fuel pos.toNat stop.toNat flash) := by
  induction turns generalizing pos fuel flash with
  | zero =>
      exact absurd enough (Nat.not_lt_zero _)
  | succ turns inductionHypothesis =>
      rw [halEraseLoop]
      by_cases before : pos < stop
      · have beforeNat := UInt32.lt_iff_toNat_lt.mp before
        rw [if_pos before]
        cases fuel with
        | zero =>
            omega
        | succ fuel =>
            have size := fblFlashSectorSizeWord_toNat pos
            have fits := starts.fits coarse beforeNat
            have bound := stop.toNat_lt
            obtain ⟨left, leftEq, leftNat⟩ :=
              @exact.sub stop pos (Nat.le_of_lt beforeNat)
            have whole : ¬left < fblFlashSectorSizeWord pos := by
              rw [UInt32.lt_iff_toNat_lt, leftNat, size]
              omega
            obtain ⟨next, nextEq, nextNat⟩ :=
              @exact.add pos (fblFlashSectorSizeWord pos)
                (by rw [size]; omega)
            rw [size] at nextNat
            rw [eraseWalk_succ, if_pos beforeNat, if_neg (by omega)]
            simp only [leftEq, nextEq, Option.bind_some, if_neg whole]
            have positive : 0 < fblFlashSectorSize pos.toNat := by
              have sizes := fblFlashSectorSize_cases pos.toNat
              simp only [flashSmallSectorSize, flashLargeSectorSize] at sizes
              omega
            split
            · rw [← nextNat]
              exact
                inductionHypothesis (by rw [nextNat]; exact starts.next)
                  (by omega) (by omega)
            · rfl
      · have behind : ¬pos.toNat < stop.toNat := fun below =>
          before (UInt32.lt_iff_toNat_lt.mpr below)
        rw [if_neg before]
        cases fuel with
        | zero =>
            rfl
        | succ fuel =>
            rw [eraseWalk_succ, if_neg behind]

/-- Erasing a range in words is erasing it in numbers. -/
theorem halEraseRange_eq
    {turns : Nat}
    {len : UInt32}
    (enough : len.toNat < turns)
    (addr : UInt32)
    (flash : CodeFlash) :
    halEraseRange words turns addr len flash =
      some (fblFlashEraseRange addr len flash) := by
  have addrCoarse :
      addr % 0x8000 ≠ 0 ↔ addr.toNat % flashLargeSectorSize ≠ 0 := by
    rw [← UInt32.toNat_inj.ne, UInt32.toNat_mod]
    exact Iff.rfl
  have lenCoarse :
      len % 0x8000 ≠ 0 ↔ len.toNat % flashLargeSectorSize ≠ 0 := by
    rw [← UInt32.toNat_inj.ne, UInt32.toNat_mod]
    exact Iff.rfl
  rw [halEraseRange, inAppRegionWord_eq exact, fblFlashEraseRange,
    Option.bind_some]
  by_cases inRegion : inAppRegion addr.toNat len.toNat = false
  · rw [if_pos inRegion, if_pos inRegion]
  · rw [if_neg inRegion, if_neg inRegion]
    simp only [addrCoarse, lenCoarse]
    split
    · rfl
    · next addrOk =>
        split
        · rfl
        · next lenOk =>
            have region :=
              inAppRegion_iff.mp (Bool.of_not_eq_false inRegion)
            have fits : addr.toNat + len.toNat < 2 ^ 32 := by
              have top : fblAppFlashBase + fblAppFlashSize < 2 ^ 32 := by
                decide
              omega
            obtain ⟨stop, stopEq, stopNat⟩ := exact.add fits
            have starts := sectorStart_of_coarse (not_not.mp addrOk)
            have coarse : stop.toNat % flashLargeSectorSize = 0 := by
              rw [stopNat, Nat.add_mod, not_not.mp addrOk, not_not.mp lenOk]
              rfl
            rw [stopEq, Option.bind_some,
              halEraseLoop_eq exact starts coarse (by omega)
                (Nat.le_of_eq (by omega : stop.toNat - addr.toNat = len.toNat)),
              stopNat]

/-- The write loop programs the rows that are left. -/
theorem halWriteLoop_eq
    {addr len off : UInt32}
    {src : List UInt8}
    {rows turns : Nat}
    {flash : CodeFlash}
    (inRegion :
      addr.toNat + len.toNat ≤ fblAppFlashBase + fblAppFlashSize)
    (left : off.toNat + rows * flashProgramRowSize = len.toNat)
    (enough : rows < turns) :
    halWriteLoop words addr src len turns off flash =
      some
        (programRows rows (addr.toNat + off.toNat) (src.drop off.toNat)
          flash) := by
  have top : fblAppFlashBase + fblAppFlashSize < 2 ^ 32 := by
    decide
  have rowSize : (0x200 : UInt32).toNat = flashProgramRowSize :=
    rfl
  induction turns generalizing rows off flash with
  | zero =>
      exact absurd enough (Nat.not_lt_zero _)
  | succ turns inductionHypothesis =>
      rw [halWriteLoop]
      cases rows with
      | zero =>
          have done : ¬off < len := by
            rw [UInt32.lt_iff_toNat_lt]
            omega
          rw [if_neg done]
          rfl
      | succ rows =>
          rw [Nat.succ_mul] at left
          have positive : 0 < flashProgramRowSize := by
            decide
          have before : off < len := by
            rw [UInt32.lt_iff_toNat_lt]
            omega
          obtain ⟨row, rowEq, rowNat⟩ := @exact.add addr off (by omega)
          obtain ⟨next, nextEq, nextNat⟩ :=
            @exact.add off 0x200 (by rw [rowSize]; omega)
          rw [rowSize] at nextNat
          have later :=
            @inductionHypothesis next rows
              (flash.run (.programRow (addr.toNat + off.toNat)
                ((src.drop off.toNat).take flashProgramRowSize))).2
              (by omega) (by omega)
          rw [nextNat, ← Nat.add_assoc, ← List.drop_drop] at later
          rw [if_pos before, rowEq, Option.bind_some, rowNat, programRows_succ]
          dsimp only
          split
          · rw [nextEq, Option.bind_some]
            exact later
          · rfl

/-- Writing in words is programming rows in numbers. -/
theorem halWrite_eq
    {turns : Nat}
    {len : UInt32}
    (enough : len.toNat < turns)
    (addr : UInt32)
    (src : List UInt8)
    (flash : CodeFlash) :
    halWrite words turns addr src len flash =
      some
        (if WriteAccepted addr len.toNat then
          programRows (len.toNat / flashProgramRowSize) addr.toNat src flash
        else
          (false, flash)) := by
  have addrAligned :
      addr % 0x200 ≠ 0 ↔ addr.toNat % flashProgramRowSize ≠ 0 := by
    rw [← UInt32.toNat_inj.ne, UInt32.toNat_mod]
    exact Iff.rfl
  have lenWhole :
      len % 0x200 ≠ 0 ↔ len.toNat % flashProgramRowSize ≠ 0 := by
    rw [← UInt32.toNat_inj.ne, UInt32.toNat_mod]
    exact Iff.rfl
  rw [halWrite, inAppRegionWord_eq exact, Option.bind_some]
  simp only [addrAligned, lenWhole]
  split
  · next outside =>
      rw [if_neg fun accepted =>
        Bool.noConfusion (outside.symm.trans accepted.1)]
  · next inside =>
      split
      · next ragged =>
          rw [if_neg fun accepted => ragged accepted.2.1]
      · next aligned =>
          split
          · next ragged =>
              rw [if_neg fun accepted => ragged accepted.2.2]
          · next whole =>
              have region :=
                inAppRegion_iff.mp (Bool.of_not_eq_false inside)
              have rows :
                  (0 : UInt32).toNat +
                      len.toNat / flashProgramRowSize * flashProgramRowSize =
                    len.toNat := by
                rw [Nat.div_mul_cancel
                  (Nat.dvd_of_mod_eq_zero (not_not.mp whole))]
                exact Nat.zero_add _
              rw [if_pos ⟨Bool.of_not_eq_false inside, not_not.mp aligned,
                not_not.mp whole⟩]
              exact
                halWriteLoop_eq exact region.2.2 rows
                  (Nat.lt_of_le_of_lt (Nat.div_le_self _ _) enough)

/-- Told the length of its source, it is `hal_write` of `Diag.Flash`. -/
theorem halWrite_of_length
    {turns : Nat}
    {len : UInt32}
    {src : List UInt8}
    (whole : src.length = len.toNat)
    (enough : len.toNat < turns)
    (addr : UInt32)
    (flash : CodeFlash) :
    halWrite words turns addr src len flash =
      some (fblFlashWrite addr src flash) := by
  rw [halWrite_eq exact enough, fblFlashWrite_eq, whole]

/-- Erasing a sector in words. -/
theorem halEraseSector_eq
    (sectorAddr : UInt32)
    (flash : CodeFlash) :
    halEraseSector words sectorAddr flash =
      some
        (if inAppRegion sectorAddr.toNat
              (fblFlashSectorSize sectorAddr.toNat) = true ∧
            SectorStart sectorAddr.toNat then
          flash.run (.eraseSector sectorAddr.toNat)
        else
          (false, flash)) := by
  have size := fblFlashSectorSizeWord_toNat sectorAddr
  have aligned :
      sectorAddr % fblFlashSectorSizeWord sectorAddr ≠ 0 ↔
        ¬SectorStart sectorAddr.toNat := by
    rw [← UInt32.toNat_inj.ne, UInt32.toNat_mod, size]
    exact Iff.rfl
  rw [halEraseSector, inAppRegionWord_eq exact, Option.bind_some, size]
  simp only [aligned]
  split
  · next outside =>
      rw [if_neg fun accepted =>
        Bool.noConfusion (outside.symm.trans accepted.1)]
  · next inside =>
      split
      · next inSector =>
          rw [if_neg fun accepted => inSector accepted.2]
      · next starts =>
          rw [if_pos ⟨Bool.of_not_eq_false inside, not_not.mp starts⟩]

end Exact

/-!
## Sectors of the hardware
-/

/-- A sector of the code flash: its first address, and its size. -/
def HardwareSector (first size : Nat) : Prop :=
  (size = 32 * 1024 ∧ first % (32 * 1024) = 0 ∧
      first + 32 * 1024 ≤ 0x100F0000) ∨
    (size = 8 * 1024 ∧ first % (8 * 1024) = 0 ∧ 0x100F0000 ≤ first)

/-- A start of a sector is one of the hardware's sectors. -/
theorem SectorStart.hardwareSector
    {pos : Nat}
    (starts : SectorStart pos) :
    HardwareSector pos (fblFlashSectorSize pos) := by
  rcases fblFlashSectorSize_cases pos with ⟨small, size⟩ | ⟨large, size⟩
  · rw [SectorStart, size] at starts
    rw [size]
    exact Or.inr ⟨rfl, starts, small⟩
  · rw [SectorStart, size] at starts
    rw [size]
    refine Or.inl ⟨rfl, starts, ?_⟩
    -- The small sectors begin at a multiple of 32 KB.
    simp only [flashLargeSectorSize] at starts
    have below : pos < 0x100F0000 := large
    omega

/-- These sectors, in this order, are `[pos, stop)` exactly. -/
inductive SectorsTile : Nat → Nat → List Nat → Prop
  | done (pos : Nat) : SectorsTile pos pos []
  | sector
      {pos size stop : Nat}
      {rest : List Nat}
      (real : HardwareSector pos size)
      (behind : SectorsTile (pos + size) stop rest) :
      SectorsTile pos stop (pos :: rest)

/-- The sectors of an erase tile its range. -/
theorem sectorOps_tile
    {fuel pos stop : Nat}
    (starts : SectorStart pos)
    (coarse : stop % flashLargeSectorSize = 0)
    (ordered : pos ≤ stop)
    (enough : stop - pos ≤ fuel) :
    ∃ sectors,
      sectorOps fuel pos stop = sectors.map .eraseSector ∧
        SectorsTile pos stop sectors := by
  induction fuel generalizing pos with
  | zero =>
      have same : pos = stop := by omega
      rw [same]
      exact ⟨[], rfl, .done stop⟩
  | succ fuel inductionHypothesis =>
      rw [sectorOps]
      split
      · next before =>
          have fits := starts.fits coarse before
          have sizes := fblFlashSectorSize_cases pos
          simp only [flashSmallSectorSize, flashLargeSectorSize] at sizes
          obtain ⟨sectors, ops, tile⟩ :=
            inductionHypothesis starts.next fits (by omega)
          exact
            ⟨pos :: sectors, congrArg (_ :: ·) ops,
              .sector starts.hardwareSector tile⟩
      · next behind =>
          have same : pos = stop := by omega
          rw [same]
          exact ⟨[], rfl, .done stop⟩

-- 64 KB across the boundary: one large sector, four small ones.
example :
    sectorOps 5 0x100E8000 0x100F8000 =
      [.eraseSector 0x100E8000, .eraseSector 0x100F0000,
        .eraseSector 0x100F2000, .eraseSector 0x100F4000,
        .eraseSector 0x100F6000] := by
  decide

/-- Sectors that tile a range go up. -/
theorem SectorsTile.ascending
    {pos stop : Nat}
    {sectors : List Nat}
    (tile : SectorsTile pos stop sectors) :
    sectors.Pairwise (· < ·) ∧ ∀ sector ∈ sectors, pos ≤ sector := by
  induction tile with
  | done pos =>
      exact ⟨.nil, fun _ member => absurd member List.not_mem_nil⟩
  | @sector pos size stop rest real behind inductionHypothesis =>
      obtain ⟨ascending, above⟩ := inductionHypothesis
      have positive : 0 < size := by
        rcases real with ⟨rfl, -⟩ | ⟨rfl, -⟩ <;> decide
      refine ⟨.cons (fun later member => ?_) ascending, ?_⟩
      · have := above later member
        omega
      · intro sector member
        rcases List.mem_cons.mp member with rfl | later
        · exact Nat.le_refl _
        · have := above sector later
          omega

/-!
## What a call leaves, whether it succeeds or fails
-/

/--
A loop that has planned these operations tries the first ones in order, and
returns true only if it has tried all of them and none has failed.
-/
structure Tries
    (planned : List FlashOp)
    (flash : CodeFlash)
    (result : Bool × CodeFlash) : Prop where
  tried : ∃ tried, tried <+: planned ∧ result.2 = flash.runAll tried
  all :
    result.1 = true →
      result.2 = flash.runAll planned ∧
        ∀ call, call < planned.length → flash.failures call = none

/-- Nothing to try. -/
theorem Tries.nothing (flash : CodeFlash) : Tries [] flash (true, flash) where
  tried := ⟨[], List.prefix_rfl, rfl⟩
  all := fun _ => ⟨rfl, fun _ below => absurd below (Nat.not_lt_zero _)⟩

/-- Giving up before anything was tried. -/
theorem Tries.refused
    (planned : List FlashOp)
    (flash : CodeFlash) :
    Tries planned flash (false, flash) where
  tried := ⟨[], List.nil_prefix, rfl⟩
  all := fun impossible => Bool.noConfusion impossible

/-- Giving up because the next operation has failed. -/
theorem Tries.failed
    (op : FlashOp)
    (rest : List FlashOp)
    (flash : CodeFlash) :
    Tries (op :: rest) flash (false, (flash.run op).2) where
  tried := ⟨[op], ⟨rest, rfl⟩, rfl⟩
  all := fun impossible => Bool.noConfusion impossible

/-- Going on because it has not. -/
theorem Tries.succeeded
    {op : FlashOp}
    {rest : List FlashOp}
    {flash : CodeFlash}
    {result : Bool × CodeFlash}
    (programmed : (flash.run op).1 = true)
    (later : Tries rest (flash.run op).2 result) :
    Tries (op :: rest) flash result where
  tried := by
    obtain ⟨tried, start, left⟩ := later.tried
    exact ⟨op :: tried, List.cons_prefix_cons.mpr ⟨rfl, start⟩, left⟩
  all := by
    intro returned
    obtain ⟨left, none⟩ := later.all returned
    refine ⟨left, fun call below => ?_⟩
    cases call with
    | zero =>
        exact Option.isNone_iff_eq_none.mp programmed
    | succ call =>
        exact none call (Nat.lt_of_succ_lt_succ below)

/-- The loop over the rows. -/
theorem programRows_tries
    (rows addr : Nat)
    (src : List UInt8)
    (flash : CodeFlash) :
    Tries (rowOps rows addr src) flash (programRows rows addr src flash) := by
  induction rows generalizing addr src flash with
  | zero =>
      exact .nothing flash
  | succ rows inductionHypothesis =>
      rw [programRows_succ, rowOps]
      dsimp only
      split
      · next programmed =>
          exact .succeeded programmed (inductionHypothesis _ _ _)
      · exact .failed _ _ flash

/-- The walk over the sectors. -/
theorem eraseWalk_tries
    {fuel pos stop : Nat}
    {flash : CodeFlash}
    (starts : SectorStart pos)
    (coarse : stop % flashLargeSectorSize = 0) :
    Tries (sectorOps fuel pos stop) flash (eraseWalk fuel pos stop flash) := by
  induction fuel generalizing pos flash with
  | zero =>
      exact .nothing flash
  | succ fuel inductionHypothesis =>
      rw [eraseWalk_succ, sectorOps]
      split
      · next before =>
          have fits := starts.fits coarse before
          rw [if_neg (by omega)]
          dsimp only
          split
          · next erased =>
              exact .succeeded erased (inductionHypothesis starts.next)
          · exact .failed _ _ flash
      · exact .nothing flash

/-!
## What the port does to the flash
-/

/-- A driver call on one sector of the hardware, or on one row of it. -/
def FlashOp.Whole : FlashOp → Prop
  | .eraseSector pos => HardwareSector pos (fblFlashSectorSize pos)
  | .programRow row _ => row % flashProgramRowSize = 0

/-- All the bytes it touches are of the application region. -/
def FlashOp.InRegion (op : FlashOp) : Prop :=
  fblAppFlashBase ≤ op.extent.1 ∧
    op.extent.1 + op.extent.2 ≤ fblAppFlashBase + fblAppFlashSize

/--
The driver was called on whole sectors and rows of the region only, and every
byte outside the region is as it was.
-/
structure StaysInRegion (flash : CodeFlash) (left : CodeFlash) : Prop where
  tried :
    ∃ tried,
      left = flash.runAll tried ∧ ∀ op ∈ tried, op.Whole ∧ op.InRegion
  outside :
    ∀ addr,
      addr < fblAppFlashBase ∨ fblAppFlashBase + fblAppFlashSize ≤ addr →
        left.bytes addr = flash.bytes addr

/-- Calls on units of the region stay in the region. -/
theorem staysInRegion_of_tried
    {flash left : CodeFlash}
    (tried :
      ∃ tried,
        left = flash.runAll tried ∧ ∀ op ∈ tried, op.Whole ∧ op.InRegion) :
    StaysInRegion flash left where
  tried := tried
  outside := by
    obtain ⟨tried, rfl, inside⟩ := tried
    intro addr outside
    refine CodeFlash.runAll_bytes_missed fun op member => ?_
    obtain ⟨lower, upper⟩ := (inside op member).2
    rw [FlashOp.Misses]
    omega

/-- A call that refuses leaves the flash alone. -/
theorem StaysInRegion.refl (flash : CodeFlash) : StaysInRegion flash flash :=
  staysInRegion_of_tried
    ⟨[], rfl, fun _ member => absurd member List.not_mem_nil⟩

/-- So does one whose planned operations are all on units of the region. -/
theorem Tries.staysInRegion
    {planned : List FlashOp}
    {flash : CodeFlash}
    {result : Bool × CodeFlash}
    (tries : Tries planned flash result)
    (inside : ∀ op ∈ planned, op.Whole ∧ op.InRegion) :
    StaysInRegion flash result.2 := by
  obtain ⟨tried, start, left⟩ := tries.tried
  exact
    staysInRegion_of_tried
      ⟨tried, left, fun op member => inside op (start.subset member)⟩

/-- All of a range was erased: its sectors, each once, going up. -/
def RangeErased
    (addr len : Nat)
    (flash left : CodeFlash) : Prop :=
  ∃ sectors,
    SectorsTile addr (addr + len) sectors ∧
      sectors.Pairwise (· < ·) ∧
        left.ops = flash.ops ++ sectors.map .eraseSector ∧
          ∀ call, call < sectors.length → flash.failures call = none

/-- `hal_erase_range` stays in the region, and erases all of its range. -/
theorem fblFlashEraseRange_erases
    (addr len : UInt32)
    (flash : CodeFlash) :
    StaysInRegion flash (fblFlashEraseRange addr len flash).2 ∧
      ((fblFlashEraseRange addr len flash).1 = true →
        RangeErased addr.toNat len.toNat flash
          (fblFlashEraseRange addr len flash).2) := by
  have refused :
      StaysInRegion flash flash ∧
        (false = true → RangeErased addr.toNat len.toNat flash flash) :=
    ⟨.refl flash, Bool.noConfusion⟩
  unfold fblFlashEraseRange
  split
  · exact refused
  · next inside =>
      split
      · exact refused
      · next addrCoarse =>
          split
          · exact refused
          · next lenCoarse =>
              have region := inAppRegion_iff.mp (Bool.of_not_eq_false inside)
              have starts := sectorStart_of_coarse (not_not.mp addrCoarse)
              have coarse :
                  (addr.toNat + len.toNat) % flashLargeSectorSize = 0 := by
                rw [Nat.add_mod, not_not.mp addrCoarse, not_not.mp lenCoarse]
                rfl
              have tries :=
                @eraseWalk_tries len.toNat _ _ flash starts coarse
              refine ⟨tries.staysInRegion fun op member => ?_, ?_⟩
              · obtain ⟨sector, rfl, lower, upper, start⟩ :=
                  mem_sectorOps starts coarse member
                exact
                  ⟨start.hardwareSector, Nat.le_trans region.2.1 lower,
                    Nat.le_trans upper region.2.2⟩
              · intro returned
                obtain ⟨left, none⟩ := tries.all returned
                obtain ⟨sectors, ops, tile⟩ :=
                  sectorOps_tile starts coarse (Nat.le_add_right _ _)
                    (Nat.le_of_eq (Nat.add_sub_cancel_left ..))
                refine ⟨sectors, tile, tile.ascending.1, ?_, ?_⟩
                · rw [left, CodeFlash.runAll_ops, ops]
                · intro call below
                  exact none call (by rw [ops, List.length_map]; exact below)

/-- The rows of an accepted write stay in the region. -/
theorem programRows_staysInRegion
    {addr : UInt32}
    {len : Nat}
    (accepted : WriteAccepted addr len)
    (src : List UInt8)
    (flash : CodeFlash) :
    StaysInRegion flash
      (programRows (len / flashProgramRowSize) addr.toNat src flash).2 := by
  have region := inAppRegion_iff.mp accepted.1
  refine (programRows_tries _ _ _ _).staysInRegion fun op member => ?_
  obtain ⟨row, data, rfl, lower, upper, aligned⟩ := mem_rowOps member
  rw [Nat.div_mul_cancel (Nat.dvd_of_mod_eq_zero accepted.2.2)] at upper
  refine
    ⟨?_, Nat.le_trans region.2.1 lower, Nat.le_trans upper region.2.2⟩
  rw [FlashOp.Whole, ← Nat.add_sub_cancel' lower, Nat.add_mod, aligned,
    accepted.2.1]
  rfl

/-- An accepted sector stays in the region. -/
theorem eraseSector_staysInRegion
    {sectorAddr : Nat}
    (inside : inAppRegion sectorAddr (fblFlashSectorSize sectorAddr) = true)
    (starts : SectorStart sectorAddr)
    (flash : CodeFlash) :
    StaysInRegion flash (flash.run (.eraseSector sectorAddr)).2 := by
  refine staysInRegion_of_tried ⟨[.eraseSector sectorAddr], rfl, ?_⟩
  intro op member
  obtain rfl := List.mem_singleton.mp member
  exact ⟨starts.hardwareSector, (inAppRegion_iff.mp inside).2⟩

/--
The flash port returns from every call without an overflow, whatever the driver
does.  It touches only whole sectors and rows of the application region, and an
erase that succeeds has erased the sectors that tile its range.
-/
theorem flash_port_geometry
    (addr len : UInt32)
    (flash : CodeFlash) :
    (∃ result,
      WordArith.Returns
          (fun words turns => halEraseRange words turns addr len flash)
          result ∧
        StaysInRegion flash result.2 ∧
          (result.1 = true →
            RangeErased addr.toNat len.toNat flash result.2)) ∧
      (∃ result,
        WordArith.Returns (fun words _ => halEraseSector words addr flash)
            result ∧
          StaysInRegion flash result.2) ∧
        ∀ src, ∃ result,
          WordArith.Returns
              (fun words turns => halWrite words turns addr src len flash)
              result ∧
            StaysInRegion flash result.2 := by
  refine ⟨?_, ?_, fun src => ?_⟩
  · exact
      ⟨_,
        .of_exact len.toNat fun exact _ enough =>
          halEraseRange_eq exact enough addr flash,
        fblFlashEraseRange_erases addr len flash⟩
  · refine
      ⟨_, .of_exact 0 fun exact _ _ => halEraseSector_eq exact addr flash, ?_⟩
    split
    · next accepted =>
        exact eraseSector_staysInRegion accepted.1 accepted.2 flash
    · exact .refl flash
  · refine
      ⟨_,
        .of_exact len.toNat fun exact _ enough =>
          halWrite_eq exact enough addr src flash,
        ?_⟩
    split
    · next accepted =>
        exact programRows_staysInRegion accepted src flash
    · exact .refl flash

end TraveoBodyDomain
