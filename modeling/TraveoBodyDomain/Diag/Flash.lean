import Mathlib.Tactic.Common

/-!
# The application flash of the bootloader

`port_flash.c`: code flash that is erased sector by sector, 32 KB or 8 KB, and
programmed in rows of 512 bytes.  Whether an operation succeeds, and what a
failed one leaves, is decided by the environment.  The operations attempted are
kept in order.

`in_app_region` refuses every range that leaves the region before any address
is computed, so the addresses below never wrap and are natural numbers.
-/

namespace TraveoBodyDomain

/-- `FBL_APP_FLASH_BASE`. -/
def fblAppFlashBase : Nat :=
  0x10040000

/-- `FBL_APP_FLASH_SIZE`. -/
def fblAppFlashSize : Nat :=
  832 * 1024

/-- `FLASH_PROGRAM_ROW_SIZE`. -/
def flashProgramRowSize : Nat :=
  512

/-- `FLASH_SMALL_SECTOR_SIZE`. -/
def flashSmallSectorSize : Nat :=
  8 * 1024

/-- `FLASH_LARGE_SECTOR_SIZE`. -/
def flashLargeSectorSize : Nat :=
  32 * 1024

/-- `FLASH_SMALL_REGION_START`. -/
def flashSmallRegionStart : Nat :=
  0x10000000 + 30 * flashLargeSectorSize

/-- `fbl_flash_sector_size`. -/
def fblFlashSectorSize (addr : Nat) : Nat :=
  if flashSmallRegionStart ≤ addr then
    flashSmallSectorSize
  else
    flashLargeSectorSize

/-- A call of the flash driver. -/
inductive FlashOp where
  | eraseSector (addr : Nat)
  | programRow (addr : Nat) (data : List UInt8)
  deriving Repr, DecidableEq

/-- The bytes an operation touches: its first address and their number. -/
def FlashOp.extent : FlashOp → Nat × Nat
  | .eraseSector addr => (addr, fblFlashSectorSize addr)
  | .programRow addr _ => (addr, flashProgramRowSize)

/-- The byte an operation that succeeds leaves at an address of its extent. -/
def FlashOp.result : FlashOp → Nat → UInt8
  | .eraseSector _, _ => 0xFF
  | .programRow addr data, at_ => data.getD (at_ - addr) 0

/--
The bytes by address, what the operations to come will do (`none` is success, a
failure leaves bytes of its own), and the operations attempted so far.
-/
structure CodeFlash where
  bytes : Nat → UInt8
  failures : Nat → Option (Nat → UInt8)
  ops : List FlashOp

/-- One call of the flash driver; whether it reported success. -/
def CodeFlash.run (flash : CodeFlash) (op : FlashOp) : Bool × CodeFlash :=
  let failure := flash.failures 0
  let bytes := fun addr =>
    if op.extent.1 ≤ addr ∧ addr < op.extent.1 + op.extent.2 then
      (failure.getD op.result) addr
    else
      flash.bytes addr
  (failure.isNone,
    { bytes := bytes
      failures := fun call => flash.failures (call + 1)
      ops := flash.ops ++ [op] })

/-- Flash whose every operation will succeed, erased throughout. -/
def blankFlash : CodeFlash :=
  ⟨fun _ => 0xFF, fun _ => none, []⟩

/-- `in_app_region`. -/
def inAppRegion (addr len : Nat) : Bool :=
  len ≠ 0 ∧ fblAppFlashBase ≤ addr ∧ len ≤ fblAppFlashSize ∧
    addr - fblAppFlashBase ≤ fblAppFlashSize - len

/-- The loop of `hal_write`, over the rows that are left. -/
def programRows :
    Nat → Nat → List UInt8 → CodeFlash → Bool × CodeFlash
  | 0, _, _, flash => (true, flash)
  | rows + 1, addr, src, flash =>
      let (programmed, flash) :=
        flash.run (.programRow addr (src.take flashProgramRowSize))
      if programmed then
        programRows rows (addr + flashProgramRowSize)
          (src.drop flashProgramRowSize) flash
      else
        (false, flash)

/-- `hal_write`; true is a return of 0. -/
def fblFlashWrite
    (addr : UInt32)
    (src : List UInt8)
    (flash : CodeFlash) : Bool × CodeFlash :=
  if inAppRegion addr.toNat src.length = false then
    (false, flash)
  else if addr.toNat % flashProgramRowSize ≠ 0 then
    (false, flash)
  else if src.length % flashProgramRowSize ≠ 0 then
    (false, flash)
  else
    programRows (src.length / flashProgramRowSize) addr.toNat src flash

/-- The loop of `hal_erase_range`; every turn advances, so `fuel` bytes do. -/
def eraseWalk : Nat → Nat → Nat → CodeFlash → Bool × CodeFlash
  | 0, _, _, flash => (true, flash)
  | fuel + 1, pos, stop, flash =>
      if pos < stop then
        let ssz := fblFlashSectorSize pos
        if stop - pos < ssz then
          (false, flash)
        else
          let (erased, flash) := flash.run (.eraseSector pos)
          if erased then
            eraseWalk fuel (pos + ssz) stop flash
          else
            (false, flash)
      else
        (true, flash)

/-- `hal_erase_range`; true is a return of 0. -/
def fblFlashEraseRange
    (addr len : UInt32)
    (flash : CodeFlash) : Bool × CodeFlash :=
  if inAppRegion addr.toNat len.toNat = false then
    (false, flash)
  else if addr.toNat % flashLargeSectorSize ≠ 0 then
    (false, flash)
  else if len.toNat % flashLargeSectorSize ≠ 0 then
    (false, flash)
  else
    eraseWalk len.toNat addr.toNat (addr.toNat + len.toNat) flash

/-- A write that `hal_write` accepts: in the region, in whole rows. -/
def WriteAccepted (addr : UInt32) (len : Nat) : Prop :=
  inAppRegion addr.toNat len = true ∧
    addr.toNat % flashProgramRowSize = 0 ∧
    len % flashProgramRowSize = 0

instance WriteAccepted.decidable
    (addr : UInt32)
    (len : Nat) : Decidable (WriteAccepted addr len) :=
  inferInstanceAs (Decidable (_ ∧ _ ∧ _))

/-- Every operation is recorded, whether it succeeds or not. -/
@[simp] theorem CodeFlash.run_ops (flash : CodeFlash) (op : FlashOp) :
    (flash.run op).2.ops = flash.ops ++ [op] :=
  rfl

/-- No operation changes a byte outside its extent. -/
theorem CodeFlash.run_bytes_outside
    {flash : CodeFlash}
    {op : FlashOp}
    {addr : Nat}
    (outside : addr < op.extent.1 ∨ op.extent.1 + op.extent.2 ≤ addr) :
    (flash.run op).2.bytes addr = flash.bytes addr := by
  have notInside :
      ¬ (op.extent.1 ≤ addr ∧ addr < op.extent.1 + op.extent.2) := by
    omega
  simp [CodeFlash.run, notInside]

/-- An accepted range is not empty and lies in the region. -/
theorem inAppRegion_iff {addr len : Nat} :
    inAppRegion addr len = true ↔
      len ≠ 0 ∧ fblAppFlashBase ≤ addr ∧
        addr + len ≤ fblAppFlashBase + fblAppFlashSize := by
  simp only [inAppRegion, decide_eq_true_eq]
  omega

/-- One row, and the rows after it when it was programmed. -/
theorem programRows_succ
    (rows addr : Nat)
    (src : List UInt8)
    (flash : CodeFlash) :
    programRows (rows + 1) addr src flash =
      let tried := flash.run (.programRow addr (src.take flashProgramRowSize))
      if tried.1 then
        programRows rows (addr + flashProgramRowSize)
          (src.drop flashProgramRowSize) tried.2
      else
        (false, tried.2) :=
  rfl

/-- The loop over the rows tries an operation unless there is no row. -/
theorem programRows_ops
    (rows addr : Nat)
    (src : List UInt8)
    (flash : CodeFlash) :
    ∃ tried,
      (programRows rows addr src flash).2.ops = flash.ops ++ tried ∧
        (tried = [] ↔ rows = 0) := by
  induction rows generalizing addr src flash with
  | zero =>
      exact ⟨[], by simp [programRows]⟩
  | succ rows inductionHypothesis =>
      rw [programRows_succ]
      dsimp only
      split
      · obtain ⟨tried, extended, -⟩ :=
          inductionHypothesis (addr + flashProgramRowSize)
            (src.drop flashProgramRowSize)
            (flash.run (.programRow addr (src.take flashProgramRowSize))).2
        refine
          ⟨.programRow addr (src.take flashProgramRowSize) :: tried, ?_,
            by simp⟩
        rw [extended]
        simp
      · exact ⟨[.programRow addr (src.take flashProgramRowSize)], by simp⟩

/-- `hal_write`, by what it accepts. -/
theorem fblFlashWrite_eq
    (addr : UInt32)
    (src : List UInt8)
    (flash : CodeFlash) :
    fblFlashWrite addr src flash =
      if WriteAccepted addr src.length then
        programRows (src.length / flashProgramRowSize) addr.toNat src flash
      else
        (false, flash) := by
  unfold fblFlashWrite
  by_cases accepted : WriteAccepted addr src.length
  · rw [if_pos accepted, if_neg (by simp [accepted.1]),
      if_neg (not_not.mpr accepted.2.1), if_neg (not_not.mpr accepted.2.2)]
  · rw [if_neg accepted]
    split
    · rfl
    · next inside =>
        split
        · rfl
        · next aligned =>
            rw [if_pos fun whole =>
              accepted
                ⟨Bool.of_not_eq_false inside, not_not.mp aligned, whole⟩]

/-- What it refuses leaves the flash alone. -/
theorem fblFlashWrite_of_refused
    {addr : UInt32}
    {src : List UInt8}
    (refused : ¬WriteAccepted addr src.length)
    (flash : CodeFlash) :
    fblFlashWrite addr src flash = (false, flash) := by
  rw [fblFlashWrite_eq, if_neg refused]

/-- A write reaches the flash exactly when `hal_write` accepts it. -/
theorem fblFlashWrite_ops
    (addr : UInt32)
    (src : List UInt8)
    (flash : CodeFlash) :
    ∃ tried,
      (fblFlashWrite addr src flash).2.ops = flash.ops ++ tried ∧
        (tried ≠ [] ↔ WriteAccepted addr src.length) := by
  by_cases accepted : WriteAccepted addr src.length
  · have rowsLeft : src.length / flashProgramRowSize ≠ 0 := by
      have nonempty := (inAppRegion_iff.mp accepted.1).1
      have whole := accepted.2.2
      have rowPositive : 0 < flashProgramRowSize := by decide
      intro none
      have split := Nat.div_add_mod src.length flashProgramRowSize
      rw [none, whole] at split
      simp at split
      omega
    obtain ⟨tried, extended, empty⟩ :=
      programRows_ops (src.length / flashProgramRowSize) addr.toNat src flash
    refine ⟨tried, ?_, by simp [empty, rowsLeft, accepted]⟩
    rw [← extended, fblFlashWrite_eq, if_pos accepted]
  · refine ⟨[], ?_, by simp [accepted]⟩
    rw [fblFlashWrite_of_refused accepted, List.append_nil]

/-- One sector, and the sectors after it when it was erased. -/
theorem eraseWalk_succ
    (fuel pos stop : Nat)
    (flash : CodeFlash) :
    eraseWalk (fuel + 1) pos stop flash =
      if pos < stop then
        if stop - pos < fblFlashSectorSize pos then
          (false, flash)
        else
          let tried := flash.run (.eraseSector pos)
          if tried.1 then
            eraseWalk fuel (pos + fblFlashSectorSize pos) stop tried.2
          else
            (false, tried.2)
      else
        (true, flash) :=
  rfl

/-!
## Flash whose operations succeed
-/

/-- Every operation to come succeeds. -/
def CodeFlash.Reliable (flash : CodeFlash) : Prop :=
  ∀ call, flash.failures call = none

/-- The flash after these operations. -/
def CodeFlash.runAll (flash : CodeFlash) (ops : List FlashOp) : CodeFlash :=
  ops.foldl (fun flash op => (flash.run op).2) flash

/-- The operation leaves this byte alone. -/
def FlashOp.Misses (op : FlashOp) (addr : Nat) : Prop :=
  addr < op.extent.1 ∨ op.extent.1 + op.extent.2 ≤ addr

/-- The operations touch different bytes. -/
def FlashOp.Apart (first second : FlashOp) : Prop :=
  first.extent.1 + first.extent.2 ≤ second.extent.1 ∨
    second.extent.1 + second.extent.2 ≤ first.extent.1

/-- The rows a write programs. -/
def rowOps : Nat → Nat → List UInt8 → List FlashOp
  | 0, _, _ => []
  | rows + 1, addr, src =>
      .programRow addr (src.take flashProgramRowSize) ::
        rowOps rows (addr + flashProgramRowSize)
          (src.drop flashProgramRowSize)

/-- The sectors an erased range is walked in. -/
def sectorOps : Nat → Nat → Nat → List FlashOp
  | 0, _, _ => []
  | fuel + 1, pos, stop =>
      if pos < stop then
        .eraseSector pos :: sectorOps fuel (pos + fblFlashSectorSize pos) stop
      else
        []

/-- An address at which a sector starts. -/
def SectorStart (pos : Nat) : Prop :=
  pos % fblFlashSectorSize pos = 0

/-- Sectors are small or large. -/
theorem fblFlashSectorSize_cases (pos : Nat) :
    (flashSmallRegionStart ≤ pos ∧
        fblFlashSectorSize pos = flashSmallSectorSize) ∨
      (pos < flashSmallRegionStart ∧
        fblFlashSectorSize pos = flashLargeSectorSize) := by
  by_cases small : flashSmallRegionStart ≤ pos
  · exact Or.inl ⟨small, if_pos small⟩
  · exact Or.inr ⟨Nat.lt_of_not_le small, if_neg small⟩

/-- The next sector starts where this one ends. -/
theorem SectorStart.next
    {pos : Nat}
    (starts : SectorStart pos) :
    SectorStart (pos + fblFlashSectorSize pos) := by
  have here := fblFlashSectorSize_cases pos
  have there := fblFlashSectorSize_cases (pos + fblFlashSectorSize pos)
  simp only [SectorStart, flashSmallSectorSize, flashLargeSectorSize]
    at starts here there ⊢
  rcases here with ⟨_, size⟩ | ⟨_, size⟩ <;>
    rcases there with ⟨_, size'⟩ | ⟨_, size'⟩ <;>
    rw [size'] <;> rw [size] at starts ⊢ <;> omega

/-- A sector that starts before a 32 KB boundary ends by it. -/
theorem SectorStart.fits
    {pos stop : Nat}
    (starts : SectorStart pos)
    (coarse : stop % flashLargeSectorSize = 0)
    (before : pos < stop) :
    pos + fblFlashSectorSize pos ≤ stop := by
  have here := fblFlashSectorSize_cases pos
  simp only [SectorStart, flashSmallSectorSize, flashLargeSectorSize]
    at starts here coarse
  rcases here with ⟨_, size⟩ | ⟨_, size⟩ <;> rw [size] at starts ⊢ <;> omega

/-- A 32 KB boundary is the start of a sector. -/
theorem sectorStart_of_coarse
    {pos : Nat}
    (coarse : pos % flashLargeSectorSize = 0) :
    SectorStart pos := by
  have here := fblFlashSectorSize_cases pos
  simp only [flashSmallSectorSize, flashLargeSectorSize] at here coarse
  rcases here with ⟨_, size⟩ | ⟨_, size⟩ <;> rw [SectorStart, size] <;> omega

namespace CodeFlash

@[simp] theorem runAll_nil (flash : CodeFlash) :
    flash.runAll [] = flash :=
  rfl

@[simp] theorem runAll_cons
    (flash : CodeFlash)
    (op : FlashOp)
    (rest : List FlashOp) :
    flash.runAll (op :: rest) = (flash.run op).2.runAll rest :=
  rfl

/-- Operations one after the other. -/
theorem runAll_append
    (flash : CodeFlash)
    (first second : List FlashOp) :
    flash.runAll (first ++ second) = (flash.runAll first).runAll second :=
  List.foldl_append

/-- All of them are recorded. -/
theorem runAll_ops
    (flash : CodeFlash)
    (ops : List FlashOp) :
    (flash.runAll ops).ops = flash.ops ++ ops := by
  induction ops generalizing flash with
  | nil =>
      simp
  | cons op rest inductionHypothesis =>
      simp [inductionHypothesis]

/-- A byte that every operation misses is unchanged. -/
theorem runAll_bytes_missed
    {flash : CodeFlash}
    {ops : List FlashOp}
    {addr : Nat}
    (missed : ∀ op ∈ ops, op.Misses addr) :
    (flash.runAll ops).bytes addr = flash.bytes addr := by
  induction ops generalizing flash with
  | nil =>
      rfl
  | cons op rest inductionHypothesis =>
      rw [runAll_cons,
        inductionHypothesis fun later member =>
          missed later (List.mem_cons_of_mem _ member)]
      exact run_bytes_outside (missed op (List.mem_cons_self ..))

namespace Reliable

variable {flash : CodeFlash}

/-- Reliable flash stays reliable. -/
theorem run
    (reliable : flash.Reliable)
    (op : FlashOp) :
    (flash.run op).2.Reliable :=
  fun call => reliable (call + 1)

/-- Its operations succeed. -/
theorem succeeds
    (reliable : flash.Reliable)
    (op : FlashOp) :
    (flash.run op).1 = true := by
  simp [CodeFlash.run, reliable 0]

/-- They leave what they should. -/
theorem run_bytes
    (reliable : flash.Reliable)
    {op : FlashOp}
    {addr : Nat}
    (touched : ¬ op.Misses addr) :
    (flash.run op).2.bytes addr = op.result addr := by
  have inside : op.extent.1 ≤ addr ∧ addr < op.extent.1 + op.extent.2 := by
    simp only [FlashOp.Misses] at touched
    omega
  simp [CodeFlash.run, inside, reliable 0]

/-- Reliable flash stays reliable. -/
theorem runAll
    (reliable : flash.Reliable)
    (ops : List FlashOp) :
    (flash.runAll ops).Reliable := by
  induction ops generalizing flash with
  | nil =>
      exact reliable
  | cons op rest inductionHypothesis =>
      exact inductionHypothesis (reliable.run op)

/-- A write programs all its rows. -/
theorem programRows
    (reliable : flash.Reliable)
    (rows addr : Nat)
    (src : List UInt8) :
    TraveoBodyDomain.programRows rows addr src flash =
      (true, flash.runAll (rowOps rows addr src)) := by
  induction rows generalizing addr src flash with
  | zero =>
      rfl
  | succ rows inductionHypothesis =>
      rw [programRows_succ]
      dsimp only
      rw [if_pos (reliable.succeeds _), inductionHypothesis (reliable.run _)]
      rfl

/-- An accepted write programs all its rows. -/
theorem fblFlashWrite
    (reliable : flash.Reliable)
    {addr : UInt32}
    {src : List UInt8}
    (accepted : WriteAccepted addr src.length) :
    TraveoBodyDomain.fblFlashWrite addr src flash =
      (true, flash.runAll
        (rowOps (src.length / flashProgramRowSize) addr.toNat src)) := by
  rw [fblFlashWrite_eq, if_pos accepted, reliable.programRows]

/-- A range between 32 KB boundaries is erased sector by sector. -/
theorem eraseWalk
    (reliable : flash.Reliable)
    {fuel pos stop : Nat}
    (starts : SectorStart pos)
    (coarse : stop % flashLargeSectorSize = 0) :
    TraveoBodyDomain.eraseWalk fuel pos stop flash =
      (true, flash.runAll (sectorOps fuel pos stop)) := by
  induction fuel generalizing pos flash with
  | zero =>
      rfl
  | succ fuel inductionHypothesis =>
      rw [eraseWalk_succ, sectorOps]
      split
      · next before =>
          have fits := starts.fits coarse before
          rw [if_neg (by omega)]
          dsimp only
          rw [if_pos (reliable.succeeds _),
            inductionHypothesis (reliable.run _) starts.next]
          rfl
      · rfl

end Reliable

end CodeFlash

/-!
## Rows and sectors
-/

/-- A write's rows are one after the other. -/
theorem rowOps_append
    {chunk : List UInt8}
    {first : Nat}
    (size : chunk.length = first * flashProgramRowSize)
    (second addr : Nat)
    (rest : List UInt8) :
    rowOps (first + second) addr (chunk ++ rest) =
      rowOps first addr chunk ++
        rowOps second (addr + first * flashProgramRowSize) rest := by
  induction first generalizing addr chunk with
  | zero =>
      obtain rfl : chunk = [] := List.length_eq_zero_iff.mp (by simpa using size)
      simp [rowOps]
  | succ first inductionHypothesis =>
      have long : flashProgramRowSize ≤ chunk.length := by
        rw [size, Nat.succ_mul]
        omega
      have shorter :
          (chunk.drop flashProgramRowSize).length =
            first * flashProgramRowSize := by
        rw [List.length_drop, size, Nat.succ_mul]
        omega
      have next :
          addr + flashProgramRowSize + first * flashProgramRowSize =
            addr + (first + 1) * flashProgramRowSize := by
        rw [Nat.succ_mul]
        omega
      rw [Nat.succ_add, rowOps, rowOps, List.take_append_of_le_length long,
        List.drop_append_of_le_length long, inductionHypothesis shorter, next]
      rfl

/-- Every operation of a write is a row of it. -/
theorem mem_rowOps
    {rows addr : Nat}
    {src : List UInt8}
    {op : FlashOp}
    (member : op ∈ rowOps rows addr src) :
    ∃ row data,
      op = .programRow row data ∧ addr ≤ row ∧
        row + flashProgramRowSize ≤ addr + rows * flashProgramRowSize ∧
        (row - addr) % flashProgramRowSize = 0 := by
  induction rows generalizing addr src with
  | zero =>
      cases member
  | succ rows inductionHypothesis =>
      rw [rowOps] at member
      rcases List.mem_cons.mp member with rfl | later
      · refine ⟨addr, _, rfl, Nat.le_refl _, ?_, by simp⟩
        rw [Nat.succ_mul]
        omega
      · obtain ⟨row, data, rfl, lower, upper, aligned⟩ :=
          inductionHypothesis later
        refine ⟨row, data, rfl, by omega, ?_, ?_⟩
        · rw [Nat.succ_mul]
          omega
        · have distance :
              row - addr = row - (addr + flashProgramRowSize) +
                flashProgramRowSize := by
            omega
          rw [distance, Nat.add_mod_right, aligned]

/-- No byte is in two rows of a write. -/
theorem rowOps_apart
    (rows addr : Nat)
    (src : List UInt8) :
    (rowOps rows addr src).Pairwise FlashOp.Apart := by
  induction rows generalizing addr src with
  | zero =>
      exact List.Pairwise.nil
  | succ rows inductionHypothesis =>
      rw [rowOps]
      refine List.Pairwise.cons ?_ (inductionHypothesis _ _)
      intro op member
      obtain ⟨row, data, rfl, lower, -, -⟩ := mem_rowOps member
      exact Or.inl lower

/-- A write leaves its bytes. -/
theorem CodeFlash.Reliable.rowOps_bytes
    {flash : CodeFlash}
    (reliable : flash.Reliable)
    {rows addr : Nat}
    {src : List UInt8}
    (size : src.length = rows * flashProgramRowSize)
    {i : Nat}
    (inside : i < src.length) :
    (flash.runAll (rowOps rows addr src)).bytes (addr + i) = src.getD i 0 := by
  induction rows generalizing addr src flash i with
  | zero =>
      omega
  | succ rows inductionHypothesis =>
      rw [rowOps, runAll_cons]
      by_cases first : i < flashProgramRowSize
      · rw [runAll_bytes_missed]
        · rw [reliable.run_bytes]
          · simp [FlashOp.result, first]
          · simp only [FlashOp.Misses, FlashOp.extent]
            omega
        · intro op member
          obtain ⟨row, data, rfl, lower, -, -⟩ := mem_rowOps member
          left
          simp only [FlashOp.extent]
          omega
      · have shorter :
            (src.drop flashProgramRowSize).length =
              rows * flashProgramRowSize := by
          rw [List.length_drop, size, Nat.succ_mul]
          omega
        have there :
            addr + i =
              addr + flashProgramRowSize + (i - flashProgramRowSize) := by
          omega
        rw [there, inductionHypothesis (reliable.run _) shorter]
        · rw [List.getD_eq_getElem?_getD, List.getElem?_drop,
            Nat.add_sub_cancel' (Nat.le_of_not_lt first),
            ← List.getD_eq_getElem?_getD]
        · rw [List.length_drop]
          omega

/-- Every operation of an erase is a sector of the range. -/
theorem mem_sectorOps
    {fuel pos stop : Nat}
    (starts : SectorStart pos)
    (coarse : stop % flashLargeSectorSize = 0)
    {op : FlashOp}
    (member : op ∈ sectorOps fuel pos stop) :
    ∃ sector,
      op = .eraseSector sector ∧ pos ≤ sector ∧
        sector + fblFlashSectorSize sector ≤ stop ∧ SectorStart sector := by
  induction fuel generalizing pos with
  | zero =>
      cases member
  | succ fuel inductionHypothesis =>
      rw [sectorOps] at member
      split at member
      · next before =>
          rcases List.mem_cons.mp member with rfl | later
          · exact ⟨pos, rfl, Nat.le_refl _, starts.fits coarse before, starts⟩
          · obtain ⟨sector, rfl, lower, upper, aligned⟩ :=
              inductionHypothesis starts.next later
            exact ⟨sector, rfl, by omega, upper, aligned⟩
      · cases member

/-- No byte is in two sectors of an erase. -/
theorem sectorOps_apart
    (fuel : Nat)
    {pos stop : Nat}
    (starts : SectorStart pos)
    (coarse : stop % flashLargeSectorSize = 0) :
    (sectorOps fuel pos stop).Pairwise FlashOp.Apart := by
  induction fuel generalizing pos with
  | zero =>
      exact List.Pairwise.nil
  | succ fuel inductionHypothesis =>
      rw [sectorOps]
      split
      · refine List.Pairwise.cons ?_ (inductionHypothesis starts.next)
        intro op member
        obtain ⟨sector, rfl, lower, -, -⟩ :=
          mem_sectorOps starts.next coarse member
        exact Or.inl lower
      · exact List.Pairwise.nil

/-- Every byte of the range is in a sector of the erase. -/
theorem sectorOps_cover
    {fuel pos stop : Nat}
    (enough : stop - pos ≤ fuel)
    {addr : Nat}
    (lower : pos ≤ addr)
    (upper : addr < stop) :
    ∃ sector,
      FlashOp.eraseSector sector ∈ sectorOps fuel pos stop ∧
        sector ≤ addr ∧ addr < sector + fblFlashSectorSize sector := by
  induction fuel generalizing pos with
  | zero =>
      omega
  | succ fuel inductionHypothesis =>
      rw [sectorOps, if_pos (by omega)]
      by_cases here : addr < pos + fblFlashSectorSize pos
      · exact ⟨pos, List.mem_cons_self .., lower, here⟩
      · have positive : 0 < fblFlashSectorSize pos := by
          have size := fblFlashSectorSize_cases pos
          simp only [flashSmallSectorSize, flashLargeSectorSize] at size
          omega
        obtain ⟨sector, member, inSector⟩ :=
          inductionHypothesis
            (show stop - (pos + fblFlashSectorSize pos) ≤ fuel by omega)
            (Nat.le_of_not_lt here)
        exact ⟨sector, List.mem_cons_of_mem _ member, inSector⟩

end TraveoBodyDomain
