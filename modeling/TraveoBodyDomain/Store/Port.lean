import TraveoBodyDomain.Lib.WordFlash
import TraveoBodyDomain.Store.Store

/-!
# The store over work flash

`wflash_port.c`: the work flash as the `hal_flash_if_t` of the store, four
bytes a word.  What a call reports, and what a failed call did to each word, is
decided by the environment.  The second half says what each slot holds as a
function of the words alone, and that a mount without failing calls sees
exactly that.
-/

namespace TraveoBodyDomain

/-- `WF_WORD`. -/
def wfWord : Nat :=
  4

/-- The size of `shared->rd`, in bytes. -/
def wfReadLimit : Nat :=
  32

/-- The work flash: words of 32 bits by their address. -/
abbrev WorkFlash :=
  WordFlash UInt32

/-- `status_to_rc`. -/
def statusToRc (success : Bool) : Int :=
  if success then 0 else -1

/-- The addresses of the sector at `sectorAddr`. -/
def inSector (sectorSize sectorAddr addr : Nat) : Bool :=
  sectorAddr ≤ addr ∧ addr < sectorAddr + sectorSize

/-- `wf_erase_sector`. -/
def wfEraseSector
    (sectorSize sectorAddr : Nat)
    (flash : WorkFlash) : Int × WorkFlash :=
  let (success, flash) := flash.erase (inSector sectorSize sectorAddr)
  (statusToRc success, flash)

/-- The loop of `wf_write`: one word after the other. -/
def wordCells : Nat → List UInt8 → List (Nat × UInt32)
  | addr, b0 :: b1 :: b2 :: b3 :: rest =>
      (addr, getU32 [b0, b1, b2, b3]) :: wordCells (addr + wfWord) rest
  | _, _ => []

/-- `wf_write`. -/
def wfWrite
    (addr : Nat)
    (src : List UInt8)
    (flash : WorkFlash) : Int × WorkFlash :=
  if addr % wfWord ≠ 0 ∨ src.length % wfWord ≠ 0 then
    (-1, flash)
  else
    let (success, flash) := flash.program (wordCells addr src)
    (statusToRc success, flash)

/-- The word addresses of `[addr, addr + len)`. -/
def wordAddrs (addr len : Nat) : List Nat :=
  (List.range (len / wfWord)).map fun word => addr + wfWord * word

/-- `wf_blank_check`. -/
def wfBlankCheck
    (addr len : Nat)
    (flash : WorkFlash) : Int × WorkFlash :=
  if addr % wfWord ≠ 0 ∨ len = 0 ∨ len % wfWord ≠ 0 then
    (-1, flash)
  else
    match flash.blankCheck (wordAddrs addr len) with
    | (some true, flash) => (1, flash)
    | (some false, flash) => (0, flash)
    | (none, flash) => (-1, flash)

/-- `wf_read_checked`. -/
def wfReadChecked
    (addr len : Nat)
    (flash : WorkFlash) : (Int × List UInt8) × WorkFlash :=
  if addr % wfWord ≠ 0 ∨ len = 0 ∨ len % wfWord ≠ 0 ∨ wfReadLimit < len then
    ((-1, []), flash)
  else
    match flash.read (wordAddrs addr len) with
    | (some words, flash) => ((0, words.flatMap putU32), flash)
    | (none, flash) => ((-1, []), flash)

/-- `s_hal` after `wflash_port_init`. -/
def wflashHal (sectorSize : Nat) : HalFlashIf WorkFlash where
  eraseSector := some (wfEraseSector sectorSize)
  write := some wfWrite
  sectorSize := sectorSize
  blankCheck := some wfBlankCheck
  readChecked := some wfReadChecked

/--
Two distinct sectors of the work flash, each large enough for a record.  A
sector of this flash starts at a word.
-/
structure WflashSlots where
  sectorSize : Nat
  slotAddr : Fin 2 → Nat
  recordFits : secocStoreRecordLen ≤ sectorSize
  slotsDistinct : slotAddr 0 ≠ slotAddr 1
  slotsAligned : ∀ slot, slotAddr slot % sectorSize = 0
  wordAligned : ∀ slot, slotAddr slot % wfWord = 0

namespace WflashSlots

/-- The configuration a node passes to `secoc_store_mount`. -/
def cfg (slots : WflashSlots) : Option (SecocStoreCfg WorkFlash) :=
  some ⟨some (wflashHal slots.sectorSize), slots.slotAddr⟩

/-- What `cfg_ok` makes of it. -/
def config (slots : WflashSlots) : StoreConfig WorkFlash where
  eraseSector := wfEraseSector slots.sectorSize
  write := wfWrite
  blankCheck := wfBlankCheck
  readChecked := wfReadChecked
  sectorSize := slots.sectorSize
  slotAddr := slots.slotAddr
  recordFits := slots.recordFits
  slotsDistinct := slots.slotsDistinct
  slotsAligned := slots.slotsAligned

/-- The configuration passes `cfg_ok`. -/
theorem cfgOk_cfg
    (slots : WflashSlots) :
    cfgOk slots.cfg = some slots.config := by
  have fits := Nat.not_lt.mpr slots.recordFits
  have distinct := slots.slotsDistinct
  have aligned := slots.slotsAligned
  simp only [cfg, cfgOk, wflashHal, fits, distinct, aligned,
    implies_true, dite_true, dite_false]
  rfl

/-- Address `addr` belongs to the sector of `slot`. -/
def contains (slots : WflashSlots) (slot : Fin 2) (addr : Nat) : Bool :=
  inSector slots.sectorSize (slots.slotAddr slot) addr

/-- The addresses of the five record words of a slot. -/
def recordAddrs (slots : WflashSlots) (slot : Fin 2) : List Nat :=
  wordAddrs (slots.slotAddr slot) secocStoreRecordLen

/-- What `read_slot` finds in a slot when no call fails. -/
def state
    (slots : WflashSlots)
    (words : Nat → FlashWord UInt32)
    (slot : Fin 2) : SlotState :=
  if (words (slots.slotAddr slot + markOffset)).looksBlank then
    .empty
  else
    match (slots.recordAddrs slot).mapM fun addr => (words addr).read with
    | none => .torn
    | some values => classifyRecord (values.flatMap putU32)

/-- The five words of the slot are those of the record. -/
def Holds
    (slots : WflashSlots)
    (words : Nat → FlashWord UInt32)
    (slot : Fin 2)
    (r : StoreRecord) : Prop :=
  (slots.recordAddrs slot).map words = (recordWords r).map .programmed

/-- The RAM state a mount without failing calls leaves. -/
def mounted
    (slots : WflashSlots)
    (words : Nat → FlashWord UInt32) : SecocStore WorkFlash :=
  mountSlots slots.config (slots.state words)

/-!
## Addresses
-/

/-- The five record words, one by one. -/
theorem recordAddrs_eq
    (slots : WflashSlots)
    (slot : Fin 2) :
    slots.recordAddrs slot =
      [slots.slotAddr slot, slots.slotAddr slot + 4, slots.slotAddr slot + 8,
        slots.slotAddr slot + 12, slots.slotAddr slot + markOffset] :=
  rfl

/-- A record lies inside its sector. -/
theorem contains_recordAddr
    (slots : WflashSlots)
    {slot : Fin 2}
    {addr : Nat}
    (member : addr ∈ slots.recordAddrs slot) :
    slots.contains slot addr = true := by
  have fits := slots.recordFits
  rw [recordAddrs_eq] at member
  unfold secocStoreRecordLen at fits
  unfold contains inSector
  simp only [List.mem_cons, List.not_mem_nil, or_false, markOffset] at member
  simp only [decide_eq_true_eq]
  omega

/-- An address of a sector determines where the sector starts. -/
private theorem start_of_contains
    {slots : WflashSlots}
    {slot : Fin 2}
    {addr : Nat}
    (inside : slots.contains slot addr = true) :
    slots.slotAddr slot = slots.sectorSize * (addr / slots.sectorSize) := by
  simp only [contains, inSector, decide_eq_true_eq] at inside
  obtain ⟨quotient, start⟩ :=
    Nat.dvd_of_mod_eq_zero (slots.slotsAligned slot)
  have index : addr / slots.sectorSize = quotient := by
    apply Nat.div_eq_of_lt_le
    · rw [Nat.mul_comm, ← start]
      exact inside.1
    · rw [Nat.succ_mul, Nat.mul_comm, ← start]
      exact inside.2
  rw [index, start]

/-- The two sectors share no address. -/
theorem eq_of_contains
    {slots : WflashSlots}
    {first second : Fin 2}
    {addr : Nat}
    (inFirst : slots.contains first addr = true)
    (inSecond : slots.contains second addr = true) :
    first = second := by
  have same : slots.slotAddr first = slots.slotAddr second := by
    rw [start_of_contains inFirst, start_of_contains inSecond]
  have distinct := slots.slotsDistinct
  fin_cases first <;> fin_cases second
  · rfl
  · exact absurd same distinct
  · exact absurd same.symm distinct
  · rfl

/-!
## What a slot holds
-/

/-- What a slot holds depends on its five words only. -/
theorem state_congr
    {slots : WflashSlots}
    {before after : Nat → FlashWord UInt32}
    {slot : Fin 2}
    (same : ∀ addr ∈ slots.recordAddrs slot, after addr = before addr) :
    slots.state after slot = slots.state before slot := by
  have values :
      (slots.recordAddrs slot).mapM (fun addr => (after addr).read) =
        (slots.recordAddrs slot).mapM fun addr => (before addr).read := by
    rw [recordAddrs_eq] at same ⊢
    simp only [List.mapM_cons, List.mapM_nil]
    simp only [List.forall_mem_cons] at same
    obtain ⟨first, second, third, fourth, fifth, _⟩ := same
    rw [first, second, third, fourth, fifth]
  have mark :
      after (slots.slotAddr slot + markOffset) =
        before (slots.slotAddr slot + markOffset) :=
    same _ (by rw [recordAddrs_eq]; simp)
  unfold state
  rw [mark, values]

/-- A slot holding a record with no reserved bit reads as that record. -/
theorem state_of_holds
    {slots : WflashSlots}
    {words : Nat → FlashWord UInt32}
    {slot : Fin 2}
    {r : StoreRecord}
    (holds : slots.Holds words slot r)
    (clear : r.ReservedClear) :
    slots.state words slot = .valid r := by
  rw [Holds, recordAddrs_eq] at holds
  simp only [List.map_cons, List.map_nil, recordWords, List.cons.injEq,
    and_true] at holds
  obtain ⟨first, second, third, fourth, fifth⟩ := holds
  have classified := classifyRecord_encode clear
  rw [encode_eq_recordWords] at classified
  unfold state
  rw [recordAddrs_eq, fifth]
  simpa [FlashWord.looksBlank, FlashWord.read, first, second, third, fourth,
    fifth, recordWords] using classified

/-- A slot with a record word that cannot be read is not valid. -/
theorem state_of_unreadable
    {slots : WflashSlots}
    {words : Nat → FlashWord UInt32}
    {slot : Fin 2}
    {addr : Nat}
    (member : addr ∈ slots.recordAddrs slot)
    (unreadable : (words addr).read = none) :
    (slots.state words slot).record = none := by
  have nothing :
      (slots.recordAddrs slot).mapM (fun addr => (words addr).read) = none := by
    rw [recordAddrs_eq] at member ⊢
    simp only [List.mem_cons, List.not_mem_nil, or_false] at member
    rcases member with rfl | rfl | rfl | rfl | rfl <;> simp [unreadable]
  unfold state
  rw [nothing]
  split <;> rfl

/-- A valid record has no reserved bit set. -/
theorem reservedClear_of_valid
    {slots : WflashSlots}
    {words : Nat → FlashWord UInt32}
    {slot : Fin 2}
    {r : StoreRecord}
    (valid : slots.state words slot = .valid r) :
    r.ReservedClear := by
  unfold state at valid
  split at valid
  · cases valid
  · split at valid
    · cases valid
    · unfold classifyRecord at valid
      dsimp only at valid
      split at valid
      · cases valid
      · split at valid
        · cases valid
        · split at valid
          · cases valid
          · rename_i clear
            cases valid
            exact not_not.mp clear

end WflashSlots

/-- The two sectors of Node A. -/
def nodeASlots : WflashSlots where
  sectorSize := 128
  slotAddr := fun slot => if slot = 0 then 0x14012000 else 0x14012800
  recordFits := by decide
  slotsDistinct := by decide
  slotsAligned := by decide
  wordAligned := by decide

/-- Work flash as it leaves the factory. -/
def blankWords : Nat → FlashWord UInt32 :=
  fun _ => .erased

/-!
## Reading a slot
-/

section Read

variable (slots : WflashSlots) (slot : Fin 2) (flash : WorkFlash)

/-- The blank check of a commit mark. -/
theorem blankCheck_mark :
    wfBlankCheck (slots.slotAddr slot + markOffset) markLen flash =
      (match flash.outcomes 0 with
        | .failure _ => -1
        | .success =>
            if (flash.words (slots.slotAddr slot + markOffset)).looksBlank then
              1
            else
              0,
        flash.spend) := by
  have aligned := slots.wordAligned slot
  have markAligned : (slots.slotAddr slot + markOffset) % wfWord = 0 := by
    unfold wfWord markOffset at *
    omega
  have word : wordAddrs (slots.slotAddr slot + markOffset) markLen =
      [slots.slotAddr slot + markOffset] :=
    rfl
  simp only [wfBlankCheck, markAligned, word]
  rw [if_neg (by decide)]
  unfold WordFlash.blankCheck
  cases flash.outcomes 0 with
  | failure touched =>
      rfl
  | success =>
      cases blank :
          (flash.words (slots.slotAddr slot + markOffset)).looksBlank <;>
        simp [blank]

/-- The checked read of a record. -/
theorem readChecked_record :
    wfReadChecked (slots.slotAddr slot) secocStoreRecordLen flash =
      (match flash.outcomes 0 with
        | .failure _ => (-1, [])
        | .success =>
            match
              (slots.recordAddrs slot).mapM fun addr => (flash.words addr).read
            with
            | none => (-1, [])
            | some values => (0, values.flatMap putU32),
        flash.spend) := by
  have aligned := slots.wordAligned slot
  have record :
      wordAddrs (slots.slotAddr slot) secocStoreRecordLen =
        slots.recordAddrs slot :=
    rfl
  simp only [wfReadChecked, aligned, record]
  rw [if_neg (by decide)]
  unfold WordFlash.read
  cases flash.outcomes 0 with
  | failure touched =>
      rfl
  | success =>
      cases (slots.recordAddrs slot).mapM fun addr => (flash.words addr).read <;>
        rfl

/-- `read_slot` sees what the slot holds unless one of its calls fails. -/
theorem readSlot_spec :
    readSlot slots.config (slots.slotAddr slot) flash =
      match flash.outcomes 0 with
      | .failure _ => (.torn, flash.spend)
      | .success =>
          if (flash.words (slots.slotAddr slot + markOffset)).looksBlank then
            (.empty, flash.spend)
          else
            match flash.outcomes 1 with
            | .failure _ => (.torn, flash.spend.spend)
            | .success => (slots.state flash.words slot, flash.spend.spend) := by
  have second : flash.spend.outcomes 0 = flash.outcomes 1 := rfl
  have words : flash.spend.words = flash.words := rfl
  unfold readSlot WflashSlots.state
  simp only [WflashSlots.config, blankCheck_mark, readChecked_record, second,
    words]
  cases flash.outcomes 0 with
  | failure touched =>
      rfl
  | success =>
      cases (flash.words (slots.slotAddr slot + markOffset)).looksBlank with
      | true =>
          rfl
      | false =>
          cases flash.outcomes 1 with
          | failure touched =>
              rfl
          | success =>
              cases
                  (slots.recordAddrs slot).mapM fun addr =>
                    (flash.words addr).read <;>
                rfl

end Read

/-- A work flash none of whose calls fails. -/
def healthyFlash
    (words : Nat → FlashWord UInt32)
    (reprogrammed : Nat) : WorkFlash :=
  ⟨words, fun _ => .success, reprogrammed⟩

/-- `read_slot` without a failing call. -/
theorem readSlot_healthy
    (slots : WflashSlots)
    (words : Nat → FlashWord UInt32)
    (count : Nat)
    (slot : Fin 2) :
    readSlot slots.config (slots.slotAddr slot) (healthyFlash words count) =
      (slots.state words slot, healthyFlash words count) := by
  have spent : (healthyFlash words count).spend = healthyFlash words count :=
    rfl
  rw [readSlot_spec]
  simp only [spent]
  by_cases blank :
      (words (slots.slotAddr slot + markOffset)).looksBlank = true <;>
    simp [healthyFlash, WflashSlots.state, blank]

/-- A mount without a failing call leaves what the words say. -/
theorem secocStoreMount_healthy
    (slots : WflashSlots)
    (words : Nat → FlashWord UInt32)
    (count : Nat)
    (store : SecocStore WorkFlash) :
    secocStoreMount slots.cfg store (healthyFlash words count) =
      (slots.mounted words, healthyFlash words count) := by
  have first := readSlot_healthy slots words count 0
  have second := readSlot_healthy slots words count 1
  have states :
      (fun slot => if slot = 0 then slots.state words 0 else slots.state words 1) =
        slots.state words := by
    funext slot
    fin_cases slot <;> rfl
  unfold secocStoreMount
  rw [slots.cfgOk_cfg]
  simp only [WflashSlots.config] at first second ⊢
  simp only [first, second, states]
  rfl

end TraveoBodyDomain
