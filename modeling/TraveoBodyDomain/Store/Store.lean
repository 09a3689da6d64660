import TraveoBodyDomain.Lib.TwoSlot
import TraveoBodyDomain.Store.Record

/-!
# The two-slot freshness store

`secoc_store.c` over an arbitrary `hal_flash_if_t`.  Every operation of the HAL
gives its return code and the next state of whatever stands behind it.
Addresses are `Nat`: a slot is one sector and lies inside the address space, so
no address computation wraps.
-/

namespace TraveoBodyDomain

/-- The entries of `hal_flash_if_t` the store reads; an entry may be NULL. -/
structure HalFlashIf (Device : Type) where
  eraseSector : Option (Nat → Device → Int × Device)
  write : Option (Nat → List UInt8 → Device → Int × Device)
  sectorSize : Nat
  blankCheck : Option (Nat → Nat → Device → Int × Device)
  readChecked : Option (Nat → Nat → Device → (Int × List UInt8) × Device)

/-- `secoc_store_cfg_t`. -/
structure SecocStoreCfg (Device : Type) where
  flash : Option (HalFlashIf Device)
  slotAddr : Fin 2 → Nat

/-- A configuration that passed `cfg_ok`, with what it checked. -/
structure StoreConfig (Device : Type) where
  eraseSector : Nat → Device → Int × Device
  write : Nat → List UInt8 → Device → Int × Device
  blankCheck : Nat → Nat → Device → Int × Device
  readChecked : Nat → Nat → Device → (Int × List UInt8) × Device
  sectorSize : Nat
  slotAddr : Fin 2 → Nat
  recordFits : secocStoreRecordLen ≤ sectorSize
  slotsDistinct : slotAddr 0 ≠ slotAddr 1
  slotsAligned : ∀ slot, slotAddr slot % sectorSize = 0

/-- `cfg_ok`, handing on what it checked. -/
def cfgOk {Device : Type} :
    Option (SecocStoreCfg Device) → Option (StoreConfig Device)
  | none => none
  | some cfg =>
      match cfg.flash with
      | none => none
      | some f =>
          match f.eraseSector, f.write, f.blankCheck, f.readChecked with
          | some eraseSector, some write, some blankCheck, some readChecked =>
              if fits : f.sectorSize < secocStoreRecordLen then
                none
              else if same : cfg.slotAddr 0 = cfg.slotAddr 1 then
                none
              else if aligned : ∀ slot, cfg.slotAddr slot % f.sectorSize = 0 then
                some
                  { eraseSector := eraseSector
                    write := write
                    blankCheck := blankCheck
                    readChecked := readChecked
                    sectorSize := f.sectorSize
                    slotAddr := cfg.slotAddr
                    recordFits := Nat.le_of_not_lt fits
                    slotsDistinct := same
                    slotsAligned := aligned }
              else
                none
          | _, _, _, _ => none

/-- `slot_state_t`, with the record `read_slot` fills in when it is valid. -/
inductive SlotState where
  | empty
  | torn
  | corrupt
  | valid (r : StoreRecord)
  deriving Repr, DecidableEq

/-- The record of a valid slot. -/
def SlotState.record : SlotState → Option StoreRecord
  | .valid r => some r
  | _ => none

/-- `s_store`; `NO_SLOT` is `none`. -/
structure SecocStore (Device : Type) where
  cfg : Option (StoreConfig Device)
  status : SecocStoreStatus
  newest : Option (Fin 2)
  mirror : StoreRecord

section Source

variable {Device : Type}

/-- `s_store` before the first mount. -/
def SecocStore.initial : SecocStore Device :=
  ⟨none, .broken, none, .zero⟩

/-- The part of `read_slot` after the twenty bytes were read. -/
def classifyRecord (buf : List UInt8) : SlotState :=
  if getU32 (buf.drop markOffset) ≠ secocStoreCommitMark then
    .torn
  else if getU32 (buf.drop crcLen) ≠ crc32 (buf.take crcLen) then
    .corrupt
  else
    let r := decodePayload buf
    if r.written &&& ~~~writtenMask ≠ 0 then .corrupt else .valid r

/-- `read_slot`. -/
def readSlot
    (f : StoreConfig Device)
    (addr : Nat)
    (device : Device) : SlotState × Device :=
  let (blank, device) := f.blankCheck (addr + markOffset) markLen device
  if blank = 1 then
    (.empty, device)
  else if blank ≠ 0 then
    -- Blank check itself failed: state unknown, fail closed.
    (.torn, device)
  else
    let ((rc, buf), device) := f.readChecked addr secocStoreRecordLen device
    if rc < 0 then
      (.torn, device)
    else
      (classifyRecord buf, device)

/-- The choice of `newest` in `secoc_store_mount`: the higher `seq` wins. -/
def newestSlot (st : Fin 2 → SlotState) : Option (Fin 2) :=
  match (st 0).record, (st 1).record with
  | some rec0, some rec1 => if rec1.seq > rec0.seq then some 1 else some 0
  | some _, none => some 0
  | none, some _ => some 1
  | none, none => none

/-- The part of `secoc_store_mount` after both slots were read. -/
def mountSlots
    (cfg : StoreConfig Device)
    (st : Fin 2 → SlotState) : SecocStore Device :=
  match newestSlot st with
  | some slot => ⟨some cfg, .ok, some slot, (st slot).record.getD .zero⟩
  | none =>
      if st 0 = .empty ∧ st 1 = .empty then
        ⟨some cfg, .factory, none, .zero⟩
      else
        ⟨some cfg, .broken, none, .zero⟩

/-- `secoc_store_mount`; the status returned is the one in the store. -/
def secocStoreMount
    (cfg : Option (SecocStoreCfg Device))
    (store : SecocStore Device)
    (device : Device) : SecocStore Device × Device :=
  match cfgOk cfg with
  | none => (⟨store.cfg, .broken, none, .zero⟩, device)
  | some cfg =>
      let (first, device) := readSlot cfg (cfg.slotAddr 0) device
      let (second, device) := readSlot cfg (cfg.slotAddr 1) device
      (mountSlots cfg fun slot => if slot = 0 then first else second, device)

/-- `usable`. -/
def usable (store : SecocStore Device) : Bool :=
  store.status ≠ .broken

/-- `store_load`; `none` is false. -/
def storeLoad
    (store : SecocStore Device)
    (domain : UInt8) : Option UInt16 :=
  if usable store = false ∨ secocStoreDomains ≤ domain.toNat then
    none
  else
    store.mirror.value domain

/-- The slot `store_commit` writes: never the newest valid one. -/
def targetSlot (store : SecocStore Device) : Fin 2 :=
  if store.newest = some 0 then 1 else 0

/-- The part of `store_commit` that reads the record back, and `same_record`. -/
def readsBack
    (f : StoreConfig Device)
    (addr : Nat)
    (next : StoreRecord)
    (device : Device) : Bool × Device :=
  let (state, device) := readSlot f addr device
  (state = .valid next, device)

/-- `store_commit`. -/
def storeCommit
    (store : SecocStore Device)
    (domain : UInt8)
    (epoch : UInt16)
    (device : Device) : Bool × SecocStore Device × Device :=
  match store.cfg with
  | none => (false, store, device)
  | some f =>
      if usable store = false ∨ secocStoreDomains ≤ domain.toNat then
        (false, store, device)
      else
        let next := store.mirror.next domain epoch
        let target := targetSlot store
        let addr := f.slotAddr target
        let buf := encode next
        let (erased, device) := f.eraseSector addr device
        if erased ≠ 0 then
          (false, store, device)
        else
          let (body, device) := f.write addr (buf.take bodyLen) device
          if body ≠ 0 then
            (false, store, device)
          else
            -- The mark last: until it lands, the slot is not valid.
            let (mark, device) :=
              f.write (addr + markOffset) (buf.drop markOffset) device
            if mark ≠ 0 then
              (false, store, device)
            else
              let (same, device) := readsBack f addr next device
              if same = false then
                (false, store, device)
              else
                (true,
                  { store with
                    status := .ok
                    newest := some target
                    mirror := next },
                  device)

end Source

/-!
## Selection
-/

/-- The records of the valid slots. -/
def slotRecords (st : Fin 2 → SlotState) (slot : Fin 2) : Option StoreRecord :=
  (st slot).record

/-- The newer of two records is the one of the higher sequence number. -/
def recordRank (r : StoreRecord) : Nat :=
  r.seq.toNat

/-- The mount takes the slot in force of the two-slot scheme. -/
theorem newestSlot_eq
    (st : Fin 2 → SlotState) :
    newestSlot st = TwoSlot.newest recordRank (slotRecords st) := by
  have order : ∀ first second : StoreRecord,
      second.seq > first.seq ↔ recordRank first < recordRank second :=
    fun _ _ => UInt32.lt_iff_toNat_lt
  simp only [newestSlot, TwoSlot.newest, slotRecords, order]
  cases (st 0).record <;> cases (st 1).record <;> rfl

section Selection

variable {Device : Type} (cfg : StoreConfig Device) {st : Fin 2 → SlotState}

/-- A slot in force is mounted: its record is the mirror. -/
theorem mountSlots_of_newest
    {slot : Fin 2}
    {r : StoreRecord}
    (inForce : newestSlot st = some slot)
    (holds : st slot = .valid r) :
    mountSlots cfg st = ⟨some cfg, .ok, some slot, r⟩ := by
  simp [mountSlots, inForce, holds, SlotState.record]

/-- Without a slot in force the mount is factory fresh or broken. -/
theorem mountSlots_of_none
    (nothing : newestSlot st = none) :
    mountSlots cfg st =
      ⟨some cfg, if st 0 = .empty ∧ st 1 = .empty then .factory else .broken,
        none, .zero⟩ := by
  simp only [mountSlots, nothing]
  split <;> rfl

/-- A slot whose record is `r` is valid. -/
theorem valid_of_record
    {state : SlotState}
    {r : StoreRecord}
    (holds : state.record = some r) :
    state = .valid r := by
  cases state with
  | valid other =>
      exact congrArg SlotState.valid (Option.some.inj holds)
  | empty => cases holds
  | torn => cases holds
  | corrupt => cases holds

/--
What a mount finds: the record in force, or no record and then the zero
mirror.
-/
theorem mountSlots_cases :
    (∃ slot r,
        newestSlot st = some slot ∧ st slot = .valid r ∧
          TwoSlot.inForce recordRank (slotRecords st) = some r ∧
            mountSlots cfg st = ⟨some cfg, .ok, some slot, r⟩) ∨
      (TwoSlot.inForce recordRank (slotRecords st) = none ∧
        ∃ status,
          status ≠ .ok ∧
            mountSlots cfg st = ⟨some cfg, status, none, .zero⟩) := by
  cases current : newestSlot st with
  | some slot =>
      left
      have newest := current
      rw [newestSlot_eq] at newest
      obtain ⟨r, holds, _⟩ := TwoSlot.newest_some newest
      have valid : st slot = .valid r := valid_of_record holds
      refine
        ⟨slot, r, rfl, valid, ?_, mountSlots_of_newest cfg current valid⟩
      rw [TwoSlot.inForce, newest, Option.bind_some, holds]
  | none =>
      right
      have newest := current
      rw [newestSlot_eq] at newest
      refine ⟨?_, _, ?_, mountSlots_of_none cfg current⟩
      · rw [TwoSlot.inForce, newest]
        rfl
      · split <;> exact SecocStoreStatus.noConfusion

end Selection

/-- The bytes of a record are classified as that record. -/
theorem classifyRecord_encode
    {r : StoreRecord}
    (clear : r.ReservedClear) :
    classifyRecord (encode r) = .valid r := by
  have mark : getU32 ((encode r).drop markOffset) = secocStoreCommitMark :=
    getU32_putU32 _ []
  have crc :
      getU32 ((encode r).drop crcLen) = crc32 ((encode r).take crcLen) :=
    getU32_putU32 _ (putU32 secocStoreCommitMark)
  have reserved : r.written &&& ~~~writtenMask = 0 := clear
  simp [classifyRecord, mark, crc, decodePayload_encode, reserved]

end TraveoBodyDomain
