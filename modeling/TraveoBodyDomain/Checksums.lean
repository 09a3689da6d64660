import TraveoBodyDomain.Lib.Crc
import TraveoBodyDomain.Boot.Decision
import TraveoBodyDomain.Store.Store

/-!
# The two CRC-32 functions

`boot_crc32` and the store's `crc32` are one function, written with a mask and
with a branch.  It is a CRC register of 32 bits: what guards the handshake and
the records of the store detects every corruption of up to four bytes in a row.
-/

namespace TraveoBodyDomain

/-- The lowest bit of a register, masked and looked up. -/
theorem and_one_cases
    (crc : UInt32) :
    (crc &&& 1 = 0 ∧ crc.toBitVec.getLsbD 0 = false) ∨
      (crc &&& 1 = 1 ∧ crc.toBitVec.getLsbD 0 = true) := by
  have masked : (crc &&& 1).toNat = crc.toNat % 2 := by
    rw [UInt32.toNat_and]
    exact Nat.and_one_is_mod _
  have bit : crc.toBitVec.getLsbD 0 = decide (crc.toNat % 2 = 1) := by
    rw [← BitVec.testBit_toNat, UInt32.toNat_toBitVec, Nat.testBit_zero]
  rcases Nat.mod_two_eq_zero_or_one crc.toNat with even | odd
  · exact .inl ⟨UInt32.toNat_inj.mp (masked.trans even), by rw [bit, even]; rfl⟩
  · exact .inr ⟨UInt32.toNat_inj.mp (masked.trans odd), by rw [bit, odd]; rfl⟩

/-- The mask and the branch make the same of a bit. -/
theorem bootCrc32Bit_eq :
    bootCrc32Bit = crc32Bit := by
  funext crc
  rw [bootCrc32Bit, crc32Bit, crc32Poly]
  rcases and_one_cases crc with ⟨masked, -⟩ | ⟨masked, -⟩
  · rw [masked, if_neg (not_not.mpr rfl), UInt32.sub_self, UInt32.and_zero,
      UInt32.xor_zero]
  · rw [masked, if_pos (by decide)]
    rfl

/-- Both functions are one. -/
theorem bootCrc32_eq
    (bytes : List UInt8) :
    bootCrc32 bytes = crc32 bytes := by
  have complement (crc : UInt32) : ~~~crc = crc ^^^ 0xFFFFFFFF := by
    refine UInt32.toBitVec_inj.mp ?_
    rw [UInt32.toBitVec_not, UInt32.toBitVec_xor]
    exact BitVec.xor_allOnes.symm
  rw [bootCrc32, crc32, complement, bootCrc32Bit_eq]
  rfl

/-!
## The register
-/

/-- A bit of the loop is a step of the register. -/
theorem crc32Bit_toBitVec
    (crc : UInt32) :
    (crc32Bit crc).toBitVec = Crc.step crc32Poly.toBitVec crc.toBitVec := by
  rw [crc32Bit, Crc.step]
  rcases and_one_cases crc with ⟨masked, bit⟩ | ⟨masked, bit⟩
  · rw [masked, bit, if_neg (not_not.mpr rfl), if_neg Bool.false_ne_true]
    rfl
  · rw [masked, bit, if_pos (by decide), if_pos rfl]
    rfl

/-- Bits of the loop are steps of the register. -/
theorem repeat_crc32Bit_toBitVec
    (n : Nat)
    (crc : UInt32) :
    (Nat.repeat crc32Bit n crc).toBitVec =
      Crc.steps crc32Poly.toBitVec n crc.toBitVec := by
  induction n with
  | zero =>
      rfl
  | succ n inductionHypothesis =>
      have after : Crc.steps crc32Poly.toBitVec (n + 1) crc.toBitVec =
          Crc.step crc32Poly.toBitVec
            (Crc.steps crc32Poly.toBitVec n crc.toBitVec) :=
        Function.iterate_succ_apply' _ n _
      rw [Nat.repeat, crc32Bit_toBitVec, inductionHypothesis, after]

/-- A byte of the loop is fed into the register. -/
theorem crc32Byte_toBitVec
    (crc : UInt32)
    (byte : UInt8) :
    (crc32Byte crc byte).toBitVec =
      Crc.feed crc32Poly.toBitVec crc.toBitVec byte.toBitVec := by
  rw [crc32Byte, repeat_crc32Bit_toBitVec, UInt32.toBitVec_xor]
  rfl

/-- The register that `crc32` is computed with. -/
theorem crc32_toBitVec
    (bytes : List UInt8) :
    (crc32 bytes).toBitVec =
      Crc.absorb crc32Poly.toBitVec (BitVec.allOnes 32)
          (bytes.map UInt8.toBitVec) ^^^
        BitVec.allOnes 32 := by
  have absorbed (crc : UInt32) :
      (bytes.foldl crc32Byte crc).toBitVec =
        Crc.absorb crc32Poly.toBitVec crc.toBitVec
          (bytes.map UInt8.toBitVec) := by
    induction bytes generalizing crc with
    | nil =>
        rfl
    | cons byte rest inductionHypothesis =>
        rw [List.foldl_cons, inductionHypothesis, crc32Byte_toBitVec]
        rfl
  rw [crc32, UInt32.toBitVec_xor, absorbed]
  rfl

/-- The polynomial has its top bit. -/
theorem crc32Poly_msb :
    crc32Poly.toBitVec.msb = true := by
  decide

/-- A burst of bytes is one of digits. -/
theorem burst_toBitVec
    {n : Nat}
    {u v : List UInt8}
    (burst : Crc.Burst n u v) :
    Crc.Burst n (u.map UInt8.toBitVec) (v.map UInt8.toBitVec) := by
  obtain ⟨length, distinct, start, outside⟩ := burst
  refine ⟨by rw [List.length_map, List.length_map, length], ?_, start, ?_⟩
  · intro same
    refine distinct (List.map_injective_iff.mpr ?_ same)
    exact fun _ _ => UInt8.toBitVec_inj.mp
  · intro i isOutside
    rw [List.getElem?_map, List.getElem?_map, outside i isOutside]

/-- The register tells apart what a burst of four bytes does. -/
theorem absorb_ne_of_byteBurst
    {u v : List UInt8}
    (burst : Crc.Burst 4 u v)
    (r : BitVec 32) :
    Crc.absorb crc32Poly.toBitVec r (u.map UInt8.toBitVec) ≠
      Crc.absorb crc32Poly.toBitVec r (v.map UInt8.toBitVec) :=
  Crc.absorb_ne_of_burst crc32Poly_msb (Nat.le_refl 32) (burst_toBitVec burst) r

/-- A burst of four bytes changes the CRC. -/
theorem crc32_ne_of_burst
    {u v : List UInt8}
    (burst : Crc.Burst 4 u v) :
    crc32 u ≠ crc32 v := by
  intro same
  have sameWord := congrArg UInt32.toBitVec same
  rw [crc32_toBitVec, crc32_toBitVec, BitVec.xor_left_inj] at sameWord
  exact absorb_ne_of_byteBurst burst _ sameWord

/-!
## A message and its check
-/

/-- The number that a word of bytes stands for. -/
theorem toNat_word_bytes
    {bytes : List UInt8}
    (fits : bytes.length ≤ 4) :
    (Crc.word 32 (bytes.map UInt8.toBitVec)).toNat =
      LittleEndian.ofLe bytes := by
  induction bytes with
  | nil =>
      rfl
  | cons byte rest inductionHypothesis =>
      rw [List.length_cons] at fits
      have restFits : 8 * ((rest.map UInt8.toBitVec).length + 1) ≤ 32 := by
        rw [List.length_map]
        omega
      rw [List.map_cons, Crc.toNat_word_cons _ _ restFits,
        inductionHypothesis (by omega)]
      rfl

/-- Four bytes are the CRC of a message when they bring the register there. -/
theorem ofLe_eq_crc32_iff
    {message check : List UInt8}
    (four : check.length = 4) :
    LittleEndian.ofLe check = (crc32 message).toNat ↔
      Crc.absorb crc32Poly.toBitVec (BitVec.allOnes 32)
          ((message ++ check).map UInt8.toBitVec) =
        Crc.steps crc32Poly.toBitVec 32 (BitVec.allOnes 32) := by
  have fills : 8 * (check.map UInt8.toBitVec).length = 32 := by
    rw [List.length_map, four]
  rw [List.map_append, ← Crc.absorb_check_iff crc32Poly_msb _ _ _ _ fills,
    ← crc32_toBitVec, ← BitVec.toNat_inj,
    toNat_word_bytes (Nat.le_of_eq four), UInt32.toNat_toBitVec]

/-- Of two messages with their checks, a burst apart, one has a wrong check. -/
theorem not_check_of_burst
    {message check other otherCheck : List UInt8}
    (four : check.length = 4)
    (otherFour : otherCheck.length = 4)
    (burst : Crc.Burst 4 (message ++ check) (other ++ otherCheck))
    (right : LittleEndian.ofLe check = (crc32 message).toNat) :
    LittleEndian.ofLe otherCheck ≠ (crc32 other).toNat := by
  intro otherRight
  rw [ofLe_eq_crc32_iff four] at right
  rw [ofLe_eq_crc32_iff otherFour, ← right] at otherRight
  exact absorb_ne_of_byteBurst burst _ otherRight.symm

/-!
## What is guarded
-/

/-- A handshake in memory. -/
def FblHandshake.bytes (h : FblHandshake) : List UInt8 :=
  h.covered ++ LittleEndian.toLe 4 h.crc32.toNat

/-- The handshake's CRC is right. -/
theorem handshake_crc_iff
    (h : FblHandshake) :
    h.crc32 = fblHandshakeCrc h ↔
      LittleEndian.ofLe (LittleEndian.toLe 4 h.crc32.toNat) =
        (crc32 h.covered).toNat := by
  have fits : h.crc32.toNat < 256 ^ 4 := h.crc32.toNat_lt
  rw [fblHandshakeCrc, bootCrc32_eq, ← UInt32.toNat_inj,
    LittleEndian.ofLe_toLe, Nat.mod_eq_of_lt fits]

/-- A burst in a handshake with a right CRC makes it a wrong one. -/
theorem handshake_crc_ne_of_burst
    {h corrupted : FblHandshake}
    (right : h.crc32 = fblHandshakeCrc h)
    (burst : Crc.Burst 4 h.bytes corrupted.bytes) :
    corrupted.crc32 ≠ fblHandshakeCrc corrupted := by
  rw [handshake_crc_iff] at right
  rw [ne_eq, handshake_crc_iff]
  exact
    not_check_of_burst (LittleEndian.length_toLe ..)
      (LittleEndian.length_toLe ..) burst right

/-- The CRC check of `read_slot`. -/
def RecordCrcOk (buf : List UInt8) : Prop :=
  getU32 (buf.drop crcLen) = crc32 (buf.take crcLen)

instance (buf : List UInt8) : Decidable (RecordCrcOk buf) :=
  inferInstanceAs (Decidable (_ = _))

/-- A word is read from its first four bytes. -/
theorem toNat_getU32
    {bytes : List UInt8}
    (enough : 4 ≤ bytes.length) :
    (getU32 bytes).toNat = LittleEndian.ofLe (bytes.take 4) := by
  match bytes with
  | [] | [_] | [_, _] | [_, _, _] =>
      simp only [List.length_cons, List.length_nil] at enough
      omega
  | first :: second :: third :: fourth :: rest =>
      exact getU32_toNat first second third fourth rest

/-- The body of a record is what the CRC covers, and the CRC. -/
theorem take_bodyLen
    (buf : List UInt8) :
    buf.take bodyLen = buf.take crcLen ++ (buf.drop crcLen).take 4 := by
  have length : bodyLen = crcLen + 4 := rfl
  rw [length, List.take_add]

/-- The record's CRC is right. -/
theorem recordCrcOk_iff
    {buf : List UInt8}
    (whole : buf.length = secocStoreRecordLen) :
    RecordCrcOk buf ↔
      LittleEndian.ofLe ((buf.drop crcLen).take 4) =
        (crc32 (buf.take crcLen)).toNat := by
  have enough : 4 ≤ (buf.drop crcLen).length := by
    rw [List.length_drop, whole]
    decide
  rw [RecordCrcOk, ← UInt32.toNat_inj, toNat_getU32 enough]

/-- A burst in the body of a record with a right CRC makes it a wrong one. -/
theorem not_recordCrcOk_of_burst
    {buf corrupted : List UInt8}
    (whole : buf.length = secocStoreRecordLen)
    (corruptedWhole : corrupted.length = secocStoreRecordLen)
    (right : RecordCrcOk buf)
    (burst : Crc.Burst 4 (buf.take bodyLen) (corrupted.take bodyLen)) :
    ¬RecordCrcOk corrupted := by
  have four {bytes : List UInt8} (isWhole : bytes.length = secocStoreRecordLen) :
      ((bytes.drop crcLen).take 4).length = 4 := by
    rw [List.length_take, List.length_drop, isWhole]
    rfl
  rw [take_bodyLen, take_bodyLen] at burst
  rw [recordCrcOk_iff whole] at right
  rw [recordCrcOk_iff corruptedWhole]
  exact not_check_of_burst (four whole) (four corruptedWhole) burst right

/-- The bytes that `read_slot` reads. -/
def slotBytes
    {Device : Type}
    (f : StoreConfig Device)
    (addr : Nat)
    (device : Device) : List UInt8 :=
  let (_, device) := f.blankCheck (addr + markOffset) markLen device
  (f.readChecked addr secocStoreRecordLen device).1.2

/-- Bytes that are taken for a record have passed the CRC check. -/
theorem recordCrcOk_of_classifyRecord
    {buf : List UInt8}
    {r : StoreRecord}
    (valid : classifyRecord buf = .valid r) :
    RecordCrcOk buf := by
  unfold classifyRecord at valid
  by_cases notMarked : getU32 (buf.drop markOffset) ≠ secocStoreCommitMark
  · rw [if_pos notMarked] at valid
    cases valid
  · rw [if_neg notMarked] at valid
    by_cases wrong : getU32 (buf.drop crcLen) ≠ crc32 (buf.take crcLen)
    · rw [if_pos wrong] at valid
      cases valid
    · exact not_not.mp wrong

/-- What `read_slot` takes for a record has passed its CRC check. -/
theorem recordCrcOk_of_readSlot
    {Device : Type}
    {f : StoreConfig Device}
    {addr : Nat}
    {device : Device}
    {r : StoreRecord}
    (valid : (readSlot f addr device).1 = .valid r) :
    RecordCrcOk (slotBytes f addr device) := by
  unfold readSlot at valid
  by_cases isBlank : (f.blankCheck (addr + markOffset) markLen device).1 = 1
  · simp only [if_pos isBlank] at valid
    cases valid
  by_cases unknown : (f.blankCheck (addr + markOffset) markLen device).1 ≠ 0
  · simp only [if_neg isBlank, if_pos unknown] at valid
    cases valid
  simp only [if_neg isBlank, if_neg unknown] at valid
  by_cases unreadable :
      (f.readChecked addr secocStoreRecordLen
        (f.blankCheck (addr + markOffset) markLen device).2).1.1 < 0
  · rw [if_pos unreadable] at valid
    cases valid
  · rw [if_neg unreadable] at valid
    exact recordCrcOk_of_classifyRecord valid

/--
Both CRC functions are one.  No two strings that are a burst of four bytes apart
have the same CRC; so no handshake and no record that is such a corruption of one
with a right CRC passes its check.
-/
theorem crc_agrees_and_detects_bursts :
    (∀ bytes, bootCrc32 bytes = crc32 bytes) ∧
      (∀ u v, Crc.Burst 4 u v → crc32 u ≠ crc32 v) ∧
      (∀ h corrupted : FblHandshake,
        h.crc32 = fblHandshakeCrc h →
          Crc.Burst 4 h.bytes corrupted.bytes →
            corrupted.crc32 ≠ fblHandshakeCrc corrupted ∧
              fblHandshakeValid corrupted = false) ∧
      ∀ buf corrupted,
        buf.length = secocStoreRecordLen →
          corrupted.length = secocStoreRecordLen →
            RecordCrcOk buf →
              Crc.Burst 4 (buf.take bodyLen) (corrupted.take bodyLen) →
                ¬RecordCrcOk corrupted ∧
                  ∀ (Device : Type) (f : StoreConfig Device) addr device r,
                    slotBytes f addr device = corrupted →
                      (readSlot f addr device).1 ≠ .valid r := by
  refine ⟨bootCrc32_eq, fun u v => crc32_ne_of_burst, ?_, ?_⟩
  · intro h corrupted right burst
    have wrong := handshake_crc_ne_of_burst right burst
    refine ⟨wrong, Bool.eq_false_iff.mpr fun valid => ?_⟩
    exact wrong ((fblHandshakeValid_iff corrupted).mp valid).2
  · intro buf corrupted whole corruptedWhole right burst
    have wrong := not_recordCrcOk_of_burst whole corruptedWhole right burst
    refine ⟨wrong, fun Device f addr device r read valid => ?_⟩
    exact wrong (read ▸ recordCrcOk_of_readSlot valid)

/-- A byte that changes in the third place of five. -/
theorem third_byte_changes_the_crc :
    crc32 [1, 2, 3, 4, 5] ≠ crc32 [1, 2, 0, 4, 5] :=
  crc_agrees_and_detects_bursts.2.1 [1, 2, 3, 4, 5] [1, 2, 0, 4, 5]
    ⟨rfl, by decide, 1, by
      rintro i (before | after)
      · rw [Nat.lt_one_iff.mp before]
        rfl
      · rw [List.getElem?_eq_none (by simpa using after),
          List.getElem?_eq_none (by simpa using after)]⟩

end TraveoBodyDomain
