import Mathlib.Tactic.Common
import TraveoBodyDomain.Lib.LittleEndian

/-!
# The freshness record

The record of `secoc_store.c` and its byte format: sequence number, both
epochs, the written bitmap, a CRC-32 over these twelve bytes, and the commit
mark.
-/

namespace TraveoBodyDomain

open LittleEndian

/-- `SECOC_STORE_DOMAINS`. -/
def secocStoreDomains : Nat :=
  2

/-- `SECOC_STORE_RECORD_LEN`. -/
def secocStoreRecordLen : Nat :=
  20

/-- `BODY_LEN`. -/
def bodyLen : Nat :=
  16

/-- `CRC_LEN`. -/
def crcLen : Nat :=
  12

/-- `MARK_OFFSET`. -/
def markOffset : Nat :=
  16

/-- `MARK_LEN`. -/
def markLen : Nat :=
  4

/-- `SECOC_STORE_COMMIT_MARK`. -/
def secocStoreCommitMark : UInt32 :=
  0xA5C33C5A

/-- `CRC32_POLY`. -/
def crc32Poly : UInt32 :=
  0xEDB88320

/-- `WRITTEN_MASK`. -/
def writtenMask : UInt32 :=
  3

/-- `secoc_store_status_t`. -/
inductive SecocStoreStatus where
  | ok
  | factory
  | broken
  deriving Repr, DecidableEq

/-- `record_t`, the two-element epoch array as two fields. -/
structure StoreRecord where
  seq : UInt32
  epoch0 : UInt16
  epoch1 : UInt16
  written : UInt32
  deriving Repr, DecidableEq

/-- The all-zero record. -/
def StoreRecord.zero : StoreRecord :=
  ⟨0, 0, 0, 0⟩

/-- `r->epoch[domain]`. -/
def StoreRecord.epoch (r : StoreRecord) (domain : UInt8) : UInt16 :=
  if domain = 0 then r.epoch0 else r.epoch1

/-- `r->epoch[domain] = epoch`. -/
def StoreRecord.setEpoch
    (r : StoreRecord)
    (domain : UInt8)
    (epoch : UInt16) : StoreRecord :=
  if domain = 0 then { r with epoch0 := epoch } else { r with epoch1 := epoch }

/-- `1U << domain`. -/
def domainBit (domain : UInt8) : UInt32 :=
  1 <<< domain.toUInt32

/-- What the record says of a domain: cold, or its epoch. -/
def StoreRecord.value (r : StoreRecord) (domain : UInt8) : Option UInt16 :=
  if r.written &&& domainBit domain = 0 then none else some (r.epoch domain)

/-- The record `next` that `store_commit` builds from the mirror. -/
def StoreRecord.next
    (r : StoreRecord)
    (domain : UInt8)
    (epoch : UInt16) : StoreRecord :=
  let bumped := { r with seq := r.seq + 1 }
  let stored := bumped.setEpoch domain epoch
  { stored with written := stored.written ||| domainBit domain }

/-- The reserved bits of the bitmap are clear. -/
def StoreRecord.ReservedClear (r : StoreRecord) : Prop :=
  r.written &&& ~~~writtenMask = 0

instance (r : StoreRecord) : Decidable r.ReservedClear :=
  inferInstanceAs (Decidable (_ = _))

/-- `put_u32`. -/
def putU32 (v : UInt32) : List UInt8 :=
  [(v &&& 0xFF).toUInt8, ((v >>> 8) &&& 0xFF).toUInt8,
    ((v >>> 16) &&& 0xFF).toUInt8, ((v >>> 24) &&& 0xFF).toUInt8]

/-- `get_u32`. -/
def getU32 (b : List UInt8) : UInt32 :=
  (b.getD 0 0).toUInt32 ||| ((b.getD 1 0).toUInt32 <<< 8) |||
    ((b.getD 2 0).toUInt32 <<< 16) ||| ((b.getD 3 0).toUInt32 <<< 24)

/-- One bit of the CRC loop. -/
def crc32Bit (crc : UInt32) : UInt32 :=
  if crc &&& 1 ≠ 0 then
    (crc >>> 1) ^^^ crc32Poly
  else
    crc >>> 1

/-- One byte of the CRC loop: eight bits. -/
def crc32Byte (crc : UInt32) (byte : UInt8) : UInt32 :=
  Nat.repeat crc32Bit 8 (crc ^^^ byte.toUInt32)

/-- `crc32`. -/
def crc32 (bytes : List UInt8) : UInt32 :=
  bytes.foldl crc32Byte 0xFFFFFFFF ^^^ 0xFFFFFFFF

/-- The twelve bytes the CRC covers. -/
def encodePayload (r : StoreRecord) : List UInt8 :=
  putU32 r.seq ++
    putU32 (r.epoch0.toUInt32 ||| (r.epoch1.toUInt32 <<< 16)) ++
    putU32 r.written

/-- `encode`. -/
def encode (r : StoreRecord) : List UInt8 :=
  encodePayload r ++ putU32 (crc32 (encodePayload r)) ++
    putU32 secocStoreCommitMark

/-- The part of `read_slot` that takes a record out of its bytes. -/
def decodePayload (buf : List UInt8) : StoreRecord :=
  let epochs := getU32 (buf.drop 4)
  { seq := getU32 buf
    epoch0 := (epochs &&& 0xFFFF).toUInt16
    epoch1 := (epochs >>> 16).toUInt16
    written := getU32 (buf.drop 8) }

/-!
## What a commit changes in the record
-/

/-- A domain below `SECOC_STORE_DOMAINS` is 0 or 1. -/
theorem domain_cases
    {domain : UInt8}
    (inRange : domain.toNat < secocStoreDomains) :
    domain = 0 ∨ domain = 1 := by
  unfold secocStoreDomains at inRange
  rcases Nat.lt_succ_iff_lt_or_eq.mp inRange with zero | one
  · left
    apply UInt8.toNat_inj.mp
    exact Nat.lt_one_iff.mp zero
  · right
    exact UInt8.toNat_inj.mp one

/-- Masking distributes over setting bits. -/
private theorem or_and
    (word bits mask : UInt32) :
    (word ||| bits) &&& mask = (word &&& mask) ||| (bits &&& mask) := by
  apply UInt32.toBitVec_inj.mp
  exact BitVec.and_or_distrib_right

@[simp] theorem StoreRecord.next_seq
    (r : StoreRecord)
    (domain : UInt8)
    (epoch : UInt16) :
    (r.next domain epoch).seq = r.seq + 1 := by
  unfold next setEpoch
  split <;> rfl

@[simp] theorem StoreRecord.next_written
    (r : StoreRecord)
    (domain : UInt8)
    (epoch : UInt16) :
    (r.next domain epoch).written = r.written ||| domainBit domain := by
  unfold next setEpoch
  split <;> rfl

/-- The committed domain has its new epoch. -/
theorem StoreRecord.next_value_same
    (r : StoreRecord)
    {domain : UInt8}
    (inRange : domain.toNat < secocStoreDomains)
    (epoch : UInt16) :
    (r.next domain epoch).value domain = some epoch := by
  have bit : domainBit domain &&& domainBit domain ≠ 0 := by
    rcases domain_cases inRange with rfl | rfl <;> decide
  have marked : (r.next domain epoch).written &&& domainBit domain ≠ 0 := by
    rw [next_written, or_and]
    exact fun none => bit (UInt32.or_eq_zero_iff.mp none).2
  have stored : (r.next domain epoch).epoch domain = epoch := by
    rcases domain_cases inRange with rfl | rfl <;> rfl
  unfold value
  rw [if_neg marked, stored]

section Other

variable
  (r : StoreRecord)
  {domain other : UInt8}
  (domainInRange : domain.toNat < secocStoreDomains)
  (otherInRange : other.toNat < secocStoreDomains)
  (different : other ≠ domain)
  (epoch : UInt16)
include domainInRange otherInRange different

/-- The other domain keeps its epoch. -/
theorem StoreRecord.next_epoch_other :
    (r.next domain epoch).epoch other = r.epoch other := by
  rcases domain_cases domainInRange with rfl | rfl <;>
    rcases domain_cases otherInRange with rfl | rfl
  · exact absurd rfl different
  · rfl
  · rfl
  · exact absurd rfl different

/-- The other domain keeps its written bit. -/
theorem StoreRecord.next_written_other :
    (r.next domain epoch).written &&& domainBit other =
      r.written &&& domainBit other := by
  have apart : domainBit domain &&& domainBit other = 0 := by
    rcases domain_cases domainInRange with rfl | rfl <;>
      rcases domain_cases otherInRange with rfl | rfl
    · exact absurd rfl different
    · rfl
    · rfl
    · exact absurd rfl different
  rw [next_written, or_and, apart, UInt32.or_zero]

/-- The other domain keeps its value. -/
theorem StoreRecord.next_value_other :
    (r.next domain epoch).value other = r.value other := by
  unfold value
  rw [next_written_other r domainInRange otherInRange different,
    next_epoch_other r domainInRange otherInRange different]

end Other

/-- A commit sets no reserved bit. -/
theorem StoreRecord.next_reservedClear
    {r : StoreRecord}
    (clear : r.ReservedClear)
    {domain : UInt8}
    (inRange : domain.toNat < secocStoreDomains)
    (epoch : UInt16) :
    (r.next domain epoch).ReservedClear := by
  have bit : domainBit domain &&& ~~~writtenMask = 0 := by
    rcases domain_cases inRange with rfl | rfl <;> decide
  unfold ReservedClear at clear ⊢
  rw [next_written, or_and, clear, bit]
  rfl

/-- Short of the wrap, the next record has the higher sequence number. -/
theorem StoreRecord.next_seq_lt
    {r : StoreRecord}
    (noWrap : r.seq ≠ 0xFFFFFFFF)
    (domain : UInt8)
    (epoch : UInt16) :
    r.seq.toNat < (r.next domain epoch).seq.toNat := by
  rw [next_seq, UInt32.toNat_add]
  have bound := r.seq.toNat_lt
  have below : r.seq.toNat ≠ 4294967295 := fun same =>
    noWrap (UInt32.toNat_inj.mp same)
  simp only [UInt32.toNat_one]
  omega

/-!
## Round trips
-/

/-- Writing a value as the source does gives its little-endian bytes. -/
theorem putU32_eq_toLe
    (v : UInt32) :
    putU32 v = toLe 4 v.toNat :=
  split32 v

@[simp] theorem length_putU32
    (v : UInt32) :
    (putU32 v).length = 4 :=
  rfl

/-- Reading four bytes as the source does gives the number they denote. -/
theorem getU32_toNat
    (first second third fourth : UInt8)
    (rest : List UInt8) :
    (getU32 (first :: second :: third :: fourth :: rest)).toNat =
      ofLe [first, second, third, fourth] :=
  join32 first second third fourth

/-- A value written and read back, whatever follows it. -/
@[simp] theorem getU32_putU32
    (v : UInt32)
    (rest : List UInt8) :
    getU32 (putU32 v ++ rest) = v := by
  apply UInt32.toNat_inj.mp
  have read : (getU32 (putU32 v ++ rest)).toNat = ofLe (putU32 v) :=
    getU32_toNat _ _ _ _ rest
  rw [read, putU32_eq_toLe, ofLe_toLe]
  exact Nat.mod_eq_of_lt v.toNat_lt

/-- The two epochs packed into one word, `encode`'s second. -/
def packEpochs (r : StoreRecord) : UInt32 :=
  r.epoch0.toUInt32 ||| (r.epoch1.toUInt32 <<< 16)

/-- Two halves packed into a word come out again. -/
theorem unpack_packEpochs
    (r : StoreRecord) :
    (packEpochs r &&& 0xFFFF).toUInt16 = r.epoch0 ∧
      (packEpochs r >>> 16).toUInt16 = r.epoch1 := by
  have lowBound := r.epoch0.toNat_lt
  have highBound := r.epoch1.toNat_lt
  have packed :
      (packEpochs r).toNat = r.epoch0.toNat + 65536 * r.epoch1.toNat := by
    have fits : r.epoch1.toNat <<< 16 < 4294967296 := by
      rw [Nat.shiftLeft_eq]
      omega
    simp only [packEpochs, UInt32.toNat_or, UInt16.toNat_toUInt32,
      UInt32.toNat_shiftLeft, UInt32.toNat_ofNat, Nat.mod_eq_of_lt fits,
      Nat.reduceMod, Nat.reducePow]
    exact or_shiftLeft _ _ lowBound
  constructor
  · apply UInt16.toNat_inj.mp
    rw [UInt32.toNat_toUInt16, UInt32.toNat_and, packed]
    have masked :=
      Nat.and_two_pow_sub_one_eq_mod
        (r.epoch0.toNat + 65536 * r.epoch1.toNat) 16
    simp at masked ⊢
    omega
  · apply UInt16.toNat_inj.mp
    rw [UInt32.toNat_toUInt16, UInt32.toNat_shiftRight, packed]
    simp [Nat.shiftRight_eq_div_pow]
    omega

/-- The five words of an encoded record. -/
def recordWords (r : StoreRecord) : List UInt32 :=
  [r.seq, packEpochs r, r.written, crc32 (encodePayload r),
    secocStoreCommitMark]

/-- An encoded record is its five words, byte by byte. -/
theorem encode_eq_recordWords
    (r : StoreRecord) :
    encode r = (recordWords r).flatMap putU32 := by
  simp [encode, encodePayload, recordWords, packEpochs]

/-- Decoding an encoded record gives it back. -/
theorem decodePayload_encode
    (r : StoreRecord) :
    decodePayload (encode r) = r := by
  obtain ⟨low, high⟩ := unpack_packEpochs r
  have second : (encode r).drop 4 = putU32 (packEpochs r) ++ (encode r).drop 8 :=
    rfl
  have third : (encode r).drop 8 = putU32 r.written ++ (encode r).drop 12 :=
    rfl
  have first : encode r = putU32 r.seq ++ (encode r).drop 4 :=
    rfl
  unfold decodePayload
  rw [second, third]
  simp only [getU32_putU32, low, high]
  rw [first, getU32_putU32]

end TraveoBodyDomain
