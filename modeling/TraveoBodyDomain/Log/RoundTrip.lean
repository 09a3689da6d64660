import Mathlib.Data.List.GetD
import TraveoBodyDomain.Lib.LittleEndian
import TraveoBodyDomain.Log.Decoder
import TraveoBodyDomain.Log.Fifo

/-!
# From the log to the decoder

What the encoder of `log.c` writes and the decoder of `log_decode.py` reads are
two hand-written halves of one format.  Here a stream of items is decoded to
the records and the text it was made of, however it is cut into pieces; and
decoding that starts in the middle finds every record that lies behind its
start, as long as no byte within a cut record looks like a frame of its own.
-/

namespace TraveoBodyDomain

open LittleEndian

/-- The two bytes of a 16-bit field. -/
theorem logWr16_eq_toLe (v : UInt16) : logWr16 v = toLe 2 v.toNat := by
  have low : (v &&& 0x00FF).toUInt8 = UInt8.ofNat v.toNat := by
    apply UInt8.toNat_inj.mp
    rw [UInt16.toNat_toUInt8, UInt16.toNat_and, UInt8.toNat_ofNat']
    change (v.toNat &&& 0xFF) % 256 = _
    rw [and_byte, Nat.mod_mod]
  have high :
      ((v >>> 8) &&& 0x00FF).toUInt8 = UInt8.ofNat (v.toNat / 256) := by
    apply UInt8.toNat_inj.mp
    rw [UInt16.toNat_toUInt8, UInt16.toNat_and, UInt16.toNat_shiftRight,
      UInt8.toNat_ofNat']
    change ((v.toNat >>> 8) &&& 0xFF) % 256 = _
    rw [and_byte, Nat.mod_mod, Nat.shiftRight_eq_div_pow]
  rw [logWr16, low, high]
  rfl

/-- One byte of a 32-bit field. -/
theorem logWr32_byte (v shift : UInt32) (small : shift.toNat < 32) :
    ((v >>> shift) &&& 0x000000FF).toUInt8 =
      UInt8.ofNat (v.toNat / 2 ^ shift.toNat) := by
  apply UInt8.toNat_inj.mp
  rw [UInt32.toNat_toUInt8, UInt32.toNat_and, UInt32.toNat_shiftRight,
    Nat.mod_eq_of_lt small, UInt8.toNat_ofNat']
  change ((v.toNat >>> shift.toNat) &&& 0xFF) % 256 = _
  rw [and_byte, Nat.mod_mod, Nat.shiftRight_eq_div_pow]

/-- The four bytes of a 32-bit field. -/
theorem logWr32_eq_toLe (v : UInt32) : logWr32 v = toLe 4 v.toNat := by
  have first : (v &&& 0x000000FF).toUInt8 = UInt8.ofNat v.toNat := by
    apply UInt8.toNat_inj.mp
    rw [UInt32.toNat_toUInt8, UInt32.toNat_and, UInt8.toNat_ofNat']
    change (v.toNat &&& 0xFF) % 256 = _
    rw [and_byte, Nat.mod_mod]
  have second := logWr32_byte v 8 (by decide)
  have third := logWr32_byte v 16 (by decide)
  have fourth := logWr32_byte v 24 (by decide)
  rw [logWr32, first, second, third, fourth]
  simp only [toLe, Nat.div_div_eq_div_mul]
  rfl

/-- A 16-bit field is read back. -/
theorem unpackH_logWr16 (v : UInt16) : unpackH (logWr16 v) 0 = v.toNat := by
  have read : unpackH (logWr16 v) 0 = ofLe (logWr16 v) := by
    rw [logWr16_eq_toLe]
    rfl
  rw [read, logWr16_eq_toLe, ofLe_toLe]
  exact Nat.mod_eq_of_lt v.toNat_lt

/-- A 32-bit field is read back. -/
theorem unpackI_logWr32 (v : UInt32) : unpackI (logWr32 v) 0 = v.toNat := by
  have read : unpackI (logWr32 v) 0 = ofLe (logWr32 v) := by
    rw [logWr32_eq_toLe]
    simp only [unpackI, unpackH, toLe, ofLe, List.getD_cons_zero,
      List.getD_cons_succ]
    omega
  rw [read, logWr32_eq_toLe, ofLe_toLe]
  exact Nat.mod_eq_of_lt v.toNat_lt

/-- One bit of the CRC on both sides. -/
theorem hostCrc16Bit_eq (crc : UInt16) :
    hostCrc16Bit crc.toNat = (logCrc16Bit crc).toNat := by
  have high : crc &&& 0x8000 ≠ 0 ↔ crc.toNat &&& 0x8000 ≠ 0 := by
    rw [not_iff_not, ← UInt16.toNat_inj, UInt16.toNat_and]
    rfl
  have shifted : (crc <<< 1).toNat = crc.toNat <<< 1 % 2 ^ 16 := by
    rw [UInt16.toNat_shiftLeft]
    rfl
  unfold hostCrc16Bit logCrc16Bit
  by_cases set : crc &&& 0x8000 ≠ 0
  · rw [if_pos set, if_pos (high.mp set), UInt16.toNat_xor, shifted]
    change _ &&& (2 ^ 16 - 1) = _ ^^^ 0x1021
    rw [Nat.and_two_pow_sub_one_eq_mod, Nat.xor_mod_two_pow]
  · rw [if_neg set, if_neg (mt high.mpr set), shifted]
    exact Nat.and_two_pow_sub_one_eq_mod _ 16

/-- One byte of the CRC on both sides. -/
theorem hostCrc16Byte_eq (crc : UInt16) (byte : UInt8) :
    hostCrc16Byte crc.toNat byte = (logCrc16Byte crc byte).toNat := by
  have rounds :
      ∀ n (crc : UInt16),
        Nat.repeat hostCrc16Bit n crc.toNat =
          (Nat.repeat logCrc16Bit n crc).toNat := by
    intro n crc
    induction n with
    | zero =>
        rfl
    | succ n inductionHypothesis =>
        rw [Nat.repeat, inductionHypothesis, hostCrc16Bit_eq]
        rfl
  have mixed :
      crc.toNat ^^^ (byte.toNat <<< 8) =
        (crc ^^^ (byte.toUInt16 <<< 8)).toNat := by
    have small := byte.toNat_lt
    rw [UInt16.toNat_xor, UInt16.toNat_shiftLeft, UInt8.toNat_toUInt16]
    change _ = crc.toNat ^^^ (byte.toNat <<< 8 % 2 ^ 16)
    rw [Nat.mod_eq_of_lt (by rw [Nat.shiftLeft_eq]; omega)]
  rw [hostCrc16Byte, mixed, rounds]
  rfl

/-- The CRC is the same on both sides. -/
theorem hostCrc16_eq (data : List UInt8) :
    hostCrc16 data = (logCrc16 data).toNat := by
  have folded :
      ∀ crc : UInt16,
        data.foldl hostCrc16Byte crc.toNat =
          (data.foldl logCrc16Byte crc).toNat := by
    induction data with
    | nil =>
        intro crc
        rfl
    | cons byte rest inductionHypothesis =>
        intro crc
        rw [List.foldl_cons, hostCrc16Byte_eq, inductionHypothesis]
        rfl
  exact folded 0xFFFF

/-- Sixteen bytes that end with the CRC of the others. -/
def EndsWithCrc (window : List UInt8) : Prop :=
  window.drop hostOffCrc = logWr16 (logCrc16 (window.take hostOffCrc))

instance EndsWithCrc.decidable : DecidablePred EndsWithCrc :=
  fun window =>
    inferInstanceAs
      (Decidable
        (window.drop hostOffCrc = logWr16 (logCrc16 (window.take hostOffCrc))))

/-- The decoder accepts a frame exactly when it ends with its CRC. -/
theorem crcMatches_iff
    {window : List UInt8}
    (size : window.length = hostRecSize) :
    LogDecoder.crcMatches window = true ↔ EndsWithCrc window := by
  obtain ⟨low, high, last⟩ :
      ∃ low high, window.drop hostOffCrc = [low, high] := by
    have two : (window.drop hostOffCrc).length = 2 := by
      rw [List.length_drop, size]
      rfl
    exact List.length_eq_two.mp two
  have read : unpackH window hostOffCrc = ofLe [low, high] := by
    have split := List.take_append_drop hostOffCrc window
    have front : (window.take hostOffCrc).length = hostOffCrc := by
      rw [List.length_take, size]
      rfl
    have firstByte : window.getD hostOffCrc 0 = low := by
      rw [← split, last, List.getD_append_right _ _ _ _ front.le, front]
      rfl
    have secondByte : window.getD (hostOffCrc + 1) 0 = high := by
      rw [← split, last,
        List.getD_append_right _ _ _ _ (Nat.le_succ_of_le front.le), front]
      rfl
    rw [unpackH, firstByte, secondByte]
    rfl
  unfold LogDecoder.crcMatches EndsWithCrc
  rw [beq_iff_eq, hostCrc16_eq, read, last, logWr16_eq_toLe]
  constructor
  · intro same
    rw [same]
    exact (toLe_ofLe [low, high]).symm
  · intro same
    rw [same, ofLe_toLe]
    exact (Nat.mod_eq_of_lt (UInt16.toNat_lt _)).symm

/-- What is encoded ends with its CRC. -/
theorem logRecEncode_endsWithCrc (r : LogRec) :
    EndsWithCrc (logRecEncode r) :=
  rfl

/-- A record as the decoder reports it. -/
def hostRecord (r : LogRec) : HostRecord where
  core := r.core.toByte.toNat
  seq := r.seq.toNat
  evt := r.evt.toNat
  tsMs := r.tsMs.toNat
  arg0 := r.arg0.toNat
  arg1 := r.arg1.toNat

/-- Core and sequence number share a byte. -/
theorem logCoreSeq_toNat (core : LogCore) (seq : UInt8) :
    (logCoreSeq core seq).toNat =
      seq.toNat % 64 + 64 * core.toByte.toNat := by
  have low : (seq &&& logSeqMask).toNat = seq.toNat % 64 := by
    rw [UInt8.toNat_and]
    exact Nat.and_two_pow_sub_one_eq_mod _ 6
  have high :
      (core.toByte <<< logCoreShift).toNat = core.toByte.toNat <<< 6 := by
    cases core <;> rfl
  rw [logCoreSeq, UInt8.or_comm, UInt8.toNat_or, low, high]
  exact or_shiftLeft _ 6 (Nat.mod_lt _ (by decide))

/-- A record is decoded to the fields it was encoded from. -/
theorem decodeRecord_encode
    {r : LogRec}
    (masked : r.seq < 64) :
    decodeRecord (logRecEncode r) = hostRecord r := by
  have small : r.seq.toNat < 64 := masked
  have coreSmall : r.core.toByte.toNat < 2 := by
    cases r.core <;> decide
  have coreField :
      (logCoreSeq r.core r.seq).toNat >>> 6 &&& 0x03 =
        r.core.toByte.toNat := by
    rw [logCoreSeq_toNat, Nat.shiftRight_eq_div_pow]
    change _ &&& (2 ^ 2 - 1) = _
    rw [Nat.and_two_pow_sub_one_eq_mod]
    omega
  have seqField :
      (logCoreSeq r.core r.seq).toNat &&& 0x3F = r.seq.toNat := by
    rw [logCoreSeq_toNat]
    change _ &&& (2 ^ 6 - 1) = _
    rw [Nat.and_two_pow_sub_one_eq_mod]
    omega
  have fields :
      decodeRecord (logRecEncode r) =
        { core := (logCoreSeq r.core r.seq).toNat >>> 6 &&& 0x03
          seq := (logCoreSeq r.core r.seq).toNat &&& 0x3F
          evt := unpackH (logWr16 r.evt) 0
          tsMs := unpackI (logWr32 r.tsMs) 0
          arg0 := unpackI (logWr32 r.arg0) 0
          arg1 := unpackH (logWr16 r.arg1) 0 } :=
    rfl
  rw [fields, coreField, seqField, unpackH_logWr16, unpackI_logWr32,
    unpackI_logWr32, unpackH_logWr16]
  rfl

/-- What the log can put on the wire: masked numbers and ASCII. -/
def LogItem.WellFormed : LogItem → Prop
  | .event r => r.seq < 64
  | .report r => r.seq < 64
  | .text bytes => ∀ b ∈ bytes, b < 0x80

instance LogItem.WellFormed.decidable : DecidablePred LogItem.WellFormed
  | .event r => inferInstanceAs (Decidable (r.seq < 64))
  | .report r => inferInstanceAs (Decidable (r.seq < 64))
  | .text bytes => inferInstanceAs (Decidable (∀ b ∈ bytes, b < 0x80))

/-- The bytes of some items. -/
def logStream (items : List LogItem) : List UInt8 :=
  items.flatMap LogItem.bytes

/-- The bytes of an item come before those of the items behind it. -/
theorem logStream_cons (item : LogItem) (items : List LogItem) :
    logStream (item :: items) = item.bytes ++ logStream items :=
  List.flatMap_cons

/-- The record in an item. -/
def LogItem.record? : LogItem → Option LogRec
  | .event r => some r
  | .report r => some r
  | .text _ => none

/-- The records among some items. -/
def recordsIn (items : List LogItem) : List LogRec :=
  items.filterMap LogItem.record?

/-- The text in an item. -/
def LogItem.characters : LogItem → List Char
  | .text bytes => bytes.map fun b => Char.ofNat b.toNat
  | _ => []

/-- The text among some items. -/
def textIn (items : List LogItem) : List Char :=
  items.flatMap LogItem.characters

/-- What the scanner makes of an item. -/
def LogItem.tokens : LogItem → List LogToken
  | .event r => [.frame (logRecEncode r)]
  | .report r => [.frame (logRecEncode r)]
  | .text bytes => bytes.map .text

/-- A record is scanned as its frame. -/
theorem scan_record (r : LogRec) (rest : List UInt8) :
    logScanner.scan (logRecEncode r ++ rest) =
      (.frame (logRecEncode r) :: (logScanner.scan rest).1,
        (logScanner.scan rest).2) := by
  obtain ⟨tail, encoded⟩ : ∃ tail, logRecEncode r = hostSync :: tail :=
    ⟨_, rfl⟩
  have size : (hostSync :: tail).length = hostRecSize := by
    rw [← encoded]
    rfl
  have front : (hostSync :: (tail ++ rest)).take hostRecSize = hostSync :: tail :=
    by
      rw [← List.cons_append, ← size, List.take_left]
  have back : (hostSync :: (tail ++ rest)).drop hostRecSize = rest := by
    rw [← List.cons_append, ← size, List.drop_left]
  have long : ¬ (hostSync :: (tail ++ rest)).length < hostRecSize := by
    rw [← List.cons_append, List.length_append, size]
    omega
  have accepted : LogDecoder.crcMatches (hostSync :: tail) = true := by
    rw [crcMatches_iff size, ← encoded]
    exact logRecEncode_endsWithCrc r
  rw [encoded, List.cons_append,
    scan_frame long (by rw [front]; exact accepted), front, back]

/-- An item is scanned as its tokens, whatever comes behind it. -/
theorem scan_item
    {item : LogItem}
    (wellFormed : item.WellFormed)
    (rest : List UInt8) :
    logScanner.scan (item.bytes ++ rest) =
      (item.tokens ++ (logScanner.scan rest).1,
        (logScanner.scan rest).2) := by
  cases item with
  | event r =>
      exact scan_record r rest
  | report r =>
      exact scan_record r rest
  | text bytes =>
      refine scan_text ?_ rest
      intro b member sync
      have ascii := wellFormed b member
      rw [sync] at ascii
      revert ascii
      decide

/-- A stream is scanned as the tokens of its items. -/
theorem scan_stream
    {items : List LogItem}
    (wellFormed : ∀ item ∈ items, item.WellFormed)
    (rest : List UInt8) :
    logScanner.scan (logStream items ++ rest) =
      (items.flatMap LogItem.tokens ++ (logScanner.scan rest).1,
        (logScanner.scan rest).2) := by
  induction items with
  | nil =>
      rfl
  | cons item items inductionHypothesis =>
      have behind :=
        inductionHypothesis
          fun other member => wellFormed other (List.mem_cons_of_mem _ member)
      rw [logStream_cons, List.append_assoc,
        scan_item (wellFormed item (List.mem_cons_self ..)), behind,
        List.flatMap_cons, List.append_assoc]

/-- The records among the tokens of an item. -/
theorem recordsOfTokens_item
    {item : LogItem}
    (wellFormed : item.WellFormed) :
    recordsOfTokens item.tokens = item.record?.toList.map hostRecord := by
  cases item with
  | event r =>
      exact congrArg (fun r => [r]) (decodeRecord_encode wellFormed)
  | report r =>
      exact congrArg (fun r => [r]) (decodeRecord_encode wellFormed)
  | text bytes =>
      unfold recordsOfTokens LogItem.tokens
      rw [List.filterMap_map]
      exact List.filterMap_eq_nil_iff.mpr fun _ _ => rfl

/-- The records among the tokens of a stream. -/
theorem recordsOfTokens_stream
    {items : List LogItem}
    (wellFormed : ∀ item ∈ items, item.WellFormed) :
    recordsOfTokens (items.flatMap LogItem.tokens) =
      (recordsIn items).map hostRecord := by
  induction items with
  | nil =>
      rfl
  | cons item items inductionHypothesis =>
      have behind :=
        inductionHypothesis
          fun other member => wellFormed other (List.mem_cons_of_mem _ member)
      have split :
          recordsIn (item :: items) =
            item.record?.toList ++ recordsIn items := by
        unfold recordsIn
        cases read : item.record? with
        | none =>
            rw [List.filterMap_cons_none read]
            rfl
        | some r =>
            rw [List.filterMap_cons_some read]
            rfl
      have tokens :
          recordsOfTokens (item.tokens ++ items.flatMap LogItem.tokens) =
            recordsOfTokens item.tokens ++
              recordsOfTokens (items.flatMap LogItem.tokens) :=
        List.filterMap_append
      rw [List.flatMap_cons, tokens, behind,
        recordsOfTokens_item (wellFormed item (List.mem_cons_self ..)), split,
        List.map_append]

/-- The text among the tokens of a stream. -/
theorem textOfTokens_stream
    {items : List LogItem}
    (wellFormed : ∀ item ∈ items, item.WellFormed) :
    decodeAscii (textOfTokens (items.flatMap LogItem.tokens)) =
      textIn items := by
  induction items with
  | nil =>
      rfl
  | cons item items inductionHypothesis =>
      have behind :=
        inductionHypothesis
          fun other member => wellFormed other (List.mem_cons_of_mem _ member)
      have tokens :
          textOfTokens (item.tokens ++ items.flatMap LogItem.tokens) =
            textOfTokens item.tokens ++
              textOfTokens (items.flatMap LogItem.tokens) :=
        List.filterMap_append
      have decoded :
          ∀ first second,
            decodeAscii (first ++ second) =
              decodeAscii first ++ decodeAscii second :=
        fun _ _ => List.map_append
      have now : decodeAscii (textOfTokens item.tokens) = item.characters := by
        cases item with
        | event r =>
            rfl
        | report r =>
            rfl
        | text bytes =>
            have ascii : ∀ b ∈ bytes, b < 0x80 :=
              wellFormed (.text bytes) (List.mem_cons_self ..)
            have plain : textOfTokens (bytes.map .text) = bytes := by
              unfold textOfTokens
              rw [List.filterMap_map]
              exact List.filterMap_some
            change decodeAscii (textOfTokens (bytes.map .text)) = _
            rw [plain]
            apply List.map_congr_left
            intro b member
            exact if_pos (ascii b member)
      rw [List.flatMap_cons, tokens, decoded, behind, now]
      exact List.flatMap_cons.symm

/-- Each record with the offset of its first byte, from `offset` on. -/
def placedRecords : Nat → List LogItem → List (Nat × LogRec)
  | _, [] => []
  | offset, item :: items =>
      item.record?.toList.map (offset, ·) ++
        placedRecords (offset + item.bytes.length) items

/-- The records that lie wholly behind the first `k` bytes of the stream. -/
def recordsBehind (k : Nat) (items : List LogItem) : List LogRec :=
  ((placedRecords 0 items).filter fun placed => k ≤ placed.1).map Prod.snd

/-- A record starts at the offset. -/
def StartsRecord (items : List LogItem) (offset : Nat) : Prop :=
  offset ∈ (placedRecords 0 items).map Prod.fst

instance StartsRecord.decidable (items : List LogItem) :
    DecidablePred (StartsRecord items) :=
  fun offset =>
    inferInstanceAs
      (Decidable (offset ∈ (placedRecords 0 items).map Prod.fst))

/--
Sixteen bytes of the stream that start with a sync byte, but not with a record,
and end with their CRC.
-/
structure FalseSync (items : List LogItem) (offset : Nat) : Prop where
  sync : (logStream items).getD offset 0 = logSync
  noRecord : ¬ StartsRecord items offset
  whole : offset + logRecSize ≤ (logStream items).length
  crc : EndsWithCrc (((logStream items).drop offset).take logRecSize)

instance FalseSync.decidable (items : List LogItem) :
    DecidablePred (FalseSync items) :=
  fun offset =>
    decidable_of_iff
      ((logStream items).getD offset 0 = logSync ∧
        ¬ StartsRecord items offset ∧
          offset + logRecSize ≤ (logStream items).length ∧
            EndsWithCrc (((logStream items).drop offset).take logRecSize))
      ⟨fun ⟨sync, noRecord, whole, crc⟩ => ⟨sync, noRecord, whole, crc⟩,
        fun ⟨sync, noRecord, whole, crc⟩ => ⟨sync, noRecord, whole, crc⟩⟩

/-- There is no such place behind the first `k` bytes. -/
def NoFalseSync (items : List LogItem) (k : Nat) : Prop :=
  ∀ offset < (logStream items).length, k ≤ offset → ¬ FalseSync items offset

instance NoFalseSync.decidable (items : List LogItem) (k : Nat) :
    Decidable (NoFalseSync items k) :=
  inferInstanceAs
    (Decidable
      (∀ offset < (logStream items).length,
        k ≤ offset → ¬ FalseSync items offset))

/-- A record takes up 16 bytes of the stream. -/
theorem recordsIn_eq_nil
    {items : List LogItem}
    (short : (logStream items).length < hostRecSize) :
    recordsIn items = [] := by
  induction items with
  | nil =>
      rfl
  | cons item items inductionHypothesis =>
      have size :
          (logStream (item :: items)).length =
            item.bytes.length + (logStream items).length := by
        rw [logStream_cons, List.length_append]
      rw [size] at short
      cases item with
      | event r =>
          have : logRecSize ≤ logRecSize + (logStream items).length :=
            Nat.le_add_right ..
          exact (Nat.not_lt.mpr this short).elim
      | report r =>
          have : logRecSize ≤ logRecSize + (logStream items).length :=
            Nat.le_add_right ..
          exact (Nat.not_lt.mpr this short).elim
      | text bytes =>
          exact inductionHypothesis (by omega)

/--
Behind bytes in which no frame is accepted, the records of the stream are
found.

The induction is on these bytes: each is text, or a sync byte that is dropped
alone, or one behind which there is no room for a record any more.
-/
theorem scan_resyncs
    {front : List UInt8}
    {items : List LogItem}
    (wellFormed : ∀ item ∈ items, item.WellFormed)
    (noFrame :
      ∀ j < front.length,
        front.getD j 0 = hostSync →
          hostRecSize ≤ (front.drop j ++ logStream items).length →
            ¬ EndsWithCrc
              ((front.drop j ++ logStream items).take hostRecSize)) :
    recordsOfTokens (logScanner.scan (front ++ logStream items)).1 =
      (recordsIn items).map hostRecord := by
  induction front with
  | nil =>
      have scanned := scan_stream wellFormed []
      rw [List.append_nil, scan_nil, List.append_nil] at scanned
      rw [List.nil_append, scanned]
      exact recordsOfTokens_stream wellFormed
  | cons b front inductionHypothesis =>
      have behind :=
        inductionHypothesis fun j below sync long =>
          noFrame (j + 1) (Nat.succ_lt_succ below) sync long
      rw [List.cons_append]
      by_cases sync : b = hostSync
      · subst sync
        by_cases short :
            (hostSync :: (front ++ logStream items)).length < hostRecSize
        · have noRecords : recordsIn items = [] := by
            apply recordsIn_eq_nil
            rw [List.length_cons, List.length_append] at short
            omega
          rw [scan_short short, noRecords]
          rfl
        · have rejected :
              ¬ EndsWithCrc
                ((hostSync :: (front ++ logStream items)).take hostRecSize) :=
            noFrame 0 (Nat.succ_pos _) rfl (Nat.not_lt.mp short)
          have size :
              ((hostSync :: (front ++ logStream items)).take
                  hostRecSize).length =
                hostRecSize := by
            rw [List.length_take, Nat.min_eq_left (Nat.not_lt.mp short)]
          rw [scan_skip short (mt (crcMatches_iff size).mp rejected)]
          exact behind
      · have taken :
            logScanner.next (b :: (front ++ logStream items)) =
              some (.text b, front ++ logStream items) :=
          logNext_text sync _
        rw [Incremental.Scanner.scan_some taken]
        exact behind

/-- Records are placed from the given offset on. -/
theorem placedRecords_ge
    {items : List LogItem}
    {offset : Nat}
    {placed : Nat × LogRec}
    (member : placed ∈ placedRecords offset items) :
    offset ≤ placed.1 := by
  induction items generalizing offset with
  | nil =>
      cases member
  | cons item items inductionHypothesis =>
      rcases List.mem_append.mp member with here | behind
      · obtain ⟨r, _, rfl⟩ := List.mem_map.mp here
        exact Nat.le_refl offset
      · have := inductionHypothesis behind
        omega

/-- All the records that are placed. -/
theorem placedRecords_records (offset : Nat) (items : List LogItem) :
    (placedRecords offset items).map Prod.snd = recordsIn items := by
  induction items generalizing offset with
  | nil =>
      rfl
  | cons item items inductionHypothesis =>
      rw [placedRecords, List.map_append, inductionHypothesis]
      cases item <;> rfl

/-- How a stream looks from the byte `k` on. -/
structure CutStream
    (offset k : Nat)
    (items : List LogItem)
    (front : List UInt8)
    (behind : List LogItem) : Prop where
  rest : (logStream items).drop k = front ++ logStream behind
  records :
    ((placedRecords offset items).filter
        fun placed => offset + k ≤ placed.1).map Prod.snd =
      recordsIn behind
  noStart :
    ∀ j < front.length,
      offset + k + j ∉ (placedRecords offset items).map Prod.fst
  subset : ∀ item ∈ behind, item ∈ items

/-- Nothing is cut off a stream that is read from its start. -/
theorem CutStream.start (offset : Nat) (items : List LogItem) :
    CutStream offset 0 items [] items := by
  refine ⟨rfl, ?_, ?_, fun _ => id⟩
  · rw [List.filter_eq_self.mpr, placedRecords_records]
    intro placed member
    exact decide_eq_true (placedRecords_ge member)
  · intro j below
    exact (Nat.not_lt_zero j below).elim

/-- The stream is cut inside its first item, whose record is lost. -/
theorem CutStream.inside
    {offset k : Nat}
    {item : LogItem}
    {items : List LogItem}
    (some_ : 0 < k)
    (inside : k < item.bytes.length) :
    CutStream offset k (item :: items) (item.bytes.drop k) items := by
  have later :
      ∀ placed ∈ placedRecords (offset + item.bytes.length) items,
        offset + item.bytes.length ≤ placed.1 :=
    fun placed member => placedRecords_ge member
  have cut :
      (placedRecords offset (item :: items)).filter
          (fun placed => offset + k ≤ placed.1) =
        placedRecords (offset + item.bytes.length) items := by
    rw [placedRecords, List.filter_append, List.filter_eq_nil_iff.mpr,
      List.filter_eq_self.mpr, List.nil_append]
    · intro placed member
      have := later placed member
      exact decide_eq_true (by omega)
    · intro placed member
      obtain ⟨r, _, rfl⟩ := List.mem_map.mp member
      simp only [decide_eq_true_eq]
      omega
  refine ⟨?_, ?_, ?_, ?_⟩
  · rw [logStream_cons, List.drop_append_of_le_length inside.le]
  · rw [cut, placedRecords_records]
  · intro j below starts
    rw [List.length_drop] at below
    obtain ⟨placed, member, position⟩ := List.mem_map.mp starts
    rcases List.mem_append.mp member with here | behind
    · obtain ⟨r, _, rfl⟩ := List.mem_map.mp here
      dsimp only at position
      omega
    · have := later placed behind
      omega
  · intro other member
    exact List.mem_cons_of_mem _ member

/-- The stream is cut behind its first item, at a byte of the others. -/
theorem CutStream.later
    {offset k : Nat}
    {item : LogItem}
    {items behind : List LogItem}
    {front : List UInt8}
    (some_ : 0 < k)
    (beyond : item.bytes.length ≤ k)
    (cut :
      CutStream (offset + item.bytes.length) (k - item.bytes.length) items
        front behind) :
    CutStream offset k (item :: items) front behind := by
  have same :
      offset + item.bytes.length + (k - item.bytes.length) = offset + k := by
    omega
  have notHere :
      ∀ placed ∈ item.record?.toList.map (offset, ·),
        placed.1 < offset + k := by
    intro placed member
    obtain ⟨r, _, rfl⟩ := List.mem_map.mp member
    exact Nat.lt_add_of_pos_right some_
  refine ⟨?_, ?_, ?_, ?_⟩
  · rw [logStream_cons, List.drop_append, List.drop_eq_nil_of_le beyond,
      List.nil_append]
    exact cut.rest
  · rw [placedRecords, List.filter_append, List.filter_eq_nil_iff.mpr,
      List.nil_append, ← same]
    · exact cut.records
    · intro placed member
      have := notHere placed member
      simp only [decide_eq_true_eq]
      omega
  · intro j below starts
    obtain ⟨placed, member, position⟩ := List.mem_map.mp starts
    rcases List.mem_append.mp member with here | there
    · have := notHere placed here
      omega
    · refine cut.noStart j below ?_
      rw [same, ← position]
      exact List.mem_map.mpr ⟨placed, there, rfl⟩
  · intro other member
    exact List.mem_cons_of_mem _ (cut.subset other member)

/-- From any byte on there is the rest of an item, and then whole items. -/
theorem cutStream (items : List LogItem) (offset k : Nat) :
    ∃ front behind, CutStream offset k items front behind := by
  induction items generalizing offset k with
  | nil =>
      exact
        ⟨[], [], List.drop_nil, rfl, fun j below => (Nat.not_lt_zero j below).elim,
          fun _ => id⟩
  | cons item items inductionHypothesis =>
      rcases Nat.eq_zero_or_pos k with rfl | some_
      · exact ⟨[], item :: items, CutStream.start offset (item :: items)⟩
      · rcases Nat.lt_or_ge k item.bytes.length with inside | beyond
        · exact ⟨item.bytes.drop k, items, CutStream.inside some_ inside⟩
        · obtain ⟨front, behind, cut⟩ :=
            inductionHypothesis (offset + item.bytes.length)
              (k - item.bytes.length)
          exact ⟨front, behind, cut.later some_ beyond⟩

/-- The tokens of a stream that is read from its start. -/
theorem feedAll_stream
    {items : List LogItem}
    (wellFormed : ∀ item ∈ items, item.WellFormed)
    {pieces : List (List UInt8)}
    (cut : pieces.flatten = logStream items) :
    Decodes .new (items.flatMap LogItem.tokens)
      (LogDecoder.new.feedAll pieces).1 (LogDecoder.new.feedAll pieces).2 := by
  have decodes := new_feedAll_decodes pieces
  have scanned := scan_stream wellFormed []
  rw [List.append_nil, scan_nil, List.append_nil] at scanned
  rwa [cut, scanned] at decodes

/-- The records of a stream that is read from its byte `k` on. -/
theorem feedAll_suffix
    {items : List LogItem}
    (wellFormed : ∀ item ∈ items, item.WellFormed)
    {k : Nat}
    (noFalseSync : NoFalseSync items k)
    {pieces : List (List UInt8)}
    (cut : pieces.flatten = (logStream items).drop k) :
    recordsOfItems (LogDecoder.new.feedAll pieces).1 =
      (recordsBehind k items).map hostRecord := by
  obtain ⟨front, behind, stream⟩ := cutStream items 0 k
  have decodes := new_feedAll_decodes pieces
  rw [decodes.recordsOfItems, cut, stream.rest, scan_resyncs]
  · have records := stream.records
    rw [Nat.zero_add] at records
    rw [recordsBehind, records]
  · exact fun item member => wellFormed item (stream.subset item member)
  · intro j below sync long crc
    have rest :
        (logStream items).drop (k + j) = front.drop j ++ logStream behind := by
      rw [← List.drop_drop, stream.rest,
        List.drop_append_of_le_length below.le]
    have whole : k + j + logRecSize ≤ (logStream items).length := by
      have size := congrArg List.length rest
      rw [List.length_drop] at size
      rw [← size] at long
      have hostSize : hostRecSize = 16 := rfl
      have logSize : logRecSize = 16 := rfl
      omega
    have inside : k + j < (logStream items).length :=
      Nat.lt_of_lt_of_le (Nat.lt_add_of_pos_right (by decide)) whole
    refine noFalseSync (k + j) inside (Nat.le_add_right k j) ⟨?_, ?_, whole, ?_⟩
    · have first :
          (logStream items).getD (k + j) 0 =
            (front.drop j ++ logStream behind).getD 0 0 := by
        rw [← rest]
        simp [List.getD_eq_getElem?_getD]
      rw [first, List.drop_eq_getElem_cons below]
      rw [List.getD_eq_getElem _ _ below] at sync
      exact sync
    · have noStart := stream.noStart j below
      rw [Nat.zero_add] at noStart
      exact noStart
    · rw [rest]
      exact crc

/-- The scan of `log_text` lets only ASCII through. -/
theorem logTextScan_ascii
    {n : Nat}
    {text bytes : List UInt8}
    (scanned : logTextScan n text = some bytes) :
    ∀ b ∈ bytes, b < 0x80 := by
  induction n generalizing text bytes with
  | zero =>
      cases scanned
      simp
  | succ n inductionHypothesis =>
      cases text with
      | nil =>
          cases scanned
          simp
      | cons c rest =>
          rw [logTextScan] at scanned
          split_ifs at scanned with ends high
          · cases scanned
            simp
          · obtain ⟨more, restScanned, rfl⟩ := Option.map_eq_some_iff.mp scanned
            intro b member
            rcases List.mem_cons.mp member with rfl | later
            · have low : b.toNat &&& 2 ^ 7 = 0 := by
                have := congrArg UInt8.toNat (not_not.mp high)
                rwa [UInt8.toNat_and] at this
              have bit : b.toNat.testBit 7 = false := by
                have both : (b.toNat &&& 2 ^ 7).testBit 7 = false := by
                  rw [low]
                  rfl
                rwa [Nat.testBit_and, Nat.testBit_two_pow_self,
                  Bool.and_true] at both
              rw [Nat.testBit_eq_decide_div_mod_eq] at bit
              have even := of_decide_eq_false bit
              have small := b.toNat_lt
              apply UInt8.lt_iff_toNat_lt.mpr
              change b.toNat < 128
              omega
            · exact inductionHypothesis restScanned b later

/-- A masked sequence number. -/
theorem logSeqAfter_lt (seq n : UInt8) : logSeqAfter seq n < 64 := by
  apply UInt8.lt_iff_toNat_lt.mpr
  rw [logSeqAfter, UInt8.toNat_and]
  exact Nat.lt_of_le_of_lt Nat.and_le_right (by decide)

/-- What a call stores is well formed, and the sequence number stays masked. -/
theorem logStep_wellFormed
    {image : LogImage}
    {s : LogState}
    (action : LogAction)
    (fits : s.Fits image)
    (masked : s.seq < 64) :
    (logStep image s action).1.seq < 64 ∧
      ∀ item ∈ storedItems (logStep image s action).2, item.WellFormed := by
  cases action with
  | evt nowMs evt arg0 arg1 =>
      have outcome := logEvt_outcome nowMs evt arg0 arg1 fits
      change (logEvt image nowMs evt arg0 arg1 s).1.seq < 64 ∧
        ∀ item ∈ storedItems (logEvt image nowMs evt arg0 arg1 s).2, _
      generalize logEvt image nowMs evt arg0 arg1 s = result at outcome ⊢
      cases outcome with
      | dropped =>
          exact ⟨masked, by simp [storedItems]⟩
      | plain nothingPending next enqueued =>
          refine ⟨logSeqAfter_lt .., ?_⟩
          intro item member
          cases List.mem_singleton.mp member
          exact masked
      | reported pending next enqueued =>
          refine ⟨logSeqAfter_lt .., ?_⟩
          intro item member
          rcases List.mem_cons.mp member with rfl | second
          · exact masked
          · cases List.mem_singleton.mp second
            exact logSeqAfter_lt ..
  | text text =>
      have outcome := logText_outcome text fits
      change (logText image text s).1.seq < 64 ∧
        ∀ item ∈ storedItems (logText image text s).2, _
      generalize logText image text s = result at outcome ⊢
      cases outcome with
      | rejected notAscii =>
          exact ⟨masked, by simp [storedItems]⟩
      | dropped =>
          exact ⟨masked, by simp [storedItems]⟩
      | stored bytes scanned next enqueued =>
          obtain ⟨ring, head, rfl⟩ := enqueued.frame
          refine ⟨masked, ?_⟩
          intro item member
          cases List.mem_singleton.mp member
          exact logTextScan_ascii scanned
  | drain maxBytes answers =>
      have drained := (logDrainLoop_drains maxBytes answers maxBytes false fits)
      refine ⟨?_, by simp [logStep, storedItems]⟩
      change (logDrain image maxBytes answers s).2.2.seq < 64
      unfold logDrain
      rw [drained.frame]
      exact masked

/-- Everything a run of the log stores is well formed. -/
theorem logRun_wellFormed
    (image : LogImage)
    (core : LogCore)
    (before : LogState)
    (actions : List LogAction) :
    ∀ item ∈ storedItems (logRun image core before actions).2,
      item.WellFormed := by
  obtain ⟨banner, -, run⟩ := logRun_eq image core before actions
  have stored :
      ∀ (actions : List LogAction) (s : LogState),
        s.Fits image →
          s.seq < 64 →
            ∀ item ∈ storedItems (Machine.trace (logStep image) s actions),
              item.WellFormed := by
    intro actions
    induction actions with
    | nil =>
        intro s _ _ item member
        cases member
    | cons action rest inductionHypothesis =>
        intro s fits masked item member
        obtain ⟨stillMasked, now⟩ := logStep_wellFormed action fits masked
        rw [Machine.trace_cons, storedItems_append] at member
        rcases List.mem_append.mp member with first | later
        · exact now item first
        · exact
            inductionHypothesis _ (logStep_keeps action fits).fits stillMasked
              item later
  have zero : (0 : UInt8) < 64 := by
    decide
  rw [run]
  exact stored _ _ (logReset_fits core before) zero

/--
A stream is decoded to its records, with equal fields, and to its text; and
from any byte on it is decoded to the records that lie behind that byte, unless
something there is taken for a record that is none.  What the log stores makes
up such a stream.
-/
theorem stream_round_trips
    (items : List LogItem)
    (wellFormed : ∀ item ∈ items, item.WellFormed) :
    (∀ pieces,
        pieces.flatten = logStream items →
          recordsOfItems (LogDecoder.new.feedAll pieces).1 =
              (recordsIn items).map hostRecord ∧
            textOfItems (LogDecoder.new.feedAll pieces).1 = textIn items) ∧
      (∀ k pieces,
        NoFalseSync items k →
          pieces.flatten = (logStream items).drop k →
            recordsOfItems (LogDecoder.new.feedAll pieces).1 =
              (recordsBehind k items).map hostRecord) ∧
      ∀ image core before actions,
        storedBytes (logRun image core before actions).2 =
            logStream (storedItems (logRun image core before actions).2) ∧
          ∀ item ∈ storedItems (logRun image core before actions).2,
            item.WellFormed := by
  refine ⟨?_, ?_, ?_⟩
  · intro pieces cut
    have decodes := feedAll_stream wellFormed cut
    exact
      ⟨decodes.recordsOfItems.trans (recordsOfTokens_stream wellFormed),
        decodes.text.trans (textOfTokens_stream wellFormed)⟩
  · intro k pieces noFalseSync cut
    exact feedAll_suffix wellFormed noFalseSync cut
  · intro image core before actions
    exact ⟨rfl, logRun_wellFormed image core before actions⟩

/-- Text, and two records full of sync bytes. -/
def syncItems : List LogItem :=
  [.text [0x68, 0x69],
    .event ⟨.app, 37, 0x0401, 0xA5A5A5A5, 0xA5A5A5A5, 0xA5A5⟩,
    .text [0x21], .event ⟨.security, 38, 0xA5A5, 1, 0xA5A5A5A5, 2⟩]

/-- From within its first record on, this stream gives the second. -/
theorem sync_items_round_trip :
    recordsBehind 6 syncItems =
        [⟨.security, 38, 0xA5A5, 1, 0xA5A5A5A5, 2⟩] ∧
      NoFalseSync syncItems 6 ∧
      recordsOfItems
          (LogDecoder.new.feedAll [(logStream syncItems).drop 6]).1 =
        (recordsBehind 6 syncItems).map hostRecord :=
  have noFalseSync : NoFalseSync syncItems 6 := by decide +kernel
  ⟨by decide, noFalseSync,
    (stream_round_trips syncItems (by decide +kernel)).2.1 6
      [(logStream syncItems).drop 6] noFalseSync (List.append_nil _)⟩

end TraveoBodyDomain
