import Mathlib.Tactic.Common

/-!
# Log records

`log_types.h` and the encoder of `log.c`: a record is 16 bytes, starts with a
byte outside of ASCII and ends with a CRC over the rest.
-/

namespace TraveoBodyDomain

/-- `LOG_REC_SIZE`. -/
def logRecSize : Nat :=
  16

/-- `LOG_SYNC`. -/
def logSync : UInt8 :=
  0xA5

/-- `LOG_CORE_SHIFT`. -/
def logCoreShift : UInt8 :=
  6

/-- `LOG_SEQ_MASK`. -/
def logSeqMask : UInt8 :=
  0x3F

/-- `LOG_TEXT_MAX`. -/
def logTextMax : Nat :=
  64

/-- `LOG_EVT_BOOT`. -/
def logEvtBoot : UInt16 :=
  0x0001

/-- `LOG_EVT_OVERFLOW`. -/
def logEvtOverflow : UInt16 :=
  0x0004

/-- `log_core_t`. -/
inductive LogCore where
  | app
  | security
  deriving Repr, DecidableEq

/-- The value of the enumerator. -/
def LogCore.toByte : LogCore → UInt8
  | .app => 0
  | .security => 1

/-- What `log_rec_encode` is given. -/
structure LogRec where
  core : LogCore
  seq : UInt8
  evt : UInt16
  tsMs : UInt32
  arg0 : UInt32
  arg1 : UInt16
  deriving Repr, DecidableEq

/-- `log_wr16`. -/
def logWr16 (v : UInt16) : List UInt8 :=
  [(v &&& 0x00FF).toUInt8, ((v >>> 8) &&& 0x00FF).toUInt8]

/-- `log_wr32`. -/
def logWr32 (v : UInt32) : List UInt8 :=
  [(v &&& 0x000000FF).toUInt8, ((v >>> 8) &&& 0x000000FF).toUInt8,
    ((v >>> 16) &&& 0x000000FF).toUInt8, ((v >>> 24) &&& 0x000000FF).toUInt8]

/-- One round of the inner loop of `log_crc16`. -/
def logCrc16Bit (crc : UInt16) : UInt16 :=
  if crc &&& 0x8000 ≠ 0 then (crc <<< 1) ^^^ 0x1021 else crc <<< 1

/-- One round of the outer loop of `log_crc16`. -/
def logCrc16Byte (crc : UInt16) (byte : UInt8) : UInt16 :=
  Nat.repeat logCrc16Bit 8 (crc ^^^ (byte.toUInt16 <<< 8))

/-- `log_crc16`. -/
def logCrc16 (data : List UInt8) : UInt16 :=
  data.foldl logCrc16Byte 0xFFFF

/-- The check value that the tests on both sides pin. -/
example :
    logCrc16 [0x31, 0x32, 0x33, 0x34, 0x35, 0x36, 0x37, 0x38, 0x39] =
      0x29B1 := by
  decide +kernel

/-- The core and the sequence number in one byte. -/
def logCoreSeq (core : LogCore) (seq : UInt8) : UInt8 :=
  (core.toByte <<< logCoreShift) ||| (seq &&& logSeqMask)

/-- The bytes of a record before its CRC. -/
def logRecBody (r : LogRec) : List UInt8 :=
  [logSync, logCoreSeq r.core r.seq] ++ logWr16 r.evt ++ logWr32 r.tsMs ++
    logWr32 r.arg0 ++ logWr16 r.arg1

/-- `log_rec_encode`. -/
def logRecEncode (r : LogRec) : List UInt8 :=
  logRecBody r ++ logWr16 (logCrc16 (logRecBody r))

@[simp] theorem length_logRecEncode (r : LogRec) :
    (logRecEncode r).length = logRecSize :=
  rfl

end TraveoBodyDomain
