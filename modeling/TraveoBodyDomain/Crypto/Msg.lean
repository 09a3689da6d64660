import Mathlib.Tactic.Common
import TraveoBodyDomain.Lib.FixedBuffer

/-!
# The envelopes of the crypto service

`crypto_types.h` and `crypto_msg.c`: what the two cores exchange, and how it is
laid out in bytes.  An envelope's payload always has room for the longest one;
what is not in use is zero.
-/

namespace TraveoBodyDomain

/-- `CRYPTO_OP_NONE`. -/
def cryptoOpNone : UInt8 :=
  0x00

/-- `CRYPTO_OP_HASH`. -/
def cryptoOpHash : UInt8 :=
  0x01

/-- `CRYPTO_OP_VERIFY_IMAGE`. -/
def cryptoOpVerifyImage : UInt8 :=
  0x02

/-- `CRYPTO_OP_MAC`. -/
def cryptoOpMac : UInt8 :=
  0x03

/-- `CRYPTO_MAX_PAYLOAD`. -/
def cryptoMaxPayload : Nat :=
  128

/-- `CRYPTO_MSG_HDR_SIZE`. -/
def cryptoMsgHdrSize : Nat :=
  3

/-- `CRYPTO_MSG_MAX_WIRE`. -/
def cryptoMsgMaxWire : Nat :=
  cryptoMsgHdrSize + cryptoMaxPayload

/-- `CRYPTO_CMAC_TAG_LEN`. -/
def cryptoCmacTagLen : Nat :=
  16

/-- `uint8_t tag[CRYPTO_CMAC_TAG_LEN]`. -/
abbrev CryptoTag :=
  FixedBuffer UInt8 cryptoCmacTagLen

/-- A pointer that is passed with a length: to so many bytes, or NULL. -/
inductive BytePointer where
  | null (len : Nat)
  | ptr (bytes : List UInt8)
  deriving Repr, DecidableEq

/-- The length that is passed. -/
def BytePointer.len : BytePointer → Nat
  | .null len => len
  | .ptr bytes => bytes.length

/-- The bytes that can be read. -/
def BytePointer.bytes : BytePointer → List UInt8
  | .null _ => []
  | .ptr bytes => bytes

/-- NULL with a length other than zero. -/
def BytePointer.Missing : BytePointer → Prop
  | .null len => len ≠ 0
  | .ptr _ => False

instance BytePointer.Missing.decidable :
    (msg : BytePointer) → Decidable msg.Missing
  | .null len => inferInstanceAs (Decidable (len ≠ 0))
  | .ptr _ => inferInstanceAs (Decidable False)

/-- `crypto_verdict_t`. -/
inductive CryptoVerdict where
  | invalid
  | valid
  | error
  deriving Repr, DecidableEq

/-- The value of the enumerator. -/
def CryptoVerdict.toByte : CryptoVerdict → UInt8
  | .invalid => 0
  | .valid => 1
  | .error => 2

/-- `crypto_msg_t`. -/
structure CryptoMsg where
  opCode : UInt8
  length : UInt16
  payload : List UInt8
  full : payload.length = cryptoMaxPayload
  deriving Repr, DecidableEq

/-- An envelope with these bytes, and zeros behind them. -/
def CryptoMsg.of (opCode : UInt8) (length : UInt16) (bytes : List UInt8) :
    CryptoMsg where
  opCode := opCode
  length := length
  payload := (bytes ++ List.replicate cryptoMaxPayload 0).take cryptoMaxPayload
  full := by
    rw [List.length_take, List.length_append, List.length_replicate]
    omega

/-- `put_u32le`. -/
def putU32le (v : UInt32) : List UInt8 :=
  [(v &&& 0xFF).toUInt8, ((v >>> 8) &&& 0xFF).toUInt8,
    ((v >>> 16) &&& 0xFF).toUInt8, ((v >>> 24) &&& 0xFF).toUInt8]

/-- `get_u32le`. -/
def getU32le (p : List UInt8) : UInt32 :=
  (p.getD 0 0).toUInt32 ||| ((p.getD 1 0).toUInt32 <<< 8) |||
    ((p.getD 2 0).toUInt32 <<< 16) ||| ((p.getD 3 0).toUInt32 <<< 24)

/-- `crypto_msg_encode`; `none` is a return of 0. -/
def cryptoMsgEncode (m : CryptoMsg) (cap : Nat) : Option (List UInt8) :=
  if cryptoMaxPayload < m.length.toNat then
    none
  else if cap < cryptoMsgHdrSize + m.length.toNat then
    none
  else
    some
      ([m.opCode, (m.length &&& 0xFF).toUInt8,
          ((m.length >>> 8) &&& 0xFF).toUInt8] ++
        m.payload.take m.length.toNat)

/-- `crypto_msg_decode`; `none` is false. -/
def cryptoMsgDecode (buf : List UInt8) : Option CryptoMsg :=
  if buf.length < cryptoMsgHdrSize then
    none
  else
    let length :=
      (buf.getD 1 0).toUInt16 ||| ((buf.getD 2 0).toUInt16 <<< 8)
    if cryptoMaxPayload < length.toNat then
      none
    else if buf.length - cryptoMsgHdrSize < length.toNat then
      none
    else
      some
        (.of (buf.getD 0 0) length
          ((buf.drop cryptoMsgHdrSize).take length.toNat))

/-- `crypto_make_verify_request`. -/
def cryptoMakeVerifyRequest (base len keyId : UInt32) : CryptoMsg :=
  .of cryptoOpVerifyImage 12 (putU32le base ++ putU32le len ++ putU32le keyId)

/-- `crypto_parse_verify_request`: base, length and key; `none` is false. -/
def cryptoParseVerifyRequest (m : CryptoMsg) :
    Option (UInt32 × UInt32 × UInt32) :=
  if m.opCode ≠ cryptoOpVerifyImage then
    none
  else if m.length < 12 then
    none
  else
    some
      (getU32le m.payload, getU32le (m.payload.drop 4),
        getU32le (m.payload.drop 8))

/-- `crypto_make_verdict`. -/
def cryptoMakeVerdict (echoOp : UInt8) (v : CryptoVerdict) : CryptoMsg :=
  .of echoOp 1 [v.toByte]

/-- `crypto_parse_verdict`; `none` is false. -/
def cryptoParseVerdict (m : CryptoMsg) : Option CryptoVerdict :=
  if m.length < 1 then
    none
  else
    let raw := m.payload.getD 0 0
    if CryptoVerdict.error.toByte < raw then none
    else if raw = CryptoVerdict.invalid.toByte then some .invalid
    else if raw = CryptoVerdict.valid.toByte then some .valid
    else some .error

/-- `put_u16le`. -/
def CryptoMsg.putU16le (v : UInt16) : List UInt8 :=
  [(v &&& 0xFF).toUInt8, ((v >>> 8) &&& 0xFF).toUInt8]

/-- `get_u16le`. -/
def CryptoMsg.getU16le (p : List UInt8) : UInt16 :=
  (p.getD 0 0).toUInt16 ||| ((p.getD 1 0).toUInt16 <<< 8)

/-- `crypto_make_mac_request`; what does not fit gives an empty request. -/
def cryptoMakeMacRequest (keyId : UInt32) (msg : BytePointer) : CryptoMsg :=
  let total := 6 + msg.len
  if cryptoMaxPayload < total ∨ msg.Missing then
    .of cryptoOpMac 0 []
  else
    .of cryptoOpMac total.toUInt16
      (putU32le keyId ++ CryptoMsg.putU16le msg.len.toUInt16 ++ msg.bytes)

/--
`crypto_parse_mac_request`: the key and the message, which the source points to
inside the payload; `none` is false.
-/
def cryptoParseMacRequest (m : CryptoMsg) : Option (UInt32 × List UInt8) :=
  if m.opCode ≠ cryptoOpMac then
    none
  else if m.length < 6 then
    none
  else
    let ml := CryptoMsg.getU16le (m.payload.drop 4)
    if m.length.toNat - 6 < ml.toNat then
      none
    else
      some (getU32le m.payload, (m.payload.drop 6).take ml.toNat)

/-- `crypto_make_mac_response`. -/
def cryptoMakeMacResponse (tag : CryptoTag) : CryptoMsg :=
  .of cryptoOpMac cryptoCmacTagLen.toUInt16 tag.cells

/-- `crypto_parse_mac_response`: whether there is a tag, and `tag` after it. -/
def cryptoParseMacResponse (m : CryptoMsg) (tag : CryptoTag) :
    Bool × CryptoTag :=
  if m.opCode ≠ cryptoOpMac then
    (false, tag)
  else if m.length < cryptoCmacTagLen.toUInt16 then
    (false, tag)
  else
    (true, tag.storeAll 0 (m.payload.take cryptoCmacTagLen))

/-- A verdict is taken from the first byte, whatever else the envelope says. -/
theorem cryptoParseVerdict_valid {m : CryptoMsg} :
    cryptoParseVerdict m = some .valid ↔
      1 ≤ m.length ∧ m.payload.getD 0 0 = CryptoVerdict.valid.toByte := by
  rw [cryptoParseVerdict]
  split
  · next empty =>
      simp only [reduceCtorEq, false_iff, not_and]
      intro someLength
      exact (UInt16.not_lt.mpr someLength empty).elim
  · next notEmpty =>
      have someLength : 1 ≤ m.length := UInt16.not_lt.mp notEmpty
      simp only [someLength, true_and]
      constructor
      · intro parsed
        split_ifs at parsed with tooHigh isInvalid isValid
        · cases parsed
        · exact isValid
        · cases parsed
      · intro isValid
        rw [isValid]
        decide

end TraveoBodyDomain
