import TraveoBodyDomain.Crypto.Msg
import TraveoBodyDomain.Lib.LittleEndian

/-!
# Envelopes there and back

`crypto_msg_encode` and `crypto_msg_decode` write where the caller says.  Here
they are given the caller's buffer and the caller's envelope, and are compared
with the functions of `Crypto.Msg`, which return what is written.

An envelope that was encoded is decoded again, with anything behind it; what is
decoded was an encoded envelope with anything behind it.  Requests and answers
that are made are parsed as they were meant.
-/

namespace TraveoBodyDomain

open LittleEndian

/-- `crypto_msg_encode` into the caller's buffer: the return value, and `buf`. -/
def cryptoMsgEncodeInto
    {cap : Nat}
    (m : CryptoMsg)
    (buf : FixedBuffer UInt8 cap) : Nat × FixedBuffer UInt8 cap :=
  if cryptoMaxPayload < m.length.toNat then
    (0, buf)
  else
    let total := cryptoMsgHdrSize + m.length.toNat
    if cap < total then
      (0, buf)
    else
      let buf := buf.store 0 m.opCode
      let buf := buf.store 1 (m.length &&& 0xFF).toUInt8
      let buf := buf.store 2 ((m.length >>> 8) &&& 0xFF).toUInt8
      (total,
        buf.storeAll cryptoMsgHdrSize (m.payload.take m.length.toNat))

/-- The payload as the buffer it is. -/
def CryptoMsg.buffer (m : CryptoMsg) : FixedBuffer UInt8 cryptoMaxPayload where
  cells := m.payload
  sized := m.full

/-- `payload_zero_from`. -/
def payloadZeroFrom
    (payload : FixedBuffer UInt8 cryptoMaxPayload)
    (start : UInt16) : FixedBuffer UInt8 cryptoMaxPayload :=
  payload.storeAll start.toNat
    (List.replicate (cryptoMaxPayload - start.toNat) 0)

/-- `crypto_msg_decode` into the caller's envelope: the result, and `m`. -/
def cryptoMsgDecodeInto
    (buf : List UInt8)
    (m : CryptoMsg) : Bool × CryptoMsg :=
  if buf.length < cryptoMsgHdrSize then
    (false, m)
  else
    let length :=
      (buf.getD 1 0).toUInt16 ||| ((buf.getD 2 0).toUInt16 <<< 8)
    if cryptoMaxPayload < length.toNat then
      (false, m)
    else if buf.length - cryptoMsgHdrSize < length.toNat then
      (false, m)
    else
      let payload :=
        m.buffer.storeAll 0 ((buf.drop cryptoMsgHdrSize).take length.toNat)
      let payload := payloadZeroFrom payload length
      (true, ⟨buf.getD 0 0, length, payload.cells, payload.sized⟩)

namespace CryptoMsg

/-- The bytes of an envelope on the wire. -/
def wire (m : CryptoMsg) : List UInt8 :=
  [m.opCode, (m.length &&& 0xFF).toUInt8,
      ((m.length >>> 8) &&& 0xFF).toUInt8] ++
    m.payload.take m.length.toNat

/-- An envelope with nothing but zeros behind what is in use. -/
def trimmed (m : CryptoMsg) : CryptoMsg :=
  .of m.opCode m.length (m.payload.take m.length.toNat)

/-- An envelope is its three fields. -/
@[ext] theorem ext
    {first second : CryptoMsg}
    (sameOp : first.opCode = second.opCode)
    (sameLength : first.length = second.length)
    (samePayload : first.payload = second.payload) :
    first = second := by
  cases first
  cases second
  cases sameOp
  cases sameLength
  cases samePayload
  rfl

/-- The payload of an envelope that is made: its bytes, then zeros. -/
theorem of_payload
    (opCode : UInt8)
    (length : UInt16)
    {bytes : List UInt8}
    (fits : bytes.length ≤ cryptoMaxPayload) :
    (of opCode length bytes).payload =
      bytes ++ List.replicate (cryptoMaxPayload - bytes.length) 0 := by
  change (bytes ++ List.replicate cryptoMaxPayload 0).take cryptoMaxPayload = _
  rw [List.take_append, List.take_of_length_le fits, List.take_replicate,
    Nat.min_eq_left (Nat.sub_le _ _)]

/-- What is in use of an envelope that is made. -/
theorem of_payload_take
    (opCode : UInt8)
    (length : UInt16)
    {bytes : List UInt8}
    (fits : bytes.length ≤ cryptoMaxPayload) :
    (of opCode length bytes).payload.take bytes.length = bytes := by
  rw [of_payload opCode length fits, List.take_left]

/-- An envelope that is made has nothing to trim. -/
theorem of_trimmed
    (opCode : UInt8)
    {length : UInt16}
    {bytes : List UInt8}
    (sized : bytes.length = length.toNat)
    (fits : bytes.length ≤ cryptoMaxPayload) :
    (of opCode length bytes).trimmed = of opCode length bytes := by
  have used := of_payload_take opCode length fits
  rw [sized] at used
  exact congrArg (of opCode length) used

/-- The length of what is in use. -/
theorem length_used
    {m : CryptoMsg}
    (short : m.length.toNat ≤ cryptoMaxPayload) :
    (m.payload.take m.length.toNat).length = m.length.toNat := by
  rw [List.length_take, m.full, Nat.min_eq_left short]

/-- The number of bytes on the wire. -/
theorem length_wire
    {m : CryptoMsg}
    (short : m.length.toNat ≤ cryptoMaxPayload) :
    m.wire.length = cryptoMsgHdrSize + m.length.toNat := by
  rw [wire, List.length_append, length_used short]
  rfl

end CryptoMsg

/-!
## Encoding and decoding
-/

/-- An envelope is encoded where it fits. -/
theorem cryptoMsgEncode_of_fits
    {m : CryptoMsg}
    {cap : Nat}
    (short : m.length.toNat ≤ cryptoMaxPayload)
    (fits : cryptoMsgHdrSize + m.length.toNat ≤ cap) :
    cryptoMsgEncode m cap = some m.wire := by
  rw [cryptoMsgEncode, if_neg (Nat.not_lt.mpr short),
    if_neg (Nat.not_lt.mpr fits)]
  rfl

/-- An envelope comes back, with zeros behind what is in use. -/
theorem cryptoMsgDecode_wire
    {m : CryptoMsg}
    (short : m.length.toNat ≤ cryptoMaxPayload)
    (trailing : List UInt8) :
    cryptoMsgDecode (m.wire ++ trailing) = some m.trimmed := by
  have length :
      ((m.wire ++ trailing).getD 1 0).toUInt16 |||
          (((m.wire ++ trailing).getD 2 0).toUInt16 <<< 8) =
        m.length := by
    change
      (m.length &&& 0xFF).toUInt8.toUInt16 |||
          (((m.length >>> 8) &&& 0xFF).toUInt8.toUInt16 <<< 8) =
        m.length
    apply UInt16.toNat_inj.mp
    rw [join16, split16, ofLe_toLe]
    exact Nat.mod_eq_of_lt m.length.toNat_lt
  have behind :
      (m.wire ++ trailing).drop cryptoMsgHdrSize =
        m.payload.take m.length.toNat ++ trailing :=
    rfl
  have size :
      (m.wire ++ trailing).length =
        cryptoMsgHdrSize + m.length.toNat + trailing.length := by
    rw [List.length_append, CryptoMsg.length_wire short]
  have whole :
      (m.payload.take m.length.toNat ++ trailing).take m.length.toNat =
        m.payload.take m.length.toNat :=
    List.take_left' (CryptoMsg.length_used short)
  simp only [cryptoMsgDecode, length, behind, size, whole]
  rw [if_neg (by omega), if_neg (by omega), if_neg (by omega)]
  rfl

/-- What is decoded is trimmed, and its bytes start what was decoded. -/
theorem wire_of_decode
    {bytes : List UInt8}
    {m : CryptoMsg}
    (decoded : cryptoMsgDecode bytes = some m) :
    m.length.toNat ≤ cryptoMaxPayload ∧ m.trimmed = m ∧ m.wire <+: bytes := by
  unfold cryptoMsgDecode at decoded
  dsimp only at decoded
  split_ifs at decoded with noHeader tooLong cut
  cases decoded
  match bytes, noHeader with
  | [], noHeader | [_], noHeader | [_, _], noHeader =>
      exact absurd noHeader (by simp [cryptoMsgHdrSize])
  | op :: low :: high :: rest, _ =>
      simp only [List.getD_cons_zero, List.getD_cons_succ, cryptoMsgHdrSize,
        List.length_cons, List.drop_succ_cons, List.drop_zero] at tooLong cut ⊢
      generalize joined : low.toUInt16 ||| (high.toUInt16 <<< 8) = length at *
      have sized : (rest.take length.toNat).length = length.toNat := by
        rw [List.length_take]
        omega
      have short : length.toNat ≤ cryptoMaxPayload := Nat.not_lt.mp tooLong
      have header :
          [(length &&& 0xFF).toUInt8, ((length >>> 8) &&& 0xFF).toUInt8] =
            [low, high] := by
        rw [← joined]
        exact split16_join16 low high
      have used :=
        CryptoMsg.of_payload_take op length (sized.le.trans short)
      rw [sized] at used
      refine
        ⟨short, CryptoMsg.of_trimmed op sized (sized.le.trans short),
          rest.drop length.toNat, ?_⟩
      change
        op :: ([(length &&& 0xFF).toUInt8,
            ((length >>> 8) &&& 0xFF).toUInt8] ++
          (CryptoMsg.of op length (rest.take length.toNat)).payload.take
            length.toNat) ++ rest.drop length.toNat = _
      rw [header, used, List.cons_append, List.append_assoc,
        List.take_append_drop]
      rfl

/-- The byte strings that are decoded are those that an envelope starts. -/
theorem cryptoMsgDecode_isSome {bytes : List UInt8} :
    (cryptoMsgDecode bytes).isSome ↔
      ∃ m : CryptoMsg,
        m.length.toNat ≤ cryptoMaxPayload ∧ m.wire <+: bytes := by
  constructor
  · intro accepted
    obtain ⟨m, decoded⟩ := Option.isSome_iff_exists.mp accepted
    obtain ⟨short, -, starts⟩ := wire_of_decode decoded
    exact ⟨m, short, starts⟩
  · rintro ⟨m, short, trailing, rfl⟩
    rw [cryptoMsgDecode_wire short]
    rfl

/-!
## The caller's buffers
-/

/-- The encoder stores what `cryptoMsgEncode` returns, or nothing. -/
theorem cryptoMsgEncodeInto_eq
    {cap : Nat}
    (m : CryptoMsg)
    (buf : FixedBuffer UInt8 cap) :
    cryptoMsgEncodeInto m buf =
      match cryptoMsgEncode m cap with
      | none => (0, buf)
      | some wire => (wire.length, buf.storeAll 0 wire) := by
  unfold cryptoMsgEncodeInto
  dsimp only
  split
  · next tooLong =>
      rw [cryptoMsgEncode, if_pos tooLong]
  · next short =>
      split
      · next tooBig =>
          rw [cryptoMsgEncode, if_neg short, if_pos tooBig]
      · next fits =>
          rw [cryptoMsgEncode_of_fits (Nat.not_lt.mp short)
            (Nat.not_lt.mp fits)]
          dsimp only
          rw [CryptoMsg.length_wire (Nat.not_lt.mp short)]
          rfl

/-- The decoder stores what `cryptoMsgDecode` returns, or nothing. -/
theorem cryptoMsgDecodeInto_eq
    (bytes : List UInt8)
    (m : CryptoMsg) :
    cryptoMsgDecodeInto bytes m =
      match cryptoMsgDecode bytes with
      | none => (false, m)
      | some decoded => (true, decoded) := by
  unfold cryptoMsgDecodeInto cryptoMsgDecode
  dsimp only
  split
  · rfl
  · next header =>
      generalize
        (bytes.getD 1 0).toUInt16 ||| ((bytes.getD 2 0).toUInt16 <<< 8) =
          length
      split
      · rfl
      · next short =>
          split
          · rfl
          · next whole =>
              let taken := (bytes.drop cryptoMsgHdrSize).take length.toNat
              have sized : taken.length = length.toNat := by
                rw [List.length_take, List.length_drop]
                omega
              have filled :
                  (payloadZeroFrom (m.buffer.storeAll 0 taken) length).cells =
                    (CryptoMsg.of (bytes.getD 0 0) length taken).payload := by
                have kept := m.buffer.take_storeAll taken (by omega)
                rw [sized] at kept
                have full :
                    length.toNat + (cryptoMaxPayload - length.toNat) =
                      cryptoMaxPayload := by
                  omega
                rw [CryptoMsg.of_payload _ _ (by omega), payloadZeroFrom,
                  FixedBuffer.storeAll_cells _ _ _
                    (by rw [List.length_replicate]; omega),
                  kept, List.length_replicate, full, sized,
                  List.drop_of_length_le (m.buffer.storeAll 0 taken).sized.le,
                  List.append_nil]
              exact congrArg (Prod.mk true) (CryptoMsg.ext rfl rfl filled)

/-- The bytes the encoder reports as written. -/
def writtenBytes {cap : Nat} (result : Nat × FixedBuffer UInt8 cap) :
    List UInt8 :=
  result.2.cells.take result.1

/-- What is written is the envelope's bytes, all of them. -/
theorem writtenBytes_encode
    {m : CryptoMsg}
    {cap : Nat}
    (buf : FixedBuffer UInt8 cap)
    (short : m.length.toNat ≤ cryptoMaxPayload)
    (fits : cryptoMsgHdrSize + m.length.toNat ≤ cap) :
    (cryptoMsgEncodeInto m buf).1 = cryptoMsgHdrSize + m.length.toNat ∧
      writtenBytes (cryptoMsgEncodeInto m buf) = m.wire := by
  have size := CryptoMsg.length_wire short
  rw [cryptoMsgEncodeInto_eq, cryptoMsgEncode_of_fits short fits]
  exact ⟨size, buf.take_storeAll m.wire (size.trans_le fits)⟩

/-!
## Requests and answers
-/

@[simp] theorem getU32le_putU32le (v : UInt32) (rest : List UInt8) :
    getU32le (putU32le v ++ rest) = v := by
  apply UInt32.toNat_inj.mp
  have read : (getU32le (putU32le v ++ rest)).toNat = ofLe (putU32le v) :=
    join32 _ _ _ _
  have split : putU32le v = toLe 4 v.toNat := split32 v
  rw [read, split, ofLe_toLe]
  exact Nat.mod_eq_of_lt v.toNat_lt

@[simp] theorem CryptoMsg.getU16le_putU16le (v : UInt16) (rest : List UInt8) :
    getU16le (putU16le v ++ rest) = v := by
  apply UInt16.toNat_inj.mp
  have read : (getU16le (putU16le v ++ rest)).toNat = ofLe (putU16le v) :=
    join16 _ _
  have split : putU16le v = toLe 2 v.toNat := split16 v
  rw [read, split, ofLe_toLe]
  exact Nat.mod_eq_of_lt v.toNat_lt

/-- A verify request has nothing to trim. -/
theorem cryptoMakeVerifyRequest_trimmed (base len keyId : UInt32) :
    (cryptoMakeVerifyRequest base len keyId).trimmed =
      cryptoMakeVerifyRequest base len keyId :=
  CryptoMsg.of_trimmed cryptoOpVerifyImage rfl (by change 12 ≤ 128; decide)

/-- A verdict has nothing to trim. -/
theorem cryptoMakeVerdict_trimmed (echoOp : UInt8) (v : CryptoVerdict) :
    (cryptoMakeVerdict echoOp v).trimmed = cryptoMakeVerdict echoOp v :=
  CryptoMsg.of_trimmed echoOp rfl (by change 1 ≤ 128; decide)

/-- The request that is made is the request that is parsed. -/
theorem cryptoParseVerifyRequest_make (base len keyId : UInt32) :
    cryptoParseVerifyRequest (cryptoMakeVerifyRequest base len keyId) =
      some (base, len, keyId) := by
  have third := getU32le_putU32le keyId (List.replicate 116 0)
  have second :=
    getU32le_putU32le len (putU32le keyId ++ List.replicate 116 0)
  have first :=
    getU32le_putU32le base
      (putU32le len ++ putU32le keyId ++ List.replicate 116 0)
  have op :
      (cryptoMakeVerifyRequest base len keyId).opCode = cryptoOpVerifyImage :=
    rfl
  have size : ¬(cryptoMakeVerifyRequest base len keyId).length < 12 := by
    change ¬(12 : UInt16) < 12
    decide
  rw [cryptoParseVerifyRequest, if_neg (not_not.mpr op), if_neg size]
  exact congrArg some
    (congrArg₂ Prod.mk first (congrArg₂ Prod.mk second third))

/-- The verify requests that are rejected. -/
theorem cryptoParseVerifyRequest_eq_none {m : CryptoMsg} :
    cryptoParseVerifyRequest m = none ↔
      m.opCode ≠ cryptoOpVerifyImage ∨ m.length.toNat < 12 := by
  unfold cryptoParseVerifyRequest
  split
  · next other =>
      simp [other]
  · next verify =>
      split
      · next short =>
          have tooShort : m.length.toNat < 12 :=
            UInt16.lt_iff_toNat_lt.mp short
          simp [tooShort]
      · next long =>
          have enough : ¬m.length.toNat < 12 := fun short =>
            long (UInt16.lt_iff_toNat_lt.mpr short)
          simp [not_not.mp verify, enough]

/-- All that is passed can be read, unless NULL comes with a length. -/
theorem BytePointer.length_bytes
    {msg : BytePointer}
    (present : ¬msg.Missing) :
    msg.bytes.length = msg.len := by
  cases msg with
  | null len =>
      exact (not_not.mp present).symm
  | ptr bytes =>
      rfl

/-- The fields of a MAC request, one behind the other. -/
theorem length_macFields
    (keyId : UInt32)
    {msg : BytePointer}
    (present : ¬msg.Missing) :
    (putU32le keyId ++ CryptoMsg.putU16le msg.len.toUInt16 ++
        msg.bytes).length = 6 + msg.len := by
  rw [List.length_append, BytePointer.length_bytes present]
  rfl

/-- The MAC request for a message that fits is the one with its fields. -/
theorem cryptoMakeMacRequest_of_fits
    (keyId : UInt32)
    {msg : BytePointer}
    (present : ¬msg.Missing)
    (fits : 6 + msg.len ≤ cryptoMaxPayload) :
    cryptoMakeMacRequest keyId msg =
      .of cryptoOpMac (6 + msg.len).toUInt16
        (putU32le keyId ++ CryptoMsg.putU16le msg.len.toUInt16 ++
          msg.bytes) :=
  if_neg (not_or.mpr ⟨Nat.not_lt.mpr fits, present⟩)

/-- The MAC request for a message that fits: its length and its payload. -/
theorem cryptoMakeMacRequest_fields
    (keyId : UInt32)
    {msg : BytePointer}
    (present : ¬msg.Missing)
    (fits : 6 + msg.len ≤ cryptoMaxPayload) :
    (cryptoMakeMacRequest keyId msg).length.toNat = 6 + msg.len ∧
      (cryptoMakeMacRequest keyId msg).payload =
        putU32le keyId ++
          (CryptoMsg.putU16le msg.len.toUInt16 ++
            (msg.bytes ++
              List.replicate (cryptoMaxPayload - (6 + msg.len)) 0)) := by
  have whole := length_macFields keyId present
  rw [cryptoMakeMacRequest_of_fits keyId present fits]
  constructor
  · change (6 + msg.len).toUInt16.toNat = 6 + msg.len
    change 6 + msg.len ≤ 128 at fits
    rw [Nat.toUInt16_eq, UInt16.toNat_ofNat']
    omega
  · rw [CryptoMsg.of_payload _ _ (by omega), whole]
    simp only [List.append_assoc]

/-- A MAC request for a message that fits has a payload. -/
theorem cryptoMakeMacRequest_notEmpty
    (keyId : UInt32)
    {msg : BytePointer}
    (present : ¬msg.Missing)
    (fits : 6 + msg.len ≤ cryptoMaxPayload) :
    (cryptoMakeMacRequest keyId msg).length ≠ 0 := by
  intro empty
  have length := (cryptoMakeMacRequest_fields keyId present fits).1
  rw [empty] at length
  change 0 = 6 + msg.len at length
  omega

/-- A MAC request always says that it is one. -/
theorem cryptoMakeMacRequest_opCode (keyId : UInt32) (msg : BytePointer) :
    (cryptoMakeMacRequest keyId msg).opCode = cryptoOpMac := by
  unfold cryptoMakeMacRequest
  dsimp only
  split <;> rfl

/-- A MAC request for a message that fits has nothing to trim. -/
theorem cryptoMakeMacRequest_trimmed
    (keyId : UInt32)
    {msg : BytePointer}
    (present : ¬msg.Missing)
    (fits : 6 + msg.len ≤ cryptoMaxPayload) :
    (cryptoMakeMacRequest keyId msg).trimmed =
      cryptoMakeMacRequest keyId msg := by
  have length := (cryptoMakeMacRequest_fields keyId present fits).1
  have whole := length_macFields keyId present
  rw [cryptoMakeMacRequest_of_fits keyId present fits] at length ⊢
  exact
    CryptoMsg.of_trimmed cryptoOpMac (whole.trans length.symm)
      (whole.trans_le fits)

/-- The MAC request that is made is the one that is parsed. -/
theorem cryptoParseMacRequest_make
    (keyId : UInt32)
    {msg : BytePointer}
    (present : ¬msg.Missing)
    (fits : 6 + msg.len ≤ cryptoMaxPayload) :
    cryptoParseMacRequest (cryptoMakeMacRequest keyId msg) =
      some (keyId, msg.bytes) := by
  have op := cryptoMakeMacRequest_opCode keyId msg
  obtain ⟨length, payload⟩ := cryptoMakeMacRequest_fields keyId present fits
  generalize cryptoMakeMacRequest keyId msg = m at *
  generalize
    List.replicate (cryptoMaxPayload - (6 + msg.len)) (0 : UInt8) = zeros at *
  have lenKept : msg.len.toUInt16.toNat = msg.len := by
    change 6 + msg.len ≤ 128 at fits
    rw [Nat.toUInt16_eq, UInt16.toNat_ofNat']
    omega
  have fourOn :
      m.payload.drop 4 =
        CryptoMsg.putU16le msg.len.toUInt16 ++ (msg.bytes ++ zeros) := by
    rw [payload]
    rfl
  have sixOn : m.payload.drop 6 = msg.bytes ++ zeros := by
    rw [payload]
    rfl
  have long : ¬m.length < 6 := by
    intro short
    have tooShort : m.length.toNat < 6 := UInt16.lt_iff_toNat_lt.mp short
    omega
  rw [cryptoParseMacRequest, if_neg (not_not.mpr op), if_neg long, fourOn,
    sixOn, payload]
  simp only [getU32le_putU32le, CryptoMsg.getU16le_putU16le, lenKept]
  rw [if_neg (by omega), List.take_left' (BytePointer.length_bytes present)]

/-- The MAC requests that are rejected. -/
theorem cryptoParseMacRequest_eq_none {m : CryptoMsg} :
    cryptoParseMacRequest m = none ↔
      m.opCode ≠ cryptoOpMac ∨ m.length.toNat < 6 ∨
        m.length.toNat - 6 <
          (CryptoMsg.getU16le (m.payload.drop 4)).toNat := by
  unfold cryptoParseMacRequest
  split
  · next other =>
      simp [other]
  · next mac =>
      split
      · next short =>
          have tooShort : m.length.toNat < 6 :=
            UInt16.lt_iff_toNat_lt.mp short
          simp [tooShort]
      · next long =>
          have enough : ¬m.length.toNat < 6 := fun short =>
            long (UInt16.lt_iff_toNat_lt.mpr short)
          simp [not_not.mp mac, enough]

/-- A tag has nothing to trim. -/
theorem cryptoMakeMacResponse_trimmed (tag : CryptoTag) :
    (cryptoMakeMacResponse tag).trimmed = cryptoMakeMacResponse tag :=
  CryptoMsg.of_trimmed cryptoOpMac tag.sized
    (by rw [tag.sized]; decide)

/-- The tag that is sent is the tag that is read, into whatever buffer. -/
theorem cryptoParseMacResponse_make (tag before : CryptoTag) :
    cryptoParseMacResponse (cryptoMakeMacResponse tag) before =
      (true, tag) := by
  have used :
      (cryptoMakeMacResponse tag).payload.take cryptoCmacTagLen =
        tag.cells := by
    have whole :=
      @CryptoMsg.of_payload_take cryptoOpMac cryptoCmacTagLen.toUInt16
        tag.cells (by rw [tag.sized]; decide)
    rw [tag.sized] at whole
    exact whole
  have stored :
      before.storeAll 0 tag.cells = tag := by
    apply FixedBuffer.ext
    rw [FixedBuffer.storeAll_cells _ _ _ (by rw [tag.sized]; omega),
      tag.sized, List.take_zero, List.nil_append,
      List.drop_of_length_le (by rw [before.sized]; omega), List.append_nil]
  have op : (cryptoMakeMacResponse tag).opCode = cryptoOpMac :=
    rfl
  rw [cryptoParseMacResponse, if_neg (not_not.mpr op), if_neg, used, stored]
  change ¬cryptoCmacTagLen.toUInt16 < cryptoCmacTagLen.toUInt16
  decide

/-- A rejected answer leaves the tag alone; which answers these are. -/
theorem cryptoParseMacResponse_eq_false
    {m : CryptoMsg}
    {tag : CryptoTag} :
    (cryptoParseMacResponse m tag).1 = false ↔
      m.opCode ≠ cryptoOpMac ∨ m.length.toNat < cryptoCmacTagLen := by
  unfold cryptoParseMacResponse
  split
  · next other =>
      simp [other]
  · next mac =>
      have sixteen : cryptoCmacTagLen.toUInt16.toNat = cryptoCmacTagLen := by
        decide
      split
      · next short =>
          have tooShort := UInt16.lt_iff_toNat_lt.mp short
          rw [sixteen] at tooShort
          simp [tooShort]
      · next long =>
          have enough : ¬m.length.toNat < cryptoCmacTagLen := fun short =>
            long (UInt16.lt_iff_toNat_lt.mpr (by rw [sixteen]; exact short))
          simp [not_not.mp mac, enough]

/-- The tag is written with a true return only. -/
theorem cryptoParseMacResponse_untouched
    {m : CryptoMsg}
    {tag : CryptoTag}
    (rejected : (cryptoParseMacResponse m tag).1 = false) :
    (cryptoParseMacResponse m tag).2 = tag := by
  revert rejected
  unfold cryptoParseMacResponse
  split
  · exact fun _ => rfl
  · split
    · exact fun _ => rfl
    · exact fun impossible => absurd impossible (by simp)

/-!
## The whole codec
-/

/--
Encoder, decoder, and the three pairs that make and parse.

An envelope that does not fit is not written; one that does comes back, whatever
follows it and whatever the decoder's output held before.  What is accepted
starts with the encoding of what it is decoded to; what is rejected starts with
no encoding, and leaves the output alone.
-/
theorem envelopes_and_requests_round_trip :
    (∀ (m : CryptoMsg) (cap : Nat) (buf : FixedBuffer UInt8 cap),
      m.length.toNat ≤ cryptoMaxPayload →
        (cap < cryptoMsgHdrSize + m.length.toNat →
          cryptoMsgEncodeInto m buf = (0, buf)) ∧
        (cryptoMsgHdrSize + m.length.toNat ≤ cap →
          ∀ trailing out,
            cryptoMsgDecodeInto
                (writtenBytes (cryptoMsgEncodeInto m buf) ++ trailing) out =
              (true, m.trimmed))) ∧
    (∀ bytes out decoded,
      cryptoMsgDecodeInto bytes out = (true, decoded) →
        decoded.length.toNat ≤ cryptoMaxPayload ∧
          ∀ (cap : Nat) (buf : FixedBuffer UInt8 cap),
            cryptoMsgHdrSize + decoded.length.toNat ≤ cap →
              (cryptoMsgEncodeInto decoded buf).1 =
                  cryptoMsgHdrSize + decoded.length.toNat ∧
                writtenBytes (cryptoMsgEncodeInto decoded buf) <+: bytes) ∧
    (∀ bytes out left,
      cryptoMsgDecodeInto bytes out = (false, left) →
        left = out ∧
          ∀ m : CryptoMsg,
            m.length.toNat ≤ cryptoMaxPayload → ¬ m.wire <+: bytes) ∧
    (∀ base len keyId,
      cryptoParseVerifyRequest (cryptoMakeVerifyRequest base len keyId) =
        some (base, len, keyId)) ∧
    (∀ keyId msg,
      ¬msg.Missing →
        6 + msg.len ≤ cryptoMaxPayload →
          cryptoParseMacRequest (cryptoMakeMacRequest keyId msg) =
            some (keyId, msg.bytes)) ∧
    (∀ tag before,
      cryptoParseMacResponse (cryptoMakeMacResponse tag) before =
        (true, tag)) ∧
    (∀ m,
      (cryptoParseVerifyRequest m = none ↔
        m.opCode ≠ cryptoOpVerifyImage ∨ m.length.toNat < 12) ∧
      (cryptoParseMacRequest m = none ↔
        m.opCode ≠ cryptoOpMac ∨ m.length.toNat < 6 ∨
          m.length.toNat - 6 <
            (CryptoMsg.getU16le (m.payload.drop 4)).toNat) ∧
      ∀ tag,
        (cryptoParseMacResponse m tag = (false, tag) ↔
          m.opCode ≠ cryptoOpMac ∨ m.length.toNat < cryptoCmacTagLen)) := by
  refine
    ⟨?_, ?_, ?_, cryptoParseVerifyRequest_make, fun keyId msg present fits =>
      cryptoParseMacRequest_make keyId present fits,
      cryptoParseMacResponse_make, ?_⟩
  · intro m cap buf short
    constructor
    · intro tooBig
      rw [cryptoMsgEncodeInto_eq, cryptoMsgEncode,
        if_neg (Nat.not_lt.mpr short), if_pos tooBig]
    · intro fits trailing out
      rw [(writtenBytes_encode buf short fits).2, cryptoMsgDecodeInto_eq,
        cryptoMsgDecode_wire short]
  · intro bytes out decoded accepted
    rw [cryptoMsgDecodeInto_eq] at accepted
    split at accepted
    · cases accepted
    · next m parsed =>
        cases accepted
        obtain ⟨short, -, starts⟩ := wire_of_decode parsed
        refine ⟨short, fun cap buf fits => ?_⟩
        obtain ⟨size, written⟩ := writtenBytes_encode buf short fits
        exact ⟨size, written ▸ starts⟩
  · intro bytes out left rejected
    rw [cryptoMsgDecodeInto_eq] at rejected
    split at rejected
    · next refused =>
        cases rejected
        refine ⟨rfl, fun m short starts => ?_⟩
        have accepted := cryptoMsgDecode_isSome.mpr ⟨m, short, starts⟩
        rw [refused] at accepted
        cases accepted
    · cases rejected
  · intro m
    refine
      ⟨cryptoParseVerifyRequest_eq_none, cryptoParseMacRequest_eq_none,
        fun tag => ?_⟩
    rw [← @cryptoParseMacResponse_eq_false m tag]
    constructor
    · intro rejected
      rw [rejected]
    · intro rejected
      exact Prod.ext rejected (cryptoParseMacResponse_untouched rejected)

end TraveoBodyDomain
