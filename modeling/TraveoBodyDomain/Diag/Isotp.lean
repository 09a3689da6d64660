import Mathlib.Tactic.Ring
import TraveoBodyDomain.Can

/-!
# ISO-TP

`isotp.c`: segmentation and reassembly over CAN FD frames.  The state is the
module's static variables; of the two buffers only the bytes in use are kept,
so a buffer's length is `g_rx_received_len` or `g_tx_total_len`.  Frames handed
to `send` are collected in order; the source ignores what `send` returns.

The frame `isotp_poll` receives into is a local variable: bytes a frame does
not carry are left over from the frame before, or from the stack, and a single
frame's length byte can point behind the frame.  So the handlers read a list of
bytes that may be longer than the frame.
-/

namespace TraveoBodyDomain

/-- `ISOTP_MAX_PAYLOAD`. -/
def isotpMaxPayload : Nat :=
  4096

/-- `ISOTP_BLOCK_SIZE`. -/
def isotpBlockSize : UInt8 :=
  8

/-- `ISOTP_STMIN_MS`. -/
def isotpStminMs : UInt8 :=
  0

/-- `ISOTP_N_CR_MS`. -/
def isotpNCrMs : UInt32 :=
  1000

/-- `ISOTP_FF_INITIAL_LEN`. -/
def isotpFfInitialLen : Nat :=
  59

/-- `ISOTP_PCI_TYPE_SF`. -/
def isotpPciTypeSf : UInt8 :=
  0x00

/-- `ISOTP_PCI_TYPE_FF`. -/
def isotpPciTypeFf : UInt8 :=
  0x10

/-- `ISOTP_PCI_TYPE_CF`. -/
def isotpPciTypeCf : UInt8 :=
  0x20

/-- `ISOTP_PCI_TYPE_FC`. -/
def isotpPciTypeFc : UInt8 :=
  0x30

/-- `ISOTP_FC_STATUS_CTS`. -/
def isotpFcStatusCts : UInt8 :=
  0x00

/-- `ISOTP_FC_STATUS_OVERFLOW`. -/
def isotpFcStatusOverflow : UInt8 :=
  0x02

/-- `isotp_state_t`. -/
inductive IsotpState where
  | idle
  | rxInProgress
  | txInProgress
  | rxComplete
  | errorTimeout
  | errorFlow
  | errorOverflow
  deriving Repr, DecidableEq

/-- The static variables of `isotp.c`. -/
structure Isotp where
  txId : UInt32
  state : IsotpState
  rxBuf : List UInt8
  rxTotalLen : UInt32
  rxNextSeq : UInt8
  rxLastActivityMs : UInt32
  rxComplete : Bool
  txData : List UInt8
  txSentLen : Nat
  txNextSeq : UInt8
  txPending : Bool
  txBlockRemaining : Nat
  deriving Repr, DecidableEq

/-- `isotp_init`. -/
def isotpInit (txId : UInt32) : Isotp where
  txId := txId
  state := .idle
  rxBuf := []
  rxTotalLen := 0
  rxNextSeq := 0
  rxLastActivityMs := 0
  rxComplete := false
  txData := []
  txSentLen := 0
  txNextSeq := 0
  txPending := false
  txBlockRemaining := 0

/-- `len` bytes of memory from `off` on. -/
def bytesAt (data : List UInt8) (off len : Nat) : List UInt8 :=
  (List.range len).map fun i => data.getD (off + i) 0

/-- Four bytes, the most significant first. -/
def u32Be (b0 b1 b2 b3 : UInt8) : UInt32 :=
  (b0.toUInt32 <<< 24) ||| (b1.toUInt32 <<< 16) ||| (b2.toUInt32 <<< 8) |||
    b3.toUInt32

/-- The four bytes of a value, the most significant first. -/
def toU32Be (v : UInt32) : List UInt8 :=
  [(v >>> 24).toUInt8, (v >>> 16).toUInt8, (v >>> 8).toUInt8, v.toUInt8]

/-- The number of bytes a consecutive frame takes of what remains. -/
def cfChunk (remaining : Nat) : Nat :=
  if 63 < remaining then 63 else remaining

/-- A consecutive frame carries at most 63 bytes. -/
theorem cfChunk_le
    (remaining : Nat) :
    cfChunk remaining ≤ 63 := by
  unfold cfChunk
  split <;> omega

namespace Isotp

/-- The frame `send_fc` sends. -/
def fcFrame (g : Isotp) (status bs stmin : UInt8) : CanRawFrame where
  id := g.txId
  flags := canFlagFdf
  data := [isotpPciTypeFc ||| (status &&& 0x0F), bs, stmin]
  fits := by
    simp only [List.length_cons, List.length_nil, canMaxDlen]
    omega

/-- The consecutive frame `tx_send_block` sends next. -/
def cfFrame (g : Isotp) : CanRawFrame where
  id := g.txId
  flags := canFlagFdf
  data :=
    (isotpPciTypeCf ||| (g.txNextSeq &&& 0x0F)) ::
      (g.txData.drop g.txSentLen).take (cfChunk (g.txData.length - g.txSentLen))
  fits := by
    have chunk := cfChunk_le (g.txData.length - g.txSentLen)
    simp only [List.length_cons, List.length_take, canMaxDlen]
    omega

/-- The loop of `tx_send_block`, for the blocks that remain. -/
def txSendLoop : Nat → Isotp → Isotp × List CanRawFrame
  | 0, g => (g, [])
  | blocks + 1, g =>
      if g.txSentLen < g.txData.length then
        let (last, sent) :=
          txSendLoop blocks
            { g with
              txSentLen :=
                g.txSentLen + cfChunk (g.txData.length - g.txSentLen)
              txNextSeq := (g.txNextSeq + 1) &&& 0x0F
              txBlockRemaining := blocks }
        (last, g.cfFrame :: sent)
      else
        (g, [])

/-- `tx_send_block`. -/
def txSendBlock (g : Isotp) : Isotp × List CanRawFrame :=
  let (g, sent) := txSendLoop g.txBlockRemaining g
  if g.txData.length ≤ g.txSentLen then
    ({ g with txPending := false }, sent)
  else
    (g, sent)

/-- The single frame of a payload. -/
def sfFrame (g : Isotp) (buf : List UInt8) (short : buf.length ≤ 62) :
    CanRawFrame where
  id := g.txId
  flags := canFlagFdf
  data := isotpPciTypeSf :: buf.length.toUInt8 :: buf
  fits := by
    simp only [List.length_cons, canMaxDlen]
    omega

/-- The first frame of a payload. -/
def ffFrame (g : Isotp) (buf : List UInt8) : CanRawFrame where
  id := g.txId
  flags := canFlagFdf
  data :=
    isotpPciTypeFf :: toU32Be buf.length.toUInt32 ++ buf.take isotpFfInitialLen
  fits := by
    simp only [toU32Be, isotpFfInitialLen, List.length_append,
      List.length_cons, List.length_nil, List.length_take, canMaxDlen]
    omega

/-- `isotp_send`; the first component says that it returned 0. -/
def send (g : Isotp) (buf : List UInt8) :
    Bool × Isotp × List CanRawFrame :=
  if isotpMaxPayload < buf.length ∨ g.txPending = true then
    (false, g, [])
  else if short : buf.length ≤ 62 then
    (true, g, [g.sfFrame buf short])
  else
    (true,
      { g with
        txData := buf
        txSentLen := isotpFfInitialLen
        txNextSeq := 1
        txPending := true
        -- Nothing more until a flow-control CTS arrives.
        txBlockRemaining := 0 },
      [g.ffFrame buf])

/-- `handle_sf`. -/
def handleSf (g : Isotp) (data : List UInt8) : Isotp :=
  { g with
    rxBuf := bytesAt data 2 (data.getD 1 0).toNat
    rxComplete := true
    state := .rxComplete }

/-- `handle_ff`. -/
def handleFf (g : Isotp) (data : List UInt8) (nowMs : UInt32) :
    Isotp × List CanRawFrame :=
  let totalLen :=
    u32Be (data.getD 1 0) (data.getD 2 0) (data.getD 3 0) (data.getD 4 0)
  if isotpMaxPayload < totalLen.toNat then
    ({ g with state := .errorOverflow }, [])
  else
    ({ g with
        rxBuf := bytesAt data 5 isotpFfInitialLen
        rxTotalLen := totalLen
        rxNextSeq := 1
        rxLastActivityMs := nowMs
        state := .rxInProgress },
      [g.fcFrame isotpFcStatusCts isotpBlockSize isotpStminMs])

/-- `handle_cf`. -/
def handleCf (g : Isotp) (data : List UInt8) (nowMs : UInt32) : Isotp :=
  if g.state ≠ .rxInProgress then
    g
  else if data.getD 0 0 &&& 0x0F ≠ g.rxNextSeq then
    { g with state := .errorFlow }
  else
    let remainingNeeded := g.rxTotalLen - g.rxBuf.length.toUInt32
    let rxBuf := g.rxBuf ++ bytesAt data 1 (cfChunk remainingNeeded.toNat)
    let g :=
      { g with
        rxBuf := rxBuf
        rxNextSeq := (g.rxNextSeq + 1) &&& 0x0F
        rxLastActivityMs := nowMs }
    if g.rxTotalLen.toNat ≤ rxBuf.length then
      { g with rxComplete := true, state := .rxComplete }
    else
      g

/-- `handle_fc`. -/
def handleFc (g : Isotp) (data : List UInt8) : Isotp × List CanRawFrame :=
  if g.txPending = false then
    (g, [])
  else
    let status := data.getD 0 0 &&& 0x0F
    if status = isotpFcStatusCts then
      let bs := data.getD 1 0
      txSendBlock
        { g with txBlockRemaining := if bs = 0 then 0xFFFF else bs.toNat }
    else if status = isotpFcStatusOverflow then
      ({ g with txPending := false, state := .errorOverflow }, [])
    else
      -- WAIT: nothing to do until another FC arrives.
      (g, [])

/-- The `switch` of `isotp_poll`. -/
def handleFrame (g : Isotp) (data : List UInt8) (nowMs : UInt32) :
    Isotp × List CanRawFrame :=
  let type := data.getD 0 0 &&& 0xF0
  if type = isotpPciTypeSf then (g.handleSf data, [])
  else if type = isotpPciTypeFf then g.handleFf data nowMs
  else if type = isotpPciTypeCf then (g.handleCf data nowMs, [])
  else if type = isotpPciTypeFc then g.handleFc data
  else (g, [])

/-- The loop of `isotp_poll`; `data` is what the local frame holds so far. -/
def drain (nowMs : UInt32) :
    List UInt8 → List CanRawFrame → Isotp → Isotp × List CanRawFrame
  | _, [], g => (g, [])
  | data, frame :: rest, g =>
      let received := halRecv data frame
      let (g, sent) := g.handleFrame received nowMs
      let (g, later) := drain nowMs received rest g
      (g, sent ++ later)

/-- The end of `isotp_poll`: a reception that made no progress times out. -/
def expire (g : Isotp) (nowMs : UInt32) : Isotp :=
  if g.state = .rxInProgress ∧ isotpNCrMs ≤ nowMs - g.rxLastActivityMs then
    { g with state := .errorTimeout }
  else
    g

/-- `isotp_poll`, when `recv` gives these frames and then no more. -/
def poll
    (g : Isotp)
    (nowMs : UInt32)
    (stack : List UInt8)
    (frames : List CanRawFrame) :
    Isotp × List CanRawFrame :=
  let (g, sent) := drain nowMs stack frames g
  (g.expire nowMs, sent)

/-- `isotp_take_received`; `none` is false. -/
def takeReceived (g : Isotp) (bufCap : Nat) : Option (List UInt8) × Isotp :=
  if g.rxComplete = false then
    (none, g)
  else if bufCap < g.rxBuf.length then
    (none, g)
  else
    (some g.rxBuf, { g with rxComplete := false, state := .idle })

end Isotp

/-!
## Reading a frame
-/

/-- Memory that is there is read as it is. -/
theorem bytesAt_eq
    {data : List UInt8}
    {off len : Nat}
    (inside : off + len ≤ data.length) :
    bytesAt data off len = (data.drop off).take len := by
  apply List.ext_getElem
  · simp only [bytesAt, List.length_map, List.length_range, List.length_take,
      List.length_drop]
    omega
  · intro i inLeft _
    simp only [bytesAt, List.length_map, List.length_range] at inLeft
    have inData : off + i < data.length := by omega
    simp [bytesAt, List.getD_eq_getElem?_getD, inData]

/-- The bytes behind a known start, when the start is known. -/
theorem bytesAt_behind
    {start chunk data : List UInt8}
    (carried : start ++ chunk <+: data) :
    bytesAt data start.length chunk.length = chunk := by
  obtain ⟨tail, rfl⟩ := carried
  rw [bytesAt_eq (by simp)]
  simp

/-- The frame carries these bytes, and whatever it was padded with. -/
def Carries (bytes : List UInt8) (frame : CanRawFrame) : Prop :=
  bytes <+: frame.data

instance Carries.decidable
    (bytes : List UInt8)
    (frame : CanRawFrame) :
    Decidable (Carries bytes frame) :=
  inferInstanceAs (Decidable (bytes <+: frame.data))

/-- What a frame carries is what `hal_recv` puts first. -/
theorem halRecv_starts
    {bytes data : List UInt8}
    {frame : CanRawFrame}
    (carried : Carries bytes frame) :
    bytes <+: halRecv data frame :=
  carried.trans (List.prefix_append _ _)

/-- A byte of a known start. -/
theorem getD_of_start
    {bytes data : List UInt8}
    {i : Nat}
    (carried : bytes <+: data)
    (inside : i < bytes.length) :
    data.getD i 0 = bytes.getD i 0 := by
  obtain ⟨tail, rfl⟩ := carried
  rw [List.getD_eq_getElem?_getD, List.getD_eq_getElem?_getD,
    List.getElem?_append_left inside]

/-- The low four bits of a sequence number. -/
def seqNibble (seq : Nat) : UInt8 :=
  seq.toUInt8 &&& 0x0F

/-- The next sequence number, modulo 16. -/
theorem seqNibble_succ
    (seq : Nat) :
    (seqNibble seq + 1) &&& 0x0F = seqNibble (seq + 1) := by
  have low : ∀ n : Nat, n &&& 15 = n % 16 := fun n =>
    Nat.and_two_pow_sub_one_eq_mod n 4
  apply UInt8.toNat_inj.mp
  simp only [seqNibble, UInt8.toNat_and, UInt8.toNat_add, UInt8.toNat_ofNat,
    Nat.toUInt8_eq, UInt8.toNat_ofNat', Nat.reduceMod, Nat.reducePow, low]
  omega

/-- A sequence number fits the low half of a byte. -/
theorem seqNibble_low
    (seq : Nat) :
    seqNibble seq &&& 0x0F = seqNibble seq := by
  rw [seqNibble, UInt8.and_assoc, UInt8.and_self]

/-- The first byte of a consecutive frame: its type and its number. -/
theorem cfPci
    (seq : Nat) :
    (isotpPciTypeCf ||| seqNibble seq) &&& 0xF0 = isotpPciTypeCf ∧
      (isotpPciTypeCf ||| seqNibble seq) &&& 0x0F = seqNibble seq := by
  have distributes :
      ∀ byte mask : UInt8,
        (isotpPciTypeCf ||| byte) &&& mask =
          (isotpPciTypeCf &&& mask) ||| (byte &&& mask) := by
    intro byte mask
    apply UInt8.toBitVec_inj.mp
    exact BitVec.and_or_distrib_right
  have noHigh : seqNibble seq &&& 0xF0 = 0 := by
    rw [seqNibble, UInt8.and_assoc]
    exact UInt8.and_zero
  rw [distributes, distributes, noHigh, seqNibble_low]
  exact ⟨by decide, UInt8.zero_or⟩

/-- A number whose low bits are clear, or-ed with one below them. -/
private theorem or_below
    {high low bits : Nat}
    (fits : low < 2 ^ bits) :
    high * 2 ^ bits ||| low = high * 2 ^ bits + low := by
  rw [← Nat.shiftLeft_eq, Nat.shiftLeft_add_eq_or_of_lt fits]

/-- Reading four bytes as the source does gives the number they denote. -/
theorem u32Be_toNat
    (b0 b1 b2 b3 : UInt8) :
    (u32Be b0 b1 b2 b3).toNat =
      b0.toNat * 2 ^ 24 + b1.toNat * 2 ^ 16 + b2.toNat * 2 ^ 8 + b3.toNat := by
  have fits0 := b0.toNat_lt
  have fits1 := b1.toNat_lt
  have fits2 := b2.toNat_lt
  have fits3 := b3.toNat_lt
  have two :
      b0.toNat * 2 ^ 24 ||| b1.toNat * 2 ^ 16 =
        (b0.toNat * 2 ^ 8 + b1.toNat) * 2 ^ 16 := by
    rw [or_below (by omega)]
    ring
  have three :
      (b0.toNat * 2 ^ 8 + b1.toNat) * 2 ^ 16 ||| b2.toNat * 2 ^ 8 =
        (b0.toNat * 2 ^ 16 + b1.toNat * 2 ^ 8 + b2.toNat) * 2 ^ 8 := by
    rw [or_below (by omega)]
    ring
  have four :
      (b0.toNat * 2 ^ 16 + b1.toNat * 2 ^ 8 + b2.toNat) * 2 ^ 8 ||| b3.toNat =
        b0.toNat * 2 ^ 24 + b1.toNat * 2 ^ 16 + b2.toNat * 2 ^ 8 + b3.toNat := by
    rw [or_below (by omega)]
    ring
  have small :
      b0.toNat * 2 ^ 24 < 2 ^ 32 ∧ b1.toNat * 2 ^ 16 < 2 ^ 32 ∧
        b2.toNat * 2 ^ 8 < 2 ^ 32 := by
    omega
  have shifted :
      (b0.toUInt32 <<< 24).toNat = b0.toNat * 2 ^ 24 ∧
        (b1.toUInt32 <<< 16).toNat = b1.toNat * 2 ^ 16 ∧
          (b2.toUInt32 <<< 8).toNat = b2.toNat * 2 ^ 8 := by
    simp only [UInt32.toNat_shiftLeft, UInt8.toNat_toUInt32, Nat.shiftLeft_eq]
    exact ⟨Nat.mod_eq_of_lt small.1, Nat.mod_eq_of_lt small.2.1,
      Nat.mod_eq_of_lt small.2.2⟩
  rw [u32Be, UInt32.toNat_or, UInt32.toNat_or, UInt32.toNat_or, shifted.1,
    shifted.2.1, shifted.2.2, UInt8.toNat_toUInt32, two, three, four]

/-- Four bytes written and read back. -/
theorem u32Be_toU32Be
    (v : UInt32) :
    u32Be (v >>> 24).toUInt8 (v >>> 16).toUInt8 (v >>> 8).toUInt8 v.toUInt8 =
      v := by
  have bound := v.toNat_lt
  apply UInt32.toNat_inj.mp
  rw [u32Be_toNat]
  simp only [UInt32.toNat_toUInt8, UInt32.toNat_shiftRight,
    Nat.shiftRight_eq_div_pow, UInt32.toNat_ofNat, Nat.reduceMod,
    Nat.reducePow]
  omega

namespace Isotp

section Dispatch

variable {g : Isotp} {data : List UInt8} {nowMs : UInt32}

/-- A single frame goes to `handle_sf`. -/
theorem handleFrame_sf
    (type : data.getD 0 0 &&& 0xF0 = isotpPciTypeSf) :
    g.handleFrame data nowMs = (g.handleSf data, []) := by
  unfold handleFrame
  rw [if_pos type]

/-- A first frame goes to `handle_ff`. -/
theorem handleFrame_ff
    (type : data.getD 0 0 &&& 0xF0 = isotpPciTypeFf) :
    g.handleFrame data nowMs = g.handleFf data nowMs := by
  unfold handleFrame
  simp only [type]
  rfl

/-- A consecutive frame goes to `handle_cf`. -/
theorem handleFrame_cf
    (type : data.getD 0 0 &&& 0xF0 = isotpPciTypeCf) :
    g.handleFrame data nowMs = (g.handleCf data nowMs, []) := by
  unfold handleFrame
  simp only [type]
  rfl

/-- A flow-control frame goes to `handle_fc`. -/
theorem handleFrame_fc
    (type : data.getD 0 0 &&& 0xF0 = isotpPciTypeFc) :
    g.handleFrame data nowMs = g.handleFc data := by
  unfold handleFrame
  simp only [type]
  rfl

end Dispatch

/-!
## Reassembly
-/

/--
The receiver is inside `payload`: `rest` is still to come, from the frame with
sequence number `seq` on.
-/
structure Receiving
    (g : Isotp)
    (payload rest : List UInt8)
    (seq : Nat) : Prop where
  inProgress : g.state = .rxInProgress
  received : payload = g.rxBuf ++ rest
  missing : rest ≠ []
  total : g.rxTotalLen.toNat = payload.length
  next : g.rxNextSeq = seqNibble seq
  notComplete : g.rxComplete = false

/-- The receiver has the whole payload and nothing else. -/
structure Complete
    (g : Isotp)
    (payload : List UInt8) : Prop where
  state : g.state = .rxComplete
  received : g.rxBuf = payload
  complete : g.rxComplete = true

/-- Before a payload is complete there is nothing to take. -/
theorem takeReceived_nothing
    {g : Isotp}
    (notComplete : g.rxComplete = false)
    (bufCap : Nat) :
    g.takeReceived bufCap = (none, g) := by
  unfold takeReceived
  rw [if_pos notComplete]

/-- A complete payload is taken whole. -/
theorem Complete.takeReceived
    {g : Isotp}
    {payload : List UInt8}
    {bufCap : Nat}
    (complete : g.Complete payload)
    (room : payload.length ≤ bufCap) :
    g.takeReceived bufCap =
      (some payload, { g with rxComplete := false, state := .idle }) := by
  obtain ⟨-, received, isComplete⟩ := complete
  subst received
  unfold Isotp.takeReceived
  rw [if_neg (by simp [isComplete]), if_neg (Nat.not_lt.mpr room)]

/-- The part of a state that reception leaves alone. -/
structure SameTransmission (before after : Isotp) : Prop where
  txId : after.txId = before.txId
  txData : after.txData = before.txData
  txSentLen : after.txSentLen = before.txSentLen
  txNextSeq : after.txNextSeq = before.txNextSeq
  txPending : after.txPending = before.txPending
  txBlockRemaining : after.txBlockRemaining = before.txBlockRemaining

/-- The bytes of a single frame. -/
def sfBytes (payload : List UInt8) : List UInt8 :=
  isotpPciTypeSf :: payload.length.toUInt8 :: payload

/-- The bytes of a first frame. -/
def ffBytes (payload : List UInt8) : List UInt8 :=
  isotpPciTypeFf :: toU32Be payload.length.toUInt32 ++
    payload.take isotpFfInitialLen

/-- The bytes of a consecutive frame, when `rest` is still to be sent. -/
def cfBytes (seq : Nat) (rest : List UInt8) : List UInt8 :=
  (isotpPciTypeCf ||| seqNibble seq) :: rest.take 63

section Reassembly

variable
  {g : Isotp}
  {data payload rest : List UInt8}
  {seq : Nat}

/-- A single frame is a whole payload. -/
theorem handleFrame_sfBytes
    (short : payload.length ≤ 62)
    (carried : sfBytes payload <+: data)
    (nowMs : UInt32) :
    ∃ after,
      g.handleFrame data nowMs = (after, []) ∧
        after.Complete payload ∧ g.SameTransmission after := by
  have type : data.getD 0 0 = isotpPciTypeSf :=
    getD_of_start carried (by simp [sfBytes])
  have length : data.getD 1 0 = payload.length.toUInt8 :=
    getD_of_start carried (by simp [sfBytes])
  have size : (payload.length.toUInt8).toNat = payload.length := by
    simp only [Nat.toUInt8_eq, UInt8.toNat_ofNat']
    omega
  have chunk : bytesAt data 2 payload.length = payload :=
    @bytesAt_behind [isotpPciTypeSf, payload.length.toUInt8] payload data
      carried
  refine ⟨g.handleSf data, handleFrame_sf (by rw [type]; decide), ?_, ?_⟩
  · refine ⟨rfl, ?_, rfl⟩
    simp only [handleSf, length, size, chunk]
  · exact ⟨rfl, rfl, rfl, rfl, rfl, rfl⟩

/-- A first frame starts a reception and is answered by a CTS. -/
theorem handleFrame_ffBytes
    (long : 62 < payload.length)
    (fits : payload.length ≤ isotpMaxPayload)
    (carried : ffBytes payload <+: data)
    (notComplete : g.rxComplete = false)
    (nowMs : UInt32) :
    ∃ after,
      g.handleFrame data nowMs =
          (after, [g.fcFrame isotpFcStatusCts isotpBlockSize isotpStminMs]) ∧
        after.Receiving payload (payload.drop isotpFfInitialLen) 1 ∧
          after.rxLastActivityMs = nowMs ∧ g.SameTransmission after := by
  have total : (payload.length.toUInt32).toNat = payload.length := by
    unfold isotpMaxPayload at fits
    simp only [Nat.toUInt32_eq, UInt32.toNat_ofNat']
    omega
  have header :
      ∀ i < 5,
        data.getD i 0 =
          (isotpPciTypeFf :: toU32Be payload.length.toUInt32).getD i 0 := by
    intro i inside
    have early : isotpPciTypeFf :: toU32Be payload.length.toUInt32 <+: data :=
      (List.prefix_append _ _).trans carried
    exact getD_of_start early inside
  have type : data.getD 0 0 = isotpPciTypeFf := header 0 (by decide)
  have declared :
      u32Be (data.getD 1 0) (data.getD 2 0) (data.getD 3 0) (data.getD 4 0) =
        payload.length.toUInt32 := by
    rw [header 1 (by decide), header 2 (by decide), header 3 (by decide),
      header 4 (by decide)]
    exact u32Be_toU32Be _
  have initial :
      bytesAt data 5 isotpFfInitialLen = payload.take isotpFfInitialLen := by
    have length :
        (payload.take isotpFfInitialLen).length = isotpFfInitialLen := by
      rw [List.length_take]
      unfold isotpFfInitialLen
      omega
    have read :=
      @bytesAt_behind (isotpPciTypeFf :: toU32Be payload.length.toUInt32)
        (payload.take isotpFfInitialLen) data carried
    rw [length] at read
    exact read
  have accepted : ¬ isotpMaxPayload < (payload.length.toUInt32).toNat := by
    rw [total]
    exact Nat.not_lt.mpr fits
  have handled :
      g.handleFf data nowMs =
        ({ g with
            rxBuf := payload.take isotpFfInitialLen
            rxTotalLen := payload.length.toUInt32
            rxNextSeq := 1
            rxLastActivityMs := nowMs
            state := .rxInProgress },
          [g.fcFrame isotpFcStatusCts isotpBlockSize isotpStminMs]) := by
    simp only [handleFf, declared, accepted, if_false, initial]
  refine ⟨_, (handleFrame_ff (by rw [type]; decide)).trans handled, ?_, rfl, ?_⟩
  · have first : (1 : UInt8) = seqNibble 1 := by decide
    refine ⟨rfl, (List.take_append_drop _ _).symm, ?_, total, first,
      notComplete⟩
    intro nothing
    have length := congrArg List.length nothing
    simp only [List.length_drop, isotpFfInitialLen, List.length_nil] at length
    omega
  · exact ⟨rfl, rfl, rfl, rfl, rfl, rfl⟩

/-- The consecutive frame that is due adds its bytes. -/
theorem handleFrame_cfBytes
    (receiving : g.Receiving payload rest seq)
    (carried : cfBytes seq rest <+: data)
    (nowMs : UInt32) :
    ∃ after,
      g.handleFrame data nowMs = (after, []) ∧
        (if rest.length ≤ 63 then after.Complete payload
          else after.Receiving payload (rest.drop 63) (seq + 1)) ∧
          after.rxLastActivityMs = nowMs ∧ g.SameTransmission after := by
  obtain ⟨inProgress, received, missing, total, next, notComplete⟩ := receiving
  have pci : data.getD 0 0 = isotpPciTypeCf ||| seqNibble seq :=
    getD_of_start carried (by simp [cfBytes])
  have type : data.getD 0 0 &&& 0xF0 = isotpPciTypeCf := by
    rw [pci]
    exact (cfPci seq).1
  have due : data.getD 0 0 &&& 0x0F = g.rxNextSeq := by
    rw [pci, next]
    exact (cfPci seq).2
  have lengths : payload.length = g.rxBuf.length + rest.length := by
    rw [received, List.length_append]
  have remaining :
      (g.rxTotalLen - g.rxBuf.length.toUInt32).toNat = rest.length := by
    have bound := g.rxTotalLen.toNat_lt
    have size : (g.rxBuf.length.toUInt32).toNat = g.rxBuf.length := by
      simp only [Nat.toUInt32_eq, UInt32.toNat_ofNat']
      omega
    rw [UInt32.toNat_sub_of_le]
    · omega
    · rw [UInt32.le_iff_toNat_le]
      omega
  have chunkLength : (rest.take 63).length = cfChunk rest.length := by
    rw [List.length_take, cfChunk]
    split <;> omega
  have chunk : bytesAt data 1 (cfChunk rest.length) = rest.take 63 := by
    have read :=
      @bytesAt_behind [isotpPciTypeCf ||| seqNibble seq] (rest.take 63) data
        carried
    rw [chunkLength] at read
    exact read
  have grown : (g.rxBuf ++ rest.take 63).length =
      g.rxBuf.length + min 63 rest.length := by
    rw [List.length_append, List.length_take]
  refine ⟨g.handleCf data nowMs, handleFrame_cf type, ?_⟩
  have handled :
      g.handleCf data nowMs =
        if rest.length ≤ 63 then
          { g with
            rxBuf := payload
            rxNextSeq := (g.rxNextSeq + 1) &&& 0x0F
            rxLastActivityMs := nowMs
            rxComplete := true
            state := .rxComplete }
        else
          { g with
            rxBuf := g.rxBuf ++ rest.take 63
            rxNextSeq := (g.rxNextSeq + 1) &&& 0x0F
            rxLastActivityMs := nowMs } := by
    unfold handleCf
    rw [if_neg (not_not.mpr inProgress), if_neg (not_not.mpr due)]
    simp only [remaining, chunk, grown, total]
    by_cases last : rest.length ≤ 63
    · have whole : g.rxBuf ++ rest.take 63 = payload := by
        rw [List.take_of_length_le last, received]
      rw [if_pos last, if_pos (by omega), whole]
    · rw [if_neg last, if_neg (by omega)]
  rw [handled]
  by_cases last : rest.length ≤ 63
  · rw [if_pos last, if_pos last]
    exact ⟨⟨rfl, rfl, rfl⟩, rfl, ⟨rfl, rfl, rfl, rfl, rfl, rfl⟩⟩
  · rw [if_neg last, if_neg last]
    refine ⟨⟨inProgress, ?_, ?_, total, ?_, notComplete⟩, rfl,
      ⟨rfl, rfl, rfl, rfl, rfl, rfl⟩⟩
    · rw [List.append_assoc, List.take_append_drop]
      exact received
    · intro nothing
      have length := congrArg List.length nothing
      simp only [List.length_drop, List.length_nil] at length
      omega
    · show (g.rxNextSeq + 1) &&& 0x0F = seqNibble (seq + 1)
      rw [next, seqNibble_succ]

end Reassembly

end Isotp

end TraveoBodyDomain
