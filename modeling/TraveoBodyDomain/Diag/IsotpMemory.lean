import TraveoBodyDomain.Diag.IsotpRun
import TraveoBodyDomain.Lib.FixedBuffer

/-!
# The transport in memory

`isotp.c` with its memory as it is: `g_rx_buf` and `g_tx_data` have
`ISOTP_MAX_PAYLOAD` bytes, a frame has a data field of 64, and running totals
are 32 bits wide.  Every `memcpy` of the module is a checked copy; a function
returns `none` when one of its copies is out of range, and the run stops there.

While the run goes on, the memory does what `Isotp` does.
-/

namespace TraveoBodyDomain

/-- The data field of a `can_raw_frame_t`. -/
abbrev CanData :=
  FixedBuffer UInt8 canMaxDlen

/-- The first `len` bytes of a data field, as a frame to send. -/
def canFrame (id : UInt32) (data : CanData) (len : Nat) : CanRawFrame where
  id := id
  flags := canFlagFdf
  data := data.cells.take len
  fits := by
    rw [List.length_take, data.sized]
    exact Nat.min_le_right len canMaxDlen

/-- `hal_recv` into a data field. -/
def CanData.recv (data : CanData) (frame : CanRawFrame) : CanData :=
  data.overwrite frame.data frame.fits

/-- The static variables of `isotp.c` and its two buffers. -/
structure IsotpMem where
  txId : UInt32
  state : IsotpState
  rxBuf : FixedBuffer UInt8 isotpMaxPayload
  rxTotalLen : UInt32
  rxReceivedLen : UInt32
  rxNextSeq : UInt8
  rxLastActivityMs : UInt32
  rxComplete : Bool
  txData : FixedBuffer UInt8 isotpMaxPayload
  txTotalLen : UInt32
  txSentLen : UInt32
  txNextSeq : UInt8
  txPending : Bool
  txBlockRemaining : Nat

namespace IsotpMem

/-- `isotp_init`, which leaves the two buffers as they are. -/
def init
    (rxBuf txData : FixedBuffer UInt8 isotpMaxPayload)
    (txId : UInt32) :
    IsotpMem where
  txId := txId
  state := .idle
  rxBuf := rxBuf
  rxTotalLen := 0
  rxReceivedLen := 0
  rxNextSeq := 0
  rxLastActivityMs := 0
  rxComplete := false
  txData := txData
  txTotalLen := 0
  txSentLen := 0
  txNextSeq := 0
  txPending := false
  txBlockRemaining := 0

/-- `memset(&f, 0, sizeof f)`, the data field. -/
def cleared : CanData :=
  FixedBuffer.filled canMaxDlen 0

/-- The frame `send_fc` sends. -/
def fcFrame (g : IsotpMem) (status bs stmin : UInt8) : CanRawFrame :=
  let data := cleared.store 0 (isotpPciTypeFc ||| (status &&& 0x0F))
  let data := data.store 1 bs
  let data := data.store 2 stmin
  canFrame g.txId data 3

/--
The consecutive frame `tx_send_block` sends next.  Only the first
`g_tx_total_len` bytes of `g_tx_data` are being sent.
-/
def cfFrame (g : IsotpMem) (chunk : Nat) : Option CanRawFrame := do
  let data := cleared.store 0 (isotpPciTypeCf ||| (g.txNextSeq &&& 0x0F))
  let sending := g.txData.cells.take g.txTotalLen.toNat
  let data ← data.copy 1 sending g.txSentLen.toNat chunk
  some (canFrame g.txId data (1 + chunk))

/-- The loop of `tx_send_block`, for the blocks that remain. -/
def txSendLoop : Nat → IsotpMem → Option (IsotpMem × List CanRawFrame)
  | 0, g => some (g, [])
  | blocks + 1, g =>
      if g.txSentLen < g.txTotalLen then do
        let remaining := g.txTotalLen - g.txSentLen
        let chunk := cfChunk remaining.toNat
        let frame ← g.cfFrame chunk
        let (last, sent) ←
          txSendLoop blocks
            { g with
              txSentLen := g.txSentLen + chunk.toUInt32
              txNextSeq := (g.txNextSeq + 1) &&& 0x0F
              txBlockRemaining := blocks }
        some (last, frame :: sent)
      else
        some (g, [])

/-- `tx_send_block`. -/
def txSendBlock (g : IsotpMem) : Option (IsotpMem × List CanRawFrame) := do
  let (g, sent) ← txSendLoop g.txBlockRemaining g
  if g.txTotalLen ≤ g.txSentLen then
    some ({ g with txPending := false }, sent)
  else
    some (g, sent)

/-- The data field of a first frame before its payload is copied. -/
def ffHeader (totalLen : UInt32) : CanData :=
  let data := cleared.store 0 isotpPciTypeFf
  let data := data.store 1 (totalLen >>> 24).toUInt8
  let data := data.store 2 (totalLen >>> 16).toUInt8
  let data := data.store 3 (totalLen >>> 8).toUInt8
  data.store 4 totalLen.toUInt8

/-- `isotp_send`; the first component says that it returned 0. -/
def send (g : IsotpMem) (buf : List UInt8) :
    Option (Bool × IsotpMem × List CanRawFrame) :=
  if isotpMaxPayload < buf.length ∨ g.txPending = true then
    some (false, g, [])
  else if buf.length ≤ 62 then do
    let data := cleared.store 0 isotpPciTypeSf
    let data := data.store 1 buf.length.toUInt8
    let data ← data.copy 2 buf 0 buf.length
    some (true, g, [canFrame g.txId data (2 + buf.length)])
  else do
    let txData ← g.txData.copy 0 buf 0 buf.length
    let totalLen := buf.length.toUInt32
    let data ← (ffHeader totalLen).copy 5 txData.cells 0 isotpFfInitialLen
    some
      (true,
        { g with
          txData := txData
          txTotalLen := totalLen
          txSentLen := isotpFfInitialLen.toUInt32
          txNextSeq := 1
          txPending := true
          txBlockRemaining := 0 },
        [canFrame g.txId data (5 + isotpFfInitialLen)])

/-- `handle_sf`. -/
def handleSf (g : IsotpMem) (f : CanData) : Option IsotpMem := do
  let len := f.cells.getD 1 0
  let rxBuf ← g.rxBuf.copy 0 f.cells 2 len.toNat
  some
    { g with
      rxBuf := rxBuf
      rxReceivedLen := len.toUInt32
      rxComplete := true
      state := .rxComplete }

/-- `handle_ff`. -/
def handleFf (g : IsotpMem) (f : CanData) (nowMs : UInt32) :
    Option (IsotpMem × List CanRawFrame) :=
  let totalLen :=
    u32Be (f.cells.getD 1 0) (f.cells.getD 2 0) (f.cells.getD 3 0)
      (f.cells.getD 4 0)
  if isotpMaxPayload < totalLen.toNat then
    some ({ g with state := .errorOverflow }, [])
  else do
    let rxBuf ← g.rxBuf.copy 0 f.cells 5 isotpFfInitialLen
    some
      ({ g with
          rxBuf := rxBuf
          rxReceivedLen := isotpFfInitialLen.toUInt32
          rxTotalLen := totalLen
          rxNextSeq := 1
          rxLastActivityMs := nowMs
          state := .rxInProgress },
        [g.fcFrame isotpFcStatusCts isotpBlockSize isotpStminMs])

/-- `handle_cf`. -/
def handleCf (g : IsotpMem) (f : CanData) (nowMs : UInt32) :
    Option IsotpMem :=
  if g.state ≠ .rxInProgress then
    some g
  else if f.cells.getD 0 0 &&& 0x0F ≠ g.rxNextSeq then
    some { g with state := .errorFlow }
  else do
    -- Wraps when a first frame declared less than its own payload.
    let remainingNeeded := g.rxTotalLen - g.rxReceivedLen
    let payloadLen := cfChunk remainingNeeded.toNat
    let rxBuf ← g.rxBuf.copy g.rxReceivedLen.toNat f.cells 1 payloadLen
    let g :=
      { g with
        rxBuf := rxBuf
        rxReceivedLen := g.rxReceivedLen + payloadLen.toUInt32
        rxNextSeq := (g.rxNextSeq + 1) &&& 0x0F
        rxLastActivityMs := nowMs }
    if g.rxTotalLen ≤ g.rxReceivedLen then
      some { g with rxComplete := true, state := .rxComplete }
    else
      some g

/-- `handle_fc`. -/
def handleFc (g : IsotpMem) (f : CanData) :
    Option (IsotpMem × List CanRawFrame) :=
  if g.txPending = false then
    some (g, [])
  else
    let status := f.cells.getD 0 0 &&& 0x0F
    if status = isotpFcStatusCts then
      let bs := f.cells.getD 1 0
      txSendBlock
        { g with txBlockRemaining := if bs = 0 then 0xFFFF else bs.toNat }
    else if status = isotpFcStatusOverflow then
      some ({ g with txPending := false, state := .errorOverflow }, [])
    else
      some (g, [])

/-- The `switch` of `isotp_poll`. -/
def handleFrame (g : IsotpMem) (f : CanData) (nowMs : UInt32) :
    Option (IsotpMem × List CanRawFrame) :=
  let type := f.cells.getD 0 0 &&& 0xF0
  if type = isotpPciTypeSf then
    (g.handleSf f).map fun g => (g, [])
  else if type = isotpPciTypeFf then
    g.handleFf f nowMs
  else if type = isotpPciTypeCf then
    (g.handleCf f nowMs).map fun g => (g, [])
  else if type = isotpPciTypeFc then
    g.handleFc f
  else
    some (g, [])

/-- The loop of `isotp_poll`; `f` is the local frame. -/
def drain (nowMs : UInt32) :
    CanData → List CanRawFrame → IsotpMem →
      Option (IsotpMem × List CanRawFrame)
  | _, [], g => some (g, [])
  | f, frame :: rest, g => do
      let (g, sent) ← g.handleFrame (f.recv frame) nowMs
      let (g, later) ← drain nowMs (f.recv frame) rest g
      some (g, sent ++ later)

/-- The end of `isotp_poll`. -/
def expire (g : IsotpMem) (nowMs : UInt32) : IsotpMem :=
  if g.state = .rxInProgress ∧ isotpNCrMs ≤ nowMs - g.rxLastActivityMs then
    { g with state := .errorTimeout }
  else
    g

/-- `isotp_poll`, when `recv` gives these frames and then no more. -/
def poll
    (g : IsotpMem)
    (nowMs : UInt32)
    (f : CanData)
    (frames : List CanRawFrame) :
    Option (IsotpMem × List CanRawFrame) := do
  let (g, sent) ← drain nowMs f frames g
  some (g.expire nowMs, sent)

/-- `isotp_take_received` into a buffer of `bufCap` bytes. -/
def takeReceived (g : IsotpMem) (bufCap : Nat) :
    Option (Option (List UInt8) × IsotpMem) :=
  if g.rxComplete = false then
    some (none, g)
  else if bufCap < g.rxReceivedLen.toNat then
    some (none, g)
  else do
    let buf := FixedBuffer.filled bufCap 0
    let buf ← buf.copy 0 g.rxBuf.cells 0 g.rxReceivedLen.toNat
    some
      (some (buf.cells.take g.rxReceivedLen.toNat),
        { g with rxComplete := false, state := .idle })

/-!
## What the memory stands for
-/

/-- The transport, its buffers cut to the bytes in use. -/
def transport (g : IsotpMem) : Isotp where
  txId := g.txId
  state := g.state
  rxBuf := g.rxBuf.cells.take g.rxReceivedLen.toNat
  rxTotalLen := g.rxTotalLen
  rxNextSeq := g.rxNextSeq
  rxLastActivityMs := g.rxLastActivityMs
  rxComplete := g.rxComplete
  txData := g.txData.cells.take g.txTotalLen.toNat
  txSentLen := g.txSentLen.toNat
  txNextSeq := g.txNextSeq
  txPending := g.txPending
  txBlockRemaining := g.txBlockRemaining

/--
The running totals stay inside the buffers.  A reception in progress has the
payload of its first frame, even where less was declared, or less than what was
declared.
-/
structure Bounded (g : IsotpMem) : Prop where
  received : g.rxReceivedLen.toNat ≤ isotpMaxPayload
  progress :
    g.state = .rxInProgress →
      g.rxTotalLen.toNat ≤ isotpMaxPayload ∧
        (g.rxReceivedLen.toNat = isotpFfInitialLen ∨
          g.rxReceivedLen.toNat < g.rxTotalLen.toNat)
  sending : g.txTotalLen.toNat ≤ isotpMaxPayload

/-- Without a reception in progress the lengths are bounded by themselves. -/
theorem bounded_of_stopped
    {g : IsotpMem}
    (stopped : decide (g.state = .rxInProgress) = false)
    (received : g.rxReceivedLen.toNat ≤ isotpMaxPayload)
    (sending : g.txTotalLen.toNat ≤ isotpMaxPayload) :
    g.Bounded where
  received := received
  progress := fun receiving => absurd receiving (of_decide_eq_false stopped)
  sending := sending

/-- A memory after `isotp_init` is bounded. -/
theorem bounded_init
    (rxBuf txData : FixedBuffer UInt8 isotpMaxPayload)
    (txId : UInt32) :
    (init rxBuf txData txId).Bounded :=
  bounded_of_stopped rfl (Nat.zero_le _) (Nat.zero_le _)

section Lengths

variable {g : IsotpMem}

/-- As many bytes are in use as were received. -/
theorem Bounded.rxBuf_length
    (bounded : g.Bounded) :
    g.transport.rxBuf.length = g.rxReceivedLen.toNat := by
  rw [transport, List.length_take, g.rxBuf.sized]
  exact Nat.min_eq_left bounded.received

/-- As many bytes are in use as are being sent. -/
theorem Bounded.txData_length
    (bounded : g.Bounded) :
    g.transport.txData.length = g.txTotalLen.toNat := by
  rw [transport, List.length_take, g.txData.sized]
  exact Nat.min_eq_left bounded.sending

end Lengths

/-- The memory function succeeds, and does what the transport's does. -/
def Performs
    (performed : Option (IsotpMem × List CanRawFrame))
    (expected : Isotp × List CanRawFrame) : Prop :=
  ∃ g sent,
    performed = some (g, sent) ∧ g.Bounded ∧ (g.transport, sent) = expected

/-- The first part succeeds, and so does what comes after it. -/
theorem Performs.bind
    {performed : Option (IsotpMem × List CanRawFrame)}
    {expected expectedLast : Isotp × List CanRawFrame}
    {next : IsotpMem × List CanRawFrame → Option (IsotpMem × List CanRawFrame)}
    (first : Performs performed expected)
    (follows :
      ∀ g sent,
        g.Bounded →
          (g.transport, sent) = expected →
            Performs (next (g, sent)) expectedLast) :
    Performs (performed >>= next) expectedLast := by
  obtain ⟨g, sent, rfl, bounded, same⟩ := first
  exact follows g sent bounded same

/-!
## Transmission
-/

/-- A chunk is no more than what remains. -/
theorem cfChunk_le_remaining
    (remaining : Nat) :
    cfChunk remaining ≤ remaining := by
  unfold cfChunk
  split <;> omega

/-- A chunk, counted in 32 bits. -/
theorem cfChunk_toUInt32
    (remaining : Nat) :
    (cfChunk remaining).toUInt32.toNat = cfChunk remaining := by
  have chunk := cfChunk_le remaining
  rw [Nat.toUInt32_eq, UInt32.toNat_ofNat']
  omega

/-- A data field holds the bytes of a frame. -/
theorem canFrame_eq
    {data : CanData}
    {len : Nat}
    {frame : CanRawFrame}
    (flags : frame.flags = canFlagFdf)
    (bytes : data.cells.take len = frame.data) :
    canFrame frame.id data len = frame := by
  cases frame
  subst flags bytes
  rfl

section Sending

variable {g : IsotpMem}

/-- What remains to be sent is what remains of the bytes being sent. -/
theorem Bounded.remaining
    (bounded : g.Bounded)
    (more : g.txSentLen < g.txTotalLen) :
    (g.txTotalLen - g.txSentLen).toNat =
      g.transport.txData.length - g.transport.txSentLen := by
  rw [UInt32.toNat_sub_of_le _ _ (UInt32.le_of_lt more), bounded.txData_length]
  rfl

/-- The chunk that is copied is inside the bytes being sent, and the frame. -/
theorem Bounded.cfFrame
    (bounded : g.Bounded)
    (more : g.txSentLen < g.txTotalLen) :
    g.cfFrame (cfChunk (g.txTotalLen - g.txSentLen).toNat) =
      some g.transport.cfFrame := by
  have behind := UInt32.lt_iff_toNat_lt.mp more
  have size := bounded.txData_length
  rw [bounded.remaining more]
  have fits := cfChunk_le (g.transport.txData.length - g.transport.txSentLen)
  have inside :=
    cfChunk_le_remaining (g.transport.txData.length - g.transport.txSentLen)
  have sent : g.transport.txSentLen = g.txSentLen.toNat := rfl
  obtain ⟨data, copied, cells⟩ :=
    @FixedBuffer.copy_of_inRange _ canMaxDlen
      (cleared.store 0 (isotpPciTypeCf ||| (g.txNextSeq &&& 0x0F))) 1
      g.transport.txSentLen
      (cfChunk (g.transport.txData.length - g.transport.txSentLen))
      g.transport.txData
      ⟨by omega, by unfold canMaxDlen; omega⟩
  have frame :
      canFrame g.txId data
          (1 + cfChunk (g.transport.txData.length - g.transport.txSentLen)) =
        g.transport.cfFrame :=
    @canFrame_eq _ _ g.transport.cfFrame rfl cells
  unfold IsotpMem.cfFrame
  change (FixedBuffer.copy _ 1 g.transport.txData _ _).bind _ = _
  rw [← frame, sent] at *
  rw [copied]
  rfl

/-- The running total after a chunk, in 32 bits. -/
theorem Bounded.advanced
    (bounded : g.Bounded)
    (more : g.txSentLen < g.txTotalLen) :
    (g.txSentLen +
        (cfChunk (g.txTotalLen - g.txSentLen).toNat).toUInt32).toNat =
      g.transport.txSentLen +
        cfChunk (g.transport.txData.length - g.transport.txSentLen) := by
  have behind := UInt32.lt_iff_toNat_lt.mp more
  have size := bounded.txData_length
  have sent : g.transport.txSentLen = g.txSentLen.toNat := rfl
  have inside :=
    cfChunk_le_remaining (g.transport.txData.length - g.transport.txSentLen)
  have total : g.txTotalLen.toNat < UInt32.size := g.txTotalLen.toNat_lt
  unfold UInt32.size at total
  rw [UInt32.toNat_add, cfChunk_toUInt32, bounded.remaining more]
  omega

/-- The loop of `tx_send_block` makes no copy out of range. -/
theorem Bounded.txSendLoop
    (bounded : g.Bounded)
    (blocks : Nat) :
    Performs (txSendLoop blocks g) (Isotp.txSendLoop blocks g.transport) := by
  induction blocks generalizing g with
  | zero =>
      exact ⟨g, [], rfl, bounded, rfl⟩
  | succ blocks inductionHypothesis =>
      have size := bounded.txData_length
      unfold IsotpMem.txSendLoop Isotp.txSendLoop
      by_cases more : g.txSentLen < g.txTotalLen
      · let next : IsotpMem :=
          { g with
            txSentLen :=
              g.txSentLen +
                (cfChunk (g.txTotalLen - g.txSentLen).toNat).toUInt32
            txNextSeq := (g.txNextSeq + 1) &&& 0x0F
            txBlockRemaining := blocks }
        have moved :
            next.transport =
              { g.transport with
                txSentLen :=
                  g.transport.txSentLen +
                    cfChunk
                      (g.transport.txData.length - g.transport.txSentLen)
                txNextSeq := (g.transport.txNextSeq + 1) &&& 0x0F
                txBlockRemaining := blocks } :=
          congrArg
            (fun sent : Nat =>
              { g.transport with
                txSentLen := sent
                txNextSeq := (g.transport.txNextSeq + 1) &&& 0x0F
                txBlockRemaining := blocks })
            (bounded.advanced more)
        obtain ⟨last, later, performed, lastBounded, same⟩ :=
          @inductionHypothesis next
            ⟨bounded.received, bounded.progress, bounded.sending⟩
        have behind : g.transport.txSentLen < g.transport.txData.length := by
          rw [size]
          exact UInt32.lt_iff_toNat_lt.mp more
        rw [moved] at same
        rw [if_pos more, if_pos behind]
        refine ⟨last, g.transport.cfFrame :: later, ?_, lastBounded, ?_⟩
        · change
            (g.cfFrame (cfChunk (g.txTotalLen - g.txSentLen).toNat)).bind _ = _
          rw [bounded.cfFrame more]
          change (IsotpMem.txSendLoop blocks next).bind _ = _
          rw [performed]
          rfl
        · exact
            congrArg
              (fun result : Isotp × List CanRawFrame =>
                (result.1, g.transport.cfFrame :: result.2))
              same
      · have done : ¬ g.transport.txSentLen < g.transport.txData.length := by
          rw [size]
          exact fun behind => more (UInt32.lt_iff_toNat_lt.mpr behind)
        rw [if_neg more, if_neg done]
        exact ⟨g, [], rfl, bounded, rfl⟩

/-- `tx_send_block` makes no copy out of range. -/
theorem Bounded.txSendBlock
    (bounded : g.Bounded) :
    Performs g.txSendBlock g.transport.txSendBlock := by
  unfold IsotpMem.txSendBlock Isotp.txSendBlock
  refine (bounded.txSendLoop g.txBlockRemaining).bind ?_
  intro last sent lastBounded same
  have size := lastBounded.txData_length
  have read : g.transport.txBlockRemaining = g.txBlockRemaining := rfl
  rw [read, ← same]
  dsimp only
  by_cases done : last.txTotalLen ≤ last.txSentLen
  · have reached : last.transport.txData.length ≤ last.transport.txSentLen := by
      rw [size]
      exact UInt32.le_iff_toNat_le.mp done
    rw [if_pos done, if_pos reached]
    exact
      ⟨{ last with txPending := false }, sent, rfl,
        ⟨lastBounded.received, lastBounded.progress, lastBounded.sending⟩, rfl⟩
  · have short : ¬ last.transport.txData.length ≤ last.transport.txSentLen := by
      rw [size]
      exact fun reached => done (UInt32.le_iff_toNat_le.mpr reached)
    rw [if_neg done, if_neg short]
    exact ⟨last, sent, rfl, lastBounded, rfl⟩

/-- `handle_fc` makes no copy out of range. -/
theorem Bounded.handleFc
    (bounded : g.Bounded)
    (f : CanData) :
    Performs (g.handleFc f) (g.transport.handleFc f.cells) := by
  unfold IsotpMem.handleFc Isotp.handleFc
  have read : g.transport.txPending = g.txPending := rfl
  rw [read]
  split
  next => exact ⟨g, [], rfl, bounded, rfl⟩
  next =>
    dsimp only
    split
    next =>
      exact
        @Bounded.txSendBlock
          { g with
            txBlockRemaining :=
              if f.cells.getD 1 0 = 0 then 0xFFFF
              else (f.cells.getD 1 0).toNat }
          ⟨bounded.received, bounded.progress, bounded.sending⟩
    next =>
      split
      next =>
        exact
          ⟨{ g with txPending := false, state := .errorOverflow }, [], rfl,
            bounded_of_stopped rfl bounded.received bounded.sending,
            rfl⟩
      next => exact ⟨g, [], rfl, bounded, rfl⟩

end Sending

/-!
## Reception
-/

/--
The length byte of a single frame stays inside the frame, as
`isotp_types.h` has it: 0 to 62.
-/
def SingleFrameFits (f : CanData) : Prop :=
  f.cells.getD 0 0 &&& 0xF0 = isotpPciTypeSf → (f.cells.getD 1 0).toNat ≤ 62

instance SingleFrameFits.decidable (f : CanData) :
    Decidable (SingleFrameFits f) :=
  inferInstanceAs (Decidable (_ → _))

section Receiving

variable {g : IsotpMem} {f : CanData} {nowMs : UInt32}

/-- A copy from the frame to the buffer, and what it leaves there. -/
theorem copyPayload
    (buf : FixedBuffer UInt8 isotpMaxPayload)
    {off src len : Nat}
    (reads : src + len ≤ canMaxDlen)
    (writes : off + len ≤ isotpMaxPayload) :
    ∃ after,
      buf.copy off f.cells src len = some after ∧
        after.cells.take (off + len) =
          buf.cells.take off ++ bytesAt f.cells src len := by
  have inside : src + len ≤ f.cells.length := by
    rw [f.sized]
    exact reads
  rw [bytesAt_eq inside]
  exact FixedBuffer.copy_of_inRange ⟨inside, writes⟩

/-- `handle_sf` copies what its length byte asks for. -/
theorem Bounded.handleSf
    (bounded : g.Bounded)
    (fits : (f.cells.getD 1 0).toNat ≤ 62) :
    Performs ((g.handleSf f).map fun g => (g, []))
      (g.transport.handleSf f.cells, []) := by
  obtain ⟨rxBuf, copied, cells⟩ :=
    @copyPayload f g.rxBuf 0 2 (f.cells.getD 1 0).toNat
      (by unfold canMaxDlen; omega) (by unfold isotpMaxPayload; omega)
  rw [List.take_zero, List.nil_append, Nat.zero_add] at cells
  have length := UInt8.toNat_toUInt32 (f.cells.getD 1 0)
  let after : IsotpMem :=
    { g with
      rxBuf := rxBuf
      rxReceivedLen := (f.cells.getD 1 0).toUInt32
      rxComplete := true
      state := .rxComplete }
  have short : after.rxReceivedLen.toNat ≤ isotpMaxPayload := by
    rw [length]
    unfold isotpMaxPayload
    omega
  refine
    ⟨after, [], ?_, bounded_of_stopped rfl short bounded.sending, ?_⟩
  · unfold IsotpMem.handleSf
    dsimp only
    rw [copied]
    rfl
  · unfold Isotp.handleSf
    rw [← cells, ← length]
    rfl

/-- A length byte of more than 62 reads behind the frame. -/
theorem handleSf_eq_none
    (long : ¬ (f.cells.getD 1 0).toNat ≤ 62) :
    g.handleSf f = none := by
  have refused :
      g.rxBuf.copy 0 f.cells 2 (f.cells.getD 1 0).toNat = none := by
    refine FixedBuffer.copy_eq_none.mpr ?_
    rintro ⟨reads, -⟩
    rw [f.sized] at reads
    unfold canMaxDlen at reads
    omega
  unfold IsotpMem.handleSf
  dsimp only
  rw [refused]
  rfl

/-- `handle_ff` copies the payload of a whole first frame. -/
theorem Bounded.handleFf
    (bounded : g.Bounded) :
    Performs (g.handleFf f nowMs) (g.transport.handleFf f.cells nowMs) := by
  obtain ⟨rxBuf, copied, cells⟩ :=
    @copyPayload f g.rxBuf 0 5 isotpFfInitialLen (by decide) (by decide)
  rw [List.take_zero, List.nil_append, Nat.zero_add] at cells
  unfold IsotpMem.handleFf Isotp.handleFf
  dsimp only
  split
  next =>
    exact
      ⟨{ g with state := .errorOverflow }, [], rfl,
        bounded_of_stopped rfl bounded.received bounded.sending, rfl⟩
  next accepted =>
    let after : IsotpMem :=
      { g with
        rxBuf := rxBuf
        rxReceivedLen := isotpFfInitialLen.toUInt32
        rxTotalLen :=
          u32Be (f.cells.getD 1 0) (f.cells.getD 2 0) (f.cells.getD 3 0)
            (f.cells.getD 4 0)
        rxNextSeq := 1
        rxLastActivityMs := nowMs
        state := .rxInProgress }
    have length : after.rxReceivedLen.toNat = isotpFfInitialLen :=
      (by decide : isotpFfInitialLen.toUInt32.toNat = isotpFfInitialLen)
    have grant :
        g.fcFrame isotpFcStatusCts isotpBlockSize isotpStminMs =
          g.transport.fcFrame isotpFcStatusCts isotpBlockSize isotpStminMs :=
      @canFrame_eq _ _
        (g.transport.fcFrame isotpFcStatusCts isotpBlockSize isotpStminMs)
        rfl rfl
    refine
      ⟨after, [g.fcFrame isotpFcStatusCts isotpBlockSize isotpStminMs], ?_,
        ⟨by rw [length]; decide,
          fun _ => ⟨Nat.le_of_not_lt accepted, Or.inl length⟩,
          bounded.sending⟩,
        ?_⟩
    · rw [copied]
      rfl
    · rw [grant, ← cells, ← length]
      rfl

/-- What a consecutive frame adds stays inside the buffer. -/
theorem Bounded.consecutive
    (bounded : g.Bounded)
    (receiving : g.state = .rxInProgress) :
    let chunk := cfChunk (g.rxTotalLen - g.rxReceivedLen).toNat
    g.rxReceivedLen.toNat + chunk ≤ isotpMaxPayload ∧
      (g.rxReceivedLen + chunk.toUInt32).toNat =
        g.rxReceivedLen.toNat + chunk := by
  intro chunk
  have most : chunk ≤ 63 := cfChunk_le _
  have counted : chunk.toUInt32.toNat = chunk := cfChunk_toUInt32 _
  obtain ⟨total, initial | missing⟩ := bounded.progress receiving
  · -- Whatever was declared, the payloads of two frames fit.
    have inside : g.rxReceivedLen.toNat + chunk ≤ isotpMaxPayload := by
      rw [initial]
      unfold isotpFfInitialLen isotpMaxPayload
      omega
    refine ⟨inside, ?_⟩
    unfold isotpMaxPayload at inside
    rw [UInt32.toNat_add, counted]
    omega
  · have needed : chunk ≤ g.rxTotalLen.toNat - g.rxReceivedLen.toNat := by
      rw [← UInt32.toNat_sub_of_le _ _
        (UInt32.le_iff_toNat_le.mpr (Nat.le_of_lt missing))]
      exact cfChunk_le_remaining _
    have inside : g.rxReceivedLen.toNat + chunk ≤ isotpMaxPayload := by omega
    refine ⟨inside, ?_⟩
    unfold isotpMaxPayload at inside
    rw [UInt32.toNat_add, counted]
    omega

/-- The copy of a consecutive frame, and the message after it. -/
theorem Bounded.cfPayload
    (bounded : g.Bounded)
    (receiving : g.state = .rxInProgress) :
    let chunk := cfChunk (g.rxTotalLen - g.rxReceivedLen).toNat
    let received := (g.rxReceivedLen + chunk.toUInt32).toNat
    ∃ rxBuf,
      g.rxBuf.copy g.rxReceivedLen.toNat f.cells 1 chunk = some rxBuf ∧
        received ≤ isotpMaxPayload ∧
        g.transport.rxBuf ++ bytesAt f.cells 1 chunk =
          rxBuf.cells.take received ∧
        (rxBuf.cells.take received).length = received := by
  intro chunk received
  obtain ⟨inside, advanced⟩ := bounded.consecutive receiving
  have most : chunk ≤ 63 := cfChunk_le _
  obtain ⟨rxBuf, copied, cells⟩ :=
    @copyPayload f g.rxBuf g.rxReceivedLen.toNat 1 chunk
      (by unfold canMaxDlen; omega) inside
  rw [← advanced] at cells inside
  refine ⟨rxBuf, copied, inside, cells.symm, ?_⟩
  rw [List.length_take, rxBuf.sized]
  exact Nat.min_eq_left inside

/-- `handle_cf` makes no copy out of range. -/
theorem Bounded.handleCf
    (bounded : g.Bounded) :
    Performs ((g.handleCf f nowMs).map fun g => (g, []))
      (g.transport.handleCf f.cells nowMs, []) := by
  unfold IsotpMem.handleCf Isotp.handleCf
  have state : g.transport.state = g.state := rfl
  have seq : g.transport.rxNextSeq = g.rxNextSeq := rfl
  rw [state, seq]
  split
  next => exact ⟨g, [], rfl, bounded, rfl⟩
  next inProgress =>
    split
    next =>
      exact
        ⟨{ g with state := .errorFlow }, [], rfl,
          bounded_of_stopped rfl bounded.received bounded.sending, rfl⟩
    next =>
      have receiving : g.state = .rxInProgress := of_not_not inProgress
      obtain ⟨rxBuf, copied, short, filled, grown⟩ :=
        @Bounded.cfPayload g f bounded receiving
      have held : g.transport.rxBuf.length.toUInt32 = g.rxReceivedLen := by
        rw [bounded.rxBuf_length]
        exact UInt32.ofNat_toNat
      have read : g.transport.rxTotalLen = g.rxTotalLen := rfl
      let next : IsotpMem :=
        { g with
          rxBuf := rxBuf
          rxReceivedLen :=
            g.rxReceivedLen +
              (cfChunk (g.rxTotalLen - g.rxReceivedLen).toNat).toUInt32
          rxNextSeq := (g.rxNextSeq + 1) &&& 0x0F
          rxLastActivityMs := nowMs }
      dsimp only
      rw [copied, held, read, filled, grown]
      by_cases done : next.rxTotalLen ≤ next.rxReceivedLen
      · refine
          ⟨{ next with rxComplete := true, state := .rxComplete }, [], ?_,
            bounded_of_stopped rfl short bounded.sending, ?_⟩
        · exact congrArg (Option.map fun g => (g, [])) (if_pos done)
        · rw [if_pos (UInt32.le_iff_toNat_le.mp done)]
          rfl
      · have missing : ¬ next.rxTotalLen.toNat ≤ next.rxReceivedLen.toNat :=
          fun reached => done (UInt32.le_iff_toNat_le.mpr reached)
        refine
          ⟨next, [], ?_,
            ⟨short,
              fun _ =>
                ⟨(bounded.progress receiving).1,
                  Or.inr (Nat.lt_of_not_le missing)⟩,
              bounded.sending⟩,
            ?_⟩
        · exact congrArg (Option.map fun g => (g, [])) (if_neg done)
        · rw [if_neg missing]
          rfl

/-- A frame is handled as by the transport, unless it is a long single frame. -/
theorem Bounded.handleFrame
    (bounded : g.Bounded)
    (fits : SingleFrameFits f) :
    Performs (g.handleFrame f nowMs)
      (g.transport.handleFrame f.cells nowMs) := by
  unfold IsotpMem.handleFrame Isotp.handleFrame
  dsimp only
  split
  next isSf => exact bounded.handleSf (fits isSf)
  next =>
    split
    next => exact bounded.handleFf
    next =>
      split
      next => exact bounded.handleCf
      next =>
        split
        next => exact bounded.handleFc f
        next => exact ⟨g, [], rfl, bounded, rfl⟩

/-- A long single frame reads behind the frame. -/
theorem handleFrame_eq_none
    (long : ¬ SingleFrameFits f) :
    g.handleFrame f nowMs = none := by
  obtain ⟨isSf, length⟩ := Classical.not_imp.mp long
  unfold IsotpMem.handleFrame
  dsimp only
  rw [if_pos isSf, handleSf_eq_none length]
  rfl

end Receiving

/-!
## Calls
-/

/-- What the local frame of `isotp_poll` holds as each frame is handled. -/
def localFrames : CanData → List CanRawFrame → List CanData
  | _, [] => []
  | f, frame :: rest => f.recv frame :: localFrames (f.recv frame) rest

/-- The loop of `isotp_poll` does what the transport's does. -/
theorem Bounded.drain
    {g : IsotpMem}
    {f : CanData}
    {nowMs : UInt32}
    {frames : List CanRawFrame}
    (bounded : g.Bounded)
    (fits : ∀ received ∈ localFrames f frames, SingleFrameFits received) :
    Performs (drain nowMs f frames g)
      (Isotp.drain nowMs f.cells frames g.transport) := by
  induction frames generalizing g f with
  | nil =>
      exact ⟨g, [], rfl, bounded, rfl⟩
  | cons frame rest inductionHypothesis =>
      obtain ⟨first, others⟩ := List.forall_mem_cons.mp fits
      unfold IsotpMem.drain Isotp.drain
      refine (bounded.handleFrame first).bind ?_
      intro next sent nextBounded same
      refine (inductionHypothesis nextBounded others).bind ?_
      intro last later lastBounded sameLast
      have local_ : (f.recv frame).cells = halRecv f.cells frame := rfl
      rw [local_] at same sameLast
      dsimp only
      rw [← same]
      dsimp only
      rw [← sameLast]
      exact ⟨last, sent ++ later, rfl, lastBounded, rfl⟩

/-- A long single frame ends the loop of `isotp_poll`. -/
theorem drain_eq_none
    {g : IsotpMem}
    {f : CanData}
    {nowMs : UInt32}
    {frames : List CanRawFrame}
    (long : ¬ ∀ received ∈ localFrames f frames, SingleFrameFits received) :
    drain nowMs f frames g = none := by
  induction frames generalizing g f with
  | nil =>
      exact absurd (List.forall_mem_nil _) long
  | cons frame rest inductionHypothesis =>
      unfold IsotpMem.drain
      by_cases first : SingleFrameFits (f.recv frame)
      · have others :
            ¬ ∀ received ∈ localFrames (f.recv frame) rest,
                SingleFrameFits received :=
          fun fits => long (List.forall_mem_cons.mpr ⟨first, fits⟩)
        cases g.handleFrame (f.recv frame) nowMs with
        | none =>
            rfl
        | some handled =>
            change (IsotpMem.drain nowMs _ rest handled.1).bind _ = _
            rw [inductionHypothesis others]
            rfl
      · rw [handleFrame_eq_none first]
        rfl

/-- The timeout is the transport's. -/
theorem Bounded.expire
    {g : IsotpMem}
    (bounded : g.Bounded)
    (nowMs : UInt32) :
    (g.expire nowMs).Bounded ∧
      (g.expire nowMs).transport = g.transport.expire nowMs := by
  unfold IsotpMem.expire Isotp.expire
  have state : g.transport.state = g.state := rfl
  have activity : g.transport.rxLastActivityMs = g.rxLastActivityMs := rfl
  rw [state, activity]
  split
  next =>
    exact
      ⟨bounded_of_stopped rfl bounded.received bounded.sending, rfl⟩
  next => exact ⟨bounded, rfl⟩

/-- `isotp_poll` does what the transport's does. -/
theorem Bounded.poll
    {g : IsotpMem}
    {f : CanData}
    {nowMs : UInt32}
    {frames : List CanRawFrame}
    (bounded : g.Bounded)
    (fits : ∀ received ∈ localFrames f frames, SingleFrameFits received) :
    Performs (g.poll nowMs f frames)
      (g.transport.poll nowMs f.cells frames) := by
  unfold IsotpMem.poll Isotp.poll
  refine (bounded.drain fits).bind ?_
  intro last sent lastBounded same
  obtain ⟨expired, sameExpired⟩ := lastBounded.expire nowMs
  dsimp only
  rw [← same]
  dsimp only
  rw [← sameExpired]
  exact ⟨last.expire nowMs, sent, rfl, expired, rfl⟩

/-- The single frame of a short payload, with its copy. -/
theorem sfFrame_copied
    (g : IsotpMem)
    {buf : List UInt8}
    (short : buf.length ≤ 62) :
    ∃ data,
      ((cleared.store 0 isotpPciTypeSf).store 1 buf.length.toUInt8).copy 2 buf 0
          buf.length =
        some data ∧
        canFrame g.txId data (2 + buf.length) =
          g.transport.sfFrame buf short := by
  obtain ⟨data, copied, cells⟩ :=
    @FixedBuffer.copy_of_inRange _ canMaxDlen
      ((cleared.store 0 isotpPciTypeSf).store 1 buf.length.toUInt8) 2 0
      buf.length buf ⟨by omega, by unfold canMaxDlen; omega⟩
  rw [List.drop_zero, List.take_length] at cells
  exact
    ⟨data, copied, @canFrame_eq _ _ (g.transport.sfFrame buf short) rfl cells⟩

/-- A long payload that is kept to be sent, and its first frame. -/
theorem ffFrame_copied
    (g : IsotpMem)
    {buf : List UInt8}
    (fits : buf.length ≤ isotpMaxPayload)
    (long : isotpFfInitialLen ≤ buf.length) :
    ∃ txData data,
      g.txData.copy 0 buf 0 buf.length = some txData ∧
        (ffHeader buf.length.toUInt32).copy 5 txData.cells 0 isotpFfInitialLen =
          some data ∧
        txData.cells.take buf.length = buf ∧
        canFrame g.txId data (5 + isotpFfInitialLen) =
          g.transport.ffFrame buf := by
  obtain ⟨txData, kept, held⟩ :=
    @FixedBuffer.copy_of_inRange _ isotpMaxPayload g.txData 0 0 buf.length buf
      ⟨by omega, by omega⟩
  rw [List.take_zero, List.nil_append, Nat.zero_add, List.drop_zero,
    List.take_length] at held
  obtain ⟨data, copied, cells⟩ :=
    @FixedBuffer.copy_of_inRange _ canMaxDlen (ffHeader buf.length.toUInt32) 5 0
      isotpFfInitialLen txData.cells ⟨by rw [txData.sized]; decide, by decide⟩
  have initial :
      txData.cells.take isotpFfInitialLen = buf.take isotpFfInitialLen := by
    calc
      txData.cells.take isotpFfInitialLen =
          (txData.cells.take buf.length).take isotpFfInitialLen := by
        rw [List.take_take, Nat.min_eq_left long]
      _ = buf.take isotpFfInitialLen := by rw [held]
  rw [List.drop_zero, initial] at cells
  exact
    ⟨txData, data, kept, copied, held,
      @canFrame_eq _ _ (g.transport.ffFrame buf) rfl cells⟩

/-- `isotp_send` does what the transport's does, its three copies included. -/
theorem Bounded.send
    {g : IsotpMem}
    (bounded : g.Bounded)
    (buf : List UInt8) :
    ∃ accepted after sent,
      g.send buf = some (accepted, after, sent) ∧
        after.Bounded ∧
        (accepted, after.transport, sent) = g.transport.send buf := by
  unfold IsotpMem.send Isotp.send
  have pending : g.transport.txPending = g.txPending := rfl
  rw [pending]
  split
  next => exact ⟨false, g, [], rfl, bounded, rfl⟩
  next accepted =>
    have fits : buf.length ≤ isotpMaxPayload :=
      Nat.le_of_not_lt fun long => accepted (Or.inl long)
    split
    next short =>
      obtain ⟨data, copied, frame⟩ := g.sfFrame_copied short
      refine ⟨true, g, [g.transport.sfFrame buf short], ?_, bounded, rfl⟩
      dsimp only
      rw [copied, ← frame]
      rfl
    next long =>
      have initial : isotpFfInitialLen ≤ buf.length := by
        unfold isotpFfInitialLen
        omega
      obtain ⟨txData, data, kept, copied, held, frame⟩ :=
        g.ffFrame_copied fits initial
      have total : buf.length.toUInt32.toNat = buf.length := by
        unfold isotpMaxPayload at fits
        rw [Nat.toUInt32_eq, UInt32.toNat_ofNat']
        omega
      let after : IsotpMem :=
        { g with
          txData := txData
          txTotalLen := buf.length.toUInt32
          txSentLen := isotpFfInitialLen.toUInt32
          txNextSeq := 1
          txPending := true
          txBlockRemaining := 0 }
      refine
        ⟨true, after, [g.transport.ffFrame buf], ?_,
          ⟨bounded.received, bounded.progress, by rw [total]; exact fits⟩, ?_⟩
      · dsimp only
        rw [kept]
        change (FixedBuffer.copy _ 5 txData.cells 0 _).bind _ = _
        rw [copied, ← frame]
        rfl
      · have sending : txData.cells.take after.txTotalLen.toNat = buf := by
          rw [total]
          exact held
        have same :=
          congrArg
            (fun txData =>
              { g.transport with
                txData := txData
                txSentLen := isotpFfInitialLen
                txNextSeq := 1
                txPending := true
                txBlockRemaining := 0 })
            sending
        exact
          congrArg (fun after => (true, after, [g.transport.ffFrame buf])) same

/-- `isotp_take_received` does what the transport's does. -/
theorem Bounded.takeReceived
    {g : IsotpMem}
    (bounded : g.Bounded)
    (bufCap : Nat) :
    ∃ message after,
      g.takeReceived bufCap = some (message, after) ∧
        after.Bounded ∧
        (message, after.transport) = g.transport.takeReceived bufCap := by
  unfold IsotpMem.takeReceived Isotp.takeReceived
  have complete : g.transport.rxComplete = g.rxComplete := rfl
  rw [complete, bounded.rxBuf_length]
  split
  next => exact ⟨none, g, rfl, bounded, rfl⟩
  next =>
    split
    next => exact ⟨none, g, rfl, bounded, rfl⟩
    next room =>
      have reads : 0 + g.rxReceivedLen.toNat ≤ g.rxBuf.cells.length := by
        rw [g.rxBuf.sized, Nat.zero_add]
        exact bounded.received
      obtain ⟨buf, copied, cells⟩ :=
        @FixedBuffer.copy_of_inRange _ bufCap (FixedBuffer.filled bufCap 0) 0 0
          g.rxReceivedLen.toNat g.rxBuf.cells ⟨reads, by omega⟩
      rw [List.take_zero, List.nil_append, Nat.zero_add, List.drop_zero]
        at cells
      refine
        ⟨some g.transport.rxBuf,
          { g with rxComplete := false, state := .idle }, ?_,
          bounded_of_stopped rfl bounded.received bounded.sending, rfl⟩
      dsimp only
      rw [copied]
      change
        some (some (buf.cells.take g.rxReceivedLen.toNat), _) = _
      rw [cells]
      rfl

end IsotpMem

/-!
## Runs
-/

/-- A call of one of the three functions. -/
inductive MemAction where
  | poll (nowMs : UInt32) (f : CanData) (frames : List CanRawFrame)
  | send (buf : List UInt8)
  | take (bufCap : Nat)

/-- The call as the transport sees it. -/
def MemAction.transport : MemAction → TransportAction
  | .poll nowMs f frames => .poll nowMs f.cells frames
  | .send buf => .send buf
  | .take bufCap => .take bufCap

/--
One call; it shows the message that is returned, if any.  After a copy out of
range nothing is known any more.
-/
def memStep : Machine.Step (Option IsotpMem) MemAction (List UInt8)
  | none, _ => (none, [])
  | some g, .poll nowMs f frames => ((g.poll nowMs f frames).map Prod.fst, [])
  | some g, .send buf => ((g.send buf).map fun result => result.2.1, [])
  | some g, .take bufCap =>
      ((g.takeReceived bufCap).map Prod.snd,
        ((g.takeReceived bufCap).bind Prod.fst).toList)

/-- Every single frame that the call receives fits. -/
def SingleFramesFit : MemAction → Prop
  | .poll _ f frames =>
      ∀ received ∈ IsotpMem.localFrames f frames,
        IsotpMem.SingleFrameFits received
  | .send _ => True
  | .take _ => True

instance SingleFramesFit.decidable :
    ∀ action, Decidable (SingleFramesFit action)
  | .poll _ f frames =>
      inferInstanceAs (Decidable (∀ received ∈ IsotpMem.localFrames f frames, _))
  | .send _ => inferInstanceAs (Decidable True)
  | .take _ => inferInstanceAs (Decidable True)

/-- A call whose single frames fit does what the transport's does. -/
theorem memStep_performs
    {g : IsotpMem}
    {action : MemAction}
    (bounded : g.Bounded)
    (fits : SingleFramesFit action) :
    ∃ after,
      (memStep (some g) action).1 = some after ∧
        after.Bounded ∧
        transportStep g.transport action.transport =
          (after.transport, (memStep (some g) action).2) := by
  cases action with
  | poll nowMs f frames =>
      obtain ⟨after, sent, polled, afterBounded, same⟩ :=
        @IsotpMem.Bounded.poll g f nowMs frames bounded fits
      refine ⟨after, ?_, afterBounded, ?_⟩
      · change (g.poll nowMs f frames).map Prod.fst = _
        rw [polled]
        rfl
      · exact congrArg (fun result => (Prod.fst result, [])) same.symm
  | send buf =>
      obtain ⟨accepted, after, sent, performed, afterBounded, same⟩ :=
        bounded.send buf
      refine ⟨after, ?_, afterBounded, ?_⟩
      · change (g.send buf).map (fun result => result.2.1) = _
        rw [performed]
        rfl
      · exact
          congrArg
            (fun result : Bool × Isotp × List CanRawFrame => (result.2.1, []))
            same.symm
  | take bufCap =>
      obtain ⟨message, after, taken, afterBounded, same⟩ :=
        bounded.takeReceived bufCap
      refine ⟨after, ?_, afterBounded, ?_⟩
      · change (g.takeReceived bufCap).map Prod.snd = _
        rw [taken]
        rfl
      · change
          ((g.transport.takeReceived bufCap).2,
              (g.transport.takeReceived bufCap).1.toList) =
            (_, ((g.takeReceived bufCap).bind Prod.fst).toList)
        rw [taken, ← same]
        rfl

/-- A call with a long single frame makes a copy out of range. -/
theorem memStep_eq_none
    {action : MemAction}
    (long : ¬ SingleFramesFit action)
    (memory : Option IsotpMem) :
    (memStep memory action).1 = none := by
  cases memory with
  | none =>
      rfl
  | some g =>
      cases action with
      | poll nowMs f frames =>
          change ((IsotpMem.drain nowMs f frames g).bind _).map _ = _
          rw [IsotpMem.drain_eq_none long]
          rfl
      | send buf =>
          exact absurd trivial long
      | take bufCap =>
          exact absurd trivial long

/-- After a copy out of range there is no state. -/
theorem final_none
    (actions : List MemAction) :
    Machine.final memStep none actions = none := by
  induction actions with
  | nil =>
      rfl
  | cons action rest inductionHypothesis =>
      exact inductionHypothesis

/-- One long single frame is enough. -/
theorem final_eq_none
    {actions : List MemAction}
    (long : ¬ ∀ action ∈ actions, SingleFramesFit action)
    (memory : Option IsotpMem) :
    Machine.final memStep memory actions = none := by
  induction actions generalizing memory with
  | nil =>
      exact absurd (List.forall_mem_nil _) long
  | cons action rest inductionHypothesis =>
      rw [Machine.final_cons]
      by_cases fits : SingleFramesFit action
      · exact
          inductionHypothesis
            (fun others => long (List.forall_mem_cons.mpr ⟨fits, others⟩)) _
      · rw [memStep_eq_none fits memory]
        exact final_none rest

/--
A run whose single frames fit makes no copy out of range, leads where the
transport is led, and returns the same messages.
-/
theorem memory_refines_transport
    {g : IsotpMem}
    {actions : List MemAction}
    (bounded : g.Bounded)
    (fits : ∀ action ∈ actions, SingleFramesFit action) :
    ∃ after,
      Machine.final memStep (some g) actions = some after ∧
        after.Bounded ∧
        after.transport =
          Machine.final transportStep g.transport
            (actions.map MemAction.transport) ∧
        Machine.trace memStep (some g) actions =
          Machine.trace transportStep g.transport
            (actions.map MemAction.transport) := by
  induction actions generalizing g with
  | nil =>
      exact ⟨g, rfl, bounded, rfl, rfl⟩
  | cons action rest inductionHypothesis =>
      obtain ⟨first, others⟩ := List.forall_mem_cons.mp fits
      obtain ⟨next, stepped, nextBounded, same⟩ :=
        memStep_performs bounded first
      obtain ⟨after, ran, afterBounded, led, returned⟩ :=
        inductionHypothesis nextBounded others
      refine ⟨after, ?_, afterBounded, ?_, ?_⟩
      · rw [Machine.final_cons, stepped]
        exact ran
      · rw [List.map_cons, Machine.final_cons, same]
        exact led
      · rw [List.map_cons, Machine.trace_cons, Machine.trace_cons, same,
          stepped, returned]

/-- The memory after these calls, from `isotp_init` on. -/
abbrev memAfter
    (rxBuf txData : FixedBuffer UInt8 isotpMaxPayload)
    (txId : UInt32)
    (actions : List MemAction) :
    Option IsotpMem :=
  Machine.final memStep (some (.init rxBuf txData txId)) actions

/-- No copy was out of range, and the message fits the buffer. -/
def CopiesInRange (memory : Option IsotpMem) : Prop :=
  ∃ g, memory = some g ∧ g.rxReceivedLen.toNat ≤ isotpMaxPayload

/-- A single frame with a length byte of 255 reads 193 bytes behind itself. -/
theorem long_single_frame_reads_outside :
    let zeros := FixedBuffer.filled isotpMaxPayload 0
    let frame : CanRawFrame :=
      ⟨0x7A0, canFlagFdf, [0x00, 0xFF] ++ List.replicate 62 0xAA, by decide⟩
    let actions : List MemAction :=
      [.poll 0 (FixedBuffer.filled canMaxDlen 0) [frame]]
    memAfter zeros zeros 0x7A8 actions = none ∧
      ¬ ∀ before, before <+: actions →
        CopiesInRange (memAfter zeros zeros 0x7A8 before) := by
  intro zeros frame actions
  have stopped : memAfter zeros zeros 0x7A8 actions = none :=
    Option.isNone_iff_eq_none.mp (by decide +kernel)
  refine ⟨stopped, ?_⟩
  intro always
  obtain ⟨g, reached, -⟩ := always actions List.prefix_rfl
  rw [stopped] at reached
  cases reached

/--
Every copy of every run is in range, and no message outgrows the buffer,
exactly when no single frame has a length byte of more than 62.
-/
theorem copies_in_range_iff
    (rxBuf txData : FixedBuffer UInt8 isotpMaxPayload)
    (txId : UInt32)
    (actions : List MemAction) :
    (∀ before, before <+: actions →
        CopiesInRange (memAfter rxBuf txData txId before)) ↔
      ∀ action ∈ actions, SingleFramesFit action := by
  constructor
  · intro always
    by_contra long
    obtain ⟨g, reached, -⟩ := always actions List.prefix_rfl
    rw [memAfter, final_eq_none long] at reached
    cases reached
  · intro fits before early
    obtain ⟨after, ran, bounded, -⟩ :=
      memory_refines_transport (IsotpMem.bounded_init rxBuf txData txId)
        fun action member => fits action (early.subset member)
    exact ⟨after, ran, bounded.received⟩

end TraveoBodyDomain
