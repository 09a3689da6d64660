import TraveoBodyDomain.Diag.Uds

/-!
# Traffic that is not for the bootloader

The CAN controller of the bootloader puts every frame of the bus into its
receive FIFO, and `isotp_poll` does not look at a frame's identifier.  So what
a frame of another node does to the diagnostics depends on the byte it starts
with.

This module says which frames do nothing, and that a run in which all foreign
frames are of this kind is the run without them.  The frame `isotp_poll`
receives into is one local variable, so a diagnostic frame must also carry
every byte its handler reads: else it reads what a foreign frame left.
-/

namespace TraveoBodyDomain

/-- `FBL_KNOCK_CAN_ID`, the identifier of diagnostic requests. -/
def fblDiagRequestId : UInt32 :=
  0x7A0

/-- `FBL_DIAG_RESPONSE_ID`. -/
def fblDiagResponseId : UInt32 :=
  0x7A8

/-- The diagnostic stack of the bootloader. -/
structure FblDiag where
  isotp : Isotp
  uds : UdsServer

/-- `fbl_diag_init`, over the flash at hand. -/
def FblDiag.start (flash : CodeFlash) : FblDiag :=
  ⟨isotpInit fblDiagResponseId, .start flash⟩

/--
A call of `fbl_diag_tick`: the time, what the stack holds where the local frame
of `isotp_poll` will be, and the frames that are waiting.
-/
structure FblPoll where
  nowMs : UInt32
  stack : List UInt8
  frames : List CanRawFrame
  deriving Repr, DecidableEq

/--
`fbl_diag_tick` and `uds_session_tick`; the frames that are sent are shown.  An
accepted reset does not return: the bootloader starts again.
-/
def fblPollTick (imageValid : (Nat → UInt8) → Bool) :
    Machine.Step FblDiag FblPoll CanRawFrame :=
  fun diag tick =>
    let (isotp, flow) := diag.isotp.poll tick.nowMs tick.stack tick.frames
    let (request, isotp) := isotp.takeReceived isotpMaxPayload
    let (response, uds, effects) :=
      diag.uds.tick imageValid tick.nowMs request
    let (isotp, sent) :=
      match response with
      | none => (isotp, [])
      | some response => (isotp.send response).2
    if .reset ∈ effects then
      (FblDiag.start uds.flash, flow ++ sent)
    else
      (⟨isotp, uds⟩, flow ++ sent)

/-- What a run shows: the frames sent, the diagnostic state and the flash. -/
structure DiagOutcome where
  sent : List CanRawFrame
  session : UdsSessionState
  security : SecurityAccess
  download : Download
  flashOps : List FlashOp
  deriving Repr, DecidableEq

/-- The outcome of a run from a start of the bootloader. -/
def diagOutcome
    (imageValid : (Nat → UInt8) → Bool)
    (flash : CodeFlash)
    (ticks : List FblPoll) : DiagOutcome :=
  let last := Machine.final (fblPollTick imageValid) (.start flash) ticks
  { sent := Machine.trace (fblPollTick imageValid) (.start flash) ticks
    session := last.uds.session
    security := last.uds.security
    download := last.uds.download
    flashOps := last.uds.flash.ops }

/-- The same call without the frames of other identifiers. -/
def FblPoll.diagnosticOnly (tick : FblPoll) : FblPoll :=
  { tick with
    frames := tick.frames.filter fun frame => frame.id = fblDiagRequestId }

namespace Isotp

/--
A frame that `isotp_poll` does nothing with, by the bytes it reads: no single
or first frame, no consecutive frame into a reception, and no flow control for
a transmission other than WAIT.
-/
def Inert (g : Isotp) (data : List UInt8) : Prop :=
  let type := data.getD 0 0 &&& 0xF0
  let status := data.getD 0 0 &&& 0x0F
  type ≠ isotpPciTypeSf ∧
    type ≠ isotpPciTypeFf ∧
    (type = isotpPciTypeCf → g.state ≠ .rxInProgress) ∧
    (type = isotpPciTypeFc →
      g.txPending = false ∨
        (status ≠ isotpFcStatusCts ∧ status ≠ isotpFcStatusOverflow))

instance Inert.decidable (g : Isotp) (data : List UInt8) :
    Decidable (g.Inert data) :=
  inferInstanceAs (Decidable (_ ∧ _ ∧ (_ → _) ∧ (_ → _ ∨ (_ ∧ _))))

/-- How many bytes of a frame its handler reads. -/
def bytesRead (g : Isotp) (data : List UInt8) : Nat :=
  let type := data.getD 0 0 &&& 0xF0
  let low := data.getD 0 0 &&& 0x0F
  if type = isotpPciTypeSf then
    2 + (data.getD 1 0).toNat
  else if type = isotpPciTypeFf then
    5 + isotpFfInitialLen
  else if type = isotpPciTypeCf ∧ g.state = .rxInProgress ∧
      low = g.rxNextSeq then
    1 + cfChunk (g.rxTotalLen - g.rxBuf.length.toUInt32).toNat
  else if type = isotpPciTypeFc ∧ g.txPending = true ∧
      low = isotpFcStatusCts then
    2
  else
    1

/--
A frame that does not disturb the diagnostics: a diagnostic one carries the
bytes that its handler reads, any other is inert with the bytes that are read.
-/
def Undisturbing (g : Isotp) (received : List UInt8) (frame : CanRawFrame) :
    Prop :=
  if frame.id = fblDiagRequestId then
    g.bytesRead frame.data ≤ frame.data.length
  else
    g.Inert received

instance Undisturbing.decidable
    (g : Isotp)
    (received : List UInt8)
    (frame : CanRawFrame) : Decidable (g.Undisturbing received frame) :=
  inferInstanceAs
    (Decidable
      (if frame.id = fblDiagRequestId then
        g.bytesRead frame.data ≤ frame.data.length
      else
        g.Inert received))

/-- No frame that a call of `isotp_poll` receives disturbs the diagnostics. -/
def Undisturbed (nowMs : UInt32) :
    List UInt8 → List CanRawFrame → Isotp → Prop
  | _, [], _ => True
  | data, frame :: rest, g =>
      let received := halRecv data frame
      g.Undisturbing received frame ∧
        Undisturbed nowMs received rest (g.handleFrame received nowMs).1

instance Undisturbed.decidable (nowMs : UInt32) :
    ∀ data frames g, Decidable (Undisturbed nowMs data frames g)
  | _, [], _ => inferInstanceAs (Decidable True)
  | data, frame :: rest, g =>
      haveI :=
        Undisturbed.decidable nowMs (halRecv data frame) rest
          (g.handleFrame (halRecv data frame) nowMs).1
      inferInstanceAs (Decidable (Undisturbing _ _ _ ∧ _))

end Isotp

/-- The frames of a call do not disturb it. -/
def UndisturbedTick (diag : FblDiag) (tick : FblPoll) : Prop :=
  Isotp.Undisturbed tick.nowMs tick.stack tick.frames diag.isotp

instance UndisturbedTick.decidable (diag : FblDiag) (tick : FblPoll) :
    Decidable (UndisturbedTick diag tick) :=
  inferInstanceAs (Decidable (Isotp.Undisturbed _ _ _ _))

namespace Isotp

/-- Nothing is done with an inert frame. -/
theorem Inert.handleFrame
    {g : Isotp}
    {data : List UInt8}
    (inert : g.Inert data)
    (nowMs : UInt32) :
    g.handleFrame data nowMs = (g, []) := by
  obtain ⟨notSf, notFf, noReception, noTransmission⟩ := inert
  by_cases isCf : data.getD 0 0 &&& 0xF0 = isotpPciTypeCf
  · rw [handleFrame_cf isCf, handleCf, if_pos (noReception isCf)]
  · by_cases isFc : data.getD 0 0 &&& 0xF0 = isotpPciTypeFc
    · rw [handleFrame_fc isFc, handleFc]
      rcases noTransmission isFc with idle | ⟨notCts, notOverflow⟩
      · rw [if_pos idle]
      · split
        · rfl
        · dsimp only
          rw [if_neg notCts, if_neg notOverflow]
    · unfold Isotp.handleFrame
      dsimp only
      rw [if_neg notSf, if_neg notFf, if_neg isCf, if_neg isFc]

/-- Bytes that are there do not depend on what follows. -/
theorem bytesAt_of_start
    {start data : List UInt8}
    {off len : Nat}
    (starts : start <+: data)
    (inside : off + len ≤ start.length) :
    bytesAt data off len = bytesAt start off len := by
  apply List.map_congr_left
  intro i member
  have inRange := List.mem_range.mp member
  exact getD_of_start starts (by omega)

/-- `handle_cf` on bytes that agree where it reads them. -/
theorem handleCf_of_start
    {g : Isotp}
    {start data : List UInt8}
    (starts : start <+: data)
    (first : data.getD 0 0 = start.getD 0 0)
    (own :
      g.state = .rxInProgress ∧ start.getD 0 0 &&& 0x0F = g.rxNextSeq →
        1 + cfChunk (g.rxTotalLen - g.rxBuf.length.toUInt32).toNat ≤
          start.length)
    (nowMs : UInt32) :
    g.handleCf data nowMs = g.handleCf start nowMs := by
  rw [handleCf, handleCf, first]
  split
  · rfl
  · next receiving =>
      split
      · rfl
      · next due =>
          have read :=
            bytesAt_of_start starts
              (own ⟨not_not.mp receiving, not_not.mp due⟩)
          dsimp only
          rw [read]

/-- `handle_fc` on bytes that agree where it reads them. -/
theorem handleFc_of_start
    {g : Isotp}
    {start data : List UInt8}
    (starts : start <+: data)
    (first : data.getD 0 0 = start.getD 0 0)
    (own :
      g.txPending = true ∧ start.getD 0 0 &&& 0x0F = isotpFcStatusCts →
        2 ≤ start.length) :
    g.handleFc data = g.handleFc start := by
  rw [handleFc, handleFc, first]
  split
  · rfl
  · next pending =>
      by_cases cts : start.getD 0 0 &&& 0x0F = isotpFcStatusCts
      · have long := own ⟨by simpa using pending, cts⟩
        rw [getD_of_start starts (by omega)]
      · dsimp only
        rw [if_neg cts, if_neg cts]

/-- A handler that reads only bytes of its frame depends on the frame alone. -/
theorem handleFrame_of_start
    {g : Isotp}
    {start data : List UInt8}
    (starts : start <+: data)
    (own : g.bytesRead start ≤ start.length)
    (nowMs : UInt32) :
    g.handleFrame data nowMs = g.handleFrame start nowMs := by
  have first : data.getD 0 0 = start.getD 0 0 := by
    apply getD_of_start starts
    unfold bytesRead at own
    dsimp only at own
    split_ifs at own <;> omega
  by_cases isSf : start.getD 0 0 &&& 0xF0 = isotpPciTypeSf
  · simp only [bytesRead, if_pos isSf] at own
    rw [handleFrame_sf (first ▸ isSf), handleFrame_sf isSf, handleSf, handleSf,
      getD_of_start starts (by omega), bytesAt_of_start starts own]
  by_cases isFf : start.getD 0 0 &&& 0xF0 = isotpPciTypeFf
  · simp only [bytesRead, if_neg isSf, if_pos isFf] at own
    rw [handleFrame_ff (first ▸ isFf), handleFrame_ff isFf, handleFf, handleFf,
      getD_of_start starts (by omega), getD_of_start starts (by omega),
      getD_of_start starts (by omega), getD_of_start starts (by omega),
      bytesAt_of_start starts own]
  by_cases isCf : start.getD 0 0 &&& 0xF0 = isotpPciTypeCf
  · rw [handleFrame_cf (first ▸ isCf), handleFrame_cf isCf,
      handleCf_of_start starts first]
    intro due
    simp only [bytesRead, if_neg isSf, if_neg isFf] at own
    rwa [if_pos ⟨isCf, due⟩] at own
  by_cases isFc : start.getD 0 0 &&& 0xF0 = isotpPciTypeFc
  · rw [handleFrame_fc (first ▸ isFc), handleFrame_fc isFc,
      handleFc_of_start starts first]
    intro due
    simp only [bytesRead, if_neg isSf, if_neg isFf] at own
    rwa [if_neg (fun receiving => isCf receiving.1), if_pos ⟨isFc, due⟩] at own
  · unfold handleFrame
    dsimp only
    rw [first]
    simp only [isSf, isFf, isCf, isFc, if_false]

/-- Receiving with the undisturbing foreign frames is receiving without. -/
theorem drain_diagnosticOnly
    {nowMs : UInt32}
    {frames : List CanRawFrame}
    {data : List UInt8}
    {g : Isotp}
    (undisturbed : Undisturbed nowMs data frames g)
    (others : List UInt8) :
    drain nowMs others
        (frames.filter fun frame => frame.id = fblDiagRequestId) g =
      drain nowMs data frames g := by
  induction frames generalizing data others g with
  | nil =>
      rfl
  | cons frame rest inductionHypothesis =>
      obtain ⟨harmless, later⟩ := undisturbed
      by_cases diagnostic : frame.id = fblDiagRequestId
      · rw [Undisturbing, if_pos diagnostic] at harmless
        have same :
            g.handleFrame (halRecv others frame) nowMs =
              g.handleFrame (halRecv data frame) nowMs := by
          rw [halRecv, halRecv,
            handleFrame_of_start (List.prefix_append _ _) harmless,
            handleFrame_of_start (List.prefix_append _ _) harmless]
        rw [List.filter_cons_of_pos (by simpa using diagnostic), drain, drain]
        dsimp only
        rw [same, inductionHypothesis later]
      · rw [Undisturbing, if_neg diagnostic] at harmless
        have nothing := harmless.handleFrame nowMs
        rw [nothing] at later
        rw [List.filter_cons_of_neg (by simpa using diagnostic),
          inductionHypothesis later, drain]
        dsimp only
        rw [nothing]
        rfl

end Isotp

/-- One call with the undisturbing foreign frames is the call without. -/
theorem fblPollTick_diagnosticOnly
    (imageValid : (Nat → UInt8) → Bool)
    {diag : FblDiag}
    {tick : FblPoll}
    (undisturbed : UndisturbedTick diag tick) :
    fblPollTick imageValid diag tick.diagnosticOnly =
      fblPollTick imageValid diag tick := by
  have same :
      diag.isotp.poll tick.nowMs tick.stack tick.diagnosticOnly.frames =
        diag.isotp.poll tick.nowMs tick.stack tick.frames := by
    rw [Isotp.poll, FblPoll.diagnosticOnly,
      Isotp.drain_diagnosticOnly undisturbed, Isotp.poll]
  unfold fblPollTick
  dsimp only [FblPoll.diagnosticOnly] at same ⊢
  rw [same]

/--
Frames with other identifiers do not interfere with the diagnostics, in any run
in which each of them is inert when it is handled and each diagnostic frame
carries the bytes its handler reads.
-/
theorem foreign_frames_do_not_interfere
    (imageValid : (Nat → UInt8) → Bool)
    (flash : CodeFlash)
    (ticks : List FblPoll)
    (undisturbed :
      Machine.Allowed (fblPollTick imageValid) UndisturbedTick
        (.start flash) ticks) :
    diagOutcome imageValid flash (ticks.map FblPoll.diagnosticOnly) =
      diagOutcome imageValid flash ticks := by
  obtain ⟨sameFinal, sameTrace⟩ :=
    Machine.rewritten_run
      (fun _ _ => fblPollTick_diagnosticOnly imageValid) undisturbed
  rw [diagOutcome, sameFinal, sameTrace, diagOutcome]

/-- A frame with these bytes. -/
def frameOf
    (id : UInt32)
    (data : List UInt8)
    (fits : data.length ≤ canMaxDlen) : CanRawFrame :=
  ⟨id, canFlagFdf, data, fits⟩

/-- A request for the programming session, between two inert frames. -/
theorem session_request_among_inert_frames :
    let ticks : List FblPoll :=
      [⟨0, [], [frameOf 0x200 [0x50, 0x01, 0x02, 0x03] (by decide),
        frameOf 0x7A0 [0x00, 0x02, 0x10, 0x02] (by decide),
        frameOf 0x120 [0x21, 0x00] (by decide)]⟩]
    diagOutcome (fun _ => false) blankFlash
        (ticks.map FblPoll.diagnosticOnly) =
      diagOutcome (fun _ => false) blankFlash ticks :=
  foreign_frames_do_not_interfere _ _ _ (by decide +kernel)

/--
A frame of a body message that happens to be a single frame: it switches the
bootloader to the programming session, and is answered.
-/
theorem body_frame_is_taken_for_a_request :
    let ticks : List FblPoll :=
      [⟨0, [], [frameOf 0x120 [0x00, 0x02, 0x10, 0x02] (by decide)]⟩]
    (diagOutcome (fun _ => false) blankFlash ticks).session = .programming ∧
      (diagOutcome (fun _ => false) blankFlash
        (ticks.map FblPoll.diagnosticOnly)).session = .default ∧
      ¬ ∀ imageValid flash ticks,
        diagOutcome imageValid flash (ticks.map FblPoll.diagnosticOnly) =
          diagOutcome imageValid flash ticks := by
  refine ⟨by decide +kernel, by decide +kernel, ?_⟩
  intro undisturbed
  have same := undisturbed (fun _ => false) blankFlash
    [⟨0, [], [frameOf 0x120 [0x00, 0x02, 0x10, 0x02] (by decide)]⟩]
  revert same
  decide +kernel

end TraveoBodyDomain
