import TraveoBodyDomain.Diag.HostIsotp
import TraveoBodyDomain.Diag.Interference
import TraveoBodyDomain.Diag.Reprogram
import TraveoBodyDomain.Lib.Alongside

/-!
# The tool's client

`UdsClient` and `flash` of `uds_flash.py`.  `flash` is written over any client:
the one of `Reprogram` hands requests to the UDS server, the one of this module
puts CAN frames on a bus and reads the frames it hears, as the source does.

The frames of a request are put on the bus together, because those after the
first do not depend on the flow control; how they reach the calls of
`fbl_diag_tick`, at which times and with which padding, is the bus's.  A frame
is heard as `hal_send` pads it, at a time on the tool's clock that is the bus's
too; the steps of the tool itself take no time.  An exception of the tool is
`none`: one of them is the `TimeoutError` of a frame that is not heard by its
deadline, or not at all.
-/

namespace TraveoBodyDomain

/-- A call of `fbl_diag_tick`, on a clock that does not wrap. -/
structure BusPoll where
  nowMs : Nat
  stack : List UInt8
  frames : List CanRawFrame
  deriving Repr, DecidableEq

/-- The call as the bootloader sees it. -/
def BusPoll.tick (poll : BusPoll) : FblPoll :=
  ⟨poll.nowMs.toUInt32, poll.stack, poll.frames⟩

/-- The call as the transport sees it. -/
def BusPoll.action (poll : BusPoll) : IsotpAction :=
  .poll poll.nowMs poll.stack poll.frames

/--
How frames that were put on the bus reach the bootloader: the calls before the
one that receives the last of them, that call, and those after it.  On the tool's
clock, when they were put there, and when it hears each frame that these calls
send.
-/
structure Passage where
  before : List BusPoll
  last : BusPoll
  after : List BusPoll
  sentMs : Nat
  heardMs : Nat → Nat

/-- The calls of a passage. -/
def Passage.polls (passage : Passage) : List BusPoll :=
  passage.before ++ passage.last :: passage.after

/--
The tool and the bootloader on one bus: how the frames still to be put on it,
exchange by exchange, will reach the bootloader; the clock of the tool, its
`timeout_s`, and what it hears and has not read, with the time it is heard.
-/
structure Wire where
  diag : FblDiag
  bus : Nat → List (List UInt8) → Passage
  nowMs : Nat
  timeoutMs : Nat
  inbox : List (Nat × CanRawFrame)

section Client

variable (imageValid : (Nat → UInt8) → Bool)

/-- Frames are put on the bus, and the tool hears what is sent meanwhile. -/
def exchangeFrames (frames : List (List UInt8)) : StateT Wire Option Unit :=
  fun wire =>
    let passage := wire.bus 0 frames
    let ticks := passage.polls.map BusPoll.tick
    let sent := Machine.trace (fblPollTick imageValid) wire.diag ticks
    some
      ((),
        { wire with
          diag := Machine.final (fblPollTick imageValid) wire.diag ticks
          bus := fun exchange => wire.bus (exchange + 1)
          nowMs := max wire.nowMs passage.sentMs
          inbox :=
            wire.inbox ++
              sent.mapIdx fun i frame => (passage.heardMs i, halSend frame) })

/-- `time.monotonic() + self.timeout`. -/
def recvDeadline : StateT Wire Option Nat := fun wire =>
  some (wire.nowMs + wire.timeoutMs, wire)

/--
`_recv_frame`: the data of the next frame from the bootloader, when it is heard
before the deadline.
-/
def recvFrame (deadline : Nat) : StateT Wire Option (List UInt8) := fun wire =>
  match wire.inbox.dropWhile fun heard => heard.2.id ≠ fblDiagResponseId with
  | [] => none
  | (heardMs, frame) :: rest =>
      let nowMs := max wire.nowMs heardMs
      if nowMs < deadline then
        some (frame.data, { wire with nowMs := nowMs, inbox := rest })
      else
        none

/-- `_isotp_send`. -/
def isotpSend (payload : List UInt8) : StateT Wire Option Unit := do
  exchangeFrames imageValid (hostIsotpSend payload)
  if payload.length ≤ 62 then
    pure ()
  else
    let fc ← recvFrame (← recvDeadline)
    if fc.getD 0 0 &&& 0xF0 ≠ isotpPciTypeFc ∨
        fc.getD 0 0 &&& 0x0F ≠ isotpFcStatusCts then
      failure
    else
      pure ()

/--
The loop of `_isotp_recv` over the consecutive frames.  Each turn reads a frame,
so as many turns as there are frames to read, and one, are enough.
-/
def isotpRecvRest (deadline total : Nat) :
    Nat → Nat → List UInt8 → StateT Wire Option (List UInt8)
  | 0, _, _ => failure
  | turns + 1, exp, buf => do
      if total ≤ buf.length then
        pure buf
      else
        let cf ← recvFrame deadline
        if cf = [] ∨ cf.getD 0 0 &&& 0xF0 ≠ isotpPciTypeCf ∨
            (cf.getD 0 0 &&& 0x0F).toNat ≠ exp % 16 then
          failure
        else
          isotpRecvRest deadline total turns (exp + 1)
            (buf ++ (cf.drop 1).take (total - buf.length))

/-- `_isotp_recv`. -/
def isotpRecv : StateT Wire Option (List UInt8) := do
  let deadline ← recvDeadline
  let first ← recvFrame deadline
  let t := first.getD 0 0 &&& 0xF0
  if first = [] then
    failure
  else if t = isotpPciTypeSf then
    if first.length < 2 then
      failure
    else
      pure ((first.drop 2).take (first.getD 1 0).toNat)
  else if t ≠ isotpPciTypeFf then
    failure
  else
    let total := intFromBytesBig ((first.drop 1).take 4)
    exchangeFrames imageValid [[isotpPciTypeFc ||| isotpFcStatusCts, 8, 0]]
    let wire ← get
    let buf ←
      isotpRecvRest deadline total (wire.inbox.length + 1) 1 (first.drop 5)
    pure (buf.take total)

/-- `UdsClient.request`: the response, when it is positive. -/
def canRequest (payload : List UInt8) : StateT Wire Option (List UInt8) := do
  isotpSend imageValid payload
  let resp ← isotpRecv imageValid
  if resp ≠ [] ∧ resp.getD 0 0 = udsSidNegativeResponse then
    failure
  else if resp ≠ [] ∧ resp.getD 0 0 ≠ payload.getD 0 0 then
    failure
  else
    pure resp

/-- `UdsClient.request` that expects no response. -/
def canNotify (payload : List UInt8) : StateT Wire Option Unit :=
  isotpSend imageValid payload

end Client

/-- The two uses `flash` makes of `UdsClient.request`. -/
structure UdsClient (State : Type) where
  request : List UInt8 → StateT State Option (List UInt8)
  notify : List UInt8 → StateT State Option Unit

namespace UdsClient

variable {State : Type} (client : UdsClient State)

/-- The loop of `flash` over the blocks. -/
def transfer (block : Nat) :
    Nat → Nat → List UInt8 → StateT State Option Unit
  | 0, _, _ => pure ()
  | fuel + 1, seq, rest => do
      if rest = [] then
        pure ()
      else
        let _ ← client.request
          (udsSidTransferData :: seq.toUInt8 :: rest.take block)
        transfer block fuel (seq + 1) (rest.drop block)

/-- `flash`, to the transfer exit. -/
def download (image : List UInt8) (appBase largeSector : Nat) :
    StateT State Option Unit := do
  let _ ← client.request [udsSidDiagnosticSessionControl, 0x02]
  let seedResp ← client.request [udsSidSecurityAccess, 0x01]
  let seed := intFromBytesBig ((seedResp.drop 2).take 4)
  let key := seed ^^^ securityKeyXor
  let _ ← client.request (udsSidSecurityAccess :: 0x02 :: toBytesBig4 key)
  let eraseLen := (image.length + largeSector - 1) / largeSector * largeSector
  let _ ← client.request
    ([udsSidRoutineControl, 0x01, 0xFF, 0x00] ++ toBytesBig4 appBase ++
      toBytesBig4 eraseLen)
  let rd ← client.request
    (udsSidRequestDownload :: toBytesBig4 appBase ++ toBytesBig4 image.length)
  client.transfer (hostBlock rd) image.length 1 image
  let _ ← client.request [udsSidRequestTransferExit]
  pure ()

/-- `flash`. -/
def flash (image : List UInt8) (appBase largeSector : Nat) :
    StateT State Option Unit := do
  client.download image appBase largeSector
  let chk ← client.request [udsSidRoutineControl, 0x01, 0xFF, 0x01]
  let status := if 5 ≤ chk.length then chk.getD 4 0 else 0xFF
  if status ≠ 0x00 then
    failure
  else
    client.notify [udsSidEcuReset, 0x01]

end UdsClient

section Clients

variable (imageValid : (Nat → UInt8) → Bool)

/-- The client whose requests reach the server whole. -/
def hostClient : UdsClient HostLink where
  request := hostRequest imageValid
  notify := hostNotify imageValid

/-- The client on the bus. -/
def canClient : UdsClient Wire where
  request := canRequest imageValid
  notify := canNotify imageValid

theorem hostClient_transfer
    (block fuel seq : Nat)
    (rest : List UInt8) :
    (hostClient imageValid).transfer block fuel seq rest =
      hostTransfer imageValid block fuel seq rest := by
  induction fuel generalizing seq rest with
  | zero =>
      rfl
  | succ fuel inductionHypothesis =>
      rw [UdsClient.transfer, hostTransfer]
      simp only [inductionHypothesis]
      rfl

/-- `flash` over the first client is `flash` as `Reprogram` has it. -/
theorem hostClient_flash
    (image : List UInt8)
    (appBase largeSector : Nat) :
    (hostClient imageValid).flash image appBase largeSector =
      hostFlash imageValid image appBase largeSector := by
  unfold UdsClient.flash UdsClient.download hostFlash hostDownload
  simp only [hostClient_transfer]
  rfl

end Clients

end TraveoBodyDomain
