import TraveoBodyDomain.Lib.CircularBuffer
import TraveoBodyDomain.Lib.Machine
import TraveoBodyDomain.Log.Record

/-!
# The log of one image

`log.c`: records and text go into a ring of bytes, and the drain hands them on
to the sink.  What does not fit is dropped and counted, and the next record
that fits is preceded by a report of the count.

The sink is the environment's: whenever the drain asks, it is told how many
bytes the sink would take, or that the sink is not ready.
-/

namespace TraveoBodyDomain

/--
What the build fixes for an image: the capacity of its ring, which is a power of
two, and the two strings of its banner.
-/
structure LogImage where
  capBits : Nat
  fits : capBits ≤ 31
  imageName : List UInt8
  buildId : List UInt8

namespace LogImage

/-- `log_port_ring_cap`. -/
def cap (image : LogImage) : UInt32 :=
  UInt32.ofNat (2 ^ image.capBits)

/-- The mask of an index. -/
def mask (image : LogImage) : UInt32 :=
  image.cap - 1

end LogImage

/-- The statics of `log.c`, and what the port holds for it. -/
structure LogState where
  core : LogCore
  seq : UInt8
  dropped : UInt32
  pendingOverflow : UInt32
  ring : Nat → UInt8
  head : UInt32
  tail : UInt32

/-- `log_drain_t`. -/
inductive LogDrain where
  | idle
  | sent
  | blocked
  deriving Repr, DecidableEq

/-- What the sink does when the drain comes to it. -/
inductive SinkAnswer where
  /-- `log_port_sink_ready` is false -/
  | notReady
  /-- `log_port_tx` takes this many bytes, or all when there are fewer -/
  | accepts (n : Nat)
  deriving Repr, DecidableEq

/-- What is put into the ring as a whole. -/
inductive LogItem where
  /-- a record that a caller asked for -/
  | event (r : LogRec)
  /-- the record that `log_evt` puts before it to report drops -/
  | report (r : LogRec)
  /-- the bytes of `log_text` -/
  | text (bytes : List UInt8)
  deriving Repr, DecidableEq

/-- What an observer sees of a call. -/
inductive LogEvent where
  /-- an item was put into the ring -/
  | stored (item : LogItem)
  /-- an item had no room -/
  | dropped
  /-- the sink took these bytes -/
  | sent (bytes : List UInt8)
  deriving Repr, DecidableEq

section Ring

variable (image : LogImage)

/-- `log_ring_copy_in`. -/
def logRingCopyIn (start : UInt32) (src : List UInt8) (ring : Nat → UInt8) :
    Nat → UInt8 :=
  let idx := (start &&& image.mask).toNat
  if src.length = 0 then
    ring
  else
    let first := min src.length (image.cap.toNat - idx)
    let ring := CircularBuffer.overwrite ring idx (src.take first)
    if first < src.length then
      CircularBuffer.overwrite ring 0 (src.drop first)
    else
      ring

/-- The check of `log_try_enqueue`, for `need` bytes. -/
def logHasRoom (s : LogState) (need : Nat) : Bool :=
  let used := s.head - s.tail
  !(image.cap.toNat < need || (image.cap - used).toNat < need)

/-- `log_try_enqueue`. -/
def logTryEnqueue (first second : List UInt8) (s : LogState) :
    Bool × LogState :=
  let need := first.length + second.length
  if need = 0 then
    (true, s)
  else if !logHasRoom image s need then
    (false, s)
  else
    let ring := logRingCopyIn image s.head first s.ring
    let ring :=
      logRingCopyIn image (s.head + UInt32.ofNat first.length) second ring
    (true, { s with ring := ring, head := s.head + UInt32.ofNat need })

/-- `log_note_drop`. -/
def logNoteDrop (s : LogState) : LogState :=
  { s with
    dropped := s.dropped + 1
    pendingOverflow := s.pendingOverflow + 1 }

/-- The sequence number `n` steps on. -/
def logSeqAfter (seq n : UInt8) : UInt8 :=
  (seq + n) &&& logSeqMask

/-- `log_evt`, called when the clock reads `nowMs`. -/
def logEvt (nowMs : UInt32) (evt : UInt16) (arg0 : UInt32) (arg1 : UInt16)
    (s : LogState) : LogState × List LogEvent :=
  if s.pendingOverflow ≠ 0 then
    let overflowRec : LogRec :=
      ⟨s.core, s.seq, logEvtOverflow, nowMs, s.pendingOverflow, 0⟩
    let eventRec : LogRec :=
      ⟨s.core, logSeqAfter s.seq 1, evt, nowMs, arg0, arg1⟩
    match logTryEnqueue image (logRecEncode overflowRec)
        (logRecEncode eventRec) s with
    | (false, s) => (logNoteDrop s, [.dropped])
    | (true, s) =>
        ({ s with seq := logSeqAfter s.seq 2, pendingOverflow := 0 },
          [.stored (.report overflowRec), .stored (.event eventRec)])
  else
    let eventRec : LogRec := ⟨s.core, s.seq, evt, nowMs, arg0, arg1⟩
    match logTryEnqueue image [] (logRecEncode eventRec) s with
    | (false, s) => (logNoteDrop s, [.dropped])
    | (true, s) =>
        ({ s with seq := logSeqAfter s.seq 1 }, [.stored (.event eventRec)])

/--
The scan of `log_text` over at most so many characters of the string, up to its
NUL; `none` when it meets a byte with the high bit.
-/
def logTextScan : Nat → List UInt8 → Option (List UInt8)
  | 0, _ => some []
  | _, [] => some []
  | n + 1, c :: rest =>
      if c = 0 then
        some []
      else if c &&& 0x80 ≠ 0 then
        none
      else
        (logTextScan n rest).map (c :: ·)

/-- `log_text` of a string; the end of the list is its NUL. -/
def logText (text : List UInt8) (s : LogState) : LogState × List LogEvent :=
  match logTextScan logTextMax text with
  | none => (s, [])
  | some bytes =>
      match logTryEnqueue image bytes [] s with
      | (false, s) => (logNoteDrop s, [.dropped])
      | (true, s) => (s, [.stored (.text bytes)])

/-- The bytes of a string literal. -/
def logAscii (text : String) : List UInt8 :=
  text.toList.map fun c => UInt8.ofNat c.toNat

/-- `log_banner`. -/
def logBanner (s : LogState) : LogState × List LogEvent :=
  match s.core with
  | .security =>
      logText image
        (logAscii "\n--- " ++ image.imageName ++ logAscii "/sec " ++
          image.buildId ++ logAscii " ---\n") s
  | .app =>
      logText image
        (logAscii "\n--- " ++ image.imageName ++ logAscii " " ++
          image.buildId ++ logAscii " ---\n") s

/-- The statics and the ring as `log_init` resets them. -/
def logReset (core : LogCore) (s : LogState) : LogState :=
  { s with
    core := core
    seq := 0
    dropped := 0
    pendingOverflow := 0
    head := 0
    tail := 0 }

/-- `log_init`. -/
def logInit (core : LogCore) (s : LogState) : LogState × List LogEvent :=
  match core with
  | .app => logBanner image (logReset .app s)
  | .security => (logReset .security s, [])

/-- How many bytes a round of `log_drain` offers to the sink. -/
def logDrainChunk (maxBytes remaining : Nat) (s : LogState) : Nat :=
  let used := (s.head - s.tail).toNat
  let idx := (s.tail &&& image.mask).toNat
  let chunk := min used (image.cap.toNat - idx)
  if maxBytes ≠ 0 ∧ remaining < chunk then remaining else chunk

/--
The loop of `log_drain`; a sink that has nothing more to say is not ready.

`remaining` is looked at only when the call is bounded.
-/
def logDrainLoop (maxBytes : Nat) :
    List SinkAnswer → Nat → Bool → LogState →
      LogDrain × List UInt8 × LogState
  | answers, remaining, sentAny, s =>
      if (s.head - s.tail).toNat = 0 then
        (if sentAny then .sent else .idle, [], s)
      else if maxBytes ≠ 0 ∧ remaining = 0 then
        (if sentAny then .sent else .idle, [], s)
      else
        match answers with
        | [] => (.blocked, [], s)
        | .notReady :: _ => (.blocked, [], s)
        | .accepts n :: answers =>
            let idx := (s.tail &&& image.mask).toNat
            let chunk := logDrainChunk image maxBytes remaining s
            let sent := min n chunk
            if sent = 0 then
              (.blocked, [], s)
            else
              let bytes := (List.range sent).map fun i => s.ring (idx + i)
              let s := { s with tail := s.tail + UInt32.ofNat sent }
              if sent < chunk then
                (.blocked, bytes, s)
              else
                let (st, more, s) :=
                  logDrainLoop maxBytes answers
                    (if maxBytes ≠ 0 then remaining - sent else remaining)
                    true s
                (st, bytes ++ more, s)

/-- `log_drain`; `maxBytes = 0` is unbounded. -/
def logDrain (maxBytes : Nat) (answers : List SinkAnswer) (s : LogState) :
    LogDrain × List UInt8 × LogState :=
  logDrainLoop image maxBytes answers maxBytes false s

end Ring

/-- A call. -/
inductive LogAction where
  | evt (nowMs : UInt32) (evt : UInt16) (arg0 : UInt32) (arg1 : UInt16)
  | text (text : List UInt8)
  | drain (maxBytes : Nat) (answers : List SinkAnswer)
  deriving Repr, DecidableEq

/-- One call after the other. -/
def logStep (image : LogImage) : Machine.Step LogState LogAction LogEvent
  | s, .evt nowMs evt arg0 arg1 => logEvt image nowMs evt arg0 arg1 s
  | s, .text text => logText image text s
  | s, .drain maxBytes answers =>
      let (_, bytes, s) := logDrain image maxBytes answers s
      (s, [.sent bytes])

/-- `log_init`, and then the calls; the last state and all that is shown. -/
def logRun
    (image : LogImage)
    (core : LogCore)
    (before : LogState)
    (actions : List LogAction) : LogState × List LogEvent :=
  let (start, shown) := logInit image core before
  (Machine.final (logStep image) start actions,
    shown ++ Machine.trace (logStep image) start actions)

/-- The banner of `log_init` is one call of `log_text`, if there is one. -/
theorem logRun_eq
    (image : LogImage)
    (core : LogCore)
    (before : LogState)
    (actions : List LogAction) :
    ∃ banner : List LogAction,
      (∀ action ∈ banner, ∃ text, action = .text text) ∧
        logRun image core before actions =
          (Machine.final (logStep image) (logReset core before)
              (banner ++ actions),
            Machine.trace (logStep image) (logReset core before)
              (banner ++ actions)) := by
  cases core with
  | security =>
      refine ⟨[], ?_, rfl⟩
      intro action member
      cases member
  | app =>
      refine ⟨[.text _], ?_, rfl⟩
      intro action member
      exact ⟨_, List.mem_singleton.mp member⟩

end TraveoBodyDomain
