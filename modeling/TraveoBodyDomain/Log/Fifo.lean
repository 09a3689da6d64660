import Mathlib.Data.UInt
import Mathlib.Tactic.Abel
import TraveoBodyDomain.Log.Log

/-!
# The ring of the log is a queue

Head and tail are 32-bit counters that run on and wrap, and an index is their
remainder by the capacity.  What the sink took, followed by what lies between
tail and head, is at every moment the bytes of the items that were accepted, in
order and whole; and what was dropped is what was reported and what is still to
be reported.
-/

namespace TraveoBodyDomain

/-- The bytes of an item. -/
def LogItem.bytes : LogItem → List UInt8
  | .event r => logRecEncode r
  | .report r => logRecEncode r
  | .text bytes => bytes

/-- The items that were put into the ring. -/
def storedItems (trace : List LogEvent) : List LogItem :=
  trace.filterMap fun
    | .stored item => some item
    | _ => none

/-- Their bytes. -/
def storedBytes (trace : List LogEvent) : List UInt8 :=
  (storedItems trace).flatMap LogItem.bytes

/-- The bytes that the sink took. -/
def sentBytes (trace : List LogEvent) : List UInt8 :=
  trace.flatMap fun
    | .sent bytes => bytes
    | _ => []

/-- How many items had no room. -/
def dropCount (trace : List LogEvent) : Nat :=
  trace.countP (· matches .dropped)

/-- The sum of the counts that the items carry. -/
def totalCount (count : LogItem → UInt32) (trace : List LogEvent) : UInt32 :=
  ((storedItems trace).map count).sum

@[simp] theorem storedItems_append (first second : List LogEvent) :
    storedItems (first ++ second) = storedItems first ++ storedItems second :=
  List.filterMap_append ..

@[simp] theorem storedBytes_append (first second : List LogEvent) :
    storedBytes (first ++ second) = storedBytes first ++ storedBytes second := by
  simp [storedBytes]

/-- A report and the record behind it. -/
theorem storedBytes_pair (o e : LogRec) :
    storedBytes [.stored (.report o), .stored (.event e)] =
      logRecEncode o ++ logRecEncode e := by
  change logRecEncode o ++ (logRecEncode e ++ []) = _
  rw [List.append_nil]

@[simp] theorem sentBytes_append (first second : List LogEvent) :
    sentBytes (first ++ second) = sentBytes first ++ sentBytes second := by
  simp [sentBytes]

@[simp] theorem dropCount_append (first second : List LogEvent) :
    dropCount (first ++ second) = dropCount first + dropCount second := by
  simp [dropCount]

@[simp] theorem totalCount_append
    (count : LogItem → UInt32)
    (first second : List LogEvent) :
    totalCount count (first ++ second) =
      totalCount count first + totalCount count second := by
  simp [totalCount]

/-- How many bytes lie between tail and head. -/
def LogState.used (s : LogState) : Nat :=
  (s.head - s.tail).toNat

/-- The bytes between tail and head. -/
def logContent (image : LogImage) (s : LogState) : List UInt8 :=
  CircularBuffer.contents s.ring image.cap.toNat s.tail.toNat s.used

/-- No more lies in the ring than it can hold. -/
def LogState.Fits (image : LogImage) (s : LogState) : Prop :=
  s.used ≤ image.cap.toNat

/-- `log_dropped`. -/
def logDropped (s : LogState) : UInt32 :=
  s.dropped

namespace LogImage

variable (image : LogImage)

/-- The capacity is a power of two that 32 bits can hold. -/
theorem cap_toNat : image.cap.toNat = 2 ^ image.capBits := by
  have small : 2 ^ image.capBits < 2 ^ 32 :=
    Nat.pow_lt_pow_right (by decide) (Nat.lt_succ_of_le image.fits)
  exact UInt32.toNat_ofNat_of_lt' small

/-- It is at most `2 ^ 31`. -/
theorem cap_le : image.cap.toNat ≤ 2 ^ 31 := by
  rw [cap_toNat]
  exact Nat.pow_le_pow_right (by decide) image.fits

/-- It is not zero. -/
theorem cap_pos : 0 < image.cap.toNat := by
  rw [cap_toNat]
  exact Nat.two_pow_pos _

/-- The counters wrap at a multiple of it. -/
theorem cap_dvd : image.cap.toNat ∣ 2 ^ 32 := by
  rw [cap_toNat]
  exact Nat.pow_dvd_pow 2 (Nat.le_succ_of_le image.fits)

/-- The mask takes the remainder by the capacity. -/
theorem index_toNat (position : UInt32) :
    (position &&& image.mask).toNat = position.toNat % image.cap.toNat := by
  have positive : (1 : UInt32) ≤ image.cap :=
    UInt32.le_iff_toNat_le.mpr image.cap_pos
  rw [mask, UInt32.toNat_and, UInt32.toNat_sub_of_le _ _ positive, cap_toNat,
    UInt32.toNat_one, Nat.and_two_pow_sub_one_eq_mod]

/-- A counter moved on by `n` addresses the cell `n` positions further on. -/
theorem position_add (position : UInt32) (n : Nat) :
    (position + UInt32.ofNat n).toNat ≡ position.toNat + n
      [MOD image.cap.toNat] := by
  refine Nat.ModEq.of_dvd image.cap_dvd ?_
  rw [UInt32.toNat_add, UInt32.toNat_ofNat']
  exact (Nat.mod_modEq _ _).trans (Nat.ModEq.add_left _ (Nat.mod_modEq _ _))

end LogImage

section Ring

variable {image : LogImage} {s : LogState}

/-- The two copies are one write that wraps at the end of the ring. -/
theorem logRingCopyIn_eq
    (start : UInt32)
    (src : List UInt8)
    (ring : Nat → UInt8) :
    logRingCopyIn image start src ring =
      CircularBuffer.write ring image.cap.toNat start.toNat src := by
  unfold logRingCopyIn CircularBuffer.write
  simp only [image.index_toNat]
  split_ifs with empty splits
  · rw [List.length_eq_zero_iff.mp empty]
    simp
  · rfl
  · have whole : src.length ≤ image.cap.toNat - start.toNat % image.cap.toNat :=
      by omega
    rw [Nat.min_eq_left whole, List.drop_length, CircularBuffer.overwrite_nil]

/-- The head stands `used` positions behind the tail. -/
theorem head_position :
    s.head.toNat ≡ s.tail.toNat + s.used [MOD image.cap.toNat] := by
  have moved : s.tail + UInt32.ofNat s.used = s.head := by
    rw [LogState.used, UInt32.ofNat_toNat]
    exact add_sub_cancel ..
  have position := image.position_add s.tail s.used
  rwa [moved] at position

/-- The check finds out whether the bytes fit behind the content. -/
theorem logHasRoom_iff (fits : s.Fits image) (need : Nat) :
    logHasRoom image s need = true ↔ s.used + need ≤ image.cap.toNat := by
  have inside : s.head - s.tail ≤ image.cap := UInt32.le_iff_toNat_le.mpr fits
  simp only [logHasRoom, Bool.not_eq_true', Bool.or_eq_false_iff,
    decide_eq_false_iff_not, UInt32.toNat_sub_of_le _ _ inside]
  change ¬ image.cap.toNat < need ∧ ¬ image.cap.toNat - s.used < need ↔ _
  have := fits
  unfold LogState.Fits at this
  omega

/-- A refused enqueue changes nothing. -/
theorem logTryEnqueue_refused
    {first second : List UInt8}
    (refused : (logTryEnqueue image first second s).1 = false) :
    (logTryEnqueue image first second s).2 = s := by
  unfold logTryEnqueue at refused ⊢
  dsimp only at refused ⊢
  split_ifs at refused ⊢
  rfl

/-- What an enqueue that succeeds does. -/
structure Enqueued
    (image : LogImage)
    (s : LogState)
    (bytes : List UInt8)
    (next : LogState) : Prop where
  frame : ∃ ring head, next = { s with ring := ring, head := head }
  fits : next.Fits image
  appended : logContent image next = logContent image s ++ bytes

/-- An enqueue does not touch the sequence number. -/
theorem Enqueued.seq
    {bytes : List UInt8}
    {next : LogState}
    (enqueued : Enqueued image s bytes next) :
    next.seq = s.seq := by
  obtain ⟨ring, head, rfl⟩ := enqueued.frame
  rfl

/-- Both parts are appended to the content, as one. -/
theorem logTryEnqueue_stored
    {first second : List UInt8}
    (fits : s.Fits image)
    (stored : (logTryEnqueue image first second s).1 = true) :
    Enqueued image s (first ++ second)
      (logTryEnqueue image first second s).2 := by
  unfold logTryEnqueue at stored ⊢
  dsimp only at stored ⊢
  split_ifs at stored ⊢ with empty noRoom
  · refine ⟨⟨s.ring, s.head, rfl⟩, fits, ?_⟩
    have noBytes : first ++ second = [] := by
      apply List.length_eq_zero_iff.mp
      rw [List.length_append]
      exact empty
    rw [noBytes, List.append_nil]
  · have room : s.used + (first.length + second.length) ≤ image.cap.toNat := by
      apply (logHasRoom_iff fits _).mp
      simpa using noRoom
    have capBound := image.cap_le
    have used :
        (s.head + UInt32.ofNat (first.length + second.length) - s.tail).toNat =
          s.used + (first.length + second.length) := by
      have split :
          s.head + UInt32.ofNat (first.length + second.length) - s.tail =
            (s.head - s.tail) +
              UInt32.ofNat (first.length + second.length) := by
        exact add_sub_right_comm ..
      rw [split, UInt32.toNat_add, UInt32.toNat_ofNat']
      change (s.used + _) % _ = _
      omega
    refine ⟨⟨_, _, rfl⟩, ?_, ?_⟩
    · unfold LogState.Fits LogState.used
      rw [used]
      exact room
    · unfold logContent LogState.used
      dsimp only
      rw [used, logRingCopyIn_eq, logRingCopyIn_eq]
      have secondStart :
          (s.head + UInt32.ofNat first.length).toNat ≡
            s.tail.toNat + (s.used + first.length) [MOD image.cap.toNat] := by
        rw [← Nat.add_assoc]
        exact (image.position_add _ _).trans (head_position.add_right _)
      have grouped :
          s.used + (first.length + second.length) =
            s.used + first.length + second.length :=
        (Nat.add_assoc ..).symm
      rw [CircularBuffer.write_congr secondStart,
        CircularBuffer.write_congr head_position, grouped,
        CircularBuffer.contents_write (by omega),
        CircularBuffer.contents_write (by omega), List.append_assoc]
      rfl

/-- What a drain that hands on `bytes` does. -/
structure Drained
    (image : LogImage)
    (s : LogState)
    (bytes : List UInt8)
    (next : LogState) : Prop where
  frame : next = { s with tail := s.tail + UInt32.ofNat bytes.length }
  fits : next.Fits image
  taken : logContent image s = bytes ++ logContent image next

/-- Nothing is handed on. -/
theorem Drained.nothing (fits : s.Fits image) : Drained image s [] s := by
  refine ⟨?_, fits, rfl⟩
  have same : s.tail + UInt32.ofNat 0 = s.tail :=
    UInt32.add_zero s.tail
  rw [List.length_nil, same]

/-- Two pieces handed on, one after the other. -/
theorem Drained.append
    {middle last : LogState}
    {first second : List UInt8}
    (before : Drained image s first middle)
    (after : Drained image middle second last) :
    Drained image s (first ++ second) last := by
  refine ⟨?_, after.fits, ?_⟩
  · rw [after.frame, before.frame, List.length_append, UInt32.ofNat_add,
      ← UInt32.add_assoc]
  · rw [before.taken, after.taken, List.append_assoc]

/-- A tail moved on leaves so much less. -/
theorem used_tail_add
    {sent : Nat}
    (inside : sent ≤ s.used) :
    (s.head - (s.tail + UInt32.ofNat sent)).toNat = s.used - sent := by
  have bound : s.used < 2 ^ 32 := (s.head - s.tail).toNat_lt
  have split :
      s.head - (s.tail + UInt32.ofNat sent) =
        (s.head - s.tail) - UInt32.ofNat sent :=
    (sub_sub ..).symm
  have sentNat : (UInt32.ofNat sent).toNat = sent :=
    UInt32.toNat_ofNat_of_lt' (by omega : sent < 2 ^ 32)
  have notMore : UInt32.ofNat sent ≤ s.head - s.tail := by
    rw [UInt32.le_iff_toNat_le, sentNat]
    exact inside
  rw [split, UInt32.toNat_sub_of_le _ _ notMore, sentNat]
  rfl

/-- Consecutive bytes from the tail on are handed on. -/
theorem drained_chunk
    {sent : Nat}
    (fits : s.Fits image)
    (inside : sent ≤ s.used)
    (beforeEnd :
      (s.tail &&& image.mask).toNat + sent ≤ image.cap.toNat) :
    Drained image s
      ((List.range sent).map
        fun i => s.ring ((s.tail &&& image.mask).toNat + i))
      { s with tail := s.tail + UInt32.ofNat sent } := by
  have fitsNat : s.used ≤ image.cap.toNat := fits
  have remaining := used_tail_add inside
  rw [image.index_toNat] at beforeEnd ⊢
  refine ⟨?_, ?_, ?_⟩
  · rw [List.length_map, List.length_range]
  · unfold LogState.Fits LogState.used
    rw [remaining]
    omega
  · unfold logContent LogState.used
    rw [remaining, ← CircularBuffer.contents_before_end beforeEnd,
      CircularBuffer.contents_congr (image.position_add s.tail sent)]
    exact CircularBuffer.contents_drop inside

/-- What is offered lies in the ring, and does not reach over its end. -/
theorem logDrainChunk_le (maxBytes remaining : Nat) :
    logDrainChunk image maxBytes remaining s ≤ s.used ∧
      (s.tail &&& image.mask).toNat +
          logDrainChunk image maxBytes remaining s ≤
        image.cap.toNat := by
  have index : (s.tail &&& image.mask).toNat < image.cap.toNat := by
    rw [image.index_toNat]
    exact Nat.mod_lt _ image.cap_pos
  unfold logDrainChunk LogState.used
  dsimp only
  split_ifs <;> omega

/-- In a bounded call no more is offered than remains to be sent. -/
theorem logDrainChunk_le_remaining
    {maxBytes remaining : Nat}
    (bounded : maxBytes ≠ 0) :
    logDrainChunk image maxBytes remaining s ≤ remaining := by
  unfold logDrainChunk
  dsimp only
  split_ifs with less
  · exact Nat.le_refl remaining
  · omega

/-- However the sink behaves, the loop hands on what stood at the front. -/
theorem logDrainLoop_drains
    (maxBytes : Nat)
    (answers : List SinkAnswer)
    (remaining : Nat)
    (sentAny : Bool)
    (fits : s.Fits image) :
    Drained image s
      (logDrainLoop image maxBytes answers remaining sentAny s).2.1
      (logDrainLoop image maxBytes answers remaining sentAny s).2.2 := by
  induction answers generalizing remaining sentAny s with
  | nil =>
      unfold logDrainLoop
      dsimp only
      split_ifs <;> exact Drained.nothing fits
  | cons answer rest inductionHypothesis =>
      unfold logDrainLoop
      by_cases empty : (s.head - s.tail).toNat = 0
      · rw [if_pos empty]
        exact Drained.nothing fits
      rw [if_neg empty]
      by_cases done : maxBytes ≠ 0 ∧ remaining = 0
      · rw [if_pos done]
        exact Drained.nothing fits
      rw [if_neg done]
      cases answer with
      | notReady =>
          exact Drained.nothing fits
      | accepts n =>
          obtain ⟨inside, beforeEnd⟩ :=
            @logDrainChunk_le image s maxBytes remaining
          dsimp only
          generalize logDrainChunk image maxBytes remaining s = chunk at *
          by_cases refused : min n chunk = 0
          · rw [if_pos refused]
            exact Drained.nothing fits
          rw [if_neg refused]
          have piece :
              Drained image s
                ((List.range (min n chunk)).map
                  fun i => s.ring ((s.tail &&& image.mask).toNat + i))
                { s with tail := s.tail + UInt32.ofNat (min n chunk) } :=
            drained_chunk fits (by omega) (by omega)
          by_cases partly : min n chunk < chunk
          · rw [if_pos partly]
            exact piece
          · rw [if_neg partly]
            exact piece.append (inductionHypothesis _ _ piece.fits)

/-- In a bounded call the loop hands on no more than remained to be sent. -/
theorem logDrainLoop_bounded
    {maxBytes : Nat}
    (bounded : maxBytes ≠ 0)
    (answers : List SinkAnswer)
    (remaining : Nat)
    (sentAny : Bool)
    (s : LogState) :
    (logDrainLoop image maxBytes answers remaining sentAny s).2.1.length ≤
      remaining := by
  induction answers generalizing remaining sentAny s with
  | nil =>
      unfold logDrainLoop
      dsimp only
      split_ifs <;> exact Nat.zero_le remaining
  | cons answer rest inductionHypothesis =>
      unfold logDrainLoop
      by_cases empty : (s.head - s.tail).toNat = 0
      · rw [if_pos empty]
        exact Nat.zero_le remaining
      rw [if_neg empty]
      by_cases done : maxBytes ≠ 0 ∧ remaining = 0
      · rw [if_pos done]
        exact Nat.zero_le remaining
      rw [if_neg done]
      cases answer with
      | notReady =>
          exact Nat.zero_le remaining
      | accepts n =>
          have offered :=
            @logDrainChunk_le_remaining image s maxBytes remaining bounded
          dsimp only
          generalize logDrainChunk image maxBytes remaining s = chunk at *
          by_cases refused : min n chunk = 0
          · rw [if_pos refused]
            exact Nat.zero_le remaining
          rw [if_neg refused]
          by_cases partly : min n chunk < chunk
          · rw [if_pos partly, List.length_map, List.length_range]
            omega
          · rw [if_neg partly, if_pos bounded, List.length_append,
              List.length_map, List.length_range]
            have later :=
              inductionHypothesis (remaining - min n chunk) true
                { s with tail := s.tail + UInt32.ofNat (min n chunk) }
            have inside : min n chunk ≤ remaining := by
              omega
            exact
              (Nat.add_le_add_left later _).trans_eq
                (Nat.add_sub_cancel' inside)

/-- What a call of `log_evt` can do. -/
inductive LogEvtOutcome
    (image : LogImage)
    (nowMs : UInt32)
    (evt : UInt16)
    (arg0 : UInt32)
    (arg1 : UInt16)
    (s : LogState) : LogState × List LogEvent → Prop
  | dropped : LogEvtOutcome image nowMs evt arg0 arg1 s
      (logNoteDrop s, [.dropped])
  | plain
      (nothingPending : s.pendingOverflow = 0)
      (next : LogState)
      (enqueued :
        Enqueued image s
          (logRecEncode ⟨s.core, s.seq, evt, nowMs, arg0, arg1⟩) next) :
      LogEvtOutcome image nowMs evt arg0 arg1 s
        ({ next with seq := logSeqAfter s.seq 1 },
          [.stored (.event ⟨s.core, s.seq, evt, nowMs, arg0, arg1⟩)])
  | reported
      (pending : s.pendingOverflow ≠ 0)
      (next : LogState)
      (enqueued :
        Enqueued image s
          (logRecEncode
              ⟨s.core, s.seq, logEvtOverflow, nowMs, s.pendingOverflow, 0⟩ ++
            logRecEncode
              ⟨s.core, logSeqAfter s.seq 1, evt, nowMs, arg0, arg1⟩) next) :
      LogEvtOutcome image nowMs evt arg0 arg1 s
        ({ next with seq := logSeqAfter s.seq 2, pendingOverflow := 0 },
          [.stored
              (.report
                ⟨s.core, s.seq, logEvtOverflow, nowMs, s.pendingOverflow, 0⟩),
            .stored
              (.event
                ⟨s.core, logSeqAfter s.seq 1, evt, nowMs, arg0, arg1⟩)])

/-- An item is dropped, or stored behind a report of what was dropped. -/
theorem logEvt_outcome
    (nowMs : UInt32)
    (evt : UInt16)
    (arg0 : UInt32)
    (arg1 : UInt16)
    (fits : s.Fits image) :
    LogEvtOutcome image nowMs evt arg0 arg1 s
      (logEvt image nowMs evt arg0 arg1 s) := by
  unfold logEvt
  split
  · next pending =>
      dsimp only
      split
      · next refused =>
          have unchanged := logTryEnqueue_refused (congrArg Prod.fst refused)
          rw [refused] at unchanged
          cases unchanged
          exact .dropped
      · next next stored =>
          have enqueued :=
            logTryEnqueue_stored fits (congrArg Prod.fst stored)
          rw [stored] at enqueued
          have sameSeq : next.seq = s.seq := enqueued.seq
          rw [sameSeq]
          exact .reported pending next enqueued
  · next notPending =>
      dsimp only
      split
      · next refused =>
          have unchanged := logTryEnqueue_refused (congrArg Prod.fst refused)
          rw [refused] at unchanged
          cases unchanged
          exact .dropped
      · next next stored =>
          have enqueued :=
            logTryEnqueue_stored fits (congrArg Prod.fst stored)
          rw [stored] at enqueued
          have sameSeq : next.seq = s.seq := enqueued.seq
          rw [sameSeq]
          exact .plain (not_not.mp notPending) next enqueued

/-- What a call of `log_text` can do. -/
inductive LogTextOutcome
    (image : LogImage)
    (text : List UInt8)
    (s : LogState) : LogState × List LogEvent → Prop
  | rejected
      (notAscii : logTextScan logTextMax text = none) :
      LogTextOutcome image text s (s, [])
  | dropped : LogTextOutcome image text s (logNoteDrop s, [.dropped])
  | stored
      (bytes : List UInt8)
      (scanned : logTextScan logTextMax text = some bytes)
      (next : LogState)
      (enqueued : Enqueued image s bytes next) :
      LogTextOutcome image text s (next, [.stored (.text bytes)])

/-- A text is rejected, dropped, or stored as far as it was scanned. -/
theorem logText_outcome
    (text : List UInt8)
    (fits : s.Fits image) :
    LogTextOutcome image text s (logText image text s) := by
  unfold logText
  split
  · next notAscii =>
      exact .rejected notAscii
  · next bytes scanned =>
      split
      · next refused =>
          have unchanged := logTryEnqueue_refused (congrArg Prod.fst refused)
          rw [refused] at unchanged
          cases unchanged
          exact .dropped
      · next next stored =>
          have enqueued :=
            logTryEnqueue_stored fits (congrArg Prod.fst stored)
          rw [stored, List.append_nil] at enqueued
          exact .stored bytes scanned next enqueued

end Ring

/-- The count in a report; other items carry none. -/
def reportCount : LogItem → UInt32
  | .report r => r.arg0
  | _ => 0

/-- The count in a record under the event ID of a report, whoever logged it. -/
def overflowCount : LogItem → UInt32
  | .report r => if r.evt = logEvtOverflow then r.arg0 else 0
  | .event r => if r.evt = logEvtOverflow then r.arg0 else 0
  | .text _ => 0

/-- What holds of a state and of everything shown on the way to it. -/
structure LogConserves
    (image : LogImage)
    (count : LogItem → UInt32)
    (last : LogState)
    (trace : List LogEvent) : Prop where
  fifo : sentBytes trace ++ logContent image last = storedBytes trace
  counted : logDropped last = UInt32.ofNat (dropCount trace)
  announced : logDropped last = totalCount count trace + last.pendingOverflow

/-- What one call does to the ring and to the counts. -/
structure LogKeeps
    (image : LogImage)
    (s : LogState)
    (events : List LogEvent)
    (next : LogState) : Prop where
  fits : next.Fits image
  fifo :
    logContent image s ++ storedBytes events =
      sentBytes events ++ logContent image next
  counted : next.dropped = s.dropped + UInt32.ofNat (dropCount events)
  announced :
    next.dropped + s.pendingOverflow =
      s.dropped + totalCount reportCount events + next.pendingOverflow

section Steps

variable {image : LogImage} {s : LogState}

/-- A drop is counted in both counters. -/
theorem logNoteDrop_keeps (fits : s.Fits image) :
    LogKeeps image s [.dropped] (logNoteDrop s) := by
  refine ⟨fits, ?_, rfl, ?_⟩
  · exact List.append_nil _
  · change s.dropped + 1 + s.pendingOverflow =
      s.dropped + 0 + (s.pendingOverflow + 1)
    abel

/-- One call of `log_evt`. -/
theorem logEvt_keeps
    (nowMs : UInt32)
    (evt : UInt16)
    (arg0 : UInt32)
    (arg1 : UInt16)
    (fits : s.Fits image) :
    LogKeeps image s (logEvt image nowMs evt arg0 arg1 s).2
      (logEvt image nowMs evt arg0 arg1 s).1 := by
  generalize outcome : logEvt image nowMs evt arg0 arg1 s = result
  have cases_ := logEvt_outcome nowMs evt arg0 arg1 fits
  rw [outcome] at cases_
  cases cases_ with
  | dropped =>
      exact logNoteDrop_keeps fits
  | plain nothingPending next enqueued =>
      obtain ⟨⟨ring, head, rfl⟩, nextFits, appended⟩ := enqueued
      refine ⟨nextFits, ?_, ?_, ?_⟩
      · have bytes :
            storedBytes
                [.stored (.event ⟨s.core, s.seq, evt, nowMs, arg0, arg1⟩)] =
              logRecEncode ⟨s.core, s.seq, evt, nowMs, arg0, arg1⟩ :=
          List.append_nil _
        rw [bytes]
        exact appended.symm
      · exact (UInt32.add_zero _).symm
      · simp [totalCount, storedItems, reportCount]
  | reported pending next enqueued =>
      obtain ⟨⟨ring, head, rfl⟩, nextFits, appended⟩ := enqueued
      refine ⟨nextFits, ?_, ?_, ?_⟩
      · rw [storedBytes_pair]
        exact appended.symm
      · exact (UInt32.add_zero _).symm
      · simp [totalCount, storedItems, reportCount]

/-- One call of `log_text`. -/
theorem logText_keeps
    (text : List UInt8)
    (fits : s.Fits image) :
    LogKeeps image s (logText image text s).2 (logText image text s).1 := by
  generalize outcome : logText image text s = result
  have cases_ := logText_outcome text fits
  rw [outcome] at cases_
  cases cases_ with
  | rejected notAscii =>
      refine ⟨fits, List.append_nil _, (UInt32.add_zero _).symm, ?_⟩
      simp [totalCount, storedItems]
  | dropped =>
      exact logNoteDrop_keeps fits
  | stored bytes scanned next enqueued =>
      obtain ⟨⟨ring, head, rfl⟩, nextFits, appended⟩ := enqueued
      refine ⟨nextFits, ?_, (UInt32.add_zero _).symm, ?_⟩
      · simpa [storedBytes, storedItems, sentBytes, LogItem.bytes] using
          appended.symm
      · simp [totalCount, storedItems, reportCount]

/-- One call of `log_drain`. -/
theorem logDrain_keeps
    (maxBytes : Nat)
    (answers : List SinkAnswer)
    (fits : s.Fits image) :
    LogKeeps image s [.sent (logDrain image maxBytes answers s).2.1]
      (logDrain image maxBytes answers s).2.2 := by
  have drained : Drained image s (logDrain image maxBytes answers s).2.1
      (logDrain image maxBytes answers s).2.2 :=
    logDrainLoop_drains maxBytes answers maxBytes false fits
  refine ⟨drained.fits, ?_, ?_, ?_⟩
  · simpa [storedBytes, storedItems, sentBytes] using drained.taken
  · rw [drained.frame]
    exact (UInt32.add_zero _).symm
  · rw [drained.frame]
    simp [totalCount, storedItems]

/-- One call, whichever it is. -/
theorem logStep_keeps
    (action : LogAction)
    (fits : s.Fits image) :
    LogKeeps image s (logStep image s action).2 (logStep image s action).1 := by
  cases action with
  | evt nowMs evt arg0 arg1 =>
      exact logEvt_keeps nowMs evt arg0 arg1 fits
  | text text =>
      exact logText_keeps text fits
  | drain maxBytes answers =>
      exact logDrain_keeps maxBytes answers fits

/-- A call continues what holds of the run before it. -/
theorem LogConserves.step
    {events history : List LogEvent}
    {next : LogState}
    (conserves : LogConserves image reportCount s history)
    (keeps : LogKeeps image s events next) :
    LogConserves image reportCount next (history ++ events) := by
  refine ⟨?_, ?_, ?_⟩
  · rw [sentBytes_append, storedBytes_append, ← conserves.fifo,
      List.append_assoc, List.append_assoc, keeps.fifo]
  · rw [dropCount_append, UInt32.ofNat_add, ← conserves.counted]
    exact keeps.counted
  · have before := conserves.announced
    have step := keeps.announced
    unfold logDropped at before ⊢
    rw [before] at step
    rw [totalCount_append]
    apply @add_right_cancel _ _ _ _ s.pendingOverflow
    rw [step]
    abel

end Steps

/-- The call is not one that moves the tail. -/
def LogAction.Produces : LogAction → Prop
  | .drain _ _ => False
  | _ => True

/-- The caller logs no record under the event ID of a report. -/
def LogAction.AvoidsOverflow : LogAction → Prop
  | .evt _ id _ _ => id ≠ logEvtOverflow
  | _ => True

instance LogAction.AvoidsOverflow.decidable :
    DecidablePred LogAction.AvoidsOverflow
  | .evt _ id _ _ => inferInstanceAs (Decidable (id ≠ logEvtOverflow))
  | .text _ => inferInstanceAs (Decidable True)
  | .drain _ _ => inferInstanceAs (Decidable True)

section Runs

variable {image : LogImage} {s : LogState}

/-- `log_evt` and `log_text` leave the tail where it is. -/
theorem logStep_tail
    {action : LogAction}
    (produces : action.Produces) :
    (logStep image s action).1.tail = s.tail := by
  have enqueue :
      ∀ first second,
        (logTryEnqueue image first second s).2.tail = s.tail := by
    intro first second
    unfold logTryEnqueue
    dsimp only
    split_ifs <;> rfl
  cases action with
  | evt nowMs evt arg0 arg1 =>
      simp only [logStep, logEvt]
      split
      · have kept := enqueue
          (logRecEncode
            ⟨s.core, s.seq, logEvtOverflow, nowMs, s.pendingOverflow, 0⟩)
          (logRecEncode
            ⟨s.core, logSeqAfter s.seq 1, evt, nowMs, arg0, arg1⟩)
        split <;> simp_all [logNoteDrop]
      · have kept := enqueue []
          (logRecEncode ⟨s.core, s.seq, evt, nowMs, arg0, arg1⟩)
        split <;> simp_all [logNoteDrop]
  | text text =>
      simp only [logStep, logText]
      split
      · rfl
      · next bytes scanned =>
          have kept := enqueue bytes []
          split <;> simp_all [logNoteDrop]
  | drain maxBytes answers =>
      exact produces.elim

/-- Without a caller of that ID, the records under it are the reports. -/
theorem logStep_overflowCount
    {action : LogAction}
    (fits : s.Fits image)
    (avoids : action.AvoidsOverflow) :
    totalCount overflowCount (logStep image s action).2 =
      totalCount reportCount (logStep image s action).2 := by
  cases action with
  | evt nowMs evt arg0 arg1 =>
      have other : evt ≠ logEvtOverflow := avoids
      have cases_ := logEvt_outcome nowMs evt arg0 arg1 fits
      change totalCount _ (logEvt image nowMs evt arg0 arg1 s).2 =
        totalCount _ (logEvt image nowMs evt arg0 arg1 s).2
      generalize logEvt image nowMs evt arg0 arg1 s = result at cases_ ⊢
      cases cases_ <;>
        simp [totalCount, storedItems, overflowCount, reportCount, other]
  | text text =>
      have cases_ := logText_outcome text fits
      change totalCount _ (logText image text s).2 =
        totalCount _ (logText image text s).2
      generalize logText image text s = result at cases_ ⊢
      cases cases_ <;>
        simp [totalCount, storedItems, overflowCount, reportCount]
  | drain maxBytes answers =>
      rfl

/-- After the reset the ring is empty. -/
theorem logReset_used (core : LogCore) (before : LogState) :
    (logReset core before).used = 0 := by
  change ((0 : UInt32) - 0).toNat = 0
  decide

/-- So it holds no more than it can. -/
theorem logReset_fits (core : LogCore) (before : LogState) :
    (logReset core before).Fits image := by
  rw [LogState.Fits, logReset_used]
  exact Nat.zero_le _

/-- What holds after the reset holds after any calls. -/
theorem logRun_conserves
    (core : LogCore)
    (before : LogState)
    (actions : List LogAction) :
    LogConserves image reportCount (logRun image core before actions).1
      (logRun image core before actions).2 := by
  obtain ⟨banner, -, run⟩ := logRun_eq image core before actions
  have preserved :
      ∀ s history action,
        s.Fits image ∧ LogConserves image reportCount s history →
          True →
            (logStep image s action).1.Fits image ∧
              LogConserves image reportCount (logStep image s action).1
                (history ++ (logStep image s action).2) := by
    rintro s history action ⟨fits, conserves⟩ -
    have keeps := logStep_keeps action fits
    exact ⟨keeps.fits, conserves.step keeps⟩
  have start :
      LogConserves image reportCount (logReset core before) [] := by
    refine ⟨?_, rfl, rfl⟩
    rw [logContent, logReset_used]
    rfl
  rw [run]
  exact
    (Machine.invariant_of_start preserved
      ⟨logReset_fits core before, start⟩
      (Machine.allowed_of_forall (fun _ _ => trivial) _ _)).2

/-- The same of the records under the ID of a report. -/
theorem logRun_overflowCount
    (core : LogCore)
    (before : LogState)
    (actions : List LogAction)
    (avoids : ∀ action ∈ actions, action.AvoidsOverflow) :
    totalCount overflowCount (logRun image core before actions).2 =
      totalCount reportCount (logRun image core before actions).2 := by
  obtain ⟨banner, texts, run⟩ := logRun_eq image core before actions
  have allAvoid : ∀ action ∈ banner ++ actions, action.AvoidsOverflow := by
    intro action member
    rcases List.mem_append.mp member with inBanner | called
    · obtain ⟨text, rfl⟩ := texts action inBanner
      trivial
    · exact avoids action called
  have counts :
      ∀ (actions : List LogAction) (s : LogState),
        s.Fits image →
          (∀ action ∈ actions, action.AvoidsOverflow) →
            totalCount overflowCount
                (Machine.trace (logStep image) s actions) =
              totalCount reportCount
                (Machine.trace (logStep image) s actions) := by
    intro actions
    induction actions with
    | nil =>
        intro s _ _
        rfl
    | cons action rest inductionHypothesis =>
        intro s fits avoids
        have now :=
          logStep_overflowCount fits (avoids action (List.mem_cons_self ..))
        have later :=
          inductionHypothesis _ (logStep_keeps action fits).fits
            fun other member => avoids other (List.mem_cons_of_mem _ member)
        rw [Machine.trace_cons, totalCount_append, totalCount_append, now,
          later]
  rw [run]
  exact counts _ _ (logReset_fits core before) allAvoid

end Runs

/--
After any calls, what the sink took and what lies in the ring are the accepted
items, in order and whole; every drop is counted, and is in a report or still
pending.  Only the drain moves the tail, and a bounded drain keeps its bound.

The reports are all the records under their event ID, unless a caller logs one
under that ID itself.
-/
theorem log_ring_is_a_queue
    (image : LogImage)
    (core : LogCore)
    (before : LogState)
    (actions : List LogAction) :
    LogConserves image reportCount (logRun image core before actions).1
        (logRun image core before actions).2 ∧
      ((∀ action ∈ actions, action.AvoidsOverflow) →
        LogConserves image overflowCount (logRun image core before actions).1
          (logRun image core before actions).2) ∧
      (∀ s action,
        action.Produces → (logStep image s action).1.tail = s.tail) ∧
      ∀ maxBytes answers s,
        maxBytes ≠ 0 →
          (logDrain image maxBytes answers s).2.1.length ≤ maxBytes := by
  have conserves := @logRun_conserves image core before actions
  refine ⟨conserves, ?_, ?_, ?_⟩
  · intro avoids
    refine ⟨conserves.fifo, conserves.counted, ?_⟩
    rw [logRun_overflowCount core before actions avoids]
    exact conserves.announced
  · intro s action produces
    exact logStep_tail produces
  · intro maxBytes answers s bounded
    exact logDrainLoop_bounded bounded answers maxBytes false s

/-- An image with a ring of 64 bytes. -/
def smallImage : LogImage where
  capBits := 6
  fits := by decide
  imageName := []
  buildId := []

/-- Statics before `log_init`. -/
def blankLog : LogState where
  core := .security
  seq := 0
  dropped := 0
  pendingOverflow := 0
  ring := fun _ => 0
  head := 0
  tail := 0

/-- Five records, of which the ring holds four; then room, and two more. -/
def droppingCalls : List LogAction :=
  [.evt 1 0x0401 0 0, .evt 2 0x0401 1 0, .evt 3 0x0401 2 0, .evt 4 0x0401 3 0,
    .evt 5 0x0401 4 0, .drain 40 [.accepts 33, .accepts 9], .text [0x68, 0x69],
    .evt 6 0x0401 5 0, .drain 0 [.accepts 20, .accepts 64], .evt 7 0x0401 6 0]

/-- The counts of this run, from the theorem. -/
theorem dropping_run_is_a_queue :
    logDropped (logRun smallImage .security blankLog droppingCalls).1 = 2 ∧
      LogConserves smallImage overflowCount
        (logRun smallImage .security blankLog droppingCalls).1
        (logRun smallImage .security blankLog droppingCalls).2 :=
  ⟨by decide +kernel,
    (log_ring_is_a_queue smallImage .security blankLog droppingCalls).2.1
      (by decide)⟩

/-- A caller's own record under that ID counts no drop. -/
theorem caller_overflow_record_is_no_drop :
    logDropped
          (logRun smallImage .security blankLog [.evt 0 logEvtOverflow 5 0]).1 =
        0 ∧
      totalCount overflowCount
          (logRun smallImage .security blankLog [.evt 0 logEvtOverflow 5 0]).2 =
        5 ∧
      ¬ LogConserves smallImage overflowCount
        (logRun smallImage .security blankLog [.evt 0 logEvtOverflow 5 0]).1
        (logRun smallImage .security blankLog [.evt 0 logEvtOverflow 5 0]).2 := by
  refine ⟨by decide +kernel, by decide +kernel, ?_⟩
  intro conserves
  have announced := conserves.announced
  revert announced
  decide +kernel

end TraveoBodyDomain
