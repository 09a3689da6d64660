import Mathlib.Logic.Function.Basic
import Mathlib.Data.List.Basic
import TraveoBodyDomain.Lib.Incremental
import TraveoBodyDomain.Log.Record

/-!
# The decoder on the host

`log_decode.py`: what arrives is put into a buffer, and as much of it as can be
decided on is turned into text, records and gaps.  A sync byte whose frame has
the wrong CRC is dropped alone.

The decoder works on the buffer as a whole, text run by text run.  Behind it is
a scanner that takes one byte of text, one frame or one rejected sync byte at a
time, and this module connects the two.
-/

namespace TraveoBodyDomain

/-- `REC_SIZE`. -/
def hostRecSize : Nat :=
  16

/-- `SYNC`. -/
def hostSync : UInt8 :=
  0xA5

/-- `OFF_CRC`. -/
def hostOffCrc : Nat :=
  14

/-- `SEQ_MOD`. -/
def hostSeqMod : Nat :=
  64

/-- `BOOT_EVT_ID`, from the generated table. -/
def bootEvtId : Nat :=
  0x0001

/-- One round of the inner loop of `crc16`. -/
def hostCrc16Bit (crc : Nat) : Nat :=
  if crc &&& 0x8000 ≠ 0 then ((crc <<< 1) ^^^ 0x1021) &&& 0xFFFF
  else (crc <<< 1) &&& 0xFFFF

/-- One round of the outer loop of `crc16`. -/
def hostCrc16Byte (crc : Nat) (b : UInt8) : Nat :=
  Nat.repeat hostCrc16Bit 8 (crc ^^^ (b.toNat <<< 8))

/-- `crc16`. -/
def hostCrc16 (data : List UInt8) : Nat :=
  data.foldl hostCrc16Byte 0xFFFF

/-- `struct.unpack_from("<H", frame, off)`. -/
def unpackH (frame : List UInt8) (off : Nat) : Nat :=
  (frame.getD off 0).toNat + 256 * (frame.getD (off + 1) 0).toNat

/-- `struct.unpack_from("<I", frame, off)`. -/
def unpackI (frame : List UInt8) (off : Nat) : Nat :=
  unpackH frame off + 65536 * unpackH frame (off + 2)

/-- `bytes.decode("ascii", errors="replace")`. -/
def decodeAscii (bytes : List UInt8) : List Char :=
  bytes.map fun b => if b < 128 then Char.ofNat b.toNat else '\uFFFD'

/-- `Record`. -/
structure HostRecord where
  core : Nat
  seq : Nat
  evt : Nat
  tsMs : Nat
  arg0 : Nat
  arg1 : Nat
  deriving Repr, DecidableEq

/-- `Record`, `Text` or `Gap`. -/
inductive HostItem where
  | record (r : HostRecord)
  | text (text : List Char)
  | gap (core missing : Nat)
  deriving Repr, DecidableEq

/-- `Decoder`. -/
structure LogDecoder where
  buf : List UInt8
  lastSeq : Nat → Option Nat
  records : Nat
  textBytes : Nat
  resyncs : Nat
  lost : Nat

/-- `Decoder.__init__`. -/
def LogDecoder.new : LogDecoder where
  buf := []
  lastSeq := fun _ => none
  records := 0
  textBytes := 0
  resyncs := 0
  lost := 0

/-- The fields of a frame. -/
def decodeRecord (frame : List UInt8) : HostRecord :=
  let coreSeq := (frame.getD 1 0).toNat
  { core := (coreSeq >>> 6) &&& 0x03
    seq := coreSeq &&& 0x3F
    evt := unpackH frame 2
    tsMs := unpackI frame 4
    arg0 := unpackI frame 8
    arg1 := unpackH frame 12 }

/-- How many sequence numbers were skipped before a record. -/
def missingBefore (lastSeq : Nat → Option Nat) (r : HostRecord) : Nat :=
  let prev := if r.evt = bootEvtId then none else lastSeq r.core
  match prev with
  | none => 0
  | some prev => (((r.seq : Int) - prev - 1) % hostSeqMod).toNat

/-- The gap that is reported before a record. -/
def gapBefore (lastSeq : Nat → Option Nat) (r : HostRecord) : List HostItem :=
  if missingBefore lastSeq r ≠ 0 then
    [.gap r.core (missingBefore lastSeq r)]
  else
    []

namespace LogDecoder

/-- `Decoder._emit`. -/
def emit (frame : List UInt8) (d : LogDecoder) : List HostItem × LogDecoder :=
  let r := decodeRecord frame
  (gapBefore d.lastSeq r ++ [.record r],
    { d with
      lost := d.lost + missingBefore d.lastSeq r
      lastSeq := Function.update d.lastSeq r.core (some r.seq)
      records := d.records + 1 })

/-- The check that makes a frame of 16 bytes a record. -/
def crcMatches (frame : List UInt8) : Bool :=
  hostCrc16 (frame.take hostOffCrc) == unpackH frame hostOffCrc

/-- The text before the next sync byte is emitted. -/
def emitText (idx : Nat) (d : LogDecoder) : List HostItem × LogDecoder :=
  if 0 < idx then
    ([.text (decodeAscii (d.buf.take idx))],
      { d with
        textBytes := d.textBytes + idx
        buf := d.buf.drop idx })
  else
    ([], d)

/-- The loop of `Decoder._drain`; each round drops a byte or ends it. -/
def drainLoop : Nat → LogDecoder → List HostItem × LogDecoder
  | 0, d => ([], d)
  | fuel + 1, d =>
      match d.buf.findIdx? (· == hostSync) with
      | none => d.emitText d.buf.length
      | some idx =>
          let (out, d) := d.emitText idx
          if d.buf.length < hostRecSize then
            (out, d)
          else
            let frame := d.buf.take hostRecSize
            if !crcMatches frame then
              let (more, d) :=
                drainLoop fuel
                  { d with resyncs := d.resyncs + 1, buf := d.buf.drop 1 }
              (out ++ more, d)
            else
              let (items, d) := d.emit frame
              let (more, d) :=
                drainLoop fuel { d with buf := d.buf.drop hostRecSize }
              (out ++ (items ++ more), d)

/-- `Decoder.feed`. -/
def feed (data : List UInt8) (d : LogDecoder) : List HostItem × LogDecoder :=
  drainLoop (d.buf.length + data.length + 1) { d with buf := d.buf ++ data }

/-- `Decoder.feed` for one piece of a stream after the other. -/
def feedAll : List (List UInt8) → LogDecoder → List HostItem × LogDecoder
  | [], d => ([], d)
  | data :: rest, d =>
      let (out, d) := d.feed data
      let (more, d) := feedAll rest d
      (out ++ more, d)

end LogDecoder

/-- What the decoder decides on at a time. -/
inductive LogToken where
  | text (byte : UInt8)
  | frame (bytes : List UInt8)
  | skip
  deriving Repr, DecidableEq

/-- The next token; `none` when a frame may be incomplete. -/
def logNext : List UInt8 → Option (LogToken × List UInt8)
  | [] => none
  | b :: rest =>
      if b ≠ hostSync then
        some (.text b, rest)
      else if (b :: rest).length < hostRecSize then
        none
      else if LogDecoder.crcMatches ((b :: rest).take hostRecSize) then
        some
          (.frame ((b :: rest).take hostRecSize),
            (b :: rest).drop hostRecSize)
      else
        some (.skip, rest)

/-- A byte of text is a token. -/
theorem logNext_text
    {b : UInt8}
    (notSync : b ≠ hostSync)
    (rest : List UInt8) :
    logNext (b :: rest) = some (.text b, rest) := by
  rw [logNext, if_pos notSync]

/-- An incomplete frame waits. -/
theorem logNext_short
    {rest : List UInt8}
    (short : (hostSync :: rest).length < hostRecSize) :
    logNext (hostSync :: rest) = none := by
  rw [logNext, if_neg (not_not.mpr rfl), if_pos short]

/-- A frame with the right CRC is a token. -/
theorem logNext_frame
    {rest : List UInt8}
    (long : ¬ (hostSync :: rest).length < hostRecSize)
    (accepted :
      LogDecoder.crcMatches ((hostSync :: rest).take hostRecSize) = true) :
    logNext (hostSync :: rest) =
      some
        (.frame ((hostSync :: rest).take hostRecSize),
          (hostSync :: rest).drop hostRecSize) := by
  rw [logNext, if_neg (not_not.mpr rfl), if_neg long, if_pos accepted]

/-- A sync byte before the wrong CRC is dropped. -/
theorem logNext_skip
    {rest : List UInt8}
    (long : ¬ (hostSync :: rest).length < hostRecSize)
    (rejected :
      ¬ LogDecoder.crcMatches ((hostSync :: rest).take hostRecSize) = true) :
    logNext (hostSync :: rest) = some (.skip, rest) := by
  rw [logNext, if_neg (not_not.mpr rfl), if_neg long, if_neg rejected]

/-- The scanner behind the decoder. -/
def logScanner : Incremental.Scanner UInt8 LogToken where
  next := logNext
  shrinks := by
    intro input token rest taken
    cases input with
    | nil =>
        cases taken
    | cons b tail =>
        by_cases sync : b = hostSync
        · subst sync
          by_cases short : (hostSync :: tail).length < hostRecSize
          · rw [logNext_short short] at taken
            cases taken
          by_cases accepted :
              LogDecoder.crcMatches ((hostSync :: tail).take hostRecSize) =
                true
          · rw [logNext_frame short accepted] at taken
            cases taken
            rw [List.length_drop, List.length_cons]
            exact Nat.sub_lt (Nat.succ_pos _) (by decide)
          · rw [logNext_skip short accepted] at taken
            cases taken
            exact Nat.lt_succ_self _
        · rw [logNext_text sync] at taken
          cases taken
          exact Nat.lt_succ_self _
  stable := by
    intro input token rest more taken
    cases input with
    | nil =>
        cases taken
    | cons b tail =>
        by_cases sync : b = hostSync
        · subst sync
          by_cases short : (hostSync :: tail).length < hostRecSize
          · rw [logNext_short short] at taken
            cases taken
          have long : hostRecSize ≤ (hostSync :: tail).length :=
            Nat.not_lt.mp short
          have stillLong :
              ¬ (hostSync :: (tail ++ more)).length < hostRecSize := by
            rw [← List.cons_append, List.length_append]
            omega
          have sameFrame :
              (hostSync :: (tail ++ more)).take hostRecSize =
                (hostSync :: tail).take hostRecSize := by
            rw [← List.cons_append, List.take_append_of_le_length long]
          by_cases accepted :
              LogDecoder.crcMatches ((hostSync :: tail).take hostRecSize) =
                true
          · rw [logNext_frame short accepted] at taken
            cases taken
            rw [List.cons_append,
              logNext_frame stillLong (by rw [sameFrame]; exact accepted),
              sameFrame, ← List.cons_append,
              List.drop_append_of_le_length long]
          · rw [logNext_skip short accepted] at taken
            cases taken
            rw [List.cons_append,
              logNext_skip stillLong (by rw [sameFrame]; exact accepted)]
        · rw [logNext_text sync] at taken
          cases taken
          rw [List.cons_append, logNext_text sync]

/-- The frames among the tokens, with their fields. -/
def recordsOfTokens (tokens : List LogToken) : List HostRecord :=
  tokens.filterMap fun
    | .frame bytes => some (decodeRecord bytes)
    | _ => none

/-- The text among the tokens. -/
def textOfTokens (tokens : List LogToken) : List UInt8 :=
  tokens.filterMap fun
    | .text byte => some byte
    | _ => none

/-- How many sync bytes were rejected. -/
def skipsOfTokens (tokens : List LogToken) : Nat :=
  tokens.countP (· matches .skip)

/-- The records and gaps that were emitted. -/
def spokenItems (items : List HostItem) : List HostItem :=
  items.filter fun item => !(item matches .text _)

/-- The text that was emitted. -/
def textOfItems (items : List HostItem) : List Char :=
  items.flatMap fun
    | .text text => text
    | _ => []

/-- The records that were emitted. -/
def recordsOfItems (items : List HostItem) : List HostRecord :=
  items.filterMap fun
    | .record r => some r
    | _ => none

/-- Records, each behind the gap that is reported before it. -/
def announced :
    (Nat → Option Nat) → List HostRecord → List HostItem
  | _, [] => []
  | lastSeq, r :: rest =>
      gapBefore lastSeq r ++ .record r ::
        announced (Function.update lastSeq r.core (some r.seq)) rest

/-- The last sequence number of each core after some records. -/
def seqAfter (lastSeq : Nat → Option Nat) (records : List HostRecord) :
    Nat → Option Nat :=
  records.foldl (fun last r => Function.update last r.core (some r.seq)) lastSeq

/-- How many sequence numbers were skipped before some records. -/
def lostIn : (Nat → Option Nat) → List HostRecord → Nat
  | _, [] => 0
  | lastSeq, r :: rest =>
      missingBefore lastSeq r +
        lostIn (Function.update lastSeq r.core (some r.seq)) rest

/-- What was announced of two runs of records, one after the other. -/
theorem announced_append
    (lastSeq : Nat → Option Nat)
    (first second : List HostRecord) :
    announced lastSeq (first ++ second) =
      announced lastSeq first ++
        announced (seqAfter lastSeq first) second := by
  induction first generalizing lastSeq with
  | nil =>
      rfl
  | cons r rest inductionHypothesis =>
      simp [announced, seqAfter, inductionHypothesis]

/-- What was lost in two runs of records, one after the other. -/
theorem lostIn_append
    (lastSeq : Nat → Option Nat)
    (first second : List HostRecord) :
    lostIn lastSeq (first ++ second) =
      lostIn lastSeq first + lostIn (seqAfter lastSeq first) second := by
  induction first generalizing lastSeq with
  | nil =>
      exact (Nat.zero_add _).symm
  | cons r rest inductionHypothesis =>
      simp [lostIn, seqAfter, inductionHypothesis, Nat.add_assoc]

/-- Between the gaps stand the records. -/
theorem recordsOfItems_announced
    (lastSeq : Nat → Option Nat)
    (records : List HostRecord) :
    recordsOfItems (announced lastSeq records) = records := by
  induction records generalizing lastSeq with
  | nil =>
      rfl
  | cons r rest inductionHypothesis =>
      have gap : recordsOfItems (gapBefore lastSeq r) = [] := by
        unfold gapBefore
        split <;> rfl
      unfold recordsOfItems at gap inductionHypothesis ⊢
      rw [announced, List.filterMap_append, gap, List.nil_append]
      exact congrArg (r :: ·) (inductionHypothesis _)

/-- Text comes between records, and changes nothing about them. -/
theorem recordsOfItems_spoken (items : List HostItem) :
    recordsOfItems (spokenItems items) = recordsOfItems items := by
  induction items with
  | nil =>
      rfl
  | cons item rest inductionHypothesis =>
      cases item with
      | record r =>
          exact congrArg (r :: ·) inductionHypothesis
      | text text =>
          exact inductionHypothesis
      | gap core missing =>
          exact inductionHypothesis

/-- What the decoder made of some tokens; the buffer is left out. -/
structure Decodes
    (d : LogDecoder)
    (tokens : List LogToken)
    (out : List HostItem)
    (after : LogDecoder) : Prop where
  spoken : spokenItems out = announced d.lastSeq (recordsOfTokens tokens)
  text : textOfItems out = decodeAscii (textOfTokens tokens)
  lastSeq : after.lastSeq = seqAfter d.lastSeq (recordsOfTokens tokens)
  records : after.records = d.records + (recordsOfTokens tokens).length
  textBytes : after.textBytes = d.textBytes + (textOfTokens tokens).length
  resyncs : after.resyncs = d.resyncs + skipsOfTokens tokens
  lost : after.lost = d.lost + lostIn d.lastSeq (recordsOfTokens tokens)

section Decoding

variable {d : LogDecoder}

/-- No token, no output. -/
theorem Decodes.nothing (d : LogDecoder) : Decodes d [] [] d :=
  ⟨rfl, rfl, rfl, rfl, rfl, rfl, rfl⟩

/-- The records that were emitted are those of the tokens. -/
theorem Decodes.recordsOfItems
    {tokens : List LogToken}
    {out : List HostItem}
    {after : LogDecoder}
    (decodes : Decodes d tokens out after) :
    recordsOfItems out = recordsOfTokens tokens := by
  rw [← recordsOfItems_spoken, decodes.spoken, recordsOfItems_announced]

/-- Where the buffer stands does not matter. -/
theorem Decodes.withBuf
    {tokens : List LogToken}
    {out : List HostItem}
    {after : LogDecoder}
    (decodes : Decodes d tokens out after)
    (before behind : List UInt8) :
    Decodes { d with buf := before } tokens out { after with buf := behind } :=
  ⟨decodes.spoken, decodes.text, decodes.lastSeq, decodes.records,
    decodes.textBytes, decodes.resyncs, decodes.lost⟩

/-- Tokens after tokens. -/
theorem Decodes.append
    {middle last : LogDecoder}
    {first second : List LogToken}
    {early late : List HostItem}
    (before : Decodes d first early middle)
    (after : Decodes middle second late last) :
    Decodes d (first ++ second) (early ++ late) last := by
  have frames :
      recordsOfTokens (first ++ second) =
        recordsOfTokens first ++ recordsOfTokens second :=
    List.filterMap_append
  have texts :
      textOfTokens (first ++ second) =
        textOfTokens first ++ textOfTokens second :=
    List.filterMap_append
  refine ⟨?_, ?_, ?_, ?_, ?_, ?_, ?_⟩
  · have items :
        spokenItems (early ++ late) = spokenItems early ++ spokenItems late :=
      List.filter_append ..
    rw [items, frames, announced_append, before.spoken, after.spoken,
      before.lastSeq]
  · have items :
        textOfItems (early ++ late) = textOfItems early ++ textOfItems late :=
      List.flatMap_append
    have decoded :
        decodeAscii (textOfTokens first ++ textOfTokens second) =
          decodeAscii (textOfTokens first) ++
            decodeAscii (textOfTokens second) :=
      List.map_append
    rw [items, texts, decoded, before.text, after.text]
  · rw [after.lastSeq, before.lastSeq, frames, seqAfter, seqAfter, seqAfter,
      List.foldl_append]
  · rw [after.records, before.records, frames, List.length_append,
      Nat.add_assoc]
  · rw [after.textBytes, before.textBytes, texts, List.length_append,
      Nat.add_assoc]
  · rw [after.resyncs, before.resyncs, skipsOfTokens, skipsOfTokens,
      skipsOfTokens, List.countP_append, Nat.add_assoc]
  · rw [after.lost, before.lost, frames, lostIn_append, before.lastSeq,
      Nat.add_assoc]

/-- A frame is one record. -/
theorem emit_decodes (frame : List UInt8) (d : LogDecoder) :
    Decodes d [.frame frame] (d.emit frame).1 (d.emit frame).2 := by
  have quiet :
      textOfItems (gapBefore d.lastSeq (decodeRecord frame)) = [] ∧
        spokenItems (gapBefore d.lastSeq (decodeRecord frame)) =
          gapBefore d.lastSeq (decodeRecord frame) := by
    unfold gapBefore
    split <;> exact ⟨rfl, rfl⟩
  refine ⟨?_, ?_, rfl, rfl, rfl, rfl, rfl⟩
  · unfold spokenItems at quiet
    change List.filter _ (gapBefore d.lastSeq (decodeRecord frame) ++ [_]) =
      gapBefore d.lastSeq (decodeRecord frame) ++ [_]
    rw [List.filter_append, quiet.2]
    rfl
  · unfold textOfItems at quiet
    change List.flatMap _ (gapBefore d.lastSeq (decodeRecord frame) ++ [_]) = []
    rw [List.flatMap_append, quiet.1]
    rfl

/-- Text is its bytes, one by one. -/
theorem emitText_decodes
    {idx : Nat}
    (inside : idx ≤ d.buf.length) :
    Decodes d ((d.buf.take idx).map .text) (d.emitText idx).1
      (d.emitText idx).2 := by
  have noFrames : recordsOfTokens ((d.buf.take idx).map .text) = [] := by
    unfold recordsOfTokens
    rw [List.filterMap_map]
    exact List.filterMap_eq_nil_iff.mpr fun _ _ => rfl
  have sameText :
      textOfTokens ((d.buf.take idx).map .text) = d.buf.take idx := by
    unfold textOfTokens
    rw [List.filterMap_map]
    exact List.filterMap_some
  have noSkips : skipsOfTokens ((d.buf.take idx).map .text) = 0 := by
    unfold skipsOfTokens
    rw [List.countP_map]
    exact List.countP_eq_zero.mpr fun _ _ => Bool.false_ne_true
  unfold LogDecoder.emitText
  split
  · refine ⟨?_, ?_, ?_, ?_, ?_, ?_, ?_⟩
    · rw [noFrames]
      rfl
    · rw [sameText]
      exact List.append_nil _
    · rw [noFrames]
      rfl
    · rw [noFrames]
      rfl
    · rw [sameText, List.length_take, Nat.min_eq_left inside]
    · rw [noSkips]
      rfl
    · rw [noFrames]
      rfl
  · next zero =>
      have nothing : idx = 0 := by omega
      rw [nothing]
      exact Decodes.nothing d

/-- Nothing to scan. -/
theorem scan_nil : logScanner.scan [] = ([], []) := by
  have waits : logScanner.next [] = none := rfl
  exact Incremental.Scanner.scan_none waits

/-- An incomplete frame is left over. -/
theorem scan_short
    {rest : List UInt8}
    (short : (hostSync :: rest).length < hostRecSize) :
    logScanner.scan (hostSync :: rest) = ([], hostSync :: rest) := by
  have waits : logScanner.next (hostSync :: rest) = none :=
    logNext_short short
  exact Incremental.Scanner.scan_none waits

/-- A frame with the right CRC, and what is behind it. -/
theorem scan_frame
    {rest : List UInt8}
    (long : ¬ (hostSync :: rest).length < hostRecSize)
    (accepted :
      LogDecoder.crcMatches ((hostSync :: rest).take hostRecSize) = true) :
    logScanner.scan (hostSync :: rest) =
      (.frame ((hostSync :: rest).take hostRecSize) ::
          (logScanner.scan ((hostSync :: rest).drop hostRecSize)).1,
        (logScanner.scan ((hostSync :: rest).drop hostRecSize)).2) := by
  have taken :
      logScanner.next (hostSync :: rest) =
        some
          (.frame ((hostSync :: rest).take hostRecSize),
            (hostSync :: rest).drop hostRecSize) :=
    logNext_frame long accepted
  exact Incremental.Scanner.scan_some taken

/-- A sync byte before the wrong CRC, and what is behind it. -/
theorem scan_skip
    {rest : List UInt8}
    (long : ¬ (hostSync :: rest).length < hostRecSize)
    (rejected :
      ¬ LogDecoder.crcMatches ((hostSync :: rest).take hostRecSize) = true) :
    logScanner.scan (hostSync :: rest) =
      (.skip :: (logScanner.scan rest).1, (logScanner.scan rest).2) := by
  have taken : logScanner.next (hostSync :: rest) = some (.skip, rest) :=
    logNext_skip long rejected
  exact Incremental.Scanner.scan_some taken

/-- What the scanner makes of text without a sync byte. -/
theorem scan_text
    {pre : List UInt8}
    (noSync : ∀ b ∈ pre, b ≠ hostSync)
    (rest : List UInt8) :
    logScanner.scan (pre ++ rest) =
      (pre.map .text ++ (logScanner.scan rest).1,
        (logScanner.scan rest).2) := by
  induction pre with
  | nil =>
      rfl
  | cons b pre inductionHypothesis =>
      have taken :
          logScanner.next (b :: (pre ++ rest)) = some (.text b, pre ++ rest) :=
        logNext_text (noSync b (List.mem_cons_self ..)) _
      have behind :=
        inductionHypothesis
          fun other member => noSync other (List.mem_cons_of_mem _ member)
      rw [List.cons_append, Incremental.Scanner.scan_some taken, behind]
      rfl

/-- The bytes of the text are taken off the buffer. -/
theorem emitText_buf
    (idx : Nat) :
    (d.emitText idx).2.buf = d.buf.drop idx := by
  unfold LogDecoder.emitText
  split
  · rfl
  · next zero =>
      rw [Nat.eq_zero_of_not_pos zero]
      rfl

/-- Before the first sync byte there is none, and behind it comes a frame. -/
theorem split_at_sync
    {buf : List UInt8}
    {idx : Nat}
    (found : buf.findIdx? (· == hostSync) = some idx) :
    idx < buf.length ∧
      (∀ b ∈ buf.take idx, b ≠ hostSync) ∧
      ∃ rest, buf.drop idx = hostSync :: rest := by
  obtain ⟨inside, atSync, before⟩ :=
    List.findIdx?_eq_some_iff_getElem.mp found
  refine ⟨inside, ?_, buf.drop (idx + 1), ?_⟩
  · intro b member sync
    obtain ⟨j, below, rfl⟩ := List.getElem_of_mem member
    rw [List.length_take] at below
    have other := before j (by omega)
    rw [List.getElem_take] at sync
    simp [sync] at other
  · rw [List.drop_eq_getElem_cons inside, eq_of_beq atSync]

/--
A relation between a decoder, the tokens it was given, what it put out, and the
decoder afterwards, that holds step by step and does not look at the buffer.
-/
structure TokenRule
    (Holds : LogDecoder → List LogToken → List HostItem → LogDecoder → Prop) :
    Prop where
  nothing : ∀ d, Holds d [] [] d
  append :
    ∀ {d middle last first second early late},
      Holds d first early middle →
        Holds middle second late last →
          Holds d (first ++ second) (early ++ late) last
  withBuf :
    ∀ {d tokens out after} before behind,
      Holds d tokens out after →
        Holds { d with buf := before } tokens out { after with buf := behind }
  text :
    ∀ {d : LogDecoder} {idx : Nat},
      idx ≤ d.buf.length →
        Holds d ((d.buf.take idx).map .text) (d.emitText idx).1
          (d.emitText idx).2
  frame :
    ∀ frame (d : LogDecoder),
      Holds d [.frame frame] (d.emit frame).1 (d.emit frame).2
  skip : ∀ d : LogDecoder, Holds d [.skip] [] { d with resyncs := d.resyncs + 1 }

section Rule

variable
  {Holds : LogDecoder → List LogToken → List HostItem → LogDecoder → Prop}
  (rule : TokenRule Holds)

include rule

/-- The loop does what the scanner does, given enough rounds. -/
theorem TokenRule.drainLoop
    {fuel : Nat}
    (enough : d.buf.length < fuel) :
    Holds d (logScanner.scan d.buf).1 (d.drainLoop fuel).1
        (d.drainLoop fuel).2 ∧
      (d.drainLoop fuel).2.buf = (logScanner.scan d.buf).2 := by
  induction fuel generalizing d with
  | zero =>
      exact (Nat.not_lt_zero _ enough).elim
  | succ fuel inductionHypothesis =>
      unfold LogDecoder.drainLoop
      cases found : d.buf.findIdx? (· == hostSync) with
      | none =>
          have noSync : ∀ b ∈ d.buf, b ≠ hostSync := by
            intro b member sync
            have := List.findIdx?_eq_none_iff.mp found b member
            simp [sync] at this
          have scanned := scan_text noSync []
          rw [List.append_nil, scan_nil, List.append_nil] at scanned
          have emitted := rule.text (Nat.le_refl d.buf.length)
          rw [List.take_length] at emitted
          rw [scanned]
          exact ⟨emitted, (emitText_buf _).trans List.drop_length⟩
      | some idx =>
          obtain ⟨inside, noSync, rest, behind⟩ := split_at_sync found
          have emitted := rule.text (Nat.le_of_lt inside)
          have kept : (d.emitText idx).2.buf = d.buf.drop idx :=
            emitText_buf idx
          have scanned := scan_text noSync (hostSync :: rest)
          rw [← behind, List.take_append_drop, behind] at scanned
          have shorter : (hostSync :: rest).length < fuel + 1 := by
            rw [← behind, List.length_drop]
            omega
          dsimp only
          generalize d.emitText idx = emission at emitted kept ⊢
          obtain ⟨out, buf, lastSeq, records, textBytes, resyncs, lost⟩ :=
            emission
          have atFrame : buf = hostSync :: rest := kept.trans behind
          subst atFrame
          dsimp only at emitted ⊢
          rw [scanned]
          by_cases short : (hostSync :: rest).length < hostRecSize
          · rw [if_pos short, scan_short short, List.append_nil]
            exact ⟨emitted, rfl⟩
          rw [if_neg short]
          by_cases accepted :
              LogDecoder.crcMatches ((hostSync :: rest).take hostRecSize) =
                true
          · obtain ⟨decodes, left⟩ :=
              @inductionHypothesis
                { (LogDecoder.emit ((hostSync :: rest).take hostRecSize)
                      ⟨hostSync :: rest, lastSeq, records, textBytes, resyncs,
                        lost⟩).2 with
                  buf := (hostSync :: rest).drop hostRecSize }
                (by
                  rw [List.length_drop, hostRecSize]
                  omega)
            rw [accepted, scan_frame short accepted]
            have record :=
              rule.withBuf (hostSync :: rest)
                ((hostSync :: rest).drop hostRecSize)
                (rule.frame ((hostSync :: rest).take hostRecSize)
                  ⟨hostSync :: rest, lastSeq, records, textBytes, resyncs,
                    lost⟩)
            exact
              ⟨rule.append emitted (rule.append record decodes), left⟩
          · obtain ⟨decodes, left⟩ :=
              @inductionHypothesis
                ⟨rest, lastSeq, records, textBytes, resyncs + 1, lost⟩
                (Nat.lt_of_succ_lt_succ shorter)
            have skipped :=
              rule.withBuf (hostSync :: rest) rest
                (rule.skip
                  ⟨hostSync :: rest, lastSeq, records, textBytes, resyncs,
                    lost⟩)
            rw [scan_skip short accepted]
            rw [Bool.not_eq_true] at accepted
            rw [accepted]
            exact
              ⟨rule.append emitted (rule.append skipped decodes), left⟩

/-- One piece of a stream. -/
theorem TokenRule.feed (data : List UInt8) (d : LogDecoder) :
    Holds d (logScanner.scan (d.buf ++ data)).1 (d.feed data).1
        (d.feed data).2 ∧
      (d.feed data).2.buf = (logScanner.scan (d.buf ++ data)).2 := by
  have looped :=
    @TokenRule.drainLoop { d with buf := d.buf ++ data } Holds rule
      (d.buf.length + data.length + 1)
      (by
        rw [List.length_append]
        exact Nat.lt_succ_self _)
  have moved := rule.withBuf d.buf (d.feed data).2.buf looped.1
  exact ⟨moved, looped.2⟩

/-- All the pieces of a stream. -/
theorem TokenRule.feedAll
    (pieces : List (List UInt8))
    (d : LogDecoder) :
    Holds d (logScanner.scanAll d.buf pieces).1 (d.feedAll pieces).1
        (d.feedAll pieces).2 ∧
      (d.feedAll pieces).2.buf = (logScanner.scanAll d.buf pieces).2 := by
  induction pieces generalizing d with
  | nil =>
      exact ⟨rule.nothing d, rfl⟩
  | cons data rest inductionHypothesis =>
      obtain ⟨now, left⟩ := rule.feed data d
      obtain ⟨later, last⟩ := inductionHypothesis (d.feed data).2
      rw [left] at later last
      exact ⟨rule.append now later, last⟩

end Rule

/-- What the decoder makes of its tokens is such a relation. -/
theorem decodesRule : TokenRule Decodes where
  nothing := Decodes.nothing
  append := Decodes.append
  withBuf := fun before behind decodes => decodes.withBuf before behind
  text := emitText_decodes
  frame := emit_decodes
  skip := fun _ => ⟨rfl, rfl, rfl, rfl, rfl, rfl, rfl⟩

/-- A fresh decoder finds the tokens of the stream, however it is cut. -/
theorem new_feedAll_decodes (pieces : List (List UInt8)) :
    Decodes .new (logScanner.scan pieces.flatten).1
      (LogDecoder.new.feedAll pieces).1 (LogDecoder.new.feedAll pieces).2 := by
  have decodes := (decodesRule.feedAll pieces .new).1
  rwa [Incremental.Scanner.scanAll_eq rfl] at decodes

end Decoding

end TraveoBodyDomain
