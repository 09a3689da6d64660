import TraveoBodyDomain.Log.Decoder

/-!
# Streams in chunks

The decoder puts text out as soon as it sees that it is text, so a run of text
may come out in more items than one.  Apart from that, nothing depends on how a
stream is cut: not where records and gaps stand in the text, not the counters,
and not what is left in the buffer.
-/

namespace TraveoBodyDomain

/--
The records and gaps, each with the text since the one before it, and the text
behind the last; `before` is text that came earlier.
-/
def withTextBetween :
    List Char → List HostItem → List (List Char × HostItem) × List Char
  | before, [] => ([], before)
  | before, .text text :: rest => withTextBetween (before ++ text) rest
  | before, .record r :: rest =>
      ((before, .record r) :: (withTextBetween [] rest).1,
        (withTextBetween [] rest).2)
  | before, .gap core missing :: rest =>
      ((before, .gap core missing) :: (withTextBetween [] rest).1,
        (withTextBetween [] rest).2)

/-- What comes later is read behind the text that is still open. -/
theorem withTextBetween_append
    (before : List Char)
    (early late : List HostItem) :
    withTextBetween before (early ++ late) =
      ((withTextBetween before early).1 ++
          (withTextBetween (withTextBetween before early).2 late).1,
        (withTextBetween (withTextBetween before early).2 late).2) := by
  induction early generalizing before with
  | nil =>
      rfl
  | cons item rest inductionHypothesis =>
      cases item with
      | text text =>
          exact inductionHypothesis (before ++ text)
      | record r =>
          have behind := inductionHypothesis []
          simp only [List.cons_append, withTextBetween, behind]
      | gap core missing =>
          have behind := inductionHypothesis []
          simp only [List.cons_append, withTextBetween, behind]

/-- What each token is worth, one by one. -/
def itemsOfTokens :
    (Nat → Option Nat) → List LogToken → List HostItem
  | _, [] => []
  | lastSeq, .text byte :: rest =>
      .text (decodeAscii [byte]) :: itemsOfTokens lastSeq rest
  | lastSeq, .frame bytes :: rest =>
      gapBefore lastSeq (decodeRecord bytes) ++
        .record (decodeRecord bytes) ::
          itemsOfTokens
            (Function.update lastSeq (decodeRecord bytes).core
              (some (decodeRecord bytes).seq))
            rest
  | lastSeq, .skip :: rest => itemsOfTokens lastSeq rest

/-- Tokens after tokens. -/
theorem itemsOfTokens_append
    (lastSeq : Nat → Option Nat)
    (first second : List LogToken) :
    itemsOfTokens lastSeq (first ++ second) =
      itemsOfTokens lastSeq first ++
        itemsOfTokens (seqAfter lastSeq (recordsOfTokens first)) second := by
  induction first generalizing lastSeq with
  | nil =>
      rfl
  | cons token rest inductionHypothesis =>
      cases token with
      | text byte =>
          exact congrArg (_ :: ·) (inductionHypothesis lastSeq)
      | skip =>
          exact inductionHypothesis lastSeq
      | frame bytes =>
          rw [List.cons_append, itemsOfTokens, itemsOfTokens,
            inductionHypothesis, List.append_assoc, List.cons_append]
          rfl

/-- Bytes of text are a text. -/
theorem withTextBetween_text
    (before : List Char)
    (lastSeq : Nat → Option Nat)
    (bytes : List UInt8) :
    withTextBetween before (itemsOfTokens lastSeq (bytes.map .text)) =
      ([], before ++ decodeAscii bytes) := by
  induction bytes generalizing before with
  | nil =>
      exact congrArg (Prod.mk []) (List.append_nil before).symm
  | cons byte rest inductionHypothesis =>
      have split :
          decodeAscii (byte :: rest) =
            decodeAscii [byte] ++ decodeAscii rest :=
        rfl
      rw [split, ← List.append_assoc]
      exact inductionHypothesis (before ++ decodeAscii [byte])

/-- The decoder puts out what its tokens are worth, text in runs. -/
structure Interleaves
    (d : LogDecoder)
    (tokens : List LogToken)
    (out : List HostItem)
    (after : LogDecoder) : Prop where
  items :
    ∀ before,
      withTextBetween before out =
        withTextBetween before (itemsOfTokens d.lastSeq tokens)
  lastSeq : after.lastSeq = seqAfter d.lastSeq (recordsOfTokens tokens)

/-- This holds step by step. -/
theorem interleavesRule : TokenRule Interleaves where
  nothing := fun _ => ⟨fun _ => rfl, rfl⟩
  append := by
    intro d middle last first second early late before after
    constructor
    · intro text
      rw [withTextBetween_append, before.items, after.items, before.lastSeq,
        itemsOfTokens_append, withTextBetween_append]
    · have frames :
          recordsOfTokens (first ++ second) =
            recordsOfTokens first ++ recordsOfTokens second :=
        List.filterMap_append
      rw [after.lastSeq, before.lastSeq, frames, seqAfter, seqAfter, seqAfter,
        List.foldl_append]
  withBuf := fun _ _ holds => ⟨holds.items, holds.lastSeq⟩
  text := by
    intro d idx inside
    refine ⟨fun before => ?_, (emitText_decodes inside).lastSeq⟩
    rw [withTextBetween_text, LogDecoder.emitText]
    split
    · rfl
    · next zero =>
        rw [Nat.eq_zero_of_not_pos zero]
        exact congrArg (Prod.mk []) (List.append_nil before).symm
  frame := by
    intro frame d
    exact ⟨fun _ => rfl, rfl⟩
  skip := fun _ => ⟨fun _ => rfl, rfl⟩

/-- A decoder is its fields. -/
theorem LogDecoder.ext
    {first second : LogDecoder}
    (buf : first.buf = second.buf)
    (lastSeq : first.lastSeq = second.lastSeq)
    (records : first.records = second.records)
    (textBytes : first.textBytes = second.textBytes)
    (resyncs : first.resyncs = second.resyncs)
    (lost : first.lost = second.lost) :
    first = second := by
  cases first
  cases second
  cases buf
  cases lastSeq
  cases records
  cases textBytes
  cases resyncs
  cases lost
  rfl

/--
A stream that arrives in pieces leaves a fresh decoder, its counters and its
buffer among it, as the whole stream at once does; the records and gaps are the
same, and so is the text between any two of them.
-/
theorem decoding_does_not_depend_on_the_chunks (pieces : List (List UInt8)) :
    (LogDecoder.new.feedAll pieces).2 =
        (LogDecoder.new.feed pieces.flatten).2 ∧
      withTextBetween [] (LogDecoder.new.feedAll pieces).1 =
        withTextBetween [] (LogDecoder.new.feed pieces.flatten).1 := by
  have sameTokens :
      logScanner.scanAll LogDecoder.new.buf pieces =
        logScanner.scan (LogDecoder.new.buf ++ pieces.flatten) :=
    Incremental.Scanner.scanAll_eq rfl pieces
  obtain ⟨cut, cutBuf⟩ := decodesRule.feedAll pieces .new
  obtain ⟨whole, wholeBuf⟩ := decodesRule.feed pieces.flatten .new
  have cutItems := (interleavesRule.feedAll pieces .new).1.items []
  have wholeItems := (interleavesRule.feed pieces.flatten .new).1.items []
  rw [sameTokens] at cut cutBuf cutItems
  exact
    ⟨LogDecoder.ext (cutBuf.trans wholeBuf.symm)
      (cut.lastSeq.trans whole.lastSeq.symm)
      (cut.records.trans whole.records.symm)
      (cut.textBytes.trans whole.textBytes.symm)
      (cut.resyncs.trans whole.resyncs.symm) (cut.lost.trans whole.lost.symm),
      cutItems.trans wholeItems.symm⟩

end TraveoBodyDomain
