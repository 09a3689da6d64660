import Mathlib.Data.List.Forall2
import TraveoBodyDomain.Diag.Interference
import TraveoBodyDomain.Diag.IsotpRun

/-!
# What a returned message is made of

The messages `isotp_take_received` returns, held against the frames received
before: one single frame, or one first frame and the consecutive frames after
it.  The handlers copy as many bytes as a length field asks for, and keep the
completion flag when a first frame overwrites the buffer; a run in which the
frames carry what is copied, and no first frame does so, returns only messages
made of their own frames.
-/

namespace TraveoBodyDomain

/-!
## Messages and frames
-/

/-- The type nibble of a frame, unless it has no byte. -/
def frameType (frame : CanRawFrame) : Option UInt8 :=
  frame.data.head?.map (· &&& 0xF0)

/-- The length that a first frame declares. -/
def ffTotal (data : List UInt8) : UInt32 :=
  u32Be (data.getD 1 0) (data.getD 2 0) (data.getD 3 0) (data.getD 4 0)

/-- The payload bytes of a first frame. -/
def ffPayload (frame : CanRawFrame) : List UInt8 :=
  (frame.data.drop 5).take isotpFfInitialLen

/-- The payload bytes of a consecutive frame. -/
def cfPayload (frame : CanRawFrame) : List UInt8 :=
  (frame.data.drop 1).take 63

/-- The consecutive frames among `frames`. -/
def consecutive (frames : List CanRawFrame) : List CanRawFrame :=
  frames.filter fun frame => frameType frame = some isotpPciTypeCf

/-- The message is the declared payload of a single frame, which carries it. -/
structure OfSingleFrame
    (frame : CanRawFrame)
    (message : List UInt8) : Prop where
  type : frameType frame = some isotpPciTypeSf
  short : (frame.data.getD 1 0).toNat ≤ 62
  carried : 2 + (frame.data.getD 1 0).toNat ≤ frame.data.length
  payload : message = (frame.data.drop 2).take (frame.data.getD 1 0).toNat

/-- The frame is a first frame of a message of more than 62 bytes. -/
structure BeginsMessage
    (frame : CanRawFrame)
    (total : Nat) : Prop where
  type : frameType frame = some isotpPciTypeFf
  whole : 5 + isotpFfInitialLen ≤ frame.data.length
  declared : (ffTotal frame.data).toNat = total
  long : 62 < total

/--
The frames after a first frame: none begins another message, and the
consecutive ones are numbered 1, 2, 3, … modulo 16.
-/
structure ContinuesMessage (frames : List CanRawFrame) : Prop where
  noStart :
    ∀ frame ∈ frames,
      frameType frame ≠ some isotpPciTypeSf ∧
        frameType frame ≠ some isotpPciTypeFf
  numbered :
    (consecutive frames).map (fun frame => frame.data.getD 0 0 &&& 0x0F) =
      (List.range (consecutive frames).length).map fun i => seqNibble (i + 1)

/-- The bytes of a first frame and of the consecutive frames after it. -/
def composed
    (first : CanRawFrame)
    (frames : List CanRawFrame) :
    List UInt8 :=
  ffPayload first ++ (consecutive frames).flatMap cfPayload

/-- The message is what a first frame declares, of it and those after it. -/
structure OfFirstFrame
    (first : CanRawFrame)
    (frames : List CanRawFrame)
    (message : List UInt8) : Prop where
  begins : BeginsMessage first message.length
  continues : ContinuesMessage frames
  payload : message = (composed first frames).take message.length

/-- The frames received so far hold the message, from frame `start` on. -/
def MadeOf
    (seen : List CanRawFrame)
    (start : Nat)
    (message : List UInt8) : Prop :=
  ∃ before frame after,
    seen = before ++ frame :: after ∧
      before.length = start ∧
      (OfSingleFrame frame message ∨
        ∃ middle rest,
          after = middle ++ rest ∧ OfFirstFrame frame middle message)

/-- The frame a message starts with is one of those received. -/
theorem MadeOf.start_lt
    {seen : List CanRawFrame}
    {start : Nat}
    {message : List UInt8}
    (made : MadeOf seen start message) :
    start < seen.length := by
  obtain ⟨before, frame, after, rfl, rfl, -⟩ := made
  simp

/-- Frames received later do not change what a message is made of. -/
theorem MadeOf.append
    {seen : List CanRawFrame}
    {start : Nat}
    {message : List UInt8}
    (made : MadeOf seen start message)
    (later : List CanRawFrame) :
    MadeOf (seen ++ later) start message := by
  obtain ⟨before, frame, after, rfl, at_, source⟩ := made
  refine ⟨before, frame, after ++ later, by simp, at_, ?_⟩
  rcases source with single | ⟨middle, rest, rfl, first⟩
  · exact Or.inl single
  · exact Or.inr ⟨middle, rest ++ later, by simp, first⟩

/-- A message that was returned, and the frames received before. -/
structure Returned where
  seen : List CanRawFrame
  message : List UInt8
  deriving Repr, DecidableEq

/--
Every message returned is made of its own frames, and none is returned twice:
each starts with a later frame than the one before.
-/
def Intact (returned : List Returned) : Prop :=
  ∃ starts : List Nat,
    List.Forall₂ (fun one start => MadeOf one.seen start one.message)
        returned starts ∧
      starts.Pairwise (· < ·)

/-!
## Runs
-/

/-- The transport, and the frames it has received. -/
structure IsotpReceiver where
  isotp : Isotp
  seen : List CanRawFrame

/-- One call; it shows the message that is returned, if any. -/
def isotpReceiverStep : Machine.Step IsotpReceiver TransportAction Returned :=
  fun receiver action =>
    let (isotp, messages) := transportStep receiver.isotp action
    let seen :=
      match action with
      | .poll _ _ frames => receiver.seen ++ frames
      | .send _ => receiver.seen
      | .take _ => receiver.seen
    (⟨isotp, seen⟩, messages.map fun message => ⟨receiver.seen, message⟩)

/-- The transport after `isotp_init`. -/
def IsotpReceiver.start (txId : UInt32) : IsotpReceiver where
  isotp := isotpInit txId
  seen := []

namespace Isotp

/--
A frame carries the bytes that are copied from it, and a first frame that is
accepted is of more than 62 bytes and finds no message waiting.
-/
def Sound
    (g : Isotp)
    (received : List UInt8)
    (frame : CanRawFrame) : Prop :=
  let type := received.getD 0 0 &&& 0xF0
  if type = isotpPciTypeSf then
    2 + (received.getD 1 0).toNat ≤ frame.data.length
  else if type = isotpPciTypeFf then
    isotpMaxPayload < (ffTotal received).toNat ∨
      (5 + isotpFfInitialLen ≤ frame.data.length ∧
        62 < (ffTotal received).toNat ∧
        g.rxComplete = false)
  else if type = isotpPciTypeCf then
    g.state = .rxInProgress →
      received.getD 0 0 &&& 0x0F = g.rxNextSeq →
        1 + cfChunk (g.rxTotalLen - g.rxBuf.length.toUInt32).toNat ≤
          frame.data.length
  else
    True

instance Sound.decidable
    (g : Isotp)
    (received : List UInt8)
    (frame : CanRawFrame) :
    Decidable (g.Sound received frame) := by
  unfold Sound
  infer_instance

end Isotp

/-- Every frame of the call is sound. -/
def SoundCall (receiver : IsotpReceiver) : TransportAction → Prop
  | .poll nowMs stack frames =>
      Isotp.EachHandled Isotp.Sound nowMs stack frames receiver.isotp
  | .send _ => True
  | .take _ => True

instance SoundCall.decidable (receiver : IsotpReceiver) :
    ∀ action, Decidable (SoundCall receiver action)
  | .poll nowMs stack frames =>
      inferInstanceAs
        (Decidable
          (Isotp.EachHandled Isotp.Sound nowMs stack frames receiver.isotp))
  | .send _ => inferInstanceAs (Decidable True)
  | .take _ => inferInstanceAs (Decidable True)

/-!
## Reading the frame itself
-/

section Reading

variable {frame : CanRawFrame} {data : List UInt8}

/-- A byte of the local frame that the received frame carries. -/
theorem halRecv_getD
    {i : Nat}
    (inside : i < frame.data.length) :
    (halRecv data frame).getD i 0 = frame.data.getD i 0 :=
  getD_of_start (List.prefix_append _ _) inside

/-- Bytes of the local frame that the received frame carries. -/
theorem halRecv_bytesAt
    {off len : Nat}
    (inside : off + len ≤ frame.data.length) :
    bytesAt (halRecv data frame) off len = (frame.data.drop off).take len := by
  rw [halRecv, Isotp.bytesAt_of_start (List.prefix_append _ _) inside,
    bytesAt_eq inside]

/-- A frame with a byte has the type that is dispatched on. -/
theorem frameType_of_received
    (nonempty : 0 < frame.data.length) :
    frameType frame = some ((halRecv data frame).getD 0 0 &&& 0xF0) := by
  rw [halRecv_getD nonempty]
  unfold frameType
  cases bytes : frame.data with
  | nil =>
      rw [bytes] at nonempty
      cases nonempty
  | cons first rest =>
      rfl

/-- A frame that is dispatched otherwise is not of a type. -/
theorem frameType_ne_of_received
    {type : UInt8}
    (other : (halRecv data frame).getD 0 0 &&& 0xF0 ≠ type) :
    frameType frame ≠ some type := by
  by_cases nonempty : 0 < frame.data.length
  · rw [@frameType_of_received frame data nonempty]
    exact fun same => other (Option.some.inj same)
  · have empty : frame.data = [] :=
      List.length_eq_zero_iff.mp (Nat.eq_zero_of_not_pos nonempty)
    unfold frameType
    rw [empty]
    simp

end Reading

/-!
## The state of a reception
-/

/-- A reception in progress: what it was begun with and what it has. -/
structure Progress
    (g : Isotp)
    (first : CanRawFrame)
    (frames : List CanRawFrame) : Prop where
  begins : BeginsMessage first g.rxTotalLen.toNat
  continues : ContinuesMessage frames
  next : g.rxNextSeq = seqNibble ((consecutive frames).length + 1)
  buffer : g.rxBuf = composed first frames
  filled :
    g.rxBuf.length = isotpFfInitialLen + 63 * (consecutive frames).length
  missing : g.rxBuf.length < g.rxTotalLen.toNat
  fits : g.rxTotalLen.toNat ≤ isotpMaxPayload

/--
The receiver, given the frames received.  Frames before `used` belong to
messages that were returned.
-/
structure RxInv
    (used : Nat)
    (seen : List CanRawFrame)
    (g : Isotp) : Prop where
  used_le : used ≤ seen.length
  waiting :
    g.rxComplete = true → ∃ start ≥ used, MadeOf seen start g.rxBuf
  receiving :
    g.state = .rxInProgress →
      g.rxComplete = false ∧
        ∃ before first frames,
          seen = before ++ first :: frames ∧
            used ≤ before.length ∧
            Progress g first frames

/-- A state with the same reception that is not begun anew. -/
theorem RxInv.congr
    {used : Nat}
    {seen : List CanRawFrame}
    {g h : Isotp}
    (inv : RxInv used seen g)
    (same : g.SameReception h)
    (state : h.state = .rxInProgress → g.state = .rxInProgress) :
    RxInv used seen h where
  used_le := inv.used_le
  waiting := by
    rw [same.rxComplete, same.rxBuf]
    exact inv.waiting
  receiving := by
    intro receiving
    obtain
      ⟨notComplete, before, first, frames, split, later,
        ⟨begins, continues, next, buffer, filled, missing, fits⟩⟩ :=
      inv.receiving (state receiving)
    refine
      ⟨same.rxComplete.trans notComplete, before, first, frames, split, later,
        ?_⟩
    exact
      ⟨same.rxTotalLen ▸ begins, continues, same.rxNextSeq ▸ next,
        same.rxBuf ▸ buffer, same.rxBuf ▸ filled,
        same.rxTotalLen ▸ same.rxBuf ▸ missing, same.rxTotalLen ▸ fits⟩

section Frames

variable
  {first frame : CanRawFrame}
  {frames : List CanRawFrame}
  {g : Isotp}

/-- A frame that is not consecutive does not count. -/
theorem consecutive_concat_other
    (other : frameType frame ≠ some isotpPciTypeCf) :
    consecutive (frames ++ [frame]) = consecutive frames := by
  unfold consecutive
  rw [List.filter_append, List.filter_cons_of_neg (by simpa using other)]
  simp

/-- A consecutive frame counts. -/
theorem consecutive_concat_cf
    (isCf : frameType frame = some isotpPciTypeCf) :
    consecutive (frames ++ [frame]) = consecutive frames ++ [frame] := by
  unfold consecutive
  rw [List.filter_append, List.filter_cons_of_pos (by simpa using isCf)]
  simp

/-- A frame of another kind leaves a reception where it is. -/
theorem Progress.other
    (progress : Progress g first frames)
    (notSf : frameType frame ≠ some isotpPciTypeSf)
    (notFf : frameType frame ≠ some isotpPciTypeFf)
    (notCf : frameType frame ≠ some isotpPciTypeCf) :
    Progress g first (frames ++ [frame]) := by
  obtain ⟨begins, ⟨noStart, numbered⟩, next, buffer, filled, missing, fits⟩ :=
    progress
  have same := @consecutive_concat_other frame frames notCf
  refine ⟨begins, ⟨?_, ?_⟩, ?_, ?_, ?_, missing, fits⟩
  · intro one member
    rcases List.mem_append.mp member with earlier | new
    · exact noStart one earlier
    · rw [List.mem_singleton.mp new]
      exact ⟨notSf, notFf⟩
  · rw [same]
    exact numbered
  · rw [same]
    exact next
  · rw [composed, same]
    exact buffer
  · rw [same]
    exact filled

/-- The consecutive frame that is due continues the message. -/
theorem ContinuesMessage.due
    (continues : ContinuesMessage frames)
    (isCf : frameType frame = some isotpPciTypeCf)
    (number :
      frame.data.getD 0 0 &&& 0x0F =
        seqNibble ((consecutive frames).length + 1)) :
    ContinuesMessage (frames ++ [frame]) := by
  obtain ⟨noStart, numbered⟩ := continues
  constructor
  · intro one member
    rcases List.mem_append.mp member with earlier | new
    · exact noStart one earlier
    · rw [List.mem_singleton.mp new, isCf]
      decide
  · rw [consecutive_concat_cf isCf, List.map_append, numbered,
      List.length_append, List.length_singleton, List.range_succ,
      List.map_append, List.map_singleton, List.map_singleton, number]

/-- What a consecutive frame adds to what was composed. -/
theorem composed_concat_cf
    (isCf : frameType frame = some isotpPciTypeCf) :
    composed first (frames ++ [frame]) =
      composed first frames ++ cfPayload frame := by
  unfold composed
  rw [consecutive_concat_cf isCf, List.flatMap_append, ← List.append_assoc]
  simp

end Frames

/-- What remains of a message in progress, as `handle_cf` computes it. -/
theorem Progress.remaining
    {g : Isotp}
    {first : CanRawFrame}
    {frames : List CanRawFrame}
    (progress : Progress g first frames) :
    (g.rxTotalLen - g.rxBuf.length.toUInt32).toNat =
      g.rxTotalLen.toNat - g.rxBuf.length := by
  have missing := progress.missing
  have fits := progress.fits
  have small : (g.rxBuf.length.toUInt32).toNat = g.rxBuf.length := by
    unfold isotpMaxPayload at fits
    simp only [Nat.toUInt32_eq, UInt32.toNat_ofNat']
    omega
  rw [UInt32.toNat_sub_of_le, small]
  rw [UInt32.le_iff_toNat_le, small]
  omega

section Due

variable
  {g : Isotp}
  {first frame : CanRawFrame}
  {frames : List CanRawFrame}

/-- A consecutive frame carries at least what is taken of it. -/
theorem length_cfPayload_take
    {len : Nat}
    (small : len ≤ 63)
    (carried : 1 + len ≤ frame.data.length) :
    ((cfPayload frame).take len).length = len := by
  unfold cfPayload
  rw [List.length_take, List.length_take, List.length_drop]
  omega

/-- The consecutive frame that is due, and the last, finishes the message. -/
theorem Progress.finish
    (progress : Progress g first frames)
    (isCf : frameType frame = some isotpPciTypeCf)
    (number : frame.data.getD 0 0 &&& 0x0F = g.rxNextSeq)
    (last : g.rxTotalLen.toNat - g.rxBuf.length ≤ 63)
    (carried :
      1 + (g.rxTotalLen.toNat - g.rxBuf.length) ≤ frame.data.length) :
    OfFirstFrame first (frames ++ [frame])
      (g.rxBuf ++
        (cfPayload frame).take (g.rxTotalLen.toNat - g.rxBuf.length)) := by
  obtain ⟨begins, continues, next, buffer, filled, missing, fits⟩ := progress
  have whole :
      (g.rxBuf ++
          (cfPayload frame).take
            (g.rxTotalLen.toNat - g.rxBuf.length)).length =
        g.rxTotalLen.toNat := by
    rw [List.length_append, length_cfPayload_take last carried]
    omega
  refine ⟨?_, continues.due isCf (number.trans next), ?_⟩
  · rw [whole]
    exact begins
  · rw [whole, composed_concat_cf isCf, ← buffer, List.take_append,
      List.take_of_length_le (Nat.le_of_lt missing)]

/-- The consecutive frame that is due, but not the last, carries it on. -/
theorem Progress.advance
    (progress : Progress g first frames)
    (isCf : frameType frame = some isotpPciTypeCf)
    (number : frame.data.getD 0 0 &&& 0x0F = g.rxNextSeq)
    (more : 63 < g.rxTotalLen.toNat - g.rxBuf.length)
    (carried : 1 + 63 ≤ frame.data.length)
    (nowMs : UInt32) :
    Progress
      { g with
        rxBuf := g.rxBuf ++ cfPayload frame
        rxNextSeq := (g.rxNextSeq + 1) &&& 0x0F
        rxLastActivityMs := nowMs }
      first (frames ++ [frame]) := by
  obtain ⟨begins, continues, next, buffer, filled, missing, fits⟩ := progress
  have full : (cfPayload frame).length = 63 := by
    unfold cfPayload
    rw [List.length_take, List.length_drop]
    omega
  have counted :
      (consecutive (frames ++ [frame])).length =
        (consecutive frames).length + 1 := by
    rw [consecutive_concat_cf isCf, List.length_append, List.length_singleton]
  refine
    ⟨begins, continues.due isCf (number.trans next), ?_, ?_, ?_, ?_, fits⟩
  · change (g.rxNextSeq + 1) &&& 0x0F = _
    rw [next, seqNibble_succ, counted]
  · change g.rxBuf ++ cfPayload frame = _
    rw [composed_concat_cf isCf, buffer]
  · change (g.rxBuf ++ cfPayload frame).length = _
    rw [List.length_append, full, filled, counted]
    omega
  · change (g.rxBuf ++ cfPayload frame).length < g.rxTotalLen.toNat
    rw [List.length_append, full]
    omega

end Due

/-!
## What a frame preserves
-/

section Step

variable
  {used : Nat}
  {seen : List CanRawFrame}
  {g : Isotp}
  {data : List UInt8}
  {frame : CanRawFrame}
  {nowMs : UInt32}

/-- A frame that a reception in progress does not take. -/
theorem RxInv.pass
    (inv : RxInv used seen g)
    (other :
      g.state = .rxInProgress →
        frameType frame ≠ some isotpPciTypeSf ∧
          frameType frame ≠ some isotpPciTypeFf ∧
          frameType frame ≠ some isotpPciTypeCf) :
    RxInv used (seen ++ [frame]) g where
  used_le := by
    rw [List.length_append]
    exact Nat.le_add_right_of_le inv.used_le
  waiting := by
    intro complete
    obtain ⟨start, later, made⟩ := inv.waiting complete
    exact ⟨start, later, made.append [frame]⟩
  receiving := by
    intro receiving
    obtain ⟨notComplete, before, first, frames, split, later, progress⟩ :=
      inv.receiving receiving
    obtain ⟨notSf, notFf, notCf⟩ := other receiving
    refine
      ⟨notComplete, before, first, frames ++ [frame], ?_, later,
        progress.other notSf notFf notCf⟩
    rw [split, List.append_assoc, List.cons_append]

/-- A single frame that carries its payload. -/
theorem RxInv.single
    (inv : RxInv used seen g)
    (isSf : (halRecv data frame).getD 0 0 &&& 0xF0 = isotpPciTypeSf)
    (carried :
      2 + ((halRecv data frame).getD 1 0).toNat ≤ frame.data.length) :
    RxInv used (seen ++ [frame]) (g.handleSf (halRecv data frame)) where
  used_le := by
    rw [List.length_append]
    exact Nat.le_add_right_of_le inv.used_le
  waiting := by
    intro _
    have length := @halRecv_getD frame data 1 (by omega)
    rw [length] at carried
    refine
      ⟨seen.length, inv.used_le, seen, frame, [], rfl, rfl, Or.inl ⟨?_, ?_,
        carried, ?_⟩⟩
    · rw [@frameType_of_received frame data (by omega), isSf]
    · have fits := frame.fits
      unfold canMaxDlen at fits
      omega
    · unfold Isotp.handleSf
      dsimp only
      rw [length, halRecv_bytesAt carried]
  receiving := by
    intro receiving
    cases receiving

/-- A first frame of more than 62 bytes that finds no message waiting. -/
theorem RxInv.first
    (inv : RxInv used seen g)
    (isFf : (halRecv data frame).getD 0 0 &&& 0xF0 = isotpPciTypeFf)
    (sound :
      isotpMaxPayload < (ffTotal (halRecv data frame)).toNat ∨
        (5 + isotpFfInitialLen ≤ frame.data.length ∧
          62 < (ffTotal (halRecv data frame)).toNat ∧
          g.rxComplete = false)) :
    RxInv used (seen ++ [frame])
      (g.handleFf (halRecv data frame) nowMs).1 := by
  unfold Isotp.handleFf
  dsimp only
  split
  next =>
    have aborted : RxInv used seen { g with state := .errorOverflow } :=
      inv.congr ⟨rfl, rfl, rfl, rfl, rfl⟩ (fun receiving => by cases receiving)
    exact aborted.pass fun receiving => by cases receiving
  next accepted =>
    obtain ⟨whole, long, notComplete⟩ := sound.resolve_left accepted
    have header :
        ∀ i < 5,
          (halRecv data frame).getD i 0 = frame.data.getD i 0 :=
      fun i small => halRecv_getD (by omega)
    have declared :
        ffTotal (halRecv data frame) = ffTotal frame.data := by
      unfold ffTotal
      rw [header 1 (by omega), header 2 (by omega), header 3 (by omega),
        header 4 (by omega)]
    have initial :
        bytesAt (halRecv data frame) 5 isotpFfInitialLen = ffPayload frame :=
      halRecv_bytesAt whole
    have filled : (ffPayload frame).length = isotpFfInitialLen := by
      unfold ffPayload
      rw [List.length_take, List.length_drop]
      omega
    refine ⟨?_, ?_, fun _ => ⟨notComplete, ?_⟩⟩
    · rw [List.length_append]
      exact Nat.le_add_right_of_le inv.used_le
    · intro complete
      exact absurd (notComplete.symm.trans complete) (by decide)
    · refine ⟨seen, frame, [], rfl, inv.used_le, ?_⟩
      refine ⟨⟨?_, whole, ?_, long⟩, ⟨?_, rfl⟩, rfl, ?_, ?_, ?_,
        Nat.not_lt.mp accepted⟩
      · rw [@frameType_of_received frame data (by omega), isFf]
      · exact congrArg UInt32.toNat declared.symm
      · intro one member
        cases member
      · exact initial.trans (List.append_nil _).symm
      · exact (congrArg List.length initial).trans filled
      · rw [initial, filled]
        exact Nat.lt_trans (by decide : isotpFfInitialLen < 62) long

section Due

variable
  {before frames : List CanRawFrame}
  {first : CanRawFrame}

/-- The last consecutive frame leaves the whole message waiting. -/
theorem RxInv.finish
    (later : used ≤ before.length)
    (progress : Progress g first frames)
    (isCf : frameType frame = some isotpPciTypeCf)
    (number : frame.data.getD 0 0 &&& 0x0F = g.rxNextSeq)
    (last : g.rxTotalLen.toNat - g.rxBuf.length ≤ 63)
    (carried :
      1 + (g.rxTotalLen.toNat - g.rxBuf.length) ≤ frame.data.length) :
    RxInv used (before ++ first :: (frames ++ [frame]))
      { g with
        rxBuf :=
          g.rxBuf ++
            (cfPayload frame).take (g.rxTotalLen.toNat - g.rxBuf.length)
        rxNextSeq := (g.rxNextSeq + 1) &&& 0x0F
        rxLastActivityMs := nowMs
        rxComplete := true
        state := .rxComplete } where
  used_le := by
    rw [List.length_append]
    exact Nat.le_add_right_of_le later
  waiting := by
    intro _
    have finished := progress.finish isCf number last carried
    exact
      ⟨before.length, later, before, first, frames ++ [frame], rfl, rfl,
        Or.inr
          ⟨frames ++ [frame], [], (List.append_nil _).symm, finished⟩⟩
  receiving := by
    intro receiving
    cases receiving

/-- Any other consecutive frame leaves the reception in progress. -/
theorem RxInv.advance
    (later : used ≤ before.length)
    (notComplete : g.rxComplete = false)
    (progress : Progress g first frames)
    (isCf : frameType frame = some isotpPciTypeCf)
    (number : frame.data.getD 0 0 &&& 0x0F = g.rxNextSeq)
    (more : 63 < g.rxTotalLen.toNat - g.rxBuf.length)
    (carried : 1 + 63 ≤ frame.data.length) :
    RxInv used (before ++ first :: (frames ++ [frame]))
      { g with
        rxBuf := g.rxBuf ++ cfPayload frame
        rxNextSeq := (g.rxNextSeq + 1) &&& 0x0F
        rxLastActivityMs := nowMs } where
  used_le := by
    rw [List.length_append]
    exact Nat.le_add_right_of_le later
  waiting := by
    intro complete
    exact absurd (notComplete.symm.trans complete) (by decide)
  receiving := by
    intro _
    exact
      ⟨notComplete, before, first, frames ++ [frame], rfl, later,
        progress.advance isCf number more carried nowMs⟩

end Due

/-- A consecutive frame that carries what is taken of it. -/
theorem RxInv.consecutive
    (inv : RxInv used seen g)
    (isCf : (halRecv data frame).getD 0 0 &&& 0xF0 = isotpPciTypeCf)
    (sound :
      g.state = .rxInProgress →
        (halRecv data frame).getD 0 0 &&& 0x0F = g.rxNextSeq →
          1 + cfChunk (g.rxTotalLen - g.rxBuf.length.toUInt32).toNat ≤
            frame.data.length) :
    RxInv used (seen ++ [frame]) (g.handleCf (halRecv data frame) nowMs) := by
  unfold Isotp.handleCf
  split
  next idle => exact inv.pass fun receiving => (idle receiving).elim
  next busy =>
    have receiving := not_not.mp busy
    split
    next =>
      have aborted : RxInv used seen { g with state := .errorFlow } :=
        inv.congr ⟨rfl, rfl, rfl, rfl, rfl⟩
          (fun receiving => by cases receiving)
      exact aborted.pass fun receiving => by cases receiving
    next expected =>
      have due := not_not.mp expected
      have carried := sound receiving due
      obtain ⟨notComplete, before, first, frames, rfl, later, progress⟩ :=
        inv.receiving receiving
      have remaining := progress.remaining
      rw [remaining] at carried
      have type : frameType frame = some isotpPciTypeCf := by
        rw [@frameType_of_received frame data (by omega), isCf]
      have number : frame.data.getD 0 0 &&& 0x0F = g.rxNextSeq := by
        rw [← due, halRecv_getD (by omega)]
      have chunk :
          bytesAt (halRecv data frame) 1
              (cfChunk (g.rxTotalLen.toNat - g.rxBuf.length)) =
            (cfPayload frame).take
              (cfChunk (g.rxTotalLen.toNat - g.rxBuf.length)) := by
        rw [halRecv_bytesAt carried, cfPayload, List.take_take,
          Nat.min_eq_left (cfChunk_le _)]
      dsimp only
      rw [remaining, chunk, List.append_assoc, List.cons_append]
      by_cases last : g.rxTotalLen.toNat - g.rxBuf.length ≤ 63
      · have all :
            cfChunk (g.rxTotalLen.toNat - g.rxBuf.length) =
              g.rxTotalLen.toNat - g.rxBuf.length := by
          unfold cfChunk
          rw [if_neg (Nat.not_lt.mpr last)]
        rw [all] at carried ⊢
        have reached :
            g.rxTotalLen.toNat ≤
              (g.rxBuf ++
                (cfPayload frame).take
                  (g.rxTotalLen.toNat - g.rxBuf.length)).length := by
          rw [List.length_append, length_cfPayload_take last carried]
          omega
        rw [if_pos reached]
        exact RxInv.finish later progress type number last carried
      · have more := Nat.not_le.mp last
        have full : cfChunk (g.rxTotalLen.toNat - g.rxBuf.length) = 63 := by
          unfold cfChunk
          rw [if_pos more]
        have whole : (cfPayload frame).take 63 = cfPayload frame := by
          unfold cfPayload
          rw [List.take_take, Nat.min_self]
        rw [full] at carried ⊢
        have missing :=
          (progress.advance type number more carried nowMs).missing
        rw [whole, if_neg (Nat.not_le.mpr missing)]
        exact
          RxInv.advance later notComplete progress type number more carried

/-- Every sound frame. -/
theorem RxInv.handled
    (inv : RxInv used seen g)
    (sound : g.Sound (halRecv data frame) frame) :
    RxInv used (seen ++ [frame])
      (g.handleFrame (halRecv data frame) nowMs).1 := by
  unfold Isotp.Sound at sound
  dsimp only at sound
  by_cases isSf : (halRecv data frame).getD 0 0 &&& 0xF0 = isotpPciTypeSf
  · rw [if_pos isSf] at sound
    rw [Isotp.handleFrame_sf isSf]
    exact inv.single isSf sound
  rw [if_neg isSf] at sound
  by_cases isFf : (halRecv data frame).getD 0 0 &&& 0xF0 = isotpPciTypeFf
  · rw [if_pos isFf] at sound
    rw [Isotp.handleFrame_ff isFf]
    exact inv.first isFf sound
  rw [if_neg isFf] at sound
  by_cases isCf : (halRecv data frame).getD 0 0 &&& 0xF0 = isotpPciTypeCf
  · rw [if_pos isCf] at sound
    rw [Isotp.handleFrame_cf isCf]
    exact inv.consecutive isCf sound
  have passed : RxInv used (seen ++ [frame]) g :=
    inv.pass fun _ =>
      ⟨frameType_ne_of_received isSf, frameType_ne_of_received isFf,
        frameType_ne_of_received isCf⟩
  by_cases isFc : (halRecv data frame).getD 0 0 &&& 0xF0 = isotpPciTypeFc
  · obtain ⟨same, state⟩ := Isotp.handleFc_reception g (halRecv data frame)
    rw [Isotp.handleFrame_fc isFc]
    refine passed.congr same ?_
    intro receiving
    rcases state with kept | ⟨-, aborted⟩
    · exact kept.symm.trans receiving
    · exact absurd (aborted.symm.trans receiving) (by decide)
  · unfold Isotp.handleFrame
    dsimp only
    rw [if_neg isSf, if_neg isFf, if_neg isCf, if_neg isFc]
    exact passed

/-- The timeout only ends a reception. -/
theorem RxInv.expire
    (inv : RxInv used seen g) :
    RxInv used seen (g.expire nowMs) := by
  unfold Isotp.expire
  split
  next =>
    exact inv.congr ⟨rfl, rfl, rfl, rfl, rfl⟩
      (fun receiving => by cases receiving)
  next => exact inv

end Step

/-- What was returned, and what the receiver holds. -/
structure ReassemblyInv
    (receiver : IsotpReceiver)
    (returned : List Returned)
    (starts : List Nat)
    (used : Nat) : Prop where
  made :
    List.Forall₂ (fun one start => MadeOf one.seen start one.message)
      returned starts
  increasing : starts.Pairwise (· < ·)
  below : ∀ start ∈ starts, start < used
  holds : RxInv used receiver.seen receiver.isotp

/-- Nothing is returned and nothing is held at first. -/
theorem reassemblyInv_start
    (txId : UInt32) :
    ReassemblyInv (.start txId) [] [] 0 where
  made := .nil
  increasing := .nil
  below := by
    intro start member
    cases member
  holds := by
    refine ⟨Nat.le_refl 0, ?_, ?_⟩
    · intro complete
      cases complete
    · intro receiving
      cases receiving

/-- A sound poll keeps the invariant. -/
theorem RxInv.poll
    {used : Nat}
    {seen : List CanRawFrame}
    {g : Isotp}
    {nowMs : UInt32}
    {stack : List UInt8}
    {frames : List CanRawFrame}
    (inv : RxInv used seen g)
    (sound : Isotp.EachHandled Isotp.Sound nowMs stack frames g) :
    RxInv used (seen ++ frames) (g.poll nowMs stack frames).1 := by
  have drained :=
    @Isotp.EachHandled.drain Isotp.Sound (RxInv used) nowMs
      (fun _ _ _ _ before sound => before.handled sound)
      frames stack seen g inv sound
  exact drained.expire

/-- A message that is taken is made of its frames, and they are used up. -/
theorem RxInv.take
    {used : Nat}
    {seen : List CanRawFrame}
    {g : Isotp}
    (inv : RxInv used seen g)
    (bufCap : Nat) :
    g.takeReceived bufCap = (none, g) ∨
      ∃ start ≥ used,
        MadeOf seen start g.rxBuf ∧
          (g.takeReceived bufCap).1 = some g.rxBuf ∧
          RxInv (start + 1) seen (g.takeReceived bufCap).2 := by
  unfold Isotp.takeReceived
  split
  next => exact Or.inl rfl
  next complete =>
    split
    next => exact Or.inl rfl
    next =>
      obtain ⟨start, later, made⟩ :=
        inv.waiting (by simpa using complete)
      refine Or.inr ⟨start, later, made, rfl, made.start_lt, ?_, ?_⟩
      · intro waits
        cases waits
      · intro receiving
        cases receiving

/-- A sound call keeps the invariant, with what it returns. -/
theorem ReassemblyInv.step
    {receiver : IsotpReceiver}
    {returned : List Returned}
    {starts : List Nat}
    {used : Nat}
    (inv : ReassemblyInv receiver returned starts used)
    {action : TransportAction}
    (sound : SoundCall receiver action) :
    ∃ starts used,
      ReassemblyInv (isotpReceiverStep receiver action).1
        (returned ++ (isotpReceiverStep receiver action).2) starts used := by
  obtain ⟨made, increasing, below, holds⟩ := inv
  cases action with
  | poll nowMs stack frames =>
      refine ⟨starts, used, ?_⟩
      change ReassemblyInv _ (returned ++ []) starts used
      rw [List.append_nil]
      exact ⟨made, increasing, below, holds.poll sound⟩
  | send buf =>
      refine ⟨starts, used, ?_⟩
      change ReassemblyInv _ (returned ++ []) starts used
      rw [List.append_nil]
      obtain ⟨same, state⟩ := receiver.isotp.send_reception buf
      exact
        ⟨made, increasing, below,
          holds.congr same fun receiving => state.symm.trans receiving⟩
  | take bufCap =>
      rcases holds.take bufCap with nothing | ⟨start, later, new, taken, after⟩
      · refine ⟨starts, used, ?_⟩
        have unchanged :
            isotpReceiverStep receiver (.take bufCap) = (receiver, []) := by
          unfold isotpReceiverStep transportStep
          dsimp only
          rw [nothing]
          rfl
        rw [unchanged, List.append_nil]
        exact ⟨made, increasing, below, holds⟩
      · refine ⟨starts ++ [start], start + 1, ?_⟩
        have shown :
            (isotpReceiverStep receiver (.take bufCap)).2 =
              [⟨receiver.seen, receiver.isotp.rxBuf⟩] := by
          unfold isotpReceiverStep transportStep
          dsimp only
          rw [taken]
          rfl
        rw [shown]
        refine ⟨?_, ?_, ?_, after⟩
        · exact List.rel_append made (.cons new .nil)
        · refine List.pairwise_append.mpr ⟨increasing, by simp, ?_⟩
          intro earlier member last isLast
          rw [List.mem_singleton.mp isLast]
          exact Nat.lt_of_lt_of_le (below earlier member) later
        · intro one member
          rcases List.mem_append.mp member with earlier | new
          · have bound := below one earlier
            omega
          · rw [List.mem_singleton.mp new]
            exact Nat.lt_succ_self start

/--
A single frame of two payload bytes that declares five: three bytes of the
local frame are returned with it.
-/
theorem short_single_frame_returns_other_bytes :
    let frame : CanRawFrame :=
      ⟨0x7A0, canFlagFdf, [0x00, 5, 1, 2], by decide⟩
    let actions : List TransportAction :=
      [.poll 0 [9, 9, 9, 9, 7, 8, 9] [frame], .take isotpMaxPayload]
    Machine.trace transportStep (isotpInit 0x7A8) actions =
        [[1, 2, 7, 8, 9]] ∧
      ¬ Intact (Machine.trace isotpReceiverStep (.start 0x7A8) actions) := by
  intro frame actions
  have trace :
      Machine.trace transportStep (isotpInit 0x7A8) actions =
        [[1, 2, 7, 8, 9]] := by
    decide +kernel
  have returned :
      Machine.trace isotpReceiverStep (.start 0x7A8) actions =
        [⟨[frame], [1, 2, 7, 8, 9]⟩] := by
    decide +kernel
  refine ⟨trace, ?_⟩
  rw [returned]
  rintro ⟨starts, made, -⟩
  cases made with
  | cons first rest =>
      obtain ⟨before, source, after, split, -, made⟩ := first
      have member : source ∈ before ++ source :: after := by simp
      rw [← split] at member
      have same : source = frame := List.mem_singleton.mp member
      rw [same] at made
      rcases made with single | ⟨_, _, -, many⟩
      · exact absurd single.carried (by decide)
      · exact absurd many.begins.type (by decide)

/--
In every run whose frames are sound, every message returned is made of its own
frames, and none is returned twice.
-/
theorem messages_are_intact
    (txId : UInt32)
    (actions : List TransportAction)
    (sound : Machine.Allowed isotpReceiverStep SoundCall (.start txId) actions) :
    Intact (Machine.trace isotpReceiverStep (.start txId) actions) := by
  obtain ⟨starts, used, inv⟩ :=
    @Machine.invariant_of_start _ _ _ isotpReceiverStep SoundCall
      (fun receiver returned =>
        ∃ starts used, ReassemblyInv receiver returned starts used)
      (fun _ _ _ ⟨_, _, inv⟩ guard => inv.step guard)
      actions _ ⟨[], 0, reassemblyInv_start txId⟩ sound
  exact ⟨starts, inv.made, inv.increasing⟩

/-- A request of 63 bytes, a response and a single frame. -/
theorem requests_are_intact :
    Intact
      (Machine.trace isotpReceiverStep (.start 0x7A8)
        [.poll 0 []
          [⟨0x7A0, canFlagFdf, [0x10, 0, 0, 0, 63] ++ List.replicate 59 1,
              by decide⟩,
            ⟨0x7A0, canFlagFdf, [0x21, 2, 2, 2, 2, 0, 0, 0], by decide⟩],
          .take isotpMaxPayload, .send [1, 2, 3],
          .poll 1 [] [⟨0x7A0, canFlagFdf, [0x00, 2, 0x10, 0x02], by decide⟩],
          .take isotpMaxPayload]) :=
  messages_are_intact 0x7A8 _ (by decide +kernel)

end TraveoBodyDomain
