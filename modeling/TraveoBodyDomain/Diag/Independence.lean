import TraveoBodyDomain.Diag.Interference
import TraveoBodyDomain.Diag.IsotpRun

/-!
# What flow control does to a reception

Flow control is for the transmission.  The state word serves both directions,
though, and an OVERFLOW writes it; and a frame that does not carry the bytes its
handler reads finds those of the flow-control frame before it.  Without these
two, a run and the run without its flow-control frames return the same messages.
-/

namespace TraveoBodyDomain

/-- The frame is a flow-control frame. -/
def IsFlowControl (frame : CanRawFrame) : Prop :=
  frame.data ≠ [] ∧ frame.data.getD 0 0 &&& 0xF0 = isotpPciTypeFc

instance IsFlowControl.decidable (frame : CanRawFrame) :
    Decidable (IsFlowControl frame) :=
  inferInstanceAs (Decidable (_ ∧ _))

/-- The same call without the flow-control frames. -/
def TransportAction.withoutFlowControl : TransportAction → TransportAction
  | .poll nowMs stack frames =>
      .poll nowMs stack (frames.filter fun frame => ¬ IsFlowControl frame)
  | .send buf => .send buf
  | .take bufCap => .take bufCap

namespace Isotp

/--
A frame that keeps flow control apart from the reception: it is no OVERFLOW
into a reception in progress, and if it is not flow control itself, it finds no
bytes of such a frame.  `mixed` says that there was one before in the poll.
-/
def KeepsApart
    (mixed : Bool)
    (g : Isotp)
    (received : List UInt8)
    (frame : CanRawFrame) : Prop :=
  if IsFlowControl frame then
    ¬ (g.Overflows received ∧ g.state = .rxInProgress)
  else
    received.getD 0 0 &&& 0xF0 ≠ isotpPciTypeFc ∧
      (mixed = true → g.bytesRead frame.data ≤ frame.data.length)

instance KeepsApart.decidable
    (mixed : Bool)
    (g : Isotp)
    (received : List UInt8)
    (frame : CanRawFrame) :
    Decidable (g.KeepsApart mixed received frame) := by
  unfold KeepsApart
  infer_instance

/-- Every frame of a poll does. -/
def EachKeepsApart (nowMs : UInt32) :
    Bool → List UInt8 → List CanRawFrame → Isotp → Prop
  | _, _, [], _ => True
  | mixed, data, frame :: rest, g =>
      let received := halRecv data frame
      g.KeepsApart mixed received frame ∧
        EachKeepsApart nowMs (mixed || decide (IsFlowControl frame)) received
          rest (g.handleFrame received nowMs).1

instance EachKeepsApart.decidable (nowMs : UInt32) :
    ∀ mixed data frames g,
      Decidable (EachKeepsApart nowMs mixed data frames g)
  | _, _, [], _ => inferInstanceAs (Decidable True)
  | mixed, data, frame :: rest, g =>
      haveI :=
        EachKeepsApart.decidable nowMs
          (mixed || decide (IsFlowControl frame)) (halRecv data frame) rest
          (g.handleFrame (halRecv data frame) nowMs).1
      inferInstanceAs (Decidable (g.KeepsApart _ _ frame ∧ _))

/-- Two states whose receptions are at the same point. -/
structure SameView (g h : Isotp) : Prop extends SameReception g h where
  inProgress : h.state = .rxInProgress ↔ g.state = .rxInProgress

/-- A state has the same view as itself. -/
theorem SameView.refl (g : Isotp) : SameView g g :=
  ⟨⟨rfl, rfl, rfl, rfl, rfl⟩, Iff.rfl⟩

section SameView

variable {g h : Isotp} {data : List UInt8} {nowMs : UInt32}

/-- First frames are treated alike. -/
theorem SameView.handleFf
    (view : SameView g h) :
    SameView (g.handleFf data nowMs).1 (h.handleFf data nowMs).1 := by
  obtain ⟨⟨buf, total, seq, activity, complete⟩, -⟩ := view
  unfold Isotp.handleFf
  dsimp only
  split
  next => exact ⟨⟨buf, total, seq, activity, complete⟩, Iff.rfl⟩
  next => exact ⟨⟨rfl, rfl, rfl, rfl, complete⟩, Iff.rfl⟩

/-- Consecutive frames are treated alike. -/
theorem SameView.handleCf
    (view : SameView g h) :
    SameView (g.handleCf data nowMs) (h.handleCf data nowMs) := by
  obtain ⟨⟨buf, total, seq, activity, complete⟩, inProgress⟩ := view
  unfold Isotp.handleCf
  by_cases receiving : g.state = .rxInProgress
  · rw [if_neg (not_not.mpr receiving),
      if_neg (not_not.mpr (inProgress.mpr receiving)), seq]
    by_cases due : data.getD 0 0 &&& 0x0F ≠ g.rxNextSeq
    · rw [if_pos due, if_pos due]
      exact ⟨⟨buf, total, rfl, activity, complete⟩, Iff.rfl⟩
    · rw [if_neg due, if_neg due]
      simp only [buf, total]
      split
      next => exact ⟨⟨rfl, rfl, rfl, rfl, rfl⟩, Iff.rfl⟩
      next => exact ⟨⟨rfl, rfl, rfl, rfl, complete⟩, inProgress⟩
  · rw [if_pos receiving, if_pos (mt inProgress.mp receiving)]
    exact ⟨⟨buf, total, seq, activity, complete⟩, inProgress⟩

/-- Every frame but a flow-control one is treated alike. -/
theorem SameView.handleFrame
    (view : SameView g h)
    (other : data.getD 0 0 &&& 0xF0 ≠ isotpPciTypeFc) :
    SameView (g.handleFrame data nowMs).1 (h.handleFrame data nowMs).1 := by
  by_cases isSf : data.getD 0 0 &&& 0xF0 = isotpPciTypeSf
  · rw [handleFrame_sf isSf, handleFrame_sf isSf]
    exact
      ⟨⟨rfl, view.rxTotalLen, view.rxNextSeq, view.rxLastActivityMs, rfl⟩,
        Iff.rfl⟩
  by_cases isFf : data.getD 0 0 &&& 0xF0 = isotpPciTypeFf
  · rw [handleFrame_ff isFf, handleFrame_ff isFf]
    exact view.handleFf
  by_cases isCf : data.getD 0 0 &&& 0xF0 = isotpPciTypeCf
  · rw [handleFrame_cf isCf, handleFrame_cf isCf]
    exact view.handleCf
  · unfold Isotp.handleFrame
    dsimp only
    rw [if_neg isSf, if_neg isFf, if_neg isCf, if_neg other, if_neg isSf,
      if_neg isFf, if_neg isCf, if_neg other]
    exact view

/-- Flow control that is no OVERFLOW into a reception keeps the view. -/
theorem SameView.handleFc
    (view : SameView g h)
    (apart : ¬ (g.Overflows data ∧ g.state = .rxInProgress)) :
    SameView (g.handleFc data).1 h := by
  obtain ⟨⟨buf, total, seq, activity, complete⟩, inProgress⟩ := view
  obtain ⟨⟨buf', total', seq', activity', complete'⟩, state⟩ :=
    handleFc_reception g data
  refine
    ⟨⟨buf.trans buf'.symm, total.trans total'.symm, seq.trans seq'.symm,
      activity.trans activity'.symm, complete.trans complete'.symm⟩, ?_⟩
  rcases state with same | ⟨overflows, failed⟩
  · rw [same]
    exact inProgress
  · rw [failed]
    have idle : g.state ≠ .rxInProgress := fun busy => apart ⟨overflows, busy⟩
    constructor
    · intro busy
      exact (idle (inProgress.mp busy)).elim
    · intro busy
      cases busy

/-- The handlers of the reception read equally many bytes. -/
theorem SameView.bytesRead
    (view : SameView g h)
    (other : data.getD 0 0 &&& 0xF0 ≠ isotpPciTypeFc) :
    h.bytesRead data = g.bytesRead data := by
  unfold Isotp.bytesRead
  simp only [view.inProgress, view.rxNextSeq, view.rxTotalLen, view.rxBuf,
    other, false_and, if_false]

/-- The timeout treats them alike. -/
theorem SameView.expire
    (view : SameView g h)
    (nowMs : UInt32) :
    SameView (g.expire nowMs) (h.expire nowMs) := by
  obtain ⟨⟨buf, total, seq, activity, complete⟩, inProgress⟩ := view
  have sameLate :
      (h.state = .rxInProgress ∧
          isotpNCrMs ≤ nowMs - h.rxLastActivityMs) ↔
        g.state = .rxInProgress ∧
          isotpNCrMs ≤ nowMs - g.rxLastActivityMs := by
    rw [activity, inProgress]
  unfold Isotp.expire
  by_cases late :
      g.state = .rxInProgress ∧ isotpNCrMs ≤ nowMs - g.rxLastActivityMs
  · rw [if_pos late, if_pos (sameLate.mpr late)]
    exact ⟨⟨buf, total, seq, activity, complete⟩, Iff.rfl⟩
  · rw [if_neg late, if_neg (mt sameLate.mp late)]
    exact ⟨⟨buf, total, seq, activity, complete⟩, inProgress⟩

/-- The same message is taken from both, or none. -/
theorem SameView.takeReceived
    (view : SameView g h)
    (bufCap : Nat) :
    (h.takeReceived bufCap).1 = (g.takeReceived bufCap).1 ∧
      SameView (g.takeReceived bufCap).2 (h.takeReceived bufCap).2 := by
  obtain ⟨⟨buf, total, seq, activity, complete⟩, inProgress⟩ := view
  unfold Isotp.takeReceived
  rw [complete, buf]
  split
  next =>
    exact ⟨rfl, ⟨⟨buf, total, seq, activity, complete⟩, inProgress⟩⟩
  next =>
    split
    next =>
      exact ⟨rfl, ⟨⟨buf, total, seq, activity, complete⟩, inProgress⟩⟩
    next =>
      exact ⟨rfl, ⟨⟨rfl, total, seq, activity, rfl⟩, Iff.rfl⟩⟩

/-- Sending changes neither view. -/
theorem SameView.send
    (view : SameView g h)
    (buf : List UInt8) :
    SameView (g.send buf).2.1 (h.send buf).2.1 := by
  obtain ⟨⟨rxBuf, total, seq, activity, complete⟩, inProgress⟩ := view
  obtain ⟨⟨gBuf, gTotal, gSeq, gActivity, gComplete⟩, gState⟩ :=
    send_reception g buf
  obtain ⟨⟨hBuf, hTotal, hSeq, hActivity, hComplete⟩, hState⟩ :=
    send_reception h buf
  refine ⟨⟨?_, ?_, ?_, ?_, ?_⟩, ?_⟩
  · rw [hBuf, rxBuf, gBuf]
  · rw [hTotal, total, gTotal]
  · rw [hSeq, seq, gSeq]
  · rw [hActivity, activity, gActivity]
  · rw [hComplete, complete, gComplete]
  · rw [hState, gState]
    exact inProgress

end SameView

/-- Reading at least its first byte, a frame that is read is not empty. -/
theorem bytesRead_pos
    (g : Isotp)
    (data : List UInt8) :
    1 ≤ g.bytesRead data := by
  unfold bytesRead
  dsimp only
  split_ifs <;> omega

/-- The rest of a poll keeps the view, with and without flow control. -/
theorem SameView.drain
    {nowMs : UInt32}
    {frames : List CanRawFrame}
    {mixed : Bool}
    {data others : List UInt8}
    {g h : Isotp}
    (view : SameView g h)
    (same : mixed = false → others = data)
    (apart : EachKeepsApart nowMs mixed data frames g) :
    SameView (Isotp.drain nowMs data frames g).1
      (Isotp.drain nowMs others
        (frames.filter fun frame => ¬ IsFlowControl frame) h).1 := by
  induction frames generalizing mixed data others g h with
  | nil =>
      exact view
  | cons frame rest inductionHypothesis =>
      obtain ⟨harmless, later⟩ := apart
      by_cases flow : IsFlowControl frame
      · rw [KeepsApart, if_pos flow] at harmless
        rw [List.filter_cons_of_neg (by simpa using flow)]
        have nonempty : 0 < frame.data.length :=
          List.length_pos_of_ne_nil flow.1
        have type :
            (halRecv data frame).getD 0 0 &&& 0xF0 = isotpPciTypeFc := by
          rw [halRecv, getD_of_start (List.prefix_append _ _) nonempty]
          exact flow.2
        have kept :
            SameView (g.handleFrame (halRecv data frame) nowMs).1 h := by
          rw [handleFrame_fc type]
          exact view.handleFc harmless
        refine inductionHypothesis kept ?_ later
        intro unmixed
        rw [decide_eq_true flow, Bool.or_true] at unmixed
        cases unmixed
      · rw [KeepsApart, if_neg flow] at harmless
        obtain ⟨other, own⟩ := harmless
        rw [List.filter_cons_of_pos (by simpa using flow)]
        have kept :
            SameView (g.handleFrame (halRecv data frame) nowMs).1
              (h.handleFrame (halRecv others frame) nowMs).1 := by
          cases mixed with
          | false =>
              rw [same rfl]
              exact view.handleFrame other
          | true =>
              have carried := own rfl
              have nonempty : frame.data ≠ [] := by
                intro nothing
                have some_ := bytesRead_pos g frame.data
                rw [nothing, List.length_nil, ← nothing] at carried
                omega
              have ownType :
                  frame.data.getD 0 0 &&& 0xF0 ≠ isotpPciTypeFc :=
                fun type => flow ⟨nonempty, type⟩
              have carriedToo :
                  h.bytesRead frame.data ≤ frame.data.length := by
                rw [view.bytesRead ownType]
                exact carried
              rw [halRecv, halRecv,
                handleFrame_of_start (List.prefix_append _ _) carried,
                handleFrame_of_start (List.prefix_append _ _) carriedToo]
              exact view.handleFrame ownType
        refine inductionHypothesis kept ?_ later
        intro unmixed
        rw [decide_eq_false flow, Bool.or_false] at unmixed
        rw [same unmixed]

end Isotp

/-- The flow-control frames of the call stay apart from the reception. -/
def FlowControlApart (g : Isotp) : TransportAction → Prop
  | .poll nowMs stack frames =>
      Isotp.EachKeepsApart nowMs false stack frames g
  | .send _ => True
  | .take _ => True

instance FlowControlApart.decidable (g : Isotp) :
    ∀ action, Decidable (FlowControlApart g action)
  | .poll nowMs stack frames =>
      inferInstanceAs
        (Decidable (Isotp.EachKeepsApart nowMs false stack frames g))
  | .send _ => inferInstanceAs (Decidable True)
  | .take _ => inferInstanceAs (Decidable True)

/-- One call keeps the view without its flow control, and returns the same. -/
theorem transportStep_withoutFlowControl
    {g h : Isotp}
    {action : TransportAction}
    (view : Isotp.SameView g h)
    (apart : FlowControlApart g action) :
    Isotp.SameView (transportStep g action).1
        (transportStep h action.withoutFlowControl).1 ∧
      (transportStep h action.withoutFlowControl).2 =
        (transportStep g action).2 := by
  cases action with
  | poll nowMs stack frames =>
      have drained := view.drain (fun _ => rfl) apart
      exact ⟨drained.expire nowMs, rfl⟩
  | send buf =>
      exact ⟨view.send buf, rfl⟩
  | take bufCap =>
      obtain ⟨sameMessage, kept⟩ := view.takeReceived bufCap
      exact ⟨kept, congrArg Option.toList sameMessage⟩

/-- A whole run returns the same messages without its flow control. -/
theorem trace_withoutFlowControl
    {g h : Isotp}
    {actions : List TransportAction}
    (view : Isotp.SameView g h)
    (apart : Machine.Allowed transportStep FlowControlApart g actions) :
    Machine.trace transportStep h
        (actions.map TransportAction.withoutFlowControl) =
      Machine.trace transportStep g actions := by
  induction actions generalizing g h with
  | nil =>
      rfl
  | cons action rest inductionHypothesis =>
      obtain ⟨kept, same⟩ := transportStep_withoutFlowControl view apart.1
      rw [List.map_cons, Machine.trace_cons, Machine.trace_cons, same,
        inductionHypothesis kept apart.2]

/--
The tester's OVERFLOW for a response that is pending, in the middle of a request
of 63 bytes: the request is lost, and without that frame it is returned.
-/
theorem overflow_aborts_a_reception :
    let first : CanRawFrame :=
      ⟨0x7A0, canFlagFdf, [0x10, 0, 0, 0, 63] ++ List.replicate 59 1,
        by decide⟩
    let overflow : CanRawFrame := ⟨0x7A0, canFlagFdf, [0x32, 0, 0], by decide⟩
    let second : CanRawFrame :=
      ⟨0x7A0, canFlagFdf, [0x21, 2, 2, 2, 2], by decide⟩
    let g := transportAfter 0x7A8 [.send (List.replicate 63 0)]
    let actions : List TransportAction :=
      [.poll 0 [] [first, overflow, second], .take isotpMaxPayload]
    Machine.trace transportStep g actions = [] ∧
      Machine.trace transportStep g
          (actions.map TransportAction.withoutFlowControl) =
        [List.replicate 59 1 ++ [2, 2, 2, 2]] ∧
      ¬ ∀ txId before actions,
        Machine.trace transportStep (transportAfter txId before)
            (actions.map TransportAction.withoutFlowControl) =
          Machine.trace transportStep (transportAfter txId before) actions := by
  intro first overflow second g actions
  have lost : Machine.trace transportStep g actions = [] := by
    decide +kernel
  have returned :
      Machine.trace transportStep g
          (actions.map TransportAction.withoutFlowControl) =
        [List.replicate 59 1 ++ [2, 2, 2, 2]] := by
    decide +kernel
  refine ⟨lost, returned, ?_⟩
  intro independent
  have same := independent 0x7A8 [.send (List.replicate 63 0)] actions
  rw [returned, lost] at same
  cases same

/--
From every reachable state, deleting the flow-control frames changes none of
the messages returned, when they stay apart from the reception.
-/
theorem flow_control_leaves_the_reception
    (txId : UInt32)
    (before actions : List TransportAction)
    (apart :
      Machine.Allowed transportStep FlowControlApart
        (transportAfter txId before) actions) :
    Machine.trace transportStep (transportAfter txId before)
        (actions.map TransportAction.withoutFlowControl) =
      Machine.trace transportStep (transportAfter txId before) actions :=
  trace_withoutFlowControl (Isotp.SameView.refl _) apart

/-- A CTS for the response that is pending leaves a request of 63 bytes. -/
theorem cts_leaves_a_reception :
    let first : CanRawFrame :=
      ⟨0x7A0, canFlagFdf, [0x10, 0, 0, 0, 63] ++ List.replicate 59 1,
        by decide⟩
    let cts : CanRawFrame := ⟨0x7A0, canFlagFdf, [0x30, 0, 0], by decide⟩
    let second : CanRawFrame :=
      ⟨0x7A0, canFlagFdf, [0x21, 2, 2, 2, 2], by decide⟩
    let g := transportAfter 0x7A8 [.send (List.replicate 63 0)]
    let actions : List TransportAction :=
      [.poll 0 [] [first, cts, second], .take isotpMaxPayload]
    Machine.trace transportStep g
        (actions.map TransportAction.withoutFlowControl) =
      Machine.trace transportStep g actions :=
  flow_control_leaves_the_reception 0x7A8 [.send (List.replicate 63 0)]
    _ (by decide +kernel)

end TraveoBodyDomain
