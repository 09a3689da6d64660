import TraveoBodyDomain.Diag.Isotp
import TraveoBodyDomain.Lib.Machine

/-!
# Runs of the transport

Any order of `isotp_poll`, `isotp_send` and `isotp_take_received` after
`isotp_init`, with any frames in the polls.  What each function leaves alone of
the two directions is stated once; a first consequence is what becomes of a
transmission that no flow-control frame answers.
-/

namespace TraveoBodyDomain

/-- A call of one of the three functions. -/
inductive TransportAction where
  | poll (nowMs : UInt32) (stack : List UInt8) (frames : List CanRawFrame)
  | send (buf : List UInt8)
  | take (bufCap : Nat)
  deriving Repr, DecidableEq

/-- One call; it shows the message that is returned, if any. -/
def transportStep : Machine.Step Isotp TransportAction (List UInt8)
  | g, .poll nowMs stack frames => ((g.poll nowMs stack frames).1, [])
  | g, .send buf => ((g.send buf).2.1, [])
  | g, .take bufCap =>
      ((g.takeReceived bufCap).2, (g.takeReceived bufCap).1.toList)

/-- The transport after these calls, from `isotp_init` on. -/
abbrev transportAfter
    (txId : UInt32)
    (actions : List TransportAction) :
    Isotp :=
  Machine.final transportStep (isotpInit txId) actions

namespace Isotp

/-- Every frame a call of `isotp_poll` handles meets `meets`. -/
def EachHandled
    (meets : Isotp → List UInt8 → CanRawFrame → Prop)
    (nowMs : UInt32) :
    List UInt8 → List CanRawFrame → Isotp → Prop
  | _, [], _ => True
  | data, frame :: rest, g =>
      let received := halRecv data frame
      meets g received frame ∧
        EachHandled meets nowMs received rest (g.handleFrame received nowMs).1

instance EachHandled.decidable
    (meets : Isotp → List UInt8 → CanRawFrame → Prop)
    [∀ g received frame, Decidable (meets g received frame)]
    (nowMs : UInt32) :
    ∀ data frames g, Decidable (EachHandled meets nowMs data frames g)
  | _, [], _ => inferInstanceAs (Decidable True)
  | data, frame :: rest, g =>
      haveI :=
        EachHandled.decidable meets nowMs (halRecv data frame) rest
          (g.handleFrame (halRecv data frame) nowMs).1
      inferInstanceAs (Decidable (meets _ _ _ ∧ _))

/--
What each frame of a poll preserves, the poll preserves.  `Inv` relates the
state to the frames handled so far.
-/
theorem EachHandled.drain
    {meets : Isotp → List UInt8 → CanRawFrame → Prop}
    {Inv : List CanRawFrame → Isotp → Prop}
    {nowMs : UInt32}
    (preserved :
      ∀ seen g data frame,
        Inv seen g →
          meets g (halRecv data frame) frame →
            Inv (seen ++ [frame])
              (g.handleFrame (halRecv data frame) nowMs).1)
    {frames : List CanRawFrame}
    {data : List UInt8}
    {seen : List CanRawFrame}
    {g : Isotp}
    (start : Inv seen g)
    (each : EachHandled meets nowMs data frames g) :
    Inv (seen ++ frames) (Isotp.drain nowMs data frames g).1 := by
  induction frames generalizing data seen g with
  | nil =>
      rw [List.append_nil]
      exact start
  | cons frame rest inductionHypothesis =>
      have next := preserved seen g data frame start each.1
      have last := inductionHypothesis next each.2
      rw [List.append_assoc, List.singleton_append] at last
      exact last

/-!
## The two directions
-/

/-- The part of a state, but the state word, that transmission leaves alone. -/
structure SameReception (before after : Isotp) : Prop where
  rxBuf : after.rxBuf = before.rxBuf
  rxTotalLen : after.rxTotalLen = before.rxTotalLen
  rxNextSeq : after.rxNextSeq = before.rxNextSeq
  rxLastActivityMs : after.rxLastActivityMs = before.rxLastActivityMs
  rxComplete : after.rxComplete = before.rxComplete

/-- Sending blocks leaves the reception and the state word. -/
theorem txSendLoop_reception
    (blocks : Nat)
    (g : Isotp) :
    g.SameReception (txSendLoop blocks g).1 ∧
      (txSendLoop blocks g).1.state = g.state := by
  induction blocks generalizing g with
  | zero =>
      exact ⟨⟨rfl, rfl, rfl, rfl, rfl⟩, rfl⟩
  | succ blocks inductionHypothesis =>
      unfold txSendLoop
      split
      next more =>
        obtain ⟨⟨buf, total, seq, activity, complete⟩, state⟩ :=
          inductionHypothesis
            { g with
              txSentLen :=
                g.txSentLen + cfChunk (g.txData.length - g.txSentLen)
              txNextSeq := (g.txNextSeq + 1) &&& 0x0F
              txBlockRemaining := blocks }
        exact ⟨⟨buf, total, seq, activity, complete⟩, state⟩
      next =>
        exact ⟨⟨rfl, rfl, rfl, rfl, rfl⟩, rfl⟩

/-- `tx_send_block` leaves the reception and the state word. -/
theorem txSendBlock_reception
    (g : Isotp) :
    g.SameReception g.txSendBlock.1 ∧ g.txSendBlock.1.state = g.state := by
  obtain ⟨⟨buf, total, seq, activity, complete⟩, state⟩ :=
    txSendLoop_reception g.txBlockRemaining g
  unfold txSendBlock
  dsimp only
  split
  next => exact ⟨⟨buf, total, seq, activity, complete⟩, state⟩
  next => exact ⟨⟨buf, total, seq, activity, complete⟩, state⟩

/-- `isotp_send` leaves the reception and the state word. -/
theorem send_reception
    (g : Isotp)
    (buf : List UInt8) :
    g.SameReception (g.send buf).2.1 ∧ (g.send buf).2.1.state = g.state := by
  unfold send
  split
  next => exact ⟨⟨rfl, rfl, rfl, rfl, rfl⟩, rfl⟩
  next =>
    split
    next => exact ⟨⟨rfl, rfl, rfl, rfl, rfl⟩, rfl⟩
    next => exact ⟨⟨rfl, rfl, rfl, rfl, rfl⟩, rfl⟩

/-- The bytes are an OVERFLOW for a transmission that is pending. -/
def Overflows (g : Isotp) (data : List UInt8) : Prop :=
  g.txPending = true ∧ data.getD 0 0 &&& 0x0F = isotpFcStatusOverflow

instance Overflows.decidable (g : Isotp) (data : List UInt8) :
    Decidable (g.Overflows data) :=
  inferInstanceAs (Decidable (_ ∧ _))

/-- `handle_fc` leaves the reception, and all but an OVERFLOW the state word. -/
theorem handleFc_reception
    (g : Isotp)
    (data : List UInt8) :
    g.SameReception (g.handleFc data).1 ∧
      ((g.handleFc data).1.state = g.state ∨
        g.Overflows data ∧ (g.handleFc data).1.state = .errorOverflow) := by
  unfold handleFc
  split
  next => exact ⟨⟨rfl, rfl, rfl, rfl, rfl⟩, Or.inl rfl⟩
  next pending =>
    dsimp only
    split
    next =>
      obtain ⟨⟨buf, total, seq, activity, complete⟩, state⟩ :=
        txSendBlock_reception
          { g with
            txBlockRemaining :=
              if data.getD 1 0 = 0 then 0xFFFF else (data.getD 1 0).toNat }
      exact ⟨⟨buf, total, seq, activity, complete⟩, Or.inl state⟩
    next =>
      split
      next overflow =>
        refine ⟨⟨rfl, rfl, rfl, rfl, rfl⟩, Or.inr ⟨⟨?_, overflow⟩, rfl⟩⟩
        simpa using pending
      next => exact ⟨⟨rfl, rfl, rfl, rfl, rfl⟩, Or.inl rfl⟩

/-- The handlers of the reception leave the transmission. -/
theorem handleFrame_transmission
    {g : Isotp}
    {data : List UInt8}
    {nowMs : UInt32}
    (other : data.getD 0 0 &&& 0xF0 ≠ isotpPciTypeFc) :
    g.SameTransmission (g.handleFrame data nowMs).1 := by
  have kept : g.SameTransmission g := ⟨rfl, rfl, rfl, rfl, rfl, rfl⟩
  unfold handleFrame
  dsimp only
  split
  next => exact ⟨rfl, rfl, rfl, rfl, rfl, rfl⟩
  next =>
    split
    next =>
      unfold handleFf
      dsimp only
      split
      next => exact ⟨rfl, rfl, rfl, rfl, rfl, rfl⟩
      next => exact ⟨rfl, rfl, rfl, rfl, rfl, rfl⟩
    next =>
      split
      next =>
        unfold handleCf
        split
        next => exact kept
        next =>
          split
          next => exact ⟨rfl, rfl, rfl, rfl, rfl, rfl⟩
          next =>
            dsimp only
            split
            next => exact ⟨rfl, rfl, rfl, rfl, rfl, rfl⟩
            next => exact ⟨rfl, rfl, rfl, rfl, rfl, rfl⟩
      next => exact kept

/-- The timeout of a reception leaves the transmission. -/
theorem expire_transmission
    (g : Isotp)
    (nowMs : UInt32) :
    g.SameTransmission (g.expire nowMs) := by
  unfold expire
  split
  next => exact ⟨rfl, rfl, rfl, rfl, rfl, rfl⟩
  next => exact ⟨rfl, rfl, rfl, rfl, rfl, rfl⟩

/-- `isotp_take_received` leaves the transmission. -/
theorem takeReceived_transmission
    (g : Isotp)
    (bufCap : Nat) :
    g.SameTransmission (g.takeReceived bufCap).2 := by
  unfold takeReceived
  split
  next => exact ⟨rfl, rfl, rfl, rfl, rfl, rfl⟩
  next =>
    split
    next => exact ⟨rfl, rfl, rfl, rfl, rfl, rfl⟩
    next => exact ⟨rfl, rfl, rfl, rfl, rfl, rfl⟩

end Isotp

/-!
## A transmission that is not answered
-/

/--
`ISOTP_N_BS_MS`, how long a sender waits for flow control.  Nothing in
`isotp.c` reads it.
-/
def isotpNBsMs : UInt32 :=
  1000

/-- The transmission is over, and a payload of any legal length is accepted. -/
def Isotp.Released (g : Isotp) : Prop :=
  g.txPending = false ∧
    ∀ buf : List UInt8, buf.length ≤ isotpMaxPayload → (g.send buf).1 = true

/-- No frame of the call is taken for flow control. -/
def NoFlowControl (g : Isotp) : TransportAction → Prop
  | .poll nowMs stack frames =>
      Isotp.EachHandled
        (fun _ received _ => received.getD 0 0 &&& 0xF0 ≠ isotpPciTypeFc)
        nowMs stack frames g
  | .send _ => True
  | .take _ => True

instance NoFlowControl.decidable (g : Isotp) :
    ∀ action, Decidable (NoFlowControl g action)
  | .poll nowMs stack frames =>
      inferInstanceAs (Decidable (Isotp.EachHandled _ nowMs stack frames g))
  | .send _ => inferInstanceAs (Decidable True)
  | .take _ => inferInstanceAs (Decidable True)

/-- While a transmission is pending every payload is refused. -/
theorem send_pending
    {g : Isotp}
    (pending : g.txPending = true)
    (buf : List UInt8) :
    g.send buf = (false, g, []) := by
  unfold Isotp.send
  rw [if_pos (Or.inr pending)]

/-- A call without flow control leaves a pending transmission pending. -/
theorem transportStep_pending
    {g : Isotp}
    {action : TransportAction}
    (pending : g.txPending = true)
    (noFlow : NoFlowControl g action) :
    (transportStep g action).1.txPending = true := by
  cases action with
  | poll nowMs stack frames =>
      have drained :=
        @Isotp.EachHandled.drain _ (fun _ g => g.txPending = true) nowMs
          (fun _ _ _ _ before other =>
            (Isotp.handleFrame_transmission other).txPending.trans before)
          frames stack [] g pending noFlow
      exact (Isotp.expire_transmission _ nowMs).txPending.trans drained
  | send buf =>
      change (g.send buf).2.1.txPending = true
      rw [send_pending pending]
      exact pending
  | take bufCap =>
      exact (Isotp.takeReceived_transmission g bufCap).txPending.trans pending

/-- A payload of 63 bytes, polls that span N_Bs, and nothing is released. -/
theorem unanswered_transmission_outlives_nBs :
    let buf := List.replicate 63 0
    let g := transportAfter 0x7A8 [.send buf]
    let after :=
      Machine.final transportStep g
        [.poll 0 [] [], .poll isotpNBsMs [] [], .poll (2 * isotpNBsMs) [] []]
    g.txPending = true ∧
      after.txPending = true ∧
      (after.send [0]).1 = false ∧
      ¬ after.Released := by
  intro buf g after
  have pending : after.txPending = true := by
    decide +kernel
  refine ⟨by decide +kernel, pending, by decide +kernel, ?_⟩
  intro released
  exact absurd (released.1.symm.trans pending) (by decide)

/--
From every reachable state, a pending transmission is never released, however
long and however often the transport is polled, unless a frame is taken for
flow control; and every payload is refused.
-/
theorem unanswered_transmission_is_never_released
    (txId : UInt32)
    (before after : List TransportAction)
    (pending : (transportAfter txId before).txPending = true)
    (unanswered :
      Machine.Allowed transportStep NoFlowControl (transportAfter txId before)
        after) :
    ¬ (transportAfter txId (before ++ after)).Released ∧
      ∀ buf, ((transportAfter txId (before ++ after)).send buf).1 = false := by
  have still :
      (transportAfter txId (before ++ after)).txPending = true := by
    rw [transportAfter, Machine.final_append]
    exact
      @Machine.invariant _ _ _ transportStep NoFlowControl
        (fun g _ => g.txPending = true)
        (fun _ _ _ => transportStep_pending) after _ [] pending unanswered
  constructor
  · intro released
    exact absurd (released.1.symm.trans still) (by decide)
  · intro buf
    rw [send_pending still]

/-- A transmission of 63 bytes, polled after N_Bs with a foreign frame. -/
theorem polled_transmission_is_not_released :
    ¬ (transportAfter 0x7A8
          ([.send (List.replicate 63 0)] ++
            [.poll isotpNBsMs [] [⟨0x120, 0, [0x50], by decide⟩]])).Released ∧
      ∀ buf,
        ((transportAfter 0x7A8
          ([.send (List.replicate 63 0)] ++
            [.poll isotpNBsMs [] [⟨0x120, 0, [0x50], by decide⟩]])).send
              buf).1 =
          false :=
  unanswered_transmission_is_never_released 0x7A8 _ _ (by decide +kernel)
    (by decide +kernel)

end TraveoBodyDomain
