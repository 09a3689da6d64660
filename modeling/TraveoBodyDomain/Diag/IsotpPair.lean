import Mathlib.Data.List.Forall2
import TraveoBodyDomain.Diag.Isotp
import TraveoBodyDomain.Lib.Machine

/-!
# Two instances of the transport

One instance of `isotp.c` sends a payload, the other receives it; two lossless
first-in first-out wires carry the frames as the CAN port pads them.  A poll
takes any number of the frames that are on its wire.

The receiver answers a first frame with a flow control for eight consecutive
frames and never sends another, so a payload of more than 563 bytes stalls.
-/

namespace TraveoBodyDomain

/-- The two instances, the frames on the way and the time of the last poll. -/
structure IsotpPair where
  sender : Isotp
  receiver : Isotp
  toReceiver : List CanRawFrame
  toSender : List CanRawFrame
  clock : Nat

/-- One side is polled and finds `count` frames, or what there is. -/
inductive PairAction where
  | pollSender (elapsed count : Nat) (stack : List UInt8)
  | pollReceiver (elapsed count : Nat) (stack : List UInt8)
  deriving Repr, DecidableEq

/-- The time of the poll, since the payload was sent. -/
def PairAction.elapsed : PairAction → Nat
  | .pollSender elapsed _ _ => elapsed
  | .pollReceiver elapsed _ _ => elapsed

/-- One poll; `start` is what the millisecond counter showed at the start. -/
def pairStep (start : UInt32) : Machine.Step IsotpPair PairAction Unit
  | pair, .pollSender elapsed count stack =>
      let (sender, sent) :=
        pair.sender.poll (start + elapsed.toUInt32) stack
          (pair.toSender.take count)
      ({ pair with
        sender := sender
        toSender := pair.toSender.drop count
        toReceiver := pair.toReceiver ++ sent.map halSend
        clock := elapsed }, [])
  | pair, .pollReceiver elapsed count stack =>
      let (receiver, sent) :=
        pair.receiver.poll (start + elapsed.toUInt32) stack
          (pair.toReceiver.take count)
      ({ pair with
        receiver := receiver
        toReceiver := pair.toReceiver.drop count
        toSender := pair.toSender ++ sent.map halSend
        clock := elapsed }, [])

/-- The pair once the sender's `isotp_send` returned. -/
def pairSend (senderId receiverId : UInt32) (payload : List UInt8) :
    IsotpPair :=
  let (_, sender, sent) := (isotpInit senderId).send payload
  { sender := sender
    receiver := isotpInit receiverId
    toReceiver := sent.map halSend
    toSender := []
    clock := 0 }

/-- The clock does not go back, and the run is over within N_Cr. -/
def WithinNCr (pair : IsotpPair) (action : PairAction) : Prop :=
  pair.clock ≤ action.elapsed ∧ action.elapsed < isotpNCrMs.toNat

instance WithinNCr.decidable
    (pair : IsotpPair)
    (action : PairAction) :
    Decidable (WithinNCr pair action) :=
  inferInstanceAs (Decidable (_ ∧ _))

/-- No frame is on its way. -/
def IsotpPair.Quiet (pair : IsotpPair) : Prop :=
  pair.toReceiver = [] ∧ pair.toSender = []

/--
The receiver hands on the payload, exactly once, and the sender has nothing left
to send.
-/
def IsotpPair.RoundTrip (pair : IsotpPair) (payload : List UInt8) : Prop :=
  ∀ bufCap,
    payload.length ≤ bufCap →
      (pair.receiver.takeReceived bufCap).1 = some payload ∧
        ((pair.receiver.takeReceived bufCap).2.takeReceived bufCap).1 = none ∧
          pair.sender.txPending = false

/-!
## Sending a block
-/

namespace Isotp

/-- The frames of the next `blocks` consecutive frames, at most. -/
def cfList : Nat → Nat → List UInt8 → List (List UInt8)
  | 0, _, _ => []
  | blocks + 1, seq, rest =>
      if rest = [] then
        []
      else
        cfBytes seq rest :: cfList blocks (seq + 1) (rest.drop 63)

/-- The sender still has `rest` to send, from sequence number `seq` on. -/
structure Sending
    (g : Isotp)
    (payload rest : List UInt8)
    (seq : Nat) : Prop where
  idle : g.state = .idle
  data : g.txData = payload
  left : rest = payload.drop g.txSentLen
  within : g.txSentLen ≤ payload.length
  next : g.txNextSeq = seqNibble seq

section Sending

variable {g : Isotp} {payload rest : List UInt8} {seq : Nat}

/-- The frame sent next carries what is due. -/
theorem cfFrame_data
    (sending : g.Sending payload rest seq) :
    g.cfFrame.data = cfBytes seq rest := by
  obtain ⟨-, data, left, -, next⟩ := sending
  have chunk :
      rest.take (cfChunk rest.length) = rest.take 63 := by
    unfold cfChunk
    split
    · rfl
    · rw [List.take_length, List.take_of_length_le (by omega)]
  have remaining : payload.length - g.txSentLen = rest.length := by
    rw [left, List.length_drop]
  simp only [cfFrame, cfBytes, data, next, seqNibble_low, ← left, remaining,
    chunk]

/-- The loop sends the frames of its blocks. -/
theorem txSendLoop_spec
    (blocks : Nat)
    (sending : g.Sending payload rest seq) :
    ∃ after sent seq',
      txSendLoop blocks g = (after, sent) ∧
        sent.map CanRawFrame.data = cfList blocks seq rest ∧
          after.Sending payload (rest.drop (63 * blocks)) seq' ∧
            after.txPending = g.txPending := by
  induction blocks generalizing g rest seq with
  | zero =>
      exact ⟨g, [], seq, rfl, rfl, sending, rfl⟩
  | succ blocks inductionHypothesis =>
      have first := cfFrame_data sending
      obtain ⟨idle, data, left, within, next⟩ := sending
      have length : rest.length = payload.length - g.txSentLen := by
        rw [left, List.length_drop]
      by_cases more : g.txSentLen < g.txData.length
      · have missing : rest ≠ [] := by
          intro nothing
          rw [nothing, List.length_nil] at length
          rw [data] at more
          omega
        have sendingNext :
            ({ g with
                txSentLen :=
                  g.txSentLen + cfChunk (g.txData.length - g.txSentLen)
                txNextSeq := (g.txNextSeq + 1) &&& 0x0F
                txBlockRemaining := blocks } : Isotp).Sending payload
              (rest.drop 63) (seq + 1) := by
          refine ⟨idle, data, ?_, ?_, ?_⟩
          · show
              rest.drop 63 =
                payload.drop
                  (g.txSentLen + cfChunk (g.txData.length - g.txSentLen))
            rw [data, left, List.drop_drop]
            unfold cfChunk
            split
            · rfl
            · rw [List.drop_of_length_le (by omega),
                List.drop_of_length_le (by omega)]
          · show
              g.txSentLen + cfChunk (g.txData.length - g.txSentLen) ≤
                payload.length
            rw [data]
            unfold cfChunk
            split <;> omega
          · show (g.txNextSeq + 1) &&& 0x0F = seqNibble (seq + 1)
            rw [next, seqNibble_succ]
        obtain ⟨after, sent, seq', loops, carries, reached, pending⟩ :=
          inductionHypothesis sendingNext
        refine ⟨after, g.cfFrame :: sent, seq', ?_, ?_, ?_, pending⟩
        · simp only [txSendLoop, if_pos more, loops]
        · rw [cfList, if_neg missing, List.map_cons, first, carries]
        · rw [List.drop_drop] at reached
          have total : 63 + 63 * blocks = 63 * (blocks + 1) := by ring
          rw [total] at reached
          exact reached
      · have nothing : rest = [] := by
          apply List.length_eq_zero_iff.mp
          rw [data] at more
          omega
        refine ⟨g, [], seq, ?_, ?_, ?_, rfl⟩
        · simp only [txSendLoop, if_neg more]
        · rw [cfList, if_pos nothing]
          rfl
        · rw [nothing, List.drop_nil]
          exact ⟨idle, data, nothing ▸ left, within, next⟩

/-- A CTS for eight frames sends the next eight consecutive frames. -/
theorem handleFrame_cts
    (sending : g.Sending payload rest seq)
    (pending : g.txPending = true)
    {data : List UInt8}
    (carried :
      [isotpPciTypeFc ||| (isotpFcStatusCts &&& 0x0F), isotpBlockSize,
        isotpStminMs] <+: data)
    (nowMs : UInt32) :
    ∃ after sent seq',
      g.handleFrame data nowMs = (after, sent) ∧
        sent.map CanRawFrame.data = cfList 8 seq rest ∧
          after.Sending payload (rest.drop (63 * 8)) seq' ∧
            after.txPending = decide (rest.drop (63 * 8) ≠ []) := by
  have pci : data.getD 0 0 = isotpPciTypeFc :=
    getD_of_start carried (by decide)
  have blocks : data.getD 1 0 = isotpBlockSize :=
    getD_of_start carried (by decide)
  have due :
      ({ g with txBlockRemaining := 8 } : Isotp).Sending payload rest seq :=
    ⟨sending.idle, sending.data, sending.left, sending.within, sending.next⟩
  obtain ⟨after, sent, seq', loops, carries, reached, stillPending⟩ :=
    txSendLoop_spec 8 due
  have handled : g.handleFrame data nowMs = g.handleFc data :=
    handleFrame_fc (by rw [pci]; decide)
  have block :
      g.handleFc data = txSendBlock { g with txBlockRemaining := 8 } := by
    have cts : isotpPciTypeFc &&& 0x0F = isotpFcStatusCts := by decide
    have eight : isotpBlockSize.toNat = 8 := by decide
    have notZero : isotpBlockSize ≠ 0 := by decide
    simp only [handleFc, pending, pci, blocks, cts, eight, notZero,
      Bool.true_eq_false, if_false, if_true]
  have finished :
      after.txData.length ≤ after.txSentLen ↔ rest.drop (63 * 8) = [] := by
    rw [reached.left, reached.data]
    exact List.drop_eq_nil_iff.symm
  by_cases done : rest.drop (63 * 8) = []
  · refine ⟨{ after with txPending := false }, sent, seq', ?_, carries,
      ⟨reached.idle, reached.data, reached.left, reached.within,
        reached.next⟩, by simp [done]⟩
    rw [handled, block]
    simp only [txSendBlock, loops, if_pos (finished.mpr done)]
  · refine ⟨after, sent, seq', ?_, carries, reached, ?_⟩
    · rw [handled, block]
      simp only [txSendBlock, loops, if_neg fun end_ => done (finished.mp end_)]
    · rw [stillPending]
      simp [done, pending]

end Sending

end Isotp

/-- What the port sends carries what it was given. -/
theorem carries_halSend
    (frames : List CanRawFrame) :
    List.Forall₂ Carries (frames.map CanRawFrame.data)
      (frames.map halSend) := by
  induction frames with
  | nil =>
      exact .nil
  | cons frame rest inductionHypothesis =>
      exact .cons (List.prefix_append _ _) inductionHypothesis

/-!
## The phases of a transfer
-/

/-- The bytes of the receiver's flow control. -/
def ctsBytes : List UInt8 :=
  [isotpPciTypeFc ||| (isotpFcStatusCts &&& 0x0F), isotpBlockSize, isotpStminMs]

/-- How far the two sides are, with the frames on each wire. -/
inductive PairPhase (payload : List UInt8) :
    Isotp → Isotp → List (List UInt8) → List (List UInt8) → Prop where
  | single {sender receiver : Isotp}
      (short : payload.length ≤ 62)
      (quiet : sender.state = .idle)
      (done : sender.txPending = false)
      (idle : receiver.state = .idle)
      (notComplete : receiver.rxComplete = false) :
      PairPhase payload sender receiver [Isotp.sfBytes payload] []
  | first {sender receiver : Isotp}
      (long : 62 < payload.length)
      (fits : payload.length ≤ isotpMaxPayload)
      (sending :
        sender.Sending payload (payload.drop isotpFfInitialLen) 1)
      (pending : sender.txPending = true)
      (idle : receiver.state = .idle)
      (notComplete : receiver.rxComplete = false) :
      PairPhase payload sender receiver [Isotp.ffBytes payload] []
  | answered {sender receiver : Isotp}
      (sending :
        sender.Sending payload (payload.drop isotpFfInitialLen) 1)
      (pending : sender.txPending = true)
      (receiving :
        receiver.Receiving payload (payload.drop isotpFfInitialLen) 1) :
      PairPhase payload sender receiver [] [ctsBytes]
  | block {sender receiver : Isotp} {blocks seq : Nat} {rest : List UInt8}
      (quiet : sender.state = .idle)
      (pending :
        sender.txPending = decide (rest.drop (63 * blocks) ≠ []))
      (receiving : receiver.Receiving payload rest seq)
      (count :
        payload.length + 63 * blocks = rest.length + 563) :
      PairPhase payload sender receiver (Isotp.cfList blocks seq rest) []
  | complete {sender receiver : Isotp}
      (quiet : sender.state = .idle)
      (done : sender.txPending = false)
      (complete : receiver.Complete payload)
      (small : payload.length ≤ 563) :
      PairPhase payload sender receiver [] []

namespace PairPhase

variable
  {payload bytes data : List UInt8}
  {sender receiver : Isotp}
  {toReceiver toSender : List (List UInt8)}

/-- The sender receives nothing itself. -/
theorem sender_idle
    (phase : PairPhase payload sender receiver toReceiver toSender) :
    sender.state = .idle := by
  cases phase with
  | single _ quiet => exact quiet
  | first _ _ sending => exact sending.idle
  | answered sending => exact sending.idle
  | block quiet => exact quiet
  | complete quiet => exact quiet

/-- The receiver handles the next frame on its wire. -/
theorem receive
    (phase : PairPhase payload sender receiver (bytes :: toReceiver) toSender)
    (carried : bytes <+: data)
    (nowMs : UInt32) :
    ∃ after sent,
      receiver.handleFrame data nowMs = (after, sent) ∧
        PairPhase payload sender after toReceiver
          (toSender ++ sent.map CanRawFrame.data) ∧
          (after.state = .rxInProgress → after.rxLastActivityMs = nowMs) := by
  generalize frames : bytes :: toReceiver = all at phase
  cases phase with
  | single short quiet done idle notComplete =>
      cases frames
      obtain ⟨after, handled, complete, -⟩ :=
        Isotp.handleFrame_sfBytes short carried nowMs
      refine ⟨after, [], handled, .complete quiet done complete ?_, ?_⟩
      · omega
      · intro inProgress
        rw [complete.state] at inProgress
        cases inProgress
  | first long fits sending pending idle notComplete =>
      cases frames
      obtain ⟨after, handled, receiving, activity, -⟩ :=
        Isotp.handleFrame_ffBytes long fits carried notComplete nowMs
      exact
        ⟨after, _, handled, .answered sending pending receiving,
          fun _ => activity⟩
  | answered _ _ _ =>
      cases frames
  | block quiet pending receiving count =>
      rename_i blocks seq rest
      cases blocks with
      | zero =>
          cases frames
      | succ blocks =>
          rw [Isotp.cfList, if_neg receiving.missing] at frames
          cases frames
          obtain ⟨after, handled, reached, activity, -⟩ :=
            Isotp.handleFrame_cfBytes receiving carried nowMs
          refine ⟨after, [], handled, ?_, fun _ => activity⟩
          by_cases last : rest.length ≤ 63
          · rw [if_pos last] at reached
            have nothing : rest.drop 63 = [] := List.drop_of_length_le last
            have noMore :
                Isotp.cfList blocks (seq + 1) (rest.drop 63) = [] := by
              rw [nothing]
              cases blocks <;> rfl
            have allSent : rest.drop (63 * (blocks + 1)) = [] :=
              List.drop_of_length_le (by omega)
            rw [noMore]
            refine .complete quiet ?_ reached (by omega)
            rw [pending, allSent]
            rfl
          · rw [if_neg last] at reached
            have total : 63 + 63 * blocks = 63 * (blocks + 1) := by ring
            refine .block quiet ?_ reached ?_
            · rw [pending, List.drop_drop, total]
            · rw [List.length_drop]
              omega
  | complete _ _ _ _ =>
      cases frames

/-- The sender handles the next frame on its wire. -/
theorem answer
    (phase : PairPhase payload sender receiver toReceiver (bytes :: toSender))
    (carried : bytes <+: data)
    (nowMs : UInt32) :
    ∃ after sent,
      sender.handleFrame data nowMs = (after, sent) ∧
        PairPhase payload after receiver
          (toReceiver ++ sent.map CanRawFrame.data) toSender := by
  generalize frames : bytes :: toSender = all at phase
  cases phase with
  | single _ _ _ _ _ => cases frames
  | first _ _ _ _ _ _ => cases frames
  | block _ _ _ _ => cases frames
  | complete _ _ _ _ => cases frames
  | answered sending pending receiving =>
      cases frames
      obtain ⟨after, sent, seq', handled, carries, reached, stillPending⟩ :=
        Isotp.handleFrame_cts sending pending carried nowMs
      refine ⟨after, sent, handled, ?_⟩
      rw [carries]
      have initial : isotpFfInitialLen = 59 := rfl
      have missing := List.length_pos_iff.mpr receiving.missing
      refine .block reached.idle stillPending receiving ?_
      rw [List.length_drop] at missing ⊢
      omega

/-- The frames of one poll of the receiver. -/
theorem drain_receiver
    {now later : List (List UInt8)}
    {frames : List CanRawFrame}
    (phase : PairPhase payload sender receiver (now ++ later) toSender)
    (carried : List.Forall₂ Carries now frames)
    (nowMs : UInt32)
    (stack : List UInt8) :
    ∃ after sent,
      Isotp.drain nowMs stack frames receiver = (after, sent) ∧
        PairPhase payload sender after later
          (toSender ++ sent.map CanRawFrame.data) ∧
          (frames ≠ [] →
            after.state = .rxInProgress → after.rxLastActivityMs = nowMs) ∧
            (frames = [] → after = receiver) := by
  induction carried generalizing receiver toSender stack with
  | nil =>
      exact
        ⟨receiver, [], rfl, by simpa using phase, by simp, fun _ => rfl⟩
  | @cons bytes frame now frames first rest inductionHypothesis =>
      have starts : bytes <+: halRecv stack frame := halRecv_starts first
      obtain ⟨middle, sent, handled, moved, activity⟩ :=
        phase.receive starts nowMs
      obtain ⟨after, sentLater, drained, reached, activityLater, unchanged⟩ :=
        inductionHypothesis moved (halRecv stack frame)
      refine ⟨after, sent ++ sentLater, ?_, ?_, ?_, nofun⟩
      · simp only [Isotp.drain, handled, drained]
      · rw [List.map_append, ← List.append_assoc]
        exact reached
      · intro _ inProgress
        cases frames with
        | nil =>
            rw [unchanged rfl] at inProgress ⊢
            exact activity inProgress
        | cons _ _ =>
            exact activityLater nofun inProgress

/-- The frames of one poll of the sender. -/
theorem drain_sender
    {now later : List (List UInt8)}
    {frames : List CanRawFrame}
    (phase : PairPhase payload sender receiver toReceiver (now ++ later))
    (carried : List.Forall₂ Carries now frames)
    (nowMs : UInt32)
    (stack : List UInt8) :
    ∃ after sent,
      Isotp.drain nowMs stack frames sender = (after, sent) ∧
        PairPhase payload after receiver
          (toReceiver ++ sent.map CanRawFrame.data) later := by
  induction carried generalizing sender toReceiver stack with
  | nil =>
      exact ⟨sender, [], rfl, by simpa using phase⟩
  | @cons bytes frame now frames first rest inductionHypothesis =>
      have starts : bytes <+: halRecv stack frame := halRecv_starts first
      obtain ⟨middle, sent, handled, moved⟩ := phase.answer starts nowMs
      obtain ⟨after, sentLater, drained, reached⟩ :=
        inductionHypothesis moved (halRecv stack frame)
      refine ⟨after, sent ++ sentLater, ?_, ?_⟩
      · simp only [Isotp.drain, handled, drained]
      · rw [List.map_append, ← List.append_assoc]
        exact reached

end PairPhase

/-- What holds of the pair: its phase, its wires, and when a frame last came. -/
structure PairInv
    (payload : List UInt8)
    (start : UInt32)
    (pair : IsotpPair) : Prop where
  phase :
    ∃ toReceiver toSender,
      PairPhase payload pair.sender pair.receiver toReceiver toSender ∧
        List.Forall₂ Carries toReceiver pair.toReceiver ∧
          List.Forall₂ Carries toSender pair.toSender
  heard :
    pair.receiver.state = .rxInProgress →
      ∃ before ≤ pair.clock,
        pair.receiver.rxLastActivityMs = start + before.toUInt32

namespace PairInv

variable {payload : List UInt8} {start : UInt32} {pair : IsotpPair}

/-- Within N_Cr no reception times out. -/
private theorem expire
    {g : Isotp}
    {elapsed before : Nat}
    (activity :
      g.state = .rxInProgress →
        g.rxLastActivityMs = start + before.toUInt32)
    (forward : before ≤ elapsed)
    (soon : elapsed < isotpNCrMs.toNat) :
    g.expire (start + elapsed.toUInt32) = g := by
  have limit : isotpNCrMs.toNat = 1000 := rfl
  have bound := start.toNat_lt
  unfold Isotp.expire
  by_cases inProgress : g.state = .rxInProgress
  · rw [if_neg]
    rw [activity inProgress, UInt32.le_iff_toNat_le]
    simp only [UInt32.toNat_sub, UInt32.toNat_add, Nat.toUInt32_eq,
      UInt32.toNat_ofNat']
    omega
  · exact if_neg fun late => inProgress late.1

/-- Every poll in time keeps the invariant. -/
theorem step
    (inv : PairInv payload start pair)
    (action : PairAction)
    (inTime : WithinNCr pair action) :
    PairInv payload start (pairStep start pair action).1 := by
  obtain ⟨⟨toReceiver, toSender, phase, carriedR, carriedS⟩, heard⟩ := inv
  obtain ⟨forward, soon⟩ := inTime
  cases action with
  | pollSender elapsed count stack =>
      have halves :
          PairPhase payload pair.sender pair.receiver toReceiver
            (toSender.take count ++ toSender.drop count) := by
        rw [List.take_append_drop]
        exact phase
      obtain ⟨after, sent, drained, reached⟩ :=
        halves.drain_sender (List.forall₂_take count carriedS)
          (start + elapsed.toUInt32) stack
      have notLate : after.expire (start + elapsed.toUInt32) = after := by
        apply if_neg
        rw [reached.sender_idle]
        nofun
      have stepped :
          (pairStep start pair (.pollSender elapsed count stack)).1 =
            { pair with
              sender := after
              toSender := pair.toSender.drop count
              toReceiver := pair.toReceiver ++ sent.map halSend
              clock := elapsed } := by
        simp only [pairStep, Isotp.poll, drained, notLate]
      rw [stepped]
      refine
        ⟨⟨_, _, reached, List.rel_append carriedR (carries_halSend sent),
          List.forall₂_drop count carriedS⟩, ?_⟩
      intro inProgress
      obtain ⟨before, past, time⟩ := heard inProgress
      exact ⟨before, Nat.le_trans past forward, time⟩
  | pollReceiver elapsed count stack =>
      have halves :
          PairPhase payload pair.sender pair.receiver
            (toReceiver.take count ++ toReceiver.drop count) toSender := by
        rw [List.take_append_drop]
        exact phase
      obtain ⟨after, sent, drained, reached, activity, unchanged⟩ :=
        halves.drain_receiver (List.forall₂_take count carriedR)
          (start + elapsed.toUInt32) stack
      have heardAfter :
          after.state = .rxInProgress →
            ∃ before ≤ elapsed,
              after.rxLastActivityMs = start + before.toUInt32 := by
        intro inProgress
        by_cases none : pair.toReceiver.take count = []
        · rw [unchanged none] at inProgress ⊢
          obtain ⟨before, past, time⟩ := heard inProgress
          exact ⟨before, Nat.le_trans past forward, time⟩
        · exact ⟨elapsed, Nat.le_refl _, activity none inProgress⟩
      have notLate : after.expire (start + elapsed.toUInt32) = after := by
        by_cases inProgress : after.state = .rxInProgress
        · obtain ⟨before, past, time⟩ := heardAfter inProgress
          exact expire (fun _ => time) past soon
        · exact if_neg fun late => inProgress late.1
      have stepped :
          (pairStep start pair (.pollReceiver elapsed count stack)).1 =
            { pair with
              receiver := after
              toReceiver := pair.toReceiver.drop count
              toSender := pair.toSender ++ sent.map halSend
              clock := elapsed } := by
        simp only [pairStep, Isotp.poll, drained, notLate]
      rw [stepped]
      exact
        ⟨⟨_, _, reached, List.forall₂_drop count carriedR,
          List.rel_append carriedS (carries_halSend sent)⟩, heardAfter⟩

/-- The pair right after `isotp_send`. -/
theorem sent
    (senderId receiverId : UInt32)
    (fits : payload.length ≤ isotpMaxPayload) :
    PairInv payload start (pairSend senderId receiverId payload) := by
  have accepted :
      ¬ (isotpMaxPayload < payload.length ∨
        (isotpInit senderId).txPending = true) := by
    simp [isotpInit, fits]
  refine ⟨?_, by intro inProgress; cases inProgress⟩
  by_cases short : payload.length ≤ 62
  · have sends :
        (isotpInit senderId).send payload =
          (true, isotpInit senderId,
            [(isotpInit senderId).sfFrame payload short]) := by
      simp only [Isotp.send, if_neg accepted, dif_pos short]
    refine ⟨_, _, .single short ?_ ?_ rfl rfl, ?_, .nil⟩
    · simp only [pairSend, sends]
      rfl
    · simp only [pairSend, sends]
      rfl
    · simp only [pairSend, sends]
      exact carries_halSend [(isotpInit senderId).sfFrame payload short]
  · have long : 62 < payload.length := Nat.lt_of_not_le short
    have sends :
        (isotpInit senderId).send payload =
          (true,
            { isotpInit senderId with
              txData := payload
              txSentLen := isotpFfInitialLen
              txNextSeq := 1
              txPending := true
              txBlockRemaining := 0 },
            [(isotpInit senderId).ffFrame payload]) := by
      simp only [Isotp.send, if_neg accepted, dif_neg short]
    have sending :
        ({ isotpInit senderId with
            txData := payload
            txSentLen := isotpFfInitialLen
            txNextSeq := 1
            txPending := true
            txBlockRemaining := 0 } : Isotp).Sending payload
          (payload.drop isotpFfInitialLen) 1 := by
      have first : (1 : UInt8) = seqNibble 1 := by decide
      have within : isotpFfInitialLen ≤ payload.length := by
        unfold isotpFfInitialLen
        omega
      exact ⟨rfl, rfl, rfl, within, first⟩
    refine ⟨[Isotp.ffBytes payload], [], ?_, ?_, .nil⟩
    · simp only [pairSend, sends]
      exact .first long fits sending rfl rfl rfl
    · simp only [pairSend, sends]
      exact carries_halSend [(isotpInit senderId).ffFrame payload]

/-- When the wires are empty the payload went round or the sender stalled. -/
theorem roundTrip_iff
    (inv : PairInv payload start pair)
    (quiet : pair.Quiet) :
    pair.RoundTrip payload ↔ payload.length ≤ 563 := by
  obtain ⟨⟨toReceiver, toSender, phase, carriedR, carriedS⟩, -⟩ := inv
  obtain ⟨quietR, quietS⟩ := quiet
  rw [quietR] at carriedR
  rw [quietS] at carriedS
  cases phase with
  | single _ _ _ _ _ => cases carriedR
  | first _ _ _ _ _ _ => cases carriedR
  | answered _ _ _ => cases carriedS
  | @block blocks seq rest _ pending receiving count =>
      have missing := List.length_pos_iff.mpr receiving.missing
      cases blocks with
      | succ blocks =>
          rw [Isotp.cfList, if_neg receiving.missing] at carriedR
          cases carriedR
      | zero =>
          constructor
          · intro roundTrip
            have taken := (roundTrip payload.length (Nat.le_refl _)).1
            rw [Isotp.takeReceived_nothing receiving.notComplete] at taken
            cases taken
          · intro small
            omega
  | complete _ done complete small =>
      refine ⟨fun _ => small, fun _ bufCap room => ?_⟩
      rw [complete.takeReceived room]
      exact ⟨rfl, rfl, done⟩

end PairInv

/-- Polls in turn, each taking all there is, until nothing moves. -/
def alternatePolls : List PairAction :=
  [.pollReceiver 1 64 [], .pollSender 2 64 [], .pollReceiver 3 64 [],
    .pollSender 4 64 []]

/--
A payload of 564 bytes: the wires are empty, the sender waits for a flow control
and the receiver for a frame.
-/
theorem payload_of_564_bytes_stalls :
    let payload : List UInt8 := List.replicate 564 0xA5
    let start := pairSend 0x7A8 0x7A0 payload
    let last := Machine.final (pairStep 0) start alternatePolls
    Machine.Allowed (pairStep 0) WithinNCr start alternatePolls ∧
      last.Quiet ∧ last.sender.txPending = true ∧
        last.receiver.state = .rxInProgress ∧ ¬ last.RoundTrip payload := by
  intro payload start last
  have pending : last.sender.txPending = true := by
    decide +kernel
  refine ⟨by decide +kernel, ⟨by decide +kernel, by decide +kernel⟩, pending,
    by decide +kernel, ?_⟩
  intro roundTrip
  have done := (roundTrip payload.length (Nat.le_refl _)).2.2
  rw [pending] at done
  cases done

/--
Over every order of polls within N_Cr: once no frame is on its way, the payload
went round if and only if it has at most 563 bytes.
-/
theorem transport_round_trip
    (senderId receiverId start : UInt32)
    (payload : List UInt8)
    (actions : List PairAction)
    (fits : payload.length ≤ isotpMaxPayload)
    (inTime :
      Machine.Allowed (pairStep start) WithinNCr
        (pairSend senderId receiverId payload) actions)
    (quiet :
      (Machine.final (pairStep start)
        (pairSend senderId receiverId payload) actions).Quiet) :
    (Machine.final (pairStep start)
        (pairSend senderId receiverId payload) actions).RoundTrip payload ↔
      payload.length ≤ 563 := by
  have preserved :
      ∀ pair (history : List Unit) action,
        PairInv payload start pair →
          WithinNCr pair action →
            PairInv payload start (pairStep start pair action).1 :=
    fun _ _ action inv inTime => inv.step action inTime
  have atStart :
      PairInv payload start (pairSend senderId receiverId payload) :=
    PairInv.sent senderId receiverId fits
  have inv := Machine.invariant_of_start preserved atStart inTime
  exact inv.roundTrip_iff quiet

/-- A payload of 563 bytes, polled in turn. -/
theorem payload_of_563_bytes_goes_round :
    let payload : List UInt8 := List.replicate 563 0xA5
    (Machine.final (pairStep 0) (pairSend 0x7A8 0x7A0 payload)
      alternatePolls).RoundTrip payload :=
  (transport_round_trip 0x7A8 0x7A0 0 (List.replicate 563 0xA5) alternatePolls
    (by decide +kernel) (by decide +kernel)
    ⟨by decide +kernel, by decide +kernel⟩).mpr (by decide +kernel)

end TraveoBodyDomain
