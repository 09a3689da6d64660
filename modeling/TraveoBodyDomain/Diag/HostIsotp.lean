import Mathlib.Data.List.Forall2
import TraveoBodyDomain.Diag.Isotp
import TraveoBodyDomain.Lib.Machine

/-!
# The host tool's frames

`_isotp_send` of `uds_flash.py` against the receiver of `isotp.c`.  A controller
pads a frame to the next CAN FD length with bytes of its own, and the receiver's
local frame keeps older bytes behind those.  The receiver reads neither.
-/

namespace TraveoBodyDomain

/-- The loop of `_isotp_send`: consecutive frames until nothing is left. -/
def hostSendRest : Nat → Nat → List UInt8 → List (List UInt8)
  | 0, _, _ => []
  | fuel + 1, seq, rest =>
      if rest = [] then
        []
      else
        ((0x20 ||| (seq &&& 0x0F)).toUInt8 :: rest.take 63) ::
          hostSendRest fuel (seq + 1) (rest.drop 63)

/--
`_isotp_send`: the data of every frame, the consecutive ones after the
flow-control frame it waits for.
-/
def hostIsotpSend (payload : List UInt8) : List (List UInt8) :=
  if payload.length ≤ 62 then
    [[0x00, payload.length.toUInt8] ++ payload]
  else
    ([0x10] ++ toU32Be payload.length.toUInt32 ++
        payload.take isotpFfInitialLen) ::
      hostSendRest payload.length 1 (payload.drop isotpFfInitialLen)

/-- What the FBL does with its transport. -/
inductive IsotpAction where
  | poll (nowMs : Nat) (stack : List UInt8) (frames : List CanRawFrame)
  | take (bufCap : Nat)
  deriving Repr, DecidableEq

/-- What the transport does: it sends a frame or hands on a payload. -/
inductive IsotpEvent where
  | sent (frame : CanRawFrame)
  | received (payload : List UInt8)
  deriving Repr, DecidableEq

/-- One call of `isotp_poll` or of `isotp_take_received`. -/
def isotpStep : Machine.Step Isotp IsotpAction IsotpEvent
  | g, .poll nowMs stack frames =>
      let (g, sent) := g.poll nowMs.toUInt32 stack frames
      (g, sent.map .sent)
  | g, .take bufCap =>
      let (taken, g) := g.takeReceived bufCap
      (g, taken.toList.map .received)

/-- The frames that arrive, in order. -/
def arrivals : List IsotpAction → List CanRawFrame
  | [] => []
  | .poll _ _ frames :: rest => frames ++ arrivals rest
  | .take _ :: rest => arrivals rest

/--
The clock does not go back, and each frame arrives less than N_Cr after the one
before.  `last` is the time of the last frame, `clock` that of the last poll.
-/
def Timely : Option Nat → Nat → List IsotpAction → Prop
  | _, _, [] => True
  | last, clock, .take _ :: rest => Timely last clock rest
  | last, clock, .poll nowMs _ frames :: rest =>
      clock ≤ nowMs ∧
        if frames = [] then
          Timely last nowMs rest
        else
          (∀ before, last = some before →
            nowMs < before + isotpNCrMs.toNat) ∧
            Timely (some nowMs) nowMs rest

/-- Every buffer offered to `isotp_take_received` holds `size` bytes. -/
def Roomy (size : Nat) (actions : List IsotpAction) : Prop :=
  ∀ bufCap, .take bufCap ∈ actions → size ≤ bufCap

/-- The byte the tool computes is the one `isotp.c` expects. -/
theorem hostPci
    (seq : Nat) :
    (0x20 ||| (seq &&& 0x0F)).toUInt8 = isotpPciTypeCf ||| seqNibble seq := by
  have low : ∀ n : Nat, n &&& 15 = n % 16 := fun n =>
    Nat.and_two_pow_sub_one_eq_mod n 4
  have small : 32 ||| seq % 16 < 256 :=
    @Nat.or_lt_two_pow 32 (seq % 16) 8 (by decide) (by omega)
  have sameNibble : seq % 256 % 16 = seq % 16 := by omega
  apply UInt8.toNat_inj.mp
  simp only [seqNibble, isotpPciTypeCf, UInt8.toNat_or, UInt8.toNat_and,
    UInt8.toNat_ofNat, Nat.toUInt8_eq, UInt8.toNat_ofNat', Nat.reduceMod,
    Nat.reducePow, low, sameNibble]
  exact Nat.mod_eq_of_lt small

/--
Where a transfer stands: what the receiver holds, the frames still to come, and
what it will still send and hand on.
-/
inductive HostTransfer (payload : List UInt8) :
    Isotp → List (List UInt8) → List IsotpEvent → Prop where
  | before {g : Isotp}
      (idle : g.state = .idle)
      (notComplete : g.rxComplete = false) :
      HostTransfer payload g (hostIsotpSend payload)
        ((if payload.length ≤ 62 then []
          else
            [.sent (g.fcFrame isotpFcStatusCts isotpBlockSize isotpStminMs)]) ++
          [.received payload])
  | during {g : Isotp} {rest : List UInt8} {seq fuel : Nat}
      (receiving : g.Receiving payload rest seq)
      (enough : rest.length ≤ fuel) :
      HostTransfer payload g (hostSendRest fuel seq rest) [.received payload]
  | complete {g : Isotp} (complete : g.Complete payload) :
      HostTransfer payload g [] [.received payload]
  | taken {g : Isotp}
      (idle : g.state = .idle)
      (notComplete : g.rxComplete = false) :
      HostTransfer payload g [] []

namespace HostTransfer

variable
  {payload bytes data : List UInt8}
  {g : Isotp}
  {pending : List (List UInt8)}
  {expected : List IsotpEvent}

/-- The next frame moves the transfer on. -/
theorem handleFrame
    (fits : payload.length ≤ isotpMaxPayload)
    (transfer : HostTransfer payload g (bytes :: pending) expected)
    (carried : bytes <+: data)
    (nowMs : UInt32) :
    ∃ after sent later,
      g.handleFrame data nowMs = (after, sent) ∧
        HostTransfer payload after pending later ∧
          expected = sent.map .sent ++ later ∧
            (after.state = .rxInProgress → after.rxLastActivityMs = nowMs) := by
  generalize frames : bytes :: pending = all at transfer
  cases transfer with
  | before idle notComplete =>
      unfold hostIsotpSend at frames
      by_cases short : payload.length ≤ 62
      · rw [if_pos short] at frames
        cases frames
        obtain ⟨after, handled, complete, -⟩ :=
          Isotp.handleFrame_sfBytes short carried nowMs
        refine ⟨after, [], _, handled, .complete complete, ?_, ?_⟩
        · rw [if_pos short]
          rfl
        · intro inProgress
          rw [complete.state] at inProgress
          cases inProgress
      · rw [if_neg short] at frames
        cases frames
        obtain ⟨after, handled, receiving, activity, -⟩ :=
          Isotp.handleFrame_ffBytes (Nat.lt_of_not_le short) fits carried
            notComplete nowMs
        have enough :
            (payload.drop isotpFfInitialLen).length ≤ payload.length := by
          rw [List.length_drop]
          exact Nat.sub_le _ _
        refine
          ⟨after, _, _, handled, .during receiving enough, ?_,
            fun _ => activity⟩
        rw [if_neg short]
        rfl
  | during receiving enough =>
      rename_i rest seq fuel
      cases fuel with
      | zero =>
          cases frames
      | succ fuel =>
          rw [hostSendRest, if_neg receiving.missing, hostPci] at frames
          cases frames
          obtain ⟨after, handled, reached, activity, -⟩ :=
            Isotp.handleFrame_cfBytes receiving carried nowMs
          by_cases last : rest.length ≤ 63
          · rw [if_pos last] at reached
            have nothing : rest.drop 63 = [] := List.drop_of_length_le last
            have noMore : hostSendRest fuel (seq + 1) (rest.drop 63) = [] := by
              rw [nothing]
              cases fuel <;> rfl
            rw [noMore]
            exact
              ⟨after, [], _, handled, .complete reached, rfl,
                fun _ => activity⟩
          · rw [if_neg last] at reached
            have enoughLeft : (rest.drop 63).length ≤ fuel := by
              rw [List.length_drop]
              omega
            exact
              ⟨after, [], _, handled, .during reached enoughLeft, rfl,
                fun _ => activity⟩
  | complete _ =>
      cases frames
  | taken _ _ =>
      cases frames

/-- The frames of one poll move the transfer on. -/
theorem drain
    {now later : List (List UInt8)}
    {frames : List CanRawFrame}
    (fits : payload.length ≤ isotpMaxPayload)
    (transfer : HostTransfer payload g (now ++ later) expected)
    (carried : List.Forall₂ Carries now frames)
    (nowMs : UInt32)
    (data : List UInt8) :
    ∃ after sent remaining,
      Isotp.drain nowMs data frames g = (after, sent) ∧
        HostTransfer payload after later remaining ∧
          expected = sent.map .sent ++ remaining ∧
            (frames ≠ [] →
              after.state = .rxInProgress → after.rxLastActivityMs = nowMs) ∧
              (frames = [] → after = g) := by
  induction carried generalizing g data expected with
  | nil =>
      exact ⟨g, [], expected, rfl, transfer, rfl, by simp, fun _ => rfl⟩
  | @cons bytes frame now frames first rest inductionHypothesis =>
      have starts : bytes <+: halRecv data frame := halRecv_starts first
      obtain ⟨middle, sent, remaining, handled, moved, split, activity⟩ :=
        transfer.handleFrame fits starts nowMs
      obtain ⟨after, sentLater, remainingLater, drained, reached, splitLater,
          activityLater, unchanged⟩ :=
        inductionHypothesis moved (halRecv data frame)
      refine
        ⟨after, sent ++ sentLater, remainingLater, ?_, reached, ?_, ?_, nofun⟩
      · simp only [Isotp.drain, handled, drained]
      · rw [split, splitLater, List.map_append, List.append_assoc]
      · intro _ inProgress
        cases frames with
        | nil =>
            rw [unchanged rfl] at inProgress ⊢
            exact activity inProgress
        | cons _ _ =>
            exact activityLater nofun inProgress

/-- Taking hands on the payload once it is complete, and nothing before. -/
theorem take
    {bufCap : Nat}
    (transfer : HostTransfer payload g pending expected)
    (room : payload.length ≤ bufCap) :
    ∃ remaining,
      HostTransfer payload (g.takeReceived bufCap).2 pending remaining ∧
        expected =
          (g.takeReceived bufCap).1.toList.map .received ++ remaining ∧
          ((g.takeReceived bufCap).2.state = .rxInProgress →
            (g.takeReceived bufCap).2 = g) := by
  cases transfer with
  | before idle notComplete =>
      rw [Isotp.takeReceived_nothing notComplete]
      exact ⟨_, .before idle notComplete, rfl, fun _ => rfl⟩
  | during receiving enough =>
      rw [Isotp.takeReceived_nothing receiving.notComplete]
      exact ⟨_, .during receiving enough, rfl, fun _ => rfl⟩
  | complete complete =>
      rw [complete.takeReceived room]
      exact ⟨[], .taken rfl rfl, rfl, nofun⟩
  | taken idle notComplete =>
      rw [Isotp.takeReceived_nothing notComplete]
      exact ⟨[], .taken idle notComplete, rfl, fun _ => rfl⟩

/-- A receiver inside the payload waits for a frame. -/
theorem pending_of_inProgress
    (transfer : HostTransfer payload g pending expected)
    (inProgress : g.state = .rxInProgress) :
    pending ≠ [] := by
  cases transfer with
  | before idle _ =>
      rw [idle] at inProgress
      cases inProgress
  | during receiving enough =>
      rename_i rest seq fuel
      cases fuel with
      | zero =>
          have nothing := List.length_eq_zero_iff.mp (Nat.le_zero.mp enough)
          exact absurd nothing receiving.missing
      | succ fuel =>
          rw [hostSendRest, if_neg receiving.missing]
          nofun
  | complete complete =>
      rw [complete.state] at inProgress
      cases inProgress
  | taken idle _ =>
      rw [idle] at inProgress
      cases inProgress

end HostTransfer

/-- After the last frame one take hands on what is left, and ends the transfer. -/
theorem HostTransfer.finish
    {payload : List UInt8}
    {g : Isotp}
    {expected : List IsotpEvent}
    {bufCap : Nat}
    (transfer : HostTransfer payload g [] expected)
    (room : payload.length ≤ bufCap) :
    expected = (g.takeReceived bufCap).1.toList.map .received ∧
      (g.takeReceived bufCap).2.state = .idle ∧
        (g.takeReceived bufCap).2.rxComplete = false := by
  generalize frames : ([] : List (List UInt8)) = pending at transfer
  cases transfer with
  | before _ _ =>
      unfold hostIsotpSend at frames
      split at frames <;> cases frames
  | during receiving enough =>
      have waiting :=
        (HostTransfer.during receiving enough).pending_of_inProgress
          receiving.inProgress
      exact absurd frames.symm waiting
  | complete complete =>
      rw [complete.takeReceived room]
      exact ⟨rfl, rfl, rfl⟩
  | taken idle notComplete =>
      rw [Isotp.takeReceived_nothing notComplete]
      exact ⟨rfl, idle, notComplete⟩

/-- The next frame arrives before N_Cr has passed since the last. -/
theorem Timely.next
    {before clock : Nat}
    {actions : List IsotpAction}
    (timely : Timely (some before) clock actions)
    (more : arrivals actions ≠ []) :
    clock < before + isotpNCrMs.toNat := by
  induction actions generalizing clock with
  | nil =>
      exact absurd rfl more
  | cons action rest inductionHypothesis =>
      cases action with
      | take bufCap =>
          exact inductionHypothesis timely more
      | poll nowMs stack frames =>
          obtain ⟨forward, timely⟩ := timely
          by_cases none : frames = []
          · rw [if_pos none] at timely
            have later := inductionHypothesis timely (by
              rw [arrivals, none] at more
              exact more)
            omega
          · rw [if_neg none] at timely
            have soon := timely.1 before rfl
            omega

/-- A reception that is not late does not time out. -/
theorem Isotp.expire_of_timely
    {g : Isotp}
    {nowMs before : Nat}
    (activity : g.state = .rxInProgress → g.rxLastActivityMs = before.toUInt32)
    (forward : before ≤ nowMs)
    (soon : nowMs < before + isotpNCrMs.toNat) :
    g.expire nowMs.toUInt32 = g := by
  have limit : isotpNCrMs.toNat = 1000 := rfl
  unfold expire
  by_cases inProgress : g.state = .rxInProgress
  · have early :
        (nowMs.toUInt32 - before.toUInt32).toNat < isotpNCrMs.toNat := by
      simp only [UInt32.toNat_sub, Nat.toUInt32_eq, UInt32.toNat_ofNat']
      omega
    rw [if_neg]
    rw [activity inProgress, UInt32.le_iff_toNat_le]
    omega
  · rw [if_neg fun late => inProgress late.1]

/-- When the receiver last heard a frame of the payload it is inside. -/
def HeardAt (g : Isotp) (last : Option Nat) (clock : Nat) : Prop :=
  g.state = .rxInProgress →
    ∃ before,
      last = some before ∧ before ≤ clock ∧
        g.rxLastActivityMs = before.toUInt32

/-- A frame that was heard stays heard as the clock goes on. -/
theorem HeardAt.later
    {g : Isotp}
    {last : Option Nat}
    {clock nowMs : Nat}
    (heard : HeardAt g last clock)
    (forward : clock ≤ nowMs) :
    HeardAt g last nowMs := by
  intro inProgress
  obtain ⟨before, isLast, past, time⟩ := heard inProgress
  exact ⟨before, isLast, Nat.le_trans past forward, time⟩

/-- A reception that has just heard a frame does not time out. -/
theorem Isotp.expire_of_heard
    {g : Isotp}
    {nowMs : Nat}
    (activity :
      g.state = .rxInProgress → g.rxLastActivityMs = nowMs.toUInt32) :
    g.expire nowMs.toUInt32 = g :=
  expire_of_timely activity (Nat.le_refl _)
    (Nat.lt_add_of_pos_right (by decide))

/-- A poll that brings no frame finds a timely reception in time. -/
theorem HostTransfer.quiet_poll
    {payload : List UInt8}
    {g : Isotp}
    {pending : List (List UInt8)}
    {expected : List IsotpEvent}
    {actions : List IsotpAction}
    {last : Option Nat}
    {clock nowMs : Nat}
    (transfer : HostTransfer payload g pending expected)
    (carried : List.Forall₂ Carries pending (arrivals actions))
    (heard : HeardAt g last clock)
    (forward : clock ≤ nowMs)
    (timely : Timely last nowMs actions) :
    g.expire nowMs.toUInt32 = g := by
  by_cases inProgress : g.state = .rxInProgress
  · obtain ⟨before, isLast, past, time⟩ := heard inProgress
    subst isLast
    have waiting := transfer.pending_of_inProgress inProgress
    have more : arrivals actions ≠ [] := by
      intro nothing
      rw [nothing] at carried
      exact waiting (List.forall₂_nil_right_iff.mp carried)
    exact
      Isotp.expire_of_timely (fun _ => time) (Nat.le_trans past forward)
        (timely.next more)
  · exact if_neg fun late => inProgress late.1

/-- A timely run brings the transfer to its end. -/
theorem HostTransfer.run
    {payload : List UInt8}
    {g : Isotp}
    {pending : List (List UInt8)}
    {expected : List IsotpEvent}
    {actions : List IsotpAction}
    {last : Option Nat}
    {clock : Nat}
    (fits : payload.length ≤ isotpMaxPayload)
    (transfer : HostTransfer payload g pending expected)
    (carried : List.Forall₂ Carries pending (arrivals actions))
    (roomy : Roomy payload.length actions)
    (timely : Timely last clock actions)
    (heard : HeardAt g last clock) :
    ∃ remaining,
      HostTransfer payload (Machine.final isotpStep g actions) [] remaining ∧
        expected = Machine.trace isotpStep g actions ++ remaining := by
  induction actions generalizing g pending expected last clock with
  | nil =>
      cases carried
      exact ⟨expected, transfer, rfl⟩
  | cons action rest inductionHypothesis =>
      have roomyRest : Roomy payload.length rest := fun bufCap member =>
        roomy bufCap (List.mem_cons_of_mem _ member)
      cases action with
      | take bufCap =>
          obtain ⟨later, moved, split, same⟩ :=
            transfer.take (roomy bufCap (List.mem_cons_self ..))
          have heardAfter : HeardAt (g.takeReceived bufCap).2 last clock := by
            intro inProgress
            have unchanged := same inProgress
            rw [unchanged] at inProgress ⊢
            exact heard inProgress
          obtain ⟨remaining, reached, splitRest⟩ :=
            inductionHypothesis moved carried roomyRest timely heardAfter
          refine ⟨remaining, reached, ?_⟩
          rw [split, splitRest, Machine.trace_cons, List.append_assoc]
          rfl
      | poll nowMs stack frames =>
          obtain ⟨forward, timely⟩ := timely
          have carriedNow :=
            List.forall₂_take_append pending frames (arrivals rest) carried
          have carriedLater :=
            List.forall₂_drop_append pending frames (arrivals rest) carried
          have halves :
              HostTransfer payload g
                (pending.take frames.length ++ pending.drop frames.length)
                expected := by
            rw [List.take_append_drop]
            exact transfer
          obtain ⟨after, sent, later, drained, moved, split, activity,
              unchanged⟩ :=
            halves.drain fits carriedNow nowMs.toUInt32 stack
          have settled :
              after.expire nowMs.toUInt32 = after ∧
                ∃ last',
                  Timely last' nowMs rest ∧ HeardAt after last' nowMs := by
            by_cases none : frames = []
            · rw [if_pos none] at timely
              have same := unchanged none
              subst same
              exact
                ⟨moved.quiet_poll carriedLater heard forward timely, last,
                  timely, heard.later forward⟩
            · rw [if_neg none] at timely
              exact
                ⟨Isotp.expire_of_heard (activity none), some nowMs, timely.2,
                  fun inProgress =>
                    ⟨nowMs, rfl, Nat.le_refl _, activity none inProgress⟩⟩
          obtain ⟨notLate, last', timely', heard'⟩ := settled
          have stepped :
              isotpStep g (.poll nowMs stack frames) =
                (after, sent.map .sent) := by
            simp only [isotpStep, Isotp.poll, drained, notLate]
          obtain ⟨remaining, reached, splitRest⟩ :=
            inductionHypothesis moved carriedLater roomyRest timely' heard'
          refine ⟨remaining, ?_, ?_⟩
          · rw [Machine.final_cons, stepped]
            exact reached
          · rw [split, splitRest, Machine.trace_cons, stepped,
              List.append_assoc]

/--
From an idle receiver, the tool's frames, padded, in order and in time, over any
polls: one CTS for a payload of more than 62 bytes and none otherwise, then
exactly that payload once, and the receiver is idle again.
-/
theorem host_payload_is_received_exactly
    (g : Isotp)
    (payload : List UInt8)
    (actions : List IsotpAction)
    (bufCap clock : Nat)
    (idle : g.state = .idle)
    (notComplete : g.rxComplete = false)
    (fits : payload.length ≤ isotpMaxPayload)
    (carried :
      List.Forall₂ Carries (hostIsotpSend payload) (arrivals actions))
    (timely : Timely none clock actions)
    (roomy : Roomy payload.length actions)
    (room : payload.length ≤ bufCap) :
    let run := actions ++ [.take bufCap]
    Machine.trace isotpStep g run =
        (if payload.length ≤ 62 then []
          else
            [.sent (g.fcFrame isotpFcStatusCts isotpBlockSize isotpStminMs)]) ++
          [.received payload] ∧
      (Machine.final isotpStep g run).state = .idle ∧
        (Machine.final isotpStep g run).rxComplete = false := by
  intro run
  have heard : HeardAt g none clock := by
    intro inProgress
    rw [idle] at inProgress
    cases inProgress
  obtain ⟨remaining, reached, split⟩ :=
    (HostTransfer.before idle notComplete).run fits carried roomy timely heard
  obtain ⟨handedOn, idleAgain, nothingLeft⟩ := reached.finish room
  have lastStep :
      isotpStep (Machine.final isotpStep g actions) (.take bufCap) =
        (((Machine.final isotpStep g actions).takeReceived bufCap).2,
          remaining) := by
    rw [handedOn]
    rfl
  refine ⟨?_, ?_, ?_⟩
  · rw [split, Machine.trace_append, Machine.trace_cons, lastStep,
      Machine.trace_nil, List.append_nil]
  · rw [Machine.final_append, Machine.final_cons, lastStep]
    exact idleAgain
  · rw [Machine.final_append, Machine.final_cons, lastStep]
    exact nothingLeft

/-- A payload of 71 bytes: a first frame, and twelve bytes padded to sixteen. -/
theorem host_payload_of_71_bytes_is_received :
    let payload : List UInt8 := List.replicate 71 7
    let first : CanRawFrame :=
      ⟨0x7A0, canFlagFdf, [0x10, 0, 0, 0, 71] ++ List.replicate 59 7, by decide⟩
    let second : CanRawFrame :=
      ⟨0x7A0, canFlagFdf, 0x21 :: List.replicate 12 7 ++ [1, 2, 3], by decide⟩
    let actions : List IsotpAction :=
      [.poll 5 [] [], .poll 10 [] [first], .take 4096, .poll 900 [9] [second],
        .poll 5000 [] []]
    let g := isotpInit 0x7A8
    let run := actions ++ [.take 4096]
    Machine.trace isotpStep g run =
        [.sent (g.fcFrame isotpFcStatusCts isotpBlockSize isotpStminMs)] ++
          [.received payload] ∧
      (Machine.final isotpStep g run).state = .idle ∧
        (Machine.final isotpStep g run).rxComplete = false := by
  intro payload first second actions g run
  have carried :
      List.Forall₂ Carries (hostIsotpSend payload) (arrivals actions) :=
    .cons (by decide) (.cons (by decide) .nil)
  have timely : Timely none 0 actions := by
    refine ⟨by decide, by decide, ?_, by decide, ?_, by decide, trivial⟩
    · rintro _ ⟨⟩
    · rintro _ ⟨⟩
      decide
  have roomy : Roomy payload.length actions := by
    intro bufCap member
    simp only [actions, List.mem_cons, List.not_mem_nil, reduceCtorEq,
      IsotpAction.take.injEq, false_or, or_false] at member
    subst member
    decide
  exact
    host_payload_is_received_exactly g payload actions 4096 0 rfl rfl
      (by decide) carried timely roomy (by decide)

end TraveoBodyDomain
