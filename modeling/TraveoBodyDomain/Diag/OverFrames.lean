import TraveoBodyDomain.Diag.Finished
import TraveoBodyDomain.Diag.IsotpRun
import TraveoBodyDomain.Diag.UdsClient

/-!
# Requests over frames

The client on the bus refines the one whose requests reach the server whole.
Between the two lie the transport of both sides, the calls of `fbl_diag_tick`
that only move frames on, and the S3 checks these make.

The bus is prompt: the frames of an exchange arrive in order and padded, each
less than N_Cr after the one before, a passage takes less than half of the
bootloader's clock, and the tool hears each answer within its timeout.
-/

namespace TraveoBodyDomain

open Alongside

/-!
## The server meanwhile
-/

namespace UdsServer

/-- The last activity was at this time, or does not matter. -/
def Dated (server : UdsServer) (since : Nat) : Prop :=
  server.session = .default ∨ server.lastActivityMs = since.toUInt32

/-- The clock shows how much time has passed, unless it has wrapped. -/
theorem elapsed_toUInt32
    {since now : Nat}
    (past : since ≤ now)
    (unwrapped : now < since + 2 ^ 32) :
    (now.toUInt32 - since.toUInt32).toNat = now - since := by
  simp only [UInt32.toNat_sub, Nat.toUInt32_eq, UInt32.toNat_ofNat']
  omega

/-- An S3 check that was made on the way makes no difference to a later one. -/
theorem s3Check_twice
    {server : UdsServer}
    {since first second : Nat}
    (dated : server.Dated since)
    (past : since ≤ first)
    (forward : first ≤ second)
    (unwrapped : second < since + 2 ^ 32) :
    (server.s3Check first.toUInt32).s3Check second.toUInt32 =
      server.s3Check second.toUInt32 := by
  by_cases lapsed :
      server.session ≠ .default ∧
        udsS3ServerMs ≤ first.toUInt32 - server.lastActivityMs
  · have stillLapsed :
        server.session ≠ .default ∧
          udsS3ServerMs ≤ second.toUInt32 - server.lastActivityMs := by
      refine ⟨lapsed.1, ?_⟩
      have late := lapsed.2
      rw [dated.resolve_left lapsed.1, UInt32.le_iff_toNat_le] at late ⊢
      rw [elapsed_toUInt32 past (Nat.lt_of_le_of_lt forward unwrapped)] at late
      rw [elapsed_toUInt32 (Nat.le_trans past forward) unwrapped]
      exact Nat.le_trans late (Nat.sub_le_sub_right forward since)
    rw [s3Check, s3Check, if_pos lapsed, s3Check, if_pos stillLapsed]
    exact if_neg fun again => again.1 rfl
  · have unchanged : server.s3Check first.toUInt32 = server :=
      if_neg lapsed
    rw [unchanged]

/--
From a time on, no S3 check tells the other server apart from this one, of the
last activity at `since`, before the clock wraps.
-/
structure Settles (server : UdsServer) (since clock : Nat) (other : UdsServer) :
    Prop where
  dated : server.Dated since
  past : since ≤ clock
  agrees :
    ∀ now,
      clock ≤ now → now < since + 2 ^ 32 →
        other.s3Check now.toUInt32 = server.s3Check now.toUInt32

namespace Settles

variable
  {server other : UdsServer}
  {since clock nowMs : Nat}

/-- Nothing was checked yet. -/
theorem refl
    (dated : server.Dated since) :
    server.Settles since since server :=
  ⟨dated, Nat.le_refl _, fun _ _ _ => rfl⟩

/-- Time passes. -/
theorem later
    (settles : server.Settles since clock other)
    (forward : clock ≤ nowMs) :
    server.Settles since nowMs other :=
  ⟨settles.dated, Nat.le_trans settles.past forward, fun now after =>
    settles.agrees now (Nat.le_trans forward after)⟩

/-- A call without a request only checks S3. -/
theorem idle
    (settles : server.Settles since clock other)
    (forward : clock ≤ nowMs)
    (unwrapped : nowMs < since + 2 ^ 32) :
    server.Settles since nowMs (other.s3Check nowMs.toUInt32) := by
  refine ⟨settles.dated, Nat.le_trans settles.past forward, ?_⟩
  intro now after below
  rw [settles.agrees nowMs forward unwrapped]
  exact
    s3Check_twice settles.dated (Nat.le_trans settles.past forward) after below

/-- A request is answered as if nothing had been checked. -/
theorem tick
    (settles : server.Settles since clock other)
    (forward : clock ≤ nowMs)
    (unwrapped : nowMs < since + 2 ^ 32)
    (imageValid : (Nat → UInt8) → Bool)
    (request : Option (List UInt8)) :
    other.tick imageValid nowMs.toUInt32 request =
      server.tick imageValid nowMs.toUInt32 request := by
  simp only [UdsServer.tick, settles.agrees nowMs forward unwrapped]

end Settles

section Answers

variable
  (imageValid : (Nat → UInt8) → Bool)
  (server : UdsServer)

/-- A handler returns five bytes at most. -/
theorem handle_length
    {sid : UInt8}
    {req body : List UInt8}
    (accepted : (server.handle imageValid sid req).result = .ok body) :
    body.length ≤ 5 := by
  unfold handle at accepted
  split_ifs at accepted
  · simp only [sessionControlHandle] at accepted
    split_ifs at accepted
    cases accepted
    exact Nat.le_of_ble_eq_true rfl
  · simp only [ecuResetHandle] at accepted
    split_ifs at accepted
    cases accepted
    exact Nat.le_of_ble_eq_true rfl
  · simp only [securityAccessHandle] at accepted
    split_ifs at accepted <;> cases accepted <;> exact Nat.le_of_ble_eq_true rfl
  · simp only [requestDownloadHandle] at accepted
    split_ifs at accepted
    cases accepted
    exact Nat.le_of_ble_eq_true rfl
  · simp only [transferDataHandle] at accepted
    split_ifs at accepted
    cases accepted
    exact Nat.le_of_ble_eq_true rfl
  · simp only [requestTransferExitHandle] at accepted
    split_ifs at accepted
    cases accepted
    exact Nat.le_of_ble_eq_true rfl
  · simp only [routineControlHandle, doErase, doCheckImage] at accepted
    split_ifs at accepted <;> cases accepted <;> exact Nat.le_of_ble_eq_true rfl

/-- A request is answered, with six bytes at most. -/
theorem tick_answers
    (nowMs : UInt32)
    (sid : UInt8)
    (req : List UInt8) :
    ∃ response,
      (server.tick imageValid nowMs (some (sid :: req))).1 = some response ∧
        response.length ≤ 6 := by
  cases handled :
      ((server.s3Check nowMs).handle imageValid sid req).result with
  | error nrc =>
      rw [tick_refused imageValid server handled]
      exact ⟨_, rfl, Nat.le_of_ble_eq_true rfl⟩
  | ok body =>
      rw [tick_accepted imageValid server handled]
      exact ⟨_, rfl, Nat.succ_le_succ (handle_length imageValid _ handled)⟩

/-- The session after a transition is dated as the request was. -/
theorem tick_dated
    {nowMs : Nat}
    {sid : UInt8}
    {req body : List UInt8}
    (accepted :
      ((server.s3Check nowMs.toUInt32).handle imageValid sid req).result =
        .ok body) :
    (server.tick imageValid nowMs.toUInt32 (some (sid :: req))).2.1.Dated
      nowMs := by
  rw [tick_accepted imageValid server accepted, followUp]
  split_ifs <;> exact .inr rfl

end Answers

end UdsServer

/-!
## The transport meanwhile
-/

/-- The first byte of a frame is there, and it is no flow control. -/
def CarriesRequest (bytes : List UInt8) : Prop :=
  bytes ≠ [] ∧ bytes.getD 0 0 &&& 0xF0 ≠ isotpPciTypeFc

/-- The consecutive frames of the tool are no flow control. -/
theorem hostSendRest_carriesRequest
    {fuel seq : Nat}
    {rest bytes : List UInt8}
    (sent : bytes ∈ hostSendRest fuel seq rest) :
    CarriesRequest bytes := by
  induction fuel generalizing seq rest with
  | zero =>
      cases sent
  | succ fuel inductionHypothesis =>
      rw [hostSendRest] at sent
      split at sent
      · cases sent
      · rw [hostPci] at sent
        cases sent with
        | head =>
            refine ⟨List.cons_ne_nil _ _, ?_⟩
            show (isotpPciTypeCf ||| seqNibble seq) &&& 0xF0 ≠ _
            rw [(cfPci seq).1]
            decide
        | tail _ later =>
            exact inductionHypothesis later

/-- The frames of the tool are no flow control. -/
theorem hostIsotpSend_carriesRequest
    {payload bytes : List UInt8}
    (sent : bytes ∈ hostIsotpSend payload) :
    CarriesRequest bytes := by
  rw [hostIsotpSend] at sent
  split at sent
  · obtain rfl := List.mem_singleton.mp sent
    refine ⟨List.cons_ne_nil _ _, ?_⟩
    show (0x00 : UInt8) &&& 0xF0 ≠ isotpPciTypeFc
    decide
  · cases sent with
    | head =>
        refine ⟨List.cons_ne_nil _ _, ?_⟩
        show (0x10 : UInt8) &&& 0xF0 ≠ isotpPciTypeFc
        decide
    | tail _ later =>
        exact hostSendRest_carriesRequest later

/-- And so are those that are still to come. -/
theorem HostTransfer.carriesRequest
    {payload bytes : List UInt8}
    {g : Isotp}
    {pending : List (List UInt8)}
    {expected : List IsotpEvent}
    (transfer : HostTransfer payload g pending expected)
    (sent : bytes ∈ pending) :
    CarriesRequest bytes := by
  cases transfer with
  | before _ _ =>
      exact hostIsotpSend_carriesRequest sent
  | during _ _ =>
      exact hostSendRest_carriesRequest sent
  | complete _ =>
      cases sent
  | taken _ _ =>
      cases sent

namespace Isotp

/-- Nothing is being transmitted; what is sent has the response identifier. -/
structure Calm (g : Isotp) : Prop where
  notPending : g.txPending = false
  responds : g.txId = fblDiagResponseId

/-- Nothing is being transmitted or received. -/
structure Ready (g : Isotp) : Prop extends g.Calm where
  idle : g.state = .idle
  notComplete : g.rxComplete = false

theorem ready_isotpInit : (isotpInit fblDiagResponseId).Ready :=
  ⟨⟨rfl, rfl⟩, rfl, rfl⟩

theorem Calm.same
    {g after : Isotp}
    (calm : g.Calm)
    (same : g.SameTransmission after) :
    after.Calm :=
  ⟨same.txPending.trans calm.notPending, same.txId.trans calm.responds⟩

/-- The tool's frames do not start a transmission. -/
theorem Calm.drain
    {g : Isotp}
    {pending : List (List UInt8)}
    {frames : List CanRawFrame}
    (calm : g.Calm)
    (requests : ∀ bytes ∈ pending, CarriesRequest bytes)
    (carried : List.Forall₂ Carries pending frames)
    (nowMs : UInt32)
    (data : List UInt8) :
    (Isotp.drain nowMs data frames g).1.Calm := by
  induction carried generalizing g data with
  | nil =>
      exact calm
  | @cons bytes frame _ _ first rest inductionHypothesis =>
      obtain ⟨someBytes, notFc⟩ := requests bytes (List.mem_cons_self ..)
      have pci : (halRecv data frame).getD 0 0 = bytes.getD 0 0 :=
        getD_of_start (halRecv_starts first) (List.length_pos_iff.mpr someBytes)
      have handled : (g.handleFrame (halRecv data frame) nowMs).1.Calm :=
        calm.same (handleFrame_transmission (pci ▸ notFc))
      exact
        inductionHypothesis handled
          (fun bytes later => requests bytes (List.mem_cons_of_mem _ later))
          (halRecv data frame)

end Isotp

/-- What a poll makes of the frames it receives, and what is then still to come. -/
theorem HostTransfer.polled
    {payload : List UInt8}
    {g : Isotp}
    {pending : List (List UInt8)}
    {expected : List IsotpEvent}
    {poll : BusPoll}
    {rest : List IsotpAction}
    {last : Option Nat}
    {clock : Nat}
    (transfer : HostTransfer payload g pending expected)
    (fits : payload.length ≤ isotpMaxPayload)
    (calm : g.Calm)
    (heard : HeardAt g last clock)
    (carried :
      List.Forall₂ Carries pending (poll.frames ++ arrivals rest))
    (timely : Timely last clock (poll.action :: rest)) :
    ∃ after sent pendingAfter remaining lastAfter,
      g.poll poll.nowMs.toUInt32 poll.stack poll.frames = (after, sent) ∧
        HostTransfer payload after pendingAfter remaining ∧
        expected = sent.map .sent ++ remaining ∧
        after.Calm ∧
        HeardAt after lastAfter poll.nowMs ∧
        List.Forall₂ Carries pendingAfter (arrivals rest) ∧
        Timely lastAfter poll.nowMs rest := by
  obtain ⟨forward, timely⟩ := timely
  have carriedNow :=
    List.forall₂_take_append pending poll.frames (arrivals rest) carried
  have carriedLater :=
    List.forall₂_drop_append pending poll.frames (arrivals rest) carried
  have halves :
      HostTransfer payload g
        (pending.take poll.frames.length ++ pending.drop poll.frames.length)
        expected := by
    rw [List.take_append_drop]
    exact transfer
  obtain ⟨after, sent, remaining, drained, moved, split, activity,
      unchanged⟩ :=
    halves.drain fits carriedNow poll.nowMs.toUInt32 poll.stack
  have calmAfter : after.Calm := by
    have drainedCalm :=
      calm.drain
        (fun bytes member =>
          transfer.carriesRequest (List.mem_of_mem_take member))
        carriedNow poll.nowMs.toUInt32 poll.stack
    rwa [drained] at drainedCalm
  have settled :
      after.expire poll.nowMs.toUInt32 = after ∧
        ∃ lastAfter,
          Timely lastAfter poll.nowMs rest ∧
            HeardAt after lastAfter poll.nowMs := by
    by_cases quiet : poll.frames = []
    · rw [if_pos quiet] at timely
      obtain rfl := unchanged quiet
      exact
        ⟨moved.quiet_poll carriedLater heard forward timely, last, timely,
          heard.later forward⟩
    · rw [if_neg quiet] at timely
      exact
        ⟨Isotp.expire_of_heard (activity quiet), some poll.nowMs, timely.2,
          fun inProgress =>
            ⟨poll.nowMs, rfl, Nat.le_refl _, activity quiet inProgress⟩⟩
  obtain ⟨inTime, lastAfter, timelyAfter, heardAfter⟩ := settled
  refine
    ⟨after, sent, _, remaining, lastAfter, ?_, moved, split, calmAfter,
      heardAfter, carriedLater, timelyAfter⟩
  simp only [Isotp.poll, drained, inTime]

/-- The frames that arrive in two parts of a run. -/
theorem arrivals_append
    (first second : List IsotpAction) :
    arrivals (first ++ second) = arrivals first ++ arrivals second := by
  induction first with
  | nil =>
      rfl
  | cons action rest inductionHypothesis =>
      cases action with
      | take bufCap =>
          exact inductionHypothesis
      | poll nowMs stack frames =>
          simp only [List.cons_append, arrivals, inductionHypothesis,
            List.append_assoc]

/-!
## Calls of the bootloader
-/

/-- A transfer of which frames are still to come has nothing to hand on. -/
theorem HostTransfer.notComplete_of_pending
    {payload : List UInt8}
    {g : Isotp}
    {pending : List (List UInt8)}
    {expected : List IsotpEvent}
    (transfer : HostTransfer payload g pending expected)
    (more : pending ≠ []) :
    g.rxComplete = false := by
  cases transfer with
  | before _ notComplete =>
      exact notComplete
  | during receiving _ =>
      exact receiving.notComplete
  | complete _ =>
      exact absurd rfl more
  | taken _ notComplete =>
      exact notComplete

section Calls

variable (imageValid : (Nat → UInt8) → Bool)

/-- A call that takes nothing moves frames on and checks S3. -/
theorem fblPollTick_nothing
    {diag : FblDiag}
    {poll : BusPoll}
    {isotp : Isotp}
    {sent : List CanRawFrame}
    (polled :
      diag.isotp.poll poll.nowMs.toUInt32 poll.stack poll.frames =
        (isotp, sent))
    (notComplete : isotp.rxComplete = false) :
    fblPollTick imageValid diag poll.tick =
      (⟨isotp, diag.uds.s3Check poll.nowMs.toUInt32⟩, sent) := by
  simp only [fblPollTick, BusPoll.tick, polled,
    Isotp.takeReceived_nothing notComplete, UdsServer.tick, List.append_nil]
  exact if_neg (List.not_mem_nil)

/-- A call that takes a request answers it in a single frame. -/
theorem fblPollTick_answers
    {diag : FblDiag}
    {poll : BusPoll}
    {isotp idle : Isotp}
    {sent : List CanRawFrame}
    {payload response : List UInt8}
    (polled :
      diag.isotp.poll poll.nowMs.toUInt32 poll.stack poll.frames =
        (isotp, sent))
    (taken : isotp.takeReceived isotpMaxPayload = (some payload, idle))
    (answered :
      (diag.uds.tick imageValid poll.nowMs.toUInt32 (some payload)).1 =
        some response)
    (short : response.length ≤ 62)
    (calm : idle.Calm) :
    fblPollTick imageValid diag poll.tick =
      (let answer :=
          diag.uds.tick imageValid poll.nowMs.toUInt32 (some payload)
        if .reset ∈ answer.2.2 then .start answer.2.1.flash
        else ⟨idle, answer.2.1⟩,
        sent ++ [idle.sfFrame response short]) := by
  have sends : idle.send response = (true, idle, [idle.sfFrame response short]) := by
    have room : ¬(isotpMaxPayload < response.length ∨ idle.txPending = true) := by
      rintro (long | pending)
      · exact absurd (Nat.lt_of_lt_of_le long short) (by decide)
      · rw [calm.notPending] at pending
        cases pending
    rw [Isotp.send, if_neg room, dif_pos short]
  simp only [fblPollTick, BusPoll.tick, polled, taken, answered, sends]
  split <;> rfl

/-- A call in which nothing happens. -/
theorem fblPollTick_quiet
    {diag : FblDiag}
    {poll : BusPoll}
    (ready : diag.isotp.Ready)
    (quiet : poll.frames = []) :
    fblPollTick imageValid diag poll.tick =
      (⟨diag.isotp, diag.uds.s3Check poll.nowMs.toUInt32⟩, []) := by
  have polled :
      diag.isotp.poll poll.nowMs.toUInt32 poll.stack poll.frames =
        (diag.isotp, []) := by
    rw [quiet, Isotp.poll, Isotp.drain]
    dsimp only
    rw [Isotp.expire, if_neg]
    rintro ⟨inProgress, -⟩
    rw [ready.idle] at inProgress
    cases inProgress
  exact fblPollTick_nothing imageValid polled ready.notComplete

/-- Calls in which nothing happens show nothing, and only check S3. -/
theorem quiet_run
    {diag : FblDiag}
    {polls : List BusPoll}
    {clock latest : Nat}
    {last : Option Nat}
    (ready : diag.isotp.Ready)
    (quiet : ∀ poll ∈ polls, poll.frames = [])
    (forward : clock ≤ latest)
    (timely : Timely last clock (polls.map BusPoll.action))
    (inside : ∀ poll ∈ polls, poll.nowMs ≤ latest) :
    ∃ after,
      Machine.Leads (fblPollTick imageValid) diag (polls.map BusPoll.tick)
          after [] ∧
        after.isotp.Ready ∧
          ∀ server since,
            UdsServer.Settles server since clock diag.uds →
              latest < since + 2 ^ 32 →
                server.Settles since latest after.uds := by
  induction polls generalizing diag clock with
  | nil =>
      exact
        ⟨diag, .nil _ _, ready, fun server since settles _ =>
          settles.later forward⟩
  | cons poll rest inductionHypothesis =>
      have noFrames := quiet poll (List.mem_cons_self ..)
      have within := inside poll (List.mem_cons_self ..)
      obtain ⟨onward, timely⟩ := timely
      rw [if_pos noFrames] at timely
      obtain ⟨after, leads, readyAfter, settled⟩ :=
        @inductionHypothesis
          ⟨diag.isotp, diag.uds.s3Check poll.nowMs.toUInt32⟩ poll.nowMs ready
          (fun later member => quiet later (List.mem_cons_of_mem _ member))
          within timely
          (fun later member => inside later (List.mem_cons_of_mem _ member))
      refine
        ⟨after, .cons (fblPollTick_quiet imageValid ready noFrames) leads,
          readyAfter, ?_⟩
      intro server since settles unwrapped
      exact
        settled server since
          (settles.idle onward (Nat.lt_of_le_of_lt within unwrapped))
          unwrapped

/-- Calls in which nothing happens, after a start. -/
theorem quiet_start
    {flash : CodeFlash}
    {polls : List BusPoll}
    (quiet : ∀ poll ∈ polls, poll.frames = []) :
    Machine.Leads (fblPollTick imageValid) (.start flash)
      (polls.map BusPoll.tick) (.start flash) [] := by
  induction polls with
  | nil =>
      exact .nil _ _
  | cons poll rest inductionHypothesis =>
      have stepped :=
        @fblPollTick_quiet imageValid (.start flash) poll Isotp.ready_isotpInit
          (quiet poll (List.mem_cons_self ..))
      exact
        .cons stepped
          (inductionHypothesis fun later member =>
            quiet later (List.mem_cons_of_mem _ member))

/-- The server a payload is on its way to, and the polls that will bring it. -/
structure Underway
    (payload : List UInt8)
    (server : UdsServer)
    (since : Nat)
    (diag : FblDiag)
    (expected : List IsotpEvent)
    (coming : List IsotpAction) : Prop where
  calm : diag.isotp.Calm
  reached :
    ∃ pending last clock,
      HostTransfer payload diag.isotp pending expected ∧
        HeardAt diag.isotp last clock ∧
        List.Forall₂ Carries pending (arrivals coming) ∧
        Timely last clock coming ∧
        server.Settles since clock diag.uds

namespace Underway

variable
  {imageValid : (Nat → UInt8) → Bool}
  {payload : List UInt8}
  {server : UdsServer}
  {since : Nat}
  {diag : FblDiag}
  {expected : List IsotpEvent}
  {coming : List IsotpAction}
  {poll : BusPoll}

/-- A call before the last frame has come sends flow control at most. -/
theorem step
    (underway :
      Underway payload server since diag expected (poll.action :: coming))
    (fits : payload.length ≤ isotpMaxPayload)
    (more : arrivals coming ≠ [])
    (unwrapped : poll.nowMs < since + 2 ^ 32) :
    ∃ after flow later,
      fblPollTick imageValid diag poll.tick = (after, flow) ∧
        expected = flow.map .sent ++ later ∧
        Underway payload server since after later coming := by
  obtain ⟨pending, last, clock, transfer, heard, carried, timely, settles⟩ :=
    underway.reached
  have forward : clock ≤ poll.nowMs :=
    timely.1
  obtain ⟨isotp, flow, pendingAfter, later, lastAfter, polled, moved, split,
      calm, heardAfter, carriedAfter, timelyAfter⟩ :=
    transfer.polled fits underway.calm heard carried timely
  have waiting : pendingAfter ≠ [] := by
    rintro rfl
    exact more (List.forall₂_nil_left_iff.mp carriedAfter)
  exact
    ⟨⟨isotp, diag.uds.s3Check poll.nowMs.toUInt32⟩, flow, later,
      fblPollTick_nothing imageValid polled
        (moved.notComplete_of_pending waiting),
      split,
      ⟨calm,
        ⟨pendingAfter, lastAfter, poll.nowMs, moved, heardAfter, carriedAfter,
          timelyAfter, settles.idle forward unwrapped⟩⟩⟩

/-- The calls before the last frame has come send flow control at most. -/
theorem run
    {polls : List BusPoll}
    (underway :
      Underway payload server since diag expected
        (polls.map BusPoll.action ++ coming))
    (fits : payload.length ≤ isotpMaxPayload)
    (more : arrivals coming ≠ [])
    (unwrapped : ∀ poll ∈ polls, poll.nowMs < since + 2 ^ 32) :
    ∃ after flow later,
      Machine.Leads (fblPollTick imageValid) diag (polls.map BusPoll.tick)
          after flow ∧
        expected = flow.map .sent ++ later ∧
        Underway payload server since after later coming := by
  induction polls generalizing diag expected with
  | nil =>
      exact ⟨diag, [], expected, .nil _ _, rfl, underway⟩
  | cons poll rest inductionHypothesis =>
      have moreLater : arrivals (rest.map BusPoll.action ++ coming) ≠ [] := by
        rw [arrivals_append]
        exact fun nothing => more (List.append_eq_nil_iff.mp nothing).2
      obtain ⟨middle, flow, later, stepped, split, underwayLater⟩ :=
        underway.step fits moreLater (unwrapped poll (List.mem_cons_self ..))
      obtain ⟨after, flowLater, remaining, leads, splitLater, reached⟩ :=
        inductionHypothesis underwayLater fun later member =>
          unwrapped later (List.mem_cons_of_mem _ member)
      refine
        ⟨after, flow ++ flowLater, remaining, .cons stepped leads, ?_, reached⟩
      rw [split, splitLater, List.map_append, List.append_assoc]

/-- The call that receives the last frame answers the request. -/
theorem answer
    {sid : UInt8}
    {req : List UInt8}
    (underway :
      Underway (sid :: req) server since diag expected (poll.action :: coming))
    (fits : (sid :: req).length ≤ isotpMaxPayload)
    (nothing : arrivals coming = [])
    (received : .received (sid :: req) ∈ expected)
    (unwrapped : poll.nowMs < since + 2 ^ 32) :
    ∃ response idle flow, ∃ short : response.length ≤ 62,
      let answer :=
        server.tick imageValid poll.nowMs.toUInt32 (some (sid :: req))
      answer.1 = some response ∧
        idle.Ready ∧
        fblPollTick imageValid diag poll.tick =
          (if .reset ∈ answer.2.2 then .start answer.2.1.flash
            else ⟨idle, answer.2.1⟩,
            flow ++ [idle.sfFrame response short]) ∧
        expected = flow.map .sent ++ [.received (sid :: req)] ∧
        ∃ last, Timely last poll.nowMs coming := by
  obtain ⟨pending, last, clock, transfer, heard, carried, timely, settles⟩ :=
    underway.reached
  have forward : clock ≤ poll.nowMs :=
    timely.1
  obtain ⟨isotp, flow, pendingAfter, later, lastAfter, polled, moved, split,
      calm, -, carriedAfter, timelyAfter⟩ :=
    transfer.polled fits underway.calm heard carried timely
  rw [nothing] at carriedAfter
  obtain rfl := List.forall₂_nil_right_iff.mp carriedAfter
  obtain ⟨handsOn, idle, notComplete⟩ := moved.finish fits
  have taken :
      isotp.takeReceived isotpMaxPayload =
        (some (sid :: req), (isotp.takeReceived isotpMaxPayload).2) := by
    rw [split, handsOn, List.mem_append] at received
    rcases received with wasSent | wasTaken
    · obtain ⟨frame, -, same⟩ := List.mem_map.mp wasSent
      cases same
    · obtain ⟨payload, isTaken, same⟩ := List.mem_map.mp wasTaken
      cases same
      exact Prod.ext (Option.mem_toList.mp isTaken) rfl
  rw [taken] at handsOn
  obtain ⟨response, answered, short⟩ :=
    server.tick_answers imageValid poll.nowMs.toUInt32 sid req
  have calmAfter : (isotp.takeReceived isotpMaxPayload).2.Calm :=
    calm.same (Isotp.takeReceived_transmission _ _)
  have sameTick := settles.tick forward unwrapped imageValid (some (sid :: req))
  have room : response.length ≤ 62 :=
    Nat.le_trans short (by decide)
  refine
    ⟨response, (isotp.takeReceived isotpMaxPayload).2, flow, room, answered,
      ⟨calmAfter, idle, notComplete⟩, ?_, ?_, lastAfter, timelyAfter⟩
  · rw [← sameTick]
    exact
      fblPollTick_answers imageValid polled taken
        ((congrArg Prod.fst sameTick).trans answered) room calmAfter
  · rw [split, handsOn]
    rfl

end Underway

end Calls

/-!
## One exchange
-/

/--
A passage brings these frames, from a time on: in order and padded, the last of
them in the call that is named so, none late.
-/
structure Passage.Brings
    (passage : Passage)
    (clock : Nat)
    (frames : List (List UInt8)) : Prop where
  carried :
    List.Forall₂ Carries frames (arrivals (passage.polls.map BusPoll.action))
  arrives : passage.last.frames ≠ []
  quiet : ∀ poll ∈ passage.after, poll.frames = []
  timely : Timely none clock (passage.polls.map BusPoll.action)

/--
What the bootloader sends is heard in order: first less than the timeout after
the frames were put on the bus, then each less than that after the one before.
-/
structure Passage.HeardWithin
    (passage : Passage)
    (timeoutMs : Nat) : Prop where
  first :
    passage.sentMs ≤ passage.heardMs 0 ∧
      passage.heardMs 0 < passage.sentMs + timeoutMs
  next :
    ∀ i,
      passage.heardMs i ≤ passage.heardMs (i + 1) ∧
        passage.heardMs (i + 1) < passage.heardMs i + timeoutMs

/--
Each passage brings what it should, between two times that are its own, with the
last frame at a third, and what it answers is heard within the timeout.
-/
structure Prompt
    (timeoutMs : Nat)
    (bus : Nat → List (List UInt8) → Passage)
    (begins arrives : Nat → Nat) : Prop where
  brings :
    ∀ exchange frames,
      frames ≠ [] → (∀ bytes ∈ frames, bytes.length ≤ canMaxDlen) →
        (bus exchange frames).Brings (begins exchange) frames
  arrives :
    ∀ exchange frames, (bus exchange frames).last.nowMs = arrives exchange
  within :
    ∀ exchange frames, ∀ poll ∈ (bus exchange frames).polls,
      begins exchange ≤ poll.nowMs ∧ poll.nowMs ≤ begins (exchange + 1)
  unwrapped : ∀ exchange, begins (exchange + 1) < begins exchange + 2 ^ 31
  heard :
    ∀ exchange frames, (bus exchange frames).HeardWithin timeoutMs

/-- The consecutive frames of the tool fit a CAN frame. -/
theorem hostSendRest_fits
    {fuel seq : Nat}
    {rest bytes : List UInt8}
    (sent : bytes ∈ hostSendRest fuel seq rest) :
    bytes.length ≤ canMaxDlen := by
  induction fuel generalizing seq rest with
  | zero =>
      cases sent
  | succ fuel inductionHypothesis =>
      rw [hostSendRest] at sent
      split at sent
      · cases sent
      · cases sent with
        | head =>
            rw [List.length_cons]
            exact Nat.succ_le_succ (List.length_take_le 63 rest)
        | tail _ later =>
            exact inductionHypothesis later

/-- The frames of the tool fit a CAN frame, and there is one. -/
theorem hostIsotpSend_fits (payload : List UInt8) :
    hostIsotpSend payload ≠ [] ∧
      ∀ bytes ∈ hostIsotpSend payload, bytes.length ≤ canMaxDlen := by
  rw [hostIsotpSend]
  split
  · next short =>
      refine ⟨List.cons_ne_nil _ _, fun bytes sent => ?_⟩
      obtain rfl := List.mem_singleton.mp sent
      exact Nat.add_le_add_right short 2
  · refine ⟨List.cons_ne_nil _ _, fun bytes sent => ?_⟩
    cases sent with
    | head =>
        exact
          Nat.add_le_add_right (List.length_take_le isotpFfInitialLen payload) 5
    | tail _ later =>
        exact hostSendRest_fits later

/-- The flow control that a request of this length is met with. -/
def flowControl (g : Isotp) (payload : List UInt8) : List CanRawFrame :=
  if payload.length ≤ 62 then
    []
  else
    [g.fcFrame isotpFcStatusCts isotpBlockSize isotpStminMs]

/-- The calls up to the one that receives the last frame of a request. -/
theorem Passage.answers
    (imageValid : (Nat → UInt8) → Bool)
    {passage : Passage}
    {diag : FblDiag}
    {server : UdsServer}
    {since clock latest : Nat}
    {sid : UInt8}
    {req : List UInt8}
    (brings : passage.Brings clock (hostIsotpSend (sid :: req)))
    (ready : diag.isotp.Ready)
    (settles : server.Settles since clock diag.uds)
    (fits : (sid :: req).length ≤ isotpMaxPayload)
    (inside : ∀ poll ∈ passage.polls, poll.nowMs ≤ latest)
    (unwrapped : latest < since + 2 ^ 32) :
    ∃ response idle, ∃ short : response.length ≤ 62,
      let answer :=
        server.tick imageValid passage.last.nowMs.toUInt32 (some (sid :: req))
      answer.1 = some response ∧
        idle.Ready ∧
        Machine.Leads (fblPollTick imageValid) diag
          ((passage.before ++ [passage.last]).map BusPoll.tick)
          (if .reset ∈ answer.2.2 then .start answer.2.1.flash
            else ⟨idle, answer.2.1⟩)
          (flowControl diag.isotp (sid :: req) ++
            [idle.sfFrame response short]) ∧
        ∃ last,
          Timely last passage.last.nowMs
            (passage.after.map BusPoll.action) := by
  have split :
      passage.polls.map BusPoll.action =
        passage.before.map BusPoll.action ++
          passage.last.action :: passage.after.map BusPoll.action := by
    rw [polls, List.map_append, List.map_cons]
  have started :
      Underway (sid :: req) server since diag
        ((flowControl diag.isotp (sid :: req)).map .sent ++
          [.received (sid :: req)])
        (passage.before.map BusPoll.action ++
          passage.last.action :: passage.after.map BusPoll.action) := by
    refine ⟨ready.toCalm, hostIsotpSend (sid :: req), none, clock, ?_, ?_, ?_⟩
    · have transfer := @HostTransfer.before (sid :: req) _ ready.idle ready.notComplete
      unfold flowControl
      split at transfer <;> split <;> first | exact transfer | contradiction
    · intro inProgress
      rw [ready.idle] at inProgress
      cases inProgress
    · rw [← split]
      exact ⟨brings.carried, brings.timely, settles⟩
  have noMore : arrivals (passage.after.map BusPoll.action) = [] := by
    have quiet := brings.quiet
    generalize passage.after = polls at quiet
    induction polls with
    | nil =>
        rfl
    | cons poll rest inductionHypothesis =>
        show poll.frames ++ _ = []
        rw [quiet poll (List.mem_cons_self ..),
          inductionHypothesis fun later member =>
            quiet later (List.mem_cons_of_mem _ member)]
        rfl
  have early : ∀ poll ∈ passage.polls, poll.nowMs < since + 2 ^ 32 :=
    fun poll member => Nat.lt_of_le_of_lt (inside poll member) unwrapped
  have more :
      arrivals (passage.last.action :: passage.after.map BusPoll.action) ≠ [] :=
    fun nothing => brings.arrives (List.append_eq_nil_iff.mp nothing).1
  obtain ⟨middle, flow, later, leads, splitFlow, reached⟩ :=
    started.run fits more fun poll member =>
      early poll (List.mem_append_left _ member)
  have received : .received (sid :: req) ∈ later := by
    have member : .received (sid :: req) ∈ flow.map .sent ++ later := by
      rw [← splitFlow]
      exact List.mem_append_right _ (List.mem_singleton_self _)
    rcases List.mem_append.mp member with wasSent | wasLater
    · obtain ⟨frame, -, same⟩ := List.mem_map.mp wasSent
      cases same
    · exact wasLater
  obtain ⟨response, idle, flowLast, short, answered, idleReady, stepped,
      splitLast, timely⟩ :=
    reached.answer fits noMore received
      (early passage.last
        (List.mem_append_right _ (List.mem_cons_self ..)))
  have flows : flowControl diag.isotp (sid :: req) = flow ++ flowLast := by
    rw [splitLast, ← List.append_assoc, ← List.map_append] at splitFlow
    exact
      List.map_injective_iff.mpr (fun _ _ => IsotpEvent.sent.inj)
        (List.append_cancel_right splitFlow)
  refine ⟨response, idle, short, answered, idleReady, ?_, timely⟩
  rw [List.map_append, flows, List.append_assoc]
  have stepLeads := Machine.Leads.cons stepped (.nil _ _)
  rw [List.append_nil] at stepLeads
  exact leads.append stepLeads

/-!
## What the tool reads
-/

/-- The next frame of the bootloader is read, when it is heard in time. -/
theorem recvFrame_cons
    {wire : Wire}
    {deadline heardMs : Nat}
    {frame : CanRawFrame}
    {rest : List (Nat × CanRawFrame)}
    (heard : wire.inbox = (heardMs, frame) :: rest)
    (own : frame.id = fblDiagResponseId)
    (inTime : max wire.nowMs heardMs < deadline) :
    recvFrame deadline wire =
      some
        (frame.data,
          { wire with nowMs := max wire.nowMs heardMs, inbox := rest }) := by
  have kept :
      wire.inbox.dropWhile (fun heard => heard.2.id ≠ fblDiagResponseId) =
        (heardMs, frame) :: rest := by
    rw [heard, List.dropWhile_cons_of_neg (by simp [own])]
  simp only [recvFrame, kept, if_pos inTime]

section Reading

variable
  {imageValid : (Nat → UInt8) → Bool}
  {payload response : List UInt8}
  {wire : Wire}

/-- A response in a single frame is read whole. -/
theorem isotpRecv_single
    {idle : Isotp}
    {short : response.length ≤ 62}
    {heardMs : Nat}
    (calm : idle.Calm)
    (heard : wire.inbox = [(heardMs, halSend (idle.sfFrame response short))])
    (inTime : max wire.nowMs heardMs < wire.nowMs + wire.timeoutMs) :
    isotpRecv imageValid wire =
      some
        (response,
          { wire with nowMs := max wire.nowMs heardMs, inbox := [] }) := by
  have size : response.length.toUInt8.toNat = response.length := by
    simp only [Nat.toUInt8_eq, UInt8.toNat_ofNat']
    omega
  have read := recvFrame_cons heard calm.responds inTime
  have data :
      (halSend (idle.sfFrame response short)).data =
        isotpPciTypeSf :: response.length.toUInt8 ::
          (response ++ List.replicate _ 0) :=
    rfl
  rw [data] at read
  generalize List.replicate _ (0 : UInt8) = padding at read
  have pci :
      (isotpPciTypeSf :: response.length.toUInt8 ::
        (response ++ padding)).getD 0 0 &&& 0xF0 = isotpPciTypeSf := by
    show isotpPciTypeSf &&& 0xF0 = isotpPciTypeSf
    decide
  rw [isotpRecv, followed (show recvDeadline wire = some (_, wire) from rfl),
    followed read]
  dsimp only
  rw [if_neg nofun, if_pos pci, if_neg (by simp)]
  show some ((response ++ padding).take response.length.toUInt8.toNat, _) = _
  rw [size, List.take_left']
  rfl

/--
A request is sent when the flow control it needs, if any, was heard in time.  The
response is then heard in time too.
-/
theorem isotpSend_heard
    {middle : Wire}
    {passage : Passage}
    {g : Isotp}
    {frame : CanRawFrame}
    (calm : g.Calm)
    (exchanged :
      exchangeFrames imageValid (hostIsotpSend payload) wire =
        some ((), middle))
    (sent : passage.sentMs ≤ middle.nowMs)
    (within : passage.HeardWithin middle.timeoutMs)
    (heard :
      middle.inbox =
        (flowControl g payload ++ [frame]).mapIdx fun i frame =>
          (passage.heardMs i, halSend frame)) :
    ∃ nowMs heardMs,
      isotpSend imageValid payload wire =
          some
            ((),
              { middle with
                nowMs := nowMs
                inbox := [(heardMs, halSend frame)] }) ∧
        max nowMs heardMs < nowMs + middle.timeoutMs := by
  obtain ⟨forward, soon⟩ := within.first
  rw [isotpSend, followed exchanged]
  by_cases short : payload.length ≤ 62
  · rw [flowControl, if_pos short] at heard
    refine ⟨middle.nowMs, passage.heardMs 0, ?_, by omega⟩
    rw [if_pos short]
    exact congrArg (fun inbox => some ((), { middle with inbox := inbox })) heard
  · rw [flowControl, if_neg short] at heard
    obtain ⟨onward, soonAfter⟩ :
        passage.heardMs 0 ≤ passage.heardMs 1 ∧
          passage.heardMs 1 < passage.heardMs 0 + middle.timeoutMs :=
      within.next 0
    have inTime :
        max middle.nowMs (passage.heardMs 0) <
          middle.nowMs + middle.timeoutMs := by
      omega
    have read := recvFrame_cons heard calm.responds inTime
    refine
      ⟨max middle.nowMs (passage.heardMs 0), passage.heardMs 1, ?_, by omega⟩
    have cts :
        ¬((halSend (g.fcFrame isotpFcStatusCts isotpBlockSize
                isotpStminMs)).data.getD 0 0 &&& 0xF0 ≠ isotpPciTypeFc ∨
            (halSend (g.fcFrame isotpFcStatusCts isotpBlockSize
                isotpStminMs)).data.getD 0 0 &&& 0x0F ≠ isotpFcStatusCts) := by
      show ¬((0x30 : UInt8) &&& 0xF0 ≠ isotpPciTypeFc ∨
        (0x30 : UInt8) &&& 0x0F ≠ isotpFcStatusCts)
      decide
    rw [if_neg short,
      followed (show recvDeadline middle = some (_, middle) from rfl),
      followed read, if_neg cts]
    rfl

/-- The tool reads the response and raises what is not positive. -/
theorem canRequest_heard
    {middle last : Wire}
    (sent : isotpSend imageValid payload wire = some ((), middle))
    (received : isotpRecv imageValid middle = some (response, last)) :
    canRequest imageValid payload wire =
      if response ≠ [] ∧ response.getD 0 0 = udsSidNegativeResponse then
        none
      else if response ≠ [] ∧ response.getD 0 0 ≠ payload.getD 0 0 then
        none
      else
        some (response, last) := by
  rw [canRequest, followed sent, followed received]
  split_ifs <;> rfl

end Reading

/-!
## One request
-/

/--
The tool on the bus is where the tool without one is: between two requests, with
the same server but for S3 checks, and with the times at which the last frame of
each exchange will arrive.
-/
structure Matching (link : HostLink) (wire : Wire) : Prop where
  ready : wire.diag.isotp.Ready
  read : wire.inbox = []
  bus :
    ∃ begins arrives since,
      Prompt wire.timeoutMs wire.bus begins arrives ∧
        link.times = (fun request => (arrives request).toUInt32) ∧
        begins 0 < since + 2 ^ 31 ∧
        link.server.Settles since (begins 0) wire.diag.uds

/-- What is left of a prompt bus after an exchange. -/
theorem Prompt.later
    {timeoutMs : Nat}
    {bus : Nat → List (List UInt8) → Passage}
    {begins arrives : Nat → Nat}
    (prompt : Prompt timeoutMs bus begins arrives) :
    Prompt timeoutMs (fun exchange => bus (exchange + 1))
      (fun exchange => begins (exchange + 1))
      (fun exchange => arrives (exchange + 1)) :=
  ⟨fun exchange => prompt.brings (exchange + 1),
    fun exchange => prompt.arrives (exchange + 1),
    fun exchange => prompt.within (exchange + 1),
    fun exchange => prompt.unwrapped (exchange + 1),
    fun exchange => prompt.heard (exchange + 1)⟩

section Request

variable
  (imageValid : (Nat → UInt8) → Bool)
  {link : HostLink}
  {wire : Wire}
  {sid : UInt8}
  {req : List UInt8}

/-- What a request on the bus leads to, and what the tool will then read. -/
theorem Matching.exchange
    (matching : Matching link wire)
    (fits : (sid :: req).length ≤ isotpMaxPayload) :
    ∃ (response : List UInt8) (idle : Isotp) (after : FblDiag)
        (nowMs heardMs : Nat) (short : response.length ≤ 62),
      let answer := link.server.tick imageValid (link.times 0) (some (sid :: req))
      let reached : Wire :=
        { wire with
          diag := after
          bus := fun exchange => wire.bus (exchange + 1)
          nowMs := nowMs
          inbox := [(heardMs, halSend (idle.sfFrame response short))] }
      answer.1 = some response ∧
        idle.Calm ∧
        max nowMs heardMs < nowMs + wire.timeoutMs ∧
        isotpSend imageValid (sid :: req) wire = some ((), reached) ∧
        (.reset ∈ answer.2.2 → after = .start answer.2.1.flash) ∧
        (.reset ∉ answer.2.2 →
          (∀ now : Nat, link.times 0 = now.toUInt32 →
            answer.2.1.Dated now) →
            Matching
              { server := answer.2.1
                times := fun request => link.times (request + 1)
                exchanges := link.exchanges ++ [⟨sid :: req, response⟩] }
              { reached with nowMs := max nowMs heardMs, inbox := [] }) := by
  obtain ⟨begins, arrives, since, prompt, times, recent, settles⟩ :=
    matching.bus
  obtain ⟨someFrames, fit⟩ := hostIsotpSend_fits (sid :: req)
  have brings := prompt.brings 0 _ someFrames fit
  have heardWithin := prompt.heard 0 (hostIsotpSend (sid :: req))
  generalize passed : wire.bus 0 (hostIsotpSend (sid :: req)) = passage
    at brings heardWithin
  have within : ∀ poll ∈ passage.polls,
      begins 0 ≤ poll.nowMs ∧ poll.nowMs ≤ begins 1 := by
    rw [← passed]
    exact prompt.within 0 _
  have now : passage.last.nowMs = arrives 0 := by
    rw [← passed]
    exact prompt.arrives 0 _
  have soon : begins 1 < begins 0 + 2 ^ 31 :=
    prompt.unwrapped 0
  have isLast : passage.last ∈ passage.polls :=
    List.mem_append_right _ (List.mem_cons_self ..)
  obtain ⟨response, idle, short, answered, idleReady, leads, last, timely⟩ :=
    passage.answers imageValid brings matching.ready settles fits
      (fun poll member => (within poll member).2) (by omega)
  have handledAt : link.times 0 = passage.last.nowMs.toUInt32 := by
    rw [times, now]
  rw [handledAt]
  generalize reply :
    link.server.tick imageValid passage.last.nowMs.toUInt32
      (some (sid :: req)) = answer at answered leads
  have exchanged {after : FblDiag}
      (quiet :
        Machine.Leads (fblPollTick imageValid)
          (if .reset ∈ answer.2.2 then .start answer.2.1.flash
            else ⟨idle, answer.2.1⟩)
          (passage.after.map BusPoll.tick) after []) :
      ∃ nowMs heardMs,
        isotpSend imageValid (sid :: req) wire =
            some
              ((),
                { wire with
                  diag := after
                  bus := fun exchange => wire.bus (exchange + 1)
                  nowMs := nowMs
                  inbox := [(heardMs, halSend (idle.sfFrame response short))] }) ∧
          max nowMs heardMs < nowMs + wire.timeoutMs := by
    have whole :
        Machine.Leads (fblPollTick imageValid) wire.diag
          (passage.polls.map BusPoll.tick) after
          (flowControl wire.diag.isotp (sid :: req) ++
            [idle.sfFrame response short]) := by
      have joined := leads.append quiet
      rw [← List.map_append, List.append_nil] at joined
      rw [Passage.polls, ← List.singleton_append, ← List.append_assoc]
      exact joined
    have ran :
        exchangeFrames imageValid (hostIsotpSend (sid :: req)) wire =
          some
            ((),
              { wire with
                diag := after
                bus := fun exchange => wire.bus (exchange + 1)
                nowMs := max wire.nowMs passage.sentMs
                inbox :=
                  (flowControl wire.diag.isotp (sid :: req) ++
                      [idle.sfFrame response short]).mapIdx fun i frame =>
                    (passage.heardMs i, halSend frame) }) := by
      rw [exchangeFrames, passed, whole.1, whole.2, matching.read,
        List.nil_append]
    exact
      isotpSend_heard matching.ready.toCalm ran (Nat.le_max_right _ _)
        heardWithin rfl
  by_cases reset : .reset ∈ answer.2.2
  · rw [if_pos reset] at exchanged
    obtain ⟨nowMs, heardMs, sent, inTime⟩ :=
      exchanged (quiet_start imageValid brings.quiet)
    exact
      ⟨response, idle, _, nowMs, heardMs, short, answered, idleReady.toCalm,
        inTime, sent, fun _ => rfl, fun no => absurd reset no⟩
  · rw [if_neg reset] at exchanged
    obtain ⟨after, quiet, readyAfter, settled⟩ :=
      @quiet_run imageValid ⟨idle, answer.2.1⟩ passage.after _ _ _ idleReady
        brings.quiet (within _ isLast).2 timely
        (fun poll member =>
          (within poll
            (List.mem_append_right _ (List.mem_cons_of_mem _ member))).2)
    obtain ⟨nowMs, heardMs, sent, inTime⟩ := exchanged quiet
    refine
      ⟨response, idle, after, nowMs, heardMs, short, answered,
        idleReady.toCalm, inTime, sent, fun yes => absurd yes reset,
        fun _ dated => ?_⟩
    have started : begins 0 ≤ passage.last.nowMs :=
      (within _ isLast).1
    have recentAfter : begins 1 < passage.last.nowMs + 2 ^ 31 := by
      omega
    refine
      ⟨readyAfter, rfl, _, _, passage.last.nowMs, prompt.later, ?_, recentAfter,
        settled _ _ (.refl (dated _ rfl)) (by omega)⟩
    rw [times]

/-- The tool without a bus reads the same response. -/
theorem hostRequest_answered
    {payload response : List UInt8}
    (answered :
      (link.server.tick imageValid (link.times 0) (some payload)).1 =
        some response) :
    hostRequest imageValid payload link =
      if response ≠ [] ∧ response.getD 0 0 = udsSidNegativeResponse then
        none
      else if response ≠ [] ∧ response.getD 0 0 ≠ payload.getD 0 0 then
        none
      else
        some
          (response,
            { server :=
                (link.server.tick imageValid (link.times 0) (some payload)).2.1
              times := fun request => link.times (request + 1)
              exchanges := link.exchanges ++ [⟨payload, response⟩] }) := by
  rw [hostRequest]
  revert answered
  generalize link.server.tick imageValid (link.times 0) (some payload) = answer
  obtain ⟨reply, server, effects⟩ := answer
  rintro rfl
  rfl

/-- A positive response is dated as its request. -/
theorem dated_of_positive
    {response : List UInt8}
    {now : Nat}
    (answered :
      (link.server.tick imageValid now.toUInt32 (some (sid :: req))).1 =
        some response)
    (positive :
      ¬(response ≠ [] ∧ response.getD 0 0 = udsSidNegativeResponse)) :
    (link.server.tick imageValid now.toUInt32 (some (sid :: req))).2.1.Dated
      now := by
  cases handled :
      ((link.server.s3Check now.toUInt32).handle imageValid sid req).result with
  | error nrc =>
      rw [UdsServer.tick_refused imageValid _ handled] at answered
      obtain rfl := Option.some.inj answered
      exact absurd ⟨nofun, rfl⟩ positive
  | ok body =>
      exact link.server.tick_dated imageValid handled

/-- A request that is no ECUReset does the same with and without the bus. -/
theorem request_agrees
    (matching : Matching link wire)
    (fits : (sid :: req).length ≤ isotpMaxPayload)
    (other : sid ≠ udsSidEcuReset) :
    Agree Matching (hostRequest imageValid (sid :: req) link)
      (canRequest imageValid (sid :: req) wire) := by
  obtain ⟨response, idle, after, nowMs, heardMs, short, answered, calm, inTime,
      sent, -, continues⟩ :=
    matching.exchange imageValid fits
  have noReset := link.server.tick_noReset imageValid other (link.times 0) req
  rw [hostRequest_answered imageValid answered,
    canRequest_heard sent (isotpRecv_single calm rfl inTime)]
  by_cases negative : response ≠ [] ∧ response.getD 0 0 = udsSidNegativeResponse
  · rw [if_pos negative, if_pos negative]
    exact .none
  · rw [if_neg negative, if_neg negative]
    split
    · exact .none
    · refine .some ⟨rfl, continues noReset fun now handledAt => ?_⟩
      rw [handledAt] at answered ⊢
      exact dated_of_positive imageValid answered negative

/-- After an ECUReset the bootloader on the bus has started over its flash. -/
theorem reset_agrees
    (matching : Matching link wire) :
    Agree (fun ended started => started.diag = .start ended.server.flash)
      (hostNotify imageValid [udsSidEcuReset, 0x01] link)
      (canNotify imageValid [udsSidEcuReset, 0x01] wire) := by
  obtain ⟨_, _, after, _, _, _, -, -, -, sent, starts, -⟩ :=
    @Matching.exchange imageValid _ _ udsSidEcuReset [0x01] matching
      (by decide)
  have resets :
      .reset ∈
        (link.server.tick imageValid (link.times 0)
          (some [udsSidEcuReset, 0x01])).2.2 := by
    rw [link.server.tick_accepted imageValid rfl]
    exact List.mem_singleton_self _
  rw [canNotify, sent, starts resets]
  exact .some ⟨rfl, rfl⟩

end Request

/-!
## The whole run
-/

section Run

variable
  (imageValid : (Nat → UInt8) → Bool)
  {link : HostLink}
  {wire : Wire}

/-- A request of one client, for the other. -/
theorem client_agrees
    {payload : List UInt8}
    {sid : UInt8}
    (matching : Matching link wire)
    (service : payload.head? = some sid)
    (other : sid ≠ udsSidEcuReset)
    (fits : payload.length ≤ isotpMaxPayload) :
    Agree Matching ((hostClient imageValid).request payload link)
      ((canClient imageValid).request payload wire) := by
  obtain ⟨req, rfl⟩ := List.head?_eq_some_iff.mp service
  exact request_agrees imageValid matching fits other

/-- The blocks of a transfer, when a block and its header fit a payload. -/
theorem transfer_agrees
    {block fuel seq : Nat}
    {rest : List UInt8}
    (matching : Matching link wire)
    (fits : block + 2 ≤ isotpMaxPayload) :
    Agree Matching
      ((hostClient imageValid).transfer block fuel seq rest link)
      ((canClient imageValid).transfer block fuel seq rest wire) := by
  induction fuel generalizing seq rest link wire with
  | zero =>
      exact .done () matching
  | succ fuel inductionHypothesis =>
      rw [UdsClient.transfer, UdsClient.transfer]
      split
      · exact .done () matching
      · have size :
            (udsSidTransferData :: seq.toUInt8 :: rest.take block).length ≤
              isotpMaxPayload :=
          Nat.le_trans (Nat.add_le_add_right (List.length_take_le _ _) 2) fits
        refine
          Agree.bind (client_agrees imageValid matching rfl (by decide) size) ?_
        intro _ _ _ _ reached
        exact inductionHypothesis reached

/-- The download, request by request. -/
theorem download_agrees
    (image : List UInt8)
    (appBase largeSector : Nat)
    (matching : Matching link wire) :
    Agree Matching
      ((hostClient imageValid).download image appBase largeSector link)
      ((canClient imageValid).download image appBase largeSector wire) := by
  have short {payload : List UInt8} (small : payload.length ≤ 12) :
      payload.length ≤ isotpMaxPayload :=
    Nat.le_trans small (by decide)
  have four (value : Nat) : (toBytesBig4 value).length = 4 :=
    rfl
  rw [UdsClient.download, UdsClient.download]
  refine
    Agree.bind
      (client_agrees imageValid matching rfl (by decide) (short (by decide))) ?_
  intro _ _ _ _ inSession
  refine
    Agree.bind
      (client_agrees imageValid inSession rfl (by decide) (short (by decide))) ?_
  intro seedResp _ _ _ seeded
  refine
    Agree.bind
      (client_agrees imageValid seeded rfl (by decide) (short (by simp [four])))
      ?_
  intro _ _ _ _ unlocked
  refine
    Agree.bind
      (client_agrees imageValid unlocked rfl (by decide)
        (short (by simp [four]))) ?_
  intro _ _ _ _ erased
  refine
    Agree.bind
      (client_agrees imageValid erased rfl (by decide) (short (by simp [four])))
      ?_
  intro rd _ _ started downloading
  have block : hostBlock rd = 2048 := by
    obtain ⟨rfl, -, -⟩ := download_finished started
    decide
  refine Agree.bind (transfer_agrees imageValid downloading ?_) ?_
  · rw [block]
    decide
  intro _ _ _ _ transferred
  refine
    Agree.bind
      (client_agrees imageValid transferred rfl (by decide)
        (short (by decide))) ?_
  intro _ _ _ _ exited
  exact .done () exited

/--
The client on a prompt bus refines the one whose requests reach the server
whole.  For every image, both runs of `flash` raise an exception, or neither
does, and then the bootloader on the bus has started again over the very flash
that the other run leaves.
-/
theorem flash_agrees
    (image : List UInt8)
    (appBase largeSector : Nat)
    (matching : Matching link wire) :
    Agree (fun ended started => started.diag = .start ended.server.flash)
      (hostFlash imageValid image appBase largeSector link)
      ((canClient imageValid).flash image appBase largeSector wire) := by
  rw [← hostClient_flash, UdsClient.flash, UdsClient.flash]
  refine
    Agree.bind (download_agrees imageValid image appBase largeSector matching)
      ?_
  intro _ _ _ _ downloaded
  refine
    Agree.bind (client_agrees imageValid downloaded rfl (by decide) (by decide))
      ?_
  intro chk _ _ _ checked
  generalize (if 5 ≤ chk.length then chk.getD 4 0 else 0xFF) = status
  by_cases bad : status ≠ 0x00
  · rw [if_pos bad, if_pos bad]
    exact .failed
  · rw [if_neg bad, if_neg bad]
    exact reset_agrees imageValid checked

end Run

/-!
## A bus
-/

/-- A bus on which a call every ten milliseconds receives what was sent. -/
def directBus (exchange : Nat) (frames : List (List UInt8)) : Passage where
  before := []
  last :=
    { nowMs := exchange * 10
      stack := []
      frames :=
        frames.map fun bytes =>
          if fits : bytes.length ≤ canMaxDlen then
            frameOf fblDiagRequestId bytes fits
          else
            frameOf fblDiagRequestId [] (Nat.zero_le _) }
  after := [⟨exchange * 10 + 5, [], []⟩]
  sentMs := exchange * 10
  heardMs := fun i => exchange * 10 + i

/-- It is a prompt one. -/
theorem directBus_prompt :
    Prompt 3000 directBus (fun exchange => exchange * 10)
      (fun exchange => exchange * 10) := by
  refine ⟨?_, fun _ _ => rfl, ?_, ?_, ?_⟩
  · intro exchange frames someFrames fits
    have arrives : (directBus exchange frames).last.frames ≠ [] :=
      fun nothing => someFrames (List.map_eq_nil_iff.mp nothing)
    refine ⟨?_, arrives, ?_, Nat.le_refl _, ?_⟩
    · simp only [Passage.polls, directBus, List.nil_append, List.map_cons,
        List.map_nil, BusPoll.action, arrivals, List.append_nil]
      rw [List.forall₂_map_right_iff, List.forall₂_same]
      intro bytes member
      rw [dif_pos (fits bytes member)]
      exact List.prefix_refl _
    · intro poll member
      obtain rfl := List.mem_singleton.mp member
      rfl
    · rw [if_neg arrives]
      refine ⟨?_, Nat.le_add_right _ _, trivial⟩
      rintro _ ⟨⟩
  · intro exchange frames poll member
    simp only [Passage.polls, directBus, List.nil_append, List.mem_cons,
      List.not_mem_nil, or_false] at member
    rcases member with rfl | rfl <;> dsimp only <;> omega
  · intro exchange
    omega
  · intro exchange frames
    refine ⟨⟨Nat.le_refl _, ?_⟩, fun i => ⟨Nat.le_succ _, ?_⟩⟩
    · exact Nat.add_lt_add_left (Nat.le_of_ble_eq_true rfl : 0 < 3000) _
    · exact Nat.add_lt_add_left (Nat.le_of_ble_eq_true rfl : 1 < 3000) _

/-- The bootloader, started over a flash, with the tool on that bus. -/
def directWire (flash : CodeFlash) : Wire :=
  ⟨.start flash, directBus, 0, 3000, []⟩

/-- The tool without a bus, over the same flash at the same times. -/
def directLink (flash : CodeFlash) : HostLink :=
  ⟨.start flash, fun request => (request * 10).toUInt32, []⟩

theorem directLink_matching (flash : CodeFlash) :
    Matching (directLink flash) (directWire flash) :=
  ⟨Isotp.ready_isotpInit, rfl, _, _, 0, directBus_prompt, rfl, by decide,
    .refl (.inl rfl)⟩

/-- An image of one row, flashed over the direct bus. -/
theorem one_row_agrees :
    Agree (fun ended started => started.diag = .start ended.server.flash)
      (hostFlash (fun _ => true) (List.replicate 512 7) fblAppFlashBase
        flashLargeSectorSize (directLink blankFlash))
      ((canClient fun _ => true).flash (List.replicate 512 7) fblAppFlashBase
        flashLargeSectorSize (directWire blankFlash)) :=
  flash_agrees _ _ _ _ (directLink_matching blankFlash)

end TraveoBodyDomain
