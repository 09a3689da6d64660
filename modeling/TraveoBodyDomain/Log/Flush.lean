import TraveoBodyDomain.Log.Fifo

/-!
# Flushing before a hand-off

`log_flush` of `log.c`: the one wait of the logger, bounded by the clock and by
a number of rounds without progress.

Progress is told from the result of `log_drain`, and that is "blocked" as well
when the sink has taken some bytes and then no more.  So a sink that takes some
of the ring and not all of it, within the rounds of one stall, is given up on
as if it had taken nothing.  That is the only way to give up early.
-/

namespace TraveoBodyDomain

/-- `LOG_FLUSH_MAX_STALL`. -/
def logFlushMaxStall : Nat :=
  1000

/--
The port while a flush runs.  The clock is read at the start and after every
round; in a round the sink answers the drain, and says whether it is idle.
-/
structure FlushPort where
  nowMs : Nat → UInt32
  answers : Nat → List SinkAnswer
  sinkIdle : Nat → Bool

/-- A round: the bytes the sink took, and whether the ring was newly empty. -/
structure FlushRound where
  sent : List UInt8
  newlyEmpty : Bool
  deriving Repr, DecidableEq

/-- What `log_flush` returns, the rounds it took, and what it leaves. -/
structure Flushed where
  ok : Bool
  rounds : List FlushRound
  log : LogState

section Flush

variable (image : LogImage) (timeoutMs : UInt32) (port : FlushPort)

/--
Phase 1 of a round: whether the ring has been found empty by now, whether that
was progress, and what was sent.
-/
def logFlushDrain (answers : List SinkAnswer) (drained : Bool) (s : LogState) :
    Bool × Bool × List UInt8 × LogState :=
  if drained then
    (true, false, [], s)
  else
    match logDrain image 0 answers s with
    | (.idle, bytes, s) => (true, true, bytes, s)
    | (.sent, bytes, s) => (false, true, bytes, s)
    | (.blocked, bytes, s) => (false, false, bytes, s)

/-- The loop of `log_flush`; `none` when it needs more turns. -/
def logFlushLoop : Nat → Nat → Bool → Nat → LogState → Option Flushed
  | 0, _, _, _, _ => none
  | turns + 1, round, drained, stalled, s =>
      let (drainedNow, progress, bytes, s) :=
        logFlushDrain image (port.answers round) drained s
      let seen : FlushRound := ⟨bytes, drainedNow && !drained⟩
      if drainedNow && port.sinkIdle round then
        some ⟨true, [seen], s⟩
      else
        let stalled := if progress then 0 else stalled + 1
        if logFlushMaxStall ≤ stalled then
          some ⟨false, [seen], s⟩
        else if timeoutMs ≤ port.nowMs (round + 1) - port.nowMs 0 then
          some ⟨false, [seen], s⟩
        else
          (logFlushLoop turns (round + 1) drainedNow stalled s).map
            fun later => { later with rounds := seen :: later.rounds }

/-- `log_flush`. -/
def logFlush (turns : Nat) (s : LogState) : Option Flushed :=
  logFlushLoop image timeoutMs port turns 0 false 0 s

end Flush

/-!
## The contract
-/

/-- The timeout has elapsed when so many rounds are over. -/
def FlushPort.Elapsed
    (port : FlushPort)
    (timeoutMs : UInt32)
    (rounds : Nat) : Prop :=
  timeoutMs ≤ port.nowMs rounds - port.nowMs 0

instance FlushPort.Elapsed.decidable
    (port : FlushPort)
    (timeoutMs : UInt32)
    (rounds : Nat) : Decidable (port.Elapsed timeoutMs rounds) :=
  inferInstanceAs (Decidable (_ ≤ _))

/-- The sink took nothing, and the ring was not newly empty. -/
def FlushRound.Still (round : FlushRound) : Prop :=
  round.sent = [] ∧ round.newlyEmpty = false

/-- So many rounds in a row were still that the sink may be given up on. -/
def Stalled (rounds : List FlushRound) : Prop :=
  ∃ still,
    still <:+: rounds ∧ still.length = logFlushMaxStall ∧
      ∀ round ∈ still, round.Still

/-- What the result of a flush says, its rounds counted from `round` on. -/
structure FlushedRightly
    (timeoutMs : UInt32)
    (port : FlushPort)
    (round : Nat)
    (flushed : Flushed) : Prop where
  emptied :
    flushed.ok = true →
      flushed.log.used = 0 ∧
        port.sinkIdle (round + flushed.rounds.length - 1) = true
  gaveUp :
    flushed.ok = false →
      port.Elapsed timeoutMs (round + flushed.rounds.length) ∨
        Stalled flushed.rounds

/-- The flush returns, and rightly. -/
def FlushContract
    (image : LogImage)
    (timeoutMs : UInt32)
    (port : FlushPort)
    (s : LogState) : Prop :=
  ∃ flushed,
    (∃ enough, ∀ turns, enough ≤ turns →
        logFlush image timeoutMs port turns s = some flushed) ∧
      FlushedRightly timeoutMs port 0 flushed

/-- The ring after `log_drain` in `n` rounds, from a round on. -/
def logDrainRounds (image : LogImage) (answers : Nat → List SinkAnswer) :
    Nat → Nat → LogState → LogState
  | _, 0, s => s
  | round, n + 1, s =>
      logDrainRounds image answers (round + 1) n
        (logDrain image 0 (answers round) s).2.2

/--
Within the rounds of one stall the timeout elapses, or the sink takes nothing
of the ring, or it takes all.
-/
def AllOrNothing
    (image : LogImage)
    (timeoutMs : UInt32)
    (port : FlushPort)
    (s : LogState) : Prop :=
  (∃ rounds, 0 < rounds ∧ rounds ≤ logFlushMaxStall ∧
      port.Elapsed timeoutMs rounds) ∨
    let left := (logDrainRounds image port.answers 0 logFlushMaxStall s).used
    left = s.used ∨ left = 0

/-!
## One round
-/

section Round

variable {image : LogImage} {s : LogState}

/-- An unbounded drain: what it takes, and what its result says of the ring. -/
structure DrainTells
    (sentAny : Bool)
    (s : LogState)
    (result : LogDrain × List UInt8 × LogState) : Prop where
  taken : result.2.2.used + result.2.1.length = s.used
  idle : result.1 = .idle → sentAny = false ∧ s.used = 0
  sent : result.1 = .sent → result.2.2.used = 0
  blocked : result.1 = .blocked → result.2.2.used ≠ 0

/-- There was nothing, or nothing more, to take. -/
theorem drainTells_empty
    (empty : s.used = 0)
    (sentAny : Bool) :
    DrainTells sentAny s (if sentAny then .sent else .idle, [], s) := by
  cases sentAny with
  | false =>
      exact ⟨rfl, fun _ => ⟨rfl, empty⟩, fun _ => empty, nofun⟩
  | true =>
      exact ⟨rfl, nofun, fun _ => empty, nofun⟩

/-- The sink takes nothing. -/
theorem drainTells_blocked
    (filled : s.used ≠ 0)
    (sentAny : Bool) :
    DrainTells sentAny s (.blocked, [], s) :=
  ⟨rfl, nofun, nofun, fun _ => filled⟩

/-- The loop of `log_drain` without a bound. -/
theorem logDrainLoop_tells
    (answers : List SinkAnswer)
    (remaining : Nat)
    (sentAny : Bool) :
    DrainTells sentAny s
      (logDrainLoop image 0 answers remaining sentAny s) := by
  have unbounded : ¬((0 : Nat) ≠ 0 ∧ remaining = 0) := fun both => both.1 rfl
  induction answers generalizing sentAny s with
  | nil =>
      unfold logDrainLoop
      rw [if_neg unbounded]
      split
      · next empty =>
          exact drainTells_empty empty sentAny
      · next filled =>
          exact drainTells_blocked filled sentAny
  | cons answer rest inductionHypothesis =>
      unfold logDrainLoop
      rw [if_neg unbounded]
      split
      · next empty =>
          exact drainTells_empty empty sentAny
      next filled =>
      cases answer with
      | notReady =>
          exact drainTells_blocked filled sentAny
      | accepts n =>
          have inside := (@logDrainChunk_le image s 0 remaining).1
          dsimp only
          generalize logDrainChunk image 0 remaining s = chunk at inside
          split
          · exact drainTells_blocked filled sentAny
          · next some' =>
              have less :
                  LogState.used
                      { s with tail := s.tail + UInt32.ofNat (min n chunk) } =
                    s.used - min n chunk :=
                used_tail_add (by omega)
              split
              · next partly =>
                  refine ⟨?_, ?_, ?_, fun _ => ?_⟩
                  · simp only [List.length_map, List.length_range, less]
                    omega
                  · intro isIdle
                    cases isIdle
                  · intro isSent
                    cases isSent
                  · simp only [less]
                    omega
              · next wholly =>
                  rw [if_neg (not_not.mpr rfl)]
                  have later := @inductionHypothesis
                    { s with tail := s.tail + UInt32.ofNat (min n chunk) } true
                  generalize
                    logDrainLoop image 0 rest remaining true
                      { s with tail := s.tail + UInt32.ofNat (min n chunk) } =
                      result at later ⊢
                  rcases result with ⟨st, more, left⟩
                  refine ⟨?_, ?_, later.sent, later.blocked⟩
                  · have taken : left.used + more.length = _ := later.taken
                    rw [less] at taken
                    simp only [List.length_append, List.length_map,
                      List.length_range]
                    omega
                  · intro isIdle
                    cases (later.idle isIdle).1

/-- Draining an empty ring finds it empty. -/
theorem logDrain_empty
    (empty : s.used = 0)
    (answers : List SinkAnswer) :
    logDrain image 0 answers s = (.idle, [], s) := by
  unfold logDrain logDrainLoop
  exact if_pos empty

/-- More drains do not add to the ring. -/
theorem logDrainRounds_le
    (answers : Nat → List SinkAnswer)
    (round n : Nat) :
    (logDrainRounds image answers round n s).used ≤ s.used := by
  induction n generalizing round s with
  | zero =>
      exact Nat.le_refl _
  | succ n inductionHypothesis =>
      have taken :=
        (@logDrainLoop_tells image s (answers round) 0 false).taken
      exact
        Nat.le_trans (inductionHypothesis (round + 1))
          (Nat.le_of_add_right_le (Nat.le_of_eq taken))

variable {timeoutMs : UInt32} {port : FlushPort}

/-- One round of the flush, given its phase 1. -/
theorem logFlushLoop_round
    {turns round stalled : Nat}
    {drained drainedNow progress : Bool}
    {bytes : List UInt8}
    {left : LogState}
    (phase :
      logFlushDrain image (port.answers round) drained s =
        (drainedNow, progress, bytes, left)) :
    logFlushLoop image timeoutMs port (turns + 1) round drained stalled s =
      if (drainedNow && port.sinkIdle round) = true then
        some ⟨true, [⟨bytes, drainedNow && !drained⟩], left⟩
      else if logFlushMaxStall ≤ (if progress then 0 else stalled + 1) then
        some ⟨false, [⟨bytes, drainedNow && !drained⟩], left⟩
      else if port.Elapsed timeoutMs (round + 1) then
        some ⟨false, [⟨bytes, drainedNow && !drained⟩], left⟩
      else
        (logFlushLoop image timeoutMs port turns (round + 1) drainedNow
            (if progress then 0 else stalled + 1) left).map
          fun later =>
            { later with
              rounds := ⟨bytes, drainedNow && !drained⟩ :: later.rounds } := by
  rw [logFlushLoop, phase]
  rfl

/-- Turns to spare change nothing. -/
theorem logFlushLoop_mono
    {turns more round stalled : Nat}
    {drained : Bool}
    {flushed : Flushed}
    (enough : turns ≤ more)
    (returned :
      logFlushLoop image timeoutMs port turns round drained stalled s =
        some flushed) :
    logFlushLoop image timeoutMs port more round drained stalled s =
      some flushed := by
  induction turns generalizing more round drained stalled s flushed with
  | zero =>
      cases returned
  | succ turns inductionHypothesis =>
      cases more with
      | zero =>
          exact absurd enough (Nat.not_succ_le_zero _)
      | succ more =>
          rcases phase : logFlushDrain image (port.answers round) drained s with
            ⟨drainedNow, progress, bytes, left⟩
          rw [logFlushLoop_round phase] at returned ⊢
          generalize (if progress then 0 else stalled + 1) = now at returned ⊢
          split at returned
          · next done =>
              rw [if_pos done]
              exact returned
          next notDone =>
          rw [if_neg notDone]
          split at returned
          · next stuck =>
              rw [if_pos stuck]
              exact returned
          next notStuck =>
          rw [if_neg notStuck]
          split at returned
          · next late =>
              rw [if_pos late]
              exact returned
          next inTime =>
          rw [if_neg inTime]
          obtain ⟨later, went, rfl⟩ := Option.map_eq_some_iff.mp returned
          rw [inductionHypothesis (Nat.le_of_succ_le_succ enough) went]
          rfl

/-- One more round in front. -/
theorem FlushedRightly.cons
    {round : Nat}
    {later : Flushed}
    (rightly : FlushedRightly timeoutMs port (round + 1) later)
    (seen : FlushRound) :
    FlushedRightly timeoutMs port round
      { later with rounds := seen :: later.rounds } := by
  have index :
      round + 1 + later.rounds.length =
        round + (seen :: later.rounds).length := by
    rw [List.length_cons]
    omega
  refine ⟨fun ok => ?_, fun failed => ?_⟩
  · have emptied := rightly.emptied ok
    rw [index] at emptied
    exact emptied
  · have gaveUp := rightly.gaveUp failed
    rw [index] at gaveUp
    rcases gaveUp with late | ⟨still, part, long, quiet⟩
    · exact Or.inl late
    · exact
        Or.inr ⟨still, part.trans (List.suffix_cons _ _).isInfix, long, quiet⟩

/-!
## The two phases
-/

/--
Once the ring was found empty, the flush waits for the sink, through rounds
that are all still.
-/
theorem logFlushLoop_drained
    {turns round stalled : Nat}
    (below : stalled < logFlushMaxStall)
    (enough : logFlushMaxStall ≤ stalled + turns) :
    ∃ ok rounds,
      logFlushLoop image timeoutMs port turns round true stalled s =
          some ⟨ok, rounds, s⟩ ∧
        (∀ seen ∈ rounds, seen.Still) ∧
          (ok = true → port.sinkIdle (round + rounds.length - 1) = true) ∧
            (ok = false →
              port.Elapsed timeoutMs (round + rounds.length) ∨
                rounds.length + stalled = logFlushMaxStall) := by
  induction turns generalizing round stalled with
  | zero =>
      omega
  | succ turns inductionHypothesis =>
      have phase :
          logFlushDrain image (port.answers round) true s =
            (true, false, [], s) :=
        rfl
      have still :
          ∀ seen ∈ [(⟨[], true && !true⟩ : FlushRound)], seen.Still := by
        intro seen member
        cases List.mem_singleton.mp member
        exact ⟨rfl, rfl⟩
      rw [logFlushLoop_round phase]
      simp only [Bool.true_and, Bool.false_eq_true, if_false]
      by_cases idle : port.sinkIdle round = true
      · rw [if_pos idle]
        exact ⟨true, _, rfl, still, fun _ => idle, nofun⟩
      rw [if_neg idle]
      by_cases stuck : logFlushMaxStall ≤ stalled + 1
      · rw [if_pos stuck]
        refine ⟨false, _, rfl, still, nofun, fun _ => Or.inr ?_⟩
        rw [List.length_singleton]
        omega
      rw [if_neg stuck]
      by_cases late : port.Elapsed timeoutMs (round + 1)
      · rw [if_pos late]
        exact ⟨false, _, rfl, still, nofun, fun _ => Or.inl late⟩
      rw [if_neg late]
      obtain ⟨ok, rounds, went, quiet, done, gaveUp⟩ :=
        @inductionHypothesis (round + 1) (stalled + 1) (by omega) (by omega)
      have index (n : Nat) : round + 1 + n = round + (n + 1) := by omega
      rw [went]
      refine ⟨ok, ⟨[], false⟩ :: rounds, rfl, ?_, ?_, ?_⟩
      · intro seen member
        rcases List.mem_cons.mp member with rfl | later
        · exact ⟨rfl, rfl⟩
        · exact quiet seen later
      · rw [List.length_cons, ← index]
        exact done
      · intro failed
        rcases gaveUp failed with late | long
        · left
          rw [List.length_cons, ← index]
          exact late
        · right
          rw [List.length_cons]
          omega

/-- A flush that finds the ring empty returns rightly. -/
theorem logFlushLoop_empty
    {turns round stalled : Nat}
    (empty : s.used = 0)
    (enough : logFlushMaxStall < turns) :
    ∃ flushed,
      logFlushLoop image timeoutMs port turns round false stalled s =
          some flushed ∧
        FlushedRightly timeoutMs port round flushed := by
  cases turns with
  | zero =>
      omega
  | succ turns =>
      have phase :
          logFlushDrain image (port.answers round) false s =
            (true, true, [], s) := by
        unfold logFlushDrain
        rw [logDrain_empty empty]
        rfl
      rw [logFlushLoop_round phase]
      simp only [Bool.true_and, if_true]
      by_cases idle : port.sinkIdle round = true
      · rw [if_pos idle]
        exact ⟨_, rfl, fun _ => ⟨empty, idle⟩, nofun⟩
      rw [if_neg idle, if_neg (by decide)]
      by_cases late : port.Elapsed timeoutMs (round + 1)
      · rw [if_pos late]
        exact ⟨_, rfl, nofun, fun _ => Or.inl late⟩
      rw [if_neg late]
      obtain ⟨ok, rounds, went, quiet, done, gaveUp⟩ :=
        @logFlushLoop_drained image s timeoutMs port turns (round + 1) 0
          (by decide) (by omega)
      rw [went]
      have later :
          FlushedRightly timeoutMs port (round + 1) ⟨ok, rounds, s⟩ := by
        refine ⟨fun isOk => ⟨empty, done isOk⟩, fun failed => ?_⟩
        rcases gaveUp failed with late | long
        · exact Or.inl late
        · exact Or.inr ⟨rounds, List.infix_rfl, long, quiet⟩
      exact ⟨_, rfl, later.cons _⟩

/-- A round of draining: the ring is found empty, is emptied, or is not. -/
theorem logFlushDrain_cases (answers : List SinkAnswer) :
    let left := (logDrain image 0 answers s).2.2
    let bytes := (logDrain image 0 answers s).2.1
    s.used = 0 ∨
      (left.used = 0 ∧
        logFlushDrain image answers false s = (false, true, bytes, left)) ∨
      (left.used ≠ 0 ∧ left.used + bytes.length = s.used ∧
        logFlushDrain image answers false s = (false, false, bytes, left)) := by
  have told := @logDrainLoop_tells image s answers 0 false
  change DrainTells false s (logDrain image 0 answers s) at told
  unfold logFlushDrain
  generalize logDrain image 0 answers s = result at told ⊢
  rcases result with ⟨st, bytes, left⟩
  cases st with
  | idle =>
      exact Or.inl (told.idle rfl).2
  | sent =>
      exact Or.inr (Or.inl ⟨told.sent rfl, rfl⟩)
  | blocked =>
      exact Or.inr (Or.inr ⟨told.blocked rfl, told.taken, rfl⟩)

/--
When the timeout elapses or the ring is emptied before a stall is over, the
flush returns rightly.
-/
theorem logFlushLoop_stops
    {turns round stalled n : Nat}
    (budget : stalled + n = logFlushMaxStall)
    (enough : n + logFlushMaxStall < turns)
    (stops :
      (∃ k, 0 < k ∧ k < n ∧ port.Elapsed timeoutMs (round + k)) ∨
        (logDrainRounds image port.answers round n s).used = 0) :
    ∃ flushed,
      logFlushLoop image timeoutMs port turns round false stalled s =
          some flushed ∧
        FlushedRightly timeoutMs port round flushed := by
  induction n generalizing turns round stalled s with
  | zero =>
      rcases stops with ⟨k, _, below, _⟩ | empty
      · exact absurd below (Nat.not_lt_zero k)
      · exact logFlushLoop_empty empty (by omega)
  | succ n inductionHypothesis =>
      cases turns with
      | zero =>
          omega
      | succ turns =>
          rcases @logFlushDrain_cases image s (port.answers round) with
            empty | ⟨emptied, phase⟩ | ⟨filled, -, phase⟩
          · exact logFlushLoop_empty empty (by omega)
          · rw [logFlushLoop_round phase]
            simp only [Bool.false_and, Bool.false_eq_true, if_false, if_true]
            rw [if_neg (by decide)]
            by_cases late : port.Elapsed timeoutMs (round + 1)
            · rw [if_pos late]
              exact ⟨_, rfl, nofun, fun _ => Or.inl late⟩
            rw [if_neg late]
            obtain ⟨later, went, rightly⟩ :=
              @logFlushLoop_empty image _ timeoutMs port turns (round + 1) 0
                emptied (by omega)
            rw [went]
            exact ⟨_, rfl, rightly.cons _⟩
          · have soon :
                (∃ k, 0 < k ∧ k < n ∧
                    port.Elapsed timeoutMs (round + 1 + k)) ∨
                  port.Elapsed timeoutMs (round + 1) ∧ 0 < n ∨
                    (logDrainRounds image port.answers (round + 1) n
                      (logDrain image 0 (port.answers round) s).2.2).used =
                        0 := by
              rcases stops with ⟨k, positive, below, late⟩ | empty
              · by_cases first : k = 1
                · rw [first] at late below
                  exact Or.inr (Or.inl ⟨late, by omega⟩)
                · refine Or.inl ⟨k - 1, by omega, by omega, ?_⟩
                  rw [Nat.add_assoc, Nat.add_sub_cancel' positive]
                  exact late
              · exact Or.inr (Or.inr empty)
            have more : 0 < n := by
              rcases soon with ⟨k, _, below, _⟩ | ⟨_, more⟩ | empty
              · omega
              · exact more
              · refine Nat.pos_of_ne_zero fun none => filled ?_
                rw [none] at empty
                exact empty
            rw [logFlushLoop_round phase]
            simp only [Bool.false_and, Bool.false_eq_true, if_false]
            rw [if_neg (by omega)]
            by_cases late : port.Elapsed timeoutMs (round + 1)
            · rw [if_pos late]
              exact ⟨_, rfl, nofun, fun _ => Or.inl late⟩
            rw [if_neg late]
            obtain ⟨later, went, rightly⟩ :=
              @inductionHypothesis
                (logDrain image 0 (port.answers round) s).2.2 turns (round + 1)
                (stalled + 1) (by omega) (by omega)
                (soon.imp_right fun rest =>
                  rest.resolve_left fun early => late early.1)
            rw [went]
            exact ⟨_, rfl, rightly.cons _⟩

/-- Otherwise it gives up when the stall is over, whatever was sent. -/
theorem logFlushLoop_stuck
    {turns round stalled n : Nat}
    (budget : stalled + n = logFlushMaxStall)
    (positive : 0 < n)
    (enough : n ≤ turns)
    (inTime : ∀ k, 0 < k → k < n → ¬port.Elapsed timeoutMs (round + k))
    (filled : (logDrainRounds image port.answers round n s).used ≠ 0) :
    ∃ rounds,
      logFlushLoop image timeoutMs port turns round false stalled s =
          some ⟨false, rounds, logDrainRounds image port.answers round n s⟩ ∧
        rounds.length = n ∧
          (∀ seen ∈ rounds, seen.newlyEmpty = false) ∧
            (logDrainRounds image port.answers round n s).used +
                (rounds.map fun seen => seen.sent.length).sum =
              s.used := by
  induction n generalizing turns round stalled s with
  | zero =>
      omega
  | succ n inductionHypothesis =>
      cases turns with
      | zero =>
          omega
      | succ turns =>
          have stillFilled :
              (logDrain image 0 (port.answers round) s).2.2.used ≠ 0 := by
            intro empty
            have fewer :=
              @logDrainRounds_le image
                (logDrain image 0 (port.answers round) s).2.2 port.answers
                (round + 1) n
            rw [empty] at fewer
            exact filled (Nat.le_zero.mp fewer)
          rcases @logFlushDrain_cases image s (port.answers round) with
            empty | ⟨emptied, -⟩ | ⟨-, taken, phase⟩
          · rw [logDrain_empty empty] at stillFilled
            exact absurd empty stillFilled
          · exact absurd emptied stillFilled
          rw [logFlushLoop_round phase]
          simp only [Bool.false_and, Bool.false_eq_true, if_false]
          by_cases last : n = 0
          · subst last
            rw [if_pos (by omega)]
            refine ⟨_, rfl, rfl, ?_, ?_⟩
            · intro seen member
              cases List.mem_singleton.mp member
              rfl
            · exact taken
          rw [if_neg (by omega), if_neg (inTime 1 (by omega) (by omega))]
          obtain ⟨rounds, went, long, notEmpty, total⟩ :=
            @inductionHypothesis
              (logDrain image 0 (port.answers round) s).2.2 turns (round + 1)
              (stalled + 1) (by omega) (by omega) (by omega)
              (fun k positive below => by
                rw [Nat.add_assoc, Nat.add_comm 1]
                exact inTime (k + 1) (by omega) (by omega))
              filled
          rw [went]
          refine ⟨⟨_, false⟩ :: rounds, rfl, congrArg (· + 1) long, ?_, ?_⟩
          · intro seen member
            rcases List.mem_cons.mp member with rfl | later
            · rfl
            · exact notEmpty seen later
          · rw [List.map_cons, List.sum_cons, Nat.add_comm _ (List.sum _),
              ← Nat.add_assoc]
            exact (congrArg (· + _) total).trans taken

end Round

/-!
## When the contract is met
-/

section Contract

variable
  {image : LogImage}
  {timeoutMs : UInt32}
  {port : FlushPort}
  {s : LogState}

/-- A flush whose loop returns rightly meets the contract. -/
theorem flushContract_of_loop
    {turns : Nat}
    (returns :
      ∃ flushed,
        logFlushLoop image timeoutMs port turns 0 false 0 s = some flushed ∧
          FlushedRightly timeoutMs port 0 flushed) :
    FlushContract image timeoutMs port s := by
  obtain ⟨flushed, went, rightly⟩ := returns
  exact
    ⟨flushed, ⟨turns, fun _ enough => logFlushLoop_mono enough went⟩, rightly⟩

/-- Rounds in which nothing was sent, none of them newly empty, are still. -/
theorem still_of_sum
    {rounds : List FlushRound}
    (notEmpty : ∀ seen ∈ rounds, seen.newlyEmpty = false) :
    (rounds.map fun seen => seen.sent.length).sum = 0 ↔
      ∀ seen ∈ rounds, seen.Still := by
  rw [List.sum_eq_zero_iff_forall_eq_nat]
  simp only [List.forall_mem_map, List.length_eq_zero_iff]
  exact
    ⟨fun none seen member => ⟨none seen member, notEmpty seen member⟩,
      fun still seen member => (still seen member).1⟩

/--
A flush that is given up when the stall is over was given up rightly if the
timeout has elapsed by then, or nothing was sent.
-/
theorem flushContract_of_stuck
    (inTime :
      ∀ k, 0 < k → k < logFlushMaxStall → ¬port.Elapsed timeoutMs (0 + k))
    (filled :
      (logDrainRounds image port.answers 0 logFlushMaxStall s).used ≠ 0) :
    FlushContract image timeoutMs port s ↔
      port.Elapsed timeoutMs logFlushMaxStall ∨
        (logDrainRounds image port.answers 0 logFlushMaxStall s).used =
          s.used := by
  obtain ⟨rounds, went, long, notEmpty, total⟩ :=
    @logFlushLoop_stuck image s timeoutMs port logFlushMaxStall 0 0
      logFlushMaxStall (Nat.zero_add _) (by decide) (Nat.le_refl _) inTime
      filled
  have nothing := still_of_sum notEmpty
  constructor
  · rintro ⟨flushed, ⟨enough, returns⟩, rightly⟩
    have same :=
      (returns _ (Nat.le_max_left enough logFlushMaxStall)).symm.trans
        (logFlushLoop_mono (Nat.le_max_right enough _) went)
    cases same
    rcases rightly.gaveUp rfl with late | ⟨still, part, stillLong, quiet⟩
    · left
      rw [Nat.zero_add] at late
      exact long ▸ late
    · right
      have all := part.eq_of_length (stillLong.trans long.symm)
      rw [all, ← nothing] at quiet
      omega
  · intro met
    refine flushContract_of_loop ⟨_, went, nofun, fun _ => ?_⟩
    rcases met with late | same
    · left
      show port.Elapsed timeoutMs (0 + rounds.length)
      rw [Nat.zero_add, long]
      exact late
    · exact
        Or.inr ⟨rounds, List.infix_rfl, long, nothing.mp (by omega)⟩

/--
Whatever the sink and the clock do, the flush returns after at most two stalls
and a round, and true only when the ring is empty and the sink idle.
-/
theorem flush_always_returns
    (image : LogImage)
    (timeoutMs : UInt32)
    (port : FlushPort)
    (s : LogState) :
    ∃ flushed,
      (∀ turns, logFlushMaxStall + logFlushMaxStall < turns →
          logFlush image timeoutMs port turns s = some flushed) ∧
        (flushed.ok = true →
          flushed.log.used = 0 ∧
            port.sinkIdle (flushed.rounds.length - 1) = true) := by
  by_cases stops :
    (∃ k, 0 < k ∧ k < logFlushMaxStall ∧ port.Elapsed timeoutMs (0 + k)) ∨
      (logDrainRounds image port.answers 0 logFlushMaxStall s).used = 0
  · obtain ⟨flushed, went, rightly⟩ :=
      @logFlushLoop_stops image s timeoutMs port _ 0 0 _ (Nat.zero_add _)
        (Nat.lt_succ_self _) stops
    refine
      ⟨flushed, fun _ enough => logFlushLoop_mono enough went, fun ok => ?_⟩
    have emptied := rightly.emptied ok
    rw [Nat.zero_add] at emptied
    exact emptied
  · obtain ⟨inTime, filled⟩ := not_or.mp stops
    obtain ⟨rounds, went, -⟩ :=
      @logFlushLoop_stuck image s timeoutMs port logFlushMaxStall 0 0 _
        (Nat.zero_add _) (by decide) (Nat.le_refl _)
        (fun k positive below late => inTime ⟨k, positive, below, late⟩) filled
    exact
      ⟨_, fun _ enough => logFlushLoop_mono (by omega) went, nofun⟩

/--
The flush meets its contract exactly when the sink takes all of the ring or
nothing of it, or the timeout elapses, before a stall is over.
-/
theorem flush_contract_iff_all_or_nothing
    (image : LogImage)
    (timeoutMs : UInt32)
    (port : FlushPort)
    (s : LogState) :
    FlushContract image timeoutMs port s ↔
      AllOrNothing image timeoutMs port s := by
  by_cases stops :
    (∃ k, 0 < k ∧ k < logFlushMaxStall ∧ port.Elapsed timeoutMs (0 + k)) ∨
      (logDrainRounds image port.answers 0 logFlushMaxStall s).used = 0
  · refine iff_of_true ?_ ?_
    · exact
        flushContract_of_loop
          (logFlushLoop_stops (Nat.zero_add _) (Nat.lt_succ_self _) stops)
    · rcases stops with ⟨k, positive, below, late⟩ | empty
      · rw [Nat.zero_add] at late
        exact Or.inl ⟨k, positive, Nat.le_of_lt below, late⟩
      · exact Or.inr (Or.inr empty)
  · obtain ⟨inTime, filled⟩ := not_or.mp stops
    rw [flushContract_of_stuck
      (fun k positive below late => inTime ⟨k, positive, below, late⟩) filled]
    constructor
    · rintro (late | same)
      · exact Or.inl ⟨logFlushMaxStall, by decide, Nat.le_refl _, late⟩
      · exact Or.inr (Or.inl same)
    · rintro (⟨k, positive, most, late⟩ | same | empty)
      · rcases Nat.lt_or_eq_of_le most with below | rfl
        · rw [← Nat.zero_add k] at late
          exact (inTime ⟨k, positive, below, late⟩).elim
        · exact Or.inl late
      · exact Or.inr same
      · exact absurd empty filled

end Contract

/-!
## A sink that is slow
-/

/-- A sink with room for one byte in every round, and a clock that stands. -/
def slowPort : FlushPort where
  nowMs := fun _ => 0
  answers := fun _ => [.accepts 1]
  sinkIdle := fun _ => false

/-- A ring of 1 KB. -/
def kilobyteImage : LogImage where
  capBits := 10
  fits := by decide
  imageName := []
  buildId := []

/-- One byte more in the ring than a stall has rounds. -/
def fullLog : LogState where
  core := .app
  seq := 0
  dropped := 0
  pendingOverflow := 0
  ring := fun _ => 0
  head := 1001
  tail := 0

-- With nothing queued there is nothing to wait for, even without time.
example :
    (logFlush kilobyteImage 0 { slowPort with sinkIdle := fun _ => true } 1
      { fullLog with tail := 1001 }).map Flushed.ok = some true := by
  decide

/-- Something is offered of a ring that is not empty. -/
theorem logDrainChunk_pos
    {image : LogImage}
    {s : LogState}
    (filled : s.used ≠ 0) :
    0 < logDrainChunk image 0 0 s := by
  have index : (s.tail &&& image.mask).toNat < image.cap.toNat := by
    rw [image.index_toNat]
    exact Nat.mod_lt _ image.cap_pos
  have some' : 0 < (s.head - s.tail).toNat := Nat.pos_of_ne_zero filled
  unfold logDrainChunk
  dsimp only
  split_ifs <;> omega

/-- A sink with nothing to say leaves the ring alone. -/
theorem logDrainLoop_nil
    {image : LogImage}
    (maxBytes remaining : Nat)
    (sentAny : Bool)
    (s : LogState) :
    (logDrainLoop image maxBytes [] remaining sentAny s).2.2 = s := by
  unfold logDrainLoop
  dsimp only
  split_ifs <;> rfl

/-- A sink with room for one byte takes one. -/
theorem logDrain_oneByte
    {image : LogImage}
    {s : LogState}
    (filled : s.used ≠ 0) :
    (logDrain image 0 [.accepts 1] s).2.2.used = s.used - 1 := by
  have offered := @logDrainChunk_pos image s filled
  have unbounded : ¬((0 : Nat) ≠ 0 ∧ (0 : Nat) = 0) := fun both => both.1 rfl
  have one : min 1 (logDrainChunk image 0 0 s) = 1 := Nat.min_eq_left offered
  have filled' : ¬(s.head - s.tail).toNat = 0 := filled
  have less :
      LogState.used { s with tail := s.tail + UInt32.ofNat 1 } = s.used - 1 :=
    used_tail_add (Nat.pos_of_ne_zero filled)
  unfold logDrain logDrainLoop
  rw [if_neg filled', if_neg unbounded]
  dsimp only
  rw [one, if_neg (by decide)]
  split
  · exact less
  · refine Eq.trans (congrArg LogState.used ?_) less
    exact logDrainLoop_nil _ _ _ _

/-- In so many rounds it takes so many bytes. -/
theorem logDrainRounds_slow
    {image : LogImage}
    {s : LogState}
    {n : Nat}
    (round : Nat)
    (filled : n ≤ s.used) :
    (logDrainRounds image slowPort.answers round n s).used = s.used - n := by
  induction n generalizing round s with
  | zero =>
      rfl
  | succ n inductionHypothesis =>
      have less := @logDrain_oneByte image s (by omega)
      rw [logDrainRounds, inductionHypothesis]
      · change (logDrain image 0 [.accepts 1] s).2.2.used - n = _
        omega
      · change n ≤ (logDrain image 0 [.accepts 1] s).2.2.used
        omega

/--
The flush gives up on a sink that took a byte in every round, with the timeout
still to come.
-/
theorem slow_sink_is_given_up :
    ¬FlushContract kilobyteImage 20 slowPort fullLog := by
  have held : fullLog.used = 1001 := by decide
  have left :
      (logDrainRounds kilobyteImage slowPort.answers 0 logFlushMaxStall
        fullLog).used = 1 := by
    rw [logDrainRounds_slow 0 (by rw [held]; decide), held]
    rfl
  have frozen : ∀ k, ¬slowPort.Elapsed 20 k := by
    intro k late
    exact absurd late (by decide : ¬(20 : UInt32) ≤ 0 - 0)
  rw [flushContract_of_stuck (fun k _ _ => frozen _) (by rw [left]; decide),
    left, held]
  rintro (late | same)
  · exact frozen _ late
  · cases same

end TraveoBodyDomain
