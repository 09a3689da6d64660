import TraveoBodyDomain.SysMgr.Sequencing

/-!
# How often a resource is tried

An attempt fails in the tick that calls `init`, or in a later one that finds
`poll_ready` late.  `attempts` has eight bits and is compared with a limit that
has more: with 255 retries it wraps around before the limit is reached.
-/

namespace TraveoBodyDomain

/-- A tick: the state before it, its argument, and the callbacks it calls. -/
structure SysmgrTickRecord where
  before : Sysmgr
  tick : SysmgrTick
  calls : List SysmgrEvent

/-- `sysmgr_tick`, recorded. -/
def sysmgrRecordedTick : Machine.Step Sysmgr SysmgrTick SysmgrTickRecord
  | s, tick => ((sysmgrTick s tick).1, [⟨s, tick, (sysmgrTick s tick).2⟩])

/-- The time the current attempt of entry `i` had is over. -/
def Sysmgr.Late (s : Sysmgr) (i : Nat) (nowMs : UInt32) : Prop :=
  (s.table i).initTimeoutMs ≠ 0 ∧
    nowMs - (s.rt i).startedMs ≥ (s.table i).initTimeoutMs

instance (s : Sysmgr) (i : Nat) (nowMs : UInt32) : Decidable (s.Late i nowMs) :=
  inferInstanceAs (Decidable (_ ∧ _))

/-- An attempt of entry `i` fails in the tick. -/
def SysmgrTickRecord.Fails (i : Nat) (record : SysmgrTickRecord) : Prop :=
  .init i ∈ record.calls ∧ record.tick.initRc ≠ 0 ∨
    .pollReady i ∈ record.calls ∧
      record.tick.pollRc ≠ 0 ∧ record.before.Late i record.tick.nowMs

instance (i : Nat) : DecidablePred (SysmgrTickRecord.Fails i) :=
  fun _ => inferInstanceAs (Decidable (_ ∨ _))

/-- How often a callback was called. -/
def sysmgrTimes (event : SysmgrEvent) (history : List SysmgrTickRecord) : Nat :=
  (history.flatMap SysmgrTickRecord.calls).count event

/-- How many attempts of entry `i` have failed. -/
def sysmgrFailures (i : Nat) (history : List SysmgrTickRecord) : Nat :=
  history.countP fun record => record.Fails i

/--
The callbacks of entry `i` let its attempts fail: `init` is refused, or
`poll_ready` is until a time that is limited.
-/
def Sysmgr.AttemptsFail (i : Nat) (s : Sysmgr) (tick : SysmgrTick) : Prop :=
  (.init i ∈ (sysmgrTick s tick).2 →
    tick.initRc = 0 →
      (s.table i).hasPollReady = true ∧ (s.table i).initTimeoutMs ≠ 0) ∧
    (.pollReady i ∈ (sysmgrTick s tick).2 → tick.pollRc ≠ 0)

/-- Entry `i` ended as its policy asks, and the ticks have moved on. -/
structure Sysmgr.GivenUp (s : Sysmgr) (i resets : Nat) : Prop where
  passed : i < sysmgrCurrent s
  degraded :
    (s.table i).onExhausted = .degrade →
      (s.rt i).state = .degraded ∧ resets = 0
  failed :
    (s.table i).onExhausted = .systemReset →
      (s.rt i).state = .failed ∧ resets = if s.hasReset then 1 else 0

/--
`init` of entry `i` is called once, and once more for each retry; when the last
of these attempts has failed the entry is given up.
-/
structure Sysmgr.Bounded
    (s : Sysmgr)
    (i : Nat)
    (history : List SysmgrTickRecord) : Prop where
  inits : sysmgrTimes (.init i) history ≤ (s.table i).maxRetries.toNat + 1
  exhausted :
    (s.table i).maxRetries.toNat + 1 ≤ sysmgrFailures i history →
      s.GivenUp i (sysmgrTimes (.reset i) history)

/-- How far the attempts of entry `i` have come, and what was counted. -/
inductive Sysmgr.Tried
    (s : Sysmgr)
    (i : Nat) : (inits failures resets : Nat) → Prop
  | absent
      (outside : s.count ≤ i) :
      s.Tried i 0 0 0
  | untried
      (uninit : (s.rt i).state = .uninit)
      (none : (s.rt i).attempts.toNat = 0) :
      s.Tried i 0 0 0
  | cascaded
      (degraded : (s.rt i).state = .degraded) :
      s.Tried i 0 0 0
  | due
      {n : Nat}
      (initializing : (s.rt i).state = .initializing)
      (notStarted : (s.rt i).pollStarted = false)
      (counted : (s.rt i).attempts.toNat = n)
      (left : n ≤ (s.table i).maxRetries.toNat) :
      s.Tried i n n 0
  | waiting
      {n : Nat}
      (initializing : (s.rt i).state = .initializing)
      (started : (s.rt i).pollStarted = true)
      (polls : (s.table i).hasPollReady = true)
      (counted : (s.rt i).attempts.toNat = n + 1)
      (left : n ≤ (s.table i).maxRetries.toNat) :
      s.Tried i (n + 1) n 0
  | givenUp
      {n resets : Nat}
      (all : n = (s.table i).maxRetries.toNat + 1)
      (given : s.GivenUp i resets) :
      s.Tried i n n resets

section OneTick

variable {s : Sysmgr} {i : Nat}

/-- The ticks have moved on from entry `i` when it and those before it ended. -/
theorem lt_sysmgrCurrent_iff :
    i < sysmgrCurrent s ↔
      i < s.count ∧ ∀ j ≤ i, sysmgrIsTerminal (s.rt j).state = true := by
  constructor
  · intro passed
    refine ⟨Nat.lt_of_lt_of_le passed (find_range_spec s.count _).1, ?_⟩
    exact fun j upTo => terminal_of_lt_current (Nat.lt_of_le_of_lt upTo passed)
  · rintro ⟨inside, ended⟩
    by_contra notPassed
    have current : sysmgrCurrent s ≤ i := Nat.not_lt.mp notPassed
    have pending := current_not_terminal (Nat.lt_of_le_of_lt current inside)
    rw [ended _ current] at pending
    cases pending

/-- `handle_failure` changes one entry, and calls back for that entry. -/
theorem sysmgrHandleFailure_own
    (s : Sysmgr)
    (i : Nat) :
    ∃ next events,
      sysmgrHandleFailure s i = (s.set i next, events) ∧
        ∀ event ∈ events, event = .reset i := by
  unfold sysmgrHandleFailure
  by_cases again :
      (s.rt i).attempts.toNat < (s.table i).maxRetries.toNat + 1
  · exact ⟨_, _, if_pos again, fun _ member => absurd member List.not_mem_nil⟩
  · simp only [if_neg again]
    cases (s.table i).onExhausted with
    | retryInplace =>
        exact ⟨_, _, rfl, fun _ member => absurd member List.not_mem_nil⟩
    | degrade =>
        exact ⟨_, _, rfl, fun _ member => absurd member List.not_mem_nil⟩
    | systemReset =>
        refine ⟨_, _, rfl, fun event member => ?_⟩
        cases has : s.hasReset with
        | true =>
            rw [has] at member
            exact List.mem_singleton.mp member
        | false =>
            rw [has] at member
            exact absurd member List.not_mem_nil

/-- `attempt_init` calls `init`, and does so before anything else. -/
theorem sysmgrAttemptInit_own
    (s : Sysmgr)
    (i : Nat)
    (tick : SysmgrTick) :
    ∃ next resets,
      sysmgrAttemptInit s i tick = (s.set i next, .init i :: resets) ∧
        ∀ event ∈ resets, event = .reset i := by
  have nothing : ∀ event ∈ ([] : List SysmgrEvent), event = .reset i :=
    fun _ member => absurd member List.not_mem_nil
  unfold sysmgrAttemptInit
  by_cases accepted : tick.initRc = 0
  · simp only [if_pos accepted, Sysmgr.set_set]
    by_cases polls : (s.table i).hasPollReady = true
    · exact ⟨_, _, if_pos polls, nothing⟩
    · exact ⟨_, _, if_neg polls, nothing⟩
  · simp only [if_neg accepted]
    obtain ⟨next, resets, handled, own⟩ :=
      sysmgrHandleFailure_own
        (s.set i
          { s.rt i with
            attempts := (s.rt i).attempts + 1
            startedMs := tick.nowMs })
        i
    simp only [handled, Sysmgr.set_set]
    exact ⟨_, _, rfl, own⟩

/-- A tick changes the current entry, and calls back for that entry. -/
theorem sysmgrTick_own
    (s : Sysmgr)
    (tick : SysmgrTick) :
    ∃ next events,
      sysmgrTick s tick = (s.set (sysmgrCurrent s) next, events) ∧
        ∀ event ∈ events, event.entry = sysmgrCurrent s := by
  have nothing :
      ∀ event ∈ ([] : List SysmgrEvent), event.entry = sysmgrCurrent s :=
    fun _ member => absurd member List.not_mem_nil
  rcases sysmgrTick_cases s tick with
    unchanged | ⟨-, ⟨-, -, lost⟩ | ⟨-, attempt⟩ | ⟨-, -, polls, own, outcome⟩⟩
  · exact ⟨_, [], unchanged.trans (by rw [Sysmgr.set_same]), nothing⟩
  · exact ⟨_, [], lost, nothing⟩
  · obtain ⟨next, resets, attempted, own⟩ :=
      sysmgrAttemptInit_own s (sysmgrCurrent s) tick
    refine ⟨next, _, attempt.trans attempted, fun event member => ?_⟩
    rcases List.mem_cons.mp member with rfl | later
    · rfl
    · rw [own event later]
      rfl
  · have polled : ∀ event ∈ polls, event.entry = sysmgrCurrent s := by
      intro event member
      rw [own event member]
      rfl
    rcases outcome with same | up | failure
    · exact ⟨_, polls, same.trans (by rw [Sysmgr.set_same]), polled⟩
    · exact ⟨_, polls, up, polled⟩
    · obtain ⟨next, events, handled, resets⟩ :=
        sysmgrHandleFailure_own s (sysmgrCurrent s)
      rw [handled] at failure
      refine ⟨next, _, failure, fun event member => ?_⟩
      rcases List.mem_append.mp member with first | later
      · exact polled event first
      · rw [resets event later]
        rfl

/-- When the current entry ends, the ticks move on. -/
theorem Sysmgr.passed_of_set
    (inside : i < s.count)
    (earlier : ∀ j < i, sysmgrIsTerminal (s.rt j).state = true)
    {next : SysmgrRuntime}
    (ended : sysmgrIsTerminal next.state = true) :
    i < sysmgrCurrent (s.set i next) := by
  refine lt_sysmgrCurrent_iff.mpr ⟨inside, fun j upTo => ?_⟩
  rcases Nat.lt_or_eq_of_le upTo with before | rfl
  · rw [Sysmgr.set_rt_of_ne (Nat.ne_of_lt before)]
    exact earlier j before
  · rw [Sysmgr.set_rt_self]
    exact ended

/-- A failed attempt has a next one, unless it was the last. -/
theorem Sysmgr.Tried.of_failure
    (inside : i < s.count)
    (earlier : ∀ j < i, sysmgrIsTerminal (s.rt j).state = true)
    (hard : (s.table i).onExhausted ≠ .retryInplace)
    {n : Nat}
    (counted : (s.rt i).attempts.toNat = n + 1)
    (left : n ≤ (s.table i).maxRetries.toNat) :
    (sysmgrHandleFailure s i).1.Tried i (n + 1) (n + 1)
      ((sysmgrHandleFailure s i).2.count (.reset i)) := by
  unfold sysmgrHandleFailure
  by_cases again :
      (s.rt i).attempts.toNat < (s.table i).maxRetries.toNat + 1
  · simp only [if_pos again]
    refine .due ?_ ?_ ?_ ?_
    · rw [Sysmgr.set_rt_self]
    · rw [Sysmgr.set_rt_self]
    · rw [Sysmgr.set_rt_self]
      exact counted
    · rw [Sysmgr.set_table]
      omega
  · have last : n + 1 = (s.table i).maxRetries.toNat + 1 := by omega
    simp only [if_neg again]
    cases policy : (s.table i).onExhausted with
    | retryInplace =>
        exact absurd policy hard
    | degrade =>
        refine .givenUp last ⟨passed_of_set inside earlier rfl, ?_, ?_⟩
        · exact fun _ => ⟨by rw [Sysmgr.set_rt_self], rfl⟩
        · intro reset
          rw [Sysmgr.set_table, policy] at reset
          cases reset
    | systemReset =>
        refine .givenUp last ⟨passed_of_set inside earlier rfl, ?_, ?_⟩
        · intro degrade
          rw [Sysmgr.set_table, policy] at degrade
          cases degrade
        · refine fun _ => ⟨by rw [Sysmgr.set_rt_self], ?_⟩
          change
            (if s.hasReset then [SysmgrEvent.reset i] else []).count (.reset i) =
              if s.hasReset then 1 else 0
          cases s.hasReset with
          | true => exact List.count_singleton_self
          | false => rfl

/-- An attempt, whose number the eight bits can hold. -/
theorem Sysmgr.Tried.of_attempt
    (inside : i < s.count)
    (earlier : ∀ j < i, sysmgrIsTerminal (s.rt j).state = true)
    (hard : (s.table i).onExhausted ≠ .retryInplace)
    (retries : (s.table i).maxRetries ≠ 255)
    {n : Nat}
    (counted : (s.rt i).attempts.toNat = n)
    (left : n ≤ (s.table i).maxRetries.toNat)
    (tick : SysmgrTick)
    (fails : tick.initRc = 0 → (s.table i).hasPollReady = true) :
    (sysmgrAttemptInit s i tick).1.Tried i (n + 1)
      (n + if tick.initRc ≠ 0 then 1 else 0)
      ((sysmgrAttemptInit s i tick).2.count (.reset i)) := by
  have fits : n + 1 < 256 := by
    have small := (s.table i).maxRetries.toNat_lt
    have notMost : (s.table i).maxRetries.toNat ≠ 255 :=
      fun most => retries (UInt8.toNat_inj.mp most)
    omega
  have begun :
      ((s.rt i).attempts + 1).toNat = n + 1 := by
    rw [UInt8.toNat_add, counted]
    exact Nat.mod_eq_of_lt fits
  unfold sysmgrAttemptInit
  by_cases accepted : tick.initRc = 0
  · have polls := fails accepted
    simp only [if_pos accepted, if_neg (not_not.mpr accepted), if_pos polls,
      Sysmgr.set_set]
    refine .waiting ?_ ?_ polls ?_ left
    · rw [Sysmgr.set_rt_self]
    · rw [Sysmgr.set_rt_self]
    · rw [Sysmgr.set_rt_self, Sysmgr.set_rt_self]
      exact begun
  · simp only [if_neg accepted, if_pos (show tick.initRc ≠ 0 from accepted)]
    generalize attempting :
      s.set i
        { s.rt i with
          attempts := (s.rt i).attempts + 1
          startedMs := tick.nowMs } = attempted
    have sameTable : attempted.table = s.table := by rw [← attempting]; rfl
    have own : (attempted.rt i).attempts.toNat = n + 1 := by
      rw [← attempting, Sysmgr.set_rt_self]
      exact begun
    have others : ∀ j < i, sysmgrIsTerminal (attempted.rt j).state = true := by
      intro j before
      rw [← attempting, Sysmgr.set_rt_of_ne (Nat.ne_of_lt before)]
      exact earlier j before
    have tried : (sysmgrHandleFailure attempted i).1.Tried i (n + 1) (n + 1)
        ((sysmgrHandleFailure attempted i).2.count (.reset i)) := by
      refine .of_failure ?_ others ?_ own ?_
      · rw [← attempting]
        exact inside
      · rw [sameTable]
        exact hard
      · rw [sameTable]
        exact left
    rw [List.count_cons_of_ne (by simp)]
    exact tried

/-- A tick that has not come to entry `i` leaves it as it is. -/
theorem Sysmgr.Tried.frame
    {inits failures resets : Nat}
    (tried : s.Tried i inits failures resets)
    (other : i ≠ sysmgrCurrent s)
    (next : SysmgrRuntime) :
    (s.set (sysmgrCurrent s) next).Tried i inits failures resets := by
  have same : (s.set (sysmgrCurrent s) next).rt i = s.rt i :=
    Sysmgr.set_rt_of_ne other next
  cases tried with
  | absent outside =>
      exact .absent outside
  | untried uninit none =>
      exact .untried (by rw [same]; exact uninit) (by rw [same]; exact none)
  | cascaded degraded =>
      exact .cascaded (by rw [same]; exact degraded)
  | due initializing notStarted counted left =>
      refine .due ?_ ?_ ?_ left
      iterate 3 rw [same]; assumption
  | waiting initializing started polls counted left =>
      refine .waiting ?_ ?_ polls ?_ left
      iterate 3 rw [same]; assumption
  | givenUp all given =>
      have ended := lt_sysmgrCurrent_iff.mp given.passed
      refine .givenUp all ⟨lt_sysmgrCurrent_iff.mpr ⟨ended.1, ?_⟩, ?_, ?_⟩
      · intro j upTo
        have before : j < sysmgrCurrent s :=
          Nat.lt_of_le_of_lt upTo given.passed
        rw [Sysmgr.set_rt_of_ne (Nat.ne_of_lt before)]
        exact ended.2 j upTo
      · rw [same]
        exact given.degraded
      · rw [same]
        exact given.failed

/-- A tick without a call of entry `i` is no failed attempt of it. -/
theorem SysmgrTickRecord.not_fails
    {record : SysmgrTickRecord}
    (silent : ∀ event ∈ record.calls, event.entry ≠ i) :
    ¬record.Fails i := by
  rintro (⟨called, -⟩ | ⟨called, -⟩)
  · exact silent _ called rfl
  · exact silent _ called rfl

/-- What a tick makes of what was counted before it. -/
def Sysmgr.TriedAfter
    (s : Sysmgr)
    (i inits failures resets : Nat)
    (tick : SysmgrTick) : Prop :=
  (sysmgrTick s tick).1.Tried i
    (inits + (sysmgrTick s tick).2.count (.init i))
    (failures +
      if SysmgrTickRecord.Fails i ⟨s, tick, (sysmgrTick s tick).2⟩ then 1 else 0)
    (resets + (sysmgrTick s tick).2.count (.reset i))

/-- A tick that tries the current entry. -/
theorem Sysmgr.Tried.attempt
    (inside : sysmgrCurrent s < s.count)
    (hard : (s.table (sysmgrCurrent s)).onExhausted ≠ .retryInplace)
    (retries : (s.table (sysmgrCurrent s)).maxRetries ≠ 255)
    {n : Nat}
    (counted : (s.rt (sysmgrCurrent s)).attempts.toNat = n)
    (left : n ≤ (s.table (sysmgrCurrent s)).maxRetries.toNat)
    {tick : SysmgrTick}
    (attempt : sysmgrTick s tick = sysmgrAttemptInit s (sysmgrCurrent s) tick)
    (fails : s.AttemptsFail (sysmgrCurrent s) tick) :
    s.TriedAfter (sysmgrCurrent s) n n 0 tick := by
  obtain ⟨next, resets, attempted, own⟩ :=
    sysmgrAttemptInit_own s (sysmgrCurrent s) tick
  have calls :
      (sysmgrTick s tick).2 = .init (sysmgrCurrent s) :: resets := by
    rw [attempt, attempted]
  have called : .init (sysmgrCurrent s) ∈ (sysmgrTick s tick).2 := by
    rw [calls]
    exact List.mem_cons_self
  have once :
      (sysmgrTick s tick).2.count (.init (sysmgrCurrent s)) = 1 := by
    have noMore : resets.count (.init (sysmgrCurrent s)) = 0 := by
      refine List.count_eq_zero.mpr fun member => ?_
      cases own _ member
    rw [calls, List.count_cons_self, noMore]
  have notPolled : .pollReady (sysmgrCurrent s) ∉ (sysmgrTick s tick).2 := by
    rw [calls]
    intro member
    rcases List.mem_cons.mp member with init | later
    · cases init
    · cases own _ later
  have failsIff :
      SysmgrTickRecord.Fails (sysmgrCurrent s)
          ⟨s, tick, (sysmgrTick s tick).2⟩ ↔
        tick.initRc ≠ 0 := by
    constructor
    · rintro (⟨-, refused⟩ | ⟨polled, -⟩)
      · exact refused
      · exact absurd polled notPolled
    · exact fun refused => Or.inl ⟨called, refused⟩
  have tried :=
    of_attempt inside (fun _ => terminal_of_lt_current) hard retries counted
      left tick fun accepted => (fails.1 called accepted).1
  simp only [Sysmgr.TriedAfter, once, failsIff, Nat.zero_add]
  rw [attempt]
  exact tried

/-- A tick that polls the current entry. -/
theorem sysmgrTick_polls
    (inside : sysmgrCurrent s < s.count)
    (initializing : (s.rt (sysmgrCurrent s)).state = .initializing)
    (started : (s.rt (sysmgrCurrent s)).pollStarted = true)
    (polls : (s.table (sysmgrCurrent s)).hasPollReady = true)
    (tick : SysmgrTick) :
    .pollReady (sysmgrCurrent s) ∈ (sysmgrTick s tick).2 ∧
      (tick.pollRc ≠ 0 →
        sysmgrTick s tick =
          if s.Late (sysmgrCurrent s) tick.nowMs then
            ((sysmgrHandleFailure s (sysmgrCurrent s)).1,
              .pollReady (sysmgrCurrent s) ::
                (sysmgrHandleFailure s (sysmgrCurrent s)).2)
          else
            (s, [.pollReady (sysmgrCurrent s)])) := by
  have refused (notReady : tick.pollRc ≠ 0) :
      sysmgrTick s tick =
        if s.Late (sysmgrCurrent s) tick.nowMs then
          ((sysmgrHandleFailure s (sysmgrCurrent s)).1,
            .pollReady (sysmgrCurrent s) ::
              (sysmgrHandleFailure s (sysmgrCurrent s)).2)
        else
          (s, [.pollReady (sysmgrCurrent s)]) := by
    simp [sysmgrTick, Nat.not_le.mpr inside, initializing, started, polls,
      notReady, Sysmgr.Late]
  refine ⟨?_, refused⟩
  by_cases ready : tick.pollRc = 0
  · simp [sysmgrTick, Nat.not_le.mpr inside, initializing, started, polls,
      ready]
  · rw [refused ready]
    by_cases late : s.Late (sysmgrCurrent s) tick.nowMs
    · rw [if_pos late]
      exact List.mem_cons_self
    · rw [if_neg late]
      exact List.mem_cons_self

/-- A tick that calls nothing for the entry counts nothing for it. -/
theorem Sysmgr.Tried.silent
    {inits failures resets : Nat}
    {tick : SysmgrTick}
    (tried : (sysmgrTick s tick).1.Tried i inits failures resets)
    (silent : ∀ event ∈ (sysmgrTick s tick).2, event.entry ≠ i) :
    s.TriedAfter i inits failures resets tick := by
  have none := count_of_silent silent
  have noFailure :
      ¬SysmgrTickRecord.Fails i ⟨s, tick, (sysmgrTick s tick).2⟩ :=
    SysmgrTickRecord.not_fails silent
  rw [Sysmgr.TriedAfter, none.1, none.2, if_neg noFailure]
  exact tried

/-- A tick that polls the entry, which is not ready. -/
theorem Sysmgr.Tried.poll
    (inside : sysmgrCurrent s < s.count)
    (hard : (s.table (sysmgrCurrent s)).onExhausted ≠ .retryInplace)
    {n : Nat}
    (initializing : (s.rt (sysmgrCurrent s)).state = .initializing)
    (started : (s.rt (sysmgrCurrent s)).pollStarted = true)
    (polls : (s.table (sysmgrCurrent s)).hasPollReady = true)
    (counted : (s.rt (sysmgrCurrent s)).attempts.toNat = n + 1)
    (left : n ≤ (s.table (sysmgrCurrent s)).maxRetries.toNat)
    {tick : SysmgrTick}
    (fails : s.AttemptsFail (sysmgrCurrent s) tick) :
    s.TriedAfter (sysmgrCurrent s) (n + 1) n 0 tick := by
  obtain ⟨called, ticked⟩ :=
    sysmgrTick_polls inside initializing started polls tick
  have refused := fails.2 called
  specialize ticked refused
  by_cases late : s.Late (sysmgrCurrent s) tick.nowMs
  · rw [if_pos late] at ticked
    obtain ⟨next, resets, handled, own⟩ :=
      sysmgrHandleFailure_own s (sysmgrCurrent s)
    have failed : SysmgrTickRecord.Fails (sysmgrCurrent s)
        ⟨s, tick, (sysmgrTick s tick).2⟩ :=
      Or.inr ⟨called, refused, late⟩
    have noInit :
        (sysmgrTick s tick).2.count (.init (sysmgrCurrent s)) = 0 := by
      rw [ticked, handled]
      refine List.count_eq_zero.mpr fun member => ?_
      rcases List.mem_cons.mp member with poll | later
      · cases poll
      · cases own _ later
    have tried :=
      of_failure inside (fun _ => terminal_of_lt_current) hard counted left
    rw [Sysmgr.TriedAfter, noInit, if_pos failed, ticked, Nat.zero_add,
      List.count_cons_of_ne (by simp)]
    exact tried
  · rw [if_neg late] at ticked
    have noFailure :
        ¬SysmgrTickRecord.Fails (sysmgrCurrent s)
          ⟨s, tick, (sysmgrTick s tick).2⟩ := by
      rw [ticked]
      rintro (⟨init, -⟩ | ⟨-, -, isLate⟩)
      · cases List.mem_singleton.mp init
      · exact late isLate
    rw [Sysmgr.TriedAfter, if_neg noFailure, ticked]
    exact .waiting initializing started polls counted left

/-- Every tick keeps the count. -/
theorem Sysmgr.Tried.tick
    {inits failures resets : Nat}
    (tried : s.Tried i inits failures resets)
    (hard : (s.table i).onExhausted ≠ .retryInplace)
    (retries : (s.table i).maxRetries ≠ 255)
    {tick : SysmgrTick}
    (fails : s.AttemptsFail i tick) :
    s.TriedAfter i inits failures resets tick := by
  by_cases other : i ≠ sysmgrCurrent s
  · obtain ⟨next, events, ticked, own⟩ := sysmgrTick_own s tick
    refine silent ?_ fun event member => ?_
    · rw [ticked]
      exact tried.frame other next
    · rw [ticked] at member
      rw [own event member]
      exact other.symm
  obtain rfl : i = sysmgrCurrent s := not_not.mp other
  have still (unchanged : sysmgrTick s tick = (s, [])) :
      s.TriedAfter (sysmgrCurrent s) inits failures resets tick := by
    refine silent ?_ ?_
    · rw [unchanged]
      exact tried
    · rw [unchanged]
      exact fun _ member => absurd member List.not_mem_nil
  rcases sysmgrTick_cases s tick with
    unchanged | ⟨inside, ⟨uninit, -, lost⟩ | ⟨begins, tries⟩ | ⟨waits, started, -⟩⟩
  · exact still unchanged
  · cases tried with
    | untried =>
        refine silent ?_ ?_
        · rw [lost]
          exact .cascaded (by rw [Sysmgr.set_rt_self])
        · rw [lost]
          exact fun _ member => absurd member List.not_mem_nil
    | absent outside => omega
    | cascaded degraded => rw [degraded] at uninit; cases uninit
    | due initializing => rw [initializing] at uninit; cases uninit
    | waiting initializing => rw [initializing] at uninit; cases uninit
    | givenUp _ given => exact absurd given.passed (Nat.lt_irrefl _)
  · cases tried with
    | untried _ none =>
        exact attempt inside hard retries none (Nat.zero_le _) tries fails
    | due _ _ counted left =>
        exact attempt inside hard retries counted left tries fails
    | absent outside => omega
    | cascaded degraded =>
        rw [degraded] at begins
        rcases begins with ⟨uninit, -⟩ | ⟨initializing, -⟩
        · cases uninit
        · cases initializing
    | waiting initializing started =>
        rw [initializing, started] at begins
        rcases begins with ⟨uninit, -⟩ | ⟨-, notStarted⟩
        · cases uninit
        · cases notStarted
    | givenUp _ given => exact absurd given.passed (Nat.lt_irrefl _)
  · cases tried with
    | waiting initializing started polls counted left =>
        exact poll inside hard initializing started polls counted left fails
    | untried uninit => rw [uninit] at waits; cases waits
    | absent outside => omega
    | cascaded degraded => rw [degraded] at waits; cases waits
    | due _ notStarted => rw [notStarted] at started; cases started
    | givenUp _ given => exact absurd given.passed (Nat.lt_irrefl _)

end OneTick

section Runs

variable {s : Sysmgr} {i : Nat}

theorem sysmgrTimes_append
    (event : SysmgrEvent)
    (first second : List SysmgrTickRecord) :
    sysmgrTimes event (first ++ second) =
      sysmgrTimes event first + sysmgrTimes event second := by
  rw [sysmgrTimes, List.flatMap_append, List.count_append, ← sysmgrTimes,
    ← sysmgrTimes]

/-- What one tick adds to a count. -/
theorem sysmgrTimes_one
    (event : SysmgrEvent)
    (record : SysmgrTickRecord) :
    sysmgrTimes event [record] = record.calls.count event := by
  simp [sysmgrTimes]

theorem sysmgrFailures_append
    (first second : List SysmgrTickRecord) :
    sysmgrFailures i (first ++ second) =
      sysmgrFailures i first + sysmgrFailures i second :=
  List.countP_append ..

/-- What one tick adds to the attempts that failed. -/
theorem sysmgrFailures_one
    (record : SysmgrTickRecord) :
    sysmgrFailures i [record] = if record.Fails i then 1 else 0 := by
  simp [sysmgrFailures, List.countP_singleton]

/-- The entry, whose policy ends it, and what was counted for it. -/
structure Sysmgr.Tries
    (s : Sysmgr)
    (i : Nat)
    (history : List SysmgrTickRecord) : Prop where
  hard : (s.table i).onExhausted ≠ .retryInplace
  retries : (s.table i).maxRetries ≠ 255
  tried :
    s.Tried i (sysmgrTimes (.init i) history) (sysmgrFailures i history)
      (sysmgrTimes (.reset i) history)

/-- A tick is recorded with the state before it. -/
theorem sysmgrRecordedTick_eq
    (s : Sysmgr)
    (tick : SysmgrTick) :
    sysmgrRecordedTick s tick =
      ((sysmgrTick s tick).1, [⟨s, tick, (sysmgrTick s tick).2⟩]) :=
  rfl

/-- A tick leaves the table as it is. -/
theorem sysmgrTick_table
    (s : Sysmgr)
    (tick : SysmgrTick) :
    (sysmgrTick s tick).1.table = s.table := by
  obtain ⟨next, events, ticked, -⟩ := sysmgrTick_own s tick
  rw [ticked]
  rfl

/-- Every recorded tick keeps the count. -/
theorem Sysmgr.Tries.step
    {history : List SysmgrTickRecord}
    {tick : SysmgrTick}
    (tries : s.Tries i history)
    (fails : s.AttemptsFail i tick) :
    (sysmgrRecordedTick s tick).1.Tries i
      (history ++ (sysmgrRecordedTick s tick).2) := by
  have tried := tries.tried.tick tries.hard tries.retries fails
  rw [sysmgrRecordedTick_eq]
  refine ⟨?_, ?_, ?_⟩
  · rw [sysmgrTick_table]
    exact tries.hard
  · rw [sysmgrTick_table]
    exact tries.retries
  · rw [sysmgrTimes_append, sysmgrTimes_append, sysmgrFailures_append,
      sysmgrTimes_one, sysmgrTimes_one, sysmgrFailures_one]
    exact tried

/-- What was counted is within the retries of the entry. -/
theorem Sysmgr.Tries.bounded
    {history : List SysmgrTickRecord}
    (tries : s.Tries i history) :
    s.Bounded i history := by
  obtain ⟨-, -, tried⟩ := tries
  generalize inits : sysmgrTimes (.init i) history = n at tried
  generalize failures : sysmgrFailures i history = failed at tried
  generalize resets : sysmgrTimes (.reset i) history = r at tried
  refine ⟨?_, ?_⟩
  · rw [inits]
    cases tried <;> omega
  · rw [failures, resets]
    intro all
    cases tried with
    | givenUp _ given => exact given
    | absent => omega
    | untried => omega
    | cascaded => omega
    | due => omega
    | waiting => omega

/-- `sysmgr_init` has tried no entry. -/
theorem sysmgrInit_tried
    (table : Nat → SysmgrResource)
    (count : Nat)
    (hasReset : Bool)
    (before : Nat → SysmgrRuntime)
    (i : Nat) :
    (sysmgrInit table count hasReset before).Tried i 0 0 0 := by
  by_cases inside : i < (sysmgrInit table count hasReset before).count
  · have fresh :
        (sysmgrInit table count hasReset before).rt i = sysmgrUntouched :=
      if_pos inside
    refine .untried ?_ ?_
    · rw [fresh]
      rfl
    · rw [fresh]
      rfl
  · exact .absent (Nat.not_lt.mp inside)

/-- An entry that is due, and that has more retries than can be counted. -/
structure Sysmgr.Retrying (s : Sysmgr) (i : Nat) : Prop where
  current : sysmgrCurrent s = i
  inside : i < s.count
  endless : (s.table i).maxRetries = 255
  due :
    (s.rt i).state = .uninit ∧ s.DepsReady i ∨
      (s.rt i).state = .initializing ∧ (s.rt i).pollStarted = false

/-- The current entry stays current while it is not terminal. -/
theorem sysmgrCurrent_set
    (inside : sysmgrCurrent s < s.count)
    {next : SysmgrRuntime}
    (pending : sysmgrIsTerminal next.state = false) :
    sysmgrCurrent (s.set (sysmgrCurrent s) next) = sysmgrCurrent s := by
  refine Nat.le_antisymm (find_range_le ?_) (Nat.not_lt.mp fun earlier => ?_)
  · rw [Sysmgr.set_rt_self, pending]
    rfl
  · have stillInside :
        sysmgrCurrent (s.set (sysmgrCurrent s) next) <
          (s.set (sysmgrCurrent s) next).count :=
      Nat.lt_trans earlier inside
    have notEnded := current_not_terminal stillInside
    rw [Sysmgr.set_rt_of_ne (Nat.ne_of_lt earlier),
      terminal_of_lt_current earlier] at notEnded
    cases notEnded

/-- `attempts` is less than 256 whatever it counts. -/
theorem Sysmgr.Retrying.attempt
    (retrying : s.Retrying i)
    {tick : SysmgrTick}
    (refused : tick.initRc ≠ 0) :
    sysmgrTick s tick =
      (s.set i
        { s.rt i with
          attempts := (s.rt i).attempts + 1
          startedMs := tick.nowMs
          state := .initializing
          pollStarted := false }, [.init i]) := by
  obtain ⟨rfl, inside, endless, due⟩ := retrying
  have again :
      ((s.rt (sysmgrCurrent s)).attempts + 1).toNat <
        (s.table (sysmgrCurrent s)).maxRetries.toNat + 1 := by
    rw [endless]
    exact UInt8.toNat_lt _
  have attempt : sysmgrTick s tick = sysmgrAttemptInit s (sysmgrCurrent s) tick := by
    rcases due with ⟨uninit, ready⟩ | ⟨initializing, notStarted⟩
    · simp [sysmgrTick, Nat.not_le.mpr inside, uninit,
        sysmgrDepsSatisfied_iff.mpr ready]
    · simp [sysmgrTick, Nat.not_le.mpr inside, initializing, notStarted]
  rw [attempt, sysmgrAttemptInit]
  simp only [if_neg refused, sysmgrHandleFailure, Sysmgr.set_rt_self,
    Sysmgr.set_table, if_pos again, Sysmgr.set_set]

/-- After a refused attempt the entry is due again. -/
theorem Sysmgr.Retrying.step
    (retrying : s.Retrying i)
    {tick : SysmgrTick}
    (refused : tick.initRc ≠ 0) :
    (sysmgrTick s tick).1.Retrying i ∧ (sysmgrTick s tick).2 = [.init i] := by
  rw [retrying.attempt refused]
  obtain ⟨rfl, inside, endless, -⟩ := retrying
  refine ⟨⟨sysmgrCurrent_set inside rfl, inside, endless, Or.inr ?_⟩, rfl⟩
  rw [Sysmgr.set_rt_self]
  exact ⟨rfl, rfl⟩

/-- It is not given up, although as many attempts as it has have failed. -/
theorem Sysmgr.Retrying.not_bounded
    (retrying : s.Retrying i)
    {history : List SysmgrTickRecord}
    (all : 256 ≤ sysmgrFailures i history) :
    ¬s.Bounded i history := by
  intro bounded
  have limit : (s.table i).maxRetries.toNat + 1 = 256 := by
    rw [retrying.endless]
    rfl
  have passed := (bounded.exhausted (by rw [limit]; exact all)).passed
  rw [retrying.current] at passed
  exact Nat.lt_irrefl i passed

/-- It is tried at every tick, for as long as the ticks come. -/
theorem Sysmgr.Retrying.run
    (retrying : s.Retrying i)
    {ticks : List SysmgrTick}
    (refused : ∀ tick ∈ ticks, tick.initRc ≠ 0) :
    (Machine.final sysmgrRecordedTick s ticks).Retrying i ∧
      Machine.Allowed sysmgrRecordedTick (Sysmgr.AttemptsFail i) s ticks ∧
      sysmgrTimes (.init i) (Machine.trace sysmgrRecordedTick s ticks) =
        ticks.length ∧
      sysmgrFailures i (Machine.trace sysmgrRecordedTick s ticks) =
        ticks.length := by
  induction ticks generalizing s with
  | nil =>
      exact ⟨retrying, trivial, rfl, rfl⟩
  | cons tick rest inductionHypothesis =>
      have now := refused tick List.mem_cons_self
      obtain ⟨next, called⟩ := retrying.step now
      obtain ⟨last, allowed, inits, failures⟩ :=
        inductionHypothesis next fun later member =>
          refused later (List.mem_cons_of_mem tick member)
      have fails : s.AttemptsFail i tick := by
        refine ⟨fun _ accepted => absurd accepted now, fun polled => ?_⟩
        rw [called] at polled
        cases List.mem_singleton.mp polled
      have failed : SysmgrTickRecord.Fails i ⟨s, tick, (sysmgrTick s tick).2⟩ := by
        refine Or.inl ⟨?_, now⟩
        rw [called]
        exact List.mem_singleton_self _
      refine ⟨last, ⟨fails, allowed⟩, ?_, ?_⟩
      · have once : (sysmgrTick s tick).2.count (.init i) = 1 := by
          rw [called]
          exact List.count_singleton_self
        rw [Machine.trace_cons, sysmgrRecordedTick_eq, sysmgrTimes_append,
          inits, sysmgrTimes_one, once]
        exact Nat.add_comm ..
      · rw [Machine.trace_cons, sysmgrRecordedTick_eq, sysmgrFailures_append,
          failures, sysmgrFailures_one, if_pos failed]
        exact Nat.add_comm ..

end Runs

section BringUp

variable (policy : SysmgrFailPolicy)

/-- A resource without dependencies that has as many retries as there can be. -/
def mostRetries : SysmgrResource :=
  { id := 0
    deps := []
    hasPollReady := false
    initTimeoutMs := 0
    maxRetries := 255
    onExhausted := policy }

/-- That resource, alone in the table. -/
def mostRetriesInit : Sysmgr :=
  sysmgrInit (fun _ => mostRetries policy) 1 true fun _ => sysmgrUntouched

/-- A tick at which `init` is refused. -/
def refusedTick : SysmgrTick :=
  { nowMs := 0, initRc := 1, pollRc := 1 }

/-- It is due at the first tick. -/
theorem mostRetriesInit_retrying :
    (mostRetriesInit policy).Retrying 0 where
  current := rfl
  inside := Nat.one_pos
  endless := rfl
  due := Or.inl ⟨rfl, fun _ member => absurd member List.not_mem_nil⟩

/-- It is due again after any number of refused attempts. -/
theorem mostRetriesInit_run
    (n : Nat) :
    let ticks := List.replicate n refusedTick
    (Machine.final sysmgrRecordedTick (mostRetriesInit policy) ticks).Retrying
        0 ∧
      Machine.Allowed sysmgrRecordedTick (Sysmgr.AttemptsFail 0)
        (mostRetriesInit policy) ticks ∧
      sysmgrTimes (.init 0)
          (Machine.trace sysmgrRecordedTick (mostRetriesInit policy) ticks) =
        n ∧
      sysmgrFailures 0
          (Machine.trace sysmgrRecordedTick (mostRetriesInit policy) ticks) =
        n := by
  intro ticks
  have refused : ∀ tick ∈ ticks, tick.initRc ≠ 0 := by
    intro tick member
    rw [List.eq_of_mem_replicate member]
    decide
  have run := (mostRetriesInit_retrying policy).run refused
  rw [List.length_replicate] at run
  exact run

/--
A resource whose attempts all fail is given up after its retries, in every table
and at every pace of the clock, exactly when it has fewer than 255 of them.
-/
theorem attempts_are_bounded_iff
    {policy : SysmgrFailPolicy}
    (hard : policy ≠ .retryInplace)
    (maxRetries : UInt8) :
    (∀ table count hasReset before i ticks,
      i < count →
        (table i).onExhausted = policy →
          (table i).maxRetries = maxRetries →
            let s := sysmgrInit table count hasReset before
            Machine.Allowed sysmgrRecordedTick (Sysmgr.AttemptsFail i) s ticks →
              (Machine.final sysmgrRecordedTick s ticks).Bounded i
                (Machine.trace sysmgrRecordedTick s ticks)) ↔
      maxRetries ≠ 255 := by
  constructor
  · rintro bounded rfl
    obtain ⟨retrying, allowed, -, failures⟩ := mostRetriesInit_run policy 256
    refine retrying.not_bounded (Nat.le_of_eq failures.symm) ?_
    exact
      bounded (fun _ => mostRetries policy) 1 true (fun _ => sysmgrUntouched) 0
        _ Nat.one_pos rfl rfl allowed
  · intro retries table count hasReset before i ticks _ isPolicy isMax s allowed
    have start : s.Tries i [] := by
      refine ⟨?_, ?_, sysmgrInit_tried table count hasReset before i⟩
      · exact isPolicy.trans_ne hard
      · exact isMax.trans_ne retries
    have preserved :
        ∀ (s : Sysmgr) (history : List SysmgrTickRecord) (tick : SysmgrTick),
          s.Tries i history →
            s.AttemptsFail i tick →
              (sysmgrRecordedTick s tick).1.Tries i
                (history ++ (sysmgrRecordedTick s tick).2) :=
      fun _ _ _ => Sysmgr.Tries.step
    exact (Machine.invariant_of_start preserved start allowed).bounded

/-- A resource that is to be tried twice is given up after two attempts. -/
theorem tried_twice_is_bounded :
    let table : Nat → SysmgrResource := fun _ =>
      { mostRetries .degrade with maxRetries := 1 }
    let s := sysmgrInit table 1 true fun _ => sysmgrUntouched
    (Machine.final sysmgrRecordedTick s [refusedTick, refusedTick]).Bounded 0
      (Machine.trace sysmgrRecordedTick s [refusedTick, refusedTick]) := by
  intro table s
  have hard : SysmgrFailPolicy.degrade ≠ .retryInplace := by decide
  refine
    (attempts_are_bounded_iff hard 1).mpr (by decide) table 1 true
      (fun _ => sysmgrUntouched) 0 [refusedTick, refusedTick] Nat.one_pos rfl rfl
      ⟨⟨?_, ?_⟩, ⟨?_, ?_⟩, trivial⟩
  all_goals decide

/-- With 255 retries there is a 257th attempt, and the resource is not ended. -/
theorem most_retries_are_endless :
    let s := mostRetriesInit .degrade
    let ticks := List.replicate 257 refusedTick
    Machine.Allowed sysmgrRecordedTick (Sysmgr.AttemptsFail 0) s ticks ∧
      sysmgrTimes (.init 0) (Machine.trace sysmgrRecordedTick s ticks) = 257 ∧
      sysmgrCurrent (Machine.final sysmgrRecordedTick s ticks) = 0 ∧
      ¬(Machine.final sysmgrRecordedTick s ticks).Bounded 0
          (Machine.trace sysmgrRecordedTick s ticks) := by
  intro s ticks
  obtain ⟨retrying, allowed, inits, failures⟩ := mostRetriesInit_run .degrade 257
  refine ⟨allowed, inits, retrying.current, retrying.not_bounded ?_⟩
  rw [failures]
  exact Nat.le_succ 256

end BringUp

end TraveoBodyDomain
