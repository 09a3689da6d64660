import TraveoBodyDomain.SysMgr.Attempts

/-!
# Bring-up ends

No callback can hold bring-up for ever: `init` is called a limited number of
times, and `poll_ready` for a limited time.  `SysmgrOwes` bounds how many ticks an
entry still takes once its turn has come; every tick takes one off that bound.
-/

namespace TraveoBodyDomain

/-- How many ticks the first `n` entries may take. -/
def sysmgrBudget
    (table : Nat → SysmgrResource)
    (patience : Nat → Nat) : Nat → Nat
  | 0 => 0
  | i + 1 =>
      sysmgrBudget table patience i +
        ((table i).maxRetries.toNat + 1) * (patience i + 1)

/--
An entry that is polled has a timeout, and the ticks are so far apart that it
passes within `patience` of them.
-/
def SysmgrPaced
    (table : Nat → SysmgrResource)
    (count : Nat)
    (patience : Nat → Nat)
    (ticks : Nat → SysmgrTick) : Prop :=
  ∀ i < count,
    (table i).hasPollReady = true →
      (table i).initTimeoutMs ≠ 0 ∧
        ∀ k,
          (table i).initTimeoutMs ≤
            (ticks (k + patience i)).nowMs - (ticks k).nowMs

/-- No attempt fails in the tick. -/
def Sysmgr.Undisturbed (s : Sysmgr) (tick : SysmgrTick) : Prop :=
  ∀ i, ¬SysmgrTickRecord.Fails i ⟨s, tick, (sysmgrTick s tick).2⟩

/-- The entries whose `init` was called, in order. -/
def sysmgrInits (calls : List SysmgrEvent) : List Nat :=
  calls.filterMap fun call =>
    match call with
    | .init i => some i
    | .pollReady _ => none
    | .reset _ => none

theorem sysmgrInits_append
    (first second : List SysmgrEvent) :
    sysmgrInits (first ++ second) = sysmgrInits first ++ sysmgrInits second :=
  List.filterMap_append

/-- Before tick `k` an entry is at most `m` ticks of its own from being settled. -/
inductive SysmgrOwes
    (ticks : Nat → SysmgrTick)
    (r : SysmgrResource)
    (patience k m : Nat)
    (runtime : SysmgrRuntime) : Prop
  | ended
      (terminal : sysmgrIsTerminal runtime.state = true)
  | due
      (left : Nat)
      (begins :
        runtime.state = .uninit ∨
          runtime.state = .initializing ∧ runtime.pollStarted = false)
      (counted : runtime.attempts.toNat + left = r.maxRetries.toNat)
      (enough : (left + 1) * (patience + 1) ≤ m)
  | waiting
      (left more since : Nat)
      (initializing : runtime.state = .initializing)
      (started : runtime.pollStarted = true)
      (polls : r.hasPollReady = true)
      (counted : runtime.attempts.toNat + left = r.maxRetries.toNat + 1)
      (stamped : runtime.startedMs = (ticks since).nowMs)
      (expires : k + more = since + patience)
      (enough : left * (patience + 1) + more + 1 ≤ m)

section OneTick

variable
  {s : Sysmgr}
  {i : Nat}
  {ticks : Nat → SysmgrTick}
  {patience k m : Nat}

/-- An entry that owes nothing is settled. -/
theorem SysmgrOwes.terminal_of_zero
    {r : SysmgrResource}
    {runtime : SysmgrRuntime}
    (owes : SysmgrOwes ticks r patience k 0 runtime) :
    sysmgrIsTerminal runtime.state = true := by
  cases owes with
  | ended terminal => exact terminal
  | due left _ _ enough =>
      have positive := Nat.mul_pos (Nat.succ_pos left) (Nat.succ_pos patience)
      exact absurd (Nat.lt_of_lt_of_le positive enough) (Nat.lt_irrefl 0)
  | waiting _ _ _ _ _ _ _ _ _ enough => exact absurd enough (Nat.not_succ_le_zero _)

/-- An entry that owes less than it may. -/
theorem SysmgrOwes.weaken
    {r : SysmgrResource}
    {runtime : SysmgrRuntime}
    {n : Nat}
    (owes : SysmgrOwes ticks r patience k m runtime)
    (atMost : m ≤ n) :
    SysmgrOwes ticks r patience k n runtime := by
  cases owes with
  | ended terminal =>
      exact .ended terminal
  | due left begins counted enough =>
      exact .due left begins counted (Nat.le_trans enough atMost)
  | waiting left more since initializing started polls counted stamped expires
      enough =>
      exact
        .waiting left more since initializing started polls counted stamped expires
          (Nat.le_trans enough atMost)

/-- What an entry that is not begun owes does not depend on the tick. -/
theorem SysmgrOwes.untouched_later
    {r : SysmgrResource}
    {n : Nat}
    (owes : SysmgrOwes ticks r patience k m sysmgrUntouched) :
    SysmgrOwes ticks r patience n m sysmgrUntouched := by
  cases owes with
  | ended terminal => cases terminal
  | due left begins counted enough => exact .due left begins counted enough
  | waiting _ _ _ initializing => cases initializing

/-- An entry that is not begun owes all its attempts. -/
theorem SysmgrOwes.of_untouched
    (r : SysmgrResource)
    (k : Nat) :
    SysmgrOwes ticks r patience k
      ((r.maxRetries.toNat + 1) * (patience + 1)) sysmgrUntouched :=
  .due r.maxRetries.toNat (Or.inl rfl) (Nat.zero_add _) (Nat.le_refl _)

/-- A dependency that is not READY is lost, when all earlier entries are settled. -/
theorem Sysmgr.depsReady_or_depLost
    (earlier : SysmgrDepsEarlier s.table s.count)
    (inside : sysmgrCurrent s < s.count) :
    s.DepsReady (sysmgrCurrent s) ∨ s.DepLost (sysmgrCurrent s) := by
  by_contra neither
  obtain ⟨notReady, notLost⟩ := not_or.mp neither
  refine notReady fun dep member => ?_
  obtain ⟨j, before, named⟩ := earlier _ inside dep member
  have found : sysmgrFindIndex s dep ≤ j := find_range_le (by simp [named])
  have settled :
      sysmgrIsTerminal (s.rt (sysmgrFindIndex s dep)).state = true :=
    terminal_of_lt_current (Nat.lt_of_le_of_lt found before)
  have state : sysmgrResState s dep = (s.rt (sysmgrFindIndex s dep)).state :=
    if_pos (Nat.lt_trans (Nat.lt_of_le_of_lt found before) inside)
  cases outcome : (s.rt (sysmgrFindIndex s dep)).state with
  | ready => exact state.trans outcome
  | degraded => exact absurd ⟨dep, member, Or.inl (state.trans outcome)⟩ notLost
  | failed => exact absurd ⟨dep, member, Or.inr (state.trans outcome)⟩ notLost
  | uninit => rw [outcome] at settled; cases settled
  | initializing => rw [outcome] at settled; cases settled

/-- A tick that comes to an entry that is due gives it up, or tries it. -/
theorem sysmgrTick_due
    (earlier : SysmgrDepsEarlier s.table s.count)
    (inside : sysmgrCurrent s < s.count)
    (begins :
      (s.rt (sysmgrCurrent s)).state = .uninit ∨
        (s.rt (sysmgrCurrent s)).state = .initializing ∧
          (s.rt (sysmgrCurrent s)).pollStarted = false)
    (tick : SysmgrTick) :
    s.DepLost (sysmgrCurrent s) ∧
        sysmgrTick s tick =
          (s.set (sysmgrCurrent s)
            { s.rt (sysmgrCurrent s) with state := .degraded }, []) ∨
      sysmgrTick s tick = sysmgrAttemptInit s (sysmgrCurrent s) tick := by
  rcases begins with uninit | ⟨initializing, notStarted⟩
  · rcases Sysmgr.depsReady_or_depLost earlier inside with ready | lost
    · right
      simp [sysmgrTick, Nat.not_le.mpr inside, uninit,
        sysmgrDepsSatisfied_iff.mpr ready]
    · exact Or.inl ⟨lost, sysmgrTick_cascade inside uninit lost tick⟩
  · right
    simp [sysmgrTick, Nat.not_le.mpr inside, initializing, notStarted]

/-- An `init` that is accepted leaves the entry READY, or to be polled. -/
theorem sysmgrAttemptInit_accepted
    {tick : SysmgrTick}
    (accepted : tick.initRc = 0) :
    ∃ next,
      sysmgrAttemptInit s i tick = (s.set i next, [.init i]) ∧
        (next.state = .ready ∨
          next.state = .initializing ∧
            next.pollStarted = true ∧ (s.table i).hasPollReady = true) := by
  unfold sysmgrAttemptInit
  simp only [if_pos accepted, Sysmgr.set_set]
  by_cases polls : (s.table i).hasPollReady = true
  · exact ⟨_, if_pos polls, Or.inr ⟨rfl, rfl, polls⟩⟩
  · exact ⟨_, if_neg polls, Or.inl rfl⟩

/-- A tick that finds the current entry ready. -/
theorem sysmgrTick_polled
    (inside : sysmgrCurrent s < s.count)
    (initializing : (s.rt (sysmgrCurrent s)).state = .initializing)
    (started : (s.rt (sysmgrCurrent s)).pollStarted = true)
    (polls : (s.table (sysmgrCurrent s)).hasPollReady = true)
    {tick : SysmgrTick}
    (ready : tick.pollRc = 0) :
    sysmgrTick s tick =
      (s.set (sysmgrCurrent s)
        { s.rt (sysmgrCurrent s) with state := .ready },
        [.pollReady (sysmgrCurrent s)]) := by
  simp [sysmgrTick, Nat.not_le.mpr inside, initializing, started, polls, ready]

/-- A failed attempt leaves an entry settled, or with a retry that is due. -/
theorem sysmgrHandleFailure_owes
    (hard : (s.table i).onExhausted ≠ .retryInplace)
    {left : Nat}
    (counted :
      (s.rt i).attempts.toNat + left = (s.table i).maxRetries.toNat + 1)
    (enough : left * (patience + 1) ≤ m) :
    SysmgrOwes ticks (s.table i) patience k m
      ((sysmgrHandleFailure s i).1.rt i) := by
  unfold sysmgrHandleFailure
  by_cases again :
      (s.rt i).attempts.toNat < (s.table i).maxRetries.toNat + 1
  · simp only [if_pos again, Sysmgr.set_rt_self]
    obtain ⟨fewer, rfl⟩ : ∃ fewer, left = fewer + 1 :=
      Nat.exists_eq_succ_of_ne_zero (by omega)
    exact .due fewer (Or.inr ⟨rfl, rfl⟩) (Nat.succ.inj counted) enough
  · simp only [if_neg again]
    cases policy : (s.table i).onExhausted with
    | retryInplace => exact absurd policy hard
    | systemReset =>
        refine .ended ?_
        rw [Sysmgr.set_rt_self]
        rfl
    | degrade =>
        refine .ended ?_
        rw [Sysmgr.set_rt_self]
        rfl

/-- An attempt takes one tick off what the entry owes. -/
theorem sysmgrAttemptInit_owes
    (hard : (s.table i).onExhausted ≠ .retryInplace)
    (retries : (s.table i).maxRetries.toNat < 255)
    {left : Nat}
    (counted : (s.rt i).attempts.toNat + left = (s.table i).maxRetries.toNat)
    (enough : (left + 1) * (patience + 1) ≤ m + 1)
    (waits : (s.table i).hasPollReady = true → 0 < patience) :
    SysmgrOwes ticks (s.table i) patience (k + 1) m
      ((sysmgrAttemptInit s i (ticks k)).1.rt i) := by
  have oneMore :
      ((s.rt i).attempts + 1).toNat = (s.rt i).attempts.toNat + 1 := by
    rw [UInt8.toNat_add]
    refine Nat.mod_eq_of_lt ?_
    show (s.rt i).attempts.toNat + 1 < 256
    omega
  have recounted :
      ((s.rt i).attempts + 1).toNat + left = (s.table i).maxRetries.toNat + 1 := by
    omega
  have rest : left * (patience + 1) + patience ≤ m := by
    rw [Nat.succ_mul] at enough
    exact Nat.le_of_succ_le_succ enough
  unfold sysmgrAttemptInit
  by_cases accepted : (ticks k).initRc = 0
  · simp only [if_pos accepted, Sysmgr.set_set]
    by_cases polls : (s.table i).hasPollReady = true
    · -- the time this attempt has runs from tick `k`
      have positive := waits polls
      simp only [if_pos polls, Sysmgr.set_rt_self]
      exact
        .waiting left (patience - 1) k rfl rfl polls recounted rfl (by omega)
          (by omega)
    · simp only [if_neg polls, Sysmgr.set_rt_self]
      exact .ended rfl
  · simp only [if_neg accepted]
    generalize attempting :
      s.set i
        { s.rt i with
          attempts := (s.rt i).attempts + 1
          startedMs := (ticks k).nowMs } = attempted
    have sameTable : attempted.table = s.table := by rw [← attempting]; rfl
    rw [← sameTable]
    refine sysmgrHandleFailure_owes ?_ ?_ (Nat.le_of_add_right_le rest)
    · rw [sameTable]
      exact hard
    · rw [sameTable, ← attempting, Sysmgr.set_rt_self]
      exact recounted

/-- A poll takes one tick off what the entry owes. -/
theorem sysmgrTick_waiting_owes
    (hard : (s.table (sysmgrCurrent s)).onExhausted ≠ .retryInplace)
    (inside : sysmgrCurrent s < s.count)
    (limited : (s.table (sysmgrCurrent s)).initTimeoutMs ≠ 0)
    (paced :
      ∀ k,
        (s.table (sysmgrCurrent s)).initTimeoutMs ≤
          (ticks (k + patience)).nowMs - (ticks k).nowMs)
    {left more since : Nat}
    (initializing : (s.rt (sysmgrCurrent s)).state = .initializing)
    (started : (s.rt (sysmgrCurrent s)).pollStarted = true)
    (polls : (s.table (sysmgrCurrent s)).hasPollReady = true)
    (counted :
      (s.rt (sysmgrCurrent s)).attempts.toNat + left =
        (s.table (sysmgrCurrent s)).maxRetries.toNat + 1)
    (stamped :
      (s.rt (sysmgrCurrent s)).startedMs = (ticks since).nowMs)
    (expires : k + more = since + patience)
    (enough : left * (patience + 1) + more ≤ m) :
    SysmgrOwes ticks (s.table (sysmgrCurrent s)) patience (k + 1) m
      ((sysmgrTick s (ticks k)).1.rt (sysmgrCurrent s)) := by
  by_cases ready : (ticks k).pollRc = 0
  · rw [sysmgrTick_polled inside initializing started polls ready,
      Sysmgr.set_rt_self]
    exact .ended rfl
  rw [(sysmgrTick_polls inside initializing started polls (ticks k)).2 ready]
  by_cases late : s.Late (sysmgrCurrent s) (ticks k).nowMs
  · rw [if_pos late]
    exact sysmgrHandleFailure_owes hard counted (Nat.le_of_add_right_le enough)
  · rw [if_neg late]
    cases more with
    | zero =>
        have expired : k = since + patience := expires
        refine absurd ⟨limited, ?_⟩ late
        rw [stamped, expired]
        exact paced since
    | succ fewer =>
        refine
          .waiting left fewer since initializing started polls counted stamped ?_
            enough
        rw [← expires, Nat.add_assoc, Nat.add_comm 1]

/-- A tick takes one off what the current entry owes. -/
theorem Sysmgr.Sequential.owes_less
    {calls : List SysmgrEvent}
    (sequential : s.Sequential calls)
    (hard : ∀ i < s.count, (s.table i).onExhausted ≠ .retryInplace)
    {patience : Nat → Nat}
    (paced : SysmgrPaced s.table s.count patience ticks)
    (inside : sysmgrCurrent s < s.count)
    (owes :
      SysmgrOwes ticks (s.table (sysmgrCurrent s))
        (patience (sysmgrCurrent s)) k (m + 1) (s.rt (sysmgrCurrent s))) :
    SysmgrOwes ticks (s.table (sysmgrCurrent s)) (patience (sysmgrCurrent s))
      (k + 1) m ((sysmgrTick s (ticks k)).1.rt (sysmgrCurrent s)) := by
  cases owes with
  | ended terminal =>
      rw [current_not_terminal inside] at terminal
      cases terminal
  | due left begins counted enough =>
      rcases sysmgrTick_due sequential.earlier inside begins (ticks k) with
        ⟨-, cascade⟩ | attempt
      · rw [cascade, Sysmgr.set_rt_self]
        exact .ended rfl
      · rw [attempt]
        refine
          sysmgrAttemptInit_owes (hard _ inside) (sequential.retries _ inside)
            counted enough fun polls => ?_
        -- no time passes from a tick to itself
        obtain ⟨limited, apart⟩ := paced _ inside polls
        refine Nat.pos_of_ne_zero fun none => limited ?_
        have nothing := apart 0
        rw [none, Nat.add_zero, UInt32.sub_self] at nothing
        exact UInt32.le_zero_iff.mp nothing
  | waiting left more since initializing started polls counted stamped expires
      enough =>
      obtain ⟨limited, apart⟩ := paced _ inside polls
      exact
        sysmgrTick_waiting_owes (hard _ inside) inside limited apart initializing
          started polls counted stamped expires (Nat.le_of_succ_le_succ enough)

/-- No tick adds to what an entry owes. -/
theorem Sysmgr.Sequential.owes_kept
    {calls : List SysmgrEvent}
    (sequential : s.Sequential calls)
    (hard : ∀ i < s.count, (s.table i).onExhausted ≠ .retryInplace)
    {patience : Nat → Nat}
    (paced : SysmgrPaced s.table s.count patience ticks)
    (inside : i < s.count)
    (owes : SysmgrOwes ticks (s.table i) (patience i) k m (s.rt i)) :
    SysmgrOwes ticks (s.table i) (patience i) (k + 1) m
      ((sysmgrTick s (ticks k)).1.rt i) := by
  have keep (other : i ≠ sysmgrCurrent s) :
      (sysmgrTick s (ticks k)).1.rt i = s.rt i := by
    obtain ⟨next, events, ticked, -⟩ := sysmgrTick_own s (ticks k)
    rw [ticked]
    exact Sysmgr.set_rt_of_ne other next
  rcases Nat.lt_trichotomy i (sysmgrCurrent s) with before | rfl | after
  · rw [keep (Nat.ne_of_lt before)]
    exact .ended (terminal_of_lt_current before)
  · cases m with
    | zero =>
        have pending := current_not_terminal inside
        rw [owes.terminal_of_zero] at pending
        cases pending
    | succ m =>
        exact (sequential.owes_less hard paced inside owes).weaken
          (Nat.le_succ m)
  · have fresh : s.rt i = sysmgrUntouched :=
      sequential.inOrder _ i after inside
        (current_not_terminal (Nat.lt_trans after inside))
    rw [keep (Nat.ne_of_gt after)]
    rw [fresh] at owes ⊢
    exact owes.untouched_later

end OneTick

/-- Every entry so far is READY, and their `init` was called once, in order. -/
structure Sysmgr.AllUp (s : Sysmgr) (calls : List SysmgrEvent) : Prop where
  sequential : s.Sequential calls
  up : ∀ i < sysmgrCurrent s, (s.rt i).state = .ready
  begun :
    (sysmgrCurrent s < s.count → s.rt (sysmgrCurrent s) = sysmgrUntouched) ∧
        sysmgrInits calls = List.range (sysmgrCurrent s) ∨
      sysmgrCurrent s < s.count ∧
        (s.rt (sysmgrCurrent s)).state = .initializing ∧
        (s.rt (sysmgrCurrent s)).pollStarted = true ∧
        (s.table (sysmgrCurrent s)).hasPollReady = true ∧
        sysmgrInits calls = List.range (sysmgrCurrent s + 1)

namespace Sysmgr.AllUp

variable {s : Sysmgr} {calls : List SysmgrEvent}

/-- No dependency of the current entry is lost. -/
theorem not_lost
    (all : s.AllUp calls)
    (inside : sysmgrCurrent s < s.count) :
    ¬s.DepLost (sysmgrCurrent s) := by
  rintro ⟨dep, member, lost⟩
  obtain ⟨j, earlier, named⟩ := all.sequential.earlier _ inside dep member
  have found : sysmgrFindIndex s dep ≤ j := find_range_le (by simp [named])
  have passed := Nat.lt_of_le_of_lt found earlier
  have state : sysmgrResState s dep = .ready :=
    (if_pos (Nat.lt_trans passed inside)).trans (all.up _ passed)
  rw [state] at lost
  rcases lost with degraded | failed
  · cases degraded
  · cases failed

/-- When the current entry becomes READY, the next one is current. -/
theorem passes
    (all : s.AllUp calls)
    (inside : sysmgrCurrent s < s.count)
    {next : SysmgrRuntime}
    {events : List SysmgrEvent}
    (sequential : (s.set (sysmgrCurrent s) next).Sequential (calls ++ events))
    (ready : next.state = .ready)
    (inits :
      sysmgrInits (calls ++ events) = List.range (sysmgrCurrent s + 1)) :
    (s.set (sysmgrCurrent s) next).AllUp (calls ++ events) := by
  have fresh (more : sysmgrCurrent s + 1 < s.count) :
      (s.set (sysmgrCurrent s) next).rt (sysmgrCurrent s + 1) =
        sysmgrUntouched := by
    rw [Sysmgr.set_rt_of_ne (Nat.succ_ne_self _)]
    exact
      all.sequential.inOrder _ _ (Nat.lt_succ_self _) more
        (current_not_terminal inside)
  have passed : sysmgrCurrent s < sysmgrCurrent (s.set (sysmgrCurrent s) next) :=
    Sysmgr.passed_of_set inside (fun _ => terminal_of_lt_current)
      (by rw [ready]; rfl)
  have notBeyond :
      sysmgrCurrent (s.set (sysmgrCurrent s) next) ≤ sysmgrCurrent s + 1 := by
    rcases Nat.lt_or_eq_of_le (Nat.succ_le_of_lt inside) with more | last
    · exact find_range_le (by rw [fresh more]; rfl)
    · exact Nat.le_trans (find_range_spec _ _).1 (Nat.le_of_eq last.symm)
  have isNext :
      sysmgrCurrent (s.set (sysmgrCurrent s) next) = sysmgrCurrent s + 1 :=
    Nat.le_antisymm notBeyond passed
  refine ⟨sequential, ?_, Or.inl ⟨?_, ?_⟩⟩
  · intro i earlier
    rw [isNext] at earlier
    rcases Nat.lt_or_eq_of_le (Nat.le_of_lt_succ earlier) with before | rfl
    · rw [Sysmgr.set_rt_of_ne (Nat.ne_of_lt before)]
      exact all.up i before
    · rw [Sysmgr.set_rt_self]
      exact ready
  · rw [isNext]
    exact fresh
  · rw [isNext]
    exact inits

/-- Before the first tick no entry is begun. -/
theorem start
    (sequential : s.Sequential [])
    (fresh : ∀ i < s.count, s.rt i = sysmgrUntouched) :
    s.AllUp [] := by
  have first : sysmgrCurrent s = 0 := by
    by_contra later
    have positive := Nat.pos_of_ne_zero later
    have terminal := terminal_of_lt_current positive
    have inside := Nat.lt_of_lt_of_le positive (find_range_spec s.count _).1
    rw [fresh 0 inside] at terminal
    cases terminal
  refine ⟨sequential, ?_, Or.inl ⟨fresh _, ?_⟩⟩
  · rw [first]
    exact fun i impossible => absurd impossible (Nat.not_lt_zero i)
  · rw [first]
    rfl

/-- A tick in which no attempt fails. -/
theorem step
    {tick : SysmgrTick}
    (all : s.AllUp calls)
    (undisturbed : s.Undisturbed tick) :
    (sysmgrTick s tick).1.AllUp (calls ++ (sysmgrTick s tick).2) := by
  have sequential := all.sequential.step tick
  by_cases settled : s.count ≤ sysmgrCurrent s
  · have still : sysmgrTick s tick = (s, []) := by
      simp only [sysmgrTick, if_pos settled]
    rw [still, List.append_nil]
    exact all
  have inside : sysmgrCurrent s < s.count := Nat.not_le.mp settled
  have works := undisturbed (sysmgrCurrent s)
  rcases all.begun with ⟨fresh, inits⟩ | ⟨-, initializing, started, polls, inits⟩
  · have uninit : (s.rt (sysmgrCurrent s)).state = .uninit := by
      rw [fresh inside]
      rfl
    rcases sysmgrTick_due all.sequential.earlier inside (Or.inl uninit) tick with
      ⟨lost, -⟩ | attempt
    · exact absurd lost (all.not_lost inside)
    have accepted : tick.initRc = 0 := by
      by_contra refused
      obtain ⟨next, resets, attempted, -⟩ :=
        sysmgrAttemptInit_own s (sysmgrCurrent s) tick
      refine works (Or.inl ⟨?_, refused⟩)
      rw [attempt, attempted]
      exact List.mem_cons_self
    have oneMore :
        sysmgrInits (calls ++ [.init (sysmgrCurrent s)]) =
          List.range (sysmgrCurrent s + 1) := by
      rw [sysmgrInits_append, inits, List.range_succ]
      rfl
    obtain ⟨next, begun, outcome⟩ :=
      @sysmgrAttemptInit_accepted s (sysmgrCurrent s) tick accepted
    rw [attempt, begun] at sequential ⊢
    rcases outcome with ready | ⟨initializing, started, polls⟩
    · exact all.passes inside sequential ready oneMore
    · have same : sysmgrCurrent (s.set (sysmgrCurrent s) next) = sysmgrCurrent s :=
        sysmgrCurrent_set inside (by rw [initializing]; rfl)
      refine ⟨sequential, ?_, Or.inr ?_⟩
      · rw [same]
        intro i before
        rw [Sysmgr.set_rt_of_ne (Nat.ne_of_lt before)]
        exact all.up i before
      · rw [same, Sysmgr.set_rt_self]
        exact ⟨inside, initializing, started, polls, oneMore⟩
  · have noInit :
        sysmgrInits (calls ++ [.pollReady (sysmgrCurrent s)]) =
          List.range (sysmgrCurrent s + 1) := by
      rw [sysmgrInits_append, inits]
      exact List.append_nil _
    by_cases ready : tick.pollRc = 0
    · rw [sysmgrTick_polled inside initializing started polls ready] at sequential ⊢
      exact all.passes inside sequential rfl noInit
    obtain ⟨called, refused⟩ :=
      sysmgrTick_polls inside initializing started polls tick
    have inTime : ¬s.Late (sysmgrCurrent s) tick.nowMs :=
      fun late => works (Or.inr ⟨called, ready, late⟩)
    rw [refused ready, if_neg inTime] at sequential ⊢
    exact
      ⟨sequential, all.up,
        Or.inr ⟨inside, initializing, started, polls, noInit⟩⟩

end Sysmgr.AllUp

/-- More entries may take more ticks. -/
theorem sysmgrBudget_mono
    {table : Nat → SysmgrResource}
    {patience : Nat → Nat}
    {i n : Nat}
    (atMost : i ≤ n) :
    sysmgrBudget table patience i ≤ sysmgrBudget table patience n := by
  induction atMost with
  | refl => exact Nat.le_refl _
  | step _ inductionHypothesis =>
      exact Nat.le_trans inductionHypothesis (Nat.le_add_right _ _)

/-- `sysmgr_init` takes no more entries than it is given. -/
theorem sysmgrInit_fits
    {table : Nat → SysmgrResource}
    {count : Nat}
    (hasReset : Bool)
    (before : Nat → SysmgrRuntime) :
    (sysmgrInit table count hasReset before).count ≤ count := by
  simp only [sysmgrInit]
  split
  · exact Nat.le_refl count
  · exact Nat.le_of_lt (Nat.not_le.mp ‹_›)

/-- What the end of bring-up rests on. -/
structure SysmgrTimely
    (table : Nat → SysmgrResource)
    (count : Nat)
    (patience : Nat → Nat)
    (ticks : Nat → SysmgrTick) : Prop where
  earlier : SysmgrDepsEarlier table count
  retries : ∀ i < count, (table i).maxRetries.toNat < 255
  hard : ∀ i < count, (table i).onExhausted ≠ .retryInplace
  paced : SysmgrPaced table count patience ticks

section BringUp

variable
  (table : Nat → SysmgrResource)
  (count : Nat)
  (hasReset : Bool)
  (before : Nat → SysmgrRuntime)
  (ticks : Nat → SysmgrTick)

/-- The table before tick `k`. -/
def sysmgrAt (k : Nat) : Sysmgr :=
  sysmgrRun table count hasReset before ((List.range k).map ticks)

/-- One more tick. -/
theorem sysmgrAt_succ
    (k : Nat) :
    sysmgrAt table count hasReset before ticks (k + 1) =
      (sysmgrTick (sysmgrAt table count hasReset before ticks k) (ticks k)).1 := by
  unfold sysmgrAt sysmgrRun
  rw [List.range_succ, List.map_append, Machine.final_append]
  rfl

/-- No tick changes the table, or how many entries it has. -/
theorem sysmgrAt_table
    (k : Nat) :
    (sysmgrAt table count hasReset before ticks k).table = table ∧
      (sysmgrAt table count hasReset before ticks k).count =
        (sysmgrInit table count hasReset before).count := by
  induction k with
  | zero =>
      exact ⟨rfl, rfl⟩
  | succ k inductionHypothesis =>
      obtain ⟨next, events, ticked, -⟩ :=
        sysmgrTick_own (sysmgrAt table count hasReset before ticks k) (ticks k)
      rw [sysmgrAt_succ, ticked]
      exact inductionHypothesis

variable {table count ticks} {patience : Nat → Nat}

namespace SysmgrTimely

variable (timely : SysmgrTimely table count patience ticks)

include timely

/-- The table is sequential before every tick. -/
theorem sequential
    (k : Nat) :
    (sysmgrAt table count hasReset before ticks k).Sequential
      (sysmgrCalls table count hasReset before ((List.range k).map ticks)) :=
  sysmgrRun_sequential table count hasReset before timely.earlier timely.retries _

/-- No entry goes on for ever, before any tick. -/
theorem ends
    (k : Nat) :
    let s := sysmgrAt table count hasReset before ticks k
    (∀ i < s.count, (s.table i).onExhausted ≠ .retryInplace) ∧
      SysmgrPaced s.table s.count patience ticks := by
  intro s
  obtain ⟨sameTable, sameCount⟩ := sysmgrAt_table table count hasReset before ticks k
  have fits : s.count ≤ count := sameCount ▸ sysmgrInit_fits hasReset before
  rw [show s.table = table from sameTable]
  exact
    ⟨fun i inside => timely.hard i (Nat.lt_of_lt_of_le inside fits),
      fun i inside => timely.paced i (Nat.lt_of_lt_of_le inside fits)⟩

/-- A settled entry stays settled. -/
theorem stays
    {i k : Nat}
    (terminal :
      sysmgrIsTerminal
          ((sysmgrAt table count hasReset before ticks k).rt i).state = true)
    (n : Nat) :
    sysmgrIsTerminal
        ((sysmgrAt table count hasReset before ticks (k + n)).rt i).state =
      true := by
  induction n with
  | zero =>
      exact terminal
  | succ n inductionHypothesis =>
      have kept :=
        ((timely.sequential hasReset before (k + n)).tick_keeps
          (ticks (k + n))).2.2 i inductionHypothesis
      rw [← Nat.add_assoc, sysmgrAt_succ, kept]
      exact inductionHypothesis

/-- An entry never owes more than all its attempts. -/
theorem owes
    {i : Nat}
    (inside : i < (sysmgrInit table count hasReset before).count)
    (k : Nat) :
    SysmgrOwes ticks (table i) (patience i) k
      (((table i).maxRetries.toNat + 1) * (patience i + 1))
      ((sysmgrAt table count hasReset before ticks k).rt i) := by
  induction k with
  | zero =>
      have fresh :
          (sysmgrAt table count hasReset before ticks 0).rt i = sysmgrUntouched :=
        if_pos inside
      rw [fresh]
      exact .of_untouched (table i) 0
  | succ k inductionHypothesis =>
      obtain ⟨sameTable, sameCount⟩ :=
        sysmgrAt_table table count hasReset before ticks k
      obtain ⟨hard, paced⟩ := timely.ends hasReset before k
      have kept :=
        (timely.sequential hasReset before k).owes_kept hard paced
          (sameCount ▸ inside) (by rw [sameTable]; exact inductionHypothesis)
      rw [sameTable] at kept
      rw [sysmgrAt_succ]
      exact kept

/-- While its turn has come, every tick takes one off what an entry owes. -/
theorem owes_less
    {i k m : Nat}
    (inside : i < (sysmgrInit table count hasReset before).count)
    (turn :
      ∀ j < i,
        sysmgrIsTerminal
            ((sysmgrAt table count hasReset before ticks k).rt j).state = true)
    (n : Nat)
    (owes :
      SysmgrOwes ticks (table i) (patience i) k (m + n)
        ((sysmgrAt table count hasReset before ticks k).rt i)) :
    SysmgrOwes ticks (table i) (patience i) (k + n) m
      ((sysmgrAt table count hasReset before ticks (k + n)).rt i) := by
  induction n generalizing m with
  | zero =>
      exact owes
  | succ n inductionHypothesis =>
      have soFar := @inductionHypothesis (m + 1) (by rwa [Nat.add_right_comm])
      obtain ⟨sameTable, sameCount⟩ :=
        sysmgrAt_table table count hasReset before ticks (k + n)
      obtain ⟨hard, paced⟩ := timely.ends hasReset before (k + n)
      have sequential := timely.sequential hasReset before (k + n)
      have passed (j : Nat) (earlier : j < i) :=
        timely.stays hasReset before (turn j earlier) n
      rw [← Nat.add_assoc, sysmgrAt_succ]
      generalize sysmgrAt table count hasReset before ticks (k + n) = s at *
      by_cases terminal : sysmgrIsTerminal (s.rt i).state = true
      · rw [(sequential.tick_keeps (ticks (k + n))).2.2 i terminal]
        exact .ended terminal
      have current : sysmgrCurrent s = i := by
        refine Nat.le_antisymm (find_range_le (by simpa using terminal)) ?_
        refine Nat.not_lt.mp fun earlier => ?_
        have pending :=
          current_not_terminal (Nat.lt_trans earlier (sameCount ▸ inside))
        rw [passed _ earlier] at pending
        cases pending
      subst current
      rw [← sameTable] at soFar ⊢
      exact sequential.owes_less hard paced (sameCount ▸ inside) soFar

/-- The first `i` entries are settled within their budget. -/
theorem settled_by
    (i : Nat)
    (within : i ≤ (sysmgrInit table count hasReset before).count) :
    ∀ j < i,
      sysmgrIsTerminal
          ((sysmgrAt table count hasReset before ticks
            (sysmgrBudget table patience i)).rt j).state = true := by
  induction i with
  | zero =>
      exact fun j inside => absurd inside (Nat.not_lt_zero j)
  | succ i inductionHypothesis =>
      have turn := inductionHypothesis (Nat.le_of_succ_le within)
      intro j earlier
      rcases Nat.lt_or_eq_of_le (Nat.le_of_lt_succ earlier) with done | rfl
      · exact timely.stays hasReset before (turn j done) _
      · have all :=
          timely.owes hasReset before within (sysmgrBudget table patience j)
        rw [← Nat.zero_add (_ * _)] at all
        exact (timely.owes_less hasReset before within turn _ all).terminal_of_zero

end SysmgrTimely

/--
Bring-up settles every table whose entries are limited in their retries and in
the time they may take, whatever the callbacks return, within a number of ticks
that the table determines.  If none of the attempts failed, every entry is READY
and each `init` was called once, in the order of the table.
-/
theorem bring_up_settles
    (timely : SysmgrTimely table count patience ticks)
    {n : Nat}
    (enough : sysmgrBudget table patience count ≤ n) :
    let taken := (List.range n).map ticks
    let s := sysmgrRun table count hasReset before taken
    sysmgrSettled s = true ∧
      (Machine.Allowed sysmgrTick Sysmgr.Undisturbed
          (sysmgrInit table count hasReset before) taken →
        (∀ i < s.count, (s.rt i).state = .ready) ∧
          sysmgrInits (sysmgrCalls table count hasReset before taken) =
            List.range s.count) := by
  intro taken s
  obtain ⟨-, sameCount⟩ := sysmgrAt_table table count hasReset before ticks n
  change s.count = _ at sameCount
  have settled : sysmgrSettled s = true := by
    refine List.all_eq_true.mpr fun i member => ?_
    have inside : i < (sysmgrInit table count hasReset before).count :=
      sameCount ▸ List.mem_range.mp member
    have inTime :
        sysmgrBudget table patience
            (sysmgrInit table count hasReset before).count ≤ n :=
      Nat.le_trans (sysmgrBudget_mono (sysmgrInit_fits hasReset before)) enough
    have ended :=
      timely.stays hasReset before
        (timely.settled_by hasReset before _ (Nat.le_refl _) i inside)
        (n - sysmgrBudget table patience
          (sysmgrInit table count hasReset before).count)
    rw [Nat.add_sub_cancel' inTime] at ended
    exact ended
  refine ⟨settled, fun undisturbed => ?_⟩
  have all : s.AllUp (sysmgrCalls table count hasReset before taken) := by
    refine
      Machine.invariant_of_start
        (fun _ _ _ all undisturbed => Sysmgr.AllUp.step all undisturbed) ?_
        undisturbed
    exact
      .start
        (sysmgrInit_sequential hasReset before timely.earlier timely.retries)
        fun i inside => if_pos inside
  have none := sysmgrSettled_iff.mp settled
  refine ⟨fun i inside => all.up i (none.symm ▸ inside), ?_⟩
  rcases all.begun with ⟨-, inits⟩ | ⟨pending, -⟩
  · rw [inits, none]
  · exact absurd pending (Nat.not_lt.mpr (Nat.le_of_eq none.symm))

/-- A bus that takes up to 100 ms, and a resource that depends on it. -/
theorem bus_and_dependent_settle :
    let bus : SysmgrResource :=
      { id := 7
        deps := []
        hasPollReady := true
        initTimeoutMs := 100
        maxRetries := 1
        onExhausted := .systemReset }
    let table : Nat → SysmgrResource := fun i =>
      if i = 0 then bus
      else { bus with id := 9, deps := [7], hasPollReady := false }
    let ticks : Nat → SysmgrTick := fun k =>
      { nowMs := 50 * UInt32.ofNat k, initRc := 0, pollRc := 0 }
    let taken := (List.range 12).map ticks
    let s := sysmgrRun table 2 true (fun _ => sysmgrUntouched) taken
    sysmgrSettled s = true ∧
      sysmgrInits (sysmgrCalls table 2 true (fun _ => sysmgrUntouched) taken) =
        [0, 1] := by
  intro bus table ticks taken s
  have timely : SysmgrTimely table 2 (fun _ => 2) ticks := by
    refine ⟨?_, by decide, by decide, ?_⟩
    · intro i inside dep member
      match i with
      | 0 => cases member
      | 1 => exact ⟨0, Nat.one_pos, (List.mem_singleton.mp member).symm⟩
    · intro i inside polls
      match i with
      | 0 =>
          refine ⟨by decide, fun k => ?_⟩
          have apart :
              (ticks (k + 2)).nowMs - (ticks k).nowMs = 100 := by
            simp only [ticks, UInt32.ofNat_add]
            grind
          exact UInt32.le_of_eq apart.symm
      | 1 => cases polls
  have allowed :
      Machine.Allowed sysmgrTick Sysmgr.Undisturbed
        (sysmgrInit table 2 true fun _ => sysmgrUntouched) taken := by
    have accepted : ∀ tick ∈ taken, tick.initRc = 0 ∧ tick.pollRc = 0 := by
      intro tick member
      obtain ⟨k, -, rfl⟩ := List.mem_map.mp member
      exact ⟨rfl, rfl⟩
    refine Machine.Allowed.mono ?_ (Machine.allowed_of_forall_mem accepted _)
    rintro s tick ⟨init, poll⟩ i (⟨-, refused⟩ | ⟨-, refused, -⟩)
    · exact refused init
    · exact refused poll
  have sameCount : s.count = 2 :=
    (sysmgrAt_table table 2 true (fun _ => sysmgrUntouched) ticks 12).2
  obtain ⟨settled, brought⟩ :=
    @bring_up_settles table 2 true (fun _ => sysmgrUntouched) ticks (fun _ => 2)
      timely 12 (by decide)
  refine ⟨settled, (brought allowed).2.trans ?_⟩
  change List.range s.count = [0, 1]
  rw [sameCount]
  rfl

end BringUp

end TraveoBodyDomain
