import TraveoBodyDomain.SysMgr.SysMgr

/-!
# Resources come up one after the other

One tick changes one entry, the current one, and calls callbacks for that entry
alone.  `Sysmgr.EntryOk` is what an entry and its calls look like at any time;
`Sysmgr.Sequential` adds that the entries after the current one are as
`sysmgr_init` left them.  The dependencies of an entry lie before it, so nothing
that happens to the entry can change them.
-/

namespace TraveoBodyDomain

section Lookups

variable {s : Sysmgr}

/-- A search of the table finds the first index, or the end of the table. -/
theorem find_range_spec
    (n : Nat)
    (wanted : Nat → Bool) :
    ((List.range n).find? wanted).getD n ≤ n ∧
      (((List.range n).find? wanted).getD n < n →
        wanted (((List.range n).find? wanted).getD n) = true) ∧
      ∀ j < ((List.range n).find? wanted).getD n, wanted j = false := by
  cases found : (List.range n).find? wanted with
  | none =>
      refine ⟨Nat.le_refl n, fun impossible => absurd impossible (Nat.lt_irrefl n), ?_⟩
      intro j inside
      simpa using List.find?_range_eq_none.mp found j inside
  | some i =>
      rcases List.find?_range_eq_some.mp found with ⟨holds, inside, before⟩
      refine ⟨Nat.le_of_lt (List.mem_range.mp inside), fun _ => holds, ?_⟩
      intro j earlier
      simpa using before j earlier

/-- An entry that has the wanted property is not passed over. -/
theorem find_range_le
    {n j : Nat}
    {wanted : Nat → Bool}
    (holds : wanted j = true) :
    ((List.range n).find? wanted).getD n ≤ j := by
  by_contra later
  have passed := (find_range_spec n wanted).2.2 j (Nat.not_le.mp later)
  simp [holds] at passed

/-- Every entry before the current one is terminal. -/
theorem terminal_of_lt_current
    {i : Nat}
    (before : i < sysmgrCurrent s) :
    sysmgrIsTerminal (s.rt i).state = true := by
  simpa using (find_range_spec s.count _).2.2 i before

/-- The current entry is not terminal. -/
theorem current_not_terminal
    (inside : sysmgrCurrent s < s.count) :
    sysmgrIsTerminal (s.rt (sysmgrCurrent s)).state = false := by
  simpa [sysmgrCurrent] using (find_range_spec s.count _).2.1 inside

/-- A terminal entry is not the current one. -/
theorem ne_current_of_terminal
    {i : Nat}
    (terminal : sysmgrIsTerminal (s.rt i).state = true)
    (inside : sysmgrCurrent s < s.count) :
    i ≠ sysmgrCurrent s := by
  rintro rfl
  simp [current_not_terminal inside] at terminal

/-- The table is settled when no entry is current. -/
theorem sysmgrSettled_iff :
    sysmgrSettled s = true ↔ sysmgrCurrent s = s.count := by
  constructor
  · intro settled
    by_contra pending
    have inside : sysmgrCurrent s < s.count :=
      Nat.lt_of_le_of_ne (find_range_spec s.count _).1 pending
    have terminal :=
      List.all_eq_true.mp settled _ (List.mem_range.mpr inside)
    simp [current_not_terminal inside] at terminal
  · intro none
    refine List.all_eq_true.mpr fun i member => ?_
    exact terminal_of_lt_current (none.symm ▸ List.mem_range.mp member)

/-- Every dependency of entry `i` is READY. -/
def Sysmgr.DepsReady (s : Sysmgr) (i : Nat) : Prop :=
  ∀ dep ∈ (s.table i).deps, sysmgrResState s dep = .ready

/-- A dependency of entry `i` is DEGRADED or FAILED. -/
def Sysmgr.DepLost (s : Sysmgr) (i : Nat) : Prop :=
  ∃ dep ∈ (s.table i).deps,
    sysmgrResState s dep = .degraded ∨ sysmgrResState s dep = .failed

/-- `deps_satisfied` asks for READY dependencies. -/
theorem sysmgrDepsSatisfied_iff
    {i : Nat} :
    sysmgrDepsSatisfied s i = true ↔ s.DepsReady i := by
  simp only [sysmgrDepsSatisfied, List.all_eq_true, Bool.and_eq_true,
    decide_eq_true_eq, Sysmgr.DepsReady, sysmgrResState]
  refine forall₂_congr fun dep _ => ?_
  by_cases inside : sysmgrFindIndex s dep < s.count <;> simp [inside]

/-- `any_dep_unready_terminal` asks for a DEGRADED or FAILED dependency. -/
theorem sysmgrAnyDepUnreadyTerminal_iff
    {i : Nat} :
    sysmgrAnyDepUnreadyTerminal s i = true ↔ s.DepLost i := by
  simp only [sysmgrAnyDepUnreadyTerminal, List.any_eq_true, Bool.and_eq_true,
    decide_eq_true_eq, Sysmgr.DepLost, sysmgrResState, sysmgrIsTerminal,
    Bool.or_eq_true]
  refine exists_congr fun dep => and_congr_right fun _ => ?_
  by_cases inside : sysmgrFindIndex s dep < s.count
  · cases (s.rt (sysmgrFindIndex s dep)).state <;> simp [inside]
  · simp [inside]

/-- A lost dependency is not READY. -/
theorem Sysmgr.DepLost.not_ready
    {i : Nat}
    (lost : s.DepLost i) :
    ¬s.DepsReady i := by
  rintro ready
  rcases lost with ⟨dep, member, degraded | failed⟩
  · simp [ready dep member] at degraded
  · simp [ready dep member] at failed

end Lookups

/-- Dependencies name earlier entries. -/
def SysmgrDepsEarlier (table : Nat → SysmgrResource) (count : Nat) : Prop :=
  ∀ i < count, ∀ dep ∈ (table i).deps, ∃ j < i, (table j).id = dep

section OneTick

variable {s : Sysmgr}

@[simp] theorem Sysmgr.set_table (i : Nat) (runtime : SysmgrRuntime) :
    (s.set i runtime).table = s.table :=
  rfl

@[simp] theorem Sysmgr.set_count (i : Nat) (runtime : SysmgrRuntime) :
    (s.set i runtime).count = s.count :=
  rfl

@[simp] theorem Sysmgr.set_rt_self (i : Nat) (runtime : SysmgrRuntime) :
    (s.set i runtime).rt i = runtime := by
  simp [Sysmgr.set]

theorem Sysmgr.set_rt_of_ne
    {i j : Nat}
    (other : j ≠ i)
    (runtime : SysmgrRuntime) :
    (s.set i runtime).rt j = s.rt j := by
  simp [Sysmgr.set, other]

@[simp] theorem Sysmgr.set_same (i : Nat) :
    s.set i (s.rt i) = s := by
  simp [Sysmgr.set]

@[simp] theorem Sysmgr.set_set (i : Nat) (first second : SysmgrRuntime) :
    (s.set i first).set i second = s.set i second := by
  simp [Sysmgr.set]

/-- What a change of entry `i` leaves alone: the states of earlier entries. -/
theorem sysmgrResState_set
    (earlier : SysmgrDepsEarlier s.table s.count)
    {i j : Nat}
    (notAfter : j ≤ i)
    (inside : j < s.count)
    (runtime : SysmgrRuntime)
    {dep : UInt8}
    (member : dep ∈ (s.table j).deps) :
    sysmgrResState (s.set i runtime) dep = sysmgrResState s dep := by
  rcases earlier j inside dep member with ⟨k, before, named⟩
  have found : sysmgrFindIndex s dep ≤ k :=
    find_range_le (by simp [named])
  have other : sysmgrFindIndex s dep ≠ i := by omega
  have sameIndex : sysmgrFindIndex (s.set i runtime) dep = sysmgrFindIndex s dep :=
    rfl
  simp only [sysmgrResState, sameIndex, Sysmgr.set_count,
    Sysmgr.set_rt_of_ne other]

/-- Nothing that happens to entry `i` changes what an earlier entry waits for. -/
theorem Sysmgr.DepsReady.of_set
    (earlier : SysmgrDepsEarlier s.table s.count)
    {i j : Nat}
    (notAfter : j ≤ i)
    (inside : j < s.count)
    (runtime : SysmgrRuntime) :
    (s.set i runtime).DepsReady j ↔ s.DepsReady j := by
  refine forall₂_congr fun dep member => ?_
  rw [sysmgrResState_set earlier notAfter inside runtime member]

/-- The `i`-th entry after an attempt, the `attempts`-th since it was reset. -/
structure SysmgrAttempted
    (r : SysmgrResource)
    (attempts : Nat)
    (runtime : SysmgrRuntime) : Prop where
  begun : runtime.state ≠ .uninit
  bounded : runtime.attempts.toNat ≤ r.maxRetries.toNat + 1
  due :
    runtime.state = .initializing → runtime.pollStarted = false →
      runtime.attempts.toNat ≤ r.maxRetries.toNat
  counted : r.onExhausted = .systemReset → runtime.attempts.toNat = attempts
  exhausted :
    runtime.state = .failed →
      r.onExhausted = .systemReset ∧
        runtime.attempts.toNat = r.maxRetries.toNat + 1

/-- An attempt that stands: READY, or waiting for `poll_ready`. -/
theorem SysmgrAttempted.stands
    {r : SysmgrResource}
    {attempts : Nat}
    {runtime : SysmgrRuntime}
    (bounded : runtime.attempts.toNat ≤ r.maxRetries.toNat + 1)
    (counted : r.onExhausted = .systemReset → runtime.attempts.toNat = attempts)
    (up : runtime.state = .ready ∨
      runtime.state = .initializing ∧ runtime.pollStarted = true) :
    SysmgrAttempted r attempts runtime := by
  refine ⟨?_, bounded, ?_, counted, ?_⟩
  · rcases up with ready | ⟨waiting, _⟩ <;> simp [*]
  · rcases up with ready | ⟨_, polling⟩ <;> simp [*]
  · rcases up with ready | ⟨waiting, _⟩ <;> simp [*]

/-- `handle_failure` retries, or ends the entry as its policy asks. -/
theorem sysmgrHandleFailure_spec
    {i attempts : Nat}
    (bounded : (s.rt i).attempts.toNat ≤ (s.table i).maxRetries.toNat + 1)
    (counted :
      (s.table i).onExhausted = .systemReset →
        (s.rt i).attempts.toNat = attempts) :
    ∃ next events,
      sysmgrHandleFailure s i = (s.set i next, events) ∧
        SysmgrAttempted (s.table i) attempts next ∧
        (events = [] ∨ events = [.reset i] ∧ next.state = .failed) := by
  unfold sysmgrHandleFailure
  by_cases again : (s.rt i).attempts.toNat < (s.table i).maxRetries.toNat + 1
  · refine ⟨_, _, if_pos again, ⟨?_, ?_, ?_, ?_, ?_⟩, Or.inl rfl⟩
    · simp
    · exact bounded
    · exact fun _ _ => Nat.le_of_lt_succ again
    · exact counted
    · simp
  · have all : (s.rt i).attempts.toNat = (s.table i).maxRetries.toNat + 1 := by
      omega
    simp only [if_neg again]
    cases policy : (s.table i).onExhausted with
    | retryInplace =>
        refine ⟨_, _, rfl, ⟨?_, ?_, ?_, ?_, ?_⟩, Or.inl rfl⟩ <;> simp [policy]
    | systemReset =>
        refine ⟨_, _, rfl, ⟨?_, ?_, ?_, ?_, ?_⟩, ?_⟩
        · simp
        · exact bounded
        · simp
        · exact counted
        · exact fun _ => ⟨policy, all⟩
        · cases s.hasReset <;> simp
    | degrade =>
        refine ⟨_, _, rfl, ⟨?_, ?_, ?_, ?_, ?_⟩, Or.inl rfl⟩
        · simp
        · exact bounded
        · simp
        · simp [policy]
        · simp

/-- `attempt_init` calls `init`, and then escalates at most once. -/
theorem sysmgrAttemptInit_spec
    {i attempts : Nat}
    {tick : SysmgrTick}
    (retries : (s.table i).maxRetries.toNat < 255)
    (due : (s.rt i).attempts.toNat ≤ (s.table i).maxRetries.toNat)
    (counted :
      (s.table i).onExhausted = .systemReset →
        (s.rt i).attempts.toNat = attempts) :
    ∃ next events,
      sysmgrAttemptInit s i tick = (s.set i next, .init i :: events) ∧
        SysmgrAttempted (s.table i) (attempts + 1) next ∧
        (events = [] ∨ events = [.reset i] ∧ next.state = .failed) := by
  have oneMore :
      ((s.rt i).attempts + 1).toNat = (s.rt i).attempts.toNat + 1 := by
    rw [UInt8.toNat_add, Nat.mod_eq_of_lt]
    · rfl
    · simp only [UInt8.toNat_one]
      omega
  let begun : SysmgrRuntime :=
    { s.rt i with
      attempts := (s.rt i).attempts + 1
      startedMs := tick.nowMs }
  have bounded : (begun.attempts).toNat ≤ (s.table i).maxRetries.toNat + 1 := by
    simp only [begun]
    omega
  have recounted :
      (s.table i).onExhausted = .systemReset →
        begun.attempts.toNat = attempts + 1 := by
    intro policy
    simp only [begun, oneMore, counted policy]
  unfold sysmgrAttemptInit
  by_cases accepted : tick.initRc = 0
  · cases polls : (s.table i).hasPollReady with
    | true =>
        refine
          ⟨{ begun with state := .initializing, pollStarted := true }, [], ?_,
            SysmgrAttempted.stands bounded recounted (Or.inr ⟨rfl, rfl⟩), Or.inl rfl⟩
        simp [accepted, polls, begun]
    | false =>
        refine
          ⟨{ begun with state := .ready }, [], ?_,
            SysmgrAttempted.stands bounded recounted (Or.inl rfl), Or.inl rfl⟩
        simp [accepted, polls, begun]
  · have same : (s.set i begun).rt i = begun := Sysmgr.set_rt_self i begun
    rcases @sysmgrHandleFailure_spec (s.set i begun) i (attempts + 1)
        (by rw [same]; exact bounded) (by rw [same]; exact recounted) with
      ⟨next, events, failure, attempted, escalated⟩
    refine ⟨next, events, ?_, attempted, escalated⟩
    simp only [begun] at failure
    simp [accepted, failure]

/-- A lost dependency degrades the current entry. -/
theorem sysmgrTick_cascade
    (inside : sysmgrCurrent s < s.count)
    (uninit : (s.rt (sysmgrCurrent s)).state = .uninit)
    (lost : s.DepLost (sysmgrCurrent s))
    (tick : SysmgrTick) :
    sysmgrTick s tick =
      (s.set (sysmgrCurrent s)
        { s.rt (sysmgrCurrent s) with state := .degraded }, []) := by
  have unready : sysmgrDepsSatisfied s (sysmgrCurrent s) = false :=
    eq_false_of_ne_true (mt sysmgrDepsSatisfied_iff.mp lost.not_ready)
  simp [sysmgrTick, Nat.not_le.mpr inside, uninit, unready,
    sysmgrAnyDepUnreadyTerminal_iff.mpr lost]

/-- What one tick does, apart from what `attempt_init` and `handle_failure` do. -/
theorem sysmgrTick_cases
    (s : Sysmgr)
    (tick : SysmgrTick) :
    sysmgrTick s tick = (s, []) ∨
      sysmgrCurrent s < s.count ∧
        ((s.rt (sysmgrCurrent s)).state = .uninit ∧
              s.DepLost (sysmgrCurrent s) ∧
              sysmgrTick s tick =
                (s.set (sysmgrCurrent s)
                  { s.rt (sysmgrCurrent s) with state := .degraded }, []) ∨
          ((s.rt (sysmgrCurrent s)).state = .uninit ∧
                s.DepsReady (sysmgrCurrent s) ∨
              (s.rt (sysmgrCurrent s)).state = .initializing ∧
                (s.rt (sysmgrCurrent s)).pollStarted = false) ∧
            sysmgrTick s tick = sysmgrAttemptInit s (sysmgrCurrent s) tick ∨
          (s.rt (sysmgrCurrent s)).state = .initializing ∧
            (s.rt (sysmgrCurrent s)).pollStarted = true ∧
            ∃ polls : List SysmgrEvent,
              (∀ event ∈ polls, event = .pollReady (sysmgrCurrent s)) ∧
                (sysmgrTick s tick = (s, polls) ∨
                  sysmgrTick s tick =
                    (s.set (sysmgrCurrent s)
                      { s.rt (sysmgrCurrent s) with state := .ready }, polls) ∨
                  sysmgrTick s tick =
                    ((sysmgrHandleFailure s (sysmgrCurrent s)).1,
                      polls ++ (sysmgrHandleFailure s (sysmgrCurrent s)).2))) := by
  by_cases settled : sysmgrCurrent s ≥ s.count
  · exact Or.inl (by simp only [sysmgrTick, if_pos settled])
  have inside := Nat.not_le.mp settled
  have pending := current_not_terminal inside
  cases state : (s.rt (sysmgrCurrent s)).state with
  | uninit =>
      by_cases ready : s.DepsReady (sysmgrCurrent s)
      · refine Or.inr ⟨inside, Or.inr (Or.inl ⟨Or.inl ⟨rfl, ready⟩, ?_⟩)⟩
        simp [sysmgrTick, settled, state, sysmgrDepsSatisfied_iff.mpr ready]
      by_cases lost : s.DepLost (sysmgrCurrent s)
      · exact Or.inr
          ⟨inside, Or.inl ⟨rfl, lost, sysmgrTick_cascade inside state lost tick⟩⟩
      have unready : sysmgrDepsSatisfied s (sysmgrCurrent s) = false :=
        eq_false_of_ne_true (mt sysmgrDepsSatisfied_iff.mp ready)
      have none : sysmgrAnyDepUnreadyTerminal s (sysmgrCurrent s) = false :=
        eq_false_of_ne_true (mt sysmgrAnyDepUnreadyTerminal_iff.mp lost)
      left
      simp [sysmgrTick, settled, state, unready, none]
  | initializing =>
      cases started : (s.rt (sysmgrCurrent s)).pollStarted with
      | false =>
          refine Or.inr ⟨inside, Or.inr (Or.inl ⟨Or.inr ⟨rfl, rfl⟩, ?_⟩)⟩
          simp [sysmgrTick, settled, state, started]
      | true =>
          refine Or.inr ⟨inside, Or.inr (Or.inr ⟨rfl, rfl, ?_⟩)⟩
          by_cases synchronous : (s.table (sysmgrCurrent s)).hasPollReady = false
          · refine ⟨[], by simp, Or.inr (Or.inl ?_)⟩
            simp [sysmgrTick, settled, state, started, synchronous]
          refine ⟨[.pollReady (sysmgrCurrent s)], by simp, ?_⟩
          by_cases polled : tick.pollRc = 0
          · refine Or.inr (Or.inl ?_)
            simp [sysmgrTick, settled, state, started, synchronous, polled]
          by_cases late :
              (s.table (sysmgrCurrent s)).initTimeoutMs ≠ 0 ∧
                tick.nowMs - (s.rt (sysmgrCurrent s)).startedMs ≥
                  (s.table (sysmgrCurrent s)).initTimeoutMs
          · refine Or.inr (Or.inr ?_)
            simp [sysmgrTick, settled, state, started, synchronous, polled, late]
          · left
            simp [sysmgrTick, settled, state, started, synchronous, polled, late]
  | ready => simp [state, sysmgrIsTerminal] at pending
  | degraded => simp [state, sysmgrIsTerminal] at pending
  | failed => simp [state, sysmgrIsTerminal] at pending

end OneTick

/-- Entry `i` and the callbacks that were called for it. -/
inductive Sysmgr.EntryOk (s : Sysmgr) (calls : List SysmgrEvent) (i : Nat) : Prop
  | untouched
      (fresh : s.rt i = sysmgrUntouched)
      (silent : ∀ call ∈ calls, call.entry ≠ i)
  | cascaded
      (degraded : s.rt i = { sysmgrUntouched with state := .degraded })
      (silent : ∀ call ∈ calls, call.entry ≠ i)
      (unready : ¬s.DepsReady i)
  | started
      (ready : s.DepsReady i)
      (attempted :
        SysmgrAttempted (s.table i) (calls.count (.init i)) (s.rt i))
      (escalated :
        calls.count (.reset i) = 0 ∨
          calls.count (.reset i) = 1 ∧ (s.rt i).state = .failed)

/-- The table while it is brought up, and the calls so far. -/
structure Sysmgr.Sequential (s : Sysmgr) (calls : List SysmgrEvent) : Prop where
  earlier : SysmgrDepsEarlier s.table s.count
  retries : ∀ i < s.count, (s.table i).maxRetries.toNat < 255
  inside : ∀ call ∈ calls, call.entry < s.count
  entries : ∀ i < s.count, s.EntryOk calls i
  inOrder :
    ∀ i j, i < j → j < s.count →
      sysmgrIsTerminal (s.rt i).state = false → s.rt j = sysmgrUntouched

section Run

variable {s : Sysmgr} {calls : List SysmgrEvent}

/-- Calls for other entries do not count for entry `i`. -/
theorem count_of_silent
    {events : List SysmgrEvent}
    {i : Nat}
    (silent : ∀ event ∈ events, event.entry ≠ i) :
    events.count (.init i) = 0 ∧ events.count (.reset i) = 0 :=
  ⟨List.count_eq_zero.mpr fun member => silent _ member rfl,
    List.count_eq_zero.mpr fun member => silent _ member rfl⟩

/-- A change of another entry, and calls for it, leave entry `j` in order. -/
theorem Sysmgr.EntryOk.frame
    (earlier : SysmgrDepsEarlier s.table s.count)
    {i j : Nat}
    (inside : j < s.count)
    (other : j ≠ i)
    (quiet : i < j → s.rt j = sysmgrUntouched)
    {next : SysmgrRuntime}
    {events : List SysmgrEvent}
    (own : ∀ event ∈ events, event.entry = i)
    (ok : s.EntryOk calls j) :
    (s.set i next).EntryOk (calls ++ events) j := by
  have sameRt : (s.set i next).rt j = s.rt j := Sysmgr.set_rt_of_ne other next
  have away : ∀ event ∈ events, event.entry ≠ j := by
    intro event member same
    exact other (same.symm.trans (own event member))
  have appended (silent : ∀ call ∈ calls, call.entry ≠ j) :
      ∀ call ∈ calls ++ events, call.entry ≠ j := by
    intro call member
    rcases List.mem_append.mp member with old | new
    · exact silent call old
    · exact away call new
  have before (touched : s.rt j ≠ sysmgrUntouched) : j ≤ i :=
    Nat.not_lt.mp fun later => touched (quiet later)
  cases ok with
  | untouched fresh silent =>
      exact .untouched (sameRt.trans fresh) (appended silent)
  | cascaded degraded silent unready =>
      have notAfter := before (by rw [degraded]; decide)
      refine .cascaded (sameRt.trans degraded) (appended silent) ?_
      rwa [Sysmgr.DepsReady.of_set earlier notAfter inside]
  | started ready attempted escalated =>
      have notAfter := before fun fresh => attempted.begun (by rw [fresh]; rfl)
      have none := count_of_silent away
      refine .started ?_ ?_ ?_
      · rwa [Sysmgr.DepsReady.of_set earlier notAfter inside]
      · rw [sameRt, List.count_append, none.1]
        exact attempted
      · rw [sameRt, List.count_append, none.2]
        exact escalated

/-- A change of the current entry alone keeps the table sequential. -/
theorem Sysmgr.Sequential.change
    (sequential : s.Sequential calls)
    (inside : sysmgrCurrent s < s.count)
    {next : SysmgrRuntime}
    {events : List SysmgrEvent}
    (own : ∀ event ∈ events, event.entry = sysmgrCurrent s)
    (ok : (s.set (sysmgrCurrent s) next).EntryOk (calls ++ events)
      (sysmgrCurrent s)) :
    (s.set (sysmgrCurrent s) next).Sequential (calls ++ events) := by
  have after {j : Nat} (later : sysmgrCurrent s < j) (created : j < s.count) :
      s.rt j = sysmgrUntouched :=
    sequential.inOrder _ j later created (current_not_terminal inside)
  refine ⟨sequential.earlier, sequential.retries, ?_, ?_, ?_⟩
  · intro call member
    rcases List.mem_append.mp member with old | new
    · exact sequential.inside call old
    · rw [own call new]
      exact inside
  · intro j created
    by_cases same : j = sysmgrCurrent s
    · rw [same]
      exact ok
    · exact (sequential.entries j created).frame sequential.earlier created same
        (fun later => after later created) own
  · intro i j before created pending
    have notEarlier : sysmgrCurrent s ≤ i := by
      by_contra earlier
      have terminal := terminal_of_lt_current (Nat.not_le.mp earlier)
      rw [Sysmgr.set_rt_of_ne (Nat.ne_of_lt (Nat.not_le.mp earlier))] at pending
      simp [terminal] at pending
    have later : sysmgrCurrent s < j := Nat.lt_of_le_of_lt notEarlier before
    rw [Sysmgr.set_rt_of_ne (Nat.ne_of_gt later)]
    exact after later created

/-- An entry whose state is UNINIT was not touched. -/
theorem Sysmgr.EntryOk.fresh_of_uninit
    {i : Nat}
    (ok : s.EntryOk calls i)
    (uninit : (s.rt i).state = .uninit) :
    s.rt i = sysmgrUntouched ∧ ∀ call ∈ calls, call.entry ≠ i := by
  cases ok with
  | untouched fresh silent => exact ⟨fresh, silent⟩
  | cascaded degraded => simp [degraded] at uninit
  | started _ attempted => exact absurd uninit attempted.begun

/-- An entry whose state is INITIALIZING was started with READY dependencies. -/
theorem Sysmgr.EntryOk.started_of_initializing
    {i : Nat}
    (ok : s.EntryOk calls i)
    (initializing : (s.rt i).state = .initializing) :
    s.DepsReady i ∧
      SysmgrAttempted (s.table i) (calls.count (.init i)) (s.rt i) ∧
      calls.count (.reset i) = 0 := by
  cases ok with
  | untouched fresh => simp [fresh, sysmgrUntouched] at initializing
  | cascaded degraded => simp [degraded] at initializing
  | started ready attempted escalated =>
      refine ⟨ready, attempted, ?_⟩
      rcases escalated with none | ⟨_, failed⟩
      · exact none
      · simp [initializing] at failed

/-- Before an attempt: the dependencies are READY, and a retry is left. -/
theorem Sysmgr.EntryOk.attempt
    {i : Nat}
    (ok : s.EntryOk calls i)
    (due :
      (s.rt i).state = .uninit ∧ s.DepsReady i ∨
        (s.rt i).state = .initializing ∧ (s.rt i).pollStarted = false) :
    s.DepsReady i ∧
      (s.rt i).attempts.toNat ≤ (s.table i).maxRetries.toNat ∧
      ((s.table i).onExhausted = .systemReset →
        (s.rt i).attempts.toNat = calls.count (.init i)) ∧
      calls.count (.reset i) = 0 := by
  rcases due with ⟨uninit, ready⟩ | ⟨initializing, notStarted⟩
  · rcases ok.fresh_of_uninit uninit with ⟨fresh, silent⟩
    have none := count_of_silent silent
    rw [fresh, none.1]
    exact ⟨ready, Nat.zero_le _, fun _ => rfl, none.2⟩
  · rcases ok.started_of_initializing initializing with ⟨ready, attempted, none⟩
    exact ⟨ready, attempted.due initializing notStarted, attempted.counted, none⟩

/-- What an attempt leaves of the current entry. -/
theorem Sysmgr.EntryOk.after
    (earlier : SysmgrDepsEarlier s.table s.count)
    {i : Nat}
    (inside : i < s.count)
    (ready : s.DepsReady i)
    (noReset : calls.count (.reset i) = 0)
    {next : SysmgrRuntime}
    {first events : List SysmgrEvent}
    (attempted :
      SysmgrAttempted (s.table i) ((calls ++ first).count (.init i)) next)
    (silent : first.count (.reset i) = 0)
    (escalated : events = [] ∨ events = [.reset i] ∧ next.state = .failed) :
    (s.set i next).EntryOk (calls ++ (first ++ events)) i := by
  have noInit : events.count (.init i) = 0 := by
    rcases escalated with rfl | ⟨rfl, _⟩ <;> simp
  refine .started ?_ ?_ ?_
  · rwa [Sysmgr.DepsReady.of_set earlier (Nat.le_refl i) inside]
  · rw [Sysmgr.set_rt_self, ← List.append_assoc, List.count_append, noInit]
    exact attempted
  · rw [Sysmgr.set_rt_self, List.count_append, List.count_append, noReset, silent]
    rcases escalated with rfl | ⟨rfl, failed⟩
    · simp
    · simp [failed]

/-- One tick changes the current entry alone, and keeps it in order. -/
theorem Sysmgr.Sequential.tick
    (sequential : s.Sequential calls)
    (tick : SysmgrTick) :
    sysmgrTick s tick = (s, []) ∨
      sysmgrCurrent s < s.count ∧
        ∃ next events,
          sysmgrTick s tick = (s.set (sysmgrCurrent s) next, events) ∧
            (∀ event ∈ events, event.entry = sysmgrCurrent s) ∧
            (s.set (sysmgrCurrent s) next).EntryOk (calls ++ events)
              (sysmgrCurrent s) ∧
            (.init (sysmgrCurrent s) ∈ events →
              s.DepsReady (sysmgrCurrent s)) := by
  rcases sysmgrTick_cases s tick with
    unchanged | ⟨inside, cascade | ⟨due, attempt⟩ | ⟨waits, _, polls, own, outcome⟩⟩
  · exact Or.inl unchanged
  · rcases cascade with ⟨uninit, lost, ticked⟩
    rcases (sequential.entries _ inside).fresh_of_uninit uninit with ⟨fresh, silent⟩
    refine Or.inr ⟨inside, _, _, ticked, by simp, .cascaded ?_ ?_ ?_, by simp⟩
    · rw [Sysmgr.set_rt_self, fresh]
    · simpa using silent
    · rw [Sysmgr.DepsReady.of_set sequential.earlier (Nat.le_refl _) inside]
      exact lost.not_ready
  · rcases (sequential.entries _ inside).attempt due with
      ⟨ready, retryLeft, counted, noReset⟩
    rcases @sysmgrAttemptInit_spec s _ _ tick (sequential.retries _ inside)
        retryLeft counted with
      ⟨next, events, attempted, entry, escalated⟩
    refine Or.inr ⟨inside, next, _, attempt.trans attempted, ?_, ?_, fun _ => ready⟩
    · rcases escalated with rfl | ⟨rfl, _⟩ <;> simp [SysmgrEvent.entry]
    · refine @Sysmgr.EntryOk.after s calls sequential.earlier _ inside ready noReset
        next [.init (sysmgrCurrent s)] events ?_ (by simp) escalated
      simpa using entry
  · rcases (sequential.entries _ inside).started_of_initializing waits with
      ⟨ready, attempted, noReset⟩
    have about : ∀ event ∈ polls, event.entry = sysmgrCurrent s := by
      intro event member
      rw [own event member]
      rfl
    have noInit : polls.count (.init (sysmgrCurrent s)) = 0 :=
      List.count_eq_zero.mpr fun member => by simpa using own _ member
    have noPollReset : polls.count (.reset (sysmgrCurrent s)) = 0 :=
      List.count_eq_zero.mpr fun member => by simpa using own _ member
    have counted :
        (calls ++ polls).count (.init (sysmgrCurrent s)) =
          calls.count (.init (sysmgrCurrent s)) := by
      rw [List.count_append, noInit, Nat.add_zero]
    have settles {next : SysmgrRuntime} {events : List SysmgrEvent} :=
      @Sysmgr.EntryOk.after s calls sequential.earlier _ inside ready noReset next
        polls events
    rcases outcome with same | up | failure
    · refine Or.inr ⟨inside, s.rt (sysmgrCurrent s), polls, ?_, about, ?_, fun _ => ready⟩
      · rw [same, Sysmgr.set_same]
      · rw [← List.append_nil polls]
        exact settles (by rwa [counted]) noPollReset (Or.inl rfl)
    · refine Or.inr ⟨inside, _, polls, up, about, ?_, fun _ => ready⟩
      simpa using
        settles
          (by
            rw [counted]
            exact .stands attempted.bounded attempted.counted (Or.inl rfl))
          noPollReset (Or.inl rfl)
    · rcases sysmgrHandleFailure_spec attempted.bounded attempted.counted with
        ⟨next, events, handled, entry, escalated⟩
      rw [handled] at failure
      refine Or.inr ⟨inside, next, _, failure, ?_, ?_, fun _ => ready⟩
      · intro event member
        rcases List.mem_append.mp member with polled | reset
        · exact about event polled
        · rcases escalated with rfl | ⟨rfl, _⟩ <;> simp_all [SysmgrEvent.entry]
      · exact settles (by rwa [counted]) noPollReset escalated

/-- One tick keeps the table sequential. -/
theorem Sysmgr.Sequential.step
    (sequential : s.Sequential calls)
    (tick : SysmgrTick) :
    (sysmgrTick s tick).1.Sequential (calls ++ (sysmgrTick s tick).2) := by
  rcases sequential.tick tick with unchanged | ⟨inside, next, events, ticked, own, ok, _⟩
  · rw [unchanged, List.append_nil]
    exact sequential
  · rw [ticked]
    exact sequential.change inside own ok

/-- One tick changes no terminal entry, and not the table. -/
theorem Sysmgr.Sequential.tick_keeps
    (sequential : s.Sequential calls)
    (tick : SysmgrTick) :
    (sysmgrTick s tick).1.table = s.table ∧
      (sysmgrTick s tick).1.count = s.count ∧
      ∀ i, sysmgrIsTerminal (s.rt i).state = true →
        (sysmgrTick s tick).1.rt i = s.rt i := by
  rcases sequential.tick tick with unchanged | ⟨inside, next, events, ticked, _⟩
  · rw [unchanged]
    exact ⟨rfl, rfl, fun _ _ => rfl⟩
  · rw [ticked]
    refine ⟨rfl, rfl, fun i terminal => ?_⟩
    exact Sysmgr.set_rt_of_ne (ne_current_of_terminal terminal inside) next

/-- No number of ticks changes a terminal entry. -/
theorem Sysmgr.Sequential.run_keeps
    (sequential : s.Sequential calls)
    (ticks : List SysmgrTick) :
    (Machine.final sysmgrTick s ticks).table = s.table ∧
      (Machine.final sysmgrTick s ticks).count = s.count ∧
      ∀ i, sysmgrIsTerminal (s.rt i).state = true →
        (Machine.final sysmgrTick s ticks).rt i = s.rt i := by
  induction ticks generalizing s calls with
  | nil =>
      exact ⟨rfl, rfl, fun _ _ => rfl⟩
  | cons tick rest inductionHypothesis =>
      have first := sequential.tick_keeps tick
      have later := inductionHypothesis (sequential.step tick)
      refine
        ⟨later.1.trans first.1, later.2.1.trans first.2.1, fun i terminal => ?_⟩
      have same := first.2.2 i terminal
      exact (later.2.2 i (by rwa [same])).trans same

/-- A lost dependency stays lost. -/
theorem Sysmgr.Sequential.run_lost
    (sequential : s.Sequential calls)
    (ticks : List SysmgrTick)
    {i : Nat}
    (lost : s.DepLost i) :
    (Machine.final sysmgrTick s ticks).DepLost i := by
  rcases sequential.run_keeps ticks with ⟨sameTable, sameCount, kept⟩
  rcases lost with ⟨dep, member, state⟩
  have sameIndex :
      sysmgrFindIndex (Machine.final sysmgrTick s ticks) dep =
        sysmgrFindIndex s dep := by
    simp only [sysmgrFindIndex, sameTable, sameCount]
  refine ⟨dep, by rwa [sameTable], ?_⟩
  simp only [sysmgrResState, sameIndex, sameCount] at state ⊢
  by_cases found : sysmgrFindIndex s dep < s.count
  · simp only [if_pos found] at state ⊢
    have terminal :
        sysmgrIsTerminal (s.rt (sysmgrFindIndex s dep)).state = true := by
      rcases state with degraded | failed <;> simp [sysmgrIsTerminal, *]
    rwa [kept _ terminal]
  · simp [if_neg found] at state

/-- An entry with a lost dependency was never started. -/
theorem Sysmgr.EntryOk.silent_of_lost
    {i : Nat}
    (ok : s.EntryOk calls i)
    (lost : s.DepLost i) :
    (s.rt i = sysmgrUntouched ∨ (s.rt i).state = .degraded) ∧
      ∀ call ∈ calls, call.entry ≠ i := by
  cases ok with
  | untouched fresh silent => exact ⟨Or.inl fresh, silent⟩
  | cascaded degraded silent => exact ⟨Or.inr (by rw [degraded]), silent⟩
  | started ready => exact absurd ready lost.not_ready

/-- An entry asks for a reset at most once, after its last attempt. -/
theorem Sysmgr.EntryOk.resets
    {i : Nat}
    (ok : s.EntryOk calls i) :
    calls.count (.reset i) ≤ 1 ∧
      (.reset i ∈ calls →
        (s.table i).onExhausted = .systemReset ∧
          calls.count (.init i) = (s.table i).maxRetries.toNat + 1) := by
  cases ok with
  | untouched fresh silent =>
      exact ⟨by simp [count_of_silent silent],
        fun member => absurd rfl (silent _ member)⟩
  | cascaded degraded silent =>
      exact ⟨by simp [count_of_silent silent],
        fun member => absurd rfl (silent _ member)⟩
  | started ready attempted escalated =>
      refine ⟨by omega, fun member => ?_⟩
      have positive := List.count_pos_iff.mpr member
      rcases escalated with none | ⟨_, failed⟩
      · omega
      · rcases attempted.exhausted failed with ⟨policy, exhausted⟩
        exact ⟨policy, (attempted.counted policy).symm.trans exhausted⟩

/-- `sysmgr_init` leaves the table untouched. -/
theorem sysmgrInit_sequential
    {table : Nat → SysmgrResource}
    {count : Nat}
    (hasReset : Bool)
    (before : Nat → SysmgrRuntime)
    (earlier : SysmgrDepsEarlier table count)
    (retries : ∀ i < count, (table i).maxRetries.toNat < 255) :
    (sysmgrInit table count hasReset before).Sequential [] := by
  have fits : (sysmgrInit table count hasReset before).count ≤ count := by
    simp only [sysmgrInit]
    split <;> omega
  have fresh {i : Nat} (inside : i < (sysmgrInit table count hasReset before).count) :
      (sysmgrInit table count hasReset before).rt i = sysmgrUntouched :=
    if_pos inside
  refine ⟨?_, ?_, by simp, ?_, ?_⟩
  · exact fun i inside => earlier i (Nat.lt_of_lt_of_le inside fits)
  · exact fun i inside => retries i (Nat.lt_of_lt_of_le inside fits)
  · exact fun i inside => .untouched (fresh inside) (by simp)
  · exact fun i j _ inside _ => fresh inside

end Run

section BringUp

variable
  (table : Nat → SysmgrResource)
  (count : Nat)
  (hasReset : Bool)
  (before : Nat → SysmgrRuntime)

/-- The table is sequential after any ticks. -/
theorem sysmgrRun_sequential
    (earlier : SysmgrDepsEarlier table count)
    (retries : ∀ i < count, (table i).maxRetries.toNat < 255)
    (ticks : List SysmgrTick) :
    (sysmgrRun table count hasReset before ticks).Sequential
      (sysmgrCalls table count hasReset before ticks) :=
  Machine.invariant_of_start
    (fun _ _ tick sequential _ => sequential.step tick)
    (sysmgrInit_sequential hasReset before earlier retries)
    (Machine.allowed_of_forall (fun _ _ => trivial) _ _)

/--
Whatever the callbacks return and the clock shows: the entries before the
current one are settled for good and those after it are untouched; `init` is
called when every dependency is READY, so never for an entry that lost one, and
such an entry is DEGRADED when its turn comes; an entry asks for a reset at most
once, when its policy says so and its attempts are used up.
-/
theorem bring_up_is_sequential
    (earlier : SysmgrDepsEarlier table count)
    (retries : ∀ i < count, (table i).maxRetries.toNat < 255)
    (ticks : List SysmgrTick) :
    let s := sysmgrRun table count hasReset before ticks
    let calls := sysmgrCalls table count hasReset before ticks
    ((∀ i < sysmgrCurrent s, sysmgrIsTerminal (s.rt i).state = true) ∧
        ∀ i < s.count, sysmgrCurrent s < i →
          s.rt i = sysmgrUntouched ∧ ∀ call ∈ calls, call.entry ≠ i) ∧
      (∀ i, sysmgrIsTerminal (s.rt i).state = true →
        ∀ more,
          (sysmgrRun table count hasReset before (ticks ++ more)).rt i =
            s.rt i) ∧
      (∀ tick i, .init i ∈ (sysmgrTick s tick).2 →
        ∀ dep ∈ (table i).deps, sysmgrResState s dep = .ready) ∧
      (∀ i < s.count,
        (∃ dep ∈ (table i).deps,
          sysmgrResState s dep = .degraded ∨ sysmgrResState s dep = .failed) →
        (∀ more,
          .init i ∉ sysmgrCalls table count hasReset before (ticks ++ more)) ∧
        (i < sysmgrCurrent s → (s.rt i).state = .degraded) ∧
        (i = sysmgrCurrent s →
          ∀ tick, ((sysmgrTick s tick).1.rt i).state = .degraded)) ∧
      ∀ i,
        calls.count (.reset i) ≤ 1 ∧
          (.reset i ∈ calls →
            (table i).onExhausted = .systemReset ∧
              calls.count (.init i) = (table i).maxRetries.toNat + 1) := by
  intro s calls
  have sequential : s.Sequential calls :=
    sysmgrRun_sequential table count hasReset before earlier retries ticks
  have sameTable : s.table = table :=
    ((sysmgrInit_sequential hasReset before earlier retries).run_keeps ticks).1
  have continued (more : List SysmgrTick) :
      sysmgrRun table count hasReset before (ticks ++ more) =
        Machine.final sysmgrTick s more :=
    Machine.final_append sysmgrTick _ ticks more
  refine ⟨⟨fun i => terminal_of_lt_current, ?_⟩, ?_, ?_, ?_, ?_⟩
  · intro i inside later
    have fresh :=
      sequential.inOrder _ i later inside
        (current_not_terminal (Nat.lt_trans later inside))
    exact (sequential.entries i inside).fresh_of_uninit (by rw [fresh]; rfl)
  · intro i terminal more
    rw [continued]
    exact (sequential.run_keeps more).2.2 i terminal
  · intro tick i called dep member
    rcases sequential.tick tick with unchanged | ⟨_, next, events, ticked, own, _, ready⟩
    · simp [unchanged] at called
    · rw [ticked] at called
      have same : i = sysmgrCurrent s := own _ called
      subst same
      exact ready called dep (by rwa [sameTable])
  · intro i inside lostInTable
    have lost : s.DepLost i := by
      rwa [Sysmgr.DepLost, sameTable]
    have silent := (sequential.entries i inside).silent_of_lost lost
    refine ⟨fun more called => ?_, fun passed => ?_, fun current tick => ?_⟩
    · have later :=
        sysmgrRun_sequential table count hasReset before earlier retries
          (ticks ++ more)
      rw [continued] at later
      have stillInside : i < (Machine.final sysmgrTick s more).count := by
        rwa [(sequential.run_keeps more).2.1]
      exact ((later.entries i stillInside).silent_of_lost
        (sequential.run_lost more lost)).2 _ called rfl
    · have terminal := terminal_of_lt_current passed
      rcases silent.1 with fresh | degraded
      · simp [fresh, sysmgrUntouched, sysmgrIsTerminal] at terminal
      · exact degraded
    · subst current
      have pending := current_not_terminal inside
      rcases silent.1 with fresh | degraded
      · have uninit : (s.rt (sysmgrCurrent s)).state = .uninit := by
          rw [fresh]
          rfl
        rw [sysmgrTick_cascade inside uninit lost, Sysmgr.set_rt_self]
      · simp [degraded, sysmgrIsTerminal] at pending
  · intro i
    by_cases inside : i < s.count
    · have resets := (sequential.entries i inside).resets
      rwa [sameTable] at resets
    · have absent : .reset i ∉ calls :=
        fun member => inside (sequential.inside _ member)
      exact ⟨by simp [List.count_eq_zero.mpr absent], fun member => absurd member absent⟩

/--
A bus that fails twice asks for a reset; the resource that depends on it is
given up without a try.
-/
theorem failed_bus_is_sequential :
    let bus : SysmgrResource :=
      { id := 7
        deps := []
        hasPollReady := true
        initTimeoutMs := 100
        maxRetries := 1
        onExhausted := .systemReset }
    let table : Nat → SysmgrResource := fun i =>
      if i = 0 then bus else { bus with id := 9, deps := [7] }
    let fails : SysmgrTick := { nowMs := 5, initRc := 1, pollRc := 0 }
    let calls :=
      sysmgrCalls table 2 true (fun _ => sysmgrUntouched) [fails, fails, fails]
    calls = [.init 0, .init 0, .reset 0] ∧ calls.count (.reset 0) ≤ 1 := by
  intro bus table fails calls
  refine ⟨by decide, ?_⟩
  have earlier : SysmgrDepsEarlier table 2 := by
    intro i inside
    match i with
    | 0 => simp [table, bus]
    | 1 => exact fun dep member => ⟨0, by decide, by simpa [table, bus, eq_comm] using member⟩
  have retries : ∀ i < 2, (table i).maxRetries.toNat < 255 := by
    decide
  exact
    ((bring_up_is_sequential table 2 true (fun _ => sysmgrUntouched) earlier
      retries [fails, fails, fails]).2.2.2.2 0).1

end BringUp

end TraveoBodyDomain
