import Mathlib.Tactic.Common
import TraveoBodyDomain.Secoc.EpochRecovery

/-!
# Recovering from an epoch wrap

A sender bumped from epoch 0xFFFF starts again at 0.  Its receiver can hear it
again, and still refuse what it accepted, exactly when epoch 0xFFFF has a counter
left for it: of that epoch it accepts only what it has not reached since its last
boot, and it never leaves it.
-/

namespace TraveoBodyDomain

/-!
## What recovering needs
-/

/-- What the receiver hears passes its check, with a counter that was spent. -/
theorem Hears.passes
    {config : FreshnessConfig}
    {pair : FreshnessPair}
    {accepted : List FreshValue}
    {canId : UInt16}
    (heard : Hears config pair accepted canId) :
    ∃ epoch counter,
      counter ≠ 0 ∧
        ⟨canId, epoch, counter⟩ ∉ accepted ∧
        secocRxCheck pair.rx canId epoch counter = .ok := by
  obtain ⟨value, isNew, rfl, ran⟩ := heard
  have taken :
      ∃ epoch counter tx store,
        secocTxNext durablePort pair.tx value.canId (pair.txStore.arm []) =
            (some (epoch, counter), tx, store) ∧
          value = ⟨value.canId, epoch, counter⟩ ∧
          secocRxCheck pair.rx value.canId value.epoch value.counter = .ok := by
    rcases issues :
        secocTxNext durablePort pair.tx value.canId (pair.txStore.arm []) with
        ⟨issued, tx, store⟩
    cases issued with
    | none =>
        simp only [Machine.trace, freshnessStep, issues, issueOf,
          Option.toList_none, List.map_nil, List.nil_append,
          List.append_nil] at ran
        split at ran
        · split at ran
          · cases ran
          · cases ran
        · cases ran
    | some pairIssued =>
        obtain ⟨epoch, counter⟩ := pairIssued
        simp only [Machine.trace, freshnessStep, issues, issueOf,
          Option.toList_some, List.map_cons, List.map_nil, List.append_nil,
          List.singleton_append, List.cons.injEq,
          FreshnessEvent.issued.injEq] at ran
        refine ⟨epoch, counter, tx, store, rfl, ran.1.symm, ?_⟩
        by_contra dropped
        have ranNext := ran.2
        rw [if_neg (fun both => dropped both.2)] at ranNext
        cases ranNext
  obtain ⟨epoch, counter, tx, store, issues, isValue, passes⟩ := taken
  refine ⟨value.epoch, value.counter, ?_, isNew, passes⟩
  have isCounter : value.counter = counter := by rw [isValue]
  rw [isCounter]
  rcases secocTxNext_cases issues with
      ⟨noIssue, -⟩ | ⟨slot, -, ⟨-, -, issued, -⟩ | ⟨room, -, issued, -⟩⟩
  · cases noIssue
  · cases issued
    decide
  · cases issued
    intro wraps
    exact room (by grind)

section Needed

variable {config : FreshnessConfig}
  {pair : FreshnessPair}
  {accepted : List FreshValue}
  {wanted : List UInt16}
  {continuation : List FreshnessAction}
  {canId : UInt16}

/-- A receiver that hears anything runs. -/
theorem Recovery.running
    (recovery : Recovery config pair accepted wanted continuation)
    (isWanted : canId ∈ wanted) :
    (Machine.final (freshnessStep config) pair continuation).rx.storeSet =
      true := by
  obtain ⟨epoch, counter, -, -, passes⟩ :=
    (recovery.hears canId isWanted).passes
  obtain ⟨idx, found, -⟩ := secocRxCheck_ok.mp passes
  exact
    (Machine.final (freshnessStep config) pair continuation).rx.idsNeedStore
      (ids_ne_nil_of_findSlot found)

/-- A receiver that is at epoch 0xFFFF, and hears, would accept the last counter. -/
theorem Recovery.passesAtMax
    (inv : EpochInv config.rxDomain pair.rx pair.rxStore accepted)
    (recovery : Recovery config pair accepted wanted continuation)
    (isWanted : canId ∈ wanted)
    {other counter : UInt16}
    (old : ⟨other, 0xFFFF, counter⟩ ∈ accepted) :
    PassesAtMax (Machine.final (freshnessStep config) pair continuation).rx
      canId 0xFFFF := by
  obtain ⟨epoch, heard, -, -, passes⟩ :=
    (recovery.hears canId isWanted).passes
  obtain ⟨idx, found, -, rule⟩ := secocRxCheck_ok.mp passes
  have atMax :=
    (inv.run continuation).acceptedCurrent (recovery.running isWanted) _
      (List.mem_append_left _ old)
  have isMax : epoch = 0xFFFF := by
    rcases rule with newer | ⟨same, -⟩
    · exact
        absurd (UInt16.lt_of_le_of_lt atMax newer)
          (UInt16.not_lt.mpr (epoch_le_max epoch))
    · rw [same]
      exact UInt16.le_antisymm (epoch_le_max _) atMax
  subst isMax
  exact PassesAtMax.mono passes (epoch_le_max heard)

/-- What the receiver would have accepted, and refuses now, was used up. -/
theorem Recovery.used
    (recovery : Recovery config pair accepted wanted continuation)
    (live :
      (Machine.final (freshnessStep config) pair continuation).rx.storeSet =
        true)
    (registered : canId ∈ config.ids)
    {counter : UInt16}
    (spent : counter ≠ 0)
    (open_ : pair.rx.storeSet = true → PassesAtMax pair.rx canId counter)
    (old : ⟨canId, 0xFFFF, counter⟩ ∈ accepted) :
    ∃ later, counter ≤ later ∧
      ⟨canId, 0xFFFF, later⟩ ∈
        acceptedIn
          (Machine.trace (freshnessStep config) pair continuation) := by
  rcases passesAtMax_or_accepted registered spent open_ continuation with
    passes | used
  · exact
      absurd (passes live)
        (recovery.refuses _ (List.mem_append_left _ old))
  · exact used

/-- A recovery needs room in epoch 0xFFFF. -/
theorem room_of_recovery
    (inv : EpochInv config.rxDomain pair.rx pair.rxStore accepted)
    (registered : ∀ canId ∈ wanted, canId ∈ config.ids)
    (someWanted : wanted ≠ [])
    (recovery : Recovery config pair accepted wanted continuation) :
    MaxEpochHasRoom config pair accepted wanted := by
  obtain ⟨heard, isHeard⟩ := List.exists_mem_of_ne_nil _ someWanted
  have live := recovery.running isHeard
  have last :
      ∀ canId ∈ config.ids,
        canId ∈ wanted ∨ ¬Remembers pair accepted canId →
          ⟨canId, 0xFFFF, 0xFFFF⟩ ∉ accepted := by
    rintro canId isRegistered (isWanted | forgotten) old
    · exact
        recovery.refuses _ (List.mem_append_left _ old)
          (recovery.passesAtMax inv isWanted old)
    · have open_ : pair.rx.storeSet = true →
          PassesAtMax pair.rx canId 0xFFFF := by
        intro runs
        obtain ⟨counter, -, passes⟩ := passes_of_not_remembers forgotten runs
        exact passes.mono (epoch_le_max counter)
      obtain ⟨later, notBefore, new⟩ :=
        recovery.used live isRegistered (by decide) open_ old
      have isLast := UInt16.le_antisymm (epoch_le_max later) notBefore
      exact recovery.onlyNew _ (isLast ▸ new) old
  refine ⟨last, fun canId isWanted forgotten old => ?_⟩
  have isRegistered := registered canId isWanted
  have open_ : pair.rx.storeSet = true →
      PassesAtMax pair.rx canId 0xFFFE := by
    intro runs
    obtain ⟨counter, before, passes⟩ := passes_of_not_remembers forgotten runs
    refine passes.mono (le_beforeLast ?_)
    rintro rfl
    exact last canId isRegistered (.inl isWanted) before
  obtain ⟨later, notBefore, new⟩ :=
    recovery.used live isRegistered (by decide) open_ old
  by_cases isLast : later = 0xFFFF
  · subst isLast
    exact
      recovery.refuses _ (List.mem_append_right _ new)
        (recovery.passesAtMax inv isWanted old)
  · have same := UInt16.le_antisymm (le_beforeLast isLast) notBefore
    exact recovery.onlyNew _ (same ▸ new) old

end Needed

/-!
## Using up epoch 0xFFFF
-/

/-- Both ends are in epoch 0xFFFF, with the first `spent` counters used. -/
structure UsedUpTo
    (canId : UInt16)
    (pair : FreshnessPair)
    (spent : Nat) : Prop where
  epoch : pair.tx.epoch = 0xFFFF
  counter :
    ∃ idx,
      findSlot pair.tx.ids canId = some idx ∧
        (pair.tx.counterAt idx).toNat = spent
  passes :
    ∀ counter : UInt16,
      spent < counter.toNat →
        secocRxCheck pair.rx canId 0xFFFF counter = .ok

section UsedUp

variable {config : FreshnessConfig}
  {canId : UInt16}
  {pair : FreshnessPair}
  {spent : Nat}

/-- After a value of the highest epoch only later counters of it pass. -/
theorem secocRxCheck_after_accept
    {ctx ctxAfter : SecocRxCtx}
    {store storeAfter : FreshnessStore}
    {canId counter later : UInt16}
    (passes : secocRxCheck ctx canId 0xFFFF counter = .ok)
    (ran :
      secocRxAccept durablePort ctx canId 0xFFFF counter store =
        (true, ctxAfter, storeAfter))
    (isLater : counter < later) :
    secocRxCheck ctxAfter canId 0xFFFF later = .ok := by
  obtain ⟨slot, found, aboveFloor, rule⟩ := secocRxCheck_ok.mp passes
  obtain ⟨inRange, -⟩ := findSlot_some found
  rw [secocRxCheck_ok]
  rcases secocRxAccept_cases ran with
      ⟨failed, -⟩ |
      ⟨idx, -, foundAgain, ⟨-, -, rfl⟩ | ⟨notNewer, -, rfl⟩⟩
  · cases failed
  · cases found.symm.trans foundAgain
    refine ⟨slot, found, aboveFloor, Or.inr ⟨rfl, ?_⟩⟩
    rw [@SecocRxCtx.setHigh_highAt_same (ctx.adopt 0xFFFF) slot counter inRange]
    exact isLater
  · cases found.symm.trans foundAgain
    rcases rule with newer | ⟨same, -⟩
    · exact absurd newer (UInt16.not_lt.mpr notNewer)
    · refine ⟨slot, found, aboveFloor, Or.inr ⟨same, ?_⟩⟩
      rw [SecocRxCtx.setHigh_highAt_same counter inRange]
      exact isLater

/-- One more exchange uses one more counter. -/
theorem UsedUpTo.next
    (used : UsedUpTo canId pair spent)
    (room : spent < 0xFFFF) :
    UsedUpTo canId
        (Machine.final (freshnessStep config) pair
          (exchange canId (spent + 1)))
        (spent + 1) ∧
      acceptedIn
          (Machine.trace (freshnessStep config) pair
            (exchange canId (spent + 1))) =
        [⟨canId, 0xFFFF, UInt16.ofNat (spent + 1)⟩] := by
  obtain ⟨idx, found, reached⟩ := used.counter
  have notFull : pair.tx.counterAt idx ≠ 0xFFFF := by
    intro full
    rw [full] at reached
    exact absurd room (reached ▸ by decide)
  have counted :
      (pair.tx.counterAt idx + 1).toNat = spent + 1 := by
    rw [toNat_succ_of_room (reached ▸ room), reached]
  have isNext : UInt16.ofNat (spent + 1) = pair.tx.counterAt idx + 1 := by
    rw [← counted, UInt16.ofNat_toNat]
  have passes :
      secocRxCheck pair.rx canId 0xFFFF (pair.tx.counterAt idx + 1) = .ok :=
    used.passes _ (counted ▸ Nat.lt_succ_self spent)
  obtain ⟨txStore, rx, rxStore, ran, leads⟩ :=
    @send_then_deliver config _ _ _ found notFull (used.epoch ▸ passes)
  rw [used.epoch] at ran leads
  obtain ⟨inRange, -⟩ := findSlot_some found
  rw [exchange, isNext, leads.1, leads.2]
  refine ⟨⟨used.epoch, ⟨idx, found, ?_⟩, ?_⟩, rfl⟩
  · exact
      (congrArg UInt16.toNat
        (SecocTxCtx.setCounter_counterAt_same _ inRange)).trans counted
  · intro later isLater
    refine secocRxCheck_after_accept passes ran ?_
    rw [UInt16.lt_iff_toNat_lt, counted]
    exact isLater

/-- Exchanging frame after frame uses counter after counter. -/
theorem UsedUpTo.run
    (unused : UsedUpTo canId pair 0)
    (times : Nat)
    (enough : times ≤ 0xFFFF) :
    let actions :=
      (List.range times).flatMap fun spent =>
        exchange canId (spent + 1)
    UsedUpTo canId (Machine.final (freshnessStep config) pair actions) times ∧
      ∀ spent < times,
        ⟨canId, 0xFFFF, UInt16.ofNat (spent + 1)⟩ ∈
          acceptedIn (Machine.trace (freshnessStep config) pair actions) := by
  induction times with
  | zero =>
      exact ⟨unused, fun _ below => absurd below (Nat.not_lt_zero _)⟩
  | succ times inductionHypothesis =>
      obtain ⟨used, accepted⟩ :=
        inductionHypothesis (Nat.le_of_succ_le enough)
      obtain ⟨usedNext, acceptedNext⟩ :=
        @UsedUpTo.next config _ _ _ used enough
      simp only [List.range_succ, List.flatMap_append, List.flatMap_cons,
        List.flatMap_nil, List.append_nil, Machine.final_append,
        Machine.trace_append, acceptedIn_append, acceptedNext]
      refine ⟨usedNext, fun spent below => ?_⟩
      rcases Nat.lt_succ_iff_lt_or_eq.mp below with earlier | rfl
      · exact List.mem_append_left _ (accepted spent earlier)
      · exact List.mem_append_right _ (List.mem_singleton_self _)

/-- The frame after the last counter of epoch 0xFFFF wraps the epoch. -/
theorem UsedUpTo.wraps
    (used : UsedUpTo canId pair spent)
    (isMax : spent = 0xFFFF) :
    (freshnessStep config pair (.send canId [])).1.tx.epoch = 0 ∧
      acceptedIn (freshnessStep config pair (.send canId [])).2 = [] := by
  obtain ⟨idx, found, reached⟩ := used.counter
  have full : pair.tx.counterAt idx = 0xFFFF :=
    UInt16.toNat.inj (reached.trans isMax)
  obtain ⟨next, committed, -⟩ :=
    @DurableMap.commit_reliable _ _ _ _ pair.tx.domain (pair.tx.epoch + 1)
      (reliable_arm_nil pair.txStore)
  refine ⟨?_, acceptedIn_map_issued _⟩
  have wrapped : pair.tx.epoch + 1 = 0 := by
    rw [used.epoch]
    rfl
  simp only [freshnessStep, secocTxNext, found, full, ↓reduceIte,
    durablePort_commit, committed]
  exact wrapped

end UsedUp

/--
A run with as many reboots as exchanges: with 0xFFFF of them, it accepts every
value `canId` has in epoch 0xFFFF.
-/
def exhaustingRun
    (canId : UInt16)
    (times : Nat) :
    List FreshnessAction :=
  (.rxReboot :: List.replicate times (.txReboot [])) ++
    (List.range times).flatMap fun spent => exchange canId (spent + 1)

/-- With 0xFFFF reboots and exchanges no value of epoch 0xFFFF is left. -/
theorem usedUpTo_exhaustingRun
    {config : FreshnessConfig}
    {canId : UInt16}
    {times : Nat}
    (registered : canId ∈ config.ids)
    (isMax : times = 0xFFFF) :
    let pair := FreshnessPair.unpowered .blank .blank
    UsedUpTo canId
        (Machine.final (freshnessStep config) pair
          (exhaustingRun canId times))
        times ∧
      ∀ counter ≠ 0,
        ⟨canId, 0xFFFF, counter⟩ ∈
          acceptedIn
            (Machine.trace (freshnessStep config) pair
              (exhaustingRun canId times)) := by
  intro pair
  obtain ⟨more, rfl⟩ : ∃ more, times = more + 1 := ⟨0xFFFE, isMax⟩
  have someId : config.ids ≠ [] := List.ne_nil_of_mem registered
  obtain ⟨idx, found⟩ := findSlot_of_mem registered
  obtain ⟨storeAfter, rebooted⟩ :=
    txReboots someId more { pair with rx := config.rxUp 0 }
  have both :=
    Machine.Leads.cons (freshnessStep_rxReboot someId pair) rebooted
  have coldFloor : (0 : UInt16) + 1 ≤ 0xFFFF := by decide
  have coldEpoch : (0 : UInt16) < 0xFFFF := by decide
  have unused :
      UsedUpTo canId
        (Machine.final (freshnessStep config) pair
          (.rxReboot :: List.replicate (more + 1) (.txReboot [])))
        0 := by
    rw [both.1]
    refine ⟨?_, ⟨idx, found, ?_⟩, fun counter _ => ?_⟩
    · show (0 : UInt16) + UInt16.ofNat (more + 1) = 0xFFFF
      rw [isMax]
      decide
    · exact congrArg UInt16.toNat
        (SecocTxCtx.registered_counterAt _ _ _ _ idx)
    · exact
        secocRxCheck_ok.mpr ⟨idx, found, coldFloor, Or.inl coldEpoch⟩
  obtain ⟨used, accepted⟩ :=
    @UsedUpTo.run config _ _ unused (more + 1) (Nat.le_of_eq isMax)
  unfold exhaustingRun
  rw [Machine.final_append, Machine.trace_append, acceptedIn_append]
  refine ⟨used, fun counter spent => ?_⟩
  have notZero : counter.toNat ≠ 0 := fun zero =>
    spent (UInt16.toNat.inj zero)
  have small := counter.toNat_lt
  have taken := accepted (counter.toNat - 1) (by omega)
  rw [Nat.sub_one_add_one notZero, UInt16.ofNat_toNat] at taken
  exact List.mem_append_right _ taken

/-- After such a run the next rollover takes the sender to epoch 0 for good. -/
theorem not_recovery_of_exhausted
    {config : FreshnessConfig}
    {canId : UInt16}
    {times : Nat}
    (registered : canId ∈ config.ids)
    (isMax : times = 0xFFFF) :
    let pair := FreshnessPair.unpowered .blank .blank
    let actions := exhaustingRun canId times
    let wrapping := actions ++ [.send canId []]
    let wrapped := Machine.final (freshnessStep config) pair wrapping
    let accepted :=
      acceptedIn (Machine.trace (freshnessStep config) pair wrapping)
    (Machine.final (freshnessStep config) pair actions).tx.epoch = 0xFFFF ∧
      wrapped.tx.epoch = 0 ∧
      ¬ ∃ continuation,
        Recovery config wrapped accepted [canId] continuation := by
  intro pair actions wrapping wrapped accepted
  obtain ⟨used, all⟩ :=
    @usedUpTo_exhaustingRun config canId times registered isMax
  refine ⟨used.epoch, ?_, ?_⟩
  · simp only [wrapped, wrapping, Machine.final_append, Machine.final_cons,
      Machine.final_nil]
    exact (@UsedUpTo.wraps config _ _ _ used isMax).1
  · rintro ⟨continuation, recovery⟩
    have inv := EpochInv.reached config .blank .blank wrapping
    have room :=
      room_of_recovery inv
        (fun _ member => List.mem_singleton.mp member ▸ registered)
        (List.cons_ne_nil _ _) recovery
    refine
      room.last canId registered (.inl (List.mem_singleton_self _)) ?_
    simp only [wrapping, Machine.trace_append, acceptedIn_append]
    exact List.mem_append_left _ (all 0xFFFF (by decide))

/-- Every value of the only ID was accepted in epoch 0xFFFF; then it wraps. -/
theorem exhausted_pair_never_recovers :
    let config : FreshnessConfig := ⟨0, 1, [0x120], by decide⟩
    let pair := FreshnessPair.unpowered .blank .blank
    let actions := exhaustingRun 0x120 0xFFFF
    let wrapping := actions ++ [.send 0x120 []]
    let wrapped := Machine.final (freshnessStep config) pair wrapping
    let accepted :=
      acceptedIn (Machine.trace (freshnessStep config) pair wrapping)
    (Machine.final (freshnessStep config) pair actions).tx.epoch = 0xFFFF ∧
      wrapped.tx.epoch = 0 ∧
      ¬ ∃ continuation,
        Recovery config wrapped accepted [0x120] continuation :=
  not_recovery_of_exhausted (.head _) rfl

/--
From every reachable state, whatever was lost, replayed, rebooted or failed
before, the receiver can hear the sender again on the IDs `wanted`, without
accepting anything twice then or later, exactly when epoch 0xFFFF has room for it.
-/
theorem pair_recovers_iff_max_epoch_has_room
    (config : FreshnessConfig)
    (txStore rxStore : FreshnessStore)
    (actions : List FreshnessAction)
    (wanted : List UInt16)
    (registered : ∀ canId ∈ wanted, canId ∈ config.ids) :
    let start := FreshnessPair.unpowered txStore rxStore
    let pair := Machine.final (freshnessStep config) start actions
    let accepted :=
      acceptedIn (Machine.trace (freshnessStep config) start actions)
    (∃ continuation, Recovery config pair accepted wanted continuation) ↔
      wanted = [] ∨ MaxEpochHasRoom config pair accepted wanted := by
  intro start pair accepted
  have inv := EpochInv.reached config txStore rxStore actions
  have configured : pair.rx.storeSet = true → pair.rx.ids = config.ids :=
    @receiver_ids config start (fun live => by cases live) actions
  constructor
  · rintro ⟨continuation, recovery⟩
    by_cases nothing : wanted = []
    · exact .inl nothing
    · exact .inr (room_of_recovery inv registered nothing recovery)
  · rintro (rfl | room)
    · exact ⟨_, recovery_of_nothing_wanted config pair accepted⟩
    by_cases someId : config.ids = []
    · have nothing : wanted = [] :=
        List.eq_nil_iff_forall_not_mem.mpr fun canId isWanted =>
          absurd (registered canId isWanted) (someId ▸ List.not_mem_nil)
      subst nothing
      exact ⟨_, recovery_of_nothing_wanted config pair accepted⟩
    by_cases atMax : persistedEpoch pair.rxStore config.rxDomain = 0xFFFF
    · refine
        recovery_at_max inv configured (fun canId isRegistered notLast => ?_)
          registered someId atMax room
      -- Only the last counter, accepted, keeps the last counter out.
      rcases
        @passesAtMax_or_accepted config start _ 0xFFFF isRegistered (by decide)
          (fun live => by cases live) actions with
        passes | ⟨later, notBefore, old⟩
      · exact passes
      · have isLast := UInt16.le_antisymm (epoch_le_max later) notBefore
        exact absurd (isLast ▸ old) notLast
    · exact recovery_below_max inv registered someId atMax

/-- A sender rebooted past 0xFFFF after one frame of that epoch. -/
theorem wrapped_sender_is_heard_again :
    let config : FreshnessConfig := ⟨0, 1, [0x120, 0x121], by decide⟩
    let txStore : FreshnessStore := (DurableMap.blank.commit 0 0xFFFE).2
    let start := FreshnessPair.unpowered txStore .blank
    let actions : List FreshnessAction :=
      [.txReboot [], .rxReboot, .send 0x120 [], .deliver ⟨0x120, 0xFFFF, 1⟩ [],
        .txReboot []]
    let pair := Machine.final (freshnessStep config) start actions
    let accepted :=
      acceptedIn (Machine.trace (freshnessStep config) start actions)
    pair.tx.epoch = 0 ∧
      accepted = [⟨0x120, 0xFFFF, 1⟩] ∧
      ∃ continuation,
        Recovery config pair accepted [0x120, 0x121] continuation := by
  intro config txStore start actions pair accepted
  have isAccepted : accepted = [⟨0x120, 0xFFFF, 1⟩] := by decide
  refine ⟨by decide, isAccepted, ?_⟩
  refine
    (pair_recovers_iff_max_epoch_has_room config txStore .blank actions
      [0x120, 0x121] (fun _ member => member)).mpr
      (.inr ⟨fun canId _ _ => ?_, fun canId _ _ => ?_⟩)
  all_goals
    show _ ∉ accepted
    rw [isAccepted]
    simp

end TraveoBodyDomain
