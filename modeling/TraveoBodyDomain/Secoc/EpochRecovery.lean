import Mathlib.Tactic.Common
import Mathlib.Data.List.Dedup
import TraveoBodyDomain.Secoc.FreshnessPair

/-!
# Recovering in what epoch 0xFFFF has left

What it means that a receiver hears its sender again, and the continuations that
bring it there.  A receiver that never persisted 0xFFFF asks for a floor above
everything it accepted, and the sender adopts it.  One that did asks for floor 0
after every boot and never leaves that epoch: the sender reboots up to it, and
the two use late counters, so that the receiver refuses all the earlier ones.
-/

namespace TraveoBodyDomain

/--
The next frame of `canId`, delivered at once, is accepted, with a value that
was not accepted before.
-/
def Hears
    (config : FreshnessConfig)
    (pair : FreshnessPair)
    (accepted : List FreshValue)
    (canId : UInt16) : Prop :=
  ∃ value ∉ accepted,
    value.canId = canId ∧
      Machine.trace (freshnessStep config) pair
          [.send canId [], .deliver value []] =
        [.issued value, .accepted value]

/--
A continuation in which no commit fails and nothing is accepted again, after
which the receiver hears the sender on each of the IDs `wanted`, and still
refuses every value it ever accepted.
-/
structure Recovery
    (config : FreshnessConfig)
    (pair : FreshnessPair)
    (accepted : List FreshValue)
    (wanted : List UInt16)
    (continuation : List FreshnessAction) : Prop where
  commits :
    ∀ action ∈ continuation, ∀ outcome ∈ action.outcomes,
      outcome = .acknowledged
  onlyOnce :
    (acceptedIn
      (Machine.trace (freshnessStep config) pair continuation)).Nodup
  onlyNew :
    ∀ value ∈ acceptedIn
        (Machine.trace (freshnessStep config) pair continuation),
      value ∉ accepted
  hears :
    ∀ canId ∈ wanted,
      Hears config
        (Machine.final (freshnessStep config) pair continuation)
        (accepted ++
          acceptedIn
            (Machine.trace (freshnessStep config) pair continuation))
        canId
  refuses :
    ∀ value ∈ accepted ++
        acceptedIn (Machine.trace (freshnessStep config) pair continuation),
      secocRxCheck
          (Machine.final (freshnessStep config) pair continuation).rx
          value.canId value.epoch value.counter ≠ .ok

/-- The receiver runs, and refuses what it accepted of this ID in epoch 0xFFFF. -/
structure Remembers
    (pair : FreshnessPair)
    (accepted : List FreshValue)
    (canId : UInt16) : Prop where
  running : pair.rx.storeSet = true
  refused :
    ∀ counter, ⟨canId, 0xFFFF, counter⟩ ∈ accepted →
      ¬PassesAtMax pair.rx canId counter

/--
What epoch 0xFFFF has left is enough: one counter, the last, for an ID that is to
be heard again, one for an ID whose values the receiver has to be made to refuse,
and two for an ID that is both.
-/
structure MaxEpochHasRoom
    (config : FreshnessConfig)
    (pair : FreshnessPair)
    (accepted : List FreshValue)
    (wanted : List UInt16) : Prop where
  last :
    ∀ canId ∈ config.ids,
      canId ∈ wanted ∨ ¬Remembers pair accepted canId →
        ⟨canId, 0xFFFF, 0xFFFF⟩ ∉ accepted
  beforeLast :
    ∀ canId ∈ wanted, ¬Remembers pair accepted canId →
      ⟨canId, 0xFFFF, 0xFFFE⟩ ∉ accepted

/-- A receiver that does not remember an ID lets one of its values pass again. -/
theorem passes_of_not_remembers
    {pair : FreshnessPair}
    {accepted : List FreshValue}
    {canId : UInt16}
    (forgotten : ¬Remembers pair accepted canId)
    (live : pair.rx.storeSet = true) :
    ∃ counter, ⟨canId, 0xFFFF, counter⟩ ∈ accepted ∧
      PassesAtMax pair.rx canId counter := by
  by_contra none
  exact forgotten ⟨live, fun counter old passes => none ⟨counter, old, passes⟩⟩

/-- A counter that is not the last one is not above the one before it. -/
theorem le_beforeLast
    {counter : UInt16}
    (notLast : counter ≠ 0xFFFF) :
    counter ≤ 0xFFFE := by
  have below := UInt16.lt_of_le_of_ne (epoch_le_max counter) notLast
  rw [UInt16.lt_iff_toNat_lt] at below
  exact UInt16.le_iff_toNat_le.mpr (Nat.le_of_lt_succ below)

/-!
## The continuations
-/

section Hearing

variable {config : FreshnessConfig}
  {pair : FreshnessPair}
  {accepted : List FreshValue}
  {canId : UInt16}
  {idx : Nat}

/-- The receiver hears an ID whose next value passes and is new. -/
theorem hears_of_passes
    (found : findSlot pair.tx.ids canId = some idx)
    (room : pair.tx.counterAt idx ≠ 0xFFFF)
    (passes :
      secocRxCheck pair.rx canId pair.tx.epoch (pair.tx.counterAt idx + 1) =
        .ok)
    (isNew :
      ⟨canId, pair.tx.epoch, pair.tx.counterAt idx + 1⟩ ∉ accepted) :
    Hears config pair accepted canId := by
  obtain ⟨txStore, rx, rxStore, -, leads⟩ :=
    @send_then_deliver config _ _ _ found room passes
  exact ⟨_, isNew, rfl, leads.2⟩

end Hearing

/-- Without RAM the receiver refuses everything. -/
theorem recovery_of_nothing_wanted
    (config : FreshnessConfig)
    (pair : FreshnessPair)
    (accepted : List FreshValue) :
    Recovery config pair accepted [] [.rxPowerLoss] where
  commits := by simp [FreshnessAction.outcomes]
  onlyOnce := List.nodup_nil
  onlyNew := fun _ absent => absurd absent List.not_mem_nil
  hears := fun _ absent => absurd absent List.not_mem_nil
  refuses := by
    intro value _ passes
    obtain ⟨idx, found, -⟩ := secocRxCheck_ok.mp passes
    exact ids_ne_nil_of_findSlot found rfl

/-- A pair whose receiver never persisted 0xFFFF recovers by a boot sync. -/
theorem recovery_below_max
    {config : FreshnessConfig}
    {pair : FreshnessPair}
    {accepted : List FreshValue}
    {wanted : List UInt16}
    (inv : EpochInv config.rxDomain pair.rx pair.rxStore accepted)
    (registered : ∀ canId ∈ wanted, canId ∈ config.ids)
    (someId : config.ids ≠ [])
    (below : persistedEpoch pair.rxStore config.rxDomain ≠ 0xFFFF) :
    ∃ continuation, Recovery config pair accepted wanted continuation := by
  let persisted := persistedEpoch pair.rxStore config.rxDomain
  have rises : persisted < persisted + 1 := by grind
  obtain ⟨storeBooted, txBooted, -⟩ :=
    freshnessStep_txReboot someId
      { pair with rx := config.rxUp persisted }
  obtain ⟨reached, storeAfter, floorReached, synced⟩ :=
    @freshnessStep_deliverSync config
      { pair with
        rx := config.rxUp persisted
        tx := config.txUp (persistedEpoch pair.txStore config.txDomain + 1)
        txStore := storeBooted
        syncs := pair.syncs ++ [persisted + 1] }
      (persisted + 1) _
      (List.mem_append_right _ (List.mem_singleton_self _)) rfl
  have syncSent :
      freshnessStep config
          { pair with
            rx := config.rxUp persisted
            tx := config.txUp (persistedEpoch pair.txStore config.txDomain + 1)
            txStore := storeBooted }
          .sendSync =
        ({ pair with
            rx := config.rxUp persisted
            tx := config.txUp (persistedEpoch pair.txStore config.txDomain + 1)
            txStore := storeBooted
            syncs := pair.syncs ++ [persisted + 1] },
          []) :=
    rfl
  have leads :
      Machine.Leads (freshnessStep config) pair
        [.rxReboot, .txReboot [], .sendSync, .deliverSync (persisted + 1) []]
        { pair with
          rx := config.rxUp persisted
          tx := config.txUp reached
          txStore := storeAfter
          syncs := pair.syncs ++ [persisted + 1] }
        [] :=
    .cons (freshnessStep_rxReboot someId pair)
      (.cons txBooted (.cons syncSent (.cons synced (.nil _ _))))
  refine
    ⟨[.rxReboot, .txReboot [], .sendSync, .deliverSync (persisted + 1) []],
      ?_, ?_, ?_, ?_, ?_⟩
  · simp [FreshnessAction.outcomes]
  · rw [leads.2]
    exact List.nodup_nil
  · rw [leads.2]
    exact fun _ member => absurd member List.not_mem_nil
  · rw [leads.1, leads.2]
    intro canId isWanted
    obtain ⟨idx, found⟩ := findSlot_of_mem (registered canId isWanted)
    have fresh : (config.txUp reached).counterAt idx = 0 :=
      SecocTxCtx.registered_counterAt _ _ _ _ idx
    refine hears_of_passes found ?_ ?_ ?_
    · rw [fresh]
      decide
    · exact
        secocRxCheck_ok.mpr
          ⟨idx, found, floorReached,
            Or.inl (UInt16.lt_of_lt_of_le rises floorReached)⟩
    · rw [acceptedIn_nil, List.append_nil]
      intro old
      have notAbove := inv.acceptedPersisted _ old
      exact
        absurd (UInt16.lt_of_lt_of_le rises floorReached)
          (UInt16.not_lt.mpr notAbove)
  · rw [leads.1, leads.2, acceptedIn_nil, List.append_nil]
    intro value old passes
    obtain ⟨idx, -, aboveFloor, -⟩ := secocRxCheck_ok.mp passes
    exact
      absurd (UInt16.lt_of_lt_of_le rises aboveFloor)
        (UInt16.not_lt.mpr (inv.acceptedPersisted value old))

/-- Both ends are in epoch 0xFFFF. -/
structure AtTop
    (config : FreshnessConfig)
    (pair : FreshnessPair) : Prop where
  epoch : pair.tx.epoch = 0xFFFF
  txIds : pair.tx.ids = config.ids
  current : pair.rx.current = 0xFFFF
  rxIds : pair.rx.ids = config.ids

/-- There only values of that epoch pass, of registered IDs. -/
theorem AtTop.passes
    {config : FreshnessConfig}
    {pair : FreshnessPair}
    (top : AtTop config pair)
    {value : FreshValue}
    (passes :
      secocRxCheck pair.rx value.canId value.epoch value.counter = .ok) :
    value.canId ∈ config.ids ∧ value.epoch = 0xFFFF ∧
      PassesAtMax pair.rx value.canId value.counter := by
  obtain ⟨idx, found, -, newer | ⟨same, -⟩⟩ := secocRxCheck_ok.mp passes
  · rw [top.current] at newer
    exact absurd newer (UInt16.not_lt.mpr (epoch_le_max _))
  · have isMax : value.epoch = 0xFFFF := same.trans top.current
    obtain ⟨inRange, isId⟩ := findSlot_some found
    refine ⟨?_, isMax, ?_⟩
    · rw [← top.rxIds, ← isId]
      exact List.getElem_mem inRange
    · rw [PassesAtMax, ← isMax]
      exact passes

/-- One frame of epoch 0xFFFF, sent and delivered. -/
def exchange
    (canId : UInt16)
    (counter : Nat) :
    List FreshnessAction :=
  [.send canId [], .deliver ⟨canId, 0xFFFF, UInt16.ofNat counter⟩ []]

/-- The frames of an ID up to this counter: all lost, but for the last. -/
def raising (canId counter : UInt16) : List FreshnessAction :=
  List.replicate (counter.toNat - 1) (.send canId []) ++
    exchange canId counter.toNat

/-- IDs were raised: each has used its counters up to its target. -/
structure Raised
    (config : FreshnessConfig)
    (target : UInt16 → UInt16)
    (canIds : List UInt16)
    (before after : FreshnessPair) : Prop where
  top : AtTop config after
  sent :
    ∀ canId ∈ canIds, ∀ idx, findSlot config.ids canId = some idx →
      after.tx.counterAt idx = target canId
  unsent :
    ∀ canId ∉ canIds, ∀ idx, findSlot config.ids canId = some idx →
      after.tx.counterAt idx = before.tx.counterAt idx
  passes :
    ∀ canId ∈ canIds, ∀ counter,
      PassesAtMax after.rx canId counter ↔ target canId < counter
  unchanged :
    ∀ canId ∉ canIds, ∀ counter,
      PassesAtMax after.rx canId counter ↔ PassesAtMax before.rx canId counter

namespace Raised

variable {config : FreshnessConfig}
  {target : UInt16 → UInt16}
  {pair : FreshnessPair}

/-- Raising one ID. -/
theorem one
    (top : AtTop config pair)
    {canId : UInt16}
    {idx : Nat}
    (found : findSlot config.ids canId = some idx)
    (unused : pair.tx.counterAt idx = 0)
    (spent : target canId ≠ 0)
    (passes : PassesAtMax pair.rx canId (target canId)) :
    ∃ last,
      Raised config target [canId] pair last ∧
        Machine.final (freshnessStep config) pair
            (raising canId (target canId)) = last ∧
        acceptedIn
            (Machine.trace (freshnessStep config) pair
              (raising canId (target canId))) =
          [⟨canId, 0xFFFF, target canId⟩] := by
  have notZero : (target canId).toNat ≠ 0 := fun zero =>
    spent (UInt16.toNat.inj zero)
  have small := (target canId).toNat_lt
  have txFound : findSlot pair.tx.ids canId = some idx := top.txIds ▸ found
  have rxFound : findSlot pair.rx.ids canId = some idx := top.rxIds ▸ found
  obtain ⟨onlySent, quiet, reached, others⟩ :=
    @sends config canId idx ((target canId).toNat - 1) pair txFound (by
      rw [unused]
      simp only [UInt16.toNat_zero]
      omega)
  generalize sentPair :
      Machine.final (freshnessStep config) pair
        (List.replicate ((target canId).toNat - 1) (.send canId [])) = middle
      at onlySent reached others
  rw [unused, UInt16.toNat_zero, Nat.zero_add] at reached
  have room : middle.tx.counterAt idx ≠ 0xFFFF := by
    intro full
    rw [full] at reached
    simp only [UInt16.reduceToNat] at reached
    omega
  have isNext : middle.tx.counterAt idx + 1 = target canId := by
    apply UInt16.toNat.inj
    rw [toNat_succ_of_room (by omega), reached, Nat.sub_one_add_one notZero]
  have middleFound : findSlot middle.tx.ids canId = some idx :=
    onlySent.ids ▸ txFound
  obtain ⟨txStore, rx, rxStore, ran, leads⟩ :=
    @send_then_deliver config middle canId idx middleFound room (by
      rw [isNext, onlySent.epoch, top.epoch, onlySent.rx]
      exact passes)
  rw [isNext, onlySent.epoch, top.epoch] at ran leads
  have taken : rx = pair.rx.setHigh idx (target canId) := by
    rw [onlySent.rx] at ran
    rcases secocRxAccept_cases ran with
        ⟨failed, -⟩ | ⟨slot, -, holds, ⟨newer, -⟩ | ⟨-, -, taken⟩⟩
    · cases failed
    · rw [top.current] at newer
      exact absurd newer (UInt16.lt_irrefl _)
    · cases rxFound.symm.trans holds
      exact taken
  obtain ⟨inRange, -⟩ := findSlot_some rxFound
  obtain ⟨txInRange, -⟩ := findSlot_some middleFound
  have otherSlot :
      ∀ other ∉ [canId], ∀ slot,
        findSlot config.ids other = some slot → slot ≠ idx := by
    rintro other notId slot holds rfl
    exact notId (List.mem_singleton.mpr (findSlot_injective holds found))
  refine ⟨_, ⟨⟨?_, ?_, ?_, ?_⟩, ?_, ?_, ?_, ?_⟩, rfl, ?_⟩
  all_goals
    simp only [raising, exchange, UInt16.ofNat_toNat, Machine.final_append,
      Machine.trace_append, sentPair, leads.1, leads.2, taken]
  · exact onlySent.epoch.trans top.epoch
  · exact onlySent.ids.trans top.txIds
  · exact top.current
  · exact top.rxIds
  · intro other isId slot holds
    cases List.mem_singleton.mp isId
    cases found.symm.trans holds
    exact SecocTxCtx.setCounter_counterAt_same _ txInRange
  · intro other notId slot holds
    have different := otherSlot other notId slot holds
    rw [SecocTxCtx.setCounter_counterAt_other _ different,
      others slot different]
  · intro other isId counter
    cases List.mem_singleton.mp isId
    rw [passesAtMax_iff]
    constructor
    · rintro ⟨slot, holds, above⟩
      cases rxFound.symm.trans holds
      rw [SecocRxCtx.setHigh_highAt_same _ inRange] at above
      exact above top.current
    · intro above
      refine ⟨idx, rxFound, fun _ => ?_⟩
      rw [SecocRxCtx.setHigh_highAt_same _ inRange]
      exact above
  · intro other notId counter
    rw [passesAtMax_iff, passesAtMax_iff]
    refine exists_congr fun slot => and_congr_right fun holds => ?_
    have different := otherSlot other notId slot (top.rxIds ▸ holds)
    rw [SecocRxCtx.setHigh_highAt_other _ different,
      SecocRxCtx.setHigh_current]
  · rw [acceptedIn_append, quiet]
    rfl

/-- Raising one ID, and then others. -/
theorem cons
    {middle last : FreshnessPair}
    {first : UInt16}
    {rest : List UInt16}
    (notAgain : first ∉ rest)
    (one : Raised config target [first] pair middle)
    (others : Raised config target rest middle last) :
    Raised config target (first :: rest) pair last where
  top := others.top
  sent := by
    intro canId member idx found
    rcases List.mem_cons.mp member with rfl | later
    · rw [others.unsent canId notAgain idx found]
      exact one.sent canId (List.mem_singleton_self _) idx found
    · exact others.sent canId later idx found
  unsent := by
    intro canId absent idx found
    obtain ⟨notFirst, notLater⟩ := not_or.mp (mt List.mem_cons.mpr absent)
    rw [others.unsent canId notLater idx found]
    exact one.unsent canId (mt List.mem_singleton.mp notFirst) idx found
  passes := by
    intro canId member counter
    rcases List.mem_cons.mp member with rfl | later
    · exact
        (others.unchanged canId notAgain counter).trans
          (one.passes canId (List.mem_singleton_self _) counter)
    · exact others.passes canId later counter
  unchanged := by
    intro canId absent counter
    obtain ⟨notFirst, notLater⟩ := not_or.mp (mt List.mem_cons.mpr absent)
    exact
      (others.unchanged canId notLater counter).trans
        (one.unchanged canId (mt List.mem_singleton.mp notFirst) counter)

/-- Raising each of several IDs, whose counters are unused. -/
theorem each
    {canIds : List UInt16}
    (top : AtTop config pair)
    (different : canIds.Nodup)
    (registered : ∀ canId ∈ canIds, canId ∈ config.ids)
    (unused :
      ∀ canId ∈ canIds, ∀ idx, findSlot config.ids canId = some idx →
        pair.tx.counterAt idx = 0)
    (spent : ∀ canId ∈ canIds, target canId ≠ 0)
    (passes : ∀ canId ∈ canIds, PassesAtMax pair.rx canId (target canId)) :
    let actions := canIds.flatMap fun canId => raising canId (target canId)
    Raised config target canIds pair
        (Machine.final (freshnessStep config) pair actions) ∧
      acceptedIn (Machine.trace (freshnessStep config) pair actions) =
        canIds.map fun canId => ⟨canId, 0xFFFF, target canId⟩ := by
  induction canIds generalizing pair with
  | nil =>
      exact
        ⟨⟨top, fun _ absent => absurd absent List.not_mem_nil,
            fun _ _ _ _ => rfl, fun _ absent => absurd absent List.not_mem_nil,
            fun _ _ _ => Iff.rfl⟩,
          rfl⟩
  | cons first rest inductionHypothesis =>
      obtain ⟨notAgain, restDifferent⟩ := List.nodup_cons.mp different
      have isHead : first ∈ first :: rest := List.mem_cons_self
      have isLater {canId : UInt16} (member : canId ∈ rest) :
          canId ∈ first :: rest := List.mem_cons_of_mem _ member
      have notFirst {canId : UInt16} (member : canId ∈ rest) :
          canId ∉ [first] := fun isFirst =>
        notAgain (List.mem_singleton.mp isFirst ▸ member)
      obtain ⟨slot, found⟩ := findSlot_of_mem (registered first isHead)
      obtain ⟨middle, raised, reached, taken⟩ :=
        one top found (unused first isHead slot found) (spent first isHead)
          (passes first isHead)
      obtain ⟨restRaised, restTaken⟩ :=
        @inductionHypothesis middle raised.top restDifferent
          (fun canId member => registered canId (isLater member))
          (fun canId member idx holds => by
            rw [raised.unsent canId (notFirst member) idx holds]
            exact unused canId (isLater member) idx holds)
          (fun canId member => spent canId (isLater member))
          (fun canId member =>
            (raised.unchanged canId (notFirst member) _).mpr
              (passes canId (isLater member)))
      intro actions
      simp only [actions, List.flatMap_cons, Machine.final_append,
        Machine.trace_append, acceptedIn_append, reached, taken, restTaken]
      exact ⟨raised.cons notAgain restRaised, rfl⟩

end Raised

/-- What a pair is brought to before its counters are raised. -/
structure ReadyAtMax
    (config : FreshnessConfig)
    (pair : FreshnessPair)
    (accepted : List FreshValue)
    (ready : FreshnessPair) : Prop where
  top : AtTop config ready
  unused : ∀ idx, ready.tx.counterAt idx = 0
  refused :
    ∀ canId, Remembers pair accepted canId →
      ∀ counter, ⟨canId, 0xFFFF, counter⟩ ∈ accepted →
        ¬PassesAtMax ready.rx canId counter
  last :
    ∀ canId ∈ config.ids, ⟨canId, 0xFFFF, 0xFFFF⟩ ∉ accepted →
      PassesAtMax ready.rx canId 0xFFFF
  beforeLast :
    ∀ canId ∈ config.ids, ¬Remembers pair accepted canId →
      ⟨canId, 0xFFFF, 0xFFFF⟩ ∉ accepted →
        PassesAtMax ready.rx canId 0xFFFE

/--
The sender reboots up to epoch 0xFFFF.  The receiver keeps running when it is
there, so that it refuses what it remembers, and reboots when it is not.
-/
theorem exists_readyAtMax
    {config : FreshnessConfig}
    {pair : FreshnessPair}
    {accepted : List FreshValue}
    (inv : EpochInv config.rxDomain pair.rx pair.rxStore accepted)
    (configured : pair.rx.storeSet = true → pair.rx.ids = config.ids)
    (left :
      ∀ canId ∈ config.ids, ⟨canId, 0xFFFF, 0xFFFF⟩ ∉ accepted →
        pair.rx.storeSet = true → PassesAtMax pair.rx canId 0xFFFF)
    (someId : config.ids ≠ [])
    (atMax : persistedEpoch pair.rxStore config.rxDomain = 0xFFFF) :
    ∃ actions ready,
      Machine.Leads (freshnessStep config) pair actions ready [] ∧
        (∀ action ∈ actions, action.outcomes = []) ∧
        ReadyAtMax config pair accepted ready := by
  let persisted := persistedEpoch pair.txStore config.txDomain
  let more := (0xFFFE - persisted).toNat
  have isTop : persisted + UInt16.ofNat (more + 1) = 0xFFFF := by
    rw [UInt16.ofNat_add, UInt16.ofNat_toNat]
    grind
  have silent :
      ∀ action ∈ List.replicate (more + 1) (FreshnessAction.txReboot []),
        action.outcomes = [] := by
    intro action again
    rw [List.eq_of_mem_replicate again]
    rfl
  have unused : ∀ idx, (config.txUp 0xFFFF).counterAt idx = 0 :=
    SecocTxCtx.registered_counterAt _ _ _ _
  by_cases keeps : pair.rx.storeSet = true ∧ pair.rx.current = 0xFFFF
  · obtain ⟨live, current⟩ := keeps
    obtain ⟨storeAfter, rebooted⟩ := txReboots someId more pair
    rw [isTop] at rebooted
    refine
      ⟨_, _, rebooted, silent,
        ⟨rfl, rfl, current, configured live⟩, unused,
        fun canId remembers => remembers.refused,
        fun canId registered notLast => left canId registered notLast live,
        fun canId registered forgotten notLast => ?_⟩
    obtain ⟨counter, old, passes⟩ := passes_of_not_remembers forgotten live
    refine passes.mono (le_beforeLast ?_)
    rintro rfl
    exact notLast old
  · have rxRebooted := freshnessStep_rxReboot someId pair
    rw [atMax] at rxRebooted
    obtain ⟨storeAfter, rebooted⟩ :=
      txReboots someId more { pair with rx := config.rxUp 0xFFFF }
    rw [isTop] at rebooted
    refine
      ⟨_, _, .cons rxRebooted rebooted,
        List.forall_mem_cons.mpr ⟨rfl, silent⟩,
        ⟨rfl, rfl, rfl, rfl⟩, unused, fun canId remembers counter old => ?_,
        fun canId registered _ => rxUp_passesAtMax registered (by decide) _,
        fun canId registered _ _ => rxUp_passesAtMax registered (by decide) _⟩
    -- A receiver that runs in an earlier epoch accepted nothing of this one.
    have notAbove := inv.acceptedCurrent remembers.running _ old
    exact
      absurd
        ⟨remembers.running, UInt16.le_antisymm (epoch_le_max _) notAbove⟩ keeps

/-- An ID is heard that is about to send the last counter of epoch 0xFFFF. -/
theorem hears_at_max
    {config : FreshnessConfig}
    {pair : FreshnessPair}
    {accepted : List FreshValue}
    {canId : UInt16}
    {idx : Nat}
    (found : findSlot pair.tx.ids canId = some idx)
    (epoch : pair.tx.epoch = 0xFFFF)
    (reached : pair.tx.counterAt idx = 0xFFFE)
    (passes : PassesAtMax pair.rx canId 0xFFFF)
    (isNew : ⟨canId, 0xFFFF, 0xFFFF⟩ ∉ accepted) :
    Hears config pair accepted canId := by
  have isLast : pair.tx.counterAt idx + 1 = 0xFFFF := by
    rw [reached]
    rfl
  refine hears_of_passes found ?_ ?_ ?_
  · rw [reached]
    decide
  · rw [epoch, isLast]
    exact passes
  · rw [epoch, isLast]
    exact isNew

/-- Up to which counter an ID is raised that the receiver does not remember. -/
def raisedTo (wanted : List UInt16) (canId : UInt16) : UInt16 :=
  if canId ∈ wanted then 0xFFFE else 0xFFFF

/--
Where a continuation ends that has raised the IDs the receiver did not remember,
and lost the frames of the others that are wanted.
-/
structure SettledAtMax
    (config : FreshnessConfig)
    (pair : FreshnessPair)
    (accepted : List FreshValue)
    (wanted : List UInt16)
    (raisedIds : List UInt16)
    (last : FreshnessPair) : Prop where
  top : AtTop config last
  different : raisedIds.Nodup
  forgotten :
    ∀ canId, canId ∈ raisedIds ↔
      canId ∈ config.ids ∧ ¬Remembers pair accepted canId
  counter :
    ∀ canId ∈ wanted, ∀ idx, findSlot config.ids canId = some idx →
      last.tx.counterAt idx = 0xFFFE
  passes :
    ∀ canId ∈ wanted, PassesAtMax last.rx canId 0xFFFF
  remembered :
    ∀ canId, Remembers pair accepted canId →
      ∀ counter, ⟨canId, 0xFFFF, counter⟩ ∈ accepted →
        ¬PassesAtMax last.rx canId counter
  raised :
    ∀ canId ∈ raisedIds, ∀ counter,
      PassesAtMax last.rx canId counter → raisedTo wanted canId < counter

/-- Such a continuation exists when there is room. -/
theorem exists_settledAtMax
    {config : FreshnessConfig}
    {pair ready : FreshnessPair}
    {accepted : List FreshValue}
    {wanted : List UInt16}
    (isReady : ReadyAtMax config pair accepted ready)
    (registered : ∀ canId ∈ wanted, canId ∈ config.ids)
    (room : MaxEpochHasRoom config pair accepted wanted) :
    ∃ actions raisedIds last,
      Machine.final (freshnessStep config) ready actions = last ∧
        acceptedIn (Machine.trace (freshnessStep config) ready actions) =
          raisedIds.map (fun canId => ⟨canId, 0xFFFF, raisedTo wanted canId⟩) ∧
        (∀ action ∈ actions, action.outcomes = []) ∧
        SettledAtMax config pair accepted wanted raisedIds last := by
  classical
  let raisedIds :=
    config.ids.dedup.filter fun canId => ¬Remembers pair accepted canId
  let lostIds :=
    wanted.dedup.filter fun canId => Remembers pair accepted canId
  have forgotten : ∀ canId, canId ∈ raisedIds ↔
      canId ∈ config.ids ∧ ¬Remembers pair accepted canId := by
    intro canId
    simp only [raisedIds, List.mem_filter, List.mem_dedup, decide_eq_true_eq]
  have isLost : ∀ canId, canId ∈ lostIds ↔
      canId ∈ wanted ∧ Remembers pair accepted canId := by
    intro canId
    simp only [lostIds, List.mem_filter, List.mem_dedup, decide_eq_true_eq]
  have notRaised {canId : UInt16} (remembers : Remembers pair accepted canId) :
      canId ∉ raisedIds := fun member =>
    ((forgotten canId).mp member).2 remembers
  have different : raisedIds.Nodup := config.ids.nodup_dedup.filter _
  obtain ⟨raised, taken⟩ :=
    @Raised.each config (raisedTo wanted) ready raisedIds isReady.top different
      (fun canId member => ((forgotten canId).mp member).1)
      (fun canId _ idx _ => isReady.unused idx)
      (fun canId _ => by
        unfold raisedTo
        split <;> decide)
      (fun canId member => by
        obtain ⟨isRegistered, forgets⟩ := (forgotten canId).mp member
        have notLast := room.last canId isRegistered (.inr forgets)
        unfold raisedTo
        split
        · exact isReady.beforeLast canId isRegistered forgets notLast
        · exact isReady.last canId isRegistered notLast)
  generalize reachedRaised :
      Machine.final (freshnessStep config) ready
        (raisedIds.flatMap fun canId => raising canId (raisedTo wanted canId)) =
        middle at raised
  obtain ⟨onlySent, quiet, reached, others⟩ :=
    @sends_each config (fun _ => 0xFFFE) lostIds middle
      (wanted.nodup_dedup.filter _) (fun _ _ => by decide)
      (fun canId member =>
        raised.top.txIds ▸ registered canId ((isLost canId).mp member).1)
      (fun canId member idx found => by
        rw [raised.unsent canId (notRaised ((isLost canId).mp member).2) idx
          (raised.top.txIds ▸ found)]
        exact isReady.unused idx)
  rw [raised.top.txIds] at reached others
  refine
    ⟨(raisedIds.flatMap fun canId => raising canId (raisedTo wanted canId)) ++
        lostIds.flatMap fun canId => List.replicate 0xFFFE (.send canId []),
      raisedIds, _, rfl, ?_, ?_, ?_⟩
  · rw [Machine.trace_append, acceptedIn_append, reachedRaised, taken, quiet,
      List.append_nil]
  · intro action member
    rcases List.mem_append.mp member with isRaising | isLosing
    · obtain ⟨canId, -, inRaising⟩ := List.mem_flatMap.mp isRaising
      rcases List.mem_append.mp inRaising with again | inExchange
      · rw [List.eq_of_mem_replicate again]
        rfl
      · rcases List.mem_cons.mp inExchange with rfl | delivery
        · rfl
        · rw [List.mem_singleton.mp delivery]
          rfl
    · obtain ⟨canId, -, sending⟩ := List.mem_flatMap.mp isLosing
      rw [List.eq_of_mem_replicate sending]
      rfl
  rw [Machine.final_append, reachedRaised]
  refine ⟨⟨?_, ?_, ?_, ?_⟩, different, forgotten, ?_, ?_, ?_, ?_⟩
  · exact onlySent.epoch.trans raised.top.epoch
  · exact onlySent.ids.trans raised.top.txIds
  · rw [onlySent.rx]
    exact raised.top.current
  · rw [onlySent.rx]
    exact raised.top.rxIds
  · intro canId isWanted idx found
    by_cases remembers : Remembers pair accepted canId
    · exact
        UInt16.toNat.inj
          (reached canId ((isLost canId).mpr ⟨isWanted, remembers⟩) idx found)
    · have notLost : canId ∉ lostIds := fun member =>
        remembers ((isLost canId).mp member).2
      have isRaised :=
        (forgotten canId).mpr ⟨registered canId isWanted, remembers⟩
      rw [others canId notLost idx found, raised.sent canId isRaised idx found,
        raisedTo, if_pos isWanted]
  · intro canId isWanted
    have isRegistered := registered canId isWanted
    rw [onlySent.rx]
    by_cases remembers : Remembers pair accepted canId
    · exact
        (raised.unchanged canId (notRaised remembers) _).mpr
          (isReady.last canId isRegistered
            (room.last canId isRegistered (.inl isWanted)))
    · rw [raised.passes canId
        ((forgotten canId).mpr ⟨isRegistered, remembers⟩), raisedTo,
        if_pos isWanted]
      decide
  · intro canId remembers counter old
    rw [onlySent.rx, raised.unchanged canId (notRaised remembers)]
    exact isReady.refused canId remembers counter old
  · intro canId isRaised counter
    rw [onlySent.rx]
    exact (raised.passes canId isRaised counter).mp

/--
A pair whose receiver persisted 0xFFFF recovers in what is left of that epoch:
the sender reboots up to it, the receiver accepts a late counter of each ID it
does not remember, and frames of the other IDs that are wanted are lost until
only the last counter is left.
-/
theorem recovery_at_max
    {config : FreshnessConfig}
    {pair : FreshnessPair}
    {accepted : List FreshValue}
    {wanted : List UInt16}
    (inv : EpochInv config.rxDomain pair.rx pair.rxStore accepted)
    (configured : pair.rx.storeSet = true → pair.rx.ids = config.ids)
    (left :
      ∀ canId ∈ config.ids, ⟨canId, 0xFFFF, 0xFFFF⟩ ∉ accepted →
        pair.rx.storeSet = true → PassesAtMax pair.rx canId 0xFFFF)
    (registered : ∀ canId ∈ wanted, canId ∈ config.ids)
    (someId : config.ids ≠ [])
    (atMax : persistedEpoch pair.rxStore config.rxDomain = 0xFFFF)
    (room : MaxEpochHasRoom config pair accepted wanted) :
    ∃ continuation, Recovery config pair accepted wanted continuation := by
  obtain ⟨boots, ready, leads, bootsSilent, isReady⟩ :=
    exists_readyAtMax inv configured left someId atMax
  obtain ⟨actions, raisedIds, last, reached, taken, silent, settled⟩ :=
    exists_settledAtMax isReady registered room
  have ended :
      Machine.final (freshnessStep config) pair (boots ++ actions) = last := by
    rw [Machine.final_append, leads.1, reached]
  have values :
      acceptedIn (Machine.trace (freshnessStep config) pair (boots ++ actions)) =
        raisedIds.map fun canId => ⟨canId, 0xFFFF, raisedTo wanted canId⟩ := by
    rw [Machine.trace_append, leads.1, leads.2, List.nil_append, taken]
  -- What is accepted on the way is left over, of the IDs that were forgotten.
  have isNew : ∀ canId ∈ raisedIds,
      ⟨canId, 0xFFFF, raisedTo wanted canId⟩ ∉ accepted := by
    intro canId isRaised
    obtain ⟨isRegistered, forgets⟩ := (settled.forgotten canId).mp isRaised
    unfold raisedTo
    split
    next isWanted => exact room.beforeLast canId isWanted forgets
    next => exact room.last canId isRegistered (.inr forgets)
  refine ⟨boots ++ actions, ?_, ?_, ?_, ?_, ?_⟩
  · intro action member
    have none : action.outcomes = [] := by
      rcases List.mem_append.mp member with isBoot | isAction
      · exact bootsSilent action isBoot
      · exact silent action isAction
    rw [none]
    exact fun _ absent => absurd absent List.not_mem_nil
  · rw [values]
    exact
      settled.different.map fun first second same =>
        (FreshValue.mk.inj same).1
  · rw [values]
    intro value member
    obtain ⟨canId, isRaised, rfl⟩ := List.mem_map.mp member
    exact isNew canId isRaised
  · rw [ended, values]
    intro canId isWanted
    obtain ⟨idx, found⟩ := findSlot_of_mem (registered canId isWanted)
    refine
      hears_at_max (settled.top.txIds ▸ found) settled.top.epoch
        (settled.counter canId isWanted idx found)
        (settled.passes canId isWanted) fun old => ?_
    rcases List.mem_append.mp old with before | during
    · exact
        room.last canId (registered canId isWanted) (.inl isWanted) before
    · obtain ⟨raisedId, -, same⟩ := List.mem_map.mp during
      obtain ⟨rfl, -, isLast⟩ := FreshValue.mk.inj same
      rw [raisedTo, if_pos isWanted] at isLast
      exact absurd isLast (by decide)
  · rw [ended, values]
    intro value old passes
    obtain ⟨isRegistered, isMax, passesAtMax⟩ := settled.top.passes passes
    rcases List.mem_append.mp old with before | during
    · obtain ⟨canId, epoch, counter⟩ := value
      cases isMax
      by_cases remembers : Remembers pair accepted canId
      · exact settled.remembered canId remembers counter before passesAtMax
      · have above :=
          settled.raised canId
            ((settled.forgotten canId).mpr ⟨isRegistered, remembers⟩) counter
            passesAtMax
        have notLast :=
          room.last canId isRegistered (.inr remembers)
        have isLast : counter ≠ 0xFFFF := by
          rintro rfl
          exact notLast before
        unfold raisedTo at above
        split at above
        · exact UInt16.not_lt.mpr (le_beforeLast isLast) above
        · exact UInt16.not_lt.mpr (epoch_le_max counter) above
    · obtain ⟨canId, isRaised, rfl⟩ := List.mem_map.mp during
      exact
        UInt16.lt_irrefl _ (settled.raised canId isRaised _ passesAtMax)

end TraveoBodyDomain
