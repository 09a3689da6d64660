import Mathlib.Tactic.Common
import Mathlib.Data.List.GetD
import TraveoBodyDomain.Lib.DurableMap
import TraveoBodyDomain.Lib.Increasing

/-!
# SecOC freshness

The sender and receiver halves of `secoc_freshness.c`: a per-ID counter over a
shared epoch, the accept rule, and the persistence port both reach through.
The port has state, which every function threads.  NULL arguments are excluded
by the types; the one pointer that can be NULL in a running image, the store
pointer of a context that never booted, is the field `storeSet`.
-/

namespace TraveoBodyDomain

/-- `SECOC_MAX_IDS`. -/
def secocMaxIds : Nat :=
  8

/-- `secoc_freshness_store_if_t`; `load` is `none` on a slot never written. -/
structure FreshnessStoreIf (Store : Type) where
  load : Store → UInt8 → Option UInt16
  commit : Store → UInt8 → UInt16 → Bool × Store

/-- The store of the runs: a durable map from domains to epochs. -/
abbrev FreshnessStore :=
  DurableMap UInt8 UInt16

/-- The port over a durable map. -/
def durablePort : FreshnessStoreIf FreshnessStore where
  load := fun store domain => store.slot domain
  commit := DurableMap.commit

@[simp] theorem durablePort_load
    (store : FreshnessStore)
    (domain : UInt8) :
    durablePort.load store domain = store.slot domain :=
  rfl

@[simp] theorem durablePort_commit
    (store : FreshnessStore)
    (domain : UInt8)
    (epoch : UInt16) :
    durablePort.commit store domain epoch = store.commit domain epoch :=
  rfl

/-- What stops a node: `ctx->store->commit` through a NULL `ctx->store`. -/
inductive Fault where
  | nullStore
  deriving Repr, DecidableEq

/-!
## Freshness values
-/

/-- A freshness value of one CAN ID, issued or accepted. -/
structure FreshValue where
  canId : UInt16
  epoch : UInt16
  counter : UInt16
  deriving Repr, DecidableEq

/-- The pairs of one ID among `values`, in order. -/
def pairsOf
    (canId : UInt16)
    (values : List FreshValue) :
    List (UInt16 × UInt16) :=
  values.filterMap fun one =>
    if one.canId = canId then some (one.epoch, one.counter) else none

@[simp] theorem pairsOf_nil
    (canId : UInt16) :
    pairsOf canId [] = [] :=
  rfl

@[simp] theorem pairsOf_append
    (canId : UInt16)
    (first second : List FreshValue) :
    pairsOf canId (first ++ second) =
      pairsOf canId first ++ pairsOf canId second :=
  List.filterMap_append

/-- The pairs of an ID come from its values. -/
theorem mem_pairsOf
    {canId : UInt16}
    {values : List FreshValue}
    {pair : UInt16 × UInt16} :
    pair ∈ pairsOf canId values ↔ ⟨canId, pair.1, pair.2⟩ ∈ values := by
  constructor
  · intro member
    rcases List.mem_filterMap.mp member with ⟨one, oneMember, extracted⟩
    split at extracted
    next same =>
      cases extracted
      subst same
      exact oneMember
    next => cases extracted
  · intro member
    exact List.mem_filterMap.mpr ⟨_, member, by simp⟩

/-- Values whose pairs increase for each ID are all different. -/
theorem nodup_of_increasing
    {values : List FreshValue}
    (increasing :
      ∀ canId, (pairsOf canId values).Pairwise Increasing.lexLt) :
    values.Nodup := by
  induction values with
  | nil =>
      exact List.nodup_nil
  | cons one rest inductionHypothesis =>
      rw [List.nodup_cons]
      constructor
      · intro again
        have ordered := increasing one.canId
        simp only [pairsOf, List.filterMap_cons, ↓reduceIte,
          List.pairwise_cons] at ordered
        have selfLess :=
          ordered.1 (one.epoch, one.counter) (mem_pairsOf.mpr again)
        exact Increasing.lexLt_irrefl _ selfLess
      · apply inductionHypothesis
        intro canId
        exact (increasing canId).sublist
          ((List.sublist_cons_self one rest).filterMap _)

/-- One more value, after all values of its ID, keeps every ID increasing. -/
theorem increasing_concat
    {values : List FreshValue}
    {last : FreshValue}
    (increasing :
      ∀ canId, (pairsOf canId values).Pairwise Increasing.lexLt)
    (follows :
      ∀ pair ∈ pairsOf last.canId values,
        Increasing.lexLt pair (last.epoch, last.counter))
    (canId : UInt16) :
    (pairsOf canId (values ++ [last])).Pairwise Increasing.lexLt := by
  rw [pairsOf_append]
  by_cases sameId : last.canId = canId
  · subst sameId
    simp only [pairsOf, List.filterMap_cons, List.filterMap_nil, ↓reduceIte]
    exact Increasing.pairwise_concat (increasing last.canId) follows
  · simpa [pairsOf, sameId] using increasing canId

/-!
## Slots
-/

/-- `find_slot`: the first registered slot of `canId`. -/
def findSlot
    (ids : List UInt16)
    (canId : UInt16) :
    Option Nat :=
  ids.findIdx? (· == canId)

/-- A slot found is a registered one and holds the ID looked for. -/
theorem findSlot_some
    {ids : List UInt16}
    {canId : UInt16}
    {idx : Nat}
    (found : findSlot ids canId = some idx) :
    ∃ inRange : idx < ids.length, ids[idx] = canId := by
  unfold findSlot at found
  rw [List.findIdx?_eq_some_iff_getElem] at found
  rcases found with ⟨inRange, holds, -⟩
  exact ⟨inRange, by simpa using holds⟩

/-- A registered ID has a slot. -/
theorem findSlot_of_mem
    {ids : List UInt16}
    {canId : UInt16}
    (registered : canId ∈ ids) :
    ∃ idx, findSlot ids canId = some idx := by
  cases found : findSlot ids canId with
  | some idx =>
      exact ⟨idx, rfl⟩
  | none =>
      unfold findSlot at found
      rw [List.findIdx?_eq_none_iff] at found
      have absent := found canId registered
      simp at absent

/-- An ID is found only in a context that registered something. -/
theorem ids_ne_nil_of_findSlot
    {ids : List UInt16}
    {canId : UInt16}
    {idx : Nat}
    (found : findSlot ids canId = some idx) :
    ids ≠ [] := by
  rintro rfl
  simp [findSlot] at found

/-- Different IDs have different slots. -/
theorem findSlot_injective
    {ids : List UInt16}
    {first second : UInt16}
    {idx : Nat}
    (firstFound : findSlot ids first = some idx)
    (secondFound : findSlot ids second = some idx) :
    first = second := by
  rcases findSlot_some firstFound with ⟨_, firstHolds⟩
  rcases findSlot_some secondFound with ⟨_, secondHolds⟩
  exact firstHolds.symm.trans secondHolds

/-!
## Sender
-/

/-- `secoc_tx_ctx_t`, with what registration guarantees about it. -/
structure SecocTxCtx where
  storeSet : Bool
  domain : UInt8
  epoch : UInt16
  ids : List UInt16
  counter : List UInt16
  counterSized : counter.length = ids.length
  idsFit : ids.length ≤ secocMaxIds
  idsNeedStore : ids ≠ [] → storeSet = true
  deriving Repr, DecidableEq

namespace SecocTxCtx

/-- The context as reset leaves it in RAM. -/
def reset : SecocTxCtx where
  storeSet := false
  domain := 0
  epoch := 0
  ids := []
  counter := []
  counterSized := rfl
  idsFit := by decide
  idsNeedStore := by simp

/-- The context a successful boot fills in. -/
def registered
    (domain : UInt8)
    (epoch : UInt16)
    (ids : List UInt16)
    (idsFit : ids.length ≤ secocMaxIds) :
    SecocTxCtx where
  storeSet := true
  domain := domain
  epoch := epoch
  ids := ids
  counter := List.replicate ids.length 0
  counterSized := List.length_replicate
  idsFit := idsFit
  idsNeedStore := fun _ => rfl

/-- `ctx->counter[idx]`. -/
def counterAt
    (ctx : SecocTxCtx)
    (idx : Nat) :
    UInt16 :=
  ctx.counter.getD idx 0

/-- Move to `epoch` and restart every counter. -/
def restart
    (ctx : SecocTxCtx)
    (epoch : UInt16) :
    SecocTxCtx :=
  { ctx with
    epoch := epoch
    counter := List.replicate ctx.ids.length 0
    counterSized := List.length_replicate }

/-- `ctx->counter[idx] = value`. -/
def setCounter
    (ctx : SecocTxCtx)
    (idx : Nat)
    (value : UInt16) :
    SecocTxCtx :=
  { ctx with
    counter := ctx.counter.set idx value
    counterSized := by rw [List.length_set, ctx.counterSized] }

@[simp] theorem registered_counterAt
    (domain : UInt8)
    (epoch : UInt16)
    (ids : List UInt16)
    (idsFit : ids.length ≤ secocMaxIds)
    (idx : Nat) :
    (registered domain epoch ids idsFit).counterAt idx = 0 := by
  simp [counterAt, registered]

@[simp] theorem restart_epoch
    (ctx : SecocTxCtx)
    (epoch : UInt16) :
    (ctx.restart epoch).epoch = epoch :=
  rfl

@[simp] theorem restart_domain
    (ctx : SecocTxCtx)
    (epoch : UInt16) :
    (ctx.restart epoch).domain = ctx.domain :=
  rfl

@[simp] theorem restart_ids
    (ctx : SecocTxCtx)
    (epoch : UInt16) :
    (ctx.restart epoch).ids = ctx.ids :=
  rfl

@[simp] theorem restart_storeSet
    (ctx : SecocTxCtx)
    (epoch : UInt16) :
    (ctx.restart epoch).storeSet = ctx.storeSet :=
  rfl

@[simp] theorem restart_counterAt
    (ctx : SecocTxCtx)
    (epoch : UInt16)
    (idx : Nat) :
    (ctx.restart epoch).counterAt idx = 0 := by
  simp [counterAt, restart]

@[simp] theorem setCounter_epoch
    (ctx : SecocTxCtx)
    (idx : Nat)
    (value : UInt16) :
    (ctx.setCounter idx value).epoch = ctx.epoch :=
  rfl

@[simp] theorem setCounter_domain
    (ctx : SecocTxCtx)
    (idx : Nat)
    (value : UInt16) :
    (ctx.setCounter idx value).domain = ctx.domain :=
  rfl

@[simp] theorem setCounter_ids
    (ctx : SecocTxCtx)
    (idx : Nat)
    (value : UInt16) :
    (ctx.setCounter idx value).ids = ctx.ids :=
  rfl

@[simp] theorem setCounter_storeSet
    (ctx : SecocTxCtx)
    (idx : Nat)
    (value : UInt16) :
    (ctx.setCounter idx value).storeSet = ctx.storeSet :=
  rfl

@[simp] theorem setCounter_restart
    (ctx : SecocTxCtx)
    (idx : Nat)
    (value epoch : UInt16) :
    (ctx.setCounter idx value).restart epoch = ctx.restart epoch :=
  rfl

/-- The counter written reads back. -/
theorem setCounter_counterAt_same
    {ctx : SecocTxCtx}
    {idx : Nat}
    (value : UInt16)
    (inRange : idx < ctx.ids.length) :
    (ctx.setCounter idx value).counterAt idx = value := by
  have sized : idx < ctx.counter.length := by
    rw [ctx.counterSized]
    exact inRange
  simp [counterAt, setCounter, List.getD_eq_getElem?_getD,
    List.getElem?_set_self sized]

/-- Writing one counter leaves the others. -/
theorem setCounter_counterAt_other
    {ctx : SecocTxCtx}
    {idx other : Nat}
    (value : UInt16)
    (different : other ≠ idx) :
    (ctx.setCounter idx value).counterAt other = ctx.counterAt other := by
  simp [counterAt, setCounter, List.getD_eq_getElem?_getD,
    List.getElem?_set_ne (Ne.symm different)]

end SecocTxCtx

section Sender

variable {Store : Type}

/-- `secoc_tx_boot`: commit the next epoch, then spend it. -/
def secocTxBoot
    (port : FreshnessStoreIf Store)
    (ctx : SecocTxCtx)
    (domain : UInt8)
    (ids : List UInt16)
    (store : Store) :
    Bool × SecocTxCtx × Store :=
  if idsOk : ids.length ≠ 0 ∧ ids.length ≤ secocMaxIds then
    let nextEpoch := (port.load store domain).getD 0 + 1
    match port.commit store domain nextEpoch with
    | (false, next) => (false, ctx, next)
    | (true, next) =>
        (true, SecocTxCtx.registered domain nextEpoch ids idsOk.2, next)
  else
    (false, ctx, store)

/-- The tail of `secoc_tx_next`: advance the counter and hand the pair out. -/
def spendCounter
    (ctx : SecocTxCtx)
    (idx : Nat) :
    (UInt16 × UInt16) × SecocTxCtx :=
  let next := ctx.counterAt idx + 1
  ((ctx.epoch, next), ctx.setCounter idx next)

/-- `secoc_tx_next`; `none` is the return value `false`. -/
def secocTxNext
    (port : FreshnessStoreIf Store)
    (ctx : SecocTxCtx)
    (canId : UInt16)
    (store : Store) :
    Option (UInt16 × UInt16) × SecocTxCtx × Store :=
  match findSlot ctx.ids canId with
  | none => (none, ctx, store)
  | some idx =>
      if ctx.counterAt idx = 0xFFFF then
        let bumped := ctx.epoch + 1
        -- A registered slot implies a store pointer: `idsNeedStore`.
        match port.commit store ctx.domain bumped with
        | (false, next) => (none, ctx, next)
        | (true, next) =>
            let spent := spendCounter (ctx.restart bumped) idx
            (some spent.1, spent.2, next)
      else
        let spent := spendCounter ctx idx
        (some spent.1, spent.2, store)

/-- `secoc_tx_adopt_floor`; a context that never booted has no store. -/
def secocTxAdoptFloor
    (port : FreshnessStoreIf Store)
    (ctx : SecocTxCtx)
    (requestedFloor : UInt16)
    (store : Store) :
    Except Fault (Bool × SecocTxCtx × Store) :=
  if requestedFloor ≤ ctx.epoch then
    .ok (false, ctx, store)
  else if ctx.storeSet then
    match port.commit store ctx.domain requestedFloor with
    | (false, next) => .ok (false, ctx, next)
    | (true, next) => .ok (true, ctx.restart requestedFloor, next)
  else
    .error .nullStore

variable {port : FreshnessStoreIf Store}
  {ctx ctxAfter : SecocTxCtx}
  {store storeAfter : Store}

/-- Everything a sender boot can do. -/
theorem secocTxBoot_cases
    {domain : UInt8}
    {ids : List UInt16}
    {booted : Bool}
    (ran :
      secocTxBoot port ctx domain ids store = (booted, ctxAfter, storeAfter)) :
    (booted = false ∧ ctxAfter = ctx ∧
        (storeAfter = store ∨
          ((ids.length ≠ 0 ∧ ids.length ≤ secocMaxIds) ∧
            port.commit store domain ((port.load store domain).getD 0 + 1) =
              (false, storeAfter)))) ∨
      ∃ idsFit : ids.length ≤ secocMaxIds,
        booted = true ∧
        ids ≠ [] ∧
        port.commit store domain ((port.load store domain).getD 0 + 1) =
          (true, storeAfter) ∧
        ctxAfter =
          SecocTxCtx.registered domain
            ((port.load store domain).getD 0 + 1) ids idsFit := by
  unfold secocTxBoot at ran
  split at ran
  next idsOk =>
    dsimp only at ran
    split at ran
    next next committed =>
      cases ran
      exact Or.inl ⟨rfl, rfl, Or.inr ⟨idsOk, committed⟩⟩
    next next committed =>
      cases ran
      refine Or.inr ⟨idsOk.2, rfl, ?_, committed, rfl⟩
      exact List.ne_nil_of_length_pos (Nat.pos_of_ne_zero idsOk.1)
  next =>
    cases ran
    exact Or.inl ⟨rfl, rfl, Or.inl rfl⟩

/-- Everything `secoc_tx_next` can do. -/
theorem secocTxNext_cases
    {canId : UInt16}
    {issued : Option (UInt16 × UInt16)}
    (ran :
      secocTxNext port ctx canId store = (issued, ctxAfter, storeAfter)) :
    (issued = none ∧ ctxAfter = ctx ∧
        (storeAfter = store ∨
          ∃ idx,
            findSlot ctx.ids canId = some idx ∧
            ctx.counterAt idx = 0xFFFF ∧
            port.commit store ctx.domain (ctx.epoch + 1) =
              (false, storeAfter))) ∨
      ∃ idx,
        findSlot ctx.ids canId = some idx ∧
        ((ctx.counterAt idx = 0xFFFF ∧
            port.commit store ctx.domain (ctx.epoch + 1) =
              (true, storeAfter) ∧
            issued = some (ctx.epoch + 1, 1) ∧
            ctxAfter = (ctx.restart (ctx.epoch + 1)).setCounter idx 1) ∨
          (ctx.counterAt idx ≠ 0xFFFF ∧
            storeAfter = store ∧
            issued = some (ctx.epoch, ctx.counterAt idx + 1) ∧
            ctxAfter = ctx.setCounter idx (ctx.counterAt idx + 1))) := by
  unfold secocTxNext at ran
  split at ran
  next =>
    cases ran
    exact Or.inl ⟨rfl, rfl, Or.inl rfl⟩
  next idx found =>
    split at ran
    next full =>
      dsimp only at ran
      split at ran
      next next committed =>
        cases ran
        exact Or.inl ⟨rfl, rfl, Or.inr ⟨idx, found, full, committed⟩⟩
      next next committed =>
        cases ran
        refine Or.inr ⟨idx, found, Or.inl ⟨full, committed, ?_, ?_⟩⟩
        · simp [spendCounter]
        · simp [spendCounter]
    next room =>
      cases ran
      exact Or.inr ⟨idx, found, Or.inr ⟨room, rfl, rfl, rfl⟩⟩

/-- Issuing a value leaves the store pointer alone. -/
theorem secocTxNext_storeSet
    {canId : UInt16}
    {issued : Option (UInt16 × UInt16)}
    (ran :
      secocTxNext port ctx canId store = (issued, ctxAfter, storeAfter)) :
    ctxAfter.storeSet = ctx.storeSet := by
  rcases secocTxNext_cases ran with
      ⟨-, rfl, -⟩ | ⟨idx, -, ⟨-, -, -, rfl⟩ | ⟨-, -, -, rfl⟩⟩
  · rfl
  · rfl
  · rfl

/-- Everything a floor adoption that returns can do. -/
theorem secocTxAdoptFloor_cases
    {requestedFloor : UInt16}
    {moved : Bool}
    (ran :
      secocTxAdoptFloor port ctx requestedFloor store =
        .ok (moved, ctxAfter, storeAfter)) :
    (moved = false ∧ ctxAfter = ctx ∧
        (storeAfter = store ∨
          (ctx.epoch < requestedFloor ∧
            ctx.storeSet = true ∧
            port.commit store ctx.domain requestedFloor =
              (false, storeAfter)))) ∨
      (moved = true ∧
        ctx.epoch < requestedFloor ∧
        ctx.storeSet = true ∧
        port.commit store ctx.domain requestedFloor = (true, storeAfter) ∧
        ctxAfter = ctx.restart requestedFloor) := by
  unfold secocTxAdoptFloor at ran
  split at ran
  next =>
    cases ran
    exact Or.inl ⟨rfl, rfl, Or.inl rfl⟩
  next above =>
    split at ran
    next storeSet =>
      split at ran
      next next committed =>
        cases ran
        have floorAbove := UInt16.not_le.mp above
        exact Or.inl ⟨rfl, rfl, Or.inr ⟨floorAbove, storeSet, committed⟩⟩
      next next committed =>
        cases ran
        have floorAbove := UInt16.not_le.mp above
        exact Or.inr ⟨rfl, floorAbove, storeSet, committed, rfl⟩
    next =>
      exact absurd ran (by simp)

end Sender

/-!
## Receiver
-/

/-- `secoc_fresh_verdict_t`. -/
inductive SecocFreshVerdict where
  | ok
  | stale
  | unknown
  deriving Repr, DecidableEq

/-- `secoc_rx_ctx_t`, with what registration guarantees about it. -/
structure SecocRxCtx where
  storeSet : Bool
  domain : UInt8
  floor : UInt16
  current : UInt16
  ids : List UInt16
  high : List UInt16
  highSized : high.length = ids.length
  idsFit : ids.length ≤ secocMaxIds
  idsNeedStore : ids ≠ [] → storeSet = true
  deriving Repr, DecidableEq

namespace SecocRxCtx

/-- The context as reset leaves it in RAM. -/
def reset : SecocRxCtx where
  storeSet := false
  domain := 0
  floor := 0
  current := 0
  ids := []
  high := []
  highSized := rfl
  idsFit := by decide
  idsNeedStore := by simp

/-- The context a boot fills in from the persisted epoch. -/
def registered
    (domain : UInt8)
    (persisted : UInt16)
    (ids : List UInt16)
    (idsFit : ids.length ≤ secocMaxIds) :
    SecocRxCtx where
  storeSet := true
  domain := domain
  floor := persisted + 1
  current := persisted
  ids := ids
  high := List.replicate ids.length 0
  highSized := List.length_replicate
  idsFit := idsFit
  idsNeedStore := fun _ => rfl

/-- `ctx->high[idx]`. -/
def highAt
    (ctx : SecocRxCtx)
    (idx : Nat) :
    UInt16 :=
  ctx.high.getD idx 0

/-- Adopt `epoch` and restart every high-water. -/
def adopt
    (ctx : SecocRxCtx)
    (epoch : UInt16) :
    SecocRxCtx :=
  { ctx with
    current := epoch
    high := List.replicate ctx.ids.length 0
    highSized := List.length_replicate }

/-- `ctx->high[idx] = value`. -/
def setHigh
    (ctx : SecocRxCtx)
    (idx : Nat)
    (value : UInt16) :
    SecocRxCtx :=
  { ctx with
    high := ctx.high.set idx value
    highSized := by rw [List.length_set, ctx.highSized] }

@[simp] theorem adopt_current
    (ctx : SecocRxCtx)
    (epoch : UInt16) :
    (ctx.adopt epoch).current = epoch :=
  rfl

@[simp] theorem adopt_floor
    (ctx : SecocRxCtx)
    (epoch : UInt16) :
    (ctx.adopt epoch).floor = ctx.floor :=
  rfl

@[simp] theorem adopt_ids
    (ctx : SecocRxCtx)
    (epoch : UInt16) :
    (ctx.adopt epoch).ids = ctx.ids :=
  rfl

@[simp] theorem adopt_domain
    (ctx : SecocRxCtx)
    (epoch : UInt16) :
    (ctx.adopt epoch).domain = ctx.domain :=
  rfl

@[simp] theorem adopt_highAt
    (ctx : SecocRxCtx)
    (epoch : UInt16)
    (idx : Nat) :
    (ctx.adopt epoch).highAt idx = 0 := by
  simp [highAt, adopt]

@[simp] theorem registered_highAt
    (domain : UInt8)
    (persisted : UInt16)
    (ids : List UInt16)
    (idsFit : ids.length ≤ secocMaxIds)
    (idx : Nat) :
    (registered domain persisted ids idsFit).highAt idx = 0 := by
  simp [highAt, registered]

@[simp] theorem setHigh_current
    (ctx : SecocRxCtx)
    (idx : Nat)
    (value : UInt16) :
    (ctx.setHigh idx value).current = ctx.current :=
  rfl

@[simp] theorem setHigh_floor
    (ctx : SecocRxCtx)
    (idx : Nat)
    (value : UInt16) :
    (ctx.setHigh idx value).floor = ctx.floor :=
  rfl

@[simp] theorem setHigh_ids
    (ctx : SecocRxCtx)
    (idx : Nat)
    (value : UInt16) :
    (ctx.setHigh idx value).ids = ctx.ids :=
  rfl

@[simp] theorem setHigh_domain
    (ctx : SecocRxCtx)
    (idx : Nat)
    (value : UInt16) :
    (ctx.setHigh idx value).domain = ctx.domain :=
  rfl

/-- The high-water written reads back. -/
theorem setHigh_highAt_same
    {ctx : SecocRxCtx}
    {idx : Nat}
    (value : UInt16)
    (inRange : idx < ctx.ids.length) :
    (ctx.setHigh idx value).highAt idx = value := by
  have sized : idx < ctx.high.length := by
    rw [ctx.highSized]
    exact inRange
  simp [highAt, setHigh, List.getD_eq_getElem?_getD,
    List.getElem?_set_self sized]

/-- Writing one high-water leaves the others. -/
theorem setHigh_highAt_other
    {ctx : SecocRxCtx}
    {idx other : Nat}
    (value : UInt16)
    (different : other ≠ idx) :
    (ctx.setHigh idx value).highAt other = ctx.highAt other := by
  simp [highAt, setHigh, List.getD_eq_getElem?_getD,
    List.getElem?_set_ne (Ne.symm different)]

end SecocRxCtx

section Receiver

variable {Store : Type}

/-- `secoc_rx_boot`: it only reads the store. -/
def secocRxBoot
    (port : FreshnessStoreIf Store)
    (ctx : SecocRxCtx)
    (domain : UInt8)
    (ids : List UInt16)
    (store : Store) :
    Bool × SecocRxCtx :=
  if idsOk : ids.length ≠ 0 ∧ ids.length ≤ secocMaxIds then
    (true,
      SecocRxCtx.registered domain
        ((port.load store domain).getD 0) ids idsOk.2)
  else
    (false, ctx)

/-- `secoc_rx_check`. -/
def secocRxCheck
    (ctx : SecocRxCtx)
    (canId epoch counter : UInt16) :
    SecocFreshVerdict :=
  match findSlot ctx.ids canId with
  | none => .unknown
  | some idx =>
      if epoch < ctx.floor then
        .stale
      else if ctx.current < epoch then
        .ok
      else if epoch = ctx.current ∧ ctx.highAt idx < counter then
        .ok
      else
        .stale

/-- `secoc_rx_accept`: durable first, adopted second. -/
def secocRxAccept
    (port : FreshnessStoreIf Store)
    (ctx : SecocRxCtx)
    (canId epoch counter : UInt16)
    (store : Store) :
    Bool × SecocRxCtx × Store :=
  match findSlot ctx.ids canId with
  | none => (false, ctx, store)
  | some idx =>
      if ctx.current < epoch then
        match port.commit store ctx.domain epoch with
        | (false, next) => (false, ctx, next)
        | (true, next) => (true, (ctx.adopt epoch).setHigh idx counter, next)
      else
        (true, ctx.setHigh idx counter, store)

variable {port : FreshnessStoreIf Store}
  {ctx ctxAfter : SecocRxCtx}
  {store storeAfter : Store}
  {canId epoch counter : UInt16}

/-- Everything a receiver boot can do. -/
theorem secocRxBoot_cases
    {domain : UInt8}
    {ids : List UInt16}
    {booted : Bool}
    (ran : secocRxBoot port ctx domain ids store = (booted, ctxAfter)) :
    (booted = false ∧ ctxAfter = ctx) ∨
      ∃ idsFit : ids.length ≤ secocMaxIds,
        booted = true ∧
        ids ≠ [] ∧
        ctxAfter =
          SecocRxCtx.registered domain
            ((port.load store domain).getD 0) ids idsFit := by
  unfold secocRxBoot at ran
  split at ran
  next idsOk =>
    cases ran
    refine Or.inr ⟨idsOk.2, rfl, ?_, rfl⟩
    exact List.ne_nil_of_length_pos (Nat.pos_of_ne_zero idsOk.1)
  next =>
    cases ran
    exact Or.inl ⟨rfl, rfl⟩

/-- The accept rule: exactly when the check passes. -/
theorem secocRxCheck_ok :
    secocRxCheck ctx canId epoch counter = .ok ↔
      ∃ idx,
        findSlot ctx.ids canId = some idx ∧
        ctx.floor ≤ epoch ∧
        (ctx.current < epoch ∨
          (epoch = ctx.current ∧ ctx.highAt idx < counter)) := by
  unfold secocRxCheck
  cases found : findSlot ctx.ids canId with
  | none =>
      simp
  | some idx =>
      by_cases belowFloor : epoch < ctx.floor
      · simp [belowFloor, UInt16.not_le.mpr belowFloor]
      · have aboveFloor : ctx.floor ≤ epoch := UInt16.not_lt.mp belowFloor
        by_cases newer : ctx.current < epoch
        · simp [belowFloor, newer, aboveFloor]
        · by_cases fresh : epoch = ctx.current ∧ ctx.highAt idx < counter
          · simp [fresh]
          · simp [belowFloor, newer, fresh]

/-- Everything `secoc_rx_accept` can do. -/
theorem secocRxAccept_cases
    {accepted : Bool}
    (ran :
      secocRxAccept port ctx canId epoch counter store =
        (accepted, ctxAfter, storeAfter)) :
    (accepted = false ∧ ctxAfter = ctx ∧
        (storeAfter = store ∨
          ∃ idx,
            findSlot ctx.ids canId = some idx ∧
            ctx.current < epoch ∧
            port.commit store ctx.domain epoch = (false, storeAfter))) ∨
      ∃ idx,
        accepted = true ∧
        findSlot ctx.ids canId = some idx ∧
        ((ctx.current < epoch ∧
            port.commit store ctx.domain epoch = (true, storeAfter) ∧
            ctxAfter = (ctx.adopt epoch).setHigh idx counter) ∨
          (epoch ≤ ctx.current ∧
            storeAfter = store ∧
            ctxAfter = ctx.setHigh idx counter)) := by
  unfold secocRxAccept at ran
  split at ran
  next =>
    cases ran
    exact Or.inl ⟨rfl, rfl, Or.inl rfl⟩
  next idx found =>
    split at ran
    next newer =>
      split at ran
      next next committed =>
        cases ran
        exact Or.inl ⟨rfl, rfl, Or.inr ⟨idx, found, newer, committed⟩⟩
      next next committed =>
        cases ran
        exact
          Or.inr ⟨idx, rfl, found, Or.inl ⟨newer, committed, rfl⟩⟩
    next notNewer =>
      cases ran
      exact
        Or.inr ⟨idx, rfl, found, Or.inr ⟨UInt16.not_lt.mp notNewer, rfl, rfl⟩⟩

/-- With a reliable store, what passes the check is accepted. -/
theorem secocRxAccept_reliable
    {ctx : SecocRxCtx}
    {store : FreshnessStore}
    {canId epoch counter : UInt16}
    (reliable : store.Reliable)
    (passes : secocRxCheck ctx canId epoch counter = .ok) :
    ∃ ctxAfter storeAfter,
      secocRxAccept durablePort ctx canId epoch counter store =
          (true, ctxAfter, storeAfter) ∧
        storeAfter.Reliable := by
  obtain ⟨idx, found, -, -⟩ := secocRxCheck_ok.mp passes
  unfold secocRxAccept
  rw [found]
  dsimp only
  by_cases newer : ctx.current < epoch
  · obtain ⟨next, committed, stays⟩ :=
      DurableMap.commit_reliable reliable
    rw [if_pos newer, durablePort_commit, committed]
    exact ⟨_, _, rfl, stays⟩
  · rw [if_neg newer]
    exact ⟨_, _, rfl, reliable⟩

/-- What passes the check is accepted unless the port refuses the commit it
needs. -/
theorem secocRxAccept_fst_iff
    (passes : secocRxCheck ctx canId epoch counter = .ok) :
    (secocRxAccept port ctx canId epoch counter store).1 = true ↔
      (ctx.current < epoch →
        (port.commit store ctx.domain epoch).1 = true) := by
  obtain ⟨idx, found, -, -⟩ := secocRxCheck_ok.mp passes
  unfold secocRxAccept
  rw [found]
  dsimp only
  by_cases newer : ctx.current < epoch
  · rcases committed : port.commit store ctx.domain epoch with ⟨succeeded, next⟩
    cases succeeded <;> simp [newer]
  · simp [newer]

/-- What passes the check is accepted unless the commit it needs fails. -/
theorem secocRxAccept_fst
    {ctx : SecocRxCtx}
    {store : FreshnessStore}
    {canId epoch counter : UInt16}
    (passes : secocRxCheck ctx canId epoch counter = .ok) :
    (secocRxAccept durablePort ctx canId epoch counter store).1 = true ↔
      (ctx.current < epoch → store.nextOutcome = .acknowledged) := by
  rw [secocRxAccept_fst_iff passes, durablePort_commit, DurableMap.commit_fst]

/-- Accepting a newer epoch takes one outcome off the schedule. -/
theorem secocRxAccept_outcomes
    {ctx ctxAfter : SecocRxCtx}
    {store storeAfter : FreshnessStore}
    {canId epoch counter : UInt16}
    (ran :
      secocRxAccept durablePort ctx canId epoch counter store =
        (true, ctxAfter, storeAfter)) :
    storeAfter.outcomes =
      if ctx.current < epoch then store.outcomes.tail else store.outcomes := by
  rcases secocRxAccept_cases ran with
      ⟨failed, -⟩ | ⟨idx, -, -, ⟨newer, committed, -⟩ | ⟨notNewer, rfl, -⟩⟩
  · cases failed
  · rw [if_pos newer, ← @DurableMap.commit_outcomes _ _ _ store ctx.domain epoch]
    exact congrArg (fun after => after.2.outcomes) committed.symm
  · rw [if_neg (UInt16.not_lt.mpr notNewer)]

end Receiver

/-- A floor is reached when it is behind already, or can be committed. -/
theorem secocTxAdoptFloor_reaches
    {ctx : SecocTxCtx}
    {store : FreshnessStore}
    {requestedFloor : UInt16} :
    (∃ moved ctxAfter storeAfter,
        secocTxAdoptFloor durablePort ctx requestedFloor store =
            .ok (moved, ctxAfter, storeAfter) ∧
          requestedFloor ≤ ctxAfter.epoch) ↔
      requestedFloor ≤ ctx.epoch ∨
        ctx.storeSet = true ∧ store.nextOutcome = .acknowledged := by
  rw [← @DurableMap.commit_fst _ _ _ store ctx.domain requestedFloor]
  constructor
  · rintro ⟨moved, ctxAfter, storeAfter, ran, reached⟩
    rcases secocTxAdoptFloor_cases ran with
        ⟨-, rfl, -⟩ | ⟨-, -, live, committed, -⟩
    · exact Or.inl reached
    · refine Or.inr ⟨live, ?_⟩
      exact congrArg Prod.fst committed
  · rintro (behind | ⟨live, acknowledges⟩)
    · exact ⟨false, ctx, store, if_pos behind, behind⟩
    · by_cases behind : requestedFloor ≤ ctx.epoch
      · exact ⟨false, ctx, store, if_pos behind, behind⟩
      · rcases committed : store.commit ctx.domain requestedFloor with
          ⟨succeeded, next⟩
        rw [committed] at acknowledges
        refine
          ⟨true, ctx.restart requestedFloor, next, ?_, UInt16.le_refl _⟩
        simp only at acknowledges
        unfold secocTxAdoptFloor
        rw [if_neg behind, if_pos live, durablePort_commit, committed,
          acknowledges]

/-- With a reliable store, a live sender adopts a floor above its epoch. -/
theorem secocTxAdoptFloor_reliable
    {ctx : SecocTxCtx}
    {store : FreshnessStore}
    {requestedFloor : UInt16}
    (reliable : store.Reliable)
    (live : ctx.storeSet = true)
    (above : ctx.epoch < requestedFloor) :
    ∃ storeAfter,
      secocTxAdoptFloor durablePort ctx requestedFloor store =
        .ok (true, ctx.restart requestedFloor, storeAfter) := by
  obtain ⟨next, committed, -⟩ := DurableMap.commit_reliable reliable
  unfold secocTxAdoptFloor
  rw [if_neg (UInt16.not_le.mpr above), if_pos live, durablePort_commit,
    committed]
  exact ⟨next, rfl⟩

/-- Only a sender that never booted faults. -/
theorem secocTxAdoptFloor_fault
    {Store : Type}
    {port : FreshnessStoreIf Store}
    {ctx : SecocTxCtx}
    {store : Store}
    {requestedFloor : UInt16}
    {fault : Fault}
    (faulted :
      secocTxAdoptFloor port ctx requestedFloor store = .error fault) :
    ctx.storeSet = false := by
  unfold secocTxAdoptFloor at faulted
  split at faulted
  next =>
    cases faulted
  next =>
    split at faulted
    next =>
      split at faulted <;> cases faulted
    next down =>
      exact Bool.not_eq_true _ ▸ down

/-!
## Each call commits under its own domain only
-/

section OtherDomain

variable {store storeAfter : FreshnessStore}
  {domain other : UInt8}

/-- A sender boot leaves the other domains alone. -/
theorem secocTxBoot_slot_other
    {ctx ctxAfter : SecocTxCtx}
    {ids : List UInt16}
    {booted : Bool}
    (ran :
      secocTxBoot durablePort ctx domain ids store =
        (booted, ctxAfter, storeAfter))
    (different : other ≠ domain) :
    storeAfter.slot other = store.slot other := by
  rcases secocTxBoot_cases ran with
      ⟨-, -, rfl | ⟨-, committed⟩⟩ | ⟨-, -, -, committed, -⟩
  · rfl
  · exact DurableMap.commit_slot_other committed different
  · exact DurableMap.commit_slot_other committed different

/-- Issuing a value leaves the other domains alone. -/
theorem secocTxNext_slot_other
    {ctx ctxAfter : SecocTxCtx}
    {canId : UInt16}
    {result : Option (UInt16 × UInt16)}
    (ran :
      secocTxNext durablePort ctx canId store =
        (result, ctxAfter, storeAfter))
    (different : ctx.storeSet = true → other ≠ ctx.domain) :
    storeAfter.slot other = store.slot other := by
  rcases secocTxNext_cases ran with
      ⟨-, -, rfl | ⟨idx, found, -, committed⟩⟩ |
      ⟨idx, found, ⟨-, committed, -, -⟩ | ⟨-, rfl, -, -⟩⟩
  · rfl
  · have live := ctx.idsNeedStore (ids_ne_nil_of_findSlot found)
    exact DurableMap.commit_slot_other committed (different live)
  · have live := ctx.idsNeedStore (ids_ne_nil_of_findSlot found)
    exact DurableMap.commit_slot_other committed (different live)
  · rfl

/-- A floor adoption leaves the other domains alone. -/
theorem secocTxAdoptFloor_slot_other
    {ctx ctxAfter : SecocTxCtx}
    {requestedFloor : UInt16}
    {moved : Bool}
    (ran :
      secocTxAdoptFloor durablePort ctx requestedFloor store =
        .ok (moved, ctxAfter, storeAfter))
    (different : ctx.storeSet = true → other ≠ ctx.domain) :
    storeAfter.slot other = store.slot other := by
  rcases secocTxAdoptFloor_cases ran with
      ⟨-, -, rfl | ⟨-, live, committed⟩⟩ | ⟨-, -, live, committed, -⟩
  · rfl
  · exact DurableMap.commit_slot_other committed (different live)
  · exact DurableMap.commit_slot_other committed (different live)

/-- Accepting a value leaves the other domains alone. -/
theorem secocRxAccept_slot_other
    {ctx ctxAfter : SecocRxCtx}
    {canId epoch counter : UInt16}
    {accepted : Bool}
    (ran :
      secocRxAccept durablePort ctx canId epoch counter store =
        (accepted, ctxAfter, storeAfter))
    (different : ctx.storeSet = true → other ≠ ctx.domain) :
    storeAfter.slot other = store.slot other := by
  rcases secocRxAccept_cases ran with
      ⟨-, -, rfl | ⟨idx, found, -, committed⟩⟩ |
      ⟨idx, -, found, ⟨-, committed, -⟩ | ⟨-, rfl, -⟩⟩
  · rfl
  · have live := ctx.idsNeedStore (ids_ne_nil_of_findSlot found)
    exact DurableMap.commit_slot_other committed (different live)
  · have live := ctx.idsNeedStore (ids_ne_nil_of_findSlot found)
    exact DurableMap.commit_slot_other committed (different live)
  · rfl

end OtherDomain

end TraveoBodyDomain
