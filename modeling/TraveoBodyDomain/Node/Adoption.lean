import Mathlib.Tactic.Common
import TraveoBodyDomain.Node.Resync

/-!
# One boot, one adoption

The syncs a node builds in one boot all carry the floor of that boot.  A floor
adopted becomes the sender epoch, and later adoptions need a floor above it,
so the floors a node adopts increase and no two come from one boot.
-/

namespace TraveoBodyDomain

/-- The boots of a node so far. -/
def bootsOf
    (side : Side)
    (history : List NetEvent) :
    Nat :=
  history.count (.booted side)

/-- The boot syncs a node built, each with its boots before it. -/
def syncBoots (side : Side) : Nat → List NetEvent → List (Nat × SecuredRecord)
  | _, [] => []
  | boots, .booted owner :: rest =>
      syncBoots side (if owner = side then boots + 1 else boots) rest
  | boots, .built (.bootSync owner) record :: rest =>
      if owner = side then
        (boots, record) :: syncBoots side boots rest
      else
        syncBoots side boots rest
  | boots, _ :: rest => syncBoots side boots rest

/-- The syncs of a longer history. -/
theorem syncBoots_append
    (side : Side)
    (boots : Nat)
    (first second : List NetEvent) :
    syncBoots side boots (first ++ second) =
      syncBoots side boots first ++
        syncBoots side (boots + bootsOf side first) second := by
  induction first generalizing boots with
  | nil =>
      rfl
  | cons event rest inductionHypothesis =>
      have skipped :
          event ≠ .booted side →
            bootsOf side (event :: rest) = bootsOf side rest :=
        fun other => List.count_cons_of_ne other
      cases event with
      | booted owner =>
          by_cases own : owner = side
          · subst own
            have counted :
                bootsOf owner (.booted owner :: rest) =
                  bootsOf owner rest + 1 :=
              List.count_cons_self
            simp only [List.cons_append, syncBoots, ↓reduceIte,
              inductionHypothesis, counted]
            rw [Nat.add_assoc, Nat.add_comm 1]
          · rw [skipped (by simpa using own)]
            simp only [List.cons_append, syncBoots, own, ↓reduceIte,
              inductionHypothesis]
      | built request record =>
          rw [skipped (by simp)]
          cases request with
          | bootSync owner =>
              by_cases own : owner = side
              · simp only [List.cons_append, syncBoots, own, ↓reduceIte,
                  inductionHypothesis]
              · simp only [List.cons_append, syncBoots, own, ↓reduceIte,
                  inductionHypothesis]
          | _ =>
              simp only [List.cons_append, syncBoots, inductionHypothesis]
      | _ =>
          rw [skipped (by simp)]
          simp only [List.cons_append, syncBoots, inductionHypothesis]

/-- Where nothing is built, no sync is. -/
theorem syncBoots_eq_nil
    {side : Side}
    {events : List NetEvent}
    (noneBuilt : ∀ request record, .built request record ∉ events)
    (boots : Nat) :
    syncBoots side boots events = [] := by
  induction events generalizing boots with
  | nil =>
      rfl
  | cons event rest inductionHypothesis =>
      have later :
          ∀ request record, NetEvent.built request record ∉ rest :=
        fun request record member =>
          noneBuilt request record (List.mem_cons_of_mem _ member)
      cases event with
      | built request record =>
          exact (noneBuilt request record (List.mem_cons_self ..)).elim
      | _ =>
          exact inductionHypothesis later _

/-- The syncs of one boot of a node carry one floor. -/
structure BootFloors
    (side : Side)
    (node : Node)
    (history : List NetEvent) : Prop where
  bounded :
    ∀ boot record,
      (boot, record) ∈ syncBoots side 0 history → boot ≤ bootsOf side history
  same :
    ∀ boot first second,
      (boot, first) ∈ syncBoots side 0 history →
        (boot, second) ∈ syncBoots side 0 history →
          first.syncFloor = second.syncFloor
  live :
    node.Up →
      ∀ record,
        (bootsOf side history, record) ∈ syncBoots side 0 history →
          record.syncFloor = node.app.gRx.floor

namespace BootFloors

variable {side : Side}
  {node after : Node}
  {history events : List NetEvent}

/-- No boot, no sync. -/
theorem start
    (side : Side)
    (node : Node) :
    BootFloors side node [] := by
  constructor <;> simp [syncBoots]

/-- Events without a boot or a sync of this node. -/
theorem silent
    (inv : BootFloors side node history)
    (noSync : ∀ boots, syncBoots side boots events = [])
    (noBoot : bootsOf side events = 0)
    (kept :
      after.Up → node.Up ∧ after.app.gRx.floor = node.app.gRx.floor) :
    BootFloors side after (history ++ events) := by
  have syncs :
      syncBoots side 0 (history ++ events) = syncBoots side 0 history := by
    rw [syncBoots_append, noSync, List.append_nil]
  have boots : bootsOf side (history ++ events) = bootsOf side history := by
    unfold bootsOf at noBoot ⊢
    rw [List.count_append, noBoot, Nat.add_zero]
  refine ⟨?_, ?_, ?_⟩
  · rw [syncs, boots]
    exact inv.bounded
  · rw [syncs]
    exact inv.same
  · rw [syncs, boots]
    intro up record member
    obtain ⟨wasUp, floor⟩ := kept up
    rw [floor]
    exact inv.live wasUp record member

/-- A boot starts a new count. -/
theorem boot
    (inv : BootFloors side node history)
    (after : Node) :
    BootFloors side after (history ++ [.booted side]) := by
  have syncs :
      syncBoots side 0 (history ++ [.booted side]) =
        syncBoots side 0 history := by
    rw [syncBoots_append]
    simp [syncBoots]
  have boots :
      bootsOf side (history ++ [.booted side]) = bootsOf side history + 1 := by
    unfold bootsOf
    rw [List.count_append, List.count_singleton_self]
  refine ⟨?_, ?_, ?_⟩
  · rw [syncs, boots]
    intro boot record member
    exact Nat.le_succ_of_le (inv.bounded boot record member)
  · rw [syncs]
    exact inv.same
  · rw [syncs, boots]
    intro _ record member
    have old := inv.bounded _ record member
    exact absurd old (Nat.not_succ_le_self _)

/-- A sync built carries the live floor. -/
theorem built
    {record : SecuredRecord}
    (inv : BootFloors side node history)
    (up : node.Up)
    (carries : record.syncFloor = node.app.gRx.floor)
    (kept : after.app.gRx.floor = node.app.gRx.floor) :
    BootFloors side after
      (history ++ [.built (.bootSync side) record]) := by
  have syncs :
      syncBoots side 0 (history ++ [.built (.bootSync side) record]) =
        syncBoots side 0 history ++ [(bootsOf side history, record)] := by
    rw [syncBoots_append]
    simp [syncBoots]
  have boots :
      bootsOf side (history ++ [.built (.bootSync side) record]) =
        bootsOf side history := by
    simp [bootsOf, List.count_append]
  have ofBoot :
      ∀ boot other,
        (boot, other) ∈
            syncBoots side 0 history ++ [(bootsOf side history, record)] →
          (boot, other) ∈ syncBoots side 0 history ∨
            (boot = bootsOf side history ∧ other = record) := by
    intro boot other member
    rcases List.mem_append.mp member with old | new
    · exact Or.inl old
    · exact Or.inr (Prod.mk.inj (List.mem_singleton.mp new))
  refine ⟨?_, ?_, ?_⟩
  · rw [syncs, boots]
    intro boot other member
    rcases ofBoot boot other member with old | ⟨rfl, -⟩
    · exact inv.bounded boot other old
    · exact Nat.le_refl _
  · rw [syncs]
    intro boot first second firstMember secondMember
    rcases ofBoot boot first firstMember with firstOld | ⟨rfl, rfl⟩
    · rcases ofBoot boot second secondMember with secondOld | ⟨rfl, rfl⟩
      · exact inv.same boot first second firstOld secondOld
      · rw [carries]
        exact inv.live up first firstOld
    · rcases ofBoot _ second secondMember with secondOld | ⟨-, rfl⟩
      · rw [carries]
        exact (inv.live up second secondOld).symm
      · rfl
  · rw [syncs, boots, kept]
    intro _ other member
    rcases ofBoot _ other member with old | ⟨-, rfl⟩
    · exact inv.live up other old
    · exact carries

end BootFloors

/-!
## Adopted floors increase
-/

/-- The records whose floor a node adopted, in order. -/
def adoptedRecords
    (side : Side)
    (history : List NetEvent) :
    List SecuredRecord :=
  history.filterMap fun
    | .adopted receiver record =>
        if receiver = side then some record else none
    | _ => none

@[simp] theorem adoptedRecords_append
    (side : Side)
    (first second : List NetEvent) :
    adoptedRecords side (first ++ second) =
      adoptedRecords side first ++ adoptedRecords side second :=
  List.filterMap_append

/-- A record whose floor was adopted is one of the adoptions. -/
theorem mem_adoptedRecords
    {side : Side}
    {record : SecuredRecord}
    {history : List NetEvent} :
    record ∈ adoptedRecords side history ↔
      .adopted side record ∈ history := by
  unfold adoptedRecords
  rw [List.mem_filterMap]
  constructor
  · rintro ⟨event, member, extracted⟩
    cases event <;> simp at extracted
    case adopted receiver adopted =>
      obtain ⟨rfl, rfl⟩ := extracted
      exact member
  · intro member
    exact ⟨_, member, by simp⟩

/-- A delivery that moves the epoch shows one adoption. -/
theorem adoptedRecords_handled
    {accepted : Prop}
    [Decidable accepted]
    (side : Side)
    (f : CanRawFrame)
    (handled : Handled FreshnessStore)
    (moved : handled.log.any (·.evt == .secocResync) = true)
    (receiver : Side) :
    adoptedRecords receiver
        ((if accepted then [.accepted side (recordOf f)] else []) ++
          handledEvents side f handled) =
      if side = receiver then [recordOf f] else [] := by
  have noneAccepted :
      adoptedRecords receiver
        (if accepted then [.accepted side (recordOf f)] else []) = [] := by
    split <;> rfl
  have noneHanded :
      adoptedRecords receiver
        (handled.handedOn.toList.map (.handedOn side f.id.toUInt16)) =
          [] := by
    cases handled.handedOn <;> rfl
  unfold handledEvents
  rw [adoptedRecords_append, adoptedRecords_append, noneAccepted, noneHanded,
    if_pos moved]
  by_cases own : side = receiver <;> simp [adoptedRecords, own]

/-- Adopting a floor spends its counter 0, so to speak. -/
def SecuredRecord.floorValue (record : SecuredRecord) : FreshValue where
  canId := record.value.canId
  epoch := record.syncFloor
  counter := 0

/-- A live sender counts as having spent the counter 0 of its epoch. -/
theorem SenderInv.ofEpoch
    {domain : UInt8}
    {ctx : SecocTxCtx}
    {store : FreshnessStore}
    {issued : List FreshValue}
    (inv : SenderInv domain ctx store issued)
    (live : ctx.storeSet = true)
    (canId : UInt16) :
    SenderInv domain ctx store [⟨canId, ctx.epoch, 0⟩] := by
  refine ⟨inv.ownDomain, inv.liveDurable, ?_, ?_, ?_, ?_⟩
  · intro one member
    rw [List.mem_singleton.mp member]
    exact inv.liveDurable live
  · intro _ one member
    rw [List.mem_singleton.mp member]
    exact UInt16.le_refl _
  · intro _ one member _ idx _
    rw [List.mem_singleton.mp member]
    exact UInt16.zero_le
  · intro other
    by_cases same : canId = other
    · simp [pairsOf, same]
    · simp [pairsOf, same]

/-- Whatever a node is known to have spent, it has spent after a step. -/
theorem NodeInv.step
    {cmac : UInt32 → List UInt8 → FullTag}
    {net : Network}
    {side : Side}
    {spent : List FreshValue}
    (action : NetAction)
    (inv : NodeInv (net.node side) spent)
    (noWrap : NoEpochWrap net action) :
    NodeInv ((networkStep cmac net action).1.node side) spent := by
  have elsewhere :
      ∀ other node, side ≠ other →
        NodeInv ((net.setNode other node).node side) spent := by
    intro other node different
    rw [setNode_node_other net node different]
    exact inv
  have armed :
      ∀ outcomes,
        NodeInv ⟨(net.node side).app, (net.node side).store.arm outcomes⟩
          spent :=
    fun _ => ⟨inv.sender.of_slot_eq rfl, inv.rxBound, inv.rxDomain⟩
  cases action with
  | powerLoss lost =>
      by_cases own : side = lost
      · subst own
        simp only [networkStep, setNode_node_same]
        exact inv.powerLoss rfl
      · exact elsewhere lost _ own
  | boot booted status outcomes =>
      rcases ran :
          secocAppInit booted.config durablePort status .reset
            ((net.node booted).store.arm outcomes) with ⟨app, store⟩
      simp only [networkStep, ran]
      by_cases own : side = booted
      · subst own
        rw [setNode_node_same]
        exact inv.boot noWrap ran
      · exact elsewhere booted _ own
  | build request up outcomes =>
      obtain ⟨tx, store, sent, ran, did⟩ := networkStep_build request up
      rw [ran]
      by_cases own : side = request.side
      · subst own
        simp only [Network.setNode, Function.update_self]
        rcases did with ⟨rfl, rfl, -⟩ | ⟨pdu, issued, packed, issues, -⟩
        · exact armed outcomes
        · have spends :=
            inv.build (noWrap (by rw [packed]; rfl)) issues
              (List.nil_sublist _)
          rw [List.append_nil] at spends
          exact spends
      · exact elsewhere request.side _ own
  | deliver receiver f up outcomes =>
      by_cases listens : receiver.listens f
      · obtain ⟨result, nodeAfter, events, processed, ran, did⟩ :=
          networkStep_deliver up listens
        rw [ran]
        by_cases own : side = receiver
        · subst own
          simp only [setNode_node_same]
          rcases did with ⟨-, -, -, rfl, -⟩ | ⟨handled, spec, rfl, -⟩
          · have slotKept :
                result.store.slot secocDomTxSelf =
                  ((net.node side).store.arm outcomes).slot
                    secocDomTxSelf :=
              rxProcess_slot_tx processed inv.rxDomain
            exact inv.powerLoss slotKept
          · exact inv.receive processed spec
        · exact elsewhere receiver _ own
      · rw [networkStep_deliver_other up listens]
        by_cases own : side = receiver
        · subst own
          simp only [setNode_node_same]
          exact armed outcomes
        · exact elsewhere receiver _ own

/-- What every run keeps about the adoptions. -/
structure AdoptionInv
    (net : Network)
    (history : List NetEvent) : Prop where
  base : ResyncInv net history
  bootFloors : ∀ side, BootFloors side (net.node side) history
  spent :
    ∀ side record,
      .adopted side record ∈ history →
        NodeInv (net.node side) [record.floorValue]
  increasing :
    ∀ side,
      (adoptedRecords side history).Pairwise
        fun first second => first.syncFloor < second.syncFloor
  syncs :
    ∀ side record,
      .adopted side record ∈ history →
        .built (.bootSync side.peer) record ∈ history

namespace AdoptionInv

variable {cmac : UInt32 → List UInt8 → FullTag}
  {net : Network}
  {history : List NetEvent}

/-- The cold network. -/
theorem start : AdoptionInv .cold [] := by
  refine ⟨.start, fun side => .start side _, ?_, fun _ => .nil, ?_⟩
  · intro side record member
    cases member
  · intro side record member
    cases member

/-- A delivery keeps one floor to a boot. -/
theorem bootFloors_deliver
    {receiver : Side}
    {f : CanRawFrame}
    {up : Bool}
    {outcomes : List CommitOutcome}
    (inv : AdoptionInv net history)
    (side : Side) :
    BootFloors side
      ((networkStep cmac net (.deliver receiver f up outcomes)).1.node side)
      (history ++
        (networkStep cmac net (.deliver receiver f up outcomes)).2) := by
  by_cases listens : receiver.listens f
  · obtain ⟨result, nodeAfter, events, processed, ran, did⟩ :=
      networkStep_deliver up listens
    rw [ran]
    have noneBuilt : ∀ request record, .built request record ∉ events := by
      intro request record
      rcases did with ⟨-, -, -, -, rfl⟩ | ⟨handled, -, -, rfl⟩
      · simp
      · unfold handledEvents
        split <;> split <;> simp
    have noBoot : bootsOf side events = 0 := by
      apply List.count_eq_zero.mpr
      rcases did with ⟨-, -, -, -, rfl⟩ | ⟨handled, -, -, rfl⟩
      · simp
      · unfold handledEvents
        split <;> split <;> simp
    refine (inv.bootFloors side).silent (syncBoots_eq_nil noneBuilt) noBoot ?_
    by_cases own : side = receiver
    · subst own
      rw [setNode_node_same]
      have node := inv.base.base.nodes side
      have configured := (Side.listens_id listens).2.2
      rcases did with ⟨-, -, -, rfl, -⟩ | ⟨handled, spec, rfl, -⟩
      · intro up
        cases up
      · intro up
        obtain ⟨-, sameLive⟩ := spec.epoch_le
        obtain ⟨forward, -⟩ :=
          rxProcess_forward processed node.rxBound configured spec.rxAfter
        exact ⟨sameLive.symm.trans up, forward.floor⟩
    · rw [setNode_node_other net nodeAfter own]
      exact fun up => ⟨up, rfl⟩
  · rw [networkStep_deliver_other up listens]
    refine (inv.bootFloors side).silent (fun _ => rfl) rfl ?_
    by_cases own : side = receiver
    · subst own
      rw [setNode_node_same]
      exact fun up => ⟨up, rfl⟩
    · rw [setNode_node_other net _ own]
      exact fun up => ⟨up, rfl⟩

/-- A build keeps one floor to a boot. -/
theorem bootFloors_build
    {request : Request}
    {up : Bool}
    {outcomes : List CommitOutcome}
    (inv : AdoptionInv net history)
    (side : Side) :
    BootFloors side
      ((networkStep cmac net (.build request up outcomes)).1.node side)
      (history ++ (networkStep cmac net (.build request up outcomes)).2) := by
  obtain ⟨tx, store, sent, ran, did⟩ := networkStep_build request up
  rw [ran]
  have kept :
      ∀ node,
        Function.update net.node request.side
            ⟨{ (net.node request.side).app with tx := tx }, store⟩ side =
          node →
        node.Up →
          (net.node side).Up ∧
            node.app.gRx.floor = (net.node side).app.gRx.floor := by
    rintro node rfl nodeUp
    by_cases own : side = request.side
    · subst own
      rw [Function.update_self] at nodeUp ⊢
      refine ⟨?_, rfl⟩
      rcases did with ⟨rfl, -⟩ | ⟨pdu, issued, -, issues, -⟩
      · exact nodeUp
      · exact (secocTxNext_storeSet issues).symm.trans nodeUp
    · rw [Function.update_of_ne own] at nodeUp ⊢
      exact ⟨nodeUp, rfl⟩
  have noBoot : bootsOf side (sent.map (.built request)) = 0 := by
    apply List.count_eq_zero.mpr
    simp
  by_cases isSync : request = .bootSync side
  · subst isSync
    rcases did with ⟨-, -, rfl⟩ | ⟨pdu, issued, packed, issues, rfl | sentOne⟩
    · exact (inv.bootFloors side).silent (fun _ => rfl) noBoot (kept _ rfl)
    · exact (inv.bootFloors side).silent (fun _ => rfl) noBoot (kept _ rfl)
    · obtain ⟨epoch, counter, rfl, rfl⟩ := sentOne
      have live : (net.node side).Up := by
        rcases secocTxNext_cases issues with ⟨isNone, -⟩ | ⟨idx, found, -⟩
        · cases isNone
        · exact
            (net.node side).app.tx.idsNeedStore
              (ids_ne_nil_of_findSlot found)
      cases packed
      refine (inv.bootFloors side).built live ?_ ?_
      · exact getU16le_putU16le _ []
      · simp only [Network.setNode, Request.side, Function.update_self]
        rfl
  · have noSync :
        ∀ boots, syncBoots side boots (sent.map (.built request)) = [] := by
      intro boots
      rcases did with ⟨-, -, rfl⟩ | ⟨pdu, issued, -, -, rfl | ⟨_, _, -, rfl⟩⟩
      · rfl
      · rfl
      · cases request with
        | bootSync owner =>
            have other : owner ≠ side := by
              rintro rfl
              exact isSync rfl
            simp [syncBoots, other]
        | _ =>
            rfl
    exact (inv.bootFloors side).silent noSync noBoot (kept _ rfl)

/-- Every step keeps one floor to a boot. -/
theorem bootFloors_step
    (action : NetAction)
    (inv : AdoptionInv net history)
    (side : Side) :
    BootFloors side ((networkStep cmac net action).1.node side)
      (history ++ (networkStep cmac net action).2) := by
  cases action with
  | powerLoss lost =>
      refine (inv.bootFloors side).silent (fun _ => rfl) rfl ?_
      by_cases own : side = lost
      · subst own
        simp only [networkStep, setNode_node_same]
        intro up
        cases up
      · simp only [networkStep]
        rw [setNode_node_other net _ own]
        exact fun up => ⟨up, rfl⟩
  | boot booted status outcomes =>
      by_cases own : side = booted
      · subst own
        exact (inv.bootFloors side).boot _
      · have noBoot : bootsOf side [.booted booted] = 0 := by
          apply List.count_eq_zero.mpr
          simpa using own
        refine (inv.bootFloors side).silent (fun boots => ?_) noBoot ?_
        · exact syncBoots_eq_nil (by simp [networkStep]) boots
        · simp only [networkStep]
          rw [setNode_node_other net _ own]
          exact fun up => ⟨up, rfl⟩
  | build request up outcomes =>
      exact inv.bootFloors_build side
  | deliver receiver f up outcomes =>
      exact inv.bootFloors_deliver side

/-- A step without an adoption. -/
theorem quiet
    {action : NetAction}
    (inv : AdoptionInv net history)
    (ideal : IdealMac cmac net action)
    (noWrap : NoEpochWrap net action)
    (noneAdopted :
      ∀ side record, .adopted side record ∉ (networkStep cmac net action).2) :
    AdoptionInv (networkStep cmac net action).1
      (history ++ (networkStep cmac net action).2) := by
  have old :
      ∀ side record,
        .adopted side record ∈ history ++ (networkStep cmac net action).2 →
          .adopted side record ∈ history := by
    intro side record member
    rcases List.mem_append.mp member with before | new
    · exact before
    · exact (noneAdopted side record new).elim
  refine
    ⟨inv.base.step action ideal noWrap, inv.bootFloors_step action, ?_, ?_, ?_⟩
  · intro side record member
    exact (inv.spent side record (old side record member)).step action noWrap
  · intro side
    have nothing : adoptedRecords side (networkStep cmac net action).2 = [] := by
      apply List.eq_nil_iff_forall_not_mem.mpr
      intro record member
      exact noneAdopted side record (mem_adoptedRecords.mp member)
    rw [adoptedRecords_append, nothing, List.append_nil]
    exact inv.increasing side
  · intro side record member
    exact
      List.mem_append_left _ (inv.syncs side record (old side record member))

/-- A delivery that makes its node adopt the floor of the sync it carries. -/
theorem adopt
    {side : Side}
    {f : CanRawFrame}
    {up : Bool}
    {outcomes : List CommitOutcome}
    {result : SecocRxResult FreshnessStore}
    {handled : Handled FreshnessStore}
    (inv : AdoptionInv net history)
    (ideal : IdealMac cmac net (.deliver side f up outcomes))
    (listens : side.listens f)
    (processed :
      rxProcess durablePort (oracle cmac up) (net.node side).app f
          ((net.node side).store.arm outcomes) =
        result)
    (spec : HandledFrame side (net.node side).app f result handled)
    (moved : handled.log.any (·.evt == .secocResync) = true) :
    NodeInv ⟨handled.app, handled.store⟩ [(recordOf f).floorValue] ∧
      (net.node side).Up ∧
      (net.node side).app.tx.epoch < (recordOf f).syncFloor ∧
      .built (.bootSync side.peer) (recordOf f) ∈ history := by
  have node := inv.base.base.nodes side
  obtain ⟨registered, -, configured⟩ := Side.listens_id listens
  rcases spec.adoption with ⟨-, -, quiet, -⟩ | ⟨accepted, isSync, adopts⟩
  · rw [quiet] at moved
    cases moved
  · obtain ⟨didMove, adopted, same⟩ := adopts
    rw [moved] at same
    subst same
    obtain ⟨heard⟩ :=
      rxProcess_accept processed node.rxBound configured accepted
    rw [heard.releasedPdu] at adopted
    rcases secocTxAdoptFloor_cases adopted with
        ⟨notMoved, -⟩ | ⟨-, above, live, committed, isTx⟩
    · cases notMoved
    · have after := node.receive processed spec
      have isUp : handled.app.tx.storeSet = true := by
        rw [isTx]
        exact live
      have spentFloor :=
        after.sender.ofEpoch isUp (recordOf f).value.canId
      have atFloor : handled.app.tx.epoch = (recordOf f).syncFloor := by
        rw [isTx]
        rfl
      simp only [atFloor] at spentFloor
      obtain ⟨request, built⟩ :=
        inv.base.base.built_of_verified ideal heard.verifies
      have onId := (inv.base.base.builtFor request _ built).1
      have isBootSync : request = .bootSync side.peer := by
        apply Request.eq_bootSync
        rw [← onId, recordOf, isSync, UInt16.toUInt16_toUInt32]
      rw [isBootSync] at built
      exact ⟨⟨spentFloor, after.rxBound, after.rxDomain⟩, live, above, built⟩

/-- One record more is adopted, by a node that is up and behind its floor. -/
theorem adopted
    {next : Network}
    {events : List NetEvent}
    {side : Side}
    {record : SecuredRecord}
    (inv : AdoptionInv net history)
    (base : ResyncInv next (history ++ events))
    (floors :
      ∀ own : Side, BootFloors own (next.node own) (history ++ events))
    (kept :
      ∀ receiver earlier,
        .adopted receiver earlier ∈ history →
          NodeInv (next.node receiver) [earlier.floorValue])
    (told :
      ∀ receiver,
        adoptedRecords receiver events =
          if side = receiver then [record] else [])
    (spentFloor : NodeInv (next.node side) [record.floorValue])
    (live : (net.node side).Up)
    (above : (net.node side).app.tx.epoch < record.syncFloor)
    (built : .built (.bootSync side.peer) record ∈ history) :
    AdoptionInv next (history ++ events) := by
  have which :
      ∀ receiver other,
        .adopted receiver other ∈ history ++ events →
          .adopted receiver other ∈ history ∨
            (receiver = side ∧ other = record) := by
    intro receiver other isAdopted
    rcases List.mem_append.mp isAdopted with old | new
    · exact Or.inl old
    · right
      have listed := mem_adoptedRecords.mpr new
      rw [told] at listed
      by_cases own : side = receiver
      · rw [if_pos own] at listed
        exact ⟨own.symm, List.mem_singleton.mp listed⟩
      · rw [if_neg own] at listed
        cases listed
  refine ⟨base, floors, ?_, ?_, ?_⟩
  · intro receiver other isAdopted
    rcases which receiver other isAdopted with old | ⟨rfl, rfl⟩
    · exact kept receiver other old
    · exact spentFloor
  · intro receiver
    rw [adoptedRecords_append, told]
    by_cases own : side = receiver
    · subst own
      rw [if_pos rfl]
      apply Increasing.pairwise_concat (inv.increasing side)
      intro earlier isEarlier
      have before := inv.spent side earlier (mem_adoptedRecords.mp isEarlier)
      have behind :=
        before.sender.issuedBehind live _ (List.mem_singleton_self _)
      exact UInt16.lt_of_le_of_lt behind above
    · rw [if_neg own, List.append_nil]
      exact inv.increasing receiver
  · intro receiver other isAdopted
    rcases which receiver other isAdopted with old | ⟨rfl, rfl⟩
    · exact List.mem_append_left _ (inv.syncs receiver other old)
    · exact List.mem_append_left _ built

/-- A frame delivered to a node. -/
theorem deliver
    {side : Side}
    {f : CanRawFrame}
    {up : Bool}
    {outcomes : List CommitOutcome}
    (inv : AdoptionInv net history)
    (ideal : IdealMac cmac net (.deliver side f up outcomes)) :
    AdoptionInv (networkStep cmac net (.deliver side f up outcomes)).1
      (history ++ (networkStep cmac net (.deliver side f up outcomes)).2) := by
  by_cases adopts :
      ∃ receiver record,
        .adopted receiver record ∈
          (networkStep cmac net (.deliver side f up outcomes)).2
  · have base := inv.base.step (.deliver side f up outcomes) ideal trivial
    have floors :
        ∀ own : Side,
          BootFloors own
            ((networkStep cmac net (.deliver side f up outcomes)).1.node own)
            (history ++
              (networkStep cmac net (.deliver side f up outcomes)).2) :=
      inv.bootFloors_step (.deliver side f up outcomes)
    have kept :
        ∀ receiver record,
          .adopted receiver record ∈ history →
            NodeInv
              ((networkStep cmac net (.deliver side f up outcomes)).1.node
                receiver)
              [record.floorValue] :=
      fun receiver record member =>
        (inv.spent receiver record member).step _ trivial
    by_cases listens : side.listens f
    · obtain ⟨result, nodeAfter, events, processed, ran, did⟩ :=
        networkStep_deliver up listens
      rw [ran] at adopts base floors kept ⊢
      obtain ⟨someone, something, member⟩ := adopts
      rcases did with ⟨-, -, -, -, rfl⟩ | ⟨handled, spec, rfl, rfl⟩
      · simp at member
      · have moved :
            handled.log.any (·.evt == .secocResync) = true := by
          by_contra quiet
          unfold handledEvents at member
          rw [if_neg quiet] at member
          split at member <;> simp at member
        obtain ⟨spentFloor, live, above, built⟩ :=
          inv.adopt ideal listens processed spec moved
        refine
          inv.adopted base floors kept
            (adoptedRecords_handled side f handled moved) ?_ live above built
        rw [setNode_node_same]
        exact spentFloor
    · rw [networkStep_deliver_other up listens] at adopts
      obtain ⟨receiver, record, member⟩ := adopts
      cases member
  · refine inv.quiet ideal trivial ?_
    intro receiver record member
    exact adopts ⟨receiver, record, member⟩

/-- Every step keeps the invariant. -/
theorem step
    (action : NetAction)
    (inv : AdoptionInv net history)
    (ideal : IdealMac cmac net action)
    (noWrap : NoEpochWrap net action) :
    AdoptionInv (networkStep cmac net action).1
      (history ++ (networkStep cmac net action).2) := by
  cases action with
  | powerLoss side =>
      exact inv.quiet ideal noWrap (by simp [networkStep])
  | boot side status outcomes =>
      exact inv.quiet ideal noWrap (by simp [networkStep])
  | build request up outcomes =>
      refine inv.quiet ideal noWrap ?_
      obtain ⟨tx, store, sent, ran, -⟩ := networkStep_build request up
      rw [ran]
      simp
  | deliver side f up outcomes =>
      exact inv.deliver ideal

end AdoptionInv

end TraveoBodyDomain
