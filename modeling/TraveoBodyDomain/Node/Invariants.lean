import Mathlib.Tactic.Common
import TraveoBodyDomain.Node.Steps

/-!
# What every run of the network keeps

Each node keeps its sender invariant over the frames it built.  What is tagged
was built, what a node accepts was built by some node, and what a node hands on
is what the records it accepted decode to.
-/

namespace TraveoBodyDomain

/-- The records a node built, in order. -/
def builtRecords
    (side : Side)
    (history : List NetEvent) :
    List SecuredRecord :=
  history.filterMap fun
    | .built request record =>
        if request.side = side then some record else none
    | _ => none

/-- The records a node accepted, in order. -/
def acceptedRecords
    (side : Side)
    (history : List NetEvent) :
    List SecuredRecord :=
  history.filterMap fun
    | .accepted receiver record =>
        if receiver = side then some record else none
    | _ => none

/-- The records of one CAN ID, in order. -/
def recordsOn
    (canId : UInt16)
    (records : List SecuredRecord) :
    List SecuredRecord :=
  records.filter fun record => record.value.canId = canId

/-- The messages a node handed on for one CAN ID, in order. -/
def handedMessages
    (side : Side)
    (canId : UInt16)
    (history : List NetEvent) :
    List BodyMsg :=
  history.filterMap fun
    | .handedOn receiver id msg =>
        if receiver = side ∧ id = canId then some msg else none
    | _ => none

/-- The messages built for one CAN ID, in order. -/
def builtMessages
    (canId : UInt16)
    (history : List NetEvent) :
    List BodyMsg :=
  history.filterMap fun
    | .built request _ =>
        if request.canId = canId then request.message else none
    | _ => none

@[simp] theorem builtRecords_append
    (side : Side)
    (first second : List NetEvent) :
    builtRecords side (first ++ second) =
      builtRecords side first ++ builtRecords side second :=
  List.filterMap_append

@[simp] theorem acceptedRecords_append
    (side : Side)
    (first second : List NetEvent) :
    acceptedRecords side (first ++ second) =
      acceptedRecords side first ++ acceptedRecords side second :=
  List.filterMap_append

@[simp] theorem handedMessages_append
    (side : Side)
    (canId : UInt16)
    (first second : List NetEvent) :
    handedMessages side canId (first ++ second) =
      handedMessages side canId first ++ handedMessages side canId second :=
  List.filterMap_append

@[simp] theorem builtMessages_append
    (canId : UInt16)
    (first second : List NetEvent) :
    builtMessages canId (first ++ second) =
      builtMessages canId first ++ builtMessages canId second :=
  List.filterMap_append

/-- Boots hand nothing on. -/
@[simp] theorem handedMessages_booted
    (side receiver : Side)
    (canId : UInt16)
    (n : Nat) :
    handedMessages receiver canId (List.replicate n (.booted side)) = [] :=
  List.filterMap_replicate_of_none rfl

/-- Boots build nothing. -/
@[simp] theorem builtMessages_booted
    (side : Side)
    (canId : UInt16)
    (n : Nat) :
    builtMessages canId (List.replicate n (.booted side)) = [] :=
  List.filterMap_replicate_of_none rfl

@[simp] theorem recordsOn_append
    (canId : UInt16)
    (first second : List SecuredRecord) :
    recordsOn canId (first ++ second) =
      recordsOn canId first ++ recordsOn canId second :=
  List.filter_append ..

/-- A record a node built is one of its build events. -/
theorem mem_builtRecords
    {side : Side}
    {record : SecuredRecord}
    {history : List NetEvent} :
    record ∈ builtRecords side history ↔
      ∃ request, request.side = side ∧ .built request record ∈ history := by
  unfold builtRecords
  rw [List.mem_filterMap]
  constructor
  · rintro ⟨event, member, extracted⟩
    cases event <;> simp at extracted
    case built request built =>
      rcases extracted with ⟨sameSide, rfl⟩
      exact ⟨request, sameSide, member⟩
  · rintro ⟨request, sameSide, member⟩
    exact ⟨_, member, by simp [sameSide]⟩

/-- A record a node accepted is one of its acceptances. -/
theorem mem_acceptedRecords
    {side : Side}
    {record : SecuredRecord}
    {history : List NetEvent} :
    record ∈ acceptedRecords side history ↔
      .accepted side record ∈ history := by
  unfold acceptedRecords
  rw [List.mem_filterMap]
  constructor
  · rintro ⟨event, member, extracted⟩
    cases event <;> simp at extracted
    case accepted receiver accepted =>
      rcases extracted with ⟨rfl, rfl⟩
      exact member
  · intro member
    exact ⟨_, member, by simp⟩

/-- Handling a frame accepts nothing more. -/
theorem acceptedRecords_handledEvents
    (side receiver : Side)
    (f : CanRawFrame)
    (handled : Handled FreshnessStore) :
    acceptedRecords receiver (handledEvents side f handled) = [] := by
  apply List.eq_nil_iff_forall_not_mem.mpr
  intro record member
  have event := mem_acceptedRecords.mp member
  unfold handledEvents at event
  split at event <;> simp at event

/-- Handling a frame hands on at most one message. -/
theorem handedMessages_handledEvents
    (side receiver : Side)
    (canId : UInt16)
    (f : CanRawFrame)
    (handled : Handled FreshnessStore) :
    handedMessages receiver canId (handledEvents side f handled) =
      if side = receiver ∧ f.id.toUInt16 = canId then
        handled.handedOn.toList
      else
        [] := by
  have adoptions :
      handedMessages receiver canId
        (if handled.log.any (·.evt == .secocResync) then
          [.adopted side (recordOf f)]
        else
          []) = [] := by
    split <;> rfl
  unfold handledEvents
  rw [handedMessages_append, adoptions, List.append_nil]
  cases handled.handedOn with
  | none =>
      simp [handedMessages]
  | some msg =>
      by_cases own : side = receiver ∧ f.id.toUInt16 = canId
      · simp [handedMessages, own]
      · simp [handedMessages, own]

/-- The pairs of an ID are the pairs of its records. -/
theorem pairsOf_values
    (canId : UInt16)
    (records : List SecuredRecord) :
    pairsOf canId (records.map (·.value)) =
      (recordsOn canId records).map
        fun record => (record.value.epoch, record.value.counter) := by
  induction records with
  | nil =>
      rfl
  | cons record rest inductionHypothesis =>
      by_cases sameId : record.value.canId = canId
      · simpa [pairsOf, recordsOn, sameId] using inductionHypothesis
      · simpa [pairsOf, recordsOn, sameId] using inductionHypothesis

/-- The order in which the records of one ID are built and accepted. -/
def SecuredRecord.before (first second : SecuredRecord) : Prop :=
  Increasing.lexLt
    (first.value.epoch, first.value.counter)
    (second.value.epoch, second.value.counter)

/-- Increasing values of one ID are increasing records. -/
theorem recordsOn_pairwise
    {canId : UInt16}
    {records : List SecuredRecord}
    (increasing :
      (pairsOf canId (records.map (·.value))).Pairwise Increasing.lexLt) :
    (recordsOn canId records).Pairwise SecuredRecord.before := by
  rw [pairsOf_values, List.pairwise_map] at increasing
  exact increasing

/-!
## One node
-/

/-- A node, with the freshness values of the frames it built. -/
structure NodeInv
    (node : Node)
    (built : List FreshValue) : Prop where
  sender : SenderInv secocDomTxSelf node.app.tx node.store built
  rxBound : RxBound node.app.rx
  rxDomain : RxDomain node.app

/-- A shorter record of what was issued serves as well. -/
theorem SenderInv.sublist
    {domain : UInt8}
    {ctx : SecocTxCtx}
    {store : FreshnessStore}
    {issued fewer : List FreshValue}
    (inv : SenderInv domain ctx store issued)
    (sub : List.Sublist fewer issued) :
    SenderInv domain ctx store fewer where
  ownDomain := inv.ownDomain
  liveDurable := inv.liveDurable
  issuedDurable := fun one member => inv.issuedDurable one (sub.subset member)
  issuedBehind :=
    fun live one member => inv.issuedBehind live one (sub.subset member)
  countersAhead :=
    fun live one member => inv.countersAhead live one (sub.subset member)
  increasing := fun canId => (inv.increasing canId).sublist (sub.filterMap _)

namespace NodeInv

variable {node : Node}
  {built : List FreshValue}

/-- A node without power keeps what its store and its history say. -/
theorem powerLoss
    (inv : NodeInv node built)
    {store : FreshnessStore}
    (same :
      store.slot secocDomTxSelf = node.store.slot secocDomTxSelf) :
    NodeInv ⟨.reset, store⟩ built := by
  refine ⟨inv.sender.reset.of_slot_eq same, Or.inl rfl, ?_⟩
  intro live
  simp [SecocApp.gRx, SecocApp.reset, secocRxInit, SecocRxCtx.reset] at live

/-- A boot that wraps no sender epoch keeps the invariant. -/
theorem boot
    {side : Side}
    {status : SecocStoreStatus}
    {outcomes : List CommitOutcome}
    {app : SecocApp}
    {store : FreshnessStore}
    (inv : NodeInv node built)
    (noWrap :
      status ≠ .broken →
        node.store.slot secocDomTxSelf = some 0xFFFF →
        (node.store.arm outcomes).nextOutcome = .failedOld)
    (ran :
      secocAppInit side.config durablePort status .reset
          (node.store.arm outcomes) =
        (app, store)) :
    NodeInv ⟨app, store⟩ built := by
  rcases secocAppInit_spec ran with
      ⟨cySet, lenSet,
        ⟨-, isTx, isRx, rfl⟩ |
        ⟨usable, txBooted, rxBooted, txRan, rxRan⟩⟩
  · refine ⟨?_, Or.inr ⟨cySet, lenSet⟩, ?_⟩
    · have sender :
          SenderInv secocDomTxSelf .reset (node.store.arm outcomes) built :=
        inv.sender.reset.of_slot_eq rfl
      rw [← isTx] at sender
      exact sender
    · intro live
      simp only at live
      rw [isRx] at live
      simp [SecocRxCtx.reset] at live
  · refine ⟨?_, Or.inr ⟨cySet, lenSet⟩, ?_⟩
    · have armed :
          SenderInv secocDomTxSelf .reset (node.store.arm outcomes) built :=
        inv.sender.reset.of_slot_eq rfl
      exact armed.boot (fun _ => noWrap usable) txRan
    · intro live
      simp only at live ⊢
      rcases secocRxBoot_cases rxRan with ⟨-, isRx⟩ | ⟨_, -, -, isRx⟩
      · rw [isRx] at live
        simp [SecocRxCtx.reset] at live
      · rw [isRx]
        rfl

/-- Handling a frame keeps the invariant. -/
theorem receive
    {side : Side}
    {mac : SecocMac}
    {f : CanRawFrame}
    {outcomes : List CommitOutcome}
    {result : SecocRxResult FreshnessStore}
    {handled : Handled FreshnessStore}
    (inv : NodeInv node built)
    (processed :
      rxProcess durablePort mac node.app f (node.store.arm outcomes) = result)
    (spec : HandledFrame side node.app f result handled) :
    NodeInv ⟨handled.app, handled.store⟩ built := by
  have slotKept :
      result.store.slot secocDomTxSelf =
        (node.store.arm outcomes).slot secocDomTxSelf :=
    rxProcess_slot_tx processed inv.rxDomain
  have heard := inv.sender.of_slot_eq slotKept
  have bound : RxBound handled.app.rx := by
    rw [spec.rxAfter]
    exact rxProcess_rxBound processed inv.rxBound
  have domain : RxDomain handled.app :=
    rxProcess_rxDomain processed inv.rxDomain spec.rxAfter
  rcases spec.adoption with
      ⟨sameTx, sameStore, -, -⟩ | ⟨-, -, moved, adopted, -⟩
  · refine ⟨?_, bound, domain⟩
    rw [sameTx, sameStore]
    exact heard
  · exact ⟨heard.adoptFloor adopted, bound, domain⟩

/-- Building a frame keeps the invariant, with the frame among those built. -/
theorem build
    {request : Request}
    {outcomes : List CommitOutcome}
    {issued : Option (UInt16 × UInt16)}
    {tx : SecocTxCtx}
    {store : FreshnessStore}
    {more : List FreshValue}
    (inv : NodeInv node built)
    (noWrap :
      rolloverDue node.app.tx request.canId = true →
        node.app.tx.epoch = 0xFFFF →
        (node.store.arm outcomes).nextOutcome = .failedOld)
    (ran :
      secocTxNext durablePort node.app.tx request.canId
          (node.store.arm outcomes) =
        (issued, tx, store))
    (some : List.Sublist more (issueOf request.canId issued)) :
    NodeInv ⟨{ node.app with tx := tx }, store⟩ (built ++ more) := by
  have armed :
      SenderInv secocDomTxSelf node.app.tx (node.store.arm outcomes) built :=
    inv.sender.of_slot_eq rfl
  have spent := armed.next noWrap ran
  exact
    ⟨spent.sublist (some.append_left built), inv.rxBound, inv.rxDomain⟩

end NodeInv

/-!
## The network
-/

/-- The freshness values a node spent on frames it built. -/
def builtValues
    (side : Side)
    (history : List NetEvent) :
    List FreshValue :=
  (builtRecords side history).map (·.value)

/-- What holds after every run of the network, with what the run showed. -/
structure NetInv
    (net : Network)
    (history : List NetEvent) : Prop where
  nodes : ∀ side, NodeInv (net.node side) (builtValues side history)
  taggedBuilt :
    ∀ entry ∈ net.tagged,
      ∃ request record,
        .built request record ∈ history ∧
          entry = (secocMacKeyId, record.macInput)
  builtFor :
    ∀ request record,
      .built request record ∈ history →
        record.value.canId = request.canId ∧
          bodyDecode request.canId.toUInt32 record.pdu = request.message
  acceptedBuilt :
    ∀ side record,
      .accepted side record ∈ history →
        ∃ request, .built request record ∈ history
  handedDecoded :
    ∀ side canId,
      handedMessages side canId history =
        (recordsOn canId (acceptedRecords side history)).filterMap
          fun record => bodyDecode canId.toUInt32 record.pdu

/-- Neither node has power yet. -/
theorem NodeInv.start
    (store : FreshnessStore) :
    NodeInv ⟨.reset, store⟩ [] := by
  refine ⟨.start secocDomTxSelf store, Or.inl rfl, ?_⟩
  intro live
  simp [SecocApp.gRx, SecocApp.reset, secocRxInit, SecocRxCtx.reset] at live

/-- Replacing one node by one that keeps its invariant. -/
theorem NodeInv.update
    {nodes : Side → Node}
    {side : Side}
    {node : Node}
    {values : Side → List FreshValue}
    (others : ∀ other, other ≠ side → NodeInv (nodes other) (values other))
    (one : NodeInv node (values side)) :
    ∀ other, NodeInv (Function.update nodes side node other) (values other) := by
  intro other
  by_cases same : other = side
  · subst same
    rw [Function.update_self]
    exact one
  · rw [Function.update_of_ne same]
    exact others other same

namespace NetInv

variable {cmac : UInt32 → List UInt8 → FullTag}
  {net : Network}
  {history : List NetEvent}

/-- The network before either node has power. -/
theorem start
    (stores : Side → FreshnessStore) :
    NetInv (.unpowered stores) [] := by
  refine ⟨fun side => .start (stores side), ?_, ?_, ?_, fun _ _ => rfl⟩ <;>
    simp [Network.unpowered]

/-- One more step: the nodes it leaves, and what is new in what it shows. -/
theorem extend
    {netAfter : Network}
    {events : List NetEvent}
    (inv : NetInv net history)
    (nodes :
      ∀ side,
        NodeInv (netAfter.node side)
          (builtValues side history ++ builtValues side events))
    (tagged :
      ∀ entry ∈ netAfter.tagged,
        entry ∈ net.tagged ∨
          ∃ request record,
            .built request record ∈ events ∧
              entry = (secocMacKeyId, record.macInput))
    (builtFor :
      ∀ request record,
        .built request record ∈ events →
          record.value.canId = request.canId ∧
            bodyDecode request.canId.toUInt32 record.pdu = request.message)
    (acceptedBuilt :
      ∀ side record,
        .accepted side record ∈ events →
          ∃ request, .built request record ∈ history)
    (handed :
      ∀ side canId,
        handedMessages side canId events =
          (recordsOn canId (acceptedRecords side events)).filterMap
            fun record => bodyDecode canId.toUInt32 record.pdu) :
    NetInv netAfter (history ++ events) := by
  refine ⟨?_, ?_, ?_, ?_, ?_⟩
  · intro side
    have one := nodes side
    unfold builtValues at one ⊢
    rw [builtRecords_append, List.map_append]
    exact one
  · intro entry member
    rcases tagged entry member with old | ⟨request, record, built, same⟩
    · rcases inv.taggedBuilt entry old with ⟨request, record, built, same⟩
      exact ⟨request, record, List.mem_append_left _ built, same⟩
    · exact ⟨request, record, List.mem_append_right _ built, same⟩
  · intro request record member
    rcases List.mem_append.mp member with old | new
    · exact inv.builtFor request record old
    · exact builtFor request record new
  · intro side record member
    rcases List.mem_append.mp member with old | new
    · rcases inv.acceptedBuilt side record old with ⟨request, built⟩
      exact ⟨request, List.mem_append_left _ built⟩
    · rcases acceptedBuilt side record new with ⟨request, built⟩
      exact ⟨request, List.mem_append_left _ built⟩
  · intro side canId
    rw [handedMessages_append, acceptedRecords_append, recordsOn_append,
      List.filterMap_append, inv.handedDecoded, handed]

/-- A step that only replaces a node, and at most tells that it booted. -/
theorem replace
    {side : Side}
    {node : Node}
    {events : List NetEvent}
    (inv : NetInv net history)
    (one : NodeInv node (builtValues side history))
    (told : events = [] ∨ events = [.booted side]) :
    NetInv (net.setNode side node) (history ++ events) := by
  have noneBuilt : ∀ other, builtValues other events = [] := by
    intro other
    rcases told with rfl | rfl <;> rfl
  refine inv.extend ?_ (fun entry member => Or.inl member) ?_ ?_ ?_
  · apply NodeInv.update
    · intro other different
      rw [noneBuilt, List.append_nil]
      exact inv.nodes other
    · rw [noneBuilt, List.append_nil]
      exact one
  · intro request record member
    rcases told with rfl | rfl <;> simp at member
  · intro receiver record member
    rcases told with rfl | rfl <;> simp at member
  · intro receiver canId
    rcases told with rfl | rfl <;> rfl

/-- Power lost at a node. -/
theorem powerLoss
    (inv : NetInv net history)
    (side : Side) :
    NetInv (networkStep cmac net (.powerLoss side)).1
      (history ++ (networkStep cmac net (.powerLoss side)).2) :=
  inv.replace ((inv.nodes side).powerLoss rfl) (Or.inl rfl)

/-- A boot of a node. -/
theorem boot
    {side : Side}
    {status : SecocStoreStatus}
    {outcomes : List CommitOutcome}
    (inv : NetInv net history)
    (noWrap : NoEpochWrap net (.boot side status outcomes)) :
    NetInv (networkStep cmac net (.boot side status outcomes)).1
      (history ++ (networkStep cmac net (.boot side status outcomes)).2) := by
  rcases ran :
      secocAppInit side.config durablePort status .reset
        ((net.node side).store.arm outcomes) with ⟨app, store⟩
  simp only [networkStep, ran]
  exact inv.replace ((inv.nodes side).boot noWrap ran) (Or.inr rfl)

/-- A frame built by a node, or refused. -/
theorem build
    {request : Request}
    {up : Bool}
    {outcomes : List CommitOutcome}
    (inv : NetInv net history)
    (noWrap : NoEpochWrap net (.build request up outcomes)) :
    NetInv (networkStep cmac net (.build request up outcomes)).1
      (history ++ (networkStep cmac net (.build request up outcomes)).2) := by
  rcases networkStep_build request up with ⟨tx, store, sent, ran, did⟩
  rw [ran]
  have sentValues :
      ∀ side,
        builtValues side (sent.map (.built request)) =
          if request.side = side then sent.map (·.value) else [] := by
    intro side
    unfold builtValues builtRecords
    rw [List.filterMap_map]
    by_cases own : request.side = side
    · simp [own]
    · simp [own]
  have ofRequest :
      ∀ record ∈ sent,
        record.value.canId = request.canId ∧
          bodyDecode request.canId.toUInt32 record.pdu = request.message := by
    intro record member
    rcases did with ⟨-, -, rfl⟩ | ⟨pdu, issued, packed, -, rfl | ⟨_, _, -, rfl⟩⟩
    · cases member
    · cases member
    · rw [List.mem_singleton.mp member]
      exact ⟨rfl, (Request.pdu_spec packed).2⟩
  refine inv.extend ?_ ?_ ?_ ?_ ?_
  · apply NodeInv.update
    · intro other different
      rw [sentValues, if_neg (Ne.symm different), List.append_nil]
      exact inv.nodes other
    · rw [sentValues, if_pos rfl]
      rcases did with ⟨rfl, rfl, rfl⟩ | ⟨pdu, issued, packed, issues, isSent⟩
      · rw [List.map_nil, List.append_nil]
        have one := inv.nodes request.side
        exact ⟨one.sender.of_slot_eq rfl, one.rxBound, one.rxDomain⟩
      · refine (inv.nodes request.side).build ?_ issues ?_
        · exact noWrap (by rw [packed]; rfl)
        · rcases isSent with rfl | ⟨epoch, counter, rfl, rfl⟩
          · exact List.nil_sublist _
          · exact List.Sublist.refl _
  · intro entry member
    rcases List.mem_append.mp member with old | new
    · exact Or.inl old
    · rcases List.mem_map.mp new with ⟨record, isSent, rfl⟩
      exact Or.inr ⟨request, record, List.mem_map_of_mem isSent, rfl⟩
  · intro other record member
    rcases List.mem_map.mp member with ⟨one, isSent, same⟩
    cases same
    exact ofRequest record isSent
  · intro receiver record member
    rcases List.mem_map.mp member with ⟨one, -, same⟩
    cases same
  · intro receiver canId
    have nothing : acceptedRecords receiver (sent.map (.built request)) = [] := by
      simp [acceptedRecords, List.filterMap_map]
    rw [nothing]
    simp [handedMessages, recordsOn, List.filterMap_map]

/-- A node accepts a record, and hands on what it decodes to. -/
theorem accept
    {side : Side}
    {node : Node}
    {record : SecuredRecord}
    {rest : List NetEvent}
    (inv : NetInv net history)
    (one : NodeInv node (builtValues side history))
    (origin : ∃ request, .built request record ∈ history)
    (noneBuilt : ∀ request record, .built request record ∉ rest)
    (noneAccepted : ∀ receiver record, .accepted receiver record ∉ rest)
    (handed :
      ∀ receiver canId,
        handedMessages receiver canId rest =
          if side = receiver ∧ record.value.canId = canId then
            (bodyDecode canId.toUInt32 record.pdu).toList
          else
            []) :
    NetInv (net.setNode side node)
      (history ++ .accepted side record :: rest) := by
  have builtNothing :
      ∀ other, builtValues other (.accepted side record :: rest) = [] := by
    intro other
    have empty : builtRecords other (.accepted side record :: rest) = [] := by
      apply List.eq_nil_iff_forall_not_mem.mpr
      intro built member
      rcases mem_builtRecords.mp member with ⟨request, -, isBuilt⟩
      rcases List.mem_cons.mp isBuilt with same | later
      · cases same
      · exact noneBuilt request built later
    rw [builtValues, empty, List.map_nil]
  have acceptedNothing : ∀ other, acceptedRecords other rest = [] := by
    intro other
    apply List.eq_nil_iff_forall_not_mem.mpr
    intro accepted member
    exact noneAccepted other accepted (mem_acceptedRecords.mp member)
  refine inv.extend ?_ (fun entry member => Or.inl member) ?_ ?_ ?_
  · apply NodeInv.update
    · intro other _
      rw [builtNothing, List.append_nil]
      exact inv.nodes other
    · rw [builtNothing, List.append_nil]
      exact one
  · intro request built member
    rcases List.mem_cons.mp member with same | later
    · cases same
    · exact (noneBuilt request built later).elim
  · intro receiver accepted member
    rcases List.mem_cons.mp member with same | later
    · cases same
      exact origin
    · exact (noneAccepted receiver accepted later).elim
  · intro receiver canId
    have split :
        acceptedRecords receiver (.accepted side record :: rest) =
          if side = receiver then [record] else [] := by
      rw [← List.singleton_append, acceptedRecords_append, acceptedNothing,
        List.append_nil]
      by_cases own : side = receiver <;> simp [acceptedRecords, own]
    have same :
        handedMessages receiver canId (.accepted side record :: rest) =
          handedMessages receiver canId rest :=
      rfl
    rw [same, handed, split]
    by_cases own : side = receiver
    · by_cases onId : record.value.canId = canId
      · cases decoded : bodyDecode canId.toUInt32 record.pdu <;>
          simp [own, onId, recordsOn, decoded]
      · simp [own, onId, recordsOn]
    · simp [own, recordsOn]

/-- A frame that verifies carries a record some node built. -/
theorem built_of_verified
    {side : Side}
    {f : CanRawFrame}
    {up : Bool}
    {outcomes : List CommitOutcome}
    (inv : NetInv net history)
    (ideal : IdealMac cmac net (.deliver side f up outcomes))
    (verifies :
      rxVerify (oracle cmac true) (some bodyMsgPduLen) gCy f.id.toUInt16
          f.data canMaxDlen =
        .ok
          ⟨(recordOf f).value.epoch, (recordOf f).value.counter,
            (recordOf f).pdu⟩) :
    ∃ request, .built request (recordOf f) ∈ history := by
  simp only [IdealMac, verifies] at ideal
  rcases inv.taggedBuilt _ ideal with ⟨request, record, built, same⟩
  have inputs :
      buildMacInput f.id.toUInt16
          (freshnessField (recordOf f).value.epoch (recordOf f).value.counter)
          (recordOf f).pdu =
        record.macInput :=
    congrArg Prod.snd same
  rcases buildMacInput_injective rfl rfl inputs with ⟨sameId, fresh, samePdu⟩
  rcases freshnessField_injective fresh with ⟨sameEpoch, sameCounter⟩
  have sameRecord : record = recordOf f := by
    rcases record with ⟨⟨canId, epoch, counter⟩, pdu⟩
    simp only at sameId sameEpoch sameCounter samePdu
    rw [← sameId, ← sameEpoch, ← sameCounter, ← samePdu]
    rfl
  rw [← sameRecord]
  exact ⟨request, built⟩

/-- A frame delivered to a node. -/
theorem deliver
    {side : Side}
    {f : CanRawFrame}
    {up : Bool}
    {outcomes : List CommitOutcome}
    (inv : NetInv net history)
    (ideal : IdealMac cmac net (.deliver side f up outcomes)) :
    NetInv (networkStep cmac net (.deliver side f up outcomes)).1
      (history ++ (networkStep cmac net (.deliver side f up outcomes)).2) := by
  have own := inv.nodes side
  by_cases listens : side.listens f
  · rcases Side.listens_id listens with ⟨-, sameId, configured⟩
    rcases networkStep_deliver up listens with
        ⟨result, nodeAfter, events, processed, ran, did⟩
    rw [ran]
    have origin :
        result.verdict = .accept →
          ∃ request, .built request (recordOf f) ∈ history := by
      intro accepted
      rcases rxProcess_accept processed own.rxBound configured accepted with
          ⟨heard⟩
      exact inv.built_of_verified ideal heard.verifies
    rcases did with ⟨accepted, isSync, -, rfl, rfl⟩ | ⟨handled, spec, rfl, rfl⟩
    · have slotKept :
          result.store.slot secocDomTxSelf =
            ((net.node side).store.arm outcomes).slot secocDomTxSelf :=
        rxProcess_slot_tx processed own.rxDomain
      have kept : NodeInv ⟨.reset, result.store⟩ (builtValues side history) :=
        own.powerLoss slotKept
      refine inv.accept kept (origin accepted) ?_ ?_ ?_
      · simp
      · simp
      · intro receiver canId
        by_cases onId : (recordOf f).value.canId = canId
        · have isId : canId = side.peer.config.bootSyncId := by
            rw [← onId, recordOf, isSync, UInt16.toUInt16_toUInt32]
          rw [isId, bodyDecode_bootSync]
          simp [handedMessages]
        · simp [handedMessages, onId]
    · have kept := own.receive processed spec
      by_cases accepted : result.verdict = .accept
      · rw [if_pos accepted, List.singleton_append]
        rcases rxProcess_accept processed own.rxBound configured accepted with
            ⟨heard⟩
        have handed := spec.handedOn
        rw [if_pos accepted, heard.releasedPdu, sameId] at handed
        refine inv.accept kept (origin accepted) ?_ ?_ ?_
        · intro request record
          unfold handledEvents
          split <;> simp
        · intro receiver record
          unfold handledEvents
          split <;> simp
        · intro receiver canId
          rw [handedMessages_handledEvents, handed]
          by_cases onId : side = receiver ∧ (recordOf f).value.canId = canId
          · rcases onId with ⟨rfl, rfl⟩
            rw [if_pos ⟨rfl, rfl⟩, if_pos ⟨rfl, rfl⟩]
            rfl
          · rw [if_neg onId]
            exact if_neg onId
      · rw [if_neg accepted, List.nil_append,
          handledEvents_of_drop spec accepted]
        exact inv.replace kept (Or.inl rfl)
  · rw [networkStep_deliver_other up listens]
    exact
      inv.replace
        ⟨own.sender.of_slot_eq rfl, own.rxBound, own.rxDomain⟩ (Or.inl rfl)

/-- Every step keeps the invariant. -/
theorem step
    (action : NetAction)
    (inv : NetInv net history)
    (ideal : IdealMac cmac net action)
    (noWrap : NoEpochWrap net action) :
    NetInv (networkStep cmac net action).1
      (history ++ (networkStep cmac net action).2) := by
  cases action with
  | powerLoss side =>
      exact inv.powerLoss side
  | boot side status outcomes =>
      exact inv.boot noWrap
  | build request up outcomes =>
      exact inv.build noWrap
  | deliver side f up outcomes =>
      exact inv.deliver ideal

end NetInv

end TraveoBodyDomain
