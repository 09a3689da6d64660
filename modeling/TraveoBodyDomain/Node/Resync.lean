import Mathlib.Tactic.Common
import TraveoBodyDomain.Node.Heard

/-!
# The boot syncs recover the nodes and do not run away

A receiver that reboots raises its floor past its peer's epoch; its boot sync
tells the peer, which adopts the floor.  The floors of two nodes that are up
are never both ahead, so one sync always gets through; a sync moves its
receiver's epoch only while that epoch is behind the floor it carries.
-/

namespace TraveoBodyDomain

/-- The floor a boot sync carries. -/
def SecuredRecord.syncFloor (record : SecuredRecord) : UInt16 :=
  getU16le record.pdu

/-- Of two nodes that are up, one is not ahead of the other's epoch. -/
def Apart (first second : Node) : Prop :=
  first.Up →
    second.Up →
      first.app.gRx.floor ≤ second.app.tx.epoch ∨
        second.app.gRx.floor ≤ first.app.tx.epoch

namespace Apart

variable {first second after : Node}

/-- It does not matter which node is named first. -/
theorem symm
    (apart : Apart first second) :
    Apart second first :=
  fun up otherUp => (apart otherUp up).symm

/-- A step of one node keeps the two apart. -/
theorem step
    (apart : Apart first second)
    (change : NodeChange first after)
    (boots :
      first.store.slot secocDomTxSelf ≠ some 0xFFFF →
        second.Up →
        second.app.gRx.floor ≤
          (first.store.slot secocDomTxSelf).getD 0 + 1) :
    Apart after second := by
  intro up otherUp
  cases change with
  | off down =>
      exact (down up).elim
  | boots noWrap next =>
      right
      rw [next]
      exact boots noWrap otherUp
  | stays epoch forward =>
      obtain ⟨wasUp, grows⟩ := epoch up
      rcases apart wasUp otherUp with behind | behind
      · left
        rw [forward.floor]
        exact behind
      · right
        exact UInt16.le_trans behind grows

end Apart

/-- The other node of the other node. -/
@[simp] theorem Side.peer_peer
    (side : Side) :
    side.peer.peer = side := by
  cases side <;> rfl

/-- A node is not its peer. -/
theorem Side.peer_ne
    (side : Side) :
    side.peer ≠ side := by
  cases side <;> decide

/-- There are two nodes. -/
theorem Side.eq_or_peer
    (side other : Side) :
    other = side ∨ other = side.peer := by
  cases side <;> cases other <;> decide

/-- What every run keeps about the two receivers and the syncs on the bus. -/
structure ResyncInv
    (net : Network)
    (history : List NetEvent) : Prop where
  base : NetInv net history
  heard :
    ∀ side,
      HeardInv side (net.node side) (builtValues side.peer history)
  apart : ∀ side, Apart (net.node side) (net.node side.peer)
  syncFloors :
    ∀ side record,
      .built (.bootSync side) record ∈ history →
        ∃ epoch,
          HeardEpoch (builtValues side.peer history) epoch ∧
            record.syncFloor = epoch + 1
  takenSyncs :
    ∀ side,
      (net.node side).Up →
        ∀ taken sync,
          .accepted side taken ∈ history →
            .built (.bootSync side.peer) sync ∈ history →
              sync.value.canId = taken.value.canId →
                ¬ taken.before sync →
                  (net.node side).app.gRx.Holds sync.value ∨
                    sync.syncFloor ≤ (net.node side).app.tx.epoch

namespace ResyncInv

variable {cmac : UInt32 → List UInt8 → FullTag}
  {net netAfter : Network}
  {history events : List NetEvent}
  {side : Side}
  {node : Node}

/-- The cold network. -/
theorem start : ResyncInv .cold [] := by
  refine ⟨.start _, ?_, ?_, ?_, ?_⟩
  · intro side
    exact .unpowered (Or.inl rfl)
  · intro side up
    cases up
  · intro side record member
    cases member
  · intro side up
    cases up

/-- Values are only ever added to what was built. -/
theorem builtValues_grows
    (side : Side)
    (history events : List NetEvent) :
    builtValues side history ⊆ builtValues side (history ++ events) := by
  unfold builtValues
  rw [builtRecords_append, List.map_append]
  exact List.subset_append_left ..

/-- One more step: what it does to the node that acts, and what is new. -/
theorem advance
    (inv : ResyncInv net history)
    (base : NetInv netAfter (history ++ events))
    (nodes : netAfter.node = Function.update net.node side node)
    (heard :
      HeardInv side node (builtValues side.peer history) ∧
        NodeChange (net.node side) node)
    (newSyncs :
      ∀ owner record,
        .built (.bootSync owner) record ∈ events →
          (∃ epoch,
              HeardEpoch (builtValues owner.peer history) epoch ∧
                record.syncFloor = epoch + 1) ∧
            ∀ receiver taken,
              .accepted receiver taken ∈ history →
                record.value.canId = taken.value.canId →
                  taken.before record)
    (newTaken :
      ∀ receiver taken,
        .accepted receiver taken ∈ events →
          receiver = side ∧ (node.Up → node.app.gRx.Holds taken.value)) :
    ResyncInv netAfter (history ++ events) := by
  obtain ⟨heardNode, change⟩ := heard
  have atSide : netAfter.node side = node := by
    rw [nodes, Function.update_self]
  have atPeer : ∀ other, other ≠ side → netAfter.node other = net.node other := by
    intro other different
    rw [nodes, Function.update_of_ne different]
  have syncBehind :
      ∀ sync, .built (.bootSync side.peer) sync ∈ history →
        (net.node side).store.slot secocDomTxSelf ≠ some 0xFFFF →
        sync.syncFloor ≤
          ((net.node side).store.slot secocDomTxSelf).getD 0 + 1 := by
    intro sync built noWrap
    obtain ⟨epoch, isHeard, same⟩ := inv.syncFloors side.peer sync built
    rw [Side.peer_peer] at isHeard
    rw [same]
    exact isHeard.floor_le_boot (inv.base.nodes side).sender noWrap
  refine ⟨base, ?_, ?_, ?_, ?_⟩
  · intro other
    have grows := builtValues_grows other.peer history events
    rcases Side.eq_or_peer side other with rfl | rfl
    · rw [atSide]
      exact heardNode.mono grows
    · rw [atPeer _ side.peer_ne]
      exact (inv.heard side.peer).mono grows
  · have pair : Apart node (net.node side.peer) := by
      refine (inv.apart side).step change ?_
      intro noWrap peerUp
      have peerHeard := inv.heard side.peer
      rw [Side.peer_peer] at peerHeard
      obtain ⟨-, -, live⟩ := peerHeard.wired peerUp
      obtain ⟨epoch, isHeard, same⟩ := peerHeard.ctx.floor live
      rw [same]
      exact isHeard.floor_le_boot (inv.base.nodes side).sender noWrap
    intro other
    rcases Side.eq_or_peer side other with rfl | rfl
    · rw [atSide, atPeer _ other.peer_ne]
      exact pair
    · rw [Side.peer_peer, atSide, atPeer _ side.peer_ne]
      exact pair.symm
  · intro owner record member
    have grows := builtValues_grows owner.peer history events
    rcases List.mem_append.mp member with old | new
    · obtain ⟨epoch, isHeard, same⟩ := inv.syncFloors owner record old
      exact ⟨epoch, isHeard.mono grows, same⟩
    · obtain ⟨⟨epoch, isHeard, same⟩, -⟩ := newSyncs owner record new
      exact ⟨epoch, isHeard.mono grows, same⟩
  · intro receiver up taken sync accepted built sameId notAfter
    rcases List.mem_append.mp accepted with oldTaken | newTakenOne
    · rcases List.mem_append.mp built with oldSync | newSync
      · rcases Side.eq_or_peer side receiver with rfl | rfl
        · rw [atSide] at up ⊢
          cases change with
          | off down =>
              exact (down up).elim
          | boots noWrap next =>
              right
              rw [next]
              exact syncBehind sync oldSync noWrap
          | stays epoch forward =>
              obtain ⟨wasUp, grows⟩ := epoch up
              rcases
                  inv.takenSyncs receiver wasUp taken sync oldTaken oldSync
                    sameId notAfter with
                  holds | behind
              · exact Or.inl (forward.holds _ holds)
              · exact Or.inr (UInt16.le_trans behind grows)
        · rw [atPeer _ side.peer_ne] at up ⊢
          exact
            inv.takenSyncs side.peer up taken sync oldTaken oldSync sameId
              notAfter
      · obtain ⟨-, later⟩ := newSyncs receiver.peer sync newSync
        exact (notAfter (later receiver taken oldTaken sameId)).elim
    · obtain ⟨rfl, holds⟩ := newTaken receiver taken newTakenOne
      rw [atSide] at up ⊢
      exact Or.inl ((holds up).of_not_before sameId notAfter)

/-- Power lost at a node. -/
theorem powerLoss
    (inv : ResyncInv net history)
    (side : Side) :
    ResyncInv (networkStep cmac net (.powerLoss side)).1
      (history ++ (networkStep cmac net (.powerLoss side)).2) := by
  refine inv.advance (inv.base.powerLoss side) rfl ⟨?_, .off ?_⟩ ?_ ?_
  · exact .unpowered (inv.heard side).persisted
  · intro up
    cases up
  · intro owner record member
    cases member
  · intro receiver taken member
    cases member

/-- A boot of a node. -/
theorem boot
    {status : SecocStoreStatus}
    {outcomes : List CommitOutcome}
    (inv : ResyncInv net history)
    (noWrap : NoEpochWrap net (.boot side status outcomes)) :
    ResyncInv (networkStep cmac net (.boot side status outcomes)).1
      (history ++ (networkStep cmac net (.boot side status outcomes)).2) := by
  have base : NetInv (networkStep cmac net (.boot side status outcomes)).1 _ :=
    inv.base.boot noWrap
  rcases ran :
      secocAppInit side.config durablePort status .reset
        ((net.node side).store.arm outcomes) with ⟨app, store⟩
  simp only [networkStep, ran] at base ⊢
  refine inv.advance base rfl ((inv.heard side).boot noWrap ran) ?_ ?_
  · intro owner record member
    simp at member
  · intro receiver taken member
    simp at member

/-- A frame built by a node follows everything built for its ID. -/
theorem taken_before_built
    {request : Request}
    {record : SecuredRecord}
    (inv : NetInv net history)
    (base : NetInv netAfter (history ++ [.built request record]))
    {receiver : Side}
    {taken : SecuredRecord}
    (accepted : .accepted receiver taken ∈ history)
    (sameId : record.value.canId = taken.value.canId) :
    taken.before record := by
  obtain ⟨earlier, built⟩ := inv.acceptedBuilt receiver taken accepted
  have ofEarlier := (inv.builtFor earlier taken built).1
  have ofRequest :=
    (base.builtFor request record (by simp)).1
  have sameSide : earlier.side = request.side := by
    rw [Request.side_eq, Request.side_eq, ← ofEarlier, ← ofRequest, sameId]
  have increasing :=
    recordsOn_pairwise
      ((base.nodes request.side).sender.increasing record.value.canId)
  have isLast : builtRecords request.side [.built request record] = [record] := by
    simp [builtRecords]
  rw [builtRecords_append, isLast, recordsOn_append,
    List.pairwise_append] at increasing
  obtain ⟨-, -, ordered⟩ := increasing
  apply ordered
  · refine List.mem_filter.mpr ⟨?_, by simp [sameId]⟩
    exact mem_builtRecords.mpr ⟨earlier, sameSide, built⟩
  · simp [recordsOn]

/-- A frame built by a node, or refused. -/
theorem build
    {request : Request}
    {up : Bool}
    {outcomes : List CommitOutcome}
    (inv : ResyncInv net history)
    (noWrap : NoEpochWrap net (.build request up outcomes)) :
    ResyncInv (networkStep cmac net (.build request up outcomes)).1
      (history ++ (networkStep cmac net (.build request up outcomes)).2) := by
  have base : NetInv (networkStep cmac net (.build request up outcomes)).1 _ :=
    inv.base.build noWrap
  obtain ⟨tx, store, sent, ran, did⟩ := networkStep_build request up
  rw [ran] at base ⊢
  have own := inv.base.nodes request.side
  have heard := inv.heard request.side
  refine inv.advance base rfl ?_ ?_ ?_
  · rcases did with ⟨rfl, rfl, -⟩ | ⟨pdu, issued, packed, issues, -⟩
    · exact
        ⟨⟨heard.persisted, heard.ctx, heard.rxIds, heard.wired⟩,
          .stays (fun up => ⟨up, UInt16.le_refl _⟩) (.refl _)⟩
    · exact heard.build own (noWrap (by rw [packed]; rfl)) issues
  · intro owner record member
    obtain ⟨one, isSent, same⟩ := List.mem_map.mp member
    cases same
    rcases did with ⟨-, -, rfl⟩ | ⟨pdu, issued, packed, issues, none | sentOne⟩
    · cases isSent
    · rw [none] at isSent
      cases isSent
    · obtain ⟨epoch, counter, isIssued, rfl⟩ := sentOne
      have isRecord := List.mem_singleton.mp isSent
      subst isRecord
      constructor
      · have live : (net.node owner).Up := by
          rcases secocTxNext_cases issues with ⟨rfl, -⟩ | ⟨idx, found, -⟩
          · cases isIssued
          · exact
              (net.node owner).app.tx.idsNeedStore
                (ids_ne_nil_of_findSlot found)
        obtain ⟨-, -, rxLive⟩ := (inv.heard owner).wired live
        obtain ⟨heardEpoch, isHeard, isFloor⟩ :=
          (inv.heard owner).ctx.floor rxLive
        refine ⟨heardEpoch, isHeard, ?_⟩
        cases packed
        rw [← isFloor]
        exact getU16le_putU16le _ []
      · intro receiver taken accepted sameId
        exact taken_before_built inv.base base accepted sameId
  · intro receiver taken member
    obtain ⟨one, -, same⟩ := List.mem_map.mp member
    cases same

/-- A frame delivered to a node. -/
theorem deliver
    {f : CanRawFrame}
    {up : Bool}
    {outcomes : List CommitOutcome}
    (inv : ResyncInv net history)
    (ideal : IdealMac cmac net (.deliver side f up outcomes)) :
    ResyncInv (networkStep cmac net (.deliver side f up outcomes)).1
      (history ++ (networkStep cmac net (.deliver side f up outcomes)).2) := by
  have base : NetInv (networkStep cmac net (.deliver side f up outcomes)).1 _ :=
    inv.base.deliver ideal
  have own := inv.base.nodes side
  have heard := inv.heard side
  by_cases listens : side.listens f
  · obtain ⟨registered, -, configured⟩ := Side.listens_id listens
    obtain ⟨result, nodeAfter, events, processed, ran, did⟩ :=
      networkStep_deliver up listens
    rw [ran] at base ⊢
    have wasSpent :
        rxVerify (oracle cmac true) (some bodyMsgPduLen) gCy f.id.toUInt16
              f.data canMaxDlen =
            .ok
              ⟨(recordOf f).value.epoch, (recordOf f).value.counter,
                (recordOf f).pdu⟩ →
          (recordOf f).value ∈ builtValues side.peer history := by
      intro verifies
      obtain ⟨request, built⟩ := inv.base.built_of_verified ideal verifies
      have onId := (inv.base.builtFor request _ built).1
      have bySender : request.side = side.peer :=
        Request.side_of_rxIds (onId ▸ registered)
      exact
        List.mem_map_of_mem (mem_builtRecords.mpr ⟨request, bySender, built⟩)
    obtain ⟨persisted, verdict⟩ :=
      heard.verdict own configured processed wasSpent
    rcases did with ⟨-, -, -, rfl, rfl⟩ | ⟨handled, spec, rfl, rfl⟩
    · refine inv.advance base rfl ⟨.unpowered persisted, .off ?_⟩ ?_ ?_
      · intro up
        cases up
      · intro owner record member
        simp at member
      · intro receiver taken member
        simp only [List.mem_cons, NetEvent.accepted.injEq, List.not_mem_nil,
          or_false, reduceCtorEq] at member
        obtain ⟨rfl, rfl⟩ := member
        refine ⟨rfl, ?_⟩
        intro up
        cases up
    · have ctx := verdict handled.app spec.rxAfter
      obtain ⟨forward, holds⟩ :=
        rxProcess_forward processed own.rxBound configured spec.rxAfter
      refine
        inv.advance base rfl
          (heard.receive own processed persisted ctx forward spec) ?_ ?_
      · intro owner record member
        unfold handledEvents at member
        split at member <;> split at member <;> simp at member
      · intro receiver taken member
        by_cases accepted : result.verdict = .accept
        · have isTaken : receiver = side ∧ taken = recordOf f := by
            rw [if_pos accepted] at member
            unfold handledEvents at member
            split at member <;> simpa using member
          obtain ⟨rfl, rfl⟩ := isTaken
          exact ⟨rfl, fun _ => holds accepted⟩
        · rw [if_neg accepted, handledEvents_of_drop spec accepted] at member
          cases member
  · rw [networkStep_deliver_other up listens] at base ⊢
    refine inv.advance base rfl ⟨?_, .stays ?_ (.refl _)⟩ ?_ ?_
    · exact ⟨heard.persisted, heard.ctx, heard.rxIds, heard.wired⟩
    · intro up
      exact ⟨up, UInt16.le_refl _⟩
    · intro owner record member
      cases member
    · intro receiver taken member
      cases member

/-- Every step keeps the invariant. -/
theorem step
    (action : NetAction)
    (inv : ResyncInv net history)
    (ideal : IdealMac cmac net action)
    (noWrap : NoEpochWrap net action) :
    ResyncInv (networkStep cmac net action).1
      (history ++ (networkStep cmac net action).2) := by
  cases action with
  | powerLoss side =>
      exact inv.powerLoss side
  | boot side status outcomes =>
      exact inv.boot noWrap
  | build request up outcomes =>
      exact inv.build noWrap
  | deliver side f up outcomes =>
      exact inv.deliver ideal

end ResyncInv

end TraveoBodyDomain
