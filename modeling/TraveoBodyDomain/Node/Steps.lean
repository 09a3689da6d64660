import Mathlib.Tactic.Common
import TraveoBodyDomain.Node.Network

/-!
# What one operation of a node does

One specification for each of the three operations of a node: an accepted frame
is the record it carries, verified, fresh and committed; handling a frame is
that plus at most one floor adoption; building a frame is issuing a value and
securing a record under it.
-/

namespace TraveoBodyDomain

/-- The ID a frame is dispatched on is the one its MAC covers. -/
theorem Side.listens_id
    {side : Side}
    {f : CanRawFrame}
    (listens : side.listens f) :
    f.id.toUInt16 ∈ side.config.rxIds ∧
      f.id = f.id.toUInt16.toUInt32 ∧
      bodyMsgPduLen f.id.toUInt16.toUInt32 ≠ 0 := by
  rcases listens with ⟨canId, registered, isId⟩
  have sameId : f.id.toUInt16 = canId := by
    rw [isId, UInt16.toUInt16_toUInt32]
  rw [sameId]
  refine ⟨registered, isId, ?_⟩
  have configured :
      ∀ side : Side, ∀ canId ∈ side.config.rxIds,
        bodyMsgPduLen canId.toUInt32 ≠ 0 := by
    intro side
    refine List.forall_iff_forall_mem.mp ?_
    cases side <;> decide
  exact configured side canId registered

/-- `get_u16le` looks at two bytes. -/
theorem getU16le_take
    (bytes : List UInt8)
    {n : Nat}
    (enough : 2 ≤ n) :
    getU16le (bytes.take n) = getU16le bytes := by
  unfold getU16le
  simp only [List.getD_eq_getElem?_getD, List.getElem?_take]
  rw [if_pos (by omega), if_pos (by omega)]

/-- What verifies under a configured length is what the frame carries. -/
theorem rxVerify_record
    {mac : SecocMac}
    {f : CanRawFrame}
    {cap : Nat}
    {verified : Verified}
    (configured : bodyMsgPduLen f.id.toUInt16.toUInt32 ≠ 0)
    (verifies :
      rxVerify mac (some bodyMsgPduLen) gCy f.id.toUInt16 f.data cap =
        .ok verified) :
    verified =
      ⟨(recordOf f).value.epoch, (recordOf f).value.counter,
        (recordOf f).pdu⟩ := by
  unfold rxVerify secocVerifyLen at verifies
  simp only [ne_eq, configured, not_false_eq_true, ↓reduceIte] at verifies
  split at verifies
  next => cases verifies
  next =>
    split at verifies
    next => cases verifies
    next =>
      unfold verifyCore at verifies
      dsimp only at verifies
      split at verifies
      next => cases verifies
      next =>
        split at verifies
        next =>
          cases verifies
          simp only [recordOf, List.drop_take, List.drop_drop,
            getU16le_take _ (Nat.le_refl 2), secocFreshnessLen,
            getU16le_take _ (show 2 ≤ 4 by omega)]
        next => cases verifies

/-- An oracle that answered was up, and is the CMAC. -/
theorem rxVerify_oracle_up
    {cmac : UInt32 → List UInt8 → FullTag}
    {up : Bool}
    {pduLenOf : Option (UInt32 → Nat)}
    {cy : SecocCrypto}
    {canId : UInt16}
    {frame : List UInt8}
    {cap : Nat}
    {verified : Verified}
    (verifies :
      rxVerify (oracle cmac up) pduLenOf cy canId frame cap =
        .ok verified) :
    rxVerify (oracle cmac true) pduLenOf cy canId frame cap =
      .ok verified := by
  cases up with
  | true =>
      exact verifies
  | false =>
      exfalso
      have silent :
          ∀ plen,
            verifyCore (oracle cmac false) cy canId frame plen =
              .error .macError := by
        intro plen
        rfl
      unfold rxVerify secocVerifyLen secocVerify at verifies
      simp only [silent] at verifies
      grind

/-- The receiver of a node: unbound before its first boot, else as bound there. -/
def RxBound (rx : SecocRx) : Prop :=
  rx.cy = none ∨
    (rx.cy = some gCy ∧ rx.pduLenOf = some bodyMsgPduLen)

/-- What an accepted frame is, at a node. -/
structure HeardFrame
    (cmac : UInt32 → List UInt8 → FullTag)
    (app : SecocApp)
    (f : CanRawFrame)
    (store : FreshnessStore)
    (result : SecocRxResult FreshnessStore) where
  fresh : SecocRxCtx
  freshAfter : SecocRxCtx
  freshSet : app.rx.fresh = some fresh
  verifies :
    rxVerify (oracle cmac true) (some bodyMsgPduLen) gCy f.id.toUInt16 f.data
        canMaxDlen =
      .ok
        ⟨(recordOf f).value.epoch, (recordOf f).value.counter,
          (recordOf f).pdu⟩
  passes :
    secocRxCheck fresh (recordOf f).value.canId (recordOf f).value.epoch
      (recordOf f).value.counter = .ok
  committed :
    secocRxAccept durablePort fresh (recordOf f).value.canId
        (recordOf f).value.epoch (recordOf f).value.counter store =
      (true, freshAfter, result.store)
  rxAfter :
    result.rx =
      { app.rx with fresh := some freshAfter, nAccept := app.rx.nAccept + 1 }
  releasedPdu : released result = (recordOf f).pdu

/-- An accepted frame is the record it carries, verified, fresh, committed. -/
theorem rxProcess_accept
    {cmac : UInt32 → List UInt8 → FullTag}
    {up : Bool}
    {app : SecocApp}
    {f : CanRawFrame}
    {store : FreshnessStore}
    {result : SecocRxResult FreshnessStore}
    (processed : rxProcess durablePort (oracle cmac up) app f store = result)
    (bound : RxBound app.rx)
    (configured : bodyMsgPduLen f.id.toUInt16.toUInt32 ≠ 0)
    (accepted : result.verdict = .accept) :
    Nonempty (HeardFrame cmac app f store result) := by
  rcases secocRxProcess_accept processed accepted with
      ⟨⟨cy, fresh, freshAfter, verified, storeNext, cySet, freshSet, verifies,
        passes, committed⟩, rxAfter, storeAfter, pduOut, pduLen⟩
  rcases bound with unbound | ⟨isCy, isLen⟩
  · rw [unbound] at cySet
    cases cySet
  · rw [isCy] at cySet
    cases cySet
    rw [isLen, List.length_replicate] at verifies
    have verifiesUp := rxVerify_oracle_up verifies
    have carried := rxVerify_record configured verifiesUp
    subst carried
    refine
      ⟨{ fresh := fresh
         freshAfter := freshAfter
         freshSet := freshSet
         verifies := verifiesUp
         passes := passes
         committed := ?_
         rxAfter := rxAfter
         releasedPdu := ?_ }⟩
    · rw [storeAfter]
      exact committed
    · rw [released, pduOut, pduLen]
      exact List.take_left

/-- A frame that verifies, passes and commits is accepted. -/
theorem rxProcess_accepts
    {mac : SecocMac}
    {app : SecocApp}
    {f : CanRawFrame}
    {store storeAfter : FreshnessStore}
    {fresh freshAfter : SecocRxCtx}
    (cySet : app.rx.cy = some gCy)
    (lenSet : app.rx.pduLenOf = some bodyMsgPduLen)
    (freshSet : app.rx.fresh = some fresh)
    (verifies :
      rxVerify mac (some bodyMsgPduLen) gCy f.id.toUInt16
          f.data canMaxDlen =
        .ok
          ⟨(recordOf f).value.epoch, (recordOf f).value.counter,
            (recordOf f).pdu⟩)
    (passes :
      secocRxCheck fresh (recordOf f).value.canId (recordOf f).value.epoch
        (recordOf f).value.counter = .ok)
    (committed :
      secocRxAccept durablePort fresh (recordOf f).value.canId
          (recordOf f).value.epoch (recordOf f).value.counter store =
        (true, freshAfter, storeAfter)) :
    (rxProcess durablePort mac app f store).verdict =
        .accept ∧
      (rxProcess durablePort mac app f store).store =
        storeAfter := by
  have onId : (recordOf f).value.canId = f.id.toUInt16 := rfl
  rw [onId] at passes committed
  unfold rxProcess secocRxProcess
  simp only [cySet, lenSet, freshSet, Option.map_some, List.length_replicate,
    verifies, passes, committed, and_self]

/-- A refused frame at most fails a commit of the record it carries. -/
theorem rxProcess_drop
    {cmac : UInt32 → List UInt8 → FullTag}
    {up : Bool}
    {app : SecocApp}
    {f : CanRawFrame}
    {store : FreshnessStore}
    {result : SecocRxResult FreshnessStore}
    (processed : rxProcess durablePort (oracle cmac up) app f store = result)
    (bound : RxBound app.rx)
    (configured : bodyMsgPduLen f.id.toUInt16.toUInt32 ≠ 0)
    (refused : result.verdict ≠ .accept) :
    result.rx.fresh = app.rx.fresh ∧
      (result.store = store ∨
        ∃ fresh,
          app.rx.fresh = some fresh ∧
            rxVerify (oracle cmac true) (some bodyMsgPduLen) gCy
                f.id.toUInt16 f.data canMaxDlen =
              .ok
                ⟨(recordOf f).value.epoch, (recordOf f).value.counter,
                  (recordOf f).pdu⟩ ∧
            secocRxCheck fresh (recordOf f).value.canId
                (recordOf f).value.epoch (recordOf f).value.counter = .ok ∧
            secocRxAccept durablePort fresh (recordOf f).value.canId
                (recordOf f).value.epoch (recordOf f).value.counter store =
              (false, fresh, result.store)) := by
  rcases secocRxProcess_drop processed refused with
      ⟨-, freshKept, -, kept | ⟨fresh, cy, verified, freshSet, cySet, verifies,
        passes, failed⟩⟩
  · exact ⟨freshKept, Or.inl kept⟩
  · refine ⟨freshKept, Or.inr ⟨fresh, freshSet, ?_⟩⟩
    rcases bound with unbound | ⟨isCy, isLen⟩
    · rw [unbound] at cySet
      cases cySet
    · rw [isCy] at cySet
      cases cySet
      rw [isLen, List.length_replicate] at verifies
      have verifiesUp := rxVerify_oracle_up verifies
      have carried := rxVerify_record configured verifiesUp
      subst carried
      exact ⟨verifiesUp, passes, failed⟩

/-!
## Handling a frame
-/

section Handling

variable {mac : SecocMac}
  {app : SecocApp}
  {f : CanRawFrame}
  {store : FreshnessStore}
  {side : Side}

/-- A node leaves the frames it does not listen to alone. -/
theorem receive_other
    (ignored : ¬ side.listens f) :
    side.receive durablePort mac app f store = .ok ⟨app, store, [], none⟩ := by
  cases side with
  | gateway =>
      simp only [Side.listens, Side.config, NodeA.config, List.mem_cons,
        List.not_mem_nil, or_false, exists_eq_or_imp, exists_eq_left,
        not_or] at ignored
      simp [Side.receive, NodeA.canTaskReceive, ignored]
  | actuator =>
      simp only [Side.listens, Side.config, NodeB.config, List.mem_cons,
        List.not_mem_nil, or_false, exists_eq_or_imp, exists_eq_left,
        not_or] at ignored
      simp [Side.receive, NodeB.canTaskReceive, ignored]

/-- A frame a node listens to is a data frame or the peer's boot sync. -/
theorem receive_listens
    (listens : side.listens f) :
    (f.id ≠ side.peer.config.bootSyncId.toUInt32 ∧
        side.receive durablePort mac app f store =
          .ok (verifyAndDecode durablePort mac app f store)) ∨
      (f.id = side.peer.config.bootSyncId.toUInt32 ∧
        side.receive durablePort mac app f store =
          handleSync durablePort mac app f store) := by
  rcases listens with ⟨canId, registered, isId⟩
  cases side with
  | gateway =>
      simp only [Side.config, NodeA.config, List.mem_cons, List.not_mem_nil,
        or_false] at registered
      rcases registered with rfl | rfl
      · left
        simp [Side.receive, NodeA.canTaskReceive,
          NodeA.secocAppVerifyTelemetry, isId, Side.peer, Side.config,
          NodeB.config, msgIdSensorRpt, msgIdFreshnessSync]
      · right
        simp [Side.receive, NodeA.canTaskReceive, NodeA.secocAppHandleSync,
          isId, Side.peer, Side.config, NodeB.config, msgIdSensorRpt,
          msgIdFreshnessSync]
  | actuator =>
      simp only [Side.config, NodeB.config, List.mem_cons, List.not_mem_nil,
        or_false] at registered
      rcases registered with rfl | rfl | rfl
      · left
        simp [Side.receive, NodeB.canTaskReceive,
          NodeB.secocAppVerifyAndDecode, isId, Side.peer, Side.config,
          NodeA.config, msgIdDoorCmd, msgIdLightCmd, msgIdGwFreshnessSync]
      · left
        simp [Side.receive, NodeB.canTaskReceive,
          NodeB.secocAppVerifyAndDecode, isId, Side.peer, Side.config,
          NodeA.config, msgIdDoorCmd, msgIdLightCmd, msgIdGwFreshnessSync]
      · right
        simp [Side.receive, NodeB.canTaskReceive, NodeB.secocAppHandleGwSync,
          isId, Side.peer, Side.config, NodeA.config, msgIdDoorCmd,
          msgIdLightCmd, msgIdGwFreshnessSync]

/-- A boot sync carries no message. -/
theorem bodyDecode_bootSync
    (side : Side)
    (pdu : List UInt8) :
    bodyDecode side.config.bootSyncId.toUInt32 pdu = none := by
  cases side <;> rfl

/-- No receive verdict is a completed resync. -/
theorem rxProcess_log
    (mac : SecocMac)
    (app : SecocApp)
    (f : CanRawFrame)
    (store : FreshnessStore) :
    (rxProcess durablePort mac app f store).log.any
      (·.evt == .secocResync) = false := by
  unfold rxProcess secocRxProcess
  dsimp only
  split
  · split
    · rfl
    · split
      · split <;> rfl
      · rfl
  · rfl

/-- What handling a frame did, besides the receive verdict. -/
structure HandledFrame
    (side : Side)
    (app : SecocApp)
    (f : CanRawFrame)
    (result : SecocRxResult FreshnessStore)
    (handled : Handled FreshnessStore) : Prop where
  rxAfter : handled.app.rx = result.rx
  handedOn :
    handled.handedOn =
      if result.verdict = .accept then
        bodyDecode f.id (released result)
      else
        none
  adoption :
    (handled.app.tx = app.tx ∧
        handled.store = result.store ∧
        handled.log.any (·.evt == .secocResync) = false ∧
        (result.verdict = .accept →
          2 ≤ (released result).length →
            f.id ≠ side.peer.config.bootSyncId.toUInt32)) ∨
      (result.verdict = .accept ∧
        f.id = side.peer.config.bootSyncId.toUInt32 ∧
        ∃ moved,
          secocTxAdoptFloor durablePort app.tx (getU16le (released result))
              result.store =
            .ok (moved, handled.app.tx, handled.store) ∧
          handled.log.any (·.evt == .secocResync) = moved)

/-- Handling a data frame is the verdict and the decoding. -/
theorem verifyAndDecode_spec
    (notSync : f.id ≠ side.peer.config.bootSyncId.toUInt32) :
    HandledFrame side app f (rxProcess durablePort mac app f store)
      (verifyAndDecode durablePort mac app f store) := by
  have quiet := rxProcess_log mac app f store
  by_cases accepted :
      (rxProcess durablePort mac app f store).verdict = .accept
  · cases decoded :
        bodyDecode f.id
          (released (rxProcess durablePort mac app f store)) with
    | none =>
        have ran :
            verifyAndDecode durablePort mac app f store =
              ⟨{ app with
                  rx := (rxProcess durablePort mac app f store).rx
                  dropDecode := app.dropDecode + 1 },
                (rxProcess durablePort mac app f store).store,
                (rxProcess durablePort mac app f store).log, none⟩ := by
          simp [verifyAndDecode, rxAuthentic, accepted, decoded]
        rw [ran]
        exact
          ⟨rfl, by rw [if_pos accepted, decoded],
            Or.inl ⟨rfl, rfl, quiet, fun _ _ => notSync⟩⟩
    | some msg =>
        have ran :
            verifyAndDecode durablePort mac app f store =
              ⟨{ app with rx := (rxProcess durablePort mac app f store).rx },
                (rxProcess durablePort mac app f store).store,
                (rxProcess durablePort mac app f store).log, some msg⟩ := by
          simp [verifyAndDecode, rxAuthentic, accepted, decoded]
        rw [ran]
        exact
          ⟨rfl, by rw [if_pos accepted, decoded],
            Or.inl ⟨rfl, rfl, quiet, fun _ _ => notSync⟩⟩
  · have ran :
        verifyAndDecode durablePort mac app f store =
          ⟨{ app with rx := (rxProcess durablePort mac app f store).rx },
            (rxProcess durablePort mac app f store).store,
            (rxProcess durablePort mac app f store).log, none⟩ := by
      simp [verifyAndDecode, rxAuthentic, accepted]
    rw [ran]
    exact
      ⟨rfl, by rw [if_neg accepted],
        Or.inl ⟨rfl, rfl, quiet, fun _ _ => notSync⟩⟩

/-- Handling a boot sync is the verdict and the adoption of its floor. -/
theorem handleSync_spec
    (isSync : f.id = side.peer.config.bootSyncId.toUInt32) :
    match handleSync durablePort mac app f store with
    | .error _ =>
        (rxProcess durablePort mac app f store).verdict = .accept ∧
          f.id = side.peer.config.bootSyncId.toUInt32 ∧
          app.tx.storeSet = false
    | .ok handled =>
        HandledFrame side app f (rxProcess durablePort mac app f store)
          handled := by
  have quiet := rxProcess_log mac app f store
  have noMessage :
      ∀ pdu, bodyDecode f.id pdu = none := by
    intro pdu
    rw [isSync]
    exact bodyDecode_bootSync side.peer pdu
  unfold handleSync rxAuthentic
  by_cases accepted :
      (rxProcess durablePort mac app f store).verdict = .accept
  · by_cases short :
        (released (rxProcess durablePort mac app f store)).length < 2
    · simp only [accepted, ↓reduceIte]
      rw [if_pos short]
      refine ⟨rfl, by rw [if_pos accepted, noMessage], Or.inl ?_⟩
      refine ⟨rfl, rfl, quiet, ?_⟩
      intro _ long
      exact absurd short (Nat.not_lt.mpr long)
    · simp only [accepted, ↓reduceIte]
      rw [if_neg short]
      simp only [secocRxSyncAdopt]
      cases adopted :
          secocTxAdoptFloor durablePort app.tx
            (getU16le (released (rxProcess durablePort mac app f store)))
            (rxProcess durablePort mac app f store).store with
      | error fault =>
          exact ⟨trivial, isSync, secocTxAdoptFloor_fault adopted⟩
      | ok after =>
          rcases after with ⟨moved, tx, storeAfter⟩
          refine ⟨rfl, by rw [if_pos accepted, noMessage], Or.inr ?_⟩
          refine ⟨accepted, isSync, moved, adopted, ?_⟩
          rw [List.any_append, quiet]
          cases moved <;> rfl
  · simp only [accepted, ↓reduceIte]
    exact
      ⟨rfl, by rw [if_neg accepted],
        Or.inl ⟨rfl, rfl, quiet, fun isAccept => (accepted isAccept).elim⟩⟩

/-- What a node does with a frame it listens to. -/
theorem receive_spec
    (mac : SecocMac)
    (app : SecocApp)
    (store : FreshnessStore)
    (listens : side.listens f) :
    match side.receive durablePort mac app f store with
    | .error _ =>
        (rxProcess durablePort mac app f store).verdict = .accept ∧
          f.id = side.peer.config.bootSyncId.toUInt32 ∧
          app.tx.storeSet = false
    | .ok handled =>
        HandledFrame side app f (rxProcess durablePort mac app f store)
          handled := by
  rcases receive_listens listens with ⟨notSync, ran⟩ | ⟨isSync, ran⟩
  · rw [ran]
    exact verifyAndDecode_spec notSync
  · rw [ran]
    exact handleSync_spec isSync

end Handling

/-!
## Booting
-/

/-- What booting a node leaves: both contexts booted, or neither. -/
theorem secocAppInit_spec
    {config : AppConfig}
    {status : SecocStoreStatus}
    {store storeAfter : FreshnessStore}
    {app : SecocApp}
    (ran :
      secocAppInit config durablePort status .reset store =
        (app, storeAfter)) :
    app.rx.cy = some gCy ∧
      app.rx.pduLenOf = some bodyMsgPduLen ∧
      ((status = .broken ∧
          app.tx = .reset ∧
          app.gRx = .reset ∧
          storeAfter = store) ∨
        (status ≠ .broken ∧
          ∃ txBooted rxBooted,
            secocTxBoot durablePort .reset secocDomTxSelf config.txIds store =
                (txBooted, app.tx, storeAfter) ∧
              secocRxBoot durablePort .reset secocDomRxPeer config.rxIds
                  storeAfter =
                (rxBooted, app.gRx))) := by
  unfold secocAppInit at ran
  by_cases broken : status = .broken
  · simp only [broken, ne_eq, not_true_eq_false, ↓reduceIte] at ran
    cases ran
    exact ⟨rfl, rfl, Or.inl ⟨broken, rfl, rfl, rfl⟩⟩
  · simp only [ne_eq, broken, not_false_eq_true, ↓reduceIte] at ran
    cases ran
    exact ⟨rfl, rfl, Or.inr ⟨broken, _, _, rfl, rfl⟩⟩

/-!
## What the receive path leaves alone
-/

/-- The receiver context of a node never booted, or booted under its domain. -/
def RxDomain (app : SecocApp) : Prop :=
  app.gRx.storeSet = true → app.gRx.domain = secocDomRxPeer

section Verdict

variable {mac : SecocMac}
  {app appAfter : SecocApp}
  {f : CanRawFrame}
  {store : FreshnessStore}
  {result : SecocRxResult FreshnessStore}

/-- The receive verdict commits under the receiver's domain only. -/
theorem rxProcess_slot_tx
    (processed : rxProcess durablePort mac app f store = result)
    (domain : RxDomain app) :
    result.store.slot secocDomTxSelf = store.slot secocDomTxSelf := by
  have different :
      ∀ fresh, app.rx.fresh = some fresh →
        fresh.storeSet = true → secocDomTxSelf ≠ fresh.domain := by
    intro fresh freshSet live
    have isOwn : app.gRx = fresh := by
      simp [SecocApp.gRx, freshSet]
    have own := domain (isOwn ▸ live)
    rw [isOwn] at own
    rw [own]
    decide
  by_cases accepted : result.verdict = .accept
  · rcases secocRxProcess_accept processed accepted with
        ⟨one, -, storeAfter, -, -⟩
    rw [storeAfter]
    exact secocRxAccept_slot_other one.committed (different one.fresh one.freshSet)
  · rcases secocRxProcess_drop processed accepted with
        ⟨-, -, -, kept | ⟨fresh, cy, verified, freshSet, -, -, -, ran⟩⟩
    · rw [kept]
    · exact secocRxAccept_slot_other ran (different fresh freshSet)

/-- The receive verdict keeps the receiver's domain. -/
theorem rxProcess_rxDomain
    (processed : rxProcess durablePort mac app f store = result)
    (domain : RxDomain app)
    (rxAfter : appAfter.rx = result.rx) :
    RxDomain appAfter := by
  unfold RxDomain SecocApp.gRx at domain ⊢
  rw [rxAfter]
  by_cases accepted : result.verdict = .accept
  · rcases secocRxProcess_accept processed accepted with ⟨one, rxIs, -, -, -⟩
    rw [one.freshSet] at domain
    rw [rxIs]
    rcases secocRxAccept_cases one.committed with
        ⟨succeeded, -, -⟩ |
        ⟨idx, -, -, ⟨-, -, isAfter⟩ | ⟨-, -, isAfter⟩⟩
    · cases succeeded
    · rw [isAfter]
      exact domain
    · rw [isAfter]
      exact domain
  · rcases secocRxProcess_drop processed accepted with ⟨-, freshKept, -, -⟩
    rw [freshKept]
    exact domain

/-- The receive verdict leaves the receiver's bindings alone. -/
theorem rxProcess_bindings
    (processed : rxProcess durablePort mac app f store = result) :
    result.rx.cy = app.rx.cy ∧ result.rx.pduLenOf = app.rx.pduLenOf := by
  by_cases accepted : result.verdict = .accept
  · rcases secocRxProcess_accept processed accepted with ⟨one, rxAfter, -, -, -⟩
    rw [rxAfter]
    exact ⟨rfl, rfl⟩
  · rcases secocRxProcess_drop processed accepted with ⟨cyKept, -, lenKept, -⟩
    exact ⟨cyKept, lenKept⟩

/-- The receive verdict keeps the receiver bound. -/
theorem rxProcess_rxBound
    (processed : rxProcess durablePort mac app f store = result)
    (bound : RxBound app.rx) :
    RxBound result.rx := by
  unfold RxBound at bound ⊢
  rw [(rxProcess_bindings processed).1, (rxProcess_bindings processed).2]
  exact bound

end Verdict

/-!
## Building a frame
-/

/-- What a frame that was built is: the record of an issued value. -/
theorem buildSecured_spec
    {mac : SecocMac}
    {app appAfter : SecocApp}
    {canId : UInt16}
    {pdu : List UInt8}
    {store storeAfter : FreshnessStore}
    {built : Option CanRawFrame}
    (length : pdu.length = bodyMsgPduLen canId.toUInt32)
    (ran :
      buildSecured durablePort mac app canId pdu store =
        (built, appAfter, storeAfter)) :
    ∃ issued tx,
      secocTxNext durablePort app.tx canId store = (issued, tx, storeAfter) ∧
        appAfter = { app with tx := tx } ∧
        ∀ f, built = some f →
          ∃ epoch counter,
            issued = some (epoch, counter) ∧
              f.id = canId.toUInt32 ∧
              recordOf f = ⟨⟨canId, epoch, counter⟩, pdu⟩ := by
  unfold buildSecured at ran
  split at ran
  next tx next issues =>
    cases ran
    exact ⟨none, tx, issues, rfl, fun f isBuilt => by cases isBuilt⟩
  next epoch counter tx next issues =>
    dsimp only at ran
    split at ran
    next =>
      cases ran
      refine ⟨some (epoch, counter), tx, issues, rfl, ?_⟩
      intro f isBuilt
      cases isBuilt
    next data secured =>
      cases ran
      refine ⟨some (epoch, counter), tx, issues, rfl, ?_⟩
      intro f isBuilt
      cases isBuilt
      refine ⟨epoch, counter, rfl, rfl, ?_⟩
      unfold secocSecure at secured
      split at secured
      next => cases secured
      next =>
        split at secured
        next => cases secured
        next =>
          dsimp only at secured
          split at secured
          next => cases secured
          next tag _ =>
            cases secured
            have counterField :
                (pdu ++ freshnessField epoch counter ++
                    tag.toList.take secocMacLen).drop (pdu.length + 2) =
                  putU16le counter ++ tag.toList.take secocMacLen := by
              simp [freshnessField, List.drop_append, putU16le]
            simp only [recordOf, UInt16.toUInt16_toUInt32, ← length,
              counterField, getU16le_putU16le]
            simp [freshnessField]

/-- What a node built verifies at a node whose M0+ answers. -/
theorem buildSecured_verifies
    {cmac : UInt32 → List UInt8 → FullTag}
    {up : Bool}
    {app appAfter : SecocApp}
    {canId : UInt16}
    {pdu : List UInt8}
    {store storeAfter : FreshnessStore}
    {f : CanRawFrame}
    (length : pdu.length = bodyMsgPduLen canId.toUInt32)
    (configured : bodyMsgPduLen canId.toUInt32 ≠ 0)
    (ran :
      buildSecured durablePort (oracle cmac up) app canId pdu store =
        (some f, appAfter, storeAfter)) :
    rxVerify (oracle cmac true) (some bodyMsgPduLen) gCy f.id.toUInt16 f.data
        canMaxDlen =
      .ok
        ⟨(recordOf f).value.epoch, (recordOf f).value.counter,
          (recordOf f).pdu⟩ := by
  unfold buildSecured at ran
  split at ran
  next => cases ran
  next epoch counter tx next issues =>
    dsimp only at ran
    split at ran
    next => cases ran
    next data secured =>
      cases ran
      have isUp : up = true := by
        cases up with
        | true =>
            rfl
        | false =>
            simp [secocSecure, oracle] at secured
      subst isUp
      have fits : pdu.length ≤ canMaxDlen := by
        have room := (length_of_secocSecure secured).2
        rw [(length_of_secocSecure secured).1] at room
        exact Nat.le_of_add_right_le room
      have verifies :
          rxVerify (oracle cmac true) (some bodyMsgPduLen) gCy canId data
              canMaxDlen =
            .ok ⟨epoch, counter, pdu⟩ := by
        unfold rxVerify
        simp only
        rw [if_pos configured, ← length]
        exact secocVerifyLen_secocSecure secured (Nat.le_refl _) fits
      have carried :
          ∀ frame : CanRawFrame,
            frame.id = canId.toUInt32 →
              frame.data = data →
                rxVerify (oracle cmac true) (some bodyMsgPduLen) gCy
                    frame.id.toUInt16 frame.data canMaxDlen =
                  .ok
                    ⟨(recordOf frame).value.epoch,
                      (recordOf frame).value.counter, (recordOf frame).pdu⟩ := by
        intro frame isId isData
        have onId : frame.id.toUInt16 = canId := by
          rw [isId, UInt16.toUInt16_toUInt32]
        rw [← onId, ← isData] at verifies
        rw [← onId] at configured
        rw [verifies, rxVerify_record configured verifies]
      exact carried _ rfl rfl

/-!
## Steps of the network
-/

section Network

variable {cmac : UInt32 → List UInt8 → FullTag}
  {net : Network}
  {side : Side}
  {outcomes : List CommitOutcome}

@[simp] theorem setNode_tagged
    (net : Network)
    (side : Side)
    (node : Node) :
    (net.setNode side node).tagged = net.tagged :=
  rfl

@[simp] theorem setNode_node_same
    (net : Network)
    (side : Side)
    (node : Node) :
    (net.setNode side node).node side = node := by
  simp [Network.setNode]

/-- Replacing a node leaves the other alone. -/
theorem setNode_node_other
    (net : Network)
    (node : Node)
    {other : Side}
    (different : other ≠ side) :
    (net.setNode side node).node other = net.node other := by
  simp [Network.setNode, different]

/-- What building a frame does: nothing, or it issues a value and may send. -/
theorem networkStep_build
    (request : Request)
    (up : Bool) :
    let node := net.node request.side
    let armed := node.store.arm outcomes
    ∃ tx store sent,
      networkStep cmac net (.build request up outcomes) =
          ({ net.setNode request.side ⟨{ node.app with tx := tx }, store⟩ with
              tagged :=
                net.tagged ++
                  sent.map fun record => (secocMacKeyId, record.macInput) },
            sent.map (.built request)) ∧
        ((tx = node.app.tx ∧ store = armed ∧ sent = []) ∨
          ∃ pdu issued,
            request.pdu node.app = some pdu ∧
              secocTxNext durablePort node.app.tx request.canId armed =
                  (issued, tx, store) ∧
                (sent = [] ∨
                  ∃ epoch counter,
                    issued = some (epoch, counter) ∧
                      sent = [⟨⟨request.canId, epoch, counter⟩, pdu⟩])) := by
  intro node armed
  cases packed : request.pdu node.app with
  | none =>
      refine ⟨node.app.tx, armed, [], ?_, Or.inl ⟨rfl, rfl, rfl⟩⟩
      simp only [networkStep, Request.build_eq]
      rw [packed]
      simp only [List.map_nil, List.append_nil]
      rfl
  | some pdu =>
      rcases ran :
          buildSecured durablePort (oracle cmac up) node.app request.canId pdu
            armed with ⟨built, appAfter, storeAfter⟩
      rcases buildSecured_spec (Request.pdu_spec packed).1 ran with
          ⟨issued, tx, issues, rfl, frame⟩
      dsimp only [node, armed] at ran
      cases built with
      | none =>
          refine ⟨tx, storeAfter, [], ?_, Or.inr ?_⟩
          · simp only [networkStep, Request.build_eq]
            rw [packed]
            simp only [ran, List.map_nil, List.append_nil]
            rfl
          · exact ⟨pdu, issued, rfl, issues, Or.inl rfl⟩
      | some f =>
          rcases frame f rfl with ⟨epoch, counter, isIssued, -, isRecord⟩
          refine ⟨tx, storeAfter, [recordOf f], ?_, Or.inr ?_⟩
          · simp only [networkStep, Request.build_eq]
            rw [packed]
            simp only [ran]
            rfl
          · rw [isRecord]
            exact
              ⟨pdu, issued, rfl, issues, Or.inr ⟨epoch, counter, isIssued, rfl⟩⟩

/-- A dropped frame shows nothing. -/
theorem handledEvents_of_drop
    {app : SecocApp}
    {f : CanRawFrame}
    {result : SecocRxResult FreshnessStore}
    {handled : Handled FreshnessStore}
    (spec : HandledFrame side app f result handled)
    (dropped : result.verdict ≠ .accept) :
    handledEvents side f handled = [] := by
  have nothing : handled.handedOn = none := by
    rw [spec.handedOn, if_neg dropped]
  rcases spec.adoption with ⟨-, -, quiet, -⟩ | ⟨accepted, -⟩
  · simp [handledEvents, nothing, quiet]
  · exact (dropped accepted).elim

/-- What a delivery does: the receive verdict, and a fault or its handling. -/
theorem networkStep_deliver
    {f : CanRawFrame}
    (up : Bool)
    (listens : side.listens f) :
    ∃ result nodeAfter events,
      rxProcess durablePort (oracle cmac up) (net.node side).app f
          ((net.node side).store.arm outcomes) = result ∧
        networkStep cmac net (.deliver side f up outcomes) =
            (net.setNode side nodeAfter, events) ∧
          ((result.verdict = .accept ∧
              f.id = side.peer.config.bootSyncId.toUInt32 ∧
              (net.node side).app.tx.storeSet = false ∧
              nodeAfter = ⟨.reset, result.store⟩ ∧
              events = [.accepted side (recordOf f), .faulted side]) ∨
            ∃ handled,
              HandledFrame side (net.node side).app f result handled ∧
                nodeAfter = ⟨handled.app, handled.store⟩ ∧
                events =
                  (if result.verdict = .accept then
                      [.accepted side (recordOf f)]
                    else
                      []) ++ handledEvents side f handled) := by
  have shown :
      acceptance (oracle cmac up) side (net.node side).app f
          ((net.node side).store.arm outcomes) =
        if
          (rxProcess durablePort (oracle cmac up) (net.node side).app f
            ((net.node side).store.arm outcomes)).verdict = .accept then
          [.accepted side (recordOf f)]
        else
          [] := by
    simp only [acceptance, listens, true_and]
  have spec :=
    receive_spec (oracle cmac up) (net.node side).app
      ((net.node side).store.arm outcomes) listens
  cases ran :
      side.receive durablePort (oracle cmac up) (net.node side).app f
        ((net.node side).store.arm outcomes) with
  | error fault =>
      rw [ran] at spec
      obtain ⟨accepted, isSync, down⟩ := spec
      refine
        ⟨_, _, _, rfl, ?_, Or.inl ⟨accepted, isSync, down, rfl, rfl⟩⟩
      simp only [networkStep, ran]
      rw [shown, if_pos accepted]
      rfl
  | ok handled =>
      rw [ran] at spec
      refine ⟨_, _, _, rfl, ?_, Or.inr ⟨handled, spec, rfl, rfl⟩⟩
      simp only [networkStep, ran]
      rw [shown]

/-- A frame a node does not listen to shows nothing. -/
theorem networkStep_deliver_other
    {f : CanRawFrame}
    (up : Bool)
    (ignored : ¬ side.listens f) :
    networkStep cmac net (.deliver side f up outcomes) =
      (net.setNode side
          ⟨(net.node side).app, (net.node side).store.arm outcomes⟩, []) := by
  simp [networkStep, receive_other ignored, acceptance, ignored,
    handledEvents]

end Network

end TraveoBodyDomain
