import Mathlib.Tactic.Common
import TraveoBodyDomain.Node.LostSync

/-!
# A genuine fresh frame gets through

From the message a node is asked to send to the message its peer hands on: the
builder packs and secures, the controllers pad, the receiver strips, checks and
decodes.  Each of these agrees with the next in every state that a run reaches.
-/

namespace TraveoBodyDomain

/-- `padded` is `f` with any bytes up to the length of a CAN FD frame. -/
structure PaddedFrom (f padded : CanRawFrame) : Prop where
  sameId : padded.id = f.id
  starts : ∃ padding, padded.data = f.data ++ padding
  fits : padded.data.length ≤ secocFdFrameLen f.data.length

/--
The peer accepts a frame of the node, and hands on the message that the node
was asked to send, or adopts the floor of the node's receiver.
-/
structure Arrives
    (cmac : UInt32 → List UInt8 → FullTag)
    (request : Request)
    (node peer : Node)
    (frame : CanRawFrame)
    (outcomes : List CommitOutcome) : Prop where
  accepted :
    (rxProcess durablePort (oracle cmac true) peer.app frame
      (peer.store.arm outcomes)).verdict = .accept
  message :
    ∀ msg, request.message = some msg →
      ∃ handled,
        request.side.peer.receive durablePort (oracle cmac true) peer.app frame
            (peer.store.arm outcomes) = .ok handled ∧
          handled.handedOn = some msg
  floor :
    request = .bootSync request.side →
      let result :=
        rxProcess durablePort (oracle cmac true) peer.app frame
          (peer.store.arm outcomes)
      request.side.peer.receive durablePort (oracle cmac true) peer.app frame
          (peer.store.arm outcomes) =
        match
          secocRxSyncAdopt durablePort peer.app.tx frame.id.toUInt16
            node.app.gRx.floor result.store
        with
        | .error fault => .error fault
        | .ok (_, tx, store, resync) =>
            .ok
              ⟨{ peer.app with rx := result.rx, tx := tx }, store,
                result.log ++ resync, none⟩

/-- The sender of a node that booted has the IDs of its glue. -/
def TxIds (side : Side) (tx : SecocTxCtx) : Prop :=
  tx.storeSet = true → tx.ids = side.config.txIds

section Sender

/-- Adopting a floor keeps the IDs. -/
theorem TxIds.adopt
    {side : Side}
    {tx txAfter : SecocTxCtx}
    {store storeAfter : FreshnessStore}
    {floor : UInt16}
    {moved : Bool}
    (ids : TxIds side tx)
    (ran :
      secocTxAdoptFloor durablePort tx floor store =
        .ok (moved, txAfter, storeAfter)) :
    TxIds side txAfter := by
  rcases secocTxAdoptFloor_cases ran with ⟨-, rfl, -⟩ | ⟨-, -, -, -, rfl⟩
  · exact ids
  · exact ids

/-- Issuing a value keeps the IDs. -/
theorem TxIds.next
    {side : Side}
    {tx txAfter : SecocTxCtx}
    {store storeAfter : FreshnessStore}
    {canId : UInt16}
    {issued : Option (UInt16 × UInt16)}
    (ids : TxIds side tx)
    (ran :
      secocTxNext durablePort tx canId store = (issued, txAfter, storeAfter)) :
    TxIds side txAfter := by
  rcases secocTxNext_cases ran with
      ⟨-, rfl, -⟩ | ⟨idx, -, ⟨-, -, -, rfl⟩ | ⟨-, -, -, rfl⟩⟩
  · exact ids
  · exact ids
  · exact ids

variable {cmac : UInt32 → List UInt8 → FullTag}

/-- Every step keeps the IDs of both senders. -/
theorem networkStep_txIds
    {net : Network}
    (ids : ∀ side, TxIds side (net.node side).app.tx)
    (action : NetAction)
    (side : Side) :
    TxIds side ((networkStep cmac net action).1.node side).app.tx := by
  have replaced
      (acting : Side)
      (node : Node)
      (one : TxIds acting node.app.tx) :
      TxIds side ((net.setNode acting node).node side).app.tx := by
    by_cases same : side = acting
    · subst same
      rw [setNode_node_same]
      exact one
    · rw [setNode_node_other net node same]
      exact ids side
  have off : ∀ side, TxIds side SecocTxCtx.reset :=
    fun _ live => absurd live Bool.false_ne_true
  cases action with
  | powerLoss acting =>
      exact replaced acting _ (off acting)
  | boot acting status outcomes =>
      rcases ran :
          secocAppInit acting.config durablePort status .reset
            ((net.node acting).store.arm outcomes) with ⟨app, store⟩
      simp only [networkStep, ran]
      refine replaced acting _ ?_
      rcases secocAppInit_spec ran with
          ⟨-, -, ⟨-, isTx, -⟩ | ⟨-, txBooted, rxBooted, txRan, -⟩⟩
      · simp only [isTx]
        exact off acting
      · rcases secocTxBoot_cases txRan with
            ⟨-, isTx, -⟩ | ⟨idsFit, -, -, -, isTx⟩
        · simp only [isTx]
          exact off acting
        · simp only [isTx]
          exact fun _ => rfl
  | build request up outcomes =>
      obtain ⟨tx, store, sent, ran, did⟩ :=
        @networkStep_build cmac net outcomes request up
      rw [ran]
      refine replaced request.side _ ?_
      rcases did with ⟨rfl, -⟩ | ⟨pdu, issued, -, issues, -⟩
      · exact ids request.side
      · exact (ids request.side).next issues
  | deliver acting f up outcomes =>
      by_cases listens : acting.listens f
      · obtain ⟨result, nodeAfter, events, -, ran, did⟩ :=
          networkStep_deliver up listens
        rw [ran]
        rcases did with ⟨-, -, -, rfl, -⟩ | ⟨handled, spec, rfl, -⟩
        · exact replaced acting _ (off acting)
        · refine replaced acting _ ?_
          rcases spec.adoption with ⟨sameTx, -⟩ | ⟨-, -, moved, adopted, -⟩
          · rw [sameTx]
            exact ids acting
          · exact (ids acting).adopt adopted
      · rw [networkStep_deliver_other up listens]
        exact replaced acting _ (ids acting)

/-- In every run the senders have the IDs of their glue. -/
theorem final_txIds
    (stores : Side → FreshnessStore)
    (actions : List NetAction)
    (side : Side) :
    TxIds side
      ((Machine.final (networkStep cmac) (.unpowered stores) actions).node
        side).app.tx := by
  have run :=
    @Machine.invariant_of_start _ _ _ (networkStep cmac) (fun _ _ => True)
      (fun net _ => ∀ side, TxIds side (net.node side).app.tx)
      (fun _ _ action ids _ => networkStep_txIds ids action)
      actions (.unpowered stores)
      (fun _ live => absurd live Bool.false_ne_true)
      (Machine.allowed_of_forall (fun _ _ => trivial) _ _)
  exact run side

end Sender

section Frame

variable {cmac : UInt32 → List UInt8 → FullTag}

/-- With working commits a registered ID gets a value. -/
theorem secocTxNext_reliable
    {tx : SecocTxCtx}
    {canId : UInt16}
    {store : FreshnessStore}
    (registered : canId ∈ tx.ids)
    (reliable : store.Reliable) :
    ∃ epoch counter txAfter storeAfter,
      secocTxNext durablePort tx canId store =
        (some (epoch, counter), txAfter, storeAfter) := by
  obtain ⟨idx, found⟩ := findSlot_of_mem registered
  unfold secocTxNext
  rw [found]
  dsimp only
  by_cases full : tx.counterAt idx = 0xFFFF
  · obtain ⟨next, committed, -⟩ := DurableMap.commit_reliable reliable
    rw [if_pos full, durablePort_commit, committed]
    exact ⟨_, _, _, _, rfl⟩
  · rw [if_neg full]
    exact ⟨_, _, _, _, rfl⟩

/-- No configured PDU is too long to be secured. -/
theorem bodyMsgPduLen_le (id : UInt32) :
    bodyMsgPduLen id ≤ 8 := by
  unfold bodyMsgPduLen
  split_ifs <;> decide

/-- With working commits and an M0+ that answers, a PDU becomes a frame. -/
theorem buildSecured_reliable
    {app : SecocApp}
    {canId : UInt16}
    {pdu : List UInt8}
    {store : FreshnessStore}
    (registered : canId ∈ app.tx.ids)
    (reliable : store.Reliable)
    (length : pdu.length = bodyMsgPduLen canId.toUInt32) :
    ∃ f appAfter storeAfter,
      buildSecured durablePort (oracle cmac true) app canId pdu store =
          (some f, appAfter, storeAfter) ∧
        f.data.length = pdu.length + secocTrailerLen := by
  obtain ⟨epoch, counter, tx, next, issues⟩ :=
    secocTxNext_reliable registered reliable
  have small := bodyMsgPduLen_le canId.toUInt32
  rw [← length] at small
  have secured :
      secocSecure (oracle cmac true) gCy canId epoch counter pdu canMaxDlen =
        some (securedFrame epoch counter pdu (cmac gCy.keyId _)) :=
    secocSecure_eq_some.mpr
      ⟨Nat.le_trans small (by decide),
        Nat.le_trans (Nat.add_le_add_right small _) (by decide), _, rfl, rfl⟩
  rcases ran :
      buildSecured durablePort (oracle cmac true) app canId pdu store with
      ⟨built, appAfter, storeAfter⟩
  unfold buildSecured at ran
  rw [issues] at ran
  dsimp only at ran
  split at ran
  next failed =>
    rw [secured] at failed
    cases failed
  next data made =>
    cases ran
    exact ⟨_, _, _, rfl, (length_of_secocSecure made).1⟩

/-- What follows a frame, up to the length it is padded to, does not matter. -/
theorem rxVerify_padded
    {mac : SecocMac}
    {canId : UInt16}
    {data padding : List UInt8}
    {verified : Verified}
    (configured : bodyMsgPduLen canId.toUInt32 ≠ 0)
    (length : data.length = bodyMsgPduLen canId.toUInt32 + secocTrailerLen)
    (fits : (data ++ padding).length ≤ secocFdFrameLen data.length)
    (verifies :
      rxVerify mac (some bodyMsgPduLen) gCy canId data canMaxDlen =
        .ok verified) :
    rxVerify mac (some bodyMsgPduLen) gCy canId (data ++ padding) canMaxDlen =
      .ok verified := by
  have pduLength := length_of_rxVerify configured verifies
  unfold rxVerify at verifies ⊢
  simp only [ne_eq, configured, not_false_eq_true, ↓reduceIte] at verifies ⊢
  have secured :=
    secocSecure_of_secocVerifyLen verifies
      (Nat.le_refl (bodyMsgPduLen canId.toUInt32 + secocTrailerLen))
  rw [← length, List.take_length] at secured
  have room : verified.pdu.length ≤ canMaxDlen := by
    rw [pduLength]
    exact Nat.le_trans (bodyMsgPduLen_le _) (by decide)
  rw [← pduLength] at length ⊢
  exact secocVerifyLen_padded secured (length ▸ fits) room

/-- A padded frame carries the record of the frame. -/
theorem PaddedFrom.verifies
    {mac : SecocMac}
    {f padded : CanRawFrame}
    (isPadded : PaddedFrom f padded)
    (configured : bodyMsgPduLen f.id.toUInt16.toUInt32 ≠ 0)
    (length :
      f.data.length = bodyMsgPduLen f.id.toUInt16.toUInt32 + secocTrailerLen)
    (verifies :
      rxVerify mac (some bodyMsgPduLen) gCy f.id.toUInt16 f.data canMaxDlen =
        .ok
          ⟨(recordOf f).value.epoch, (recordOf f).value.counter,
            (recordOf f).pdu⟩) :
    recordOf padded = recordOf f ∧
      rxVerify mac (some bodyMsgPduLen) gCy padded.id.toUInt16 padded.data
          canMaxDlen =
        .ok
          ⟨(recordOf padded).value.epoch, (recordOf padded).value.counter,
            (recordOf padded).pdu⟩ := by
  obtain ⟨padding, starts⟩ := isPadded.starts
  have still :=
    rxVerify_padded configured length (starts ▸ isPadded.fits) verifies
  rw [← starts, ← isPadded.sameId] at still
  have carried := rxVerify_record (isPadded.sameId ▸ configured) still
  have sameCanId : (recordOf padded).value.canId = (recordOf f).value.canId := by
    simp only [recordOf, isPadded.sameId]
  have same : recordOf padded = recordOf f := by
    obtain ⟨sameEpoch, sameCounter, samePdu⟩ := Verified.mk.inj carried
    calc
      recordOf padded
      _ = ⟨⟨(recordOf padded).value.canId, (recordOf padded).value.epoch,
            (recordOf padded).value.counter⟩, (recordOf padded).pdu⟩ := rfl
      _ = recordOf f := by
          rw [sameCanId, ← sameEpoch, ← sameCounter, ← samePdu]
  exact ⟨same, by rw [same]; exact still⟩

/-- What a node can be asked for has one of its IDs. -/
theorem Request.canId_mem (request : Request) :
    request.canId ∈ request.side.config.txIds := by
  cases request with
  | doorCmd locked =>
      exact .head _
  | lightCmd brightnessPct =>
      exact .tail _ (.head _)
  | telemetry rpt =>
      exact .head _
  | bootSync side =>
      cases side <;> decide

/-- What the node's sender has the IDs for, it builds. -/
theorem frameBuilt_reliable
    {net : Network}
    {request : Request}
    {pdu : List UInt8}
    {outcomes : List CommitOutcome}
    (up : (net.node request.side).Up)
    (ids : TxIds request.side (net.node request.side).app.tx)
    (packed : request.pdu (net.node request.side).app = some pdu)
    (commits : ∀ outcome ∈ outcomes, outcome = .acknowledged) :
    ∃ f,
      frameBuilt cmac net request true outcomes = some f ∧
        f.data.length =
          bodyMsgPduLen request.canId.toUInt32 + secocTrailerLen := by
  have registered : request.canId ∈ (net.node request.side).app.tx.ids := by
    rw [ids up]
    exact request.canId_mem
  have length := (Request.pdu_spec packed).1
  have armed : ((net.node request.side).store.arm outcomes).Reliable := commits
  obtain ⟨f, appAfter, storeAfter, ran, framed⟩ :=
    @buildSecured_reliable cmac _ _ _ _ registered armed length
  refine ⟨f, ?_, length ▸ framed⟩
  unfold frameBuilt
  simp only [Request.build_eq]
  rw [packed]
  simp only [ran]

end Frame

section Arrival

variable {cmac : UInt32 → List UInt8 → FullTag}
  {node peer : Node}
  {request : Request}
  {frame : CanRawFrame}
  {outcomes : List CommitOutcome}

/-- What the peer takes from the node arrives as what the node was asked for. -/
theorem Arrives.of_takes
    (initialised : RxInitialised peer.app.rx)
    (isId : frame.id = request.canId.toUInt32)
    (packed : request.pdu node.app = some (recordOf frame).pdu)
    (takes : Takes cmac peer frame true outcomes) :
    Arrives cmac request node peer frame outcomes := by
  have listens : request.side.peer.listens frame :=
    ⟨_, Side.sends_heard request, isId⟩
  have configured := (Side.listens_id listens).2.2
  have accepted := (rxProcess_accept_iff initialised configured).mpr takes
  obtain ⟨heard⟩ :=
    rxProcess_accept rfl initialised.bound configured accepted
  have decodes := (Request.pdu_spec packed).2
  rcases @receive_listens (oracle cmac true) peer.app frame
      (peer.store.arm outcomes) _ listens with
    ⟨notSync, received⟩ | ⟨isSync, received⟩
  · refine ⟨accepted, ?_, ?_⟩
    · intro msg asked
      refine ⟨_, received, ?_⟩
      rw [(verifyAndDecode_spec notSync).handedOn, if_pos accepted,
        heard.releasedPdu, isId, decodes, asked]
    · intro sync
      rw [Side.peer_peer, isId] at notSync
      rw [sync] at notSync
      exact absurd rfl notSync
  · have onId : request.canId = request.side.config.bootSyncId := by
      rw [Side.peer_peer, isId] at isSync
      exact UInt16.toUInt32_inj.mp isSync
    have sync := Request.eq_bootSync onId
    refine ⟨accepted, ?_, fun _ => ?_⟩
    · intro msg asked
      rw [sync] at asked
      cases asked
    · have isFloor : (recordOf frame).pdu = putU16le node.app.gRx.floor := by
        rw [sync] at packed
        exact (Option.some.inj packed).symm
      have handled :=
        handleSync_taken rfl accepted
          (by rw [heard.releasedPdu, isFloor, length_putU16le])
      rw [heard.releasedPdu, isFloor] at handled
      have reads : getU16le (putU16le node.app.gRx.floor) = node.app.gRx.floor :=
        getU16le_putU16le _ []
      rw [reads] at handled
      exact received.trans handled

end Arrival

/--
From every state a run with an ideal MAC and no epoch wrap reaches: if a node's
sender is up and its peer's receiver is bound and not ahead of it, the next
message the node is asked for becomes a frame when its commits and its M0+ work;
with any padding up to the length of a CAN FD frame, it arrives.
-/
theorem genuine_fresh_frame_gets_through
    (cmac : UInt32 → List UInt8 → FullTag)
    (actions : List NetAction)
    (ideal :
      Machine.Allowed (networkStep cmac) (IdealMac cmac) .cold actions)
    (noEpochWrap :
      Machine.Allowed (networkStep cmac) NoEpochWrap .cold actions)
    (request : Request)
    (buildOutcomes : List CommitOutcome)
    (buildCommits : ∀ outcome ∈ buildOutcomes, outcome = .acknowledged) :
    let net := Machine.final (networkStep cmac) .cold actions
    let node := net.node request.side
    let peer := net.node request.side.peer
    node.Up →
      peer.app.gRx.storeSet = true →
        peer.app.gRx.floor ≤ node.app.tx.epoch →
          (request.pdu node.app).isSome = true →
            NoEpochWrap net (.build request true buildOutcomes) →
              ∃ f,
                frameBuilt cmac net request true buildOutcomes = some f ∧
                  ∀ padded outcomes,
                    PaddedFrom f padded →
                      (∀ outcome ∈ outcomes, outcome = .acknowledged) →
                        Arrives cmac request node peer padded outcomes := by
  intro net node peer up bound notAhead packs noWrapNow
  have inv : ResyncInv net (Machine.trace (networkStep cmac) .cold actions) :=
    Machine.invariant_of_start
      (fun _ _ action inv guard => inv.step action guard.1 guard.2) .start
      (ideal.and noEpochWrap)
  obtain ⟨pdu, packed⟩ := Option.isSome_iff_exists.mp packs
  obtain ⟨f, built, length⟩ :=
    frameBuilt_reliable up (final_txIds (fun _ => .blank) actions request.side)
      packed buildCommits
  refine ⟨f, built, fun padded outcomes isPadded commits => ?_⟩
  obtain ⟨pduAgain, epoch, counter, tx, store, packedAgain, issues, isId,
    isRecord, verifies, -⟩ := ResyncInv.frameBuilt_spec built
  have onId : f.id.toUInt16 = request.canId := by
    rw [isId, UInt16.toUInt16_toUInt32]
  have configured : bodyMsgPduLen f.id.toUInt16.toUInt32 ≠ 0 :=
    (Side.listens_id ⟨_, Side.sends_heard request, isId⟩).2.2
  obtain ⟨sameRecord, verifiesPadded⟩ :=
    isPadded.verifies configured (by rw [onId]; exact length) verifies
  have passes :=
    inv.next_passes request up bound (UInt16.not_lt.mpr notAhead)
      (noWrapNow packs) issues
  refine Arrives.of_takes (final_rxInitialised (fun _ => .blank) actions _)
    (isPadded.sameId.trans isId) ?_ ⟨verifiesPadded, ?_, fun _ => ?_⟩
  · rw [sameRecord, isRecord]
    exact packedAgain
  · rw [sameRecord, isRecord]
    exact passes
  · cases outcomes with
    | nil =>
        rfl
    | cons first rest =>
        exact commits first List.mem_cons_self

/-- The gateway's first light command, padded to sixteen bytes. -/
def paddedLightCmd : CanRawFrame where
  id := 0x121
  flags := canFlagFdf
  data := [55, 1, 0, 1, 0, 0x21, 0x01, 1, 0, 1, 0, 55, 0, 9, 9, 9]
  fits := by decide

/-- Both nodes boot, and the first light command arrives at the actuator. -/
theorem first_light_command_gets_through :
    let net :=
      Machine.final (networkStep paddedMac) .cold
        [.boot .gateway .ok [], .boot .actuator .ok []]
    Arrives paddedMac (.lightCmd 55) (net.node .gateway) (net.node .actuator)
      paddedLightCmd [] := by
  intro net
  obtain ⟨f, built, arrives⟩ :=
    genuine_fresh_frame_gets_through paddedMac
      [.boot .gateway .ok [], .boot .actuator .ok []] (by decide) (by decide)
      (.lightCmd 55) [] (by decide) (by decide) (by decide) (by decide)
      (by decide) (by decide)
  have isFrame :
      frameBuilt paddedMac net (.lightCmd 55) true [] =
        some ⟨0x121, canFlagFdf, paddedLightCmd.data.take 13, by decide⟩ := by
    decide
  rw [isFrame] at built
  cases built
  exact arrives _ [] ⟨rfl, ⟨[9, 9, 9], rfl⟩, by decide⟩ (by decide)

end TraveoBodyDomain
