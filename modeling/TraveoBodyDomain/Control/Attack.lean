import Mathlib.Tactic.Common
import TraveoBodyDomain.Control.Courtesy
import TraveoBodyDomain.Node.Delivery
import TraveoBodyDomain.Secoc.FrameLength

/-!
# The attack tool

`secoc_attack.py` sends what a node without the key can send: made-up trailers,
changed bits, recorded frames, frames under another ID.  In every state a run
reaches, each is refused with the one event the tool announces, and the node
keeps its state.
-/

namespace TraveoBodyDomain

open LittleEndian

/-!
## Crafting the frames
-/

/-- `ID_DOOR`. -/
def idDoor : UInt32 :=
  0x120

/-- `ID_LIGHT`. -/
def idLight : UInt32 :=
  0x121

/-- `LIGHT_PDU_LEN`. -/
def lightPduLen : Nat :=
  1

/-- `TRAILER_LEN`. -/
def trailerLen : Nat :=
  12

/-- `DOOR_UNLOCK`. -/
def doorUnlock : UInt8 :=
  0x01

/-- `forged_short`. -/
def forgedShort : List UInt8 :=
  [doorUnlock]

/-- `forged_with_mac`: a made-up trailer, padded to 16 bytes. -/
def forgedWithMac (rand : Vector UInt8 trailerLen) : List UInt8 :=
  let frame := doorUnlock :: rand.toList
  frame ++ List.replicate (16 - frame.length) 0

/-- `flip_mac_bit`. -/
def flipMacBit (genuine : List UInt8) (pduLen : Nat) : List UInt8 :=
  genuine.modify (pduLen + 4) (· ^^^ 0x01)

/-- `counter_of`. -/
def counterOf (genuine : List UInt8) (pduLen : Nat) : Nat :=
  ofLe ((genuine.drop (pduLen + 2)).take 2)

/-- `REPLAY_IDS`: the ID, the PDU length and the node that must refuse a replay. -/
def replayIds : List (UInt32 × Nat × Side) :=
  [(0x121, 1, .actuator), (0x200, 3, .gateway), (0x1F0, 2, .actuator),
    (0x2F0, 2, .gateway)]

/-- The cases of the tool that `run_case` has. -/
inductive AttackCase where
  | forged
  /-- With the bytes `os.urandom` returned. -/
  | forgedMac (rand : Vector UInt8 trailerLen)
  | bitflip
  | replay
  | crossid
  deriving DecidableEq

/-- The ID and the data `run_case` sends, given the frame it captured. -/
def AttackCase.sends (genuine : List UInt8) :
    AttackCase → UInt32 × List UInt8
  | .forged => (idDoor, forgedShort)
  | .forgedMac rand => (idDoor, forgedWithMac rand)
  | .bitflip => (idLight, flipMacBit genuine lightPduLen)
  | .replay => (idLight, genuine)
  | .crossid => (idDoor, genuine)

/-- The event each case expects: its kind, its ID, and the reason or the counter. -/
def AttackCase.expects (genuine : List UInt8) :
    AttackCase → LogEvt × UInt32 × Nat
  | .forged => (.secocRejectMac, 0x120, 2)
  | .forgedMac _ => (.secocRejectMac, 0x120, 1)
  | .bitflip => (.secocRejectMac, 0x121, 1)
  | .replay => (.secocRejectFreshness, 0x121, counterOf genuine lightPduLen)
  | .crossid => (.secocRejectMac, 0x120, 1)

/-!
## Being refused
-/

section Refusal

variable {cmac : UInt32 → List UInt8 → FullTag}
  {net : Network}
  {side : Side}
  {f : CanRawFrame}
  {outcomes : List CommitOutcome}

/--
The node, whose M0+ answers, refuses the frame with one event, and keeps its
sender, its freshness context and what its store holds.
-/
structure Refuses
    (cmac : UInt32 → List UInt8 → FullTag)
    (net : Network)
    (side : Side)
    (f : CanRawFrame)
    (outcomes : List CommitOutcome)
    (expected : LogEvt × UInt32 × Nat) : Prop where
  log :
    (rxProcess durablePort (oracle cmac true) (net.node side).app f
        ((net.node side).store.arm outcomes)).log.map
        (fun record => (record.evt, record.arg0, record.arg1.toNat)) =
      [expected]
  nothingShown :
    (networkStep cmac net (.deliver side f true outcomes)).2 = []
  tx :
    ((networkStep cmac net (.deliver side f true outcomes)).1.node
        side).app.tx =
      (net.node side).app.tx
  gRx :
    ((networkStep cmac net (.deliver side f true outcomes)).1.node
        side).app.gRx =
      (net.node side).app.gRx
  slot :
    ((networkStep cmac net (.deliver side f true outcomes)).1.node
        side).store.slot =
      (net.node side).store.slot

/-- A drop that touches only its counter is a refusal. -/
theorem Refuses.of_drop
    {expected : LogEvt × UInt32 × Nat}
    (listens : side.listens f)
    (drops :
      let result :=
        rxProcess durablePort (oracle cmac true) (net.node side).app f
          ((net.node side).store.arm outcomes)
      result.verdict ≠ .accept ∧
        result.rx.fresh = (net.node side).app.rx.fresh ∧
        result.store = (net.node side).store.arm outcomes ∧
        result.log.map
            (fun record => (record.evt, record.arg0, record.arg1.toNat)) =
          [expected]) :
    Refuses cmac net side f outcomes expected := by
  obtain ⟨refused, freshKept, storeKept, logged⟩ := drops
  rcases @networkStep_deliver cmac net side outcomes f true listens with
    ⟨result, nodeAfter, events, processed, ran, did⟩
  rw [processed] at refused freshKept storeKept
  rcases did with ⟨accepted, -⟩ | ⟨handled, spec, rfl, isEvents⟩
  · exact (refused accepted).elim
  · rw [if_neg refused, List.nil_append,
      handledEvents_of_drop spec refused] at isEvents
    rcases spec.adoption with ⟨sameTx, sameStore, -⟩ | ⟨accepted, -⟩
    · refine ⟨logged, ?_, ?_, ?_, ?_⟩ <;> rw [ran]
      · exact isEvents
      · rw [setNode_node_same]
        exact sameTx
      · rw [setNode_node_same, SecocApp.gRx, spec.rxAfter, freshKept]
        rfl
      · rw [setNode_node_same]
        show handled.store.slot = _
        rw [sameStore, storeKept]
        rfl
    · exact (refused accepted).elim

/-- The frame reaches a receiver that a boot has bound. -/
structure Heard (net : Network) (side : Side) (f : CanRawFrame) : Prop where
  listens : side.listens f
  initialised : RxInitialised (net.node side).app.rx
  bound : (net.node side).app.rx.fresh.isSome = true

/-- What `secoc_rx_process` does with a heard frame, by what the MAC check says. -/
theorem rxProcess_heard
    (heard : Heard net side f) :
    ∃ fresh,
      (net.node side).app.rx.fresh = some fresh ∧
        (net.node side).app.gRx = fresh ∧
        (∀ reason,
          rxVerify (oracle cmac true) (some bodyMsgPduLen) gCy f.id.toUInt16
                f.data canMaxDlen = .error reason →
            rxProcess durablePort (oracle cmac true) (net.node side).app f
                ((net.node side).store.arm outcomes) =
              dropMac (net.node side).app.rx f.id.toUInt16 reason
                (some (List.replicate canMaxDlen 0)) (some 0)
                ((net.node side).store.arm outcomes)) ∧
        ∀ verified,
          rxVerify (oracle cmac true) (some bodyMsgPduLen) gCy f.id.toUInt16
                f.data canMaxDlen = .ok verified →
            secocRxCheck fresh f.id.toUInt16 verified.epoch verified.counter ≠
                .ok →
              rxProcess durablePort (oracle cmac true) (net.node side).app f
                  ((net.node side).store.arm outcomes) =
                dropFresh (net.node side).app.rx f.id.toUInt16 verified.counter
                  (some
                    (verified.pdu ++
                      (List.replicate canMaxDlen 0).drop verified.pdu.length))
                  (some 0) ((net.node side).store.arm outcomes) := by
  obtain ⟨fresh, freshSet⟩ := Option.isSome_iff_exists.mp heard.bound
  rcases heard.initialised with ⟨-, noFresh⟩ | ⟨isCy, isLen⟩
  · rw [freshSet] at noFresh
    cases noFresh
  · refine ⟨fresh, freshSet, ?_, ?_, ?_⟩
    · rw [SecocApp.gRx, freshSet]
      rfl
    · intro reason failed
      unfold rxProcess secocRxProcess
      simp only [isCy, freshSet, isLen, Option.map_some, List.length_replicate,
        failed]
    · intro verified verifies stale
      unfold rxProcess secocRxProcess
      simp only [isCy, freshSet, isLen, Option.map_some, List.length_replicate,
        verifies]

/-- A frame whose MAC check fails is refused with the reason. -/
theorem Refuses.of_unverified
    {reason : SecocVerifyFailure}
    (heard : Heard net side f)
    (failed :
      rxVerify (oracle cmac true) (some bodyMsgPduLen) gCy f.id.toUInt16 f.data
        canMaxDlen = .error reason) :
    Refuses cmac net side f outcomes
      (.secocRejectMac, f.id, reason.code.toNat) := by
  obtain ⟨fresh, -, -, drops, -⟩ := @rxProcess_heard cmac _ _ _ outcomes heard
  refine .of_drop heard.listens ?_
  rw [drops reason failed]
  refine ⟨by simp [dropMac], rfl, rfl, ?_⟩
  have isId := (Side.listens_id heard.listens).2.1
  simp [dropMac, ← isId]

/-- A frame that verifies but is not fresh is refused with its counter. -/
theorem Refuses.of_stale
    {verified : Verified}
    (heard : Heard net side f)
    (verifies :
      rxVerify (oracle cmac true) (some bodyMsgPduLen) gCy f.id.toUInt16 f.data
        canMaxDlen = .ok verified)
    (stale :
      secocRxCheck (net.node side).app.gRx f.id.toUInt16 verified.epoch
        verified.counter ≠ .ok) :
    Refuses cmac net side f outcomes
      (.secocRejectFreshness, f.id, verified.counter.toNat) := by
  obtain ⟨fresh, -, isOwn, -, drops⟩ :=
    @rxProcess_heard cmac _ _ _ outcomes heard
  rw [isOwn] at stale
  refine .of_drop heard.listens ?_
  rw [drops verified verifies stale]
  refine ⟨by simp [dropFresh], rfl, rfl, ?_⟩
  have isId := (Side.listens_id heard.listens).2.1
  simp [dropFresh, ← isId]

end Refusal

/-!
## What the MAC check says to each frame
-/

section Checks

variable {cmac : UInt32 → List UInt8 → FullTag}
  {canId : UInt16}
  {data : List UInt8}
  {plen : Nat}

/-- Below a length in the configured range the check is that of the tag. -/
theorem rxVerify_of_length
    (configured : bodyMsgPduLen canId.toUInt32 = plen)
    (known : plen ≠ 0)
    (taken : LengthTaken plen data.length) :
    rxVerify (oracle cmac true) (some bodyMsgPduLen) gCy canId data canMaxDlen =
      verifyCore (oracle cmac true) gCy canId data plen := by
  have small := bodyMsgPduLen_le canId.toUInt32
  rw [configured] at small
  unfold rxVerify
  simp only [configured, ne_eq, known, not_false_eq_true, ↓reduceIte]
  exact
    secocVerifyLen_taken (small.trans (by decide)) (small.trans (by decide))
      taken

/-- Outside it the length is bad. -/
theorem rxVerify_badLength
    (configured : bodyMsgPduLen canId.toUInt32 = plen)
    (known : plen ≠ 0)
    (refused : ¬ LengthTaken plen data.length) :
    rxVerify (oracle cmac true) (some bodyMsgPduLen) gCy canId data canMaxDlen =
      .error .badLength := by
  unfold rxVerify
  simp only [configured, ne_eq, known, not_false_eq_true, ↓reduceIte]
  exact (secocVerifyLen_refused refused []).1

/-- What verifies had a length in the range. -/
theorem lengthTaken_of_rxVerify
    {verified : Verified}
    (configured : bodyMsgPduLen canId.toUInt32 = plen)
    (known : plen ≠ 0)
    (verifies :
      rxVerify (oracle cmac true) (some bodyMsgPduLen) gCy canId data canMaxDlen =
        .ok verified) :
    LengthTaken plen data.length := by
  by_contra refused
  rw [rxVerify_badLength configured known refused] at verifies
  cases verifies

/-- With an M0+ that answers, a tag that is not right is a bad MAC. -/
theorem verifyCore_up
    (frame : List UInt8) :
    (∃ verified,
        verifyCore (oracle cmac true) gCy canId frame plen = .ok verified) ∨
      verifyCore (oracle cmac true) gCy canId frame plen = .error .badMac := by
  unfold verifyCore
  simp only [oracle, ↓reduceIte]
  split
  · exact Or.inl ⟨_, rfl⟩
  · exact Or.inr rfl

/-- The first byte behind a place is the byte at that place. -/
theorem getD_drop_zero
    (bytes : List UInt8)
    (n : Nat) :
    (bytes.drop n).getD 0 0 = bytes.getD n 0 := by
  rw [List.getD_eq_getElem?_getD, List.getElem?_drop,
    ← List.getD_eq_getElem?_getD]
  rfl

/-- A byte with its lowest bit flipped is another byte. -/
theorem flipped_ne (byte : UInt8) :
    byte ≠ byte ^^^ 0x01 := by
  intro same
  have bits := congrArg (byte ^^^ ·) same
  rw [← UInt8.xor_assoc, UInt8.xor_self, UInt8.zero_xor] at bits
  exact absurd bits (by decide)

/-- Before the tag nothing changes. -/
theorem take_flipMacBit
    {n : Nat}
    (before : n ≤ plen + 4) :
    (flipMacBit data plen).take n = data.take n := by
  rw [flipMacBit, List.take_modify]
  refine List.modify_eq_self ?_
  rw [List.length_take]
  exact (Nat.min_le_left n data.length).trans before

/-- The changed bit is one of the tag's: the frame no longer verifies. -/
theorem verifyCore_flipMacBit
    {verified : Verified}
    (long : plen + secocTrailerLen ≤ data.length)
    (verifies :
      verifyCore (oracle cmac true) gCy canId data plen = .ok verified) :
    verifyCore (oracle cmac true) gCy canId (flipMacBit data plen) plen =
      .error .badMac := by
  have samePdu : (flipMacBit data plen).take plen = data.take plen :=
    take_flipMacBit (Nat.le_add_right plen 4)
  have sameFresh :
      ((flipMacBit data plen).drop plen).take secocFreshnessLen =
        (data.drop plen).take secocFreshnessLen := by
    have upToTag :
        (flipMacBit data plen).take (plen + secocFreshnessLen) =
          data.take (plen + secocFreshnessLen) :=
      take_flipMacBit (Nat.le_refl _)
    rw [List.take_drop, List.take_drop, upToTag]
  have inside : plen + 4 < data.length :=
    (Nat.add_lt_add_left (by decide : 4 < secocTrailerLen) plen).trans_le long
  have flipped :
      (flipMacBit data plen).getD (plen + 4) 0 =
        data.getD (plen + 4) 0 ^^^ 0x01 := by
    rw [flipMacBit, List.getD_eq_getElem _ _ (by simpa using inside),
      List.getD_eq_getElem _ _ inside, List.getElem_modify_eq]
  unfold verifyCore at verifies ⊢
  simp only [oracle, ↓reduceIte] at verifies ⊢
  rw [samePdu, sameFresh]
  split at verifies
  next tagMatches =>
    -- The first bytes of the two tags cannot both be the recomputed one.
    have genuineByte := secocCtEqual_iff.mp tagMatches 0 (by decide)
    rw [getD_drop_zero] at genuineByte
    split
    next flippedMatches =>
      have flippedByte := secocCtEqual_iff.mp flippedMatches 0 (by decide)
      rw [getD_drop_zero] at flippedByte
      have same := genuineByte.symm.trans flippedByte
      rw [show plen + secocFreshnessLen = plen + 4 from rfl, flipped] at same
      exact (flipped_ne _ same).elim
    next => rfl
  next => cases verifies

end Checks

/-!
## The cases of the tool
-/

section Cases

variable {cmac : UInt32 → List UInt8 → FullTag}
  {vehicle : Vehicle}
  {history : List VehicleEvent}
  {genuine f : CanRawFrame}
  {outcomes : List CommitOutcome}

/-- A frame whose tag is right, as a node that has the key sends it. -/
def Genuine
    (cmac : UInt32 → List UInt8 → FullTag)
    (f : CanRawFrame) : Prop :=
  rxVerify (oracle cmac true) (some bodyMsgPduLen) gCy f.id.toUInt16 f.data
      canMaxDlen =
    .ok
      ⟨(recordOf f).value.epoch, (recordOf f).value.counter, (recordOf f).pdu⟩

instance Genuine.decidable
    (cmac : UInt32 → List UInt8 → FullTag)
    (f : CanRawFrame) :
    Decidable (Genuine cmac f) :=
  inferInstanceAs (Decidable (_ = _))

/-- A genuine light command is 13 to 16 bytes long. -/
theorem Genuine.lengthTaken
    (isGenuine : Genuine cmac genuine)
    (onLight : genuine.id = idLight) :
    LengthTaken lightPduLen genuine.data.length := by
  refine lengthTaken_of_rxVerify ?_ (by decide) isGenuine
  rw [onLight]
  rfl

/-- What is sent under the door's ID with a good length carries a bad MAC. -/
theorem CourtesyInv.door_badMac
    (inv : CourtesyInv vehicle history)
    (onDoor : f.id = idDoor)
    (taken : LengthTaken 1 f.data.length)
    (ideal : IdealMac cmac vehicle.net (.deliver .actuator f true outcomes)) :
    rxVerify (oracle cmac true) (some bodyMsgPduLen) gCy f.id.toUInt16 f.data
        canMaxDlen =
      .error .badMac := by
  have configured : bodyMsgPduLen f.id.toUInt16.toUInt32 = 1 := by
    rw [onDoor]
    rfl
  rcases @verifyCore_up cmac f.id.toUInt16 1 f.data with
    ⟨verified, verifies⟩ | bad
  · rw [← rxVerify_of_length configured (by decide) taken] at verifies
    have known : bodyMsgPduLen f.id.toUInt16.toUInt32 ≠ 0 := by
      rw [configured]
      decide
    have carried := rxVerify_record known verifies
    rw [carried] at verifies
    have notDoor := inv.door.unbuilt.of_verified ideal verifies
    refine (notDoor ?_).elim
    show f.id.toUInt16 = msgIdDoorCmd
    rw [onDoor]
    rfl
  · rw [rxVerify_of_length configured (by decide) taken]
    exact bad

/-- A frame a node accepted before, in this power cycle or an earlier one. -/
theorem stale_of_accepted
    {net : Network}
    {events : List NetEvent}
    {side : Side}
    (receives : SideReceives side net events)
    (accepted : .accepted side (recordOf f) ∈ events) :
    secocRxCheck (net.node side).app.gRx (recordOf f).value.canId
      (recordOf f).value.epoch (recordOf f).value.counter ≠ .ok := by
  intro passes
  have old : (recordOf f).value ∈ acceptedValues side events :=
    List.mem_map.mpr ⟨_, mem_acceptedRecords.mpr accepted, rfl⟩
  have member :
      ((recordOf f).value.epoch, (recordOf f).value.counter) ∈
        pairsOf (recordOf f).value.canId (acceptedValues side events) :=
    mem_pairsOf.mpr old
  exact Increasing.lexLt_irrefl _ (receives.follows_of_ok passes _ member)

/-- A genuine frame a node accepted before is refused as stale. -/
theorem CourtesyInv.replay_refused
    {side : Side}
    (inv : CourtesyInv vehicle history)
    (heard : Heard vehicle.net side f)
    (isGenuine : Genuine cmac f)
    (accepted : .net (.accepted side (recordOf f)) ∈ history) :
    Refuses cmac vehicle.net side f outcomes
      (.secocRejectFreshness, f.id, (recordOf f).value.counter.toNat) := by
  refine Refuses.of_stale heard isGenuine ?_
  refine stale_of_accepted (inv.receives side) ?_
  exact List.mem_filterMap.mpr ⟨_, accepted, rfl⟩

/-- The counter the tool reads is the counter of the record. -/
theorem counterOf_eq
    {pduLen : Nat}
    (configured : bodyMsgPduLen f.id.toUInt16.toUInt32 = pduLen)
    (long : pduLen + trailerLen ≤ f.data.length) :
    counterOf f.data pduLen = (recordOf f).value.counter.toNat := by
  have carried :
      (recordOf f).value.counter = getU16le (f.data.drop (pduLen + 2)) := by
    rw [← configured]
    rfl
  rw [carried]
  have two : 2 ≤ (f.data.drop (pduLen + 2)).length := by
    rw [List.length_drop]
    unfold trailerLen at long
    omega
  match rest : f.data.drop (pduLen + 2), two with
  | first :: second :: others, _ =>
      rw [counterOf, rest, getU16le_toNat]
      rfl

/-- Each replay ID has the PDU length of the table, and its refuser listens to it. -/
theorem replayIds_heard
    {pduLen : Nat}
    {refuser : Side}
    (member : (f.id, pduLen, refuser) ∈ replayIds) :
    refuser.listens f ∧
      bodyMsgPduLen f.id.toUInt16.toUInt32 = pduLen ∧
      pduLen ≠ 0 := by
  simp only [replayIds, List.mem_cons, Prod.mk.injEq, List.not_mem_nil,
    or_false] at member
  rcases member with
    ⟨isId, rfl, rfl⟩ | ⟨isId, rfl, rfl⟩ | ⟨isId, rfl, rfl⟩ | ⟨isId, rfl, rfl⟩
  · exact ⟨⟨msgIdLightCmd, by decide, isId⟩, by rw [isId]; rfl, by decide⟩
  · exact ⟨⟨msgIdSensorRpt, by decide, isId⟩, by rw [isId]; rfl, by decide⟩
  · exact
      ⟨⟨msgIdGwFreshnessSync, by decide, isId⟩, by rw [isId]; rfl, by decide⟩
  · exact ⟨⟨msgIdFreshnessSync, by decide, isId⟩, by rw [isId]; rfl, by decide⟩

/-- Every case of the tool, with the event it announces. -/
theorem CourtesyInv.case_refused
    (inv : CourtesyInv vehicle history)
    (isGenuine : Genuine cmac genuine)
    (onLight : genuine.id = idLight)
    (accepted : .net (.accepted .actuator (recordOf genuine)) ∈ history)
    (bound : (vehicle.net.node .actuator).app.rx.fresh.isSome = true)
    (attack : AttackCase)
    (carries : (f.id, f.data) = attack.sends genuine.data)
    (ideal : IdealMac cmac vehicle.net (.deliver .actuator f true outcomes)) :
    Refuses cmac vehicle.net .actuator f outcomes
      (attack.expects genuine.data) := by
  have initialised := inv.door.unbuilt.receivers .actuator
  have taken := isGenuine.lengthTaken onLight
  have onDoor :
      f.id = idDoor →
        Heard vehicle.net .actuator f ∧
          bodyMsgPduLen f.id.toUInt16.toUInt32 = 1 := by
    intro isDoor
    refine ⟨⟨⟨msgIdDoorCmd, .head _, isDoor⟩, initialised, bound⟩, ?_⟩
    rw [isDoor]
    rfl
  have onLamp :
      f.id = idLight →
        Heard vehicle.net .actuator f ∧
          bodyMsgPduLen f.id.toUInt16.toUInt32 = 1 := by
    intro isLight
    refine
      ⟨⟨⟨msgIdLightCmd, .tail _ (.head _), isLight⟩, initialised, bound⟩, ?_⟩
    rw [isLight]
    rfl
  cases attack with
  | forged =>
      obtain ⟨isDoor, isData⟩ := Prod.mk.inj carries
      obtain ⟨heard, configured⟩ := onDoor isDoor
      have bad :=
        @rxVerify_badLength cmac _ f.data 1 configured (by decide)
          (by rw [isData]; decide)
      have refused := @Refuses.of_unverified cmac _ _ _ outcomes _ heard bad
      rw [isDoor] at refused
      exact refused
  | forgedMac rand =>
      obtain ⟨isDoor, isData⟩ := Prod.mk.inj carries
      obtain ⟨heard, -⟩ := onDoor isDoor
      have sixteen : f.data.length = 16 := by
        have twelve : rand.toList.length = 12 := Vector.length_toList
        simp only [isData, forgedWithMac, List.length_append, List.length_cons,
          List.length_replicate, twelve]
      have bad := inv.door_badMac isDoor (by rw [sixteen]; decide) ideal
      have refused := @Refuses.of_unverified cmac _ _ _ outcomes _ heard bad
      rw [isDoor] at refused
      exact refused
  | bitflip =>
      obtain ⟨isLight, isData⟩ := Prod.mk.inj carries
      obtain ⟨heard, configured⟩ := onLamp isLight
      have sameLength : f.data.length = genuine.data.length := by
        rw [isData, flipMacBit, List.length_modify]
      have genuineVerifies := isGenuine
      unfold Genuine at genuineVerifies
      rw [onLight, ← isLight,
        rxVerify_of_length configured (by decide) taken] at genuineVerifies
      have flipped := verifyCore_flipMacBit taken.1 genuineVerifies
      have bad :
          rxVerify (oracle cmac true) (some bodyMsgPduLen) gCy f.id.toUInt16
              f.data canMaxDlen = .error .badMac := by
        rw [rxVerify_of_length configured (by decide)
          (by rw [sameLength]; exact taken), isData]
        exact flipped
      have refused := @Refuses.of_unverified cmac _ _ _ outcomes _ heard bad
      rw [isLight] at refused
      exact refused
  | replay =>
      obtain ⟨isLight, isData⟩ := Prod.mk.inj carries
      obtain ⟨heard, configured⟩ := onLamp isLight
      have sameRecord : recordOf f = recordOf genuine := by
        unfold recordOf
        rw [isLight, isData, onLight]
      have same : Genuine cmac f := by
        unfold Genuine
        rw [sameRecord, isLight, isData, ← onLight]
        exact isGenuine
      have refused :=
        @CourtesyInv.replay_refused cmac _ _ f outcomes _ inv heard same
          (by rw [sameRecord]; exact accepted)
      rw [← counterOf_eq configured (by rw [isData]; exact taken.1), isLight,
        isData] at refused
      exact refused
  | crossid =>
      obtain ⟨isDoor, isData⟩ := Prod.mk.inj carries
      obtain ⟨heard, -⟩ := onDoor isDoor
      have bad := inv.door_badMac isDoor (by rw [isData]; exact taken) ideal
      have refused := @Refuses.of_unverified cmac _ _ _ outcomes _ heard bad
      rw [isDoor] at refused
      exact refused

end Cases

/--
In every state a guarded run reaches in which the actuator's glue has booted:
once a genuine light command was accepted, each frame the tool makes of it, or
makes up, is refused with exactly the event the tool announces, whatever trailer
was drawn; and a frame saved from any of the replay IDs is refused as stale by
the node that accepted it, in the same power cycle or a later one.
-/
theorem injected_frames_are_refused
    (cmac : UInt32 → List UInt8 → FullTag)
    (stores : Side → FreshnessStore)
    (actions : List VehicleAction)
    (guarded :
      Machine.Allowed (vehicleStep cmac)
        ((vehicleLayer cmac).Meets (GuardedNet cmac)) (.unpowered stores)
        actions) :
    let vehicle := Machine.final (vehicleStep cmac) (.unpowered stores) actions
    let trace := Machine.trace (vehicleStep cmac) (.unpowered stores) actions
    (∀ (genuine f : CanRawFrame)
        (attack : AttackCase)
        (outcomes : List CommitOutcome),
      Genuine cmac genuine →
        genuine.id = idLight →
        .net (.accepted .actuator (recordOf genuine)) ∈ trace →
        (vehicle.net.node .actuator).app.rx.fresh.isSome = true →
        (f.id, f.data) = attack.sends genuine.data →
        IdealMac cmac vehicle.net (.deliver .actuator f true outcomes) →
          Refuses cmac vehicle.net .actuator f outcomes
            (attack.expects genuine.data)) ∧
      ∀ (saved : CanRawFrame)
        (refuser : Side)
        (pduLen : Nat)
        (outcomes : List CommitOutcome),
        (saved.id, pduLen, refuser) ∈ replayIds →
          Genuine cmac saved →
          .net (.accepted refuser (recordOf saved)) ∈ trace →
          (vehicle.net.node refuser).app.rx.fresh.isSome = true →
            Refuses cmac vehicle.net refuser saved outcomes
              (.secocRejectFreshness, saved.id,
                counterOf saved.data pduLen) := by
  intro vehicle trace
  have inv : CourtesyInv vehicle trace :=
    Machine.invariant_of_start
      (fun _ _ action inv guarded => inv.step action guarded) (.start stores)
      guarded
  refine ⟨?_, ?_⟩
  · intro genuine f attack outcomes isGenuine onLight accepted bound carries ideal
    exact
      inv.case_refused isGenuine onLight accepted bound attack carries ideal
  · intro saved refuser pduLen outcomes member isGenuine accepted bound
    obtain ⟨listens, configured, known⟩ := replayIds_heard member
    have heard : Heard vehicle.net refuser saved :=
      ⟨listens, inv.door.unbuilt.receivers refuser, bound⟩
    have taken := lengthTaken_of_rxVerify configured known isGenuine
    rw [counterOf_eq configured taken.1]
    exact inv.replay_refused heard isGenuine accepted

/-- The light command of the attacked run with a bit of its tag flipped. -/
def flippedLight : CanRawFrame where
  id := 0x121
  flags := canFlagFdf
  data := [100, 1, 0, 1, 0, 0x20, 0x01, 1, 0, 1, 0, 100, 0]
  fits := by decide

/-- After the light went on, the flipped and the replayed command are refused. -/
theorem flipped_and_replayed_light_are_refused :
    let vehicle :=
      Machine.final (vehicleStep paddedMac) (.unpowered fun _ => .blank)
        attackedCourtesy
    Refuses paddedMac vehicle.net .actuator flippedLight []
        (.secocRejectMac, 0x121, 1) ∧
      Refuses paddedMac vehicle.net .actuator (lightOnAs 0x121) []
        (.secocRejectFreshness, 0x121, 1) := by
  intro vehicle
  obtain ⟨crafted, saved⟩ :=
    injected_frames_are_refused paddedMac (fun _ => .blank) attackedCourtesy
      (by decide)
  exact
    ⟨crafted (lightOnAs 0x121) flippedLight .bitflip [] (by decide) rfl
        (by decide) (by decide) rfl (by decide),
      saved (lightOnAs 0x121) .actuator 1 [] (by decide) (by decide)
        (by decide) (by decide)⟩

end TraveoBodyDomain
