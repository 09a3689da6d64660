import Mathlib.Tactic.Common
import TraveoBodyDomain.Node.LostSync

/-!
# An ID nobody builds for is never accepted

Whatever the freshness values do: while neither node builds a frame for an ID,
no MAC input under that ID is tagged, so with an ideal MAC no frame under it is
accepted by anyone, replayed and re-labelled frames included.
-/

namespace TraveoBodyDomain

/-- The action builds no frame for the ID. -/
def BuildsNot (canId : UInt16) : NetAction → Prop
  | .build request _ _ => request.canId ≠ canId
  | _ => True

/-- Nothing was tagged or accepted under the ID. -/
structure UnbuiltInv
    (canId : UInt16)
    (net : Network)
    (history : List NetEvent) : Prop where
  receivers : ∀ side, RxInitialised (net.node side).app.rx
  tagged :
    ∀ entry ∈ net.tagged,
      ∃ record : SecuredRecord,
        entry = (secocMacKeyId, record.macInput) ∧
          record.value.canId ≠ canId
  accepted :
    ∀ side record,
      .accepted side record ∈ history → record.value.canId ≠ canId

namespace UnbuiltInv

variable {cmac : UInt32 → List UInt8 → FullTag}
  {canId : UInt16}
  {net : Network}
  {history : List NetEvent}

/-- Neither node has power yet. -/
theorem start
    (canId : UInt16)
    (stores : Side → FreshnessStore) :
    UnbuiltInv canId (.unpowered stores) [] := by
  refine ⟨fun _ => Or.inl ⟨rfl, rfl⟩, ?_, ?_⟩
  · intro entry member
    cases member
  · intro side record member
    cases member

/-- A step that tags nothing and accepts nothing. -/
theorem silent
    {netAfter : Network}
    {events : List NetEvent}
    (inv : UnbuiltInv canId net history)
    (receivers : ∀ side, RxInitialised (netAfter.node side).app.rx)
    (sameTags : netAfter.tagged = net.tagged)
    (noneAccepted : ∀ side record, .accepted side record ∉ events) :
    UnbuiltInv canId netAfter (history ++ events) := by
  refine ⟨receivers, ?_, ?_⟩
  · rw [sameTags]
    exact inv.tagged
  · intro side record member
    rcases List.mem_append.mp member with old | new
    · exact inv.accepted side record old
    · exact (noneAccepted side record new).elim

/-- What verifies was tagged, so it is not under the ID. -/
theorem of_verified
    {side : Side}
    {f : CanRawFrame}
    {up : Bool}
    {outcomes : List CommitOutcome}
    (inv : UnbuiltInv canId net history)
    (ideal : IdealMac cmac net (.deliver side f up outcomes))
    (verifies :
      rxVerify (oracle cmac true) (some bodyMsgPduLen) gCy f.id.toUInt16
          f.data canMaxDlen =
        .ok
          ⟨(recordOf f).value.epoch, (recordOf f).value.counter,
            (recordOf f).pdu⟩) :
    (recordOf f).value.canId ≠ canId := by
  simp only [IdealMac, verifies] at ideal
  obtain ⟨record, same, different⟩ := inv.tagged _ ideal
  have inputs :
      buildMacInput f.id.toUInt16
          (freshnessField (recordOf f).value.epoch (recordOf f).value.counter)
          (recordOf f).pdu =
        record.macInput :=
    congrArg Prod.snd same
  have ids := (buildMacInput_injective rfl rfl inputs).1
  intro onId
  exact different (ids.symm.trans onId)

/-- Every step that builds nothing for the ID keeps it unheard. -/
theorem step
    (action : NetAction)
    (inv : UnbuiltInv canId net history)
    (ideal : IdealMac cmac net action)
    (buildsNot : BuildsNot canId action) :
    UnbuiltInv canId (networkStep cmac net action).1
      (history ++ (networkStep cmac net action).2) := by
  have receivers :=
    @networkStep_rxInitialised cmac net inv.receivers action
  cases action with
  | powerLoss side =>
      exact inv.silent receivers rfl (by simp [networkStep])
  | boot side status outcomes =>
      exact inv.silent receivers rfl (by simp [networkStep])
  | build request up outcomes =>
      rcases @networkStep_build cmac net outcomes request up with
          ⟨tx, store, sent, ran, did⟩
      rw [ran] at receivers ⊢
      have onId : ∀ record ∈ sent, record.value.canId = request.canId := by
        rcases did with
            ⟨-, -, rfl⟩ | ⟨-, -, -, -, rfl | ⟨epoch, counter, -, rfl⟩⟩ <;>
          simp
      refine ⟨receivers, ?_, ?_⟩
      · intro entry member
        rcases List.mem_append.mp member with old | new
        · exact inv.tagged entry old
        · obtain ⟨record, isSent, rfl⟩ := List.mem_map.mp new
          exact ⟨record, rfl, by rw [onId record isSent]; exact buildsNot⟩
      · intro side record member
        rcases List.mem_append.mp member with old | new
        · exact inv.accepted side record old
        · obtain ⟨one, -, same⟩ := List.mem_map.mp new
          cases same
  | deliver side f up outcomes =>
      by_cases listens : side.listens f
      · rcases networkStep_deliver up listens with
            ⟨result, nodeAfter, events, processed, ran, did⟩
        have configured := (Side.listens_id listens).2.2
        have ofAccepted :
            result.verdict = .accept → (recordOf f).value.canId ≠ canId := by
          intro accepted
          rcases rxProcess_accept processed (inv.receivers side).bound
              configured accepted with ⟨heard⟩
          exact inv.of_verified ideal heard.verifies
        have told :
            ∀ receiver record,
              .accepted receiver record ∈ events →
                record = recordOf f ∧ result.verdict = .accept := by
          intro receiver record member
          rcases did with ⟨accepted, -, -, -, rfl⟩ | ⟨handled, -, -, rfl⟩
          · simp only [List.mem_cons, reduceCtorEq, List.not_mem_nil, or_false,
              NetEvent.accepted.injEq] at member
            exact ⟨member.2, accepted⟩
          · rcases List.mem_append.mp member with shown | handling
            · split at shown
              next accepted =>
                simp only [List.mem_cons, NetEvent.accepted.injEq,
                  List.not_mem_nil, or_false] at shown
                exact ⟨shown.2, accepted⟩
              next => cases shown
            · have none :=
                acceptedRecords_handledEvents side receiver f handled
              have some := mem_acceptedRecords.mpr handling
              rw [none] at some
              cases some
        rw [ran] at receivers ⊢
        refine ⟨receivers, inv.tagged, ?_⟩
        intro receiver record member
        rcases List.mem_append.mp member with old | new
        · exact inv.accepted receiver record old
        · obtain ⟨rfl, accepted⟩ := told receiver record new
          exact ofAccepted accepted
      · rw [networkStep_deliver_other up listens] at receivers ⊢
        exact inv.silent receivers rfl (by simp)

end UnbuiltInv

end TraveoBodyDomain
