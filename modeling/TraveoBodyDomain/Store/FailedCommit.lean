import TraveoBodyDomain.Lib.Machine
import TraveoBodyDomain.Store.Commit

/-!
# A commit that returns false

Every call of the HAL may report a failure, with or without effect on each of
its words.  A failed commit leaves the RAM state alone.  What the next mount
loads it may change in two ways.  The commit mark may be on the flash although
its call, or one behind it, reported a failure: then the next mount takes the
new record.  And the slot that was erased may have held a newer record than
RAM, left there by such a commit or missed by a mount whose reads failed: then
the next mount falls back on the record in RAM.
-/

namespace TraveoBodyDomain

/--
The return codes of the calls to come: success, or a failure that still took
effect on the words named.
-/
abbrev FaultPattern :=
  Nat → Option (Nat → Bool)

/-- The outcomes of a fault pattern. -/
def faultOutcomes (faults : FaultPattern) : Nat → CallOutcome UInt32 :=
  fun call =>
    match faults call with
    | none => .success
    | some took => .failure fun addr => if took addr then .done else .kept

/-- The store in RAM, and the work flash behind it. -/
structure MountedStore where
  store : SecocStore WorkFlash
  words : Nat → FlashWord UInt32
  reprogrammed : Nat

/-- A call of the store, with what becomes of its calls of the HAL. -/
inductive StoreCall where
  | mount (outcomes : Nat → CallOutcome UInt32)
  | commit
      (domain : UInt8)
      (epoch : UInt16)
      (outcomes : Nat → CallOutcome UInt32)

/-- One call; a commit shows what it returned. -/
def storeCallStep (slots : WflashSlots) :
    Machine.Step MountedStore StoreCall Bool
  | node, .mount outcomes =>
      let (store, flash) :=
        secocStoreMount slots.cfg node.store
          ⟨node.words, outcomes, node.reprogrammed⟩
      (⟨store, flash.words, flash.reprogrammed⟩, [])
  | node, .commit domain epoch outcomes =>
      let (succeeded, store, flash) :=
        storeCommit node.store domain epoch
          ⟨node.words, outcomes, node.reprogrammed⟩
      (⟨store, flash.words, flash.reprogrammed⟩, [succeeded])

namespace MountedStore

/-- A store that was never mounted, over any work flash. -/
def fresh (words : Nat → FlashWord UInt32) : MountedStore :=
  ⟨.initial, words, 0⟩

/-- What a domain loads behind a mount without failures. -/
def reloads
    (node : MountedStore)
    (slots : WflashSlots)
    (domain : UInt8) : Option UInt16 :=
  storeLoad
    (secocStoreMount slots.cfg node.store
      (healthyFlash node.words node.reprogrammed)).1
    domain

/-- A mount without failures would load what RAM does. -/
def RamCurrent (node : MountedStore) (slots : WflashSlots) : Prop :=
  ∀ domain, node.reloads slots domain = storeLoad node.store domain

/-- It would load what RAM does behind a commit of this epoch. -/
def FlashAhead
    (node : MountedStore)
    (slots : WflashSlots)
    (domain : UInt8)
    (epoch : UInt16) : Prop :=
  ∀ other : UInt8,
    other.toNat < secocStoreDomains →
      node.reloads slots other =
        if other = domain then some epoch else storeLoad node.store other

end MountedStore

/-- RAM is as before, and so is what the next mount without failures loads. -/
structure NothingChanged
    (slots : WflashSlots)
    (before after : MountedStore) : Prop where
  mirror : after.store.mirror = before.store.mirror
  newest : after.store.newest = before.store.newest
  status : after.store.status = before.store.status
  reloads : ∀ domain, after.reloads slots domain = before.reloads slots domain

/--
The commit is refused, or every call succeeds, or the erase fails without
effect on the record, or the record that is left to the next mount, the one in
RAM or the one written, loads as what is on the flash now.
-/
def FailsCleanly
    (slots : WflashSlots)
    (node : MountedStore)
    (domain : UInt8)
    (epoch : UInt16)
    (faults : FaultPattern) : Prop :=
  usable node.store = false ∨ secocStoreDomains ≤ domain.toNat ∨
    WflashSlots.allSucceed (faultOutcomes faults) = true ∨
      slots.EraseMissed (targetSlot node.store) (faultOutcomes faults) ∨
        if slots.markLanded (targetSlot node.store) (faultOutcomes faults) ∧
            node.store.mirror.seq ≠ 0xFFFFFFFF then
          node.FlashAhead slots domain epoch
        else
          node.RamCurrent slots

/-- A fault pattern tears no word. -/
theorem faultOutcomes_ne_torn
    {faults : FaultPattern}
    {call addr : Nat}
    {touched : Nat → Touch UInt32}
    {blank : Bool}
    {reads : Option UInt32}
    (failed : faultOutcomes faults call = .failure touched) :
    touched addr ≠ .torn blank reads := by
  unfold faultOutcomes at failed
  cases pattern : faults call with
  | none =>
      rw [pattern] at failed
      cases failed
  | some took =>
      rw [pattern] at failed
      cases failed
      dsimp only
      split <;> nofun

/-!
## RAM and the slot that is not written
-/

/-- The slot that no commit writes. -/
def keptSlot (store : SecocStore WorkFlash) : Fin 2 :=
  store.newest.getD 1

/-- The record RAM stands for. -/
def SecocStore.known (store : SecocStore WorkFlash) : Option StoreRecord :=
  store.newest.map fun _ => store.mirror

/-- The other slot is written. -/
theorem targetSlot_eq
    (store : SecocStore WorkFlash) :
    targetSlot store = TwoSlot.target (some (keptSlot store)) := by
  unfold targetSlot keptSlot
  cases store.newest with
  | none => rfl
  | some slot => rfl

/-- The slot that is kept is the other one of the slot written. -/
theorem target_targetSlot
    (store : SecocStore WorkFlash) :
    TwoSlot.target (some (targetSlot store)) = keptSlot store := by
  rw [targetSlot_eq, TwoSlot.target_target]

/-- The slot that is kept is not the slot written. -/
theorem keptSlot_ne
    (store : SecocStore WorkFlash) :
    keptSlot store ≠ targetSlot store := by
  rw [targetSlot_eq]
  exact TwoSlot.ne_target _

/-- The slot that is not written holds what RAM stands for. -/
structure StoreTracks
    (slots : WflashSlots)
    (node : MountedStore) : Prop where
  configured : node.store.cfg = some slots.config
  clear : node.store.mirror.ReservedClear
  kept :
    slotRecords (slots.state node.words) (keptSlot node.store) =
      node.store.known
  zero : node.store.newest = none → node.store.mirror = .zero

/-- A slot is read as what it holds, or a call fails. -/
theorem readSlot_cases
    (slots : WflashSlots)
    (slot : Fin 2)
    (flash : WorkFlash) :
    ∃ state left,
      readSlot slots.config (slots.slotAddr slot) flash = (state, left) ∧
        left.words = flash.words ∧
          (state = .torn ∨ state = slots.state flash.words slot) := by
  rw [readSlot_spec]
  cases flash.outcomes 0 with
  | failure touched =>
      exact ⟨_, _, rfl, rfl, Or.inl rfl⟩
  | success =>
      by_cases blank :
          (flash.words (slots.slotAddr slot + markOffset)).looksBlank = true
      · refine ⟨_, _, if_pos blank, rfl, Or.inr ?_⟩
        unfold WflashSlots.state
        rw [if_pos blank]
      · simp only [if_neg blank]
        cases flash.outcomes 1 with
        | failure touched =>
            exact ⟨_, _, rfl, rfl, Or.inl rfl⟩
        | success =>
            exact ⟨_, _, rfl, rfl, Or.inr rfl⟩

/-- A mount takes each slot as what it holds, or as torn. -/
theorem secocStoreMount_cases
    (slots : WflashSlots)
    (store : SecocStore WorkFlash)
    (flash : WorkFlash) :
    ∃ st left,
      secocStoreMount slots.cfg store flash =
          (mountSlots slots.config st, left) ∧
        left.words = flash.words ∧
          ∀ slot, st slot = .torn ∨ st slot = slots.state flash.words slot := by
  obtain ⟨first, middle, readFirst, sameMiddle, isFirst⟩ :=
    readSlot_cases slots 0 flash
  obtain ⟨second, left, readSecond, sameLeft, isSecond⟩ :=
    readSlot_cases slots 1 middle
  refine
    ⟨fun slot => if slot = 0 then first else second, left, ?_,
      sameLeft.trans sameMiddle, ?_⟩
  · unfold secocStoreMount
    rw [slots.cfgOk_cfg]
    change
      readSlot slots.config (slots.config.slotAddr 0) flash = _ at readFirst
    change
      readSlot slots.config (slots.config.slotAddr 1) middle = _ at readSecond
    simp only [readFirst, readSecond]
  · intro slot
    rw [sameMiddle] at isSecond
    fin_cases slot
    · exact isFirst
    · exact isSecond

/-- Behind a mount RAM stands for the slot it took. -/
theorem StoreTracks.mount
    {slots : WflashSlots}
    {words : Nat → FlashWord UInt32}
    {st : Fin 2 → SlotState}
    (read : ∀ slot, st slot = .torn ∨ st slot = slots.state words slot)
    (isUsable : usable (mountSlots slots.config st) = true)
    (count : Nat) :
    StoreTracks slots ⟨mountSlots slots.config st, words, count⟩ := by
  cases current : newestSlot st with
  | some slot =>
      have newest := current
      rw [newestSlot_eq] at newest
      obtain ⟨r, holds, _⟩ := TwoSlot.newest_some newest
      have valid : st slot = .valid r := valid_of_record holds
      have onFlash : slots.state words slot = .valid r := by
        rcases read slot with torn | same
        · rw [valid] at torn
          cases torn
        · rw [← same, valid]
      rw [mountSlots_of_newest slots.config current valid]
      exact
        { configured := rfl
          clear := slots.reservedClear_of_valid onFlash
          kept := congrArg SlotState.record onFlash
          zero := nofun }
  | none =>
      rw [mountSlots_of_none slots.config current] at isUsable ⊢
      have blank : st 0 = .empty ∧ st 1 = .empty := by
        by_contra notBlank
        rw [if_neg notBlank] at isUsable
        cases isUsable
      have onFlash : slots.state words 1 = .empty := by
        rcases read 1 with torn | same
        · rw [blank.2] at torn
          cases torn
        · rw [← same, blank.2]
      have clear : StoreRecord.zero.ReservedClear := by decide
      exact
        { configured := rfl
          clear := clear
          kept := congrArg SlotState.record onFlash
          zero := fun _ => rfl }

/-- A commit all of whose calls succeed lands its mark. -/
theorem WflashSlots.markLanded_of_allSucceed
    {outcomes : Nat → CallOutcome UInt32}
    (all : allSucceed outcomes = true)
    (slots : WflashSlots)
    (target : Fin 2) :
    slots.markLanded target outcomes = true := by
  simp only [allSucceed, Bool.and_eq_true] at all
  obtain ⟨⟨⟨⟨first, second⟩, third⟩, _⟩, _⟩ := all
  unfold markLanded
  rw [first, second]
  cases outcome : outcomes 2 with
  | success =>
      rfl
  | failure touched =>
      rw [outcome] at third
      cases third

section Commit

open WflashSlots

variable
  {slots : WflashSlots}
  {node : MountedStore}
  {domain : UInt8}
  {epoch : UInt16}

/-- What the record written says is the new epoch, and else what RAM loads. -/
theorem MountedStore.next_value
    (isUsable : usable node.store = true)
    (inRange : domain.toNat < secocStoreDomains)
    {other : UInt8}
    (otherInRange : other.toNat < secocStoreDomains) :
    (node.store.mirror.next domain epoch).value other =
      if other = domain then some epoch else storeLoad node.store other := by
  by_cases same : other = domain
  · rw [if_pos same, same]
    exact StoreRecord.next_value_same _ inRange epoch
  · rw [if_neg same,
      StoreRecord.next_value_other _ inRange otherInRange same]
    simp [storeLoad, isUsable, otherInRange]

/-- What a mount without failures loads, by the record in force. -/
theorem MountedStore.reloads_eq
    (node : MountedStore)
    (slots : WflashSlots)
    (domain : UInt8) :
    node.reloads slots domain =
      if secocStoreDomains ≤ domain.toNat then
        none
      else
        (slots.inForce node.words).bind (·.value domain) := by
  unfold reloads
  rw [secocStoreMount_healthy, storeLoad_mounted]

/-- What RAM loads, by the record it stands for. -/
theorem StoreTracks.storeLoad_eq
    (tracks : StoreTracks slots node)
    (isUsable : usable node.store = true)
    (domain : UInt8) :
    storeLoad node.store domain =
      if secocStoreDomains ≤ domain.toNat then
        none
      else
        node.store.known.bind (·.value domain) := by
  unfold storeLoad SecocStore.known
  simp only [isUsable, Bool.true_eq_false, false_or]
  split
  · rfl
  · cases newest : node.store.newest with
    | some slot =>
        rfl
    | none =>
        rw [tracks.zero newest]
        simp [StoreRecord.value, StoreRecord.zero]

section Effect

variable
  {outcomes : Nat → CallOutcome UInt32}
  {succeeded : Bool}
  {store' : SecocStore WorkFlash}
  {flash' : WorkFlash}
  (effect :
    slots.CommitEffect node.store (node.store.mirror.next domain epoch)
      ⟨node.words, outcomes, node.reprogrammed⟩ succeeded store' flash')

include effect

/-- The slot that is not written keeps its record. -/
theorem record_of_kept :
    slotRecords (slots.state flash'.words) (keptSlot node.store) =
      slotRecords (slots.state node.words) (keptSlot node.store) :=
  effect.onlySector.record (keptSlot_ne node.store)

/-- An erase that misses the record leaves every record. -/
theorem inForce_of_eraseMissed
    (notLanded : slots.markLanded (targetSlot node.store) outcomes = false)
    (noTear :
      ∀ {call addr touched blank reads},
        outcomes call = .failure touched → touched addr ≠ .torn blank reads)
    (missed : slots.EraseMissed (targetSlot node.store) outcomes) :
    slots.inForce flash'.words = slots.inForce node.words := by
  have target := ((effect.unfinished notLanded).record noTear).1 missed
  have same :
      slotRecords (slots.state flash'.words) =
        slotRecords (slots.state node.words) := by
    funext slot
    by_cases isTarget : slot = targetSlot node.store
    · rw [isTarget, target]
    · exact effect.onlySector.record isTarget
  unfold inForce
  rw [same]

variable
  (tracks : StoreTracks slots node)
  (inRange : domain.toNat < secocStoreDomains)

include tracks

/-- An erased slot leaves the record RAM stands for. -/
theorem StoreTracks.inForce_of_erased
    (notLanded : slots.markLanded (targetSlot node.store) outcomes = false)
    (noTear :
      ∀ {call addr touched blank reads},
        outcomes call = .failure touched → touched addr ≠ .torn blank reads)
    (reached : ¬ slots.EraseMissed (targetSlot node.store) outcomes) :
    slots.inForce flash'.words = node.store.known := by
  have empty := ((effect.unfinished notLanded).record noTear).2 reached
  unfold inForce
  rw [TwoSlot.inForce_of_empty empty, target_targetSlot,
    record_of_kept effect, tracks.kept]

include inRange

/-- A record that landed is the one the target holds. -/
theorem StoreTracks.record_of_landed
    (landed : slots.markLanded (targetSlot node.store) outcomes = true) :
    slotRecords (slots.state flash'.words) (targetSlot node.store) =
      some (node.store.mirror.next domain epoch) := by
  have clear := StoreRecord.next_reservedClear tracks.clear inRange epoch
  unfold slotRecords
  rw [state_of_holds (effect.landed landed) clear]
  rfl

/-- A record that landed is in force, short of the wrap. -/
theorem StoreTracks.inForce_of_landed
    (landed : slots.markLanded (targetSlot node.store) outcomes = true)
    (noWrap : node.store.mirror.seq ≠ 0xFFFFFFFF) :
    slots.inForce flash'.words =
      some (node.store.mirror.next domain epoch) := by
  have written := tracks.record_of_landed effect inRange landed
  have other := (record_of_kept effect).trans tracks.kept
  rw [targetSlot_eq] at written
  unfold inForce
  cases newest : node.store.newest with
  | none =>
      rw [SecocStore.known, newest] at other
      rw [TwoSlot.inForce_of_empty other, written]
  | some slot =>
      rw [SecocStore.known, newest] at other
      exact
        TwoSlot.inForce_of_higher other written
          (StoreRecord.next_seq_lt noWrap domain epoch)

/-- At the wrap the record RAM stands for stays in force. -/
theorem StoreTracks.inForce_of_wrapped
    (landed : slots.markLanded (targetSlot node.store) outcomes = true)
    (full : node.store.mirror.seq = 0xFFFFFFFF) :
    slots.inForce flash'.words = node.store.known := by
  have written := tracks.record_of_landed effect inRange landed
  have other := (record_of_kept effect).trans tracks.kept
  cases newest : node.store.newest with
  | none =>
      rw [tracks.zero newest] at full
      cases full
  | some slot =>
      rw [SecocStore.known, newest] at other ⊢
      rw [← target_targetSlot] at other
      have wrapped : (node.store.mirror.next domain epoch).seq = 0 := by
        rw [StoreRecord.next_seq, full]
        rfl
      refine TwoSlot.inForce_of_higher written other ?_
      unfold recordRank
      rw [wrapped, full]
      decide

/-- A commit keeps RAM and the flash together. -/
theorem StoreTracks.commit :
    StoreTracks slots ⟨store', flash'.words, flash'.reprogrammed⟩ := by
  have ram := effect.ram
  cases succeeded with
  | false =>
      have same : store' = node.store := ram
      subst same
      exact
        { configured := tracks.configured
          clear := tracks.clear
          kept := (record_of_kept effect).trans tracks.kept
          zero := tracks.zero }
  | true =>
      have landed :=
        markLanded_of_allSucceed effect.returned.symm slots
          (targetSlot node.store)
      have written := tracks.record_of_landed effect inRange landed
      have same :
          store' = committed node.store (node.store.mirror.next domain epoch) :=
        ram
      subst same
      exact
        { configured := tracks.configured
          clear := StoreRecord.next_reservedClear tracks.clear inRange epoch
          kept := written
          zero := nofun }

end Effect

end Commit

/-!
## Every state reached
-/

/-- Every call keeps a usable store and its flash together. -/
theorem storeCallStep_tracks
    (slots : WflashSlots)
    {node : MountedStore}
    (tracks : usable node.store = true → StoreTracks slots node)
    (call : StoreCall)
    (isUsable : usable (storeCallStep slots node call).1.store = true) :
    StoreTracks slots (storeCallStep slots node call).1 := by
  cases call with
  | mount outcomes =>
      obtain ⟨st, left, mounts, sameWords, read⟩ :=
        secocStoreMount_cases slots node.store
          ⟨node.words, outcomes, node.reprogrammed⟩
      simp only [storeCallStep, mounts] at isUsable ⊢
      rw [sameWords]
      exact .mount read isUsable left.reprogrammed
  | commit domain epoch outcomes =>
      by_cases refused :
          usable node.store = false ∨ secocStoreDomains ≤ domain.toNat
      · simp only [storeCallStep, WflashSlots.storeCommit_refused refused]
          at isUsable ⊢
        exact tracks isUsable
      · obtain ⟨notBroken, below⟩ := not_or.mp refused
        have wasUsable : usable node.store = true :=
          Bool.eq_true_of_not_eq_false notBroken
        have inRange : domain.toNat < secocStoreDomains := Nat.lt_of_not_le below
        have together := tracks wasUsable
        exact
          together.commit
            (slots.storeCommit_spec together.configured wasUsable inRange
              together.clear epoch ⟨node.words, outcomes, node.reprogrammed⟩)
            inRange

/-- Whatever fails, a usable store and its flash are together. -/
theorem storeCalls_track
    (slots : WflashSlots)
    (words : Nat → FlashWord UInt32)
    (calls : List StoreCall) :
    let node := Machine.final (storeCallStep slots) (.fresh words) calls
    usable node.store = true → StoreTracks slots node := by
  refine
    @Machine.invariant_of_start _ _ _ (storeCallStep slots) (fun _ _ => True)
      (fun node _ => usable node.store = true → StoreTracks slots node)
      (fun _ _ call tracks _ => storeCallStep_tracks slots tracks call) _ _ ?_
      (Machine.allowed_of_forall (fun _ _ => trivial) _ _)
  intro isUsable
  cases isUsable

/-- An erase that failed lets no mark land. -/
theorem WflashSlots.EraseMissed.not_landed
    {slots : WflashSlots}
    {target : Fin 2}
    {outcomes : Nat → CallOutcome UInt32}
    (missed : slots.EraseMissed target outcomes) :
    slots.markLanded target outcomes = false := by
  obtain ⟨touched, failed, _⟩ := missed
  simp [markLanded, failed, CallOutcome.succeeds]

/-- A mount without failures would load what this record says. -/
def MountedStore.LoadsAs
    (node : MountedStore)
    (slots : WflashSlots)
    (r : Option StoreRecord) : Prop :=
  ∀ domain : UInt8,
    domain.toNat < secocStoreDomains →
      node.reloads slots domain = r.bind (·.value domain)

section Failed

variable
  {slots : WflashSlots}
  {node : MountedStore}
  {domain : UInt8}
  {epoch : UInt16}

/-- It loads what the record in force says. -/
theorem MountedStore.loadsAs_inForce
    (node : MountedStore)
    (slots : WflashSlots) :
    node.LoadsAs slots (slots.inForce node.words) := by
  intro domain inRange
  rw [node.reloads_eq, if_neg (Nat.not_le.mpr inRange)]

/-- RAM is current when a mount would load the record RAM stands for. -/
theorem StoreTracks.ramCurrent_iff
    (tracks : StoreTracks slots node)
    (isUsable : usable node.store = true) :
    node.RamCurrent slots ↔ node.LoadsAs slots node.store.known := by
  constructor
  · intro current other inRange
    rw [current other, tracks.storeLoad_eq isUsable,
      if_neg (Nat.not_le.mpr inRange)]
  · intro loads other
    rw [tracks.storeLoad_eq isUsable]
    split
    · rw [node.reloads_eq, if_pos ‹_›]
    · exact loads other (Nat.lt_of_not_le ‹_›)

/-- The flash is ahead when a mount would load the record to be written. -/
theorem MountedStore.flashAhead_iff
    (isUsable : usable node.store = true)
    (inRange : domain.toNat < secocStoreDomains) :
    node.FlashAhead slots domain epoch ↔
      node.LoadsAs slots (some (node.store.mirror.next domain epoch)) := by
  refine forall_congr' fun other => imp_congr_right fun otherInRange => ?_
  rw [Option.bind_some, MountedStore.next_value isUsable inRange otherInRange]

/-- RAM as before, nothing changed if a mount would have loaded the record left. -/
theorem nothingChanged_iff
    (words : Nat → FlashWord UInt32)
    (count : Nat) :
    NothingChanged slots node ⟨node.store, words, count⟩ ↔
      node.LoadsAs slots (slots.inForce words) := by
  have left :=
    MountedStore.loadsAs_inForce ⟨node.store, words, count⟩ slots
  constructor
  · intro unchanged other inRange
    rw [← unchanged.reloads other, left other inRange]
  · intro loads
    refine ⟨rfl, rfl, rfl, fun other => ?_⟩
    by_cases inRange : other.toNat < secocStoreDomains
    · rw [left other inRange, loads other inRange]
    · have outOfRange := Nat.le_of_not_lt inRange
      rw [MountedStore.reloads_eq, MountedStore.reloads_eq, if_pos outOfRange,
        if_pos outOfRange]

/-- A commit that is not refused, and one of whose calls fails. -/
private theorem nothingChanged_of_effect
    {faults : FaultPattern}
    {succeeded : Bool}
    {store' : SecocStore WorkFlash}
    {flash' : WorkFlash}
    (tracks : StoreTracks slots node)
    (isUsable : usable node.store = true)
    (inRange : domain.toNat < secocStoreDomains)
    (effect :
      slots.CommitEffect node.store (node.store.mirror.next domain epoch)
        ⟨node.words, faultOutcomes faults, node.reprogrammed⟩ succeeded store'
        flash')
    (failed : succeeded = false) :
    NothingChanged slots node ⟨store', flash'.words, flash'.reprogrammed⟩ ↔
      FailsCleanly slots node domain epoch faults := by
  subst failed
  have ram : store' = node.store := effect.ram
  subst ram
  have notAll : WflashSlots.allSucceed (faultOutcomes faults) = false :=
    effect.returned.symm
  rw [nothingChanged_iff]
  unfold FailsCleanly
  simp only [isUsable, Nat.not_le.mpr inRange, notAll, Bool.true_eq_false,
    Bool.false_eq_true, false_or]
  by_cases missed :
      slots.EraseMissed (targetSlot node.store) (faultOutcomes faults)
  · have same :=
      inForce_of_eraseMissed effect missed.not_landed faultOutcomes_ne_torn
        missed
    rw [same]
    exact iff_of_true (node.loadsAs_inForce slots) (Or.inl missed)
  rw [or_iff_right missed]
  cases landed :
      slots.markLanded (targetSlot node.store) (faultOutcomes faults) with
  | false =>
      rw [if_neg (fun both => Bool.false_ne_true both.1),
        tracks.ramCurrent_iff isUsable,
        tracks.inForce_of_erased effect landed faultOutcomes_ne_torn missed]
  | true =>
      by_cases full : node.store.mirror.seq = 0xFFFFFFFF
      · rw [if_neg (fun both => both.2 full), tracks.ramCurrent_iff isUsable,
          tracks.inForce_of_wrapped effect inRange landed full]
      · rw [if_pos ⟨rfl, full⟩, MountedStore.flashAhead_iff isUsable inRange,
          tracks.inForce_of_landed effect inRange landed full]

end Failed

/--
Whatever was mounted and committed before, and whatever failed: a commit that
returns false leaves RAM alone, and leaves what the next mount loads alone,
exactly if it fails cleanly.
-/
theorem failed_commit_changes_nothing
    (slots : WflashSlots)
    (words : Nat → FlashWord UInt32)
    (calls : List StoreCall)
    (domain : UInt8)
    (epoch : UInt16)
    (faults : FaultPattern) :
    let node := Machine.final (storeCallStep slots) (.fresh words) calls
    let result :=
      storeCommit node.store domain epoch
        ⟨node.words, faultOutcomes faults, node.reprogrammed⟩
    (result.1 = false →
        NothingChanged slots node
          ⟨result.2.1, result.2.2.words, result.2.2.reprogrammed⟩) ↔
      FailsCleanly slots node domain epoch faults := by
  intro node result
  have together := storeCalls_track slots words calls
  change usable node.store = true → StoreTracks slots node at together
  by_cases refused :
      usable node.store = false ∨ secocStoreDomains ≤ domain.toNat
  · have same :
        result =
          (false, node.store,
            ⟨node.words, faultOutcomes faults, node.reprogrammed⟩) :=
      WflashSlots.storeCommit_refused refused epoch _
    have clean : FailsCleanly slots node domain epoch faults := by
      rcases refused with broken | outOfRange
      · exact Or.inl broken
      · exact Or.inr (Or.inl outOfRange)
    rw [same]
    exact iff_of_true (fun _ => ⟨rfl, rfl, rfl, fun _ => rfl⟩) clean
  · obtain ⟨notBroken, below⟩ := not_or.mp refused
    have isUsable : usable node.store = true :=
      Bool.eq_true_of_not_eq_false notBroken
    have inRange : domain.toNat < secocStoreDomains := Nat.lt_of_not_le below
    have tracks := together isUsable
    have effect :=
      slots.storeCommit_spec tracks.configured isUsable inRange tracks.clear
        epoch ⟨node.words, faultOutcomes faults, node.reprogrammed⟩
    cases succeeded : result.1 with
    | false =>
        exact
          (forall_prop_of_true rfl).trans
            (nothingChanged_of_effect tracks isUsable inRange effect succeeded)
    | true =>
        have all : WflashSlots.allSucceed (faultOutcomes faults) = true := by
          rw [← succeeded]
          exact effect.returned.symm
        exact iff_of_true nofun (Or.inr (Or.inr (Or.inl all)))

/-- The mark write reports a failure, but the mark is on the flash. -/
def markLandsUnreported : FaultPattern :=
  fun call => if call = 2 then some fun _ => true else none

/-- The mark is left alone. -/
def markFails : FaultPattern :=
  fun call => if call = 2 then some fun _ => false else none

/-- The first commit fails there, and the next mount loads its epoch. -/
theorem failed_commit_is_loaded_by_next_mount :
    let mounts := [StoreCall.mount fun _ => .success]
    let node :=
      Machine.final (storeCallStep nodeASlots) (.fresh blankWords) mounts
    let result :=
      storeCommit node.store 0 7
        ⟨node.words, faultOutcomes markLandsUnreported, node.reprogrammed⟩
    ¬ (result.1 = false →
        NothingChanged nodeASlots node
          ⟨result.2.1, result.2.2.words, result.2.2.reprogrammed⟩) := by
  intro mounts node result claimed
  have failed : result.1 = false := by
    decide +kernel
  have reloads := (claimed failed).reloads 0
  revert reloads
  decide +kernel

-- A second commit, whose mark write fails without effect, loses that epoch again.
example :
    let calls :=
      [StoreCall.mount fun _ => .success,
        .commit 0 7 (faultOutcomes markLandsUnreported)]
    let node :=
      Machine.final (storeCallStep nodeASlots) (.fresh blankWords) calls
    let result :=
      storeCommit node.store 1 9
        ⟨node.words, faultOutcomes markFails, node.reprogrammed⟩
    node.reloads nodeASlots 0 = some 7 ∧
      MountedStore.reloads
          ⟨result.2.1, result.2.2.words, result.2.2.reprogrammed⟩ nodeASlots 0 =
        none := by
  decide +kernel

end TraveoBodyDomain
