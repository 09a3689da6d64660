import TraveoBodyDomain.Lib.Machine
import TraveoBodyDomain.Secoc.Freshness
import TraveoBodyDomain.Store.Commit

/-!
# Power loss

Runs of mounts, commits and loads in which power may fail inside any call of a
commit, any number of times.  A call that power cut off leaves each of its
words as it was, done, or torn, and after every power cycle a torn word may
read differently.  Whatever happens, the flash stands for one record, the old
or the new: what the next mount takes.
-/

namespace TraveoBodyDomain

/-- Power fails in call number `call`, which did this to its words. -/
structure PowerCut where
  call : Nat
  touched : Nat → Touch UInt32

/-- The outcomes of the calls of a commit: none fails but by the power cut. -/
def cutOutcomes : Option PowerCut → Nat → CallOutcome UInt32
  | none, _ => .success
  | some cut, call =>
      if call < cut.call then
        .success
      else if call = cut.call then
        .failure cut.touched
      else
        .failure fun _ => .kept

/-- How the torn words read after a power cycle. -/
abbrev TornReading :=
  Nat → Bool × Option UInt32

/-- The words as they read after a power cycle. -/
def rereadWords
    (reading : TornReading)
    (words : Nat → FlashWord UInt32) : Nat → FlashWord UInt32 :=
  fun addr => (words addr).reread (reading addr).1 (reading addr).2

/-- The work flash and the node's store, while the node runs. -/
structure StoreNode where
  words : Nat → FlashWord UInt32
  reprogrammed : Nat
  running : Bool
  store : SecocStore WorkFlash

/-- The node boots and mounts, commits, or loads. -/
inductive StoreAction where
  | mount (reading : TornReading)
  | commit (domain : UInt8) (epoch : UInt16) (cut : Option PowerCut)
  | load (domain : UInt8)

/-- What a run shows. -/
inductive StoreEvent where
  | mounted (status : SecocStoreStatus)
  | committed (domain : UInt8) (epoch : UInt16)
  | refused (domain : UInt8) (epoch : UInt16)
  | interrupted (domain : UInt8) (epoch : UInt16)
  | loaded (domain : UInt8) (value : Option UInt16)
  deriving Repr, DecidableEq

/-- A node that has not booted, over any flash. -/
def StoreNode.off (words : Nat → FlashWord UInt32) : StoreNode :=
  ⟨words, 0, false, .initial⟩

/-- One step.  A node that is off only boots; a power cut turns it off. -/
def storeStep (slots : WflashSlots) :
    Machine.Step StoreNode StoreAction StoreEvent
  | node, .mount reading =>
      let (store, flash) :=
        secocStoreMount slots.cfg .initial
          (healthyFlash (rereadWords reading node.words) node.reprogrammed)
      (⟨flash.words, flash.reprogrammed, true, store⟩, [.mounted store.status])
  | node, .commit domain epoch cut =>
      if node.running then
        let (succeeded, store, flash) :=
          storeCommit node.store domain epoch
            ⟨node.words, cutOutcomes cut, node.reprogrammed⟩
        match cut with
        | none =>
            (⟨flash.words, flash.reprogrammed, true, store⟩,
              [if succeeded then .committed domain epoch
                else .refused domain epoch])
        -- RAM is lost, and with it whatever the commit would have returned.
        | some _ =>
            (⟨flash.words, flash.reprogrammed, false, .initial⟩,
              [.interrupted domain epoch])
      else
        (node, [])
  | node, .load domain =>
      if node.running then
        (node, [.loaded domain (storeLoad node.store domain)])
      else
        (node, [])

/-- No torn word makes up a commit mark and a checksum that fits. -/
def NoForgery
    (slots : WflashSlots)
    (words : Nat → FlashWord UInt32) : Prop :=
  ∀ slot,
    (∃ addr ∈ slots.recordAddrs slot, (words addr).isTorn = true) →
      slotRecords (slots.state words) slot = none

instance
    (slots : WflashSlots)
    (words : Nat → FlashWord UInt32) :
    Decidable (NoForgery slots words) :=
  inferInstanceAs (Decidable (∀ _ : Fin 2, _ → _))

/-- Torn words forge nothing, and the sequence number does not wrap. -/
def StoreGuard (slots : WflashSlots) : StoreNode → StoreAction → Prop
  | node, .mount reading => NoForgery slots (rereadWords reading node.words)
  | node, .commit _ _ _ => node.store.mirror.seq ≠ 0xFFFFFFFF
  | _, .load _ => True

instance StoreGuard.decidable (slots : WflashSlots) :
    ∀ node action, Decidable (StoreGuard slots node action)
  | _, .mount _ => inferInstanceAs (Decidable (NoForgery _ _))
  | _, .commit _ _ _ => inferInstanceAs (Decidable (_ ≠ _))
  | _, .load _ => inferInstanceAs (Decidable True)

/-- Some commit has returned true. -/
def HasCommitted (history : List StoreEvent) : Prop :=
  ∃ domain epoch, .committed domain epoch ∈ history

/--
The values a mount may load for a domain: the last one committed, or one in
flight since.  Empty before the first commit of the domain returned true.
-/
def survivors (domain : UInt8) : List StoreEvent → List UInt16 :=
  List.foldl
    (fun values event =>
      match event with
      | .committed other epoch => if other = domain then [epoch] else values
      | .interrupted other epoch =>
          if other = domain ∧ values ≠ [] then values ++ [epoch] else values
      | _ => values)
    []

/-- What a mount right after an interrupted commit may leave. -/
structure CommitWasAtomic
    (hasCommitted : Prop)
    (before : SecocStore WorkFlash)
    (domain : UInt8)
    (epoch : UInt16)
    (after : SecocStore WorkFlash) : Prop where
  oldOrNew :
    hasCommitted →
      after.status = .ok ∧
        (after.mirror = before.mirror ∨
          after.mirror = before.mirror.next domain epoch)
  otherDomain :
    hasCommitted →
      ∀ other : UInt8, other.toNat < secocStoreDomains → other ≠ domain →
        after.mirror.epoch other = before.mirror.epoch other ∧
          after.mirror.written &&& domainBit other =
            before.mirror.written &&& domainBit other
  first :
    ¬ hasCommitted →
      after.status = .factory ∨ after.status = .broken ∨
        after.mirror = before.mirror.next domain epoch ∨
          (before.status = .ok ∧ after.mirror = before.mirror)

/-!
## What the flash stands for
-/

/-- The words with every torn word unreadable. -/
def settled (words : Nat → FlashWord UInt32) : Nat → FlashWord UInt32 :=
  rereadWords (fun _ => (false, none)) words

/-- The record the flash stands for, however its torn words read. -/
def WflashSlots.durable
    (slots : WflashSlots)
    (words : Nat → FlashWord UInt32) : Option StoreRecord :=
  slots.inForce (settled words)

/-- An intact word is what it is. -/
private theorem settled_of_intact
    {words : Nat → FlashWord UInt32}
    {addr : Nat}
    (intact : (words addr).isTorn = false) :
    settled words addr = words addr :=
  FlashWord.reread_of_not_torn intact ..

/-- A power cycle changes nothing that is not torn. -/
private theorem settled_reread
    (reading : TornReading)
    (words : Nat → FlashWord UInt32) :
    settled (rereadWords reading words) = settled words := by
  funext addr
  exact FlashWord.reread_reread ..

/-- A slot that holds a record has no torn word. -/
private theorem intact_of_holds
    {slots : WflashSlots}
    {words : Nat → FlashWord UInt32}
    {slot : Fin 2}
    {r : StoreRecord}
    (holds : slots.Holds words slot r)
    {addr : Nat}
    (member : addr ∈ slots.recordAddrs slot) :
    (words addr).isTorn = false := by
  have inRecord : words addr ∈ (recordWords r).map .programmed := by
    rw [← holds]
    exact List.mem_map_of_mem member
  obtain ⟨value, _, programmed⟩ := List.mem_map.mp inRecord
  rw [← programmed]
  rfl

section Settled

variable {slots : WflashSlots} {words : Nat → FlashWord UInt32}

/-- A slot with a torn word stands for no record. -/
private theorem record_of_torn
    {slot : Fin 2}
    {addr : Nat}
    (member : addr ∈ slots.recordAddrs slot)
    (torn : (words addr).isTorn = true) :
    slotRecords (slots.state (settled words)) slot = none := by
  apply WflashSlots.state_of_unreadable member
  unfold settled rereadWords
  cases content : words addr with
  | torn _ _ =>
      rfl
  | erased =>
      rw [content] at torn
      cases torn
  | programmed _ =>
      rw [content] at torn
      cases torn

/-- When nothing is forged, the records read are those the flash stands for. -/
private theorem records_settled
    (noForgery : NoForgery slots words) :
    slotRecords (slots.state words) =
      slotRecords (slots.state (settled words)) := by
  funext slot
  by_cases torn :
      ∃ addr ∈ slots.recordAddrs slot, (words addr).isTorn = true
  · obtain ⟨addr, member, isTorn⟩ := torn
    rw [noForgery slot ⟨addr, member, isTorn⟩, record_of_torn member isTorn]
  · unfold slotRecords
    rw [WflashSlots.state_congr]
    intro addr member
    symm
    apply settled_of_intact
    cases content : (words addr).isTorn with
    | false => rfl
    | true => exact absurd ⟨addr, member, content⟩ torn

/-- A mount takes the record the flash stands for. -/
theorem inForce_eq_durable
    (noForgery : NoForgery slots words) :
    slots.inForce words = slots.durable words := by
  unfold WflashSlots.durable WflashSlots.inForce
  rw [records_settled noForgery]

/-- A power cycle does not change what the flash stands for. -/
theorem durable_reread
    (reading : TornReading) :
    slots.durable (rereadWords reading words) = slots.durable words := by
  unfold WflashSlots.durable
  rw [settled_reread]

/-- The slot a mounted store writes, in terms of what the flash stands for. -/
private theorem target_settled
    (noForgery : NoForgery slots words) :
    targetSlot (slots.mounted (settled words)) =
      targetSlot (slots.mounted words) := by
  rw [WflashSlots.mounted_target, WflashSlots.mounted_target,
    records_settled noForgery]

end Settled

/-!
## What a commit makes of it
-/

section Commit

open WflashSlots

variable
  {slots : WflashSlots}
  {words : Nat → FlashWord UInt32}
  {outcomes : Nat → CallOutcome UInt32}
  {count : Nat}
  {domain : UInt8}
  {epoch : UInt16}
  {succeeded : Bool}
  {store' : SecocStore WorkFlash}
  {flash' : WorkFlash}
  (effect :
    slots.CommitEffect (slots.mounted words)
      ((slots.mounted words).mirror.next domain epoch)
      ⟨words, outcomes, count⟩ succeeded store' flash')
  (noForgery : NoForgery slots words)
include effect noForgery

/-- A commit changes what the flash stands for in its target slot only. -/
private theorem only_settled :
    slots.OnlySector (targetSlot (slots.mounted (settled words)))
      (settled words) (settled flash'.words) := by
  rw [target_settled noForgery]
  intro addr outside
  unfold settled rereadWords
  rw [effect.onlySector addr outside]

/-- A commit cut off before the mark leaves what the flash stands for. -/
private theorem durable_of_missed
    (missed :
      slots.markLanded (targetSlot (slots.mounted words)) outcomes = false) :
    slots.durable flash'.words = slots.durable words := by
  apply inForce_of_kept (only_settled effect noForgery)
  rw [target_settled noForgery]
  rcases effect.unfinished missed with ⟨-, kept⟩ |
    ⟨-, addr, member, erased⟩ | ⟨addr, member, _, _, _, _, _, _, torn⟩
  · right
    unfold slotRecords
    rw [state_congr]
    intro addr member
    unfold settled rereadWords
    rw [kept addr member]
  · left
    apply state_of_unreadable member
    unfold settled rereadWords
    rw [erased]
    rfl
  · left
    apply record_of_torn member
    rw [torn]
    rfl

section Landed

variable
  (inRange : domain.toNat < secocStoreDomains)
  (landed :
    slots.markLanded (targetSlot (slots.mounted words)) outcomes = true)
include inRange landed

omit noForgery in
/-- A landed record is the one its slot holds. -/
private theorem state_of_landed :
    slots.state flash'.words (targetSlot (slots.mounted words)) =
      .valid ((slots.mounted words).mirror.next domain epoch) := by
  apply state_of_holds (effect.landed landed)
  exact StoreRecord.next_reservedClear (mounted_reservedClear slots words)
    inRange epoch

/-- A landed record is what the flash stands for from then on. -/
private theorem durable_of_landed
    (noWrap : (slots.mounted words).mirror.seq ≠ 0xFFFFFFFF) :
    slots.durable flash'.words =
      some ((slots.mounted words).mirror.next domain epoch) := by
  have settledState :
      slots.state (settled flash'.words) (targetSlot (slots.mounted words)) =
        slots.state flash'.words (targetSlot (slots.mounted words)) := by
    apply state_congr
    intro addr member
    exact settled_of_intact (intact_of_holds (effect.landed landed) member)
  have sameMirror :
      (slots.mounted (settled words)).mirror = (slots.mounted words).mirror := by
    rw [mounted_mirror, mounted_mirror, inForce_eq_durable noForgery]
    rfl
  apply inForce_of_landed (only_settled effect noForgery)
  · rw [target_settled noForgery]
    unfold slotRecords
    rw [settledState, state_of_landed effect inRange landed]
    rfl
  · rw [sameMirror]
    exact StoreRecord.next_seq_lt noWrap domain epoch

/-- A landed record is mounted next, and nothing is forged. -/
private theorem mounted_after_landed
    (noWrap : (slots.mounted words).mirror.seq ≠ 0xFFFFFFFF) :
    slots.mounted flash'.words =
        committed (slots.mounted words)
          ((slots.mounted words).mirror.next domain epoch) ∧
      NoForgery slots flash'.words := by
  have state := state_of_landed effect inRange landed
  constructor
  · apply mounted_of_landed effect.onlySector
    · unfold slotRecords
      rw [state]
      rfl
    · exact StoreRecord.next_seq_lt noWrap domain epoch
  · rintro slot ⟨addr, member, torn⟩
    by_cases target : slot = targetSlot (slots.mounted words)
    · subst target
      rw [intact_of_holds (effect.landed landed) member] at torn
      cases torn
    · have outside :
          slots.contains (targetSlot (slots.mounted words)) addr = false := by
        cases inside :
            slots.contains (targetSlot (slots.mounted words)) addr with
        | false =>
            rfl
        | true =>
            exact absurd
              (eq_of_contains (slots.contains_recordAddr member) inside) target
      rw [effect.onlySector addr outside] at torn
      rw [effect.onlySector.record target]
      exact noForgery slot ⟨addr, member, torn⟩

end Landed

/-- Whatever becomes of a commit, the flash stands for the old or the new. -/
theorem durable_of_commit
    (inRange : domain.toNat < secocStoreDomains)
    (noWrap : (slots.mounted words).mirror.seq ≠ 0xFFFFFFFF) :
    slots.durable flash'.words = slots.durable words ∨
      slots.durable flash'.words =
        some ((slots.mounted words).mirror.next domain epoch) := by
  cases landed :
      slots.markLanded (targetSlot (slots.mounted words)) outcomes with
  | false =>
      exact Or.inl (durable_of_missed effect noForgery landed)
  | true =>
      exact Or.inr (durable_of_landed effect noForgery inRange landed noWrap)

end Commit

/-!
## Runs
-/

/-- What holds after every step of a run. -/
structure StoreInv
    (slots : WflashSlots)
    (node : StoreNode)
    (history : List StoreEvent) : Prop where
  neverReprogrammed : node.reprogrammed = 0
  mounted :
    node.running = true →
      node.store = slots.mounted node.words ∧ NoForgery slots node.words
  durable : HasCommitted history → slots.durable node.words ≠ none
  survives :
    ∀ domain, survivors domain history ≠ [] →
      domain.toNat < secocStoreDomains ∧
        ∃ epoch ∈ survivors domain history,
          (slots.durable node.words).bind (·.value domain) = some epoch

/-- How one more event changes the values that may be loaded. -/
theorem survivors_concat
    (domain : UInt8)
    (history : List StoreEvent)
    (event : StoreEvent) :
    survivors domain (history ++ [event]) =
      match event with
      | .committed other epoch =>
          if other = domain then [epoch] else survivors domain history
      | .interrupted other epoch =>
          if other = domain ∧ survivors domain history ≠ [] then
            survivors domain history ++ [epoch]
          else
            survivors domain history
      | _ => survivors domain history := by
  simp only [survivors, List.foldl_append, List.foldl_cons, List.foldl_nil]
  cases event <;> rfl

/-- Only a commit that returned true counts as one. -/
theorem hasCommitted_concat
    {history : List StoreEvent}
    {event : StoreEvent}
    (quiet : ∀ domain epoch, event ≠ .committed domain epoch)
    (committed : HasCommitted (history ++ [event])) :
    HasCommitted history := by
  obtain ⟨domain, epoch, member⟩ := committed
  rcases List.mem_append.mp member with earlier | last
  · exact ⟨domain, epoch, earlier⟩
  · exact absurd (List.mem_singleton.mp last).symm (quiet domain epoch)

section Steps

open WflashSlots

variable
  {slots : WflashSlots}
  {node : StoreNode}
  {history : List StoreEvent}

/-- A mount finds what the flash stands for. -/
theorem storeStep_mount
    (slots : WflashSlots)
    (node : StoreNode)
    (reading : TornReading) :
    storeStep slots node (.mount reading) =
      (⟨rereadWords reading node.words, node.reprogrammed, true,
          slots.mounted (rereadWords reading node.words)⟩,
        [.mounted (slots.mounted (rereadWords reading node.words)).status]) := by
  unfold storeStep
  simp only [secocStoreMount_healthy]
  rfl

/-- A commit without a power cut is refused or durable. -/
theorem storeStep_commit
    (inv : StoreInv slots node history)
    (running : node.running = true)
    {domain : UInt8}
    {epoch : UInt16}
    (noWrap : node.store.mirror.seq ≠ 0xFFFFFFFF) :
    storeStep slots node (.commit domain epoch none) =
        (node, [.refused domain epoch]) ∨
      ∃ words,
        storeStep slots node (.commit domain epoch none) =
            (⟨words, 0, true, slots.mounted words⟩,
              [.committed domain epoch]) ∧
          domain.toNat < secocStoreDomains ∧ NoForgery slots words ∧
            slots.durable words =
              some (node.store.mirror.next domain epoch) := by
  obtain ⟨isMounted, noForgery⟩ := inv.mounted running
  have fresh := inv.neverReprogrammed
  obtain ⟨words, count, isRunning, store⟩ := node
  dsimp only at isMounted noForgery running noWrap fresh
  subst isMounted running fresh
  by_cases refused :
      usable (slots.mounted words) = false ∨ secocStoreDomains ≤ domain.toNat
  · left
    simp only [storeStep, storeCommit_refused refused, if_true]
    rfl
  · right
    obtain ⟨notBroken, below⟩ := not_or.mp refused
    have inRange := Nat.lt_of_not_le below
    have effect :=
      slots.storeCommit_spec (slots.mounted_cfg words)
        (Bool.eq_true_of_not_eq_false notBroken) inRange
        (slots.mounted_reservedClear words) epoch
        ⟨words, cutOutcomes none, 0⟩
    have landed :
        slots.markLanded (targetSlot (slots.mounted words))
          (cutOutcomes none) = true :=
      rfl
    have durable := durable_of_landed effect noForgery inRange landed noWrap
    obtain ⟨remounts, stillNone⟩ :=
      mounted_after_landed effect noForgery inRange landed noWrap
    generalize committed :
      storeCommit (slots.mounted words) domain epoch
        ⟨words, cutOutcomes none, 0⟩ = result at *
    obtain ⟨succeeded, store', words', outcomes', count'⟩ := result
    have returned : succeeded = true := effect.returned
    have ram := effect.ram
    have unchanged : count' = 0 := effect.reprogrammed
    dsimp only at ram durable remounts stillNone
    subst returned unchanged
    rw [if_pos rfl, ← remounts] at ram
    subst ram
    refine ⟨words', ?_, inRange, stillNone, durable⟩
    simp only [storeStep, committed, if_true]

/-- A commit that power cut off leaves the flash with the old or the new. -/
theorem storeStep_cut
    (inv : StoreInv slots node history)
    (running : node.running = true)
    (domain : UInt8)
    (epoch : UInt16)
    (cut : PowerCut)
    (noWrap : node.store.mirror.seq ≠ 0xFFFFFFFF) :
    ∃ words,
      storeStep slots node (.commit domain epoch (some cut)) =
          (⟨words, 0, false, .initial⟩, [.interrupted domain epoch]) ∧
        (slots.durable words = slots.durable node.words ∨
          domain.toNat < secocStoreDomains ∧
            slots.durable words =
              some (node.store.mirror.next domain epoch)) := by
  obtain ⟨isMounted, noForgery⟩ := inv.mounted running
  have fresh := inv.neverReprogrammed
  obtain ⟨words, count, isRunning, store⟩ := node
  dsimp only at isMounted noForgery running noWrap fresh
  subst isMounted running fresh
  by_cases refused :
      usable (slots.mounted words) = false ∨ secocStoreDomains ≤ domain.toNat
  · refine ⟨words, ?_, Or.inl rfl⟩
    simp only [storeStep, storeCommit_refused refused, if_true]
  · obtain ⟨notBroken, below⟩ := not_or.mp refused
    have inRange := Nat.lt_of_not_le below
    have effect :=
      slots.storeCommit_spec (slots.mounted_cfg words)
        (Bool.eq_true_of_not_eq_false notBroken) inRange
        (slots.mounted_reservedClear words) epoch
        ⟨words, cutOutcomes (some cut), 0⟩
    refine
      ⟨_, ?_,
        (durable_of_commit effect noForgery inRange noWrap).imp id
          fun new => ⟨inRange, new⟩⟩
    simp only [storeStep, if_true, effect.reprogrammed]

end Steps

namespace StoreInv

variable
  {slots : WflashSlots}
  {node : StoreNode}
  {history : List StoreEvent}

/-- A node that has not booted. -/
theorem start
    (slots : WflashSlots)
    (words : Nat → FlashWord UInt32) :
    StoreInv slots (.off words) [] where
  neverReprogrammed := rfl
  mounted := nofun
  durable := by
    rintro ⟨_, _, member⟩
    cases member
  survives := fun _ nonempty => absurd rfl nonempty

/-- An event that is no commit, over a flash that stands for the same. -/
theorem quiet
    (inv : StoreInv slots node history)
    {after : StoreNode}
    {event : StoreEvent}
    (fresh : after.reprogrammed = node.reprogrammed)
    (mounted :
      after.running = true →
        after.store = slots.mounted after.words ∧ NoForgery slots after.words)
    (same : slots.durable after.words = slots.durable node.words)
    (uncommitted : ∀ domain epoch, event ≠ .committed domain epoch)
    (uninterrupted : ∀ domain epoch, event ≠ .interrupted domain epoch) :
    StoreInv slots after (history ++ [event]) := by
  have survivorsSame :
      ∀ domain, survivors domain (history ++ [event]) =
        survivors domain history := by
    intro domain
    rw [survivors_concat]
    cases event with
    | committed other epoch => exact absurd rfl (uncommitted other epoch)
    | interrupted other epoch => exact absurd rfl (uninterrupted other epoch)
    | mounted _ => rfl
    | refused _ _ => rfl
    | loaded _ _ => rfl
  refine ⟨fresh.trans inv.neverReprogrammed, mounted, ?_, ?_⟩
  · intro committed
    rw [same]
    exact inv.durable (hasCommitted_concat uncommitted committed)
  · intro domain nonempty
    rw [survivorsSame] at nonempty ⊢
    rw [same]
    exact inv.survives domain nonempty

/-- A commit that returned true. -/
theorem commit
    (inv : StoreInv slots node history)
    {words : Nat → FlashWord UInt32}
    {domain : UInt8}
    {epoch : UInt16}
    (inRange : domain.toNat < secocStoreDomains)
    (noForgery : NoForgery slots words)
    (mirror : node.store.mirror = (slots.durable node.words).getD .zero)
    (durable :
      slots.durable words = some (node.store.mirror.next domain epoch)) :
    StoreInv slots ⟨words, 0, true, slots.mounted words⟩
      (history ++ [.committed domain epoch]) where
  neverReprogrammed := rfl
  mounted := fun _ => ⟨rfl, noForgery⟩
  durable := by
    intro _
    rw [durable]
    nofun
  survives := by
    intro other nonempty
    rw [survivors_concat] at nonempty ⊢
    dsimp only at nonempty ⊢
    rw [durable, Option.bind_some]
    by_cases same : domain = other
    · subst same
      rw [if_pos rfl]
      exact
        ⟨inRange, epoch, List.mem_singleton.mpr rfl,
          StoreRecord.next_value_same _ inRange epoch⟩
    · rw [if_neg same] at nonempty ⊢
      obtain ⟨otherInRange, value, survives, loads⟩ :=
        inv.survives other nonempty
      refine ⟨otherInRange, value, survives, ?_⟩
      rw [StoreRecord.next_value_other _ inRange otherInRange (Ne.symm same),
        mirror]
      obtain ⟨r, stands, loaded⟩ := Option.bind_eq_some_iff.mp loads
      rw [stands]
      exact loaded

/-- A commit that power cut off. -/
theorem interrupt
    (inv : StoreInv slots node history)
    {words : Nat → FlashWord UInt32}
    {domain : UInt8}
    {epoch : UInt16}
    (mirror : node.store.mirror = (slots.durable node.words).getD .zero)
    (oldOrNew :
      slots.durable words = slots.durable node.words ∨
        domain.toNat < secocStoreDomains ∧
          slots.durable words =
            some (node.store.mirror.next domain epoch)) :
    StoreInv slots ⟨words, 0, false, .initial⟩
      (history ++ [.interrupted domain epoch]) where
  neverReprogrammed := rfl
  mounted := nofun
  durable := by
    intro committed
    have earlier : HasCommitted history :=
      hasCommitted_concat (by rintro _ _ ⟨⟩) committed
    have stands := inv.durable earlier
    rcases oldOrNew with old | ⟨_, new⟩
    · rw [old]
      exact stands
    · rw [new]
      nofun
  survives := by
    intro other nonempty
    rw [survivors_concat] at nonempty ⊢
    dsimp only at nonempty ⊢
    have before : survivors other history ≠ [] := by
      split at nonempty
      · rename_i condition
        exact condition.2
      · exact nonempty
    obtain ⟨otherInRange, value, survives, loads⟩ := inv.survives other before
    refine ⟨otherInRange, ?_⟩
    have grows :
        ∀ kept ∈ survivors other history,
          kept ∈
            if domain = other ∧ survivors other history ≠ [] then
              survivors other history ++ [epoch]
            else
              survivors other history := by
      intro kept member
      split
      · exact List.mem_append_left _ member
      · exact member
    rcases oldOrNew with old | ⟨inRange, new⟩
    · rw [old]
      exact ⟨value, grows value survives, loads⟩
    · rw [new, Option.bind_some]
      by_cases same : domain = other
      · subst same
        rw [if_pos ⟨rfl, before⟩]
        exact
          ⟨epoch, List.mem_append_right _ (List.mem_singleton.mpr rfl),
            StoreRecord.next_value_same _ inRange epoch⟩
      · refine ⟨value, grows value survives, ?_⟩
        rw [StoreRecord.next_value_other _ inRange otherInRange (Ne.symm same),
          mirror]
        obtain ⟨r, stands, loaded⟩ := Option.bind_eq_some_iff.mp loads
        rw [stands]
        exact loaded

/-- The mirror of a running node is the record its flash stands for. -/
theorem mirror_eq
    (inv : StoreInv slots node history)
    (running : node.running = true) :
    node.store.mirror = (slots.durable node.words).getD .zero := by
  obtain ⟨isMounted, noForgery⟩ := inv.mounted running
  rw [isMounted, WflashSlots.mounted_mirror, inForce_eq_durable noForgery]

/-- Every step keeps the invariant. -/
theorem step
    (inv : StoreInv slots node history)
    (action : StoreAction)
    (allowed : StoreGuard slots node action) :
    StoreInv slots (storeStep slots node action).1
      (history ++ (storeStep slots node action).2) := by
  cases action with
  | mount reading =>
      rw [storeStep_mount]
      exact
        inv.quiet rfl (fun _ => ⟨rfl, allowed⟩) (durable_reread reading) nofun
          nofun
  | commit domain epoch cut =>
      cases running : node.running with
      | false =>
          simpa [storeStep, running] using inv
      | true =>
          have mirror := inv.mirror_eq running
          cases cut with
          | none =>
              rcases storeStep_commit inv running allowed with
                refused | ⟨words, committed, inRange, noForgery, durable⟩
              · rw [refused]
                exact inv.quiet rfl inv.mounted rfl nofun nofun
              · rw [committed]
                exact inv.commit inRange noForgery mirror durable
          | some cut =>
              obtain ⟨words, interrupted, oldOrNew⟩ :=
                storeStep_cut inv running domain epoch cut allowed
              rw [interrupted]
              exact inv.interrupt mirror oldOrNew
  | load domain =>
      cases running : node.running with
      | false =>
          simpa [storeStep, running] using inv
      | true =>
          simp only [storeStep, running, if_true]
          exact inv.quiet rfl inv.mounted rfl nofun nofun

/-- A running node loads a value that may have survived. -/
theorem loads
    (inv : StoreInv slots node history)
    (running : node.running = true)
    {domain : UInt8}
    (nonempty : survivors domain history ≠ []) :
    ∃ epoch ∈ survivors domain history,
      storeLoad node.store domain = some epoch := by
  obtain ⟨isMounted, noForgery⟩ := inv.mounted running
  obtain ⟨inRange, epoch, survives, loaded⟩ := inv.survives domain nonempty
  refine ⟨epoch, survives, ?_⟩
  rw [isMounted, WflashSlots.storeLoad_mounted,
    if_neg (Nat.not_le.mpr inRange), inForce_eq_durable noForgery]
  exact loaded

/-- Once a commit returned true a running node has mounted a record. -/
theorem status_ok
    (inv : StoreInv slots node history)
    (running : node.running = true)
    (committed : HasCommitted history) :
    node.store.status = .ok := by
  obtain ⟨isMounted, noForgery⟩ := inv.mounted running
  have stands := inv.durable committed
  rw [← inForce_eq_durable noForgery] at stands
  obtain ⟨r, current⟩ := Option.ne_none_iff_exists'.mp stands
  rw [isMounted]
  exact (WflashSlots.mounted_of_inForce current).1

/-- A mount right after an interrupted commit finds the old or the new. -/
theorem commitWasAtomic
    (inv : StoreInv slots node history)
    (running : node.running = true)
    {domain : UInt8}
    {epoch : UInt16}
    {cut : PowerCut}
    {reading : TornReading}
    (allowed :
      Machine.Allowed (storeStep slots) (StoreGuard slots) node
        [.commit domain epoch (some cut), .mount reading]) :
    CommitWasAtomic (HasCommitted history) node.store domain epoch
      (Machine.final (storeStep slots) node
        [.commit domain epoch (some cut), .mount reading]).store := by
  obtain ⟨noWrap, noForgery, -⟩ := allowed
  obtain ⟨isMounted, wasUnforged⟩ := inv.mounted running
  obtain ⟨words, interrupted, oldOrNew⟩ :=
    storeStep_cut inv running domain epoch cut noWrap
  have wasInForce := inForce_eq_durable wasUnforged
  rw [interrupted] at noForgery
  have inForce :
      slots.inForce (rereadWords reading words) = slots.durable words := by
    rw [inForce_eq_durable noForgery, durable_reread]
  simp only [Machine.final_cons, Machine.final_nil, interrupted,
    storeStep_mount]
  have found :
      ∀ r, slots.durable words = some r →
        (slots.mounted (rereadWords reading words)).status = .ok ∧
          (slots.mounted (rereadWords reading words)).mirror = r := by
    intro r stands
    exact WflashSlots.mounted_of_inForce (inForce.trans stands)
  have wasFound :
      ∀ r, slots.durable node.words = some r →
        node.store.status = .ok ∧ node.store.mirror = r := by
    intro r stands
    rw [isMounted]
    exact WflashSlots.mounted_of_inForce (wasInForce.trans stands)
  have oldOrNewMirror :
      HasCommitted history →
        (slots.mounted (rereadWords reading words)).status = .ok ∧
          ((slots.mounted (rereadWords reading words)).mirror =
              node.store.mirror ∨
            domain.toNat < secocStoreDomains ∧
              (slots.mounted (rereadWords reading words)).mirror =
                node.store.mirror.next domain epoch) := by
    intro committed
    obtain ⟨r, stood⟩ := Option.ne_none_iff_exists'.mp (inv.durable committed)
    rcases oldOrNew with old | ⟨inRange, new⟩
    · obtain ⟨status, mirror⟩ := found r (old.trans stood)
      exact ⟨status, Or.inl (mirror.trans (wasFound r stood).2.symm)⟩
    · obtain ⟨status, mirror⟩ := found _ new
      exact ⟨status, Or.inr ⟨inRange, mirror⟩⟩
  refine ⟨?_, ?_, ?_⟩
  · intro committed
    obtain ⟨status, mirror⟩ := oldOrNewMirror committed
    exact ⟨status, mirror.imp id And.right⟩
  · intro committed other otherInRange different
    rcases (oldOrNewMirror committed).2 with old | ⟨inRange, new⟩
    · rw [old]
      exact ⟨rfl, rfl⟩
    · rw [new]
      exact
        ⟨StoreRecord.next_epoch_other _ inRange otherInRange different epoch,
          StoreRecord.next_written_other _ inRange otherInRange different
            epoch⟩
  · intro _
    cases stands : slots.durable words with
    | none =>
        rcases slots.mounted_cases (rereadWords reading words) with
          ⟨_, _, _, current, _⟩ | ⟨_, status, notOk, mounts⟩
        · rw [inForce, stands] at current
          cases current
        · rw [mounts]
          cases status with
          | ok => exact absurd rfl notOk
          | factory => exact Or.inl rfl
          | broken => exact Or.inr (Or.inl rfl)
    | some r =>
        obtain ⟨_, mirror⟩ := found r stands
        right; right
        rcases oldOrNew with old | ⟨_, new⟩
        · obtain ⟨wasOk, wasMirror⟩ := wasFound r (old.symm.trans stands)
          exact Or.inr ⟨wasOk, mirror.trans wasMirror.symm⟩
        · left
          rw [stands] at new
          rw [mirror]
          exact Option.some.inj new

end StoreInv

/-!
## The durable map behind the freshness port
-/

/-- The flash stands for the durable map that the nodes keep epochs in. -/
def StandsFor
    (slots : WflashSlots)
    (words : Nat → FlashWord UInt32)
    (map : FreshnessStore) : Prop :=
  ∀ domain, domain.toNat < secocStoreDomains →
    map.slot domain = (slots.durable words).bind (·.value domain)

section Refinement

variable
  {slots : WflashSlots}
  {node : StoreNode}
  {history : List StoreEvent}
  {map : FreshnessStore}
  {domain : UInt8}

/-- A running node loads what the durable map holds. -/
theorem load_refines
    (inv : StoreInv slots node history)
    (running : node.running = true)
    (stands : StandsFor slots node.words map)
    (inRange : domain.toNat < secocStoreDomains) :
    storeLoad node.store domain = durablePort.load map domain := by
  obtain ⟨isMounted, noForgery⟩ := inv.mounted running
  rw [isMounted, WflashSlots.storeLoad_mounted,
    if_neg (Nat.not_le.mpr inRange), inForce_eq_durable noForgery,
    durablePort_load, stands domain inRange]

/-- The next record stands for the map with the domain updated. -/
private theorem standsFor_next
    {words : Nat → FlashWord UInt32}
    (mirror : node.store.mirror = (slots.durable node.words).getD .zero)
    (stands : StandsFor slots node.words map)
    (inRange : domain.toNat < secocStoreDomains)
    {epoch : UInt16}
    (durable :
      slots.durable words = some (node.store.mirror.next domain epoch))
    {after : FreshnessStore}
    (updated : after.slot = Function.update map.slot domain (some epoch)) :
    StandsFor slots words after := by
  intro other otherInRange
  rw [updated, durable, Option.bind_some]
  by_cases same : other = domain
  · rw [same, Function.update_self, StoreRecord.next_value_same _ inRange]
  · rw [Function.update_of_ne same, stands other otherInRange,
      StoreRecord.next_value_other _ inRange otherInRange same, mirror]
    cases slots.durable node.words with
    | none => simp [StoreRecord.value, StoreRecord.zero]
    | some r => rfl

/--
A commit on the flash is a commit of the durable map: acknowledged when it
returns true, failed with the old or the new value when power cuts it off.
-/
theorem commit_refines
    (inv : StoreInv slots node history)
    (running : node.running = true)
    (stands : StandsFor slots node.words map)
    (inRange : domain.toNat < secocStoreDomains)
    (epoch : UInt16)
    (cut : Option PowerCut)
    (noWrap : node.store.mirror.seq ≠ 0xFFFFFFFF) :
    ∃ outcome,
      StandsFor slots
          (storeStep slots node (.commit domain epoch cut)).1.words
          ((map.arm [outcome]).commit domain epoch).2 ∧
        ((storeStep slots node (.commit domain epoch cut)).2 =
            [.committed domain epoch] ↔
          outcome = .acknowledged) := by
  have mirror := inv.mirror_eq running
  cases cut with
  | none =>
      rcases storeStep_commit inv running noWrap with
        refused | ⟨words, committed, _, _, durable⟩
      · rw [refused]
        exact ⟨.failedOld, stands, by simp⟩
      · rw [committed]
        exact
          ⟨.acknowledged, standsFor_next mirror stands inRange durable rfl,
            by simp⟩
  | some cut =>
      obtain ⟨words, interrupted, oldOrNew⟩ :=
        storeStep_cut inv running domain epoch cut noWrap
      rw [interrupted]
      rcases oldOrNew with old | ⟨_, new⟩
      · refine ⟨.failedOld, ?_, by simp⟩
        intro other otherInRange
        rw [old]
        exact stands other otherInRange
      · exact
          ⟨.failedNew, standsFor_next mirror stands inRange new rfl, by simp⟩

end Refinement

/-- What holds of a node after any run. -/
structure SurvivesPowerLoss
    (slots : WflashSlots)
    (node : StoreNode)
    (history : List StoreEvent) : Prop where
  loads :
    node.running = true →
      ∀ domain, survivors domain history ≠ [] →
        ∃ epoch ∈ survivors domain history,
          storeLoad node.store domain = some epoch
  atomic :
    node.running = true →
      ∀ domain epoch cut reading,
        Machine.Allowed (storeStep slots) (StoreGuard slots) node
            [.commit domain epoch (some cut), .mount reading] →
          CommitWasAtomic (HasCommitted history) node.store domain epoch
            (Machine.final (storeStep slots) node
              [.commit domain epoch (some cut), .mount reading]).store
  neverBroken :
    node.running = true → HasCommitted history → node.store.status = .ok
  neverReprogrammed : node.reprogrammed = 0

/-- The store over any run of mounts, commits, loads and power cuts. -/
theorem store_survives_power_loss
    (slots : WflashSlots)
    (words : Nat → FlashWord UInt32)
    (actions : List StoreAction)
    (allowed :
      Machine.Allowed (storeStep slots) (StoreGuard slots) (.off words)
        actions) :
    SurvivesPowerLoss slots
      (Machine.final (storeStep slots) (.off words) actions)
      (Machine.trace (storeStep slots) (.off words) actions) := by
  have inv :
      StoreInv slots
        (Machine.final (storeStep slots) (.off words) actions)
        (Machine.trace (storeStep slots) (.off words) actions) :=
    Machine.invariant_of_start
      (fun _ _ action inv guard => inv.step action guard)
      (StoreInv.start slots words) allowed
  refine ⟨?_, ?_, ?_, inv.neverReprogrammed⟩
  · intro running domain nonempty
    exact inv.loads running nonempty
  · intro running domain epoch cut reading guarded
    exact inv.commitWasAtomic running guarded
  · intro running committed
    exact inv.status_ok running committed

/-- Power fails in the mark write of the third commit, which tears the mark. -/
def tornMarkRun : List StoreAction :=
  [.mount fun _ => (false, none), .commit 0 7 none, .commit 1 9 none,
    .commit 0 8 (some ⟨2, fun _ => .torn true (some 0)⟩),
    .mount fun _ => (false, some 0), .load 0]

/-- Such a run on Node A. -/
theorem store_survives_torn_mark :
    SurvivesPowerLoss nodeASlots
      (Machine.final (storeStep nodeASlots) (.off blankWords) tornMarkRun)
      (Machine.trace (storeStep nodeASlots) (.off blankWords) tornMarkRun) :=
  store_survives_power_loss nodeASlots blankWords tornMarkRun
    (by decide +kernel)

/-- The first commit ever is cut off after its last call. -/
def firstCommitCutRun : List StoreAction :=
  [.mount fun _ => (false, none),
    .commit 0 7 (some ⟨5, fun _ => .kept⟩),
    .mount fun _ => (false, none)]

/--
Before any commit returned true, a mount after an interrupted commit may find
the record of an earlier interrupted commit.
-/
theorem mount_finds_earlier_interrupted_commit :
    ¬ ∀ slots words actions,
        Machine.Allowed (storeStep slots) (StoreGuard slots) (.off words)
            actions →
          ¬ HasCommitted
              (Machine.trace (storeStep slots) (.off words) actions) →
            ∀ domain epoch cut reading,
              Machine.Allowed (storeStep slots) (StoreGuard slots)
                  (Machine.final (storeStep slots) (.off words) actions)
                  [.commit domain epoch (some cut), .mount reading] →
                (Machine.final (storeStep slots)
                      (Machine.final (storeStep slots) (.off words) actions)
                      [.commit domain epoch (some cut),
                        .mount reading]).store.status = .factory ∨
                  (Machine.final (storeStep slots)
                      (Machine.final (storeStep slots) (.off words) actions)
                      [.commit domain epoch (some cut),
                        .mount reading]).store.status = .broken ∨
                  (Machine.final (storeStep slots)
                      (Machine.final (storeStep slots) (.off words) actions)
                      [.commit domain epoch (some cut),
                        .mount reading]).store.mirror =
                    (Machine.final (storeStep slots) (.off words)
                      actions).store.mirror.next domain epoch := by
  intro claimed
  have shown :
      Machine.trace (storeStep nodeASlots) (.off blankWords)
          firstCommitCutRun =
        [.mounted .factory, .interrupted 0 7, .mounted .ok] := by
    decide +kernel
  have uncommitted :
      ¬ HasCommitted
          (Machine.trace (storeStep nodeASlots) (.off blankWords)
            firstCommitCutRun) := by
    rintro ⟨domain, epoch, member⟩
    rw [shown] at member
    simp at member
  have found :=
    claimed nodeASlots blankWords firstCommitCutRun (by decide +kernel)
      uncommitted 0 8 ⟨0, fun _ => .kept⟩ (fun _ => (false, none))
      (by decide +kernel)
  revert found
  decide +kernel

end TraveoBodyDomain
