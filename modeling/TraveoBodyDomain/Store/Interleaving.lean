import TraveoBodyDomain.Lib.Machine
import TraveoBodyDomain.Store.Commit

/-!
# Commits of two tasks

On the gateway the App task and the CAN task both commit, and each may lose the
processor at every `hal_flash` call of `store_commit` and before its assignment
to `s_store`.  Here a commit advances one such call at a time.  A commit that is
not preempted computes `storeCommit`.  Serialised commits keep every epoch in
RAM and in the flash; two commits in flight together work on one copy of the
mirror and on one slot, and each can lose the other's epoch.
-/

namespace TraveoBodyDomain

/-- The two tasks of a node that commit. -/
inductive StoreTask where
  | app
  | can
  deriving Repr, DecidableEq

/-- Where a call of `store_commit` is: what it does next. -/
inductive CommitPoint where
  | eraseSector
  | writeBody
  | writeMark
  | blankCheck
  | readChecked
  | updateRam
  deriving Repr, DecidableEq

/-- A call in progress: its arguments, its locals and where it is. -/
structure CommitCall (Device : Type) where
  domain : UInt8
  epoch : UInt16
  flash : StoreConfig Device
  next : StoreRecord
  target : Fin 2
  point : CommitPoint

/-- `s_store`, the flash and the calls in progress. -/
structure StoreTasks (Device : Type) where
  store : SecocStore Device
  device : Device
  call : StoreTask → Option (CommitCall Device)

/-- A task calls `commit`, or the call it is in goes on. -/
inductive CommitAction where
  | enter (task : StoreTask) (domain : UInt8) (epoch : UInt16)
  | advance (task : StoreTask)
  deriving Repr, DecidableEq

/-- What a call of `commit` returned. -/
structure CommitReturn where
  task : StoreTask
  domain : UInt8
  epoch : UInt16
  succeeded : Bool
  deriving Repr, DecidableEq

section Source

variable {Device : Type}

/-- The call refuses before it touches the flash. -/
def commitRefused (store : SecocStore Device) (domain : UInt8) : Prop :=
  usable store = false ∨ secocStoreDomains ≤ domain.toNat

instance commitRefused.decidable
    (store : SecocStore Device)
    (domain : UInt8) :
    Decidable (commitRefused store domain) :=
  inferInstanceAs (Decidable (_ ∨ _))

/-- One call of the flash, or the final assignment, of a commit in progress. -/
def advanceCommit
    (tasks : StoreTasks Device)
    (task : StoreTask)
    (call : CommitCall Device) :
    StoreTasks Device × List CommitReturn :=
  let addr := call.flash.slotAddr call.target
  let buf := encode call.next
  let goto (device : Device) (point : CommitPoint) :
      StoreTasks Device × List CommitReturn :=
    (⟨tasks.store, device,
      Function.update tasks.call task (some { call with point := point })⟩, [])
  let leave (store : SecocStore Device) (device : Device) (succeeded : Bool) :
      StoreTasks Device × List CommitReturn :=
    (⟨store, device, Function.update tasks.call task none⟩,
      [⟨task, call.domain, call.epoch, succeeded⟩])
  match call.point with
  | .eraseSector =>
      let (erased, device) := call.flash.eraseSector addr tasks.device
      if erased ≠ 0 then
        leave tasks.store device false
      else
        goto device .writeBody
  | .writeBody =>
      let (body, device) :=
        call.flash.write addr (buf.take bodyLen) tasks.device
      if body ≠ 0 then
        leave tasks.store device false
      else
        goto device .writeMark
  | .writeMark =>
      let (mark, device) :=
        call.flash.write (addr + markOffset) (buf.drop markOffset) tasks.device
      if mark ≠ 0 then
        leave tasks.store device false
      else
        goto device .blankCheck
  | .blankCheck =>
      let (blank, device) :=
        call.flash.blankCheck (addr + markOffset) markLen tasks.device
      -- Blank or unknown: `read_slot` does not say SLOT_VALID.
      if blank ≠ 0 then
        leave tasks.store device false
      else
        goto device .readChecked
  | .readChecked =>
      let ((rc, bytes), device) :=
        call.flash.readChecked addr secocStoreRecordLen tasks.device
      if rc < 0 ∨ classifyRecord bytes ≠ .valid call.next then
        leave tasks.store device false
      else
        goto device .updateRam
  | .updateRam =>
      leave
        { tasks.store with
          status := .ok
          newest := some call.target
          mirror := call.next }
        tasks.device true

/-- The locals of a commit, computed from `s_store` before its first call. -/
def beginCommit
    (store : SecocStore Device)
    (flash : StoreConfig Device)
    (domain : UInt8)
    (epoch : UInt16) :
    CommitCall Device where
  domain := domain
  epoch := epoch
  flash := flash
  next := store.mirror.next domain epoch
  target := targetSlot store
  point := .eraseSector

/-- One step of the two tasks; it shows what `commit` returns. -/
def commitStep :
    Machine.Step (StoreTasks Device) CommitAction CommitReturn
  | tasks, .enter task domain epoch =>
      match tasks.call task, tasks.store.cfg with
      | some _, _ => (tasks, [])
      | none, none => (tasks, [⟨task, domain, epoch, false⟩])
      | none, some flash =>
          if commitRefused tasks.store domain then
            (tasks, [⟨task, domain, epoch, false⟩])
          else
            ({ tasks with
              call :=
                Function.update tasks.call task
                  (some (beginCommit tasks.store flash domain epoch)) }, [])
  | tasks, .advance task =>
      match tasks.call task with
      | none => (tasks, [])
      | some call => advanceCommit tasks task call

end Source

/-!
## Without a preemption the steps compute `storeCommit`
-/

section Unpreempted

variable
  {Device : Type}
  {store : SecocStore Device}
  {flash : StoreConfig Device}
  {call : StoreTask → Option (CommitCall Device)}
  {task : StoreTask}
  {domain : UInt8}
  {epoch : UInt16}

/-- The tasks while the commit of `task` is at `point`. -/
private def atPoint
    (store : SecocStore Device)
    (flash : StoreConfig Device)
    (call : StoreTask → Option (CommitCall Device))
    (task : StoreTask)
    (domain : UInt8)
    (epoch : UInt16)
    (point : CommitPoint)
    (device : Device) : StoreTasks Device :=
  ⟨store, device,
    Function.update call task
      (some { beginCommit store flash domain epoch with point := point })⟩

/-- The next move of that commit is its own. -/
private theorem advance_atPoint
    (point : CommitPoint)
    (device : Device) :
    commitStep (atPoint store flash call task domain epoch point device)
        (.advance task) =
      advanceCommit (atPoint store flash call task domain epoch point device)
        task { beginCommit store flash domain epoch with point := point } := by
  simp only [commitStep, atPoint, Function.update_self]

/-- Left to itself, the commit at `point` returns `result`. -/
private def CommitReturns
    (store : SecocStore Device)
    (flash : StoreConfig Device)
    (call : StoreTask → Option (CommitCall Device))
    (task : StoreTask)
    (domain : UInt8)
    (epoch : UInt16)
    (point : CommitPoint)
    (device : Device)
    (result : Bool × SecocStore Device × Device) : Prop :=
  ∃ steps,
    Machine.Leads commitStep
      (atPoint store flash call task domain epoch point device)
      (List.replicate steps (.advance task))
      ⟨result.2.1, result.2.2, call⟩ [⟨task, domain, epoch, result.1⟩]

/-- A move that leaves the commit. -/
private theorem CommitReturns.leaves
    {point : CommitPoint}
    {device deviceAfter : Device}
    {storeAfter : SecocStore Device}
    {succeeded : Bool}
    (idle : call task = none)
    (moves :
      advanceCommit (atPoint store flash call task domain epoch point device)
          task { beginCommit store flash domain epoch with point := point } =
        (⟨storeAfter, deviceAfter,
            Function.update
              (atPoint store flash call task domain epoch point device).call
              task none⟩,
          [⟨task, domain, epoch, succeeded⟩])) :
    CommitReturns store flash call task domain epoch point device
      (succeeded, storeAfter, deviceAfter) := by
  have idleAgain :
      Function.update
          (atPoint store flash call task domain epoch point device).call
          task none =
        call := by
    rw [atPoint, Function.update_idem, ← idle]
    exact Function.update_eq_self task call
  rw [idleAgain] at moves
  exact ⟨1, .cons ((advance_atPoint point device).trans moves) (.nil _ _)⟩

/-- A move that goes on to the next point. -/
private theorem CommitReturns.goesOn
    {point next : CommitPoint}
    {device deviceNext : Device}
    {result : Bool × SecocStore Device × Device}
    (moves :
      advanceCommit (atPoint store flash call task domain epoch point device)
          task { beginCommit store flash domain epoch with point := point } =
        (atPoint store flash call task domain epoch next deviceNext, []))
    (rest :
      CommitReturns store flash call task domain epoch next deviceNext
        result) :
    CommitReturns store flash call task domain epoch point device result := by
  obtain ⟨steps, leads⟩ := rest
  exact
    ⟨steps + 1, .cons ((advance_atPoint point device).trans moves) leads⟩

/-- The read-back and what follows it. -/
private theorem commitReturns_blankCheck
    (idle : call task = none)
    (device : Device) :
    CommitReturns store flash call task domain epoch .blankCheck device
      (let (same, deviceAfter) :=
        readsBack flash (flash.slotAddr (targetSlot store))
          (store.mirror.next domain epoch) device
      if same = false then
        (false, store, deviceAfter)
      else
        (true,
          { store with
            status := .ok
            newest := some (targetSlot store)
            mirror := store.mirror.next domain epoch },
          deviceAfter)) := by
  rcases check :
      flash.blankCheck (flash.slotAddr (targetSlot store) + markOffset)
        markLen device with
    ⟨blank, deviceChecked⟩
  by_cases notBlank : blank = 0
  swap
  · -- Empty or unknown: `readSlot` returns no record.
    have notSame :
        readsBack flash (flash.slotAddr (targetSlot store))
            (store.mirror.next domain epoch) device =
          (false, deviceChecked) := by
      by_cases isBlank : blank = 1 <;>
        simp [readsBack, readSlot, check, isBlank, notBlank]
    rw [notSame]
    refine .leaves idle ?_
    simp [advanceCommit, atPoint, beginCommit, check, notBlank]
  rcases read :
      flash.readChecked (flash.slotAddr (targetSlot store))
        secocStoreRecordLen deviceChecked with
    ⟨⟨rc, bytes⟩, deviceRead⟩
  have checks :
      advanceCommit
          (atPoint store flash call task domain epoch .blankCheck device) task
          { beginCommit store flash domain epoch with point := .blankCheck } =
        (atPoint store flash call task domain epoch .readChecked deviceChecked,
          []) := by
    simp [advanceCommit, atPoint, beginCommit, check, notBlank]
  refine .goesOn checks ?_
  by_cases readsOther :
      rc < 0 ∨ classifyRecord bytes ≠ .valid (store.mirror.next domain epoch)
  · have notSame :
        readsBack flash (flash.slotAddr (targetSlot store))
            (store.mirror.next domain epoch) device =
          (false, deviceRead) := by
      by_cases unreadable : rc < 0
      · simp [readsBack, readSlot, check, notBlank, read, unreadable]
      · have other := readsOther.resolve_left unreadable
        simp [readsBack, readSlot, check, notBlank, read, unreadable, other]
    rw [notSame]
    refine .leaves idle ?_
    simp [advanceCommit, atPoint, beginCommit, read, readsOther]
  · obtain ⟨readable, same⟩ := not_or.mp readsOther
    have readSame :
        readsBack flash (flash.slotAddr (targetSlot store))
            (store.mirror.next domain epoch) device =
          (true, deviceRead) := by
      simp [readsBack, readSlot, check, notBlank, read, readable,
        not_not.mp same]
    have reads :
        advanceCommit
            (atPoint store flash call task domain epoch .readChecked
              deviceChecked) task
            { beginCommit store flash domain epoch with
              point := .readChecked } =
          (atPoint store flash call task domain epoch .updateRam deviceRead,
            []) := by
      simp [advanceCommit, atPoint, beginCommit, read, readsOther]
    rw [readSame]
    refine .goesOn reads (.leaves idle ?_)
    simp [advanceCommit, atPoint, beginCommit]

/-- A commit that is accepted returns what `storeCommit` returns. -/
private theorem commitReturns_storeCommit
    (idle : call task = none)
    (configured : store.cfg = some flash)
    (accepted : ¬ commitRefused store domain)
    (device : Device) :
    CommitReturns store flash call task domain epoch .eraseSector device
      (storeCommit store domain epoch device) := by
  unfold commitRefused at accepted
  -- One write after the other: it fails and the commit returns, or it goes on.
  rcases erase :
      flash.eraseSector (flash.slotAddr (targetSlot store)) device with
    ⟨erased, device1⟩
  by_cases eraseOk : erased = 0
  swap
  · have failed :
        storeCommit store domain epoch device = (false, store, device1) := by
      simp [storeCommit, configured, accepted, erase, eraseOk]
    rw [failed]
    refine .leaves idle ?_
    simp [advanceCommit, atPoint, beginCommit, erase, eraseOk]
  rcases write :
      flash.write (flash.slotAddr (targetSlot store))
        ((encode (store.mirror.next domain epoch)).take bodyLen) device1 with
    ⟨body, device2⟩
  have erases :
      advanceCommit
          (atPoint store flash call task domain epoch .eraseSector device) task
          { beginCommit store flash domain epoch with point := .eraseSector } =
        (atPoint store flash call task domain epoch .writeBody device1, []) := by
    simp [advanceCommit, atPoint, beginCommit, erase, eraseOk]
  refine .goesOn erases ?_
  by_cases bodyOk : body = 0
  swap
  · have failed :
        storeCommit store domain epoch device = (false, store, device2) := by
      simp [storeCommit, configured, accepted, erase, eraseOk, write, bodyOk]
    rw [failed]
    refine .leaves idle ?_
    simp [advanceCommit, atPoint, beginCommit, write, bodyOk]
  rcases writeMark :
      flash.write (flash.slotAddr (targetSlot store) + markOffset)
        ((encode (store.mirror.next domain epoch)).drop markOffset) device2 with
    ⟨mark, device3⟩
  have writes :
      advanceCommit
          (atPoint store flash call task domain epoch .writeBody device1) task
          { beginCommit store flash domain epoch with point := .writeBody } =
        (atPoint store flash call task domain epoch .writeMark device2, []) := by
    simp [advanceCommit, atPoint, beginCommit, write, bodyOk]
  refine .goesOn writes ?_
  by_cases markOk : mark = 0
  swap
  · have failed :
        storeCommit store domain epoch device = (false, store, device3) := by
      simp [storeCommit, configured, accepted, erase, eraseOk, write, bodyOk,
        writeMark, markOk]
    rw [failed]
    refine .leaves idle ?_
    simp [advanceCommit, atPoint, beginCommit, writeMark, markOk]
  have marks :
      advanceCommit
          (atPoint store flash call task domain epoch .writeMark device2) task
          { beginCommit store flash domain epoch with point := .writeMark } =
        (atPoint store flash call task domain epoch .blankCheck device3,
          []) := by
    simp [advanceCommit, atPoint, beginCommit, writeMark, markOk]
  have result :
      storeCommit store domain epoch device =
        let (same, deviceAfter) :=
          readsBack flash (flash.slotAddr (targetSlot store))
            (store.mirror.next domain epoch) device3
        if same = false then
          (false, store, deviceAfter)
        else
          (true,
            { store with
              status := .ok
              newest := some (targetSlot store)
              mirror := store.mirror.next domain epoch },
            deviceAfter) := by
    simp [storeCommit, configured, accepted, erase, eraseOk, write, bodyOk,
      writeMark, markOk]
  rw [result]
  exact .goesOn marks (commitReturns_blankCheck idle device3)

/--
A commit that is not preempted returns what `storeCommit` returns and leaves
the same store and the same flash.
-/
theorem storeCommit_unpreempted
    (store : SecocStore Device)
    (device : Device)
    (idle : call task = none)
    (domain : UInt8)
    (epoch : UInt16) :
    ∃ steps,
      Machine.Leads commitStep ⟨store, device, call⟩
        (.enter task domain epoch :: List.replicate steps (.advance task))
        ⟨(storeCommit store domain epoch device).2.1,
          (storeCommit store domain epoch device).2.2, call⟩
        [⟨task, domain, epoch, (storeCommit store domain epoch device).1⟩] := by
  cases configured : store.cfg with
  | none =>
      refine ⟨0, ?_⟩
      simp [Machine.Leads, commitStep, storeCommit, idle, configured]
  | some flash =>
      by_cases refused : commitRefused store domain
      · refine ⟨0, ?_⟩
        have refusedToo := refused
        unfold commitRefused at refusedToo
        simp [Machine.Leads, commitStep, storeCommit, idle, configured, refused,
          refusedToo]
      · have enters :
            commitStep ⟨store, device, call⟩ (.enter task domain epoch) =
              (atPoint store flash call task domain epoch .eraseSector device,
                []) := by
          simp only [commitStep, idle, configured, refused, if_false]
          rfl
        obtain ⟨steps, leads⟩ :=
          @commitReturns_storeCommit _ _ _ _ _ _ epoch idle configured refused
            device
        exact ⟨steps, .cons enters leads⟩

end Unpreempted

/-!
## Serialised commits
-/

/-- No task is in a commit. -/
def StoreTasks.idle {Device : Type} (tasks : StoreTasks Device) : Bool :=
  (tasks.call .app).isNone && (tasks.call .can).isNone

/--
A commit that is not refused begins while no commit is in progress, and its
record's sequence number does not wrap.
-/
def SerialisedCommit {Device : Type} :
    StoreTasks Device → CommitAction → Prop
  | tasks, .enter _ domain _ =>
      commitRefused tasks.store domain ∨
        (tasks.idle = true ∧ tasks.store.mirror.seq ≠ 0xFFFFFFFF)
  | _, .advance _ => True

instance SerialisedCommit.decidable {Device : Type} :
    ∀ (tasks : StoreTasks Device) action,
      Decidable (SerialisedCommit tasks action)
  | _, .enter _ _ _ => inferInstanceAs (Decidable (_ ∨ _))
  | _, .advance _ => inferInstanceAs (Decidable True)

/-- The epoch of the last commit of the domain that returned true. -/
def committedEpoch
    (returns : List CommitReturn)
    (domain : UInt8) : Option UInt16 :=
  (returns.reverse.find? fun one => one.domain = domain && one.succeeded).map
    CommitReturn.epoch

/--
RAM holds every committed epoch, and between commits so does what the next
mount finds.
-/
def KeepsCommits
    (slots : WflashSlots)
    (tasks : StoreTasks WorkFlash)
    (returns : List CommitReturn) : Prop :=
  ∀ domain epoch,
    committedEpoch returns domain = some epoch →
      storeLoad tasks.store domain = some epoch ∧
        (tasks.idle = true →
          ∀ before,
            storeLoad (secocStoreMount slots.cfg before tasks.device).1 domain =
              some epoch)

/-- A commit that returned false commits no epoch. -/
theorem committedEpoch_failed
    (returns : List CommitReturn)
    (task : StoreTask)
    (domain other : UInt8)
    (epoch : UInt16) :
    committedEpoch (returns ++ [⟨task, domain, epoch, false⟩]) other =
      committedEpoch returns other := by
  simp [committedEpoch]

/-- A commit that returned true commits the epoch of its domain only. -/
theorem committedEpoch_succeeded
    (returns : List CommitReturn)
    (task : StoreTask)
    (domain other : UInt8)
    (epoch : UInt16) :
    committedEpoch (returns ++ [⟨task, domain, epoch, true⟩]) other =
      if domain = other then some epoch else committedEpoch returns other := by
  by_cases same : domain = other <;> simp [committedEpoch, same]

namespace WflashSlots

variable (slots : WflashSlots)

/-- The words while a commit of `next` over `words` is at `point`. -/
def wordsAt
    (words : Nat → FlashWord UInt32)
    (target : Fin 2)
    (next : StoreRecord) : CommitPoint → Nat → FlashWord UInt32
  | .eraseSector => words
  | .writeBody => slots.erasedWords target words
  | .writeMark => slots.bodyWords target next words
  | .blankCheck => slots.markedWords target next words
  | .readChecked => slots.markedWords target next words
  | .updateRam => slots.markedWords target next words

/-- The only commit in progress, over flash that held `words` at its start. -/
structure InProgress
    (words now : Nat → FlashWord UInt32)
    (call : CommitCall WorkFlash) : Prop where
  flash : call.flash = slots.config
  inRange : call.domain.toNat < secocStoreDomains
  next : call.next = (slots.mounted words).mirror.next call.domain call.epoch
  target : call.target = targetSlot (slots.mounted words)
  noWrap : (slots.mounted words).mirror.seq ≠ 0xFFFFFFFF
  reached : now = slots.wordsAt words call.target call.next call.point

/-- Between the commits the store is what a mount of the flash finds. -/
structure SerialInv
    (words now : Nat → FlashWord UInt32)
    (count : Nat)
    (tasks : StoreTasks WorkFlash)
    (returns : List CommitReturn) : Prop where
  ram : tasks.store = slots.mounted words
  device : tasks.device = healthyFlash now count
  held :
    ∀ domain epoch,
      committedEpoch returns domain = some epoch →
        storeLoad (slots.mounted words) domain = some epoch
  calls :
    (tasks.call = (fun _ => none) ∧ now = words) ∨
      ∃ task call,
        tasks.call = Function.update (fun _ => none) task (some call) ∧
          slots.InProgress words now call

section Progress

variable {slots}
  {words now : Nat → FlashWord UInt32}
  {call : CommitCall WorkFlash}

/-- A record that was written is read as five values, which make it up. -/
private theorem read_marked
    (target : Fin 2)
    {next : StoreRecord}
    (clear : next.ReservedClear)
    (words : Nat → FlashWord UInt32) :
    (slots.markedWords target next words
        (slots.slotAddr target + markOffset)).looksBlank = false ∧
      ∃ values,
        (slots.recordAddrs target).mapM
            (fun addr => (slots.markedWords target next words addr).read) =
          some values ∧
        classifyRecord (values.flatMap putU32) = .valid next := by
  have valid :=
    state_of_holds (slots.markedWords_holds target next words) clear
  unfold state at valid
  split at valid
  · cases valid
  · rename_i marked
    refine ⟨by simpa using marked, ?_⟩
    split at valid
    · cases valid
    · rename_i values reads
      exact ⟨values, reads, valid⟩

/-- The commit in progress makes its next call, and that succeeds. -/
theorem InProgress.goesOn
    (progress : slots.InProgress words now call)
    (notLast : call.point ≠ .updateRam)
    (store : SecocStore WorkFlash)
    (count : Nat)
    (calls : StoreTask → Option (CommitCall WorkFlash))
    (task : StoreTask) :
    ∃ point after,
      slots.InProgress words after { call with point := point } ∧
        advanceCommit ⟨store, healthyFlash now count, calls⟩ task call =
          (⟨store, healthyFlash after count,
            Function.update calls task
              (some { call with point := point })⟩, []) := by
  obtain ⟨flash, inRange, isNext, isTarget, noWrap, reached⟩ := progress
  rcases call with ⟨domain, epoch, f, next, target, point⟩
  dsimp only at flash inRange isNext isTarget reached notLast
  subst flash reached
  have clear : next.ReservedClear := by
    rw [isNext]
    exact
      StoreRecord.next_reservedClear (slots.mounted_reservedClear words) inRange
        epoch
  have moved :
      ∀ point,
        slots.InProgress words (slots.wordsAt words target next point)
          ⟨domain, epoch, slots.config, next, target, point⟩ :=
    fun _ => ⟨rfl, inRange, isNext, isTarget, noWrap, rfl⟩
  cases point with
  | eraseSector =>
      refine ⟨.writeBody, _, moved .writeBody, ?_⟩
      have erased :=
        slots.eraseSector_spec target (healthyFlash words count)
      simp only [healthyFlash, WordFlash.spend] at erased
      simp [advanceCommit, config, wordsAt, healthyFlash, erased]
  | writeBody =>
      refine ⟨.writeMark, _, moved .writeMark, ?_⟩
      have body :=
        @WflashSlots.writeBody_spec slots target next
          (healthyFlash (slots.erasedWords target words) count) words rfl
      simp only [healthyFlash, WordFlash.spend] at body
      simp [advanceCommit, config, wordsAt, healthyFlash, body]
  | writeMark =>
      refine ⟨.blankCheck, _, moved .blankCheck, ?_⟩
      have mark :=
        @WflashSlots.writeMark_spec slots target next
          (healthyFlash (slots.bodyWords target next words) count) words rfl
      simp only [healthyFlash, WordFlash.spend] at mark
      simp [advanceCommit, config, wordsAt, healthyFlash, mark]
  | blankCheck =>
      refine ⟨.readChecked, _, moved .readChecked, ?_⟩
      have check :=
        blankCheck_mark slots target
          (healthyFlash (slots.markedWords target next words) count)
      obtain ⟨marked, -⟩ := slots.read_marked target clear words
      simp only [healthyFlash, WordFlash.spend, marked] at check
      simp [advanceCommit, config, wordsAt, healthyFlash, check]
  | readChecked =>
      refine ⟨.updateRam, _, moved .updateRam, ?_⟩
      have read :=
        readChecked_record slots target
          (healthyFlash (slots.markedWords target next words) count)
      obtain ⟨-, values, reads, classified⟩ :=
        slots.read_marked target clear words
      simp only [healthyFlash, WordFlash.spend, reads] at read
      simp [advanceCommit, config, wordsAt, healthyFlash, read, classified]
  | updateRam =>
      exact absurd rfl notLast

/-- Once its record is written the commit is what the next mount finds. -/
theorem InProgress.landed
    (progress : slots.InProgress words now call)
    (last : call.point = .updateRam) :
    slots.mounted now = committed (slots.mounted words) call.next ∧
      slots.inForce now = some call.next := by
  obtain ⟨-, inRange, isNext, isTarget, noWrap, reached⟩ := progress
  have marked :
      now = slots.markedWords (targetSlot (slots.mounted words)) call.next
        words := by
    rw [reached, last, isTarget]
    rfl
  have only :
      slots.OnlySector (targetSlot (slots.mounted words)) words now := by
    rw [marked]
    exact slots.markedWords_onlySector _ _ _
  have clear : call.next.ReservedClear := by
    rw [isNext]
    exact
      StoreRecord.next_reservedClear (slots.mounted_reservedClear words) inRange
        call.epoch
  have holds :
      slotRecords (slots.state now) (targetSlot (slots.mounted words)) =
        some call.next := by
    unfold slotRecords
    rw [marked, state_of_holds (slots.markedWords_holds _ _ _) clear]
    rfl
  have newer :
      (slots.mounted words).mirror.seq.toNat < call.next.seq.toNat := by
    rw [isNext]
    exact StoreRecord.next_seq_lt noWrap call.domain call.epoch
  exact ⟨mounted_of_landed only holds newer, inForce_of_landed only holds newer⟩

/-- What a load returns is stored in the mirror. -/
theorem value_of_storeLoad
    {store : SecocStore WorkFlash}
    {domain : UInt8}
    {epoch : UInt16}
    (loads : storeLoad store domain = some epoch) :
    domain.toNat < secocStoreDomains ∧
      store.mirror.value domain = some epoch := by
  unfold storeLoad at loads
  split at loads
  · cases loads
  · rename_i accepted
    exact ⟨Nat.lt_of_not_le (not_or.mp accepted).2, loads⟩

/-- Then the next mount finds its epoch, and the other domain's as before. -/
theorem InProgress.loads
    (progress : slots.InProgress words now call)
    (last : call.point = .updateRam)
    {domain : UInt8}
    {epoch : UInt16}
    (stored :
      if call.domain = domain then call.epoch = epoch
      else storeLoad (slots.mounted words) domain = some epoch) :
    storeLoad (slots.mounted now) domain = some epoch := by
  have inRange := progress.inRange
  rw [storeLoad_mounted, (progress.landed last).2, Option.bind_some,
    progress.next]
  split at stored
  · rename_i same
    subst same stored
    rw [if_neg (Nat.not_le.mpr inRange)]
    exact StoreRecord.next_value_same _ inRange _
  · rename_i different
    obtain ⟨otherInRange, value⟩ := value_of_storeLoad stored
    rw [if_neg (Nat.not_le.mpr otherInRange),
      StoreRecord.next_value_other _ inRange otherInRange (Ne.symm different)]
    exact value

end Progress

namespace SerialInv

variable {slots}
  {words now : Nat → FlashWord UInt32}
  {count : Nat}
  {tasks : StoreTasks WorkFlash}
  {returns : List CommitReturn}

/-- A commit that returns false changes nothing. -/
theorem refused
    (inv : slots.SerialInv words now count tasks returns)
    (task : StoreTask)
    (domain : UInt8)
    (epoch : UInt16) :
    slots.SerialInv words now count tasks
      (returns ++ [⟨task, domain, epoch, false⟩]) where
  ram := inv.ram
  device := inv.device
  held other otherEpoch stored :=
    inv.held other otherEpoch (by rwa [committedEpoch_failed] at stored)
  calls := inv.calls

/-- A task begins a commit. -/
theorem enter
    (inv : slots.SerialInv words now count tasks returns)
    (task : StoreTask)
    (domain : UInt8)
    (epoch : UInt16)
    (allowed : SerialisedCommit tasks (.enter task domain epoch)) :
    slots.SerialInv words now count
      (commitStep tasks (.enter task domain epoch)).1
      (returns ++ (commitStep tasks (.enter task domain epoch)).2) := by
  have configured : tasks.store.cfg = some slots.config := by
    rw [inv.ram]
    exact slots.mounted_cfg words
  cases inCall : tasks.call task with
  | some call =>
      simpa [commitStep, inCall] using inv
  | none =>
      by_cases isRefused : commitRefused tasks.store domain
      · simpa [commitStep, inCall, configured, isRefused] using
          inv.refused task domain epoch
      · obtain ⟨idle, noWrap⟩ := allowed.resolve_left isRefused
        rw [inv.ram] at noWrap
        have inRange : domain.toNat < secocStoreDomains :=
          Nat.lt_of_not_le (not_or.mp isRefused).2
        rcases inv.calls with ⟨noCall, sameWords⟩ | ⟨other, call, one, -⟩
        · simp only [commitStep, inCall, configured, isRefused, if_false,
            List.append_nil]
          refine
            ⟨inv.ram, inv.device, inv.held,
              Or.inr
                ⟨task, beginCommit tasks.store slots.config domain epoch,
                  ?_, ?_⟩⟩
          · rw [noCall]
          · subst sameWords
            rw [inv.ram]
            exact ⟨rfl, inRange, rfl, rfl, noWrap, rfl⟩
        · exfalso
          unfold StoreTasks.idle at idle
          rw [one] at idle
          cases other <;> simp [Function.update] at idle

/-- The commit in progress, if any, goes on. -/
theorem advance
    (inv : slots.SerialInv words now count tasks returns)
    (task : StoreTask) :
    ∃ words' now',
      slots.SerialInv words' now' count
        (commitStep tasks (.advance task)).1
        (returns ++ (commitStep tasks (.advance task)).2) := by
  rcases inv.calls with ⟨noCall, -⟩ | ⟨other, call, one, progress⟩
  · exact ⟨words, now, by simpa [commitStep, noCall] using inv⟩
  · by_cases mine : task = other
    swap
    · have notInCall : tasks.call task = none := by
        rw [one, Function.update_of_ne mine]
      exact ⟨words, now, by simpa [commitStep, notInCall] using inv⟩
    subst mine
    have inCall : tasks.call task = some call := by
      rw [one, Function.update_self]
    have shape : tasks = ⟨tasks.store, healthyFlash now count, tasks.call⟩ := by
      rw [← inv.device]
    have steps :
        commitStep tasks (.advance task) =
          advanceCommit ⟨tasks.store, healthyFlash now count, tasks.call⟩ task
            call := by
      simp only [commitStep, inCall]
      rw [← shape]
    by_cases last : call.point = .updateRam
    · obtain ⟨mounts, -⟩ := progress.landed last
      have leaves :
          commitStep tasks (.advance task) =
            (⟨committed tasks.store call.next, healthyFlash now count,
                fun _ => none⟩,
              [⟨task, call.domain, call.epoch, true⟩]) := by
        rw [steps]
        simp only [advanceCommit, last, committed, one, Function.update_idem,
          progress.target, ← inv.ram]
        congr 2
        exact Function.update_eq_self task _
      refine ⟨now, now, ?_⟩
      rw [leaves]
      refine
        { ram := ?_
          device := rfl
          held := ?_
          calls := Or.inl ⟨rfl, rfl⟩ }
      · rw [mounts, inv.ram]
      · intro domain epoch stored
        rw [committedEpoch_succeeded] at stored
        apply progress.loads last
        split at stored
        · rename_i same
          rw [if_pos same]
          exact Option.some.inj stored
        · rename_i different
          rw [if_neg different]
          exact inv.held domain epoch stored
    · obtain ⟨point, after, progress', moves⟩ :=
        progress.goesOn last tasks.store count tasks.call task
      refine ⟨words, after, ?_⟩
      rw [steps, moves, List.append_nil]
      exact
        { ram := inv.ram
          device := rfl
          held := inv.held
          calls :=
            Or.inr ⟨task, _, by rw [one, Function.update_idem], progress'⟩ }

/-- RAM and, between commits, the flash hold what was committed. -/
theorem keepsCommits
    (inv : slots.SerialInv words now count tasks returns) :
    KeepsCommits slots tasks returns := by
  intro domain epoch stored
  have holds := inv.held domain epoch stored
  refine ⟨by rw [inv.ram]; exact holds, ?_⟩
  intro idle before
  rcases inv.calls with ⟨-, sameWords⟩ | ⟨other, call, one, -⟩
  · rw [inv.device, secocStoreMount_healthy, sameWords]
    exact holds
  · exfalso
    unfold StoreTasks.idle at idle
    rw [one] at idle
    cases other <;> simp [Function.update] at idle

end SerialInv

end WflashSlots

/--
Node A, blank flash: the CAN task's whole commit runs while the App task's is
between its last flash call and its assignment to `s_store`.  Both return true;
RAM has lost the CAN task's epoch and the flash the App task's.
-/
theorem concurrent_commits_lose_both_epochs :
    let start : StoreTasks WorkFlash :=
      ⟨nodeASlots.mounted blankWords, healthyFlash blankWords 0, fun _ => none⟩
    let actions : List CommitAction :=
      .enter .app 0 7 :: List.replicate 5 (.advance .app) ++
        .enter .can 1 9 :: List.replicate 6 (.advance .can) ++
          [.advance .app]
    let last := Machine.final commitStep start actions
    Machine.trace commitStep start actions =
        [⟨.can, 1, 9, true⟩, ⟨.app, 0, 7, true⟩] ∧
      storeLoad last.store 1 = none ∧
        storeLoad
            (secocStoreMount nodeASlots.cfg last.store last.device).1 0 =
          none ∧
          ¬ KeepsCommits nodeASlots last
            (Machine.trace commitStep start actions) := by
  intro start actions last
  have returns :
      Machine.trace commitStep start actions =
        [⟨.can, 1, 9, true⟩, ⟨.app, 0, 7, true⟩] := by
    decide +kernel
  have lostInRam : storeLoad last.store 1 = none := by
    decide +kernel
  have lostInFlash :
      storeLoad (secocStoreMount nodeASlots.cfg last.store last.device).1 0 =
        none := by
    decide +kernel
  refine ⟨returns, lostInRam, lostInFlash, ?_⟩
  intro keeps
  have kept := (keeps 1 9 (by rw [returns]; rfl)).1
  rw [lostInRam] at kept
  cases kept

/--
In every run of the two tasks in which a commit begins only between commits and
its sequence number does not wrap, RAM and the next mount hold every committed
epoch.
-/
theorem serialised_commits_keep_every_epoch
    (slots : WflashSlots)
    (words : Nat → FlashWord UInt32)
    (count : Nat)
    (actions : List CommitAction)
    (allowed :
      Machine.Allowed commitStep SerialisedCommit
        ⟨slots.mounted words, healthyFlash words count, fun _ => none⟩
        actions) :
    KeepsCommits slots
      (Machine.final commitStep
        ⟨slots.mounted words, healthyFlash words count, fun _ => none⟩ actions)
      (Machine.trace commitStep
        ⟨slots.mounted words, healthyFlash words count, fun _ => none⟩
        actions) := by
  have start :
      ∃ words' now,
        slots.SerialInv words' now count
          ⟨slots.mounted words, healthyFlash words count, fun _ => none⟩ [] :=
    ⟨words, words, rfl, rfl, by simp [committedEpoch], Or.inl ⟨rfl, rfl⟩⟩
  have preserved :
      ∀ (tasks : StoreTasks WorkFlash) history action,
        (∃ words' now, slots.SerialInv words' now count tasks history) →
          SerialisedCommit tasks action →
            ∃ words' now,
              slots.SerialInv words' now count (commitStep tasks action).1
                (history ++ (commitStep tasks action).2) := by
    rintro tasks history action ⟨words', now, inv⟩ serialised
    cases action with
    | enter task domain epoch =>
        exact ⟨words', now, inv.enter task domain epoch serialised⟩
    | advance task =>
        exact inv.advance task
  obtain ⟨_, _, inv⟩ := Machine.invariant_of_start preserved start allowed
  exact inv.keepsCommits

/-- Node A, blank flash: one commit after the other keeps both epochs. -/
theorem serialised_commits_keep_both_epochs :
    let start : StoreTasks WorkFlash :=
      ⟨nodeASlots.mounted blankWords, healthyFlash blankWords 0, fun _ => none⟩
    let actions : List CommitAction :=
      .enter .app 0 7 :: List.replicate 6 (.advance .app) ++
        .enter .can 1 9 :: List.replicate 6 (.advance .can)
    let returns := Machine.trace commitStep start actions
    returns = [⟨.app, 0, 7, true⟩, ⟨.can, 1, 9, true⟩] ∧
      KeepsCommits nodeASlots (Machine.final commitStep start actions)
        returns :=
  ⟨by decide +kernel,
    serialised_commits_keep_every_epoch nodeASlots blankWords 0 _
      (by decide +kernel)⟩

end TraveoBodyDomain
