import TraveoBodyDomain.Store.Port

/-!
# What one commit does to the work flash

`store_commit` makes five calls: erase, body, mark, blank check, read.  For
every pattern of their outcomes this module says which words changed, whether
the mark landed behind a complete body, and what the call returns.
-/

namespace TraveoBodyDomain

/-- The four body words of a record, as `wf_write` programs them. -/
def bodyCells (addr : Nat) (r : StoreRecord) : List (Nat × UInt32) :=
  [(addr, r.seq), (addr + 4, packEpochs r), (addr + 8, r.written),
    (addr + 12, crc32 (encodePayload r))]

/-- The commit mark, as `wf_write` programs it. -/
def markCells (addr : Nat) : List (Nat × UInt32) :=
  [(addr + markOffset, secocStoreCommitMark)]

/-- Four bytes written by `put_u32` are one word to program. -/
private theorem wordCells_putU32
    (addr : Nat)
    (v : UInt32)
    (rest : List UInt8) :
    wordCells addr (putU32 v ++ rest) =
      (addr, v) :: wordCells (addr + wfWord) rest := by
  have word := getU32_putU32 v []
  rw [List.append_nil] at word
  change (addr, getU32 (putU32 v)) :: wordCells (addr + wfWord) rest = _
  rw [word]

/-- The body write programs the four body words. -/
theorem wordCells_body
    (addr : Nat)
    (r : StoreRecord) :
    wordCells addr ((encode r).take bodyLen) = bodyCells addr r := by
  have bytes :
      (encode r).take bodyLen =
        putU32 r.seq ++ (putU32 (packEpochs r) ++ (putU32 r.written ++
          (putU32 (crc32 (encodePayload r)) ++ []))) :=
    rfl
  rw [bytes, wordCells_putU32, wordCells_putU32, wordCells_putU32,
    wordCells_putU32]
  rfl

/-- The mark write programs the mark. -/
theorem wordCells_mark
    (addr : Nat)
    (r : StoreRecord) :
    wordCells (addr + markOffset) ((encode r).drop markOffset) =
      markCells addr := by
  have bytes :
      (encode r).drop markOffset = putU32 secocStoreCommitMark ++ [] :=
    rfl
  rw [bytes, wordCells_putU32]
  rfl

namespace WflashSlots

variable (slots : WflashSlots)

/-- The words of an erased sector. -/
def erasedWords
    (target : Fin 2)
    (words : Nat → FlashWord UInt32) : Nat → FlashWord UInt32 :=
  fun addr => if slots.contains target addr then .erased else words addr

/-- The words once the body is programmed. -/
def bodyWords
    (target : Fin 2)
    (r : StoreRecord)
    (words : Nat → FlashWord UInt32) : Nat → FlashWord UInt32 :=
  WordFlash.written (bodyCells (slots.slotAddr target) r)
    (slots.erasedWords target words)

/-- The words once the mark is programmed too. -/
def markedWords
    (target : Fin 2)
    (r : StoreRecord)
    (words : Nat → FlashWord UInt32) : Nat → FlashWord UInt32 :=
  WordFlash.written (markCells (slots.slotAddr target))
    (slots.bodyWords target r words)

/-- No word outside the sector of `target` differs. -/
def OnlySector
    (target : Fin 2)
    (before after : Nat → FlashWord UInt32) : Prop :=
  ∀ addr, slots.contains target addr = false → after addr = before addr

/-- A body cell is a record word. -/
private theorem bodyCell_mem
    {target : Fin 2}
    {r : StoreRecord}
    {cell : Nat × UInt32}
    (member : cell ∈ bodyCells (slots.slotAddr target) r) :
    cell.1 ∈ slots.recordAddrs target := by
  rw [recordAddrs_eq]
  simp only [bodyCells, List.mem_cons, List.not_mem_nil, or_false] at member
  rcases member with rfl | rfl | rfl | rfl <;> simp

/-- The mark is a record word. -/
theorem mark_mem
    (target : Fin 2) :
    slots.slotAddr target + markOffset ∈ slots.recordAddrs target := by
  rw [recordAddrs_eq]
  simp

/-- A word outside the sector is no body cell. -/
private theorem bodyCell_ne
    {target : Fin 2}
    {r : StoreRecord}
    {addr : Nat}
    (outside : slots.contains target addr = false) :
    ∀ cell ∈ bodyCells (slots.slotAddr target) r, cell.1 ≠ addr := by
  rintro cell member rfl
  have inside := slots.contains_recordAddr (slots.bodyCell_mem member)
  rw [outside] at inside
  cases inside

/-- A word outside the sector is not the mark. -/
private theorem markCell_ne
    {target : Fin 2}
    {addr : Nat}
    (outside : slots.contains target addr = false) :
    ∀ cell ∈ markCells (slots.slotAddr target), cell.1 ≠ addr := by
  intro cell member same
  simp only [markCells, List.mem_singleton] at member
  subst member same
  have inside := slots.contains_recordAddr (slots.mark_mem target)
  rw [outside] at inside
  cases inside

/-- The mark is no body cell. -/
private theorem bodyCell_ne_mark
    {target : Fin 2}
    {r : StoreRecord} :
    ∀ cell ∈ bodyCells (slots.slotAddr target) r,
      cell.1 ≠ slots.slotAddr target + markOffset := by
  intro cell member
  simp only [bodyCells, List.mem_cons, List.not_mem_nil, or_false] at member
  rcases member with rfl | rfl | rfl | rfl <;> simp [markOffset]

/-- An erased sector: every record word is erased. -/
theorem erasedWords_record
    {target : Fin 2}
    {words : Nat → FlashWord UInt32}
    {addr : Nat}
    (member : addr ∈ slots.recordAddrs target) :
    slots.erasedWords target words addr = .erased := by
  unfold erasedWords
  rw [slots.contains_recordAddr member, if_pos rfl]

/-- Until the mark is programmed its word is erased. -/
theorem bodyWords_mark
    (target : Fin 2)
    (r : StoreRecord)
    (words : Nat → FlashWord UInt32) :
    slots.bodyWords target r words (slots.slotAddr target + markOffset) =
      .erased := by
  unfold bodyWords
  rw [WordFlash.written_other slots.bodyCell_ne_mark]
  exact slots.erasedWords_record (slots.mark_mem target)

/-- Erasing the sector changes no word outside it. -/
theorem erasedWords_onlySector
    (target : Fin 2)
    (words : Nat → FlashWord UInt32) :
    slots.OnlySector target words (slots.erasedWords target words) := by
  intro addr outside
  simp [erasedWords, outside]

/-- Nor does programming the body. -/
theorem bodyWords_onlySector
    (target : Fin 2)
    (r : StoreRecord)
    (words : Nat → FlashWord UInt32) :
    slots.OnlySector target words (slots.bodyWords target r words) := by
  intro addr outside
  unfold bodyWords
  rw [WordFlash.written_other (slots.bodyCell_ne outside)]
  exact slots.erasedWords_onlySector target words addr outside

/-- Nor does programming the mark. -/
theorem markedWords_onlySector
    (target : Fin 2)
    (r : StoreRecord)
    (words : Nat → FlashWord UInt32) :
    slots.OnlySector target words (slots.markedWords target r words) := by
  intro addr outside
  unfold markedWords
  rw [WordFlash.written_other (slots.markCell_ne outside)]
  exact slots.bodyWords_onlySector target r words addr outside

/-- The addresses of the body are distinct. -/
private theorem bodyCells_nodup
    (addr : Nat)
    (r : StoreRecord) :
    ((bodyCells addr r).map Prod.fst).Nodup := by
  simp [bodyCells]

/-- With body and mark programmed the slot holds the record. -/
theorem markedWords_holds
    (target : Fin 2)
    (r : StoreRecord)
    (words : Nat → FlashWord UInt32) :
    slots.Holds (slots.markedWords target r words) target r := by
  have body :
      ∀ cell ∈ bodyCells (slots.slotAddr target) r,
        slots.markedWords target r words cell.1 = .programmed cell.2 := by
    intro cell member
    have apart := slots.bodyCell_ne_mark cell member
    unfold markedWords
    rw [WordFlash.written_other]
    · exact WordFlash.written_mem (bodyCells_nodup _ r) member
    · intro mark isMark same
      simp only [markCells, List.mem_singleton] at isMark
      subst isMark
      exact apart same.symm
  have mark :
      slots.markedWords target r words (slots.slotAddr target + markOffset) =
        .programmed secocStoreCommitMark :=
    Function.update_self ..
  simp only [bodyCells, List.forall_mem_cons] at body
  obtain ⟨first, second, third, fourth, _⟩ := body
  simp [Holds, recordAddrs_eq, recordWords, first, second, third, fourth, mark]

/-!
## The five calls
-/

/-- The outcomes under which the mark lands behind a complete body. -/
def markLanded
    (target : Fin 2)
    (outcomes : Nat → CallOutcome UInt32) : Bool :=
  (outcomes 0).succeeds && (outcomes 1).succeeds &&
    match outcomes 2 with
    | .success => true
    | .failure touched =>
        touched (slots.slotAddr target + markOffset) = .done

/-- The outcomes under which the commit returns true. -/
def allSucceed (outcomes : Nat → CallOutcome UInt32) : Bool :=
  (outcomes 0).succeeds && (outcomes 1).succeeds && (outcomes 2).succeeds &&
    (outcomes 3).succeeds && (outcomes 4).succeeds

/-- The erase failed, and erased no word of the record. -/
def EraseMissed
    (slot : Fin 2)
    (outcomes : Nat → CallOutcome UInt32) : Prop :=
  ∃ touched,
    outcomes 0 = .failure touched ∧
      ∀ addr ∈ slots.recordAddrs slot, touched addr ≠ .done

/--
The slot was not completed: its record words are as they were, if the erase
missed them, or one is erased, or one was torn by a call of this commit.
-/
def Unfinished
    (slot : Fin 2)
    (outcomes : Nat → CallOutcome UInt32)
    (before after : Nat → FlashWord UInt32) : Prop :=
  (slots.EraseMissed slot outcomes ∧
      ∀ addr ∈ slots.recordAddrs slot, after addr = before addr) ∨
    (¬ slots.EraseMissed slot outcomes ∧
      ∃ addr ∈ slots.recordAddrs slot, after addr = .erased) ∨
      ∃ addr ∈ slots.recordAddrs slot,
        ∃ call touched blank reads,
          outcomes call = .failure touched ∧
            touched addr = .torn blank reads ∧ after addr = .torn blank reads

/-- The store once a commit returned true. -/
def committed
    (store : SecocStore WorkFlash)
    (next : StoreRecord) : SecocStore WorkFlash :=
  { store with status := .ok, newest := some (targetSlot store), mirror := next }

/-- What a commit of the record `next` returns, and what it leaves. -/
structure CommitEffect
    (store : SecocStore WorkFlash)
    (next : StoreRecord)
    (flash : WorkFlash)
    (succeeded : Bool)
    (store' : SecocStore WorkFlash)
    (flash' : WorkFlash) : Prop where
  returned : succeeded = allSucceed flash.outcomes
  ram : store' = if succeeded then committed store next else store
  onlySector : slots.OnlySector (targetSlot store) flash.words flash'.words
  landed :
    slots.markLanded (targetSlot store) flash.outcomes = true →
      slots.Holds flash'.words (targetSlot store) next
  unfinished :
    slots.markLanded (targetSlot store) flash.outcomes = false →
      slots.Unfinished (targetSlot store) flash.outcomes flash.words
        flash'.words
  reprogrammed : flash'.reprogrammed = flash.reprogrammed

/-- An erase that succeeded missed no word. -/
private theorem not_eraseMissed
    {target : Fin 2}
    {outcomes : Nat → CallOutcome UInt32}
    (first : outcomes 0 = .success) :
    ¬ slots.EraseMissed target outcomes := by
  rintro ⟨touched, failed, _⟩
  rw [first] at failed
  cases failed

/-- A failed erase leaves the slot unfinished. -/
private theorem unfinished_of_erase
    {target : Fin 2}
    {flash : WorkFlash}
    {touched : Nat → Touch UInt32}
    (failed : flash.outcomes 0 = .failure touched) :
    slots.Unfinished target flash.outcomes flash.words fun addr =>
      if slots.contains target addr then
        (flash.words addr).touch .erased (touched addr)
      else
        flash.words addr := by
  by_cases done : ∃ addr ∈ slots.recordAddrs target, touched addr = .done
  · obtain ⟨addr, member, isDone⟩ := done
    right; left
    refine ⟨?_, addr, member, ?_⟩
    · rintro ⟨other, failedToo, missed⟩
      cases failed.symm.trans failedToo
      exact missed addr member isDone
    · simp [slots.contains_recordAddr member, isDone, FlashWord.touch]
  · by_cases torn :
        ∃ addr ∈ slots.recordAddrs target,
          ∃ blank reads, touched addr = .torn blank reads
    · obtain ⟨addr, member, blank, reads, isTorn⟩ := torn
      right; right
      refine ⟨addr, member, 0, touched, blank, reads, failed, isTorn, ?_⟩
      simp [slots.contains_recordAddr member, isTorn, FlashWord.touch]
    · left
      refine
        ⟨⟨touched, failed, fun addr member isDone =>
          done ⟨addr, member, isDone⟩⟩, ?_⟩
      intro addr member
      cases touch : touched addr with
      | kept =>
          simp [touch, FlashWord.touch]
      | done =>
          exact absurd ⟨addr, member, touch⟩ done
      | torn blank reads =>
          exact absurd ⟨addr, member, blank, reads, touch⟩ torn

/-- A failed mark write that did not land leaves the slot unfinished. -/
private theorem unfinished_of_mark
    {target : Fin 2}
    {next : StoreRecord}
    {flash : WorkFlash}
    {touched : Nat → Touch UInt32}
    (first : flash.outcomes 0 = .success)
    (failed : flash.outcomes 2 = .failure touched)
    (notDone : touched (slots.slotAddr target + markOffset) ≠ .done) :
    slots.Unfinished target flash.outcomes flash.words
      ((markCells (slots.slotAddr target)).foldl (WordFlash.touchCell touched)
        (slots.bodyWords target next flash.words)) := by
  have erased := slots.bodyWords_mark target next flash.words
  right
  cases touch : touched (slots.slotAddr target + markOffset) with
  | kept =>
      left
      refine ⟨slots.not_eraseMissed first, _, slots.mark_mem target, ?_⟩
      simp [markCells, WordFlash.touchCell, erased, touch, FlashWord.touch]
  | done =>
      exact absurd touch notDone
  | torn blank reads =>
      right
      refine
        ⟨_, slots.mark_mem target, 2, touched, blank, reads, failed, touch, ?_⟩
      simp [markCells, WordFlash.touchCell, erased, touch, FlashWord.touch]

/-- A failed body write leaves the mark erased. -/
private theorem unfinished_of_body
    {target : Fin 2}
    {next : StoreRecord}
    {flash : WorkFlash}
    {touched : Nat → Touch UInt32}
    (first : flash.outcomes 0 = .success) :
    slots.Unfinished target flash.outcomes flash.words
      ((bodyCells (slots.slotAddr target) next).foldl
        (WordFlash.touchCell touched)
        (slots.erasedWords target flash.words)) := by
  right; left
  refine ⟨slots.not_eraseMissed first, _, slots.mark_mem target, ?_⟩
  rw [WordFlash.foldl_touchCell_other slots.bodyCell_ne_mark]
  exact slots.erasedWords_record (slots.mark_mem target)

/-- Reading back a record that landed. -/
private theorem readsBack_holds
    (slot : Fin 2)
    {r : StoreRecord}
    (clear : r.ReservedClear)
    (flash : WorkFlash)
    (holds : slots.Holds flash.words slot r) :
    ∃ flash',
      readsBack slots.config (slots.slotAddr slot) r flash =
          ((flash.outcomes 0).succeeds && (flash.outcomes 1).succeeds, flash') ∧
        flash'.words = flash.words ∧
          flash'.reprogrammed = flash.reprogrammed := by
  have state := slots.state_of_holds holds clear
  have marked :
      (flash.words (slots.slotAddr slot + markOffset)).looksBlank = false := by
    rw [Holds, recordAddrs_eq] at holds
    simp only [List.map_cons, List.map_nil, recordWords, List.cons.injEq,
      and_true] at holds
    obtain ⟨_, _, _, _, mark⟩ := holds
    rw [mark]
    rfl
  unfold readsBack
  rw [readSlot_spec, marked, state]
  cases flash.outcomes 0 with
  | failure touched =>
      exact ⟨flash.spend, by simp [CallOutcome.succeeds], rfl, rfl⟩
  | success =>
      cases flash.outcomes 1 with
      | failure touched =>
          exact ⟨flash.spend.spend, by simp [CallOutcome.succeeds], rfl, rfl⟩
      | success =>
          exact ⟨flash.spend.spend, by simp [CallOutcome.succeeds], rfl, rfl⟩

/-- The erase call of a commit. -/
theorem eraseSector_spec
    (target : Fin 2)
    (flash : WorkFlash) :
    wfEraseSector slots.sectorSize (slots.slotAddr target) flash =
      match flash.outcomes 0 with
      | .success =>
          (0, { flash.spend with words := slots.erasedWords target flash.words })
      | .failure touched =>
          (-1,
            { flash.spend with
              words := fun addr =>
                if slots.contains target addr then
                  (flash.words addr).touch .erased (touched addr)
                else
                  flash.words addr }) := by
  unfold wfEraseSector WordFlash.erase
  cases flash.outcomes 0 <;> rfl

/-- The body write of a commit, into an erased sector. -/
theorem writeBody_spec
    (target : Fin 2)
    (next : StoreRecord)
    {flash : WorkFlash}
    {words : Nat → FlashWord UInt32}
    (erased : flash.words = slots.erasedWords target words) :
    wfWrite (slots.slotAddr target) ((encode next).take bodyLen) flash =
      match flash.outcomes 0 with
      | .success =>
          (0, { flash.spend with words := slots.bodyWords target next words })
      | .failure touched =>
          (-1,
            { flash.spend with
              words :=
                (bodyCells (slots.slotAddr target) next).foldl
                  (WordFlash.touchCell touched)
                  (slots.erasedWords target words) }) := by
  have fresh :
      ∀ cell ∈ bodyCells (slots.slotAddr target) next,
        flash.words cell.1 = .erased := by
    intro cell member
    rw [erased]
    exact slots.erasedWords_record (slots.bodyCell_mem member)
  have length : ((encode next).take bodyLen).length % wfWord = 0 := by
    simp [encode, encodePayload, bodyLen, wfWord]
  simp only [wfWrite, slots.wordAligned target, length, wordCells_body]
  rw [if_neg (by decide)]
  cases outcome : flash.outcomes 0 with
  | success =>
      rw [WordFlash.program_success (bodyCells_nodup _ next) fresh outcome,
        erased]
      rfl
  | failure touched =>
      rw [WordFlash.program_failure fresh outcome, erased]
      rfl

/-- The mark write of a commit, behind a complete body. -/
theorem writeMark_spec
    (target : Fin 2)
    (next : StoreRecord)
    {flash : WorkFlash}
    {words : Nat → FlashWord UInt32}
    (body : flash.words = slots.bodyWords target next words) :
    wfWrite (slots.slotAddr target + markOffset)
        ((encode next).drop markOffset) flash =
      match flash.outcomes 0 with
      | .success =>
          (0, { flash.spend with words := slots.markedWords target next words })
      | .failure touched =>
          (-1,
            { flash.spend with
              words :=
                (markCells (slots.slotAddr target)).foldl
                  (WordFlash.touchCell touched)
                  (slots.bodyWords target next words) }) := by
  have fresh :
      ∀ cell ∈ markCells (slots.slotAddr target),
        flash.words cell.1 = .erased := by
    intro cell member
    simp only [markCells, List.mem_singleton] at member
    subst member
    rw [body]
    exact slots.bodyWords_mark target next words
  have aligned := slots.wordAligned target
  have markAligned : (slots.slotAddr target + markOffset) % wfWord = 0 := by
    unfold wfWord markOffset at *
    omega
  have length : ((encode next).drop markOffset).length % wfWord = 0 := by
    simp [encode, encodePayload, markOffset, wfWord]
  simp only [wfWrite, markAligned, length, wordCells_mark]
  rw [if_neg (by decide)]
  cases outcome : flash.outcomes 0 with
  | success =>
      rw [WordFlash.program_success (by simp [markCells]) fresh outcome, body]
      rfl
  | failure touched =>
      rw [WordFlash.program_failure fresh outcome, body]
      rfl

/-- A failed erase changes words of the sector only. -/
private theorem touchedSector_only
    (target : Fin 2)
    (touched : Nat → Touch UInt32)
    (words : Nat → FlashWord UInt32) :
    slots.OnlySector target words fun addr =>
      if slots.contains target addr then
        (words addr).touch .erased (touched addr)
      else
        words addr := by
  intro addr outside
  simp [outside]

/-- So does a failed body write. -/
private theorem touchedBody_only
    (target : Fin 2)
    (next : StoreRecord)
    (touched : Nat → Touch UInt32)
    (words : Nat → FlashWord UInt32) :
    slots.OnlySector target words
      ((bodyCells (slots.slotAddr target) next).foldl
        (WordFlash.touchCell touched) (slots.erasedWords target words)) := by
  intro addr outside
  rw [WordFlash.foldl_touchCell_other (slots.bodyCell_ne outside)]
  exact slots.erasedWords_onlySector target words addr outside

/-- So does a failed mark write. -/
private theorem touchedMark_only
    (target : Fin 2)
    (next : StoreRecord)
    (touched : Nat → Touch UInt32)
    (words : Nat → FlashWord UInt32) :
    slots.OnlySector target words
      ((markCells (slots.slotAddr target)).foldl
        (WordFlash.touchCell touched) (slots.bodyWords target next words)) := by
  intro addr outside
  rw [WordFlash.foldl_touchCell_other (slots.markCell_ne outside)]
  exact slots.bodyWords_onlySector target next words addr outside

/-- A mark write that reports a failure but landed completes the record. -/
private theorem touchedMark_landed
    {target : Fin 2}
    (next : StoreRecord)
    {touched : Nat → Touch UInt32}
    (words : Nat → FlashWord UInt32)
    (done : touched (slots.slotAddr target + markOffset) = .done) :
    slots.Holds
      ((markCells (slots.slotAddr target)).foldl
        (WordFlash.touchCell touched) (slots.bodyWords target next words))
      target next := by
  have erased := slots.bodyWords_mark target next words
  have same :
      (markCells (slots.slotAddr target)).foldl (WordFlash.touchCell touched)
          (slots.bodyWords target next words) =
        slots.markedWords target next words := by
    simp [markCells, WordFlash.touchCell, erased, done, FlashWord.touch,
      markedWords, WordFlash.written]
  rw [same]
  exact slots.markedWords_holds target next words

/-- A refused commit makes no call. -/
theorem storeCommit_refused
    {store : SecocStore WorkFlash}
    {domain : UInt8}
    (refused :
      usable store = false ∨ secocStoreDomains ≤ domain.toNat)
    (epoch : UInt16)
    (flash : WorkFlash) :
    storeCommit store domain epoch flash = (false, store, flash) := by
  unfold storeCommit
  simp only [if_pos refused]
  split <;> rfl

/-- A record that landed, whatever its reading back returns. -/
private theorem effect_of_readBack
    {store : SecocStore WorkFlash}
    {next : StoreRecord}
    {flash flash' : WorkFlash}
    (first : flash.outcomes 0 = .success)
    (second : flash.outcomes 1 = .success)
    (third : flash.outcomes 2 = .success)
    (holds : slots.Holds flash'.words (targetSlot store) next)
    (only : slots.OnlySector (targetSlot store) flash.words flash'.words)
    (sameCount : flash'.reprogrammed = flash.reprogrammed) :
    slots.CommitEffect store next flash
      ((flash.outcomes 3).succeeds && (flash.outcomes 4).succeeds)
      (if (flash.outcomes 3).succeeds && (flash.outcomes 4).succeeds then
        committed store next
      else
        store)
      flash' where
  returned := by
    simp [allSucceed, first, second, third, CallOutcome.succeeds]
  ram := rfl
  onlySector := only
  landed := fun _ => holds
  unfinished := by
    intro missed
    have landed :
        slots.markLanded (targetSlot store) flash.outcomes = true := by
      simp [markLanded, first, second, third, CallOutcome.succeeds]
    exact absurd landed (by simp [missed])
  reprogrammed := sameCount

/-- What a commit does, for every pattern of outcomes. -/
theorem storeCommit_spec
    {store : SecocStore WorkFlash}
    (configured : store.cfg = some slots.config)
    (isUsable : usable store = true)
    {domain : UInt8}
    (inRange : domain.toNat < secocStoreDomains)
    (clear : store.mirror.ReservedClear)
    (epoch : UInt16)
    (flash : WorkFlash) :
    slots.CommitEffect store (store.mirror.next domain epoch) flash
      (storeCommit store domain epoch flash).1
      (storeCommit store domain epoch flash).2.1
      (storeCommit store domain epoch flash).2.2 := by
  have notRefused :
      ¬ (usable store = false ∨ secocStoreDomains ≤ domain.toNat) := by
    simp [isUsable, inRange]
  have address : slots.config.slotAddr = slots.slotAddr := rfl
  have erase :
      slots.config.eraseSector = wfEraseSector slots.sectorSize :=
    rfl
  have write : slots.config.write = wfWrite := rfl
  have nextClear := StoreRecord.next_reservedClear clear inRange epoch
  unfold storeCommit
  simp only [configured, if_neg notRefused, address, erase, write]
  generalize store.mirror.next domain epoch = next at nextClear ⊢
  rw [eraseSector_spec]
  cases first : flash.outcomes 0 with
  | failure touched =>
      dsimp only
      rw [if_pos (by decide)]
      exact
        { returned := by simp [allSucceed, first, CallOutcome.succeeds]
          ram := rfl
          onlySector := slots.touchedSector_only _ touched flash.words
          landed := by simp [markLanded, first, CallOutcome.succeeds]
          unfinished := fun _ => slots.unfinished_of_erase first
          reprogrammed := rfl }
  | success =>
      dsimp only
      rw [if_neg (by decide), slots.writeBody_spec (targetSlot store) next rfl]
      cases second : flash.outcomes 1 with
      | failure touched =>
          simp only [WordFlash.spend, second]
          rw [if_pos (by decide)]
          exact
            { returned := by simp [allSucceed, second, CallOutcome.succeeds]
              ram := rfl
              onlySector := slots.touchedBody_only _ next touched flash.words
              landed := by simp [markLanded, second, CallOutcome.succeeds]
              unfinished := fun _ => slots.unfinished_of_body first
              reprogrammed := rfl }
      | success =>
          simp only [WordFlash.spend, second]
          rw [if_neg (by decide),
            slots.writeMark_spec (targetSlot store) next rfl]
          cases third : flash.outcomes 2 with
          | failure touched =>
              simp only [WordFlash.spend]
              rw [if_pos (by decide)]
              refine
                { returned := by simp [allSucceed, third, CallOutcome.succeeds]
                  ram := rfl
                  onlySector :=
                    slots.touchedMark_only _ next touched flash.words
                  landed := fun landed => ?_
                  unfinished := fun missed => ?_
                  reprogrammed := rfl }
              · apply slots.touchedMark_landed
                simpa [markLanded, first, second, third,
                  CallOutcome.succeeds] using landed
              · apply slots.unfinished_of_mark first third
                simpa [markLanded, first, second, third,
                  CallOutcome.succeeds] using missed
          | success =>
              simp only [WordFlash.spend]
              rw [if_neg (by decide)]
              have holds :=
                slots.markedWords_holds (targetSlot store) next flash.words
              obtain ⟨flash', reads, sameWords, sameCount⟩ :=
                slots.readsBack_holds (targetSlot store) nextClear
                  { words :=
                      slots.markedWords (targetSlot store) next flash.words
                    outcomes := fun call => flash.outcomes (call + 1 + 1 + 1)
                    reprogrammed := flash.reprogrammed }
                  holds
              have only :=
                slots.markedWords_onlySector (targetSlot store) next flash.words
              dsimp only at sameWords sameCount
              rw [← sameWords] at holds only
              have effect :=
                slots.effect_of_readBack first second third holds only sameCount
              simp only [reads]
              cases readBack :
                  (flash.outcomes 3).succeeds && (flash.outcomes 4).succeeds with
              | false =>
                  rw [readBack] at effect
                  exact effect
              | true =>
                  rw [readBack] at effect
                  simpa [committed, configured] using effect

/-!
## What the next mount sees
-/

section NextMount

variable {slots} {before after : Nat → FlashWord UInt32}

/-- A slot outside the sector written holds what it held. -/
theorem OnlySector.state
    {target slot : Fin 2}
    (only : slots.OnlySector target before after)
    (other : slot ≠ target) :
    slots.state after slot = slots.state before slot := by
  apply state_congr
  intro addr member
  apply only
  cases inside : slots.contains target addr with
  | false =>
      rfl
  | true =>
      exact absurd (eq_of_contains (slots.contains_recordAddr member) inside)
        other

/-- So it holds the same record, if any. -/
theorem OnlySector.record
    {target slot : Fin 2}
    (only : slots.OnlySector target before after)
    (other : slot ≠ target) :
    slotRecords (slots.state after) slot =
      slotRecords (slots.state before) slot := by
  unfold slotRecords
  rw [only.state other]

/--
An unfinished slot holds what it held if the erase missed it, and otherwise no
record, when no call tears a word.
-/
theorem Unfinished.record
    {slot : Fin 2}
    {outcomes : Nat → CallOutcome UInt32}
    (unfinished : slots.Unfinished slot outcomes before after)
    (noTear :
      ∀ {call addr touched blank reads},
        outcomes call = .failure touched → touched addr ≠ .torn blank reads) :
    (slots.EraseMissed slot outcomes →
        slotRecords (slots.state after) slot =
          slotRecords (slots.state before) slot) ∧
      (¬ slots.EraseMissed slot outcomes →
        slotRecords (slots.state after) slot = none) := by
  rcases unfinished with ⟨missed, kept⟩ | ⟨reached, addr, member, erased⟩ |
    ⟨_, _, _, _, _, _, failed, tore, _⟩
  · refine ⟨fun _ => ?_, fun reached => absurd missed reached⟩
    unfold slotRecords
    rw [state_congr kept]
  · refine ⟨fun missed => absurd missed reached, fun _ => ?_⟩
    apply state_of_unreadable member
    rw [erased]
    rfl
  · exact absurd tore (noTear failed)

/-- The record a mount of these words takes. -/
def inForce
    (slots : WflashSlots)
    (words : Nat → FlashWord UInt32) : Option StoreRecord :=
  TwoSlot.inForce recordRank (slotRecords (slots.state words))

/-- What a mount finds, by the record in force. -/
theorem mounted_cases
    (slots : WflashSlots)
    (words : Nat → FlashWord UInt32) :
    (∃ slot r,
        slots.state words slot = .valid r ∧ slots.inForce words = some r ∧
          slots.mounted words = ⟨some slots.config, .ok, some slot, r⟩) ∨
      (slots.inForce words = none ∧
        ∃ status,
          status ≠ .ok ∧
            slots.mounted words =
              ⟨some slots.config, status, none, .zero⟩) := by
  rcases mountSlots_cases slots.config with
    ⟨slot, r, _, holds, current, mounts⟩ | nothing
  · exact Or.inl ⟨slot, r, holds, current, mounts⟩
  · exact Or.inr nothing

/-- The configuration of a mounted store. -/
theorem mounted_cfg
    (slots : WflashSlots)
    (words : Nat → FlashWord UInt32) :
    (slots.mounted words).cfg = some slots.config := by
  rcases slots.mounted_cases words with
    ⟨_, _, _, _, mounts⟩ | ⟨_, _, _, mounts⟩ <;>
    rw [mounts]

/-- The mirror of a mounted store has no reserved bit set. -/
theorem mounted_reservedClear
    (slots : WflashSlots)
    (words : Nat → FlashWord UInt32) :
    (slots.mounted words).mirror.ReservedClear := by
  rcases slots.mounted_cases words with
    ⟨_, _, holds, _, mounts⟩ | ⟨_, _, _, mounts⟩
  · rw [mounts]
    exact reservedClear_of_valid holds
  · have zero : StoreRecord.zero.ReservedClear := by decide
    rw [mounts]
    exact zero

/-- The mirror of a mounted store is the record in force, or zero. -/
theorem mounted_mirror
    (slots : WflashSlots)
    (words : Nat → FlashWord UInt32) :
    (slots.mounted words).mirror = (slots.inForce words).getD .zero := by
  rcases slots.mounted_cases words with
    ⟨_, _, _, current, mounts⟩ | ⟨nothing, _, _, mounts⟩
  · rw [mounts, current]
    rfl
  · rw [mounts, nothing]
    rfl

/-- A mount finds the record in force. -/
theorem mounted_of_inForce
    {slots : WflashSlots}
    {words : Nat → FlashWord UInt32}
    {r : StoreRecord}
    (stands : slots.inForce words = some r) :
    (slots.mounted words).status = .ok ∧ (slots.mounted words).mirror = r := by
  rcases slots.mounted_cases words with
    ⟨_, _, _, current, mounts⟩ | ⟨nothing, _⟩
  · rw [stands] at current
    rw [mounts]
    exact ⟨rfl, (Option.some.inj current).symm⟩
  · rw [stands] at nothing
    cases nothing

/-- The slot a mounted store writes is the target of the two-slot scheme. -/
theorem mounted_target
    (slots : WflashSlots)
    (words : Nat → FlashWord UInt32) :
    targetSlot (slots.mounted words) =
      TwoSlot.target
        (TwoSlot.newest recordRank (slotRecords (slots.state words))) := by
  have newest : (slots.mounted words).newest = newestSlot (slots.state words) := by
    unfold mounted mountSlots
    split
    · rename_i current
      exact current.symm
    · rename_i nothing
      rw [nothing]
      split <;> rfl
  rw [← newestSlot_eq, ← newest]
  rfl

/-- A mounted store loads what the record in force says. -/
theorem storeLoad_mounted
    (slots : WflashSlots)
    (words : Nat → FlashWord UInt32)
    (domain : UInt8) :
    storeLoad (slots.mounted words) domain =
      if secocStoreDomains ≤ domain.toNat then
        none
      else
        (slots.inForce words).bind (·.value domain) := by
  by_cases outOfRange : secocStoreDomains ≤ domain.toNat
  · unfold storeLoad
    rw [if_pos (Or.inr outOfRange), if_pos outOfRange]
  · rw [if_neg outOfRange]
    rcases slots.mounted_cases words with
      ⟨_, _, _, current, mounts⟩ | ⟨nothing, _, _, mounts⟩
    · rw [mounts, current]
      simp [storeLoad, usable, outOfRange]
    · rw [mounts, nothing]
      simp [storeLoad, StoreRecord.value, StoreRecord.zero]

/-- A write that puts nothing new in the target leaves the record in force. -/
theorem inForce_of_kept
    (only :
      slots.OnlySector (targetSlot (slots.mounted before)) before after)
    (notNew :
      slotRecords (slots.state after) (targetSlot (slots.mounted before)) =
          none ∨
        slotRecords (slots.state after) (targetSlot (slots.mounted before)) =
          slotRecords (slots.state before)
            (targetSlot (slots.mounted before))) :
    slots.inForce after = slots.inForce before := by
  rw [mounted_target] at only notNew
  exact TwoSlot.inForce_of_kept (fun _ other => only.record other) notNew

/-- A record that landed in the target, newer than the mirror, is in force. -/
theorem inForce_of_landed
    {next : StoreRecord}
    (only :
      slots.OnlySector (targetSlot (slots.mounted before)) before after)
    (landed :
      slotRecords (slots.state after) (targetSlot (slots.mounted before)) =
        some next)
    (newer : (slots.mounted before).mirror.seq.toNat < next.seq.toNat) :
    slots.inForce after = some next := by
  rw [mounted_target] at only landed
  apply TwoSlot.inForce_of_replaced (fun _ other => only.record other) landed
  intro old current
  rw [mounted_mirror, inForce, current] at newer
  exact newer

/-- The next mount finds the store as a commit that returned true left it. -/
theorem mounted_of_landed
    {next : StoreRecord}
    (only :
      slots.OnlySector (targetSlot (slots.mounted before)) before after)
    (landed :
      slotRecords (slots.state after) (targetSlot (slots.mounted before)) =
        some next)
    (newer : (slots.mounted before).mirror.seq.toNat < next.seq.toNat) :
    slots.mounted after = committed (slots.mounted before) next := by
  have current :
      newestSlot (slots.state after) =
        some (targetSlot (slots.mounted before)) := by
    rw [mounted_target] at only landed ⊢
    rw [newestSlot_eq]
    apply TwoSlot.newest_of_replaced (fun _ other => only.record other) landed
    intro old inForce
    rw [mounted_mirror, WflashSlots.inForce, inForce] at newer
    exact newer
  have mounts :=
    mountSlots_of_newest slots.config current (valid_of_record landed)
  rw [mounted, mounts]
  unfold committed
  rw [mounted_cfg]

end NextMount

end WflashSlots

end TraveoBodyDomain
