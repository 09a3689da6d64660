import Mathlib.Tactic.Common
import Mathlib.Data.List.Basic
import Mathlib.Logic.Function.Basic

/-!
# Flash that is programmed word by word

A word is erased, holds a value, or is torn: left half way by an operation that
was cut off.  A word can be programmed only when it is erased.  The environment
decides what each call reports and, when it reports a failure, what became of
every word the call was to change.
-/

/-- One word of the flash. -/
inductive FlashWord (Value : Type) where
  | erased
  | programmed (value : Value)
  | torn (looksBlank : Bool) (reads : Option Value)
  deriving Repr, DecidableEq

/-- What a call that failed did to one word. -/
inductive Touch (Value : Type) where
  | kept
  | done
  | torn (looksBlank : Bool) (reads : Option Value)
  deriving Repr, DecidableEq

/-- What the environment makes of one call. -/
inductive CallOutcome (Value : Type) where
  | success
  | failure (touched : Nat → Touch Value)

/-- The call reports success. -/
def CallOutcome.succeeds {Value : Type} : CallOutcome Value → Bool
  | .success => true
  | .failure _ => false

/--
The words by address, the outcomes of the calls to come, and how many attempts
were made to program a word that was not erased.
-/
structure WordFlash (Value : Type) where
  words : Nat → FlashWord Value
  outcomes : Nat → CallOutcome Value
  reprogrammed : Nat

namespace FlashWord

variable {Value : Type}

/-- What a blank check says about the word. -/
def looksBlank : FlashWord Value → Bool
  | erased => true
  | programmed _ => false
  | torn blank _ => blank

/-- What a checked read of the word gives; an erased word has no valid ECC. -/
def read : FlashWord Value → Option Value
  | erased => none
  | programmed value => some value
  | torn _ reads => reads

/-- The word is torn. -/
def isTorn : FlashWord Value → Bool
  | torn .. => true
  | _ => false

/-- A torn word reads differently; every other word is what it is. -/
def reread (blank : Bool) (reads : Option Value) :
    FlashWord Value → FlashWord Value
  | torn .. => torn blank reads
  | word => word

/-- Only a torn word is changed. -/
theorem reread_of_not_torn
    {word : FlashWord Value}
    (intact : word.isTorn = false)
    (blank : Bool)
    (reads : Option Value) :
    word.reread blank reads = word := by
  cases word with
  | torn _ _ => cases intact
  | erased => rfl
  | programmed _ => rfl

/-- The later reading of a word is the one that counts. -/
theorem reread_reread
    (word : FlashWord Value)
    (first later : Bool)
    (firstReads laterReads : Option Value) :
    (word.reread first firstReads).reread later laterReads =
      word.reread later laterReads := by
  cases word <;> rfl

/-- The word after a failed call that was to give it the state `wanted`. -/
def touch (word wanted : FlashWord Value) : Touch Value → FlashWord Value
  | .kept => word
  | .done => wanted
  | .torn blank reads => torn blank reads

end FlashWord

namespace WordFlash

variable {Value : Type}

/-- Program the cells in order, stopping at the first word not erased. -/
def programCells :
    List (Nat × Value) →
      (Nat → FlashWord Value) →
        Bool × (Nat → FlashWord Value)
  | [], words => (true, words)
  | (addr, value) :: rest, words =>
      match words addr with
      | .erased =>
          programCells rest
            (Function.update words addr (.programmed value))
      | _ => (false, words)

/-- The words once all the cells have been programmed. -/
def written
    (cells : List (Nat × Value))
    (words : Nat → FlashWord Value) : Nat → FlashWord Value :=
  match cells with
  | [] => words
  | (addr, value) :: rest =>
      written rest (Function.update words addr (.programmed value))

/-- The environment has decided one call. -/
def spend (flash : WordFlash Value) : WordFlash Value :=
  { flash with outcomes := fun call => flash.outcomes (call + 1) }

/-- Erase every word whose address is `inside`. -/
def erase
    (inside : Nat → Bool)
    (flash : WordFlash Value) :
    Bool × WordFlash Value :=
  match flash.outcomes 0 with
  | .success =>
      (true,
        { flash.spend with
          words := fun addr =>
            if inside addr then .erased else flash.words addr })
  | .failure touched =>
      (false,
        { flash.spend with
          words := fun addr =>
            if inside addr then
              (flash.words addr).touch .erased (touched addr)
            else
              flash.words addr })

/-- A word a failed program call may have reached: only erased ones change. -/
def touchCell
    (touched : Nat → Touch Value)
    (words : Nat → FlashWord Value)
    (cell : Nat × Value) : Nat → FlashWord Value :=
  match words cell.1 with
  | .erased =>
      Function.update words cell.1
        (FlashWord.touch .erased (.programmed cell.2) (touched cell.1))
  | _ => words

/-- Program the cells, in order. -/
def program
    [DecidableEq Value]
    (cells : List (Nat × Value))
    (flash : WordFlash Value) :
    Bool × WordFlash Value :=
  let stale := cells.any fun cell => decide (flash.words cell.1 ≠ .erased)
  let reprogrammed :=
    if stale then flash.reprogrammed + 1 else flash.reprogrammed
  match flash.outcomes 0 with
  | .success =>
      let (succeeded, words) := programCells cells flash.words
      (succeeded,
        { flash.spend with words := words, reprogrammed := reprogrammed })
  | .failure touched =>
      (false,
        { flash.spend with
          words := cells.foldl (touchCell touched) flash.words
          reprogrammed := reprogrammed })

/-- Whether every word looks blank; `none` when the check fails. -/
def blankCheck
    (addrs : List Nat)
    (flash : WordFlash Value) :
    Option Bool × WordFlash Value :=
  match flash.outcomes 0 with
  | .success =>
      (some (addrs.all fun addr => (flash.words addr).looksBlank), flash.spend)
  | .failure _ => (none, flash.spend)

/-- The values of the words; `none` when one has none or the read fails. -/
def read
    (addrs : List Nat)
    (flash : WordFlash Value) :
    Option (List Value) × WordFlash Value :=
  match flash.outcomes 0 with
  | .success =>
      (addrs.mapM fun addr => (flash.words addr).read, flash.spend)
  | .failure _ => (none, flash.spend)

/-!
## Programming
-/

/-- Programming changes no word that is not among the cells. -/
theorem written_other
    {cells : List (Nat × Value)}
    {words : Nat → FlashWord Value}
    {addr : Nat}
    (absent : ∀ cell ∈ cells, cell.1 ≠ addr) :
    written cells words addr = words addr := by
  induction cells generalizing words with
  | nil =>
      rfl
  | cons cell rest inductionHypothesis =>
      obtain ⟨other, value⟩ := cell
      have different : addr ≠ other :=
        (absent (other, value) (List.mem_cons_self ..)).symm
      rw [written,
        inductionHypothesis fun later member =>
          absent later (List.mem_cons_of_mem _ member),
        Function.update_of_ne different]

/-- A programmed cell holds its value. -/
theorem written_mem
    {cells : List (Nat × Value)}
    {words : Nat → FlashWord Value}
    (distinct : (cells.map Prod.fst).Nodup)
    {cell : Nat × Value}
    (member : cell ∈ cells) :
    written cells words cell.1 = .programmed cell.2 := by
  induction cells generalizing words with
  | nil =>
      cases member
  | cons head rest inductionHypothesis =>
      obtain ⟨addr, value⟩ := head
      obtain ⟨fresh, distinctRest⟩ := List.nodup_cons.mp distinct
      rcases List.mem_cons.mp member with rfl | later
      · rw [written, written_other]
        · exact Function.update_self ..
        · intro cell inRest same
          exact fresh (List.mem_map.mpr ⟨cell, inRest, same⟩)
      · rw [written]
        exact inductionHypothesis distinctRest later

/-- Cells whose words are all erased are all programmed. -/
theorem programCells_fresh
    {cells : List (Nat × Value)}
    {words : Nat → FlashWord Value}
    (distinct : (cells.map Prod.fst).Nodup)
    (fresh : ∀ cell ∈ cells, words cell.1 = .erased) :
    programCells cells words = (true, written cells words) := by
  induction cells generalizing words with
  | nil =>
      rfl
  | cons head rest inductionHypothesis =>
      obtain ⟨addr, value⟩ := head
      obtain ⟨notLater, distinctRest⟩ := List.nodup_cons.mp distinct
      have erased : words addr = .erased :=
        fresh (addr, value) (List.mem_cons_self ..)
      rw [programCells, erased]
      apply inductionHypothesis distinctRest
      intro cell member
      have different : cell.1 ≠ addr := by
        intro same
        exact notLater (List.mem_map.mpr ⟨cell, member, same⟩)
      rw [Function.update_of_ne different]
      exact fresh cell (List.mem_cons_of_mem _ member)

/-- A failed program call leaves every word outside the cells alone. -/
theorem foldl_touchCell_other
    {touched : Nat → Touch Value}
    {cells : List (Nat × Value)}
    {words : Nat → FlashWord Value}
    {addr : Nat}
    (absent : ∀ cell ∈ cells, cell.1 ≠ addr) :
    cells.foldl (touchCell touched) words addr = words addr := by
  induction cells generalizing words with
  | nil =>
      rfl
  | cons head rest inductionHypothesis =>
      have different : addr ≠ head.1 :=
        (absent head (List.mem_cons_self ..)).symm
      rw [List.foldl_cons,
        inductionHypothesis fun later member =>
          absent later (List.mem_cons_of_mem _ member)]
      unfold touchCell
      cases words head.1 with
      | programmed _ => rfl
      | torn _ _ => rfl
      | erased => exact Function.update_of_ne different ..

section Fresh

variable
  [DecidableEq Value]
  {cells : List (Nat × Value)}
  {flash : WordFlash Value}

/-- Erased words are no attempt to program a word twice. -/
private theorem not_stale
    (fresh : ∀ cell ∈ cells, flash.words cell.1 = .erased) :
    (cells.any fun cell => decide (flash.words cell.1 ≠ .erased)) = false := by
  rw [List.any_eq_false]
  intro cell member
  simp [fresh cell member]

/-- A call that succeeds on erased words programs every cell. -/
theorem program_success
    (distinct : (cells.map Prod.fst).Nodup)
    (fresh : ∀ cell ∈ cells, flash.words cell.1 = .erased)
    (outcome : flash.outcomes 0 = .success) :
    flash.program cells =
      (true, { flash.spend with words := written cells flash.words }) := by
  simp only [program, outcome, not_stale fresh,
    programCells_fresh distinct fresh]
  rfl

/-- A call that fails on erased words touches some of the cells. -/
theorem program_failure
    {touched : Nat → Touch Value}
    (fresh : ∀ cell ∈ cells, flash.words cell.1 = .erased)
    (outcome : flash.outcomes 0 = .failure touched) :
    flash.program cells =
      (false,
        { flash.spend with
          words := cells.foldl (touchCell touched) flash.words }) := by
  simp only [program, outcome, not_stale fresh]
  rfl

end Fresh

end WordFlash
