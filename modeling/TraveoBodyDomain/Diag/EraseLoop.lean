import Mathlib.Algebra.Order.Floor.Div
import TraveoBodyDomain.Lib.Loop
import TraveoBodyDomain.Diag.Uds

/-!
# Erasing sector by sector

`do_erase` with a HAL that has no `erase_range`.  The offset of the loop is a
32-bit word: it wraps around where the length, rounded up to whole sectors, does
not fit one.
-/

namespace TraveoBodyDomain

/-- `off`, and the addresses that `erase_sector` was called on. -/
structure EraseLoop where
  off : UInt32
  calls : List UInt32
  deriving Repr, DecidableEq

/-- `rc` after the loop, and the addresses that `erase_sector` was called on. -/
structure EraseResult where
  rc : Int
  calls : List UInt32
  deriving Repr, DecidableEq

/-- The body of the loop; `results` is what the calls return, in turn. -/
def eraseLoop
    (addr len sector : UInt32)
    (results : Nat → Int)
    (s : EraseLoop) : Loop.Turn EraseLoop EraseResult :=
  if s.off < len then
    let calls := s.calls ++ [addr + s.off]
    if results s.calls.length ≠ 0 then
      .done { rc := -1, calls := calls }
    else
      .again { off := s.off + sector, calls := calls }
  else
    .done { rc := 0, calls := s.calls }

/-- The loop of `do_erase`. -/
def eraseSectors
    (turns : Nat)
    (addr len sector : UInt32)
    (results : Nat → Int) : Option EraseResult :=
  Loop.run (eraseLoop addr len sector results) turns { off := 0, calls := [] }

/-- What `do_erase` answers after the loop. -/
def eraseResponse
    (req : List UInt8)
    (respCap : Nat)
    (rc : Int) : Except UdsNrc (List UInt8) :=
  if rc ≠ 0 then
    .error .generalProgrammingFailure
  else if respCap < 3 then
    .error .generalReject
  else
    .ok [req.getD 0 0, req.getD 1 0, req.getD 2 0]

/-- `do_erase`, of a HAL whose `erase_range` is NULL. -/
def doEraseBySector
    (turns : Nat)
    (sector : UInt32)
    (results : Nat → Int)
    (req : List UInt8)
    (respCap : Nat) : Option (Except UdsNrc (List UInt8) × List UInt32) :=
  if req.length < 11 then
    some (.error .requestOutOfRange, [])
  else
    (eraseSectors turns (reqU32 req 3) (reqU32 req 7) sector results).map
      fun erased => (eraseResponse req respCap erased.rc, erased.calls)

/-- `erase_sector` was called once on the start of every sector, and no more. -/
structure ErasedOnce (addr len sector : UInt32) (calls : List UInt32) : Prop where
  once :
    ∀ k address, k * sector.toNat < len.toNat →
      address.toNat = addr.toNat + k * sector.toNat →
        calls.count address = 1
  nothingElse :
    ∀ address ∈ calls, ∃ k, k * sector.toNat < len.toNat ∧
      address.toNat = addr.toNat + k * sector.toNat

/-- The loop ends, and when no call failed every sector was erased once. -/
structure ErasedRightly (addr len sector : UInt32) : Prop where
  ends :
    ∀ results, ∃ result,
      Loop.Returns (fun turns => eraseSectors turns addr len sector results)
        result
  erased :
    ∀ results result,
      Loop.Returns (fun turns => eraseSectors turns addr len sector results)
          result →
        (∀ k < result.calls.length, results k = 0) →
          ErasedOnce addr len sector result.calls

/-- Where the loop is after `k` turns, however often the offset wrapped. -/
def eraseAfter (addr sector : UInt32) (k : Nat) : EraseLoop where
  off := UInt32.ofNat (k * sector.toNat)
  calls :=
    (List.range k).map fun j => addr + UInt32.ofNat (j * sector.toNat)

section Turns

variable {addr len sector : UInt32} {results : Nat → Int} {k : Nat}

/-- Where the loop starts. -/
theorem eraseAfter_zero :
    eraseAfter addr sector 0 = { off := 0, calls := [] } := by
  rw [eraseAfter, Nat.zero_mul]
  rfl

/-- Each turn calls `erase_sector` once. -/
theorem length_eraseAfter :
    (eraseAfter addr sector k).calls.length = k := by
  rw [eraseAfter, List.length_map, List.length_range]

/-- The calls of one more turn. -/
theorem eraseAfter_calls_succ :
    (eraseAfter addr sector k).calls ++
        [addr + (eraseAfter addr sector k).off] =
      (eraseAfter addr sector (k + 1)).calls := by
  simp only [eraseAfter, List.range_succ, List.map_append, List.map_cons,
    List.map_nil]

/-- A turn whose call succeeds. -/
theorem eraseLoop_again
    (inside : (eraseAfter addr sector k).off < len)
    (succeeds : results k = 0) :
    eraseLoop addr len sector results (eraseAfter addr sector k) =
      .again (eraseAfter addr sector (k + 1)) := by
  have off :
      (eraseAfter addr sector k).off + sector =
        (eraseAfter addr sector (k + 1)).off := by
    simp only [eraseAfter, Nat.succ_mul, UInt32.ofNat_add, UInt32.ofNat_toNat]
  rw [eraseLoop, if_pos inside, length_eraseAfter,
    if_neg (not_not.mpr succeeds), eraseAfter_calls_succ, off]

/-- A turn whose call fails. -/
theorem eraseLoop_fails
    (inside : (eraseAfter addr sector k).off < len)
    (fails : results k ≠ 0) :
    eraseLoop addr len sector results (eraseAfter addr sector k) =
      .done { rc := -1, calls := (eraseAfter addr sector (k + 1)).calls } := by
  rw [eraseLoop, if_pos inside, length_eraseAfter, if_pos fails,
    eraseAfter_calls_succ]

/-- The turn that finds the offset past the length. -/
theorem eraseLoop_ends
    (past : ¬(eraseAfter addr sector k).off < len) :
    eraseLoop addr len sector results (eraseAfter addr sector k) =
      .done { rc := 0, calls := (eraseAfter addr sector k).calls } :=
  if_neg past

end Turns

section Lengths

variable {addr len sector : UInt32} {k : Nat}

/-- How many sectors a length takes. -/
def sectorsOf (len sector : UInt32) : Nat :=
  len.toNat ⌈/⌉ sector.toNat

/-- The sectors that start below the length. -/
theorem lt_sectorsOf_iff
    (positive : 0 < sector.toNat) :
    k < sectorsOf len sector ↔ k * sector.toNat < len.toNat := by
  rw [← Nat.not_le, sectorsOf, ceilDiv_le_iff_le_mul positive, Nat.mul_comm,
    Nat.not_le]

/-- An offset that fits its word is the number of bytes before it. -/
theorem toNat_eraseAfter_off
    (fits : k * sector.toNat < 2 ^ 32) :
    (eraseAfter addr sector k).off.toNat = k * sector.toNat := by
  rw [eraseAfter, UInt32.toNat_ofNat']
  exact Nat.mod_eq_of_lt fits

/-- The address of a sector below the end of memory. -/
theorem toNat_add_offset
    (fits : addr.toNat + k * sector.toNat < 2 ^ 32) :
    (addr + UInt32.ofNat (k * sector.toNat)).toNat =
      addr.toNat + k * sector.toNat := by
  rw [UInt32.toNat_add, UInt32.toNat_ofNat', Nat.add_mod_mod]
  exact Nat.mod_eq_of_lt fits

/-- All sectors of the length, in turn, are each erased once. -/
theorem erasedOnce_eraseAfter
    (positive : 0 < sector.toNat)
    (inSpace : addr.toNat + len.toNat ≤ 2 ^ 32) :
    ErasedOnce addr len sector
      (eraseAfter addr sector (sectorsOf len sector)).calls := by
  have address {j : Nat} (inside : j < sectorsOf len sector) :
      (addr + UInt32.ofNat (j * sector.toNat)).toNat =
        addr.toNat + j * sector.toNat := by
    have below := (lt_sectorsOf_iff positive).mp inside
    exact toNat_add_offset (by omega)
  have distinct :
      (eraseAfter addr sector (sectorsOf len sector)).calls.Nodup := by
    refine List.Nodup.map_on ?_ List.nodup_range
    intro i iInside j jInside same
    have sameNumber := congrArg UInt32.toNat same
    rw [address (List.mem_range.mp iInside),
      address (List.mem_range.mp jInside)] at sameNumber
    exact Nat.eq_of_mul_eq_mul_right positive (Nat.add_left_cancel sameNumber)
  constructor
  · intro k start below value
    have inside := (lt_sectorsOf_iff positive).mpr below
    refine List.count_eq_one_of_mem distinct (List.mem_map.mpr ⟨k, ?_, ?_⟩)
    · exact List.mem_range.mpr inside
    · exact UInt32.toNat_inj.mp ((address inside).trans value.symm)
  · intro start called
    obtain ⟨k, inside, rfl⟩ := List.mem_map.mp called
    have inside := List.mem_range.mp inside
    exact ⟨k, (lt_sectorsOf_iff positive).mp inside, address inside⟩

end Lengths

section Loop

variable {addr len sector : UInt32} {results : Nat → Int}

/-- Where the whole sectors fit a word, the loop ends after the last one. -/
theorem eraseSectors_returns
    (positive : 0 < sector.toNat)
    (fits : sectorsOf len sector * sector.toNat < 2 ^ 32)
    (results : Nat → Int) :
    ∃ result,
      Loop.Returns (fun turns => eraseSectors turns addr len sector results)
          result ∧
        ((∀ k < result.calls.length, results k = 0) →
          result.calls = (eraseAfter addr sector (sectorsOf len sector)).calls) := by
  have inside {k : Nat} (upTo : k ≤ sectorsOf len sector) :
      (eraseAfter addr sector k).off < len ↔ k < sectorsOf len sector := by
    have offset : k * sector.toNat < 2 ^ 32 :=
      Nat.lt_of_le_of_lt (Nat.mul_le_mul_right _ upTo) fits
    rw [UInt32.lt_iff_toNat_lt, toNat_eraseAfter_off offset,
      lt_sectorsOf_iff positive]
  refine
    @Loop.returns_of_measure _ _ _ _
      (fun s => ∃ k ≤ sectorsOf len sector, s = eraseAfter addr sector k) _
      (fun s => sectorsOf len sector - s.calls.length) ?_ ?_
      ⟨0, Nat.zero_le _, eraseAfter_zero.symm⟩
  · rintro s next ⟨k, upTo, rfl⟩ more
    by_cases before : (eraseAfter addr sector k).off < len
    · have less := (inside upTo).mp before
      by_cases succeeds : results k = 0
      · rw [eraseLoop_again before succeeds] at more
        obtain rfl := Loop.Turn.again.inj more
        refine ⟨⟨k + 1, less, rfl⟩, ?_⟩
        rw [length_eraseAfter, length_eraseAfter]
        omega
      · rw [eraseLoop_fails before succeeds] at more
        cases more
    · rw [eraseLoop_ends before] at more
      cases more
  · rintro s result ⟨k, upTo, rfl⟩ last allSucceed
    by_cases before : (eraseAfter addr sector k).off < len
    · by_cases succeeds : results k = 0
      · rw [eraseLoop_again before succeeds] at last
        cases last
      · rw [eraseLoop_fails before succeeds] at last
        obtain rfl := Loop.Turn.done.inj last
        refine absurd (allSucceed k ?_) succeeds
        rw [length_eraseAfter]
        exact Nat.lt_succ_self k
    · rw [eraseLoop_ends before] at last
      obtain rfl := Loop.Turn.done.inj last
      have notLess := (not_congr (inside upTo)).mp before
      rw [show k = sectorsOf len sector by omega]

/-- The calls that were made are not taken back. -/
theorem eraseLoop_extends
    {s : EraseLoop}
    {result : EraseResult}
    (returns :
      Loop.Returns
        (fun turns => Loop.run (eraseLoop addr len sector results) turns s)
        result) :
    s.calls <+: result.calls := by
  refine
    @Loop.Returns.wanted _ _ _ _ _
      (fun later : EraseLoop => s.calls <+: later.calls)
      (fun last : EraseResult => s.calls <+: last.calls) ?_ ?_
      (List.prefix_refl _) returns
  · intro later next kept more
    rw [eraseLoop] at more
    split_ifs at more with inside fails
    obtain rfl := Loop.Turn.again.inj more
    exact kept.trans (List.prefix_append _ _)
  · intro later last kept ends
    rw [eraseLoop] at ends
    split_ifs at ends with inside fails
    · obtain rfl := Loop.Turn.done.inj ends
      exact kept.trans (List.prefix_append _ _)
    · obtain rfl := Loop.Turn.done.inj ends
      exact kept

/-- While the offset is below the length, the loop goes on as if from there. -/
theorem eraseSectors_reaches
    {result : EraseResult}
    (returns :
      Loop.Returns (fun turns => eraseSectors turns addr len sector fun _ => 0)
        result)
    {k : Nat}
    (inside : ∀ j < k, (eraseAfter addr sector j).off < len) :
    Loop.Returns
      (fun turns =>
        Loop.run (eraseLoop addr len sector fun _ => 0) turns
          (eraseAfter addr sector k))
      result := by
  induction k with
  | zero =>
      rw [eraseAfter_zero]
      exact returns
  | succ k inductionHypothesis =>
      have before := inductionHypothesis fun j less =>
        inside j (Nat.lt_succ_of_lt less)
      have more : eraseLoop addr len sector (fun _ => 0)
          (eraseAfter addr sector k) = .again (eraseAfter addr sector (k + 1)) :=
        eraseLoop_again (inside k (Nat.lt_succ_self k)) rfl
      exact (Loop.returns_again_iff more).mp before

/-- The offset after `k` sectors that end past its word, by less than a sector. -/
theorem toNat_eraseAfter_wraps
    {k : Nat}
    (before : k * sector.toNat < len.toNat)
    (wraps : 2 ^ 32 ≤ k * sector.toNat + sector.toNat) :
    (eraseAfter addr sector (k + 1)).off.toNat =
      k * sector.toNat + sector.toNat - 2 ^ 32 := by
  have lenFits := len.toNat_lt
  have sectorFits := sector.toNat_lt
  rw [eraseAfter, UInt32.toNat_ofNat', Nat.succ_mul, Nat.mod_eq_sub_mod wraps]
  exact Nat.mod_eq_of_lt (by omega)

/--
Calls that go on below the first sector's end either start no sector there, or
start the first one again.
-/
theorem not_erasedOnce_of_again
    {k : Nat}
    {calls : List UInt32}
    (nonempty : 0 < len.toNat)
    (inSpace : addr.toNat + len.toNat ≤ 2 ^ 32)
    (inside : (eraseAfter addr sector (k + 1)).off < len)
    (inFirst : (eraseAfter addr sector (k + 1)).off < sector)
    (made : (eraseAfter addr sector (k + 1 + 1)).calls <+: calls) :
    ¬ErasedOnce addr len sector calls := by
  rintro ⟨once, nothingElse⟩
  rw [UInt32.lt_iff_toNat_lt] at inside inFirst
  obtain ⟨address, isNext⟩ :
      ∃ address, address = addr + (eraseAfter addr sector (k + 1)).off :=
    ⟨_, rfl⟩
  rw [← eraseAfter_calls_succ, ← isNext] at made
  have value : address.toNat =
      addr.toNat + (eraseAfter addr sector (k + 1)).off.toNat := by
    rw [isNext, UInt32.toNat_add]
    exact Nat.mod_eq_of_lt (by omega)
  obtain ⟨j, -, start⟩ :=
    nothingElse address
      (made.subset (List.mem_append_right _ List.mem_cons_self))
  have first : j = 0 := by
    by_contra later
    have atLeast : sector.toNat ≤ j * sector.toNat :=
      Nat.le_mul_of_pos_left _ (Nat.pos_of_ne_zero later)
    omega
  subst first
  have called := once 0 address (by omega) start
  have already : address ∈ (eraseAfter addr sector (k + 1)).calls := by
    refine List.mem_map.mpr ⟨0, List.mem_range.mpr (Nat.succ_pos k), ?_⟩
    exact UInt32.toNat_inj.mp
      ((toNat_add_offset (by omega)).trans start.symm)
  have twice := made.sublist.count_le address
  rw [List.count_append, List.count_singleton_self, called] at twice
  have atLeastOnce := List.count_pos_iff.mpr already
  omega

/-- Where the whole sectors do not fit a word, the loop goes on after them. -/
theorem not_erasedRightly_of_wraps
    (positive : 0 < sector.toNat)
    (inSpace : addr.toNat + len.toNat ≤ 2 ^ 32)
    (wraps : 2 ^ 32 ≤ sectorsOf len sector * sector.toNat) :
    ¬ErasedRightly addr len sector := by
  rintro ⟨ends, erased⟩
  obtain ⟨result, returns⟩ := ends fun _ => 0
  have lenFits := len.toNat_lt
  have sectorFits := sector.toNat_lt
  generalize count : sectorsOf len sector = m at wraps
  have before {k : Nat} (less : k < m) : k * sector.toNat < len.toNat :=
    (lt_sectorsOf_iff positive).mp (count ▸ less)
  obtain ⟨last, rfl⟩ : ∃ last, m = last + 1 := by
    refine Nat.exists_eq_add_one_of_ne_zero ?_
    rintro rfl
    omega
  have lastBefore := before (Nat.lt_succ_self last)
  rw [Nat.succ_mul] at wraps
  have wrapped :=
    @toNat_eraseAfter_wraps addr len sector last lastBefore wraps
  have inside :
      ∀ j < last + 1 + 1, (eraseAfter addr sector j).off < len := by
    intro j less
    rw [UInt32.lt_iff_toNat_lt]
    rcases Nat.lt_succ_iff_lt_or_eq.mp less with earlier | rfl
    · have below := before earlier
      rw [toNat_eraseAfter_off (by omega)]
      exact below
    · rw [wrapped]
      omega
  have inFirst : (eraseAfter addr sector (last + 1)).off < sector := by
    rw [UInt32.lt_iff_toNat_lt, wrapped]
    omega
  refine
    not_erasedOnce_of_again (by omega) inSpace (inside (last + 1) (by omega))
      inFirst (eraseLoop_extends (eraseSectors_reaches returns inside)) ?_
  exact erased _ result returns fun _ _ => rfl

/-- `do_erase` answers when its loop ends, and calls what the loop calls. -/
theorem doEraseBySector_returns
    {req : List UInt8}
    {result : EraseResult}
    (longEnough : 11 ≤ req.length)
    (returns :
      Loop.Returns
        (fun turns =>
          eraseSectors turns (reqU32 req 3) (reqU32 req 7) sector results)
        result)
    (respCap : Nat) :
    Loop.Returns
      (fun turns => doEraseBySector turns sector results req respCap)
      (eraseResponse req respCap result.rc, result.calls) := by
  simp only [doEraseBySector, if_neg (Nat.not_lt.mpr longEnough)]
  exact returns.map fun erased =>
    (eraseResponse req respCap erased.rc, erased.calls)

/--
The erase loop does what it is for exactly when the length, rounded up to whole
sectors, is a 32-bit number.
-/
theorem erased_rightly_iff
    (addr len sector : UInt32)
    (positive : 1 ≤ sector.toNat)
    (inSpace : addr.toNat + len.toNat ≤ 2 ^ 32) :
    ErasedRightly addr len sector ↔
      sectorsOf len sector * sector.toNat < 2 ^ 32 := by
  constructor
  · intro right
    by_contra wraps
    exact not_erasedRightly_of_wraps positive inSpace (Nat.not_lt.mp wraps) right
  · intro fits
    refine ⟨fun results => ?_, fun results result returns succeed => ?_⟩
    · obtain ⟨result, returns, -⟩ :=
        @eraseSectors_returns addr len sector positive fits results
      exact ⟨result, returns⟩
    · obtain ⟨other, returnsOther, all⟩ :=
        @eraseSectors_returns addr len sector positive fits results
      obtain rfl := Loop.Returns.unique returns returnsOther
      rw [all succeed]
      exact erasedOnce_eraseAfter positive inSpace

/-- The image of a download is erased in its three sectors of 32 KB. -/
theorem three_sectors_are_erased :
    ErasedRightly 0x10000000 0x18000 0x8000 :=
  (erased_rightly_iff 0x10000000 0x18000 0x8000 (by decide) (by decide)).mpr
    (by decide)

/-- Sectors of 32 KB divide the address space: the loop up to its end is endless. -/
theorem last_sector_wraps :
    ¬ErasedRightly 0 0xFFFFFFFF 0x8000 := by
  rintro ⟨ends, -⟩
  refine Loop.not_returns (fun turns => ?_) (ends fun _ => 0)
  refine
    @Loop.run_eq_none _ _ _ _ (fun s : EraseLoop => s.off.toNat % 0x8000 = 0)
      ?_ rfl turns
  intro s whole
  have inside : s.off < 0xFFFFFFFF := by
    have limit : (0xFFFFFFFF : UInt32).toNat = 2 ^ 32 - 1 := rfl
    have fits := s.off.toNat_lt
    rw [UInt32.lt_iff_toNat_lt, limit]
    omega
  refine ⟨{ off := s.off + 0x8000, calls := s.calls ++ [0 + s.off] }, ?_, ?_⟩
  · rw [eraseLoop, if_pos inside]
    rfl
  · have size : (0x8000 : UInt32).toNat = 0x8000 := rfl
    rw [UInt32.toNat_add, size]
    omega

end Loop

end TraveoBodyDomain
