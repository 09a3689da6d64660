import TraveoBodyDomain.Lib.WordArith

/-!
# The baud rate of the log port

`log_uart_clock_init` of `port_log.c`: it measures the clock that the port is
given, and searches the oversample whose nearest divider comes closest to the
baud rate.  The error is computed in 32 bits, and the divider is programmed into
eight.
-/

namespace TraveoBodyDomain

/-- `LOG_UART_BAUD`. -/
def logUartBaud : UInt32 :=
  1000000

/-- `LOG_UART_OVS_MIN` to `LOG_UART_OVS_MAX`. -/
def logUartOversamples : List UInt32 :=
  [8, 9, 10, 11, 12, 13, 14, 15, 16]

/-- `LOG_BAUD_TOLERANCE_PM`. -/
def logBaudTolerancePm : UInt32 :=
  20

/-- What the calls for the peripheral clock do. -/
inductive LogClockCall where
  | assignDivider
  | setDivider (value : UInt32)
  | enableDivider
  deriving Repr, DecidableEq

/--
The clock tree: the frequency that is read back with the divider at 1, and the
one that is read back with a divider value programmed.
-/
structure LogClock where
  srcHz : UInt32
  achievedHz : UInt32 → UInt32

/-- The statics that `log_uart_clock_init` writes. -/
structure LogClockState where
  periHz : UInt32
  divider : UInt32
  oversampleChosen : UInt32
  actualHz : UInt32
  errPm : UInt32
  clkOk : Bool
  oversample : UInt32
  deriving Repr, DecidableEq

/-- `best_ovs`, `best_div` and `best_err`. -/
structure LogUartBest where
  ovs : UInt32
  div : UInt32
  err : UInt32
  deriving Repr, DecidableEq

section Search

variable (words : WordRing) (srcHz : UInt32)

/-- One round of the search: the divider, and its error in per mille. -/
def logUartRound (ovs : UInt32) : Option (UInt32 × UInt32) := do
  let target ← words.mul logUartBaud ovs
  let nearest := (srcHz + target / 2) / target
  let div := if nearest = 0 then 1 else nearest
  let actual := srcHz / div
  let difference ←
    if actual > target then words.sub actual target else words.sub target actual
  let scaled ← words.mul difference 1000
  some (div, scaled / target)

/-- The search, over the oversamples that are left. -/
def logUartSearch : List UInt32 → LogUartBest → Option LogUartBest
  | [], best => some best
  | ovs :: rest, best => do
      let (div, errPm) ← logUartRound words srcHz ovs
      let best := if errPm < best.err then ⟨ovs, div, errPm⟩ else best
      if errPm = 0 then some best else logUartSearch rest best

end Search

/-- What the search starts with. -/
def logUartNone : LogUartBest :=
  { ovs := 0, div := 0, err := 0xFFFFFFFF }

/-- `log_uart_clock_init`: its result, the statics, and the calls it makes. -/
def logUartClockInit
    (words : WordRing)
    (clock : LogClock)
    (s : LogClockState) : Option (Bool × LogClockState × List LogClockCall) :=
  let measured : LogClockState :=
    { s with clkOk := false, periHz := clock.srcHz }
  let measures : List LogClockCall :=
    [.assignDivider, .setDivider 0, .enableDivider]
  if clock.srcHz = 0 then
    some (false, measured, measures)
  else do
    let best ←
      logUartSearch words clock.srcHz logUartOversamples logUartNone
    let value := best.div - 1
    let calls := measures ++ [.setDivider value]
    let readBack : LogClockState :=
      { measured with
        divider := best.div
        oversampleChosen := best.ovs
        actualHz := clock.achievedHz value / best.ovs
        errPm := best.err }
    if best.err > logBaudTolerancePm then
      some (false, readBack, calls)
    else
      some (true, { readBack with oversample := best.ovs, clkOk := true }, calls)

/-!
## What is asked of it
-/

/-- The baud rate, in Hz. -/
def logBaud : Nat :=
  1000000

/--
With the divider and the oversample the rate is within so many per mille of the
baud rate; `srcHz / (divider * ovs)` is compared without a division.
-/
def LogUartWithin (permille srcHz divider ovs : Nat) : Prop :=
  (1000 - permille) * (logBaud * (divider * ovs)) ≤ 1000 * srcHz ∧
    1000 * srcHz ≤ (1000 + permille) * (logBaud * (divider * ovs))

instance LogUartWithin.decidable
    (permille srcHz divider ovs : Nat) :
    Decidable (LogUartWithin permille srcHz divider ovs) :=
  inferInstanceAs (Decidable (_ ∧ _))

/-- The contract of `log_uart_clock_init`. -/
structure LogUartClockRight (clock : LogClock) (s : LogClockState) : Prop where
  programmed :
    ∀ after calls,
      logUartClockInit .wrapping clock s = some (true, after, calls) →
        ∃ value,
          calls.getLast? = some (.setDivider value) ∧
            value.toNat + 1 ≤ 256 ∧
            LogUartWithin 21 clock.srcHz.toNat (value.toNat + 1)
              after.oversample.toNat
  fits : (logUartClockInit .trapping clock s).isSome = true
  refused :
    ∀ after calls,
      logUartClockInit .wrapping clock s = some (false, after, calls) →
        ∀ ovs divider,
          8 ≤ ovs →
            ovs ≤ 16 →
              1 ≤ divider →
                divider ≤ 256 →
                  ¬LogUartWithin 19 clock.srcHz.toNat divider ovs

/-!
## The search in numbers
-/

/-- The divider whose rate is nearest, and at least 1. -/
def logUartNearest (srcHz ovs : Nat) : Nat :=
  max 1 ((srcHz + logBaud * ovs / 2) / (logBaud * ovs))

/-- How far that divider is from the clock the oversample needs, in Hz. -/
def logUartApart (srcHz ovs : Nat) : Nat :=
  let actual := srcHz / logUartNearest srcHz ovs
  (actual - logBaud * ovs) + (logBaud * ovs - actual)

/-- The error of that divider, in per mille. -/
def logUartErr (srcHz ovs : Nat) : Nat :=
  logUartApart srcHz ovs * 1000 / (logBaud * ovs)

/-- The oversamples that are tried: up to the first without an error. -/
def logUartTried (srcHz : Nat) : List Nat → List Nat
  | [] => []
  | ovs :: rest =>
      if logUartErr srcHz ovs = 0 then [ovs] else ovs :: logUartTried srcHz rest

section Rounds

variable {words : WordRing} {srcHz ovs : UInt32}

/-- A round, from its divider on. -/
theorem logUartRound_of_div
    (exact : words.Exact)
    {target div : UInt32}
    (product : words.mul logUartBaud ovs = some target)
    (isDiv :
      (if (srcHz + target / 2) / target = 0 then 1
        else (srcHz + target / 2) / target) =
          div) :
    logUartRound words srcHz ovs =
      (words.mul
        (if srcHz / div > target then srcHz / div - target
          else target - srcHz / div)
        1000).map fun scaled => (div, scaled / target) := by
  simp only [logUartRound, product, isDiv, Option.bind_eq_bind,
    Option.bind_some]
  by_cases above : srcHz / div > target
  · simp only [if_pos above,
      exact.toExact.sub_eq (UInt32.le_of_lt above), Option.bind_some]
    exact Option.map_eq_bind.symm
  · simp only [if_neg above,
      exact.toExact.sub_eq (UInt32.not_lt.mp above), Option.bind_some]
    exact Option.map_eq_bind.symm

/-- A round computes the numbers, and its last product decides on overflow. -/
theorem logUartRound_eq
    (exact : words.Exact)
    (least : 8 ≤ ovs.toNat)
    (most : ovs.toNat ≤ 16)
    (fits : srcHz.toNat + logBaud * ovs.toNat / 2 < 2 ^ 32) :
    ∃ target div difference : UInt32,
      logUartRound words srcHz ovs =
          ((words.mul difference 1000).map fun scaled =>
            (div, scaled / target)) ∧
        target.toNat = logBaud * ovs.toNat ∧
        div.toNat = logUartNearest srcHz.toNat ovs.toNat ∧
        difference.toNat = logUartApart srcHz.toNat ovs.toNat := by
  have baud : logUartBaud.toNat = logBaud := rfl
  have small : logUartBaud.toNat * ovs.toNat < 2 ^ 32 := by
    rw [baud, logBaud]
    omega
  have product := exact.mul small
  have target : (logUartBaud * ovs).toNat = logBaud * ovs.toNat :=
    WordRing.toNat_mul_of_fits small
  have half : (logUartBaud * ovs / 2).toNat = logBaud * ovs.toNat / 2 := by
    rw [UInt32.toNat_div, target]
    rfl
  have rounded :
      ((srcHz + logUartBaud * ovs / 2) / (logUartBaud * ovs)).toNat =
        (srcHz.toNat + logBaud * ovs.toNat / 2) / (logBaud * ovs.toNat) := by
    rw [UInt32.toNat_div, WordArith.toNat_add_of_fits (by rw [half]; exact fits),
      half, target]
  generalize nearestIs :
    (srcHz + logUartBaud * ovs / 2) / (logUartBaud * ovs) = nearest at rounded
  have div :
      (if nearest = 0 then 1 else nearest).toNat =
        logUartNearest srcHz.toNat ovs.toNat := by
    rw [logUartNearest, ← rounded]
    by_cases zero : nearest = 0
    · rw [if_pos zero, zero]
      rfl
    · have positive : nearest.toNat ≠ 0 :=
        fun isZero => zero (UInt32.toNat_inj.mp isZero)
      rw [if_neg zero]
      omega
  generalize divIs : (if nearest = 0 then 1 else nearest) = d at div
  have actual :
      (srcHz / d).toNat = srcHz.toNat / logUartNearest srcHz.toNat ovs.toNat := by
    rw [UInt32.toNat_div, div]
  have round := logUartRound_of_div exact product (nearestIs ▸ divIs)
  generalize actualIs : srcHz / d = a at actual round
  refine ⟨logUartBaud * ovs, d, _, round, target, div, ?_⟩
  simp only [logUartApart, ← actual, ← target]
  by_cases above : a > logUartBaud * ovs
  · have order := UInt32.le_iff_toNat_le.mp (UInt32.le_of_lt above)
    rw [if_pos above, UInt32.toNat_sub_of_le _ _ (UInt32.le_of_lt above)]
    omega
  · have order := UInt32.le_iff_toNat_le.mp (UInt32.not_lt.mp above)
    rw [if_neg above, UInt32.toNat_sub_of_le _ _ (UInt32.not_lt.mp above)]
    omega

/-- A round whose product fits. -/
theorem logUartRound_fits
    (exact : words.Exact)
    (least : 8 ≤ ovs.toNat)
    (most : ovs.toNat ≤ 16)
    (fits : srcHz.toNat + logBaud * ovs.toNat / 2 < 2 ^ 32)
    (productFits : logUartApart srcHz.toNat ovs.toNat * 1000 < 2 ^ 32) :
    ∃ div errPm,
      logUartRound words srcHz ovs = some (div, errPm) ∧
        div.toNat = logUartNearest srcHz.toNat ovs.toNat ∧
        errPm.toNat = logUartErr srcHz.toNat ovs.toNat := by
  obtain ⟨target, div, difference, round, isTarget, isDiv, isDifference⟩ :=
    logUartRound_eq exact least most fits
  have small : difference.toNat * (1000 : UInt32).toNat < 2 ^ 32 := by
    rw [isDifference]
    exact productFits
  rw [exact.mul small] at round
  refine ⟨div, difference * 1000 / target, round, isDiv, ?_⟩
  rw [UInt32.toNat_div, WordRing.toNat_mul_of_fits small, isDifference, isTarget]
  rfl

/-- A round whose product does not fit traps. -/
theorem logUartRound_traps
    (least : 8 ≤ ovs.toNat)
    (most : ovs.toNat ≤ 16)
    (fits : srcHz.toNat + logBaud * ovs.toNat / 2 < 2 ^ 32)
    (productTooLarge : ¬logUartApart srcHz.toNat ovs.toNat * 1000 < 2 ^ 32) :
    logUartRound .trapping srcHz ovs = none := by
  obtain ⟨target, div, difference, round, isTarget, isDiv, isDifference⟩ :=
    logUartRound_eq WordRing.trapping_exact least most fits
  rw [← isDifference] at productTooLarge
  have trapped : WordRing.trapping.mul difference 1000 = none :=
    if_neg productTooLarge
  rw [round, trapped]
  rfl

end Rounds

/-- What is kept is the round of an oversample. -/
structure LogUartBest.IsOf
    (best : LogUartBest)
    (srcHz oversample : Nat) : Prop where
  ovs : best.ovs.toNat = oversample
  div : best.div.toNat = logUartNearest srcHz oversample
  err : best.err.toNat = logUartErr srcHz oversample

/-- The search keeps the least error, and changes what it kept for a lesser one. -/
structure LogUartBest.Found
    (found best : LogUartBest)
    (srcHz : Nat)
    (tried : List Nat) : Prop where
  least : ∀ ovs ∈ tried, found.err.toNat ≤ logUartErr srcHz ovs
  kept :
    found = best ∨
      ∃ ovs ∈ tried,
        found.IsOf srcHz ovs ∧ logUartErr srcHz ovs < best.err.toNat

/-- Nothing overflows in the round of an oversample. -/
def LogUartFits (srcHz ovs : Nat) : Prop :=
  srcHz + logBaud * ovs / 2 < 2 ^ 32 ∧ logUartApart srcHz ovs * 1000 < 2 ^ 32

section Rounds

variable {words : WordRing} {srcHz : UInt32}

/-- One round of the search. -/
theorem logUartSearch_round
    {ovs : UInt32}
    (exact : words.Exact)
    (range : 8 ≤ ovs.toNat ∧ ovs.toNat ≤ 16)
    (fits : LogUartFits srcHz.toNat ovs.toNat)
    (rest : List UInt32)
    (best : LogUartBest) :
    ∃ next : LogUartBest,
      logUartSearch words srcHz (ovs :: rest) best =
          (if logUartErr srcHz.toNat ovs.toNat = 0 then some next
          else logUartSearch words srcHz rest next) ∧
        next.err.toNat ≤ logUartErr srcHz.toNat ovs.toNat ∧
        (next = best ∨
          next.IsOf srcHz.toNat ovs.toNat ∧
            logUartErr srcHz.toNat ovs.toNat < best.err.toNat) := by
  obtain ⟨div, errPm, round, isDiv, isErr⟩ :=
    logUartRound_fits exact range.1 range.2 fits.1 fits.2
  have zero : errPm = 0 ↔ logUartErr srcHz.toNat ovs.toNat = 0 := by
    rw [← isErr]
    exact (@UInt32.toNat_inj errPm 0).symm
  refine
    ⟨if errPm < best.err then ⟨ovs, div, errPm⟩ else best, ?_, ?_, ?_⟩
  · simp only [logUartSearch, round, Option.bind_eq_bind, Option.bind_some, zero]
  · by_cases less : errPm < best.err
    · rw [if_pos less]
      exact Nat.le_of_eq isErr
    · rw [if_neg less, ← isErr]
      exact UInt32.le_iff_toNat_le.mp (UInt32.not_lt.mp less)
  · by_cases less : errPm < best.err
    · rw [if_pos less, ← isErr]
      exact Or.inr ⟨⟨rfl, isDiv, isErr⟩, UInt32.lt_iff_toNat_lt.mp less⟩
    · rw [if_neg less]
      exact Or.inl rfl

/-- The whole search, where no round overflows. -/
theorem logUartSearch_found
    (exact : words.Exact)
    {oversamples : List UInt32}
    (range : ∀ ovs ∈ oversamples, 8 ≤ ovs.toNat ∧ ovs.toNat ≤ 16)
    (fits :
      ∀ ovs ∈ logUartTried srcHz.toNat (oversamples.map UInt32.toNat),
        LogUartFits srcHz.toNat ovs)
    (best : LogUartBest) :
    ∃ found,
      logUartSearch words srcHz oversamples best = some found ∧
        found.Found best srcHz.toNat
          (logUartTried srcHz.toNat (oversamples.map UInt32.toNat)) := by
  induction oversamples generalizing best with
  | nil =>
      exact
        ⟨best, rfl, fun _ member => absurd member List.not_mem_nil, Or.inl rfl⟩
  | cons ovs rest inductionHypothesis =>
      have inRange := range ovs List.mem_cons_self
      rw [List.map_cons, logUartTried] at fits ⊢
      by_cases zero : logUartErr srcHz.toNat ovs.toNat = 0
      · rw [if_pos zero] at fits ⊢
        obtain ⟨next, search, atMost, kept⟩ :=
          logUartSearch_round exact inRange
            (fits _ (List.mem_singleton_self _)) rest best
        rw [if_pos zero] at search
        refine ⟨next, search, fun other member => ?_, ?_⟩
        · rw [List.mem_singleton.mp member]
          exact atMost
        · refine kept.imp_right fun isOf => ?_
          exact ⟨_, List.mem_singleton_self _, isOf⟩
      · rw [if_neg zero] at fits ⊢
        obtain ⟨next, search, atMost, kept⟩ :=
          logUartSearch_round exact inRange (fits _ List.mem_cons_self) rest best
        rw [if_neg zero] at search
        obtain ⟨found, later, least, isFrom⟩ :=
          inductionHypothesis
            (fun other member => range other (List.mem_cons_of_mem _ member))
            (fun other member => fits other (List.mem_cons_of_mem _ member)) next
        have lower : found.err.toNat ≤ next.err.toNat := by
          rcases isFrom with rfl | ⟨other, -, isOf, less⟩
          · exact Nat.le_refl _
          · rw [isOf.err]
            exact Nat.le_of_lt less
        refine ⟨found, search.trans later, fun other member => ?_, ?_⟩
        · rcases List.mem_cons.mp member with rfl | inRest
          · exact Nat.le_trans lower atMost
          · exact least other inRest
        · rcases isFrom with rfl | ⟨other, inRest, isOf, less⟩
          · refine kept.imp_right fun isOf => ?_
            exact ⟨_, List.mem_cons_self, isOf⟩
          · refine Or.inr ⟨other, List.mem_cons_of_mem _ inRest, isOf, ?_⟩
            rcases kept with rfl | ⟨isHead, before⟩
            · exact less
            · rw [isHead.err] at less
              exact Nat.lt_trans less before

/-- The search traps at the first round that overflows. -/
theorem logUartSearch_traps
    {oversamples : List UInt32}
    (range : ∀ ovs ∈ oversamples, 8 ≤ ovs.toNat ∧ ovs.toNat ≤ 16)
    (sums :
      ∀ ovs ∈ logUartTried srcHz.toNat (oversamples.map UInt32.toNat),
        srcHz.toNat + logBaud * ovs / 2 < 2 ^ 32)
    {ovs : Nat}
    (tried : ovs ∈ logUartTried srcHz.toNat (oversamples.map UInt32.toNat))
    (productTooLarge : ¬logUartApart srcHz.toNat ovs * 1000 < 2 ^ 32)
    (best : LogUartBest) :
    logUartSearch .trapping srcHz oversamples best = none := by
  induction oversamples generalizing best with
  | nil =>
      exact absurd tried List.not_mem_nil
  | cons first rest inductionHypothesis =>
      have inRange := range first List.mem_cons_self
      rw [List.map_cons, logUartTried] at sums tried
      have firstTried :
          first.toNat ∈
            (if logUartErr srcHz.toNat first.toNat = 0 then [first.toNat]
            else
              first.toNat ::
                logUartTried srcHz.toNat (rest.map UInt32.toNat)) := by
        by_cases zero : logUartErr srcHz.toNat first.toNat = 0
        · rw [if_pos zero]
          exact List.mem_singleton_self _
        · rw [if_neg zero]
          exact List.mem_cons_self
      have sum := sums _ firstTried
      by_cases productFits : logUartApart srcHz.toNat first.toNat * 1000 < 2 ^ 32
      · obtain ⟨next, search, -⟩ :=
          logUartSearch_round WordRing.trapping_exact inRange ⟨sum, productFits⟩
            rest best
        by_cases zero : logUartErr srcHz.toNat first.toNat = 0
        · rw [if_pos zero] at tried
          rw [List.mem_singleton.mp tried] at productTooLarge
          exact absurd productFits productTooLarge
        · rw [if_neg zero] at tried sums search
          rcases List.mem_cons.mp tried with rfl | inRest
          · exact absurd productFits productTooLarge
          · rw [search]
            exact
              inductionHypothesis
                (fun other member => range other (List.mem_cons_of_mem _ member))
                (fun other member => sums other (List.mem_cons_of_mem _ member))
                inRest next
      · simp only [logUartSearch,
          logUartRound_traps inRange.1 inRange.2 sum productFits,
          Option.bind_eq_bind, Option.bind_none]

end Rounds

/-!
## The nearest divider
-/

section Nearest

variable {srcHz ovs : Nat}

/-- The nearest divider is at most half a step of the clock away. -/
theorem logUartNearest_bounds
    (least : 8 ≤ ovs) :
    1 ≤ logUartNearest srcHz ovs ∧
      srcHz < 1000000 * (logUartNearest srcHz ovs * ovs) + 500000 * ovs ∧
      (logUartNearest srcHz ovs = 1 ∨
        1000000 * (logUartNearest srcHz ovs * ovs) ≤ srcHz + 500000 * ovs) := by
  have half : logBaud * ovs / 2 = 500000 * ovs := by
    rw [logBaud]
    omega
  have positive : 0 < logBaud * ovs := by
    rw [logBaud]
    omega
  have whole := Nat.div_add_mod (srcHz + 500000 * ovs) (logBaud * ovs)
  have rest := Nat.mod_lt (srcHz + 500000 * ovs) positive
  have scaled (n : Nat) : logBaud * ovs * n = 1000000 * (n * ovs) := by
    rw [Nat.mul_assoc, Nat.mul_comm ovs n]
    rfl
  rw [logUartNearest, half]
  generalize (srcHz + 500000 * ovs) / (logBaud * ovs) = n at whole
  generalize (srcHz + 500000 * ovs) % (logBaud * ovs) = r at whole rest
  rw [scaled] at whole
  rw [logBaud] at rest
  rcases Nat.eq_zero_or_pos n with rfl | atLeast
  · rw [Nat.max_eq_left (by decide)]
    omega
  · rw [Nat.max_eq_right atLeast]
    omega

/-- The error of the nearest divider, as a range of the clock. -/
theorem logUartErr_le_iff
    (least : 8 ≤ ovs)
    {permille : Nat}
    (small : permille < 1000) :
    logUartErr srcHz ovs ≤ permille ↔
      (1000000 - 1000 * (permille + 1)) * (logUartNearest srcHz ovs * ovs) +
            logUartNearest srcHz ovs ≤
          srcHz ∧
        srcHz <
          (1000000 + 1000 * (permille + 1)) *
            (logUartNearest srcHz ovs * ovs) := by
  have lowIs :
      1000000 - 1000 * (permille + 1) + 1000 * (permille + 1) = 1000000 := by
    omega
  have positive : 0 < logBaud * ovs := by
    rw [logBaud]
    omega
  have divides : 0 < logUartNearest srcHz ovs := (logUartNearest_bounds least).1
  rw [← Nat.lt_succ_iff, logUartErr, Nat.div_lt_iff_lt_mul positive,
    logUartApart]
  generalize logUartNearest srcHz ovs = n at divides
  generalize 1000000 - 1000 * (permille + 1) = c at lowIs
  generalize high : 1000000 + 1000 * (permille + 1) = d
  -- the bounds of the clock are those of the quotient, times the divider
  have below : c * (n * ovs) + n ≤ srcHz ↔ c * ovs + 1 ≤ srcHz / n := by
    rw [Nat.le_div_iff_mul_le divides, Nat.add_mul, Nat.one_mul, Nat.mul_assoc,
      Nat.mul_comm ovs n]
  have above : srcHz < d * (n * ovs) ↔ srcHz / n < d * ovs := by
    rw [Nat.div_lt_iff_lt_mul divides, Nat.mul_assoc, Nat.mul_comm ovs n]
  have width :
      permille.succ * (logBaud * ovs) = 1000000 * (permille.succ * ovs) := by
    rw [Nat.mul_left_comm]
    rfl
  have lowWidth : c * ovs + 1000 * (permille.succ * ovs) = 1000000 * ovs := by
    have product : (c + 1000 * (permille + 1)) * ovs = 1000000 * ovs := by
      rw [lowIs]
    rw [Nat.add_mul, Nat.mul_assoc] at product
    exact product
  have highWidth : d * ovs = 1000000 * ovs + 1000 * (permille.succ * ovs) := by
    rw [← high, Nat.add_mul, Nat.mul_assoc]
  rw [below, above, width, logBaud]
  omega

/-- The nearest divider is the one whose rate is tolerable, if one is. -/
theorem logUartErr_of_within
    (least : 8 ≤ ovs)
    {divider : Nat}
    (within : LogUartWithin 19 srcHz divider ovs)
    (positive : 1 ≤ divider) :
    logUartErr srcHz ovs ≤ 20 := by
  rw [logUartErr_le_iff least (by decide)]
  obtain ⟨atLeast, below, above⟩ := @logUartNearest_bounds srcHz ovs least
  obtain ⟨low, high⟩ := within
  have baud : logBaud * (divider * ovs) = 1000000 * (divider * ovs) := rfl
  rw [baud] at low high
  generalize logUartNearest srcHz ovs = n at atLeast below above
  have factor : n ≤ n * ovs := Nat.le_mul_of_pos_right n (by omega)
  have whole : ovs ≤ divider * ovs := Nat.le_mul_of_pos_left ovs positive
  have apart :
      n = divider ∨ n * ovs + ovs ≤ divider * ovs ∨
        divider * ovs + ovs ≤ n * ovs := by
    rcases Nat.lt_trichotomy n divider with less | same | more
    · refine Or.inr (Or.inl ?_)
      rw [← Nat.succ_mul]
      exact Nat.mul_le_mul_right ovs less
    · exact Or.inl same
    · refine Or.inr (Or.inr ?_)
      rw [← Nat.succ_mul]
      exact Nat.mul_le_mul_right ovs more
  have single : n = 1 → n * ovs = ovs := by
    rintro rfl
    exact Nat.one_mul ovs
  rcases apart with rfl | apart
  · omega
  · generalize n * ovs = p at *
    generalize divider * ovs = q at *
    omega

/-- A tolerable error is a rate that is off by at most 2.1 percent. -/
theorem logUartWithin_of_err
    (least : 8 ≤ ovs)
    (tolerable : logUartErr srcHz ovs ≤ 20) :
    LogUartWithin 21 srcHz (logUartNearest srcHz ovs) ovs := by
  obtain ⟨low, high⟩ := (logUartErr_le_iff least (by decide)).mp tolerable
  have baud :
      logBaud * (logUartNearest srcHz ovs * ovs) =
        1000000 * (logUartNearest srcHz ovs * ovs) :=
    rfl
  rw [LogUartWithin, baud]
  omega

/-- The product fits: the divider is 2 or more, or the clock is close. -/
theorem logUartApart_fits_iff
    (least : 8 ≤ ovs)
    (most : ovs ≤ 16) :
    logUartApart srcHz ovs * 1000 < 2 ^ 32 ↔
      3 * (logBaud * ovs) ≤ 2 * srcHz ∨
        srcHz ≤ logBaud * ovs + 4294967 ∧ logBaud * ovs ≤ srcHz + 4294967 := by
  obtain ⟨atLeast, below, above⟩ := @logUartNearest_bounds srcHz ovs least
  have target : logBaud * ovs = 1000000 * ovs := rfl
  rw [logUartApart, target]
  generalize logUartNearest srcHz ovs = n at atLeast below above
  by_cases several : n = 1
  · subst several
    rw [Nat.div_one]
    omega
  · have double : 2 * ovs ≤ n * ovs := Nat.mul_le_mul_right ovs (by omega)
    have scaled (c : Nat) : c * ovs * n = c * (n * ovs) := by
      rw [Nat.mul_assoc, Nat.mul_comm ovs n]
    -- half a step of the clock, divided by two or more
    have low : 1000000 * ovs - 4000000 ≤ srcHz / n := by
      rw [Nat.le_div_iff_mul_le atLeast, Nat.sub_mul, scaled]
      omega
    have high : srcHz / n < 1000000 * ovs + 4000001 := by
      rw [Nat.div_lt_iff_lt_mul atLeast, Nat.add_mul, scaled]
      omega
    refine iff_of_true ?_ (Or.inl ?_)
    · omega
    · omega

/-- The divider of a clock below 2052 MHz fits into eight bits. -/
theorem logUartNearest_le
    (least : 8 ≤ ovs)
    (slow : srcHz < 2052000000) :
    logUartNearest srcHz ovs ≤ 256 := by
  obtain ⟨atLeast, below, above⟩ := @logUartNearest_bounds srcHz ovs least
  by_contra more
  have bound : 257 * ovs ≤ logUartNearest srcHz ovs * ovs :=
    Nat.mul_le_mul_right ovs (by omega)
  omega

end Nearest

/-!
## When the search does what is asked of it
-/

/-- The oversamples that are searched for a clock. -/
def logUartSearched (srcHz : Nat) : List Nat :=
  logUartTried srcHz (logUartOversamples.map UInt32.toNat)

/--
For every oversample that is searched the clock is at least one and a half times
what it needs, or at most 4294967 Hz away from it; and the clock is below
2052 MHz, or the oversample without an error has a divider of at most 256.
-/
def LogUartSearchable (srcHz : Nat) : Prop :=
  srcHz = 0 ∨
    (∀ ovs ∈ logUartSearched srcHz,
      3 * (logBaud * ovs) ≤ 2 * srcHz ∨
        srcHz ≤ logBaud * ovs + 4294967 ∧ logBaud * ovs ≤ srcHz + 4294967) ∧
      (srcHz < 2052000000 ∨
        ∃ ovs ∈ logUartSearched srcHz,
          logUartErr srcHz ovs = 0 ∧ logUartNearest srcHz ovs ≤ 256)

section Searched

variable {srcHz : Nat} {oversamples : List Nat}

/-- What is tried is an oversample. -/
theorem mem_of_mem_tried
    {ovs : Nat}
    (tried : ovs ∈ logUartTried srcHz oversamples) :
    ovs ∈ oversamples := by
  induction oversamples with
  | nil =>
      exact tried
  | cons first rest inductionHypothesis =>
      rw [logUartTried] at tried
      by_cases zero : logUartErr srcHz first = 0
      · rw [if_pos zero] at tried
        rw [List.mem_singleton.mp tried]
        exact List.mem_cons_self
      · rw [if_neg zero] at tried
        rcases List.mem_cons.mp tried with rfl | inRest
        · exact List.mem_cons_self
        · exact List.mem_cons_of_mem _ (inductionHypothesis inRest)

/-- All of them are tried when each has an error. -/
theorem tried_eq_of_errors
    (errors : ∀ ovs ∈ logUartTried srcHz oversamples, logUartErr srcHz ovs ≠ 0) :
    logUartTried srcHz oversamples = oversamples := by
  induction oversamples with
  | nil =>
      rfl
  | cons first rest inductionHypothesis =>
      rw [logUartTried] at errors ⊢
      by_cases zero : logUartErr srcHz first = 0
      · rw [if_pos zero] at errors
        exact absurd zero (errors first (List.mem_singleton_self _))
      · rw [if_neg zero] at errors ⊢
        rw [inductionHypothesis fun ovs member =>
          errors ovs (List.mem_cons_of_mem _ member)]

/-- The one without an error is the last that is tried. -/
theorem tried_unique
    {ovs other : Nat}
    (tried : ovs ∈ logUartTried srcHz oversamples)
    (triedOther : other ∈ logUartTried srcHz oversamples)
    (zero : logUartErr srcHz ovs = 0)
    (zeroOther : logUartErr srcHz other = 0) :
    ovs = other := by
  induction oversamples with
  | nil =>
      exact absurd tried List.not_mem_nil
  | cons first rest inductionHypothesis =>
      rw [logUartTried] at tried triedOther
      by_cases firstZero : logUartErr srcHz first = 0
      · rw [if_pos firstZero] at tried triedOther
        rw [List.mem_singleton.mp tried, List.mem_singleton.mp triedOther]
      · rw [if_neg firstZero] at tried triedOther
        rcases List.mem_cons.mp tried with rfl | inRest
        · exact absurd zero firstZero
        · rcases List.mem_cons.mp triedOther with rfl | inRestOther
          · exact absurd zeroOther firstZero
          · exact inductionHypothesis inRest inRestOther

/-- The oversamples are those of the register. -/
theorem logUartOversamples_numbers :
    ∀ ovs ∈ logUartOversamples.map UInt32.toNat, 8 ≤ ovs ∧ ovs ≤ 16 := by
  decide

/-- The range of the oversamples that are searched. -/
theorem searched_range
    {ovs : Nat}
    (searched : ovs ∈ logUartSearched srcHz) :
    8 ≤ ovs ∧ ovs ≤ 16 :=
  logUartOversamples_numbers ovs (mem_of_mem_tried searched)

/-- An oversample of 8 is searched first. -/
theorem eight_searched :
    8 ∈ logUartSearched srcHz := by
  change 8 ∈ logUartTried srcHz (8 :: [9, 10, 11, 12, 13, 14, 15, 16])
  rw [logUartTried]
  split
  · exact List.mem_singleton_self _
  · exact List.mem_cons_self

/-- When it has no error no other is searched. -/
theorem searched_eq_of_zero
    (zero : logUartErr srcHz 8 = 0) :
    logUartSearched srcHz = [8] :=
  if_pos zero

/-- The error of an oversample of 8, for a fast clock. -/
theorem logUartErr_eight
    (fast : 2052000000 ≤ srcHz) :
    257 ≤ logUartNearest srcHz 8 ∧ logUartErr srcHz 8 ≤ 1 ∧
      (4200000000 ≤ srcHz → logUartErr srcHz 8 = 0) := by
  obtain ⟨atLeast, below, above⟩ := @logUartNearest_bounds srcHz 8 (Nat.le_refl 8)
  have many : 257 ≤ logUartNearest srcHz 8 := by omega
  refine ⟨many, ?_, fun faster => ?_⟩
  · rw [logUartErr_le_iff (Nat.le_refl 8) (by decide)]
    omega
  · rw [← Nat.le_zero, logUartErr_le_iff (Nat.le_refl 8) (by decide)]
    omega

end Searched

section Contract

variable {clock : LogClock} {s : LogClockState}

/-- Where the rounded clock wraps around, the first product does not fit. -/
theorem logUartRound_eight_traps
    {srcHz : UInt32}
    (wraps : 2 ^ 32 ≤ srcHz.toNat + 4000000) :
    logUartRound .trapping srcHz 8 = none := by
  have fitsWord := srcHz.toNat_lt
  have eight : (8000000 : UInt32).toNat = 8000000 := rfl
  have thousand : (1000 : UInt32).toNat = 1000 := rfl
  have half : ((8000000 : UInt32) / 2).toNat = 4000000 := rfl
  have target : WordRing.trapping.mul logUartBaud 8 = some 8000000 := rfl
  have sum : (srcHz + 8000000 / 2).toNat = srcHz.toNat + 4000000 - 2 ^ 32 := by
    rw [UInt32.toNat_add, half]
    omega
  have nearest : (srcHz + 8000000 / 2) / 8000000 = 0 := by
    refine UInt32.toNat_inj.mp ?_
    rw [UInt32.toNat_div, sum, eight, UInt32.toNat_zero]
    omega
  have actual : srcHz / 1 = srcHz := by
    refine UInt32.toNat_inj.mp ?_
    rw [UInt32.toNat_div, UInt32.toNat_one, Nat.div_one]
  have above : srcHz > 8000000 := by
    rw [gt_iff_lt, UInt32.lt_iff_toNat_lt, eight]
    omega
  have difference : (srcHz - 8000000).toNat = srcHz.toNat - 8000000 := by
    rw [UInt32.toNat_sub_of_le _ _ (UInt32.le_of_lt above), eight]
  have product : WordRing.trapping.mul (srcHz - 8000000) 1000 = none := by
    refine if_neg ?_
    rw [difference, thousand]
    omega
  rw [logUartRound_of_div WordRing.trapping_exact target (if_pos nearest),
    actual, if_pos above, product]
  rfl

/-- The search of a clock that runs. -/
theorem logUartClockInit_found
    {words : WordRing}
    (running : clock.srcHz ≠ 0)
    {found : LogUartBest}
    (search :
      logUartSearch words clock.srcHz logUartOversamples logUartNone =
        some found) :
    ∃ after calls,
      logUartClockInit words clock s =
          some (decide (found.err.toNat ≤ 20), after, calls) ∧
        calls.getLast? = some (.setDivider (found.div - 1)) ∧
        (found.err.toNat ≤ 20 → after.oversample = found.ovs) := by
  have tolerable : found.err > logBaudTolerancePm ↔ ¬found.err.toNat ≤ 20 := by
    rw [gt_iff_lt, UInt32.lt_iff_toNat_lt, Nat.not_le]
    rfl
  let readBack : LogClockState :=
    { s with
      clkOk := false
      periHz := clock.srcHz
      divider := found.div
      oversampleChosen := found.ovs
      actualHz := clock.achievedHz (found.div - 1) / found.ovs
      errPm := found.err }
  let calls : List LogClockCall :=
    [.assignDivider, .setDivider 0, .enableDivider] ++
      [.setDivider (found.div - 1)]
  by_cases tooFar : found.err > logBaudTolerancePm
  · have far := tolerable.mp tooFar
    refine ⟨readBack, calls, ?_, rfl, fun near => absurd near far⟩
    simp only [logUartClockInit, if_neg running, search, Option.bind_eq_bind,
      Option.bind_some, if_pos tooFar, decide_eq_false far]
    rfl
  · have near := not_not.mp (mt tolerable.mpr tooFar)
    refine
      ⟨{ readBack with oversample := found.ovs, clkOk := true }, calls, ?_, rfl,
        fun _ => rfl⟩
    simp only [logUartClockInit, if_neg running, search, Option.bind_eq_bind,
      Option.bind_some, if_neg tooFar, decide_eq_true near]
    rfl

/-- A search that traps is one in which something does not fit. -/
theorem not_right_of_traps
    (running : clock.srcHz ≠ 0)
    (traps :
      logUartSearch .trapping clock.srcHz logUartOversamples logUartNone =
        none) :
    ¬LogUartClockRight clock s := by
  intro right
  have fits := right.fits
  simp only [logUartClockInit, if_neg running, traps, Option.bind_eq_bind,
    Option.bind_none] at fits
  cases fits

/-- The range of the oversamples, as words. -/
theorem logUartOversamples_range :
    ∀ ovs ∈ logUartOversamples, 8 ≤ ovs.toNat ∧ ovs.toNat ≤ 16 :=
  fun _ member => logUartOversamples_numbers _ (List.mem_map_of_mem member)

/-- The round that is chosen: its error is least, and that of 8 unless less. -/
theorem logUartSearch_chosen
    {words : WordRing}
    {srcHz : UInt32}
    (exact : words.Exact)
    (fits : ∀ ovs ∈ logUartSearched srcHz.toNat, LogUartFits srcHz.toNat ovs) :
    ∃ found ovs,
      logUartSearch words srcHz logUartOversamples logUartNone = some found ∧
        ovs ∈ logUartSearched srcHz.toNat ∧
        found.IsOf srcHz.toNat ovs ∧
        (∀ other ∈ logUartSearched srcHz.toNat,
          logUartErr srcHz.toNat ovs ≤ logUartErr srcHz.toNat other) ∧
        (ovs = 8 ∨ logUartErr srcHz.toNat ovs < logUartErr srcHz.toNat 8) := by
  have eightFits := fits 8 eight_searched
  have eightErr : logUartErr srcHz.toNat 8 < 2 ^ 32 - 1 := by
    have product := eightFits.2
    have divided : logUartErr srcHz.toNat 8 ≤ 2 ^ 32 / (logBaud * 8) :=
      Nat.div_le_div_right (Nat.le_of_lt product)
    exact Nat.lt_of_le_of_lt divided (by decide)
  obtain ⟨next, search, atMost, kept⟩ :=
    @logUartSearch_round words srcHz 8 exact (by decide) eightFits
      [9, 10, 11, 12, 13, 14, 15, 16] logUartNone
  have isEight : next.IsOf srcHz.toNat 8 := by
    rcases kept with rfl | ⟨isEight, -⟩
    · exact absurd eightErr (Nat.not_lt.mpr atMost)
    · exact isEight
  have split :
      logUartSearched srcHz.toNat =
        if logUartErr srcHz.toNat 8 = 0 then [8]
        else 8 :: logUartTried srcHz.toNat [9, 10, 11, 12, 13, 14, 15, 16] :=
    rfl
  by_cases zero : logUartErr srcHz.toNat 8 = 0
  · refine ⟨next, 8, search.trans (if_pos zero), eight_searched, isEight, ?_,
      Or.inl rfl⟩
    intro other _
    rw [zero]
    exact Nat.zero_le _
  · rw [if_neg zero] at split
    obtain ⟨found, later, least, isFrom⟩ :=
      @logUartSearch_found words srcHz exact [9, 10, 11, 12, 13, 14, 15, 16]
        (fun ovs member =>
          logUartOversamples_range ovs (List.mem_cons_of_mem 8 member))
        (fun ovs member =>
          fits ovs (split ▸ List.mem_cons_of_mem 8 member))
        next
    have whole := search.trans ((if_neg zero).trans later)
    rcases isFrom with rfl | ⟨ovs, inRest, isOf, less⟩
    · refine ⟨found, 8, whole, eight_searched, isEight, ?_, Or.inl rfl⟩
      intro other searched
      rw [split] at searched
      rcases List.mem_cons.mp searched with rfl | otherInRest
      · exact Nat.le_refl _
      · rw [← isEight.err]
        exact least other otherInRest
    · rw [isEight.err] at less
      refine
        ⟨found, ovs, whole, split ▸ List.mem_cons_of_mem 8 inRest, isOf, ?_,
          Or.inr less⟩
      intro other searched
      rw [split] at searched
      rcases List.mem_cons.mp searched with rfl | otherInRest
      · exact Nat.le_of_lt less
      · rw [← isOf.err]
        exact least other otherInRest

/-- The divider that is programmed for a round is the nearest one. -/
theorem LogUartBest.IsOf.divider
    {found : LogUartBest}
    {srcHz ovs : Nat}
    (isOf : found.IsOf srcHz ovs)
    (low : 8 ≤ ovs) :
    (found.div - 1).toNat + 1 = logUartNearest srcHz ovs := by
  have positive : 1 ≤ logUartNearest srcHz ovs := (logUartNearest_bounds low).1
  have one : (1 : UInt32) ≤ found.div := by
    rw [UInt32.le_iff_toNat_le, isOf.div]
    exact positive
  rw [UInt32.toNat_sub_of_le _ _ one, isOf.div]
  exact Nat.sub_add_cancel positive

/-- When every oversample has an error, all of them are searched. -/
theorem searched_of_errors
    {srcHz ovs : Nat}
    (errors : ∀ o ∈ logUartSearched srcHz, logUartErr srcHz o ≠ 0)
    (low : 8 ≤ ovs)
    (high : ovs ≤ 16) :
    ovs ∈ logUartSearched srcHz := by
  rw [logUartSearched, tried_eq_of_errors errors]
  have each : ∀ o < 17, 8 ≤ o → o ∈ logUartOversamples.map UInt32.toNat := by
    decide
  exact each ovs (Nat.lt_succ_of_le high) low

/-- When the divider of the round with the least error fits its register. -/
theorem nearest_le_iff_of_least
    {srcHz ovs : Nat}
    (searched : ovs ∈ logUartSearched srcHz)
    (least :
      ∀ other ∈ logUartSearched srcHz,
        logUartErr srcHz ovs ≤ logUartErr srcHz other)
    (first : ovs = 8 ∨ logUartErr srcHz ovs < logUartErr srcHz 8) :
    logUartNearest srcHz ovs ≤ 256 ↔
      srcHz < 2052000000 ∨
        ∃ ovs ∈ logUartSearched srcHz,
          logUartErr srcHz ovs = 0 ∧ logUartNearest srcHz ovs ≤ 256 := by
  constructor
  · intro inRegister
    by_contra neither
    obtain ⟨notSlow, none⟩ := not_or.mp neither
    obtain ⟨many, atMostOne, -⟩ := logUartErr_eight (Nat.not_lt.mp notSlow)
    rcases first with rfl | less
    · omega
    · exact none ⟨ovs, searched, by omega, inRegister⟩
  · rintro (slow | ⟨exactOvs, exactSearched, zero, fitsRegister⟩)
    · exact logUartNearest_le (searched_range searched).1 slow
    · have alsoZero : logUartErr srcHz ovs = 0 :=
        Nat.le_zero.mp (zero ▸ least exactOvs exactSearched)
      rw [tried_unique searched exactSearched alsoZero zero]
      exact fitsRegister

/-- Where nothing overflows, the divider alone may be too large. -/
theorem right_iff_of_fits
    (running : clock.srcHz ≠ 0)
    (fits :
      ∀ ovs ∈ logUartSearched clock.srcHz.toNat,
        LogUartFits clock.srcHz.toNat ovs) :
    LogUartClockRight clock s ↔
      clock.srcHz.toNat < 2052000000 ∨
        ∃ ovs ∈ logUartSearched clock.srcHz.toNat,
          logUartErr clock.srcHz.toNat ovs = 0 ∧
            logUartNearest clock.srcHz.toNat ovs ≤ 256 := by
  obtain ⟨found, ovs, search, searched, isOf, least, first⟩ :=
    logUartSearch_chosen WordRing.wrapping_exact fits
  obtain ⟨trappingFound, -, trappingSearch, -⟩ :=
    logUartSearch_chosen WordRing.trapping_exact fits
  obtain ⟨after, calls, init, last, chosen⟩ :=
    @logUartClockInit_found clock s .wrapping running found search
  obtain ⟨trappingAfter, trappingCalls, trappingInit, -⟩ :=
    @logUartClockInit_found clock s .trapping running _ trappingSearch
  have range := searched_range searched
  have value := isOf.divider range.1
  rw [isOf.err] at init chosen
  rw [← nearest_le_iff_of_least searched least first]
  constructor
  · intro right
    by_contra tooMany
    have fast : 2052000000 ≤ clock.srcHz.toNat := by
      by_contra slow
      exact tooMany (logUartNearest_le range.1 (Nat.not_le.mp slow))
    obtain ⟨-, atMostOne, -⟩ := logUartErr_eight fast
    have atMost := least 8 eight_searched
    have tolerable : logUartErr clock.srcHz.toNat ovs ≤ 20 := by omega
    rw [decide_eq_true tolerable] at init
    obtain ⟨programmed, isLast, inRegister, -⟩ := right.programmed _ _ init
    obtain rfl : programmed = found.div - 1 := by
      have same := isLast.symm.trans last
      cases same
      rfl
    rw [value] at inRegister
    exact tooMany inRegister
  · intro inRegister
    refine ⟨fun after' calls' result => ?_, ?_, fun after' calls' result => ?_⟩
    · rw [init] at result
      simp only [Option.some.injEq, Prod.mk.injEq, decide_eq_true_eq] at result
      obtain ⟨tolerable, rfl, rfl⟩ := result
      refine ⟨found.div - 1, last, ?_, ?_⟩
      · rw [value]
        exact inRegister
      · rw [value, chosen tolerable, isOf.ovs]
        exact logUartWithin_of_err range.1 tolerable
    · rw [trappingInit]
      rfl
    · rw [init] at result
      simp only [Option.some.injEq, Prod.mk.injEq, decide_eq_false_iff_not]
        at result
      intro other divider low high dividerLow dividerHigh within
      have otherErr := logUartErr_of_within low within dividerLow
      have errors :
          ∀ o ∈ logUartSearched clock.srcHz.toNat,
            logUartErr clock.srcHz.toNat o ≠ 0 := by
        intro o member zero
        have atMost := least o member
        omega
      have otherSearched := searched_of_errors errors low high
      exact result.1 (Nat.le_trans (least other otherSearched) otherErr)

/-- A clock that does not run is refused. -/
theorem right_of_stopped
    (stopped : clock.srcHz = 0) :
    LogUartClockRight clock s := by
  have init (words : WordRing) :
      ∃ after calls,
        logUartClockInit words clock s = some (false, after, calls) :=
    ⟨_, _, if_pos stopped⟩
  obtain ⟨after, calls, wrapping⟩ := init .wrapping
  obtain ⟨_, _, trapping⟩ := init .trapping
  refine ⟨fun after' calls' result => ?_, ?_, fun _ _ _ => ?_⟩
  · rw [wrapping] at result
    simp at result
  · rw [trapping]
    rfl
  · rintro ovs divider low - dividerLow - ⟨within, -⟩
    have rate : 0 < logBaud * (divider * ovs) :=
      Nat.mul_pos (by decide) (Nat.mul_pos dividerLow (by omega))
    have none : clock.srcHz.toNat = 0 := by
      rw [stopped]
      rfl
    rw [none] at within
    omega

/-- Where the rounded clock of the first round wraps around, all is lost. -/
theorem eight_wraps
    (wraps : 2 ^ 32 ≤ clock.srcHz.toNat + 4000000) :
    ¬LogUartClockRight clock s ∧ ¬LogUartSearchable clock.srcHz.toNat := by
  have running : clock.srcHz ≠ 0 := by
    intro stopped
    rw [stopped] at wraps
    exact absurd wraps (by decide)
  refine ⟨not_right_of_traps running ?_, ?_⟩
  · simp only [logUartOversamples, logUartSearch,
      logUartRound_eight_traps wraps, Option.bind_eq_bind, Option.bind_none]
  · rintro (stopped | ⟨-, slow | ⟨ovs, searched, -, fitsRegister⟩⟩)
    · omega
    · omega
    · obtain ⟨many, -, zero⟩ :=
        @logUartErr_eight clock.srcHz.toNat (by omega)
      rw [searched_eq_of_zero (zero (by omega))] at searched
      rw [List.mem_singleton.mp searched] at fitsRegister
      omega

/--
The clock is programmed and the result is right, and nothing overflows on the
way, exactly for the clocks that `LogUartSearchable` describes.
-/
theorem log_uart_clock_right_iff
    (clock : LogClock)
    (s : LogClockState) :
    LogUartClockRight clock s ↔ LogUartSearchable clock.srcHz.toNat := by
  by_cases stopped : clock.srcHz = 0
  · refine iff_of_true (right_of_stopped stopped) (Or.inl ?_)
    rw [stopped]
    rfl
  by_cases wraps : 2 ^ 32 ≤ clock.srcHz.toNat + 4000000
  · obtain ⟨notRight, notSearchable⟩ := @eight_wraps clock s wraps
    exact iff_of_false notRight notSearchable
  have running : clock.srcHz.toNat ≠ 0 :=
    fun zero => stopped (UInt32.toNat_inj.mp zero)
  have sums :
      ∀ ovs ∈ logUartSearched clock.srcHz.toNat,
        clock.srcHz.toNat + logBaud * ovs / 2 < 2 ^ 32 := by
    intro ovs searched
    have half : logBaud * ovs / 2 = 500000 * ovs := by
      rw [logBaud]
      omega
    rw [half]
    by_cases fast : 4200000000 ≤ clock.srcHz.toNat
    · have zero := (logUartErr_eight (by omega)).2.2 fast
      rw [searched_eq_of_zero zero] at searched
      rw [List.mem_singleton.mp searched]
      omega
    · have most := (searched_range searched).2
      omega
  have productFits :
      (∀ ovs ∈ logUartSearched clock.srcHz.toNat,
        LogUartFits clock.srcHz.toNat ovs) ↔
        ∀ ovs ∈ logUartSearched clock.srcHz.toNat,
          3 * (logBaud * ovs) ≤ 2 * clock.srcHz.toNat ∨
            clock.srcHz.toNat ≤ logBaud * ovs + 4294967 ∧
              logBaud * ovs ≤ clock.srcHz.toNat + 4294967 := by
    refine forall₂_congr fun ovs searched => ?_
    have range := searched_range searched
    rw [← logUartApart_fits_iff range.1 range.2]
    exact and_iff_right (sums ovs searched)
  rw [LogUartSearchable, or_iff_right running, ← productFits]
  by_cases fits :
      ∀ ovs ∈ logUartSearched clock.srcHz.toNat,
        LogUartFits clock.srcHz.toNat ovs
  · rw [right_iff_of_fits stopped fits]
    exact (and_iff_right fits).symm
  · refine iff_of_false (not_right_of_traps stopped ?_) fun both => fits both.1
    obtain ⟨ovs, searched, tooLarge⟩ := by
      simpa only [not_forall] using fits
    exact
      logUartSearch_traps logUartOversamples_range sums searched
        (fun productFits => tooLarge ⟨sums ovs searched, productFits⟩)
        logUartNone

end Contract

/-- A clock of 13.4 MHz, whatever divider is programmed. -/
def logClockAt13400 : LogClock where
  srcHz := 13400000
  achievedHz := fun value => 13400000 / (value + 1)

/-- The statics before the port is brought up. -/
def logClockStateBefore : LogClockState where
  periHz := 0
  divider := 0
  oversampleChosen := 0
  actualHz := 0
  errPm := 0
  clkOk := false
  oversample := 8

/--
The error of an oversample of 9 wraps around to 11 per mille.  It is accepted
with a divider of 1, which makes a rate of almost 1.5 Mbps.
-/
theorem wrapped_error_is_accepted :
    ∃ after calls,
      logUartClockInit .wrapping logClockAt13400 logClockStateBefore =
          some (true, after, calls) ∧
        calls.getLast? = some (.setDivider 0) ∧
        after.oversample = 9 ∧
        after.errPm = 11 ∧
        ¬LogUartWithin 21 13400000 1 9 ∧
        ¬LogUartClockRight logClockAt13400 logClockStateBefore := by
  have far : ¬LogUartWithin 21 13400000 1 9 := by decide
  refine ⟨_, _, rfl, rfl, rfl, rfl, far, fun right => ?_⟩
  obtain ⟨value, last, -, within⟩ := right.programmed _ _ rfl
  have one : value = 0 := by
    cases last
    rfl
  rw [one] at within
  exact far within

end TraveoBodyDomain
