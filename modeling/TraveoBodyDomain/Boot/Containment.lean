import TraveoBodyDomain.Boot.Decision
import TraveoBodyDomain.Lib.Machine

/-!
# A boot loop stays contained

Once the failure counter has passed the threshold, the application is no longer
started, whatever is done to the image or to `.noinit`, until a power-on, an
unknown cause, a programming request or an ECUReset clears the counter.

The counter has 32 bits and is incremented all the same when it is at its
largest value.  It is then 0, and the loop is open again.
-/

namespace TraveoBodyDomain

/-- A reset: its cause, what is in `.noinit` after it, and the image then. -/
structure FblReset where
  cause : FblResetCause
  noinit : FblHandshake
  port : FblPort

/-- The state that the boot after a reset starts from. -/
def FblReset.enter (reset : FblReset) (s : FblState) : FblState :=
  { s with resetCause := reset.cause, noinit := reset.noinit }

/-- A reset, and the boot after it. -/
def fblResetStep : Machine.Step FblState FblReset FblBootAction :=
  fun s reset =>
    let (action, s) := fblRunBoot reset.port (reset.enter s)
    (s, [action])

/-- A reset after which the counter is not cleared. -/
def FblReset.KeepsCounter (reset : FblReset) : Prop :=
  (reset.cause = .software ∧
      ¬(fblHandshakeValid reset.noinit = true ∧
        reset.noinit.mode = FblBootMode.programmingRequested.toByte)) ∨
    reset.cause = .watchdog ∨ reset.cause = .debug ∨ reset.cause = .hibernate

/-- The failure counter has exceeded the threshold. -/
structure FblState.LoopDetected (s : FblState) : Prop where
  magic : s.backup fblBregMagicIdx = fblBackupMagic
  exceeded : fblBootloopThreshold < s.backup fblBregCounterIdx

/-- A reset that counts does not find the counter at its largest value. -/
def FblReset.CounterHasRoom (s : FblState) (reset : FblReset) : Prop :=
  reset.cause = .software ∨ reset.cause = .watchdog →
    s.backup fblBregCounterIdx ≠ 0xFFFFFFFF

section Containment

variable {s : FblState} {reset : FblReset}

/-- The counter after a reset that does not clear it. -/
theorem updatedCounter_of_keepsCounter
    (magic : s.backup fblBregMagicIdx = fblBackupMagic)
    (keeps : reset.KeepsCounter) :
    (reset.enter s).updatedCounter =
      if reset.cause = .software ∨ reset.cause = .watchdog then
        s.backup fblBregCounterIdx + 1
      else
        s.backup fblBregCounterIdx := by
  have kept : (reset.enter s).keptCounter = s.backup fblBregCounterIdx :=
    FblState.keptCounter_of_magic magic
  rw [← kept]
  rcases keeps with ⟨software, noRequest⟩ | watchdog | debug | hibernate
  · have notRequested : ¬(reset.enter s).RequestsProgramming := by
      rintro ⟨_, noinitMagic, crc, mode⟩
      exact noRequest ⟨(fblHandshakeValid_iff _).mpr ⟨noinitMagic, crc⟩, mode⟩
    rw [if_pos (Or.inl software)]
    exact FblState.updatedCounter_of_crash (Or.inr ⟨software, notRequested⟩)
  · rw [if_pos (Or.inr watchdog)]
    exact FblState.updatedCounter_of_crash (Or.inl watchdog)
  · rw [if_neg (by simp [debug])]
    exact FblState.updatedCounter_of_orderly (Or.inl debug)
  · rw [if_neg (by simp [hibernate])]
    exact FblState.updatedCounter_of_orderly (Or.inr hibernate)

/-- One more is still more than the threshold, while there is room. -/
theorem threshold_lt_succ
    {counter : UInt32}
    (exceeded : fblBootloopThreshold < counter)
    (room : counter ≠ 0xFFFFFFFF) :
    fblBootloopThreshold < counter + 1 := by
  have notLargest : counter.toNat ≠ 0xFFFFFFFF :=
    fun same => room (UInt32.toNat_inj.mp same)
  have small := counter.toNat_lt
  simp only [UInt32.lt_iff_toNat_lt, fblBootloopThreshold,
    UInt32.toNat_add] at exceeded ⊢
  simp only [UInt32.reduceToNat] at exceeded ⊢
  omega

/-- One such reset does not start the application, and leaves the loop detected. -/
theorem loopDetected_step
    (detected : s.LoopDetected)
    (keeps : reset.KeepsCounter)
    (room : reset.CounterHasRoom s) :
    (fblResetStep s reset).1.LoopDetected ∧
      (fblResetStep s reset).2 = [.programmingMode] := by
  have exceeded : fblBootloopThreshold < (reset.enter s).updatedCounter := by
    rw [updatedCounter_of_keepsCounter detected.magic keeps]
    split
    · next counts => exact threshold_lt_succ detected.exceeded (room counts)
    · exact detected.exceeded
  have reconciled := fblRunBoot_reconciled reset.port (reset.enter s)
  refine ⟨⟨reconciled.magic, reconciled.counter ▸ exceeded⟩, ?_⟩
  have stays : (fblRunBoot reset.port (reset.enter s)).1 ≠ .jumpApp := by
    intro jumped
    exact UInt32.not_lt.mpr ((fblRunBoot_jump _ _).mp jumped).2.1 exceeded
  cases decided : (fblRunBoot reset.port (reset.enter s)).1 with
  | jumpApp => exact absurd decided stays
  | programmingMode => simp [fblResetStep, decided]

end Containment

/--
While no reset that counts finds the counter at its largest value, a run of
resets that keep the counter never starts the application.
-/
theorem boot_loop_stays_contained
    {s : FblState}
    (detected : s.LoopDetected)
    {resets : List FblReset}
    (keep : ∀ reset ∈ resets, reset.KeepsCounter)
    (room :
      Machine.Allowed fblResetStep (fun s reset => reset.CounterHasRoom s) s
        resets) :
    .jumpApp ∉ Machine.trace fblResetStep s resets ∧
      (Machine.final fblResetStep s resets).LoopDetected := by
  induction resets generalizing s with
  | nil =>
      exact ⟨by simp, detected⟩
  | cons reset rest inductionHypothesis =>
      have step :=
        loopDetected_step detected (keep reset List.mem_cons_self) room.1
      have later :=
        inductionHypothesis step.1
          (fun other member => keep other (List.mem_cons_of_mem _ member))
          room.2
      refine ⟨?_, later.2⟩
      rw [Machine.trace_cons, step.2]
      simpa using later.1

/-- An image with a header, sane vectors, and nothing between them. -/
def sampleImage : List UInt8 :=
  [0x00, 0x00, 0x02, 0x08, 0x01, 0x01, 0x04, 0x10] ++
    List.replicate 248 0 ++
    [0x01, 0x0D, 0x90, 0xA9, 1, 0, 12, 0, 0x0C, 0x01, 0, 0]

/-- The image at its place, and another core that verifies it. -/
def samplePort : FblPort where
  algo := .sha256
  mem := fun address => sampleImage.getD (address - 0x10040000).toNat 0
  cryptoVerify := fun _ _ _ => .valid
  appImageBase := 0x10040000
  appRegionLen := 832 * 1024
  lifecycle := .secure
  dwell :=
    { startMs := 0
      contact := fun _ => false
      nowMs := fun _ => 2000
      advances := ⟨0, by decide⟩ }

/-- A watchdog reset that finds zeros in `.noinit`. -/
def sampleWatchdog : FblReset where
  cause := .watchdog
  noinit := ⟨0, 0, 0, 0, 0⟩
  port := samplePort

/-- The failure counter has just passed the threshold. -/
def sampleDetected : FblState where
  resetCause := .other
  noinit := fblHandshakeInitDefault ⟨0, 0, 0, 0, 0⟩
  backup := fun idx => if idx = fblBregMagicIdx then fblBackupMagic else 4

/-- A crash, a debugger, a wake from hibernation, and a software reset. -/
def sampleResets : List FblReset :=
  [sampleWatchdog, { sampleWatchdog with cause := .debug },
    { sampleWatchdog with cause := .hibernate },
    { sampleWatchdog with cause := .software }]

/-- Resets of four kinds while the loop is detected. -/
theorem mixed_resets_are_contained :
    .jumpApp ∉ Machine.trace fblResetStep sampleDetected sampleResets ∧
      (Machine.final fblResetStep sampleDetected sampleResets).LoopDetected := by
  refine boot_loop_stays_contained ⟨by decide, by decide⟩ ?_ ?_
  · simp only [sampleResets, List.forall_mem_cons]
    refine ⟨?_, ?_, ?_, ?_, List.forall_mem_nil _⟩
    · exact Or.inr (Or.inl rfl)
    · exact Or.inr (Or.inr (Or.inl rfl))
    · exact Or.inr (Or.inr (Or.inr rfl))
    · exact Or.inl ⟨rfl, by decide⟩
  · exact
      ⟨fun _ => by decide, fun _ => by decide, fun _ => by decide,
        fun _ => by decide, trivial⟩

/-- Each watchdog reset is counted. -/
theorem sampleWatchdog_updatedCounter
    {s : FblState}
    {counter : UInt32}
    (reconciled : s.Reconciled counter) :
    (sampleWatchdog.enter s).updatedCounter = counter + 1 := by
  have updated :=
    updatedCounter_of_keepsCounter reconciled.magic
      (Or.inr (Or.inl rfl) : sampleWatchdog.KeepsCounter)
  simpa [sampleWatchdog, reconciled.counter] using updated

/-- After `n` watchdog resets the counter is `n` higher, modulo its width. -/
theorem sampleWatchdog_counts (n : Nat) :
    (Machine.final fblResetStep sampleDetected
        (List.replicate n sampleWatchdog)).Reconciled
          (4 + UInt32.ofNat n) := by
  induction n with
  | zero =>
      exact ⟨bootHandshakeEncode_valid _ _, by decide, by decide⟩
  | succ n inductionHypothesis =>
      have oneMore :
          4 + UInt32.ofNat (n + 1) = 4 + UInt32.ofNat n + 1 := by
        rw [UInt32.ofNat_add, ← UInt32.add_assoc]
        rfl
      rw [List.replicate_succ', Machine.final_append, oneMore,
        ← sampleWatchdog_updatedCounter inductionHypothesis]
      exact fblRunBoot_reconciled samplePort _

/-- 2³² - 4 watchdog resets wrap the counter, and the last one boots again. -/
theorem wrapped_counter_reopens_the_loop :
    ¬∀ (s : FblState) (resets : List FblReset),
      s.LoopDetected →
        (∀ reset ∈ resets, reset.KeepsCounter) →
          .jumpApp ∉ Machine.trace fblResetStep s resets := by
  intro contained
  have counted := sampleWatchdog_counts (2 ^ 32 - 5)
  have wrapped := sampleWatchdog_updatedCounter counted
  generalize reached :
    Machine.final fblResetStep sampleDetected
      (List.replicate (2 ^ 32 - 5) sampleWatchdog) = s at counted wrapped
  have jumps : (fblRunBoot samplePort (sampleWatchdog.enter s)).1 = .jumpApp := by
    refine (fblRunBoot_jump _ _).mpr ⟨?_, ?_, ?_, ?_⟩
    · have noMagic : sampleWatchdog.noinit.magic ≠ fblHandshakeMagic := by decide
      exact fun requests => noMagic requests.2.1
    · rw [wrapped]
      decide
    · have notPowerOn : sampleWatchdog.cause ≠ .powerOn := by decide
      exact fun knock => notPowerOn knock.1
    · decide +kernel
  refine contained sampleDetected
    (List.replicate (2 ^ 32 - 5) sampleWatchdog ++ [sampleWatchdog])
    ⟨by decide, by decide⟩ ?_ ?_
  · intro reset member
    have same : reset = sampleWatchdog := by
      rw [List.mem_append, List.mem_singleton] at member
      exact member.elim List.eq_of_mem_replicate id
    exact same ▸ Or.inr (Or.inl rfl)
  · rw [Machine.trace_append, reached]
    exact List.mem_append_right _
      (List.mem_singleton.mpr jumps.symm)

end TraveoBodyDomain
