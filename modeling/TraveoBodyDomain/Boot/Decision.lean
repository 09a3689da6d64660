import TraveoBodyDomain.Boot.Boot

/-!
# When the bootloader starts the application

Two media outlive a reset, and either may hold garbage or something stale.
What a boot makes of them is said here once, without the order in which
`fbl_run_boot` goes about it: whether programming is requested, what the
failure counter is, and whether somebody knocked.
-/

namespace TraveoBodyDomain

/-- The block that a reset kept asks for programming. -/
def FblState.RequestsProgramming (s : FblState) : Prop :=
  (s.resetCause = .software ∨ s.resetCause = .watchdog ∨
      s.resetCause = .debug) ∧
    s.noinit.magic = fblHandshakeMagic ∧
    s.noinit.crc32 = fblHandshakeCrc s.noinit ∧
    s.noinit.mode = FblBootMode.programmingRequested.toByte

instance FblState.decidableRequestsProgramming (s : FblState) :
    Decidable s.RequestsProgramming :=
  inferInstanceAs (Decidable (_ ∧ _ ∧ _ ∧ _))

/-- A clean start: a power cycle, an unknown cause, or a deliberate reflash. -/
def FblState.StartsClean (s : FblState) : Prop :=
  s.resetCause = .powerOn ∨ s.resetCause = .other ∨
    s.resetCause = .software ∧ s.RequestsProgramming

/-- A crash: the watchdog, or a software reset that nobody announced. -/
def FblState.Crashed (s : FblState) : Prop :=
  s.resetCause = .watchdog ∨
    s.resetCause = .software ∧ ¬s.RequestsProgramming

instance FblState.decidableStartsClean (s : FblState) :
    Decidable s.StartsClean :=
  inferInstanceAs (Decidable (_ ∨ _ ∨ _ ∧ _))

instance FblState.decidableCrashed (s : FblState) : Decidable s.Crashed :=
  inferInstanceAs (Decidable (_ ∨ _ ∧ _))

/-- The failures counted so far; a register without its magic counts none. -/
def FblState.keptCounter (s : FblState) : UInt32 :=
  if s.backup fblBregMagicIdx = fblBackupMagic then
    s.backup fblBregCounterIdx
  else
    0

/--
The failure counter that a boot arrives at: a clean start clears it, a crash
counts, and a debug reset or a wake from hibernation leaves it.
-/
def FblState.updatedCounter (s : FblState) : UInt32 :=
  if s.StartsClean then
    0
  else if s.Crashed then
    s.keptCounter + 1
  else
    s.keptCounter

/-- A tool made contact in a round before the window was over. -/
def FblDwell.KnockReceived (dwell : FblDwell) : Prop :=
  ∃ round, dwell.contact round = true ∧
    ∀ before < round, ¬dwell.Expired before

/-- A knock that the reset cause and the lifecycle permit. -/
def FblPort.PermittedKnock (port : FblPort) (cause : FblResetCause) : Prop :=
  cause = .powerOn ∧
    (port.lifecycle = .normal ∨ port.lifecycle = .transitionToSecure) ∧
    port.dwell.KnockReceived

/-- The persisted state is as a boot leaves it. -/
structure FblState.Reconciled (s : FblState) (counter : UInt32) : Prop where
  noinit : fblHandshakeValid s.noinit = true
  magic : s.backup fblBregMagicIdx = fblBackupMagic
  counter : s.backup fblBregCounterIdx = counter

/-- A block is valid when its magic and its CRC are. -/
theorem fblHandshakeValid_iff (h : FblHandshake) :
    fblHandshakeValid h = true ↔
      h.magic = fblHandshakeMagic ∧ h.crc32 = fblHandshakeCrc h := by
  by_cases magic : h.magic = fblHandshakeMagic <;>
    simp [fblHandshakeValid, magic]

/-- What is encoded is valid, whatever was there before. -/
theorem bootHandshakeEncode_valid (h : FblHandshake) (mode : FblBootMode) :
    fblHandshakeValid (bootHandshakeEncode h mode) = true :=
  (fblHandshakeValid_iff _).mpr ⟨rfl, rfl⟩

/-- A counter is kept when its magic is. -/
theorem FblState.keptCounter_of_magic
    {s : FblState}
    (magic : s.backup fblBregMagicIdx = fblBackupMagic) :
    s.keptCounter = s.backup fblBregCounterIdx :=
  if_pos magic

/-- A clean start clears the counter. -/
theorem FblState.updatedCounter_of_clean
    {s : FblState}
    (clean : s.StartsClean) :
    s.updatedCounter = 0 :=
  if_pos clean

/-- A crash is counted. -/
theorem FblState.updatedCounter_of_crash
    {s : FblState}
    (crashed : s.Crashed) :
    s.updatedCounter = s.keptCounter + 1 := by
  have dirty : ¬s.StartsClean := by
    rcases crashed with watchdog | ⟨software, unannounced⟩
    · simp [StartsClean, watchdog]
    · simp [StartsClean, software, unannounced]
  exact (if_neg dirty).trans (if_pos crashed)

/-- A debug reset and a wake leave the counter. -/
theorem FblState.updatedCounter_of_orderly
    {s : FblState}
    (orderly : s.resetCause = .debug ∨ s.resetCause = .hibernate) :
    s.updatedCounter = s.keptCounter := by
  have dirty : ¬s.StartsClean := by
    rcases orderly with cause | cause <;> simp [StartsClean, cause]
  have notCrashed : ¬s.Crashed := by
    rcases orderly with cause | cause <;> simp [Crashed, cause]
  exact (if_neg dirty).trans (if_neg notCrashed)

/-- The switch over the reset cause makes the same of the counter. -/
theorem fblCounterUpdate_eq (s : FblState) :
    fblCounterUpdate s.resetCause s.RequestsProgramming (fblStoredCounter s) =
      s.updatedCounter := by
  have stored : fblStoredCounter s = s.keptCounter := rfl
  rw [stored]
  cases cause : s.resetCause with
  | powerOn =>
      exact (FblState.updatedCounter_of_clean (Or.inl cause)).symm
  | other =>
      exact (FblState.updatedCounter_of_clean (Or.inr (Or.inl cause))).symm
  | software =>
      by_cases requests : s.RequestsProgramming
      · rw [decide_eq_true requests]
        exact
          (FblState.updatedCounter_of_clean
            (Or.inr (Or.inr ⟨cause, requests⟩))).symm
      · rw [decide_eq_false requests]
        exact
          (FblState.updatedCounter_of_crash (Or.inr ⟨cause, requests⟩)).symm
  | watchdog =>
      exact (FblState.updatedCounter_of_crash (Or.inl cause)).symm
  | debug =>
      exact (FblState.updatedCounter_of_orderly (Or.inl cause)).symm
  | hibernate =>
      exact (FblState.updatedCounter_of_orderly (Or.inr cause)).symm

section Dwell

variable (dwell : FblDwell)

/-- The loop finds the first contact before the window is over. -/
theorem fblDwellLoop_iff
    (round : Nat)
    (early : ∀ before < round, ¬dwell.Expired before) :
    fblDwellLoop dwell round early = true ↔
      ∃ later, round ≤ later ∧ dwell.contact later = true ∧
        ∀ before < later, ¬dwell.Expired before := by
  induction round, early using fblDwellLoop.induct dwell with
  | case1 round early contacted =>
      rw [fblDwellLoop, if_pos contacted]
      exact iff_of_true rfl ⟨round, Nat.le_refl round, contacted, early⟩
  | case2 round early silent expired =>
      rw [fblDwellLoop, if_neg silent, dif_pos expired]
      refine iff_of_false Bool.false_ne_true ?_
      rintro ⟨later, after, contacted, inTime⟩
      rcases Nat.eq_or_lt_of_le after with rfl | past
      · exact silent contacted
      · exact inTime round past expired
  | case3 round early silent running inductionHypothesis =>
      rw [fblDwellLoop, if_neg silent, dif_neg running, inductionHypothesis]
      constructor
      · rintro ⟨later, after, found⟩
        exact ⟨later, Nat.le_of_succ_le after, found⟩
      · rintro ⟨later, after, contacted, inTime⟩
        refine ⟨later, Nat.lt_of_le_of_ne after ?_, contacted, inTime⟩
        rintro rfl
        exact silent contacted

/-- The dwell reports the knocks there are. -/
theorem fblDwellForTool_iff :
    fblDwellForTool dwell = true ↔ dwell.KnockReceived := by
  rw [fblDwellForTool, fblDwellLoop_iff]
  simp [FblDwell.KnockReceived]

end Dwell

section Run

variable (port : FblPort) (s : FblState)

/-- Reconciling leaves a valid block, and the counter alone. -/
theorem fblReconcileNoinit_valid
    (cause : FblResetCause) :
    fblHandshakeValid (fblReconcileNoinit cause s).noinit = true ∧
      (fblReconcileNoinit cause s).backup = s.backup := by
  unfold fblReconcileNoinit
  split_ifs with prime invalid
  · exact ⟨bootHandshakeEncode_valid _ _, rfl⟩
  · exact ⟨bootHandshakeEncode_valid _ _, rfl⟩
  · exact ⟨by simpa using invalid, rfl⟩

/-- After reconciling, the block asks for programming when a kept one did. -/
theorem fblReconcileNoinit_requests :
    (fblReconcileNoinit s.resetCause s.clearResetCause).noinit.mode =
        FblBootMode.programmingRequested.toByte ↔
      s.RequestsProgramming := by
  have bootApp (h : FblHandshake) :
      (fblHandshakeInitDefault h).mode ≠
        FblBootMode.programmingRequested.toByte := by
    change FblBootMode.bootApp.toByte ≠ _
    decide
  have kept :
      fblClassifyNoinit s.resetCause ≠ .prime ↔
        s.resetCause = .software ∨ s.resetCause = .watchdog ∨
          s.resetCause = .debug := by
    cases s.resetCause <;> decide
  unfold fblReconcileNoinit
  rw [FblState.RequestsProgramming, ← kept]
  split_ifs with prime invalid
  · exact iff_of_false (bootApp _) fun requests => requests.1 prime
  · refine iff_of_false (bootApp _) fun requests => ?_
    have valid := (fblHandshakeValid_iff _).mpr ⟨requests.2.1, requests.2.2.1⟩
    simp [FblState.clearResetCause, valid] at invalid
  · have valid : fblHandshakeValid s.noinit = true := by
      simpa [FblState.clearResetCause] using invalid
    have parts := (fblHandshakeValid_iff _).mp valid
    simp [FblState.clearResetCause, prime, parts.1, parts.2.symm]

/-- The tree, as one condition. -/
theorem fblDecide_jump
    (cause : FblResetCause)
    (programmingRequested : Bool)
    (counter : UInt32) :
    fblDecide port cause programmingRequested counter = .jumpApp ↔
      programmingRequested = false ∧ counter ≤ fblBootloopThreshold ∧
        ¬port.PermittedKnock cause ∧ port.imageValid = true := by
  have knocks :
      (if cause = .powerOn ∧ fblKnockAllowed port.lifecycle = true then
          fblDwellForTool port.dwell
        else
          false) = true ↔ port.PermittedKnock cause := by
    simp [FblPort.PermittedKnock, fblKnockAllowed, ← fblDwellForTool_iff,
      and_assoc]
  unfold fblDecide
  rw [← UInt32.not_lt, ← knocks]
  split_ifs <;> simp_all

/-- What a boot decides, and what it leaves. -/
theorem fblRunBoot_eq :
    fblRunBoot port s =
      (fblDecide port s.resetCause s.RequestsProgramming s.updatedCounter,
        ((fblReconcileNoinit s.resetCause s.clearResetCause).backupWrite
            fblBregMagicIdx fblBackupMagic).backupWrite
          fblBregCounterIdx s.updatedCounter) := by
  have stored :
      fblStoredCounter (fblReconcileNoinit s.resetCause s.clearResetCause) =
        fblStoredCounter s := by
    simp only [fblStoredCounter, (fblReconcileNoinit_valid _ _).2]
    rfl
  simp only [fblRunBoot, fblReconcileNoinit_requests, stored,
    fblCounterUpdate_eq]

/-- Every boot leaves a valid block, and the counter it arrived at. -/
theorem fblRunBoot_reconciled :
    (fblRunBoot port s).2.Reconciled s.updatedCounter := by
  rw [fblRunBoot_eq]
  refine ⟨(fblReconcileNoinit_valid _ _).1, ?_, ?_⟩
  · simp [FblState.backupWrite, fblBregMagicIdx, fblBregCounterIdx]
  · simp [FblState.backupWrite]

/-- A boot starts the application when nothing asks for the bootloader. -/
theorem fblRunBoot_jump :
    (fblRunBoot port s).1 = .jumpApp ↔
      ¬s.RequestsProgramming ∧ s.updatedCounter ≤ fblBootloopThreshold ∧
        ¬port.PermittedKnock s.resetCause ∧ port.imageValid = true := by
  rw [fblRunBoot_eq]
  exact (fblDecide_jump _ _ _ _).trans (by rw [decide_eq_false_iff_not])

/--
The application is started exactly when nothing asks for the bootloader, and
every boot leaves both media valid.
-/
theorem boot_decision_is_correct :
    ((fblRunBoot port s).1 = .jumpApp ↔
        ¬s.RequestsProgramming ∧ s.updatedCounter ≤ fblBootloopThreshold ∧
          ¬port.PermittedKnock s.resetCause ∧ port.imageValid = true) ∧
      (fblRunBoot port s).2.Reconciled s.updatedCounter :=
  ⟨fblRunBoot_jump port s, fblRunBoot_reconciled port s⟩

end Run

end TraveoBodyDomain
