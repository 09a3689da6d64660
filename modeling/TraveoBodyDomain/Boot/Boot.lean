import Mathlib.Logic.Function.Basic
import TraveoBodyDomain.Boot.Image
import TraveoBodyDomain.Diag.Uds

/-!
# The decision of the bootloader

The part of `boot.c` that decides what to start, and the two places that leave
it a message across a reset: `app_request_reprogram` of the application and the
reset sequence of `fbl_diag_tick`.

A reset keeps the backup registers, and all but some resets keep the `.noinit`
block too.  What a reset finds there is part of the state a boot starts from, so
any garbage is one of the states.
-/

namespace TraveoBodyDomain

/-- `FBL_BOOTLOOP_THRESHOLD`. -/
def fblBootloopThreshold : UInt32 :=
  3

/-- `FBL_KNOCK_WINDOW_MS`. -/
def fblKnockWindowMs : UInt32 :=
  2000

/-- `FBL_HANDSHAKE_MAGIC`. -/
def fblHandshakeMagic : UInt32 :=
  0xB007C0DE

/-- `FBL_BACKUP_MAGIC`. -/
def fblBackupMagic : UInt32 :=
  0xB00710AD

/-- `FBL_BREG_MAGIC_IDX`. -/
def fblBregMagicIdx : UInt8 :=
  0

/-- `FBL_BREG_COUNTER_IDX`. -/
def fblBregCounterIdx : UInt8 :=
  1

/-- `fbl_reset_cause_t`. -/
inductive FblResetCause where
  | powerOn
  | software
  | watchdog
  | debug
  | hibernate
  | other
  deriving Repr, DecidableEq

/-- `fbl_noinit_action_t`. -/
inductive FblNoinitAction where
  | read
  | prime
  deriving Repr, DecidableEq

/-- `fbl_lifecycle_t`. -/
inductive FblLifecycle where
  | normal
  | transitionToSecure
  | secure
  | rma
  deriving Repr, DecidableEq

/-- `fbl_boot_mode_t`. -/
inductive FblBootMode where
  | bootApp
  | programmingRequested
  deriving Repr, DecidableEq

/-- The value of the enumerator. -/
def FblBootMode.toByte : FblBootMode → UInt8
  | .bootApp => 0
  | .programmingRequested => 1

/-- `fbl_handshake_t`. -/
structure FblHandshake where
  magic : UInt32
  version : UInt16
  mode : UInt8
  reserved : UInt8
  crc32 : UInt32
  deriving Repr, DecidableEq

/-- `fbl_boot_action_t`. -/
inductive FblBootAction where
  | jumpApp
  | programmingMode
  deriving Repr, DecidableEq

/-- `fbl_classify_noinit`. -/
def fblClassifyNoinit : FblResetCause → FblNoinitAction
  | .software => .read
  | .watchdog => .read
  | .debug => .read
  | .powerOn => .prime
  | .hibernate => .prime
  | .other => .prime

/-- The bytes of a handshake in front of its `crc32`. -/
def FblHandshake.covered (h : FblHandshake) : List UInt8 :=
  LittleEndian.toLe 4 h.magic.toNat ++ LittleEndian.toLe 2 h.version.toNat ++
    [h.mode, h.reserved]

/-- `fbl_handshake_crc`. -/
def fblHandshakeCrc (h : FblHandshake) : UInt32 :=
  bootCrc32 h.covered

/-- `fbl_handshake_valid`. -/
def fblHandshakeValid (h : FblHandshake) : Bool :=
  if h.magic ≠ fblHandshakeMagic then
    false
  else
    h.crc32 = fblHandshakeCrc h

/-- `boot_handshake_encode`. -/
def bootHandshakeEncode (h : FblHandshake) (mode : FblBootMode) :
    FblHandshake :=
  let h :=
    { h with
      magic := fblHandshakeMagic
      version := 1
      mode := mode.toByte
      reserved := 0 }
  { h with crc32 := fblHandshakeCrc h }

/-- `fbl_handshake_init_default`. -/
def fblHandshakeInitDefault (h : FblHandshake) : FblHandshake :=
  bootHandshakeEncode h .bootApp

/-- `fbl_counter_update`. -/
def fblCounterUpdate
    (cause : FblResetCause)
    (programmingRequested : Bool)
    (current : UInt32) : UInt32 :=
  match cause with
  | .powerOn => 0
  | .other => 0
  | .software => if programmingRequested then 0 else current + 1
  | .watchdog => current + 1
  | .debug => current
  | .hibernate => current

/--
What the knock dwell sees: when it starts, and in each round whether a tool
makes contact and what the clock then says.

The clock is driven by a timer interrupt, so at some reading the window is over.
-/
structure FblDwell where
  startMs : UInt32
  contact : Nat → Bool
  nowMs : Nat → UInt32
  advances : ∃ round, fblKnockWindowMs ≤ nowMs round - startMs

/-- The clock of the round says that the window is over. -/
def FblDwell.Expired (dwell : FblDwell) (round : Nat) : Prop :=
  fblKnockWindowMs ≤ dwell.nowMs round - dwell.startMs

instance FblDwell.decidableExpired (dwell : FblDwell) :
    DecidablePred dwell.Expired :=
  fun round =>
    inferInstanceAs
      (Decidable (fblKnockWindowMs ≤ dwell.nowMs round - dwell.startMs))

/-- The loop of `fbl_dwell_for_tool`, from a round before the window is over. -/
def fblDwellLoop
    (dwell : FblDwell)
    (round : Nat)
    (early : ∀ before < round, ¬dwell.Expired before) : Bool :=
  if dwell.contact round then
    true
  else if expired : dwell.Expired round then
    false
  else
    fblDwellLoop dwell (round + 1) fun before earlier =>
      (Nat.lt_succ_iff_lt_or_eq.mp earlier).elim (early before)
        fun same => same ▸ expired
termination_by Nat.find dwell.advances - round
decreasing_by
  have notYet : round ≠ Nat.find dwell.advances := by
    intro same
    exact expired (same ▸ Nat.find_spec dwell.advances)
  have notPast : ¬Nat.find dwell.advances < round :=
    fun past => early _ past (Nat.find_spec dwell.advances)
  omega

/-- `fbl_dwell_for_tool`, for the window it is called with. -/
def fblDwellForTool (dwell : FblDwell) : Bool :=
  fblDwellLoop dwell 0 fun _ impossible => absurd impossible (Nat.not_lt_zero _)

/-- `fbl_knock_allowed`. -/
def fblKnockAllowed (lc : FblLifecycle) : Bool :=
  lc = .normal || lc = .transitionToSecure

/-- The part of `fbl_port.h` that a boot only reads. -/
structure FblPort where
  algo : FblDigestAlgo
  mem : UInt32 → UInt8
  cryptoVerify : UInt32 → UInt32 → UInt32 → CryptoVerdict
  appImageBase : UInt32
  appRegionLen : UInt32
  lifecycle : FblLifecycle
  dwell : FblDwell

/-- `fbl_app_image_valid`, of the application image. -/
def FblPort.imageValid (port : FblPort) : Bool :=
  fblAppImageValid port.algo port.mem port.cryptoVerify port.appImageBase
    port.appRegionLen

/-- The part of `fbl_port.h` that a boot reads and writes. -/
structure FblState where
  resetCause : FblResetCause
  noinit : FblHandshake
  backup : UInt8 → UInt32

namespace FblState

/-- `fbl_port_clear_reset_cause`: a cleared register has no cause in it. -/
def clearResetCause (s : FblState) : FblState :=
  { s with resetCause := .other }

/-- `fbl_port_prime_noinit`. -/
def primeNoinit (s : FblState) : FblState :=
  { s with noinit := ⟨0, 0, 0, 0, 0⟩ }

/-- `*fbl_port_noinit() = h`. -/
def setNoinit (s : FblState) (h : FblHandshake) : FblState :=
  { s with noinit := h }

/-- `fbl_port_backup_write`. -/
def backupWrite (s : FblState) (idx : UInt8) (val : UInt32) : FblState :=
  { s with backup := Function.update s.backup idx val }

/-- `fbl_port_system_reset` and `app_port_system_reset`. -/
def systemReset (s : FblState) : FblState :=
  { s with resetCause := .software }

end FblState

/-- The part of `fbl_run_boot` that reconciles the handshake. -/
def fblReconcileNoinit (cause : FblResetCause) (s : FblState) : FblState :=
  if fblClassifyNoinit cause = .prime then
    let s := s.primeNoinit
    s.setNoinit (fblHandshakeInitDefault s.noinit)
  else if !fblHandshakeValid s.noinit then
    s.setNoinit (fblHandshakeInitDefault s.noinit)
  else
    s

/-- The part of `fbl_run_boot` that reads the counter. -/
def fblStoredCounter (s : FblState) : UInt32 :=
  if s.backup fblBregMagicIdx = fblBackupMagic then
    s.backup fblBregCounterIdx
  else
    0

/-- The decision tree of `fbl_run_boot`. -/
def fblDecide
    (port : FblPort)
    (cause : FblResetCause)
    (programmingRequested : Bool)
    (counter : UInt32) : FblBootAction :=
  if programmingRequested then
    .programmingMode
  else if counter > fblBootloopThreshold then
    .programmingMode
  else
    let knock :=
      if cause = .powerOn ∧ fblKnockAllowed port.lifecycle then
        fblDwellForTool port.dwell
      else
        false
    if knock then
      .programmingMode
    else if port.imageValid then
      .jumpApp
    else
      .programmingMode

/-- `fbl_run_boot`. -/
def fblRunBoot (port : FblPort) (s : FblState) : FblBootAction × FblState :=
  let cause := s.resetCause
  let s := s.clearResetCause
  let s := fblReconcileNoinit cause s
  let programmingRequested :=
    s.noinit.mode = FblBootMode.programmingRequested.toByte
  let counter := fblStoredCounter s
  let counter := fblCounterUpdate cause programmingRequested counter
  let s := s.backupWrite fblBregMagicIdx fblBackupMagic
  let s := s.backupWrite fblBregCounterIdx counter
  (fblDecide port cause programmingRequested counter, s)

/-- `app_request_reprogram`. -/
def appRequestReprogram (s : FblState) : FblState :=
  (s.setNoinit (bootHandshakeEncode s.noinit .programmingRequested)).systemReset

/--
What `fbl_diag_tick` does to the persisted state, after what the tick of the
session did: its reset sequence, when an ECUReset was accepted.

`uninitialised` is what the local handshake holds before it is encoded.
-/
def fblDiagTickPersist
    (effects : List UdsEffect)
    (uninitialised : FblHandshake)
    (s : FblState) : FblState :=
  if .reset ∈ effects then
    let s := s.setNoinit (bootHandshakeEncode uninitialised .bootApp)
    let s := s.backupWrite fblBregCounterIdx 0
    s.systemReset
  else
    s

end TraveoBodyDomain
