import TraveoBodyDomain.Boot.Decision
import TraveoBodyDomain.Lib.Machine

/-!
# Handing over to the bootloader and back

The application asks for programming and resets; the bootloader accepts an
ECUReset, takes the request back and resets.  Taking it back makes the reset
look like a crash, which is why the bootloader clears its failure counter
besides.  Here both are followed over any number of cycles, from any state.
-/

namespace TraveoBodyDomain

/-- A tick in which the server accepted an ECUReset. -/
structure AcceptedReset where
  imageValid : (Nat → UInt8) → Bool
  server : UdsServer
  nowMs : UInt32
  request : Option (List UInt8)
  accepted : .reset ∈ (server.tick imageValid nowMs request).2.2
  uninitialised : FblHandshake

/-- What `fbl_diag_tick` leaves for the next boot then. -/
def AcceptedReset.persist (reset : AcceptedReset) (s : FblState) : FblState :=
  fblDiagTickPersist
    (reset.server.tick reset.imageValid reset.nowMs reset.request).2.2
    reset.uninitialised s

/-- One image leaves the other one a message and resets. -/
inductive HandOff where
  | reprogram
  | ecuReset (reset : AcceptedReset)

namespace HandOff

/-- The state that the next boot starts from. -/
def leave : HandOff → FblState → FblState
  | .reprogram, s => appRequestReprogram s
  | .ecuReset reset, s => reset.persist s

/-- What the next boot is to decide. -/
def outcome (port : FblPort) : HandOff → FblBootAction
  | .reprogram => .programmingMode
  | .ecuReset _ => if port.imageValid then .jumpApp else .programmingMode

/-- The failure counter the next boot is to arrive at. -/
def counter : HandOff → UInt32
  | .reprogram => 0
  | .ecuReset _ => 1

end HandOff

/-- A hand-off and the boot after it; the image may be another one each time. -/
def handOffStep : Machine.Step FblState (HandOff × FblPort) FblBootAction :=
  fun s (handOff, port) =>
    let (action, s) := fblRunBoot port (handOff.leave s)
    (s, [action])

/-- Every request for an ECUReset that has a subfunction is accepted. -/
theorem ecuReset_accepted
    (imageValid : (Nat → UInt8) → Bool)
    (server : UdsServer)
    (nowMs : UInt32)
    (subfunction : UInt8)
    (rest : List UInt8) :
    .reset ∈
      (server.tick imageValid nowMs
        (some (udsSidEcuReset :: subfunction :: rest))).2.2 := by
  have handled :
      ((server.s3Check nowMs).handle imageValid udsSidEcuReset
        (subfunction :: rest)).effects = [.reset] := by
    rw [UdsServer.handle_ecuReset]
    simp [ecuResetHandle, Except.isOk, Except.toBool]
  simp only [UdsServer.tick, UdsServer.dispatch]
  split <;> simp [handled]

section Cycles

variable (s : FblState)

/-- A programming request is there after the application's reset. -/
theorem appRequestReprogram_requests :
    (appRequestReprogram s).RequestsProgramming :=
  ⟨Or.inl rfl, rfl, rfl, rfl⟩

/-- What an accepted ECUReset leaves: no request, and a cleared counter. -/
theorem AcceptedReset.persist_eq (reset : AcceptedReset) :
    reset.persist s =
      { resetCause := .software
        noinit := bootHandshakeEncode reset.uninitialised .bootApp
        backup := Function.update s.backup fblBregCounterIdx 0 } := by
  rw [AcceptedReset.persist, fblDiagTickPersist, if_pos reset.accepted]
  rfl

@[simp] theorem AcceptedReset.persist_resetCause (reset : AcceptedReset) :
    (reset.persist s).resetCause = .software := by
  rw [reset.persist_eq]

/-- The request is gone after an accepted ECUReset. -/
theorem AcceptedReset.not_requests (reset : AcceptedReset) :
    ¬(reset.persist s).RequestsProgramming := by
  rw [reset.persist_eq]
  rintro ⟨_, _, _, mode⟩
  exact absurd mode (by simp [bootHandshakeEncode, FblBootMode.toByte])

/-- The reset itself is counted, from 0 on. -/
theorem AcceptedReset.updatedCounter (reset : AcceptedReset) :
    (reset.persist s).updatedCounter = 1 := by
  have cleared : (reset.persist s).keptCounter = 0 := by
    rw [reset.persist_eq, FblState.keptCounter]
    simp
  have counts : (reset.persist s).Crashed :=
    Or.inr ⟨reset.persist_resetCause s, reset.not_requests s⟩
  rw [FblState.updatedCounter_of_crash counts, cleared]
  rfl

/-- The boot after the application's reset. -/
theorem boot_after_reprogram (port : FblPort) :
    (fblRunBoot port (appRequestReprogram s)).1 = .programmingMode ∧
      (fblRunBoot port (appRequestReprogram s)).2.Reconciled 0 := by
  have requests := appRequestReprogram_requests s
  have counter : (appRequestReprogram s).updatedCounter = 0 :=
    FblState.updatedCounter_of_clean (Or.inr (Or.inr ⟨rfl, requests⟩))
  constructor
  · rw [fblRunBoot_eq, decide_eq_true requests]
    rfl
  · exact counter ▸ fblRunBoot_reconciled port (appRequestReprogram s)

/-- The boot after an accepted ECUReset. -/
theorem boot_after_ecuReset (reset : AcceptedReset) (port : FblPort) :
    ((fblRunBoot port (reset.persist s)).1 = .jumpApp ↔
        port.imageValid = true) ∧
      (fblRunBoot port (reset.persist s)).2.Reconciled 1 := by
  have counter := reset.updatedCounter s
  have noKnock : ¬port.PermittedKnock .software :=
    fun knock => absurd knock.1 (by decide)
  constructor
  · rw [fblRunBoot_jump, counter]
    simp [reset.not_requests s, noKnock, fblBootloopThreshold]
  · exact counter ▸ fblRunBoot_reconciled port (reset.persist s)

/-- Each hand-off has its outcome, whatever was there before. -/
theorem handOff_outcome (handOff : HandOff) (port : FblPort) :
    (fblRunBoot port (handOff.leave s)).1 = handOff.outcome port ∧
      (fblRunBoot port (handOff.leave s)).2.Reconciled handOff.counter := by
  cases handOff with
  | reprogram =>
      exact boot_after_reprogram s port
  | ecuReset reset =>
      have boot := boot_after_ecuReset s reset port
      refine ⟨?_, boot.2⟩
      rw [HandOff.outcome]
      split
      · next valid => exact boot.1.mpr valid
      · next invalid =>
          cases decided : (fblRunBoot port (HandOff.leave (.ecuReset reset) s)).1 with
          | jumpApp => exact absurd (boot.1.mp decided) invalid
          | programmingMode => rfl

/-- A run of hand-offs shows the outcome of each. -/
theorem handOff_trace (cycles : List (HandOff × FblPort)) :
    Machine.trace handOffStep s cycles =
      cycles.map fun cycle => cycle.1.outcome cycle.2 := by
  induction cycles generalizing s with
  | nil =>
      rfl
  | cons cycle rest inductionHypothesis =>
      rw [Machine.trace_cons, inductionHypothesis, List.map_cons]
      exact congrArg (· :: _) (handOff_outcome s cycle.1 cycle.2).1

/--
Asking for programming always leads to the bootloader and an ECUReset always
back to a valid application, in any number and order of cycles.
-/
theorem hand_offs_never_look_like_a_boot_loop :
    (∀ port,
        (fblRunBoot port (appRequestReprogram s)).1 = .programmingMode ∧
          (fblRunBoot port (appRequestReprogram s)).2.Reconciled 0) ∧
      (∀ (reset : AcceptedReset) port,
        ((fblRunBoot port (reset.persist s)).1 = .jumpApp ↔
            port.imageValid = true) ∧
          (fblRunBoot port (reset.persist s)).2.Reconciled 1) ∧
      ∀ cycles : List (HandOff × FblPort),
        Machine.trace handOffStep s cycles =
            cycles.map (fun cycle => cycle.1.outcome cycle.2) ∧
          ∀ last : HandOff × FblPort,
            (Machine.final handOffStep s (cycles ++ [last])).Reconciled
              last.1.counter := by
  refine ⟨boot_after_reprogram s, boot_after_ecuReset s, fun cycles => ?_⟩
  refine ⟨handOff_trace s cycles, fun last => ?_⟩
  rw [Machine.final_append]
  exact (handOff_outcome _ last.1 last.2).2

end Cycles

end TraveoBodyDomain
