import TraveoBodyDomain.Boot.Update
import TraveoBodyDomain.Diag.OverFrames

/-!
# A signed build over the bus

The end-to-end statement of an update, with nothing between the tool and the
bootloader but CAN frames: the tool reads the file, segments each request, waits
for flow control, and reads single frames; the bootloader reassembles what its
calls receive, programs the flash, checks it, resets and decides.
-/

namespace TraveoBodyDomain

/-- The boot after an accepted ECUReset, over this flash, starts the image. -/
def Board.BootsFrom (board : Board) (flash : CodeFlash) : Prop :=
  ∀ uninitialised s,
    let booted :=
      fblRunBoot (board.port flash) (fblDiagTickPersist [.reset] uninitialised s)
    booted.1 = .jumpApp ∧ booted.2.Reconciled 1

/-- A valid image is started. -/
theorem Board.bootsFrom_of_valid
    {board : Board}
    {flash : CodeFlash}
    (valid : board.imageValid flash.bytes = true) :
    board.BootsFrom flash := by
  intro uninitialised s
  let reset : AcceptedReset :=
    { imageValid := board.imageValid
      server := .start flash
      nowMs := 0
      request := some [udsSidEcuReset, 0x01]
      accepted := ecuReset_accepted _ _ _ _ _
      uninitialised := uninitialised }
  obtain ⟨jumps, reconciled⟩ :=
    boot_after_ecuReset s reset (board.port flash)
  exact ⟨jumps.mpr valid, reconciled⟩

/-- Exchanges on a prompt bus follow each other. -/
theorem Prompt.follow
    {timeoutMs : Nat}
    {bus : Nat → List (List UInt8) → Passage}
    {begins arrives : Nat → Nat}
    (prompt : Prompt timeoutMs bus begins arrives)
    (exchange : Nat) :
    arrives exchange ≤ arrives (exchange + 1) := by
  have isLast (passage : Passage) : passage.last ∈ passage.polls :=
    List.mem_append_right _ (List.mem_cons_self ..)
  have before := (prompt.within exchange [] _ (isLast _)).2
  have after := (prompt.within (exchange + 1) [] _ (isLast _)).1
  rw [prompt.arrives] at before after
  exact Nat.le_trans before after

variable
  (ideal : IdealCrypto)
  (keys : List CryptoKeyEntry)

/--
A signed build boots, over the bus.  The bootloader waits in the default session
over flash that works, with anything else in its server; the bus is prompt, so
that the tool hears each answer within its timeout, and brings the key less than
S3 after the request for the seed.
-/
theorem signed_build_boots_over_the_bus
    {body image : List UInt8}
    {keyId : Nat}
    (build : SignedBuild ideal keys body image keyId)
    (hashHandler macHandler : CryptoMsg → Option CryptoMsg)
    (lifecycle : FblLifecycle)
    (dwell : FblDwell)
    {ahead : ReadAhead}
    {lines : List (List Char)}
    {records : List HexRecord}
    (wellFormed : hexRecords lines = some records)
    (readable : HexReadable ahead lines records)
    (holds : HexHolds (hexFormat records) fblAppFlashBase image)
    {wire : Wire}
    {begins arrives : Nat → Nat}
    (ready : wire.diag.isotp.Ready)
    (read : wire.inbox = [])
    (default : wire.diag.uds.session = .default)
    (reliable : wire.diag.uds.flash.Reliable)
    (prompt : Prompt wire.timeoutMs wire.bus begins arrives)
    (inTime : arrives 2 < arrives 1 + udsS3ServerMs.toNat) :
    let board := signedBoard ideal keys hashHandler macHandler lifecycle dwell
    ∃ download ended flash,
      buildDownloadImage ahead lines fblAppFlashBase = some download ∧
        (canClient board.imageValid).flash download fblAppFlashBase
            flashLargeSectorSize wire = some ((), ended) ∧
        ended.diag = .start flash ∧
        board.BootsFrom flash ∧
        memBytes (flashMemory flash.bytes) fblAppFlashBase.toUInt32
            body.length = signBuffer body := by
  intro board
  let link : HostLink :=
    { server := wire.diag.uds
      times := fun request => (arrives request).toUInt32
      exchanges := [] }
  have matching : Matching link wire :=
    ⟨ready, read, begins, arrives, begins 0, prompt, rfl,
      Nat.lt_add_of_pos_right (Nat.two_pow_pos 31), .refl (.inl default)⟩
  have keyInTime : link.times 2 - link.times 1 < udsS3ServerMs := by
    have limit : udsS3ServerMs.toNat = 5000 := rfl
    have follow : arrives 1 ≤ arrives 2 :=
      prompt.follow 1
    rw [UInt32.lt_iff_toNat_lt, UdsServer.elapsed_toUInt32 follow (by omega)]
    omega
  have size := length_image build.written
  have nonempty : image ≠ [] := List.length_pos_iff.mp (by omega)
  obtain ⟨last, finished, covered⟩ :=
    @SignedBuild.flashed _ _ _ _ _ build hashHandler macHandler lifecycle dwell
      link reliable keyInTime
  obtain ⟨ended, ran, started⟩ :=
    (flash_agrees board.imageValid (padDownloadImage image) fblAppFlashBase
      flashLargeSectorSize matching).ended finished
  exact
    ⟨padDownloadImage image, ended, last.server.flash,
      buildDownloadImage_of_holds wellFormed readable holds nonempty, ran,
      started, Board.bootsFrom_of_valid (board.finished_boots finished).1,
      covered⟩

/-- The shortest build, from its file over a bus. -/
theorem shortest_file_boots_over_the_bus :
    ∃ download ended flash,
      buildDownloadImage (fun _ => 16) shortestFile fblAppFlashBase =
          some download ∧
        (canClient sampleBoard.imageValid).flash download fblAppFlashBase
            flashLargeSectorSize (directWire blankFlash) =
          some ((), ended) ∧
        ended.diag = .start flash ∧
        sampleBoard.BootsFrom flash ∧
        memBytes (flashMemory flash.bytes) fblAppFlashBase.toUInt32
            innerBody.length = signBuffer innerBody :=
  @signed_build_boots_over_the_bus sampleCrypto sampleKeys _ _ _ shortestBuild
    (fun _ => none) (fun _ => none) .secure _ _ _ _ shortestFile_records
    shortestFile_readable shortestFile_holds
    (directWire blankFlash) _ _ Isotp.ready_isotpInit rfl rfl (fun _ => rfl)
    directBus_prompt (by decide)

end TraveoBodyDomain
