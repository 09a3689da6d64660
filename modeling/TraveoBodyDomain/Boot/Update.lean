import TraveoBodyDomain.Boot.Authentic
import TraveoBodyDomain.Boot.HandOff
import TraveoBodyDomain.Diag.DownloadImage
import TraveoBodyDomain.Diag.Finished

/-!
# An update from end to end

A body is signed, its file is read and downloaded by the tool, the bootloader
checks what it finds in its flash, resets and decides what to start.  The four
programs agree: a signed update boots from any state, and a run of the tool that
ends is one that boots.
-/

namespace TraveoBodyDomain

/-- Code flash as the cores see it, at its addresses. -/
def flashMemory (bytes : Nat → UInt8) : UInt32 → UInt8 :=
  fun address => bytes address.toNat

/--
What a bootloader is built and fused with: the digest, what the other core says
of a memory, the lifecycle, and what the dwell sees.
-/
structure Board where
  algo : FblDigestAlgo
  cryptoVerify :
    (UInt32 → UInt8) → UInt32 → UInt32 → UInt32 → CryptoVerdict
  lifecycle : FblLifecycle
  dwell : FblDwell

namespace Board

variable (board : Board)

/-- `fbl_app_image_valid`, of the application region of this flash. -/
def imageValid (bytes : Nat → UInt8) : Bool :=
  fblAppImageValid board.algo (flashMemory bytes)
    (board.cryptoVerify (flashMemory bytes)) fblAppFlashBase.toUInt32
    fblAppFlashSize.toUInt32

/-- The port of a boot that finds this flash. -/
def port (flash : CodeFlash) : FblPort where
  algo := board.algo
  mem := flashMemory flash.bytes
  cryptoVerify := board.cryptoVerify (flashMemory flash.bytes)
  appImageBase := fblAppFlashBase.toUInt32
  appRegionLen := fblAppFlashSize.toUInt32
  lifecycle := board.lifecycle
  dwell := board.dwell

/--
The tick of the ECUReset that ended this run of the tool, and the boot after it:
the application is started, whatever was persisted before.
-/
def BootsAfter (last : HostLink) : Prop :=
  ∃ checked : HostLink,
    let ended :=
      checked.server.tick board.imageValid (checked.times 0)
        (some [udsSidEcuReset, 0x01])
    ended.2.1 = last.server ∧
      ∀ uninitialised s,
        let booted :=
          fblRunBoot (board.port last.server.flash)
            (fblDiagTickPersist ended.2.2 uninitialised s)
        booted.1 = .jumpApp ∧ booted.2.Reconciled 1

variable
  {board : Board}
  {image : List UInt8}
  {link last : HostLink}

/-- The boot after a run of the tool that ended. -/
theorem finished_boots
    (board : Board)
    (finished :
      hostFlash board.imageValid image fblAppFlashBase flashLargeSectorSize
        link = some ((), last)) :
    board.imageValid last.server.flash.bytes = true ∧
      board.BootsAfter last := by
  obtain ⟨-, valid, checked, ended, -⟩ := hostFlash_finished finished
  refine ⟨valid, checked, ended, fun uninitialised s => ?_⟩
  let reset : AcceptedReset :=
    { imageValid := board.imageValid
      server := checked.server
      nowMs := checked.times 0
      request := some [udsSidEcuReset, 0x01]
      accepted := ecuReset_accepted _ _ _ _ _
      uninitialised := uninitialised }
  obtain ⟨jumps, reconciled⟩ :=
    boot_after_ecuReset s reset (board.port last.server.flash)
  exact ⟨jumps.mpr valid, reconciled⟩

/--
A run of the tool that ended without an exception, from any state of the server
and over any flash, has put exactly the image into the region, erased before and
programmed once, and the bootloader starts what it holds.
-/
theorem finished_update_boots
    (finished :
      hostFlash board.imageValid image fblAppFlashBase flashLargeSectorSize
        link = some ((), last)) :
    Reprogrammed image link.server.flash last.server.flash
        (downloadOps image) ∧
      board.imageValid last.server.flash.bytes = true ∧
      board.BootsAfter last :=
  ⟨(hostFlash_finished finished).1, board.finished_boots finished⟩

end Board

/-!
## A signed build
-/

/-- An image in the region, and what follows it, is at its place in memory. -/
theorem imageAt_of_content
    {stamped : List UInt8}
    {bytes : Nat → UInt8}
    (fits : stamped.length ≤ fblAppFlashSize)
    (content :
      ∀ i < (padDownloadImage stamped).length,
        bytes (fblAppFlashBase + i) = (padDownloadImage stamped).getD i 0) :
    ImageAt (flashMemory bytes) fblAppFlashBase.toUInt32 stamped := by
  intro i inside
  have address := @blockAddress i (by omega)
  rw [Nat.toUInt32_eq] at address
  have longer := (padDownloadImage_length stamped).2
  rw [flashMemory, Nat.toUInt32_eq, address, content i (by omega),
    padDownloadImage_getD inside]

section SignedBuild

open LittleEndian

variable
  (ideal : IdealCrypto)
  (keys : List CryptoKeyEntry)

/-- The board of a build that checks signatures, under these keys. -/
def signedBoard
    (hashHandler macHandler : CryptoMsg → Option CryptoMsg)
    (lifecycle : FblLifecycle)
    (dwell : FblDwell) : Board where
  algo := .sha256
  cryptoVerify := fun mem =>
    cryptoVerifyDelivered
      (cm0pHandlers ideal.core mem keys hashHandler macHandler)
  lifecycle := lifecycle
  dwell := dwell

/--
A build whose image was signed: its vectors are sane, it fits the region when it
is padded, and the board knows its key.
-/
structure SignedBuild (body image : List UInt8) (keyId : Nat) : Prop where
  written :
    signImage ideal.sha256 ideal.sign body keyId signDefaultHeaderOffset =
      some image
  signed : ideal.Signed (signBuffer body)
  vectors :
    fblVectorSane (UInt32.ofNat (ofLe (body.take 4)))
      (UInt32.ofNat (ofLe ((body.drop 4).take 4))) = true
  fits : (padDownloadImage image).length ≤ fblAppFlashSize
  known :
    (cryptoKeystoreLookup keys (UInt32.ofNat keyId)).bind
        CryptoKeyEntry.pubkey = some ideal.publicKey

namespace SignedBuild

variable
  {ideal : IdealCrypto}
  {keys : List CryptoKeyEntry}
  {body image : List UInt8}
  {keyId : Nat}

/-- The body of a build is smaller than what a length field holds. -/
theorem body_small
    (build : SignedBuild ideal keys body image keyId) :
    body.length ≤ fblAppFlashSize - 100 ∧ (UInt32.ofNat body.length).toNat =
      body.length := by
  have padded := (padDownloadImage_length image).2
  have size := length_image build.written
  have fits := build.fits
  simp only [fblAppFlashSize] at fits ⊢
  have small : body.length < 2 ^ 32 := by omega
  exact ⟨by omega, UInt32.toNat_ofNat_of_lt' small⟩

/-- The other core's verdict on a build at its place. -/
theorem verified
    (build : SignedBuild ideal keys body image keyId)
    {mem : UInt32 → UInt8}
    {base : UInt32}
    (here : SignedAt ideal body keyId mem base)
    (hashHandler macHandler : CryptoMsg → Option CryptoMsg) :
    cryptoVerifyDelivered
        (cm0pHandlers ideal.core mem keys hashHandler macHandler) base
        (UInt32.ofNat body.length) (UInt32.ofNat keyId) =
      .valid := by
  have noOffset :
      base + UInt32.ofNat body.length + trailerHashOff =
        base + UInt32.ofNat body.length :=
    UInt32.add_zero _
  have storedHash := here.storedHash
  have storedSig := here.storedSig
  rw [noOffset] at storedHash
  rw [trailerSigOff] at storedSig
  rw [cryptoVerifyDelivered_eq, verifyVerdict_of_known build.known,
    doVerifyImage_valid, build.body_small.2, here.covered, storedHash,
    storedSig]
  exact ⟨rfl, storedSignature_verifies build.written build.signed⟩

/-- A build at its place is valid. -/
theorem valid
    (build : SignedBuild ideal keys body image keyId)
    {bytes : Nat → UInt8}
    (placed :
      ImageAt (flashMemory bytes) fblAppFlashBase.toUInt32 image)
    (hashHandler macHandler : CryptoMsg → Option CryptoMsg)
    (lifecycle : FblLifecycle)
    (dwell : FblDwell) :
    (signedBoard ideal keys hashHandler macHandler lifecycle dwell).imageValid
        bytes =
      true := by
  have here := signedAt_of_image build.written placed
  have large := (signImage_eq build.written).1
  have small := build.body_small.1
  refine fblAppImageValid_of_region.mpr ?_
  rw [here.header]
  refine ⟨rfl, ?_, ?_, ?_, ?_⟩
  · rw [UInt32.le_iff_toNat_le, build.body_small.2]
    exact large
  · rw [UInt32.le_iff_toNat_le, build.body_small.2]
    exact small
  · rw [here.storedKeyId]
    exact build.verified here hashHandler macHandler
  · rw [here.msp, here.resetVector]
    exact build.vectors

/-- Over flash that works, the tool runs to its end with a build. -/
theorem flashed
    (build : SignedBuild ideal keys body image keyId)
    (hashHandler macHandler : CryptoMsg → Option CryptoMsg)
    (lifecycle : FblLifecycle)
    (dwell : FblDwell)
    {link : HostLink}
    (reliable : link.server.flash.Reliable)
    (inTime : link.times 2 - link.times 1 < udsS3ServerMs) :
    let board := signedBoard ideal keys hashHandler macHandler lifecycle dwell
    ∃ last,
      hostFlash board.imageValid (padDownloadImage image) fblAppFlashBase
          flashLargeSectorSize link = some ((), last) ∧
        memBytes (flashMemory last.server.flash.bytes)
            fblAppFlashBase.toUInt32 body.length = signBuffer body := by
  intro board
  have size := length_image build.written
  obtain ⟨wholeRows, longer⟩ := padDownloadImage_length image
  have inRegion : image.length ≤ fblAppFlashSize :=
    Nat.le_trans longer build.fits
  obtain ⟨last, finished, reprogrammed⟩ :=
    @flash_runs_to_its_end board.imageValid (padDownloadImage image) link
      (by omega) wholeRows build.fits reliable inTime
      (fun bytes content =>
        build.valid (imageAt_of_content inRegion content) hashHandler
          macHandler lifecycle dwell)
  exact
    ⟨last, finished,
      (signedAt_of_image build.written
        (imageAt_of_content inRegion reprogrammed.content)).covered⟩

end SignedBuild

/--
A signed build boots.  Its file is any well-formed one that stores the image and
nothing behind it, and that the tool reads as such.  The tool, started in any
state of the server over flash that works, runs to its end when its key follows
the seed within S3, and the bootloader starts what was signed.
-/
theorem signed_build_boots
    {body image : List UInt8}
    {keyId : Nat}
    (build : SignedBuild ideal keys body image keyId)
    (hashHandler macHandler : CryptoMsg → Option CryptoMsg)
    (lifecycle : FblLifecycle)
    (dwell : FblDwell)
    {ahead : ReadAhead}
    {lines : List (List Char)}
    {records : List HexRecord}
    (wellFormed : hexRecords lines = some records)
    (readable : HexReadable ahead lines records)
    (holds : HexHolds (hexFormat records) fblAppFlashBase image)
    {link : HostLink}
    (reliable : link.server.flash.Reliable)
    (inTime : link.times 2 - link.times 1 < udsS3ServerMs) :
    let board := signedBoard ideal keys hashHandler macHandler lifecycle dwell
    ∃ download last,
      buildDownloadImage ahead lines fblAppFlashBase = some download ∧
        hostFlash board.imageValid download fblAppFlashBase
            flashLargeSectorSize link = some ((), last) ∧
        board.BootsAfter last ∧
        memBytes (flashMemory last.server.flash.bytes)
            fblAppFlashBase.toUInt32 body.length = signBuffer body := by
  intro board
  have size := length_image build.written
  have nonempty : image ≠ [] := List.length_pos_iff.mp (by omega)
  obtain ⟨last, finished, covered⟩ :=
    build.flashed hashHandler macHandler lifecycle dwell reliable inTime
  exact
    ⟨padDownloadImage image, last,
      buildDownloadImage_of_holds wellFormed readable holds nonempty, finished,
      (board.finished_boots finished).2, covered⟩

end SignedBuild

/-!
## A build of the shortest size
-/

/-- The shortest body, signed, for the board that holds the one key. -/
theorem shortestBuild :
    SignedBuild sampleCrypto sampleKeys innerBody innerImage 1 where
  written := by decide +kernel
  signed := Or.inl rfl
  vectors := by decide +kernel
  fits := by decide +kernel
  known := by decide

/-- That board, without a tool that knocks. -/
def sampleBoard : Board :=
  signedBoard sampleCrypto sampleKeys (fun _ => none) (fun _ => none) .secure
    { startMs := 0
      contact := fun _ => false
      nowMs := fun _ => fblKnockWindowMs
      advances := ⟨0, by decide⟩ }

/-- The bytes of a record: count, address, type, data and checksum. -/
def hexRecordBytes (offset : Nat) (rectype : UInt8) (data : List UInt8) :
    List UInt8 :=
  let covered :=
    UInt8.ofNat data.length :: UInt8.ofNat (offset / 256) ::
      UInt8.ofNat offset :: rectype :: data
  covered ++ [covered.foldl (fun rest byte => rest - byte) 0]

/-- The shortest image, in a file of two data records. -/
def shortestFile : List (List Char) :=
  [hexText (hexRecordBytes 0 0x04 [0x10, 0x04]),
    hexText (hexRecordBytes 0 0x00 (innerImage.take 200)),
    hexText (hexRecordBytes 200 0x00 (innerImage.drop 200)),
    hexText (hexRecordBytes 0 0x01 [])]

/-- The records of that file. -/
def shortestRecords : List HexRecord :=
  [.linear 0x1004, .data 0 (innerImage.take 200),
    .data 200 (innerImage.drop 200), .endOfFile]

theorem shortestFile_records :
    hexRecords shortestFile = some shortestRecords := by
  simp only [shortestFile, hexRecords, hexLine_hexText]
  decide +kernel

/-- It is ASCII text, in which a linear address record says where bytes go. -/
theorem shortestFile_readable :
    HexReadable (fun _ => 16) shortestFile shortestRecords where
  decoded := by
    rintro ⟨before, line, after, split, -, decoded, member, notAscii⟩
    have within : decoded ∈ shortestFile := by
      rw [split]
      exact List.mem_append_right _ (List.mem_of_mem_take member)
    have ascii : ∀ line ∈ shortestFile, pyAscii line = true := by
      decide +kernel
    rw [ascii decoded within] at notAscii
    cases notAscii
  harmless := .of_placed (by decide +kernel)

theorem shortestFile_holds :
    HexHolds (hexFormat shortestRecords) fblAppFlashBase innerImage := by
  have stores :
      hexFormat shortestRecords = hexStores fblAppFlashBase innerImage := by
    have size : (innerImage.take 200).length = 200 := by
      decide +kernel
    have whole := hexStores_append fblAppFlashBase (innerImage.take 200)
      (innerImage.drop 200)
    rw [size, List.take_append_drop] at whole
    rw [whole, hexFormat, shortestRecords]
    simp only [hexStoresBy, List.append_nil]
    rfl
  rw [stores]
  exact hexStores_holds _ _

/-- The shortest image is downloaded into blank flash and started. -/
theorem shortest_update_boots :
    ∃ last,
      hostFlash sampleBoard.imageValid (padDownloadImage innerImage)
          fblAppFlashBase flashLargeSectorSize
          ⟨.start blankFlash, fun _ => 0, []⟩ = some ((), last) ∧
        Reprogrammed (padDownloadImage innerImage) blankFlash last.server.flash
          (downloadOps (padDownloadImage innerImage)) ∧
        sampleBoard.imageValid last.server.flash.bytes = true ∧
        sampleBoard.BootsAfter last := by
  obtain ⟨last, finished, -⟩ :=
    @flash_runs_to_its_end sampleBoard.imageValid
      (padDownloadImage innerImage) ⟨.start blankFlash, fun _ => 0, []⟩
      (by decide +kernel) (by decide +kernel) shortestBuild.fits (fun _ => rfl)
      (by decide)
      (fun bytes content =>
        shortestBuild.valid (imageAt_of_content (by decide +kernel) content) _
          _ _ _)
  exact ⟨last, finished, Board.finished_update_boots finished⟩

/-- Its file boots. -/
theorem shortest_file_boots :
    ∃ download last,
      buildDownloadImage (fun _ => 16) shortestFile fblAppFlashBase =
          some download ∧
        hostFlash sampleBoard.imageValid download fblAppFlashBase
            flashLargeSectorSize ⟨.start blankFlash, fun _ => 0, []⟩ =
          some ((), last) ∧
        sampleBoard.BootsAfter last ∧
        memBytes (flashMemory last.server.flash.bytes)
            fblAppFlashBase.toUInt32 innerBody.length =
          signBuffer innerBody :=
  signed_build_boots sampleCrypto sampleKeys shortestBuild (fun _ => none)
    (fun _ => none) .secure _ shortestFile_records
    shortestFile_readable shortestFile_holds (fun _ => rfl) (by decide)

end TraveoBodyDomain
