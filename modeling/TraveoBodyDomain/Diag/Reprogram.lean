import TraveoBodyDomain.Diag.Uds

/-!
# Reprogramming

`flash()` of `uds_flash.py` against the bootloader's UDS server.  An exception
of the host tool is `none`.  The values of `config.json`, the base of the
application and the size of a large sector, are parameters as in the source.

What is proved is about flash whose operations succeed: every request is
answered positively, and the operations are exactly one erase of each sector
and one program of each row.
-/

namespace TraveoBodyDomain

/-- `FLASH_ROW`. -/
def flashRow : Nat :=
  512

/-- `SECURITY_KEY_XOR`. -/
def securityKeyXor : Nat :=
  0xA5A5A5A5

/-- A request and its response. -/
structure Exchange where
  request : List UInt8
  response : List UInt8
  deriving Repr, DecidableEq

/--
The tool's end of the line: the server, when it will handle the requests to
come, and the exchanges so far.
-/
structure HostLink where
  server : UdsServer
  times : Nat → UInt32
  exchanges : List Exchange

/-- `int.from_bytes(.., "big")`. -/
def intFromBytesBig (bytes : List UInt8) : Nat :=
  bytes.foldl (fun value byte => value * 256 + byte.toNat) 0

/-- `int.to_bytes(4, "big")`, of a value that fits. -/
def toBytesBig4 (value : Nat) : List UInt8 :=
  toU32Be value.toUInt32

/-- The padding of `build_download_image`: up to a whole row, with 0xFF. -/
def padDownloadImage (stamped : List UInt8) : List UInt8 :=
  stamped ++
    List.replicate ((flashRow - stamped.length % flashRow) % flashRow) 0xFF

/-- The block size of `flash`, from the response to the download request. -/
def hostBlock (rd : List UInt8) : Nat :=
  let maxBlock :=
    if 3 ≤ rd.length then intFromBytesBig ((rd.drop 1).take 2) else flashRow
  max flashRow (maxBlock / flashRow * flashRow)

section Host

-- What `fbl_app_image_valid` says of the flash.
variable (imageValid : (Nat → UInt8) → Bool)

/-- `UdsClient.request`: the response, when it is positive. -/
def hostRequest (payload : List UInt8) :
    StateT HostLink Option (List UInt8) := fun link =>
  match link.server.tick imageValid (link.times 0) (some payload) with
  | (none, _, _) => none
  | (some response, server, _) =>
      if response ≠ [] ∧ response.getD 0 0 = udsSidNegativeResponse then
        none
      else if response ≠ [] ∧ response.getD 0 0 ≠ payload.getD 0 0 then
        none
      else
        some
          (response,
            { server := server
              times := fun request => link.times (request + 1)
              exchanges := link.exchanges ++ [⟨payload, response⟩] })

/-- `UdsClient.request` that expects no response. -/
def hostNotify (payload : List UInt8) : StateT HostLink Option Unit :=
  fun link =>
    let (_, server, _) :=
      link.server.tick imageValid (link.times 0) (some payload)
    some
      ((),
        { server := server
          times := fun request => link.times (request + 1)
          exchanges := link.exchanges })

/-- The loop of `flash` over the blocks; a block at least is sent each turn. -/
def hostTransfer (block : Nat) :
    Nat → Nat → List UInt8 → StateT HostLink Option Unit
  | 0, _, _ => pure ()
  | fuel + 1, seq, rest => do
      if rest = [] then
        pure ()
      else
        let _ ← hostRequest imageValid
          (udsSidTransferData :: seq.toUInt8 :: rest.take block)
        hostTransfer block fuel (seq + 1) (rest.drop block)

/-- `flash`, to the transfer exit. -/
def hostDownload (image : List UInt8) (appBase largeSector : Nat) :
    StateT HostLink Option Unit := do
  let _ ← hostRequest imageValid [udsSidDiagnosticSessionControl, 0x02]
  let seedResp ← hostRequest imageValid [udsSidSecurityAccess, 0x01]
  let seed := intFromBytesBig ((seedResp.drop 2).take 4)
  let key := seed ^^^ securityKeyXor
  let _ ← hostRequest imageValid
    (udsSidSecurityAccess :: 0x02 :: toBytesBig4 key)
  let eraseLen := (image.length + largeSector - 1) / largeSector * largeSector
  let _ ← hostRequest imageValid
    ([udsSidRoutineControl, 0x01, 0xFF, 0x00] ++ toBytesBig4 appBase ++
      toBytesBig4 eraseLen)
  let rd ← hostRequest imageValid
    (udsSidRequestDownload :: toBytesBig4 appBase ++ toBytesBig4 image.length)
  hostTransfer imageValid (hostBlock rd) image.length 1 image
  let _ ← hostRequest imageValid [udsSidRequestTransferExit]
  pure ()

/-- `flash`: after the download the image is checked and the FBL reset. -/
def hostFlash (image : List UInt8) (appBase largeSector : Nat) :
    StateT HostLink Option Unit := do
  hostDownload imageValid image appBase largeSector
  let chk ← hostRequest imageValid [udsSidRoutineControl, 0x01, 0xFF, 0x01]
  let status := if 5 ≤ chk.length then chk.getD 4 0 else 0xFF
  if status ≠ 0x00 then
    failure
  else
    hostNotify imageValid [udsSidEcuReset, 0x01]

end Host

/-!
## Exchanges
-/

/-- The response repeats the service of the request. -/
def Exchange.Positive (exchange : Exchange) : Prop :=
  exchange.response.head? = exchange.request.head? ∧
    exchange.response.head? ≠ some udsSidNegativeResponse

/--
The tool's program runs to its end: every request on the way was answered
positively, each at its time.
-/
structure Completes
    {Value : Type}
    (program : StateT HostLink Option Value)
    (link : HostLink)
    (value : Value)
    (last : HostLink)
    (requests : Nat) : Prop where
  returns : program link = some (value, last)
  times : last.times = fun request => link.times (request + requests)
  answered :
    ∃ more, last.exchanges = link.exchanges ++ more ∧
      more.length = requests ∧ ∀ exchange ∈ more, exchange.Positive

namespace Completes

variable {Value Other : Type}

/-- No request. -/
theorem pure (value : Value) (link : HostLink) :
    Completes (Pure.pure value) link value link 0 :=
  ⟨rfl, rfl, [], by simp, rfl, by simp⟩

/-- What follows starts where the program left off. -/
theorem followed
    {program : StateT HostLink Option Value}
    {link middle : HostLink}
    {value : Value}
    {requests : Nat}
    (before : Completes program link value middle requests)
    (next : Value → StateT HostLink Option Other) :
    (program >>= next) link = next value middle := by
  show (StateT.bind program next) link = _
  simp only [StateT.bind, before.returns]
  rfl

/-- One program after the other. -/
theorem bind
    {program : StateT HostLink Option Value}
    {next : Value → StateT HostLink Option Other}
    {link middle last : HostLink}
    {value : Value}
    {result : Other}
    {first second : Nat}
    (before : Completes program link value middle first)
    (after : Completes (next value) middle result last second) :
    Completes (program >>= next) link result last (first + second) := by
  obtain ⟨early, extended, early_length, early_positive⟩ := before.answered
  obtain ⟨late, further, late_length, late_positive⟩ := after.answered
  refine ⟨?_, ?_, early ++ late, ?_, ?_, ?_⟩
  · rw [before.followed]
    exact after.returns
  · rw [after.times, before.times]
    funext request
    simp only [Nat.add_assoc, Nat.add_comm second first]
  · rw [further, extended, List.append_assoc]
  · rw [List.length_append, early_length, late_length]
  · intro exchange member
    rcases List.mem_append.mp member with inEarly | inLate
    · exact early_positive exchange inEarly
    · exact late_positive exchange inLate

end Completes

section Requests

variable (imageValid : (Nat → UInt8) → Bool)

/-- The server after it handled a request positively. -/
def HostLink.answeredServer
    (link : HostLink)
    (sid : UInt8)
    (req body : List UInt8) : UdsServer :=
  UdsServer.followUp
    { ((link.server.s3Check (link.times 0)).handle imageValid sid req).state with
      lastActivityMs := link.times 0 }
    sid body

/-- A request that its handler accepts is answered positively. -/
theorem hostRequest_completes
    {link : HostLink}
    {sid : UInt8}
    {req body : List UInt8}
    (accepted :
      ((link.server.s3Check (link.times 0)).handle imageValid sid req).result =
        .ok body)
    (service : sid ≠ udsSidNegativeResponse) :
    ∃ last,
      Completes (hostRequest imageValid (sid :: req)) link (sid :: body) last 1 ∧
        last.server = link.answeredServer imageValid sid req body := by
  have handled :
      link.server.tick imageValid (link.times 0) (some (sid :: req)) =
        (some (sid :: body), link.answeredServer imageValid sid req body,
          ((link.server.s3Check (link.times 0)).handle imageValid sid
            req).effects) := by
    simp only [UdsServer.tick, UdsServer.dispatch, accepted]
    rfl
  refine
    ⟨{ server := link.answeredServer imageValid sid req body
       times := fun request => link.times (request + 1)
       exchanges := link.exchanges ++ [⟨sid :: req, sid :: body⟩] },
      ⟨?_, rfl, [⟨sid :: req, sid :: body⟩], rfl, rfl, ?_⟩, rfl⟩
  · simp only [hostRequest, handled]
    rw [if_neg, if_neg]
    · simp
    · simpa using service
  · intro exchange member
    obtain rfl := List.mem_singleton.mp member
    exact ⟨rfl, by simpa using service⟩

variable {link : HostLink}

/-- The programming session is entered. -/
theorem session_completes :
    ∃ last,
      Completes
          (hostRequest imageValid [udsSidDiagnosticSessionControl, 0x02]) link
          [udsSidDiagnosticSessionControl, 0x02] last 1 ∧
        last.server.download = link.server.download ∧
        last.server.flash = link.server.flash := by
  obtain ⟨last, completes, server⟩ :=
    @hostRequest_completes imageValid link udsSidDiagnosticSessionControl
      [0x02] [0x02] (by rw [UdsServer.handle_sessionControl]; rfl) (by decide)
  refine ⟨last, completes, ?_, ?_⟩
  · rw [server, HostLink.answeredServer, UdsServer.handle_sessionControl]
    simp
  · rw [server, HostLink.answeredServer, UdsServer.handle_sessionControl]
    simp

/-- A seed is sent, and remembered. -/
theorem seed_completes :
    ∃ last seed,
      Completes (hostRequest imageValid [udsSidSecurityAccess, 0x01]) link
          (udsSidSecurityAccess :: 0x01 :: toU32Be seed) last 1 ∧
        last.server.security.state = .seedSent ∧
        last.server.security.seed = seed ∧
        last.server.lastActivityMs = link.times 0 ∧
        last.server.download = link.server.download ∧
        last.server.flash = link.server.flash := by
  obtain ⟨last, completes, server⟩ :=
    @hostRequest_completes imageValid link udsSidSecurityAccess [0x01] _
      (by rw [UdsServer.handle_securityAccess]; rfl) (by decide)
  refine ⟨last, _, completes, ?_⟩
  rw [server, HostLink.answeredServer, UdsServer.handle_securityAccess,
    UdsServer.followUp_other _ (by decide)]
  exact ⟨rfl, rfl, rfl, by simp, by simp⟩

/-- The key that belongs to the seed is accepted. -/
theorem key_completes
    (sent : link.server.security.state = .seedSent)
    (inTime : link.times 0 - link.server.lastActivityMs < udsS3ServerMs) :
    ∃ last,
      Completes
          (hostRequest imageValid
            (udsSidSecurityAccess :: 0x02 ::
              toU32Be (link.server.security.seed ^^^ udsSecurityKeyXorConst)))
          link [udsSidSecurityAccess, 0x02] last 1 ∧
        last.server.download = link.server.download ∧
        last.server.flash = link.server.flash := by
  obtain ⟨last, completes, server⟩ :=
    @hostRequest_completes imageValid link udsSidSecurityAccess
      (0x02 ::
        toU32Be (link.server.security.seed ^^^ udsSecurityKeyXorConst)) [0x02]
      (by
        rw [UdsServer.handle_securityAccess, UdsServer.s3Check_inTime inTime,
          securityAccessHandle_key sent])
      (by decide)
  refine ⟨last, completes, ?_, ?_⟩
  · rw [server, HostLink.answeredServer, UdsServer.handle_securityAccess]
    simp
  · rw [server, HostLink.answeredServer, UdsServer.handle_securityAccess]
    simp

/-- The sectors of a range that the port erases are erased. -/
theorem erase_completes
    {addr len : UInt32}
    {after : CodeFlash}
    (erased : fblFlashEraseRange addr len link.server.flash = (true, after)) :
    ∃ last,
      Completes
          (hostRequest imageValid
            ([udsSidRoutineControl, 0x01, 0xFF, 0x00] ++ toU32Be addr ++
              toU32Be len)) link
          [udsSidRoutineControl, 0x01, 0xFF, 0x00] last 1 ∧
        last.server.download = link.server.download ∧
        last.server.flash = after := by
  have handled :=
    routineControlHandle_erase imageValid
      ((link.server.s3Check_flash (link.times 0)).symm ▸ erased)
  obtain ⟨last, completes, server⟩ :=
    @hostRequest_completes imageValid link udsSidRoutineControl
      ([0x01, 0xFF, 0x00] ++ toU32Be addr ++ toU32Be len) [0x01, 0xFF, 0x00]
      (by rw [UdsServer.handle_routineControl, handled]) (by decide)
  refine ⟨last, completes, ?_, ?_⟩
  · rw [server, HostLink.answeredServer, UdsServer.handle_routineControl]
    simp
  · rw [server, HostLink.answeredServer, UdsServer.handle_routineControl,
      handled]
    simp

/-- A download is started. -/
theorem download_completes (addr len : UInt32) :
    ∃ last,
      Completes
          (hostRequest imageValid
            (udsSidRequestDownload :: toU32Be addr ++ toU32Be len)) link
          [udsSidRequestDownload, 0x08, 0x00] last 1 ∧
        last.server.download = ⟨.active, addr, len, 0, 1⟩ ∧
        last.server.flash = link.server.flash := by
  have handled := fun download =>
    requestDownloadHandle_range download addr len
  obtain ⟨last, completes, server⟩ :=
    @hostRequest_completes imageValid link udsSidRequestDownload
      (toU32Be addr ++ toU32Be len) [0x08, 0x00]
      (by rw [UdsServer.handle_requestDownload, handled]) (by decide)
  refine ⟨last, completes, ?_, ?_⟩
  · rw [server, HostLink.answeredServer, UdsServer.handle_requestDownload,
      handled]
    simp
  · rw [server, HostLink.answeredServer, UdsServer.handle_requestDownload]
    simp

/-- A block that the port writes is written. -/
theorem block_completes
    {data : List UInt8}
    {after : CodeFlash}
    (active : link.server.download.state = .active)
    (room :
      link.server.download.writtenLen + data.length.toUInt32 ≤
        link.server.download.totalLen)
    (written :
      fblFlashWrite
          (link.server.download.addr + link.server.download.writtenLen) data
          link.server.flash = (true, after)) :
    ∃ last,
      Completes
          (hostRequest imageValid
            (udsSidTransferData :: link.server.download.nextSeq :: data)) link
          [udsSidTransferData, link.server.download.nextSeq] last 1 ∧
        last.server.download =
          { link.server.download with
            writtenLen :=
              link.server.download.writtenLen + data.length.toUInt32
            nextSeq := link.server.download.nextSeq + 1 } ∧
        last.server.flash = after := by
  have handled := transferDataHandle_block active room written
  obtain ⟨last, completes, server⟩ :=
    @hostRequest_completes imageValid link udsSidTransferData
      (link.server.download.nextSeq :: data) [link.server.download.nextSeq]
      (by
        rw [UdsServer.handle_transferData, UdsServer.s3Check_download,
          UdsServer.s3Check_flash, handled])
      (by decide)
  refine ⟨last, completes, ?_, ?_⟩
  · rw [server, HostLink.answeredServer, UdsServer.handle_transferData,
      UdsServer.s3Check_download, UdsServer.s3Check_flash, handled]
    simp
  · rw [server, HostLink.answeredServer, UdsServer.handle_transferData,
      UdsServer.s3Check_download, UdsServer.s3Check_flash, handled]
    simp

/-- A transfer of which every byte was written is finished. -/
theorem exit_completes
    (active : link.server.download.state = .active)
    (complete :
      link.server.download.writtenLen = link.server.download.totalLen) :
    ∃ last,
      Completes (hostRequest imageValid [udsSidRequestTransferExit]) link
          [udsSidRequestTransferExit] last 1 ∧
        last.server.flash = link.server.flash := by
  have handled := requestTransferExitHandle_complete active complete
  obtain ⟨last, completes, server⟩ :=
    @hostRequest_completes imageValid link udsSidRequestTransferExit [] []
      (by
        rw [UdsServer.handle_requestTransferExit, UdsServer.s3Check_download,
          handled])
      (by decide)
  refine ⟨last, completes, ?_⟩
  rw [server, HostLink.answeredServer, UdsServer.handle_requestTransferExit]
  simp

/-- A valid image is reported as such. -/
theorem check_completes
    (valid : imageValid link.server.flash.bytes = true) :
    ∃ last,
      Completes
          (hostRequest imageValid [udsSidRoutineControl, 0x01, 0xFF, 0x01]) link
          [udsSidRoutineControl, 0x01, 0xFF, 0x01, 0x00] last 1 ∧
        last.server.flash = link.server.flash := by
  have handled := routineControlHandle_check valid
  obtain ⟨last, completes, server⟩ :=
    @hostRequest_completes imageValid link udsSidRoutineControl
      [0x01, 0xFF, 0x01] [0x01, 0xFF, 0x01, 0x00]
      (by
        rw [UdsServer.handle_routineControl, UdsServer.s3Check_flash, handled])
      (by decide)
  refine ⟨last, completes, ?_⟩
  rw [server, HostLink.answeredServer, UdsServer.handle_routineControl,
    UdsServer.s3Check_flash, handled]
  simp

/-- The reset is asked for, and leaves the flash alone. -/
theorem reset_notified :
    ∃ last,
      hostNotify imageValid [udsSidEcuReset, 0x01] link = some ((), last) ∧
        last.server.flash = link.server.flash := by
  have handled : ecuResetHandle [0x01] = .ok [0x01] :=
    rfl
  refine ⟨_, rfl, ?_⟩
  simp only [UdsServer.dispatch, UdsServer.handle_ecuReset, handled]
  simp

/-- The address of a block in the application region does not wrap. -/
theorem blockAddress
    {written : Nat}
    (inside : written ≤ fblAppFlashSize) :
    (fblAppFlashBase.toUInt32 + written.toUInt32).toNat =
      fblAppFlashBase + written := by
  simp only [fblAppFlashSize] at inside
  simp only [fblAppFlashBase, Nat.toUInt32_eq, UInt32.toNat_add,
    UInt32.toNat_ofNat']
  omega

/-- Whole rows behind whole rows are accepted, as far as the region goes. -/
theorem blockAccepted
    {written len : Nat}
    (someBytes : 0 < len)
    (inside : written + len ≤ fblAppFlashSize)
    (wholeRows : len % flashProgramRowSize = 0)
    (aligned : written % flashProgramRowSize = 0) :
    WriteAccepted (fblAppFlashBase.toUInt32 + written.toUInt32) len := by
  rw [WriteAccepted, blockAddress (by omega)]
  refine ⟨inAppRegion_iff.mpr (by omega), ?_, wholeRows⟩
  simp only [fblAppFlashBase, flashProgramRowSize] at aligned ⊢
  omega

/-- What is left of an announced length is room for the block. -/
theorem blockRoom
    {written len total : Nat}
    (inside : written + len ≤ total)
    (fits : total ≤ fblAppFlashSize) :
    written.toUInt32 + len.toUInt32 ≤ total.toUInt32 := by
  simp only [fblAppFlashSize] at fits
  rw [UInt32.le_iff_toNat_le]
  simp only [Nat.toUInt32_eq, UInt32.toNat_add, UInt32.toNat_ofNat']
  omega

/-- The blocks of an image are written one after the other. -/
theorem transfer_completes
    {block fuel seq total written : Nat}
    {rest : List UInt8}
    (wholeBlock : block % flashProgramRowSize = 0)
    (someBlock : 0 < block)
    (enough : rest.length ≤ fuel)
    (announced :
      link.server.download =
        ⟨.active, fblAppFlashBase.toUInt32, total.toUInt32, written.toUInt32,
          seq.toUInt8⟩)
    (left : written + rest.length = total)
    (fits : total ≤ fblAppFlashSize)
    (wholeRows : rest.length % flashProgramRowSize = 0)
    (aligned : written % flashProgramRowSize = 0)
    (reliable : link.server.flash.Reliable) :
    ∃ last requests nextSeq,
      Completes (hostTransfer imageValid block fuel seq rest) link () last
          requests ∧
        last.server.download =
          ⟨.active, fblAppFlashBase.toUInt32, total.toUInt32, total.toUInt32,
            nextSeq⟩ ∧
        last.server.flash =
          link.server.flash.runAll
            (rowOps (rest.length / flashProgramRowSize)
              (fblAppFlashBase + written) rest) := by
  induction fuel generalizing link seq written rest with
  | zero =>
      obtain rfl : rest = [] := List.length_eq_zero_iff.mp (by omega)
      obtain rfl : written = total := by simpa using left
      exact ⟨link, 0, seq.toUInt8, .pure () link, announced, rfl⟩
  | succ fuel inductionHypothesis =>
      by_cases finished : rest = []
      · subst finished
        obtain rfl : written = total := by simpa using left
        rw [hostTransfer, if_pos rfl]
        exact ⟨link, 0, seq.toUInt8, .pure () link, announced, rfl⟩
      · have someLeft : 0 < rest.length := List.length_pos_iff.mpr finished
        obtain ⟨chunk, later, split, chunkIs, laterIs⟩ :
            ∃ chunk later, rest = chunk ++ later ∧ rest.take block = chunk ∧
              rest.drop block = later :=
          ⟨_, _, (List.take_append_drop block rest).symm, rfl, rfl⟩
        have chunkSize : chunk.length = min block rest.length := by
          rw [← chunkIs, List.length_take]
        have sizes : rest.length = chunk.length + later.length := by
          rw [split, List.length_append]
        have chunkRows : chunk.length % flashProgramRowSize = 0 := by
          simp only [flashProgramRowSize] at wholeBlock wholeRows ⊢
          omega
        have accepted := @blockAccepted written chunk.length (by omega)
          (by omega) chunkRows aligned
        obtain ⟨middle, sent, download, flash⟩ :=
          @block_completes imageValid link chunk _ (by rw [announced])
            (by rw [announced]; exact blockRoom (by omega) fits)
            (by rw [announced]; exact reliable.fblFlashWrite accepted)
        rw [announced] at sent download
        have nextAnnounced :
            middle.server.download =
              ⟨.active, fblAppFlashBase.toUInt32, total.toUInt32,
                (written + chunk.length).toUInt32, (seq + 1).toUInt8⟩ := by
          rw [download]
          simp only [Nat.toUInt32_eq, Nat.toUInt8_eq, UInt32.ofNat_add,
            UInt8.ofNat_add]
          rfl
        obtain ⟨last, requests, nextSeq, completes, lastDownload, lastFlash⟩ :=
          @inductionHypothesis middle (seq + 1) (written + chunk.length) later
            (by omega) nextAnnounced (by omega)
            (by
              simp only [flashProgramRowSize] at wholeRows chunkRows ⊢
              omega)
            (by
              simp only [flashProgramRowSize] at aligned chunkRows ⊢
              omega)
            (by rw [flash]; exact reliable.runAll _)
        refine ⟨last, 1 + requests, nextSeq, ?_, lastDownload, ?_⟩
        · rw [hostTransfer, if_neg finished, chunkIs, laterIs]
          exact sent.bind completes
        · have rows :
              rest.length / flashProgramRowSize =
                chunk.length / flashProgramRowSize +
                  later.length / flashProgramRowSize := by
            simp only [flashProgramRowSize] at chunkRows ⊢
            omega
          have whole :
              chunk.length / flashProgramRowSize * flashProgramRowSize =
                chunk.length :=
            Nat.div_mul_cancel (Nat.dvd_of_mod_eq_zero chunkRows)
          rw [lastFlash, flash, ← CodeFlash.runAll_append, rows, split,
            rowOps_append whole.symm, whole, blockAddress (by omega),
            Nat.add_assoc]

end Requests

/-!
## The flash after a download
-/

/-- The length of the range that is erased for an image. -/
def eraseLength (len : Nat) : Nat :=
  (len + flashLargeSectorSize - 1) / flashLargeSectorSize *
    flashLargeSectorSize

/--
Each byte of each row that is programmed was erased before, and not programmed
since.
-/
def ErasedSinceProgrammed (ops : List FlashOp) : Prop :=
  ∀ before row data after,
    ops = before ++ .programRow row data :: after →
      ∀ addr, row ≤ addr → addr < row + flashProgramRowSize →
        ∃ earlier sector since,
          before = earlier ++ .eraseSector sector :: since ∧
            sector ≤ addr ∧ addr < sector + fblFlashSectorSize sector ∧
            ∀ other bytes, .programRow other bytes ∈ since →
              addr < other ∨ other + flashProgramRowSize ≤ addr

/-- What the download of an image, in whole rows, does to the flash. -/
structure Reprogrammed
    (image : List UInt8)
    (before after : CodeFlash)
    (ops : List FlashOp) : Prop where
  attempted : after.ops = before.ops ++ ops
  content :
    ∀ i < image.length,
      after.bytes (fblAppFlashBase + i) = image.getD i 0
  erasedFirst : ErasedSinceProgrammed ops
  sectors :
    ∀ sector,
      FlashOp.eraseSector sector ∈ ops ↔
        SectorStart sector ∧ fblAppFlashBase ≤ sector ∧
          sector < fblAppFlashBase + eraseLength image.length
  once : ops.Nodup
  inside :
    ∀ op ∈ ops,
      fblAppFlashBase ≤ op.extent.1 ∧
        op.extent.1 + op.extent.2 ≤ fblAppFlashBase + fblAppFlashSize
  outside :
    ∀ addr,
      addr < fblAppFlashBase ∨ fblAppFlashBase + fblAppFlashSize ≤ addr →
        after.bytes addr = before.bytes addr

/-- Operations that touch different bytes are different. -/
theorem FlashOp.Apart.ne
    {first second : FlashOp}
    (apart : first.Apart second) :
    first ≠ second := by
  rintro rfl
  have positive : 0 < first.extent.2 := by
    cases first with
    | eraseSector addr =>
        have size := fblFlashSectorSize_cases addr
        simp only [flashSmallSectorSize, flashLargeSectorSize] at size
        simp only [FlashOp.extent]
        omega
    | programRow addr data =>
        simp [FlashOp.extent, flashProgramRowSize]
  simp only [FlashOp.Apart] at apart
  omega

/-- A sector that starts inside a sector is that sector. -/
theorem SectorStart.eq_of_inside
    {outer inner : Nat}
    (outerStarts : SectorStart outer)
    (innerStarts : SectorStart inner)
    (lower : outer ≤ inner)
    (upper : inner < outer + fblFlashSectorSize outer) :
    outer = inner := by
  have outerSize := fblFlashSectorSize_cases outer
  have innerSize := fblFlashSectorSize_cases inner
  simp only [SectorStart, flashSmallSectorSize, flashLargeSectorSize,
    flashSmallRegionStart] at *
  rcases outerSize with ⟨_, size⟩ | ⟨_, size⟩ <;>
    rcases innerSize with ⟨_, size'⟩ | ⟨_, size'⟩ <;>
    rw [size] at outerStarts upper <;> rw [size'] at innerStarts <;> omega

section Operations

variable {fuel rows stop : Nat} {image : List UInt8}

/-- The erased sectors, then the rows: no operation twice. -/
theorem downloadOps_nodup
    {pos : Nat}
    (starts : SectorStart pos)
    (coarse : stop % flashLargeSectorSize = 0) :
    (sectorOps fuel pos stop ++ rowOps rows pos image).Nodup := by
  rw [List.nodup_append]
  refine ⟨?_, ?_, ?_⟩
  · exact (sectorOps_apart fuel starts coarse).imp fun apart => apart.ne
  · exact (rowOps_apart rows pos image).imp fun apart => apart.ne
  · intro op inSectors other inRows same
    obtain ⟨sector, rfl, -⟩ := mem_sectorOps starts coarse inSectors
    obtain ⟨row, data, rfl, -⟩ := mem_rowOps inRows
    cases same

/-- Rows inside the erased range are erased before they are programmed. -/
theorem downloadOps_erasedFirst
    {pos : Nat}
    (starts : SectorStart pos)
    (coarse : stop % flashLargeSectorSize = 0)
    (enough : stop - pos ≤ fuel)
    (covered : pos + rows * flashProgramRowSize ≤ stop) :
    ErasedSinceProgrammed
      (sectorOps fuel pos stop ++ rowOps rows pos image) := by
  intro before row data after split addr lower upper
  have notSector :
      ∀ row data, .programRow row data ∉ sectorOps fuel pos stop := by
    intro row data inSectors
    obtain ⟨_, wrong, -⟩ := mem_sectorOps starts coarse inSectors
    cases wrong
  have amongRows :
      ∃ rowsBefore,
        before = sectorOps fuel pos stop ++ rowsBefore ∧
          rowOps rows pos image = rowsBefore ++ .programRow row data :: after := by
    rcases List.append_eq_append_iff.mp split with
      inRows | ⟨sectorsAfter, sectorsSplit, rowIs⟩
    · exact inRows
    · cases sectorsAfter with
      | nil =>
          exact ⟨[], by simpa using sectorsSplit.symm, by simpa using rowIs.symm⟩
      | cons op rest =>
          obtain rfl := (List.cons.inj rowIs).1
          exact (notSector row data (by rw [sectorsSplit]; simp)).elim
  obtain ⟨rowsBefore, beforeIs, rowsSplit⟩ := amongRows
  have member : .programRow row data ∈ rowOps rows pos image := by
    rw [rowsSplit]
    simp
  obtain ⟨_, _, same, rowLower, rowUpper, -⟩ := mem_rowOps member
  cases same
  obtain ⟨sector, sectorIn, sectorLower, sectorUpper⟩ :=
    sectorOps_cover enough (show pos ≤ addr by omega)
      (show addr < stop by omega)
  obtain ⟨earlier, since, erases⟩ := List.append_of_mem sectorIn
  refine
    ⟨earlier, sector, since ++ rowsBefore, ?_, sectorLower, sectorUpper, ?_⟩
  · rw [beforeIs, erases]
    simp
  · intro other bytes programmed
    rcases List.mem_append.mp programmed with inSince | inRows
    · exact (notSector other bytes (by rw [erases]; simp [inSince])).elim
    · have apart := rowOps_apart rows pos image
      rw [rowsSplit, List.pairwise_append] at apart
      have different := apart.2.2 _ inRows _ (List.mem_cons_self ..)
      simp only [FlashOp.Apart, FlashOp.extent] at different
      omega

/-- The sectors that are erased are those that start in the range. -/
theorem downloadOps_sectors
    {pos : Nat}
    (starts : SectorStart pos)
    (coarse : stop % flashLargeSectorSize = 0)
    (enough : stop - pos ≤ fuel)
    (sector : Nat) :
    FlashOp.eraseSector sector ∈
        sectorOps fuel pos stop ++ rowOps rows pos image ↔
      SectorStart sector ∧ pos ≤ sector ∧ sector < stop := by
  constructor
  · intro member
    rcases List.mem_append.mp member with inSectors | inRows
    · obtain ⟨_, same, lower, upper, aligned⟩ :=
        mem_sectorOps starts coarse inSectors
      cases same
      have size := fblFlashSectorSize_cases sector
      simp only [flashSmallSectorSize, flashLargeSectorSize] at size
      exact ⟨aligned, lower, by omega⟩
    · obtain ⟨_, _, wrong, -⟩ := mem_rowOps inRows
      cases wrong
  · rintro ⟨aligned, lower, upper⟩
    obtain ⟨outer, member, outerLower, outerUpper⟩ :=
      sectorOps_cover enough lower upper
    obtain ⟨_, same, -, -, outerStarts⟩ := mem_sectorOps starts coarse member
    cases same
    have found := outerStarts.eq_of_inside aligned outerLower outerUpper
    exact List.mem_append_left _ (found ▸ member)

end Operations

/-- A length rounded up to whole large sectors. -/
theorem eraseLength_spec
    {len : Nat}
    (fits : len ≤ fblAppFlashSize) :
    len ≤ eraseLength len ∧ eraseLength len ≤ fblAppFlashSize ∧
      eraseLength len % flashLargeSectorSize = 0 := by
  simp only [eraseLength, flashLargeSectorSize, fblAppFlashSize] at fits ⊢
  omega

/-- The flash operations of a download. -/
def downloadOps (image : List UInt8) : List FlashOp :=
  sectorOps (eraseLength image.length) fblAppFlashBase
      (fblAppFlashBase + eraseLength image.length) ++
    rowOps (image.length / flashProgramRowSize) fblAppFlashBase image

/-- Erasing the sectors of an image and programming its rows reprograms. -/
theorem reprogrammed_of_ops
    {image : List UInt8}
    {flash : CodeFlash}
    (reliable : flash.Reliable)
    (wholeRows : image.length % flashProgramRowSize = 0)
    (fits : image.length ≤ fblAppFlashSize) :
    Reprogrammed image flash (flash.runAll (downloadOps image))
      (downloadOps image) := by
  obtain ⟨longEnough, inRegion, lenCoarse⟩ := eraseLength_spec fits
  have starts : SectorStart fblAppFlashBase :=
    sectorStart_of_coarse (by decide)
  have coarse :
      (fblAppFlashBase + eraseLength image.length) % flashLargeSectorSize =
        0 := by
    simp only [fblAppFlashBase, flashLargeSectorSize] at lenCoarse ⊢
    omega
  have rows :
      image.length / flashProgramRowSize * flashProgramRowSize =
        image.length :=
    Nat.div_mul_cancel (Nat.dvd_of_mod_eq_zero wholeRows)
  have insideRegion :
      ∀ op ∈ downloadOps image,
        fblAppFlashBase ≤ op.extent.1 ∧
          op.extent.1 + op.extent.2 ≤ fblAppFlashBase + fblAppFlashSize := by
    intro op member
    rw [downloadOps] at member
    rcases List.mem_append.mp member with inSectors | inRows
    · obtain ⟨sector, rfl, lower, upper, -⟩ :=
        mem_sectorOps starts coarse inSectors
      exact ⟨lower, by simp only [FlashOp.extent]; omega⟩
    · obtain ⟨row, data, rfl, lower, upper, -⟩ := mem_rowOps inRows
      exact ⟨lower, by simp only [FlashOp.extent]; omega⟩
  refine
    { attempted := flash.runAll_ops _
      content := ?_
      erasedFirst := ?_
      sectors := ?_
      once := ?_
      inside := insideRegion
      outside := ?_ }
  · intro i inImage
    rw [downloadOps, CodeFlash.runAll_append]
    exact (reliable.runAll _).rowOps_bytes rows.symm inImage
  · exact downloadOps_erasedFirst starts coarse (by omega) (by omega)
  · exact downloadOps_sectors starts coarse (by omega)
  · exact downloadOps_nodup starts coarse
  · intro addr notInRegion
    apply CodeFlash.runAll_bytes_missed
    intro op member
    have bounds := insideRegion op member
    simp only [FlashOp.Misses]
    omega

/-!
## The whole sequence
-/

/-- What the tool reads as the seed is the seed. -/
theorem intFromBytesBig_seed (seed : UInt32) :
    intFromBytesBig (toU32Be seed) = seed.toNat := by
  have read := u32Be_toNat (seed >>> 24).toUInt8 (seed >>> 16).toUInt8
    (seed >>> 8).toUInt8 seed.toUInt8
  rw [u32Be_toU32Be] at read
  rw [read]
  simp only [intFromBytesBig, toU32Be, List.foldl_cons, List.foldl_nil]
  omega

/-- The tool's key is the one the server expects. -/
theorem hostKey (seed : UInt32) :
    toBytesBig4 (seed.toNat ^^^ securityKeyXor) =
      toU32Be (seed ^^^ udsSecurityKeyXorConst) := by
  have same :
      (seed.toNat ^^^ securityKeyXor).toUInt32 =
        seed ^^^ udsSecurityKeyXorConst := by
    have value :
        seed.toNat ^^^ securityKeyXor =
          (seed ^^^ udsSecurityKeyXorConst).toNat := by
      rw [UInt32.toNat_xor]
      rfl
    rw [value, Nat.toUInt32_eq, UInt32.ofNat_toNat]
  rw [toBytesBig4, same]

/-- Padding adds 0xFF up to a whole row. -/
theorem padDownloadImage_length (stamped : List UInt8) :
    (padDownloadImage stamped).length % flashProgramRowSize = 0 ∧
      stamped.length ≤ (padDownloadImage stamped).length := by
  simp only [padDownloadImage, flashRow, flashProgramRowSize,
    List.length_append, List.length_replicate]
  omega

/-- The erase of an image's sectors succeeds. -/
theorem fblFlashEraseRange_image
    {flash : CodeFlash}
    (reliable : flash.Reliable)
    {len : Nat}
    (someBytes : 0 < len)
    (fits : len ≤ fblAppFlashSize) :
    fblFlashEraseRange fblAppFlashBase.toUInt32 (eraseLength len).toUInt32
        flash =
      (true, flash.runAll
        (sectorOps (eraseLength len) fblAppFlashBase
          (fblAppFlashBase + eraseLength len))) := by
  obtain ⟨longEnough, inRegion, lenCoarse⟩ := eraseLength_spec fits
  have base : fblAppFlashBase.toUInt32.toNat = fblAppFlashBase := by
    decide
  have length : (eraseLength len).toUInt32.toNat = eraseLength len := by
    simp only [fblAppFlashSize] at inRegion
    simp only [Nat.toUInt32_eq, UInt32.toNat_ofNat']
    omega
  have accepted : inAppRegion fblAppFlashBase (eraseLength len) = true :=
    inAppRegion_iff.mpr (by omega)
  have baseCoarse : fblAppFlashBase % flashLargeSectorSize = 0 := by
    decide
  have coarse :
      (fblAppFlashBase + eraseLength len) % flashLargeSectorSize = 0 := by
    rw [Nat.add_mod, baseCoarse, lenCoarse]
    rfl
  rw [fblFlashEraseRange, base, length, if_neg (by simp [accepted]),
    if_neg (not_not.mpr baseCoarse), if_neg (not_not.mpr lenCoarse),
    reliable.eraseWalk (sectorStart_of_coarse baseCoarse) coarse]

/-- The tool's requests, one after the other, up to the transfer exit. -/
theorem hostDownload_completes
    (imageValid : (Nat → UInt8) → Bool)
    {image : List UInt8}
    {link : HostLink}
    (someBytes : 0 < image.length)
    (wholeRows : image.length % flashProgramRowSize = 0)
    (fits : image.length ≤ fblAppFlashSize)
    (reliable : link.server.flash.Reliable)
    (inTime : link.times 2 - link.times 1 < udsS3ServerMs) :
    ∃ last requests,
      Completes
          (hostDownload imageValid image fblAppFlashBase flashLargeSectorSize)
          link () last requests ∧
        last.server.flash = link.server.flash.runAll (downloadOps image) := by
  obtain ⟨session, sessionSent, -, sessionFlash⟩ :=
    @session_completes imageValid link
  obtain ⟨seeded, seed, seedSent, state, remembered, activity, -, seedFlash⟩ :=
    @seed_completes imageValid session
  have keyInTime :
      seeded.times 0 - seeded.server.lastActivityMs < udsS3ServerMs := by
    rw [activity, seedSent.times, sessionSent.times]
    exact inTime
  obtain ⟨unlocked, keySent, -, keyFlash⟩ :=
    @key_completes imageValid seeded state keyInTime
  have flashKept : unlocked.server.flash = link.server.flash := by
    rw [keyFlash, seedFlash, sessionFlash]
  have eraseSucceeds :=
    @fblFlashEraseRange_image unlocked.server.flash (flashKept ▸ reliable)
      image.length someBytes fits
  obtain ⟨erased, eraseSent, -, eraseFlash⟩ :=
    erase_completes imageValid eraseSucceeds
  obtain ⟨started, startSent, announced, startFlash⟩ :=
    @download_completes imageValid erased fblAppFlashBase.toUInt32
      image.length.toUInt32
  have stillReliable : started.server.flash.Reliable := by
    rw [startFlash, eraseFlash, flashKept]
    exact reliable.runAll _
  obtain ⟨written, blocks, nextSeq, blocksSent, complete, blocksFlash⟩ :=
    @transfer_completes imageValid started 2048 image.length 1 image.length 0
      image (by decide) (by decide) (Nat.le_refl _) announced (by omega) fits
      wholeRows (by decide) stillReliable
  obtain ⟨last, exitSent, exitFlash⟩ :=
    @exit_completes imageValid written (by rw [complete]) (by rw [complete])
  rw [remembered, ← hostKey] at keySent
  have sent :
      Completes
        (hostDownload imageValid image fblAppFlashBase flashLargeSectorSize)
        link () last (1 + (1 + (1 + (1 + (1 + (blocks + (1 + 0))))))) := by
    have readSeed :
        intFromBytesBig
            (((udsSidSecurityAccess :: 0x01 :: toU32Be seed).drop 2).take 4) =
          seed.toNat :=
      intFromBytesBig_seed seed
    have readBlock : hostBlock [udsSidRequestDownload, 0x08, 0x00] = 2048 := by
      decide
    refine sessionSent.bind (seedSent.bind ?_)
    dsimp only
    rw [readSeed]
    refine keySent.bind (eraseSent.bind (startSent.bind ?_))
    rw [readBlock]
    exact blocksSent.bind (exitSent.bind (.pure () last))
  refine ⟨last, _, sent, ?_⟩
  rw [exitFlash, blocksFlash, startFlash, eraseFlash, flashKept, downloadOps,
    CodeFlash.runAll_append, Nat.add_zero]

/--
Reprogramming from end to end, from any state of the server.

The image fits the application region, every flash operation succeeds, and the
key follows the seed within S3.  Then every request is answered positively, and
the flash is reprogrammed with the padded image.
-/
theorem download_reprograms
    (imageValid : (Nat → UInt8) → Bool)
    (stamped : List UInt8)
    (link : HostLink)
    (nonempty : stamped ≠ [])
    (fits : (padDownloadImage stamped).length ≤ fblAppFlashSize)
    (reliable : link.server.flash.Reliable)
    (inTime : link.times 2 - link.times 1 < udsS3ServerMs) :
    ∃ last requests ops,
      Completes
          (hostDownload imageValid (padDownloadImage stamped) fblAppFlashBase
            flashLargeSectorSize) link () last requests ∧
        Reprogrammed (padDownloadImage stamped) link.server.flash
          last.server.flash ops := by
  obtain ⟨wholeRows, longer⟩ := padDownloadImage_length stamped
  have someBytes : 0 < stamped.length := List.length_pos_iff.mpr nonempty
  obtain ⟨last, requests, sent, flash⟩ :=
    hostDownload_completes imageValid (by omega) wholeRows fits reliable inTime
  have reprogrammed := reprogrammed_of_ops reliable wholeRows fits
  rw [← flash] at reprogrammed
  exact ⟨last, requests, _, sent, reprogrammed⟩

/-- Three blocks, the last one partial, into blank flash right after a start. -/
theorem three_blocks_reprogram :
    ∃ last requests ops,
      Completes
          (hostDownload (fun _ => false)
            (padDownloadImage (List.replicate 5000 0x2A)) fblAppFlashBase
            flashLargeSectorSize)
          ⟨.start blankFlash, fun _ => 0, []⟩ () last requests ∧
        Reprogrammed (padDownloadImage (List.replicate 5000 0x2A)) blankFlash
          last.server.flash ops := by
  have length : (List.replicate 5000 (0x2A : UInt8)).length = 5000 :=
    List.length_replicate
  have nonempty : List.replicate 5000 (0x2A : UInt8) ≠ [] :=
    List.ne_nil_of_length_pos (by rw [length]; exact Nat.succ_pos 4999)
  have fits :
      (padDownloadImage (List.replicate 5000 0x2A)).length ≤ fblAppFlashSize := by
    rw [padDownloadImage, List.length_append, length, List.length_replicate]
    decide
  exact
    download_reprograms (fun _ => false) (List.replicate 5000 0x2A)
      ⟨.start blankFlash, fun _ => 0, []⟩ nonempty fits (fun _ => rfl)
      (by decide)

/--
The tool runs to its end when the bootloader finds valid every application
flash that starts with the image: the image is checked and the FBL reset.
-/
theorem flash_runs_to_its_end
    {imageValid : (Nat → UInt8) → Bool}
    {image : List UInt8}
    {link : HostLink}
    (someBytes : 0 < image.length)
    (wholeRows : image.length % flashProgramRowSize = 0)
    (fits : image.length ≤ fblAppFlashSize)
    (reliable : link.server.flash.Reliable)
    (inTime : link.times 2 - link.times 1 < udsS3ServerMs)
    (valid :
      ∀ bytes : Nat → UInt8,
        (∀ i < image.length, bytes (fblAppFlashBase + i) = image.getD i 0) →
          imageValid bytes = true) :
    ∃ last,
      hostFlash imageValid image fblAppFlashBase flashLargeSectorSize link =
          some ((), last) ∧
        Reprogrammed image link.server.flash last.server.flash
          (downloadOps image) := by
  obtain ⟨downloaded, requests, sent, flash⟩ :=
    hostDownload_completes imageValid someBytes wholeRows fits reliable inTime
  have reprogrammed := reprogrammed_of_ops reliable wholeRows fits
  rw [← flash] at reprogrammed
  obtain ⟨checked, checkSent, checkFlash⟩ :=
    @check_completes imageValid downloaded
      (valid _ reprogrammed.content)
  obtain ⟨last, notified, lastFlash⟩ := @reset_notified imageValid checked
  refine ⟨last, ?_, ?_⟩
  · rw [hostFlash, sent.followed, checkSent.followed]
    exact notified
  · rw [lastFlash, checkFlash]
    exact reprogrammed

end TraveoBodyDomain
