import TraveoBodyDomain.Diag.DownloadRun
import TraveoBodyDomain.Diag.FlashGeometry
import TraveoBodyDomain.Diag.Reprogram

/-!
# What a finished run of the tool says about the flash

The tool sees nothing but responses.  Here a run of `flash` that ends without an
exception is taken apart, request by request, whatever state the server was in
and whichever operations of the flash were to fail: none of those it needed did,
and the flash holds the image.
-/

namespace TraveoBodyDomain

/-!
## Operations that succeed
-/

namespace CodeFlash

/-- None of these operations fails. -/
def Succeeds (flash : CodeFlash) (ops : List FlashOp) : Prop :=
  ∀ call < ops.length, flash.failures call = none

/-- The same flash, with no failure to come. -/
def spared (flash : CodeFlash) : CodeFlash :=
  { flash with failures := fun _ => none }

theorem spared_reliable (flash : CodeFlash) : flash.spared.Reliable :=
  fun _ => rfl

/-- The failures to come after some operations. -/
theorem runAll_failures
    (flash : CodeFlash)
    (ops : List FlashOp)
    (call : Nat) :
    (flash.runAll ops).failures call = flash.failures (call + ops.length) := by
  induction ops generalizing flash with
  | nil =>
      rfl
  | cons op rest inductionHypothesis =>
      rw [runAll_cons, inductionHypothesis, List.length_cons]
      rfl

/-- One operation after the other succeeds. -/
theorem Succeeds.append
    {flash : CodeFlash}
    {first second : List FlashOp}
    (succeeds : flash.Succeeds first)
    (later : (flash.runAll first).Succeeds second) :
    flash.Succeeds (first ++ second) := by
  intro call below
  rw [List.length_append] at below
  rcases Nat.lt_or_ge call first.length with early | late
  · exact succeeds call early
  · have none := later (call - first.length) (by omega)
    rwa [runAll_failures, Nat.sub_add_cancel late] at none

/-- Operations that succeed do what they do where nothing fails. -/
theorem Succeeds.bytes
    {flash : CodeFlash}
    {ops : List FlashOp}
    (succeeds : flash.Succeeds ops) :
    (flash.runAll ops).bytes = (flash.spared.runAll ops).bytes := by
  induction ops generalizing flash with
  | nil =>
      rfl
  | cons op rest inductionHypothesis =>
      have none : flash.failures 0 = .none :=
        succeeds 0 (Nat.zero_lt_succ _)
      have later : (flash.run op).2.Succeeds rest :=
        fun call below => succeeds (call + 1) (Nat.succ_lt_succ below)
      have same : (flash.run op).2.spared = (flash.spared.run op).2 := by
        simp [CodeFlash.run, spared, none]
      rw [runAll_cons, runAll_cons, inductionHypothesis later, same]

end CodeFlash

/-- An image whose operations succeeded is in the flash. -/
theorem reprogrammed_of_succeeds
    {image : List UInt8}
    {flash : CodeFlash}
    (succeeds : flash.Succeeds (downloadOps image))
    (wholeRows : image.length % flashProgramRowSize = 0)
    (fits : image.length ≤ fblAppFlashSize) :
    Reprogrammed image flash (flash.runAll (downloadOps image))
      (downloadOps image) := by
  have reprogrammed :=
    reprogrammed_of_ops flash.spared_reliable wholeRows fits
  exact
    { attempted := flash.runAll_ops _
      content := by
        rw [succeeds.bytes]
        exact reprogrammed.content
      erasedFirst := reprogrammed.erasedFirst
      sectors := reprogrammed.sectors
      once := reprogrammed.once
      inside := reprogrammed.inside
      outside := by
        rw [succeeds.bytes]
        exact reprogrammed.outside }

/-- A range whose erase returned 0 was erased sector by sector. -/
theorem fblFlashEraseRange_succeeded
    {addr len : UInt32}
    {flash after : CodeFlash}
    (erased : fblFlashEraseRange addr len flash = (true, after)) :
    after =
        flash.runAll
          (sectorOps len.toNat addr.toNat (addr.toNat + len.toNat)) ∧
      flash.Succeeds
        (sectorOps len.toNat addr.toNat (addr.toNat + len.toNat)) := by
  rw [fblFlashEraseRange] at erased
  split at erased
  · cases erased
  · split at erased
    · cases erased
    · next addrCoarse =>
        split at erased
        · cases erased
        · next lenCoarse =>
            have coarse :
                (addr.toNat + len.toNat) % flashLargeSectorSize = 0 := by
              rw [Nat.add_mod, not_not.mp addrCoarse, not_not.mp lenCoarse]
              rfl
            have tries :=
              @eraseWalk_tries len.toNat _ _ flash
                (sectorStart_of_coarse (not_not.mp addrCoarse)) coarse
            rw [erased] at tries
            exact tries.all rfl

/-- A write that returned 0 was accepted, and programmed row by row. -/
theorem fblFlashWrite_succeeded
    {addr : UInt32}
    {src : List UInt8}
    {flash : CodeFlash}
    (written : (fblFlashWrite addr src flash).1 = true) :
    WriteAccepted addr src.length ∧
      (fblFlashWrite addr src flash).2 =
          flash.runAll
            (rowOps (src.length / flashProgramRowSize) addr.toNat src) ∧
        flash.Succeeds
          (rowOps (src.length / flashProgramRowSize) addr.toNat src) := by
  by_cases accepted : WriteAccepted addr src.length
  · rw [fblFlashWrite_eq, if_pos accepted] at written ⊢
    exact ⟨accepted, (programRows_tries _ _ _ flash).all written⟩
  · rw [fblFlashWrite_of_refused accepted] at written
    cases written

/-!
## One request
-/

section Requests

variable
  {imageValid : (Nat → UInt8) → Bool}
  {link next last : HostLink}

/-- A program in two parts ends when both do, the second where the first left. -/
theorem bind_finished
    {Value Other : Type}
    {program : StateT HostLink Option Value}
    {then_ : Value → StateT HostLink Option Other}
    {result : Other}
    (finished : (program >>= then_) link = some (result, last)) :
    ∃ value middle,
      program link = some (value, middle) ∧
        then_ value middle = some (result, last) := by
  obtain ⟨⟨value, middle⟩, ran, rest⟩ := Option.bind_eq_some_iff.mp finished
  exact ⟨value, middle, ran, rest⟩

/-- A request that raised nothing was accepted by its handler. -/
theorem hostRequest_finished
    {sid : UInt8}
    {req resp : List UInt8}
    (finished :
      hostRequest imageValid (sid :: req) link = some (resp, next)) :
    ∃ body,
      ((link.server.s3Check (link.times 0)).handle imageValid sid req).result =
          .ok body ∧
        resp = sid :: body ∧
          next.server = link.answeredServer imageValid sid req body := by
  cases handled :
      ((link.server.s3Check (link.times 0)).handle imageValid sid req).result with
  | error nrc =>
      simp [hostRequest, UdsServer.tick, UdsServer.dispatch, handled]
        at finished
  | ok body =>
      simp only [hostRequest, UdsServer.tick, UdsServer.dispatch, handled]
        at finished
      split at finished
      · cases finished
      · split at finished
        · cases finished
        · obtain ⟨rfl, rfl⟩ := Prod.mk.inj (Option.some.inj finished)
          exact ⟨body, rfl, rfl, rfl⟩

/-- A request for nothing that touches the flash leaves it. -/
theorem answeredServer_flash
    {sid : UInt8}
    {req body : List UInt8}
    (sent : sid ≠ udsSidTransferData ∧ sid ≠ udsSidRoutineControl) :
    (link.answeredServer imageValid sid req body).flash =
      link.server.flash := by
  have kept (server : UdsServer) :
      (server.handle imageValid sid req).state.flash = server.flash := by
    unfold UdsServer.handle
    split_ifs
    all_goals first
      | rfl
      | exact absurd ‹sid = udsSidTransferData› sent.1
      | exact absurd ‹sid = udsSidRoutineControl› sent.2
  rw [HostLink.answeredServer, UdsServer.followUp_flash]
  exact (kept _).trans (link.server.s3Check_flash _)

/-- A request for nothing of the flash, that raised nothing. -/
theorem hostRequest_keeps_flash
    {sid : UInt8}
    {req resp : List UInt8}
    (sent : sid ≠ udsSidTransferData ∧ sid ≠ udsSidRoutineControl)
    (finished :
      hostRequest imageValid (sid :: req) link = some (resp, next)) :
    next.server.flash = link.server.flash := by
  obtain ⟨body, -, -, server⟩ := hostRequest_finished finished
  rw [server]
  exact answeredServer_flash sent

/-- The erase routine does not answer positively when the port fails. -/
theorem routineControlHandle_notErased
    {flash after : CodeFlash}
    {addr len : UInt32}
    (failed : fblFlashEraseRange addr len flash = (false, after)) :
    (routineControlHandle imageValid flash
        ([0x01, 0xFF, 0x00] ++ toU32Be addr ++ toU32Be len)).result =
      .error .generalProgrammingFailure := by
  have first :
      reqU32 ([0x01, 0xFF, 0x00] ++ toU32Be addr ++ toU32Be len) 3 = addr :=
    u32Be_toU32Be _
  have second :
      reqU32 ([0x01, 0xFF, 0x00] ++ toU32Be addr ++ toU32Be len) 7 = len :=
    u32Be_toU32Be _
  have routine :
      routineId ([0x01, 0xFF, 0x00] ++ toU32Be addr ++ toU32Be len) =
        udsRoutineEraseMemory := by
    show ((0xFF : UInt8).toUInt16 <<< 8) ||| (0x00 : UInt8).toUInt16 = _
    decide
  have started :
      ([0x01, 0xFF, 0x00] ++ toU32Be addr ++ toU32Be len).getD 0 0 = 0x01 :=
    rfl
  have size :
      ([0x01, 0xFF, 0x00] ++ toU32Be addr ++ toU32Be len).length = 11 :=
    rfl
  rw [routineControlHandle, if_neg (by rw [size]; decide),
    if_neg (not_not.mpr started), if_pos routine, doErase,
    if_neg (by rw [size]; decide), first, second, failed]
  rfl

/-- An erase routine that raised nothing erased its range. -/
theorem erase_finished
    {addr len : UInt32}
    {resp : List UInt8}
    (finished :
      hostRequest imageValid
          (udsSidRoutineControl ::
            ([0x01, 0xFF, 0x00] ++ toU32Be addr ++ toU32Be len)) link =
        some (resp, next)) :
    fblFlashEraseRange addr len link.server.flash =
      (true, next.server.flash) := by
  obtain ⟨body, handled, -, server⟩ := hostRequest_finished finished
  rw [UdsServer.handle_routineControl, UdsServer.s3Check_flash] at handled
  rw [server, HostLink.answeredServer, UdsServer.followUp_flash,
    UdsServer.handle_routineControl, UdsServer.s3Check_flash]
  cases erased : fblFlashEraseRange addr len link.server.flash with
  | mk returned after =>
      cases returned with
      | true =>
          rw [routineControlHandle_erase imageValid erased]
      | false =>
          dsimp only at handled
          rw [routineControlHandle_notErased erased] at handled
          cases handled

/-- A download request that raised nothing announced its range. -/
theorem download_finished
    {addr len : UInt32}
    {resp : List UInt8}
    (finished :
      hostRequest imageValid
          (udsSidRequestDownload :: (toU32Be addr ++ toU32Be len)) link =
        some (resp, next)) :
    resp = [udsSidRequestDownload, 0x08, 0x00] ∧
      next.server.download = ⟨.active, addr, len, 0, 1⟩ ∧
      next.server.flash = link.server.flash := by
  obtain ⟨body, handled, answered, server⟩ := hostRequest_finished finished
  have range := fun download => requestDownloadHandle_range download addr len
  rw [UdsServer.handle_requestDownload, range] at handled
  obtain rfl := Except.ok.inj handled
  refine ⟨answered, ?_, hostRequest_keeps_flash (by decide) finished⟩
  rw [server, HostLink.answeredServer, UdsServer.followUp_download,
    UdsServer.handle_requestDownload, range]

/-- A block whose request raised nothing is in the flash. -/
theorem block_finished
    {seq : UInt8}
    {data resp : List UInt8}
    (finished :
      hostRequest imageValid (udsSidTransferData :: seq :: data) link =
        some (resp, next)) :
    link.server.download.state = .active ∧
      seq = link.server.download.nextSeq ∧
      (fblFlashWrite
          (link.server.download.addr + link.server.download.writtenLen) data
          link.server.flash).1 = true ∧
      next.server.download =
        { link.server.download with
          writtenLen := link.server.download.writtenLen + data.length.toUInt32
          nextSeq := link.server.download.nextSeq + 1 } ∧
      next.server.flash =
        (fblFlashWrite
          (link.server.download.addr + link.server.download.writtenLen) data
          link.server.flash).2 := by
  obtain ⟨body, handled, -, server⟩ := hostRequest_finished finished
  rw [UdsServer.handle_transferData, UdsServer.s3Check_download,
    UdsServer.s3Check_flash] at handled
  rw [server, HostLink.answeredServer, UdsServer.followUp_download,
    UdsServer.followUp_flash, UdsServer.handle_transferData,
    UdsServer.s3Check_download, UdsServer.s3Check_flash]
  rcases transferDataHandle_cases link.server.download link.server.flash
      (seq :: data) with ⟨-, nrc, refused⟩ | ⟨start, block, call, done⟩
  · rw [refused] at handled
    cases handled
  · obtain ⟨⟨active, -, due, -⟩, rfl, rfl⟩ := writeCall_eq_some.mp call
    split at done
    · next written =>
        rw [done.2]
        exact ⟨active, due, written, rfl, rfl⟩
    · rw [done.1] at handled
      cases handled

/-- The check routine answers positively only when the image is valid. -/
theorem check_finished
    {resp : List UInt8}
    (finished :
      hostRequest imageValid [udsSidRoutineControl, 0x01, 0xFF, 0x01] link =
        some (resp, next)) :
    resp = [udsSidRoutineControl, 0x01, 0xFF, 0x01, 0x00] ∧
      imageValid link.server.flash.bytes = true ∧
      next.server.flash = link.server.flash := by
  obtain ⟨body, handled, answered, server⟩ := hostRequest_finished finished
  have started : ([0x01, 0xFF, 0x01] : List UInt8).getD 0 0 = 0x01 :=
    rfl
  have routine : routineId [0x01, 0xFF, 0x01] = udsRoutineCheckProgrammedImage := by
    decide
  have other : udsRoutineEraseMemory ≠ udsRoutineCheckProgrammedImage := by
    decide
  have checks (flash : CodeFlash) :
      routineControlHandle imageValid flash [0x01, 0xFF, 0x01] =
        doCheckImage imageValid flash [0x01, 0xFF, 0x01] := by
    rw [routineControlHandle, if_neg (by decide), if_neg (not_not.mpr started),
      routine, if_neg other.symm, if_pos rfl]
  rw [UdsServer.handle_routineControl, checks, UdsServer.s3Check_flash,
    doCheckImage] at handled
  rw [server, HostLink.answeredServer, UdsServer.followUp_flash,
    UdsServer.handle_routineControl, checks, UdsServer.s3Check_flash,
    doCheckImage]
  split at handled
  · next valid =>
      obtain rfl := Except.ok.inj handled
      rw [if_pos valid]
      exact ⟨answered, valid, rfl⟩
  · cases handled

/-- The blocks of a transfer that ended are in the flash, one after the other. -/
theorem transfer_finished
    {block fuel seq written : Nat}
    {total : UInt32}
    {rest : List UInt8}
    (enough : rest.length ≤ fuel)
    (announced :
      link.server.download =
        ⟨.active, fblAppFlashBase.toUInt32, total, written.toUInt32,
          seq.toUInt8⟩)
    (inside : written ≤ fblAppFlashSize)
    (finished :
      hostTransfer imageValid block fuel seq rest link = some ((), last)) :
    rest.length % flashProgramRowSize = 0 ∧
      written + rest.length ≤ fblAppFlashSize ∧
      last.server.flash =
          link.server.flash.runAll
            (rowOps (rest.length / flashProgramRowSize)
              (fblAppFlashBase + written) rest) ∧
        link.server.flash.Succeeds
          (rowOps (rest.length / flashProgramRowSize)
            (fblAppFlashBase + written) rest) := by
  induction fuel generalizing link seq written rest with
  | zero =>
      obtain rfl : rest = [] := List.length_eq_zero_iff.mp (by omega)
      obtain rfl : link = last := congrArg Prod.snd (Option.some.inj finished)
      exact ⟨rfl, inside, rfl, fun call below => absurd below (Nat.not_lt_zero call)⟩
  | succ fuel inductionHypothesis =>
      rw [hostTransfer] at finished
      by_cases empty : rest = []
      · subst empty
        obtain rfl : link = last :=
          congrArg Prod.snd (Option.some.inj finished)
        exact
          ⟨rfl, inside, rfl, fun call below => absurd below (Nat.not_lt_zero call)⟩
      · rw [if_neg empty] at finished
        obtain ⟨resp, middle, sent, after⟩ := bind_finished finished
        obtain ⟨chunk, later, split, chunkIs, laterIs⟩ :
            ∃ chunk later, rest = chunk ++ later ∧ rest.take block = chunk ∧
              rest.drop block = later :=
          ⟨_, _, (List.take_append_drop block rest).symm, rfl, rfl⟩
        rw [chunkIs] at sent
        rw [laterIs] at after
        obtain ⟨-, -, wrote, download, flash⟩ := block_finished sent
        rw [announced] at wrote download flash
        obtain ⟨accepted, ran, succeeded⟩ := fblFlashWrite_succeeded wrote
        rw [ran] at flash
        dsimp only at accepted succeeded flash
        rw [blockAddress inside] at succeeded flash
        obtain ⟨inRegion, -, chunkRows⟩ := accepted
        rw [blockAddress inside, inAppRegion_iff] at inRegion
        have someLeft : 0 < rest.length := List.length_pos_iff.mpr empty
        have sizes : rest.length = chunk.length + later.length := by
          rw [split, List.length_append]
        have nextAnnounced :
            middle.server.download =
              ⟨.active, fblAppFlashBase.toUInt32, total,
                (written + chunk.length).toUInt32, (seq + 1).toUInt8⟩ := by
          rw [download]
          simp only [Nat.toUInt32_eq, Nat.toUInt8_eq, UInt32.ofNat_add,
            UInt8.ofNat_add]
          rfl
        obtain ⟨laterRows, laterFits, lastFlash, laterSucceeds⟩ :=
          @inductionHypothesis middle (seq + 1) (written + chunk.length) later
            (by omega) nextAnnounced (by omega) after
        have rows :
            rest.length / flashProgramRowSize =
              chunk.length / flashProgramRowSize +
                later.length / flashProgramRowSize := by
          simp only [flashProgramRowSize] at chunkRows ⊢
          omega
        have whole :
            chunk.length / flashProgramRowSize * flashProgramRowSize =
              chunk.length :=
          Nat.div_mul_cancel (Nat.dvd_of_mod_eq_zero chunkRows)
        have operations :
            rowOps (rest.length / flashProgramRowSize)
                (fblAppFlashBase + written) rest =
              rowOps (chunk.length / flashProgramRowSize)
                  (fblAppFlashBase + written) chunk ++
                rowOps (later.length / flashProgramRowSize)
                  (fblAppFlashBase + (written + chunk.length)) later := by
          rw [rows, split, rowOps_append whole.symm, whole, Nat.add_assoc]
        rw [operations]
        refine ⟨?_, by omega, ?_, ?_⟩
        · simp only [flashProgramRowSize] at chunkRows laterRows ⊢
          omega
        · rw [lastFlash, flash, CodeFlash.runAll_append]
        · exact succeeded.append (flash ▸ laterSucceeds)

end Requests

/-!
## The whole run
-/

section Run

variable
  {imageValid : (Nat → UInt8) → Bool}
  {image : List UInt8}
  {link last : HostLink}

/-- The download of an image that ended has run its operations, and no others. -/
theorem hostDownload_finished
    (finished :
      hostDownload imageValid image fblAppFlashBase flashLargeSectorSize link =
        some ((), last)) :
    image.length % flashProgramRowSize = 0 ∧
      image.length ≤ fblAppFlashSize ∧
      last.server.flash = link.server.flash.runAll (downloadOps image) ∧
        link.server.flash.Succeeds (downloadOps image) := by
  rw [hostDownload] at finished
  obtain ⟨_, inSession, session, finished⟩ := bind_finished finished
  obtain ⟨_, seeded, seed, finished⟩ := bind_finished finished
  obtain ⟨_, unlocked, key, finished⟩ := bind_finished finished
  obtain ⟨_, erased, erase, finished⟩ := bind_finished finished
  obtain ⟨_, started, start, finished⟩ := bind_finished finished
  obtain ⟨_, written, transfer, finished⟩ := bind_finished finished
  obtain ⟨_, exited, exit, finished⟩ := bind_finished finished
  obtain rfl : exited = last := congrArg Prod.snd (Option.some.inj finished)
  rw [List.cons_append, List.cons_append] at erase
  rw [List.cons_append] at start
  obtain ⟨rfl, announced, startFlash⟩ := download_finished start
  have block : hostBlock [udsSidRequestDownload, 0x08, 0x00] = 2048 := by
    decide
  rw [block] at transfer
  obtain ⟨wholeRows, fits, transferFlash, programmed⟩ :=
    @transfer_finished imageValid started written 2048 image.length 1 0
      image.length.toUInt32 image (Nat.le_refl _) announced (Nat.zero_le _)
      transfer
  rw [Nat.zero_add] at fits
  rw [Nat.add_zero] at transferFlash programmed
  obtain ⟨-, inRegion, -⟩ := eraseLength_spec fits
  have length :
      (eraseLength image.length).toUInt32.toNat = eraseLength image.length := by
    simp only [fblAppFlashSize] at inRegion
    simp only [Nat.toUInt32_eq, UInt32.toNat_ofNat']
    omega
  have base : fblAppFlashBase.toUInt32.toNat = fblAppFlashBase := by
    decide
  obtain ⟨eraseFlash, erasedAll⟩ :=
    fblFlashEraseRange_succeeded (erase_finished erase)
  change erased.server.flash =
    unlocked.server.flash.runAll
      (sectorOps (eraseLength image.length).toUInt32.toNat _ (_ +
        (eraseLength image.length).toUInt32.toNat)) at eraseFlash
  change unlocked.server.flash.Succeeds
    (sectorOps (eraseLength image.length).toUInt32.toNat _ (_ +
      (eraseLength image.length).toUInt32.toNat)) at erasedAll
  rw [length, base] at eraseFlash erasedAll
  have before : unlocked.server.flash = link.server.flash :=
    (hostRequest_keeps_flash (by decide) key).trans
      ((hostRequest_keeps_flash (by decide) seed).trans
        (hostRequest_keeps_flash (by decide) session))
  rw [before] at eraseFlash erasedAll
  rw [startFlash, eraseFlash] at transferFlash programmed
  refine ⟨wholeRows, fits, ?_, erasedAll.append programmed⟩
  rw [hostRequest_keeps_flash (by decide) exit, transferFlash, downloadOps,
    CodeFlash.runAll_append]

/--
A run of the tool that ended has put the image into the flash and found it
valid there; it is the ECUReset that ended it.
-/
theorem hostFlash_finished
    (finished :
      hostFlash imageValid image fblAppFlashBase flashLargeSectorSize link =
        some ((), last)) :
    Reprogrammed image link.server.flash last.server.flash
        (downloadOps image) ∧
      imageValid last.server.flash.bytes = true ∧
      ∃ checked : HostLink,
        (checked.server.tick imageValid (checked.times 0)
            (some [udsSidEcuReset, 0x01])).2.1 = last.server ∧
          checked.server.flash = last.server.flash := by
  rw [hostFlash] at finished
  obtain ⟨_, downloaded, download, finished⟩ := bind_finished finished
  obtain ⟨_, checked, check, finished⟩ := bind_finished finished
  obtain ⟨wholeRows, fits, downloadFlash, succeeds⟩ :=
    hostDownload_finished download
  obtain ⟨rfl, valid, checkFlash⟩ := check_finished check
  change hostNotify imageValid [udsSidEcuReset, 0x01] checked = _ at finished
  obtain ⟨reset, notified, resetFlash⟩ := @reset_notified imageValid checked
  obtain rfl : reset = last :=
    congrArg Prod.snd (Option.some.inj (notified.symm.trans finished))
  have left :
      reset.server.flash = link.server.flash.runAll (downloadOps image) := by
    rw [resetFlash, checkFlash, downloadFlash]
  refine ⟨?_, ?_, checked, ?_, resetFlash.symm⟩
  · rw [left]
    exact reprogrammed_of_succeeds succeeds wholeRows fits
  · rwa [resetFlash, checkFlash]
  · exact congrArg (fun ended => ended.2.server) (Option.some.inj finished)

end Run

end TraveoBodyDomain
