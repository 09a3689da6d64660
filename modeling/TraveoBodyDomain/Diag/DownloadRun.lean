import TraveoBodyDomain.Diag.Uds

/-!
# Downloads, over whole histories of requests

The three handlers of `uds_download.c` on the flash port, one request after the
other, and what a tester can tell of a download from the requests and answers
alone: the range it announced and the blocks that were accepted since.

A request lies in the address space beside the flash that is programmed.  That
is all that is needed of its length; the session layer's buffer holds 4096
bytes.
-/

namespace TraveoBodyDomain

/-- A request of one of the three services, without its first byte. -/
inductive DownloadRequest where
  | requestDownload (req : List UInt8)
  | transferData (req : List UInt8)
  | requestTransferExit (req : List UInt8)
  deriving Repr, DecidableEq

/-- The static variables of `uds_download.c`, and the flash. -/
structure Downloader where
  download : Download
  flash : CodeFlash

/-- A request: what it found, how it was answered, and what it left. -/
structure DownloadEvent where
  request : DownloadRequest
  before : Downloader
  result : Except UdsNrc (List UInt8)
  after : Downloader

/-- `uds_download_init`. -/
def udsDownloadInit (download : Download) : Download :=
  { download with state := .idle }

/-- One request, by the handler of its service. -/
def downloadStep : Machine.Step Downloader DownloadRequest DownloadEvent :=
  fun before request =>
    let (result, after) :=
      match request with
      | .requestDownload req =>
          let handling := requestDownloadHandle before.download req
          (handling.result, Downloader.mk handling.state before.flash)
      | .transferData req =>
          let handling :=
            transferDataHandle before.download before.flash req
          (handling.result, Downloader.mk handling.state.1 handling.state.2)
      | .requestTransferExit _ =>
          let handling := requestTransferExitHandle before.download
          (handling.result, Downloader.mk handling.state before.flash)
    (after, [⟨request, before, result, after⟩])

/-- The service of a request. -/
def DownloadRequest.sid : DownloadRequest → UInt8
  | .requestDownload _ => udsSidRequestDownload
  | .transferData _ => udsSidTransferData
  | .requestTransferExit _ => udsSidRequestTransferExit

/-- Its other bytes. -/
def DownloadRequest.req : DownloadRequest → List UInt8
  | .requestDownload req => req
  | .transferData req => req
  | .requestTransferExit req => req

/-- It is what the table of handlers does with the request. -/
theorem downloadStep_eq_handle
    (imageValid : (Nat → UInt8) → Bool)
    (server : UdsServer)
    (request : DownloadRequest) :
    let handling := server.handle imageValid request.sid request.req
    let after : Downloader := ⟨handling.state.download, handling.state.flash⟩
    downloadStep ⟨server.download, server.flash⟩ request =
      (after,
        [⟨request, ⟨server.download, server.flash⟩, handling.result,
          after⟩]) := by
  cases request <;> rfl

/--
The call of the port's `write` in `transfer_data_handle`, when the request gets
that far: where to, and what.
-/
def Download.writeCall
    (download : Download)
    (req : List UInt8) : Option (UInt32 × List UInt8) :=
  if download.state = .active ∧ 1 ≤ req.length ∧
      req.getD 0 0 = download.nextSeq ∧
      download.writtenLen + (req.drop 1).length.toUInt32 ≤
        download.totalLen then
    some (download.addr + download.writtenLen, req.drop 1)
  else
    none

/-- The same call, of a request that was handled. -/
def DownloadEvent.write (event : DownloadEvent) :
    Option (UInt32 × List UInt8) :=
  match event.request with
  | .transferData req => event.before.download.writeCall req
  | _ => none

/-- A block that was accepted: its number, and where its bytes were written. -/
structure AcceptedBlock where
  number : UInt8
  start : Nat
  data : List UInt8
  deriving Repr, DecidableEq

/-- A download that was requested, and the blocks accepted since. -/
structure DownloadRecord where
  addr : Nat
  len : Nat
  blocks : List AcceptedBlock
  deriving Repr, DecidableEq

/-- The number of bytes accepted. -/
def DownloadRecord.size (record : DownloadRecord) : Nat :=
  (record.blocks.map fun block => block.data.length).sum

/-- One more block. -/
def DownloadRecord.accept
    (record : DownloadRecord)
    (block : AcceptedBlock) : DownloadRecord :=
  { record with blocks := record.blocks ++ [block] }

/--
What a request and its answer say of the download that is active: an accepted
0x34 starts one, an accepted 0x36 adds a block, and 0x37 ends it.
-/
def DownloadEvent.record
    (record : Option DownloadRecord)
    (event : DownloadEvent) : Option DownloadRecord :=
  match event.request, event.result with
  | .requestDownload req, .ok _ =>
      some ⟨(reqU32 req 0).toNat, (reqU32 req 4).toNat, []⟩
  | .transferData req, .ok _ =>
      match event.write with
      | some (start, data) =>
          record.map (·.accept ⟨req.getD 0 0, start.toNat, data⟩)
      | none => record
  | .requestTransferExit _, _ => none
  | _, _ => record

/-- The download that is active after a history, if any. -/
def downloadOf (history : List DownloadEvent) : Option DownloadRecord :=
  history.foldl DownloadEvent.record none

/--
The blocks are numbered from `number` on, modulo 256, and lie one behind the
other on `[pos, stop)`.
-/
inductive BlocksTile : UInt8 → Nat → Nat → List AcceptedBlock → Prop
  | done (number : UInt8) (pos : Nat) : BlocksTile number pos pos []
  | block
      {number : UInt8}
      {pos stop : Nat}
      {data : List UInt8}
      {rest : List AcceptedBlock}
      (behind : BlocksTile (number + 1) (pos + data.length) stop rest) :
      BlocksTile number pos stop (⟨number, pos, data⟩ :: rest)

/-- The accepted blocks are the announced range. -/
def DownloadRecord.Complete (record : DownloadRecord) : Prop :=
  BlocksTile 1 record.addr (record.addr + record.len) record.blocks

/-- A block may be put behind blocks that tile. -/
theorem BlocksTile.concat
    {number : UInt8}
    {pos stop : Nat}
    {blocks : List AcceptedBlock}
    (tile : BlocksTile number pos stop blocks)
    (data : List UInt8) :
    BlocksTile number pos (stop + data.length)
      (blocks ++
        [⟨number + UInt8.ofNat blocks.length, stop, data⟩]) := by
  induction tile with
  | done number pos =>
      have here : number + UInt8.ofNat ([] : List AcceptedBlock).length = number :=
        UInt8.add_zero number
      rw [here]
      exact .block (.done _ _)
  | @block number pos stop first rest behind inductionHypothesis =>
      have there :
          number + UInt8.ofNat (rest.length + 1) =
            number + 1 + UInt8.ofNat rest.length := by
        rw [UInt8.ofNat_add, UInt8.add_assoc, UInt8.add_comm (UInt8.ofNat _)]
        rfl
      rw [List.cons_append, List.length_cons, there]
      exact .block inductionHypothesis

/-- Blocks that tile a range have as many bytes. -/
theorem BlocksTile.size
    {number : UInt8}
    {pos stop : Nat}
    {blocks : List AcceptedBlock}
    (tile : BlocksTile number pos stop blocks) :
    stop = pos + (blocks.map fun block => block.data.length).sum := by
  induction tile with
  | done number pos =>
      rfl
  | block behind inductionHypothesis =>
      rw [inductionHypothesis, List.map_cons, List.sum_cons, Nat.add_assoc]

/-!
## What the handlers keep track of
-/

/-- The static variables are those of this download. -/
structure Tracks (download : Download) (record : DownloadRecord) : Prop where
  addr : record.addr = download.addr.toNat
  len : record.len = download.totalLen.toNat
  size : record.size = download.writtenLen.toNat
  number : download.nextSeq = 1 + UInt8.ofNat record.blocks.length
  tile :
    BlocksTile 1 record.addr (record.addr + record.size) record.blocks
  fits : record.size ≤ record.len
  inRegion :
    record.size = 0 ∨
      fblAppFlashBase ≤ record.addr ∧
        record.addr + record.size ≤ fblAppFlashBase + fblAppFlashSize

/-- They are those of the download that is active, if one is. -/
structure TracksDownload
    (download : Download)
    (record : Option DownloadRecord) : Prop where
  active : download.state = .active ↔ record.isSome = true
  tracks : ∀ known, record = some known → Tracks download known

/-- A write that gets to the port and is accepted goes behind the blocks. -/
structure Placed
    (record : DownloadRecord)
    (start : UInt32)
    (len : Nat) : Prop where
  behind : start.toNat = record.addr + record.size
  inside : record.size + len ≤ record.len
  lower : fblAppFlashBase ≤ record.addr
  upper :
    record.addr + record.size + len ≤ fblAppFlashBase + fblAppFlashSize

section Write

variable
  {download : Download}
  {record : DownloadRecord}
  {req : List UInt8}
  {start : UInt32}
  {data : List UInt8}

/-- What the handler has checked when it calls the port. -/
theorem writeCall_eq_some :
    download.writeCall req = some (start, data) ↔
      (download.state = .active ∧ 1 ≤ req.length ∧
        req.getD 0 0 = download.nextSeq ∧
        download.writtenLen + (req.drop 1).length.toUInt32 ≤
          download.totalLen) ∧
        start = download.addr + download.writtenLen ∧ data = req.drop 1 := by
  rw [Download.writeCall]
  split
  · next checked =>
      rw [Option.some.injEq, Prod.mk.injEq]
      simp only [checked, true_and, eq_comm]
  · next refused =>
      simp only [refused, false_and, reduceCtorEq]

/-- Fewer bytes are accepted than the region has. -/
theorem Tracks.small (tracks : Tracks download record) :
    record.size ≤ fblAppFlashSize := by
  rcases tracks.inRegion with none | ⟨lower, upper⟩ <;> omega

/-- An accepted write goes behind the blocks accepted before. -/
theorem Tracks.placed
    (tracks : Tracks download record)
    (called : download.writeCall req = some (start, data))
    (accepted : WriteAccepted start data.length) :
    Placed record start data.length := by
  obtain ⟨⟨-, -, -, room⟩, rfl, rfl⟩ := writeCall_eq_some.mp called
  obtain ⟨-, lower, upper⟩ := inAppRegion_iff.mp accepted.1
  have small := tracks.small
  have earlier := tracks.inRegion
  have top : fblAppFlashBase + fblAppFlashSize < 2 ^ 32 := by decide
  have room2 : fblAppFlashSize + fblAppFlashSize < 2 ^ 32 := by decide
  have behind :
      (download.addr + download.writtenLen).toNat =
        record.addr + record.size := by
    rw [tracks.addr, tracks.size, UInt32.toNat_add]
    have bound := download.addr.toNat_lt
    rw [tracks.addr, tracks.size] at earlier
    exact Nat.mod_eq_of_lt (by omega)
  have size : (req.drop 1).length.toUInt32.toNat = (req.drop 1).length :=
    UInt32.toNat_ofNat_of_lt' (show _ < 2 ^ 32 by omega)
  rw [UInt32.le_iff_toNat_le, UInt32.toNat_add, size, ← tracks.size,
    ← tracks.len, Nat.mod_eq_of_lt (by omega)] at room
  exact ⟨behind, room, by omega, by omega⟩

/-- A block that was written is tracked. -/
theorem Tracks.accept
    (tracks : Tracks download record)
    (called : download.writeCall req = some (start, data))
    (accepted : WriteAccepted start data.length) :
    Tracks
      { download with
        writtenLen := download.writtenLen + data.length.toUInt32
        nextSeq := download.nextSeq + 1 }
      (record.accept ⟨req.getD 0 0, start.toNat, data⟩) := by
  have placed := tracks.placed called accepted
  obtain ⟨⟨-, -, due, -⟩, -, -⟩ := writeCall_eq_some.mp called
  have small := tracks.small
  have wide : fblAppFlashSize + fblAppFlashSize < 2 ^ 32 := by decide
  have more := placed.upper
  have lower := placed.lower
  have size :
      (record.accept ⟨req.getD 0 0, start.toNat, data⟩).size =
        record.size + data.length := by
    simp [DownloadRecord.size, DownloadRecord.accept]
  have written :
      (download.writtenLen + data.length.toUInt32).toNat =
        record.size + data.length := by
    have dataSize : data.length.toUInt32.toNat = data.length :=
      UInt32.toNat_ofNat_of_lt' (show _ < 2 ^ 32 by omega)
    rw [UInt32.toNat_add, dataSize, ← tracks.size]
    exact Nat.mod_eq_of_lt (by omega)
  exact
    { addr := tracks.addr
      len := tracks.len
      size := size.trans written.symm
      number := by
        rw [DownloadRecord.accept, List.length_append, List.length_singleton,
          tracks.number, UInt8.ofNat_add, ← UInt8.add_assoc]
        rfl
      tile := by
        rw [size, due, tracks.number, placed.behind, ← Nat.add_assoc]
        exact tracks.tile.concat data
      fits := by
        rw [size]
        exact placed.inside
      inRegion := by
        rw [size]
        exact Or.inr ⟨lower, by rw [← Nat.add_assoc]; exact more⟩ }

end Write

/-- A finished download is one whose blocks are all of its range. -/
theorem Tracks.complete_iff
    {download : Download}
    {record : DownloadRecord}
    (tracks : Tracks download record) :
    download.writtenLen = download.totalLen ↔ record.Complete := by
  rw [← UInt32.toNat_inj, ← tracks.size, ← tracks.len]
  constructor
  · intro all
    have tile := tracks.tile
    rw [all] at tile
    exact tile
  · intro complete
    exact (Nat.add_left_cancel complete.size).symm

/-!
## One request
-/

/--
A transfer is refused, or its call of `write` fails, and neither changes the
variables; or the port has written the block.
-/
theorem transferDataHandle_cases
    (download : Download)
    (flash : CodeFlash)
    (req : List UInt8) :
    (download.writeCall req = none ∧
        ∃ nrc,
          transferDataHandle download flash req =
            ⟨.error nrc, (download, flash), []⟩) ∨
      ∃ start data,
        download.writeCall req = some (start, data) ∧
          if (fblFlashWrite start data flash).1 then
            (transferDataHandle download flash req).result =
                .ok [req.getD 0 0] ∧
              (transferDataHandle download flash req).state =
                ({ download with
                    writtenLen := download.writtenLen + data.length.toUInt32
                    nextSeq := download.nextSeq + 1 },
                  (fblFlashWrite start data flash).2)
          else
            (transferDataHandle download flash req).result =
                .error .generalProgrammingFailure ∧
              (transferDataHandle download flash req).state =
                (download, (fblFlashWrite start data flash).2) := by
  by_cases active : download.state = .active
  case neg =>
    left
    exact
      ⟨by simp [Download.writeCall, active], _,
        by rw [transferDataHandle, if_pos active]⟩
  by_cases short : req.length < 1
  case pos =>
    left
    exact
      ⟨by simp [Download.writeCall, Nat.not_le_of_lt short], _,
        by rw [transferDataHandle, if_neg (not_not.mpr active), if_pos short]⟩
  by_cases due : req.getD 0 0 = download.nextSeq
  case neg =>
    left
    refine ⟨?_, .wrongBlockSequenceCounter, ?_⟩
    · rw [Download.writeCall, if_neg]
      exact fun checked => due checked.2.2.1
    · rw [transferDataHandle, if_neg (not_not.mpr active), if_neg short,
        if_pos due]
  by_cases room :
    download.writtenLen + (req.drop 1).length.toUInt32 ≤ download.totalLen
  case neg =>
    left
    refine ⟨?_, .requestOutOfRange, ?_⟩
    · rw [Download.writeCall, if_neg]
      exact fun checked => room checked.2.2.2
    · rw [transferDataHandle, if_neg (not_not.mpr active), if_neg short,
        if_neg (not_not.mpr due)]
      exact if_pos (UInt32.not_le.mp room)
  right
  refine
    ⟨_, _,
      writeCall_eq_some.mpr
        ⟨⟨active, Nat.le_of_not_lt short, due, room⟩, rfl, rfl⟩,
      ?_⟩
  rw [transferDataHandle, if_neg (not_not.mpr active), if_neg short,
    if_neg (not_not.mpr due)]
  dsimp only
  rw [if_neg (UInt32.not_lt.mpr room)]
  split
  · exact ⟨rfl, rfl⟩
  · exact ⟨rfl, rfl⟩

/-- A write that succeeds was accepted. -/
theorem writeAccepted_of_written
    {start : UInt32}
    {data : List UInt8}
    {flash : CodeFlash}
    (written : (fblFlashWrite start data flash).1 = true) :
    WriteAccepted start data.length := by
  by_contra refused
  rw [fblFlashWrite_of_refused refused] at written
  exact Bool.noConfusion written

/-- What holds of a 0x36, given the download that is active before it. -/
structure TransferExact
    (record : Option DownloadRecord)
    (req : List UInt8)
    (event : DownloadEvent) : Prop where
  port :
    event.after.flash =
      match event.write with
      | some (start, data) =>
          (fblFlashWrite start data event.before.flash).2
      | none => event.before.flash
  placed :
    ∀ start data,
      event.write = some (start, data) →
        WriteAccepted start data.length →
          ∃ known, record = some known ∧ Placed known start data.length
  accepted :
    (∃ body, event.result = .ok body) ↔
      ∃ start data,
        event.write = some (start, data) ∧
          (fblFlashWrite start data event.before.flash).1 = true
  refused :
    ∀ nrc,
      event.result = .error nrc →
        event.after.download = event.before.download
  outside : record = none → ∃ nrc, event.result = .error nrc
  sum :
    event.before.download.state = .active →
      req.length + fblAppFlashSize ≤ 2 ^ 32 →
        event.before.download.writtenLen.toNat + (req.drop 1).length ≤
          2 ^ 32 - 1

/-- What holds of a 0x37. -/
structure ExitExact
    (record : Option DownloadRecord)
    (event : DownloadEvent) : Prop where
  accepted :
    (∃ body, event.result = .ok body) ↔
      ∃ known, record = some known ∧ known.Complete
  aborts :
    ∀ known,
      record = some known →
        ¬known.Complete →
          event.after.download.state = .idle

/-- What holds of a request, given the download that is active before it. -/
structure DownloadExact
    (record : Option DownloadRecord)
    (event : DownloadEvent) : Prop where
  active : event.before.download.state = .active ↔ record.isSome = true
  transfer :
    ∀ req,
      event.request = .transferData req →
        TransferExact record req event
  exit :
    ∀ req,
      event.request = .requestTransferExit req →
        ExitExact record event
  other :
    (∀ req, event.request ≠ .transferData req) →
      event.after.flash = event.before.flash
  becomesDone :
    (event.before.download.state ≠ .done ∧
        event.after.download.state = .done) ↔
      (∃ req, event.request = .requestTransferExit req) ∧
        ∃ known, record = some known ∧ known.Complete

section Step

variable
  {download : Download}
  {flash : CodeFlash}
  {record : Option DownloadRecord}

/-- Outside a download nothing is tracked. -/
theorem TracksDownload.none_iff
    (tracks : TracksDownload download record) :
    record = none ↔ download.state ≠ .active := by
  rw [ne_eq, tracks.active, Option.not_isSome_iff_eq_none]

/-- A finished download is one that is active, with all of its range. -/
theorem TracksDownload.complete_iff
    (tracks : TracksDownload download record) :
    (∃ known, record = some known ∧ known.Complete) ↔
      download.state = .active ∧ download.writtenLen = download.totalLen := by
  constructor
  · rintro ⟨known, isKnown, complete⟩
    exact
      ⟨tracks.active.mpr (by rw [isKnown]; rfl),
        (tracks.tracks known isKnown).complete_iff.mpr complete⟩
  · rintro ⟨active, all⟩
    obtain ⟨known, isKnown⟩ :=
      Option.isSome_iff_exists.mp (tracks.active.mp active)
    exact
      ⟨known, isKnown, (tracks.tracks known isKnown).complete_iff.mp all⟩

/-- 0x34, when it is accepted, starts a download. -/
theorem requestDownload_exact
    (tracks : TracksDownload download record)
    (flash : CodeFlash)
    (req : List UInt8) :
    let handling := requestDownloadHandle download req
    let event : DownloadEvent :=
      ⟨.requestDownload req, ⟨download, flash⟩, handling.result,
        ⟨handling.state, flash⟩⟩
    DownloadExact record event ∧
      TracksDownload event.after.download (event.record record) := by
  intro handling event
  have handled :
      handling.state = download ∧ (∃ nrc, handling.result = .error nrc) ∨
        handling.state = ⟨.active, reqU32 req 0, reqU32 req 4, 0, 1⟩ ∧
          ∃ body, handling.result = .ok body := by
    by_cases short : req.length < 8
    · left
      simp [handling, requestDownloadHandle, short]
    · right
      simp [handling, requestDownloadHandle, short]
  refine ⟨⟨tracks.active, ?_, ?_, fun _ => rfl, ?_⟩, ?_⟩
  · intro _ isTransfer
    cases isTransfer
  · intro _ isExit
    cases isExit
  · refine iff_of_false ?_ (by rintro ⟨⟨_, impossible⟩, -⟩; cases impossible)
    rintro ⟨notDone, done⟩
    rcases handled with ⟨same, -⟩ | ⟨started, -⟩
    · exact notDone ((congrArg Download.state same).symm.trans done)
    · cases (congrArg Download.state started).symm.trans done
  · rcases handled with ⟨same, nrc, refused⟩ | ⟨started, body, accepted⟩
    · have unchanged : event.record record = record := by
        simp only [DownloadEvent.record, event, refused]
      rw [unchanged]
      show TracksDownload handling.state record
      rw [same]
      exact tracks
    · have begun :
          event.record record =
            some ⟨(reqU32 req 0).toNat, (reqU32 req 4).toNat, []⟩ := by
        simp only [DownloadEvent.record, event, accepted]
      rw [begun]
      show TracksDownload handling.state _
      rw [started]
      refine ⟨iff_of_true rfl rfl, fun known isKnown => ?_⟩
      cases isKnown
      exact ⟨rfl, rfl, rfl, rfl, .done _ _, Nat.zero_le _, Or.inl rfl⟩

/-- 0x37 ends the download, whether it is finished or not. -/
theorem requestTransferExit_exact
    (tracks : TracksDownload download record)
    (flash : CodeFlash)
    (req : List UInt8) :
    let handling := requestTransferExitHandle download
    let event : DownloadEvent :=
      ⟨.requestTransferExit req, ⟨download, flash⟩, handling.result,
        ⟨handling.state, flash⟩⟩
    DownloadExact record event ∧
      TracksDownload event.after.download (event.record record) := by
  intro handling event
  have complete := tracks.complete_iff
  have isExit : ∃ req, event.request = .requestTransferExit req := ⟨req, rfl⟩
  have untracked :
      handling.state.state ≠ .active →
        TracksDownload event.after.download (event.record record) := by
    intro closed
    refine ⟨iff_of_false closed Bool.false_ne_true, ?_⟩
    intro _ isKnown
    cases isKnown
  have noTransfer :
      ∀ req,
        event.request = .transferData req → TransferExact record req event := by
    intro _ isTransfer
    cases isTransfer
  -- A refused exit finds no finished download and does not end in DONE.
  have refused :
      (∃ nrc, handling.result = .error nrc) →
        ¬(download.state = .active ∧
          download.writtenLen = download.totalLen) →
          (∀ known, record = some known → handling.state.state = .idle) →
            ¬(download.state ≠ .done ∧ handling.state.state = .done) →
              DownloadExact record event := by
    rintro ⟨nrc, negative⟩ unfinished aborts notDone
    refine ⟨tracks.active, noTransfer, fun _ _ => ⟨?_, ?_⟩, fun _ => rfl, ?_⟩
    · refine iff_of_false ?_ (unfinished ∘ complete.mp)
      rintro ⟨body, positive⟩
      cases negative.symm.trans positive
    · exact fun known isKnown _ => aborts known isKnown
    · exact iff_of_false notDone fun exit => unfinished (complete.mp exit.2)
  by_cases active : download.state = .active
  case neg =>
    have same : handling = ⟨.error .requestSequenceError, download, []⟩ :=
      if_pos active
    have none := tracks.none_iff.mpr active
    rw [same] at refused untracked
    refine ⟨refused ⟨_, rfl⟩ (fun both => active both.1) ?_ ?_, untracked active⟩
    · intro known isKnown
      cases none.symm.trans isKnown
    · exact fun both => both.1 both.2
  by_cases all : download.writtenLen = download.totalLen
  case neg =>
    have aborted :
        handling =
          ⟨.error .requestSequenceError, { download with state := .idle },
            [.abandonDownload]⟩ := by
      simp only [handling, requestTransferExitHandle, active, all, ne_eq,
        not_true_eq_false, if_false, not_false_eq_true, if_true]
    rw [aborted] at refused untracked
    refine
      ⟨refused ⟨_, rfl⟩ (fun both => all both.2) (fun _ _ => rfl) ?_,
        untracked ?_⟩
    · rintro ⟨-, isDone⟩
      cases isDone
    · intro isActive
      cases isActive
  have finished := requestTransferExitHandle_complete active all
  have isComplete := complete.mpr ⟨active, all⟩
  refine
    ⟨⟨tracks.active, noTransfer, fun _ _ => ⟨?_, ?_⟩, fun _ => rfl, ?_⟩, ?_⟩
  · exact iff_of_true ⟨[], congrArg Handling.result finished⟩ isComplete
  · intro known isKnown incomplete
    obtain ⟨other, isOther, finished⟩ := isComplete
    cases isKnown.symm.trans isOther
    exact (incomplete finished).elim
  · refine iff_of_true ⟨?_, ?_⟩ ⟨isExit, isComplete⟩
    · show download.state ≠ .done
      rw [active]
      decide
    · exact congrArg (fun handling => handling.state.state) finished
  · refine untracked ?_
    rw [show handling = _ from finished]
    intro isActive
    cases isActive

/-- The sum that is compared with the announced length fits a word. -/
theorem TracksDownload.sum_fits
    (tracks : TracksDownload download record)
    (active : download.state = .active)
    {req : List UInt8}
    (inMemory : req.length + fblAppFlashSize ≤ 2 ^ 32) :
    download.writtenLen.toNat + (req.drop 1).length ≤ 2 ^ 32 - 1 := by
  obtain ⟨known, isKnown⟩ :=
    Option.isSome_iff_exists.mp (tracks.active.mp active)
  have small := (tracks.tracks known isKnown).small
  have size := (tracks.tracks known isKnown).size
  have region : fblAppFlashSize = 832 * 1024 := rfl
  rw [List.length_drop]
  omega

/-- A 0x36 that is handled in this way. -/
def transferEvent
    (download : Download)
    (flash : CodeFlash)
    (req : List UInt8) : DownloadEvent :=
  let handling := transferDataHandle download flash req
  ⟨.transferData req, ⟨download, flash⟩, handling.result,
    ⟨handling.state.1, handling.state.2⟩⟩

/-- It leaves the state of the download as it is. -/
theorem downloadExact_of_transfer
    (tracks : TracksDownload download record)
    {req : List UInt8}
    (same :
      (transferEvent download flash req).after.download.state =
        download.state)
    (transfer : TransferExact record req (transferEvent download flash req)) :
    DownloadExact record (transferEvent download flash req) := by
  refine
    ⟨tracks.active, fun _ isReq => ?_, nofun, fun other => (other req rfl).elim,
      ?_⟩
  · cases isReq
    exact transfer
  · refine iff_of_false (fun both => both.1 (same.symm.trans both.2)) ?_
    rintro ⟨⟨_, impossible⟩, -⟩
    cases impossible

/-- A write that the port accepts goes behind the blocks. -/
theorem TracksDownload.placed
    (tracks : TracksDownload download record)
    {req : List UInt8}
    {start : UInt32}
    {data : List UInt8}
    (called : download.writeCall req = some (start, data))
    (accepted : WriteAccepted start data.length) :
    ∃ known, record = some known ∧ Placed known start data.length := by
  obtain ⟨⟨active, -⟩, -⟩ := writeCall_eq_some.mp called
  obtain ⟨known, isKnown⟩ :=
    Option.isSome_iff_exists.mp (tracks.active.mp active)
  exact ⟨known, isKnown, (tracks.tracks known isKnown).placed called accepted⟩

/-- A negative answer leaves the variables as they are. -/
theorem refusedTransfer_exact
    (tracks : TracksDownload download record)
    {req : List UInt8}
    {nrc : UdsNrc}
    (negative : (transferEvent download flash req).result = .error nrc)
    (same : (transferEvent download flash req).after.download = download)
    (port :
      (transferEvent download flash req).after.flash =
        match download.writeCall req with
        | some (start, data) => (fblFlashWrite start data flash).2
        | none => flash)
    (notWritten :
      ∀ start data,
        download.writeCall req = some (start, data) →
          ¬(fblFlashWrite start data flash).1 = true) :
    let event := transferEvent download flash req
    DownloadExact record event ∧
      TracksDownload event.after.download (event.record record) := by
  intro event
  have unchanged : event.record record = record := by
    have result : event.result = .error nrc := negative
    unfold DownloadEvent.record
    rw [result]
    rfl
  refine ⟨downloadExact_of_transfer tracks (by rw [same]) ?_, ?_⟩
  · refine
      { port := port
        placed := fun _ _ called accepted => tracks.placed called accepted
        accepted := ?_
        refused := fun _ _ => same
        outside := fun _ => ⟨nrc, negative⟩
        sum := fun active inMemory => tracks.sum_fits active inMemory }
    refine iff_of_false ?_ ?_
    · rintro ⟨body, positive⟩
      cases negative.symm.trans positive
    · rintro ⟨start, data, called, written⟩
      exact notWritten start data called written
  · rw [unchanged, show event.after.download = download from same]
    exact tracks

/-- A positive answer has written the block, and tracks it. -/
theorem acceptedTransfer_exact
    (tracks : TracksDownload download record)
    {req body data : List UInt8}
    {start : UInt32}
    (called : download.writeCall req = some (start, data))
    (written : (fblFlashWrite start data flash).1 = true)
    (positive : (transferEvent download flash req).result = .ok body)
    (left :
      (transferEvent download flash req).after =
        ⟨{ download with
            writtenLen := download.writtenLen + data.length.toUInt32
            nextSeq := download.nextSeq + 1 },
          (fblFlashWrite start data flash).2⟩) :
    let event := transferEvent download flash req
    DownloadExact record event ∧
      TracksDownload event.after.download (event.record record) := by
  intro event
  have accepted := writeAccepted_of_written written
  have isWrite : event.write = some (start, data) := called
  have recorded :
      event.record record =
        record.map (·.accept ⟨req.getD 0 0, start.toNat, data⟩) := by
    have result : event.result = .ok body := positive
    unfold DownloadEvent.record
    rw [result, isWrite]
    rfl
  have stays : event.after.download.state = download.state :=
    congrArg (fun after => after.download.state) left
  refine ⟨downloadExact_of_transfer tracks stays ?_, ?_⟩
  · exact
      { port := by
          rw [isWrite]
          exact congrArg Downloader.flash left
        placed := fun _ _ called accepted => tracks.placed called accepted
        accepted := iff_of_true ⟨_, positive⟩ ⟨start, data, isWrite, written⟩
        refused := fun nrc negative => by cases positive.symm.trans negative
        outside := fun none =>
          absurd (writeCall_eq_some.mp called).1.1 (tracks.none_iff.mp none)
        sum := fun active inMemory => tracks.sum_fits active inMemory }
  · rw [recorded]
    refine ⟨?_, fun known isKnown => ?_⟩
    · rw [Option.isSome_map, stays]
      exact tracks.active
    · obtain ⟨earlier, isEarlier, rfl⟩ := Option.map_eq_some_iff.mp isKnown
      rw [show event.after.download = _ from congrArg Downloader.download left]
      exact (tracks.tracks earlier isEarlier).accept called accepted

/-- 0x36 writes the block that is due behind the others, or changes nothing. -/
theorem transferData_exact
    (tracks : TracksDownload download record)
    (flash : CodeFlash)
    (req : List UInt8) :
    let event := transferEvent download flash req
    DownloadExact record event ∧
      TracksDownload event.after.download (event.record record) := by
  rcases transferDataHandle_cases download flash req with
    ⟨notCalled, nrc, refused⟩ | ⟨start, data, called, answered⟩
  · refine
      refusedTransfer_exact tracks (congrArg Handling.result refused)
        (congrArg (fun handling => handling.state.1) refused) ?_ ?_
    · rw [notCalled]
      exact congrArg (fun handling => handling.state.2) refused
    · intro start data called
      cases notCalled.symm.trans called
  · split at answered
    case isTrue written =>
      obtain ⟨positive, left⟩ := answered
      exact
        acceptedTransfer_exact tracks called written positive
          (congrArg (fun state => Downloader.mk state.1 state.2) left)
    case isFalse failed =>
      obtain ⟨negative, left⟩ := answered
      refine
        refusedTransfer_exact tracks negative (congrArg Prod.fst left) ?_ ?_
      · rw [called]
        exact congrArg Prod.snd left
      · intro _ _ same
        cases called.symm.trans same
        exact failed

end Step

/-- One request, whatever it is. -/
theorem downloadStep_exact
    {before : Downloader}
    {record : Option DownloadRecord}
    (tracks : TracksDownload before.download record)
    (request : DownloadRequest) :
    ∃ event,
      downloadStep before request = (event.after, [event]) ∧
        DownloadExact record event ∧
          TracksDownload event.after.download (event.record record) := by
  cases request with
  | requestDownload req =>
      exact ⟨_, rfl, requestDownload_exact tracks before.flash req⟩
  | transferData req =>
      exact ⟨_, rfl, transferData_exact tracks before.flash req⟩
  | requestTransferExit req =>
      exact ⟨_, rfl, requestTransferExit_exact tracks before.flash req⟩

/--
Every request of every history is exact: accepted writes go behind the blocks
accepted before, inside the announced range, and a download is finished when
its blocks are that range.
-/
theorem downloads_are_exact
    (download : Download)
    (flash : CodeFlash)
    (requests : List DownloadRequest) :
    Machine.EachMeets
      (fun history event => DownloadExact (downloadOf history) event)
      (Machine.trace downloadStep ⟨udsDownloadInit download, flash⟩
        requests) := by
  have invariant :=
    @Machine.invariant_of_start _ _ _ downloadStep (fun _ _ => True)
      (fun state history =>
        TracksDownload state.download (downloadOf history) ∧
          Machine.EachMeets
            (fun history event => DownloadExact (downloadOf history) event)
            history)
  refine (invariant ?_ ⟨⟨?_, nofun⟩, Machine.eachMeets_nil _⟩ ?_).2
  · rintro state history request ⟨tracks, each⟩ -
    obtain ⟨event, stepped, exact', later⟩ := downloadStep_exact tracks request
    rw [stepped]
    refine ⟨?_, each.concat exact'⟩
    rw [downloadOf, List.foldl_append]
    exact later
  · exact iff_of_false nofun Bool.false_ne_true
  · exact Machine.allowed_of_forall (fun _ _ => trivial) _ _

end TraveoBodyDomain
