import TraveoBodyDomain.Diag.Flash
import TraveoBodyDomain.Diag.Isotp
import TraveoBodyDomain.Lib.Machine

/-!
# The bootloader's UDS server

`uds_session.c` and the five handler modules, bound as `fbl_diag.c` binds them.
A request or a response is a list of bytes; a handler sees the request without
its first byte.  The response buffer holds 4096 bytes, so the handlers' checks
of its capacity never fail and are left out, and `erase_range` of the FBL's
flash is never NULL.

`fbl_app_image_valid`, which `check-programmed-image` calls, is a parameter.
-/

namespace TraveoBodyDomain

/-- `uds_nrc_t` other than `UDS_NRC_NONE`: the ones the handlers return. -/
inductive UdsNrc where
  | generalReject
  | serviceNotSupported
  | requestSequenceError
  | requestOutOfRange
  | invalidKey
  | generalProgrammingFailure
  | wrongBlockSequenceCounter
  deriving Repr, DecidableEq

/-- The value of the enumerator. -/
def UdsNrc.code : UdsNrc → UInt8
  | .generalReject => 0x10
  | .serviceNotSupported => 0x11
  | .requestSequenceError => 0x24
  | .requestOutOfRange => 0x31
  | .invalidKey => 0x35
  | .generalProgrammingFailure => 0x72
  | .wrongBlockSequenceCounter => 0x73

/-- `UDS_SID_DIAGNOSTIC_SESSION_CONTROL`. -/
def udsSidDiagnosticSessionControl : UInt8 :=
  0x10

/-- `UDS_SID_ECU_RESET`. -/
def udsSidEcuReset : UInt8 :=
  0x11

/-- `UDS_SID_SECURITY_ACCESS`. -/
def udsSidSecurityAccess : UInt8 :=
  0x27

/-- `UDS_SID_ROUTINE_CONTROL`. -/
def udsSidRoutineControl : UInt8 :=
  0x31

/-- `UDS_SID_REQUEST_DOWNLOAD`. -/
def udsSidRequestDownload : UInt8 :=
  0x34

/-- `UDS_SID_TRANSFER_DATA`. -/
def udsSidTransferData : UInt8 :=
  0x36

/-- `UDS_SID_REQUEST_TRANSFER_EXIT`. -/
def udsSidRequestTransferExit : UInt8 :=
  0x37

/-- `UDS_SID_NEGATIVE_RESPONSE`. -/
def udsSidNegativeResponse : UInt8 :=
  0x7F

/-- `UDS_SECURITY_KEY_XOR_CONST`. -/
def udsSecurityKeyXorConst : UInt32 :=
  0xA5A5A5A5

/-- `UDS_ROUTINE_ERASE_MEMORY`. -/
def udsRoutineEraseMemory : UInt16 :=
  0xFF00

/-- `UDS_ROUTINE_CHECK_PROGRAMMED_IMAGE`. -/
def udsRoutineCheckProgrammedImage : UInt16 :=
  0xFF01

/-- `UDS_S3_SERVER_MS`. -/
def udsS3ServerMs : UInt32 :=
  5000

/-- `uds_session_state_t`. -/
inductive UdsSessionState where
  | default
  | programming
  deriving Repr, DecidableEq

/-- `uds_security_state_t`. -/
inductive UdsSecurityState where
  | locked
  | seedSent
  | unlocked
  deriving Repr, DecidableEq

/-- `uds_download_state_t`. -/
inductive UdsDownloadState where
  | idle
  | active
  | done
  deriving Repr, DecidableEq

/-- The static variables of `uds_security_access.c`. -/
structure SecurityAccess where
  state : UdsSecurityState
  seed : UInt32
  seedCounter : UInt32
  deriving Repr, DecidableEq

/-- The static variables of `uds_download.c`. -/
structure Download where
  state : UdsDownloadState
  addr : UInt32
  totalLen : UInt32
  writtenLen : UInt32
  nextSeq : UInt8
  deriving Repr, DecidableEq

/-- The static variables of the session layer and of the handlers. -/
structure UdsServer where
  session : UdsSessionState
  lastActivityMs : UInt32
  security : SecurityAccess
  download : Download
  flash : CodeFlash

/-- What a request makes the bootloader do. -/
inductive UdsEffect where
  | flash (op : FlashOp)
  | eraseRoutine
  | checkRoutine
  | startDownload
  | exitDownload
  | abandonDownload
  | reset
  deriving Repr, DecidableEq

/-- What a handler returns, with what it did on the way. -/
structure Handling (State : Type) where
  result : Except UdsNrc (List UInt8)
  state : State
  effects : List UdsEffect

/-- The four bytes of a request from `off` on, the most significant first. -/
def reqU32 (req : List UInt8) (off : Nat) : UInt32 :=
  u32Be (req.getD off 0) (req.getD (off + 1) 0) (req.getD (off + 2) 0)
    (req.getD (off + 3) 0)

/-- What the flash driver was called for between two states. -/
def flashEffects (before after : CodeFlash) : List UdsEffect :=
  (after.ops.drop before.ops.length).map .flash

/-- The handler of `uds_session_control.c`. -/
def sessionControlHandle (req : List UInt8) : Except UdsNrc (List UInt8) :=
  if req.length < 1 then
    .error .requestOutOfRange
  else
    let subfunction := req.getD 0 0
    if subfunction ≠ 0x01 ∧ subfunction ≠ 0x02 then
      .error .requestOutOfRange
    else
      .ok [subfunction]

/-- The handler of `uds_ecu_reset.c`. -/
def ecuResetHandle (req : List UInt8) : Except UdsNrc (List UInt8) :=
  if req.length < 1 then .error .requestOutOfRange else .ok [req.getD 0 0]

/-- The handler of `uds_security_access.c`. -/
def securityAccessHandle
    (access : SecurityAccess)
    (req : List UInt8) :
    Except UdsNrc (List UInt8) × SecurityAccess :=
  if req.length < 1 then
    (.error .requestOutOfRange, access)
  else if req.getD 0 0 = 0x01 then
    let seed := access.seedCounter
    (.ok (0x01 :: toU32Be seed), ⟨.seedSent, seed, access.seedCounter + 1⟩)
  else if req.getD 0 0 = 0x02 then
    if access.state ≠ .seedSent then
      (.error .requestSequenceError, { access with state := .locked })
    else if req.length < 5 then
      (.error .invalidKey, { access with state := .locked })
    else if reqU32 req 1 ≠ access.seed ^^^ udsSecurityKeyXorConst then
      (.error .invalidKey, { access with state := .locked })
    else
      (.ok [0x02], { access with state := .unlocked })
  else
    (.error .requestOutOfRange, access)

/-- `uds_security_access_relock`. -/
def SecurityAccess.relock (access : SecurityAccess) : SecurityAccess :=
  { access with state := .locked }

/-- `max_block`, as `request_download_handle` reports it. -/
def udsMaxBlock : UInt16 :=
  2048

/-- `request_download_handle`. -/
def requestDownloadHandle
    (download : Download)
    (req : List UInt8) : Handling Download :=
  if req.length < 8 then
    ⟨.error .requestOutOfRange, download, []⟩
  else
    ⟨.ok [(udsMaxBlock >>> 8).toUInt8, udsMaxBlock.toUInt8],
      { state := .active
        addr := reqU32 req 0
        totalLen := reqU32 req 4
        writtenLen := 0
        nextSeq := 1 },
      [.startDownload]⟩

/-- `transfer_data_handle`. -/
def transferDataHandle
    (download : Download)
    (flash : CodeFlash)
    (req : List UInt8) : Handling (Download × CodeFlash) :=
  if download.state ≠ .active then
    ⟨.error .requestSequenceError, (download, flash), []⟩
  else if req.length < 1 then
    ⟨.error .requestOutOfRange, (download, flash), []⟩
  else if req.getD 0 0 ≠ download.nextSeq then
    ⟨.error .wrongBlockSequenceCounter, (download, flash), []⟩
  else
    let data := req.drop 1
    let dataLen := data.length.toUInt32
    if download.writtenLen + dataLen > download.totalLen then
      ⟨.error .requestOutOfRange, (download, flash), []⟩
    else
      let (written, after) :=
        fblFlashWrite (download.addr + download.writtenLen) data flash
      if written then
        ⟨.ok [req.getD 0 0],
          ({ download with
              writtenLen := download.writtenLen + dataLen
              nextSeq := download.nextSeq + 1 },
            after),
          flashEffects flash after⟩
      else
        ⟨.error .generalProgrammingFailure, (download, after),
          flashEffects flash after⟩

/-- `request_transfer_exit_handle`. -/
def requestTransferExitHandle (download : Download) : Handling Download :=
  if download.state ≠ .active then
    ⟨.error .requestSequenceError, download, []⟩
  else if download.writtenLen ≠ download.totalLen then
    -- Re-startable, not resumable.
    ⟨.error .requestSequenceError, { download with state := .idle },
      [.abandonDownload]⟩
  else
    ⟨.ok [], { download with state := .done }, [.exitDownload]⟩

/-- `do_erase`. -/
def doErase (flash : CodeFlash) (req : List UInt8) : Handling CodeFlash :=
  if req.length < 11 then
    ⟨.error .requestOutOfRange, flash, []⟩
  else
    let (erased, after) :=
      fblFlashEraseRange (reqU32 req 3) (reqU32 req 7) flash
    let effects := .eraseRoutine :: flashEffects flash after
    if erased then
      ⟨.ok [req.getD 0 0, req.getD 1 0, req.getD 2 0], after, effects⟩
    else
      ⟨.error .generalProgrammingFailure, after, effects⟩

/-- `do_check_image`. -/
def doCheckImage
    (imageValid : (Nat → UInt8) → Bool)
    (flash : CodeFlash)
    (req : List UInt8) : Handling CodeFlash :=
  if imageValid flash.bytes then
    ⟨.ok [req.getD 0 0, req.getD 1 0, req.getD 2 0, 0x00], flash,
      [.checkRoutine]⟩
  else
    ⟨.error .generalProgrammingFailure, flash, [.checkRoutine]⟩

/-- The routine identifier of a request. -/
def routineId (req : List UInt8) : UInt16 :=
  ((req.getD 1 0).toUInt16 <<< 8) ||| (req.getD 2 0).toUInt16

/-- The handler of `uds_routine_control.c`. -/
def routineControlHandle
    (imageValid : (Nat → UInt8) → Bool)
    (flash : CodeFlash)
    (req : List UInt8) : Handling CodeFlash :=
  if req.length < 3 then
    ⟨.error .requestOutOfRange, flash, []⟩
  else if req.getD 0 0 ≠ 0x01 then
    ⟨.error .requestOutOfRange, flash, []⟩
  else if routineId req = udsRoutineEraseMemory then
    doErase flash req
  else if routineId req = udsRoutineCheckProgrammedImage then
    doCheckImage imageValid flash req
  else
    ⟨.error .requestOutOfRange, flash, []⟩

/-!
## What the handlers accept
-/

/-- The key that belongs to the seed unlocks. -/
theorem securityAccessHandle_key
    {access : SecurityAccess}
    (sent : access.state = .seedSent) :
    securityAccessHandle access
        (0x02 :: toU32Be (access.seed ^^^ udsSecurityKeyXorConst)) =
      (.ok [0x02], { access with state := .unlocked }) := by
  have size :
      (0x02 :: toU32Be (access.seed ^^^ udsSecurityKeyXorConst)).length = 5 :=
    rfl
  have subfunction :
      (0x02 :: toU32Be (access.seed ^^^ udsSecurityKeyXorConst)).getD 0 0 =
        0x02 :=
    rfl
  have key :
      reqU32 (0x02 :: toU32Be (access.seed ^^^ udsSecurityKeyXorConst)) 1 =
        access.seed ^^^ udsSecurityKeyXorConst :=
    u32Be_toU32Be _
  rw [securityAccessHandle, size, subfunction, key]
  simp +decide [sent]

/-- An address and a length start a download. -/
theorem requestDownloadHandle_range
    (download : Download)
    (addr len : UInt32) :
    requestDownloadHandle download (toU32Be addr ++ toU32Be len) =
      ⟨.ok [0x08, 0x00], ⟨.active, addr, len, 0, 1⟩, [.startDownload]⟩ := by
  have first : reqU32 (toU32Be addr ++ toU32Be len) 0 = addr :=
    u32Be_toU32Be _
  have second : reqU32 (toU32Be addr ++ toU32Be len) 4 = len :=
    u32Be_toU32Be _
  have size : ¬ (toU32Be addr ++ toU32Be len).length < 8 := by
    simp [toU32Be]
  rw [requestDownloadHandle, if_neg size, first, second]
  rfl

/-- The block that is due, inside the announced length, is written. -/
theorem transferDataHandle_block
    {download : Download}
    {flash after : CodeFlash}
    {data : List UInt8}
    (active : download.state = .active)
    (room :
      download.writtenLen + data.length.toUInt32 ≤ download.totalLen)
    (written :
      fblFlashWrite (download.addr + download.writtenLen) data flash =
        (true, after)) :
    transferDataHandle download flash (download.nextSeq :: data) =
      ⟨.ok [download.nextSeq],
        ({ download with
            writtenLen := download.writtenLen + data.length.toUInt32
            nextSeq := download.nextSeq + 1 },
          after),
        flashEffects flash after⟩ := by
  have inside : ¬ download.totalLen < download.writtenLen + data.length.toUInt32 :=
    UInt32.not_lt.mpr room
  have due : (download.nextSeq :: data).getD 0 0 = download.nextSeq :=
    rfl
  rw [transferDataHandle, if_neg (not_not.mpr active), if_neg (by simp),
    if_neg (not_not.mpr due)]
  simp only [List.drop_one, List.tail_cons]
  rw [if_neg inside, written, due]
  rfl

/-- A download whose bytes were all written is finished. -/
theorem requestTransferExitHandle_complete
    {download : Download}
    (active : download.state = .active)
    (complete : download.writtenLen = download.totalLen) :
    requestTransferExitHandle download =
      ⟨.ok [], { download with state := .done }, [.exitDownload]⟩ := by
  rw [requestTransferExitHandle, if_neg (not_not.mpr active),
    if_neg (not_not.mpr complete)]

/-- The erase routine, when the port erases the range. -/
theorem routineControlHandle_erase
    (imageValid : (Nat → UInt8) → Bool)
    {flash after : CodeFlash}
    {addr len : UInt32}
    (erased : fblFlashEraseRange addr len flash = (true, after)) :
    routineControlHandle imageValid flash
        ([0x01, 0xFF, 0x00] ++ toU32Be addr ++ toU32Be len) =
      ⟨.ok [0x01, 0xFF, 0x00], after,
        .eraseRoutine :: flashEffects flash after⟩ := by
  have first :
      reqU32 ([0x01, 0xFF, 0x00] ++ toU32Be addr ++ toU32Be len) 3 = addr :=
    u32Be_toU32Be _
  have second :
      reqU32 ([0x01, 0xFF, 0x00] ++ toU32Be addr ++ toU32Be len) 7 = len :=
    u32Be_toU32Be _
  have routine :
      routineId ([0x01, 0xFF, 0x00] ++ toU32Be addr ++ toU32Be len) =
        udsRoutineEraseMemory := by
    show ((0xFF : UInt8).toUInt16 <<< 8) ||| (0x00 : UInt8).toUInt16 = _
    decide
  have started :
      ([0x01, 0xFF, 0x00] ++ toU32Be addr ++ toU32Be len).getD 0 0 = 0x01 :=
    rfl
  have size :
      ([0x01, 0xFF, 0x00] ++ toU32Be addr ++ toU32Be len).length = 11 :=
    rfl
  rw [routineControlHandle, if_neg (by rw [size]; decide),
    if_neg (not_not.mpr started), if_pos routine, doErase,
    if_neg (by rw [size]; decide), first, second, erased]
  rfl

/-- The check routine, when the image is valid. -/
theorem routineControlHandle_check
    {imageValid : (Nat → UInt8) → Bool}
    {flash : CodeFlash}
    (valid : imageValid flash.bytes = true) :
    routineControlHandle imageValid flash [0x01, 0xFF, 0x01] =
      ⟨.ok [0x01, 0xFF, 0x01, 0x00], flash, [.checkRoutine]⟩ := by
  have routine : routineId [0x01, 0xFF, 0x01] = udsRoutineCheckProgrammedImage := by
    decide
  have started : ([0x01, 0xFF, 0x01] : List UInt8).getD 0 0 = 0x01 :=
    rfl
  have other : udsRoutineEraseMemory ≠ udsRoutineCheckProgrammedImage := by
    decide
  rw [routineControlHandle, if_neg (by decide), if_neg (not_not.mpr started),
    routine, if_neg other.symm, if_pos rfl, doCheckImage, if_pos valid]
  rfl

namespace UdsServer

/-- The static variables after a start and `fbl_diag_init`. -/
def start (flash : CodeFlash) : UdsServer :=
  { session := .default
    lastActivityMs := 0
    security := ⟨.locked, 0, 1⟩
    download := ⟨.idle, 0, 0, 0, 0⟩
    flash := flash }

/-- The table of `fbl_diag.c` and `find_handler`; the handler then runs. -/
def handle
    (imageValid : (Nat → UInt8) → Bool)
    (server : UdsServer)
    (sid : UInt8)
    (req : List UInt8) : Handling UdsServer :=
  if sid = udsSidDiagnosticSessionControl then
    ⟨sessionControlHandle req, server, []⟩
  else if sid = udsSidEcuReset then
    let result := ecuResetHandle req
    ⟨result, server, if result.isOk then [.reset] else []⟩
  else if sid = udsSidSecurityAccess then
    let (result, security) := securityAccessHandle server.security req
    ⟨result, { server with security := security }, []⟩
  else if sid = udsSidRequestDownload then
    let handling := requestDownloadHandle server.download req
    ⟨handling.result, { server with download := handling.state },
      handling.effects⟩
  else if sid = udsSidTransferData then
    let handling := transferDataHandle server.download server.flash req
    ⟨handling.result,
      { server with
        download := handling.state.1
        flash := handling.state.2 },
      handling.effects⟩
  else if sid = udsSidRequestTransferExit then
    let handling := requestTransferExitHandle server.download
    ⟨handling.result, { server with download := handling.state },
      handling.effects⟩
  else if sid = udsSidRoutineControl then
    let handling := routineControlHandle imageValid server.flash req
    ⟨handling.result, { server with flash := handling.state },
      handling.effects⟩
  else
    ⟨.error .serviceNotSupported, server, []⟩

section Table

variable
  (imageValid : (Nat → UInt8) → Bool)
  (server : UdsServer)
  (req : List UInt8)

/-- 0x10 only reads its request. -/
theorem handle_sessionControl :
    server.handle imageValid udsSidDiagnosticSessionControl req =
      ⟨sessionControlHandle req, server, []⟩ :=
  rfl

/-- 0x11 resets when it accepts. -/
theorem handle_ecuReset :
    server.handle imageValid udsSidEcuReset req =
      ⟨ecuResetHandle req, server,
        if (ecuResetHandle req).isOk then [.reset] else []⟩ :=
  rfl

/-- 0x27 changes the security state. -/
theorem handle_securityAccess :
    server.handle imageValid udsSidSecurityAccess req =
      ⟨(securityAccessHandle server.security req).1,
        { server with security := (securityAccessHandle server.security req).2 },
        []⟩ :=
  rfl

/-- 0x34 changes the download state. -/
theorem handle_requestDownload :
    server.handle imageValid udsSidRequestDownload req =
      ⟨(requestDownloadHandle server.download req).result,
        { server with
          download := (requestDownloadHandle server.download req).state },
        (requestDownloadHandle server.download req).effects⟩ :=
  rfl

/-- 0x36 changes the download state and the flash. -/
theorem handle_transferData :
    server.handle imageValid udsSidTransferData req =
      ⟨(transferDataHandle server.download server.flash req).result,
        { server with
          download :=
            (transferDataHandle server.download server.flash req).state.1
          flash :=
            (transferDataHandle server.download server.flash req).state.2 },
        (transferDataHandle server.download server.flash req).effects⟩ :=
  rfl

/-- 0x37 changes the download state. -/
theorem handle_requestTransferExit :
    server.handle imageValid udsSidRequestTransferExit req =
      ⟨(requestTransferExitHandle server.download).result,
        { server with
          download := (requestTransferExitHandle server.download).state },
        (requestTransferExitHandle server.download).effects⟩ :=
  rfl

/-- 0x31 changes the flash. -/
theorem handle_routineControl :
    server.handle imageValid udsSidRoutineControl req =
      ⟨(routineControlHandle imageValid server.flash req).result,
        { server with
          flash := (routineControlHandle imageValid server.flash req).state },
        (routineControlHandle imageValid server.flash req).effects⟩ :=
  rfl

end Table

/-- The S3 check of `uds_session_tick`. -/
def s3Check (server : UdsServer) (nowMs : UInt32) : UdsServer :=
  if server.session ≠ .default ∧
      udsS3ServerMs ≤ nowMs - server.lastActivityMs then
    { server with
      session := .default
      security := server.security.relock }
  else
    server

@[simp] theorem s3Check_download (server : UdsServer) (nowMs : UInt32) :
    (server.s3Check nowMs).download = server.download := by
  rw [s3Check]
  split <;> rfl

@[simp] theorem s3Check_flash (server : UdsServer) (nowMs : UInt32) :
    (server.s3Check nowMs).flash = server.flash := by
  rw [s3Check]
  split <;> rfl

/-- A request within S3 of the one before finds the session it left. -/
theorem s3Check_inTime
    {server : UdsServer}
    {nowMs : UInt32}
    (inTime : nowMs - server.lastActivityMs < udsS3ServerMs) :
    server.s3Check nowMs = server := by
  rw [s3Check, if_neg]
  rintro ⟨-, late⟩
  exact UInt32.not_lt.mpr late inTime

/-- The session transition after a positive response. -/
def followUp (server : UdsServer) (sid : UInt8) (body : List UInt8) :
    UdsServer :=
  if sid = udsSidDiagnosticSessionControl then
    if body.getD 0 0 = 0x01 then
      { server with
        session := .default
        security := server.security.relock }
    else if body.getD 0 0 = 0x02 then
      { server with session := .programming }
    else
      server
  else
    server

@[simp] theorem followUp_download
    (server : UdsServer)
    (sid : UInt8)
    (body : List UInt8) :
    (server.followUp sid body).download = server.download := by
  rw [followUp]
  split_ifs <;> rfl

@[simp] theorem followUp_flash
    (server : UdsServer)
    (sid : UInt8)
    (body : List UInt8) :
    (server.followUp sid body).flash = server.flash := by
  rw [followUp]
  split_ifs <;> rfl

/-- Only 0x10 is followed by a transition. -/
theorem followUp_other
    (server : UdsServer)
    {sid : UInt8}
    (other : sid ≠ udsSidDiagnosticSessionControl)
    (body : List UInt8) :
    server.followUp sid body = server :=
  if_neg other

/-- What one request leads to: the response and what was done. -/
structure Answer where
  response : List UInt8
  server : UdsServer
  effects : List UdsEffect

/-- The part of `uds_session_tick` that dispatches a request. -/
def dispatch
    (imageValid : (Nat → UInt8) → Bool)
    (server : UdsServer)
    (nowMs : UInt32)
    (sid : UInt8)
    (req : List UInt8) : Answer :=
  let handling := server.handle imageValid sid req
  match handling.result with
  | .error nrc =>
      ⟨[udsSidNegativeResponse, sid, nrc.code], handling.state,
        handling.effects⟩
  | .ok body =>
      ⟨sid :: body,
        { handling.state with lastActivityMs := nowMs }.followUp sid body,
        handling.effects⟩

/--
`uds_session_tick` below the transport: the S3 check, then the request that was
received, if any.  An empty request is dropped.
-/
def tick
    (imageValid : (Nat → UInt8) → Bool)
    (server : UdsServer)
    (nowMs : UInt32)
    (request : Option (List UInt8)) : Option (List UInt8) × UdsServer × List UdsEffect :=
  let server := server.s3Check nowMs
  match request with
  | none => (none, server, [])
  | some [] => (none, server, [])
  | some (sid :: req) =>
      let answer := server.dispatch imageValid nowMs sid req
      (some answer.response, answer.server, answer.effects)

section Handled

variable
  {imageValid : (Nat → UInt8) → Bool}
  {server : UdsServer}
  {sid : UInt8}
  {req : List UInt8}

/-- No handler touches the session or its timer. -/
theorem handle_session :
    (server.handle imageValid sid req).state.session = server.session ∧
      (server.handle imageValid sid req).state.lastActivityMs =
        server.lastActivityMs := by
  unfold handle
  split_ifs <;> exact ⟨rfl, rfl⟩

/-- Only the handler of 0x27 touches the security state. -/
theorem handle_security
    (other : sid ≠ udsSidSecurityAccess) :
    (server.handle imageValid sid req).state.security = server.security := by
  unfold handle
  rw [if_neg other]
  split_ifs <;> rfl

/-- The service of negative responses is not in the table. -/
theorem handle_ok_sid
    {body : List UInt8}
    (accepted :
      (server.handle imageValid sid req).result = .ok body) :
    sid ≠ udsSidNegativeResponse := by
  rintro rfl
  cases accepted

end Handled

section Answers

variable
  (imageValid : (Nat → UInt8) → Bool)
  (server : UdsServer)

/-- Flash operations are no reset. -/
theorem reset_notMem_flashEffects (before after : CodeFlash) :
    .reset ∉ flashEffects before after := by
  rw [flashEffects, List.mem_map]
  rintro ⟨op, -, same⟩
  cases same

/-- Only an ECUReset resets. -/
theorem handle_reset
    {sid : UInt8}
    {req : List UInt8}
    (reset : .reset ∈ (server.handle imageValid sid req).effects) :
    sid = udsSidEcuReset := by
  have noFlash := @reset_notMem_flashEffects
  unfold handle at reset
  split_ifs at reset with session ecuReset
  · cases reset
  · exact ecuReset
  · cases reset
  · simp only [requestDownloadHandle] at reset
    split_ifs at reset <;> simp at reset
  · simp only [transferDataHandle] at reset
    split_ifs at reset <;> simp [noFlash] at reset
  · simp only [requestTransferExitHandle] at reset
    split_ifs at reset <;> simp at reset
  · simp only [routineControlHandle, doErase, doCheckImage] at reset
    split_ifs at reset <;> simp [noFlash] at reset
  · cases reset

/-- What a call does with a request that its handler refuses. -/
theorem tick_refused
    {nowMs : UInt32}
    {sid : UInt8}
    {req : List UInt8}
    {nrc : UdsNrc}
    (refused :
      ((server.s3Check nowMs).handle imageValid sid req).result = .error nrc) :
    server.tick imageValid nowMs (some (sid :: req)) =
      (some [udsSidNegativeResponse, sid, nrc.code],
        ((server.s3Check nowMs).handle imageValid sid req).state,
        ((server.s3Check nowMs).handle imageValid sid req).effects) := by
  simp only [tick, dispatch, refused]

/-- What a call does with a request that its handler accepts. -/
theorem tick_accepted
    {nowMs : UInt32}
    {sid : UInt8}
    {req body : List UInt8}
    (accepted :
      ((server.s3Check nowMs).handle imageValid sid req).result = .ok body) :
    server.tick imageValid nowMs (some (sid :: req)) =
      (some (sid :: body),
        { ((server.s3Check nowMs).handle imageValid sid req).state with
          lastActivityMs := nowMs }.followUp sid body,
        ((server.s3Check nowMs).handle imageValid sid req).effects) := by
  simp only [tick, dispatch, accepted]

/-- A request for another service does not reset. -/
theorem tick_noReset
    {sid : UInt8}
    (other : sid ≠ udsSidEcuReset)
    (nowMs : UInt32)
    (req : List UInt8) :
    .reset ∉ (server.tick imageValid nowMs (some (sid :: req))).2.2 := by
  have noReset := mt (@handle_reset imageValid (server.s3Check nowMs) sid req) other
  cases handled :
      ((server.s3Check nowMs).handle imageValid sid req).result with
  | error nrc =>
      rw [tick_refused imageValid server handled]
      exact noReset
  | ok body =>
      rw [tick_accepted imageValid server handled]
      exact noReset

end Answers

end UdsServer

end TraveoBodyDomain
