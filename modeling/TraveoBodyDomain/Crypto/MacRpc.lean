import TraveoBodyDomain.Crypto.IpcResources
import TraveoBodyDomain.Crypto.MacClient
import TraveoBodyDomain.Crypto.Mailbox

/-!
# Asking the other core for a tag

`crypto_mac` over the mailbox of `port_crypto.c`, with the server of
`main_cm0p.c` and its MAC handler on the other side.  The client takes every
message that fits an envelope's payload.  The mailbox has room for that payload
but not for the three bytes in front of it.
-/

namespace TraveoBodyDomain

/-- `mac_handler`; `cmac` is the key store and the crypto block behind it. -/
def macHandler
    (cmac : UInt32 → List UInt8 → Option CryptoTag)
    (req : CryptoMsg) : Option CryptoMsg :=
  match cryptoParseMacRequest req with
  | none => some (cryptoMakeVerdict cryptoOpMac .error)
  | some (keyId, msg) =>
      match cmac keyId msg with
      | none => some (cryptoMakeVerdict cryptoOpMac .error)
      | some tag => some (cryptoMakeMacResponse tag)

/-- `service_mailbox_once`, between two looks of the client. -/
def serviceMailboxOnce (table : List CryptoHandler) (mailbox : IpcMailbox) :
    IpcMailbox :=
  if mailbox.status = .request then
    let resp :=
      (cryptoDispatch table (mailbox.stored mailbox.len)
        cryptoMaxPayload).getD []
    { status := .response
      len := resp.length
      payload := fun i => resp.getD i (mailbox.payload i) }
  else
    mailbox

/-- The mailbox and its lock, and what else the client's port depends on. -/
structure MailboxWorld where
  mailbox : IpcMailbox
  locked : Bool
  /-- for how many more looks the server is busy with something else -/
  busy : Nat
  /-- how often the clock was read -/
  reads : Nat

/-- `g_crypto_port`, with a server at the other side of the mailbox. -/
def mailboxPort (table : List CryptoHandler) (clock : Nat → UInt32) :
    IpcPort MailboxWorld where
  semaTryAcquire := fun w => (!w.locked, { w with locked := true })
  semaRelease := fun w =>
    { w with
      mailbox := { w.mailbox with status := .idle }
      locked := false }
  storeByte := fun i byte w =>
    { w with mailbox := w.mailbox.storeByte i byte }
  loadByte := fun i w => (w.mailbox.payload i, w)
  mailboxCap := ipcMailboxCap
  notify := fun len w =>
    { w with mailbox := { w.mailbox with len := len, status := .request } }
  responseReady := fun w =>
    match w.busy with
    | 0 =>
        let mailbox := serviceMailboxOnce table w.mailbox
        (decide (mailbox.status = .response), { w with mailbox := mailbox })
    | busy + 1 =>
        (decide (w.mailbox.status = .response), { w with busy := busy })
  responseLen := fun w => (w.mailbox.len, w)
  nowMs := fun w => (clock w.reads, { w with reads := w.reads + 1 })

section Rpc

variable {table : List CryptoHandler} {clock : Nat → UInt32}

/-- The mailbox holds a request that was written to it byte by byte. -/
theorem storeBytes_mailbox
    (written rest : List UInt8)
    (w : MailboxWorld)
    (before : w.mailbox.stored written.length = written) :
    ∃ mailbox : IpcMailbox,
      (mailboxPort table clock).storeBytes written.length rest w =
          { w with mailbox := mailbox } ∧
        mailbox.stored (written ++ rest).length = written ++ rest := by
  induction rest generalizing written w with
  | nil =>
      exact ⟨w.mailbox, rfl, by simpa using before⟩
  | cons byte rest inductionHypothesis =>
      have inside : written.length < (written ++ [byte]).length := by simp
      have here : (written ++ [byte]).getD written.length 0 = byte := by simp
      have stored :=
        @IpcMailbox.stored_storeByte w.mailbox (written ++ [byte])
          written.length inside (by rw [before, List.take_left])
      rw [here] at stored
      have length : (written ++ [byte]).length = written.length + 1 := by simp
      obtain ⟨mailbox, wrote, holds⟩ :=
        inductionHypothesis (written ++ [byte])
          { w with mailbox := w.mailbox.storeByte written.length byte }
          (by rw [length, stored, ← length, List.take_length])
      rw [length] at wrote
      refine ⟨mailbox, wrote, ?_⟩
      simpa only [List.append_assoc, List.singleton_append] using holds

/-- The answer is read back byte by byte. -/
theorem loadBytes_mailbox
    (i n : Nat)
    (w : MailboxWorld) :
    (mailboxPort table clock).loadBytes i n w =
      ((List.range' i n).map w.mailbox.payload, w) := by
  induction n generalizing i with
  | zero =>
      rfl
  | succ n inductionHypothesis =>
      rw [List.range'_succ, List.map_cons]
      have rest := inductionHypothesis (i + 1)
      change
        (w.mailbox.payload i :: ((mailboxPort table clock).loadBytes (i + 1) n
          w).1, ((mailboxPort table clock).loadBytes (i + 1) n w).2) = _
      rw [rest]

/-- What the server leaves in the mailbox it has answered to. -/
theorem stored_serviceMailboxOnce
    {mailbox : IpcMailbox}
    {req resp : List UInt8}
    (asking : mailbox.status = .request)
    (carried : mailbox.Carries req)
    (answered : cryptoDispatch table req cryptoMaxPayload = some resp) :
    (serviceMailboxOnce table mailbox).status = .response ∧
      (serviceMailboxOnce table mailbox).Carries resp := by
  have request : mailbox.stored mailbox.len = req := by
    rw [carried.sized, carried.filled]
  rw [serviceMailboxOnce, if_pos asking, request, answered]
  refine ⟨rfl, rfl, ?_⟩
  apply List.ext_getElem (by simp)
  intro i _ inside
  simp [IpcMailbox.stored, inside]

/-- The wait sees the answer, if the server is not busy for too long. -/
theorem awaitResponse_mailbox
    {startMs timeoutMs : UInt32}
    (w : MailboxWorld)
    (asking : w.mailbox.status = .request)
    (served : (serviceMailboxOnce table w.mailbox).status = .response)
    (prompt :
      ∀ k, k < w.busy → clock (w.reads + k) - startMs < timeoutMs) :
    (mailboxPort table clock).awaitResponse startMs timeoutMs (w.busy + 1) w =
      some
        (true,
          { w with
            mailbox := serviceMailboxOnce table w.mailbox
            busy := 0
            reads := w.reads + w.busy }) := by
  rcases w with ⟨mailbox, locked, busy, reads⟩
  dsimp only at asking served prompt ⊢
  induction busy generalizing reads with
  | zero =>
      have ready : decide ((serviceMailboxOnce table mailbox).status =
          .response) = true :=
        decide_eq_true served
      rw [IpcPort.awaitResponse_succ]
      exact if_pos ready
  | succ busy inductionHypothesis =>
      have notReady : decide (mailbox.status = .response) ≠ true := by
        rw [asking]
        decide
      have early : ¬timeoutMs ≤ clock reads - startMs :=
        UInt32.not_le.mpr (prompt 0 (Nat.succ_pos busy))
      have later :
          ∀ k, k < busy → clock (reads + 1 + k) - startMs < timeoutMs := by
        intro k below
        have sample := prompt (k + 1) (Nat.succ_lt_succ below)
        rwa [Nat.add_right_comm, ← Nat.add_assoc] at *
      rw [IpcPort.awaitResponse_succ]
      refine (if_neg notReady).trans ((if_neg early).trans ?_)
      have waited := inductionHypothesis (reads + 1) later
      rw [Nat.add_right_comm] at waited
      exact waited

/-- The request of a message that fits an envelope. -/
theorem macRequest_encoded
    (keyId : UInt32)
    {msg : BytePointer}
    (present : ¬msg.Missing)
    (fits : 6 + msg.len ≤ cryptoMaxPayload) :
    ∃ wire : List UInt8,
      cryptoMsgEncode (cryptoMakeMacRequest keyId msg) cryptoMsgMaxWire =
          some wire ∧
        wire.length = cryptoMsgHdrSize + 6 + msg.len ∧
          cryptoMsgDecode wire = some (cryptoMakeMacRequest keyId msg) := by
  have length := (cryptoMakeMacRequest_fields keyId present fits).1
  have short :
      (cryptoMakeMacRequest keyId msg).length.toNat ≤ cryptoMaxPayload :=
    Nat.le_trans (Nat.le_of_eq length) fits
  have decoded := cryptoMsgDecode_wire short []
  rw [List.append_nil, cryptoMakeMacRequest_trimmed keyId present fits]
    at decoded
  refine
    ⟨_, cryptoMsgEncode_of_fits short (Nat.add_le_add_left short _), ?_,
      decoded⟩
  rw [CryptoMsg.length_wire short, length, Nat.add_assoc]

/-- What the server answers to a request for a tag that can be made. -/
theorem macRequest_answered
    {cmac : UInt32 → List UInt8 → Option CryptoTag}
    {keyId : UInt32}
    {msg : BytePointer}
    {tag : CryptoTag}
    {wire : List UInt8}
    (serves :
      findHandler table cryptoOpMac =
        some ⟨cryptoOpMac, some (macHandler cmac)⟩)
    (present : ¬msg.Missing)
    (fits : 6 + msg.len ≤ cryptoMaxPayload)
    (makes : cmac keyId msg.bytes = some tag)
    (decoded :
      cryptoMsgDecode wire = some (cryptoMakeMacRequest keyId msg)) :
    ∃ resp : List UInt8,
      cryptoDispatch table wire cryptoMaxPayload = some resp ∧
        resp.length ≤ cryptoMaxPayload ∧
          ∀ before, cryptoReadMac resp before = (true, tag, []) := by
  have handled :
      cryptoHandle table (cryptoMakeMacRequest keyId msg) =
        some (cryptoMakeMacResponse tag) := by
    rw [cryptoHandle, cryptoMakeMacRequest_opCode, serves]
    simp only [macHandler, cryptoParseMacRequest_make keyId present fits,
      makes]
  have deliverable :
      Deliverable cryptoMaxPayload (cryptoMakeMacResponse tag) := by
    change 16 ≤ 128 ∧ 3 + 16 ≤ 128
    decide
  obtain ⟨resp, encoded, read⟩ := decode_of_deliverable deliverable
  rw [cryptoMakeMacResponse_trimmed] at read
  refine ⟨resp, ?_, (cryptoMsgEncode_length encoded).2, fun before => ?_⟩
  · simp only [cryptoDispatch, decoded, handled, encoded]
  · simp only [cryptoReadMac, read, cryptoParseMacResponse_make]

/-- An answer that fits is collected. -/
theorem collect_mailbox
    {w : MailboxWorld}
    {resp : List UInt8}
    {respCap : Nat}
    (carries : w.mailbox.Carries resp)
    (respFits : resp.length ≤ cryptoMaxPayload)
    (room : resp.length ≤ respCap) :
    (mailboxPort table clock).collect respCap w =
      (.ok, resp, (mailboxPort table clock).semaRelease w) := by
  have inside :
      ¬(respCap < w.mailbox.len ∨ ipcMailboxCap < w.mailbox.len) := by
    rw [carries.sized]
    exact not_or.mpr ⟨Nat.not_lt.mpr room, Nat.not_lt.mpr respFits⟩
  have filled := carries.filled
  rw [IpcMailbox.stored, List.range_eq_range', ← carries.sized] at filled
  refine (if_neg inside).trans ?_
  change
    (IpcStatus.ok,
      ((mailboxPort table clock).loadBytes 0 w.mailbox.len w).1,
      (mailboxPort table clock).semaRelease
        ((mailboxPort table clock).loadBytes 0 w.mailbox.len w).2) = _
  rw [loadBytes_mailbox, filled]

/-- A transaction with an idle lock and a server that is not busy too long. -/
theorem ipcTransact_mailbox
    {wire resp : List UInt8}
    {timeoutMs : UInt32}
    {respCap polls : Nat}
    {w : MailboxWorld}
    (free : w.locked = false)
    (prompt :
      ∀ k, k < w.busy → clock (w.reads + 1 + k) - clock w.reads < timeoutMs)
    (enough : w.busy + 1 ≤ polls)
    (wireFits : wire.length ≤ ipcMailboxCap)
    (answered : cryptoDispatch table wire cryptoMaxPayload = some resp)
    (respFits : resp.length ≤ cryptoMaxPayload)
    (room : resp.length ≤ respCap) :
    ∃ after,
      ipcTransact (mailboxPort table clock) wire respCap timeoutMs polls w =
        some (.ok, resp, after) := by
  have acquired :
      ((mailboxPort table clock).semaTryAcquire w).1 = true := by
    change (!w.locked) = true
    rw [free]
    rfl
  obtain ⟨mailbox, wrote, holds⟩ :=
    @storeBytes_mailbox table clock [] wire { w with locked := true } rfl
  let asked : MailboxWorld :=
    { mailbox := { mailbox with len := wire.length, status := .request }
      locked := true
      busy := w.busy
      reads := w.reads + 1 }
  have started :
      (mailboxPort table clock).waitStart wire w = (clock w.reads, asked) := by
    change
      (mailboxPort table clock).nowMs
        ((mailboxPort table clock).notify wire.length
          ((mailboxPort table clock).storeBytes 0 wire
            { w with locked := true })) = _
    exact
      congrArg
        (fun world =>
          (mailboxPort table clock).nowMs
            ((mailboxPort table clock).notify wire.length world)) wrote
  obtain ⟨responded, carries⟩ :=
    @stored_serviceMailboxOnce table asked.mailbox wire resp rfl ⟨rfl, holds⟩
      answered
  have waited :=
    (mailboxPort table clock).awaitResponse_mono
      (awaitResponse_mailbox asked rfl responded prompt) enough
  rw [(mailboxPort table clock).ipcTransact_of_acquired wireFits acquired,
    started, waited]
  exact
    ⟨_, congrArg some
      ((if_pos rfl).trans (collect_mailbox carries respFits room))⟩

/-- A message that `crypto_mac` takes is sent as it is encoded. -/
theorem cryptoMac_sent
    {World : Type}
    {port : IpcPort World}
    {keyId : UInt32}
    {msg : BytePointer}
    {wire : List UInt8}
    (present : ¬msg.Missing)
    (fits : 6 + msg.len ≤ cryptoMaxPayload)
    (encoded :
      cryptoMsgEncode (cryptoMakeMacRequest keyId msg) cryptoMsgMaxWire =
        some wire)
    (before : CryptoTag)
    (polls : Nat)
    (world : World) :
    cryptoMac (some port) keyId msg (some before) polls world =
      match ipcTransact port wire cryptoMsgMaxWire cryptoMacTimeoutMs polls
          world with
      | none => none
      | some (.ok, resp, world) =>
          let (made, tag, reports) := cryptoReadMac resp before
          some (made, some tag, reports, world)
      | some (st, _, world) =>
          some
            (false, some before, [⟨cryptoOpMac, cryptoFailFromIpc st⟩],
              world) := by
  have short : ¬cryptoMaxPayload - 6 < msg.len := by
    change 6 + msg.len ≤ 128 at fits
    change ¬128 - 6 < msg.len
    omega
  have notEmpty := cryptoMakeMacRequest_notEmpty keyId present fits
  cases transacted :
      ipcTransact port wire cryptoMsgMaxWire cryptoMacTimeoutMs polls
        world with
  | none =>
      simp only [cryptoMac, if_neg present, if_neg short, if_neg notEmpty,
        encoded, transacted]
  | some result =>
      rcases result with ⟨st, resp, after⟩
      cases st <;>
        simp only [cryptoMac, if_neg present, if_neg short, if_neg notEmpty,
          encoded, transacted]

/-- The tag of a message is delivered, and nothing is reported. -/
def MacDelivered
    (table : List CryptoHandler)
    (clock : Nat → UInt32)
    (keyId : UInt32)
    (msg : BytePointer)
    (before tag : CryptoTag)
    (polls : Nat)
    (w : MailboxWorld) : Prop :=
  ∃ after,
    cryptoMac (some (mailboxPort table clock)) keyId msg (some before) polls
        w =
      some (true, some tag, [], after)

/-- A request that is longer than the mailbox is not sent. -/
theorem long_macRequest_refused
    {keyId : UInt32}
    {msg : BytePointer}
    (present : ¬msg.Missing)
    (fits : 6 + msg.len ≤ cryptoMaxPayload)
    (long : ipcMailboxCap < cryptoMsgHdrSize + 6 + msg.len)
    (before : CryptoTag)
    (polls : Nat)
    (w : MailboxWorld) :
    cryptoMac (some (mailboxPort table clock)) keyId msg (some before) polls
        w =
      some (false, some before, [⟨cryptoOpMac, .ipcMalformed⟩], w) := by
  obtain ⟨wire, encoded, length, -⟩ := macRequest_encoded keyId present fits
  have refused :
      ipcTransact (mailboxPort table clock) wire cryptoMsgMaxWire
          cryptoMacTimeoutMs polls w =
        some (.malformed, [], w) := by
    rw [← length] at long
    exact if_pos long
  rw [cryptoMac_sent present fits encoded, refused]
  rfl

/--
Of the messages that `crypto_mac` takes, those get their tag whose request fits
the mailbox with the three bytes in front of its payload; the lock is free, and
the server has the tag and is not busy for longer than the client waits.
-/
theorem mac_delivered_iff_request_fits_mailbox
    {cmac : UInt32 → List UInt8 → Option CryptoTag}
    (keyId : UInt32)
    (msg : BytePointer)
    (before tag : CryptoTag)
    (polls : Nat)
    (w : MailboxWorld)
    (present : ¬msg.Missing)
    (accepted : msg.len ≤ cryptoMaxPayload - 6)
    (serves :
      findHandler table cryptoOpMac =
        some ⟨cryptoOpMac, some (macHandler cmac)⟩)
    (makes : cmac keyId msg.bytes = some tag)
    (free : w.locked = false)
    (prompt :
      ∀ k, k < w.busy →
        clock (w.reads + 1 + k) - clock w.reads < cryptoMacTimeoutMs)
    (enough : w.busy + 1 ≤ polls) :
    MacDelivered table clock keyId msg before tag polls w ↔
      msg.len ≤ cryptoMaxPayload - 6 - cryptoMsgHdrSize := by
  have fits : 6 + msg.len ≤ cryptoMaxPayload := by
    change msg.len ≤ 128 - 6 at accepted
    change 6 + msg.len ≤ 128
    omega
  change _ ↔ msg.len ≤ 119
  constructor
  · rintro ⟨after, delivered⟩
    by_contra long
    have longer : ipcMailboxCap < cryptoMsgHdrSize + 6 + msg.len := by
      change 128 < 3 + 6 + msg.len
      omega
    rw [long_macRequest_refused present fits longer] at delivered
    cases delivered
  · intro short
    obtain ⟨wire, encoded, length, decoded⟩ :=
      macRequest_encoded keyId present fits
    obtain ⟨resp, answered, respFits, read⟩ :=
      macRequest_answered serves present fits makes decoded
    have wireFits : wire.length ≤ ipcMailboxCap := by
      rw [length]
      change 3 + 6 + msg.len ≤ 128
      omega
    have room : resp.length ≤ cryptoMsgMaxWire :=
      Nat.le_trans respFits (by decide)
    obtain ⟨after, transacted⟩ :=
      ipcTransact_mailbox free prompt enough wireFits answered respFits room
    refine ⟨after, ?_⟩
    rw [cryptoMac_sent present fits encoded, transacted]
    simp only [read]

end Rpc

/-- A server that makes the same tag of every message. -/
def constantServer (tag : CryptoTag) : List CryptoHandler :=
  [⟨cryptoOpMac, some (macHandler fun _ _ => some tag)⟩]

/-- An idle mailbox, and a server that is at once there. -/
def idleWorld : MailboxWorld where
  mailbox := ⟨.idle, 0, fun _ => 0⟩
  locked := false
  busy := 0
  reads := 0

/-- A tag of sixteen equal bytes. -/
def evenTag (byte : UInt8) : CryptoTag :=
  FixedBuffer.filled cryptoCmacTagLen byte

/-- The length of a message of zeros. -/
theorem len_zeros (n : Nat) :
    (BytePointer.ptr (List.replicate n 0)).len = n :=
  List.length_replicate

/-- The longest message that gets its tag. -/
theorem longest_delivered_message :
    MacDelivered (constantServer (evenTag 7)) (fun _ => 0) 1
        (.ptr (List.replicate 119 0)) (evenTag 0) (evenTag 7) 1 idleWorld ↔
      (BytePointer.ptr (List.replicate 119 0)).len ≤
        cryptoMaxPayload - 6 - cryptoMsgHdrSize :=
  mac_delivered_iff_request_fits_mailbox 1 (.ptr (List.replicate 119 0))
    (evenTag 0) (evenTag 7) 1 idleWorld id (by rw [len_zeros]; decide) rfl rfl
    rfl
    (fun _ below => absurd below (Nat.not_lt_zero _)) (Nat.le_refl _)

/-- One byte more is accepted by the length check, and refused by the port. -/
theorem accepted_message_is_not_sent :
    (BytePointer.ptr (List.replicate 120 0)).len ≤ cryptoMaxPayload - 6 ∧
      cryptoMac
          (some (mailboxPort (constantServer (evenTag 7)) fun _ => 0)) 1
          (.ptr (List.replicate 120 0)) (some (evenTag 0)) 1 idleWorld =
        some
          (false, some (evenTag 0), [⟨cryptoOpMac, .ipcMalformed⟩],
            idleWorld) ∧
      ¬MacDelivered (constantServer (evenTag 7)) (fun _ => 0) 1
        (.ptr (List.replicate 120 0)) (evenTag 0) (evenTag 7) 1 idleWorld := by
  have refused :=
    @long_macRequest_refused (constantServer (evenTag 7)) (fun _ => 0) 1
      (.ptr (List.replicate 120 0)) id (by rw [len_zeros]; decide)
      (by rw [len_zeros]; decide) (evenTag 0) 1 idleWorld
  refine ⟨by rw [len_zeros]; decide, refused, ?_⟩
  rintro ⟨after, delivered⟩
  rw [refused] at delivered
  cases delivered

end TraveoBodyDomain
