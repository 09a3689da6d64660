import TraveoBodyDomain.Crypto.Codec
import TraveoBodyDomain.Crypto.Service

/-!
# The MAC client, and what both clients report

`crypto_mac` of `crypto_service.c`, and runs of calls of both clients.  A call
that fails logs one event, one that succeeds logs none, and the caller's tag is
written on success only.
-/

namespace TraveoBodyDomain

/-- `CRYPTO_MAC_TIMEOUT_MS`. -/
def cryptoMacTimeoutMs : UInt32 :=
  10

/-- The part of `crypto_mac` that reads the answer. -/
def cryptoReadMac (resp : List UInt8) (tag : CryptoTag) :
    Bool × CryptoTag × List CryptoReport :=
  match cryptoMsgDecode resp with
  | none => (false, tag, [⟨cryptoOpMac, .badReply⟩])
  | some respm =>
      match cryptoParseMacResponse respm tag with
      | (true, tag) => (true, tag, [])
      | (false, tag) =>
          let reason :=
            if (cryptoParseVerdict respm).isSome then
              CryptoFail.refused
            else
              CryptoFail.badReply
          (false, tag, [⟨cryptoOpMac, reason⟩])

section Clients

variable {World : Type}

/--
`crypto_mac`: whether there is a tag, the caller's buffer, and what is logged.
`none` for a pointer is NULL.
-/
def cryptoMac
    (port : Option (IpcPort World))
    (keyId : UInt32)
    (msg : BytePointer)
    (tag : Option CryptoTag)
    (polls : Nat)
    (world : World) :
    Option (Bool × Option CryptoTag × List CryptoReport × World) :=
  let refuse :=
    some (false, tag, [(⟨cryptoOpMac, .request⟩ : CryptoReport)], world)
  match port, tag with
  | some port, some tag =>
      if msg.Missing then
        refuse
      else if cryptoMaxPayload - 6 < msg.len then
        refuse
      else
        let reqm := cryptoMakeMacRequest keyId msg
        if reqm.length = 0 then
          refuse
        else
          match cryptoMsgEncode reqm cryptoMsgMaxWire with
          | none => refuse
          | some req =>
              match ipcTransact port req cryptoMsgMaxWire cryptoMacTimeoutMs
                  polls world with
              | none => none
              | some (.ok, resp, world) =>
                  let (made, tag, reports) := cryptoReadMac resp tag
                  some (made, some tag, reports, world)
              | some (st, _, world) =>
                  some
                    (false, some tag, [⟨cryptoOpMac, cryptoFailFromIpc st⟩],
                      world)
  | _, _ => refuse

/-- A call of one of the clients, and how many polls it may take. -/
inductive CryptoCall where
  | verifyImage (base len keyId : UInt32) (polls : Nat)
  | mac
      (keyId : UInt32)
      (msg : BytePointer)
      (tag : Option CryptoTag)
      (polls : Nat)
  deriving Repr, DecidableEq

/-- What a call returns, and the caller's tag then. -/
inductive CryptoReturn where
  | verdict (v : CryptoVerdict)
  | mac (made : Bool) (tag : Option CryptoTag)
  deriving Repr, DecidableEq

/-- `CRYPTO_VERDICT_ERROR`, or false. -/
def CryptoReturn.Failed : CryptoReturn → Prop
  | .verdict v => v = .error
  | .mac made _ => made = false

instance CryptoReturn.Failed.decidable :
    (returned : CryptoReturn) → Decidable returned.Failed
  | .verdict v => inferInstanceAs (Decidable (v = .error))
  | .mac made _ => inferInstanceAs (Decidable (made = false))

/-- The operation of a call. -/
def CryptoCall.op : CryptoCall → UInt8
  | .verifyImage .. => cryptoOpVerifyImage
  | .mac .. => cryptoOpMac

/-- One call, over a port in a state of its own: what it returns and logs. -/
def cryptoCall
    (port : Option (IpcPort World))
    (world : World) :
    CryptoCall → Option (CryptoReturn × List CryptoReport × World)
  | .verifyImage base len keyId polls =>
      (cryptoVerifyImage port base len keyId polls world).map
        fun (v, reports, world) => (.verdict v, reports, world)
  | .mac keyId msg tag polls =>
      (cryptoMac port keyId msg tag polls world).map
        fun (made, tag, reports, world) => (.mac made tag, reports, world)

/-- One call of a run: the state of the port before it, and what came of it. -/
structure CryptoRecord (World : Type) where
  call : CryptoCall
  world : World
  returned : CryptoReturn
  reports : List CryptoReport

/--
Calls one after the other, each of which returns: the records, the port's state,
and the log, which each call adds its events to.
-/
def cryptoRun (port : Option (IpcPort World)) :
    List CryptoCall → World → List CryptoReport →
      Option (List (CryptoRecord World) × World × List CryptoReport)
  | [], world, log => some ([], world, log)
  | call :: rest, world, log =>
      match cryptoCall port world call with
      | none => none
      | some (returned, reports, after) =>
          (cryptoRun port rest after (log ++ reports)).map
            fun (records, result) =>
              (⟨call, world, returned, reports⟩ :: records, result)

/-- How long a call waits for its answer. -/
def CryptoCall.timeoutMs : CryptoCall → UInt32
  | .verifyImage .. => cryptoVerifyTimeoutMs
  | .mac .. => cryptoMacTimeoutMs

/-- How many polls a call may take. -/
def CryptoCall.polls : CryptoCall → Nat
  | .verifyImage _ _ _ polls => polls
  | .mac _ _ _ polls => polls

/-- The bytes a call asks the port to send, unless it is refused before. -/
def CryptoCall.request : CryptoCall → Option (List UInt8)
  | .verifyImage base len keyId _ =>
      cryptoMsgEncode (cryptoMakeVerifyRequest base len keyId) cryptoMsgMaxWire
  | .mac keyId msg tag _ =>
      if tag = none ∨ msg.Missing ∨ cryptoMaxPayload - 6 < msg.len then
        none
      else
        cryptoMsgEncode (cryptoMakeMacRequest keyId msg) cryptoMsgMaxWire

/-- The transaction of a call ends with a status other than `IPC_OK`. -/
def TransportFailed
    (port : Option (IpcPort World))
    (world : World)
    (call : CryptoCall)
    (st : IpcStatus) : Prop :=
  ∃ bound req copied after,
    port = some bound ∧ call.request = some req ∧ st ≠ .ok ∧
      ipcTransact bound req cryptoMsgMaxWire call.timeoutMs call.polls world =
        some (st, copied, after)

/--
A call that fails logs one event of its own operation, with the reason of the
transport's status where the transport failed; one that succeeds logs none.  The
caller's tag changes with a success only.
-/
structure ReportedOnce
    (port : Option (IpcPort World))
    (record : CryptoRecord World) : Prop where
  failed :
    record.returned.Failed →
      ∃ reason, record.reports = [⟨record.call.op, reason⟩]
  succeeded : ¬record.returned.Failed → record.reports = []
  transport :
    ∀ st,
      TransportFailed port record.world record.call st →
        record.returned.Failed ∧
          record.reports = [⟨record.call.op, cryptoFailFromIpc st⟩]
  tag :
    ∀ keyId msg tag polls made after,
      record.call = .mac keyId msg tag polls →
        record.returned = .mac made after →
          made = false → after = tag

/-- Reading a verdict reports an error once, and nothing else. -/
theorem cryptoReadVerdict_reports (resp : List UInt8) :
    ((cryptoReadVerdict resp).1 = .error →
        ∃ reason,
          (cryptoReadVerdict resp).2 = [⟨cryptoOpVerifyImage, reason⟩]) ∧
      ((cryptoReadVerdict resp).1 ≠ .error →
        (cryptoReadVerdict resp).2 = []) := by
  unfold cryptoReadVerdict
  split
  · exact ⟨fun _ => ⟨_, rfl⟩, fun other => absurd rfl other⟩
  · split
    · exact ⟨fun _ => ⟨_, rfl⟩, fun other => absurd rfl other⟩
    · exact ⟨fun _ => ⟨_, rfl⟩, fun other => absurd rfl other⟩
    · next v notError _ =>
        exact ⟨fun error => absurd error notError, fun _ => rfl⟩

/-- Reading a tag reports its absence once, and then leaves the buffer. -/
theorem cryptoReadMac_reports (resp : List UInt8) (tag : CryptoTag) :
    ((cryptoReadMac resp tag).1 = false →
        (cryptoReadMac resp tag).2.1 = tag ∧
          ∃ reason,
            (cryptoReadMac resp tag).2.2 = [⟨cryptoOpMac, reason⟩]) ∧
      ((cryptoReadMac resp tag).1 = true →
        (cryptoReadMac resp tag).2.2 = []) := by
  unfold cryptoReadMac
  split
  · exact ⟨fun _ => ⟨rfl, _, rfl⟩, fun made => absurd made Bool.noConfusion⟩
  · next respm _ =>
      split
      · exact ⟨fun failed => absurd failed Bool.noConfusion, fun _ => rfl⟩
      · next left rejected =>
          refine
            ⟨fun _ => ⟨?_, _, rfl⟩, fun made => absurd made Bool.noConfusion⟩
          have kept :=
            @cryptoParseMacResponse_untouched respm tag
              (congrArg Prod.fst rejected)
          rw [rejected] at kept
          exact kept

/-- A call that is refused before anything is sent. -/
theorem ReportedOnce.refused
    {port : Option (IpcPort World)}
    {world : World}
    {call : CryptoCall}
    {returned : CryptoReturn}
    {reason : CryptoFail}
    (failed : returned.Failed)
    (unsent : port = none ∨ call.request = none)
    (tagKept :
      ∀ keyId msg tag polls made after,
        call = .mac keyId msg tag polls →
          returned = .mac made after → after = tag) :
    ReportedOnce port ⟨call, world, returned, [⟨call.op, reason⟩]⟩ where
  failed := fun _ => ⟨reason, rfl⟩
  succeeded := fun succeeds => absurd failed succeeds
  transport := by
    rintro st ⟨bound, req, copied, after, isBound, sent, -, -⟩
    rcases unsent with noPort | noRequest
    · exact absurd (noPort.symm.trans isBound) (by simp)
    · exact absurd (noRequest.symm.trans sent) (by simp)
  tag := fun keyId msg tag polls made after called returns _ =>
    tagKept keyId msg tag polls made after called returns

/-- A call whose transaction fails. -/
theorem ReportedOnce.undelivered
    {bound : IpcPort World}
    {world after : World}
    {call : CryptoCall}
    {returned : CryptoReturn}
    {req copied : List UInt8}
    {st : IpcStatus}
    (failed : returned.Failed)
    (sent : call.request = some req)
    (transacted :
      ipcTransact bound req cryptoMsgMaxWire call.timeoutMs call.polls world =
        some (st, copied, after))
    (tagKept :
      ∀ keyId msg tag polls made after,
        call = .mac keyId msg tag polls →
          returned = .mac made after → after = tag) :
    ReportedOnce (some bound)
      ⟨call, world, returned, [⟨call.op, cryptoFailFromIpc st⟩]⟩ where
  failed := fun _ => ⟨_, rfl⟩
  succeeded := fun succeeds => absurd failed succeeds
  transport := by
    rintro other ⟨_, req', copied', after', ⟨⟩, sent', -, transacted'⟩
    cases sent.symm.trans sent'
    cases transacted.symm.trans transacted'
    exact ⟨failed, rfl⟩
  tag := fun keyId msg tag polls made after called returns _ =>
    tagKept keyId msg tag polls made after called returns

/-- A call that gets an answer, and what it makes of it. -/
theorem ReportedOnce.delivered
    {bound : IpcPort World}
    {world after : World}
    {call : CryptoCall}
    {returned : CryptoReturn}
    {reports : List CryptoReport}
    {req resp : List UInt8}
    (sent : call.request = some req)
    (transacted :
      ipcTransact bound req cryptoMsgMaxWire call.timeoutMs call.polls world =
        some (.ok, resp, after))
    (failed :
      returned.Failed → ∃ reason, reports = [⟨call.op, reason⟩])
    (succeeded : ¬returned.Failed → reports = [])
    (tagKept :
      ∀ keyId msg tag polls made after,
        call = .mac keyId msg tag polls →
          returned = .mac made after → made = false → after = tag) :
    ReportedOnce (some bound) ⟨call, world, returned, reports⟩ where
  failed := failed
  succeeded := succeeded
  transport := by
    rintro st ⟨_, req', copied', after', ⟨⟩, sent', notOk, transacted'⟩
    cases sent.symm.trans sent'
    cases transacted.symm.trans transacted'
    exact absurd rfl notOk
  tag := tagKept

/-- The client that verifies. -/
theorem verifyImage_reportedOnce
    {port : Option (IpcPort World)}
    {base len keyId : UInt32}
    {polls : Nat}
    {world after : World}
    {v : CryptoVerdict}
    {reports : List CryptoReport}
    (verified :
      cryptoVerifyImage port base len keyId polls world =
        some (v, reports, after)) :
    ReportedOnce port
      ⟨.verifyImage base len keyId polls, world, .verdict v, reports⟩ := by
  have noTag :
      ∀ (keyId' : UInt32) (msg : BytePointer) (tag : Option CryptoTag)
        (polls' : Nat) (made : Bool) (left : Option CryptoTag),
        CryptoCall.verifyImage base len keyId polls =
            .mac keyId' msg tag polls' →
          CryptoReturn.verdict v = .mac made left → left = tag :=
    fun _ _ _ _ _ _ called => by cases called
  unfold cryptoVerifyImage at verified
  cases port with
  | none =>
      cases verified
      exact .refused rfl (Or.inl rfl) noTag
  | some bound =>
      dsimp only at verified
      split at verified
      · next unsent =>
          cases verified
          exact .refused rfl (Or.inr unsent) noTag
      · next req sent =>
          split at verified
          · cases verified
          · next resp left transacted =>
              cases verified
              obtain ⟨failed, succeeded⟩ := cryptoReadVerdict_reports resp
              exact
                .delivered sent transacted failed succeeded
                  fun _ _ _ _ _ _ called => by cases called
          · next st copied left _ transacted =>
              cases verified
              exact .undelivered rfl sent transacted noTag

/-- The client that asks for a tag. -/
theorem mac_reportedOnce
    {port : Option (IpcPort World)}
    {keyId : UInt32}
    {msg : BytePointer}
    {tag left : Option CryptoTag}
    {polls : Nat}
    {world after : World}
    {made : Bool}
    {reports : List CryptoReport}
    (asked :
      cryptoMac port keyId msg tag polls world =
        some (made, left, reports, after)) :
    ReportedOnce port
      ⟨.mac keyId msg tag polls, world, .mac made left, reports⟩ := by
  have sameTag :
      ∀ (keyId' : UInt32) (msg' : BytePointer) (tag' : Option CryptoTag)
        (polls' : Nat) (made' : Bool) (left' : Option CryptoTag),
        CryptoCall.mac keyId msg tag polls = .mac keyId' msg' tag' polls' →
          CryptoReturn.mac false tag = .mac made' left' → left' = tag' := by
    rintro _ _ _ _ _ _ ⟨⟩ ⟨⟩
    rfl
  unfold cryptoMac at asked
  dsimp only at asked
  split at asked
  · next bound buffer =>
      split at asked
      · next missing =>
          cases asked
          exact .refused rfl (Or.inr (if_pos (Or.inr (Or.inl missing)))) sameTag
      · next present =>
          split at asked
          · next long =>
              cases asked
              exact
                .refused rfl (Or.inr (if_pos (Or.inr (Or.inr long)))) sameTag
          · next short =>
              have sent :
                  (CryptoCall.mac keyId msg (some buffer) polls).request =
                    cryptoMsgEncode (cryptoMakeMacRequest keyId msg)
                      cryptoMsgMaxWire :=
                if_neg
                  (not_or.mpr
                    ⟨Option.some_ne_none buffer, not_or.mpr ⟨present, short⟩⟩)
              split at asked
              · next empty =>
                  have fits : 6 + msg.len ≤ cryptoMaxPayload := by
                    change ¬128 - 6 < msg.len at short
                    change 6 + msg.len ≤ 128
                    omega
                  exact
                    absurd empty
                      (cryptoMakeMacRequest_notEmpty keyId present fits)
              · split at asked
                · next unsent =>
                    cases asked
                    exact .refused rfl (Or.inr (sent.trans unsent)) sameTag
                · next req encoded =>
                    have sends := sent.trans encoded
                    split at asked
                    · cases asked
                    · next resp left transacted =>
                        cases asked
                        obtain ⟨failed, succeeded⟩ :=
                          cryptoReadMac_reports resp buffer
                        refine
                          .delivered sends transacted
                            (fun fails => (failed fails).2)
                            (fun makes => succeeded (by
                              simpa [CryptoReturn.Failed] using makes)) ?_
                        rintro _ _ _ _ _ _ ⟨⟩ ⟨⟩ fails
                        exact congrArg some (failed fails).1
                    · next st copied left _ transacted =>
                        cases asked
                        exact .undelivered rfl sends transacted sameTag
  · next noPointer =>
      cases asked
      refine .refused rfl ?_ sameTag
      cases port with
      | none =>
          exact Or.inl rfl
      | some bound =>
          cases tag with
          | none =>
              refine Or.inr ?_
              rw [CryptoCall.request, if_pos (Or.inl rfl)]
          | some buffer =>
              exact absurd rfl (noPointer bound buffer rfl)

/-- Either client. -/
theorem cryptoCall_reportedOnce
    {port : Option (IpcPort World)}
    {world after : World}
    {call : CryptoCall}
    {returned : CryptoReturn}
    {reports : List CryptoReport}
    (called : cryptoCall port world call = some (returned, reports, after)) :
    ReportedOnce port ⟨call, world, returned, reports⟩ := by
  cases call with
  | verifyImage base len keyId polls =>
      obtain ⟨⟨v, verifyReports, left⟩, verified, same⟩ :=
        Option.map_eq_some_iff.mp called
      cases same
      exact verifyImage_reportedOnce verified
  | mac keyId msg tag polls =>
      obtain ⟨⟨made, tagAfter, macReports, left⟩, asked, same⟩ :=
        Option.map_eq_some_iff.mp called
      cases same
      exact mac_reportedOnce asked

/--
In a run of calls with any arguments over any port, each call reports once if it
fails and not if it succeeds, and the log has these events and no others.
-/
theorem one_report_per_failed_call
    {port : Option (IpcPort World)}
    {calls : List CryptoCall}
    {world after : World}
    {log logAfter : List CryptoReport}
    {records : List (CryptoRecord World)}
    (run : cryptoRun port calls world log = some (records, after, logAfter)) :
    records.map CryptoRecord.call = calls ∧
      logAfter = log ++ records.flatMap CryptoRecord.reports ∧
      ∀ record ∈ records,
        (∃ left,
          cryptoCall port record.world record.call =
            some (record.returned, record.reports, left)) ∧
          ReportedOnce port record := by
  induction calls generalizing world log records with
  | nil =>
      cases run
      exact
        ⟨rfl, (List.append_nil _).symm,
          fun _ member => absurd member List.not_mem_nil⟩
  | cons call rest inductionHypothesis =>
      rw [cryptoRun] at run
      split at run
      · cases run
      · next returned reports left called =>
          obtain ⟨⟨later, result⟩, ran, same⟩ := Option.map_eq_some_iff.mp run
          cases same
          obtain ⟨calls, logged, each⟩ := inductionHypothesis ran
          refine ⟨congrArg (call :: ·) calls, ?_, ?_⟩
          · rw [logged, List.flatMap_cons, List.append_assoc]
          · intro record member
            rcases List.mem_cons.mp member with rfl | earlier
            · exact ⟨⟨left, called⟩, cryptoCall_reportedOnce called⟩
            · exact each record earlier

end Clients

/-- A tag that is delivered, and a verify request that gets it for an answer. -/
def reportedCalls : List CryptoCall :=
  [.mac 1 (.ptr [0x10]) (some (FixedBuffer.filled _ 0)) 1,
    .mac 1 (.null 3) (some (FixedBuffer.filled _ 0)) 1,
    .verifyImage 0x10040000 0x8000 1 1]

/-- Only the call with a missing message is reported. -/
theorem missing_message_is_reported :
    ∃ records after,
      cryptoRun (some (answeringPort macReplyStartingWithOne)) reportedCalls ()
          [] =
        some (records, after, [⟨cryptoOpMac, .request⟩]) ∧
      records.map CryptoRecord.call = reportedCalls ∧
      [⟨cryptoOpMac, .request⟩] =
        [] ++ records.flatMap CryptoRecord.reports ∧
      ∀ record ∈ records,
        (∃ left,
          cryptoCall (some (answeringPort macReplyStartingWithOne))
              record.world record.call =
            some (record.returned, record.reports, left)) ∧
          ReportedOnce (some (answeringPort macReplyStartingWithOne))
            record := by
  have logs :
      (cryptoRun (some (answeringPort macReplyStartingWithOne)) reportedCalls ()
        []).map (fun result => result.2.2) =
          some [⟨cryptoOpMac, .request⟩] := by
    decide +kernel
  obtain ⟨⟨records, after, log⟩, run, same⟩ := Option.map_eq_some_iff.mp logs
  cases same
  exact ⟨records, after, run, one_report_per_failed_call run⟩

end TraveoBodyDomain
