import TraveoBodyDomain.Crypto.Ipc

/-!
# The client of the crypto service

`crypto_service.c`, the part that asks the other core to verify an image.
Every failure is reported once and gives the verdict `ERROR`.

The verdict parser looks at neither the operation an answer belongs to nor the
length of its payload.  This module says which answers it therefore takes for
`VALID`.
-/

namespace TraveoBodyDomain

/-- `CRYPTO_VERIFY_TIMEOUT_MS`. -/
def cryptoVerifyTimeoutMs : UInt32 :=
  1000

/-- `crypto_fail_t`. -/
inductive CryptoFail where
  | ipcBusy
  | ipcTimeout
  | ipcMalformed
  | badReply
  | refused
  | request
  deriving Repr, DecidableEq

/-- A `LOG_EVT_CRYPTO_ERROR`: the operation and the reason. -/
structure CryptoReport where
  op : UInt8
  reason : CryptoFail
  deriving Repr, DecidableEq

/-- `crypto_fail_from_ipc`. -/
def cryptoFailFromIpc : IpcStatus → CryptoFail
  | .busy => .ipcBusy
  | .timeout => .ipcTimeout
  | _ => .ipcMalformed

/-- The part of `crypto_verify_image` that reads the answer. -/
def cryptoReadVerdict (resp : List UInt8) :
    CryptoVerdict × List CryptoReport :=
  match cryptoMsgDecode resp with
  | none => (.error, [⟨cryptoOpVerifyImage, .badReply⟩])
  | some respm =>
      match cryptoParseVerdict respm with
      | none => (.error, [⟨cryptoOpVerifyImage, .badReply⟩])
      | some .error => (.error, [⟨cryptoOpVerifyImage, .refused⟩])
      | some v => (v, [])

section Verify

variable {World : Type}

/-- `crypto_verify_image`; without a bound port nothing is sent. -/
def cryptoVerifyImage
    (port : Option (IpcPort World))
    (base len keyId : UInt32)
    (polls : Nat)
    (world : World) : Option (CryptoVerdict × List CryptoReport × World) :=
  match port with
  | none => some (.error, [⟨cryptoOpVerifyImage, .request⟩], world)
  | some port =>
      match cryptoMsgEncode (cryptoMakeVerifyRequest base len keyId)
          cryptoMsgMaxWire with
      | none => some (.error, [⟨cryptoOpVerifyImage, .request⟩], world)
      | some req =>
          match ipcTransact port req cryptoMsgMaxWire cryptoVerifyTimeoutMs
              polls world with
          | none => none
          | some (.ok, resp, world) =>
              let (v, reports) := cryptoReadVerdict resp
              some (v, reports, world)
          | some (st, _, world) =>
              some
                (.error, [⟨cryptoOpVerifyImage, cryptoFailFromIpc st⟩], world)

/-- The bytes the port hands back as the answer to the verify request. -/
def VerifyReply
    (port : Option (IpcPort World))
    (base len keyId : UInt32)
    (polls : Nat)
    (world : World)
    (reply : List UInt8) : Prop :=
  ∃ bound req after,
    port = some bound ∧
      cryptoMsgEncode (cryptoMakeVerifyRequest base len keyId)
          cryptoMsgMaxWire = some req ∧
        ipcTransact bound req cryptoMsgMaxWire cryptoVerifyTimeoutMs polls
          world = some (.ok, reply, after)

end Verify

/-- The answer is the verdict `VALID` to a verify request. -/
def SaysValid (reply : List UInt8) : Prop :=
  ∃ m ∈ cryptoMsgDecode reply,
    m.opCode = cryptoOpVerifyImage ∧ m.length = 1 ∧
      m.payload.getD 0 0 = CryptoVerdict.valid.toByte

/-- The answer is an envelope whose first payload byte is that of `VALID`. -/
def StartsLikeValid (reply : List UInt8) : Prop :=
  ∃ m ∈ cryptoMsgDecode reply,
    1 ≤ m.length ∧ m.payload.getD 0 0 = CryptoVerdict.valid.toByte

/-- The answers that are read as `VALID`. -/
theorem cryptoReadVerdict_valid {reply : List UInt8} :
    (cryptoReadVerdict reply).1 = .valid ↔ StartsLikeValid reply := by
  rw [cryptoReadVerdict, StartsLikeValid]
  cases decoded : cryptoMsgDecode reply with
  | none =>
      simp
  | some m =>
      simp only [Option.mem_def, Option.some.injEq, exists_eq_left',
        ← cryptoParseVerdict_valid]
      cases parsed : cryptoParseVerdict m with
      | none =>
          simp
      | some v =>
          cases v <;> simp

section Verify

variable {World : Type}

/-- An image is reported valid exactly on such an answer. -/
theorem cryptoVerifyImage_valid
    {port : Option (IpcPort World)}
    {base len keyId : UInt32}
    {polls : Nat}
    {world : World} :
    (∃ reports after,
        cryptoVerifyImage port base len keyId polls world =
          some (.valid, reports, after)) ↔
      ∃ reply,
        VerifyReply port base len keyId polls world reply ∧
          StartsLikeValid reply := by
  constructor
  · rintro ⟨reports, after, verified⟩
    unfold cryptoVerifyImage at verified
    cases port with
    | none =>
        simp at verified
    | some port =>
        dsimp only at verified
        split at verified
        · simp at verified
        · next req encoded =>
            split at verified
            · simp at verified
            · next resp last transacted =>
                simp only [Option.some.injEq, Prod.mk.injEq] at verified
                exact
                  ⟨resp, ⟨port, req, last, rfl, encoded, transacted⟩,
                    cryptoReadVerdict_valid.mp verified.1⟩
            · simp at verified
  · rintro ⟨reply, ⟨port, req, last, rfl, encoded, transacted⟩, starts⟩
    have read := cryptoReadVerdict_valid.mpr starts
    refine ⟨(cryptoReadVerdict reply).2, last, ?_⟩
    simp only [cryptoVerifyImage, encoded, transacted, read]

/--
An image is reported valid on a verdict only, if and only if no answer that
starts like one belongs to another operation or has a longer payload.
-/
theorem valid_only_from_verify_verdict
    (port : Option (IpcPort World))
    (base len keyId : UInt32)
    (polls : Nat)
    (world : World) :
    ((∃ reports after,
          cryptoVerifyImage port base len keyId polls world =
            some (.valid, reports, after)) →
        ∃ reply,
          VerifyReply port base len keyId polls world reply ∧
            SaysValid reply) ↔
      ∀ reply,
        VerifyReply port base len keyId polls world reply →
          ∀ m ∈ cryptoMsgDecode reply,
            1 ≤ m.length →
            m.payload.getD 0 0 = CryptoVerdict.valid.toByte →
              m.opCode = cryptoOpVerifyImage ∧ m.length = 1 := by
  have unique :
      ∀ first second,
        VerifyReply port base len keyId polls world first →
          VerifyReply port base len keyId polls world second →
            first = second := by
    rintro first second ⟨port, req, last, rfl, encoded, transacted⟩
      ⟨port', req', last', same, encoded', transacted'⟩
    cases same
    cases encoded.symm.trans encoded'
    cases transacted.symm.trans transacted'
    rfl
  rw [cryptoVerifyImage_valid]
  constructor
  · intro genuine reply replied m decoded someLength first
    obtain ⟨other, otherReplied, m', decoded', op, length, -⟩ :=
      genuine ⟨reply, replied, m, decoded, someLength, first⟩
    cases unique reply other replied otherReplied
    cases decoded.symm.trans decoded'
    exact ⟨op, length⟩
  · rintro genuine ⟨reply, replied, m, decoded, someLength, first⟩
    obtain ⟨op, length⟩ :=
      genuine reply replied m decoded someLength first
    exact ⟨reply, replied, m, decoded, op, length, first⟩

end Verify

/-- A port that answers every request at once with the same bytes. -/
def answeringPort (reply : List UInt8) : IpcPort Unit where
  semaTryAcquire := fun world => (true, world)
  semaRelease := id
  storeByte := fun _ _ => id
  loadByte := fun i world => (reply.getD i 0, world)
  mailboxCap := cryptoMaxPayload
  notify := fun _ => id
  responseReady := fun world => (true, world)
  responseLen := fun world => (reply.length, world)
  nowMs := fun world => (0, world)

/-- An answer to a MAC request whose tag starts with 1. -/
def macReplyStartingWithOne : List UInt8 :=
  [cryptoOpMac, 16, 0, 1, 0, 0, 0, 0, 0, 0, 0, 0, 0, 0, 0, 0, 0, 0, 0]

/-- A tag whose first byte is 1 authorises the boot. -/
theorem mac_reply_is_taken_for_valid :
    cryptoVerifyImage (some (answeringPort macReplyStartingWithOne))
          0x10040000 0x8000 1 1 () =
        some (.valid, [], ()) ∧
      ¬ ((∃ reports after,
            cryptoVerifyImage (some (answeringPort macReplyStartingWithOne))
                0x10040000 0x8000 1 1 () =
              some (.valid, reports, after)) →
          ∃ reply,
            VerifyReply (some (answeringPort macReplyStartingWithOne))
                0x10040000 0x8000 1 1 () reply ∧
              SaysValid reply) := by
  have verified :
      cryptoVerifyImage (some (answeringPort macReplyStartingWithOne))
          0x10040000 0x8000 1 1 () =
        some (.valid, [], ()) := by
    decide +kernel
  refine ⟨verified, ?_⟩
  intro genuine
  obtain ⟨reply, ⟨port, req, last, bound, encoded, transacted⟩, m, decoded, op,
    -⟩ := genuine ⟨[], (), verified⟩
  cases bound
  have request :
      cryptoMsgEncode (cryptoMakeVerifyRequest 0x10040000 0x8000 1)
          cryptoMsgMaxWire =
        some [cryptoOpVerifyImage, 12, 0, 0, 0, 4, 0x10, 0, 0x80, 0, 0, 1, 0, 0,
          0] := by
    decide +kernel
  have answered :
      ipcTransact (answeringPort macReplyStartingWithOne)
          [cryptoOpVerifyImage, 12, 0, 0, 0, 4, 0x10, 0, 0x80, 0, 0, 1, 0, 0,
            0] cryptoMsgMaxWire cryptoVerifyTimeoutMs 1 () =
        some (.ok, macReplyStartingWithOne, ()) := by
    decide +kernel
  cases request.symm.trans encoded
  cases answered.symm.trans transacted
  have isMac :
      (cryptoMsgDecode macReplyStartingWithOne).map CryptoMsg.opCode =
        some cryptoOpMac := by
    decide +kernel
  rw [Option.mem_def.mp decoded, Option.map_some, op] at isMac
  revert isMac
  decide

end TraveoBodyDomain
