import TraveoBodyDomain.Crypto.Codec

/-!
# The dispatcher of the crypto service

`crypto_dispatch.c`, which runs on the other core: the request is decoded, the
first handler of its operation is asked, and the response is encoded.  What has
no answer is answered with the verdict `ERROR`.

A handler's answer that cannot be encoded is not replaced by that verdict: then
there is no response at all.
-/

namespace TraveoBodyDomain

/-- `crypto_handler_if_t`; a handler may be absent, and `none` is false. -/
structure CryptoHandler where
  op : UInt8
  handle : Option (CryptoMsg → Option CryptoMsg)

/-- `find_handler`. -/
def findHandler (table : List CryptoHandler) (op : UInt8) :
    Option CryptoHandler :=
  table.find? (fun handler => handler.op == op)

/-- What the bound handler answers, when there is one and it succeeds. -/
def cryptoHandle (table : List CryptoHandler) (reqm : CryptoMsg) :
    Option CryptoMsg :=
  match findHandler table reqm.opCode with
  | none => none
  | some handler =>
      match handler.handle with
      | none => none
      | some handle => handle reqm

/-- `crypto_dispatch`; `none` is false, and the response is then empty. -/
def cryptoDispatch
    (table : List CryptoHandler)
    (req : List UInt8)
    (respCap : Nat) : Option (List UInt8) :=
  let respm :=
    match cryptoMsgDecode req with
    | none => cryptoMakeVerdict cryptoOpNone .error
    | some reqm =>
        match cryptoHandle table reqm with
        | some respm => respm
        | none => cryptoMakeVerdict reqm.opCode .error
  cryptoMsgEncode respm respCap

/-- What is encoded has the length that the envelope says, and fits. -/
theorem cryptoMsgEncode_length
    {m : CryptoMsg}
    {cap : Nat}
    {wire : List UInt8}
    (encoded : cryptoMsgEncode m cap = some wire) :
    wire.length = cryptoMsgHdrSize + m.length.toNat ∧ wire.length ≤ cap := by
  unfold cryptoMsgEncode at encoded
  split_ifs at encoded with tooLong tooBig
  cases encoded
  have full := m.full
  simp only [List.length_append, List.length_cons, List.length_nil,
    List.length_take, full, cryptoMsgHdrSize] at tooBig ⊢
  omega

/-- The encoder takes this envelope, into a response of this capacity. -/
def Deliverable (respCap : Nat) (m : CryptoMsg) : Prop :=
  m.length.toNat ≤ cryptoMaxPayload ∧
    cryptoMsgHdrSize + m.length.toNat ≤ respCap

instance Deliverable.decidable (respCap : Nat) (m : CryptoMsg) :
    Decidable (Deliverable respCap m) :=
  inferInstanceAs (Decidable (_ ∧ _))

/-- A verdict can be delivered wherever one fits. -/
theorem deliverable_verdict
    {respCap : Nat}
    (verdictFits : cryptoMsgHdrSize + 1 ≤ respCap)
    (echoOp : UInt8)
    (v : CryptoVerdict) :
    Deliverable respCap (cryptoMakeVerdict echoOp v) := by
  refine ⟨?_, verdictFits⟩
  change 1 ≤ 128
  decide

/-- An envelope is encoded exactly when it can be delivered. -/
theorem cryptoMsgEncode_isSome
    {respCap : Nat}
    {m : CryptoMsg} :
    (cryptoMsgEncode m respCap).isSome ↔ Deliverable respCap m := by
  constructor
  · intro encoded
    unfold cryptoMsgEncode at encoded
    split_ifs at encoded with tooLong tooBig
    · cases encoded
    · cases encoded
    · exact ⟨Nat.not_lt.mp tooLong, Nat.not_lt.mp tooBig⟩
  · rintro ⟨short, fits⟩
    rw [cryptoMsgEncode_of_fits short fits]
    rfl

/--
The answer that a request should get: the handler's, and the verdict `ERROR`
where there is none or it cannot be delivered.
-/
def owedAnswer
    (table : List CryptoHandler)
    (req : List UInt8)
    (respCap : Nat) : CryptoMsg :=
  match cryptoMsgDecode req with
  | none => cryptoMakeVerdict cryptoOpNone .error
  | some reqm =>
      match cryptoHandle table reqm with
      | none => cryptoMakeVerdict reqm.opCode .error
      | some reply =>
          if Deliverable respCap reply then
            reply.trimmed
          else
            cryptoMakeVerdict reqm.opCode .error

/-- There is a response, and it is decoded to the answer that is owed. -/
def GetsOwedAnswer
    (table : List CryptoHandler)
    (req : List UInt8)
    (respCap : Nat) : Prop :=
  ∃ resp,
    cryptoDispatch table req respCap = some resp ∧
      cryptoMsgDecode resp = some (owedAnswer table req respCap)

/-- What is encoded is decoded to itself, without what is not in use. -/
theorem decode_of_deliverable
    {respCap : Nat}
    {m : CryptoMsg}
    (fits : Deliverable respCap m) :
    ∃ resp,
      cryptoMsgEncode m respCap = some resp ∧
        cryptoMsgDecode resp = some m.trimmed := by
  refine ⟨m.wire, cryptoMsgEncode_of_fits fits.1 fits.2, ?_⟩
  have decoded := cryptoMsgDecode_wire fits.1 []
  rwa [List.append_nil] at decoded

/--
Where a verdict fits, a request is answered as it should be if and only if its
handler gives no answer, or one that can be delivered.
-/
theorem answered_iff_reply_deliverable
    (table : List CryptoHandler)
    (req : List UInt8)
    (respCap : Nat)
    (verdictFits : cryptoMsgHdrSize + 1 ≤ respCap) :
    GetsOwedAnswer table req respCap ↔
      ∀ reqm reply,
        cryptoMsgDecode req = some reqm →
          cryptoHandle table reqm = some reply →
            Deliverable respCap reply := by
  have verdict (op : UInt8) :
      ∃ resp,
        cryptoMsgEncode (cryptoMakeVerdict op .error) respCap = some resp ∧
          cryptoMsgDecode resp = some (cryptoMakeVerdict op .error) := by
    have sent :=
      decode_of_deliverable (deliverable_verdict verdictFits op .error)
    rwa [cryptoMakeVerdict_trimmed] at sent
  unfold GetsOwedAnswer cryptoDispatch owedAnswer
  cases decoded : cryptoMsgDecode req with
  | none =>
      simpa using verdict cryptoOpNone
  | some reqm =>
      cases handled : cryptoHandle table reqm with
      | none =>
          simp only [handled]
          refine iff_of_true (verdict reqm.opCode) ?_
          rintro _ reply same answered
          cases same
          rw [handled] at answered
          cases answered
      | some reply =>
          simp only [handled]
          constructor
          · rintro ⟨resp, encoded, -⟩ _ _ sameRequest sameReply
            cases sameRequest
            cases handled.symm.trans sameReply
            exact cryptoMsgEncode_isSome.mp (Option.isSome_of_eq_some encoded)
          · intro fits
            have delivered := fits reqm reply rfl handled
            rw [if_pos delivered]
            exact decode_of_deliverable delivered

/-- A handler of the hash operation that answers with so many zeros. -/
def zerosTable (count : UInt16) : List CryptoHandler :=
  [⟨cryptoOpHash, some fun _ => some (.of cryptoOpHash count [])⟩]

/-- An answer of 32 bytes is delivered where it just fits. -/
theorem digest_is_delivered :
    GetsOwedAnswer (zerosTable 32) [cryptoOpHash, 2, 0, 0x61, 0x62] 35 ∧
      cryptoDispatch (zerosTable 32) [cryptoOpHash, 2, 0, 0x61, 0x62] 35 =
        some (cryptoOpHash :: 32 :: 0 :: List.replicate 32 0) := by
  refine ⟨?_, by decide +kernel⟩
  refine (answered_iff_reply_deliverable _ _ _ (by decide)).mpr ?_
  intro reqm reply _ handled
  unfold cryptoHandle findHandler zerosTable at handled
  by_cases asked : cryptoOpHash == reqm.opCode
  · simp only [List.find?_cons, asked, Option.some.injEq] at handled
    rw [← handled]
    decide
  · simp [asked] at handled

/-- A full payload does not fit the mailbox, and nothing is answered. -/
theorem long_reply_is_dropped :
    cryptoDispatch (zerosTable 128) [cryptoOpHash, 0, 0] cryptoMaxPayload =
        none ∧
      ¬GetsOwedAnswer (zerosTable 128) [cryptoOpHash, 0, 0] cryptoMaxPayload := by
  have dropped :
      cryptoDispatch (zerosTable 128) [cryptoOpHash, 0, 0] cryptoMaxPayload =
        none := by
    decide +kernel
  refine ⟨dropped, ?_⟩
  rintro ⟨resp, answered, -⟩
  rw [dropped] at answered
  cases answered

end TraveoBodyDomain
