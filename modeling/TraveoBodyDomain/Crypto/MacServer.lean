import Mathlib.Data.List.Induction
import TraveoBodyDomain.Boot.SignImage
import TraveoBodyDomain.Crypto.MacRpc
import TraveoBodyDomain.Lib.Machine
import TraveoBodyDomain.Node.App

/-!
# The server of tags, and faults of its crypto block

`crypto_ops_cm0p.c` of both nodes.  The steps of the driver report errors of
their parameters only; a fault of the hardware shows in error bits that stay set
until they are cleared.  `cmac_compute` reads and clears them, the other handlers
do not.  A run of the server is any requests, with any behaviour of the block.
-/

namespace TraveoBodyDomain

/-- `crypto_key_type_t`. -/
inductive CryptoKeyType where
  | ecdsaPublic
  | aesSecret
  deriving Repr, DecidableEq

/-- `crypto_key_entry_t`, with the secret; the lengths are those of the lists. -/
structure CryptoKeyRow where
  keyId : UInt32
  pubkey : Option (List UInt8)
  type : CryptoKeyType
  secret : Option (List UInt8)
  deriving Repr, DecidableEq

/-- What the handler for images looks at in a row. -/
def CryptoKeyRow.entry (row : CryptoKeyRow) : CryptoKeyEntry where
  keyId := row.keyId
  pubkey := row.pubkey

/-- `crypto_keystore_lookup`; `none` is NULL. -/
def keystoreRow (keys : List CryptoKeyRow) (keyId : UInt32) :
    Option CryptoKeyRow :=
  keys.find? (fun row => row.keyId == keyId)

/-- `SECOC_AES128_KEY_BYTES`. -/
def secocAes128KeyBytes : Nat :=
  16

/-- `CRYPTO_DEV_KEY_ID`. -/
def cryptoDevKeyId : UInt32 :=
  1

/-- The secret that `mac_handler` takes for a key, if there is one. -/
def macSecret (keys : List CryptoKeyRow) (keyId : UInt32) :
    Option (List UInt8) :=
  match keystoreRow keys keyId with
  | none => none
  | some row =>
      match row.secret with
      | none => none
      | some secret =>
          if row.type = .aesSecret ∧ secret.length = secocAes128KeyBytes then
            some secret
          else
            none

/--
What the steps of the driver return in one call of `cmac_compute`, and the bytes
they leave in `tag`.
-/
structure CmacRun where
  init : Bool
  start : Bool
  update : Bool
  finish : Bool
  tag : CryptoTag

/-- What the block does while one request is served. -/
structure BlockRun where
  /-- the hash and the curve, for the handlers that use them -/
  core : CryptoCore
  /-- what the flash holds -/
  mem : UInt32 → UInt8
  /-- for the key and the message of a MAC -/
  cmac : List UInt8 → List UInt8 → CmacRun
  /-- bits that are set in its interrupt status meanwhile -/
  raised : UInt32

/-- Every step succeeds. -/
def CmacRun.Succeeds (run : CmacRun) : Prop :=
  run.init ∧ run.start ∧ run.update ∧ run.finish

instance CmacRun.Succeeds.decidable (run : CmacRun) : Decidable run.Succeeds :=
  inferInstanceAs (Decidable (_ ∧ _))

/--
`cmac_compute`: a tag, and the interrupt status it leaves; `mask` is
`CY_CRYPTO_INTR_ERROR_MASK`.
-/
def cmacCompute (mask : UInt32) (run : CmacRun) (intr : UInt32) :
    Option CryptoTag × UInt32 :=
  let st := run.init
  let st :=
    if st then
      let st := run.start
      let st := if st then run.update else st
      if st then run.finish else st
    else
      st
  let hwErr := intr &&& mask
  let (st, intr) := if hwErr ≠ 0 then (false, intr &&& ~~~hwErr) else (st, intr)
  (if st then some run.tag else none, intr)

/-- The part of `mac_handler` behind the request. -/
def keyedMac
    (mask : UInt32)
    (keys : List CryptoKeyRow)
    (run : BlockRun)
    (intr : UInt32)
    (keyId : UInt32)
    (msg : List UInt8) : Option CryptoTag × UInt32 :=
  match macSecret keys keyId with
  | none => (none, intr)
  | some secret => cmacCompute mask (run.cmac secret msg) intr

/-- `hash_handler`. -/
def hashHandler (core : CryptoCore) (req : CryptoMsg) : Option CryptoMsg :=
  match core.sha (req.payload.take req.length.toNat) with
  | none => none
  | some digest => some (.of cryptoOpHash 32 digest)

/-- What `cm0p_crypto_service_init` binds: the key store and the table. -/
structure Cm0pImage where
  keys : List CryptoKeyRow
  handlers : BlockRun → (CryptoMsg → Option CryptoMsg) → List CryptoHandler
  servesMac :
    ∀ run macHandler,
      findHandler (handlers run macHandler) cryptoOpMac =
        some ⟨cryptoOpMac, some macHandler⟩

/-- `g_keys` of node A. -/
def nodeAKeys (pubkey secret : List UInt8) : List CryptoKeyRow :=
  [⟨cryptoDevKeyId, some pubkey, .ecdsaPublic, none⟩,
    ⟨secocMacKeyId, none, .aesSecret, some secret⟩]

/-- Node A. -/
def nodeACm0p (pubkey secret : List UInt8) : Cm0pImage where
  keys := nodeAKeys pubkey secret
  handlers := fun run macHandler =>
    cm0pHandlers run.core run.mem
      ((nodeAKeys pubkey secret).map CryptoKeyRow.entry) (hashHandler run.core)
      macHandler
  servesMac := fun _ _ => rfl

/-- Node B. -/
def nodeBCm0p (secret : List UInt8) : Cm0pImage where
  keys := [⟨secocMacKeyId, none, .aesSecret, some secret⟩]
  handlers := fun _ macHandler => [⟨cryptoOpMac, some macHandler⟩]
  servesMac := fun _ _ => rfl

/-- A request that was served, and the reply. -/
structure ServedRequest where
  request : List UInt8
  run : BlockRun
  reply : Option (List UInt8)

/-- The key and the message of a request for a tag. -/
def macRequest? (request : List UInt8) : Option (UInt32 × List UInt8) :=
  (cryptoMsgDecode request).bind cryptoParseMacRequest

/-- The interrupt status of the block after a request. -/
def statusAfter
    (mask : UInt32)
    (keys : List CryptoKeyRow)
    (run : BlockRun)
    (request : List UInt8)
    (intr : UInt32) : UInt32 :=
  match macRequest? request with
  | none => intr
  | some (keyId, msg) => (keyedMac mask keys run intr keyId msg).2

/-- One request, from the interrupt status of the block. -/
def cm0pServe (image : Cm0pImage) (mask : UInt32) :
    Machine.Step UInt32 (List UInt8 × BlockRun) ServedRequest :=
  fun intr (request, run) =>
    let intr := intr ||| run.raised
    let table :=
      image.handlers run
        (macHandler fun keyId msg =>
          (keyedMac mask image.keys run intr keyId msg).1)
    (statusAfter mask image.keys run request intr,
      [⟨request, run, cryptoDispatch table request cryptoMaxPayload⟩])

/-! ## What is owed to a request -/

/--
The block computes right, as far as it does not report otherwise: when no error
bit is set meanwhile and every step succeeds, the tag is the CMAC.
-/
def BlockRun.Faithful
    (mask : UInt32)
    (cmac : List UInt8 → List UInt8 → CryptoTag)
    (run : BlockRun) : Prop :=
  run.raised &&& mask = 0 →
    ∀ secret msg, (run.cmac secret msg).Succeeds →
      (run.cmac secret msg).tag = cmac secret msg

/-- The request gets as far as `cmac_compute`. -/
def ReachesCmac (keys : List CryptoKeyRow) (request : List UInt8) : Bool :=
  (macRequest? request).any fun (keyId, _) => (macSecret keys keyId).isSome

/-- The bits that were set since `cmac_compute` last cleared them. -/
def bitsSince
    (keys : List CryptoKeyRow)
    (start : UInt32)
    (served : List ServedRequest) : UInt32 :=
  served.foldl
    (fun bits s => if ReachesCmac keys s.request then 0 else bits ||| s.run.raised)
    start

/-- The answer to a request for a tag, when these bits are set. -/
def owedMac
    (keys : List CryptoKeyRow)
    (mask : UInt32)
    (cmac : List UInt8 → List UInt8 → CryptoTag)
    (run : BlockRun)
    (bits : UInt32)
    (request : UInt32 × List UInt8) : CryptoMsg :=
  match macSecret keys request.1 with
  | none => cryptoMakeVerdict cryptoOpMac .error
  | some secret =>
      if bits &&& mask = 0 ∧ (run.cmac secret request.2).Succeeds then
        cryptoMakeMacResponse (cmac secret request.2)
      else
        cryptoMakeVerdict cryptoOpMac .error

/-- A request for a tag, well formed or not, is answered with what is owed. -/
def AnswersMac
    (keys : List CryptoKeyRow)
    (mask : UInt32)
    (cmac : List UInt8 → List UInt8 → CryptoTag)
    (start : UInt32)
    (before : List ServedRequest)
    (served : ServedRequest) : Prop :=
  ∀ m, cryptoMsgDecode served.request = some m → m.opCode = cryptoOpMac →
    served.reply.bind cryptoMsgDecode =
      some
        (match cryptoParseMacRequest m with
        | none => cryptoMakeVerdict cryptoOpMac .error
        | some request =>
            owedMac keys mask cmac served.run
              (bitsSince keys start before ||| served.run.raised) request)

/-! ## One request -/

/-- Bits of two words under a mask. -/
theorem or_and_mask (first second mask : UInt32) :
    (first ||| second) &&& mask = (first &&& mask) ||| (second &&& mask) := by
  apply UInt32.eq_of_toBitVec_eq
  ext i
  simp [Bool.and_or_distrib_right]

/-- What `cmac_compute` finds set, it clears. -/
theorem cmacCompute_clears (mask : UInt32) (run : CmacRun) (intr : UInt32) :
    (cmacCompute mask run intr).2 &&& mask = 0 := by
  rw [cmacCompute]
  dsimp only
  split
  · apply UInt32.eq_of_toBitVec_eq
    ext i
    simp
    grind
  · next clear =>
      exact not_not.mp clear

/-- It gives a tag when every step succeeds and no error bit is set. -/
theorem cmacCompute_tag (mask : UInt32) (run : CmacRun) (intr : UInt32) :
    (cmacCompute mask run intr).1 =
      if intr &&& mask = 0 ∧ run.Succeeds then some run.tag else none := by
  rw [cmacCompute]
  by_cases clear : intr &&& mask = 0
  · obtain ⟨init, start, update, finish, tag⟩ := run
    cases init <;> cases start <;> cases update <;>
      simp [clear, CmacRun.Succeeds]
  · simp [clear]

/-- The error bits are clear after `cmac_compute`, and else as they were. -/
theorem statusAfter_bits
    (mask : UInt32)
    (keys : List CryptoKeyRow)
    (run : BlockRun)
    (request : List UInt8)
    (intr : UInt32) :
    statusAfter mask keys run request intr &&& mask =
      (if ReachesCmac keys request then 0 else intr) &&& mask := by
  rw [statusAfter, ReachesCmac]
  cases asked : macRequest? request with
  | none =>
      rfl
  | some pair =>
      cases known : macSecret keys pair.1 with
      | none =>
          simp only [keyedMac, Option.any_some, known, Option.isSome_none,
            Bool.false_eq_true, if_false]
      | some secret =>
          simp only [keyedMac, Option.any_some, known, Option.isSome_some,
            if_true, cmacCompute_clears, UInt32.zero_and]

/-- The envelope around a tag, or in its place. -/
def macReply : Option CryptoTag → CryptoMsg
  | none => cryptoMakeVerdict cryptoOpMac .error
  | some tag => cryptoMakeMacResponse tag

/-- A request that was parsed is always answered. -/
theorem macHandler_parsed
    {m : CryptoMsg}
    {keyId : UInt32}
    {msg : List UInt8}
    (parsed : cryptoParseMacRequest m = some (keyId, msg))
    (answer : UInt32 → List UInt8 → Option CryptoTag) :
    macHandler answer m = some (macReply (answer keyId msg)) := by
  simp only [macHandler, parsed]
  cases answer keyId msg with
  | none =>
      rfl
  | some tag =>
      rfl

/-- The reply of the dispatcher, decoded. -/
theorem dispatch_mac
    {image : Cm0pImage}
    {run : BlockRun}
    {answer : UInt32 → List UInt8 → Option CryptoTag}
    {request : List UInt8}
    {m : CryptoMsg}
    (decoded : cryptoMsgDecode request = some m)
    (forMac : m.opCode = cryptoOpMac) :
    (cryptoDispatch (image.handlers run (macHandler answer)) request
        cryptoMaxPayload).bind cryptoMsgDecode =
      macHandler answer m := by
  have served := image.servesMac run (macHandler answer)
  have handled :
      cryptoHandle (image.handlers run (macHandler answer)) m =
        macHandler answer m := by
    rw [cryptoHandle, forMac, served]
  have read {reply : CryptoMsg}
      (is : macHandler answer m = some reply)
      (fits : Deliverable cryptoMaxPayload reply)
      (trimmed : reply.trimmed = reply) :
      (cryptoDispatch (image.handlers run (macHandler answer)) request
          cryptoMaxPayload).bind cryptoMsgDecode =
        macHandler answer m := by
    obtain ⟨resp, encoded, back⟩ := decode_of_deliverable fits
    rw [trimmed] at back
    simp only [cryptoDispatch, decoded, handled, is, encoded, Option.bind_some,
      back]
  have verdict :=
    @deliverable_verdict cryptoMaxPayload (by decide) cryptoOpMac .error
  cases parsed : cryptoParseMacRequest m with
  | none =>
      exact read (by rw [macHandler, parsed]) verdict
        (cryptoMakeVerdict_trimmed _ _)
  | some asked =>
      obtain ⟨keyId, msg⟩ := asked
      have made := macHandler_parsed parsed answer
      cases answered : answer keyId msg with
      | none =>
          rw [answered] at made
          exact read made verdict (cryptoMakeVerdict_trimmed _ _)
      | some tag =>
          rw [answered] at made
          refine read made ?_ (cryptoMakeMacResponse_trimmed tag)
          change 16 ≤ 128 ∧ 3 + 16 ≤ 128
          decide

/-- The bits after one more request. -/
theorem bitsSince_snoc
    (keys : List CryptoKeyRow)
    (start : UInt32)
    (before : List ServedRequest)
    (served : ServedRequest) :
    bitsSince keys start (before ++ [served]) =
      if ReachesCmac keys served.request then 0
      else bitsSince keys start before ||| served.run.raised :=
  List.foldl_append

section Runs

variable
  {image : Cm0pImage}
  {mask : UInt32}
  {cmac : List UInt8 → List UInt8 → CryptoTag}

/-- Bits under the mask are clear when those of every part are. -/
theorem or_clear_right
    {first second : UInt32}
    (clear : (first ||| second) &&& mask = 0) :
    second &&& mask = 0 := by
  rw [or_and_mask] at clear
  exact (UInt32.or_eq_zero_iff.mp clear).2

/-- What the block answers for a key is what is owed. -/
theorem keyedMac_owed
    {run : BlockRun}
    (faithful : run.Faithful mask cmac)
    {intr bits : UInt32}
    (same : intr &&& mask = bits &&& mask)
    (keyId : UInt32)
    (msg : List UInt8) :
    macReply (keyedMac mask image.keys run (intr ||| run.raised) keyId msg).1 =
      owedMac image.keys mask cmac run (bits ||| run.raised) (keyId, msg) := by
  cases known : macSecret image.keys keyId with
  | none =>
      simp only [keyedMac, owedMac, known, macReply]
  | some secret =>
      have bitsSame :
          (intr ||| run.raised) &&& mask = (bits ||| run.raised) &&& mask := by
        rw [or_and_mask, same, ← or_and_mask]
      simp only [keyedMac, owedMac, known, cmacCompute_tag, bitsSame]
      by_cases makes :
          (bits ||| run.raised) &&& mask = 0 ∧ (run.cmac secret msg).Succeeds
      · have right := faithful (or_clear_right makes.1) secret msg makes.2
        rw [if_pos makes, if_pos makes, right]
        rfl
      · rw [if_neg makes, if_neg makes]
        rfl

/-- One request is answered with what is owed. -/
theorem cm0pServe_answers
    {start intr : UInt32}
    {before : List ServedRequest}
    {request : List UInt8}
    {run : BlockRun}
    (faithful : run.Faithful mask cmac)
    (same : intr &&& mask = bitsSince image.keys start before &&& mask) :
    ∃ served,
      (cm0pServe image mask intr (request, run)).2 = [served] ∧
        AnswersMac image.keys mask cmac start before served ∧
          (cm0pServe image mask intr (request, run)).1 &&& mask =
            bitsSince image.keys start (before ++ [served]) &&& mask := by
  refine ⟨_, rfl, ?_, ?_⟩
  · intro m decoded forMac
    rw [dispatch_mac decoded forMac]
    cases parsed : cryptoParseMacRequest m with
    | none =>
        rw [macHandler, parsed]
    | some asked =>
        obtain ⟨keyId, msg⟩ := asked
        have owed := @keyedMac_owed image mask cmac run faithful _ _ same keyId msg
        rw [macHandler_parsed parsed]
        exact congrArg some owed
  · rw [bitsSince_snoc]
    refine (statusAfter_bits mask image.keys run request _).trans ?_
    split
    · rfl
    · rw [or_and_mask, same, ← or_and_mask]

/-- What holds after every run: the bits, and every answer on the way. -/
theorem cm0pServe_run
    {start : UInt32}
    {requests : List (List UInt8 × BlockRun)}
    (faithful : ∀ asked ∈ requests, asked.2.Faithful mask cmac) :
    Machine.final (cm0pServe image mask) start requests &&& mask =
        bitsSince image.keys start
          (Machine.trace (cm0pServe image mask) start requests) &&& mask ∧
      Machine.EachMeets (AnswersMac image.keys mask cmac start)
        (Machine.trace (cm0pServe image mask) start requests) := by
  induction requests using List.reverseRecOn with
  | nil =>
      exact ⟨rfl, Machine.eachMeets_nil _⟩
  | append_singleton requests asked inductionHypothesis =>
      obtain ⟨same, each⟩ :=
        inductionHypothesis fun other member =>
          faithful other (List.mem_append_left _ member)
      obtain ⟨request, run⟩ := asked
      have runFaithful :=
        faithful (request, run) (List.mem_append_right _ List.mem_cons_self)
      obtain ⟨served, shown, answers, bits⟩ :=
        @cm0pServe_answers image mask cmac start _ _ request run runFaithful same
      rw [Machine.final_append, Machine.trace_append, Machine.final_cons,
        Machine.trace_cons, Machine.final_nil, Machine.trace_nil, shown,
        List.append_nil]
      exact ⟨bits, each.concat answers⟩

/-- Where no error bit is set, none is found. -/
theorem bitsSince_quiet
    {keys : List CryptoKeyRow}
    {bits : UInt32}
    (clear : bits &&& mask = 0)
    {served : List ServedRequest}
    (quiet : ∀ s ∈ served, s.run.raised &&& mask = 0) :
    bitsSince keys bits served &&& mask = 0 := by
  induction served using List.reverseRecOn with
  | nil =>
      exact clear
  | append_singleton served last inductionHypothesis =>
      rw [bitsSince_snoc]
      split
      · exact UInt32.zero_and
      · rw [or_and_mask,
          inductionHypothesis fun s isServed =>
            quiet s (List.mem_append_left _ isServed),
          quiet last (List.mem_append_right _ List.mem_cons_self)]
        rfl

/-- From one computation on, only what is set later counts. -/
theorem bitsSince_behind
    {keys : List CryptoKeyRow}
    {start : UInt32}
    {before between : List ServedRequest}
    {computed : ServedRequest}
    (reaches : ReachesCmac keys computed.request = true)
    (quiet : ∀ s ∈ between, s.run.raised &&& mask = 0) :
    bitsSince keys start (before ++ computed :: between) &&& mask = 0 := by
  have restart :
      bitsSince keys start (before ++ computed :: between) =
        bitsSince keys 0 between := by
    rw [← List.singleton_append, ← List.append_assoc, bitsSince, List.foldl_append]
    exact congrArg (bitsSince keys · between)
      ((bitsSince_snoc keys start before computed).trans (if_pos reaches))
  rw [restart]
  exact bitsSince_quiet UInt32.zero_and quiet

end Runs

/--
In every run of the server, with any faults of its block, a request for a tag is
answered with the CMAC under the secret that its key names, or with the verdict
`ERROR`: that one exactly when there is no such secret, a step fails, or an
error bit was set since the last MAC was computed.  A MAC that is computed clears
them: a fault fails one MAC, and the next is answered with its tag.
-/
theorem mac_server_never_lies
    (image : Cm0pImage)
    (mask : UInt32)
    (cmac : List UInt8 → List UInt8 → CryptoTag)
    (start : UInt32)
    (requests : List (List UInt8 × BlockRun))
    (faithful : ∀ asked ∈ requests, asked.2.Faithful mask cmac) :
    Machine.EachMeets (AnswersMac image.keys mask cmac start)
        (Machine.trace (cm0pServe image mask) start requests) ∧
      ∀ before failed between served after keyId msg secret,
        Machine.trace (cm0pServe image mask) start requests =
            before ++ failed :: between ++ served :: after →
          ReachesCmac image.keys failed.request = true →
            (∀ s ∈ between ++ [served], s.run.raised &&& mask = 0) →
              macRequest? served.request = some (keyId, msg) →
                macSecret image.keys keyId = some secret →
                  (served.run.cmac secret msg).Succeeds →
                    served.reply.bind cryptoMsgDecode =
                      some (cryptoMakeMacResponse (cmac secret msg)) := by
  have each := (@cm0pServe_run image mask cmac start requests faithful).2
  refine ⟨each, ?_⟩
  intro before failed between served after keyId msg secret split reaches quiet
    asked known succeeds
  obtain ⟨m, decoded, parsed⟩ := Option.bind_eq_some_iff.mp asked
  have forMac : m.opCode = cryptoOpMac := by
    by_contra other
    rw [cryptoParseMacRequest, if_pos other] at parsed
    cases parsed
  have answered := each _ served after split m decoded forMac
  have clear :
      (bitsSince image.keys start (before ++ failed :: between) |||
          served.run.raised) &&& mask = 0 := by
    rw [or_and_mask,
      bitsSince_behind reaches fun s isBetween =>
        quiet s (List.mem_append_left _ isBetween),
      quiet served (List.mem_append_right _ List.mem_cons_self)]
    rfl
  simp only [parsed, owedMac, known, clear, succeeds, and_self, if_true]
    at answered
  exact answered

/-- A block that leaves this tag, and sets these bits meanwhile. -/
def blockRun (tag : CryptoTag) (raised : UInt32) : BlockRun where
  core :=
    { sha := fun _ => none
      eccVerifyHash := fun _ _ _ _ => none }
  mem := fun _ => 0
  cmac := fun _ _ => ⟨true, true, true, true, tag⟩
  raised := raised

/-- A request for the tag of three bytes, under the shared secret. -/
def threeByteRequest : List UInt8 :=
  [cryptoOpMac, 9, 0, 0x5E, 0, 0, 0, 3, 0, 1, 2, 3]

/-- Node B answers the request behind a fault with the tag. -/
theorem fault_fails_one_mac :
    ((cm0pServe (nodeBCm0p (List.replicate 16 7)) 0x10
          (Machine.final (cm0pServe (nodeBCm0p (List.replicate 16 7)) 0x10) 0
            [(threeByteRequest, blockRun (evenTag 1) 0x10)])
          (threeByteRequest, blockRun (evenTag 5) 0)).2.map
        fun served => served.reply.bind cryptoMsgDecode) =
      [some (cryptoMakeMacResponse (evenTag 5))] := by
  have result :=
    mac_server_never_lies (nodeBCm0p (List.replicate 16 7)) 0x10
      (fun _ _ => evenTag 5) 0
      [(threeByteRequest, blockRun (evenTag 1) 0x10),
        (threeByteRequest, blockRun (evenTag 5) 0)]
      (by
        refine List.forall_mem_cons.mpr
          ⟨fun raised => ?_, List.forall_mem_singleton.mpr fun _ _ _ _ => rfl⟩
        exact absurd raised (by decide))
  exact congrArg (fun reply => [reply])
    (result.2 [] _ [] _ [] 0x5E [1, 2, 3] (List.replicate 16 7) rfl
      (by decide +kernel) (List.forall_mem_singleton.mpr (by decide))
      (by decide +kernel) (by decide +kernel) (by decide))

end TraveoBodyDomain
