import Mathlib.Tactic.Common
import TraveoBodyDomain.Secoc.Frame

/-!
# The lengths `secoc_verify_len` takes

What the configured verifier makes of every frame length, and whether it ever
asks the MAC oracle.  To see its calls the verifier is read once more with the
oracle as an effect; an oracle that writes its calls down answers as before.
-/

namespace TraveoBodyDomain

/-!
## The oracle as an effect
-/

/-- One call of `oracle->mac`: the key and the message. -/
structure MacCall where
  keyId : UInt32
  message : List UInt8
  deriving Repr, DecidableEq

/-- `secoc_mac_if_t` with its call as an effect. -/
abbrev SecocMacM (m : Type → Type) :=
  UInt32 → List UInt8 → m (Option FullTag)

/-- `verify_core`, its oracle call an effect. -/
def verifyCoreM
    {m : Type → Type}
    [Monad m]
    (mac : SecocMacM m)
    (cy : SecocCrypto)
    (canId : UInt16)
    (frame : List UInt8)
    (plen : Nat) :
    m (Except SecocVerifyFailure Verified) := do
  let pdu := frame.take plen
  let fresh := (frame.drop plen).take secocFreshnessLen
  let rxMac := frame.drop (plen + secocFreshnessLen)
  let answer ← mac cy.keyId (buildMacInput canId fresh pdu)
  pure <|
    match answer with
    | none => .error .macError
    | some tag =>
        if secocCtEqual tag.toList rxMac secocMacLen then
          .ok ⟨getU16le fresh, getU16le (fresh.drop 2), pdu⟩
        else
          .error .badMac

/-- `secoc_verify_len`, its oracle call an effect. -/
def secocVerifyLenM
    {m : Type → Type}
    [Monad m]
    (mac : SecocMacM m)
    (cy : SecocCrypto)
    (canId : UInt16)
    (frame : List UInt8)
    (pduLenCfg cap : Nat) :
    m (Except SecocVerifyFailure Verified) :=
  if secocMaxPdu < pduLenCfg ∨ cap < pduLenCfg then
    return .error .badLength
  else
    let secured := pduLenCfg + secocTrailerLen
    let padded := secocFdFrameLen secured
    if frame.length < secured ∨ padded < frame.length then
      return .error .badLength
    else
      verifyCoreM mac cy canId frame pduLenCfg

/-- An oracle that writes its calls down. -/
def loggedMac (mac : SecocMac) : SecocMacM (StateM (List MacCall)) :=
  fun keyId message => do
    modify (· ++ [⟨keyId, message⟩])
    return mac keyId message

/-- The call `verify_core` makes. -/
def verifyCall
    (cy : SecocCrypto)
    (canId : UInt16)
    (frame : List UInt8)
    (plen : Nat) :
    MacCall where
  keyId := cy.keyId
  message :=
    buildMacInput canId ((frame.drop plen).take secocFreshnessLen)
      (frame.take plen)

/-- The core asks once, and answers as it does when its calls go unseen. -/
theorem verifyCoreM_loggedMac
    (mac : SecocMac)
    (cy : SecocCrypto)
    (canId : UInt16)
    (frame : List UInt8)
    (plen : Nat)
    (calls : List MacCall) :
    (verifyCoreM (loggedMac mac) cy canId frame plen).run calls =
      (verifyCore mac cy canId frame plen,
        calls ++ [verifyCall cy canId frame plen]) :=
  rfl

/-- The length test of `secoc_verify_len`. -/
def LengthTaken
    (pduLenCfg len : Nat) : Prop :=
  pduLenCfg + secocTrailerLen ≤ len ∧
    len ≤ secocFdFrameLen (pduLenCfg + secocTrailerLen)

instance LengthTaken.decidable
    (pduLenCfg len : Nat) :
    Decidable (LengthTaken pduLenCfg len) :=
  inferInstanceAs (Decidable (_ ∧ _))

/-- The core never answers with a bad length. -/
theorem verifyCore_ne_badLength
    (mac : SecocMac)
    (cy : SecocCrypto)
    (canId : UInt16)
    (frame : List UInt8)
    (plen : Nat) :
    verifyCore mac cy canId frame plen ≠ .error .badLength := by
  unfold verifyCore
  dsimp only
  split
  next => simp
  next tag _ =>
    split
    next => simp
    next => simp

section VerifyLen

variable {mac : SecocMac}
  {cy : SecocCrypto}
  {canId : UInt16}
  {frame : List UInt8}
  {pduLenCfg cap : Nat}

/-- A length that passes the test reaches the core. -/
theorem secocVerifyLen_taken
    (configured : pduLenCfg ≤ secocMaxPdu)
    (fits : pduLenCfg ≤ cap)
    (taken : LengthTaken pduLenCfg frame.length) :
    secocVerifyLen mac cy canId frame pduLenCfg cap =
      verifyCore mac cy canId frame pduLenCfg := by
  obtain ⟨long, short⟩ := taken
  unfold secocVerifyLen
  rw [if_neg (by omega)]
  dsimp only
  rw [if_neg (by omega)]

/-- A length that fails the test is a bad one, and the oracle is not asked. -/
theorem secocVerifyLen_refused
    (refused : ¬ LengthTaken pduLenCfg frame.length)
    (calls : List MacCall) :
    secocVerifyLen mac cy canId frame pduLenCfg cap = .error .badLength ∧
      (secocVerifyLenM (loggedMac mac) cy canId frame pduLenCfg cap).run
          calls =
        (.error .badLength, calls) := by
  have outside :
      frame.length < pduLenCfg + secocTrailerLen ∨
        secocFdFrameLen (pduLenCfg + secocTrailerLen) < frame.length := by
    unfold LengthTaken at refused
    omega
  unfold secocVerifyLen secocVerifyLenM
  dsimp only
  rw [if_pos outside, if_pos outside]
  constructor
  · split
    next => rfl
    next => rfl
  · split
    next => rfl
    next => rfl

/-- A length that passes the test costs one oracle call. -/
theorem secocVerifyLenM_taken
    (configured : pduLenCfg ≤ secocMaxPdu)
    (fits : pduLenCfg ≤ cap)
    (taken : LengthTaken pduLenCfg frame.length)
    (calls : List MacCall) :
    (secocVerifyLenM (loggedMac mac) cy canId frame pduLenCfg cap).run calls =
      (secocVerifyLen mac cy canId frame pduLenCfg cap,
        calls ++ [verifyCall cy canId frame pduLenCfg]) := by
  rw [secocVerifyLen_taken configured fits taken]
  obtain ⟨long, short⟩ := taken
  unfold secocVerifyLenM
  rw [if_neg (by omega)]
  dsimp only
  rw [if_neg (by omega)]
  exact verifyCoreM_loggedMac mac cy canId frame pduLenCfg calls

/-- With a configured length that fits, only the test makes a length bad. -/
theorem secocVerifyLen_ne_badLength_iff
    (configured : pduLenCfg ≤ secocMaxPdu)
    (fits : pduLenCfg ≤ cap) :
    secocVerifyLen mac cy canId frame pduLenCfg cap ≠ .error .badLength ↔
      LengthTaken pduLenCfg frame.length := by
  constructor
  · intro notBad
    by_cases taken : LengthTaken pduLenCfg frame.length
    · exact taken
    · exact (notBad (secocVerifyLen_refused taken []).1).elim
  · intro taken
    rw [secocVerifyLen_taken configured fits taken]
    exact verifyCore_ne_badLength mac cy canId frame pduLenCfg

end VerifyLen

/-- What does not fit one CAN FD frame has no frame length. -/
theorem secocFdFrameLen_eq_zero
    {n : Nat}
    (long : 64 < n) :
    secocFdFrameLen n = 0 := by
  unfold secocFdFrameLen
  have none_ : kFdLen.find? (n ≤ ·) = none := by
    rw [List.find?_eq_none]
    intro len member
    have small : len ≤ 64 := by
      revert len
      decide
    simpa using (by omega : len < n)
  rw [if_neg (by omega), none_]
  rfl

/-!
## The length grammar
-/

/-- The two lengths of a frame with a configured PDU length. -/
def GrammarLength
    (pduLenCfg len : Nat) : Prop :=
  len = pduLenCfg + secocTrailerLen ∨
    len = secocFdFrameLen (pduLenCfg + secocTrailerLen)

/-- The verifier takes the two lengths, and asks the oracle for no other. -/
structure LengthGrammar
    (mac : SecocMac)
    (cy : SecocCrypto)
    (canId : UInt16)
    (frame : List UInt8)
    (pduLenCfg cap : Nat) : Prop where
  taken :
    secocVerifyLen mac cy canId frame pduLenCfg cap ≠ .error .badLength ↔
      GrammarLength pduLenCfg frame.length
  refused :
    ¬ GrammarLength pduLenCfg frame.length →
      (secocVerifyLenM (loggedMac mac) cy canId frame pduLenCfg cap).run [] =
        (.error .badLength, [])

/-- The length is not between the two, nor one of a frame that never fits. -/
def LengthUnambiguous
    (pduLenCfg len : Nat) : Prop :=
  ¬ (pduLenCfg + secocTrailerLen < len ∧
      len < secocFdFrameLen (pduLenCfg + secocTrailerLen)) ∧
    ¬ (64 < pduLenCfg + secocTrailerLen ∧
      (len = pduLenCfg + secocTrailerLen ∨ len = 0))

/-- The test and the two lengths agree where the length is unambiguous. -/
theorem lengthTaken_iff_grammar
    {pduLenCfg len : Nat} :
    (LengthTaken pduLenCfg len ↔ GrammarLength pduLenCfg len) ↔
      LengthUnambiguous pduLenCfg len := by
  unfold LengthTaken GrammarLength LengthUnambiguous
  by_cases long : 64 < pduLenCfg + secocTrailerLen
  · rw [secocFdFrameLen_eq_zero long]
    omega
  · have holds := le_secocFdFrameLen (Nat.le_of_not_lt long)
    omega

/-- A frame one byte too long for its PDU and two short of its padding reaches
the oracle. -/
theorem length_between_reaches_the_oracle :
    let mac : SecocMac := fun _ _ => some (Vector.replicate 16 0)
    let frame := List.replicate 14 0
    (secocVerifyLenM (loggedMac mac) ⟨1⟩ 0x120 frame 1 64).run [] =
        (.ok ⟨0, 0, [0]⟩, [⟨1, [0x20, 0x01, 0, 0, 0, 0, 0]⟩]) ∧
      ¬ LengthGrammar mac ⟨1⟩ 0x120 frame 1 64 := by
  intro mac frame
  have taken : LengthTaken 1 frame.length := by
    decide +kernel
  have ran :
      (secocVerifyLenM (loggedMac mac) ⟨1⟩ 0x120 frame 1 64).run [] =
        (.ok ⟨0, 0, [0]⟩, [⟨1, [0x20, 0x01, 0, 0, 0, 0, 0]⟩]) := by
    rw [secocVerifyLenM_taken (by decide) (by decide) taken]
    exact Prod.ext (by decide +kernel) (by decide +kernel)
  refine ⟨ran, ?_⟩
  intro grammar
  have between : ¬ GrammarLength 1 frame.length := by
    unfold GrammarLength
    decide +kernel
  have calls := congrArg Prod.snd (ran.symm.trans (grammar.refused between))
  exact absurd calls (by decide)

/-- The configured verifier keeps the length grammar exactly on the
unambiguous lengths. -/
theorem length_grammar_iff
    (mac : SecocMac)
    (cy : SecocCrypto)
    (canId : UInt16)
    (frame : List UInt8)
    (pduLenCfg cap : Nat)
    (configured : pduLenCfg ≤ secocMaxPdu)
    (fits : pduLenCfg ≤ cap) :
    LengthGrammar mac cy canId frame pduLenCfg cap ↔
      LengthUnambiguous pduLenCfg frame.length := by
  rw [← lengthTaken_iff_grammar]
  constructor
  · intro grammar
    rw [← grammar.taken]
    exact (secocVerifyLen_ne_badLength_iff configured fits).symm
  · intro agree
    constructor
    · rw [← agree]
      exact secocVerifyLen_ne_badLength_iff configured fits
    · intro other
      rw [← agree] at other
      exact (secocVerifyLen_refused other []).2

/-- A 13-byte frame of a 1-byte PDU keeps the grammar. -/
theorem exact_length_keeps_the_grammar :
    LengthGrammar (fun _ _ => some (Vector.replicate 16 0)) ⟨1⟩ 0x120
      (List.replicate 13 0) 1 64 :=
  (length_grammar_iff _ _ _ _ 1 64 (by decide) (by decide)).mpr
    (by
      unfold LengthUnambiguous
      decide +kernel)

/-!
## What is secured and then verified
-/

/-- A frame verifies by its PDU length, exact and, if it fits, padded. -/
structure VerifiesByLength
    (mac : SecocMac)
    (cy : SecocCrypto)
    (canId epoch counter : UInt16)
    (pdu frame : List UInt8)
    (room : Nat) : Prop where
  exact_ :
    secocVerifyLen mac cy canId frame pdu.length room =
      .ok ⟨epoch, counter, pdu⟩
  padded :
    frame.length ≤ 64 →
      ∀ padding : List UInt8,
        (frame ++ padding).length = secocFdFrameLen frame.length →
          secocVerifyLen mac cy canId (frame ++ padding) pdu.length room =
            .ok ⟨epoch, counter, pdu⟩

/-- A 53-byte PDU is secured, and its frame is a bad length to the verifier. -/
theorem longer_pdu_is_secured_but_not_verified :
    let mac : SecocMac := fun _ _ => some (Vector.replicate 16 0)
    let pdu := List.replicate 53 0
    let frame := List.replicate 65 0
    secocSecure mac ⟨1⟩ 0x120 0 0 pdu 76 = some frame ∧
      secocVerify mac ⟨1⟩ 0x120 frame 64 = .ok ⟨0, 0, pdu⟩ ∧
      secocVerifyLen mac ⟨1⟩ 0x120 frame 53 64 = .error .badLength ∧
      ¬ VerifiesByLength mac ⟨1⟩ 0x120 0 0 pdu frame 64 := by
  intro mac pdu frame
  have refused :
      secocVerifyLen mac ⟨1⟩ 0x120 frame 53 64 = .error .badLength := by
    decide +kernel
  refine ⟨by decide +kernel, by decide +kernel, refused, ?_⟩
  intro verifies
  have accepted := verifies.exact_
  rw [show pdu.length = 53 from List.length_replicate, refused] at accepted
  cases accepted

/-- What `secoc_secure` makes verifies by its PDU length exactly when it fits
one CAN FD frame. -/
theorem secured_frame_verifies_by_length_iff
    {mac : SecocMac}
    {cy : SecocCrypto}
    {canId epoch counter : UInt16}
    {pdu frame : List UInt8}
    {cap room : Nat}
    (secured : secocSecure mac cy canId epoch counter pdu cap = some frame)
    (fits : pdu.length ≤ room) :
    VerifiesByLength mac cy canId epoch counter pdu frame room ↔
      pdu.length ≤ 52 := by
  obtain ⟨small, hasRoom, tag, -, made⟩ := secocSecure_eq_some.mp secured
  have length : frame.length = pdu.length + secocTrailerLen := by
    rw [← made, length_securedFrame]
  constructor
  · intro verifies
    have notBad :
        secocVerifyLen mac cy canId frame pdu.length room ≠
          .error .badLength := by
      rw [verifies.exact_]
      simp
    have taken := (secocVerifyLen_ne_badLength_iff small fits).mp notBad
    by_contra long
    have noFrame :
        secocFdFrameLen (pdu.length + secocTrailerLen) = 0 := by
      apply secocFdFrameLen_eq_zero
      simp only [secocTrailerLen, secocFreshnessLen, secocMacLen]
      omega
    unfold LengthTaken at taken
    omega
  · intro short
    have oneFrame : pdu.length + secocTrailerLen ≤ 64 := by
      simp only [secocTrailerLen, secocFreshnessLen, secocMacLen]
      omega
    constructor
    · have accepted :
          (frame ++ []).length ≤
            secocFdFrameLen (pdu.length + secocTrailerLen) := by
        rw [List.append_nil, length]
        exact le_secocFdFrameLen oneFrame
      simpa using secocVerifyLen_padded secured accepted fits
    · intro _ padding padded
      rw [length] at padded
      exact secocVerifyLen_padded secured (Nat.le_of_eq padded) fits

/-- A 1-byte PDU is secured and verified. -/
theorem one_byte_pdu_verifies_by_length :
    VerifiesByLength (fun _ _ => some (Vector.replicate 16 0)) ⟨1⟩ 0x120 0 0
      [0] (List.replicate 13 0) 64 :=
  (@secured_frame_verifies_by_length_iff
      (fun _ _ => some (Vector.replicate 16 0)) ⟨1⟩ 0x120 0 0 [0]
      (List.replicate 13 0) 64 64 (by decide +kernel) (by decide)).mpr
    (by decide)

end TraveoBodyDomain
