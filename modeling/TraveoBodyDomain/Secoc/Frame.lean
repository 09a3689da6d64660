import Mathlib.Data.List.GetD
import Mathlib.Tactic.Common
import TraveoBodyDomain.Lib.LittleEndian

/-!
# Secured frames

`secoc.c`: one CAN FD frame is `pdu | epoch | counter | MAC[0..8)`, and the MAC
input is `Data ID | epoch | counter | pdu`.  A byte pointer with its length is
a list; NULL arguments are excluded by the types, and a return value of 0 is
`none`.  The MAC oracle, outside these sources, is a parameter.
-/

namespace TraveoBodyDomain

open LittleEndian

/-- `SECOC_FRESHNESS_LEN`. -/
def secocFreshnessLen : Nat :=
  4

/-- `SECOC_MAC_LEN`. -/
def secocMacLen : Nat :=
  8

/-- `SECOC_TRAILER_LEN`. -/
def secocTrailerLen : Nat :=
  secocFreshnessLen + secocMacLen

/-- `SECOC_MAX_PDU`. -/
def secocMaxPdu : Nat :=
  64

/-- A full CMAC tag, `SECOC_FULL_TAG_LEN` bytes. -/
abbrev FullTag :=
  Vector UInt8 16

/-- `secoc_mac_if_t`: the tag of a message under a key, unless none is made. -/
abbrev SecocMac :=
  UInt32 → List UInt8 → Option FullTag

/-- `secoc_crypto_t`; its oracle is passed separately. -/
structure SecocCrypto where
  keyId : UInt32
  deriving Repr, DecidableEq

/-- `put_u16le`. -/
def putU16le (v : UInt16) : List UInt8 :=
  [(v &&& 0xFF).toUInt8, ((v >>> 8) &&& 0xFF).toUInt8]

/-- `get_u16le`. -/
def getU16le (p : List UInt8) : UInt16 :=
  (p.getD 0 0).toUInt16 ||| ((p.getD 1 0).toUInt16 <<< 8)

/-- `secoc_ct_equal`: or together the differences of `n` byte pairs. -/
def secocCtEqual
    (a b : List UInt8)
    (n : Nat) :
    Bool :=
  (List.range n).foldl
    (fun diff i => diff ||| (a.getD i 0 ^^^ b.getD i 0)) 0 == 0

/-- `build_mac_input`: `DataID | freshness | pdu`. -/
def buildMacInput
    (canId : UInt16)
    (freshness4 pdu : List UInt8) :
    List UInt8 :=
  putU16le canId ++ freshness4 ++ pdu

/-- The freshness field of a frame: `epoch | counter`. -/
def freshnessField (epoch counter : UInt16) : List UInt8 :=
  putU16le epoch ++ putU16le counter

/-- `secoc_secure`. -/
def secocSecure
    (mac : SecocMac)
    (cy : SecocCrypto)
    (canId epoch counter : UInt16)
    (pdu : List UInt8)
    (cap : Nat) :
    Option (List UInt8) :=
  if secocMaxPdu < pdu.length then
    none
  else if cap < pdu.length + secocTrailerLen then
    none
  else
    let fresh := freshnessField epoch counter
    match mac cy.keyId (buildMacInput canId fresh pdu) with
    | none => none
    | some tag => some (pdu ++ fresh ++ tag.toList.take secocMacLen)

/-- `secoc_verify_result_t` other than `SECOC_OK`. -/
inductive SecocVerifyFailure where
  | badMac
  | badLength
  | macError
  deriving Repr, DecidableEq

/-- The value of the enumerator, the `arg1` code of a reject event. -/
def SecocVerifyFailure.code : SecocVerifyFailure → UInt16
  | .badMac => 1
  | .badLength => 2
  | .macError => 3

/-- What a successful verification writes through its output pointers. -/
structure Verified where
  epoch : UInt16
  counter : UInt16
  pdu : List UInt8
  deriving Repr, DecidableEq

/-- `verify_core`: the authentic PDU is the first `plen` bytes. -/
def verifyCore
    (mac : SecocMac)
    (cy : SecocCrypto)
    (canId : UInt16)
    (frame : List UInt8)
    (plen : Nat) :
    Except SecocVerifyFailure Verified :=
  let pdu := frame.take plen
  let fresh := (frame.drop plen).take secocFreshnessLen
  let rxMac := frame.drop (plen + secocFreshnessLen)
  match mac cy.keyId (buildMacInput canId fresh pdu) with
  | none => .error .macError
  | some tag =>
      if secocCtEqual tag.toList rxMac secocMacLen then
        .ok ⟨getU16le fresh, getU16le (fresh.drop 2), pdu⟩
      else
        .error .badMac

/-- `secoc_verify`: the PDU length is inferred from the frame's. -/
def secocVerify
    (mac : SecocMac)
    (cy : SecocCrypto)
    (canId : UInt16)
    (frame : List UInt8)
    (cap : Nat) :
    Except SecocVerifyFailure Verified :=
  if frame.length < secocTrailerLen then
    .error .badLength
  else
    let plen := frame.length - secocTrailerLen
    if secocMaxPdu < plen ∨ cap < plen then
      .error .badLength
    else
      verifyCore mac cy canId frame plen

/-- `k_fd_len`: the CAN FD data-field lengths above 8. -/
def kFdLen : List Nat :=
  [12, 16, 20, 24, 32, 48, 64]

/-- `secoc_fd_frame_len`; 0 for what does not fit one frame. -/
def secocFdFrameLen (n : Nat) : Nat :=
  if n ≤ 8 then
    n
  else
    (kFdLen.find? (n ≤ ·)).getD 0

/-- `secoc_verify_len`: the PDU length is configured. -/
def secocVerifyLen
    (mac : SecocMac)
    (cy : SecocCrypto)
    (canId : UInt16)
    (frame : List UInt8)
    (pduLenCfg cap : Nat) :
    Except SecocVerifyFailure Verified :=
  if secocMaxPdu < pduLenCfg ∨ cap < pduLenCfg then
    .error .badLength
  else
    let secured := pduLenCfg + secocTrailerLen
    let padded := secocFdFrameLen secured
    if frame.length < secured ∨ padded < frame.length then
      .error .badLength
    else
      verifyCore mac cy canId frame pduLenCfg

/-!
## The freshness field and the MAC input
-/

/-- Writing a value as the source does gives its little-endian bytes. -/
theorem putU16le_eq_toLe
    (v : UInt16) :
    putU16le v = toLe 2 v.toNat :=
  split16 v

@[simp] theorem length_putU16le
    (v : UInt16) :
    (putU16le v).length = 2 :=
  rfl

/-- Reading two bytes as the source does gives the number they denote. -/
theorem getU16le_toNat
    (first second : UInt8)
    (rest : List UInt8) :
    (getU16le (first :: second :: rest)).toNat = ofLe [first, second] :=
  join16 first second

/-- A value written and read back, whatever follows it. -/
@[simp] theorem getU16le_putU16le
    (v : UInt16)
    (rest : List UInt8) :
    getU16le (putU16le v ++ rest) = v := by
  apply UInt16.toNat_inj.mp
  have read :
      (getU16le (putU16le v ++ rest)).toNat = ofLe (putU16le v) :=
    getU16le_toNat _ _ rest
  rw [read, putU16le_eq_toLe, ofLe_toLe]
  exact Nat.mod_eq_of_lt v.toNat_lt

/-- Two bytes read and written back. -/
theorem putU16le_getU16le
    (first second : UInt8) :
    putU16le (getU16le [first, second]) = [first, second] :=
  split16_join16 first second

/-- Values are written injectively. -/
theorem putU16le_injective
    {first second : UInt16}
    (same : putU16le first = putU16le second) :
    first = second := by
  have read := congrArg (fun bytes => getU16le (bytes ++ [])) same
  simpa only [getU16le_putU16le] using read

@[simp] theorem length_freshnessField
    (epoch counter : UInt16) :
    (freshnessField epoch counter).length = secocFreshnessLen :=
  rfl

/-- The freshness field determines the pair. -/
theorem freshnessField_injective
    {firstEpoch firstCounter secondEpoch secondCounter : UInt16}
    (same :
      freshnessField firstEpoch firstCounter =
        freshnessField secondEpoch secondCounter) :
    firstEpoch = secondEpoch ∧ firstCounter = secondCounter := by
  have halves := List.append_inj same rfl
  exact ⟨putU16le_injective halves.1, putU16le_injective halves.2⟩

/-- Four bytes are the freshness field of the pair read from them. -/
theorem freshnessField_of_length
    {fresh : List UInt8}
    (four : fresh.length = secocFreshnessLen) :
    freshnessField (getU16le fresh) (getU16le (fresh.drop 2)) = fresh := by
  match fresh, four with
  | [a, b, c, d], _ =>
      have low : getU16le [a, b, c, d] = getU16le [a, b] := rfl
      simp only [freshnessField, List.drop_succ_cons, List.drop_zero, low,
        putU16le_getU16le]
      rfl

/-- The MAC input determines the ID, the freshness value and the PDU. -/
theorem buildMacInput_injective
    {firstId secondId : UInt16}
    {firstFresh secondFresh firstPdu secondPdu : List UInt8}
    (firstFour : firstFresh.length = secocFreshnessLen)
    (secondFour : secondFresh.length = secocFreshnessLen)
    (same :
      buildMacInput firstId firstFresh firstPdu =
        buildMacInput secondId secondFresh secondPdu) :
    firstId = secondId ∧ firstFresh = secondFresh ∧ firstPdu = secondPdu := by
  unfold buildMacInput at same
  rw [List.append_assoc, List.append_assoc] at same
  have ids := List.append_inj same rfl
  have rest := List.append_inj ids.2 (firstFour.trans secondFour.symm)
  exact ⟨putU16le_injective ids.1, rest.1, rest.2⟩

/-!
## What the verifiers accept
-/

/-- A verified frame carries the pair it reports after the PDU it reports. -/
theorem verifyCore_ok
    {mac : SecocMac}
    {cy : SecocCrypto}
    {canId : UInt16}
    {frame : List UInt8}
    {plen : Nat}
    {verified : Verified}
    (long : plen + secocTrailerLen ≤ frame.length)
    (accepted : verifyCore mac cy canId frame plen = .ok verified) :
    verified.pdu = frame.take plen ∧
      (frame.drop plen).take secocFreshnessLen =
        freshnessField verified.epoch verified.counter ∧
      ∃ tag,
        mac cy.keyId
            (buildMacInput canId
              (freshnessField verified.epoch verified.counter)
              verified.pdu) = some tag ∧
          secocCtEqual tag.toList
            (frame.drop (plen + secocFreshnessLen)) secocMacLen = true := by
  have four :
      ((frame.drop plen).take secocFreshnessLen).length =
        secocFreshnessLen := by
    simp only [List.length_take, List.length_drop, secocTrailerLen] at *
    omega
  have field := freshnessField_of_length four
  unfold verifyCore at accepted
  dsimp only at accepted
  split at accepted
  next => cases accepted
  next tag tagged =>
    split at accepted
    next tagMatches =>
      cases accepted
      refine ⟨rfl, field.symm, tag, ?_, tagMatches⟩
      rw [field]
      exact tagged
    next => cases accepted

/-- The comparison is of the first `n` byte pairs. -/
theorem secocCtEqual_iff
    {a b : List UInt8}
    {n : Nat} :
    secocCtEqual a b n = true ↔ ∀ i < n, a.getD i 0 = b.getD i 0 := by
  have noDifference :
      (List.range n).foldl
          (fun diff i => diff ||| (a.getD i 0 ^^^ b.getD i 0)) 0 = 0 ↔
        ∀ i < n, a.getD i 0 = b.getD i 0 := by
    induction n with
    | zero =>
        simp
    | succ n inductionHypothesis =>
        rw [List.range_succ, List.foldl_append, List.foldl_cons, List.foldl_nil,
          UInt8.or_eq_zero_iff, UInt8.xor_eq_zero_iff, inductionHypothesis]
        constructor
        · intro agree i small
          rcases Nat.lt_succ_iff_lt_or_eq.mp small with before | rfl
          · exact agree.1 i before
          · exact agree.2
        · intro agree
          exact ⟨fun i small => agree i (Nat.lt_succ_of_lt small),
            agree n (Nat.lt_succ_self n)⟩
  rw [← noDifference]
  exact beq_iff_eq

/-- Two byte strings that compare equal start alike. -/
theorem take_of_secocCtEqual
    {a b : List UInt8}
    {n : Nat}
    (equal : secocCtEqual a b n = true)
    (longA : n ≤ a.length)
    (longB : n ≤ b.length) :
    a.take n = b.take n := by
  apply List.ext_getElem
  · simp [longA, longB]
  · intro i inA inB
    have small : i < n := by
      rw [List.length_take] at inA
      omega
    have same := secocCtEqual_iff.mp equal i small
    rw [List.getD_eq_getElem _ _ (by omega),
      List.getD_eq_getElem _ _ (by omega)] at same
    rw [List.getElem_take, List.getElem_take]
    exact same

/-- What fits a CAN FD frame is no longer than the frame it is padded to. -/
theorem le_secocFdFrameLen
    {n : Nat}
    (fits : n ≤ 64) :
    n ≤ secocFdFrameLen n := by
  unfold secocFdFrameLen
  by_cases short : n ≤ 8
  · rw [if_pos short]
  · rw [if_neg short]
    have exists64 : (kFdLen.find? (n ≤ ·)).isSome = true :=
      List.find?_isSome.mpr ⟨64, by decide, by simpa using fits⟩
    obtain ⟨len, found⟩ := Option.isSome_iff_exists.mp exists64
    rw [found]
    simpa using List.find?_some found

/-- The frame of a PDU under a tag: `secoc_secure` writes it, the verifiers
read it. -/
def securedFrame
    (epoch counter : UInt16)
    (pdu : List UInt8)
    (tag : FullTag) :
    List UInt8 :=
  pdu ++ freshnessField epoch counter ++ tag.toList.take secocMacLen

theorem length_securedFrame
    (epoch counter : UInt16)
    (pdu : List UInt8)
    (tag : FullTag) :
    (securedFrame epoch counter pdu tag).length =
      pdu.length + secocTrailerLen := by
  simp [securedFrame, secocTrailerLen, secocMacLen, secocFreshnessLen]

/-- When `secoc_secure` makes a frame, and which. -/
theorem secocSecure_eq_some
    {mac : SecocMac}
    {cy : SecocCrypto}
    {canId epoch counter : UInt16}
    {pdu frame : List UInt8}
    {cap : Nat} :
    secocSecure mac cy canId epoch counter pdu cap = some frame ↔
      pdu.length ≤ secocMaxPdu ∧
        pdu.length + secocTrailerLen ≤ cap ∧
        ∃ tag,
          mac cy.keyId
              (buildMacInput canId (freshnessField epoch counter) pdu) =
            some tag ∧
          securedFrame epoch counter pdu tag = frame := by
  unfold secocSecure
  split
  next large =>
    exact ⟨nofun, fun made => absurd made.1 (by omega)⟩
  next small =>
    split
    next noRoom =>
      exact ⟨nofun, fun made => absurd made.2.1 (by omega)⟩
    next hasRoom =>
      dsimp only
      split
      next silent =>
        simp [silent]
      next tag tagged =>
        simp [tagged, securedFrame, Nat.le_of_not_lt small,
          Nat.le_of_not_lt hasRoom]

/-- The frame of a PDU verifies, whatever follows it. -/
theorem verifyCore_securedFrame
    {mac : SecocMac}
    {cy : SecocCrypto}
    {canId epoch counter : UInt16}
    {pdu : List UInt8}
    {tag : FullTag}
    (tagged :
      mac cy.keyId (buildMacInput canId (freshnessField epoch counter) pdu) =
        some tag)
    (padding : List UInt8) :
    verifyCore mac cy canId (securedFrame epoch counter pdu tag ++ padding)
        pdu.length =
      .ok ⟨epoch, counter, pdu⟩ := by
  have layout :
      securedFrame epoch counter pdu tag ++ padding =
        pdu ++ (freshnessField epoch counter ++
          (tag.toList.take secocMacLen ++ padding)) := by
    simp only [securedFrame, List.append_assoc]
  have field :
      ((freshnessField epoch counter ++
          (tag.toList.take secocMacLen ++ padding)).take secocFreshnessLen) =
        freshnessField epoch counter :=
    List.take_left' (length_freshnessField epoch counter)
  have tagBytes :
      (freshnessField epoch counter ++
          (tag.toList.take secocMacLen ++ padding)).drop secocFreshnessLen =
        tag.toList.take secocMacLen ++ padding :=
    List.drop_left' (length_freshnessField epoch counter)
  have sameTag :
      secocCtEqual tag.toList (tag.toList.take secocMacLen ++ padding)
        secocMacLen = true := by
    apply secocCtEqual_iff.mpr
    intro i small
    have inTake : i < (tag.toList.take secocMacLen).length := by
      simpa [secocMacLen] using small
    rw [List.getD_append _ _ _ _ inTake]
    simp [List.getD_eq_getElem?_getD, small]
  have sameCounter :
      getU16le ((freshnessField epoch counter).drop 2) = counter :=
    getU16le_putU16le counter []
  have sameEpoch : getU16le (freshnessField epoch counter) = epoch :=
    getU16le_putU16le epoch (putU16le counter)
  unfold verifyCore
  rw [layout]
  simp only [List.take_left, List.drop_left, ← List.drop_drop, field, tagBytes,
    tagged, sameTag, sameCounter, sameEpoch, ↓reduceIte]

/-- A frame that verifies starts with the frame of what it reports. -/
theorem securedFrame_of_verifyCore
    {mac : SecocMac}
    {cy : SecocCrypto}
    {canId : UInt16}
    {frame : List UInt8}
    {plen : Nat}
    {verified : Verified}
    (long : plen + secocTrailerLen ≤ frame.length)
    (accepted : verifyCore mac cy canId frame plen = .ok verified) :
    verified.pdu.length = plen ∧
      ∃ tag,
        mac cy.keyId
            (buildMacInput canId
              (freshnessField verified.epoch verified.counter)
              verified.pdu) = some tag ∧
          securedFrame verified.epoch verified.counter verified.pdu tag =
            frame.take (plen + secocTrailerLen) := by
  obtain ⟨pdu, field, tag, tagged, equal⟩ := verifyCore_ok long accepted
  have lengths :
      plen ≤ frame.length ∧
        secocMacLen ≤ (frame.drop (plen + secocFreshnessLen)).length := by
    rw [List.length_drop]
    simp only [secocTrailerLen] at long
    omega
  have tagBytes :
      tag.toList.take secocMacLen =
        (frame.drop (plen + secocFreshnessLen)).take secocMacLen :=
    take_of_secocCtEqual equal (by simp [secocMacLen]) lengths.2
  refine ⟨by simp [pdu, lengths.1], tag, tagged, ?_⟩
  calc
    securedFrame verified.epoch verified.counter verified.pdu tag
    _ = frame.take plen ++ (frame.drop plen).take secocFreshnessLen ++
          (frame.drop (plen + secocFreshnessLen)).take secocMacLen := by
        rw [securedFrame, pdu, field, tagBytes]
    _ = frame.take (plen + secocTrailerLen) := by
        rw [← List.take_add, ← List.take_add, Nat.add_assoc, secocTrailerLen]

/-- What `secoc_secure` made, `secoc_verify` takes apart. -/
theorem secocVerify_secocSecure
    {mac : SecocMac}
    {cy : SecocCrypto}
    {canId epoch counter : UInt16}
    {pdu frame : List UInt8}
    {cap room : Nat}
    (secured : secocSecure mac cy canId epoch counter pdu cap = some frame)
    (fits : pdu.length ≤ room) :
    secocVerify mac cy canId frame room = .ok ⟨epoch, counter, pdu⟩ := by
  obtain ⟨small, _, tag, tagged, rfl⟩ := secocSecure_eq_some.mp secured
  have length := length_securedFrame epoch counter pdu tag
  have inferred :
      (securedFrame epoch counter pdu tag).length - secocTrailerLen =
        pdu.length := by
    omega
  unfold secocVerify
  rw [if_neg (by omega)]
  dsimp only
  rw [inferred, if_neg (by omega)]
  simpa using verifyCore_securedFrame tagged []

/-- What `secoc_secure` made and a controller padded, `secoc_verify_len` takes
apart. -/
theorem secocVerifyLen_padded
    {mac : SecocMac}
    {cy : SecocCrypto}
    {canId epoch counter : UInt16}
    {pdu frame padding : List UInt8}
    {cap room : Nat}
    (secured : secocSecure mac cy canId epoch counter pdu cap = some frame)
    (accepted :
      (frame ++ padding).length ≤
        secocFdFrameLen (pdu.length + secocTrailerLen))
    (fits : pdu.length ≤ room) :
    secocVerifyLen mac cy canId (frame ++ padding) pdu.length room =
      .ok ⟨epoch, counter, pdu⟩ := by
  obtain ⟨small, _, tag, tagged, rfl⟩ := secocSecure_eq_some.mp secured
  have length := length_securedFrame epoch counter pdu tag
  have long :
      pdu.length + secocTrailerLen ≤
        (securedFrame epoch counter pdu tag ++ padding).length := by
    rw [List.length_append]
    omega
  unfold secocVerifyLen
  rw [if_neg (by omega)]
  dsimp only
  rw [if_neg (by omega)]
  exact verifyCore_securedFrame tagged padding

/-- What `secoc_secure` made, `secoc_verify_len` takes apart. -/
theorem secocVerifyLen_secocSecure
    {mac : SecocMac}
    {cy : SecocCrypto}
    {canId epoch counter : UInt16}
    {pdu frame : List UInt8}
    {cap room : Nat}
    (secured : secocSecure mac cy canId epoch counter pdu cap = some frame)
    (oneFrame : cap ≤ 64)
    (fits : pdu.length ≤ room) :
    secocVerifyLen mac cy canId frame pdu.length room =
      .ok ⟨epoch, counter, pdu⟩ := by
  obtain ⟨_, hasRoom, tag, _, made⟩ := secocSecure_eq_some.mp secured
  have accepted :
      (frame ++ []).length ≤
        secocFdFrameLen (pdu.length + secocTrailerLen) := by
    rw [List.append_nil, ← made, length_securedFrame]
    exact le_secocFdFrameLen (Nat.le_trans hasRoom oneFrame)
  simpa using secocVerifyLen_padded secured accepted fits

/-- What `secoc_verify` accepts, `secoc_secure` makes. -/
theorem secocSecure_of_secocVerify
    {mac : SecocMac}
    {cy : SecocCrypto}
    {canId : UInt16}
    {frame : List UInt8}
    {room cap : Nat}
    {verified : Verified}
    (accepted : secocVerify mac cy canId frame room = .ok verified)
    (hasRoom : frame.length ≤ cap) :
    secocSecure mac cy canId verified.epoch verified.counter verified.pdu cap =
      some frame := by
  unfold secocVerify at accepted
  split at accepted
  next => cases accepted
  next long =>
    dsimp only at accepted
    split at accepted
    next => cases accepted
    next small =>
      obtain ⟨length, tag, tagged, start⟩ :=
        securedFrame_of_verifyCore (by omega) accepted
      refine secocSecure_eq_some.mpr
        ⟨by omega, by omega, tag, tagged, ?_⟩
      rw [start]
      exact List.take_of_length_le (by omega)

/-- What `secoc_verify_len` accepts starts with what `secoc_secure` makes. -/
theorem secocSecure_of_secocVerifyLen
    {mac : SecocMac}
    {cy : SecocCrypto}
    {canId : UInt16}
    {frame : List UInt8}
    {pduLenCfg room cap : Nat}
    {verified : Verified}
    (accepted :
      secocVerifyLen mac cy canId frame pduLenCfg room = .ok verified)
    (hasRoom : pduLenCfg + secocTrailerLen ≤ cap) :
    secocSecure mac cy canId verified.epoch verified.counter verified.pdu cap =
      some (frame.take (pduLenCfg + secocTrailerLen)) := by
  unfold secocVerifyLen at accepted
  split at accepted
  next => cases accepted
  next small =>
    dsimp only at accepted
    split at accepted
    next => cases accepted
    next long =>
      obtain ⟨length, tag, tagged, start⟩ :=
        securedFrame_of_verifyCore (by omega) accepted
      exact secocSecure_eq_some.mpr
        ⟨by omega, by omega, tag, tagged, start⟩

/-!
## The format
-/

/-- The secured frame format of one ID under one key: builder, verifiers and
MAC input agree. -/
structure SecuredFrameFormat
    (mac : SecocMac)
    (cy : SecocCrypto)
    (canId : UInt16) : Prop where
  verifies :
    ∀ epoch counter pdu frame cap room,
      secocSecure mac cy canId epoch counter pdu cap = some frame →
        pdu.length ≤ room →
          secocVerify mac cy canId frame room = .ok ⟨epoch, counter, pdu⟩
  verifiesPadded :
    ∀ epoch counter pdu frame padding cap room,
      secocSecure mac cy canId epoch counter pdu cap = some frame →
        (frame ++ padding).length ≤
            secocFdFrameLen (pdu.length + secocTrailerLen) →
          pdu.length ≤ room →
            secocVerifyLen mac cy canId (frame ++ padding) pdu.length room =
              .ok ⟨epoch, counter, pdu⟩
  onlySecured :
    ∀ frame room verified cap,
      secocVerify mac cy canId frame room = .ok verified →
        frame.length ≤ cap →
          secocSecure mac cy canId verified.epoch verified.counter
              verified.pdu cap =
            some frame
  onlySecuredPadded :
    ∀ frame pduLenCfg room verified cap,
      secocVerifyLen mac cy canId frame pduLenCfg room = .ok verified →
        pduLenCfg + secocTrailerLen ≤ cap →
          secocSecure mac cy canId verified.epoch verified.counter
              verified.pdu cap =
            some (frame.take (pduLenCfg + secocTrailerLen))
  inputDetermines :
    ∀ epoch counter pdu otherId otherEpoch otherCounter otherPdu,
      buildMacInput canId (freshnessField epoch counter) pdu =
          buildMacInput otherId
            (freshnessField otherEpoch otherCounter) otherPdu →
        canId = otherId ∧ epoch = otherEpoch ∧ counter = otherCounter ∧
          pdu = otherPdu

/-- Under every oracle, key and ID, what is secured verifies, what verifies was
secured so, and no two tuples share a MAC input. -/
theorem secured_frame_format
    (mac : SecocMac)
    (cy : SecocCrypto)
    (canId : UInt16) :
    SecuredFrameFormat mac cy canId where
  verifies _ _ _ _ _ _ secured fits :=
    secocVerify_secocSecure secured fits
  verifiesPadded _ _ _ _ _ _ _ secured accepted fits :=
    secocVerifyLen_padded secured accepted fits
  onlySecured _ _ _ _ accepted hasRoom :=
    secocSecure_of_secocVerify accepted hasRoom
  onlySecuredPadded _ _ _ _ _ accepted hasRoom :=
    secocSecure_of_secocVerifyLen accepted hasRoom
  inputDetermines _ _ _ _ _ _ _ same := by
    obtain ⟨ids, fields, pdus⟩ :=
      buildMacInput_injective (length_freshnessField _ _)
        (length_freshnessField _ _) same
    obtain ⟨epochs, counters⟩ := freshnessField_injective fields
    exact ⟨ids, epochs, counters, pdus⟩

end TraveoBodyDomain
