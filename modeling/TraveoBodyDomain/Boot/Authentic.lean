import TraveoBodyDomain.Boot.SignImage
import TraveoBodyDomain.Crypto.Codec

/-!
# What is signed is what is verified

An image that `sign_image.py` writes, placed at the application base, passes
every check of the bootloader, and the other core hashes the bytes the host
hashed and finds digest, signature and key id where the host put them.

The length of the covered range is read from the header, which is covered
itself.  A changed length names another range, and when that range happens to
be one that was signed, with its own trailer behind it, the changed image is
valid.  No other change of a covered byte gives a valid image.
-/

namespace TraveoBodyDomain

open LittleEndian

/-- The number that big-endian bytes denote. -/
def ofBytesBig (bytes : List UInt8) : Nat :=
  ofLe bytes.reverse

/-- The header `sign_image` writes into a body of this length. -/
def signHeaderBytes (imageLen : Nat) : List UInt8 :=
  toLe 4 signAppHeaderMagic ++ toLe 2 signHdrVersion ++ toLe 2 signHdrSize ++
    toLe 4 imageLen

/-- The bytes `sign_image` hashes. -/
def signBuffer (body : List UInt8) : List UInt8 :=
  body.take signDefaultHeaderOffset ++ signHeaderBytes body.length ++
    body.drop (signDefaultHeaderOffset + signHdrSize)

/--
Ideal SHA-256 and ECDSA, and a crypto block that computes them.

`Signed` holds of what the tool has signed.  Only that verifies, and nothing
else has the same digest.
-/
structure IdealCrypto where
  sha256 : List UInt8 → List UInt8
  Signed : List UInt8 → Prop
  sign : List UInt8 → Nat × Nat
  ecdsaValid : (x y : Nat) → (digest : List UInt8) → (r s : Nat) → Bool
  publicKey : List UInt8
  core : CryptoCore
  publicKeySize : publicKey.length = 2 * eccP256Bytes
  digestSize : ∀ m, (sha256 m).length = signHashSize
  noSecondPreimage :
    ∀ m other, Signed m → sha256 other = sha256 m → other = m
  signatureVerifies :
    ∀ m, Signed m →
      ecdsaValid (ofBytesBig (publicKey.take 32))
        (ofBytesBig (publicKey.drop 32)) (sha256 m) (sign (sha256 m)).1
        (sign (sha256 m)).2 = true
  unforgeable :
    ∀ digest r s,
      ecdsaValid (ofBytesBig (publicKey.take 32))
          (ofBytesBig (publicKey.drop 32)) digest r s = true →
        ∃ m, Signed m ∧ sha256 m = digest
  coreSha : ∀ m, core.sha m = some (sha256 m)
  coreVerify :
    ∀ sig hash keyX keyY,
      sig.length = 64 → keyX.length = 32 → keyY.length = 32 →
        core.eccVerifyHash sig hash keyX keyY =
          some
            (if
                ecdsaValid (ofLe keyX) (ofLe keyY) hash (ofLe (sig.take 32))
                  (ofLe (sig.drop 32)) then
              1
            else
              0)

/-- The image lies in memory from `base` on. -/
def ImageAt (mem : UInt32 → UInt8) (base : UInt32) (image : List UInt8) :
    Prop :=
  ∀ i < image.length, mem (base + UInt32.ofNat i) = image.getD i 0

section Layout

variable {mem : UInt32 → UInt8} {base : UInt32}

/-- A part of a placed image is read where it lies. -/
theorem memBytes_segment
    {image before segment after : List UInt8}
    (placed : ImageAt mem base image)
    (parts : image = before ++ segment ++ after)
    {offset n : Nat}
    (starts : before.length = offset)
    (ends : segment.length = n) :
    memBytes mem (base + UInt32.ofNat offset) n = segment := by
  subst parts starts ends
  refine List.ext_getElem (by simp) fun i inMemory inSegment => ?_
  have inImage :
      before.length + i < (before ++ segment ++ after).length := by
    simp only [List.length_append]
    omega
  have read := placed (before.length + i) inImage
  rw [UInt32.ofNat_add, ← UInt32.add_assoc] at read
  simp only [memBytes, List.getElem_map, List.getElem_range, read]
  rw [List.getD_eq_getElem?_getD, List.append_assoc,
    List.getElem?_append_right (Nat.le_add_right _ _),
    List.getElem?_append_left (by omega)]
  simp [inSegment]

/-- A number in a placed image is read where it lies. -/
theorem memU32_segment
    {image before after : List UInt8}
    {value : Nat}
    (placed : ImageAt mem base image)
    (parts : image = before ++ toLe 4 value ++ after)
    {offset : Nat}
    (starts : before.length = offset) :
    memU32 mem (base + UInt32.ofNat offset) = UInt32.ofNat value := by
  rw [memU32, memBytes_segment placed parts starts (length_toLe 4 value),
    ofLe_toLe]
  exact UInt32.toNat_inj.mp (by simp)

/-- The same for a number of two bytes. -/
theorem memU16_segment
    {image before after : List UInt8}
    {value : Nat}
    (placed : ImageAt mem base image)
    (parts : image = before ++ toLe 2 value ++ after)
    {offset : Nat}
    (starts : before.length = offset) :
    memU16 mem (base + UInt32.ofNat offset) = UInt16.ofNat value := by
  rw [memU16, memBytes_segment placed parts starts (length_toLe 2 value),
    ofLe_toLe]
  exact UInt16.toNat_inj.mp (by simp)

/-- Reversing 32 bytes. -/
theorem reverse32_eq
    {bytes rest : List UInt8}
    (size : bytes.length = 32) :
    reverse32 (bytes ++ rest) = bytes.reverse := by
  refine List.ext_getElem (by simp [reverse32, size]) fun i inRange inBytes => ?_
  have small : i < 32 := by simpa [reverse32] using inRange
  simp only [reverse32, List.getElem_map, List.getElem_range,
    List.getElem_reverse, size]
  rw [List.getD_eq_getElem?_getD, List.getElem?_append_left (by omega),
    List.getElem?_eq_getElem (by omega)]
  rfl

end Layout

theorem structPack_eq_some
    {width value : Nat}
    {bytes : List UInt8} :
    structPack width value = some bytes ↔
      value < 256 ^ width ∧ bytes = toLe width value := by
  unfold structPack
  split <;> simp_all [eq_comm]

theorem toBytesBig_eq_some
    {width value : Nat}
    {bytes : List UInt8} :
    toBytesBig width value = some bytes ↔
      value < 256 ^ width ∧ bytes = (toLe width value).reverse := by
  unfold toBytesBig
  split <;> simp_all [eq_comm]

/-- The header is written when the length fits its field. -/
theorem signHeader_eq_some
    {imageLen : Nat}
    {header : List UInt8}
    (packed : signHeader imageLen = some header) :
    header = signHeaderBytes imageLen := by
  simp only [signHeader, Option.bind_eq_bind, Option.bind_eq_some_iff,
    structPack_eq_some] at packed
  rcases packed with ⟨_, ⟨_, rfl⟩, _, ⟨_, rfl⟩, _, ⟨_, rfl⟩, _, ⟨_, rfl⟩, same⟩
  exact (Option.some.inj same).symm

/-- What `sign_image` writes, when it writes something. -/
theorem signImage_eq
    {sha256 : List UInt8 → List UInt8}
    {sign : List UInt8 → Nat × Nat}
    {body image : List UInt8}
    {keyId : Nat}
    (written :
      signImage sha256 sign body keyId signDefaultHeaderOffset = some image) :
    let signature := sign (sha256 (signBuffer body))
    signDefaultHeaderOffset + signHdrSize ≤ body.length ∧
      signature.1 < 256 ^ 32 ∧ signature.2 < 256 ^ 32 ∧ keyId < 256 ^ 4 ∧
      image =
        signBuffer body ++
          (sha256 (signBuffer body) ++
            ((toLe 32 signature.1).reverse ++ (toLe 32 signature.2).reverse) ++
            toLe 4 keyId) := by
  unfold signImage at written
  by_cases tooSmall : signDefaultHeaderOffset + signHdrSize > body.length
  · simp [tooSmall] at written
  simp only [tooSmall, if_false, Option.bind_eq_bind, Option.bind_eq_some_iff,
    structPack_eq_some, toBytesBig_eq_some] at written
  rcases written with
    ⟨header, headed, _, ⟨rFits, rfl⟩, _, ⟨sFits, rfl⟩, _, ⟨idFits, rfl⟩, same⟩
  cases signHeader_eq_some headed
  split at same
  · cases same
  · exact
      ⟨Nat.not_lt.mp tooSmall, rFits, sFits, idFits,
        (Option.some.inj same).symm⟩

/-- The header replaces as many bytes of the body. -/
theorem length_signBuffer
    {body : List UInt8}
    (large : signDefaultHeaderOffset + signHdrSize ≤ body.length) :
    (signBuffer body).length = body.length := by
  simp only [signDefaultHeaderOffset, signHdrSize] at large
  simp only [signBuffer, signHeaderBytes, signDefaultHeaderOffset, signHdrSize,
    List.length_append, List.length_take, List.length_drop, length_toLe]
  omega

section OtherCore

variable (core : CryptoCore) (mem : UInt32 → UInt8) (keys : List CryptoKeyEntry)

/-- What the handler makes of a verify request. -/
def verifyVerdict (base len keyId : UInt32) : CryptoVerdict :=
  match (cryptoKeystoreLookup keys keyId).bind CryptoKeyEntry.pubkey with
  | none => .invalid
  | some pubkey =>
      if pubkey.length = 2 * eccP256Bytes then
        doVerifyImage core mem base len pubkey
      else
        .invalid

/-- The verdict comes back as the handler gives it. -/
theorem cryptoVerifyDelivered_eq
    (hashHandler macHandler : CryptoMsg → Option CryptoMsg)
    (base len keyId : UInt32) :
    cryptoVerifyDelivered (cm0pHandlers core mem keys hashHandler macHandler)
        base len keyId =
      verifyVerdict core mem keys base len keyId := by
  have short :
      (cryptoMakeVerifyRequest base len keyId).length.toNat ≤
        cryptoMaxPayload := by
    change 12 ≤ 128
    decide
  have encoded :=
    @cryptoMsgEncode_of_fits _ cryptoMsgMaxWire short
      (by change 3 + 12 ≤ 131; decide)
  have decoded := cryptoMsgDecode_wire short []
  rw [List.append_nil, cryptoMakeVerifyRequest_trimmed] at decoded
  have handled :
      cryptoHandle (cm0pHandlers core mem keys hashHandler macHandler)
          (cryptoMakeVerifyRequest base len keyId) =
        some
          (cryptoMakeVerdict cryptoOpVerifyImage
            (verifyVerdict core mem keys base len keyId)) := by
    have op :
        (cryptoMakeVerifyRequest base len keyId).opCode = cryptoOpVerifyImage :=
      rfl
    have found :
        findHandler (cm0pHandlers core mem keys hashHandler macHandler)
            cryptoOpVerifyImage =
          some ⟨cryptoOpVerifyImage, some (verifyHandler core mem keys)⟩ := by
      simp [findHandler, cm0pHandlers, cryptoOpHash, cryptoOpVerifyImage]
    rw [cryptoHandle, op, found]
    simp only [verifyHandler, cryptoParseVerifyRequest_make]
    rfl
  have answered (v : CryptoVerdict) :
      (cryptoMsgEncode (cryptoMakeVerdict cryptoOpVerifyImage v)
        cryptoMsgMaxWire).map (fun resp => (cryptoReadVerdict resp).1) =
          some v := by
    cases v <;> rfl
  have verdict := answered (verifyVerdict core mem keys base len keyId)
  rw [Option.map_eq_some_iff] at verdict
  rcases verdict with ⟨resp, respEncoded, read⟩
  simp only [cryptoVerifyDelivered, encoded, cryptoDispatch, decoded, handled,
    respEncoded, read]

end OtherCore

section Ideal

variable (ideal : IdealCrypto) (mem : UInt32 → UInt8)

/-- A signature of the ideal curve, big-endian as it is stored. -/
def IdealCrypto.verifies (digest sig : List UInt8) : Bool :=
  ideal.ecdsaValid (ofBytesBig (ideal.publicKey.take 32))
    (ofBytesBig (ideal.publicKey.drop 32)) digest (ofBytesBig (sig.take 32))
    (ofBytesBig (sig.drop 32))

/-- Both halves of 64 bytes, reversed. -/
theorem reverse32_halves
    {bytes : List UInt8}
    (size : bytes.length = 64) :
    reverse32 bytes = (bytes.take 32).reverse ∧
      reverse32 (bytes.drop eccP256Bytes) = (bytes.drop 32).reverse := by
  constructor
  · calc
      reverse32 bytes = reverse32 (bytes.take 32 ++ bytes.drop 32) := by
        rw [List.take_append_drop]
      _ = (bytes.take 32).reverse := reverse32_eq (by simp [size])
  · calc
      reverse32 (bytes.drop 32) = reverse32 (bytes.drop 32 ++ []) := by
        rw [List.append_nil]
      _ = (bytes.drop 32).reverse := reverse32_eq (by simp [size])

/-- The driver verifies what it is handed in its own byte order. -/
theorem IdealCrypto.driver_verifies
    (digest : List UInt8)
    {sig : List UInt8}
    (size : sig.length = 64) :
    ideal.core.eccVerifyHash
        (reverse32 sig ++ reverse32 (sig.drop eccP256Bytes)) digest
        (reverse32 ideal.publicKey)
        (reverse32 (ideal.publicKey.drop eccP256Bytes)) =
      some (if ideal.verifies digest sig then 1 else 0) := by
  have keySize := ideal.publicKeySize
  simp only [eccP256Bytes] at keySize
  rw [(reverse32_halves size).1, (reverse32_halves size).2,
    (reverse32_halves keySize).1, (reverse32_halves keySize).2,
    ideal.coreVerify _ _ _ _ (by simp [size]) (by simp [keySize])
      (by simp [keySize]),
    List.take_left' (by simp [size]), List.drop_left' (by simp [size])]
  rfl

/-- When the other core says VALID, whatever is in flash. -/
theorem doVerifyImage_valid (base len : UInt32) :
    doVerifyImage ideal.core mem base len ideal.publicKey = .valid ↔
      ideal.sha256 (memBytes mem base len.toNat) =
          memBytes mem (base + len) 32 ∧
        ideal.verifies (memBytes mem (base + len) 32)
          (memBytes mem (base + len + 32) 64) = true := by
  have noOffset : base + len + trailerHashOff = base + len :=
    UInt32.add_zero _
  have driver :=
    ideal.driver_verifies (ideal.sha256 (memBytes mem base len.toNat))
      (@length_memBytes mem (base + len + trailerSigOff) 64)
  simp only [doVerifyImage, ideal.coreSha, noOffset, driver]
  by_cases same :
      ideal.sha256 (memBytes mem base len.toNat) = memBytes mem (base + len) 32
  · rw [← same]
    simp only [ne_eq, not_true_eq_false, if_false, true_and]
    change (if _ = _ then _ else _) = _ ↔ _
    split_ifs <;> simp_all [trailerSigOff]
  · simp [same]

end Ideal

/-- The digest's signature as `sign_image` stores it. -/
def IdealCrypto.storedSignature (ideal : IdealCrypto) (digest : List UInt8) :
    List UInt8 :=
  (toLe 32 (ideal.sign digest).1).reverse ++
    (toLe 32 (ideal.sign digest).2).reverse

/--
Everything the bootloader and the other core read of a signed image, each at
the address they read it at, is what the host wrote.
-/
structure SignedAt
    (ideal : IdealCrypto)
    (body : List UInt8)
    (keyId : Nat)
    (mem : UInt32 → UInt8)
    (base : UInt32) : Prop where
  header :
    memAppHeader mem (base + fblAppHeaderOffset) =
      ⟨fblAppHeaderMagic, 1, 12, UInt32.ofNat body.length⟩
  covered : memBytes mem base body.length = signBuffer body
  storedHash :
    memBytes mem (base + UInt32.ofNat body.length + trailerHashOff) 32 =
      ideal.sha256 (signBuffer body)
  storedSig :
    memBytes mem (base + UInt32.ofNat body.length + trailerSigOff) 64 =
      ideal.storedSignature (ideal.sha256 (signBuffer body))
  storedKeyId :
    memU32 mem
        (base + UInt32.ofNat body.length + FblDigestAlgo.sha256.digestSize +
          FblDigestAlgo.sha256.sigSize) = UInt32.ofNat keyId
  msp : memU32 mem base = UInt32.ofNat (ofLe (body.take 4))
  resetVector :
    memU32 mem (base + 4) = UInt32.ofNat (ofLe ((body.drop 4).take 4))

section SignedImage

variable
  {ideal : IdealCrypto}
  {body image : List UInt8}
  {keyId : Nat}
  {mem : UInt32 → UInt8}
  {base : UInt32}

/-- The header is read as it was written. -/
theorem header_of_image
    (large : signDefaultHeaderOffset + signHdrSize ≤ body.length)
    {trailer : List UInt8}
    (placed : ImageAt mem base (signBuffer body ++ trailer)) :
    memAppHeader mem (base + fblAppHeaderOffset) =
      ⟨fblAppHeaderMagic, 1, 12, UInt32.ofNat body.length⟩ := by
  simp only [signDefaultHeaderOffset, signHdrSize] at large
  let before := body.take signDefaultHeaderOffset
  let after :=
    body.drop (signDefaultHeaderOffset + signHdrSize) ++ trailer
  have size : before.length = 256 := by
    simp only [before, signDefaultHeaderOffset, List.length_take]
    omega
  have address (k : Nat) :
      base + fblAppHeaderOffset + UInt32.ofNat k =
        base + UInt32.ofNat (256 + k) := by
    rw [UInt32.ofNat_add, ← UInt32.add_assoc]
    rfl
  have magic :
      memU32 mem (base + UInt32.ofNat 256) = UInt32.ofNat signAppHeaderMagic :=
    memU32_segment placed
      (show _ =
          before ++ toLe 4 signAppHeaderMagic ++
            (toLe 2 signHdrVersion ++ toLe 2 signHdrSize ++
              toLe 4 body.length ++ after) by
        simp [signBuffer, signHeaderBytes, before, after])
      size
  have version :
      memU16 mem (base + UInt32.ofNat (256 + 4)) = UInt16.ofNat signHdrVersion :=
    memU16_segment placed
      (show _ =
          (before ++ toLe 4 signAppHeaderMagic) ++ toLe 2 signHdrVersion ++
            (toLe 2 signHdrSize ++ toLe 4 body.length ++ after) by
        simp [signBuffer, signHeaderBytes, before, after])
      (by simp [size])
  have hdrSize :
      memU16 mem (base + UInt32.ofNat (256 + 6)) = UInt16.ofNat signHdrSize :=
    memU16_segment placed
      (show _ =
          (before ++ toLe 4 signAppHeaderMagic ++ toLe 2 signHdrVersion) ++
            toLe 2 signHdrSize ++ (toLe 4 body.length ++ after) by
        simp [signBuffer, signHeaderBytes, before, after])
      (by simp [size])
  have imageLen :
      memU32 mem (base + UInt32.ofNat (256 + 8)) = UInt32.ofNat body.length :=
    memU32_segment placed
      (show _ =
          (before ++ toLe 4 signAppHeaderMagic ++ toLe 2 signHdrVersion ++
            toLe 2 signHdrSize) ++ toLe 4 body.length ++ after by
        simp [signBuffer, signHeaderBytes, before, after])
      (by simp [size])
  rw [← address] at version hdrSize imageLen
  exact FblAppHeader.mk.injEq .. |>.mpr ⟨magic, version, hdrSize, imageLen⟩

/-- The vectors are the body's, which the header does not reach. -/
theorem vectors_of_image
    (large : signDefaultHeaderOffset + signHdrSize ≤ body.length)
    {trailer : List UInt8}
    (placed : ImageAt mem base (signBuffer body ++ trailer)) :
    memU32 mem base = UInt32.ofNat (ofLe (body.take 4)) ∧
      memU32 mem (base + 4) = UInt32.ofNat (ofLe ((body.drop 4).take 4)) := by
  simp only [signDefaultHeaderOffset, signHdrSize] at large
  let after :=
    signHeaderBytes body.length ++
      body.drop (signDefaultHeaderOffset + signHdrSize) ++ trailer
  have firstPart : body.take 256 = body.take 4 ++ (body.drop 4).take 252 :=
    (List.take_add : body.take (4 + 252) = _)
  have secondPart :
      (body.drop 4).take 252 =
        (body.drop 4).take 4 ++ ((body.drop 4).drop 4).take 248 :=
    (List.take_add : (body.drop 4).take (4 + 248) = _)
  have parts :
      signBuffer body ++ trailer =
        body.take 4 ++ (body.drop 4).take 4 ++
          (((body.drop 4).drop 4).take 248 ++ after) := by
    rw [signBuffer, show signDefaultHeaderOffset = 256 from rfl, firstPart,
      secondPart]
    simp only [after, List.append_assoc]
    rfl
  have first :
      memBytes mem (base + UInt32.ofNat 0) 4 = body.take 4 :=
    memBytes_segment placed
      (show _ =
          [] ++ body.take 4 ++
            ((body.drop 4).take 4 ++
              (((body.drop 4).drop 4).take 248 ++ after)) by
        rw [parts, List.nil_append, List.append_assoc])
      rfl (by simp; omega)
  have second :
      memBytes mem (base + UInt32.ofNat 4) 4 = (body.drop 4).take 4 :=
    memBytes_segment placed parts (by simp; omega) (by simp; omega)
  rw [show base + UInt32.ofNat 0 = base from UInt32.add_zero _] at first
  exact ⟨by rw [memU32, first], by rw [← second]; rfl⟩

/-- A written image at its place is read as it was written. -/
theorem signedAt_of_image
    (written :
      signImage ideal.sha256 ideal.sign body keyId signDefaultHeaderOffset =
        some image)
    (placed : ImageAt mem base image) :
    SignedAt ideal body keyId mem base := by
  obtain ⟨large, -, -, -, rfl⟩ := signImage_eq written
  let buffer := signBuffer body
  let digest := ideal.sha256 buffer
  let sig := ideal.storedSignature digest
  have bufferSize : buffer.length = body.length := length_signBuffer large
  have digestSize : digest.length = 32 := ideal.digestSize buffer
  have sigSize : sig.length = 64 := by
    simp [sig, IdealCrypto.storedSignature]
  have address (k : Nat) :
      base + UInt32.ofNat body.length + UInt32.ofNat k =
        base + UInt32.ofNat (body.length + k) := by
    rw [UInt32.ofNat_add, ← UInt32.add_assoc]
  have atStart : base + UInt32.ofNat 0 = base := UInt32.add_zero _
  change ImageAt mem base (buffer ++ (digest ++ sig ++ toLe 4 keyId)) at placed
  have covered :
      memBytes mem (base + UInt32.ofNat 0) body.length = buffer :=
    memBytes_segment placed
      (show _ = [] ++ buffer ++ (digest ++ sig ++ toLe 4 keyId) by simp) rfl
      bufferSize
  have storedHash :
      memBytes mem (base + UInt32.ofNat (body.length + 0)) 32 = digest :=
    memBytes_segment placed
      (show _ = buffer ++ digest ++ (sig ++ toLe 4 keyId) by simp) bufferSize
      digestSize
  have storedSig :
      memBytes mem (base + UInt32.ofNat (body.length + 32)) 64 = sig :=
    memBytes_segment placed
      (show _ = (buffer ++ digest) ++ sig ++ toLe 4 keyId by simp)
      (by simp [bufferSize, digestSize]) sigSize
  have storedKeyId :
      memU32 mem (base + UInt32.ofNat (body.length + (32 + 64))) =
        UInt32.ofNat keyId :=
    memU32_segment placed
      (show _ = (buffer ++ digest ++ sig) ++ toLe 4 keyId ++ [] by simp)
      (by simp [bufferSize, digestSize, sigSize])
  rw [← address] at storedHash storedSig storedKeyId
  rw [UInt32.ofNat_add, ← UInt32.add_assoc] at storedKeyId
  have vectors := vectors_of_image large placed
  exact
    { header := header_of_image large placed
      covered := atStart ▸ covered
      storedHash := storedHash
      storedSig := storedSig
      storedKeyId := storedKeyId
      msp := vectors.1
      resetVector := vectors.2 }

/-- The storage of a signature loses nothing of its two numbers. -/
theorem storedSignature_verifies
    (written :
      signImage ideal.sha256 ideal.sign body keyId signDefaultHeaderOffset =
        some image)
    (signed : ideal.Signed (signBuffer body)) :
    ideal.verifies (ideal.sha256 (signBuffer body))
      (ideal.storedSignature (ideal.sha256 (signBuffer body))) = true := by
  obtain ⟨-, rFits, sFits, -⟩ := signImage_eq written
  rw [IdealCrypto.verifies, IdealCrypto.storedSignature,
    List.take_left' (by simp), List.drop_left' (by simp), ofBytesBig,
    ofBytesBig, ofBytesBig, ofBytesBig, List.reverse_reverse,
    List.reverse_reverse, ofLe_toLe, ofLe_toLe, Nat.mod_eq_of_lt rFits,
    Nat.mod_eq_of_lt sFits]
  exact ideal.signatureVerifies _ signed

end SignedImage

section Checks

variable
  {mem : UInt32 → UInt8}
  {cryptoVerify : UInt32 → UInt32 → UInt32 → CryptoVerdict}

/-- The checks, of the application region. -/
theorem fblAppImageValid_of_region :
    fblAppImageValid .sha256 mem cryptoVerify fblAppFlashBase.toUInt32
          fblAppFlashSize.toUInt32 = true ↔
      let hdr := memAppHeader mem (fblAppFlashBase.toUInt32 + fblAppHeaderOffset)
      hdr.magic = fblAppHeaderMagic ∧
        fblAppHeaderOffset + fblAppHeaderSize ≤ hdr.imageLen ∧
        hdr.imageLen ≤
          fblAppFlashSize.toUInt32 - FblDigestAlgo.sha256.trailerSize ∧
        cryptoVerify fblAppFlashBase.toUInt32 hdr.imageLen
            (memU32 mem
              (fblAppFlashBase.toUInt32 + hdr.imageLen +
                FblDigestAlgo.sha256.digestSize +
                  FblDigestAlgo.sha256.sigSize)) = .valid ∧
        fblVectorSane (memU32 mem fblAppFlashBase.toUInt32)
          (memU32 mem (fblAppFlashBase.toUInt32 + 4)) = true := by
  have based : fblAppFlashBase.toUInt32 ≠ 0 := by decide
  have roomy :
      ¬fblAppFlashSize.toUInt32 <
        fblAppHeaderOffset + fblAppHeaderSize +
          FblDigestAlgo.sha256.trailerSize := by
    decide
  rw [fblAppImageValid_iff]
  simp only [based, roomy, not_false_eq_true, true_and, ne_eq, UInt32.not_lt,
    gt_iff_lt, fblImageAuthentic, decide_eq_true_eq]

end Checks

section Agreement

variable
  {ideal : IdealCrypto}
  {keys : List CryptoKeyEntry}
  {mem : UInt32 → UInt8}
  {base len keyId : UInt32}

/-- The bytes of two ranges agree exactly when each byte does. -/
theorem memBytes_eq_iff
    {other : UInt32 → UInt8}
    {n : Nat} :
    memBytes other base n = memBytes mem base n ↔
      ∀ i < n, other (base + UInt32.ofNat i) = mem (base + UInt32.ofNat i) := by
  simp [memBytes]

/-- Under a key identifier of the matching key, that key verifies. -/
theorem verifyVerdict_of_known
    (known :
      (cryptoKeystoreLookup keys keyId).bind CryptoKeyEntry.pubkey =
        some ideal.publicKey) :
    verifyVerdict ideal.core mem keys base len keyId =
      doVerifyImage ideal.core mem base len ideal.publicKey := by
  simp [verifyVerdict, known, ideal.publicKeySize]

/-- When no other key is held, VALID comes from that key. -/
theorem doVerifyImage_of_verdict
    (onlyKey :
      ∀ entry ∈ keys, ∀ pubkey, entry.pubkey = some pubkey →
        pubkey = ideal.publicKey)
    (valid : verifyVerdict ideal.core mem keys base len keyId = .valid) :
    doVerifyImage ideal.core mem base len ideal.publicKey = .valid := by
  unfold verifyVerdict at valid
  cases found :
      (cryptoKeystoreLookup keys keyId).bind CryptoKeyEntry.pubkey with
  | none =>
      simp [found] at valid
  | some pubkey =>
      rcases Option.bind_eq_some_iff.mp found with ⟨entry, looked, held⟩
      have same :=
        onlyKey entry (List.mem_of_find?_eq_some looked) pubkey held
      rw [found] at valid
      dsimp only at valid
      split at valid
      · exact same ▸ valid
      · cases valid

/-- Only what was signed is VALID, under the ideal primitives. -/
theorem signed_of_doVerifyImage
    (valid :
      doVerifyImage ideal.core mem base len ideal.publicKey = .valid) :
    ideal.Signed (memBytes mem base len.toNat) := by
  rcases (doVerifyImage_valid ideal mem base len).mp valid with
    ⟨intact, authentic⟩
  rcases ideal.unforgeable _ _ _ authentic with ⟨m, signed, digest⟩
  have same := ideal.noSecondPreimage m _ signed (intact.trans digest.symm)
  exact same ▸ signed

/-- What is written is the body and a trailer of a fixed size. -/
theorem length_image
    {body image : List UInt8}
    {keyId : Nat}
    (written :
      signImage ideal.sha256 ideal.sign body keyId signDefaultHeaderOffset =
        some image) :
    image.length = body.length + 100 := by
  obtain ⟨large, -, -, -, rfl⟩ := signImage_eq written
  simp [length_signBuffer large, ideal.digestSize, signHashSize]

/-- A body with a changed byte does not verify against the trailer it had. -/
theorem changed_body_does_not_verify
    {body : List UInt8}
    {keyId : Nat}
    (here : SignedAt ideal body keyId mem base)
    (signed : ideal.Signed (signBuffer body))
    (small : body.length < 2 ^ 32)
    {changed : UInt32 → UInt8}
    (sameTrailer :
      ∀ i, body.length ≤ i → i < body.length + 100 →
        changed (base + UInt32.ofNat i) = mem (base + UInt32.ofNat i))
    (otherBody :
      ∃ i < body.length,
        changed (base + UInt32.ofNat i) ≠ mem (base + UInt32.ofNat i)) :
    doVerifyImage ideal.core changed base (UInt32.ofNat body.length)
        ideal.publicKey ≠ .valid := by
  intro valid
  rcases (doVerifyImage_valid ideal changed base _).mp valid with ⟨intact, -⟩
  have length : (UInt32.ofNat body.length).toNat = body.length :=
    UInt32.toNat_ofNat_of_lt' small
  have sameHash :
      memBytes changed (base + UInt32.ofNat body.length) 32 =
        memBytes mem (base + UInt32.ofNat body.length) 32 := by
    refine memBytes_eq_iff.mpr fun i inHash => ?_
    rw [UInt32.add_assoc, ← UInt32.ofNat_add]
    exact sameTrailer _ (by omega) (by omega)
  have stored := here.storedHash
  rw [show base + UInt32.ofNat body.length + trailerHashOff =
    base + UInt32.ofNat body.length from UInt32.add_zero _] at stored
  rw [length, sameHash, stored] at intact
  have sameBody := ideal.noSecondPreimage _ _ signed intact
  rcases otherBody with ⟨i, covered, differs⟩
  exact differs (memBytes_eq_iff.mp (sameBody.trans here.covered.symm) i covered)

/--
A written image at the application base is valid: what the bootloader and the
other core read is what the host wrote, at the same offsets, and the verdict is
VALID.  A change of covered bytes that leaves the length in the header as it
was gives neither; and whatever is in flash, a range that is valid was signed.
-/
theorem signing_and_verifying_agree
    {body image : List UInt8}
    {keyId : Nat}
    (written :
      signImage ideal.sha256 ideal.sign body keyId signDefaultHeaderOffset =
        some image)
    (signed : ideal.Signed (signBuffer body))
    (vectors :
      fblVectorSane (UInt32.ofNat (ofLe (body.take 4)))
        (UInt32.ofNat (ofLe ((body.drop 4).take 4))) = true)
    (fits : image.length ≤ fblAppFlashSize)
    (known :
      (cryptoKeystoreLookup keys (UInt32.ofNat keyId)).bind
          CryptoKeyEntry.pubkey = some ideal.publicKey)
    (onlyKey :
      ∀ entry ∈ keys, ∀ pubkey, entry.pubkey = some pubkey →
        pubkey = ideal.publicKey)
    (placed : ImageAt mem fblAppFlashBase.toUInt32 image)
    (hashHandler macHandler : CryptoMsg → Option CryptoMsg) :
    let base := fblAppFlashBase.toUInt32
    let len := UInt32.ofNat body.length
    let verdict (flash : UInt32 → UInt8) :=
      cryptoVerifyDelivered
        (cm0pHandlers ideal.core flash keys hashHandler macHandler)
    let valid (flash : UInt32 → UInt8) :=
      fblAppImageValid .sha256 flash (verdict flash) base
        fblAppFlashSize.toUInt32
    SignedAt ideal body keyId mem base ∧
      verdict mem base len (UInt32.ofNat keyId) = .valid ∧
      valid mem = true ∧
      (∀ changed : UInt32 → UInt8,
        (∀ i, body.length ≤ i → i < image.length →
          changed (base + UInt32.ofNat i) = mem (base + UInt32.ofNat i)) →
        (∃ i < body.length,
          changed (base + UInt32.ofNat i) ≠ mem (base + UInt32.ofNat i)) →
        (memAppHeader changed (base + fblAppHeaderOffset)).imageLen = len →
          verdict changed base len (UInt32.ofNat keyId) ≠ .valid ∧
            valid changed = false) ∧
      ∀ flash : UInt32 → UInt8,
        valid flash = true →
          ideal.Signed
            (memBytes flash base
              (memAppHeader flash
                (base + fblAppHeaderOffset)).imageLen.toNat) := by
  intro base len verdict valid
  have here : SignedAt ideal body keyId mem base :=
    signedAt_of_image written placed
  have size := length_image written
  rw [size, fblAppFlashSize] at fits
  have small : body.length < 2 ^ 32 := by omega
  have length : len.toNat = body.length := UInt32.toNat_ofNat_of_lt' small
  have verdictEq (flash : UInt32 → UInt8) (l id : UInt32) :
      verdict flash base l id =
        verifyVerdict ideal.core flash keys base l id :=
    cryptoVerifyDelivered_eq _ _ _ _ _ _ _ _
  have noOffset : base + len + trailerHashOff = base + len :=
    UInt32.add_zero _
  have verified : verdict mem base len (UInt32.ofNat keyId) = .valid := by
    rw [verdictEq, verifyVerdict_of_known known, doVerifyImage_valid, length,
      here.covered]
    have stored := here.storedHash
    rw [noOffset] at stored
    rw [stored]
    refine ⟨rfl, ?_⟩
    have storedSig := here.storedSig
    rw [trailerSigOff] at storedSig
    rw [storedSig]
    exact storedSignature_verifies written signed
  have validMeans (flash : UInt32 → UInt8) (isValid : valid flash = true) :
      doVerifyImage ideal.core flash base
          (memAppHeader flash (base + fblAppHeaderOffset)).imageLen
          ideal.publicKey = .valid := by
    have checks := (fblAppImageValid_of_region.mp isValid).2.2.2.1
    exact doVerifyImage_of_verdict onlyKey ((verdictEq _ _ _).symm.trans checks)
  refine ⟨here, verified, ?_, ?_, ?_⟩
  · have large := (signImage_eq written).1
    simp only [signDefaultHeaderOffset, signHdrSize] at large
    refine fblAppImageValid_of_region.mpr ?_
    rw [here.header]
    refine ⟨rfl, ?_, ?_, ?_, ?_⟩
    · rw [UInt32.le_iff_toNat_le, length]
      exact large
    · rw [UInt32.le_iff_toNat_le, length]
      change body.length ≤ 851868
      omega
    · change verdict mem base len
        (memU32 mem
          (base + len + FblDigestAlgo.sha256.digestSize +
            FblDigestAlgo.sha256.sigSize)) = _
      rw [here.storedKeyId]
      exact verified
    · rw [here.msp, here.resetVector]
      exact vectors
  · intro changed sameTrailer otherBody sameLength
    have fails :=
      changed_body_does_not_verify here signed small (size ▸ sameTrailer)
        otherBody
    constructor
    · rw [verdictEq, verifyVerdict_of_known known]
      exact fails
    · rw [← Bool.not_eq_true]
      intro isValid
      have means := validMeans changed isValid
      rw [sameLength] at means
      exact fails means
  · exact fun flash isValid => signed_of_doVerifyImage (validMeans flash isValid)

end Agreement

section Nested

/-- A body as short as a body can be. -/
def innerBody : List UInt8 :=
  [0x00, 0x00, 0x02, 0x08, 0x01, 0x01, 0x04, 0x10] ++ List.replicate 260 0

/-- A trailer with this byte for a digest, the signature (1, 1) and key 1. -/
def sampleTrailer (byte : UInt8) : List UInt8 :=
  List.replicate 32 byte ++ ((toLe 32 1).reverse ++ (toLe 32 1).reverse) ++
    toLe 4 1

/-- A body that starts with the shorter one, signed.  Its length differs from
that one's in one byte. -/
def outerBody : List UInt8 :=
  signBuffer innerBody ++ sampleTrailer 1 ++ List.replicate 156 0

/-- The digests of what is signed, and one for everything else. -/
def sampleSha (m : List UInt8) : List UInt8 :=
  if m = signBuffer innerBody then
    List.replicate 32 1
  else if m = signBuffer outerBody then
    List.replicate 32 2
  else
    List.replicate 32 0

/-- The digests of what is signed. -/
def sampleSignedDigest (digest : List UInt8) : Bool :=
  digest = List.replicate 32 1 || digest = List.replicate 32 2

theorem sampleSha_inner : sampleSha (signBuffer innerBody) = List.replicate 32 1 :=
  if_pos rfl

theorem sampleSha_outer : sampleSha (signBuffer outerBody) = List.replicate 32 2 := by
  decide +kernel

/-- An ideal hash and an ideal curve, for the two bodies. -/
def sampleCrypto : IdealCrypto where
  sha256 := sampleSha
  Signed := fun m => m = signBuffer innerBody ∨ m = signBuffer outerBody
  sign := fun _ => (1, 1)
  ecdsaValid := fun _ _ digest _ _ => sampleSignedDigest digest
  publicKey := List.replicate 64 0
  core :=
    { sha := fun m => some (sampleSha m)
      eccVerifyHash := fun _ hash _ _ =>
        some (if sampleSignedDigest hash then 1 else 0) }
  publicKeySize := List.length_replicate
  digestSize := by
    intro m
    unfold sampleSha
    split_ifs <;> exact List.length_replicate
  noSecondPreimage := by
    rintro m other (rfl | rfl) same
    · rw [sampleSha_inner] at same
      by_contra differs
      rw [sampleSha, if_neg differs] at same
      split_ifs at same <;> exact absurd same (by decide)
    · rw [sampleSha_outer] at same
      by_contra differs
      rw [sampleSha, if_neg differs] at same
      split_ifs at same <;> exact absurd same (by decide)
  signatureVerifies := by
    rintro m (rfl | rfl)
    · rw [sampleSha_inner]
      decide
    · rw [sampleSha_outer]
      decide
  unforgeable := by
    intro digest _ _ verified
    rw [sampleSignedDigest, Bool.or_eq_true, decide_eq_true_iff,
      decide_eq_true_iff] at verified
    rcases verified with rfl | rfl
    · exact ⟨_, Or.inl rfl, sampleSha_inner⟩
    · exact ⟨_, Or.inr rfl, sampleSha_outer⟩
  coreSha := fun _ => rfl
  coreVerify := fun _ _ _ _ _ _ _ => rfl

/-- A flash that holds an image at an address, and zeros elsewhere. -/
def flashWith (base : UInt32) (image : List UInt8) : UInt32 → UInt8 :=
  fun address => image.getD (address - base).toNat 0

theorem imageAt_flashWith
    {image : List UInt8}
    (small : image.length ≤ 2 ^ 32)
    (base : UInt32) :
    ImageAt (flashWith base image) base image := by
  intro i inside
  have offset : (base + UInt32.ofNat i - base).toNat = i := by
    rw [UInt32.add_comm, UInt32.add_sub_cancel]
    exact UInt32.toNat_ofNat_of_lt' (Nat.lt_of_lt_of_le inside small)
  rw [flashWith, offset]

/-- The two images. -/
def innerImage : List UInt8 :=
  signBuffer innerBody ++ sampleTrailer 1

def outerImage : List UInt8 :=
  signBuffer outerBody ++ sampleTrailer 2

/-- The other core holds the one key. -/
def sampleKeys : List CryptoKeyEntry :=
  [⟨1, some sampleCrypto.publicKey⟩]

/-- What the bootloader says of the image in a flash. -/
def sampleValid (flash : UInt32 → UInt8) : Bool :=
  fblAppImageValid .sha256 flash
    (cryptoVerifyDelivered
      (cm0pHandlers sampleCrypto.core flash sampleKeys (fun _ => none) fun _ =>
        none))
    fblAppFlashBase.toUInt32 fblAppFlashSize.toUInt32

/-- The shorter image at its place is valid. -/
theorem shortest_image_is_valid :
    sampleValid (flashWith fblAppFlashBase.toUInt32 innerImage) = true :=
  (@signing_and_verifying_agree sampleCrypto sampleKeys
    (flashWith fblAppFlashBase.toUInt32 innerImage) innerBody innerImage 1
    (by decide +kernel) (Or.inl rfl) (by decide +kernel) (by decide +kernel)
    (by decide) (by decide) (imageAt_flashWith (by decide +kernel) _)
    (fun _ => none) fun _ => none).2.2.1

/--
The longer image at its place, with the second byte of its length changed from
2 to 1: what the shorter length names was signed, and is valid.
-/
theorem changed_length_can_stay_valid :
    ¬∀ (ideal : IdealCrypto) (body image : List UInt8) (keyId : Nat)
      (keys : List CryptoKeyEntry) (mem changed : UInt32 → UInt8)
      (hashHandler macHandler : CryptoMsg → Option CryptoMsg),
      signImage ideal.sha256 ideal.sign body keyId signDefaultHeaderOffset =
          some image →
      ideal.Signed (signBuffer body) →
      fblVectorSane (UInt32.ofNat (ofLe (body.take 4)))
          (UInt32.ofNat (ofLe ((body.drop 4).take 4))) = true →
      image.length ≤ fblAppFlashSize →
      (cryptoKeystoreLookup keys (UInt32.ofNat keyId)).bind
          CryptoKeyEntry.pubkey = some ideal.publicKey →
      (∀ entry ∈ keys, ∀ pubkey, entry.pubkey = some pubkey →
        pubkey = ideal.publicKey) →
      ImageAt mem fblAppFlashBase.toUInt32 image →
      (∀ i, body.length ≤ i → i < image.length →
        changed (fblAppFlashBase.toUInt32 + UInt32.ofNat i) =
          mem (fblAppFlashBase.toUInt32 + UInt32.ofNat i)) →
      (∃ i < body.length,
        changed (fblAppFlashBase.toUInt32 + UInt32.ofNat i) ≠
          mem (fblAppFlashBase.toUInt32 + UInt32.ofNat i)) →
        fblAppImageValid .sha256 changed
            (cryptoVerifyDelivered
              (cm0pHandlers ideal.core changed keys hashHandler macHandler))
            fblAppFlashBase.toUInt32 fblAppFlashSize.toUInt32 = false := by
  intro tamperEvident
  let changed : UInt32 → UInt8 :=
    flashWith fblAppFlashBase.toUInt32 (outerImage.set 0x109 1)
  have stillValid : sampleValid changed = true := by decide +kernel
  refine Bool.eq_false_iff.mp ?_ stillValid
  refine
    tamperEvident sampleCrypto outerBody outerImage 1 sampleKeys
      (flashWith fblAppFlashBase.toUInt32 outerImage) changed (fun _ => none)
      (fun _ => none) (by decide +kernel) (Or.inr rfl) (by decide +kernel)
      (by decide +kernel) (by decide) (by decide)
      (imageAt_flashWith (by decide +kernel) _) ?_ ?_
  · intro i past inside
    have bodySize : outerBody.length = 524 := by decide +kernel
    have small : outerImage.length ≤ 2 ^ 32 := by decide +kernel
    have smallChanged : (outerImage.set 0x109 1).length ≤ 2 ^ 32 := by
      rwa [List.length_set]
    have elsewhere : 0x109 ≠ i := by omega
    refine
      (imageAt_flashWith smallChanged _ i (by rwa [List.length_set])).trans ?_
    rw [imageAt_flashWith small _ i inside, List.getD_eq_getElem?_getD,
      List.getElem?_set_ne elsewhere, List.getD_eq_getElem?_getD]
  · exact ⟨0x109, by decide +kernel, by decide +kernel⟩

end Nested

end TraveoBodyDomain
