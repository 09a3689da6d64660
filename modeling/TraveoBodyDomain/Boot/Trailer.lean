import TraveoBodyDomain.Boot.Authentic

/-!
# Splitting a signed image

`parse_trailer` of `sign_image.py`: the host's own reader of what it writes.  It
gives back what was signed, at any header offset; and on a dump of the
application region it finds the parts that the bootloader and the other core
work with, each from its own offsets.
-/

namespace TraveoBodyDomain

open LittleEndian

/-- The `ValueError`s of `parse_trailer`. -/
inductive TrailerError where
  | tooSmall
  | badMagic (magic : Nat)
  | overruns
  deriving Repr, DecidableEq

/-- What `parse_trailer` returns. -/
structure SignedParts where
  covered : List UInt8
  hash : List UInt8
  signature : List UInt8
  keyId : Nat
  deriving Repr, DecidableEq

/-- `parse_trailer`. -/
def parseTrailer (image : List UInt8) (headerOffset : Nat) :
    Except TrailerError SignedParts :=
  if headerOffset + signHdrSize + signTrailerSize > image.length then
    .error .tooSmall
  else
    let magic := ofLe ((image.drop headerOffset).take 4)
    let imageLen := ofLe ((image.drop (headerOffset + 8)).take 4)
    if magic ≠ signAppHeaderMagic then
      .error (.badMagic magic)
    else if imageLen > image.length - signTrailerSize then
      .error .overruns
    else
      let trailer := (image.drop imageLen).take signTrailerSize
      .ok
        { covered := image.take imageLen
          hash := trailer.take signHashSize
          signature := (trailer.drop signHashSize).take signSigSize
          keyId :=
            ofLe ((trailer.drop (signHashSize + signSigSize)).take
              signKeyIdSize) }

/-- The parts of an image that covers this many bytes. -/
def SignedParts.split (image : List UInt8) (imageLen : Nat) : SignedParts where
  covered := image.take imageLen
  hash := (image.drop imageLen).take 32
  signature := (image.drop (imageLen + 32)).take 64
  keyId := ofLe ((image.drop (imageLen + 96)).take 4)

/-- A part of some bytes is found where it lies. -/
theorem slice_segment
    {whole before segment after : List UInt8}
    (parts : whole = before ++ segment ++ after)
    {offset n : Nat}
    (starts : before.length = offset)
    (ends : segment.length = n) :
    (whole.drop offset).take n = segment := by
  subst parts starts ends
  rw [List.append_assoc, List.drop_left, List.take_left]

/-- What it has checked when it returns. -/
theorem parseTrailer_eq_ok_iff
    {image : List UInt8}
    {headerOffset : Nat}
    {parts : SignedParts} :
    parseTrailer image headerOffset = .ok parts ↔
      headerOffset + 112 ≤ image.length ∧
        ofLe ((image.drop headerOffset).take 4) = signAppHeaderMagic ∧
        ∃ imageLen,
          ofLe ((image.drop (headerOffset + 8)).take 4) = imageLen ∧
            imageLen + 100 ≤ image.length ∧ parts = .split image imageLen := by
  have sizes : signHdrSize = 12 ∧ signTrailerSize = 100 := ⟨rfl, rfl⟩
  have refused (error : TrailerError) :
      ¬(Except.error error : Except TrailerError SignedParts) = .ok parts :=
    fun same => nomatch same
  have slice (imageLen off n : Nat) (inside : off + n ≤ 100) :
      (((image.drop imageLen).take 100).drop off).take n =
        (image.drop (imageLen + off)).take n := by
    rw [List.drop_take, List.take_take, Nat.min_eq_left (by omega),
      List.drop_drop]
  simp only [parseTrailer, sizes, exists_eq_left']
  generalize ofLe ((image.drop (headerOffset + 8)).take 4) = imageLen
  have split :
      SignedParts.mk (image.take imageLen)
          (((image.drop imageLen).take 100).take signHashSize)
          ((((image.drop imageLen).take 100).drop signHashSize).take signSigSize)
          (ofLe
            ((((image.drop imageLen).take 100).drop
              (signHashSize + signSigSize)).take signKeyIdSize)) =
        .split image imageLen := by
    have hash := slice imageLen 0 32 (by decide)
    rw [List.drop_zero, Nat.add_zero] at hash
    rw [SignedParts.split, ← hash, ← slice imageLen 32 64 (by decide),
      ← slice imageLen 96 4 (by decide)]
    rfl
  rw [split]
  by_cases small : headerOffset + 12 + 100 > image.length
  · rw [if_pos small]
    exact iff_of_false (refused _) fun checked => absurd checked.1 (by omega)
  by_cases magic :
    ofLe ((image.drop headerOffset).take 4) = signAppHeaderMagic
  case neg =>
    rw [if_neg small, if_pos magic]
    exact iff_of_false (refused _) fun checked => magic checked.2.1
  by_cases past : imageLen > image.length - 100
  · rw [if_neg small, if_neg (not_not.mpr magic), if_pos past]
    exact
      iff_of_false (refused _) fun checked => absurd checked.2.2.1 (by omega)
  · rw [if_neg small, if_neg (not_not.mpr magic), if_neg past,
      Except.ok.injEq, eq_comm]
    exact
      ⟨fun same => ⟨by omega, magic, by omega, same⟩,
        fun checked => checked.2.2.2⟩

/-!
## What was signed
-/

section Signed

variable
  {sha256 : List UInt8 → List UInt8}
  {sign : List UInt8 → Nat × Nat}
  {body image : List UInt8}
  {keyId headerOffset : Nat}

/-- The bytes `sign_image` hashes, with the header at this offset. -/
def signBufferAt (body : List UInt8) (headerOffset : Nat) : List UInt8 :=
  body.take headerOffset ++ signHeaderBytes body.length ++
    body.drop (headerOffset + signHdrSize)

/-- The signature `sign_image` stores, of a digest. -/
def storedSigOf (sign : List UInt8 → Nat × Nat) (digest : List UInt8) :
    List UInt8 :=
  (toLe 32 (sign digest).1).reverse ++ (toLe 32 (sign digest).2).reverse

/-- What `sign_image` writes at any header offset, when it writes something. -/
theorem signImage_at_eq
    (written : signImage sha256 sign body keyId headerOffset = some image) :
    headerOffset + 12 ≤ body.length ∧
      body.length < 256 ^ 4 ∧ keyId < 256 ^ 4 ∧
      (sha256 (signBufferAt body headerOffset)).length = 32 ∧
      image =
        signBufferAt body headerOffset ++
          (sha256 (signBufferAt body headerOffset) ++
            storedSigOf sign (sha256 (signBufferAt body headerOffset)) ++
            toLe 4 keyId) := by
  unfold signImage at written
  by_cases tooSmall : headerOffset + signHdrSize > body.length
  · simp [tooSmall] at written
  simp only [tooSmall, if_false, Option.bind_eq_bind, Option.bind_eq_some_iff,
    structPack_eq_some, toBytesBig_eq_some] at written
  obtain ⟨header, headed, _, ⟨-, rfl⟩, _, ⟨-, rfl⟩, _, ⟨idFits, rfl⟩, same⟩ :=
    written
  have lenFits : body.length < 256 ^ 4 := by
    simp only [signHeader, Option.bind_eq_bind, Option.bind_eq_some_iff,
      structPack_eq_some] at headed
    obtain ⟨_, -, _, -, _, -, _, ⟨fits, -⟩, -⟩ := headed
    exact fits
  cases signHeader_eq_some headed
  split at same
  · cases same
  · next size =>
      have size := not_not.mp size
      simp only [List.length_append, List.length_reverse, length_toLe,
        show signTrailerSize = 100 from rfl] at size
      refine
        ⟨Nat.not_lt.mp tooSmall, lenFits, idFits, ?_,
          (Option.some.inj same).symm⟩
      change (sha256 (signBufferAt body headerOffset)).length + _ + _ = _ at size
      omega

/--
What was signed is read back: the bytes that were hashed, their digest, the
signature as it is stored and the key identifier, wherever the header is.
-/
theorem signed_trailer_round_trips
    (written : signImage sha256 sign body keyId headerOffset = some image) :
    parseTrailer image headerOffset =
      .ok
        { covered := signBufferAt body headerOffset
          hash := sha256 (signBufferAt body headerOffset)
          signature :=
            storedSigOf sign (sha256 (signBufferAt body headerOffset))
          keyId := keyId } := by
  obtain ⟨large, lenFits, idFits, hashed, parts⟩ := signImage_at_eq written
  let buffer := signBufferAt body headerOffset
  let digest := sha256 buffer
  let sig := storedSigOf sign digest
  have bufferSize : buffer.length = body.length := by
    simp only [buffer, signBufferAt, signHeaderBytes, signHdrSize,
      List.length_append, List.length_take, List.length_drop, length_toLe]
    omega
  have digestSize : digest.length = 32 := hashed
  have sigSize : sig.length = 64 := by
    simp [sig, storedSigOf]
  have number (value : Nat) (fits : value < 256 ^ 4) :
      ofLe (toLe 4 value) = value := by
    rw [ofLe_toLe, Nat.mod_eq_of_lt fits]
  have start : (body.take headerOffset).length = headerOffset := by
    rw [List.length_take]
    omega
  have parts : image = buffer ++ (digest ++ sig ++ toLe 4 keyId) := parts
  have size : image.length = body.length + 100 := by
    simp only [parts, List.length_append, bufferSize, digestSize, sigSize,
      length_toLe]
  have magic : (image.drop headerOffset).take 4 = toLe 4 signAppHeaderMagic :=
    slice_segment
      (show image =
          body.take headerOffset ++ toLe 4 signAppHeaderMagic ++
            (toLe 2 signHdrVersion ++ toLe 2 signHdrSize ++
              toLe 4 body.length ++ body.drop (headerOffset + signHdrSize) ++
              (digest ++ sig ++ toLe 4 keyId)) by
        simp [parts, buffer, signBufferAt, signHeaderBytes])
      start (length_toLe 4 _)
  have imageLen :
      (image.drop (headerOffset + 8)).take 4 = toLe 4 body.length :=
    slice_segment
      (show image =
          (body.take headerOffset ++ toLe 4 signAppHeaderMagic ++
              toLe 2 signHdrVersion ++ toLe 2 signHdrSize) ++
            toLe 4 body.length ++
              (body.drop (headerOffset + signHdrSize) ++
                (digest ++ sig ++ toLe 4 keyId)) by
        simp [parts, buffer, signBufferAt, signHeaderBytes])
      (by simp only [List.length_append, start, length_toLe])
      (length_toLe 4 _)
  refine
    parseTrailer_eq_ok_iff.mpr
      ⟨by omega, ?_, body.length, ?_, by omega, ?_⟩
  · rw [magic]
    exact number _ (by decide)
  · rw [imageLen]
    exact number _ lenFits
  · have covered : image.take body.length = buffer := by
      rw [parts, ← bufferSize]
      exact List.take_left
    have hash : (image.drop body.length).take 32 = digest :=
      slice_segment
        (show image = buffer ++ digest ++ (sig ++ toLe 4 keyId) by
          simp [parts])
        bufferSize digestSize
    have signature : (image.drop (body.length + 32)).take 64 = sig :=
      slice_segment
        (show image = (buffer ++ digest) ++ sig ++ toLe 4 keyId by
          simp [parts])
        (by rw [List.length_append, bufferSize, digestSize]) sigSize
    have id : (image.drop (body.length + 96)).take 4 = toLe 4 keyId :=
      slice_segment
        (show image = (buffer ++ digest ++ sig) ++ toLe 4 keyId ++ [] by
          simp [parts])
        (by
          rw [List.length_append, List.length_append, bufferSize, digestSize,
            sigSize])
        (length_toLe 4 keyId)
    rw [SignedParts.split, covered, hash, signature, id, number _ idFits]

/-- The shortest image is split into what it was made of. -/
theorem shortest_trailer_round_trips :
    parseTrailer innerImage 0x100 =
      .ok
        { covered := signBufferAt innerBody 0x100
          hash := sampleSha (signBufferAt innerBody 0x100)
          signature :=
            storedSigOf (fun _ => (1, 1))
              (sampleSha (signBufferAt innerBody 0x100))
          keyId := 1 } :=
  @signed_trailer_round_trips sampleSha (fun _ => (1, 1)) innerBody innerImage
    1 0x100 (by decide +kernel)

end Signed

/-!
## What the bootloader reads
-/

section Dump

variable
  {core : CryptoCore}
  {mem : UInt32 → UInt8}
  {keys : List CryptoKeyEntry}
  {base regionLen : UInt32}

/-- `do_verify_image`, of the parts of an image. -/
def SignedParts.verdict
    (core : CryptoCore)
    (pubkeyXy : List UInt8)
    (parts : SignedParts) : CryptoVerdict :=
  match core.sha parts.covered with
  | none => .error
  | some digest =>
      if digest ≠ parts.hash then
        .invalid
      else
        let sigLe :=
          reverse32 parts.signature ++
            reverse32 (parts.signature.drop eccP256Bytes)
        match core.eccVerifyHash sigLe digest (reverse32 pubkeyXy)
            (reverse32 (pubkeyXy.drop eccP256Bytes)) with
        | none => .error
        | some stat => if stat = 1 then .valid else .invalid

/-- `verify_handler`, of the parts of an image. -/
def SignedParts.verifiedBy
    (core : CryptoCore)
    (keys : List CryptoKeyEntry)
    (parts : SignedParts) : Prop :=
  ∃ pubkey,
    (cryptoKeystoreLookup keys (UInt32.ofNat parts.keyId)).bind
        CryptoKeyEntry.pubkey = some pubkey ∧
      pubkey.length = 2 * eccP256Bytes ∧ parts.verdict core pubkey = .valid

/-- The number of four bytes of a dump is the word at their address. -/
theorem ofLe_dump
    {off size : Nat}
    (inside : off + 4 ≤ size) :
    ofLe (((memBytes mem base size).drop off).take 4) =
      (memU32 mem (base + UInt32.ofNat off)).toNat := by
  have bounded (bytes : List UInt8) :
      ofLe bytes < 256 ^ bytes.length := by
    have read := ofLe_toLe bytes.length (ofLe bytes)
    rw [toLe_ofLe] at read
    rw [read]
    exact Nat.mod_lt _ (Nat.pow_pos (by decide))
  have small := bounded (memBytes mem (base + UInt32.ofNat off) 4)
  rw [length_memBytes] at small
  rw [slice_memBytes mem base inside, memU32, UInt32.toNat_ofNat_of_lt' small]

/-- The start of a dump. -/
theorem take_dump
    {n size : Nat}
    (inside : n ≤ size) :
    (memBytes mem base size).take n = memBytes mem base n := by
  have slice := @slice_memBytes mem base 0 n size (by omega)
  rwa [List.drop_zero, show base + UInt32.ofNat 0 = base from
    UInt32.add_zero _] at slice

/-- The parts of a dump are those that the other core reads. -/
theorem doVerifyImage_eq_verdict
    {imageLen : UInt32}
    (inside : imageLen.toNat + 100 ≤ regionLen.toNat)
    (pubkey : List UInt8) :
    doVerifyImage core mem base imageLen pubkey =
      (SignedParts.split (memBytes mem base regionLen.toNat)
        imageLen.toNat).verdict core pubkey := by
  have hash := @slice_memBytes mem base imageLen.toNat 32 regionLen.toNat
    (by omega)
  have signature := @slice_memBytes mem base (imageLen.toNat + 32) 64
    regionLen.toNat (by omega)
  rw [UInt32.ofNat_toNat] at hash
  rw [UInt32.ofNat_add, UInt32.ofNat_toNat, ← UInt32.add_assoc] at signature
  rw [SignedParts.verdict, SignedParts.split, take_dump (by omega), hash,
    signature, doVerifyImage,
    show base + imageLen + trailerHashOff = base + imageLen from
      UInt32.add_zero _]
  rfl

/-- The verdict is VALID when a known key verifies the parts. -/
theorem verifyVerdict_valid_iff
    {imageLen : UInt32}
    (inside : imageLen.toNat + 100 ≤ regionLen.toNat) :
    verifyVerdict core mem keys base imageLen
          (memU32 mem
            (base + imageLen + FblDigestAlgo.sha256.digestSize +
              FblDigestAlgo.sha256.sigSize)) =
        .valid ↔
      (SignedParts.split (memBytes mem base regionLen.toNat)
        imageLen.toNat).verifiedBy core keys := by
  have keyId := @ofLe_dump mem base (imageLen.toNat + 96) regionLen.toNat
    (by omega)
  rw [UInt32.ofNat_add, UInt32.ofNat_toNat, ← UInt32.add_assoc] at keyId
  have address :
      base + imageLen + FblDigestAlgo.sha256.digestSize +
          FblDigestAlgo.sha256.sigSize = base + imageLen + UInt32.ofNat 96 := by
    rw [UInt32.add_assoc (base + imageLen)]
    rfl
  have partsKeyId :
      UInt32.ofNat
          (SignedParts.split (memBytes mem base regionLen.toNat)
            imageLen.toNat).keyId =
        memU32 mem (base + imageLen + UInt32.ofNat 96) := by
    rw [SignedParts.split, keyId, UInt32.ofNat_toNat]
  rw [address, verifyVerdict, SignedParts.verifiedBy, partsKeyId]
  cases looked :
      (cryptoKeystoreLookup keys
        (memU32 mem (base + imageLen + UInt32.ofNat 96))).bind
          CryptoKeyEntry.pubkey with
  | none =>
      simp
  | some pubkey =>
      by_cases size : pubkey.length = 2 * eccP256Bytes
      · simp [size, doVerifyImage_eq_verdict inside]
      · simp [size]

/-- The room that header and trailer take. -/
theorem region_roomy_iff :
    ¬regionLen < fblAppHeaderOffset + fblAppHeaderSize +
          FblDigestAlgo.sha256.trailerSize ↔
      368 ≤ regionLen.toNat := by
  rw [UInt32.not_lt, UInt32.le_iff_toNat_le]
  rfl

/-- The room that the covered range leaves for the trailer. -/
theorem covered_inside_iff
    (roomy : 368 ≤ regionLen.toNat)
    {imageLen : UInt32} :
    ¬imageLen > regionLen - FblDigestAlgo.sha256.trailerSize ↔
      imageLen.toNat + 100 ≤ regionLen.toNat := by
  have trailer : FblDigestAlgo.sha256.trailerSize.toNat = 100 := rfl
  have left :
      (regionLen - FblDigestAlgo.sha256.trailerSize).toNat =
        regionLen.toNat - 100 := by
    rw [UInt32.toNat_sub_of_le _ _ (by
      rw [UInt32.le_iff_toNat_le, trailer]
      omega), trailer]
  rw [gt_iff_lt, UInt32.not_lt, UInt32.le_iff_toNat_le, left]
  omega

/-- The tool and the bootloader find the same header. -/
theorem header_of_dump
    (roomy : 368 ≤ regionLen.toNat) :
    let hdr := memAppHeader mem (base + fblAppHeaderOffset)
    let dump := memBytes mem base regionLen.toNat
    ofLe ((dump.drop signDefaultHeaderOffset).take 4) = hdr.magic.toNat ∧
      ofLe ((dump.drop (signDefaultHeaderOffset + 8)).take 4) =
        hdr.imageLen.toNat := by
  have magic := @ofLe_dump mem base signDefaultHeaderOffset regionLen.toNat
    (by simp only [signDefaultHeaderOffset]; omega)
  have imageLen :=
    @ofLe_dump mem base (signDefaultHeaderOffset + 8) regionLen.toNat
      (by simp only [signDefaultHeaderOffset]; omega)
  rw [UInt32.ofNat_add, ← UInt32.add_assoc] at imageLen
  exact ⟨magic, imageLen⟩

/-- The vectors are the first words of a covered range. -/
theorem vectors_of_covered
    {n : Nat}
    (roomy : 8 ≤ n) :
    UInt32.ofNat (ofLe ((memBytes mem base n).take 4)) = memU32 mem base ∧
      UInt32.ofNat (ofLe (((memBytes mem base n).drop 4).take 4)) =
        memU32 mem (base + 4) := by
  constructor
  · rw [take_dump (by omega)]
    rfl
  · rw [slice_memBytes mem base (by omega)]
    rfl

/--
The bootloader and the tool agree on every content of a region.  The image is
valid exactly when the tool splits a dump of the region into parts that a known
key verifies, of which the covered one holds a header and starts with sane
vectors.
-/
theorem valid_iff_the_tool_finds_verified_parts
    (hashHandler macHandler : CryptoMsg → Option CryptoMsg) :
    fblAppImageValid .sha256 mem
          (cryptoVerifyDelivered
            (cm0pHandlers core mem keys hashHandler macHandler)) base
          regionLen = true ↔
      base ≠ 0 ∧ ∃ parts,
        parseTrailer (memBytes mem base regionLen.toNat)
            signDefaultHeaderOffset = .ok parts ∧
          signDefaultHeaderOffset + signHdrSize ≤ parts.covered.length ∧
          parts.verifiedBy core keys ∧
          fblVectorSane (UInt32.ofNat (ofLe (parts.covered.take 4)))
              (UInt32.ofNat (ofLe ((parts.covered.drop 4).take 4))) =
            true := by
  have dumpSize : (memBytes mem base regionLen.toNat).length = regionLen.toNat :=
    length_memBytes _ _ _
  have sameMagic (magic : UInt32) :
      magic.toNat = signAppHeaderMagic ↔ magic = fblAppHeaderMagic :=
    @UInt32.toNat_inj magic fblAppHeaderMagic
  have holdsHeader (imageLen : UInt32) :
      ¬imageLen < fblAppHeaderOffset + fblAppHeaderSize ↔
        signDefaultHeaderOffset + signHdrSize ≤ imageLen.toNat := by
    rw [UInt32.not_lt, UInt32.le_iff_toNat_le]
    rfl
  have authentic (imageLen : UInt32) :
      fblImageAuthentic .sha256 mem
            (cryptoVerifyDelivered
              (cm0pHandlers core mem keys hashHandler macHandler)) base
            imageLen = true ↔
        verifyVerdict core mem keys base imageLen
          (memU32 mem
            (base + imageLen + FblDigestAlgo.sha256.digestSize +
              FblDigestAlgo.sha256.sigSize)) =
        .valid := by
    rw [fblImageAuthentic, decide_eq_true_eq, cryptoVerifyDelivered_eq]
  rw [fblAppImageValid_iff]
  simp only [parseTrailer_eq_ok_iff, dumpSize, holdsHeader, authentic]
  constructor
  · rintro ⟨based, room, magic, header, inside, verified, vectors⟩
    have roomy := region_roomy_iff.mp room
    obtain ⟨sameHeader, sameLen⟩ := @header_of_dump mem base regionLen roomy
    rw [covered_inside_iff roomy] at inside
    rw [verifyVerdict_valid_iff inside] at verified
    refine
      ⟨based, _, ⟨roomy, ?_, _, sameLen, inside, rfl⟩, ?_, verified, ?_⟩
    · rw [sameHeader, sameMagic]
      exact magic
    · rw [SignedParts.split, take_dump (by omega), length_memBytes]
      exact header
    · have words :=
        @vectors_of_covered mem base _ (Nat.le_trans (by decide) header)
      rw [SignedParts.split, take_dump (by omega), words.1, words.2]
      exact vectors
  · rintro ⟨based, parts, ⟨roomy, magic, imageLen, sameLen, inside, rfl⟩,
      header, verified, vectors⟩
    obtain ⟨sameHeader, length⟩ := @header_of_dump mem base regionLen roomy
    rw [length] at sameLen
    subst sameLen
    rw [SignedParts.split, take_dump (by omega)] at header vectors
    rw [length_memBytes] at header
    have words :=
      @vectors_of_covered mem base _ (Nat.le_trans (by decide) header)
    rw [words.1, words.2] at vectors
    refine
      ⟨based, region_roomy_iff.mpr roomy, ?_, header,
        (covered_inside_iff roomy).mpr inside,
        (verifyVerdict_valid_iff inside).mpr verified, vectors⟩
    rw [← sameMagic, ← sameHeader]
    exact magic

end Dump

end TraveoBodyDomain
