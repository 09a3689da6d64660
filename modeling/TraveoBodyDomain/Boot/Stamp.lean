import TraveoBodyDomain.Boot.Authentic
import TraveoBodyDomain.Checksums

/-!
# Stamping an image, and checking it without keys

`fbl_image_stamp.py`, and the build of the bootloader that computes a CRC-32.
The host uses `zlib.crc32`, which looks a whole byte up in a table.
-/

namespace TraveoBodyDomain

open LittleEndian

section Host

/-- `FBL_APP_HEADER_MAGIC` of this tool. -/
def stampAppHeaderMagic : Nat :=
  0xA9900D01

/-- `FBL_HDR_VERSION` of this tool. -/
def stampHdrVersion : Nat :=
  1

/-- `FBL_HDR_SIZE` of this tool. -/
def stampHdrSize : Nat :=
  12

/-- `FBL_DIGEST_SIZE` of this tool. -/
def stampDigestSize : Nat :=
  4

/-- `DEFAULT_HEADER_OFFSET` of this tool. -/
def stampDefaultHeaderOffset : Nat :=
  0x100

/-- The entry of the table of `zlib.crc32` for a byte. -/
def zlibTable (index : UInt32) : UInt32 :=
  Nat.repeat crc32Bit 8 index

/-- `zlib.crc32`. -/
def zlibCrc32 (data : List UInt8) : UInt32 :=
  data.foldl
      (fun crc byte =>
        zlibTable ((crc ^^^ byte.toUInt32) &&& 0xFF) ^^^ (crc >>> 8))
      0xFFFFFFFF ^^^
    0xFFFFFFFF

/-- `struct.pack_into("<IHHI", ...)` of the header. -/
def stampHeader (imageLen : Nat) : Option (List UInt8) := do
  let magic ← structPack 4 stampAppHeaderMagic
  let version ← structPack 2 stampHdrVersion
  let size ← structPack 2 stampHdrSize
  let len ← structPack 4 imageLen
  return magic ++ version ++ size ++ len

/-- `stamp_image`; `none` is any exception. -/
def stampImage (body : List UInt8) (headerOffset : Nat) :
    Option (List UInt8) := do
  let imageLen := body.length
  if headerOffset + stampHdrSize > imageLen then
    none
  else
    let header ← stampHeader imageLen
    let buf :=
      body.take headerOffset ++ header ++
        body.drop (headerOffset + stampHdrSize)
    let crc := (zlibCrc32 buf).toNat &&& 0xFFFFFFFF
    let trailer ← structPack stampDigestSize crc
    return buf ++ trailer

end Host

/-!
## The three CRC-32 functions
-/

/-- A byte looked up in the table. -/
theorem zlibTable_step (crc : UInt32) (byte : UInt8) :
    zlibTable ((crc ^^^ byte.toUInt32) &&& 0xFF) ^^^ (crc >>> 8) =
      crc32Byte crc byte := by
  have mask :
      ∀ i < 32, (0xFF : UInt32).toBitVec.getLsbD i = decide (i < 8) := by
    decide
  have low :
      ((crc ^^^ byte.toUInt32) &&& 0xFF).toBitVec =
        ((crc ^^^ byte.toUInt32).toBitVec.setWidth 8).setWidth 32 := by
    refine BitVec.eq_of_getLsbD_eq fun i inside => ?_
    rw [UInt32.toBitVec_and, BitVec.getLsbD_and, mask i inside, BitVec.getLsbD_setWidth,
      BitVec.getLsbD_setWidth]
    simp [inside, Bool.and_comm]
  have shifted :
      (crc >>> 8).toBitVec = (crc ^^^ byte.toUInt32).toBitVec >>> 8 := by
    refine BitVec.eq_of_getLsbD_eq fun i inside => ?_
    have above : byte.toUInt32.toBitVec.getLsbD (8 + i) = false := by
      show (byte.toBitVec.setWidth 32).getLsbD (8 + i) = false
      rw [BitVec.getLsbD_setWidth, BitVec.getLsbD_of_ge _ _ (by omega),
        Bool.and_false]
    show (crc.toBitVec >>> 8).getLsbD i = _
    rw [BitVec.getLsbD_ushiftRight, BitVec.getLsbD_ushiftRight,
      UInt32.toBitVec_xor, BitVec.getLsbD_xor, above, Bool.xor_false]
  refine UInt32.toBitVec_inj.mp ?_
  rw [UInt32.toBitVec_xor, zlibTable, repeat_crc32Bit_toBitVec, low, shifted,
    ← Crc.steps_table, crc32Byte, repeat_crc32Bit_toBitVec]

/-- The host's function is the bootloader's. -/
theorem zlibCrc32_eq (data : List UInt8) :
    zlibCrc32 data = bootCrc32 data := by
  rw [bootCrc32_eq, zlibCrc32, crc32]
  simp only [zlibTable_step]

/-- The bytes of the digest are those of the number. -/
theorem fblDigest_crc32 (data : List UInt8) :
    fblDigest .crc32 data = toLe 4 (crc32 data).toNat := by
  rw [← bootCrc32_eq]
  exact split32 (bootCrc32 data)

/-- Bytes are the digest of a message when their number is its CRC. -/
theorem fblDigest_eq_iff
    {data check : List UInt8}
    (four : check.length = 4) :
    fblDigest .crc32 data = check ↔ ofLe check = (crc32 data).toNat := by
  rw [fblDigest_crc32]
  constructor
  · intro same
    rw [← same, ofLe_toLe]
    exact Nat.mod_eq_of_lt (crc32 data).toNat_lt
  · intro same
    rw [← same, ← four]
    exact toLe_ofLe check

/-!
## A stamped image
-/

/-- The tool packs a number of four bytes as it is. -/
theorem toNat_and_word (crc : UInt32) :
    crc.toNat &&& 0xFFFFFFFF = crc.toNat := by
  rw [show (0xFFFFFFFF : Nat) = 2 ^ 32 - 1 from rfl,
    Nat.and_two_pow_sub_one_eq_mod]
  exact Nat.mod_eq_of_lt crc.toNat_lt

/-- What `stamp_image` writes, when it writes something. -/
theorem stampImage_eq
    {body image : List UInt8}
    (stamped : stampImage body stampDefaultHeaderOffset = some image) :
    signDefaultHeaderOffset + signHdrSize ≤ body.length ∧
      image =
        signBuffer body ++ toLe 4 (crc32 (signBuffer body)).toNat := by
  unfold stampImage at stamped
  by_cases tooSmall : stampDefaultHeaderOffset + stampHdrSize > body.length
  · simp [tooSmall] at stamped
  simp only [tooSmall, if_false, Option.bind_eq_bind, Option.bind_eq_some_iff,
    structPack_eq_some] at stamped
  obtain ⟨header, headed, trailer, ⟨-, rfl⟩, same⟩ := stamped
  cases signHeader_eq_some headed
  rw [toNat_and_word, zlibCrc32_eq, bootCrc32_eq] at same
  exact ⟨Nat.not_lt.mp tooSmall, (Option.some.inj same).symm⟩

/-- It writes something for every body that holds a header. -/
theorem stampImage_of_large
    {body : List UInt8}
    (large : signDefaultHeaderOffset + signHdrSize ≤ body.length)
    (small : body.length < 256 ^ 4) :
    stampImage body stampDefaultHeaderOffset =
      some
        (signBuffer body ++ toLe 4 (crc32 (signBuffer body)).toNat) := by
  have header :
      stampHeader body.length = some (signHeaderBytes body.length) := by
    simp only [stampHeader, Option.bind_eq_bind, structPack, if_pos small]
    rfl
  have trailer (crc : UInt32) :
      structPack stampDigestSize (crc.toNat &&& 0xFFFFFFFF) =
        some (toLe 4 crc.toNat) := by
    rw [toNat_and_word]
    exact if_pos crc.toNat_lt
  have roomy : ¬stampDefaultHeaderOffset + stampHdrSize > body.length :=
    Nat.not_lt.mpr large
  simp only [stampImage, if_neg roomy, header, trailer, zlibCrc32_eq,
    bootCrc32_eq, Option.bind_eq_bind, Option.bind_some]
  rfl

section Check

variable
  {mem : UInt32 → UInt8}
  {cryptoVerify : UInt32 → UInt32 → UInt32 → CryptoVerdict}

/-- The checks of the build without keys, of the application region. -/
theorem fblAppImageValid_crc32_of_region :
    fblAppImageValid .crc32 mem cryptoVerify fblAppFlashBase.toUInt32
          fblAppFlashSize.toUInt32 = true ↔
      let hdr := memAppHeader mem (fblAppFlashBase.toUInt32 + fblAppHeaderOffset)
      hdr.magic = fblAppHeaderMagic ∧
        fblAppHeaderOffset + fblAppHeaderSize ≤ hdr.imageLen ∧
        hdr.imageLen ≤
          fblAppFlashSize.toUInt32 - FblDigestAlgo.crc32.trailerSize ∧
        ofLe (memBytes mem (fblAppFlashBase.toUInt32 + hdr.imageLen) 4) =
          (crc32
            (memBytes mem fblAppFlashBase.toUInt32 hdr.imageLen.toNat)).toNat ∧
        fblVectorSane (memU32 mem fblAppFlashBase.toUInt32)
          (memU32 mem (fblAppFlashBase.toUInt32 + 4)) = true := by
  have based : fblAppFlashBase.toUInt32 ≠ 0 := by decide
  have roomy :
      ¬fblAppFlashSize.toUInt32 <
        fblAppHeaderOffset + fblAppHeaderSize +
          FblDigestAlgo.crc32.trailerSize := by
    decide
  have four : FblDigestAlgo.crc32.digestSize.toNat = 4 := rfl
  rw [fblAppImageValid_iff]
  simp only [based, roomy, not_false_eq_true, true_and, ne_eq, UInt32.not_lt,
    gt_iff_lt, fblImageAuthentic, decide_eq_true_eq, four,
    fblDigest_eq_iff (length_memBytes _ _ 4)]

/-- The whole of a placed image is read. -/
theorem memBytes_of_imageAt
    {base : UInt32}
    {image : List UInt8}
    (placed : ImageAt mem base image) :
    memBytes mem base image.length = image := by
  have whole :=
    memBytes_segment placed
      (show image = [] ++ image ++ [] by rw [List.append_nil, List.nil_append])
      rfl rfl
  rwa [show base + UInt32.ofNat ([] : List UInt8).length = base from
    UInt32.add_zero _] at whole

/-- A range and what follows it, in memory. -/
theorem memBytes_append (base : UInt32) (first second : Nat) :
    memBytes mem base (first + second) =
      memBytes mem base first ++
        memBytes mem (base + UInt32.ofNat first) second := by
  refine List.ext_getElem (by simp) fun i inSum inParts => ?_
  rw [List.getElem_append]
  split
  · simp [memBytes]
  · next past =>
      rw [length_memBytes] at past
      have offset : i = first + (i - first) := by omega
      simp only [memBytes, List.getElem_map, List.getElem_range,
        List.length_map, List.length_range]
      rw [UInt32.add_assoc, ← UInt32.ofNat_add, ← offset]

end Check

/--
A stamped image at its place is valid for the build that computes a CRC-32, and
no burst of up to four bytes, in what is covered or in the CRC itself, leaves it
valid, unless it is the length in the header that it changes.
-/
theorem stamped_image_is_guarded
    {body image : List UInt8}
    {mem : UInt32 → UInt8}
    (stamped : stampImage body stampDefaultHeaderOffset = some image)
    (vectors :
      fblVectorSane (UInt32.ofNat (ofLe (body.take 4)))
        (UInt32.ofNat (ofLe ((body.drop 4).take 4))) = true)
    (fits : image.length ≤ fblAppFlashSize)
    (placed : ImageAt mem fblAppFlashBase.toUInt32 image)
    (cryptoVerify : UInt32 → UInt32 → UInt32 → CryptoVerdict) :
    fblAppImageValid .crc32 mem cryptoVerify fblAppFlashBase.toUInt32
          fblAppFlashSize.toUInt32 = true ∧
      ∀ changed : UInt32 → UInt8,
        Crc.Burst 4 image
            (memBytes changed fblAppFlashBase.toUInt32 image.length) →
          (memAppHeader changed
              (fblAppFlashBase.toUInt32 + fblAppHeaderOffset)).imageLen =
              UInt32.ofNat body.length →
            fblAppImageValid .crc32 changed cryptoVerify
                fblAppFlashBase.toUInt32 fblAppFlashSize.toUInt32 =
              false := by
  obtain ⟨large, rfl⟩ := stampImage_eq stamped
  have bodySize := length_signBuffer large
  have size :
      (signBuffer body ++ toLe 4 (crc32 (signBuffer body)).toNat).length =
        body.length + 4 := by
    rw [List.length_append, bodySize, length_toLe]
  rw [size, fblAppFlashSize] at fits
  have small : body.length < 2 ^ 32 := by omega
  have length : (UInt32.ofNat body.length).toNat = body.length :=
    UInt32.toNat_ofNat_of_lt' small
  have right :
      ofLe (toLe 4 (crc32 (signBuffer body)).toNat) =
        (crc32 (signBuffer body)).toNat := by
    rw [ofLe_toLe]
    exact Nat.mod_eq_of_lt (crc32 (signBuffer body)).toNat_lt
  constructor
  · have header := header_of_image large placed
    have sane := vectors_of_image large placed
    have covered :
        memBytes mem (fblAppFlashBase.toUInt32 + UInt32.ofNat 0) body.length =
          signBuffer body :=
      memBytes_segment placed (by rw [List.nil_append]) rfl bodySize
    have check :
        memBytes mem (fblAppFlashBase.toUInt32 + UInt32.ofNat body.length) 4 =
          toLe 4 (crc32 (signBuffer body)).toNat :=
      memBytes_segment placed (by rw [List.append_nil]) bodySize
        (length_toLe _ _)
    rw [show fblAppFlashBase.toUInt32 + UInt32.ofNat 0 =
      fblAppFlashBase.toUInt32 from UInt32.add_zero _] at covered
    refine fblAppImageValid_crc32_of_region.mpr ?_
    rw [header]
    refine ⟨rfl, ?_, ?_, ?_, ?_⟩
    · rw [UInt32.le_iff_toNat_le, length]
      exact large
    · rw [UInt32.le_iff_toNat_le, length]
      change body.length ≤ 851964
      omega
    · dsimp only
      rw [check, length, covered]
      exact right
    · rw [sane.1, sane.2]
      exact vectors
  · intro changed burst sameLength
    rw [← Bool.not_eq_true]
    intro valid
    have accepted := (fblAppImageValid_crc32_of_region.mp valid).2.2.2.1
    rw [sameLength, length] at accepted
    rw [size, memBytes_append] at burst
    exact not_check_of_burst (length_toLe _ _) (length_memBytes _ _ _) burst
      right accepted

/-- The shortest body, stamped. -/
def stampedSample : List UInt8 :=
  signBuffer innerBody ++ toLe 4 (crc32 (signBuffer innerBody)).toNat

/-- It is valid, and is not with the byte 0x20 changed. -/
theorem stamped_sample_is_guarded :
    fblAppImageValid .crc32 (flashWith fblAppFlashBase.toUInt32 stampedSample)
          (fun _ _ _ => .error) fblAppFlashBase.toUInt32
          fblAppFlashSize.toUInt32 = true ∧
      fblAppImageValid .crc32
          (flashWith fblAppFlashBase.toUInt32 (stampedSample.set 0x20 0xFF))
          (fun _ _ _ => .error) fblAppFlashBase.toUInt32
          fblAppFlashSize.toUInt32 = false := by
  have small : stampedSample.length ≤ 2 ^ 32 := by
    decide +kernel
  obtain ⟨valid, guarded⟩ :=
    @stamped_image_is_guarded innerBody stampedSample
      (flashWith fblAppFlashBase.toUInt32 stampedSample)
      (stampImage_of_large (by decide +kernel) (by decide +kernel))
      (by decide +kernel) (by decide +kernel) (imageAt_flashWith small _)
      (fun _ _ _ => .error)
  refine ⟨valid, guarded _ ?_ (by decide +kernel)⟩
  have read :
      memBytes
          (flashWith fblAppFlashBase.toUInt32 (stampedSample.set 0x20 0xFF))
          fblAppFlashBase.toUInt32 stampedSample.length =
        stampedSample.set 0x20 0xFF := by
    have size : (stampedSample.set 0x20 0xFF).length = stampedSample.length :=
      List.length_set
    rw [← size]
    exact memBytes_of_imageAt (imageAt_flashWith (size ▸ small) _)
  rw [read]
  refine ⟨by rw [List.length_set], by decide +kernel, 0x20, fun i outside => ?_⟩
  exact (List.getElem?_set_ne (by omega)).symm

end TraveoBodyDomain
