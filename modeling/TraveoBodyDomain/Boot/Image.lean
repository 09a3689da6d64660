import TraveoBodyDomain.Crypto.Msg
import TraveoBodyDomain.Diag.Flash
import TraveoBodyDomain.Lib.LittleEndian

/-!
# The application image, as the bootloader checks it

The part of `boot_types.h` and `boot.c` that is about the image: where its
header and its trailer lie, and when it may be started.  The build chooses
between a CRC-32 that the bootloader computes and a signature that it asks the
other core to verify.

Flash is memory-mapped, so an image is read byte by byte at its address.  NULL
is the address 0.
-/

namespace TraveoBodyDomain

/-- `FBL_APP_HEADER_OFFSET`. -/
def fblAppHeaderOffset : UInt32 :=
  0x100

/-- `FBL_APP_HEADER_MAGIC`. -/
def fblAppHeaderMagic : UInt32 :=
  0xA9900D01

/-- `FBL_SRAM_BASE`. -/
def fblSramBase : UInt32 :=
  0x08000000

/-- `FBL_SRAM_SIZE`. -/
def fblSramSize : UInt32 :=
  128 * 1024

/-- `FBL_DIGEST_ALGO`, the two builds. -/
inductive FblDigestAlgo where
  | crc32
  | sha256
  deriving Repr, DecidableEq

/-- `FBL_DIGEST_SIZE`. -/
def FblDigestAlgo.digestSize : FblDigestAlgo → UInt32
  | .crc32 => 4
  | .sha256 => 32

/-- `FBL_SIG_SIZE`. -/
def FblDigestAlgo.sigSize : FblDigestAlgo → UInt32
  | .crc32 => 0
  | .sha256 => 64

/-- `FBL_KEY_ID_SIZE`. -/
def FblDigestAlgo.keyIdSize : FblDigestAlgo → UInt32
  | .crc32 => 0
  | .sha256 => 4

/-- `FBL_TRAILER_SIZE`. -/
def FblDigestAlgo.trailerSize (algo : FblDigestAlgo) : UInt32 :=
  algo.digestSize + algo.sigSize + algo.keyIdSize

/-- `fbl_app_header_t`. -/
structure FblAppHeader where
  magic : UInt32
  hdrVersion : UInt16
  hdrSize : UInt16
  imageLen : UInt32
  deriving Repr, DecidableEq

/-- `sizeof(fbl_app_header_t)`. -/
def fblAppHeaderSize : UInt32 :=
  12

/-- The `n` bytes from `address` on. -/
def memBytes (mem : UInt32 → UInt8) (address : UInt32) (n : Nat) : List UInt8 :=
  (List.range n).map fun i => mem (address + UInt32.ofNat i)

@[simp] theorem length_memBytes
    (mem : UInt32 → UInt8)
    (address : UInt32)
    (n : Nat) :
    (memBytes mem address n).length = n := by
  simp [memBytes]

/-- Some of these bytes are the bytes from a later address on. -/
theorem slice_memBytes
    (mem : UInt32 → UInt8)
    (address : UInt32)
    {off n size : Nat}
    (inside : off + n ≤ size) :
    ((memBytes mem address size).drop off).take n =
      memBytes mem (address + UInt32.ofNat off) n := by
  refine List.ext_getElem (by simp; omega) fun i _ _ => ?_
  simp [memBytes, UInt32.ofNat_add, UInt32.add_assoc]

/-- A `memcpy` from `address` into a `uint32_t`. -/
def memU32 (mem : UInt32 → UInt8) (address : UInt32) : UInt32 :=
  UInt32.ofNat (LittleEndian.ofLe (memBytes mem address 4))

/-- A `memcpy` from `address` into a `uint16_t`. -/
def memU16 (mem : UInt32 → UInt8) (address : UInt32) : UInt16 :=
  UInt16.ofNat (LittleEndian.ofLe (memBytes mem address 2))

/-- A `memcpy` from `address` into an `fbl_app_header_t`. -/
def memAppHeader (mem : UInt32 → UInt8) (address : UInt32) : FblAppHeader where
  magic := memU32 mem address
  hdrVersion := memU16 mem (address + 4)
  hdrSize := memU16 mem (address + 6)
  imageLen := memU32 mem (address + 8)

/-- One bit of the loop of `boot_crc32`. -/
def bootCrc32Bit (crc : UInt32) : UInt32 :=
  (crc >>> 1) ^^^ (0xEDB88320 &&& (0 - (crc &&& 1)))

/-- `boot_crc32`. -/
def bootCrc32 (data : List UInt8) : UInt32 :=
  ~~~data.foldl
    (fun crc byte => Nat.repeat bootCrc32Bit 8 (crc ^^^ byte.toUInt32))
    0xFFFFFFFF

/-- `fbl_digest`. -/
def fblDigest : FblDigestAlgo → List UInt8 → List UInt8
  | .crc32, data =>
      let crc := bootCrc32 data
      [(crc &&& 0xFF).toUInt8, ((crc >>> 8) &&& 0xFF).toUInt8,
        ((crc >>> 16) &&& 0xFF).toUInt8, ((crc >>> 24) &&& 0xFF).toUInt8]
  | .sha256, _ => List.replicate FblDigestAlgo.sha256.digestSize.toNat 0

/-- `fbl_vector_sane`. -/
def fblVectorSane (msp reset : UInt32) : Bool :=
  let mspOk :=
    msp > fblSramBase && msp ≤ fblSramBase + fblSramSize && (msp &&& 0x7) = 0
  let resetOk :=
    reset ≥ fblAppFlashBase.toUInt32 &&
      reset < fblAppFlashBase.toUInt32 + fblAppFlashSize.toUInt32 &&
      (reset &&& 0x1) = 1
  mspOk && resetOk

/-- The part of `fbl_app_image_valid` that the build chooses. -/
def fblImageAuthentic
    (algo : FblDigestAlgo)
    (mem : UInt32 → UInt8)
    (cryptoVerify : UInt32 → UInt32 → UInt32 → CryptoVerdict)
    (base imageLen : UInt32) : Bool :=
  match algo with
  | .crc32 =>
      fblDigest .crc32 (memBytes mem base imageLen.toNat) =
        memBytes mem (base + imageLen) FblDigestAlgo.crc32.digestSize.toNat
  | .sha256 =>
      let keyId :=
        memU32 mem
          (base + imageLen + FblDigestAlgo.sha256.digestSize +
            FblDigestAlgo.sha256.sigSize)
      cryptoVerify base imageLen keyId = .valid

/-- `fbl_app_image_valid`; `cryptoVerify` is what `crypto_verify_image` says. -/
def fblAppImageValid
    (algo : FblDigestAlgo)
    (mem : UInt32 → UInt8)
    (cryptoVerify : UInt32 → UInt32 → UInt32 → CryptoVerdict)
    (base regionLen : UInt32) : Bool :=
  if base = 0 then
    false
  else if
      regionLen < fblAppHeaderOffset + fblAppHeaderSize + algo.trailerSize then
    false
  else
    let hdr := memAppHeader mem (base + fblAppHeaderOffset)
    if hdr.magic ≠ fblAppHeaderMagic then
      false
    else
      let imageLen := hdr.imageLen
      if imageLen < fblAppHeaderOffset + fblAppHeaderSize then
        false
      else if imageLen > regionLen - algo.trailerSize then
        false
      else if !fblImageAuthentic algo mem cryptoVerify base imageLen then
        false
      else
        fblVectorSane (memU32 mem base) (memU32 mem (base + 4))

/-- Neither refused here nor behind. -/
theorem refuses_or
    {refused : Prop}
    [Decidable refused]
    {behind : Bool} :
    (if refused then false else behind) = true ↔
      ¬refused ∧ behind = true := by
  split <;> simp_all

/-- The checks that `fbl_app_image_valid` makes, all of them. -/
theorem fblAppImageValid_iff
    {algo : FblDigestAlgo}
    {mem : UInt32 → UInt8}
    {cryptoVerify : UInt32 → UInt32 → UInt32 → CryptoVerdict}
    {base regionLen : UInt32} :
    fblAppImageValid algo mem cryptoVerify base regionLen = true ↔
      let hdr := memAppHeader mem (base + fblAppHeaderOffset)
      base ≠ 0 ∧
        ¬regionLen < fblAppHeaderOffset + fblAppHeaderSize + algo.trailerSize ∧
        hdr.magic = fblAppHeaderMagic ∧
        ¬hdr.imageLen < fblAppHeaderOffset + fblAppHeaderSize ∧
        ¬hdr.imageLen > regionLen - algo.trailerSize ∧
        fblImageAuthentic algo mem cryptoVerify base hdr.imageLen = true ∧
        fblVectorSane (memU32 mem base) (memU32 mem (base + 4)) = true := by
  simp only [fblAppImageValid, refuses_or, ne_eq, not_not, Bool.not_eq_true',
    Bool.not_eq_false]

end TraveoBodyDomain
