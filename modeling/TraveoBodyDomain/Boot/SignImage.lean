import TraveoBodyDomain.Boot.Image
import TraveoBodyDomain.Crypto.Dispatch
import TraveoBodyDomain.Crypto.Service

/-!
# Signing an image, and verifying it on the other core

`sign_image.py`, which runs on the build host, and the handler of
`crypto_ops_cm0p.c` that the bootloader's request reaches.  The two share no
definition of the layout: each has its own offsets and sizes.

The hash and the curve are neither's own: the host uses a library, the other
core a driver of its crypto block.  Both are parameters here.
-/

namespace TraveoBodyDomain

section Host

/-- `FBL_HDR_VERSION`. -/
def signHdrVersion : Nat :=
  1

/-- `FBL_HDR_SIZE`. -/
def signHdrSize : Nat :=
  12

/-- `DEFAULT_HEADER_OFFSET`. -/
def signDefaultHeaderOffset : Nat :=
  0x100

/-- `FBL_APP_HEADER_MAGIC` of the host. -/
def signAppHeaderMagic : Nat :=
  0xA9900D01

/-- `HASH_SIZE`. -/
def signHashSize : Nat :=
  32

/-- `SIG_SIZE`. -/
def signSigSize : Nat :=
  64

/-- `KEY_ID_SIZE`. -/
def signKeyIdSize : Nat :=
  4

/-- `TRAILER_SIZE`. -/
def signTrailerSize : Nat :=
  signHashSize + signSigSize + signKeyIdSize

/-- `int.to_bytes(width, "big")`; `none` is an `OverflowError`. -/
def toBytesBig (width value : Nat) : Option (List UInt8) :=
  if value < 256 ^ width then
    some (LittleEndian.toLe width value).reverse
  else
    none

/-- `struct.pack` of an unsigned field; `none` is a `struct.error`. -/
def structPack (width value : Nat) : Option (List UInt8) :=
  if value < 256 ^ width then
    some (LittleEndian.toLe width value)
  else
    none

/-- `struct.pack_into("<IHHI", ...)` of the header. -/
def signHeader (imageLen : Nat) : Option (List UInt8) := do
  let magic ← structPack 4 signAppHeaderMagic
  let version ← structPack 2 signHdrVersion
  let size ← structPack 2 signHdrSize
  let len ← structPack 4 imageLen
  return magic ++ version ++ size ++ len

variable
  (sha256 : List UInt8 → List UInt8)
  (sign : List UInt8 → Nat × Nat)

/--
`sign_image`; `none` is any exception.

`sign` is the signature of a digest under the private key, as `r` and `s`.
-/
def signImage
    (body : List UInt8)
    (keyId : Nat)
    (headerOffset : Nat) : Option (List UInt8) := do
  let imageLen := body.length
  if headerOffset + signHdrSize > imageLen then
    none
  else
    let header ← signHeader imageLen
    let buf :=
      body.take headerOffset ++ header ++ body.drop (headerOffset + signHdrSize)
    let digest := sha256 buf
    let (r, s) := sign digest
    let rBytes ← toBytesBig 32 r
    let sBytes ← toBytesBig 32 s
    let rawSig := rBytes ++ sBytes
    let keyIdBytes ← structPack 4 keyId
    let trailer := digest ++ rawSig ++ keyIdBytes
    if trailer.length ≠ signTrailerSize then
      none
    else
      return buf ++ trailer

end Host

section OtherCore

/-- `crypto_key_entry_t`, the part the verify operation reads. -/
structure CryptoKeyEntry where
  keyId : UInt32
  pubkey : Option (List UInt8)
  deriving Repr, DecidableEq

/-- `crypto_keystore_lookup`; `none` is NULL. -/
def cryptoKeystoreLookup (table : List CryptoKeyEntry) (keyId : UInt32) :
    Option CryptoKeyEntry :=
  table.find? (fun entry => entry.keyId == keyId)

/--
The crypto block's driver: `Cy_Crypto_Core_Sha` and
`Cy_Crypto_Core_ECC_VerifyHash` with its `stat`; `none` is a status other than
success.  Signature and point coordinates are little-endian.
-/
structure CryptoCore where
  sha : List UInt8 → Option (List UInt8)
  eccVerifyHash : (sig hash keyX keyY : List UInt8) → Option UInt8

/-- `TRAILER_HASH_OFF`. -/
def trailerHashOff : UInt32 :=
  0

/-- `TRAILER_SIG_OFF`. -/
def trailerSigOff : UInt32 :=
  32

/-- `ECC_P256_BYTES`. -/
def eccP256Bytes : Nat :=
  32

/-- `reverse32`. -/
def reverse32 (src : List UInt8) : List UInt8 :=
  (List.range 32).map fun i => src.getD (31 - i) 0

variable (core : CryptoCore) (mem : UInt32 → UInt8)

/-- `do_verify_image`. -/
def doVerifyImage (base len : UInt32) (pubkeyXy : List UInt8) :
    CryptoVerdict :=
  let trailer := base + len
  let storedHash := memBytes mem (trailer + trailerHashOff) 32
  let sig := memBytes mem (trailer + trailerSigOff) 64
  match core.sha (memBytes mem base len.toNat) with
  | none => .error
  | some digest =>
      if digest ≠ storedHash then
        .invalid
      else
        let keyXLe := reverse32 pubkeyXy
        let keyYLe := reverse32 (pubkeyXy.drop eccP256Bytes)
        let sigLe := reverse32 sig ++ reverse32 (sig.drop eccP256Bytes)
        match core.eccVerifyHash sigLe digest keyXLe keyYLe with
        | none => .error
        | some stat => if stat = 1 then .valid else .invalid

/-- `verify_handler`. -/
def verifyHandler (keys : List CryptoKeyEntry) (req : CryptoMsg) :
    Option CryptoMsg :=
  let v :=
    match cryptoParseVerifyRequest req with
    | none => .error
    | some (base, len, keyId) =>
        match (cryptoKeystoreLookup keys keyId).bind CryptoKeyEntry.pubkey with
        | none => .invalid
        | some pubkey =>
            if pubkey.length = 2 * eccP256Bytes then
              doVerifyImage core mem base len pubkey
            else
              .invalid
  some (cryptoMakeVerdict cryptoOpVerifyImage v)

/-- `g_handlers`; the other two handlers are never asked to verify. -/
def cm0pHandlers
    (keys : List CryptoKeyEntry)
    (hashHandler macHandler : CryptoMsg → Option CryptoMsg) :
    List CryptoHandler :=
  [⟨cryptoOpHash, some hashHandler⟩,
    ⟨cryptoOpVerifyImage, some (verifyHandler core mem keys)⟩,
    ⟨cryptoOpMac, some macHandler⟩]

end OtherCore

/--
`crypto_verify_image`, when the mailbox delivers the request to the other core
and its answer back.
-/
def cryptoVerifyDelivered
    (handlers : List CryptoHandler)
    (base len keyId : UInt32) : CryptoVerdict :=
  match cryptoMsgEncode (cryptoMakeVerifyRequest base len keyId)
      cryptoMsgMaxWire with
  | none => .error
  | some req =>
      match cryptoDispatch handlers req cryptoMsgMaxWire with
      | none => .error
      | some resp => (cryptoReadVerdict resp).1

end TraveoBodyDomain
