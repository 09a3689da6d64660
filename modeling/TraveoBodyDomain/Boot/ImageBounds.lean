import TraveoBodyDomain.Boot.Image
import TraveoBodyDomain.Lib.WordArith

/-!
# What the image check reads

`fbl_app_image_valid` once more, given nothing but the bytes of its region and
32-bit arithmetic that may trap.  `none` is a read outside the region, a range
outside of it handed to the digest or to the other core, or an overflow.  None
of these happens, whatever length the header claims, and `Boot.Image`, which
reads memory at an address, describes the same function.
-/

namespace TraveoBodyDomain

open LittleEndian

/-- The bytes `[off, off + n)` of the region, if it has them all. -/
def regionBytes (region : List UInt8) (off n : Nat) : Option (List UInt8) :=
  if off + n ≤ region.length then
    some ((region.drop off).take n)
  else
    none

/-- A `memcpy` from `&base[off]` into a `uint32_t`. -/
def regionU32 (region : List UInt8) (off : Nat) : Option UInt32 :=
  (regionBytes region off 4).map fun bytes => UInt32.ofNat (ofLe bytes)

/-- A `memcpy` from `&base[off]` into an `fbl_app_header_t`. -/
def regionAppHeader (region : List UInt8) (off : Nat) : Option FblAppHeader :=
  (regionBytes region off fblAppHeaderSize.toNat).map fun bytes =>
    { magic := UInt32.ofNat (ofLe ((bytes.drop 0).take 4))
      hdrVersion := UInt16.ofNat (ofLe ((bytes.drop 4).take 2))
      hdrSize := UInt16.ofNat (ofLe ((bytes.drop 6).take 2))
      imageLen := UInt32.ofNat (ofLe ((bytes.drop 8).take 4)) }

section Checked

variable (words : WordArith) (algo : FblDigestAlgo) (region : List UInt8)

/-- `fbl_vector_sane`, in words. -/
def fblVectorSaneChecked (msp reset : UInt32) : Option Bool :=
  (words.add fblSramBase fblSramSize).bind fun sramEnd =>
    (words.add fblAppFlashBase.toUInt32 fblAppFlashSize.toUInt32).map
      fun flashEnd =>
        let mspOk := msp > fblSramBase && msp ≤ sramEnd && (msp &&& 0x7) = 0
        let resetOk :=
          reset ≥ fblAppFlashBase.toUInt32 && reset < flashEnd &&
            (reset &&& 0x1) = 1
        mspOk && resetOk

/-- The part of `fbl_app_image_valid` that the build chooses. -/
def fblImageAuthenticChecked
    (cryptoVerify : UInt32 → UInt32 → UInt32 → CryptoVerdict)
    (base imageLen : UInt32) : Option Bool :=
  match algo with
  | .crc32 =>
      (regionBytes region 0 imageLen.toNat).bind fun covered =>
        (regionBytes region imageLen.toNat
            FblDigestAlgo.crc32.digestSize.toNat).map
          fun stored => decide (fblDigest .crc32 covered = stored)
  | .sha256 =>
      (words.add imageLen FblDigestAlgo.sha256.digestSize).bind fun sigOff =>
        (words.add sigOff FblDigestAlgo.sha256.sigSize).bind fun keyIdOff =>
          (regionU32 region keyIdOff.toNat).bind fun keyId =>
            -- The other core reads this range.
            (regionBytes region 0 imageLen.toNat).map fun _ =>
              decide (cryptoVerify base imageLen keyId = .valid)

/-- `fbl_app_image_valid` of the region at `base`. -/
def fblAppImageValidChecked
    (cryptoVerify : UInt32 → UInt32 → UInt32 → CryptoVerdict)
    (base regionLen : UInt32) : Option Bool :=
  if base = 0 then
    some false
  else
    (words.add fblAppHeaderOffset fblAppHeaderSize).bind fun headerEnd =>
      (words.add headerEnd algo.trailerSize).bind fun minLen =>
        if regionLen < minLen then
          some false
        else
          (regionAppHeader region fblAppHeaderOffset.toNat).bind fun hdr =>
            if hdr.magic ≠ fblAppHeaderMagic then
              some false
            else
              let imageLen := hdr.imageLen
              if imageLen < headerEnd then
                some false
              else
                (words.sub regionLen algo.trailerSize).bind fun room =>
                  if imageLen > room then
                    some false
                  else
                    (fblImageAuthenticChecked words algo region cryptoVerify
                        base imageLen).bind fun authentic =>
                      if !authentic then
                        some false
                      else
                        (regionU32 region 0).bind fun msp =>
                          (regionU32 region 4).bind fun reset =>
                            fblVectorSaneChecked words msp reset

end Checked

section Reads

variable (mem : UInt32 → UInt8) (base : UInt32)

/-- The bytes of a region are those of memory. -/
theorem regionBytes_memBytes
    {off n size : Nat}
    (inside : off + n ≤ size) :
    regionBytes (memBytes mem base size) off n =
      some (memBytes mem (base + UInt32.ofNat off) n) := by
  rw [regionBytes, length_memBytes, if_pos inside,
    slice_memBytes mem base inside]

/-- The range from the start of the region. -/
theorem regionBytes_covered
    {imageLen regionLen : UInt32}
    (inside : imageLen.toNat ≤ regionLen.toNat) :
    regionBytes (memBytes mem base regionLen.toNat) 0 imageLen.toNat =
      some (memBytes mem base imageLen.toNat) := by
  rw [regionBytes_memBytes mem base (by rwa [Nat.zero_add])]
  exact congrArg (fun address => some (memBytes mem address _))
    (UInt32.add_zero base)

/-- So are its words. -/
theorem regionU32_memBytes
    {off size : Nat}
    (inside : off + 4 ≤ size) :
    regionU32 (memBytes mem base size) off =
      some (memU32 mem (base + UInt32.ofNat off)) := by
  rw [regionU32, regionBytes_memBytes mem base inside]
  rfl

/-- The word at the start of the region. -/
theorem regionU32_first
    {size : Nat}
    (inside : 4 ≤ size) :
    regionU32 (memBytes mem base size) 0 = some (memU32 mem base) := by
  rw [regionU32_memBytes mem base (by rwa [Nat.zero_add])]
  exact congrArg (fun address => some (memU32 mem address))
    (UInt32.add_zero base)

/-- And its header. -/
theorem regionAppHeader_memBytes
    {off size : Nat}
    (inside : off + fblAppHeaderSize.toNat ≤ size) :
    regionAppHeader (memBytes mem base size) off =
      some (memAppHeader mem (base + UInt32.ofNat off)) := by
  rw [regionAppHeader, regionBytes_memBytes mem base inside, Option.map_some]
  rw [slice_memBytes, slice_memBytes, slice_memBytes, slice_memBytes]
  · have here : base + UInt32.ofNat off + UInt32.ofNat 0 =
        base + UInt32.ofNat off :=
      UInt32.add_zero _
    rw [here]
    rfl
  all_goals decide

end Reads

section Check

variable
  (algo : FblDigestAlgo)
  (mem : UInt32 → UInt8)
  (cryptoVerify : UInt32 → UInt32 → UInt32 → CryptoVerdict)
  (base regionLen : UInt32)

/-- A region that is not too short has room for the trailer. -/
theorem trailer_fits
    (roomy :
      ¬regionLen < fblAppHeaderOffset + fblAppHeaderSize + algo.trailerSize) :
    algo.trailerSize ≤ regionLen := by
  refine UInt32.le_trans ?_ (UInt32.not_lt.mp roomy)
  cases algo <;> decide

/-- And for the header. -/
theorem header_fits
    (roomy :
      ¬regionLen < fblAppHeaderOffset + fblAppHeaderSize + algo.trailerSize) :
    0x10C ≤ regionLen.toNat := by
  refine Nat.le_trans ?_ (UInt32.le_iff_toNat_le.mp (UInt32.not_lt.mp roomy))
  cases algo <;> decide

/-- The upper bound of the length leaves room for the trailer. -/
theorem trailer_behind
    {imageLen : UInt32}
    (roomy :
      ¬regionLen < fblAppHeaderOffset + fblAppHeaderSize + algo.trailerSize) :
    ¬imageLen > regionLen - algo.trailerSize ↔
      imageLen.toNat + algo.trailerSize.toNat ≤ regionLen.toNat := by
  have trailerFits := trailer_fits algo regionLen roomy
  have smaller := UInt32.le_iff_toNat_le.mp trailerFits
  rw [gt_iff_lt, UInt32.not_lt, UInt32.le_iff_toNat_le,
    UInt32.toNat_sub_of_le _ _ trailerFits]
  omega

/-- The vector check does not overflow. -/
theorem fblVectorSaneChecked_eq
    {words : WordArith}
    (exact : words.Exact)
    (msp reset : UInt32) :
    fblVectorSaneChecked words msp reset = some (fblVectorSane msp reset) := by
  rw [fblVectorSaneChecked, exact.add_eq (by decide), Option.bind_some,
    exact.add_eq (by decide)]
  rfl

/-- Neither does the check the build chooses, nor does it leave the region. -/
theorem fblImageAuthenticChecked_eq
    {words : WordArith}
    (exact : words.Exact)
    {imageLen : UInt32}
    (inside :
      imageLen.toNat + algo.trailerSize.toNat ≤ regionLen.toNat) :
    fblImageAuthenticChecked words algo
        (memBytes mem base regionLen.toNat) cryptoVerify base imageLen =
      some (fblImageAuthentic algo mem cryptoVerify base imageLen) := by
  have covered :=
    @regionBytes_covered mem base imageLen regionLen (by omega)
  cases algo with
  | crc32 =>
      have trailer : FblDigestAlgo.crc32.trailerSize.toNat = 4 := rfl
      have size : FblDigestAlgo.crc32.digestSize.toNat = 4 := rfl
      rw [trailer] at inside
      rw [fblImageAuthenticChecked, covered, Option.bind_some,
        regionBytes_memBytes mem base (by rw [size]; exact inside),
        UInt32.ofNat_toNat]
      rfl
  | sha256 =>
      have trailer : FblDigestAlgo.sha256.trailerSize.toNat = 100 := rfl
      have digest : FblDigestAlgo.sha256.digestSize.toNat = 32 := rfl
      have signature : FblDigestAlgo.sha256.sigSize.toNat = 64 := rfl
      have bound := regionLen.toNat_lt
      rw [trailer] at inside
      have sigFits :
          imageLen.toNat + FblDigestAlgo.sha256.digestSize.toNat < 2 ^ 32 := by
        omega
      have sigOff := WordArith.toNat_add_of_fits sigFits
      have keyIdFits :
          (imageLen + FblDigestAlgo.sha256.digestSize).toNat +
              FblDigestAlgo.sha256.sigSize.toNat <
            2 ^ 32 := by
        omega
      have keyIdOff := WordArith.toNat_add_of_fits keyIdFits
      rw [fblImageAuthenticChecked, exact.add_eq sigFits, Option.bind_some,
        exact.add_eq keyIdFits, Option.bind_some,
        regionU32_memBytes mem base (by omega), UInt32.ofNat_toNat, covered,
        ← UInt32.add_assoc, ← UInt32.add_assoc]
      rfl

/-- The check reads nothing outside its region, and does not overflow. -/
theorem fblAppImageValidChecked_eq
    {words : WordArith}
    (exact : words.Exact) :
    fblAppImageValidChecked words algo (memBytes mem base regionLen.toNat)
        cryptoVerify base regionLen =
      some (fblAppImageValid algo mem cryptoVerify base regionLen) := by
  have headerEnd :
      words.add fblAppHeaderOffset fblAppHeaderSize =
        some (fblAppHeaderOffset + fblAppHeaderSize) :=
    exact.add_eq (by decide)
  have minLen :
      words.add (fblAppHeaderOffset + fblAppHeaderSize) algo.trailerSize =
        some (fblAppHeaderOffset + fblAppHeaderSize + algo.trailerSize) :=
    exact.add_eq (by cases algo <;> decide)
  unfold fblAppImageValidChecked fblAppImageValid
  rw [headerEnd]
  simp only [Option.bind_some, minLen]
  by_cases null : base = 0
  · rw [if_pos null, if_pos null]
  rw [if_neg null, if_neg null]
  by_cases short :
      regionLen < fblAppHeaderOffset + fblAppHeaderSize + algo.trailerSize
  · rw [if_pos short, if_pos short]
  rw [if_neg short, if_neg short]
  have trailerFits := trailer_fits algo regionLen short
  have long := header_fits algo regionLen short
  have header :
      regionAppHeader (memBytes mem base regionLen.toNat)
          fblAppHeaderOffset.toNat =
        some (memAppHeader mem (base + fblAppHeaderOffset)) :=
    regionAppHeader_memBytes mem base (Nat.le_trans (by decide) long)
  have msp :
      regionU32 (memBytes mem base regionLen.toNat) 0 =
        some (memU32 mem base) :=
    regionU32_first mem base (Nat.le_trans (by decide) long)
  have reset :
      regionU32 (memBytes mem base regionLen.toNat) 4 =
        some (memU32 mem (base + 4)) :=
    regionU32_memBytes mem base (Nat.le_trans (by decide) long)
  rw [header, Option.bind_some]
  generalize memAppHeader mem (base + fblAppHeaderOffset) = hdr
  by_cases magic : hdr.magic ≠ fblAppHeaderMagic
  · rw [if_pos magic, if_pos magic]
  rw [if_neg magic, if_neg magic]
  by_cases uncovered : hdr.imageLen < fblAppHeaderOffset + fblAppHeaderSize
  · rw [if_pos uncovered, if_pos uncovered]
  rw [if_neg uncovered, if_neg uncovered, exact.sub_eq trailerFits,
    Option.bind_some]
  by_cases tooLong : hdr.imageLen > regionLen - algo.trailerSize
  · rw [if_pos tooLong, if_pos tooLong]
  have inside := (trailer_behind algo regionLen short).mp tooLong
  rw [if_neg tooLong, if_neg tooLong,
    fblImageAuthenticChecked_eq algo mem cryptoVerify base regionLen exact
      inside,
    Option.bind_some, msp, reset]
  simp only [Option.bind_some, fblVectorSaneChecked_eq exact]
  split <;> rfl

end Check

/-!
## What is accepted
-/

/-- The digest matches, or the other core finds the signature valid. -/
def ImageAuthentic
    (algo : FblDigestAlgo)
    (cryptoVerify : UInt32 → UInt32 → UInt32 → CryptoVerdict)
    (base : UInt32)
    (region : List UInt8)
    (imageLen : UInt32) : Prop :=
  match algo with
  | .crc32 =>
      ∃ covered,
        regionBytes region 0 imageLen.toNat = some covered ∧
          regionBytes region imageLen.toNat 4 =
            some (fblDigest .crc32 covered)
  | .sha256 =>
      ∃ keyId,
        regionU32 region (imageLen.toNat + 32 + 64) = some keyId ∧
          cryptoVerify base imageLen keyId = .valid

/-- An image that may be started, in the bytes of its region. -/
structure ImageAcceptable
    (algo : FblDigestAlgo)
    (cryptoVerify : UInt32 → UInt32 → UInt32 → CryptoVerdict)
    (base : UInt32)
    (region : List UInt8)
    (hdr : FblAppHeader) : Prop where
  atHeader : regionAppHeader region 0x100 = some hdr
  magic : hdr.magic = fblAppHeaderMagic
  coversHeader : 0x100 + 12 ≤ hdr.imageLen.toNat
  leavesTrailer :
    hdr.imageLen.toNat + algo.trailerSize.toNat ≤ region.length
  authentic : ImageAuthentic algo cryptoVerify base region hdr.imageLen
  sane :
    ∃ msp reset,
      regionU32 region 0 = some msp ∧ regionU32 region 4 = some reset ∧
        fblVectorSane msp reset = true

section Accepted

variable
  {algo : FblDigestAlgo}
  {mem : UInt32 → UInt8}
  {cryptoVerify : UInt32 → UInt32 → UInt32 → CryptoVerdict}
  {base regionLen : UInt32}

/-- What the build's check says, in the bytes of the region. -/
theorem fblImageAuthentic_iff
    {imageLen : UInt32}
    (inside :
      imageLen.toNat + algo.trailerSize.toNat ≤ regionLen.toNat) :
    fblImageAuthentic algo mem cryptoVerify base imageLen = true ↔
      ImageAuthentic algo cryptoVerify base
        (memBytes mem base regionLen.toNat) imageLen := by
  cases algo with
  | crc32 =>
      have trailer : FblDigestAlgo.crc32.trailerSize.toNat = 4 := rfl
      rw [trailer] at inside
      have covered :=
        @regionBytes_covered mem base imageLen regionLen (by omega)
      have stored :
          regionBytes (memBytes mem base regionLen.toNat) imageLen.toNat 4 =
            some (memBytes mem (base + imageLen) 4) := by
        rw [regionBytes_memBytes mem base inside, UInt32.ofNat_toNat]
      simp only [ImageAuthentic, covered, stored, Option.some.injEq,
        exists_eq_left', fblImageAuthentic, decide_eq_true_eq]
      exact eq_comm
  | sha256 =>
      have trailer : FblDigestAlgo.sha256.trailerSize.toNat = 100 := rfl
      rw [trailer] at inside
      have keyId :
          regionU32 (memBytes mem base regionLen.toNat)
              (imageLen.toNat + 32 + 64) =
            some (memU32 mem (base + imageLen + 32 + 64)) := by
        rw [regionU32_memBytes mem base (by omega), UInt32.ofNat_add,
          UInt32.ofNat_add, UInt32.ofNat_toNat, ← UInt32.add_assoc,
          ← UInt32.add_assoc]
        rfl
      simp only [ImageAuthentic, keyId, Option.some.injEq, exists_eq_left',
        fblImageAuthentic, decide_eq_true_eq]
      exact Iff.rfl

/-- `fbl_app_image_valid` accepts what is acceptable. -/
theorem fblAppImageValid_acceptable :
    fblAppImageValid algo mem cryptoVerify base regionLen = true ↔
      base ≠ 0 ∧
        ∃ hdr,
          ImageAcceptable algo cryptoVerify base
            (memBytes mem base regionLen.toNat) hdr := by
  rw [fblAppImageValid_iff]
  dsimp only
  constructor
  · rintro ⟨mapped, roomy, magic, covers, room, authentic, sane⟩
    have inside := (trailer_behind algo regionLen roomy).mp room
    have long := header_fits algo regionLen roomy
    refine ⟨mapped, memAppHeader mem (base + fblAppHeaderOffset), ?_⟩
    exact
      { atHeader := regionAppHeader_memBytes mem base long
        magic := magic
        coversHeader := UInt32.le_iff_toNat_le.mp (UInt32.not_lt.mp covers)
        leavesTrailer := by rwa [length_memBytes]
        authentic := (fblImageAuthentic_iff inside).mp authentic
        sane :=
          ⟨_, _, regionU32_first mem base (by omega),
            regionU32_memBytes mem base (by omega), sane⟩ }
  · rintro ⟨mapped, hdr, acceptable⟩
    have inside := acceptable.leavesTrailer
    have covers := acceptable.coversHeader
    obtain ⟨msp, reset, mspRead, resetRead, sane⟩ := acceptable.sane
    rw [length_memBytes] at inside
    have long : 0x10C ≤ regionLen.toNat := by omega
    have header := acceptable.atHeader
    rw [regionAppHeader_memBytes mem base long] at header
    rw [regionU32_first mem base (by omega)] at mspRead
    rw [regionU32_memBytes mem base (by omega)] at resetRead
    cases header
    cases mspRead
    cases resetRead
    have roomy :
        ¬regionLen <
          fblAppHeaderOffset + fblAppHeaderSize + algo.trailerSize := by
      have minLen :
          (fblAppHeaderOffset + fblAppHeaderSize + algo.trailerSize).toNat =
            0x100 + 12 + algo.trailerSize.toNat := by
        cases algo <;> rfl
      rw [UInt32.lt_iff_toNat_lt, minLen]
      omega
    exact
      ⟨mapped, roomy, acceptable.magic,
        UInt32.not_lt.mpr (UInt32.le_iff_toNat_le.mpr covers),
        (trailer_behind algo regionLen roomy).mpr inside,
        (fblImageAuthentic_iff inside).mpr acceptable.authentic, sane⟩

end Accepted

/--
Whatever the region holds and however long it is, the image check reads its
region only and does not overflow, and it accepts what is acceptable: an image
whose header and vectors are covered, with its trailer in the region behind.
-/
theorem image_check_stays_in_region
    (algo : FblDigestAlgo)
    (mem : UInt32 → UInt8)
    (cryptoVerify : UInt32 → UInt32 → UInt32 → CryptoVerdict)
    (base regionLen : UInt32) :
    let region := memBytes mem base regionLen.toNat
    let valid := fblAppImageValid algo mem cryptoVerify base regionLen
    WordArith.Returns
        (fun words _ =>
          fblAppImageValidChecked words algo region cryptoVerify base regionLen)
        valid ∧
      (valid = true ↔
        base ≠ 0 ∧
          ∃ hdr, ImageAcceptable algo cryptoVerify base region hdr) ∧
      (valid = true →
        ∃ hdr,
          regionAppHeader region 0x100 = some hdr ∧
            0x100 + 12 ≤ hdr.imageLen.toNat ∧ 4 + 4 ≤ hdr.imageLen.toNat ∧
            hdr.imageLen.toNat + algo.trailerSize.toNat ≤ regionLen.toNat) := by
  intro region valid
  refine ⟨?_, fblAppImageValid_acceptable, fun isValid => ?_⟩
  · exact
      .of_exact 0 fun exact _ _ =>
        fblAppImageValidChecked_eq algo mem cryptoVerify base regionLen exact
  · obtain ⟨-, hdr, acceptable⟩ := fblAppImageValid_acceptable.mp isValid
    have inside := acceptable.leavesTrailer
    rw [length_memBytes] at inside
    exact
      ⟨hdr, acceptable.atHeader, acceptable.coversHeader,
        Nat.le_trans (by decide) acceptable.coversHeader, inside⟩

end TraveoBodyDomain
