import Mathlib.Data.List.Induction
import TraveoBodyDomain.Diag.IntelHex
import TraveoBodyDomain.Diag.Reprogram

/-!
# From the file to the bytes that are downloaded

`extract_app_body` and `build_download_image` of `uds_flash.py`.  What the file
stores from the application base on, up to the highest address, becomes one run
of bytes; what lies between two stored bytes is 0xFF, and so is the padding.
-/

namespace TraveoBodyDomain

/-- `extract_app_body`; `none` is the `ValueError`. -/
def extractAppBody (mem : List (Nat × UInt8)) (appBase : Nat) :
    Option (List UInt8) :=
  let appAddrs := (mem.map Prod.fst).filter fun addr => appBase ≤ addr
  appAddrs.max?.map fun top =>
    (List.range (top - appBase + 1)).map fun i =>
      (hexLookup mem (appBase + i)).getD 0xFF

/-- `build_download_image`; `none` is any exception. -/
def buildDownloadImage
    (ahead : ReadAhead)
    (lines : List (List Char))
    (appBase : Nat) : Option (List UInt8) :=
  match parseIntelHex ahead lines with
  | .error _ => none
  | .ok mem => (extractAppBody mem appBase).map padDownloadImage

/-- From this address on, the stores leave exactly these bytes. -/
def HexHolds (mem : List (Nat × UInt8)) (appBase : Nat) (image : List UInt8) :
    Prop :=
  ∀ i, hexLookup mem (appBase + i) = image[i]?

/-- The highest of the addresses is that of the last byte. -/
theorem max?_of_holds
    {mem : List (Nat × UInt8)}
    {appBase : Nat}
    {image : List UInt8}
    (holds : HexHolds mem appBase image)
    (nonempty : image ≠ []) :
    ((mem.map Prod.fst).filter fun addr => appBase ≤ addr).max? =
      some (appBase + (image.length - 1)) := by
  have someBytes : 0 < image.length := List.length_pos_iff.mpr nonempty
  have key (i : Nat) : appBase + i ∈ mem.map Prod.fst ↔ i < image.length := by
    rw [← not_iff_not, ← hexLookup_eq_none_iff, holds i,
      List.getElem?_eq_none_iff, Nat.not_lt]
  rw [List.max?_eq_some_iff]
  constructor
  · rw [List.mem_filter]
    exact ⟨(key _).mpr (by omega), by simp⟩
  · intro addr member
    obtain ⟨stored, above⟩ := List.mem_filter.mp member
    obtain ⟨i, rfl⟩ := Nat.exists_eq_add_of_le (of_decide_eq_true above)
    have inside := (key i).mp stored
    omega

/-- Bytes that are stored without a gap are extracted. -/
theorem extractAppBody_of_holds
    {mem : List (Nat × UInt8)}
    {appBase : Nat}
    {image : List UInt8}
    (holds : HexHolds mem appBase image)
    (nonempty : image ≠ []) :
    extractAppBody mem appBase = some image := by
  have someBytes : 0 < image.length := List.length_pos_iff.mpr nonempty
  have size : appBase + (image.length - 1) - appBase + 1 = image.length := by
    omega
  rw [extractAppBody, max?_of_holds holds nonempty, Option.map_some, size]
  refine congrArg some (List.ext_getElem (by simp) fun i inRange inImage => ?_)
  rw [List.getElem_map, List.getElem_range, holds i,
    List.getElem?_eq_getElem inImage, Option.getD_some]

/-- Records one behind the other store what one would. -/
theorem hexStores_append
    (base : Nat)
    (first second : List UInt8) :
    hexStores base (first ++ second) =
      hexStores base first ++ hexStores (base + first.length) second := by
  rw [hexStores, hexStores, hexStores, List.mapIdx_append]
  refine congrArg _ (congrArg (List.mapIdx · second) ?_)
  funext i byte
  rw [Nat.add_comm i, Nat.add_assoc]

/-- Bytes stored one behind the other are held. -/
theorem hexStores_holds (appBase : Nat) (image : List UInt8) :
    HexHolds (hexStores appBase image) appBase image := by
  intro i
  induction image using List.reverseRecOn with
  | nil =>
      rfl
  | append_singleton rest byte inductionHypothesis =>
      rw [hexStores_append]
      refine (hexLookup_concat _ (appBase + rest.length) _ byte).trans ?_
      rw [inductionHypothesis, List.getElem?_append]
      rcases Nat.lt_trichotomy i rest.length with inside | rfl | past
      · rw [if_neg (by omega), if_pos inside]
      · simp
      · rw [if_neg (by omega), if_neg (by omega),
          List.getElem?_eq_none (Nat.le_of_lt past),
          List.getElem?_eq_none (by simp; omega)]

/-- A file that stores an image is downloaded as that image, padded. -/
theorem buildDownloadImage_of_holds
    {ahead : ReadAhead}
    {lines : List (List Char)}
    {records : List HexRecord}
    {appBase : Nat}
    {image : List UInt8}
    (wellFormed : hexRecords lines = some records)
    (readable : HexReadable ahead lines records)
    (holds : HexHolds (hexFormat records) appBase image)
    (nonempty : image ≠ []) :
    buildDownloadImage ahead lines appBase = some (padDownloadImage image) := by
  obtain ⟨mem, parsed, same⟩ := (parseIntelHex_format_iff wellFormed).mpr readable
  have stored : HexHolds mem appBase image := fun i =>
    (same _).trans (holds i)
  rw [buildDownloadImage, parsed]
  dsimp only
  rw [extractAppBody_of_holds stored nonempty]
  rfl

/-- Padding leaves what it pads. -/
theorem padDownloadImage_getD
    {stamped : List UInt8}
    {i : Nat}
    (inside : i < stamped.length) :
    (padDownloadImage stamped).getD i 0 = stamped.getD i 0 := by
  rw [padDownloadImage, List.getD_eq_getElem?_getD,
    List.getElem?_append_left inside, ← List.getD_eq_getElem?_getD]

end TraveoBodyDomain
