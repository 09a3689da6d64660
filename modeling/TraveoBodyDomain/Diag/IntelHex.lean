import Mathlib.Algebra.Ring.Nat
import Mathlib.Data.List.TakeWhile
import Mathlib.Tactic.Common

/-!
# Reading the application image

`parse_intel_hex` of `uds_flash.py`.  The host tool reads an Intel HEX file line
by line, and keeps what every data record stores, at the base that the last
extended address record set.  A record is rejected for its checksum, and not for
its count.

The file is opened as ASCII text, and decoded in blocks: how many lines are read
before a line is handed out is the codec's, and a parameter here.
-/

namespace TraveoBodyDomain

/-- The whitespace that `str.strip` removes, of the ASCII characters. -/
def pyStripped (c : Char) : Bool :=
  [9, 10, 11, 12, 13, 28, 29, 30, 31, 32].contains c.toNat

/-- `str.strip`. -/
def pyStrip (s : List Char) : List Char :=
  ((s.dropWhile pyStripped).reverse.dropWhile pyStripped).reverse

/-- The whitespace that `bytes.fromhex` passes over. -/
def pyHexSpace (c : Char) : Bool :=
  [9, 10, 11, 12, 13, 32].contains c.toNat

/-- The value of a hexadecimal digit. -/
def pyHexDigit (c : Char) : Option Nat :=
  if 48 ≤ c.toNat ∧ c.toNat ≤ 57 then
    some (c.toNat - 48)
  else if 65 ≤ c.toNat ∧ c.toNat ≤ 70 then
    some (c.toNat - 55)
  else if 97 ≤ c.toNat ∧ c.toNat ≤ 102 then
    some (c.toNat - 87)
  else
    none

/-- `bytes.fromhex`; `none` is a `ValueError`. -/
def pyFromHex : List Char → Option (List UInt8)
  | [] => some []
  | [c] => if pyHexSpace c then some [] else none
  | c :: d :: rest =>
      if pyHexSpace c then
        pyFromHex (d :: rest)
      else do
        let high ← pyHexDigit c
        let low ← pyHexDigit d
        let bytes ← pyFromHex rest
        some (UInt8.ofNat (16 * high + low) :: bytes)

/-- A line of the file: no record, one that is not hexadecimal, or its bytes. -/
inductive HexLine where
  | skipped
  | broken
  | bytes (b : List UInt8)
  deriving Repr, DecidableEq

/-- What a line holds. -/
def hexLine (raw : List Char) : HexLine :=
  match pyStrip raw with
  | [] => .skipped
  | first :: text =>
      if first ≠ ':' then
        .skipped
      else
        match pyFromHex text with
        | some b => .bytes b
        | none => .broken

/-- A hexadecimal digit. -/
def hexChar (n : Nat) : Char :=
  Char.ofNat (if n < 10 then 48 + n else 55 + n)

/-- The line that a record of these bytes is written as. -/
def hexText (b : List UInt8) : List Char :=
  ':' :: b.flatMap (fun byte =>
    [hexChar (byte.toNat / 16), hexChar (byte.toNat % 16)]) ++ ['\n']

/-- A digit is read as its value, and is no whitespace. -/
theorem pyHexDigit_hexChar :
    ∀ n < 16,
      pyHexDigit (hexChar n) = some n ∧
        pyHexSpace (hexChar n) = false ∧ pyStripped (hexChar n) = false := by
  decide

/-- The digits of bytes are read as these bytes. -/
theorem pyFromHex_digits
    (b : List UInt8) :
    pyFromHex
        (b.flatMap fun byte =>
          [hexChar (byte.toNat / 16), hexChar (byte.toNat % 16)]) =
      some b := by
  induction b with
  | nil =>
      rfl
  | cons byte rest inductionHypothesis =>
      have fits := byte.toNat_lt
      obtain ⟨high, notSpace, -⟩ :=
        pyHexDigit_hexChar (byte.toNat / 16) (by omega)
      obtain ⟨low, -⟩ :=
        pyHexDigit_hexChar (byte.toNat % 16) (Nat.mod_lt _ (by decide))
      have whole : UInt8.ofNat (16 * (byte.toNat / 16) + byte.toNat % 16) =
          byte := by
        rw [Nat.div_add_mod, UInt8.ofNat_toNat]
      rw [List.flatMap_cons, List.cons_append, List.cons_append,
        List.nil_append, pyFromHex, notSpace, high, low, inductionHypothesis]
      exact congrArg (fun byte => some (byte :: rest)) whole

/-- A line without whitespace is what is left of it and its end. -/
theorem pyStrip_newline
    {line : List Char}
    (visible : ∀ c ∈ line, pyStripped c = false) :
    pyStrip (line ++ ['\n']) = line := by
  have kept (s : List Char) (within : ∀ c ∈ s, c ∈ line) :
      s.dropWhile pyStripped = s := by
    rw [List.dropWhile_eq_self_iff]
    intro nonempty stripped
    rw [visible _ (within _ (List.getElem_mem nonempty))] at stripped
    cases stripped
  cases line with
  | nil =>
      rfl
  | cons first rest =>
      have notFirst := visible first List.mem_cons_self
      have start :
          ((first :: rest) ++ ['\n']).dropWhile pyStripped =
            (first :: rest) ++ ['\n'] := by
        rw [List.cons_append, List.dropWhile_cons_of_neg (by simp [notFirst])]
      rw [pyStrip, start, List.reverse_append, List.reverse_singleton,
        List.singleton_append, List.dropWhile_cons_of_pos (by decide),
        kept _ fun c member => List.mem_reverse.mp member, List.reverse_reverse]

/-- What is written for a record is read as its bytes. -/
theorem hexLine_hexText
    (b : List UInt8) :
    hexLine (hexText b) = .bytes b := by
  have visible :
      ∀ c ∈ ':' :: b.flatMap (fun byte =>
          [hexChar (byte.toNat / 16), hexChar (byte.toNat % 16)]),
        pyStripped c = false := by
    rw [List.forall_mem_cons]
    refine ⟨by decide, fun c member => ?_⟩
    obtain ⟨byte, -, digit⟩ := List.mem_flatMap.mp member
    have fits := byte.toNat_lt
    rw [List.mem_cons, List.mem_singleton] at digit
    rcases digit with rfl | rfl
    · exact (pyHexDigit_hexChar _ (by omega)).2.2
    · exact (pyHexDigit_hexChar _ (Nat.mod_lt _ (by decide))).2.2
  rw [hexLine, hexText, pyStrip_newline visible]
  simp only [ne_eq, not_true_eq_false, if_false, pyFromHex_digits]

/-- Text that the ASCII codec decodes. -/
def pyAscii (raw : List Char) : Bool :=
  raw.all fun c => c.toNat < 128

/--
How many lines behind a line are decoded before it is handed out.  A line counts
when the block holds its first character that is not ASCII, or all of it.
-/
abbrev ReadAhead := Nat → Nat

/--
What is raised: a `ValueError`, with the line it names, an `IndexError`, or the
codec's `UnicodeDecodeError`.
-/
inductive HexError where
  | badChecksum (lineno : Nat)
  | notHex
  | index
  | notAscii
  deriving Repr, DecidableEq

/--
`mem` and `upper`.  `mem` is what was stored, in order: the dictionary holds at
an address what was stored there last.
-/
structure HexState where
  mem : List (Nat × UInt8)
  upper : Nat
  deriving Repr, DecidableEq

/-- `mem.get(addr)`: what was stored there last; `none` is no such key. -/
def hexLookup (mem : List (Nat × UInt8)) (addr : Nat) : Option UInt8 :=
  (mem.reverse.find? fun store => store.1 == addr).map Prod.snd

/-- `for i, byte in enumerate(data): mem[base + i] = byte`. -/
def hexStores (base : Nat) (data : List UInt8) : List (Nat × UInt8) :=
  data.mapIdx fun i byte => (base + i, byte)

/-- `sum(b)`. -/
def hexSum (b : List UInt8) : Nat :=
  (b.map UInt8.toNat).sum

/-- What a record does, and whether it ends the file. -/
def hexRecordStep
    (lineno : Nat)
    (b : List UInt8)
    (s : HexState) : Except HexError (HexState × Bool) :=
  match b with
  | count :: addrHi :: addrLo :: rectype :: rest =>
      let data := rest.take count.toNat
      if hexSum b &&& 0xFF ≠ 0 then
        .error (.badChecksum lineno)
      else if rectype = 0x00 then
        let base := (s.upper <<< 16) + (addrHi.toNat <<< 8) + addrLo.toNat
        .ok ({ s with mem := s.mem ++ hexStores base data }, false)
      else if rectype = 0x04 then
        match data with
        | high :: low :: _ =>
            .ok ({ s with upper := (high.toNat <<< 8) + low.toNat }, false)
        | _ => .error .index
      else if rectype = 0x02 then
        match data with
        | high :: low :: _ =>
            .ok
              ({ s with upper := ((high.toNat <<< 8) + low.toNat) >>> 12 }, false)
        | _ => .error .index
      else if rectype = 0x01 then
        .ok (s, true)
      else
        .ok (s, false)
  | _ => .error .index

/-- The loop of `parse_intel_hex`, over the lines that are left. -/
def parseIntelHexFrom (ahead : ReadAhead) :
    Nat → HexState → List (List Char) → Except HexError (List (Nat × UInt8))
  | _, s, [] => .ok s.mem
  | lineno, s, raw :: rest =>
      if ((raw :: rest).take (ahead lineno + 1)).all pyAscii then
        match hexLine raw with
        | .skipped => parseIntelHexFrom ahead (lineno + 1) s rest
        | .broken => .error .notHex
        | .bytes b =>
            match hexRecordStep lineno b s with
            | .error error => .error error
            | .ok (s, ends) =>
                if ends then
                  .ok s.mem
                else
                  parseIntelHexFrom ahead (lineno + 1) s rest
      else
        .error .notAscii

/-- `parse_intel_hex`, of a file given by its lines. -/
def parseIntelHex (ahead : ReadAhead) (lines : List (List Char)) :
    Except HexError (List (Nat × UInt8)) :=
  parseIntelHexFrom ahead 1 { mem := [], upper := 0 } lines

/-!
## The format
-/

/-- A well-formed record, by what it says. -/
inductive HexRecord where
  | data (offset : Nat) (bytes : List UInt8)
  | endOfFile
  | segment (value : Nat)
  | linear (value : Nat)
  deriving Repr, DecidableEq

/-- A number of two bytes, the high one first. -/
def hexWord (high low : UInt8) : Nat :=
  256 * high.toNat + low.toNat

/--
The record of a line's bytes: the count is that of the data bytes, all bytes add
up to 0, and a data record stays in its 64 KB.
-/
def HexRecord.ofBytes : List UInt8 → Option HexRecord
  | count :: addrHi :: addrLo :: rectype :: rest =>
      let data := rest.take count.toNat
      let offset := hexWord addrHi addrLo
      if rest.length = count.toNat + 1 ∧
          hexSum (count :: addrHi :: addrLo :: rectype :: rest) % 256 = 0 then
        if rectype = 0x00 then
          if offset + data.length ≤ 65536 then some (.data offset data) else none
        else if rectype = 0x01 then
          some .endOfFile
        else
          match data with
          | [high, low] =>
              if rectype = 0x02 then
                some (.segment (hexWord high low))
              else if rectype = 0x04 then
                some (.linear (hexWord high low))
              else
                none
          | _ => none
      else
        none
  | _ => none

/-- The records of a file, when each of its record lines is well-formed. -/
def hexRecords : List (List Char) → Option (List HexRecord)
  | [] => some []
  | raw :: rest =>
      match hexLine raw with
      | .skipped => hexRecords rest
      | .broken => none
      | .bytes b => do
          let record ← HexRecord.ofBytes b
          let records ← hexRecords rest
          some (record :: records)

/-- What records store, in order, with the base that a segment value sets. -/
def hexStoresBy (segmentBase : Nat → Nat) :
    Nat → List HexRecord → List (Nat × UInt8)
  | _, [] => []
  | base, .data offset bytes :: rest =>
      hexStores (base + offset) bytes ++ hexStoresBy segmentBase base rest
  | _, .endOfFile :: _ => []
  | _, .segment value :: rest =>
      hexStoresBy segmentBase (segmentBase value) rest
  | _, .linear value :: rest => hexStoresBy segmentBase (65536 * value) rest

/-- What the format says the records store: a segment is 16 bytes. -/
def hexFormat (records : List HexRecord) : List (Nat × UInt8) :=
  hexStoresBy (fun value => 16 * value) 0 records

/-- A line that is `bad`, with none before it that `ends` the file. -/
def HexBeforeEnd
    (ends : List Char → Prop)
    (bad : Nat → List Char → List (List Char) → Prop)
    (lineno : Nat)
    (lines : List (List Char)) : Prop :=
  ∃ before line after,
    lines = before ++ line :: after ∧
      (∀ earlier ∈ before, ¬ends earlier) ∧
      bad (lineno + before.length) line after

/-- The line is the record that ends the file. -/
def HexLine.IsEnd (line : HexLine) : Prop :=
  ∃ b, line = .bytes b ∧ HexRecord.ofBytes b = some .endOfFile

/-- The line is a record with a wrong count or a wrong checksum. -/
def HexLine.IsMalformed (line : HexLine) : Prop :=
  ∃ b, line = .bytes b ∧
    (b.length ≠ (b.headD 0).toNat + 5 ∨ hexSum b % 256 ≠ 0)

/-- A record before the end of the file has a wrong count or checksum. -/
def HexMalformed (lines : List (List Char)) : Prop :=
  HexBeforeEnd (fun raw => (hexLine raw).IsEnd)
    (fun _ raw _ => (hexLine raw).IsMalformed) 1 lines

/--
A well-formed file is read as the map from addresses to bytes that the format
gives it, and a malformed one is rejected.
-/
structure HexParsedRightly
    (ahead : ReadAhead)
    (lines : List (List Char)) : Prop where
  wellFormed :
    ∀ records, hexRecords lines = some records →
      ∃ mem, parseIntelHex ahead lines = .ok mem ∧
        ∀ addr, hexLookup mem addr = hexLookup (hexFormat records) addr
  malformed :
    HexMalformed lines → ∃ error, parseIntelHex ahead lines = .error error

/-!
## Where bytes go
-/

/-- What `upper` makes of a segment value. -/
def hexCodedBase (value : Nat) : Nat :=
  65536 * (value / 4096)

/-- A byte of a data record, where the code puts it, and where it is due. -/
structure HexPlacement where
  put : Nat
  due : Nat
  byte : UInt8
  deriving Repr, DecidableEq

/-- Where the bytes of records go, behind these two bases. -/
def hexPlacements : Nat → Nat → List HexRecord → List HexPlacement
  | _, _, [] => []
  | coded, base, .data offset bytes :: rest =>
      bytes.mapIdx (fun i byte => ⟨coded + offset + i, base + offset + i, byte⟩) ++
        hexPlacements coded base rest
  | _, _, .endOfFile :: _ => []
  | _, _, .segment value :: rest =>
      hexPlacements (hexCodedBase value) (16 * value) rest
  | _, _, .linear value :: rest =>
      hexPlacements (65536 * value) (65536 * value) rest

/-- The last byte that goes to this address. -/
def LastPlaced
    (address : HexPlacement → Nat)
    (placements : List HexPlacement)
    (addr : Nat)
    (byte : UInt8) : Prop :=
  ∃ before placement after,
    placements = before ++ placement :: after ∧
      address placement = addr ∧ placement.byte = byte ∧
      ∀ later ∈ after, address later ≠ addr

/-- A misplaced byte that is the last one here is also the last one there. -/
def MisplacedUnseen
    (here there : HexPlacement → Nat)
    (placements : List HexPlacement) : Prop :=
  ∀ before placement after,
    placements = before ++ placement :: after →
      placement.put ≠ placement.due →
      (∀ later ∈ after, here later ≠ here placement) →
      LastPlaced there placements (here placement) placement.byte

/--
No misplaced byte shows.  Where it was put, it is overwritten, or the byte that
is due there; where it is due, another byte is, or it was put there after all.
-/
structure HexHarmless (records : List HexRecord) : Prop where
  put :
    MisplacedUnseen HexPlacement.put HexPlacement.due (hexPlacements 0 0 records)
  due :
    MisplacedUnseen HexPlacement.due HexPlacement.put (hexPlacements 0 0 records)

/-- What a record makes of the state, and whether it ends the file. -/
def HexRecord.apply (s : HexState) : HexRecord → HexState × Bool
  | .data offset bytes =>
      ({ s with mem := s.mem ++ hexStores (65536 * s.upper + offset) bytes },
        false)
  | .endOfFile => (s, true)
  | .segment value => ({ s with upper := value / 4096 }, false)
  | .linear value => ({ s with upper := value }, false)

/-- The low byte of a sum is its remainder. -/
theorem hexSum_and
    (b : List UInt8) :
    hexSum b &&& 0xFF = hexSum b % 256 :=
  Nat.and_two_pow_sub_one_eq_mod _ 8

/-- Two bytes, as the code puts them together. -/
theorem hexWord_eq
    (high low : UInt8) :
    (high.toNat <<< 8) + low.toNat = hexWord high low := by
  rw [Nat.shiftLeft_eq, hexWord, Nat.mul_comm]

/-- A well-formed record does what it is for. -/
theorem hexRecordStep_ofBytes
    {b : List UInt8}
    {record : HexRecord}
    (wellFormed : HexRecord.ofBytes b = some record)
    (lineno : Nat)
    (s : HexState) :
    hexRecordStep lineno b s = .ok (record.apply s) := by
  match b with
  | [] | [_] | [_, _] | [_, _, _] => cases wellFormed
  | count :: addrHi :: addrLo :: rectype :: rest =>
      rw [HexRecord.ofBytes] at wellFormed
      rw [hexRecordStep]
      by_cases exact :
          rest.length = count.toNat + 1 ∧
            hexSum (count :: addrHi :: addrLo :: rectype :: rest) % 256 = 0
      · rw [if_pos exact] at wellFormed
        rw [hexSum_and, if_neg (not_not.mpr exact.2)]
        by_cases isData : rectype = 0x00
        · subst isData
          rw [if_pos rfl] at wellFormed
          obtain ⟨-, rfl⟩ := Option.ite_some_none_eq_some.mp wellFormed
          rw [if_pos rfl, Nat.add_assoc, hexWord_eq, Nat.shiftLeft_eq,
            Nat.mul_comm]
          rfl
        rw [if_neg isData] at wellFormed ⊢
        by_cases isEnd : rectype = 0x01
        · subst isEnd
          obtain rfl := Option.some.inj wellFormed
          rfl
        rw [if_neg isEnd] at wellFormed
        match data : rest.take count.toNat with
        | [] | [_] | _ :: _ :: _ :: _ =>
            rw [data] at wellFormed
            cases wellFormed
        | [high, low] =>
            rw [data] at wellFormed
            by_cases isSegment : rectype = 0x02
            · subst isSegment
              obtain rfl := Option.some.inj wellFormed
              simp only [hexWord_eq, Nat.shiftRight_eq_div_pow]
              rfl
            · by_cases isLinear : rectype = 0x04
              · subst isLinear
                obtain rfl := Option.some.inj wellFormed
                simp only [hexWord_eq]
                rfl
              · simp only [if_neg isSegment, if_neg isLinear] at wellFormed
                cases wellFormed
      · rw [if_neg exact] at wellFormed
        cases wellFormed

/-- What is stored at the first of two kinds of address, and at the second. -/
theorem hexStoresBy_placements
    (records : List HexRecord)
    (coded base : Nat) :
    hexStoresBy hexCodedBase coded records =
        (hexPlacements coded base records).map
          (fun placement => (placement.put, placement.byte)) ∧
      hexStoresBy (fun value => 16 * value) base records =
        (hexPlacements coded base records).map
          (fun placement => (placement.due, placement.byte)) := by
  induction records generalizing coded base with
  | nil =>
      exact ⟨rfl, rfl⟩
  | cons record rest inductionHypothesis =>
      cases record with
      | data offset bytes =>
          obtain ⟨put, due⟩ := inductionHypothesis coded base
          simp only [hexStoresBy, hexPlacements, hexStores, List.map_append,
            List.mapIdx_eq_zipIdx_map, List.map_map, put, due]
          exact ⟨rfl, rfl⟩
      | endOfFile =>
          exact ⟨rfl, rfl⟩
      | segment value =>
          exact inductionHypothesis _ _
      | linear value =>
          exact inductionHypothesis _ _

/-- An address holds what was stored there last. -/
theorem hexLookup_eq_some_iff
    {mem : List (Nat × UInt8)}
    {addr : Nat}
    {byte : UInt8} :
    hexLookup mem addr = some byte ↔
      ∃ before after,
        mem = before ++ (addr, byte) :: after ∧
          ∀ later ∈ after, later.1 ≠ addr := by
  rw [hexLookup, Option.map_eq_some_iff]
  constructor
  · rintro ⟨store, found, rfl⟩
    rw [List.find?_eq_some_iff_append] at found
    obtain ⟨same, after, before, split, noneLater⟩ := found
    obtain rfl := eq_of_beq same
    refine ⟨before.reverse, after.reverse, ?_, fun later isLater same => ?_⟩
    · rw [← List.reverse_reverse mem, split, List.reverse_append,
        List.reverse_cons, List.append_assoc, List.singleton_append]
    · have other := noneLater later (List.mem_reverse.mp isLater)
      rw [same, beq_self_eq_true] at other
      cases other
  · rintro ⟨before, after, rfl, noneLater⟩
    refine ⟨(addr, byte), List.find?_eq_some_iff_append.mpr ?_, rfl⟩
    refine ⟨beq_self_eq_true _, after.reverse, before.reverse, ?_, ?_⟩
    · rw [List.reverse_append, List.reverse_cons, List.append_assoc,
        List.singleton_append]
    · intro later isLater
      have other := noneLater later (List.mem_reverse.mp isLater)
      rw [beq_eq_false_iff_ne.mpr other]
      rfl

/-- The keys are the addresses that something is stored at. -/
theorem hexLookup_eq_none_iff
    {mem : List (Nat × UInt8)}
    {addr : Nat} :
    hexLookup mem addr = none ↔ addr ∉ mem.map Prod.fst := by
  rw [hexLookup, Option.map_eq_none_iff, List.find?_eq_none]
  constructor
  · intro noStore member
    obtain ⟨store, stored, rfl⟩ := List.mem_map.mp member
    exact noStore store (List.mem_reverse.mpr stored) (beq_self_eq_true _)
  · intro noKey store stored same
    exact
      noKey
        (List.mem_map.mpr
          ⟨store, List.mem_reverse.mp stored, eq_of_beq same⟩)

/-- An address holds the last byte that went to it. -/
theorem hexLookup_placements
    {address : HexPlacement → Nat}
    {placements : List HexPlacement}
    {addr : Nat}
    {byte : UInt8} :
    hexLookup
        (placements.map fun placement => (address placement, placement.byte))
        addr = some byte ↔
      LastPlaced address placements addr byte := by
  rw [hexLookup_eq_some_iff]
  constructor
  · rintro ⟨before, after, split, noneLater⟩
    obtain ⟨earlier, last, rfl, -, whole⟩ := List.map_eq_append_iff.mp split
    obtain ⟨placement, later, rfl, isLast, rfl⟩ :=
      List.map_eq_cons_iff.mp whole
    obtain ⟨here, same⟩ := Prod.mk.inj isLast
    exact
      ⟨earlier, placement, later, rfl, here, same, fun other isOther =>
        noneLater _ (List.mem_map_of_mem isOther)⟩
  · rintro ⟨before, placement, after, rfl, rfl, rfl, noneLater⟩
    refine
      ⟨before.map _, after.map _, by rw [List.map_append, List.map_cons], ?_⟩
    intro other isOther
    obtain ⟨later, isLater, rfl⟩ := List.mem_map.mp isOther
    exact noneLater later isLater

/-- A later store replaces what was there. -/
theorem hexLookup_concat
    (mem : List (Nat × UInt8))
    (stored addr : Nat)
    (byte : UInt8) :
    hexLookup (mem ++ [(stored, byte)]) addr =
      if stored = addr then some byte else hexLookup mem addr := by
  rw [hexLookup, List.reverse_append, List.reverse_singleton,
    List.singleton_append, List.find?_cons]
  by_cases same : stored = addr
  · simp [same]
  · simp [same, beq_eq_false_iff_ne.mpr same, hexLookup]

/-- The last byte at an address is one byte. -/
theorem LastPlaced.unique
    {address : HexPlacement → Nat}
    {placements : List HexPlacement}
    {addr : Nat}
    {first second : UInt8}
    (one : LastPlaced address placements addr first)
    (other : LastPlaced address placements addr second) :
    first = second := by
  have found := hexLookup_placements.mpr one
  rw [hexLookup_placements.mpr other] at found
  exact (Option.some.inj found).symm

/-- The last bytes here are the last bytes there. -/
theorem LastPlaced.transfer
    {here there : HexPlacement → Nat}
    {placements : List HexPlacement}
    (either :
      ∀ placement : HexPlacement,
        placement.put = placement.due ↔ here placement = there placement)
    (unseenHere : MisplacedUnseen here there placements)
    (unseenThere : MisplacedUnseen there here placements)
    {addr : Nat}
    {byte : UInt8}
    (last : LastPlaced here placements addr byte) :
    LastPlaced there placements addr byte := by
  have whole := last
  obtain ⟨before, placement, after, split, rfl, rfl, noneLater⟩ := last
  by_cases placed : placement.put = placement.due
  · have same := (either placement).mp placed
    cases following :
        hexLookup (after.map fun later => (there later, later.byte))
          (here placement) with
    | none =>
        rw [hexLookup_eq_none_iff, List.map_map] at following
        exact
          ⟨before, placement, after, split, same.symm, rfl,
            fun later isLater here =>
              following (List.mem_map.mpr ⟨later, isLater, here⟩)⟩
    | some byte =>
        -- A byte that goes there later is misplaced, so that this one is its.
        obtain ⟨between, misplaced, rest, rfl, there, rfl, noneBehind⟩ :=
          hexLookup_placements.mp following
        have elsewhere : misplaced.put ≠ misplaced.due := by
          intro placed
          exact
            noneLater misplaced
              (List.mem_append_right _ List.mem_cons_self)
              (((either misplaced).mp placed).trans there)
        have split' :
            placements =
              (before ++ placement :: between) ++ misplaced :: rest := by
          rw [split, List.append_assoc, List.cons_append]
        rw [← there] at noneBehind whole
        rw [← there, whole.unique
          (unseenThere _ misplaced rest split' elsewhere noneBehind)]
        exact ⟨_, misplaced, rest, split', rfl, rfl, noneBehind⟩
  · exact unseenHere before placement after split placed noneLater

/-- The two maps are the same when no misplaced byte shows, and only then. -/
theorem hexLookup_eq_iff
    {records : List HexRecord} :
    (∀ addr,
        hexLookup (hexStoresBy hexCodedBase 0 records) addr =
          hexLookup (hexFormat records) addr) ↔
      HexHarmless records := by
  obtain ⟨put, due⟩ := hexStoresBy_placements records 0 0
  rw [hexFormat, put, due]
  constructor
  · intro same
    constructor
    · intro before placement after split _ noneLater
      rw [← hexLookup_placements, ← same, hexLookup_placements]
      exact ⟨before, placement, after, split, rfl, rfl, noneLater⟩
    · intro before placement after split _ noneLater
      rw [← hexLookup_placements, same, hexLookup_placements]
      exact ⟨before, placement, after, split, rfl, rfl, noneLater⟩
  · intro harmless addr
    refine Option.ext fun byte => ?_
    rw [hexLookup_placements, hexLookup_placements]
    exact
      ⟨LastPlaced.transfer (fun _ => Iff.rfl) harmless.put harmless.due,
        LastPlaced.transfer (fun _ => eq_comm) harmless.due harmless.put⟩

/-- Where every byte is put where it is due, none is misplaced. -/
theorem HexHarmless.of_placed
    {records : List HexRecord}
    (placed :
      ∀ placement ∈ hexPlacements 0 0 records,
        placement.put = placement.due) :
    HexHarmless records := by
  constructor <;>
    · intro before placement after split misplaced _
      refine absurd (placed placement ?_) misplaced
      rw [split]
      exact List.mem_append_right _ List.mem_cons_self

/-!
## What is rejected
-/

/-- The bytes of a record that the file does not survive. -/
def HexRejectedBytes (b : List UInt8) : Prop :=
  b.length < 4 ∨ hexSum b % 256 ≠ 0 ∨
    (b[3]? = some 0x02 ∨ b[3]? = some 0x04) ∧
      ((b.drop 4).take (b.headD 0).toNat).length < 2

/--
The line is not hexadecimal, or its record has fewer than four bytes, a wrong
checksum, or an address of fewer than two bytes.
-/
def HexLine.IsRejected (line : HexLine) : Prop :=
  line = .broken ∨ ∃ b, line = .bytes b ∧ HexRejectedBytes b

/-- The line has the type of the record that ends the file. -/
def HexLine.Ends (line : HexLine) : Prop :=
  ∃ b, line = .bytes b ∧ b[3]? = some 0x01

/-- One of the lines that are decoded with this one is not ASCII. -/
def HexUndecodable
    (ahead : ReadAhead)
    (lineno : Nat)
    (raw : List Char)
    (rest : List (List Char)) : Prop :=
  ∃ decoded ∈ (raw :: rest).take (ahead lineno + 1), pyAscii decoded = false

/-- A line that cannot be decoded is, before one that ends the file. -/
def HexUndecoded
    (ahead : ReadAhead)
    (lineno : Nat)
    (lines : List (List Char)) : Prop :=
  HexBeforeEnd (fun raw => (hexLine raw).Ends) (HexUndecodable ahead) lineno
    lines

/-- A line that the file does not survive, before one that ends it. -/
def HexRejected
    (ahead : ReadAhead)
    (lineno : Nat)
    (lines : List (List Char)) : Prop :=
  HexBeforeEnd (fun raw => (hexLine raw).Ends)
    (fun lineno raw rest =>
      (hexLine raw).IsRejected ∨ HexUndecodable ahead lineno raw rest)
    lineno lines

/-- What the loop asks is that every line it has read so far is ASCII. -/
theorem hexUndecodable_iff
    {ahead : ReadAhead}
    {lineno : Nat}
    {raw : List Char}
    {rest : List (List Char)} :
    HexUndecodable ahead lineno raw rest ↔
      ¬((raw :: rest).take (ahead lineno + 1)).all pyAscii = true := by
  simp only [HexUndecodable, Bool.not_eq_true, List.all_eq_false]

/-- No line that is skipped is rejected. -/
theorem HexLine.not_isRejected_skipped :
    ¬HexLine.skipped.IsRejected := by
  rintro (broken | ⟨b, bytes, -⟩)
  · cases broken
  · cases bytes

/-- The bytes of a record decide whether it is rejected. -/
theorem HexLine.isRejected_bytes_iff
    {b : List UInt8} :
    (HexLine.bytes b).IsRejected ↔ HexRejectedBytes b := by
  constructor
  · rintro (broken | ⟨other, same, rejected⟩)
    · cases broken
    · rw [HexLine.bytes.inj same]
      exact rejected
  · exact fun rejected => .inr ⟨b, rfl, rejected⟩

/-- The bytes of a record decide whether it ends the file. -/
theorem HexLine.ends_bytes_iff
    {b : List UInt8} :
    (HexLine.bytes b).Ends ↔ b[3]? = some 0x01 := by
  constructor
  · rintro ⟨other, same, isEnd⟩
    rw [HexLine.bytes.inj same]
    exact isEnd
  · exact fun isEnd => ⟨b, rfl, isEnd⟩

/-- A record of four bytes and more is rejected for its sum or its address. -/
theorem hexRejectedBytes_cons
    {count addrHi addrLo rectype : UInt8}
    {rest : List UInt8} :
    HexRejectedBytes (count :: addrHi :: addrLo :: rectype :: rest) ↔
      hexSum (count :: addrHi :: addrLo :: rectype :: rest) % 256 ≠ 0 ∨
        (rectype = 0x02 ∨ rectype = 0x04) ∧
          (rest.take count.toNat).length < 2 := by
  have longEnough :
      ¬(count :: addrHi :: addrLo :: rectype :: rest).length < 4 := by
    simp only [List.length_cons]
    omega
  have rectypeOf :
      (count :: addrHi :: addrLo :: rectype :: rest)[3]? = some rectype := rfl
  simp only [HexRejectedBytes, longEnough, false_or, rectypeOf,
    Option.some.injEq, List.drop_succ_cons, List.drop_zero, List.headD_cons]

/-- A record raises an error, ends the file, or is followed by the next one. -/
theorem hexRecordStep_cases
    (lineno : Nat)
    (b : List UInt8)
    (s : HexState) :
    (HexRejectedBytes b ∧ ∃ error, hexRecordStep lineno b s = .error error) ∨
      ¬HexRejectedBytes b ∧
        ((b[3]? = some 0x01 ∧ hexRecordStep lineno b s = .ok (s, true)) ∨
          (b[3]? ≠ some 0x01 ∧
            ∃ after, hexRecordStep lineno b s = .ok (after, false))) := by
  match b with
  | [] | [_] | [_, _] | [_, _, _] =>
      exact .inl ⟨.inl (by simp), .index, rfl⟩
  | count :: addrHi :: addrLo :: rectype :: rest =>
      have rectypeOf :
          (count :: addrHi :: addrLo :: rectype :: rest)[3]? = some rectype :=
        rfl
      rw [hexRejectedBytes_cons, rectypeOf, hexRecordStep, hexSum_and]
      by_cases checksum :
          hexSum (count :: addrHi :: addrLo :: rectype :: rest) % 256 = 0
      · rw [if_neg (not_not.mpr checksum)]
        have rightSum :
            ¬hexSum (count :: addrHi :: addrLo :: rectype :: rest) % 256 ≠ 0 :=
          not_not.mpr checksum
        rw [or_iff_right rightSum]
        -- An address record needs its two bytes, whatever its count is.
        by_cases isAddress : rectype = 0x02 ∨ rectype = 0x04
        · rw [and_iff_right isAddress]
          match data : rest.take count.toNat with
          | [] | [_] =>
              refine .inl ⟨by simp, .index, ?_⟩
              rcases isAddress with rfl | rfl <;> rfl
          | high :: low :: more =>
              refine .inr ⟨by simp, .inr ?_⟩
              rcases isAddress with rfl | rfl
              · exact ⟨by decide, _, rfl⟩
              · exact ⟨by decide, _, rfl⟩
        · rw [not_or] at isAddress
          refine .inr ⟨fun rejected => not_or.mpr isAddress rejected.1, ?_⟩
          by_cases isEnd : rectype = 0x01
          · subst isEnd
            exact .inl ⟨rfl, rfl⟩
          · refine .inr ⟨fun same => isEnd (Option.some.inj same), ?_⟩
            by_cases isData : rectype = 0x00
            · exact ⟨_, if_pos isData⟩
            · simp only [if_neg isData, if_neg isAddress.1,
                if_neg isAddress.2, if_neg isEnd]
              exact ⟨_, rfl⟩
      · exact .inl ⟨.inl checksum, .badChecksum lineno, if_pos checksum⟩

/-- No line that is skipped ends the file. -/
theorem HexLine.not_ends_skipped :
    ¬HexLine.skipped.Ends := by
  rintro ⟨b, bytes, -⟩
  cases bytes

/-- Where the first line is bad, or does not end the file and a later one is. -/
theorem hexBeforeEnd_cons
    {ends : List Char → Prop}
    {bad : Nat → List Char → List (List Char) → Prop}
    {lineno : Nat}
    {raw : List Char}
    {rest : List (List Char)} :
    HexBeforeEnd ends bad lineno (raw :: rest) ↔
      bad lineno raw rest ∨
        ¬ends raw ∧ HexBeforeEnd ends bad (lineno + 1) rest := by
  have position (before : List (List Char)) :
      lineno + (raw :: before).length = lineno + 1 + before.length := by
    rw [List.length_cons, Nat.add_comm before.length, Nat.add_assoc]
  constructor
  · rintro ⟨before, line, after, split, noneEnds, isBad⟩
    cases before with
    | nil =>
        obtain ⟨rfl, rfl⟩ := List.cons.inj split
        exact .inl isBad
    | cons first before =>
        obtain ⟨rfl, rfl⟩ := List.cons.inj split
        rw [List.forall_mem_cons] at noneEnds
        rw [position] at isBad
        exact .inr ⟨noneEnds.1, before, line, after, rfl, noneEnds.2, isBad⟩
  · rintro (isBad | ⟨notEnd, before, line, after, rfl, noneEnds, isBad⟩)
    · exact ⟨[], raw, rest, rfl, List.forall_mem_nil _, isBad⟩
    · refine ⟨raw :: before, line, after, rfl,
        List.forall_mem_cons.mpr ⟨notEnd, noneEnds⟩, ?_⟩
      rw [position]
      exact isBad

/-- A file is rejected at a line before its end, and not otherwise. -/
theorem parseIntelHexFrom_error_iff
    (ahead : ReadAhead)
    (lines : List (List Char))
    (lineno : Nat)
    (s : HexState) :
    (∃ error, parseIntelHexFrom ahead lineno s lines = .error error) ↔
      HexRejected ahead lineno lines := by
  induction lines generalizing lineno s with
  | nil =>
      constructor
      · rintro ⟨error, isError⟩
        cases isError
      · rintro ⟨before, line, after, split, -⟩
        cases before <;> cases split
  | cons raw rest inductionHypothesis =>
      rw [HexRejected, hexBeforeEnd_cons, ← HexRejected, parseIntelHexFrom]
      by_cases undecodable : HexUndecodable ahead lineno raw rest
      · rw [if_neg (hexUndecodable_iff.mp undecodable)]
        exact iff_of_true ⟨.notAscii, rfl⟩ (.inl (.inr undecodable))
      rw [if_pos (not_not.mp (mt hexUndecodable_iff.mpr undecodable)),
        or_iff_left undecodable]
      cases line : hexLine raw with
      | skipped =>
          exact (inductionHypothesis (lineno + 1) s).trans
            ((or_iff_right HexLine.not_isRejected_skipped).trans
              (and_iff_right HexLine.not_ends_skipped)).symm
      | broken =>
          exact iff_of_true ⟨.notHex, rfl⟩ (.inl (.inl rfl))
      | bytes b =>
          rw [HexLine.isRejected_bytes_iff, HexLine.ends_bytes_iff]
          rcases hexRecordStep_cases lineno b s with
            ⟨rejected, error, raised⟩ |
              ⟨accepted, ⟨isEnd, ended⟩ | ⟨notEnd, after, next⟩⟩
          · simp only [raised]
            exact iff_of_true ⟨error, rfl⟩ (.inl rejected)
          · simp only [ended]
            refine iff_of_false ?_ ?_
            · rintro ⟨error, isError⟩
              cases isError
            · rintro (rejected | ⟨notEnd, -⟩)
              · exact accepted rejected
              · exact notEnd isEnd
          · simp only [next]
            exact (inductionHypothesis (lineno + 1) after).trans
              ((or_iff_right accepted).trans (and_iff_right notEnd)).symm

/-- A file that is not decoded is rejected. -/
theorem HexUndecoded.rejected
    {ahead : ReadAhead}
    {lineno : Nat}
    {lines : List (List Char)} :
    HexUndecoded ahead lineno lines → HexRejected ahead lineno lines := by
  rintro ⟨before, line, after, split, noneEnds, undecodable⟩
  exact ⟨before, line, after, split, noneEnds, .inr undecodable⟩

/-!
## What is read
-/

/-- The records of a well-formed file are read one after the other. -/
theorem parseIntelHexFrom_records
    {ahead : ReadAhead}
    {lines : List (List Char)}
    {records : List HexRecord}
    (wellFormed : hexRecords lines = some records)
    {lineno : Nat}
    (decoded : ¬HexUndecoded ahead lineno lines)
    (s : HexState) :
    parseIntelHexFrom ahead lineno s lines =
      .ok (s.mem ++ hexStoresBy hexCodedBase (65536 * s.upper) records) := by
  induction lines generalizing lineno s records with
  | nil =>
      obtain rfl := Option.some.inj wellFormed
      rw [hexStoresBy, List.append_nil]
      rfl
  | cons raw rest inductionHypothesis =>
      rw [HexUndecoded, hexBeforeEnd_cons, ← HexUndecoded, not_or, not_and]
        at decoded
      obtain ⟨decodable, following⟩ := decoded
      rw [hexRecords] at wellFormed
      rw [parseIntelHexFrom,
        if_pos (not_not.mp (mt hexUndecodable_iff.mpr decodable))]
      cases line : hexLine raw with
      | skipped =>
          rw [line] at wellFormed following
          exact
            inductionHypothesis wellFormed
              (following HexLine.not_ends_skipped) s
      | broken =>
          rw [line] at wellFormed
          cases wellFormed
      | bytes b =>
          rw [line, HexLine.ends_bytes_iff] at following
          simp only [line, Option.bind_eq_bind, Option.bind_eq_some_iff,
            Option.some.injEq] at wellFormed
          obtain ⟨record, isRecord, later, areLater, rfl⟩ := wellFormed
          have step := hexRecordStep_ofBytes isRecord lineno s
          rcases hexRecordStep_cases lineno b s with
            ⟨-, error, raised⟩ | ⟨-, ⟨-, ended⟩ | ⟨notEnd, after, next⟩⟩
          · rw [raised] at step
            cases step
          · simp only [ended]
            rw [ended] at step
            cases record with
            | endOfFile =>
                rw [hexStoresBy, List.append_nil]
                rfl
            | data offset bytes | segment value | linear value =>
                cases (Prod.mk.inj (Except.ok.inj step)).2
          · have read := inductionHypothesis areLater (following notEnd) after
            simp only [next, Bool.false_eq_true, if_false, read]
            rw [next] at step
            cases record with
            | endOfFile => cases step
            | data offset bytes =>
                obtain ⟨rfl, -⟩ := Prod.mk.inj (Except.ok.inj step)
                rw [hexStoresBy, List.append_assoc]
            | segment value =>
                obtain ⟨rfl, -⟩ := Prod.mk.inj (Except.ok.inj step)
                rfl
            | linear value =>
                obtain ⟨rfl, -⟩ := Prod.mk.inj (Except.ok.inj step)
                rfl

/--
The lines up to the end of the records are decoded, and no misplaced byte shows.
-/
structure HexReadable
    (ahead : ReadAhead)
    (lines : List (List Char))
    (records : List HexRecord) : Prop where
  decoded : ¬HexUndecoded ahead 1 lines
  harmless : HexHarmless records

/-- A well-formed file is read as its map when it is readable, and only then. -/
theorem parseIntelHex_format_iff
    {ahead : ReadAhead}
    {lines : List (List Char)}
    {records : List HexRecord}
    (wellFormed : hexRecords lines = some records) :
    (∃ mem, parseIntelHex ahead lines = .ok mem ∧
        ∀ addr, hexLookup mem addr = hexLookup (hexFormat records) addr) ↔
      HexReadable ahead lines records := by
  constructor
  · rintro ⟨mem, read, same⟩
    have decoded : ¬HexUndecoded ahead 1 lines := by
      intro undecoded
      obtain ⟨error, isError⟩ :=
        (parseIntelHexFrom_error_iff ahead lines 1 _).mpr undecoded.rejected
      rw [parseIntelHex, isError] at read
      cases read
    rw [parseIntelHex, parseIntelHexFrom_records wellFormed decoded] at read
    obtain rfl := Except.ok.inj read
    exact ⟨decoded, hexLookup_eq_iff.mp same⟩
  · rintro ⟨decoded, harmless⟩
    exact
      ⟨_, parseIntelHexFrom_records wellFormed decoded _,
        hexLookup_eq_iff.mpr harmless⟩

/--
A well-formed file is readable, and a malformed record comes with a line that is
rejected: its checksum is wrong, it is too short to be read, or it is not decoded.
-/
structure HexParsable
    (ahead : ReadAhead)
    (lines : List (List Char)) : Prop where
  readable :
    ∀ records, hexRecords lines = some records →
      HexReadable ahead lines records
  rejected :
    HexMalformed lines → HexRejected ahead 1 lines

/--
A file is read as the map of the format, or rejected when it is malformed, unless
a byte behind a segment that is not at a multiple of 64 KB shows at a wrong
address, a line of a well-formed file is not decoded, or a wrong count has a
right checksum.
-/
theorem hex_parsed_rightly_iff
    (ahead : ReadAhead)
    (lines : List (List Char)) :
    HexParsedRightly ahead lines ↔ HexParsable ahead lines := by
  constructor
  · rintro ⟨wellFormed, malformed⟩
    refine ⟨fun records areRecords => ?_, fun isMalformed => ?_⟩
    · exact (parseIntelHex_format_iff areRecords).mp
        (wellFormed records areRecords)
    · exact (parseIntelHexFrom_error_iff ahead lines 1 _).mp
        (malformed isMalformed)
  · rintro ⟨readable, rejected⟩
    refine ⟨fun records areRecords => ?_, fun isMalformed => ?_⟩
    · exact (parseIntelHex_format_iff areRecords).mpr
        (readable records areRecords)
    · exact (parseIntelHexFrom_error_iff ahead lines 1 _).mpr
        (rejected isMalformed)

/--
A byte at segment 0x1001 is stored 16 bytes too low, and a record of three bytes
whose count is two is read.
-/
theorem unaligned_segment_is_misplaced :
    ¬HexParsedRightly (fun _ => 0)
        [":020000021001EB".toList, ":01000000AA55".toList,
          ":00000001FF".toList] ∧
      ¬HexParsedRightly (fun _ => 0)
        [":02000000AABBCCCD".toList, ":00000001FF".toList] := by
  constructor
  · rintro ⟨wellFormed, -⟩
    obtain ⟨mem, read, same⟩ :=
      wellFormed [.segment 0x1001, .data 0 [0xAA], .endOfFile] (by decide)
    have stored :
        parseIntelHex (fun _ => 0)
            [":020000021001EB".toList, ":01000000AA55".toList,
              ":00000001FF".toList] =
          .ok [(0x10000, 0xAA)] := by
      decide
    rw [stored] at read
    obtain rfl := Except.ok.inj read
    exact absurd (same 0x10000) (by decide)
  · rintro ⟨-, malformed⟩
    obtain ⟨error, isError⟩ :=
      malformed
        ⟨[], ":02000000AABBCCCD".toList, [":00000001FF".toList], rfl,
          List.forall_mem_nil _, [0x02, 0, 0, 0, 0xAA, 0xBB, 0xCC, 0xCD],
          by decide, .inl (by decide)⟩
    have accepted :
        parseIntelHex (fun _ => 0)
            [":02000000AABBCCCD".toList, ":00000001FF".toList] =
          .ok [(0, 0xAA), (1, 0xBB)] := by
      decide
    rw [accepted] at isError
    cases isError

/-- A misplaced byte that is overwritten, and stored again where it is due. -/
example :
    HexHarmless
      [.segment 0x1001, .data 0 [0xAA], .linear 1, .data 0 [0x55],
        .data 0x10 [0xAA], .endOfFile] := by
  refine hexLookup_eq_iff.mp fun addr => ?_
  have looked (first : Nat) :
      hexLookup [(first, 0xAA), (0x10000, 0x55), (0x10010, 0xAA)] addr =
        if 0x10010 = addr then some 0xAA
        else if 0x10000 = addr then some 0x55
        else if first = addr then some 0xAA
        else none := by
    change
      hexLookup
          ((([] ++ [(first, 0xAA)]) ++ [(0x10000, 0x55)]) ++ [(0x10010, 0xAA)])
          addr = _
    rw [hexLookup_concat, hexLookup_concat, hexLookup_concat]
    rfl
  refine (looked 0x10000).trans (Eq.trans ?_ (looked 0x10010).symm)
  split_ifs <;> rfl

end TraveoBodyDomain
