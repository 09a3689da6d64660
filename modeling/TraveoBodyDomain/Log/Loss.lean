import TraveoBodyDomain.Log.RoundTrip

/-!
# No loss goes unnoticed

On the device, what was dropped between two records is reported between them,
once and with its number.  On the host, the sequence numbers show that nothing
else is missing: the stream as it was sent has no gap, and records that are
taken out of it leave one gap of just their number.
-/

namespace TraveoBodyDomain

/-- The item is a record under another event ID than that of a report. -/
def LogItem.IsEvent (item : LogItem) : Prop :=
  ∃ r ∈ item.record?, r.evt ≠ logEvtOverflow

/-- The counts that the `OVERFLOW` records in a part of the trace carry. -/
def overflowCounts (trace : List LogEvent) : List Nat :=
  ((recordsIn (storedItems trace)).filter (·.evt = logEvtOverflow)).map
    fun r => r.arg0.toNat

/--
Between two records that follow each other, an `OVERFLOW` record stands if and
only if something was dropped there, and then one that carries the number.
-/
def AnnouncesDrops (trace : List LogEvent) : Prop :=
  ∀ before first between second after,
    trace =
        before ++ .stored first :: (between ++ .stored second :: after) →
      first.IsEvent →
        second.IsEvent →
          (∀ item ∈ storedItems between, ¬ item.IsEvent) →
            overflowCounts between =
              if dropCount between = 0 then [] else [dropCount between]

/--
A reading of the trace that keeps the drops and the reported counts since the
last record.
-/
def Balanced : Nat → List Nat → List LogEvent → Prop
  | _, _, [] => True
  | drops, counts, .dropped :: rest => Balanced (drops + 1) counts rest
  | drops, counts, .sent _ :: rest => Balanced drops counts rest
  | drops, counts, .stored item :: rest =>
      match item.record? with
      | none => Balanced drops counts rest
      | some r =>
          if r.evt = logEvtOverflow then
            Balanced drops (counts ++ [r.arg0.toNat]) rest
          else
            (counts = if drops = 0 then [] else [drops]) ∧ Balanced 0 [] rest

/-- A record ends what was kept. -/
theorem balanced_event
    {item : LogItem}
    (isEvent : item.IsEvent)
    (drops : Nat)
    (counts : List Nat)
    (rest : List LogEvent) :
    Balanced drops counts (.stored item :: rest) ↔
      (counts = if drops = 0 then [] else [drops]) ∧ Balanced 0 [] rest := by
  obtain ⟨r, read, other⟩ := isEvent
  rw [Option.mem_def] at read
  simp only [Balanced, read, other, if_false]

/-- A report is kept. -/
theorem balanced_report
    {item : LogItem}
    {r : LogRec}
    (read : item.record? = some r)
    (isReport : r.evt = logEvtOverflow)
    (drops : Nat)
    (counts : List Nat)
    (rest : List LogEvent) :
    Balanced drops counts (.stored item :: rest) ↔
      Balanced drops (counts ++ [r.arg0.toNat]) rest := by
  simp only [Balanced, read, isReport, if_true]

/-- Behind a record nothing is kept. -/
theorem Balanced.behind
    {first : LogItem}
    (isEvent : first.IsEvent)
    {drops : Nat}
    {counts : List Nat}
    {before rest : List LogEvent}
    (balanced : Balanced drops counts (before ++ .stored first :: rest)) :
    Balanced 0 [] rest := by
  induction before generalizing drops counts with
  | nil =>
      exact ((balanced_event isEvent ..).mp balanced).2
  | cons event before inductionHypothesis =>
      cases event with
      | dropped =>
          exact inductionHypothesis balanced
      | sent bytes =>
          exact inductionHypothesis balanced
      | stored item =>
          simp only [List.cons_append, Balanced] at balanced
          split at balanced
          · exact inductionHypothesis balanced
          · split at balanced
            · exact inductionHypothesis balanced
            · exact inductionHypothesis balanced.2

/-- At the next record, what was reported is what was dropped. -/
theorem Balanced.counts
    {second : LogItem}
    (isEvent : second.IsEvent)
    {drops : Nat}
    {counts : List Nat}
    {between after : List LogEvent}
    (noEvent : ∀ item ∈ storedItems between, ¬ item.IsEvent)
    (balanced : Balanced drops counts (between ++ .stored second :: after)) :
    counts ++ overflowCounts between =
      if drops + dropCount between = 0 then []
      else [drops + dropCount between] := by
  induction between generalizing drops counts with
  | nil =>
      have now := ((balanced_event isEvent ..).mp balanced).1
      rw [show overflowCounts [] = [] from rfl, List.append_nil]
      exact now
  | cons event between inductionHypothesis =>
      cases event with
      | dropped =>
          have later := inductionHypothesis noEvent balanced
          have sum :
              drops + dropCount (.dropped :: between) =
                drops + 1 + dropCount between := by
            have one :
                dropCount (.dropped :: between) = dropCount between + 1 :=
              List.countP_cons_of_pos rfl
            omega
          rw [sum]
          exact later
      | sent bytes =>
          exact inductionHypothesis noEvent balanced
      | stored item =>
          have notThis : ¬ item.IsEvent :=
            noEvent item (List.mem_cons_self ..)
          have noneLater : ∀ item ∈ storedItems between, ¬ item.IsEvent :=
            fun other member => noEvent other (List.mem_cons_of_mem _ member)
          have sameDrops :
              dropCount (.stored item :: between) = dropCount between :=
            rfl
          have stored :
              storedItems (.stored item :: between) =
                item :: storedItems between :=
            rfl
          simp only [List.cons_append, Balanced] at balanced
          rw [sameDrops]
          cases read : item.record? with
          | none =>
              simp only [read] at balanced
              have sameCounts :
                  overflowCounts (.stored item :: between) =
                    overflowCounts between := by
                unfold overflowCounts
                rw [stored, recordsIn, List.filterMap_cons_none read]
                rfl
              rw [sameCounts]
              exact inductionHypothesis noneLater balanced
          | some r =>
              have isReport : r.evt = logEvtOverflow := by
                by_contra other
                exact notThis ⟨r, read, other⟩
              simp only [read, isReport, if_true] at balanced
              have moreCounts :
                  overflowCounts (.stored item :: between) =
                    r.arg0.toNat :: overflowCounts between := by
                unfold overflowCounts
                rw [stored, recordsIn, List.filterMap_cons_some read]
                simp only [List.filter_cons, isReport, decide_true, if_true,
                  List.map_cons]
                rfl
              have later := inductionHypothesis noneLater balanced
              rw [moreCounts]
              rw [List.append_assoc] at later
              exact later

/-- A balanced trace announces its drops. -/
theorem Balanced.announces
    {trace : List LogEvent}
    (balanced : Balanced 0 [] trace) :
    AnnouncesDrops trace := by
  rintro before first between second after rfl firstIs secondIs noEvent
  have later := (balanced.behind firstIs).counts secondIs noEvent
  rw [List.nil_append, Nat.zero_add] at later
  exact later

section Device

variable {image : LogImage} {s : LogState}

/-- One call keeps the pending count in step with what was dropped. -/
theorem logStep_balanced
    {action : LogAction}
    {rest : List LogEvent}
    (fits : s.Fits image)
    (avoids : action.AvoidsOverflow)
    (few :
      s.pendingOverflow.toNat + dropCount (logStep image s action).2 < 2 ^ 32)
    (balanced :
      Balanced (logStep image s action).1.pendingOverflow.toNat [] rest) :
    Balanced s.pendingOverflow.toNat []
      ((logStep image s action).2 ++ rest) := by
  have noted :
      s.pendingOverflow.toNat + 1 < 2 ^ 32 →
        (logNoteDrop s).pendingOverflow.toNat =
          s.pendingOverflow.toNat + 1 := by
    intro small
    change (s.pendingOverflow + 1).toNat = _
    rw [UInt32.toNat_add]
    exact Nat.mod_eq_of_lt small
  cases action with
  | evt nowMs evt arg0 arg1 =>
      have outcome := logEvt_outcome nowMs evt arg0 arg1 fits
      simp only [logStep] at few balanced ⊢
      generalize logEvt image nowMs evt arg0 arg1 s = result at *
      have other : evt ≠ logEvtOverflow := avoids
      cases outcome with
      | dropped =>
          rw [noted few] at balanced
          exact balanced
      | plain nothingPending next enqueued =>
          obtain ⟨ring, head, rfl⟩ := enqueued.frame
          have zero : s.pendingOverflow.toNat = 0 := by
            rw [nothingPending]
            rfl
          dsimp only at balanced
          rw [zero] at balanced ⊢
          exact (balanced_event ⟨_, rfl, other⟩ ..).mpr ⟨rfl, balanced⟩
      | reported pending next enqueued =>
          have some_ : s.pendingOverflow.toNat ≠ 0 := by
            intro zero
            exact pending (UInt32.toNat_inj.mp zero)
          refine (balanced_report rfl rfl ..).mpr ?_
          refine (balanced_event ⟨_, rfl, other⟩ ..).mpr ⟨?_, balanced⟩
          rw [if_neg some_]
          rfl
  | text text =>
      have outcome := logText_outcome text fits
      simp only [logStep] at few balanced ⊢
      generalize logText image text s = result at *
      cases outcome with
      | rejected notAscii =>
          exact balanced
      | dropped =>
          rw [noted few] at balanced
          exact balanced
      | stored bytes scanned next enqueued =>
          obtain ⟨ring, head, rfl⟩ := enqueued.frame
          exact balanced
  | drain maxBytes answers =>
      have drained := logDrainLoop_drains maxBytes answers maxBytes false fits
      change Balanced (logDrain image maxBytes answers s).2.2.pendingOverflow.toNat
        [] rest at balanced
      unfold logDrain at balanced
      rw [drained.frame] at balanced
      exact balanced

/-- A call adds no more to the pending count than it drops. -/
theorem logStep_pending
    (action : LogAction)
    (fits : s.Fits image) :
    (logStep image s action).1.pendingOverflow.toNat ≤
      s.pendingOverflow.toNat + dropCount (logStep image s action).2 := by
  have noted :
      (logNoteDrop s).pendingOverflow.toNat ≤ s.pendingOverflow.toNat + 1 := by
    change (s.pendingOverflow + 1).toNat ≤ _
    rw [UInt32.toNat_add]
    exact Nat.mod_le ..
  cases action with
  | evt nowMs evt arg0 arg1 =>
      have outcome := logEvt_outcome nowMs evt arg0 arg1 fits
      simp only [logStep]
      generalize logEvt image nowMs evt arg0 arg1 s = result at *
      cases outcome with
      | dropped =>
          exact noted
      | plain nothingPending next enqueued =>
          obtain ⟨ring, head, rfl⟩ := enqueued.frame
          exact Nat.le_add_right ..
      | reported pending next enqueued =>
          exact Nat.zero_le _
  | text text =>
      have outcome := logText_outcome text fits
      simp only [logStep]
      generalize logText image text s = result at *
      cases outcome with
      | rejected notAscii =>
          exact Nat.le_add_right ..
      | dropped =>
          exact noted
      | stored bytes scanned next enqueued =>
          obtain ⟨ring, head, rfl⟩ := enqueued.frame
          exact Nat.le_add_right ..
  | drain maxBytes answers =>
      have drained := logDrainLoop_drains maxBytes answers maxBytes false fits
      change (logDrain image maxBytes answers s).2.2.pendingOverflow.toNat ≤ _
      unfold logDrain
      rw [drained.frame]
      exact Nat.le_add_right ..

/-- So do all the calls. -/
theorem trace_balanced
    {actions : List LogAction}
    (fits : s.Fits image)
    (avoids : ∀ action ∈ actions, action.AvoidsOverflow)
    (few :
      s.pendingOverflow.toNat +
          dropCount (Machine.trace (logStep image) s actions) < 2 ^ 32) :
    Balanced s.pendingOverflow.toNat []
      (Machine.trace (logStep image) s actions) := by
  induction actions generalizing s with
  | nil =>
      trivial
  | cons action rest inductionHypothesis =>
      have keeps := logStep_keeps action fits
      have pendingStep := logStep_pending action fits
      rw [Machine.trace_cons, dropCount_append] at few
      refine
        logStep_balanced fits (avoids action (List.mem_cons_self ..)) (by omega)
          (inductionHypothesis keeps.fits
            (fun other member => avoids other (List.mem_cons_of_mem _ member))
            (by omega))

/-- The records of one core, numbered from `n` on. -/
def Numbered (core : LogCore) : Nat → List LogRec → Prop
  | _, [] => True
  | n, r :: rest =>
      r.core = core ∧ r.seq.toNat = n % 64 ∧ Numbered core (n + 1) rest

/-- Numbering goes on behind the first part. -/
theorem numbered_append
    {core : LogCore}
    {n : Nat}
    {first second : List LogRec} :
    Numbered core n (first ++ second) ↔
      Numbered core n first ∧ Numbered core (n + first.length) second := by
  induction first generalizing n with
  | nil =>
      simp [Numbered]
  | cons r rest inductionHypothesis =>
      rw [List.cons_append, Numbered, Numbered, inductionHypothesis,
        List.length_cons, Nat.add_assoc, Nat.add_comm 1, and_assoc, and_assoc]

/-- The sequence number is counted modulo 64. -/
theorem logSeqAfter_toNat
    {seq step : UInt8}
    {n : Nat}
    (numbered : seq.toNat = n % 64) :
    (logSeqAfter seq step).toNat = (n + step.toNat) % 64 := by
  rw [logSeqAfter, UInt8.toNat_and, UInt8.toNat_add]
  change _ &&& (2 ^ 6 - 1) = _
  rw [Nat.and_two_pow_sub_one_eq_mod, numbered]
  omega

/-- The records among the events. -/
def storedRecords (events : List LogEvent) : List LogRec :=
  recordsIn (storedItems events)

/-- One call numbers its records on. -/
theorem logStep_numbered
    {core : LogCore}
    {n : Nat}
    (action : LogAction)
    (fits : s.Fits image)
    (sameCore : s.core = core)
    (numbered : s.seq.toNat = n % 64) :
    (logStep image s action).1.core = core ∧
      Numbered core n (storedRecords (logStep image s action).2) ∧
        (logStep image s action).1.seq.toNat =
          (n + (storedRecords (logStep image s action).2).length) % 64 := by
  cases action with
  | evt nowMs evt arg0 arg1 =>
      have outcome := logEvt_outcome nowMs evt arg0 arg1 fits
      simp only [logStep]
      generalize logEvt image nowMs evt arg0 arg1 s = result at *
      cases outcome with
      | dropped =>
          exact ⟨sameCore, trivial, numbered⟩
      | plain nothingPending next enqueued =>
          obtain ⟨ring, head, rfl⟩ := enqueued.frame
          exact
            ⟨sameCore, ⟨sameCore, numbered, trivial⟩,
              logSeqAfter_toNat numbered⟩
      | reported pending next enqueued =>
          obtain ⟨ring, head, rfl⟩ := enqueued.frame
          exact
            ⟨sameCore,
              ⟨sameCore, numbered, sameCore, logSeqAfter_toNat numbered,
                trivial⟩,
              logSeqAfter_toNat numbered⟩
  | text text =>
      have outcome := logText_outcome text fits
      simp only [logStep]
      generalize logText image text s = result at *
      cases outcome with
      | rejected notAscii =>
          exact ⟨sameCore, trivial, numbered⟩
      | dropped =>
          exact ⟨sameCore, trivial, numbered⟩
      | stored bytes scanned next enqueued =>
          obtain ⟨ring, head, rfl⟩ := enqueued.frame
          exact ⟨sameCore, trivial, numbered⟩
  | drain maxBytes answers =>
      have drained := logDrainLoop_drains maxBytes answers maxBytes false fits
      change (logDrain image maxBytes answers s).2.2.core = core ∧
        True ∧ (logDrain image maxBytes answers s).2.2.seq.toNat = _
      unfold logDrain
      rw [drained.frame]
      exact ⟨sameCore, trivial, numbered⟩

/-- All the calls number their records on. -/
theorem trace_numbered
    {core : LogCore}
    {n : Nat}
    {actions : List LogAction}
    (fits : s.Fits image)
    (sameCore : s.core = core)
    (numbered : s.seq.toNat = n % 64) :
    Numbered core n
      (storedRecords (Machine.trace (logStep image) s actions)) := by
  induction actions generalizing s n with
  | nil =>
      trivial
  | cons action rest inductionHypothesis =>
      obtain ⟨nextCore, now, nextNumber⟩ :=
        logStep_numbered action fits sameCore numbered
      have split :
          storedRecords (Machine.trace (logStep image) s (action :: rest)) =
            storedRecords (logStep image s action).2 ++
              storedRecords
                (Machine.trace (logStep image) (logStep image s action).1
                  rest) := by
        rw [Machine.trace_cons, storedRecords, storedItems_append, recordsIn,
          List.filterMap_append]
        rfl
      rw [split]
      exact
        numbered_append.mpr
          ⟨now,
            inductionHypothesis (logStep_keeps action fits).fits nextCore
              nextNumber⟩

end Device

section Host

variable {core : LogCore} {n : Nat} {lastSeq : Nat → Option Nat}

/-- The last number of the core, if there was one, comes just before `n`. -/
def Awaits (core : LogCore) (lastSeq : Nat → Option Nat) (n : Nat) : Prop :=
  ∀ p, lastSeq core.toByte.toNat = some p → (p + 1) % 64 = n % 64

/-- The number that is awaited leaves no gap. -/
theorem gapBefore_awaited
    {r : LogRec}
    (sameCore : r.core = core)
    (numbered : r.seq.toNat = n % 64)
    (awaits : Awaits core lastSeq n) :
    gapBefore lastSeq (hostRecord r) = [] := by
  have nothing : missingBefore lastSeq (hostRecord r) = 0 := by
    unfold missingBefore hostRecord
    dsimp only
    rw [sameCore, numbered]
    split_ifs
    · rfl
    · cases last : lastSeq core.toByte.toNat with
      | none =>
          rfl
      | some p =>
          have before := awaits p last
          change (((n % 64 : Nat) - (p : Int) - 1) % 64).toNat = 0
          omega
  rw [gapBefore, nothing]
  exact if_neg (not_not.mpr rfl)

/-- A number that comes `d` later than awaited leaves a gap of `d`. -/
theorem gapBefore_later
    {r : LogRec}
    {p d : Nat}
    (sameCore : r.core = core)
    (last : lastSeq core.toByte.toNat = some p)
    (numbered : r.seq.toNat = n % 64)
    (later : (p + 1 + d) % 64 = n % 64)
    (someMissing : 1 ≤ d)
    (fewMissing : d ≤ 63)
    (noBoot : r.evt ≠ logEvtBoot) :
    gapBefore lastSeq (hostRecord r) = [.gap core.toByte.toNat d] := by
  have notBoot : ¬ r.evt.toNat = bootEvtId := by
    intro boot
    exact noBoot (UInt16.toNat_inj.mp boot)
  have missing : missingBefore lastSeq (hostRecord r) = d := by
    unfold missingBefore hostRecord
    dsimp only
    rw [if_neg notBoot, sameCore, numbered, last]
    change (((n % 64 : Nat) - (p : Int) - 1) % 64).toNat = d
    omega
  rw [gapBefore, missing, if_pos (by omega)]
  exact congrArg (fun c : LogCore => [HostItem.gap c.toByte.toNat d]) sameCore

/-- After a record of the core the next number is awaited. -/
theorem awaits_update
    {r : LogRec}
    (sameCore : r.core = core)
    (numbered : r.seq.toNat = n % 64) :
    Awaits core
      (Function.update lastSeq (hostRecord r).core (some (hostRecord r).seq))
      (n + 1) := by
  intro p last
  have updated :
      Function.update lastSeq (hostRecord r).core (some (hostRecord r).seq)
          core.toByte.toNat =
        some r.seq.toNat := by
    change Function.update lastSeq r.core.toByte.toNat (some r.seq.toNat) _ = _
    rw [sameCore, Function.update_self]
  rw [updated] at last
  cases last
  rw [numbered]
  omega

/-- The records of an unbroken numbering are announced without a gap. -/
theorem announced_numbered
    {records : List LogRec}
    (numbered : Numbered core n records)
    (awaits : Awaits core lastSeq n) :
    announced lastSeq (records.map hostRecord) =
      records.map fun r => .record (hostRecord r) := by
  induction records generalizing n lastSeq with
  | nil =>
      rfl
  | cons r rest inductionHypothesis =>
      obtain ⟨sameCore, number, later⟩ := numbered
      rw [List.map_cons, announced, gapBefore_awaited sameCore number awaits,
        inductionHypothesis later (awaits_update sameCore number),
        List.map_cons]
      rfl

/-- After them the number behind the last one is awaited. -/
theorem awaits_seqAfter
    {records : List LogRec}
    (numbered : Numbered core n records)
    (awaits : Awaits core lastSeq n) :
    Awaits core (seqAfter lastSeq (records.map hostRecord))
      (n + records.length) := by
  induction records generalizing n lastSeq with
  | nil =>
      exact awaits
  | cons r rest inductionHypothesis =>
      obtain ⟨sameCore, number, later⟩ := numbered
      rw [List.length_cons, Nat.add_comm rest.length, ← Nat.add_assoc]
      exact inductionHypothesis later (awaits_update sameCore number)

/-- And there is a last number, if there was a record. -/
theorem seqAfter_ne_none
    {records : List LogRec}
    (numbered : Numbered core n records)
    (known : records ≠ [] ∨ lastSeq core.toByte.toNat ≠ none) :
    seqAfter lastSeq (records.map hostRecord) core.toByte.toNat ≠ none := by
  induction records generalizing n lastSeq with
  | nil =>
      rcases known with someRecord | last
      · exact (someRecord rfl).elim
      · exact last
  | cons r rest inductionHypothesis =>
      obtain ⟨sameCore, -, later⟩ := numbered
      refine inductionHypothesis later (.inr ?_)
      change Function.update lastSeq r.core.toByte.toNat (some r.seq.toNat) _ ≠
        none
      rw [sameCore, Function.update_self]
      exact Option.some_ne_none _

/-- Records that were taken out are announced as one gap of their number. -/
theorem announced_deleted
    {kept removed next : List LogRec}
    (numbered : Numbered core 0 (kept ++ removed ++ next))
    (someKept : kept ≠ [])
    (someRemoved : 1 ≤ removed.length)
    (fewRemoved : removed.length ≤ 63)
    {r : LogRec}
    {rest : List LogRec}
    (nextIs : next = r :: rest)
    (noBoot : r.evt ≠ logEvtBoot) :
    announced (fun _ => none) ((kept ++ next).map hostRecord) =
      (kept.map fun r => .record (hostRecord r)) ++
        .gap core.toByte.toNat removed.length ::
          next.map fun r => .record (hostRecord r) := by
  subst nextIs
  obtain ⟨front, back⟩ := numbered_append.mp numbered
  obtain ⟨keptNumbered, -⟩ := numbered_append.mp front
  obtain ⟨sameCore, number, later⟩ := back
  have blank : Awaits core (fun _ => none) 0 := by
    intro p last
    cases last
  have awaits := awaits_seqAfter keptNumbered blank
  have known :=
    @seqAfter_ne_none core 0 (fun _ => none) kept keptNumbered (.inl someKept)
  obtain ⟨p, last⟩ := Option.ne_none_iff_exists'.mp known
  have gap :
      gapBefore (seqAfter (fun _ => none) (kept.map hostRecord))
          (hostRecord r) =
        [.gap core.toByte.toNat removed.length] := by
    refine
      gapBefore_later sameCore last number ?_ someRemoved fewRemoved noBoot
    have before := awaits p last
    rw [List.length_append]
    omega
  rw [List.map_append, announced_append, announced_numbered keptNumbered blank,
    List.map_cons, announced, gap,
    announced_numbered later (awaits_update sameCore number), List.map_cons]
  rfl

end Host

/-- Bytes at which a stream of items ends: none, or the start of the next. -/
def EndsWithin (cut : List UInt8) : List LogItem → Prop
  | [] => cut = []
  | item :: _ => cut <+: item.bytes ∧ cut.length < item.bytes.length ∨ cut = []

/-- The output is some items as a whole, and perhaps the start of the next. -/
structure CutOutput
    (items : List LogItem)
    (output : List UInt8)
    (whole : List LogItem)
    (cut : List UInt8) : Prop where
  bytes : output = logStream whole ++ cut
  items : ∃ rest, items = whole ++ rest ∧ EndsWithin cut rest

/-- Every first part of a stream is of that form. -/
theorem cutOutput_of_prefix
    {items : List LogItem}
    {output : List UInt8}
    (front : output <+: logStream items) :
    ∃ whole cut, CutOutput items output whole cut := by
  induction items generalizing output with
  | nil =>
      have empty : output = [] := List.prefix_nil.mp front
      exact ⟨[], [], empty, [], rfl, rfl⟩
  | cons item items inductionHypothesis =>
      rw [logStream_cons] at front
      rcases Nat.lt_or_ge output.length item.bytes.length with short | long
      · have inItem : output <+: item.bytes :=
          List.prefix_of_prefix_length_le front (List.prefix_append ..)
            short.le
        exact ⟨[], output, rfl, item :: items, rfl, .inl ⟨inItem, short⟩⟩
      · obtain ⟨more, rfl⟩ :=
          List.prefix_of_prefix_length_le (List.prefix_append ..) front long
        obtain ⟨whole, cut, bytes, rest, split, within⟩ :=
          inductionHypothesis ((List.prefix_append_right_inj _).mp front)
        refine ⟨item :: whole, cut, ?_, rest, ?_, within⟩
        · rw [logStream_cons, bytes, List.append_assoc]
        · rw [split]
          rfl

/-- The start of an item is no record. -/
theorem recordsOfTokens_cut
    {cut : List UInt8}
    {rest : List LogItem}
    (wellFormed : ∀ item ∈ rest, item.WellFormed)
    (within : EndsWithin cut rest) :
    recordsOfTokens (logScanner.scan cut).1 = [] := by
  have empty : recordsOfTokens (logScanner.scan []).1 = [] := by
    rw [scan_nil]
    rfl
  have startOfRecord :
      ∀ r : LogRec,
        cut <+: logRecEncode r →
          cut.length < logRecSize →
            recordsOfTokens (logScanner.scan cut).1 = [] := by
    intro r front short
    cases cut with
    | nil =>
        exact empty
    | cons b tail =>
        have first : b = hostSync := by
          obtain ⟨more, encoded⟩ := front
          exact (List.cons.inj encoded).1
        subst first
        rw [scan_short short]
        rfl
  cases rest with
  | nil =>
      have nothing : cut = [] := within
      rw [nothing]
      exact empty
  | cons item rest =>
      rcases within with ⟨front, short⟩ | rfl
      · cases item with
        | event r =>
            exact startOfRecord r front short
        | report r =>
            exact startOfRecord r front short
        | text bytes =>
            have ascii : ∀ b ∈ bytes, b < 0x80 :=
              wellFormed (.text bytes) (List.mem_cons_self ..)
            have noSync : ∀ b ∈ cut, b ≠ hostSync := by
              intro b member sync
              have low := ascii b (front.subset member)
              rw [sync] at low
              revert low
              decide
            have scanned := scan_text noSync []
            rw [List.append_nil, scan_nil, List.append_nil] at scanned
            rw [scanned]
            unfold recordsOfTokens
            rw [List.filterMap_map]
            exact List.filterMap_eq_nil_iff.mpr fun _ _ => rfl
      · exact empty

/-- What the decoder reports about a stream that ends within an item. -/
theorem feedAll_cut
    {items rest : List LogItem}
    {cut : List UInt8}
    (wellFormed : ∀ item ∈ items, item.WellFormed)
    (restWellFormed : ∀ item ∈ rest, item.WellFormed)
    (within : EndsWithin cut rest)
    {pieces : List (List UInt8)}
    (pieced : pieces.flatten = logStream items ++ cut) :
    spokenItems (LogDecoder.new.feedAll pieces).1 =
      announced (fun _ => none) ((recordsIn items).map hostRecord) := by
  have decodes := new_feedAll_decodes pieces
  have frames :
      recordsOfTokens
          (items.flatMap LogItem.tokens ++ (logScanner.scan cut).1) =
        recordsOfTokens (items.flatMap LogItem.tokens) ++
          recordsOfTokens (logScanner.scan cut).1 :=
    List.filterMap_append
  rw [decodes.spoken, pieced, scan_stream wellFormed, frames,
    recordsOfTokens_stream wellFormed,
    recordsOfTokens_cut restWellFormed within, List.append_nil]
  rfl

/-- However the output is fed to the decoder, it reports no gap. -/
def ShowsNoGap (trace : List LogEvent) : Prop :=
  ∀ pieces : List (List UInt8),
    pieces.flatten = sentBytes trace →
      ∀ core missing,
        .gap core missing ∉ (LogDecoder.new.feedAll pieces).1

/--
When records are taken out of the output, and text that stands among them is
left or taken out too, the decoder reports one gap, in their place and of their
number.
-/
def ShowsDeletions (core : LogCore) (trace : List LogEvent) : Prop :=
  ∀ (kept removed next text : List LogItem) (cut : List UInt8),
    CutOutput (storedItems trace) (sentBytes trace) (kept ++ removed ++ next)
        cut →
      (∀ item ∈ text, item.WellFormed ∧ item.record? = none) →
        1 ≤ (recordsIn removed).length →
          (recordsIn removed).length ≤ 63 →
            recordsIn kept ≠ [] →
              (∃ r ∈ (recordsIn next).head?, r.evt ≠ logEvtBoot) →
                ∀ pieces : List (List UInt8),
                  pieces.flatten = logStream (kept ++ text ++ next) ++ cut →
                    spokenItems (LogDecoder.new.feedAll pieces).1 =
                      ((recordsIn kept).map fun r => .record (hostRecord r)) ++
                        .gap core.toByte.toNat (recordsIn removed).length ::
                          (recordsIn next).map fun r => .record (hostRecord r)

/-- The records of a run are numbered from zero. -/
theorem logRun_numbered
    (image : LogImage)
    (core : LogCore)
    (before : LogState)
    (actions : List LogAction) :
    Numbered core 0 (storedRecords (logRun image core before actions).2) := by
  obtain ⟨banner, -, run⟩ := logRun_eq image core before actions
  rw [run]
  exact trace_numbered (logReset_fits core before) rfl rfl

/-- The output of a run is a first part of the stream of its items. -/
theorem logRun_output
    (image : LogImage)
    (core : LogCore)
    (before : LogState)
    (actions : List LogAction) :
    sentBytes (logRun image core before actions).2 <+:
      logStream (storedItems (logRun image core before actions).2) :=
  ⟨_, (@logRun_conserves image core before actions).fifo⟩

/-- Records of two parts. -/
theorem recordsIn_append (first second : List LogItem) :
    recordsIn (first ++ second) = recordsIn first ++ recordsIn second :=
  List.filterMap_append

/-- The output as it was sent shows no gap. -/
theorem logRun_showsNoGap
    (image : LogImage)
    (core : LogCore)
    (before : LogState)
    (actions : List LogAction) :
    ShowsNoGap (logRun image core before actions).2 := by
  intro pieces pieced gapCore missing member
  obtain ⟨whole, cut, bytes, rest, split, within⟩ :=
    cutOutput_of_prefix (logRun_output image core before actions)
  have wellFormed := logRun_wellFormed image core before actions
  have numbered := logRun_numbered image core before actions
  rw [storedRecords, split, recordsIn_append] at numbered
  rw [split] at wellFormed
  rw [bytes] at pieced
  have spoken :=
    feedAll_cut
      (fun item inWhole => wellFormed item (List.mem_append_left _ inWhole))
      (fun item inRest => wellFormed item (List.mem_append_right _ inRest))
      within pieced
  have blank : Awaits core (fun _ => none) 0 := by
    intro p last
    cases last
  rw [announced_numbered (numbered_append.mp numbered).1 blank] at spoken
  have inSpoken :
      HostItem.gap gapCore missing ∈
        spokenItems (LogDecoder.new.feedAll pieces).1 :=
    List.mem_filter.mpr ⟨member, rfl⟩
  rw [spoken] at inSpoken
  obtain ⟨r, -, same⟩ := List.mem_map.mp inSpoken
  cases same

/-- Records that are taken out of the output show as one gap. -/
theorem logRun_showsDeletions
    (image : LogImage)
    (core : LogCore)
    (before : LogState)
    (actions : List LogAction) :
    ShowsDeletions core (logRun image core before actions).2 := by
  rintro kept removed next text cut ⟨-, rest, split, within⟩ onlyText
    someRemoved fewRemoved someKept ⟨r, first, noBoot⟩ pieces pieced
  have wellFormed := logRun_wellFormed image core before actions
  have numbered := logRun_numbered image core before actions
  rw [split] at wellFormed
  rw [storedRecords, split, recordsIn_append, recordsIn_append,
    recordsIn_append] at numbered
  have noRecords : recordsIn text = [] :=
    List.filterMap_eq_nil_iff.mpr fun item member => (onlyText item member).2
  have spoken :=
    @feedAll_cut (kept ++ text ++ next) rest cut
      (by
        intro item member
        rcases List.mem_append.mp member with front | inNext
        · rcases List.mem_append.mp front with inKept | inText
          · exact wellFormed item (by simp [inKept])
          · exact (onlyText item inText).1
        · exact wellFormed item (by simp [inNext]))
      (fun item inRest => wellFormed item (List.mem_append_right _ inRest))
      within pieces pieced
  obtain ⟨later, nextIs⟩ : ∃ later, recordsIn next = r :: later := by
    cases records : recordsIn next with
    | nil =>
        rw [records] at first
        cases first
    | cons other later =>
        rw [records] at first
        cases first
        exact ⟨later, rfl⟩
  rw [spoken, recordsIn_append, recordsIn_append, noRecords, List.append_nil]
  exact
    announced_deleted (numbered_append.mp numbered).1 someKept someRemoved
      fewRemoved nextIs noBoot

/--
In every run without a caller of the report's event ID and with fewer than
`2 ^ 32` drops, the drops between two records are reported between them; the
output, which is made of whole items but for its end, shows no gap; and records
that are taken out of it show as one gap of their number.
-/
theorem no_loss_is_silent
    (image : LogImage)
    (core : LogCore)
    (before : LogState)
    (actions : List LogAction)
    (avoids : ∀ action ∈ actions, action.AvoidsOverflow)
    (few : dropCount (logRun image core before actions).2 < 2 ^ 32) :
    AnnouncesDrops (logRun image core before actions).2 ∧
      (∃ whole cut,
        CutOutput (storedItems (logRun image core before actions).2)
          (sentBytes (logRun image core before actions).2) whole cut) ∧
      ShowsNoGap (logRun image core before actions).2 ∧
      ShowsDeletions core (logRun image core before actions).2 := by
  refine
    ⟨?_, cutOutput_of_prefix (logRun_output image core before actions),
      logRun_showsNoGap image core before actions,
      logRun_showsDeletions image core before actions⟩
  obtain ⟨banner, texts, run⟩ := logRun_eq image core before actions
  have allAvoid : ∀ action ∈ banner ++ actions, action.AvoidsOverflow := by
    intro action member
    rcases List.mem_append.mp member with inBanner | called
    · obtain ⟨text, rfl⟩ := texts action inBanner
      trivial
    · exact avoids action called
  rw [run] at few ⊢
  have balanced :=
    @trace_balanced image (logReset core before) (banner ++ actions)
      (logReset_fits core before) allAvoid
      (by
        change 0 + _ < 2 ^ 32
        rw [Nat.zero_add]
        exact few)
  exact balanced.announces

/-- The calls that drop, and then the rest is handed on. -/
def drainedCalls : List LogAction :=
  droppingCalls ++ [.drain 0 [.accepts 64, .accepts 64]]

/-- The items of this run: four records, a text, the report and a record. -/
def droppingItems : List LogItem :=
  storedItems (logRun smallImage .security blankLog droppingCalls).2

/-- The report of the drops, taken out of the output, shows as one gap. -/
theorem removed_report_shows :
    AnnouncesDrops (logRun smallImage .security blankLog drainedCalls).2 ∧
      spokenItems
          (LogDecoder.new.feedAll
            [logStream (droppingItems.take 4),
              logStream (droppingItems.drop 6)]).1 =
        ((recordsIn (droppingItems.take 4)).map
            fun r => .record (hostRecord r)) ++
          .gap LogCore.security.toByte.toNat 1 ::
            (recordsIn (droppingItems.drop 6)).map
              fun r => .record (hostRecord r) := by
  have result :=
    no_loss_is_silent smallImage .security blankLog drainedCalls (by decide)
      (by decide +kernel)
  refine ⟨result.1, ?_⟩
  have output :
      CutOutput
        (storedItems (logRun smallImage .security blankLog drainedCalls).2)
        (sentBytes (logRun smallImage .security blankLog drainedCalls).2)
        (droppingItems.take 4 ++ (droppingItems.drop 4).take 2 ++
          droppingItems.drop 6)
        [] :=
    ⟨by decide +kernel, [], by decide +kernel, rfl⟩
  have shown :=
    result.2.2.2 _ _ _ [] [] output (by simp) (by decide +kernel)
      (by decide +kernel) (by decide +kernel)
      ⟨⟨.security, 5, 0x0401, 7, 6, 0⟩, by decide +kernel, by decide⟩
      [logStream (droppingItems.take 4), logStream (droppingItems.drop 6)]
      (by simp [logStream])
  exact shown

end TraveoBodyDomain
