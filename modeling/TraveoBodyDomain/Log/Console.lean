import Mathlib.Algebra.Ring.Nat
import TraveoBodyDomain.Log.Loss
import TraveoBodyDomain.Log.AcceptFolder

/-!
# From the calls of the log to the console

What a test may conclude from a transcript: every call of `log_evt` is on the
console, as its own line or in the count of a summary, or it is among those an
`OVERFLOW` line reports.  The log of the device, the decoder and the folding of
the viewer are taken together here.
-/

namespace TraveoBodyDomain

namespace LogDecoder

/-- `Decoder.flush`. -/
def flush (d : LogDecoder) : List HostItem × LogDecoder :=
  if d.buf ≠ [] ∧ hostSync ∉ d.buf then
    ([.text (decodeAscii d.buf)],
      { d with
        textBytes := d.textBytes + d.buf.length
        buf := [] })
  else
    ([], d)

/-- What `feed` returns for each chunk that was read. -/
def feedEach : List (List UInt8) → LogDecoder → List (List HostItem) × LogDecoder
  | [], d => ([], d)
  | data :: rest, d =>
      let (out, d) := d.feed data
      let (more, d) := feedEach rest d
      (out :: more, d)

/-- Chunk by chunk or together, the same comes out. -/
theorem feedEach_flatten (pieces : List (List UInt8)) (d : LogDecoder) :
    ((d.feedEach pieces).1.flatten, (d.feedEach pieces).2) = d.feedAll pieces := by
  induction pieces generalizing d with
  | nil =>
      rfl
  | cons data rest inductionHypothesis =>
      have later := inductionHypothesis (d.feed data).2
      simp only [feedEach, feedAll, List.flatten_cons, ← later]

/-- After `feed`, what waits in the buffer starts with a sync byte. -/
theorem feedAll_left (pieces : List (List UInt8)) :
    ((new.feedAll pieces).2.buf = [] ∨
      hostSync ∈ (new.feedAll pieces).2.buf) := by
  have left :
      (new.feedAll pieces).2.buf = (logScanner.scan pieces.flatten).2 := by
    rw [(decodesRule.feedAll pieces .new).2, Incremental.Scanner.scanAll_eq rfl]
    rfl
  have waits := logScanner.next_left pieces.flatten
  rw [left]
  cases buf : (logScanner.scan pieces.flatten).2 with
  | nil =>
      exact .inl rfl
  | cons first rest =>
      rw [buf] at waits
      refine .inr ?_
      by_cases sync : first = hostSync
      · exact sync ▸ List.mem_cons_self
      · have text := logNext_text sync rest
        cases waits.symm.trans text

/-- So `flush` has nothing to add to what `feed` put out. -/
theorem feedAll_flush (pieces : List (List UInt8)) :
    (new.feedAll pieces).2.flush.1 = [] := by
  have nothing :
      ¬ ((new.feedAll pieces).2.buf ≠ [] ∧
        hostSync ∉ (new.feedAll pieces).2.buf) := by
    rintro ⟨waits, noSync⟩
    exact (feedAll_left pieces).elim waits noSync
  rw [flush, if_neg nothing]

end LogDecoder

/-- `from_serial`, up to the end of the session: what is given to `render`. -/
def console (windowMs : Int) (pieces : List (List UInt8)) : List ShownItem :=
  let (batches, d) := LogDecoder.new.feedEach pieces
  AcceptFolder.view windowMs (batches ++ [d.flush.1])

/-- The console shows what the decoder made of the bytes. -/
theorem console_eq (windowMs : Int) (pieces : List (List UInt8)) :
    ∃ batches, console windowMs pieces = AcceptFolder.view windowMs batches ∧
      batches.flatten = (LogDecoder.new.feedAll pieces).1 := by
  have together := LogDecoder.feedEach_flatten pieces .new
  refine ⟨_, rfl, ?_⟩
  obtain ⟨out, last⟩ := Prod.mk.inj (together.trans Prod.mk.eta.symm)
  rw [List.flatten_append, List.flatten_singleton, out, last,
    LogDecoder.feedAll_flush, List.append_nil]

/-! ## What the calls were and what the console shows of them -/

/-- The arguments of `log_evt`, with the time of the call. -/
structure LoggedEvent where
  evt : Nat
  tsMs : Nat
  arg0 : Nat
  arg1 : Nat
  deriving Repr, DecidableEq

/-- The call, if the action is one of `log_evt`. -/
def LogAction.logged? : LogAction → Option LoggedEvent
  | .evt nowMs id arg0 arg1 =>
      some ⟨id.toNat, nowMs.toNat, arg0.toNat, arg1.toNat⟩
  | _ => none

/-- The calls of `log_evt`, in order. -/
def loggedEvents (actions : List LogAction) : List LoggedEvent :=
  actions.filterMap LogAction.logged?

/-- The call that a record stands for. -/
def HostRecord.logged (r : HostRecord) : LoggedEvent :=
  ⟨r.evt, r.tsMs, r.arg0, r.arg1⟩

/-- The records with another event ID than that of a report. -/
def eventRecords (trace : List LogEvent) : List LogRec :=
  (storedRecords trace).filter (·.evt ≠ logEvtOverflow)

/-- The records with a line of their own, without the reports. -/
def shownEvents (shown : List ShownItem) : List HostRecord :=
  (recordsOfItems (shownItems shown)).filter (·.evt ≠ logEvtOverflow.toNat)

/-- The drops that the lines of the reports add up to. -/
def shownDrops (shown : List ShownItem) : Nat :=
  (((recordsOfItems (shownItems shown)).filter
    (·.evt = logEvtOverflow.toNat)).map (·.arg0)).sum

/-- The call that a record of the log stands for. -/
def LogRec.logged (r : LogRec) : LoggedEvent :=
  (hostRecord r).logged

section Device

variable {image : LogImage} {s : LogState}

/-- The drops reported in two parts of a trace. -/
theorem overflowCounts_append (first second : List LogEvent) :
    overflowCounts (first ++ second) =
      overflowCounts first ++ overflowCounts second := by
  simp only [overflowCounts, storedItems_append, recordsIn_append,
    List.filter_append, List.map_append]

/-- The event records in two parts of a trace. -/
theorem eventRecords_append (first second : List LogEvent) :
    eventRecords (first ++ second) =
      eventRecords first ++ eventRecords second := by
  simp only [eventRecords, storedRecords, storedItems_append, recordsIn_append,
    List.filter_append]

/-- What a part of the log makes of the calls in it. -/
structure Accounts
    (core : LogCore)
    (pending : UInt32)
    (calls : List LoggedEvent)
    (trace : List LogEvent)
    (next : LogState) : Prop where
  sameCore : next.core = core ∧ ∀ r ∈ eventRecords trace, r.core = core
  inOrder : ((eventRecords trace).map LogRec.logged).Sublist calls
  counted :
    calls.length + pending.toNat ≤
      (eventRecords trace).length + (overflowCounts trace).sum +
        next.pendingOverflow.toNat

/-- A drop is counted, as long as the count has room. -/
theorem logNoteDrop_pending
    (small : s.pendingOverflow.toNat + 1 < 2 ^ 32) :
    (logNoteDrop s).pendingOverflow.toNat = s.pendingOverflow.toNat + 1 := by
  change (s.pendingOverflow + 1).toNat = _
  rw [UInt32.toNat_add]
  exact Nat.mod_eq_of_lt small

/-- A stored record is one event. -/
theorem eventRecords_plain {r : LogRec} (other : r.evt ≠ logEvtOverflow) :
    eventRecords [.stored (.event r)] = [r] ∧
      overflowCounts [.stored (.event r)] = [] := by
  simp [eventRecords, storedRecords, overflowCounts, storedItems, recordsIn,
    LogItem.record?, other]

/-- A record behind a report is one event, and the report carries its count. -/
theorem eventRecords_reported
    {o r : LogRec}
    (report : o.evt = logEvtOverflow)
    (other : r.evt ≠ logEvtOverflow) :
    eventRecords [.stored (.report o), .stored (.event r)] = [r] ∧
      overflowCounts [.stored (.report o), .stored (.event r)] =
        [o.arg0.toNat] := by
  simp [eventRecords, storedRecords, overflowCounts, storedItems, recordsIn,
    LogItem.record?, report, other]

/-- What holds of an action that is no call of `log_evt`. -/
theorem Accounts.noCall
    {core : LogCore}
    {pending : UInt32}
    {trace : List LogEvent}
    {next : LogState}
    (sameCore : next.core = core)
    (noRecord : eventRecords trace = [])
    (more : pending.toNat ≤ next.pendingOverflow.toNat) :
    Accounts core pending [] trace next where
  sameCore := by
    rw [noRecord]
    exact ⟨sameCore, fun r isRecord => absurd isRecord List.not_mem_nil⟩
  inOrder := by
    rw [noRecord]
    exact List.nil_sublist []
  counted := by
    rw [List.length_nil, Nat.zero_add]
    exact more.trans (Nat.le_add_left ..)

/-- One action accounts for its call. -/
theorem logStep_accounts
    {action : LogAction}
    (fits : s.Fits image)
    (avoids : action.AvoidsOverflow)
    (few :
      s.pendingOverflow.toNat + dropCount (logStep image s action).2 < 2 ^ 32) :
    Accounts s.core s.pendingOverflow (loggedEvents [action])
      (logStep image s action).2 (logStep image s action).1 := by
  cases action with
  | evt nowMs evt arg0 arg1 =>
      have outcome := logEvt_outcome nowMs evt arg0 arg1 fits
      simp only [logStep] at few ⊢
      generalize logEvt image nowMs evt arg0 arg1 s = result at *
      have other : evt ≠ logEvtOverflow := avoids
      cases outcome with
      | dropped =>
          refine ⟨⟨rfl, fun r isRecord => absurd isRecord List.not_mem_nil⟩,
            List.nil_sublist _, ?_⟩
          rw [logNoteDrop_pending few]
          exact (Nat.add_comm 1 _).le.trans (Nat.le_add_left ..)
      | plain nothingPending next enqueued =>
          obtain ⟨ring, head, rfl⟩ := enqueued.frame
          obtain ⟨own, noReport⟩ :=
            @eventRecords_plain ⟨s.core, s.seq, evt, nowMs, arg0, arg1⟩ other
          refine ⟨⟨rfl, ?_⟩, ?_, ?_⟩
          · rw [own]
            exact List.forall_mem_singleton.mpr rfl
          · rw [own]
            exact List.Sublist.refl _
          · rw [own, noReport]
            exact Nat.le_refl _
      | reported pending next enqueued =>
          obtain ⟨ring, head, rfl⟩ := enqueued.frame
          obtain ⟨own, report⟩ :=
            @eventRecords_reported
              ⟨s.core, s.seq, logEvtOverflow, nowMs, s.pendingOverflow, 0⟩
              ⟨s.core, logSeqAfter s.seq 1, evt, nowMs, arg0, arg1⟩ rfl other
          refine ⟨⟨rfl, ?_⟩, ?_, ?_⟩
          · rw [own]
            exact List.forall_mem_singleton.mpr rfl
          · rw [own]
            exact List.Sublist.refl _
          · rw [own, report, List.sum_singleton]
            exact Nat.le_refl _
  | text text =>
      have outcome := logText_outcome text fits
      simp only [logStep] at few ⊢
      generalize logText image text s = result at *
      cases outcome with
      | rejected notAscii =>
          exact .noCall rfl rfl (Nat.le_refl _)
      | dropped =>
          refine .noCall rfl rfl ?_
          rw [logNoteDrop_pending few]
          exact Nat.le_succ _
      | stored bytes scanned next enqueued =>
          obtain ⟨ring, head, rfl⟩ := enqueued.frame
          exact .noCall rfl rfl (Nat.le_refl _)
  | drain maxBytes answers =>
      have drained := logDrainLoop_drains maxBytes answers maxBytes false fits
      have frame := drained.frame
      refine .noCall ?_ rfl ?_
      · change (logDrain image maxBytes answers s).2.2.core = s.core
        rw [logDrain, frame]
      · change _ ≤ (logDrain image maxBytes answers s).2.2.pendingOverflow.toNat
        rw [logDrain, frame]

/-- So do all of them. -/
theorem trace_accounts
    {actions : List LogAction}
    (fits : s.Fits image)
    (avoids : ∀ action ∈ actions, action.AvoidsOverflow)
    (few :
      s.pendingOverflow.toNat +
          dropCount (Machine.trace (logStep image) s actions) < 2 ^ 32) :
    Accounts s.core s.pendingOverflow (loggedEvents actions)
      (Machine.trace (logStep image) s actions)
      (Machine.final (logStep image) s actions) := by
  induction actions generalizing s with
  | nil =>
      exact .noCall rfl rfl (Nat.le_refl _)
  | cons action rest inductionHypothesis =>
      have keeps := logStep_keeps action fits
      have pendingStep := logStep_pending action fits
      rw [Machine.trace_cons, dropCount_append] at few
      have now :=
        logStep_accounts fits (avoids action List.mem_cons_self) (by omega)
      have later :=
        inductionHypothesis keeps.fits
          (fun other member => avoids other (List.mem_cons_of_mem _ member))
          (by omega)
      have calls :
          loggedEvents (action :: rest) =
            loggedEvents [action] ++ loggedEvents rest :=
        @List.filterMap_append _ _ [action] rest _
      obtain ⟨stepCore, stepRecords⟩ := now.sameCore
      obtain ⟨lastCore, laterRecords⟩ := later.sameCore
      rw [Machine.trace_cons, Machine.final_cons, calls]
      refine ⟨⟨lastCore.trans stepCore, ?_⟩, ?_, ?_⟩
      · rw [eventRecords_append]
        intro r isRecord
        rcases List.mem_append.mp isRecord with first | second
        · exact stepRecords r first
        · exact (laterRecords r second).trans stepCore
      · rw [eventRecords_append, List.map_append]
        exact now.inOrder.append later.inOrder
      · have stepCounted := now.counted
        have laterCounted := later.counted
        rw [eventRecords_append, overflowCounts_append, List.length_append,
          List.length_append, List.sum_append]
        exact (by omega)

end Device

/-! ## The transcript -/

/-- The accepts among some items are records. -/
theorem acceptsIn_records (items : List HostItem) :
    acceptsIn items = (recordsOfItems items).filter (·.evt = acceptEvtId) := by
  induction items with
  | nil =>
      rfl
  | cons item rest inductionHypothesis =>
      have first := acceptsIn_singleton item
      rw [← List.singleton_append, acceptsIn_append, first, inductionHypothesis]
      cases item with
      | record r =>
          rw [accept?_record]
          by_cases accept : r.evt = acceptEvtId
          · simp [recordsOfItems, accept]
          · simp [recordsOfItems, accept]
      | text text =>
          rfl
      | gap core missing =>
          rfl

/-- The records that pass the viewer are the others. -/
theorem othersIn_records (items : List HostItem) :
    recordsOfItems (othersIn items) =
      (recordsOfItems items).filter (·.evt ≠ acceptEvtId) := by
  induction items with
  | nil =>
      rfl
  | cons item rest inductionHypothesis =>
      have split :
          recordsOfItems (othersIn (item :: rest)) =
            recordsOfItems (othersIn [item]) ++ recordsOfItems (othersIn rest) := by
        rw [← List.singleton_append, othersIn_append]
        exact List.filterMap_append
      rw [split, inductionHypothesis]
      cases item with
      | record r =>
          by_cases accept : r.evt = acceptEvtId
          · simp [recordsOfItems, othersIn, accept?_record, accept]
          · simp [recordsOfItems, othersIn, accept?_record, accept]
      | text text =>
          rfl
      | gap core missing =>
          rfl

/-- A run of the log accounts for its calls. -/
theorem logRun_accounts
    (image : LogImage)
    (core : LogCore)
    (before : LogState)
    {actions : List LogAction}
    (avoids : ∀ action ∈ actions, action.AvoidsOverflow)
    (few : dropCount (logRun image core before actions).2 < 2 ^ 32) :
    Accounts core 0 (loggedEvents actions) (logRun image core before actions).2
      (logRun image core before actions).1 := by
  obtain ⟨banner, texts, run⟩ := logRun_eq image core before actions
  have allAvoid : ∀ action ∈ banner ++ actions, action.AvoidsOverflow := by
    intro action member
    rcases List.mem_append.mp member with inBanner | called
    · obtain ⟨text, rfl⟩ := texts action inBanner
      trivial
    · exact avoids action called
  have noCalls : loggedEvents banner = [] := by
    refine List.filterMap_eq_nil_iff.mpr fun action inBanner => ?_
    obtain ⟨text, rfl⟩ := texts action inBanner
    rfl
  have calls : loggedEvents (banner ++ actions) = loggedEvents actions := by
    rw [loggedEvents, List.filterMap_append]
    exact congrArg (· ++ loggedEvents actions) noCalls
  rw [run] at few ⊢
  rw [← calls]
  exact
    @trace_accounts image (logReset core before) (banner ++ actions)
      (logReset_fits core before) allAvoid
      (by
        change 0 + _ < 2 ^ 32
        rw [Nat.zero_add]
        exact few)

/-- The records that reach the viewer from a drained ring. -/
theorem logRun_records
    {image : LogImage}
    {core : LogCore}
    {before : LogState}
    {actions : List LogAction}
    {pieces : List (List UInt8)}
    (drained : (logRun image core before actions).1.used = 0)
    (delivered : pieces.flatten = sentBytes (logRun image core before actions).2) :
    recordsOfItems (LogDecoder.new.feedAll pieces).1 =
      (storedRecords (logRun image core before actions).2).map hostRecord := by
  have wellFormed := logRun_wellFormed image core before actions
  have fifo := (@logRun_conserves image core before actions).fifo
  rw [logContent, drained] at fifo
  have whole :
      pieces.flatten = logStream (storedItems (logRun image core before actions).2) :=
    delivered.trans ((List.append_nil _).symm.trans fifo)
  exact (feedAll_stream wellFormed whole).recordsOfItems.trans
    (recordsOfTokens_stream wellFormed)

/-- The events among the records, as the host reads them. -/
theorem hostRecord_events (records : List LogRec) :
    (records.map hostRecord).filter (·.evt ≠ logEvtOverflow.toNat) =
      (records.filter (·.evt ≠ logEvtOverflow)).map hostRecord := by
  rw [List.filter_map]
  refine congrArg (List.map hostRecord) (List.filter_congr fun r _ => ?_)
  exact decide_eq_decide.mpr (not_congr UInt16.toNat_inj)

/-- The reports among the records, as the host reads them. -/
theorem hostRecord_reports (records : List LogRec) :
    ((records.map hostRecord).filter (·.evt = logEvtOverflow.toNat)).map
        (·.arg0) =
      (records.filter (·.evt = logEvtOverflow)).map fun r => r.arg0.toNat := by
  have same :
      (records.map hostRecord).filter (·.evt = logEvtOverflow.toNat) =
        (records.filter (·.evt = logEvtOverflow)).map hostRecord := by
    rw [List.filter_map]
    refine congrArg (List.map hostRecord) (List.filter_congr fun r _ => ?_)
    exact decide_eq_decide.mpr UInt16.toNat_inj
  rw [same, List.map_map]
  rfl

/-- A report is no accept. -/
theorem filter_reports (records : List HostRecord) :
    (records.filter (·.evt ≠ acceptEvtId)).filter
        (·.evt = logEvtOverflow.toNat) =
      records.filter (·.evt = logEvtOverflow.toNat) := by
  rw [List.filter_filter]
  refine List.filter_congr fun r _ => ?_
  by_cases report : r.evt = logEvtOverflow.toNat
  · rw [report]
    decide
  · simp [report]

/-- An accept is no report. -/
theorem filter_accepts (records : List HostRecord) :
    (records.filter (·.evt ≠ logEvtOverflow.toNat)).filter
        (·.evt = acceptEvtId) =
      records.filter (·.evt = acceptEvtId) := by
  rw [List.filter_filter]
  refine List.filter_congr fun r _ => ?_
  by_cases accept : r.evt = acceptEvtId
  · rw [accept]
    decide
  · simp [accept]

/-- What a transcript lets a reader conclude about the calls of `log_evt`. -/
structure ShowsCalls
    (core : LogCore)
    (pending : UInt32)
    (calls : List LoggedEvent)
    (shown : List ShownItem)
    (seen : List HostRecord) : Prop where
  sameCore : ∀ r ∈ seen, r.core = core.toByte.toNat
  inOrder : (seen.map HostRecord.logged).Sublist calls
  lines : shownEvents shown = seen.filter (·.evt ≠ acceptEvtId)
  summaries :
    ∀ key,
      shownAccepts key shown =
        (seen.filter (·.evt = acceptEvtId)).countP (foldKey · = key)
  noGap : ∀ gapCore missing, .gap gapCore missing ∉ shownItems shown
  counted : calls.length ≤ seen.length + shownDrops shown + pending.toNat
  complete : shownDrops shown = 0 → pending = 0 → seen.map HostRecord.logged = calls

/--
Once the ring is drained, however its bytes reach the viewer, every call of
`log_evt` is seen, as a line of its own or in the count of a summary, or else it
is among the drops that the reports show or that are still pending.
-/
theorem console_shows_the_calls
    (image : LogImage)
    (core : LogCore)
    (before : LogState)
    (actions : List LogAction)
    (windowMs : Int)
    (pieces : List (List UInt8))
    (avoids : ∀ action ∈ actions, action.AvoidsOverflow)
    (few : dropCount (logRun image core before actions).2 < 2 ^ 32)
    (drained : (logRun image core before actions).1.used = 0)
    (delivered : pieces.flatten = sentBytes (logRun image core before actions).2) :
    ∃ seen,
      ShowsCalls core (logRun image core before actions).1.pendingOverflow
        (loggedEvents actions) (console windowMs pieces) seen := by
  have accounts := logRun_accounts image core before avoids few
  have records := logRun_records drained delivered
  have noGap := logRun_showsNoGap image core before actions pieces delivered
  obtain ⟨batches, viewed, decoded⟩ := console_eq windowMs pieces
  have passed := AcceptFolder.view_items windowMs batches
  have summed := fun key => AcceptFolder.view_accepts key windowMs batches
  rw [decoded, ← viewed] at passed
  simp only [decoded, ← viewed] at summed
  generalize (logRun image core before actions).2 = trace at *
  have lines :
      recordsOfItems (shownItems (console windowMs pieces)) =
        ((storedRecords trace).map hostRecord).filter (·.evt ≠ acceptEvtId) := by
    rw [passed, othersIn_records, records]
  have events := hostRecord_events (storedRecords trace)
  have drops : shownDrops (console windowMs pieces) = (overflowCounts trace).sum := by
    rw [shownDrops, lines, filter_reports, hostRecord_reports]
    rfl
  have counted := accounts.counted
  rw [UInt32.toNat_zero, Nat.add_zero, ← drops] at counted
  refine
    ⟨(eventRecords trace).map hostRecord,
      { sameCore := ?_
        inOrder := ?_
        lines := ?_
        summaries := ?_
        noGap := ?_
        counted := ?_
        complete := ?_ }⟩
  · intro r isSeen
    obtain ⟨own, isRecord, rfl⟩ := List.mem_map.mp isSeen
    exact congrArg (·.toByte.toNat) (accounts.sameCore.2 own isRecord)
  · rw [List.map_map]
    exact accounts.inOrder
  · rw [shownEvents, lines, List.filter_comm]
    exact congrArg _ events
  · intro key
    rw [summed, acceptsIn_records, records, eventRecords, ← events,
      filter_accepts]
  · intro gapCore missing isShown
    rw [passed] at isShown
    exact noGap gapCore missing (List.mem_of_mem_filter isShown)
  · rw [List.length_map]
    exact counted
  · intro noDrops noPending
    rw [noDrops, noPending] at counted
    rw [List.map_map]
    refine accounts.inOrder.eq_of_length_le ?_
    rw [List.length_map]
    exact counted

/-- A run of the small log that is drained in the end, with two accepts. -/
def acceptingCalls : List LogAction :=
  [.evt 1 0x0101 0x200 7, .evt 2 0x0401 1 0, .evt 3 0x0101 0x200 8,
    .evt 4 0x0401 2 0, .evt 5 0x0401 3 0, .drain 0 [.accepts 64],
    .evt 6 0x0401 4 0, .drain 0 [.accepts 64, .accepts 64]]

/-- Its transcript shows all calls but one, which a report stands for. -/
theorem accepting_calls_are_shown :
    ∃ seen,
      ShowsCalls .security
        (logRun smallImage .security blankLog acceptingCalls).1.pendingOverflow
        (loggedEvents acceptingCalls)
        (console 5000
          [sentBytes (logRun smallImage .security blankLog acceptingCalls).2])
        seen :=
  console_shows_the_calls smallImage .security blankLog acceptingCalls 5000
    [sentBytes (logRun smallImage .security blankLog acceptingCalls).2]
    (by decide) (by decide +kernel) (by decide +kernel) (List.append_nil _)

end TraveoBodyDomain
