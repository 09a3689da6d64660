import Mathlib.Data.List.Induction
import Mathlib.Data.List.Nodup
import Mathlib.Algebra.Ring.Nat
import TraveoBodyDomain.Log.Decoder

/-!
# Accepts folded on the console

`logview.py`: the viewer shows one line for a run of `LOG_EVT_SECOC_ACCEPT`
records of one core and CAN ID.  It works item by item, with the summaries that
are still open in a dict.

Behind it stands a cut of the whole stream into segments: each segment is shown
as its other items, in order, and then one summary for each core and CAN ID.
-/

namespace TraveoBodyDomain

/-- `ACCEPT_EVT_ID`, from the generated table. -/
def acceptEvtId : Nat :=
  0x0101

/-- `AcceptSummary`. -/
structure AcceptSummary where
  core : Nat
  canId : Nat
  count : Nat
  firstTs : Nat
  firstCtr : Nat
  lastTs : Nat
  lastCtr : Nat
  deriving Repr, DecidableEq

/-- `AcceptSummary.__init__`. -/
def AcceptSummary.new (first : HostRecord) : AcceptSummary where
  core := first.core
  canId := first.arg0
  count := 0
  firstTs := first.tsMs
  firstCtr := first.arg1
  lastTs := first.tsMs
  lastCtr := first.arg1

/-- `AcceptSummary.add`. -/
def AcceptSummary.add (r : HostRecord) (s : AcceptSummary) : AcceptSummary :=
  { s with
    count := s.count + 1
    lastTs := r.tsMs
    lastCtr := r.arg1 }

/-- What `feed` returns: items that passed, and summaries. -/
inductive ShownItem where
  | item (item : HostItem)
  | summary (s : AcceptSummary)
  deriving Repr, DecidableEq

/-- The key of `_pending`. -/
def foldKey (r : HostRecord) : Nat × Nat :=
  (r.core, r.arg0)

/-- `AcceptFolder`; a dict keeps the order in which its keys came. -/
structure AcceptFolder where
  windowMs : Int
  pending : List ((Nat × Nat) × AcceptSummary)
  windowStart : Option Nat
  lastTs : Option Nat

namespace AcceptFolder

/-- `AcceptFolder.__init__`. -/
def new (windowMs : Int) : AcceptFolder where
  windowMs := windowMs
  pending := []
  windowStart := none
  lastTs := none

/-- `AcceptFolder.flush`. -/
def flush (f : AcceptFolder) : List ShownItem × AcceptFolder :=
  (f.pending.map fun entry => .summary entry.2,
    { f with
      pending := []
      windowStart := none })

/-- `_pending[key].add(item)`, with a new summary where there was none. -/
def addPending (r : HostRecord) :
    List ((Nat × Nat) × AcceptSummary) → List ((Nat × Nat) × AcceptSummary)
  | [] => [(foldKey r, (AcceptSummary.new r).add r)]
  | (key, s) :: rest =>
      if key = foldKey r then (key, s.add r) :: rest
      else (key, s) :: addPending r rest

/-- `restarted`. -/
def restarted (r : HostRecord) (f : AcceptFolder) : Bool :=
  r.evt == bootEvtId || f.lastTs.any (r.tsMs < ·)

/-- `expired`. -/
def expired (r : HostRecord) (f : AcceptFolder) : Bool :=
  f.windowStart.any fun start : Nat => f.windowMs ≤ (r.tsMs : Int) - start

/-- A record, once `_last_ts` is up to date. -/
def feedRecord (r : HostRecord) (f : AcceptFolder) :
    List ShownItem × AcceptFolder :=
  if r.evt = acceptEvtId then
    ([],
      { f with
        windowStart := some (f.windowStart.getD r.tsMs)
        pending := addPending r f.pending })
  else
    ([.item (.record r)], f)

/-- One round of the loop of `AcceptFolder.feed`. -/
def feedItem (item : HostItem) (f : AcceptFolder) :
    List ShownItem × AcceptFolder :=
  match item with
  | .record r =>
      let (out, f) := if f.restarted r || f.expired r then f.flush else ([], f)
      let (shown, f) := feedRecord r { f with lastTs := some r.tsMs }
      (out ++ shown, f)
  | item =>
      let (out, f) := f.flush
      (out ++ [.item item], f)

/-- `AcceptFolder.feed`. -/
def feed : List HostItem → AcceptFolder → List ShownItem × AcceptFolder
  | [], f => ([], f)
  | item :: rest, f =>
      let (out, f) := f.feedItem item
      let (shown, f) := feed rest f
      (out ++ shown, f)

/-- `feed` for one list after the other, and `flush` at the end. -/
def view (windowMs : Int) (batches : List (List HostItem)) : List ShownItem :=
  let (out, f) :=
    batches.foldl
      (fun (out, f) items =>
        let (shown, f) := feed items f
        (out ++ shown, f))
      ([], new windowMs)
  out ++ f.flush.1

end AcceptFolder

/-! ## The stream in segments -/

/-- The record, if the item is one. -/
def HostItem.record? : HostItem → Option HostRecord
  | .record r => some r
  | _ => none

/-- The accept, if the item is one. -/
def HostItem.accept? (item : HostItem) : Option HostRecord :=
  item.record?.filter (·.evt = acceptEvtId)

/-- The accepts in a stream. -/
def acceptsIn (items : List HostItem) : List HostRecord :=
  items.filterMap HostItem.accept?

/-- Everything else in a stream. -/
def othersIn (items : List HostItem) : List HostItem :=
  items.filter (·.accept?.isNone)

/-- What the viewer takes for the time of a reboot, seen from one item alone. -/
def HostItem.Restarts : HostItem → Prop
  | .record r => r.evt = bootEvtId
  | _ => True

/--
A segment ends before this item: it can mean a reboot, or the time went back,
or the window is over.
-/
def breaks (windowMs : Int) (earlier segment : List HostItem) : HostItem → Bool
  | .record r =>
      r.evt == bootEvtId ||
        ((earlier ++ segment).filterMap HostItem.record?).getLast?.any
          (fun last => r.tsMs < last.tsMs) ||
        (acceptsIn segment).head?.any
          fun first => windowMs ≤ (r.tsMs : Int) - first.tsMs
  | _ => true

/-- The rest of the stream cut into segments; the first is already open. -/
def segmentsFrom (windowMs : Int) (earlier segment : List HostItem) :
    List HostItem → List (List HostItem)
  | [] => [segment]
  | item :: rest =>
      if breaks windowMs earlier segment item then
        segment :: segmentsFrom windowMs (earlier ++ segment) [item] rest
      else
        segmentsFrom windowMs earlier (segment ++ [item]) rest

/-- One line for accepts of one core and CAN ID. -/
def summaryOf : List HostRecord → Option AcceptSummary
  | [] => none
  | first :: rest =>
      some
        { core := first.core
          canId := first.arg0
          count := rest.length + 1
          firstTs := first.tsMs
          firstCtr := first.arg1
          lastTs := (rest.getLastD first).tsMs
          lastCtr := (rest.getLastD first).arg1 }

/-- The keys of some accepts, in the order in which they came. -/
def keysOf (accepts : List HostRecord) : List (Nat × Nat) :=
  (accepts.map foldKey).eraseDups

/-- The accepts with one key. -/
def acceptsOf (accepts : List HostRecord) (key : Nat × Nat) : List HostRecord :=
  accepts.filter (foldKey · = key)

/-- One summary for each key. -/
def summariesOf (accepts : List HostRecord) : List AcceptSummary :=
  (keysOf accepts).filterMap fun key => summaryOf (acceptsOf accepts key)

/-- How a segment is shown. -/
def showSegment (segment : List HostItem) : List ShownItem :=
  (othersIn segment).map .item ++
    (summariesOf (acceptsIn segment)).map .summary

/--
Nothing in a segment can mean that the node started again inside it, and its
accepts lie in one window.
-/
structure Unbroken (windowMs : Int) (segment : List HostItem) : Prop where
  noRestart : ∀ item ∈ segment.tail, ¬ item.Restarts
  inOrder : (segment.filterMap HostItem.record?).Pairwise (·.tsMs ≤ ·.tsMs)
  inWindow :
    ∀ first rest, acceptsIn segment = first :: rest →
      ∀ r ∈ rest, (r.tsMs : Int) - first.tsMs < windowMs

/-- What passed, in the order in which it is shown. -/
def shownItems (shown : List ShownItem) : List HostItem :=
  shown.filterMap fun
    | .item item => some item
    | .summary _ => none

/-- How many accepts with a key one shown item stands for. -/
def ShownItem.accepts (key : Nat × Nat) : ShownItem → Nat
  | .item _ => 0
  | .summary s => if (s.core, s.canId) = key then s.count else 0

/-- How many accepts with a key are shown in all. -/
def shownAccepts (key : Nat × Nat) (shown : List ShownItem) : Nat :=
  (shown.map (·.accepts key)).sum

/-! ## Summaries, one accept after the other -/

/-- One more accept with the key of the others. -/
theorem summaryOf_snoc (own : List HostRecord) (r : HostRecord) :
    summaryOf (own ++ [r]) =
      some (((summaryOf own).getD (AcceptSummary.new r)).add r) := by
  cases own with
  | nil =>
      rfl
  | cons first rest =>
      simp [summaryOf, AcceptSummary.add]

/-- A value seen before is no new one. -/
theorem eraseDups_snoc
    {α : Type} [BEq α] [LawfulBEq α]
    (values : List α)
    (value : α) :
    (values ++ [value]).eraseDups =
      if value ∈ values then values.eraseDups
      else values.eraseDups ++ [value] := by
  rw [List.eraseDups_append]
  by_cases seen : value ∈ values
  · simp [List.removeAll, seen]
  · simp [List.removeAll, List.eraseDups_cons, seen]

/-- Every value is kept once. -/
theorem nodup_eraseDups
    {α : Type} [BEq α] [LawfulBEq α]
    (values : List α) :
    values.eraseDups.Nodup := by
  induction values using List.reverseRecOn with
  | nil =>
      exact List.nodup_nil
  | append_singleton values value inductionHypothesis =>
      rw [eraseDups_snoc]
      split
      · exact inductionHypothesis
      · next fresh =>
          refine List.nodup_append.mpr
            ⟨inductionHypothesis, List.nodup_singleton value, ?_⟩
          intro old isOld new isNew same
          rw [List.mem_singleton.mp isNew] at same
          exact fresh (same ▸ List.mem_eraseDups.mp isOld)

/-- The keys after one more accept. -/
theorem keysOf_snoc (accepts : List HostRecord) (r : HostRecord) :
    keysOf (accepts ++ [r]) =
      if foldKey r ∈ keysOf accepts then keysOf accepts
      else keysOf accepts ++ [foldKey r] := by
  simp only [keysOf, List.map_append, List.map_cons, List.map_nil,
    eraseDups_snoc, List.mem_eraseDups]

/-- Accepts with another key are left alone. -/
theorem acceptsOf_other
    {key : Nat × Nat}
    {r : HostRecord}
    (other : key ≠ foldKey r)
    (accepts : List HostRecord) :
    acceptsOf (accepts ++ [r]) key = acceptsOf accepts key := by
  simp [acceptsOf, other.symm]

/-- An accept joins those with its key. -/
theorem acceptsOf_own (accepts : List HostRecord) (r : HostRecord) :
    acceptsOf (accepts ++ [r]) (foldKey r) =
      acceptsOf accepts (foldKey r) ++ [r] := by
  simp [acceptsOf]

/-- The keys are those that have accepts. -/
theorem mem_keysOf (accepts : List HostRecord) (key : Nat × Nat) :
    key ∈ keysOf accepts ↔ acceptsOf accepts key ≠ [] := by
  simp [keysOf, acceptsOf, List.mem_eraseDups]

/-- What `_pending` holds after some accepts. -/
def pendingOf (keys : List (Nat × Nat)) (accepts : List HostRecord) :
    List ((Nat × Nat) × AcceptSummary) :=
  keys.filterMap fun key =>
    (summaryOf (acceptsOf accepts key)).map (Prod.mk key)

/-- The summaries are what `_pending` holds. -/
theorem pendingOf_summaries (accepts : List HostRecord) :
    (pendingOf (keysOf accepts) accepts).map (·.2) = summariesOf accepts := by
  have entries (key : Nat × Nat) :
      ((summaryOf (acceptsOf accepts key)).map (Prod.mk key)).map (·.2) =
        summaryOf (acceptsOf accepts key) := by
    rw [Option.map_map]
    exact Option.map_id' ..
  simp only [pendingOf, summariesOf, List.map_filterMap, entries]

/-- A summary is of the core and CAN ID of its accepts. -/
theorem summaryOf_key
    {accepts : List HostRecord}
    {key : Nat × Nat}
    {s : AcceptSummary}
    (summary : summaryOf (acceptsOf accepts key) = some s) :
    (s.core, s.canId) = key := by
  cases own : acceptsOf accepts key with
  | nil =>
      rw [own] at summary
      cases summary
  | cons first rest =>
      rw [own] at summary
      have isOwn : first ∈ acceptsOf accepts key :=
        own ▸ List.mem_cons_self
      rw [← Option.some.inj summary]
      exact of_decide_eq_true (List.mem_filter.mp isOwn).2

/-- An accept with none of the keys changes none of their entries. -/
theorem pendingOf_other
    {keys : List (Nat × Nat)}
    {r : HostRecord}
    (unknown : foldKey r ∉ keys)
    (accepts : List HostRecord) :
    pendingOf keys (accepts ++ [r]) = pendingOf keys accepts := by
  refine List.filterMap_congr fun key isKey => ?_
  have other : key ≠ foldKey r :=
    fun same => unknown (same ▸ isKey)
  rw [acceptsOf_other other]

/-- A new key comes last. -/
theorem addPending_unknown
    {keys : List (Nat × Nat)}
    {r : HostRecord}
    (unknown : foldKey r ∉ keys)
    (accepts : List HostRecord) :
    AcceptFolder.addPending r (pendingOf keys accepts) =
      pendingOf keys accepts ++ [(foldKey r, (AcceptSummary.new r).add r)] := by
  induction keys with
  | nil =>
      rfl
  | cons key keys inductionHypothesis =>
      have other : key ≠ foldKey r :=
        fun same => unknown (same ▸ List.mem_cons_self)
      have later :=
        inductionHypothesis fun isKey => unknown (List.mem_cons_of_mem key isKey)
      cases entry : summaryOf (acceptsOf accepts key) with
      | none =>
          simpa [pendingOf, entry] using later
      | some s =>
          simpa [pendingOf, entry, AcceptFolder.addPending, other] using later

/-- A known key keeps its place. -/
theorem addPending_known
    {keys : List (Nat × Nat)}
    {r : HostRecord}
    (distinct : keys.Nodup)
    (known : foldKey r ∈ keys)
    (accepts : List HostRecord)
    (full : acceptsOf accepts (foldKey r) ≠ []) :
    AcceptFolder.addPending r (pendingOf keys accepts) =
      pendingOf keys (accepts ++ [r]) := by
  induction keys with
  | nil =>
      exact absurd known List.not_mem_nil
  | cons key keys inductionHypothesis =>
      obtain ⟨fresh, distinct⟩ := List.nodup_cons.mp distinct
      by_cases same : key = foldKey r
      · subst same
        obtain ⟨first, rest, own⟩ := List.exists_cons_of_ne_nil full
        have kept := pendingOf_other fresh accepts
        simp only [pendingOf] at kept
        have summary := summaryOf_snoc (first :: rest) r
        simp only [pendingOf, List.filterMap_cons, acceptsOf_own, own,
          summary, kept]
        simp [summaryOf, AcceptFolder.addPending]
      · have later :=
          inductionHypothesis distinct
            ((List.mem_cons.mp known).resolve_left fun is => same is.symm)
        simp only [pendingOf] at later
        cases entry : summaryOf (acceptsOf accepts key) with
        | none =>
            simp only [pendingOf, List.filterMap_cons, acceptsOf_other same,
              entry, Option.map_none, later]
        | some s =>
            simp only [pendingOf, List.filterMap_cons, acceptsOf_other same,
              entry, Option.map_some, AcceptFolder.addPending, if_neg same,
              later]

/-- One accept more in `_pending`. -/
theorem addPending_snoc (accepts : List HostRecord) (r : HostRecord) :
    AcceptFolder.addPending r (pendingOf (keysOf accepts) accepts) =
      pendingOf (keysOf (accepts ++ [r])) (accepts ++ [r]) := by
  rw [keysOf_snoc]
  by_cases known : foldKey r ∈ keysOf accepts
  · rw [if_pos known]
    exact addPending_known (nodup_eraseDups _) known accepts
      ((mem_keysOf accepts (foldKey r)).mp known)
  · have none : acceptsOf accepts (foldKey r) = [] :=
      Classical.not_not.mp fun full =>
        known ((mem_keysOf accepts (foldKey r)).mpr full)
    have entry :
        pendingOf [foldKey r] (accepts ++ [r]) =
          [(foldKey r, (AcceptSummary.new r).add r)] := by
      simp [pendingOf, acceptsOf_own, none, summaryOf, AcceptSummary.new,
        AcceptSummary.add]
    rw [if_neg known, addPending_unknown known accepts, ← entry,
      ← pendingOf_other known accepts]
    exact List.filterMap_append.symm

/-! ## The viewer keeps to the segments -/

/-- Accepts of one stream after another. -/
theorem acceptsIn_append (early late : List HostItem) :
    acceptsIn (early ++ late) = acceptsIn early ++ acceptsIn late :=
  List.filterMap_append

/-- What one item adds to the accepts. -/
theorem acceptsIn_singleton (item : HostItem) :
    acceptsIn [item] = item.accept?.toList := by
  cases found : item.accept? with
  | none =>
      exact List.filterMap_cons_none found
  | some r =>
      exact List.filterMap_cons_some found

/-- A record with the ID of an accept is one. -/
theorem accept?_record (r : HostRecord) :
    (HostItem.record r).accept? = if r.evt = acceptEvtId then some r else none := by
  simp [HostItem.accept?, HostItem.record?, Option.filter]

/-- Other items of one stream after another. -/
theorem othersIn_append (early late : List HostItem) :
    othersIn (early ++ late) = othersIn early ++ othersIn late :=
  List.filter_append early late

namespace AcceptFolder

/-- What the folder knows, while a segment is open. -/
structure Holds
    (windowMs : Int)
    (earlier segment : List HostItem)
    (f : AcceptFolder) : Prop where
  window : f.windowMs = windowMs
  start : f.windowStart = (acceptsIn segment).head?.map (·.tsMs)
  last :
    f.lastTs =
      ((earlier ++ segment).filterMap HostItem.record?).getLast?.map (·.tsMs)
  pending : f.pending = pendingOf (keysOf (acceptsIn segment)) (acceptsIn segment)

variable
  {windowMs : Int}
  {earlier segment : List HostItem}
  {f : AcceptFolder}

/-- It knows nothing at first. -/
theorem new_holds (windowMs : Int) : (new windowMs).Holds windowMs [] [] where
  window := rfl
  start := rfl
  last := rfl
  pending := rfl

/-- Closing a segment shows its summaries. -/
theorem Holds.flush_shows (holds : f.Holds windowMs earlier segment) :
    f.flush.1 = (summariesOf (acceptsIn segment)).map .summary := by
  rw [← pendingOf_summaries, List.map_map, ← holds.pending]
  rfl

/-- Closing a segment opens the next. -/
theorem Holds.flush_holds (holds : f.Holds windowMs earlier segment) :
    f.flush.2.Holds windowMs (earlier ++ segment) [] where
  window := holds.window
  start := rfl
  last := by
    rw [List.append_nil]
    exact holds.last
  pending := rfl

/-- An item that is no record says nothing new. -/
theorem Holds.other
    (holds : f.Holds windowMs earlier segment)
    {item : HostItem}
    (noRecord : item.record? = none) :
    f.Holds windowMs earlier (segment ++ [item]) := by
  have noAccept : acceptsIn [item] = [] := by
    rw [acceptsIn_singleton, HostItem.accept?, noRecord]
    rfl
  have same : acceptsIn (segment ++ [item]) = acceptsIn segment := by
    rw [acceptsIn_append, noAccept, List.append_nil]
  refine ⟨holds.window, ?_, ?_, ?_⟩
  · rw [same]
    exact holds.start
  · rw [holds.last, ← List.append_assoc, List.filterMap_append]
    simp [noRecord]
  · rw [same]
    exact holds.pending

/-- A record joins the segment that is open. -/
theorem Holds.feedRecord
    (holds : f.Holds windowMs earlier segment)
    (r : HostRecord) :
    (feedRecord r { f with lastTs := some r.tsMs }).1 =
        (othersIn [.record r]).map .item ∧
      (feedRecord r { f with lastTs := some r.tsMs }).2.Holds windowMs earlier
        (segment ++ [.record r]) := by
  have last :
      some r.tsMs =
        ((earlier ++ (segment ++ [HostItem.record r])).filterMap
          HostItem.record?).getLast?.map HostRecord.tsMs := by
    rw [← List.append_assoc, List.filterMap_append]
    simp [HostItem.record?]
  by_cases accept : r.evt = acceptEvtId
  · have isAccept : acceptsIn [.record r] = [r] := by
      rw [acceptsIn_singleton, accept?_record, if_pos accept]
      rfl
    refine ⟨?_, ?_, ?_, ?_, ?_⟩
    · simp [AcceptFolder.feedRecord, othersIn, accept?_record, accept]
    · rw [AcceptFolder.feedRecord, if_pos accept]
      exact holds.window
    · rw [AcceptFolder.feedRecord, if_pos accept, acceptsIn_append, isAccept]
      show some (f.windowStart.getD r.tsMs) = _
      rw [holds.start]
      cases acceptsIn segment with
      | nil =>
          rfl
      | cons first rest =>
          rfl
    · rw [AcceptFolder.feedRecord, if_pos accept]
      exact last
    · rw [AcceptFolder.feedRecord, if_pos accept, acceptsIn_append, isAccept,
        ← addPending_snoc, ← holds.pending]
  · have noAccept : acceptsIn [.record r] = [] := by
      rw [acceptsIn_singleton, accept?_record, if_neg accept]
      rfl
    have same : acceptsIn (segment ++ [.record r]) = acceptsIn segment := by
      rw [acceptsIn_append, noAccept, List.append_nil]
    refine ⟨?_, ?_, ?_, ?_, ?_⟩
    · simp [AcceptFolder.feedRecord, othersIn, accept?_record, accept]
    · rw [AcceptFolder.feedRecord, if_neg accept]
      exact holds.window
    · rw [AcceptFolder.feedRecord, if_neg accept, same]
      exact holds.start
    · rw [AcceptFolder.feedRecord, if_neg accept]
      exact last
    · rw [AcceptFolder.feedRecord, if_neg accept, same]
      exact holds.pending

/-- The folder closes a segment where one ends. -/
theorem Holds.breaks
    (holds : f.Holds windowMs earlier segment)
    (r : HostRecord) :
    (f.restarted r || f.expired r) =
      breaks windowMs earlier segment (.record r) := by
  simp only [restarted, expired, holds.window, holds.start, holds.last,
    Option.any_map, TraveoBodyDomain.breaks]

/-- The folder takes one item. -/
theorem Holds.feedItem
    (holds : f.Holds windowMs earlier segment)
    (item : HostItem) :
    if TraveoBodyDomain.breaks windowMs earlier segment item then
      (f.feedItem item).1 =
          (summariesOf (acceptsIn segment)).map .summary ++
            (othersIn [item]).map .item ∧
        (f.feedItem item).2.Holds windowMs (earlier ++ segment) [item]
    else
      (f.feedItem item).1 = (othersIn [item]).map .item ∧
        (f.feedItem item).2.Holds windowMs earlier (segment ++ [item]) := by
  have closed := holds.flush_shows
  have opened := holds.flush_holds
  cases item with
  | record r =>
      have broken := holds.breaks r
      split
      · next ends =>
          obtain ⟨shown, next⟩ := opened.feedRecord r
          rw [ends] at broken
          simp only [AcceptFolder.feedItem, broken, if_true, closed, shown]
          exact ⟨trivial, next⟩
      · next goesOn =>
          obtain ⟨shown, next⟩ := holds.feedRecord r
          rw [Bool.not_eq_true] at goesOn
          rw [goesOn] at broken
          simp only [AcceptFolder.feedItem, broken, Bool.false_eq_true, if_false,
            List.nil_append, shown]
          exact ⟨trivial, next⟩
  | text text =>
      exact ⟨congrArg (· ++ _) closed, opened.other rfl⟩
  | gap core missing =>
      exact ⟨congrArg (· ++ _) closed, opened.other rfl⟩

/-- What is shown of the rest, up to the last summary. -/
theorem Holds.feed
    (holds : f.Holds windowMs earlier segment)
    (items : List HostItem) :
    (othersIn segment).map .item ++
        ((feed items f).1 ++ (feed items f).2.flush.1) =
      (segmentsFrom windowMs earlier segment items).flatMap showSegment := by
  induction items generalizing f earlier segment with
  | nil =>
      simp only [AcceptFolder.feed, segmentsFrom, List.flatMap_singleton,
        List.nil_append, holds.flush_shows, showSegment]
  | cons item rest inductionHypothesis =>
      have step := holds.feedItem item
      simp only [AcceptFolder.feed, segmentsFrom]
      split at step
      · next ends =>
          obtain ⟨shown, next⟩ := step
          rw [if_pos ends, List.flatMap_cons, ← inductionHypothesis next, shown]
          simp only [showSegment, List.append_assoc]
      · next goesOn =>
          obtain ⟨shown, next⟩ := step
          rw [if_neg goesOn, ← inductionHypothesis next, shown, othersIn_append,
            List.map_append]
          simp only [List.append_assoc]

/-- Items may come in any number of lists. -/
theorem feed_append (early late : List HostItem) (f : AcceptFolder) :
    AcceptFolder.feed (early ++ late) f =
      ((AcceptFolder.feed early f).1 ++
          (AcceptFolder.feed late (AcceptFolder.feed early f).2).1,
        (AcceptFolder.feed late (AcceptFolder.feed early f).2).2) := by
  induction early generalizing f with
  | nil =>
      rfl
  | cons item rest inductionHypothesis =>
      simp only [List.cons_append, AcceptFolder.feed, inductionHypothesis,
        List.append_assoc]

/-- What is shown does not depend on how the items arrive. -/
theorem view_eq (windowMs : Int) (batches : List (List HostItem)) :
    view windowMs batches =
      (segmentsFrom windowMs [] [] batches.flatten).flatMap showSegment := by
  have batched (out : List ShownItem) (f : AcceptFolder) :
      batches.foldl
          (fun (out, f) items =>
            (out ++ (AcceptFolder.feed items f).1, (AcceptFolder.feed items f).2))
          (out, f) =
        (out ++ (AcceptFolder.feed batches.flatten f).1,
          (AcceptFolder.feed batches.flatten f).2) := by
    induction batches generalizing out f with
    | nil =>
        exact congrArg (·, f) (List.append_nil out).symm
    | cons items rest inductionHypothesis =>
        rw [List.foldl_cons, inductionHypothesis, List.flatten_cons, feed_append,
          List.append_assoc]
  have shown := (new_holds windowMs).feed batches.flatten
  refine Eq.trans ?_ shown
  simp only [view, batched]
  rfl

end AcceptFolder

/-! ## What the segments are worth -/

/-- Cutting a stream loses nothing of it. -/
theorem segmentsFrom_flatten
    (windowMs : Int)
    (earlier segment items : List HostItem) :
    (segmentsFrom windowMs earlier segment items).flatten = segment ++ items := by
  induction items generalizing earlier segment with
  | nil =>
      rw [segmentsFrom, List.flatten_singleton, List.append_nil]
  | cons item rest inductionHypothesis =>
      rw [segmentsFrom]
      split
      · rw [List.flatten_cons, inductionHypothesis, List.singleton_append]
      · rw [inductionHypothesis, List.append_assoc, List.singleton_append]

/-- An item alone is a segment. -/
theorem Unbroken.single (windowMs : Int) (item : HostItem) :
    Unbroken windowMs [item] where
  noRestart := fun _ isLater => absurd isLater List.not_mem_nil
  inOrder := by
    cases item with
    | record r =>
        exact List.pairwise_singleton _ r
    | text text =>
        exact List.Pairwise.nil
    | gap core missing =>
        exact List.Pairwise.nil
  inWindow := by
    intro first rest accepts
    have one : (acceptsIn [item]).length ≤ 1 := List.length_filterMap_le ..
    rw [accepts, List.length_cons] at one
    rw [List.eq_nil_of_length_eq_zero (Nat.le_zero.mp (Nat.le_of_succ_le_succ one))]
    exact fun r isLater => absurd isLater List.not_mem_nil

/-- Where a segment does not end, it goes on unbroken. -/
theorem Unbroken.snoc
    {windowMs : Int}
    {earlier segment : List HostItem}
    {item : HostItem}
    (unbroken : Unbroken windowMs segment)
    (goesOn : breaks windowMs earlier segment item = false) :
    Unbroken windowMs (segment ++ [item]) := by
  cases item with
  | text text =>
      exact Bool.noConfusion goesOn
  | gap core missing =>
      exact Bool.noConfusion goesOn
  | record r =>
      simp only [breaks, Bool.or_eq_false_iff, Option.any_eq_false,
        beq_eq_false_iff_ne, decide_eq_false_iff_not] at goesOn
      obtain ⟨⟨notBoot, notBack⟩, notExpired⟩ := goesOn
      refine ⟨?_, ?_, ?_⟩
      · intro item isLater
        cases segment with
        | nil =>
            exact absurd isLater List.not_mem_nil
        | cons first rest =>
            rcases List.mem_append.mp isLater with old | new
            · exact unbroken.noRestart item old
            · rw [List.mem_singleton.mp new]
              exact notBoot
      · rw [List.filterMap_append]
        refine List.pairwise_append.mpr
          ⟨unbroken.inOrder, List.pairwise_singleton _ r, ?_⟩
        intro old isOld new isNew
        rw [List.mem_singleton.mp isNew]
        have records :=
          (List.dropLast_append_getLast (List.ne_nil_of_mem isOld)).symm
        generalize (segment.filterMap HostItem.record?).dropLast = before at records
        generalize List.getLast _ _ = last at records
        have ordered := unbroken.inOrder
        rw [records] at ordered isOld
        have notBefore : last.tsMs ≤ r.tsMs := by
          refine Nat.le_of_not_lt fun back => notBack last ?_ back
          rw [List.filterMap_append, records, ← List.append_assoc]
          exact List.getLast?_concat
        rcases List.mem_append.mp isOld with isBefore | isLast
        · exact Nat.le_trans
            ((List.pairwise_append.mp ordered).2.2 old isBefore last
              (List.mem_singleton_self last))
            notBefore
        · rw [List.mem_singleton.mp isLast]
          exact notBefore
      · intro first rest accepts second isLater
        rw [acceptsIn_append, acceptsIn_singleton, accept?_record] at accepts
        by_cases accept : r.evt = acceptEvtId
        · rw [if_pos accept] at accepts
          cases old : acceptsIn segment with
          | nil =>
              rw [old] at accepts
              obtain ⟨-, noRest⟩ := List.cons.inj accepts
              exact absurd (noRest ▸ isLater) List.not_mem_nil
          | cons start others =>
              rw [old] at accepts notExpired
              obtain ⟨isStart, isRest⟩ := List.cons.inj accepts
              rw [← isRest] at isLater
              rw [← isStart]
              rcases List.mem_append.mp isLater with isOther | isNew
              · exact unbroken.inWindow start others old second isOther
              · rw [List.mem_singleton.mp isNew]
                exact Int.lt_of_not_ge (notExpired start rfl)
        · rw [if_neg accept, Option.toList_none, List.append_nil] at accepts
          exact unbroken.inWindow first rest accepts second isLater

/-- Every segment of a stream is unbroken. -/
theorem segmentsFrom_unbroken
    {windowMs : Int}
    {segment : List HostItem}
    (unbroken : Unbroken windowMs segment)
    (earlier items : List HostItem) :
    ∀ other ∈ segmentsFrom windowMs earlier segment items,
      Unbroken windowMs other := by
  induction items generalizing earlier segment with
  | nil =>
      intro other isSegment
      rw [List.mem_singleton.mp isSegment]
      exact unbroken
  | cons item rest inductionHypothesis =>
      rw [segmentsFrom]
      split
      · refine List.forall_mem_cons.mpr ⟨unbroken, ?_⟩
        exact inductionHypothesis (Unbroken.single windowMs item) _
      · next goesOn =>
          exact inductionHypothesis
            (unbroken.snoc (Bool.eq_false_iff.mpr goesOn)) _

/-- A segment shows its other items, in order. -/
theorem showSegment_items (segment : List HostItem) :
    shownItems (showSegment segment) = othersIn segment := by
  simp [shownItems, showSegment, List.filterMap_map]

/-- One accept more in `_pending` counts for its key. -/
theorem addPending_counts
    (r : HostRecord)
    (key : Nat × Nat)
    (pending : List ((Nat × Nat) × AcceptSummary))
    (keyed : ∀ entry ∈ pending, (entry.2.core, entry.2.canId) = entry.1) :
    ((AcceptFolder.addPending r pending).map
        fun entry => (ShownItem.summary entry.2).accepts key).sum =
      (pending.map fun entry => (ShownItem.summary entry.2).accepts key).sum +
        if foldKey r = key then 1 else 0 := by
  induction pending with
  | nil =>
      exact (Nat.add_zero _).trans (Nat.zero_add _).symm
  | cons entry rest inductionHypothesis =>
      have later :=
        inductionHypothesis fun other isLater =>
          keyed other (List.mem_cons_of_mem entry isLater)
      have own := keyed entry List.mem_cons_self
      rw [AcceptFolder.addPending]
      split
      · next same =>
          rw [same] at own
          simp only [List.map_cons, List.sum_cons, ShownItem.accepts,
            AcceptSummary.add, own]
          split <;> omega
      · simp only [List.map_cons, List.sum_cons, later, Nat.add_assoc]

/-- The summaries of some accepts count each of them once. -/
theorem summariesOf_counts (key : Nat × Nat) (accepts : List HostRecord) :
    shownAccepts key ((summariesOf accepts).map .summary) =
      accepts.countP (foldKey · = key) := by
  induction accepts using List.reverseRecOn with
  | nil =>
      rfl
  | append_singleton accepts r inductionHypothesis =>
      have keyed :
          ∀ entry ∈ pendingOf (keysOf accepts) accepts,
            (entry.2.core, entry.2.canId) = entry.1 := by
        intro entry isPending
        obtain ⟨key, -, found⟩ := List.mem_filterMap.mp isPending
        obtain ⟨s, summary, rfl⟩ := Option.map_eq_some_iff.mp found
        exact summaryOf_key summary
      have counts := addPending_counts r key _ keyed
      rw [← pendingOf_summaries, shownAccepts, List.map_map, List.map_map]
        at inductionHypothesis ⊢
      rw [← addPending_snoc, List.countP_append, List.countP_singleton,
        ← inductionHypothesis]
      refine counts.trans (congrArg _ ?_)
      simp only [decide_eq_true_eq]

/-- A segment shows each of its accepts once. -/
theorem showSegment_accepts (key : Nat × Nat) (segment : List HostItem) :
    shownAccepts key (showSegment segment) =
      (acceptsIn segment).countP (foldKey · = key) := by
  have passed :
      shownAccepts key ((othersIn segment).map .item) = 0 := by
    simp [shownAccepts, ShownItem.accepts, List.map_map, Function.comp_def]
  rw [shownAccepts, showSegment, List.map_append, List.sum_append]
  exact (congrArg₂ (· + ·) passed (summariesOf_counts key _)).trans
    (Nat.zero_add _)

/-- Segments show their other items, in order. -/
theorem shownItems_segments (segments : List (List HostItem)) :
    shownItems (segments.flatMap showSegment) = othersIn segments.flatten := by
  induction segments with
  | nil =>
      rfl
  | cons segment rest inductionHypothesis =>
      rw [List.flatMap_cons, List.flatten_cons, othersIn_append,
        ← inductionHypothesis, ← showSegment_items segment]
      exact List.filterMap_append

/-- Segments show each of their accepts once. -/
theorem shownAccepts_segments (key : Nat × Nat) (segments : List (List HostItem)) :
    shownAccepts key (segments.flatMap showSegment) =
      (acceptsIn segments.flatten).countP (foldKey · = key) := by
  induction segments with
  | nil =>
      rfl
  | cons segment rest inductionHypothesis =>
      rw [List.flatMap_cons, List.flatten_cons, acceptsIn_append,
        List.countP_append, ← inductionHypothesis, ← showSegment_accepts key segment,
        shownAccepts, List.map_append, List.sum_append]
      rfl

/-- All that is no accept passes, in order. -/
theorem AcceptFolder.view_items (windowMs : Int) (batches : List (List HostItem)) :
    shownItems (view windowMs batches) = othersIn batches.flatten := by
  rw [view_eq, shownItems_segments, segmentsFrom_flatten, List.nil_append]

/-- Every accept is counted once. -/
theorem AcceptFolder.view_accepts
    (key : Nat × Nat)
    (windowMs : Int)
    (batches : List (List HostItem)) :
    shownAccepts key (view windowMs batches) =
      (acceptsIn batches.flatten).countP (foldKey · = key) := by
  rw [view_eq, shownAccepts_segments, segmentsFrom_flatten, List.nil_append]

/--
However the items arrive, the viewer shows the stream segment by segment.
Nothing in a segment can mean that the node started again inside it.  All that
is no accept passes, in order, and of each core and CAN ID as many accepts are
summed up as there were.
-/
theorem folding_hides_nothing
    (windowMs : Int)
    (batches : List (List HostItem)) :
    AcceptFolder.view windowMs batches =
        (segmentsFrom windowMs [] [] batches.flatten).flatMap showSegment ∧
      (segmentsFrom windowMs [] [] batches.flatten).flatten = batches.flatten ∧
      (∀ segment ∈ segmentsFrom windowMs [] [] batches.flatten,
        Unbroken windowMs segment) ∧
      shownItems (AcceptFolder.view windowMs batches) =
        othersIn batches.flatten ∧
      ∀ key,
        shownAccepts key (AcceptFolder.view windowMs batches) =
          (acceptsIn batches.flatten).countP (foldKey · = key) := by
  have whole := segmentsFrom_flatten windowMs [] [] batches.flatten
  have none : Unbroken windowMs [] :=
    ⟨fun _ isLater => absurd isLater List.not_mem_nil, List.Pairwise.nil,
      fun _ _ accepts => absurd accepts (List.cons_ne_nil _ _).symm⟩
  exact
    ⟨AcceptFolder.view_eq windowMs batches, whole,
      segmentsFrom_unbroken none [] _, AcceptFolder.view_items windowMs batches,
      fun key => AcceptFolder.view_accepts key windowMs batches⟩

end TraveoBodyDomain
