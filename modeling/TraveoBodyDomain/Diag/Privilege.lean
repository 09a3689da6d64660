import TraveoBodyDomain.Diag.Conversation

/-!
# What a tester needs to be allowed to do

The intent of the session layer: erasing, writing, downloading, the routines
and the reset are for the programming session, unlocked in that session.
Neither `uds_session.c` nor a handler reads the session or the security state
before it acts, so keeping to the intent is left to the tester.

This module says exactly which requests get past the handlers' own checks, and
that a run keeps to the intent if and only if the tester first asks for the
programming session, unlocks it there, and sends these requests in time.
-/

namespace TraveoBodyDomain

/--
The server, and whether security access was unlocked since the present session
was entered.
-/
structure WatchedServer where
  server : UdsServer
  unlockedHere : Bool

/-- Something the bootloader did, and whether the tester was authorised to it. -/
structure PrivilegedEffect where
  effect : UdsEffect
  authorised : Bool
  deriving Repr, DecidableEq

namespace WatchedServer

/-- The bootloader after a start. -/
def start (flash : CodeFlash) : WatchedServer :=
  ⟨.start flash, false⟩

/-- The programming session is active and was unlocked while it was. -/
def Authorised (watched : WatchedServer) : Prop :=
  watched.server.session = .programming ∧
    watched.server.security.state = .unlocked ∧
    watched.unlockedHere = true

instance Authorised.decidable (watched : WatchedServer) :
    Decidable watched.Authorised :=
  inferInstanceAs (Decidable (_ ∧ _ ∧ _))

/--
The server has moved on.  An unlock counts for the session it happened in: it
is forgotten with the session, and when security is no longer unlocked.
-/
def moveTo (watched : WatchedServer) (after : UdsServer) : WatchedServer :=
  { server := after
    unlockedHere :=
      after.security.state = .unlocked ∧
        after.session = watched.server.session ∧
        (watched.unlockedHere = true ∨
          watched.server.security.state ≠ .unlocked) }

/-- After the S3 check, when a request is handled. -/
def atRequest (watched : WatchedServer) (nowMs : UInt32) : WatchedServer :=
  watched.moveTo (watched.server.s3Check nowMs)

end WatchedServer

/-- `fbl_diag_tick`; an accepted reset starts the bootloader again. -/
def fblDiagTick (imageValid : (Nat → UInt8) → Bool) :
    Machine.Step WatchedServer DiagTick PrivilegedEffect :=
  fun watched tick =>
    let atRequest := watched.atRequest tick.nowMs
    let (_, after, effects) :=
      watched.server.tick imageValid tick.nowMs tick.request
    let next :=
      if .reset ∈ effects then
        WatchedServer.start after.flash
      else
        atRequest.moveTo after
    (next, effects.map fun effect => ⟨effect, decide atRequest.Authorised⟩)

/-- The requests whose handler finds nothing to refuse before it acts. -/
def TakesEffect (server : UdsServer) (sid : UInt8) (req : List UInt8) : Prop :=
  (sid = udsSidEcuReset ∧ 1 ≤ req.length) ∨
    (sid = udsSidRequestDownload ∧ 8 ≤ req.length) ∨
    (sid = udsSidTransferData ∧
      server.download.state = .active ∧
      1 ≤ req.length ∧
      req.getD 0 0 = server.download.nextSeq ∧
      server.download.writtenLen + (req.drop 1).length.toUInt32 ≤
        server.download.totalLen ∧
      WriteAccepted (server.download.addr + server.download.writtenLen)
        (req.drop 1).length) ∨
    (sid = udsSidRequestTransferExit ∧ server.download.state = .active) ∨
    (sid = udsSidRoutineControl ∧
      3 ≤ req.length ∧
      req.getD 0 0 = 0x01 ∧
      ((routineId req = udsRoutineEraseMemory ∧ 11 ≤ req.length) ∨
        routineId req = udsRoutineCheckProgrammedImage))

/-- A tick that brings no such request, or finds the tester authorised. -/
def StaysAuthorised (watched : WatchedServer) (tick : DiagTick) : Prop :=
  ∀ sid req,
    tick.request = some (sid :: req) →
    TakesEffect (watched.server.s3Check tick.nowMs) sid req →
    (watched.atRequest tick.nowMs).Authorised

/-- `flashEffects` is what was added to the operations. -/
theorem flashEffects_of_append
    {before after : CodeFlash}
    {tried : List FlashOp}
    (extended : after.ops = before.ops ++ tried) :
    flashEffects before after = tried.map .flash := by
  simp [flashEffects, extended]

/-- A download is started by a request that is long enough. -/
theorem requestDownloadHandle_effects
    (download : Download)
    (req : List UInt8) :
    (requestDownloadHandle download req).effects ≠ [] ↔ 8 ≤ req.length := by
  by_cases short : req.length < 8
  · simp [requestDownloadHandle, short]
  · simp [requestDownloadHandle, short, Nat.le_of_not_lt short]

/-- A block is written when it is the next one and the port accepts it. -/
theorem transferDataHandle_effects
    (download : Download)
    (flash : CodeFlash)
    (req : List UInt8) :
    (transferDataHandle download flash req).effects ≠ [] ↔
      download.state = .active ∧
        1 ≤ req.length ∧
        req.getD 0 0 = download.nextSeq ∧
        download.writtenLen + (req.drop 1).length.toUInt32 ≤
          download.totalLen ∧
        WriteAccepted (download.addr + download.writtenLen)
          (req.drop 1).length := by
  obtain ⟨tried, extended, reached⟩ :=
    fblFlashWrite_ops (download.addr + download.writtenLen) (req.drop 1) flash
  have whatWasDone := flashEffects_of_append extended
  rw [transferDataHandle]
  split
  · next idle =>
      simp [idle]
  · next active =>
      split
      · next short =>
          simp [Nat.not_le_of_lt short]
      · next long =>
          split
          · next wrong =>
              simp only [ne_eq, not_true_eq_false, false_iff]
              rintro ⟨-, -, right, -⟩
              exact wrong right
          · next right =>
              dsimp only
              split
              · next tooMuch =>
                  simp only [ne_eq, not_true_eq_false, false_iff]
                  rintro ⟨-, -, -, fits, -⟩
                  exact UInt32.not_lt.mpr fits tooMuch
              · next fits =>
                  have acted :
                      flashEffects flash
                          (fblFlashWrite
                            (download.addr + download.writtenLen)
                            (req.drop 1) flash).2 ≠ [] ↔
                        WriteAccepted
                          (download.addr + download.writtenLen)
                          (req.drop 1).length := by
                    rw [whatWasDone, ← reached, ne_eq, List.map_eq_nil_iff]
                  have passed :
                      download.state = .active ∧
                        1 ≤ req.length ∧
                        req.getD 0 0 = download.nextSeq ∧
                        download.writtenLen + (req.drop 1).length.toUInt32 ≤
                          download.totalLen :=
                    ⟨not_not.mp active, Nat.le_of_not_lt long,
                      not_not.mp right, UInt32.not_lt.mp fits⟩
                  split
                  · exact acted.trans (by simp only [passed, true_and])
                  · exact acted.trans (by simp only [passed, true_and])

/-- An active download is finished or given up. -/
theorem requestTransferExitHandle_effects (download : Download) :
    (requestTransferExitHandle download).effects ≠ [] ↔
      download.state = .active := by
  rw [requestTransferExitHandle]
  split
  · next idle =>
      simp [idle]
  · next active =>
      split <;> simp [not_not.mp active]

/-- A routine runs when it is started, known and has its parameters. -/
theorem routineControlHandle_effects
    (imageValid : (Nat → UInt8) → Bool)
    (flash : CodeFlash)
    (req : List UInt8) :
    (routineControlHandle imageValid flash req).effects ≠ [] ↔
      3 ≤ req.length ∧
        req.getD 0 0 = 0x01 ∧
        ((routineId req = udsRoutineEraseMemory ∧ 11 ≤ req.length) ∨
          routineId req = udsRoutineCheckProgrammedImage) := by
  rw [routineControlHandle]
  split
  · next short =>
      simp [Nat.not_le_of_lt short]
  · next long =>
      split
      · next other =>
          simp only [ne_eq, not_true_eq_false, false_iff]
          rintro ⟨-, started, -⟩
          exact other started
      · next started =>
          have known : udsRoutineEraseMemory ≠ udsRoutineCheckProgrammedImage := by
            decide
          split
          · next erase =>
              rw [doErase]
              split
              · next few =>
                  simp [erase, known, Nat.not_le_of_lt few]
              · next enough =>
                  simp only [not_not.mp started, erase, true_and, true_or,
                    Nat.le_of_not_lt long, Nat.le_of_not_lt enough, iff_true]
                  split <;> simp
          · next notErase =>
              split
              · next check =>
                  simp only [not_not.mp started, check, or_true, true_and,
                    Nat.le_of_not_lt long, iff_true]
                  rw [doCheckImage]
                  split <;> simp
              · next notCheck =>
                  simp [notErase, notCheck]

/-- The requests the bootloader acts on, whatever the session. -/
theorem handle_effects
    (imageValid : (Nat → UInt8) → Bool)
    (server : UdsServer)
    (sid : UInt8)
    (req : List UInt8) :
    (server.handle imageValid sid req).effects ≠ [] ↔
      TakesEffect server sid req := by
  -- One case for each row of the table, and one for the services outside it.
  by_cases isSession : sid = udsSidDiagnosticSessionControl
  · subst isSession
    simp +decide [UdsServer.handle_sessionControl, TakesEffect]
  by_cases isReset : sid = udsSidEcuReset
  · subst isReset
    rw [UdsServer.handle_ecuReset, ecuResetHandle]
    split
    · next short =>
        simp +decide [TakesEffect, Nat.not_le_of_lt short]
    · next long =>
        simp +decide [TakesEffect, Except.isOk, Except.toBool,
          Nat.le_of_not_lt long]
  by_cases isSecurity : sid = udsSidSecurityAccess
  · subst isSecurity
    simp +decide [UdsServer.handle_securityAccess, TakesEffect]
  by_cases isDownload : sid = udsSidRequestDownload
  · subst isDownload
    rw [UdsServer.handle_requestDownload, requestDownloadHandle_effects]
    simp +decide [TakesEffect]
  by_cases isTransfer : sid = udsSidTransferData
  · subst isTransfer
    rw [UdsServer.handle_transferData, transferDataHandle_effects]
    simp +decide [TakesEffect]
  by_cases isExit : sid = udsSidRequestTransferExit
  · subst isExit
    rw [UdsServer.handle_requestTransferExit, requestTransferExitHandle_effects]
    simp +decide [TakesEffect]
  by_cases isRoutine : sid = udsSidRoutineControl
  · subst isRoutine
    rw [UdsServer.handle_routineControl, routineControlHandle_effects]
    simp +decide [TakesEffect]
  · simp +decide [UdsServer.handle, TakesEffect, isSession, isReset, isSecurity,
      isDownload, isTransfer, isExit, isRoutine]

/-- A tick shows effects when it brings a request that takes effect. -/
theorem tick_effects
    (imageValid : (Nat → UInt8) → Bool)
    (server : UdsServer)
    (tick : DiagTick) :
    (server.tick imageValid tick.nowMs tick.request).2.2 ≠ [] ↔
      ∃ sid req,
        tick.request = some (sid :: req) ∧
          TakesEffect (server.s3Check tick.nowMs) sid req := by
  rcases tick with ⟨nowMs, _ | _ | ⟨sid, req⟩⟩
  · simp [UdsServer.tick]
  · simp [UdsServer.tick]
  · have dispatched :
        (server.tick imageValid nowMs (some (sid :: req))).2.2 =
          ((server.s3Check nowMs).handle imageValid sid req).effects := by
      rw [UdsServer.tick, UdsServer.dispatch]
      dsimp only
      split <;> rfl
    rw [dispatched, handle_effects]
    constructor
    · intro takes
      exact ⟨sid, req, rfl, takes⟩
    · rintro ⟨_, _, same, takes⟩
      cases same
      exact takes

/-- One tick: what it does is authorised when its request may be sent. -/
theorem fblDiagTick_authorised
    (imageValid : (Nat → UInt8) → Bool)
    (watched : WatchedServer)
    (tick : DiagTick) :
    (∀ done ∈ (fblDiagTick imageValid watched tick).2,
        done.authorised = true) ↔
      StaysAuthorised watched tick := by
  have shown :
      (fblDiagTick imageValid watched tick).2 =
        (watched.server.tick imageValid tick.nowMs tick.request).2.2.map
          fun effect =>
            ⟨effect, decide (watched.atRequest tick.nowMs).Authorised⟩ :=
    rfl
  have acts := tick_effects imageValid watched.server tick
  constructor
  · intro allAuthorised sid req requested takes
    obtain ⟨effect, performed⟩ :=
      List.exists_mem_of_ne_nil _ (acts.mpr ⟨sid, req, requested, takes⟩)
    have authorised := allAuthorised _
      (shown ▸ List.mem_map_of_mem performed)
    exact of_decide_eq_true authorised
  · intro stays done member
    rw [shown] at member
    obtain ⟨effect, performed, rfl⟩ := List.mem_map.mp member
    obtain ⟨sid, req, requested, takes⟩ :=
      acts.mp (List.ne_nil_of_mem performed)
    exact decide_eq_true (stays sid req requested takes)

/-- A run is authorised when every tick of it is. -/
theorem trace_authorised
    (imageValid : (Nat → UInt8) → Bool)
    (watched : WatchedServer)
    (ticks : List DiagTick) :
    (∀ done ∈ Machine.trace (fblDiagTick imageValid) watched ticks,
        done.authorised = true) ↔
      Machine.Allowed (fblDiagTick imageValid) StaysAuthorised watched ticks := by
  induction ticks generalizing watched with
  | nil =>
      simp [Machine.Allowed]
  | cons tick rest inductionHypothesis =>
      rw [Machine.trace_cons, Machine.Allowed, List.forall_mem_append,
        fblDiagTick_authorised, inductionHypothesis]

/-!
## The tester's part
-/

/-- A request in this tick finds the session unlocked, by the log. -/
def Cleared (log : List DiagExchange) (tick : DiagTick) : Prop :=
  UnlockedInSession log ∧ InTime log tick

/-- A run of `fbl_diag_tick` as the tester logs it. -/
def conversationStep (imageValid : (Nat → UInt8) → Bool) :
    Machine.Step WatchedServer DiagTick DiagExchange :=
  fun watched tick =>
    ((fblDiagTick imageValid watched tick).1,
      [watched.server.exchange imageValid tick])

/-- The log of a run from the start, latest first. -/
def conversation
    (imageValid : (Nat → UInt8) → Bool)
    (flash : CodeFlash)
    (ticks : List DiagTick) : List DiagExchange :=
  (Machine.trace (conversationStep imageValid) (.start flash) ticks).reverse

/-- The log tells whether the tester is authorised. -/
structure WatchedServer.FollowsLog
    (watched : WatchedServer)
    (log : List DiagExchange) : Prop where
  server : TraveoBodyDomain.FollowsLog watched.server log
  authorised : watched.Authorised ↔ UnlockedInSession log

namespace WatchedServer.FollowsLog

/-- Nothing was said, and nothing is unlocked. -/
theorem start
    (flash : CodeFlash) :
    (WatchedServer.start flash).FollowsLog [] :=
  ⟨.start flash, iff_of_false (fun authorised => by cases authorised.1) id⟩

section Step

variable
  {watched : WatchedServer}
  {log : List DiagExchange}
  (follows : watched.FollowsLog log)

include follows

/-- A request in this tick is authorised when the log clears it. -/
theorem atRequest_authorised
    (tick : DiagTick) :
    (watched.atRequest tick.nowMs).Authorised ↔ Cleared log tick := by
  unfold Cleared
  rw [← follows.authorised]
  have still := follows.server.still tick
  constructor
  · rintro ⟨programming, unlocked, here⟩
    obtain ⟨inside, onTime⟩ := still.mp programming
    have same : watched.server.s3Check tick.nowMs = watched.server := by
      refine UdsServer.s3Check_inTime ?_
      rw [follows.server.timer inside]
      exact onTime
    simp only [atRequest, moveTo, same, decide_eq_true_eq] at programming unlocked here
    refine ⟨⟨programming, unlocked, here.2.2.resolve_right ?_⟩, onTime⟩
    exact fun locked => locked unlocked
  · rintro ⟨⟨programming, unlocked, here⟩, onTime⟩
    have inside := follows.server.session.mp programming
    have same : watched.server.s3Check tick.nowMs = watched.server := by
      refine UdsServer.s3Check_inTime ?_
      rw [follows.server.timer inside]
      exact onTime
    unfold Authorised atRequest moveTo
    rw [same]
    exact ⟨programming, unlocked, decide_eq_true ⟨unlocked, rfl, Or.inl here⟩⟩

/-- One tick. -/
theorem step
    (imageValid : (Nat → UInt8) → Bool)
    (tick : DiagTick) :
    (fblDiagTick imageValid watched tick).1.FollowsLog
      (watched.server.exchange imageValid tick :: log) := by
  by_cases restarts : tick.Restarts
  · have started :
        (fblDiagTick imageValid watched tick).1 =
          .start (watched.server.tick imageValid tick.nowMs
            tick.request).2.1.flash :=
      if_pos ((watched.server.tick_restarts imageValid tick).mpr restarts)
    rw [started]
    refine
      ⟨.restart _ restarts log,
        iff_of_false (fun authorised => by cases authorised.1) ?_⟩
    rintro ⟨-, ⟨seed, -, brings⟩ | ⟨-, kept⟩⟩
    · exact brings.asks.not_restarts (by decide) restarts
    · exact kept (Or.inl restarts)
  have moved :
      (fblDiagTick imageValid watched tick).1 =
        (watched.atRequest tick.nowMs).moveTo
          (watched.server.tick imageValid tick.nowMs tick.request).2.1 :=
    if_neg (mt (watched.server.tick_restarts imageValid tick).mp restarts)
  rw [moved]
  refine ⟨follows.server.step imageValid tick restarts, ?_⟩
  have cleared := follows.atRequest_authorised tick
  have still := follows.server.still tick
  have session := watched.server.tick_programming imageValid tick
  have change := tick_securityChange imageValid watched.server tick
  have waits := follows.server.seed_still tick
  have inside : UnlockedInSession log → InProgramming log := fun unlocked =>
    follows.server.session.mp (follows.authorised.mpr unlocked).1
  change (watched.atRequest tick.nowMs).server.session = _ ↔ _ at still
  change _ ↔ _ ∨ (watched.atRequest tick.nowMs).server.session = _ ∧ _ at session
  change SecurityChange tick (watched.atRequest tick.nowMs).server.security _
    at change
  change
    ∀ seed,
      (watched.atRequest tick.nowMs).server.security.state = _ ∧
          (watched.atRequest tick.nowMs).server.security.seed = seed ↔ _
    at waits
  generalize
    (watched.server.tick imageValid tick.nowMs tick.request).2.1 = after
    at session change ⊢
  generalize watched.atRequest tick.nowMs = before at *
  have noKey
      (asks :
        ∀ seed, tick.BringsKey seed →
          ¬ (SeedOpen seed log ∧ (InProgramming log → InTime log tick)))
      (drops : tick.DropsSecurity)
      (locked : after.security.state ≠ .unlocked) :
      (before.moveTo after).Authorised ↔
        UnlockedInSession (watched.server.exchange imageValid tick :: log) := by
    refine iff_of_false (fun authorised => locked authorised.2.1) ?_
    rintro ⟨⟨-, onTime⟩, ⟨seed, waiting, brings⟩ | ⟨-, kept⟩⟩
    · exact asks seed brings ⟨waiting, fun _ => onTime⟩
    · exact kept drops
  rcases change with ⟨asks, sent⟩ | ⟨sent, brings, opened⟩ |
    ⟨asks, wrong, closed⟩ | ⟨noDefault, noSeed, noSendKey, same⟩
  · refine noKey (fun seed brings _ => ?_) (Or.inr (Or.inr (Or.inl asks))) ?_
    · exact absurd (asks.unique brings.asks).2 (by decide)
    · rw [sent]
      nofun
  · have noProgramming : ¬ tick.Asks udsSidDiagnosticSessionControl 0x02 :=
      fun asks => absurd (asks.unique brings.asks).1 (by decide)
    have noDefault : ¬ tick.Asks udsSidDiagnosticSessionControl 0x01 :=
      fun asks => absurd (asks.unique brings.asks).1 (by decide)
    rw [or_iff_right noProgramming, and_iff_left noDefault] at session
    constructor
    · intro authorised
      have lasts := still.mp (session.mp authorised.1)
      exact ⟨lasts, Or.inl ⟨_, ((waits _).mp ⟨sent, rfl⟩).1, brings⟩⟩
    · rintro ⟨lasts, -⟩
      have programming := still.mpr lasts
      have stays := session.mpr programming
      have unlocked : after.security.state = .unlocked := by rw [opened]
      have waited : before.server.security.state ≠ .unlocked := by
        rw [sent]
        nofun
      exact
        ⟨stays, unlocked,
          decide_eq_true
            ⟨unlocked, stays.trans programming.symm, Or.inr waited⟩⟩
  · refine noKey (fun seed brings waiting => ?_) ?_ ?_
    · obtain ⟨sent, rfl⟩ := (waits seed).mpr waiting
      exact wrong sent brings
    · exact
        asks.elim (fun left => Or.inr (Or.inl left))
          fun key => Or.inr (Or.inr (Or.inr key))
    · rw [closed]
      nofun
  · have kept : ¬ tick.DropsSecurity := by
      rintro (restart | toDefault | asksSeed | key)
      · exact restarts restart
      · exact noDefault toDefault
      · exact noSeed asksSeed
      · exact noSendKey key
    constructor
    · rintro ⟨programming, unlocked, here⟩
      simp only [moveTo, decide_eq_true_eq] at programming unlocked here
      obtain ⟨-, stays, stillHere⟩ := here
      rw [same] at unlocked
      have authorised : before.Authorised :=
        ⟨stays.symm.trans programming, unlocked,
          stillHere.resolve_right fun locked => locked unlocked⟩
      obtain ⟨inSession, onTime⟩ := cleared.mp authorised
      exact ⟨⟨inside inSession, onTime⟩, Or.inr ⟨inSession, kept⟩⟩
    · rintro ⟨lasts, ⟨seed, -, brings⟩ | ⟨inSession, -⟩⟩
      · exact absurd brings.asks noSendKey
      · obtain ⟨programming, unlocked, here⟩ :=
          cleared.mpr ⟨inSession, lasts.2⟩
        have stays := session.mpr (Or.inr ⟨programming, noDefault⟩)
        have unlockedAfter : after.security.state = .unlocked := by
          rw [same, unlocked]
        exact
          ⟨stays, unlockedAfter,
            decide_eq_true
              ⟨unlockedAfter, stays.trans programming.symm, Or.inl here⟩⟩

end Step

/-- Every run. -/
theorem run
    (imageValid : (Nat → UInt8) → Bool)
    (flash : CodeFlash)
    (ticks : List DiagTick) :
    (Machine.final (fblDiagTick imageValid) (.start flash) ticks).FollowsLog
      (conversation imageValid flash ticks) := by
  induction ticks using List.reverseRecOn with
  | nil =>
      exact .start flash
  | append_singleton before tick inductionHypothesis =>
      have logged :
          conversation imageValid flash (before ++ [tick]) =
            (Machine.final (fblDiagTick imageValid) (.start flash)
                before).server.exchange imageValid tick ::
              conversation imageValid flash before := by
        have reached :=
          @Machine.final_congr _ _ _ _ (conversationStep imageValid)
            (fblDiagTick imageValid) (fun _ _ => rfl) (.start flash) before
        rw [conversation, Machine.trace_append, List.reverse_append, reached]
        rfl
      rw [logged, Machine.final_append]
      exact inductionHypothesis.step imageValid tick

end WatchedServer.FollowsLog

/--
A run does only what it is authorised to if and only if every request that takes
effect finds the session unlocked, as the requests before it tell.
-/
theorem privileged_effects_are_authorised
    (imageValid : (Nat → UInt8) → Bool)
    (flash : CodeFlash)
    (ticks : List DiagTick) :
    (∀ done ∈ Machine.trace (fblDiagTick imageValid) (.start flash) ticks,
        done.authorised = true) ↔
      ∀ before tick after sid req,
        ticks = before ++ tick :: after →
          tick.request = some (sid :: req) →
            TakesEffect
                (Machine.final (fblDiagTick imageValid) (.start flash)
                  before).server
                sid req →
              Cleared (conversation imageValid flash before) tick := by
  rw [trace_authorised, Machine.allowed_iff_splits]
  refine forall₃_congr fun before tick after => ?_
  have follows := WatchedServer.FollowsLog.run imageValid flash before
  have keeps :
      StaysAuthorised
          (Machine.final (fblDiagTick imageValid) (.start flash) before) tick ↔
        ∀ sid req,
          tick.request = some (sid :: req) →
            TakesEffect
                (Machine.final (fblDiagTick imageValid) (.start flash)
                  before).server
                sid req →
              Cleared (conversation imageValid flash before) tick := by
    unfold StaysAuthorised TakesEffect
    rw [follows.atRequest_authorised, UdsServer.s3Check_download]
  rw [keeps]
  exact
    ⟨fun each sid req split => each split sid req, fun each split sid req =>
      each sid req split⟩

/--
The erase routine, asked for right after a start: the default session is
active and security is locked, and a sector is erased all the same.
-/
theorem default_session_erases :
    Machine.trace (fblDiagTick fun _ => false) (.start blankFlash)
          [⟨0, some
            [0x31, 0x01, 0xFF, 0x00, 0x10, 0x04, 0x00, 0x00, 0x00, 0x00, 0x80,
              0x00]⟩] =
        [⟨.eraseRoutine, false⟩, ⟨.flash (.eraseSector 0x10040000), false⟩] ∧
      ¬ ∀ imageValid flash ticks,
        ∀ done ∈ Machine.trace (fblDiagTick imageValid) (.start flash) ticks,
          done.authorised = true := by
  constructor
  · decide +kernel
  · intro enforced
    have unauthorised := enforced (fun _ => false) blankFlash
      [⟨0, some
        [0x31, 0x01, 0xFF, 0x00, 0x10, 0x04, 0x00, 0x00, 0x00, 0x00, 0x80,
          0x00]⟩]
    revert unauthorised
    decide +kernel

/-- An unlock in the default session is carried into the programming session. -/
example :
    Machine.trace (fblDiagTick fun _ => false) (.start blankFlash)
        [⟨0, some [0x27, 0x01]⟩, ⟨0, some [0x27, 0x02, 0xA5, 0xA5, 0xA5, 0xA4]⟩,
          ⟨0, some [0x10, 0x02]⟩,
          ⟨0, some [0x34, 0x10, 0x04, 0x00, 0x00, 0x00, 0x00, 0x02, 0x00]⟩] =
      [⟨.startDownload, false⟩] := by
  decide +kernel

/-- Unlocked in the programming session, until it is left. -/
example :
    Machine.trace (fblDiagTick fun _ => false) (.start blankFlash)
        [⟨0, some [0x10, 0x02]⟩, ⟨10, some [0x27, 0x01]⟩,
          ⟨20, some [0x27, 0x02, 0xA5, 0xA5, 0xA5, 0xA4]⟩,
          ⟨30, some [0x34, 0x10, 0x04, 0x00, 0x00, 0x00, 0x00, 0x02, 0x00]⟩,
          ⟨40, some [0x10, 0x01]⟩, ⟨50, some [0x37]⟩] =
      [⟨.startDownload, true⟩, ⟨.abandonDownload, false⟩] := by
  decide +kernel

end TraveoBodyDomain
