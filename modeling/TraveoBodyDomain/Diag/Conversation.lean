import TraveoBodyDomain.Diag.SecurityAccess

/-!
# What a conversation tells of the session

`uds_session.c` keeps the session, its timer and the security state to itself.
A tester that logs what it asked and when, and which of its requests were
answered positively, can tell all three from the log.
-/

namespace TraveoBodyDomain

/-- One call of `fbl_diag_tick`: the time, and the request that is taken. -/
structure DiagTick where
  nowMs : UInt32
  request : Option (List UInt8)
  deriving Repr, DecidableEq

namespace DiagTick

/-- The request is for this service and subfunction. -/
def Asks (tick : DiagTick) (sid subfunction : UInt8) : Prop :=
  match tick.request with
  | some (first :: second :: _) => first = sid ∧ second = subfunction
  | _ => False

/-- The request is an ECUReset that is accepted. -/
def Restarts (tick : DiagTick) : Prop :=
  match tick.request with
  | some (first :: _ :: _) => first = udsSidEcuReset
  | _ => False

/-- The request brings the key of `seed`. -/
def BringsKey (tick : DiagTick) (seed : UInt32) : Prop :=
  match tick.request with
  | some (first :: req) =>
      first = udsSidSecurityAccess ∧
        (SecurityEvent.request 5 req).IsSendKey ∧
        (SecurityEvent.request 5 req).KeyMatches seed
  | _ => False

/-- Whatever was unlocked or waits for its key is dropped. -/
def DropsSecurity (tick : DiagTick) : Prop :=
  tick.Restarts ∨ tick.Asks udsSidDiagnosticSessionControl 0x01 ∨
    tick.Asks udsSidSecurityAccess 0x01 ∨ tick.Asks udsSidSecurityAccess 0x02

instance Asks.decidable :
    ∀ (tick : DiagTick) (sid subfunction : UInt8),
      Decidable (tick.Asks sid subfunction)
  | ⟨_, some (_ :: _ :: _)⟩, _, _ => inferInstanceAs (Decidable (_ ∧ _))
  | ⟨_, some [_]⟩, _, _ => inferInstanceAs (Decidable False)
  | ⟨_, some []⟩, _, _ => inferInstanceAs (Decidable False)
  | ⟨_, none⟩, _, _ => inferInstanceAs (Decidable False)

instance Restarts.decidable :
    ∀ tick : DiagTick, Decidable tick.Restarts
  | ⟨_, some (_ :: _ :: _)⟩ => inferInstanceAs (Decidable (_ = _))
  | ⟨_, some [_]⟩ => inferInstanceAs (Decidable False)
  | ⟨_, some []⟩ => inferInstanceAs (Decidable False)
  | ⟨_, none⟩ => inferInstanceAs (Decidable False)

/-- A request asks for one thing. -/
theorem Asks.unique
    {tick : DiagTick}
    {sid other subfunction otherSubfunction : UInt8}
    (asks : tick.Asks sid subfunction)
    (asksOther : tick.Asks other otherSubfunction) :
    sid = other ∧ subfunction = otherSubfunction := by
  rcases tick with ⟨nowMs, _ | _ | ⟨first, _ | ⟨second, rest⟩⟩⟩
  · exact asks.elim
  · exact asks.elim
  · exact asks.elim
  · exact
      ⟨asks.1.symm.trans asksOther.1, asks.2.symm.trans asksOther.2⟩

/-- The request that asks for a service is one for it. -/
theorem Asks.request
    {tick : DiagTick}
    {sid subfunction : UInt8}
    (asks : tick.Asks sid subfunction) :
    ∃ req, tick.request = some (sid :: req) := by
  rcases tick with ⟨nowMs, _ | _ | ⟨first, _ | ⟨second, rest⟩⟩⟩
  · exact asks.elim
  · exact asks.elim
  · exact asks.elim
  · exact ⟨second :: rest, by rw [asks.1]⟩

/-- What a request for 0x27 asks for is its first byte. -/
theorem asks_of_access
    (tick : DiagTick)
    {req : List UInt8}
    (asked : tick.request = some (udsSidSecurityAccess :: req))
    (subfunction : UInt8) :
    tick.Asks udsSidSecurityAccess subfunction ↔
      1 ≤ req.length ∧ req.getD 0 0 = subfunction := by
  unfold Asks
  rw [asked]
  cases req with
  | nil => exact iff_of_false id fun both => absurd both.1 (Nat.not_succ_le_zero 0)
  | cons first rest => simp

/-- An ECUReset asks for nothing else. -/
theorem Asks.not_restarts
    {tick : DiagTick}
    {sid subfunction : UInt8}
    (asks : tick.Asks sid subfunction)
    (other : sid ≠ udsSidEcuReset) :
    ¬ tick.Restarts := by
  rcases tick with ⟨nowMs, _ | _ | ⟨first, _ | ⟨second, rest⟩⟩⟩
  · exact asks.elim
  · exact asks.elim
  · exact asks.elim
  · exact fun restarts => other (asks.1.symm.trans restarts)

/-- A request that ends or answers a seed asks for none. -/
theorem not_asksSeed
    {tick : DiagTick}
    (asks :
      tick.Asks udsSidDiagnosticSessionControl 0x01 ∨
        tick.Asks udsSidSecurityAccess 0x02) :
    ¬ tick.Asks udsSidSecurityAccess 0x01 := by
  intro asksSeed
  rcases asks with toDefault | key
  · exact absurd (asksSeed.unique toDefault).1 (by decide)
  · exact absurd (asksSeed.unique key).2 (by decide)

/-- A key comes with a sendKey. -/
theorem BringsKey.asks
    {tick : DiagTick}
    {seed : UInt32}
    (brings : tick.BringsKey seed) :
    tick.Asks udsSidSecurityAccess 0x02 := by
  rcases tick with ⟨nowMs, _ | _ | ⟨first, _ | ⟨second, rest⟩⟩⟩
  · exact brings.elim
  · exact brings.elim
  · exact absurd brings.2.1.1 (Nat.not_succ_le_zero 0)
  · exact ⟨brings.1, brings.2.1.2⟩

end DiagTick

/-- A response that is none of the negative ones. -/
def PositiveResponse : Option (List UInt8) → Prop
  | some (sid :: _) => sid ≠ udsSidNegativeResponse
  | _ => False

instance PositiveResponse.decidable :
    ∀ response, Decidable (PositiveResponse response)
  | some (_ :: _) => inferInstanceAs (Decidable (_ ≠ _))
  | some [] => inferInstanceAs (Decidable False)
  | none => inferInstanceAs (Decidable False)

/-!
## The log
-/

/-- A call as the tester logs it: was its request answered positively? -/
structure DiagExchange where
  tick : DiagTick
  answered : Bool

/-- When a request was last answered positively; the log is latest first. -/
def lastAnsweredMs : List DiagExchange → UInt32
  | [] => 0
  | last :: earlier =>
      if last.answered then last.tick.nowMs else lastAnsweredMs earlier

/-- The call comes within S3 of the last positive answer. -/
def InTime (log : List DiagExchange) (tick : DiagTick) : Prop :=
  tick.nowMs - lastAnsweredMs log < udsS3ServerMs

/--
The programming session: it was entered with 10 02, and since then no call came
too late, and neither 10 01 nor an ECUReset was asked for.
-/
def InProgramming : List DiagExchange → Prop
  | [] => False
  | last :: earlier =>
      last.tick.Asks udsSidDiagnosticSessionControl 0x02 ∨
        (InProgramming earlier ∧ InTime earlier last.tick) ∧
          ¬ last.tick.Asks udsSidDiagnosticSessionControl 0x01 ∧
          ¬ last.tick.Restarts

/-- The number of the seed that the next 27 01 brings. -/
def seedsAsked : List DiagExchange → UInt32
  | [] => 1
  | last :: earlier =>
      if last.tick.Restarts then
        1
      else if last.tick.Asks udsSidSecurityAccess 0x01 then
        seedsAsked earlier + 1
      else
        seedsAsked earlier

/-- This seed was asked for with 27 01, and waits for its key. -/
def SeedOpen (seed : UInt32) : List DiagExchange → Prop
  | [] => False
  | last :: earlier =>
      last.tick.Asks udsSidSecurityAccess 0x01 ∧ seed = seedsAsked earlier ∨
        SeedOpen seed earlier ∧ ¬ last.tick.DropsSecurity ∧
          (InProgramming earlier → InTime earlier last.tick)

/--
The programming session was unlocked while it was active: 27 02 brought the key
of the seed that waited, and nothing has dropped it since.
-/
def UnlockedInSession : List DiagExchange → Prop
  | [] => False
  | last :: earlier =>
      (InProgramming earlier ∧ InTime earlier last.tick) ∧
        ((∃ seed, SeedOpen seed earlier ∧ last.tick.BringsKey seed) ∨
          UnlockedInSession earlier ∧ ¬ last.tick.DropsSecurity)

/-!
## One tick
-/

namespace UdsServer

variable
  (imageValid : (Nat → UInt8) → Bool)
  (server : UdsServer)
  (tick : DiagTick)

/-- The programming session survives the S3 check when the tick is in time. -/
theorem s3Check_programming
    (nowMs : UInt32) :
    (server.s3Check nowMs).session = .programming ↔
      server.session = .programming ∧
        nowMs - server.lastActivityMs < udsS3ServerMs := by
  unfold s3Check
  split
  · next late =>
      refine iff_of_false (fun same => by cases same) ?_
      exact fun inTime => UInt32.not_lt.mpr late.2 inTime.2
  · next onTime =>
      refine ⟨fun programming => ⟨programming, ?_⟩, And.left⟩
      refine UInt32.not_le.mp fun late => onTime ⟨?_, late⟩
      rw [programming]
      decide

@[simp] theorem s3Check_lastActivityMs
    (nowMs : UInt32) :
    (server.s3Check nowMs).lastActivityMs = server.lastActivityMs := by
  unfold s3Check
  split <;> rfl

/-- A request for another service does not ask for this one. -/
theorem not_asks_of_ne
    {nowMs : UInt32}
    {sid other subfunction : UInt8}
    {req : List UInt8}
    (different : sid ≠ other) :
    ¬ DiagTick.Asks ⟨nowMs, some (sid :: req)⟩ other subfunction := by
  cases req with
  | nil => exact id
  | cons second rest => exact fun asks => different asks.1

/-- What 0x10 does to the session and to the security state. -/
theorem tick_sessionControl
    {req : List UInt8}
    (isControl : tick.request = some (udsSidDiagnosticSessionControl :: req)) :
    let before := server.s3Check tick.nowMs
    let after := (server.tick imageValid tick.nowMs tick.request).2.1
    (tick.Asks udsSidDiagnosticSessionControl 0x01 ∧
        after.session = .default ∧ after.security = before.security.relock) ∨
      (tick.Asks udsSidDiagnosticSessionControl 0x02 ∧
        after.session = .programming ∧ after.security = before.security) ∨
        (¬ tick.Asks udsSidDiagnosticSessionControl 0x01 ∧
          ¬ tick.Asks udsSidDiagnosticSessionControl 0x02 ∧
            after.session = before.session ∧
              after.security = before.security) := by
  obtain ⟨nowMs, request⟩ := tick
  dsimp only at isControl ⊢
  subst isControl
  cases req with
  | nil =>
      exact Or.inr (Or.inr ⟨id, id, rfl, rfl⟩)
  | cons subfunction rest =>
      by_cases isDefault : subfunction = 0x01
      · subst isDefault
        exact Or.inl ⟨⟨rfl, rfl⟩, rfl, rfl⟩
      by_cases isProgramming : subfunction = 0x02
      · subst isProgramming
        exact Or.inr (Or.inl ⟨⟨rfl, rfl⟩, rfl, rfl⟩)
      have refused :
          ((server.s3Check nowMs).handle imageValid
              udsSidDiagnosticSessionControl (subfunction :: rest)).result =
            .error .requestOutOfRange := by
        rw [handle_sessionControl]
        simp [sessionControlHandle, isDefault, isProgramming]
      rw [tick_refused imageValid server refused]
      refine
        Or.inr (Or.inr
          ⟨fun asks => isDefault asks.2, fun asks => isProgramming asks.2, ?_⟩)
      rw [handle_sessionControl]
      exact ⟨rfl, rfl⟩

/-- No other service touches the session. -/
theorem tick_session_other
    (isOther :
      ∀ req, tick.request ≠ some (udsSidDiagnosticSessionControl :: req)) :
    (server.tick imageValid tick.nowMs tick.request).2.1.session =
      (server.s3Check tick.nowMs).session := by
  rcases tick with ⟨nowMs, _ | _ | ⟨sid, req⟩⟩
  · rfl
  · rfl
  · have other : sid ≠ udsSidDiagnosticSessionControl := by
      rintro rfl
      exact isOther req rfl
    dsimp only
    cases handled : ((server.s3Check nowMs).handle imageValid sid req).result with
    | error nrc =>
        rw [tick_refused imageValid server handled]
        exact handle_session.1
    | ok body =>
        rw [tick_accepted imageValid server handled, followUp_other _ other]
        exact handle_session.1

/-- The programming session is active when it was asked for, or was not left. -/
theorem tick_programming :
    (server.tick imageValid tick.nowMs tick.request).2.1.session = .programming ↔
      tick.Asks udsSidDiagnosticSessionControl 0x02 ∨
        (server.s3Check tick.nowMs).session = .programming ∧
          ¬ tick.Asks udsSidDiagnosticSessionControl 0x01 := by
  by_cases isControl :
      ∃ req, tick.request = some (udsSidDiagnosticSessionControl :: req)
  · obtain ⟨req, asked⟩ := isControl
    rcases server.tick_sessionControl imageValid tick asked with
      ⟨toDefault, session, -⟩ | ⟨toProgramming, session, -⟩ |
        ⟨noDefault, noProgramming, session, -⟩
    · have noProgramming : ¬ tick.Asks udsSidDiagnosticSessionControl 0x02 :=
        fun asks => absurd (asks.unique toDefault).2 (by decide)
      rw [session]
      exact
        iff_of_false nofun
          (not_or.mpr ⟨noProgramming, fun both => both.2 toDefault⟩)
    · exact iff_of_true session (Or.inl toProgramming)
    · rw [session, or_iff_right noProgramming, and_iff_left noDefault]
  · have noControl (subfunction : UInt8) :
        ¬ tick.Asks udsSidDiagnosticSessionControl subfunction :=
      fun asks => isControl asks.request
    rw [or_iff_right (noControl 0x02), and_iff_left (noControl 0x01),
      server.tick_session_other imageValid tick fun req asked =>
        isControl ⟨req, asked⟩]

/-- Nor, but for 0x27, the security state. -/
theorem tick_security_other
    (isOther :
      ∀ req,
        tick.request ≠ some (udsSidDiagnosticSessionControl :: req) ∧
          tick.request ≠ some (udsSidSecurityAccess :: req)) :
    (server.tick imageValid tick.nowMs tick.request).2.1.security =
      (server.s3Check tick.nowMs).security := by
  rcases tick with ⟨nowMs, _ | _ | ⟨sid, req⟩⟩
  · rfl
  · rfl
  · have other : sid ≠ udsSidDiagnosticSessionControl := by
      rintro rfl
      exact (isOther req).1 rfl
    have noAccess : sid ≠ udsSidSecurityAccess := by
      rintro rfl
      exact (isOther req).2 rfl
    dsimp only
    cases handled : ((server.s3Check nowMs).handle imageValid sid req).result with
    | error nrc =>
        rw [tick_refused imageValid server handled]
        exact handle_security noAccess
    | ok body =>
        rw [tick_accepted imageValid server handled, followUp_other _ other]
        exact handle_security noAccess

/-- 0x27 changes the security state as its handler does. -/
theorem tick_securityAccess
    {req : List UInt8}
    (isAccess : tick.request = some (udsSidSecurityAccess :: req)) :
    (server.tick imageValid tick.nowMs tick.request).2.1.security =
      (SecurityEvent.request 5 req).apply (server.s3Check tick.nowMs).security := by
  obtain ⟨nowMs, request⟩ := tick
  dsimp only at isAccess ⊢
  subst isAccess
  have room :=
    securityAccessHandleIn_room (Nat.le_refl 5)
      (server.s3Check nowMs).security req
  change _ = (securityAccessHandleIn 5 _ req).2
  rw [room]
  cases handled :
      ((server.s3Check nowMs).handle imageValid udsSidSecurityAccess
        req).result with
  | error nrc =>
      rw [tick_refused imageValid server handled, handle_securityAccess]
  | ok body =>
      rw [tick_accepted imageValid server handled,
        followUp_other _ (by decide), handle_securityAccess]

/-- The timer is set by a positive response, and by nothing else. -/
theorem tick_timer :
    let result := server.tick imageValid tick.nowMs tick.request
    result.2.1.lastActivityMs =
      if PositiveResponse result.1 then
        tick.nowMs
      else
        server.lastActivityMs := by
  rcases tick with ⟨nowMs, _ | _ | ⟨sid, req⟩⟩
  · exact server.s3Check_lastActivityMs nowMs
  · exact server.s3Check_lastActivityMs nowMs
  · intro result
    cases handled : ((server.s3Check nowMs).handle imageValid sid req).result with
    | error nrc =>
        have refused : result = _ := tick_refused imageValid server handled
        rw [refused, if_neg (fun positive => positive rfl)]
        exact handle_session.2.trans (server.s3Check_lastActivityMs nowMs)
    | ok body =>
        have accepted : result = _ := tick_accepted imageValid server handled
        have positive : PositiveResponse (some (sid :: body)) :=
          handle_ok_sid handled
        rw [accepted, if_pos positive]
        unfold followUp
        split_ifs <;> rfl

/-- 10 02 is answered positively. -/
theorem tick_programming_positive
    (asks : tick.Asks udsSidDiagnosticSessionControl 0x02) :
    PositiveResponse (server.tick imageValid tick.nowMs tick.request).1 := by
  rcases tick with ⟨nowMs, _ | _ | ⟨first, _ | ⟨second, rest⟩⟩⟩
  · exact asks.elim
  · exact asks.elim
  · exact asks.elim
  · obtain ⟨rfl, rfl⟩ := asks
    have accepted :
        ((server.s3Check nowMs).handle imageValid
            udsSidDiagnosticSessionControl (0x02 :: rest)).result =
          .ok [0x02] :=
      rfl
    rw [tick_accepted imageValid server accepted]
    show udsSidDiagnosticSessionControl ≠ udsSidNegativeResponse
    decide

/-- The bootloader starts again exactly after an accepted ECUReset. -/
theorem tick_restarts :
    .reset ∈ (server.tick imageValid tick.nowMs tick.request).2.2 ↔
      tick.Restarts := by
  rcases tick with ⟨nowMs, _ | _ | ⟨first, _ | ⟨second, rest⟩⟩⟩
  · exact iff_of_false List.not_mem_nil id
  · exact iff_of_false List.not_mem_nil id
  · refine iff_of_false ?_ id
    by_cases isReset : first = udsSidEcuReset
    · subst isReset
      exact List.not_mem_nil
    · exact tick_noReset imageValid server isReset nowMs []
  · constructor
    · intro reset
      by_contra other
      exact tick_noReset imageValid server other nowMs (second :: rest) reset
    · rintro rfl
      exact List.mem_singleton_self _

end UdsServer

/-!
## What a tick does to the security state
-/

/-- Every tick does one of these things to the security state. -/
inductive SecurityChange
    (tick : DiagTick)
    (before after : SecurityAccess) : Prop
  | seed
      (asks : tick.Asks udsSidSecurityAccess 0x01)
      (sent : after = ⟨.seedSent, before.seedCounter, before.seedCounter + 1⟩)
  | unlocked
      (sent : before.state = .seedSent)
      (brings : tick.BringsKey before.seed)
      (opened : after = { before with state := .unlocked })
  | locked
      (asks :
        tick.Asks udsSidDiagnosticSessionControl 0x01 ∨
          tick.Asks udsSidSecurityAccess 0x02)
      (noKey : before.state = .seedSent → ¬ tick.BringsKey before.seed)
      (closed : after = before.relock)
  | kept
      (noDefault : ¬ tick.Asks udsSidDiagnosticSessionControl 0x01)
      (noSeed : ¬ tick.Asks udsSidSecurityAccess 0x01)
      (noKey : ¬ tick.Asks udsSidSecurityAccess 0x02)
      (same : after = before)

/-- So does every tick of `uds_session_tick`, behind the S3 check. -/
theorem tick_securityChange
    (imageValid : (Nat → UInt8) → Bool)
    (server : UdsServer)
    (tick : DiagTick) :
    SecurityChange tick (server.s3Check tick.nowMs).security
      (server.tick imageValid tick.nowMs tick.request).2.1.security := by
  by_cases isControl :
      ∃ req, tick.request = some (udsSidDiagnosticSessionControl :: req)
  · obtain ⟨req, asked⟩ := isControl
    have noAccess (subfunction : UInt8) :
        ¬ tick.Asks udsSidSecurityAccess subfunction := by
      have different : udsSidDiagnosticSessionControl ≠ udsSidSecurityAccess := by
        decide
      have noAsk := @UdsServer.not_asks_of_ne tick.nowMs _ _ subfunction req different
      rwa [← asked] at noAsk
    rcases server.tick_sessionControl imageValid tick asked with
      ⟨toDefault, -, security⟩ | ⟨toProgramming, -, security⟩ |
        ⟨noDefault, -, -, security⟩
    · rw [security]
      exact
        .locked (Or.inl toDefault) (fun _ brings => noAccess _ brings.asks) rfl
    · have noDefault : ¬ tick.Asks udsSidDiagnosticSessionControl 0x01 :=
        fun asks => absurd (asks.unique toProgramming).2 (by decide)
      exact .kept noDefault (noAccess _) (noAccess _) security
    · exact .kept noDefault (noAccess _) (noAccess _) security
  have noControl (subfunction : UInt8) :
      ¬ tick.Asks udsSidDiagnosticSessionControl subfunction :=
    fun asks => isControl asks.request
  by_cases isAccess :
      ∃ req, tick.request = some (udsSidSecurityAccess :: req)
  · obtain ⟨req, asked⟩ := isAccess
    rw [server.tick_securityAccess imageValid tick asked]
    have asks := tick.asks_of_access asked
    generalize (server.s3Check tick.nowMs).security = before
    rcases (SecurityEvent.request 5 req).kinds with issues | key | relocks | idle
    · exact .seed ((asks 0x01).mpr issues) (SecurityEvent.apply_requestSeed issues)
    · have brings : tick.BringsKey before.seed ↔
          (SecurityEvent.request 5 req).KeyMatches before.seed := by
        unfold DiagTick.BringsKey
        rw [asked]
        exact ⟨fun given => given.2.2, fun fits => ⟨rfl, key, fits⟩⟩
      by_cases sent : before.state = .seedSent
      · rcases SecurityEvent.apply_sendKey_sent key sent with
          ⟨fits, opened⟩ | ⟨wrong, closed⟩
        · exact .unlocked sent (brings.mpr fits) opened
        · exact
            .locked (Or.inr ((asks 0x02).mpr key))
              (fun _ given => wrong (brings.mp given)) closed
      · exact
          .locked (Or.inr ((asks 0x02).mpr key)) (fun isSent => absurd isSent sent)
            (SecurityEvent.apply_sendKey_unsent key sent)
    · cases relocks
    · refine
        .kept (noControl 0x01) (fun isSeed => idle ?_) (fun isKey => idle ?_)
          (SecurityEvent.apply_idle idle)
      · obtain ⟨some_, first⟩ := (asks 0x01).mp isSeed
        exact ⟨some_, Or.inl first⟩
      · obtain ⟨some_, first⟩ := (asks 0x02).mp isKey
        exact ⟨some_, Or.inr first⟩
  · have noAccess (subfunction : UInt8) :
        ¬ tick.Asks udsSidSecurityAccess subfunction :=
      fun asks => isAccess asks.request
    refine .kept (noControl 0x01) (noAccess 0x01) (noAccess 0x02) ?_
    refine server.tick_security_other imageValid tick fun req => ⟨?_, ?_⟩
    · exact fun asked => isControl ⟨req, asked⟩
    · exact fun asked => isAccess ⟨req, asked⟩

/-!
## The log tells what the server keeps
-/

/-- The server's session, timer and security state are those of the log. -/
structure FollowsLog (server : UdsServer) (log : List DiagExchange) : Prop where
  session : server.session = .programming ↔ InProgramming log
  timer : InProgramming log → server.lastActivityMs = lastAnsweredMs log
  counter : server.security.seedCounter = seedsAsked log
  seed :
    ∀ seed,
      server.security.state = .seedSent ∧ server.security.seed = seed ↔
        SeedOpen seed log

/-- What a tick adds to the log. -/
def UdsServer.exchange
    (imageValid : (Nat → UInt8) → Bool)
    (server : UdsServer)
    (tick : DiagTick) : DiagExchange :=
  ⟨tick, PositiveResponse (server.tick imageValid tick.nowMs tick.request).1⟩

namespace FollowsLog

/-- Nothing was said yet. -/
theorem start
    (flash : CodeFlash) :
    FollowsLog (.start flash) [] where
  session := iff_of_false (fun same => by cases same) id
  timer := False.elim
  counter := rfl
  seed := fun _ => iff_of_false (fun sent => by cases sent.1) id

/-- An accepted ECUReset starts the conversation again. -/
theorem restart
    (flash : CodeFlash)
    {last : DiagExchange}
    (restarts : last.tick.Restarts)
    (log : List DiagExchange) :
    FollowsLog (.start flash) (last :: log) := by
  have outside : ¬ InProgramming (last :: log) := by
    rintro (asks | ⟨-, -, kept⟩)
    · exact asks.not_restarts (by decide) restarts
    · exact kept restarts
  refine
    ⟨iff_of_false (fun same => by cases same) outside,
      fun inside => absurd inside outside, (if_pos restarts).symm, fun seed => ?_⟩
  refine iff_of_false (fun sent => by cases sent.1) ?_
  rintro (⟨asks, -⟩ | ⟨-, kept, -⟩)
  · exact asks.not_restarts (by decide) restarts
  · exact kept (Or.inl restarts)

section Step

variable
  {server : UdsServer}
  {log : List DiagExchange}
  (follows : FollowsLog server log)
  (imageValid : (Nat → UInt8) → Bool)
  (tick : DiagTick)

include follows

/-- The programming session lasts when the log says so. -/
theorem still :
    (server.s3Check tick.nowMs).session = .programming ↔
      InProgramming log ∧ InTime log tick := by
  rw [server.s3Check_programming, follows.session]
  refine and_congr_right fun inside => ?_
  rw [follows.timer inside]
  exact Iff.rfl

/-- The S3 check leaves the security state, or relocks it. -/
theorem s3Check_security :
    (InProgramming log → InTime log tick) ∧
        (server.s3Check tick.nowMs).security = server.security ∨
      ¬ (InProgramming log → InTime log tick) ∧
        (server.s3Check tick.nowMs).security = server.security.relock := by
  have still := follows.still tick
  unfold UdsServer.s3Check at still ⊢
  split at still
  · next late =>
      rw [if_pos late]
      have inside : server.session = .programming := by
        cases session : server.session with
        | default => exact absurd session late.1
        | programming => rfl
      have outside := mt still.mpr (by nofun)
      refine Or.inr ⟨fun inTime => outside ?_, rfl⟩
      exact ⟨follows.session.mp inside, inTime (follows.session.mp inside)⟩
  · next onTime =>
      rw [if_neg onTime]
      refine Or.inl ⟨fun inside => ?_, rfl⟩
      exact (still.mp (follows.session.mpr inside)).2

/-- The seed that waits behind the S3 check. -/
theorem seed_still
    (seed : UInt32) :
    (server.s3Check tick.nowMs).security.state = .seedSent ∧
        (server.s3Check tick.nowMs).security.seed = seed ↔
      SeedOpen seed log ∧ (InProgramming log → InTime log tick) := by
  rcases follows.s3Check_security tick with ⟨onTime, same⟩ | ⟨late, relocked⟩
  · rw [same, follows.seed, and_iff_left onTime]
  · rw [relocked]
    exact iff_of_false (fun sent => by cases sent.1) fun open_ => late open_.2

/-- The S3 check leaves the number of the next seed. -/
theorem counter_still :
    (server.s3Check tick.nowMs).security.seedCounter = seedsAsked log := by
  rw [← follows.counter]
  rcases follows.s3Check_security tick with ⟨-, same⟩ | ⟨-, relocked⟩
  · rw [same]
  · rw [relocked]
    rfl

/-- One tick, with or without a request. -/
theorem step
    (stays : ¬ tick.Restarts) :
    FollowsLog (server.tick imageValid tick.nowMs tick.request).2.1
      (server.exchange imageValid tick :: log) where
  session := by
    rw [server.tick_programming imageValid tick, follows.still tick]
    exact or_congr_right (and_congr_right fun _ => (and_iff_left stays).symm)
  timer := by
    intro inside
    have answers :
        (server.exchange imageValid tick).answered = true ↔
          PositiveResponse
            (server.tick imageValid tick.nowMs tick.request).1 :=
      decide_eq_true_iff
    rw [server.tick_timer imageValid tick, lastAnsweredMs]
    by_cases positive :
        PositiveResponse (server.tick imageValid tick.nowMs tick.request).1
    · rw [if_pos positive, if_pos (answers.mpr positive)]
      rfl
    · rw [if_neg positive, if_neg (mt answers.mp positive)]
      rcases inside with asks | ⟨⟨earlier, -⟩, -⟩
      · exact absurd (server.tick_programming_positive imageValid tick asks) positive
      · exact follows.timer earlier
  counter := by
    have counted :
        seedsAsked (server.exchange imageValid tick :: log) =
          if tick.Asks udsSidSecurityAccess 0x01 then
            seedsAsked log + 1
          else
            seedsAsked log :=
      if_neg stays
    rw [counted, ← follows.counter_still tick]
    rcases tick_securityChange imageValid server tick with
      ⟨asks, sent⟩ | ⟨-, brings, opened⟩ | ⟨asks, -, closed⟩ | ⟨-, noSeed, -, same⟩
    · rw [if_pos asks, sent]
    · rw [if_neg (DiagTick.not_asksSeed (Or.inr brings.asks)), opened]
    · rw [if_neg (DiagTick.not_asksSeed asks), closed]
      rfl
    · rw [if_neg noSeed, same]
  seed := by
    intro seed
    have nothingOpen
        (asks :
          tick.Asks udsSidDiagnosticSessionControl 0x01 ∨
            tick.Asks udsSidSecurityAccess 0x02) :
        ¬ SeedOpen seed (server.exchange imageValid tick :: log) := by
      rintro (⟨asksSeed, -⟩ | ⟨-, kept, -⟩)
      · exact DiagTick.not_asksSeed asks asksSeed
      · exact kept (asks.elim (fun left => Or.inr (Or.inl left))
          fun key => Or.inr (Or.inr (Or.inr key)))
    rcases tick_securityChange imageValid server tick with
      ⟨asks, sent⟩ | ⟨-, brings, opened⟩ | ⟨asks, -, closed⟩ |
        ⟨noDefault, noSeed, noKey, same⟩
    · rw [sent]
      constructor
      · rintro ⟨-, rfl⟩
        exact Or.inl ⟨asks, follows.counter_still tick⟩
      · rintro (⟨-, issued⟩ | ⟨-, kept, -⟩)
        · exact ⟨rfl, (issued.trans (follows.counter_still tick).symm).symm⟩
        · exact absurd (Or.inr (Or.inr (Or.inl asks))) kept
    · rw [opened]
      exact iff_of_false (fun sent => by cases sent.1) (nothingOpen (Or.inr brings.asks))
    · rw [closed]
      exact iff_of_false (fun sent => by cases sent.1) (nothingOpen asks)
    · have kept : ¬ tick.DropsSecurity := by
        rintro (restarts | toDefault | asksSeed | key)
        · exact stays restarts
        · exact noDefault toDefault
        · exact noSeed asksSeed
        · exact noKey key
      rw [same, follows.seed_still tick seed]
      constructor
      · rintro ⟨open_, onTime⟩
        exact Or.inr ⟨open_, kept, onTime⟩
      · rintro (⟨asksSeed, -⟩ | ⟨open_, -, onTime⟩)
        · exact absurd asksSeed noSeed
        · exact ⟨open_, onTime⟩

end Step

end FollowsLog

end TraveoBodyDomain
