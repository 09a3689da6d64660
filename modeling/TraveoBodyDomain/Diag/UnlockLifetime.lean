import TraveoBodyDomain.Diag.Privilege

/-!
# How long an unlock lives

`uds_session_tick` looks at the S3 timeout in the programming session only, and
the handler of 0x27 does not look at the session at all.  So an unlock dies with
its session in time, as long as it is one of the programming session.

The clock wraps at 2^32 ms; the time that passes between two ticks is counted
on the side, as long as it stays below 2^31 ms.
-/

namespace TraveoBodyDomain

/-- The request brings the key of the seed that was sent. -/
def KeyArrives (server : UdsServer) : Option (List UInt8) → Prop
  | some (sid :: req) =>
      sid = udsSidSecurityAccess ∧
        5 ≤ req.length ∧
        req.getD 0 0 = 0x02 ∧
        server.security.state = .seedSent ∧
        reqU32 req 1 = server.security.seed ^^^ udsSecurityKeyXorConst
  | _ => False

instance KeyArrives.decidable (server : UdsServer) :
    ∀ request, Decidable (KeyArrives server request)
  | some (_ :: _) => inferInstanceAs (Decidable (_ ∧ _))
  | some [] => inferInstanceAs (Decidable False)
  | none => inferInstanceAs (Decidable False)

/-!
## One tick
-/

/-- What the handler of 0x27 makes of the state, by its result. -/
theorem securityAccessHandle_cases
    (access : SecurityAccess)
    (req : List UInt8) :
    (∃ nrc,
        (securityAccessHandle access req).1 = .error nrc ∧
          ((securityAccessHandle access req).2.state = access.state ∨
            (securityAccessHandle access req).2.state = .locked)) ∨
      (∃ body,
        (securityAccessHandle access req).1 = .ok body ∧
          (securityAccessHandle access req).2.state = .seedSent) ∨
      ∃ body,
        (securityAccessHandle access req).1 = .ok body ∧
          (securityAccessHandle access req).2.state = .unlocked ∧
          5 ≤ req.length ∧
          req.getD 0 0 = 0x02 ∧
          access.state = .seedSent ∧
          reqU32 req 1 = access.seed ^^^ udsSecurityKeyXorConst := by
  unfold securityAccessHandle
  split
  next => exact Or.inl ⟨_, rfl, Or.inl rfl⟩
  next =>
    split
    next => exact Or.inr (Or.inl ⟨_, rfl, rfl⟩)
    next =>
      split
      next key =>
        split
        next => exact Or.inl ⟨_, rfl, Or.inr rfl⟩
        next sent =>
          split
          next => exact Or.inl ⟨_, rfl, Or.inr rfl⟩
          next long =>
            split
            next => exact Or.inl ⟨_, rfl, Or.inr rfl⟩
            next right =>
              exact
                Or.inr
                  (Or.inr
                    ⟨_, rfl, rfl, Nat.not_lt.mp long, key, not_not.mp sent,
                      not_not.mp right⟩)
      next => exact Or.inl ⟨_, rfl, Or.inl rfl⟩

/-- Every key that arrives unlocks. -/
theorem securityAccessHandle_arrived
    {access : SecurityAccess}
    {req : List UInt8}
    (long : 5 ≤ req.length)
    (key : req.getD 0 0 = 0x02)
    (sent : access.state = .seedSent)
    (right : reqU32 req 1 = access.seed ^^^ udsSecurityKeyXorConst) :
    securityAccessHandle access req =
      (.ok [0x02], { access with state := .unlocked }) := by
  have notSeed : ¬ req.getD 0 0 = 0x01 := by
    rw [key]
    decide
  unfold securityAccessHandle
  rw [if_neg (by omega), if_neg notSeed, if_pos key, if_neg (not_not.mpr sent),
    if_neg (by omega), if_neg (not_not.mpr right)]

/-- What a tick leaves of the session, its timer and the security state. -/
inductive TickEnd
    (before : UdsServer)
    (nowMs : UInt32)
    (request : Option (List UInt8)) :
    Option (List UInt8) → UdsServer → Prop where
  | quiet
      {response : Option (List UInt8)}
      {after : UdsServer}
      (negative : ¬ PositiveResponse response)
      (session : after.session = before.session)
      (timer : after.lastActivityMs = before.lastActivityMs)
      (security :
        after.security.state = .unlocked →
          before.security.state = .unlocked) :
      TickEnd before nowMs request response after
  | unlocked
      {response : Option (List UInt8)}
      {after : UdsServer}
      (positive : PositiveResponse response)
      (key : KeyArrives before request)
      (session : after.session = before.session)
      (timer : after.lastActivityMs = nowMs) :
      TickEnd before nowMs request response after
  | answered
      {response : Option (List UInt8)}
      {after : UdsServer}
      (positive : PositiveResponse response)
      (timer : after.lastActivityMs = nowMs)
      (security :
        after.security.state = .unlocked →
          before.security.state = .unlocked ∧
            (before.session = .programming →
              after.session = .programming)) :
      TickEnd before nowMs request response after

/-- Every request that is dispatched ends in one of these ways. -/
theorem dispatch_ends
    (imageValid : (Nat → UInt8) → Bool)
    (server : UdsServer)
    (nowMs : UInt32)
    (sid : UInt8)
    (req : List UInt8) :
    TickEnd server nowMs (some (sid :: req))
      (some (server.dispatch imageValid nowMs sid req).response)
      (server.dispatch imageValid nowMs sid req).server := by
  obtain ⟨sameSession, sameTimer⟩ :=
    @UdsServer.handle_session imageValid server sid req
  unfold UdsServer.dispatch
  dsimp only
  by_cases access : sid = udsSidSecurityAccess
  · subst access
    rw [UdsServer.handle_securityAccess]
    have stays :
        ∀ after : UdsServer, ∀ body,
          after.followUp udsSidSecurityAccess body = after :=
      fun after body => after.followUp_other (by decide) body
    have notNegative : udsSidSecurityAccess ≠ udsSidNegativeResponse := by
      decide
    rcases securityAccessHandle_cases server.security req with
        ⟨nrc, refused, state⟩ | ⟨body, accepted, state⟩ |
        ⟨body, accepted, state, long, key, sent, right⟩
    · simp only [refused]
      refine .quiet (fun positive => positive rfl) rfl rfl ?_
      intro unlocked
      rcases state with same | locked
      · exact same.symm.trans unlocked
      · exact absurd (locked.symm.trans unlocked) (by decide)
    · simp only [accepted, stays]
      refine .answered notNegative rfl ?_
      intro unlocked
      exact absurd (state.symm.trans unlocked) (by decide)
    · simp only [accepted, stays]
      exact .unlocked notNegative ⟨rfl, long, key, sent, right⟩ rfl rfl
  · have sameSecurity :=
      @UdsServer.handle_security imageValid server sid req access
    rcases result : (server.handle imageValid sid req).result with nrc | body
    · refine .quiet (fun positive => positive rfl) sameSession sameTimer ?_
      intro unlocked
      rw [← sameSecurity]
      exact unlocked
    · have notNegative := UdsServer.handle_ok_sid result
      dsimp only
      unfold UdsServer.followUp
      split_ifs with control toDefault toProgramming
      · refine .answered notNegative rfl ?_
        intro unlocked
        cases unlocked
      · refine .answered notNegative rfl ?_
        intro unlocked
        exact ⟨sameSecurity ▸ unlocked, fun _ => rfl⟩
      · refine .answered notNegative rfl ?_
        intro unlocked
        exact ⟨sameSecurity ▸ unlocked, fun inside => sameSession.trans inside⟩
      · refine .answered notNegative rfl ?_
        intro unlocked
        exact ⟨sameSecurity ▸ unlocked, fun inside => sameSession.trans inside⟩

/-- Every tick does, from where the S3 check leaves the server. -/
theorem tick_ends
    (imageValid : (Nat → UInt8) → Bool)
    (server : UdsServer)
    (nowMs : UInt32)
    (request : Option (List UInt8)) :
    TickEnd (server.s3Check nowMs) nowMs request
      (server.tick imageValid nowMs request).1
      (server.tick imageValid nowMs request).2.1 := by
  rcases request with _ | _ | ⟨sid, req⟩
  · exact .quiet (fun positive => positive) rfl rfl id
  · exact .quiet (fun positive => positive) rfl rfl id
  · exact dispatch_ends imageValid (server.s3Check nowMs) nowMs sid req

/-- A key that arrives unlocks in the session it finds. -/
theorem tick_key
    (imageValid : (Nat → UInt8) → Bool)
    {server : UdsServer}
    {nowMs : UInt32}
    {request : Option (List UInt8)}
    (arrives : KeyArrives (server.s3Check nowMs) request) :
    (server.tick imageValid nowMs request).2.1.security.state = .unlocked ∧
      (server.tick imageValid nowMs request).2.1.session =
        (server.s3Check nowMs).session := by
  rcases request with _ | _ | ⟨sid, req⟩
  · exact arrives.elim
  · exact arrives.elim
  · obtain ⟨rfl, long, key, sent, right⟩ := arrives
    rw [UdsServer.tick, UdsServer.dispatch]
    dsimp only
    rw [UdsServer.handle_securityAccess,
      securityAccessHandle_arrived long key sent right]
    dsimp only
    rw [UdsServer.followUp_other _ (by decide)]
    exact ⟨rfl, rfl⟩

/-!
## Runs
-/

/-- The server, the last tick, and the ms since the last positive response. -/
structure TimedServer where
  server : UdsServer
  lastTickMs : Option UInt32
  sincePositiveMs : Option Nat

namespace TimedServer

/-- The bootloader after a start. -/
def start (flash : CodeFlash) : TimedServer where
  server := .start flash
  lastTickMs := none
  sincePositiveMs := none

/-- The ms between the last tick and a tick at `nowMs`. -/
def elapsed (timed : TimedServer) (nowMs : UInt32) : Nat :=
  match timed.lastTickMs with
  | some last => (nowMs - last).toNat
  | none => 0

/-- An unlock is one of the programming session, in time. -/
def UnlockAlive (timed : TimedServer) : Prop :=
  timed.server.security.state = .unlocked →
    timed.server.session = .programming ∧
      ∃ since,
        timed.sincePositiveMs = some since ∧ since < udsS3ServerMs.toNat

end TimedServer

/-- One call of `uds_session_tick`, and the time it takes the run to. -/
def timedTick (imageValid : (Nat → UInt8) → Bool) :
    Machine.Step TimedServer DiagTick Unit :=
  fun timed tick =>
    let (response, after, _) :=
      timed.server.tick imageValid tick.nowMs tick.request
    ({ server := after
       lastTickMs := some tick.nowMs
       sincePositiveMs :=
         if PositiveResponse response then
           some 0
         else
           timed.sincePositiveMs.map (· + timed.elapsed tick.nowMs) },
      [])

/-- The tick comes less than 2^31 ms after the one before. -/
def Spaced (timed : TimedServer) (tick : DiagTick) : Prop :=
  timed.elapsed tick.nowMs < 2 ^ 31

instance Spaced.decidable (timed : TimedServer) (tick : DiagTick) :
    Decidable (Spaced timed tick) :=
  inferInstanceAs (Decidable (_ < _))

/-- The tick brings no key that arrives in the default session. -/
def NoKeyInDefault (timed : TimedServer) (tick : DiagTick) : Prop :=
  (timed.server.s3Check tick.nowMs).session = .default →
    ¬ KeyArrives (timed.server.s3Check tick.nowMs) tick.request

instance NoKeyInDefault.decidable (timed : TimedServer) (tick : DiagTick) :
    Decidable (NoKeyInDefault timed tick) :=
  inferInstanceAs (Decidable (_ → _))

/-- What holds between ticks while no key arrives in the default session. -/
structure UnlockInv (timed : TimedServer) : Prop where
  inSession :
    timed.server.security.state = .unlocked →
      timed.server.session = .programming
  inTime :
    timed.server.session = .programming →
      ∃ since last,
        timed.sincePositiveMs = some since ∧
          timed.lastTickMs = some last ∧
          since < udsS3ServerMs.toNat ∧
          (last - timed.server.lastActivityMs).toNat = since

/-- The invariant is more than what is promised. -/
theorem UnlockInv.alive
    {timed : TimedServer}
    (inv : UnlockInv timed) :
    timed.UnlockAlive := by
  intro unlocked
  have inside := inv.inSession unlocked
  obtain ⟨since, last, counted, -, short, -⟩ := inv.inTime inside
  exact ⟨inside, since, counted, short⟩

/-- It holds after a start. -/
theorem unlockInv_start
    (flash : CodeFlash) :
    UnlockInv (.start flash) where
  inSession := by
    intro unlocked
    cases unlocked
  inTime := by
    intro inside
    cases inside

/-- Times that fit are added without wrapping. -/
theorem elapsed_add
    {now last activity : UInt32}
    {since elapsed : Nat}
    (first : (last - activity).toNat = since)
    (second : (now - last).toNat = elapsed)
    (fits : since + elapsed < 2 ^ 32) :
    (now - activity).toNat = since + elapsed := by
  have sum : now - activity = (last - activity) + (now - last) := by
    grind
  rw [sum, UInt32.toNat_add, first, second, Nat.mod_eq_of_lt fits]

/-- A session that the S3 check leaves open has not timed out. -/
theorem UnlockInv.s3Check
    {timed : TimedServer}
    (inv : UnlockInv timed)
    {tick : DiagTick}
    (spaced : Spaced timed tick)
    (inside : (timed.server.s3Check tick.nowMs).session = .programming) :
    timed.server.s3Check tick.nowMs = timed.server ∧
      ∃ since,
        timed.sincePositiveMs = some since ∧
          since + timed.elapsed tick.nowMs < udsS3ServerMs.toNat ∧
          (tick.nowMs - timed.server.lastActivityMs).toNat =
            since + timed.elapsed tick.nowMs := by
  unfold UdsServer.s3Check at inside ⊢
  split at inside
  next => cases inside
  next open_ =>
    rw [if_neg open_]
    refine ⟨rfl, ?_⟩
    obtain ⟨since, last, counted, ticked, short, timer⟩ := inv.inTime inside
    have gap : (tick.nowMs - last).toNat = timed.elapsed tick.nowMs := by
      unfold TimedServer.elapsed
      rw [ticked]
    have short' : since < 5000 := short
    have spaced' : timed.elapsed tick.nowMs < 2 ^ 31 := spaced
    have passed := elapsed_add timer gap (by omega)
    refine ⟨since, counted, ?_, passed⟩
    have notLate :
        ¬ udsS3ServerMs ≤ tick.nowMs - timed.server.lastActivityMs := by
      intro late
      exact open_ ⟨by rw [inside]; decide, late⟩
    rw [UInt32.le_iff_toNat_le, passed, Nat.not_le] at notLate
    exact notLate

/-- A tick that brings no key to the default session keeps the invariant. -/
theorem UnlockInv.tick
    {imageValid : (Nat → UInt8) → Bool}
    {timed : TimedServer}
    (inv : UnlockInv timed)
    {tick : DiagTick}
    (spaced : Spaced timed tick)
    (noKey : NoKeyInDefault timed tick) :
    UnlockInv (timedTick imageValid timed tick).1 := by
  have unlockedInside :
      (timed.server.s3Check tick.nowMs).security.state = .unlocked →
        (timed.server.s3Check tick.nowMs).session = .programming := by
    unfold UdsServer.s3Check
    split
    next =>
      intro unlocked
      cases unlocked
    next => exact inv.inSession
  have answeredNow :
      ∀ after : UdsServer,
        after.lastActivityMs = tick.nowMs →
          (tick.nowMs - after.lastActivityMs).toNat = 0 := by
    intro after timer
    rw [timer, UInt32.sub_self]
    rfl
  have ends :=
    tick_ends imageValid timed.server tick.nowMs tick.request
  unfold timedTick
  rcases ran : timed.server.tick imageValid tick.nowMs tick.request with
    ⟨response, after, effects⟩
  rw [ran] at ends
  dsimp only at ends ⊢
  cases ends with
  | quiet negative session timer security =>
      constructor
      · intro unlocked
        exact session.trans (unlockedInside (security unlocked))
      · intro inside
        obtain ⟨same, since, counted, short, passed⟩ :=
          inv.s3Check spaced (session.symm.trans inside)
        refine ⟨_, _, ?_, rfl, short, ?_⟩
        · simp only [if_neg negative, counted, Option.map_some]
        · change (tick.nowMs - after.lastActivityMs).toNat = _
          rw [timer, same]
          exact passed
  | unlocked positive key session timer =>
      have inside : after.session = .programming := by
        rw [session]
        cases open_ : (timed.server.s3Check tick.nowMs).session with
        | default => exact (noKey open_ key).elim
        | programming => rfl
      exact
        ⟨fun _ => inside, fun _ =>
          ⟨0, _, if_pos positive, rfl, by decide, answeredNow after timer⟩⟩
  | answered positive timer security =>
      constructor
      · intro unlocked
        obtain ⟨before, stays⟩ := security unlocked
        exact stays (unlockedInside before)
      · intro _
        exact
          ⟨0, _, if_pos positive, rfl, by decide, answeredNow after timer⟩

/-- A key that arrives in the default session leaves an unlock outside. -/
theorem noKeyInDefault_of_alive
    {imageValid : (Nat → UInt8) → Bool}
    {timed : TimedServer}
    {tick : DiagTick}
    (alive : (timedTick imageValid timed tick).1.UnlockAlive) :
    NoKeyInDefault timed tick := by
  intro outside arrives
  obtain ⟨unlocked, session⟩ :=
    tick_key imageValid arrives
  have inside := (alive unlocked).1
  exact absurd (session.symm.trans inside) (by rw [outside]; decide)

/-- An unlock in the default session, right after a start. -/
theorem unlock_outside_the_programming_session :
    let ticks : List DiagTick :=
      [⟨0, some [0x27, 0x01]⟩,
        ⟨1, some [0x27, 0x02, 0xA5, 0xA5, 0xA5, 0xA4]⟩]
    let timed :=
      Machine.final (timedTick fun _ => false) (.start blankFlash) ticks
    Machine.Allowed (timedTick fun _ => false) Spaced (.start blankFlash)
        ticks ∧
      timed.server.security.state = .unlocked ∧
      timed.server.session = .default ∧
      ¬ timed.UnlockAlive := by
  intro ticks timed
  have unlocked : timed.server.security.state = .unlocked := by
    decide +kernel
  have outside : timed.server.session = .default := by
    decide +kernel
  refine ⟨by decide +kernel, unlocked, outside, ?_⟩
  intro alive
  exact absurd (outside.symm.trans (alive unlocked).1) (by decide)

/--
After every tick of a run an unlock is one of the programming session, answered
within S3, if and only if no tick brings the key to the default session.
-/
theorem unlock_lifetime_iff
    (imageValid : (Nat → UInt8) → Bool)
    (flash : CodeFlash)
    (ticks : List DiagTick)
    (spaced :
      Machine.Allowed (timedTick imageValid) Spaced (.start flash) ticks) :
    (∀ before after,
        ticks = before ++ after →
          (Machine.final (timedTick imageValid) (.start flash)
            before).UnlockAlive) ↔
      Machine.Allowed (timedTick imageValid) NoKeyInDefault (.start flash)
        ticks := by
  constructor
  · generalize TimedServer.start flash = timed
    intro alive
    clear spaced
    induction ticks generalizing timed with
    | nil =>
        trivial
    | cons tick rest inductionHypothesis =>
        refine ⟨noKeyInDefault_of_alive (alive [tick] rest rfl), ?_⟩
        refine inductionHypothesis _ fun before after split => ?_
        exact alive (tick :: before) after (by rw [split, List.cons_append])
  · intro noKey before after split
    subst split
    have both :=
      (Machine.allowed_append.mp spaced).1.and
        (Machine.allowed_append.mp noKey).1
    have reached :=
      @Machine.invariant_of_start _ _ _ (timedTick imageValid) _
        (fun timed _ => UnlockInv timed)
        (fun _ _ _ inv guard => inv.tick guard.1 guard.2) _ _
        (unlockInv_start flash) both
    exact reached.alive

/-- The programming session, its unlock, and a tick after it timed out. -/
theorem programming_session_keeps_its_unlock :
    let ticks : List DiagTick :=
      [⟨0, some [0x10, 0x02]⟩, ⟨1, some [0x27, 0x01]⟩,
        ⟨2, some [0x27, 0x02, 0xA5, 0xA5, 0xA5, 0xA4]⟩, ⟨5002, none⟩]
    ∀ before after,
      ticks = before ++ after →
        (Machine.final (timedTick fun _ => false) (.start blankFlash)
          before).UnlockAlive :=
  (unlock_lifetime_iff (fun _ => false) blankFlash _ (by decide +kernel)).mpr
    (by decide +kernel)

end TraveoBodyDomain
