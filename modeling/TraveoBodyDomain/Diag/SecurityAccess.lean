import Mathlib.Data.List.Nodup
import Mathlib.Data.List.Range
import TraveoBodyDomain.Diag.Uds

/-!
# Security access over whole runs

The handler of `uds_security_access.c` with a response buffer of any size,
called again and again, and relocked in between.  What unlocks is the history:
the key of the seed that was requested just before, and nothing after it.
-/

namespace TraveoBodyDomain

/--
The handler of `uds_security_access.c` with `respCap` bytes for the response.
The state has moved on when the response is found not to fit.
-/
def securityAccessHandleIn
    (respCap : Nat)
    (access : SecurityAccess)
    (req : List UInt8) :
    Except UdsNrc (List UInt8) × SecurityAccess :=
  if req.length < 1 then
    (.error .requestOutOfRange, access)
  else if req.getD 0 0 = 0x01 then
    let seed := access.seedCounter
    let after := ⟨.seedSent, seed, access.seedCounter + 1⟩
    if respCap < 5 then
      (.error .generalReject, after)
    else
      (.ok (0x01 :: toU32Be seed), after)
  else if req.getD 0 0 = 0x02 then
    if access.state ≠ .seedSent then
      (.error .requestSequenceError, { access with state := .locked })
    else if req.length < 5 then
      (.error .invalidKey, { access with state := .locked })
    else if reqU32 req 1 ≠ access.seed ^^^ udsSecurityKeyXorConst then
      (.error .invalidKey, { access with state := .locked })
    else if respCap < 1 then
      (.error .generalReject, { access with state := .unlocked })
    else
      (.ok [0x02], { access with state := .unlocked })
  else
    (.error .requestOutOfRange, access)

/-- With room for every response the capacity does not show. -/
theorem securityAccessHandleIn_room
    {respCap : Nat}
    (room : 5 ≤ respCap)
    (access : SecurityAccess)
    (req : List UInt8) :
    securityAccessHandleIn respCap access req =
      securityAccessHandle access req := by
  have seedFits : ¬ respCap < 5 := by omega
  have keyFits : ¬ respCap < 1 := by omega
  unfold securityAccessHandleIn securityAccessHandle
  dsimp only
  rw [if_neg seedFits, if_neg keyFits]

/-- The static variables of `uds_security_access.c` after a start. -/
def securityStart : SecurityAccess where
  state := .locked
  seed := 0
  seedCounter := 1

/-!
## Events
-/

/-- A 0x27 request, with the room for its response, or a relock. -/
inductive SecurityEvent where
  | request (respCap : Nat) (req : List UInt8)
  | relock
  deriving Repr, DecidableEq

namespace SecurityEvent

/-- A requestSeed. -/
def IsRequestSeed : SecurityEvent → Prop
  | request _ req => 1 ≤ req.length ∧ req.getD 0 0 = 0x01
  | relock => False

/-- A sendKey. -/
def IsSendKey : SecurityEvent → Prop
  | request _ req => 1 ≤ req.length ∧ req.getD 0 0 = 0x02
  | relock => False

/-- Neither a requestSeed, nor a sendKey, nor a relock. -/
def Idle : SecurityEvent → Prop
  | request _ req =>
      ¬ (1 ≤ req.length ∧ (req.getD 0 0 = 0x01 ∨ req.getD 0 0 = 0x02))
  | relock => False

/-- The four key bytes are there. -/
def HasKey : SecurityEvent → Prop
  | request _ req => 5 ≤ req.length
  | relock => False

/-- The four key bytes are there and are the transform of `seed`. -/
def KeyMatches
    (seed : UInt32) :
    SecurityEvent → Prop
  | request _ req =>
      5 ≤ req.length ∧ reqU32 req 1 = seed ^^^ udsSecurityKeyXorConst
  | relock => False

instance IsRequestSeed.decidable :
    ∀ event : SecurityEvent, Decidable event.IsRequestSeed
  | request _ _ => inferInstanceAs (Decidable (_ ∧ _))
  | relock => inferInstanceAs (Decidable False)

/-- What the event makes of the static variables. -/
def apply
    (access : SecurityAccess) :
    SecurityEvent → SecurityAccess
  | request respCap req => (securityAccessHandleIn respCap access req).2
  | relock => access.relock

/-- Every event is one of the four kinds. -/
theorem kinds
    (event : SecurityEvent) :
    event.IsRequestSeed ∨ event.IsSendKey ∨ event = relock ∨ event.Idle := by
  cases event with
  | relock =>
      exact Or.inr (Or.inr (Or.inl rfl))
  | request respCap req =>
      by_cases some_ : 1 ≤ req.length
      · by_cases seed : req.getD 0 0 = 0x01
        · exact Or.inl ⟨some_, seed⟩
        · by_cases key : req.getD 0 0 = 0x02
          · exact Or.inr (Or.inl ⟨some_, key⟩)
          · refine Or.inr (Or.inr (Or.inr ?_))
            rintro ⟨-, isSeed | isKey⟩
            · exact seed isSeed
            · exact key isKey
      · exact Or.inr (Or.inr (Or.inr fun both => some_ both.1))

/-- A requestSeed matters. -/
theorem IsRequestSeed.not_idle
    {event : SecurityEvent}
    (seed : event.IsRequestSeed) :
    ¬ event.Idle := by
  cases event with
  | relock => exact seed.elim
  | request respCap req => exact fun idle => idle ⟨seed.1, Or.inl seed.2⟩

/-- A sendKey matters. -/
theorem IsSendKey.not_idle
    {event : SecurityEvent}
    (key : event.IsSendKey) :
    ¬ event.Idle := by
  cases event with
  | relock => exact key.elim
  | request respCap req => exact fun idle => idle ⟨key.1, Or.inr key.2⟩

/-- A sendKey is no requestSeed. -/
theorem IsSendKey.not_requestSeed
    {event : SecurityEvent}
    (key : event.IsSendKey) :
    ¬ event.IsRequestSeed := by
  cases event with
  | relock => exact key.elim
  | request respCap req =>
      rintro ⟨-, seed⟩
      exact absurd (seed.symm.trans key.2) (by decide)

section Apply

variable {access : SecurityAccess} {event : SecurityEvent}

/-- A requestSeed issues the next seed, whatever the room. -/
theorem apply_requestSeed
    (seed : event.IsRequestSeed) :
    event.apply access =
      ⟨.seedSent, access.seedCounter, access.seedCounter + 1⟩ := by
  cases event with
  | relock => exact seed.elim
  | request respCap req =>
      unfold apply securityAccessHandleIn
      dsimp only
      rw [if_neg (Nat.not_lt.mpr seed.1), if_pos seed.2]
      split
      next => rfl
      next => rfl

/-- A sendKey that follows no seed locks. -/
theorem apply_sendKey_unsent
    (key : event.IsSendKey)
    (unsent : access.state ≠ .seedSent) :
    event.apply access = { access with state := .locked } := by
  cases event with
  | relock => exact key.elim
  | request respCap req =>
      have notSeed : ¬ req.getD 0 0 = 0x01 :=
        fun seed => key.not_requestSeed ⟨key.1, seed⟩
      unfold apply securityAccessHandleIn
      dsimp only
      rw [if_neg (Nat.not_lt.mpr key.1), if_neg notSeed, if_pos key.2,
        if_pos unsent]

/-- A sendKey that follows a seed unlocks when its key matches, else locks. -/
theorem apply_sendKey_sent
    (key : event.IsSendKey)
    (sent : access.state = .seedSent) :
    (event.KeyMatches access.seed ∧
        event.apply access = { access with state := .unlocked }) ∨
      (¬ event.KeyMatches access.seed ∧
        event.apply access = { access with state := .locked }) := by
  cases event with
  | relock => exact key.elim
  | request respCap req =>
      have notSeed : ¬ req.getD 0 0 = 0x01 :=
        fun seed => key.not_requestSeed ⟨key.1, seed⟩
      unfold apply securityAccessHandleIn
      dsimp only
      rw [if_neg (Nat.not_lt.mpr key.1), if_neg notSeed, if_pos key.2,
        if_neg (not_not.mpr sent)]
      by_cases short : req.length < 5
      · right
        rw [if_pos short]
        exact ⟨fun keyed => absurd keyed.1 (Nat.not_le.mpr short), rfl⟩
      · rw [if_neg short]
        by_cases wrong :
            reqU32 req 1 ≠ access.seed ^^^ udsSecurityKeyXorConst
        · right
          rw [if_pos wrong]
          exact ⟨fun keyed => wrong keyed.2, rfl⟩
        · left
          rw [if_neg wrong]
          refine ⟨⟨Nat.not_lt.mp short, not_not.mp wrong⟩, ?_⟩
          split
          next => rfl
          next => rfl

/-- An idle event changes nothing. -/
theorem apply_idle
    (idle : event.Idle) :
    event.apply access = access := by
  cases event with
  | relock => exact idle.elim
  | request respCap req =>
      unfold apply securityAccessHandleIn
      dsimp only
      by_cases empty : req.length < 1
      · rw [if_pos empty]
      · have some_ := Nat.not_lt.mp empty
        rw [if_neg empty, if_neg (fun seed => idle ⟨some_, Or.inl seed⟩),
          if_neg (fun key => idle ⟨some_, Or.inr key⟩)]

/-- Only a requestSeed leaves a seed waiting for its key. -/
theorem seedSent_of_apply
    (sent : (event.apply access).state = .seedSent) :
    event.IsRequestSeed ∨ event.Idle ∧ access.state = .seedSent := by
  rcases event.kinds with seed | key | rfl | idle
  · exact Or.inl seed
  · by_cases before : access.state = .seedSent
    · rcases apply_sendKey_sent key before with ⟨-, after⟩ | ⟨-, after⟩
      · rw [after] at sent
        cases sent
      · rw [after] at sent
        cases sent
    · rw [apply_sendKey_unsent key before] at sent
      cases sent
  · cases sent
  · rw [apply_idle idle] at sent
    exact Or.inr ⟨idle, sent⟩

end Apply

end SecurityEvent

/-!
## Runs
-/

/-- One event; it shows the seed it issues, if any. -/
def securityStep : Machine.Step SecurityAccess SecurityEvent UInt32 :=
  fun access event =>
    (event.apply access,
      if event.IsRequestSeed then [(event.apply access).seed] else [])

/-- The static variables after a sequence of events from the start. -/
abbrev securityAfter (events : List SecurityEvent) : SecurityAccess :=
  Machine.final securityStep securityStart events

/-- The seeds that a sequence of events from the start issues. -/
abbrev issuedSeeds (events : List SecurityEvent) : List UInt32 :=
  Machine.trace securityStep securityStart events

/-- One more event. -/
theorem securityAfter_concat
    (events : List SecurityEvent)
    (event : SecurityEvent) :
    securityAfter (events ++ [event]) = event.apply (securityAfter events) := by
  rw [securityAfter, Machine.final_append]
  rfl

/-- The latest event that matters is the requestSeed that issued `seed`. -/
def SeedWaits
    (seed : UInt32)
    (events : List SecurityEvent) : Prop :=
  Machine.Latest SecurityEvent.Idle
    (fun before event =>
      event.IsRequestSeed ∧ (securityAfter (before ++ [event])).seed = seed)
    events

/-- The latest event that matters is the key of the seed requested before. -/
def KeyGiven (events : List SecurityEvent) : Prop :=
  Machine.Latest SecurityEvent.Idle
    (fun before event =>
      event.IsSendKey ∧ ∃ seed, SeedWaits seed before ∧ event.KeyMatches seed)
    events

/-- An idle event keeps the seed that waits. -/
theorem seedWaits_concat_idle
    {seed : UInt32}
    {events : List SecurityEvent}
    {event : SecurityEvent}
    (idle : event.Idle) :
    SeedWaits seed (events ++ [event]) ↔ SeedWaits seed events :=
  Machine.latest_concat_idle
    (fun _ _ waits => SecurityEvent.IsRequestSeed.not_idle waits.1) idle

/-- A seed waits for its key exactly when it was issued by the latest event. -/
theorem seedSent_iff
    (events : List SecurityEvent)
    (seed : UInt32) :
    (securityAfter events).state = .seedSent ∧
        (securityAfter events).seed = seed ↔
      SeedWaits seed events := by
  induction events using List.reverseRecOn with
  | nil =>
      constructor
      · rintro ⟨sent, -⟩
        cases sent
      · intro waits
        exact (Machine.not_latest_nil waits).elim
  | append_singleton events event inductionHypothesis =>
      rcases event.kinds with issues | key | rfl | idle
      · rw [SeedWaits, Machine.latest_concat_busy issues.not_idle,
          securityAfter_concat, SecurityEvent.apply_requestSeed issues]
        exact ⟨fun sent => ⟨issues, sent.2⟩, fun waits => ⟨rfl, waits.2⟩⟩
      · rw [SeedWaits, Machine.latest_concat_busy key.not_idle,
          securityAfter_concat]
        constructor
        · rintro ⟨sent, -⟩
          rcases SecurityEvent.seedSent_of_apply sent with issues | ⟨idle, -⟩
          · exact (key.not_requestSeed issues).elim
          · exact (key.not_idle idle).elim
        · rintro ⟨issues, -⟩
          exact (key.not_requestSeed issues).elim
      · rw [SeedWaits, Machine.latest_concat_busy fun idle => idle,
          securityAfter_concat]
        constructor
        · rintro ⟨sent, -⟩
          cases sent
        · rintro ⟨issues, -⟩
          exact issues.elim
      · rw [seedWaits_concat_idle idle, securityAfter_concat,
          SecurityEvent.apply_idle idle]
        exact inductionHypothesis

/-- Security access is unlocked exactly when the key was the latest event. -/
theorem unlocked_iff
    (events : List SecurityEvent) :
    (securityAfter events).state = .unlocked ↔ KeyGiven events := by
  induction events using List.reverseRecOn with
  | nil =>
      constructor
      · intro unlocked
        cases unlocked
      · intro given
        exact (Machine.not_latest_nil given).elim
  | append_singleton events event inductionHypothesis =>
      rcases event.kinds with issues | key | rfl | idle
      · rw [KeyGiven, Machine.latest_concat_busy issues.not_idle,
          securityAfter_concat, SecurityEvent.apply_requestSeed issues]
        constructor
        · intro unlocked
          cases unlocked
        · rintro ⟨key, -⟩
          exact (key.not_requestSeed issues).elim
      · rw [KeyGiven, Machine.latest_concat_busy key.not_idle,
          securityAfter_concat]
        by_cases sent : (securityAfter events).state = .seedSent
        · have waits := (seedSent_iff events _).mp ⟨sent, rfl⟩
          rcases SecurityEvent.apply_sendKey_sent key sent with
              ⟨keyed, after⟩ | ⟨wrong, after⟩
          · rw [after]
            exact ⟨fun _ => ⟨key, _, waits, keyed⟩, fun _ => rfl⟩
          · rw [after]
            constructor
            · intro unlocked
              cases unlocked
            · rintro ⟨-, seed, issued, keyed⟩
              have same := ((seedSent_iff events seed).mpr issued).2
              rw [same] at wrong
              exact (wrong keyed).elim
        · rw [SecurityEvent.apply_sendKey_unsent key sent]
          constructor
          · intro unlocked
            cases unlocked
          · rintro ⟨-, seed, issued, -⟩
            exact (sent ((seedSent_iff events seed).mpr issued).1).elim
      · rw [KeyGiven, Machine.latest_concat_busy fun idle => idle,
          securityAfter_concat]
        constructor
        · intro unlocked
          cases unlocked
        · rintro ⟨key, -⟩
          exact key.elim
      · rw [KeyGiven,
          Machine.latest_concat_idle (fun _ _ given => given.1.not_idle) idle,
          securityAfter_concat, SecurityEvent.apply_idle idle]
        exact inductionHypothesis

/-!
## Attempts and seeds
-/

/-- The attempt gets as far as comparing its key with the seed. -/
def DecidedBySeed
    (access : SecurityAccess)
    (event : SecurityEvent) : Prop :=
  event.IsSendKey ∧ event.HasKey ∧ access.state = .seedSent

/-- An attempt that does not get that far is the same under every seed. -/
theorem apply_undecided
    {access : SecurityAccess}
    {respCap : Nat}
    {req : List UInt8}
    (key : (SecurityEvent.request respCap req).IsSendKey)
    (undecided : ¬ DecidedBySeed access (.request respCap req))
    (seed : UInt32) :
    (securityAccessHandleIn respCap { access with seed := seed } req).1 =
        (securityAccessHandleIn respCap access req).1 ∧
      (securityAccessHandleIn respCap access req).2.state = .locked := by
  have notSeed : ¬ req.getD 0 0 = 0x01 :=
    fun seed => key.not_requestSeed ⟨key.1, seed⟩
  unfold securityAccessHandleIn
  dsimp only
  rw [if_neg (Nat.not_lt.mpr key.1), if_neg (Nat.not_lt.mpr key.1),
    if_neg notSeed, if_neg notSeed, if_pos key.2, if_pos key.2]
  by_cases sent : access.state = .seedSent
  · have short : req.length < 5 :=
      Nat.not_le.mp fun long => undecided ⟨key, long, sent⟩
    rw [if_neg (not_not.mpr sent), if_neg (not_not.mpr sent), if_pos short,
      if_pos short]
    exact ⟨rfl, rfl⟩
  · rw [if_pos sent, if_pos sent]
    exact ⟨rfl, rfl⟩

/-- The response to a requestSeed is the seed it issues, when it fits. -/
theorem requestSeed_answer
    {access : SecurityAccess}
    {respCap : Nat}
    {req : List UInt8}
    (issues : (SecurityEvent.request respCap req).IsRequestSeed) :
    (securityAccessHandleIn respCap access req).1 =
      if respCap < 5 then
        .error .generalReject
      else
        .ok
          (0x01 ::
            toU32Be ((SecurityEvent.request respCap req).apply access).seed) := by
  rw [SecurityEvent.apply_requestSeed issues]
  unfold securityAccessHandleIn
  dsimp only
  rw [if_neg (Nat.not_lt.mpr issues.1), if_pos issues.2]
  split
  next => rfl
  next => rfl

/-- Without a requestSeed no seed comes to wait. -/
theorem not_seedSent_of_unrequested
    {access : SecurityAccess}
    (unsent : access.state ≠ .seedSent)
    {events : List SecurityEvent}
    (unrequested : ∀ event ∈ events, ¬ event.IsRequestSeed) :
    (Machine.final securityStep access events).state ≠ .seedSent := by
  induction events generalizing access with
  | nil =>
      exact unsent
  | cons event rest inductionHypothesis =>
      rw [Machine.final_cons]
      refine inductionHypothesis ?_ fun later member =>
        unrequested later (List.mem_cons_of_mem _ member)
      intro sent
      rcases SecurityEvent.seedSent_of_apply sent with issues | ⟨-, before⟩
      · exact unrequested event List.mem_cons_self issues
      · exact unsent before

/-- Between two attempts that a seed decides another seed was requested. -/
theorem requested_between
    {access : SecurityAccess}
    {first second : SecurityEvent}
    {between : List SecurityEvent}
    (firstKey : first.IsSendKey)
    (decided :
      DecidedBySeed
        (Machine.final securityStep access (first :: between)) second) :
    ∃ event ∈ between, event.IsRequestSeed := by
  by_contra none_
  push Not at none_
  refine not_seedSent_of_unrequested ?_ none_ decided.2.2
  intro sent
  rcases SecurityEvent.seedSent_of_apply sent with issues | ⟨idle, -⟩
  · exact firstKey.not_requestSeed issues
  · exact firstKey.not_idle idle

/-- The seeds of a run count up from the first, modulo 2^32. -/
theorem issuedSeeds_eq
    (access : SecurityAccess)
    (events : List SecurityEvent) :
    Machine.trace securityStep access events =
      (List.range (Machine.trace securityStep access events).length).map
        fun i => access.seedCounter + UInt32.ofNat i := by
  induction events generalizing access with
  | nil =>
      rfl
  | cons event rest inductionHypothesis =>
      rw [Machine.trace_cons]
      have later := inductionHypothesis (event.apply access)
      by_cases issues : event.IsRequestSeed
      · have shown : (securityStep access event).2 = [access.seedCounter] := by
          simp only [securityStep, if_pos issues,
            SecurityEvent.apply_requestSeed issues]
        have counter :
            (event.apply access).seedCounter = access.seedCounter + 1 := by
          rw [SecurityEvent.apply_requestSeed issues]
        rw [counter] at later
        rw [shown, List.singleton_append, List.length_cons,
          List.range_succ_eq_map, List.map_cons, List.map_map]
        change _ :: Machine.trace securityStep (event.apply access) rest = _
        congr 1
        · simp
        · refine later.trans (List.map_congr_left fun i _ => ?_)
          rw [Function.comp_apply, Nat.succ_eq_add_one, Nat.add_comm,
            UInt32.ofNat_add, UInt32.add_assoc]
          rfl
      · have shown : (securityStep access event).2 = [] := by
          simp only [securityStep, if_neg issues]
        have counter :
            (event.apply access).seedCounter = access.seedCounter := by
          rcases event.kinds with again | key | rfl | idle
          · exact (issues again).elim
          · by_cases sent : access.state = .seedSent
            · rcases SecurityEvent.apply_sendKey_sent key sent with
                  ⟨-, after⟩ | ⟨-, after⟩
              · rw [after]
              · rw [after]
            · rw [SecurityEvent.apply_sendKey_unsent key sent]
          · rfl
          · rw [SecurityEvent.apply_idle idle]
        rw [counter] at later
        rw [shown, List.nil_append]
        exact later

/-- Any 2^32 seeds in a row are different. -/
theorem issuedSeeds_nodup
    (access : SecurityAccess)
    (events : List SecurityEvent)
    (skip : Nat) :
    (((Machine.trace securityStep access events).drop skip).take
      (2 ^ 32)).Nodup := by
  rw [issuedSeeds_eq, List.range_eq_range', ← List.map_drop, ← List.map_take,
    List.drop_range']
  refine List.Nodup.map_on ?_ ((List.take_sublist _ _).nodup List.nodup_range')
  intro x xMember y yMember same
  have bounds :
      ∀ i ∈ (List.range' (0 + skip * 1)
          ((Machine.trace securityStep access events).length - skip)).take
            (2 ^ 32),
        skip ≤ i ∧ i < skip + 2 ^ 32 := by
    intro i member
    obtain ⟨at_, inside, rfl⟩ := List.mem_iff_getElem.mp member
    rw [List.length_take] at inside
    rw [List.getElem_take, List.getElem_range']
    omega
  have xBounds := bounds x xMember
  have yBounds := bounds y yMember
  have residues := congrArg UInt32.toNat ((UInt32.add_right_inj _).mp same)
  rw [UInt32.toNat_ofNat', UInt32.toNat_ofNat'] at residues
  omega

/-- What holds of security access after a sequence of events from the start. -/
structure SecurityRunLaw (events : List SecurityEvent) : Prop where
  unlocked :
    (securityAfter events).state = .unlocked ↔ KeyGiven events
  issued :
    ∀ before respCap req after,
      events = before ++ .request respCap req :: after →
        (SecurityEvent.request respCap req).IsRequestSeed →
          (securityAccessHandleIn respCap (securityAfter before) req).1 =
            if respCap < 5 then
              .error .generalReject
            else
              .ok
                (0x01 ::
                  toU32Be
                    (securityAfter (before ++ [.request respCap req])).seed)
  oneAttempt :
    ∀ before first between second after,
      events = before ++ first :: (between ++ second :: after) →
        DecidedBySeed (securityAfter before) first →
          DecidedBySeed (securityAfter (before ++ first :: between)) second →
            ∃ event ∈ between, event.IsRequestSeed
  undecided :
    ∀ before respCap req after,
      events = before ++ .request respCap req :: after →
        (SecurityEvent.request respCap req).IsSendKey →
          ¬ DecidedBySeed (securityAfter before) (.request respCap req) →
            ∀ seed,
              (securityAccessHandleIn respCap
                    { securityAfter before with seed := seed } req).1 =
                  (securityAccessHandleIn respCap (securityAfter before) req).1 ∧
                (securityAccessHandleIn respCap (securityAfter before)
                    req).2.state =
                  .locked
  seedsDiffer :
    ∀ skip, (((issuedSeeds events).drop skip).take (2 ^ 32)).Nodup

/--
After every sequence of 0x27 requests and relocks: unlocked exactly by the key
of the seed requested just before, no seed decides two attempts, and 2^32
requests in a row bring different seeds.
-/
theorem security_access_run_law
    (events : List SecurityEvent) :
    SecurityRunLaw events where
  unlocked := unlocked_iff events
  issued := by
    intro before respCap req after _ issues
    rw [securityAfter_concat]
    exact requestSeed_answer issues
  oneAttempt := by
    intro before first between second after _ firstDecided secondDecided
    rw [securityAfter, Machine.final_append] at secondDecided
    exact requested_between firstDecided.1 secondDecided
  undecided := by
    intro before respCap req after _ key undecided seed
    exact apply_undecided key undecided seed
  seedsDiffer := issuedSeeds_nodup securityStart events

end TraveoBodyDomain
