import Mathlib.Algebra.Group.Nat.Defs
import TraveoBodyDomain.Crypto.Ipc

/-!
# What one IPC transaction takes and gives back

`ipc_transact` with the caller's response buffer and length, and with a port
that writes down every call it gets.  On every return path the lock is released
once if it was acquired and never otherwise; mailbox and response buffer are
stored to within their bounds; and the caller's buffer changes with `IPC_OK`
only.

The wait compares times modulo 2^32.  It ends because the elapsed time cannot
jump over the values from the timeout on, as long as neither the timeout nor a
step of the clock is longer than half of the clock's range.
-/

namespace TraveoBodyDomain

/-- What a port is called for, and accesses to its mailbox. -/
inductive IpcPortCall where
  | acquire (acquired : Bool)
  | release
  | store (i : Nat)
  | load (i : Nat)
  | notify (len : Nat)
  | ready (ready : Bool)
  | responseLen (n : Nat)
  | now (ms : UInt32)
  deriving Repr, DecidableEq

namespace IpcPort

variable {World : Type} (port : IpcPort World)

/-- The same port, with a list of the calls it has got. -/
def recorded : IpcPort (World × List IpcPortCall) where
  semaTryAcquire := fun (world, calls) =>
    let (acquired, world) := port.semaTryAcquire world
    (acquired, world, calls ++ [.acquire acquired])
  semaRelease := fun (world, calls) =>
    (port.semaRelease world, calls ++ [.release])
  storeByte := fun i byte (world, calls) =>
    (port.storeByte i byte world, calls ++ [.store i])
  loadByte := fun i (world, calls) =>
    let (byte, world) := port.loadByte i world
    (byte, world, calls ++ [.load i])
  mailboxCap := port.mailboxCap
  notify := fun len (world, calls) =>
    (port.notify len world, calls ++ [.notify len])
  responseReady := fun (world, calls) =>
    let (ready, world) := port.responseReady world
    (ready, world, calls ++ [.ready ready])
  responseLen := fun (world, calls) =>
    let (n, world) := port.responseLen world
    (n, world, calls ++ [.responseLen n])
  nowMs := fun (world, calls) =>
    let (ms, world) := port.nowMs world
    (ms, world, calls ++ [.now ms])

/-- The loop `resp[i] = mb[i]` for `n` bytes, from the byte `i` on. -/
def loadInto {respCap : Nat} :
    Nat → Nat → FixedBuffer UInt8 respCap → World →
      FixedBuffer UInt8 respCap × World
  | _, 0, resp, world => (resp, world)
  | i, n + 1, resp, world =>
      let (byte, world) := port.loadByte i world
      loadInto (i + 1) n (resp.store i byte) world

end IpcPort

/--
`ipc_transact` as it is called: the status, `*resp_len`, `resp`, and the port's
world.  `none` for a pointer is NULL.
-/
def ipcTransactInto
    {World : Type}
    {respCap : Nat}
    (port : Option (IpcPort World))
    (req : Option (List UInt8))
    (resp : Option (FixedBuffer UInt8 respCap))
    (timeoutMs : UInt32)
    (polls : Nat)
    (world : World) :
    Option (IpcStatus × Nat × Option (FixedBuffer UInt8 respCap) × World) :=
  match port, req, resp with
  | some port, some req, some resp =>
      if port.mailboxCap < req.length then
        some (.malformed, 0, some resp, world)
      else
        let (acquired, world) := port.semaTryAcquire world
        if acquired = false then
          some (.busy, 0, some resp, world)
        else
          let world := port.storeBytes 0 req world
          let world := port.notify req.length world
          let (startMs, world) := port.nowMs world
          match port.awaitResponse startMs timeoutMs polls world with
          | none => none
          | some (false, world) =>
              some (.timeout, 0, some resp, port.semaRelease world)
          | some (true, world) =>
              let (n, world) := port.responseLen world
              if respCap < n ∨ port.mailboxCap < n then
                some (.malformed, 0, some resp, port.semaRelease world)
              else
                let (resp, world) := port.loadInto 0 n resp world
                some (.ok, n, some resp, port.semaRelease world)
  | _, _, _ => some (.malformed, 0, resp, world)

namespace IpcPort

variable {World : Type} (port : IpcPort World)

/-- The copying loop stores, in order, what the loop of `Crypto.Ipc` reads. -/
theorem loadInto_eq
    {respCap : Nat}
    (i n : Nat)
    (resp : FixedBuffer UInt8 respCap)
    (world : World) :
    port.loadInto i n resp world =
      (resp.storeAll i (port.loadBytes i n world).1,
        (port.loadBytes i n world).2) := by
  induction n generalizing i resp world with
  | zero =>
      rfl
  | succ n inductionHypothesis =>
      exact inductionHypothesis (i + 1) _ _

/-- The loop of `Crypto.Ipc` reads as many bytes as it is asked for. -/
theorem length_loadBytes
    (i n : Nat)
    (world : World) :
    (port.loadBytes i n world).1.length = n := by
  induction n generalizing i world with
  | zero =>
      rfl
  | succ n inductionHypothesis =>
      exact congrArg (· + 1) (inductionHypothesis (i + 1) _)

end IpcPort

/-- The transaction does to the caller's buffer what `ipcTransact` returns. -/
theorem ipcTransactInto_eq
    {World : Type}
    {respCap : Nat}
    (port : IpcPort World)
    (req : List UInt8)
    (resp : FixedBuffer UInt8 respCap)
    (timeoutMs : UInt32)
    (polls : Nat)
    (world : World) :
    ipcTransactInto (some port) (some req) (some resp) timeoutMs polls world =
      (ipcTransact port req respCap timeoutMs polls world).map
        fun (st, bytes, world) =>
          (st, bytes.length, some (resp.storeAll 0 bytes), world) := by
  unfold ipcTransactInto ipcTransact
  dsimp only
  split
  · rfl
  · split
    · rfl
    · generalize
        port.awaitResponse _ timeoutMs polls _ = waited
      rcases waited with _ | ⟨_ | _, after⟩
      · rfl
      · rfl
      · dsimp only
        split
        · rfl
        · rw [port.loadInto_eq]
          simp only [Option.map_some, port.length_loadBytes]

/-!
## The calls of a transaction
-/

namespace IpcPort

variable {World : Type} (port : IpcPort World)

/-- The request is written and announced, and the wait begins. -/
def waitStart (req : List UInt8) (world : World) : UInt32 × World :=
  port.nowMs
    (port.notify req.length
      (port.storeBytes 0 req (port.semaTryAcquire world).2))

/-- The answer is measured, and copied where it fits. -/
def collect (respCap : Nat) (world : World) : IpcStatus × List UInt8 × World :=
  let n := (port.responseLen world).1
  let world := (port.responseLen world).2
  if respCap < n ∨ port.mailboxCap < n then
    (.malformed, [], port.semaRelease world)
  else
    (.ok, (port.loadBytes 0 n world).1,
      port.semaRelease (port.loadBytes 0 n world).2)

/-- A transaction that holds the lock waits, and then collects its answer. -/
theorem ipcTransact_of_acquired
    {req : List UInt8}
    {world : World}
    (fits : req.length ≤ port.mailboxCap)
    (acquired : (port.semaTryAcquire world).1 = true)
    (respCap : Nat)
    (timeoutMs : UInt32)
    (polls : Nat) :
    ipcTransact port req respCap timeoutMs polls world =
      (port.awaitResponse (port.waitStart req world).1 timeoutMs polls
        (port.waitStart req world).2).map
          fun (answered, world) =>
            if answered = true then
              port.collect respCap world
            else
              (.timeout, [], port.semaRelease world) := by
  rw [ipcTransact, if_neg (Nat.not_lt.mpr fits)]
  change
    (if (port.semaTryAcquire world).1 = false then _ else
      match port.awaitResponse (port.waitStart req world).1 timeoutMs polls
        (port.waitStart req world).2 with
      | none => none
      | some (false, world) => _
      | some (true, world) => _) = _
  rw [acquired, if_neg Bool.noConfusion]
  cases port.awaitResponse (port.waitStart req world).1 timeoutMs polls
      (port.waitStart req world).2 with
  | none =>
      rfl
  | some result =>
      rcases result with ⟨answered, after⟩
      cases answered with
      | false =>
          rfl
      | true =>
          rw [Option.map_some]
          change _ = some (port.collect respCap after)
          rw [collect]
          dsimp only
          split <;> rfl

/-- Writing the request is one store a byte. -/
theorem recorded_storeBytes
    (i : Nat)
    (bytes : List UInt8)
    (world : World)
    (calls : List IpcPortCall) :
    port.recorded.storeBytes i bytes (world, calls) =
      (port.storeBytes i bytes world,
        calls ++ (List.range' i bytes.length).map .store) := by
  induction bytes generalizing i world calls with
  | nil =>
      simp [storeBytes]
  | cons byte rest inductionHypothesis =>
      refine (inductionHypothesis (i + 1) _ _).trans ?_
      rw [List.length_cons, List.range'_succ, List.map_cons,
        List.append_assoc, List.singleton_append]
      rfl

/-- Copying the answer is one load a byte. -/
theorem recorded_loadBytes
    (i n : Nat)
    (world : World)
    (calls : List IpcPortCall) :
    port.recorded.loadBytes i n (world, calls) =
      ((port.loadBytes i n world).1, (port.loadBytes i n world).2,
        calls ++ (List.range' i n).map .load) := by
  induction n generalizing i world calls with
  | zero =>
      simp [loadBytes]
  | succ n inductionHypothesis =>
      have rest :=
        inductionHypothesis (i + 1) (port.loadByte i world).2
          (calls ++ [.load i])
      have unfolded :
          port.recorded.loadBytes i (n + 1) (world, calls) =
            let rest :=
              port.recorded.loadBytes (i + 1) n
                ((port.loadByte i world).2, calls ++ [.load i])
            ((port.loadByte i world).1 :: rest.1, rest.2) :=
        rfl
      rw [unfolded, rest, List.range'_succ, List.map_cons,
        List.append_assoc, List.singleton_append]
      rfl

end IpcPort

/-- A call that the wait makes. -/
def IpcPortCall.Polls : IpcPortCall → Prop
  | .ready _ | .now _ => True
  | _ => False

namespace IpcPort

variable {World : Type} (port : IpcPort World)

/-- One look at the status, and at the clock. -/
def poll (world : World) : UInt32 × World :=
  port.nowMs (port.responseReady world).2

/-- One round of the wait. -/
theorem awaitResponse_succ
    (startMs timeoutMs : UInt32)
    (polls : Nat)
    (world : World) :
    port.awaitResponse startMs timeoutMs (polls + 1) world =
      if (port.responseReady world).1 = true then
        some (true, (port.responseReady world).2)
      else if timeoutMs ≤ (port.poll world).1 - startMs then
        some (false, (port.poll world).2)
      else
        port.awaitResponse startMs timeoutMs polls (port.poll world).2 :=
  rfl

/-- A wait that has ended has ended in the same way if it may go on longer. -/
theorem awaitResponse_mono
    {startMs timeoutMs : UInt32}
    {polls more : Nat}
    {world : World}
    {result : Bool × World}
    (waited : port.awaitResponse startMs timeoutMs polls world = some result)
    (longer : polls ≤ more) :
    port.awaitResponse startMs timeoutMs more world = some result := by
  induction polls generalizing more world with
  | zero =>
      cases waited
  | succ polls inductionHypothesis =>
      cases more with
      | zero =>
          exact absurd longer (Nat.not_succ_le_zero polls)
      | succ more =>
          rw [awaitResponse_succ] at waited ⊢
          split at waited
          · next ready =>
              rw [if_pos ready]
              exact waited
          · next notReady =>
              rw [if_neg notReady]
              split at waited
              · next late =>
                  rw [if_pos late]
                  exact waited
              · next early =>
                  rw [if_neg early]
                  exact
                    inductionHypothesis waited (Nat.le_of_succ_le_succ longer)

/-- Waiting polls and reads the clock, and calls for nothing else. -/
theorem recorded_awaitResponse
    (startMs timeoutMs : UInt32)
    (polls : Nat)
    (world : World)
    (calls : List IpcPortCall) :
    match port.awaitResponse startMs timeoutMs polls world with
    | none =>
        port.recorded.awaitResponse startMs timeoutMs polls (world, calls) =
          none
    | some (answered, after) =>
        ∃ polling : List IpcPortCall,
          (∀ call ∈ polling, call.Polls) ∧
            port.recorded.awaitResponse startMs timeoutMs polls
                (world, calls) =
              some (answered, after, calls ++ polling) := by
  induction polls generalizing world calls with
  | zero =>
      rfl
  | succ polls inductionHypothesis =>
      let looked := calls ++ [.ready (port.responseReady world).1]
      let sampled := looked ++ [.now (port.poll world).1]
      have recordedReady :
          port.recorded.responseReady (world, calls) =
            ((port.responseReady world).1, (port.responseReady world).2,
              looked) :=
        rfl
      have recordedPoll :
          port.recorded.poll (world, calls) =
            ((port.poll world).1, (port.poll world).2, sampled) :=
        rfl
      rw [awaitResponse_succ, awaitResponse_succ, recordedReady, recordedPoll]
      by_cases ready : (port.responseReady world).1 = true
      · rw [if_pos ready, if_pos ready]
        exact
          ⟨[.ready (port.responseReady world).1],
            List.forall_mem_singleton.mpr trivial, rfl⟩
      · rw [if_neg ready, if_neg ready]
        have both :
            ∀ call ∈ [IpcPortCall.ready (port.responseReady world).1,
              .now (port.poll world).1], call.Polls :=
          List.forall_mem_cons.mpr
            ⟨trivial, List.forall_mem_singleton.mpr trivial⟩
        by_cases late : timeoutMs ≤ (port.poll world).1 - startMs
        · rw [if_pos late, if_pos late]
          refine ⟨_, both, ?_⟩
          rw [← List.singleton_append, ← List.append_assoc]
        · rw [if_neg late, if_neg late]
          have later := inductionHypothesis (port.poll world).2 sampled
          revert later
          cases port.awaitResponse startMs timeoutMs polls
              (port.poll world).2 with
          | none =>
              exact id
          | some result =>
              rintro ⟨polling, polled, waited⟩
              refine
                ⟨[.ready (port.responseReady world).1,
                    .now (port.poll world).1] ++ polling, ?_, ?_⟩
              · intro call member
                rcases List.mem_append.mp member with first | last
                · exact both call first
                · exact polled call last
              · rw [waited, ← List.append_assoc]
                simp only [sampled, looked, List.append_assoc,
                  List.singleton_append]

end IpcPort

/-- The calls up to the wait: the request is written, and the time is taken. -/
def openingCalls (reqLen : Nat) (startMs : UInt32) : List IpcPortCall :=
  .acquire true :: (List.range' 0 reqLen).map .store ++
    [.notify reqLen, .now startMs]

/-- The calls up to the wait, as the recording port has them. -/
theorem IpcPort.recorded_waitStart
    {World : Type}
    (port : IpcPort World)
    {req : List UInt8}
    {world : World}
    (acquired : (port.semaTryAcquire world).1 = true) :
    port.recorded.waitStart req (world, []) =
      ((port.waitStart req world).1, (port.waitStart req world).2,
        openingCalls req.length (port.waitStart req world).1) := by
  have recordedAcquire :
      (port.recorded.semaTryAcquire (world, [])).2 =
        ((port.semaTryAcquire world).2, [.acquire true]) := by
    change (_, [IpcPortCall.acquire (port.semaTryAcquire world).1]) = _
    rw [acquired]
  rw [waitStart, recordedAcquire, port.recorded_storeBytes]
  change
    ((port.waitStart req world).1, (port.waitStart req world).2,
      _ ++ [_] ++ [IpcPortCall.now (port.waitStart req world).1]) = _
  rw [List.append_assoc]
  rfl

/--
The ends of a transaction: its status, how many bytes are copied, and the calls
that the port has got.
-/
inductive IpcEnding (reqLen respCap mailboxCap : Nat) :
    IpcStatus → Nat → List IpcPortCall → Prop
  | tooLong (long : mailboxCap < reqLen) :
      IpcEnding reqLen respCap mailboxCap .malformed 0 []
  | busy :
      IpcEnding reqLen respCap mailboxCap .busy 0 [.acquire false]
  | timeout
      (startMs : UInt32)
      (polling : List IpcPortCall)
      (fits : reqLen ≤ mailboxCap)
      (polled : ∀ call ∈ polling, call.Polls) :
      IpcEnding reqLen respCap mailboxCap .timeout 0
        (openingCalls reqLen startMs ++ polling ++ [.release])
  | overlong
      (startMs : UInt32)
      (polling : List IpcPortCall)
      (n : Nat)
      (fits : reqLen ≤ mailboxCap)
      (polled : ∀ call ∈ polling, call.Polls)
      (long : respCap < n ∨ mailboxCap < n) :
      IpcEnding reqLen respCap mailboxCap .malformed 0
        (openingCalls reqLen startMs ++ polling ++ [.responseLen n, .release])
  | ok
      (startMs : UInt32)
      (polling : List IpcPortCall)
      (n : Nat)
      (fits : reqLen ≤ mailboxCap)
      (polled : ∀ call ∈ polling, call.Polls)
      (room : n ≤ respCap)
      (inMailbox : n ≤ mailboxCap) :
      IpcEnding reqLen respCap mailboxCap .ok n
        (openingCalls reqLen startMs ++ polling ++
          .responseLen n :: (List.range' 0 n).map .load ++ [.release])

/-- Collecting the answer ends a transaction in one of two ways. -/
theorem IpcPort.recorded_collect
    {World : Type}
    (port : IpcPort World)
    {reqLen : Nat}
    {startMs : UInt32}
    {polling : List IpcPortCall}
    (respCap : Nat)
    (world : World)
    (fits : reqLen ≤ port.mailboxCap)
    (polled : ∀ call ∈ polling, call.Polls) :
    ∃ calls,
      IpcEnding reqLen respCap port.mailboxCap (port.collect respCap world).1
          (port.collect respCap world).2.1.length calls ∧
        port.recorded.collect respCap
            (world, openingCalls reqLen startMs ++ polling) =
          ((port.collect respCap world).1, (port.collect respCap world).2.1,
            (port.collect respCap world).2.2, calls) := by
  let before := openingCalls reqLen startMs ++ polling
  let n := (port.responseLen world).1
  by_cases overlong : respCap < n ∨ port.mailboxCap < n
  · have plain :
        port.collect respCap world =
          (.malformed, [], port.semaRelease (port.responseLen world).2) :=
      if_pos overlong
    have traced :
        port.recorded.collect respCap (world, before) =
          (.malformed, [], port.semaRelease (port.responseLen world).2,
            before ++ [.responseLen n] ++ [.release]) :=
      if_pos overlong
    rw [plain, traced, List.append_assoc before]
    exact ⟨_, .overlong startMs polling n fits polled overlong, rfl⟩
  · obtain ⟨room, inMailbox⟩ := not_or.mp overlong
    have plain :
        port.collect respCap world =
          (.ok, (port.loadBytes 0 n (port.responseLen world).2).1,
            port.semaRelease
              (port.loadBytes 0 n (port.responseLen world).2).2) :=
      if_neg overlong
    have traced :
        port.recorded.collect respCap (world, before) =
          (.ok,
            (port.recorded.loadBytes 0 n
              ((port.responseLen world).2, before ++ [.responseLen n])).1,
            port.recorded.semaRelease
              (port.recorded.loadBytes 0 n
                ((port.responseLen world).2, before ++ [.responseLen n])).2) :=
      if_neg overlong
    rw [plain, traced, port.recorded_loadBytes]
    dsimp only
    rw [port.length_loadBytes]
    refine
      ⟨_, .ok startMs polling n fits polled (Nat.not_lt.mp room)
        (Nat.not_lt.mp inMailbox), ?_⟩
    change (_, _, _, before ++ [_] ++ _ ++ [IpcPortCall.release]) = _
    rw [List.append_assoc before, List.singleton_append]

/-- A transaction over the recording port is one over the port itself. -/
theorem ipcTransact_recorded
    {World : Type}
    (port : IpcPort World)
    (req : List UInt8)
    (respCap : Nat)
    (timeoutMs : UInt32)
    (polls : Nat)
    (world : World) :
    match ipcTransact port req respCap timeoutMs polls world with
    | none =>
        ipcTransact port.recorded req respCap timeoutMs polls (world, []) =
          none
    | some (st, bytes, after) =>
        ∃ calls,
          IpcEnding req.length respCap port.mailboxCap st bytes.length calls ∧
            ipcTransact port.recorded req respCap timeoutMs polls
                (world, []) =
              some (st, bytes, after, calls) := by
  by_cases long : port.mailboxCap < req.length
  · rw [ipcTransact, if_pos long, ipcTransact]
    exact ⟨[], .tooLong long, if_pos long⟩
  · have fits := Nat.not_lt.mp long
    cases acquired : (port.semaTryAcquire world).1 with
    | false =>
        have busy :
            ipcTransact port req respCap timeoutMs polls world =
              some (.busy, [], (port.semaTryAcquire world).2) := by
          rw [ipcTransact, if_neg long]
          exact if_pos acquired
        rw [busy]
        refine ⟨_, .busy, ?_⟩
        rw [ipcTransact]
        refine (if_neg long).trans ((if_pos acquired).trans ?_)
        change some (_, _, _, [IpcPortCall.acquire _]) = _
        rw [acquired]
    | true =>
        have recordedAcquired :
            (port.recorded.semaTryAcquire (world, [])).1 = true :=
          acquired
        rw [port.ipcTransact_of_acquired fits acquired,
          port.recorded.ipcTransact_of_acquired fits recordedAcquired,
          port.recorded_waitStart acquired]
        have waited :=
          port.recorded_awaitResponse (port.waitStart req world).1 timeoutMs
            polls (port.waitStart req world).2
            (openingCalls req.length (port.waitStart req world).1)
        revert waited
        cases port.awaitResponse (port.waitStart req world).1 timeoutMs polls
            (port.waitStart req world).2 with
        | none =>
            intro waited
            exact congrArg (Option.map _) waited
        | some result =>
            rcases result with ⟨answered, after⟩
            rintro ⟨polling, polled, waited⟩
            dsimp only at waited ⊢
            rw [waited]
            cases answered with
            | false =>
                exact ⟨_, .timeout _ polling fits polled, rfl⟩
            | true =>
                obtain ⟨calls, ending, collected⟩ :=
                  port.recorded_collect respCap after fits polled
                exact ⟨calls, ending, congrArg some collected⟩

/-!
## The clock
-/

namespace IpcPort

variable {World : Type} (port : IpcPort World)

/-- The samples a wait takes of the clock, in its next `polls` rounds. -/
def ClockAdvancesFor (startMs timeoutMs : UInt32) :
    Nat → UInt32 → World → Prop
  | 0, _, _ => True
  | polls + 1, lastMs, world =>
      (port.responseReady world).1 = false →
        1 ≤ ((port.poll world).1 - lastMs).toNat ∧
          ((port.poll world).1 - lastMs).toNat ≤ 2 ^ 31 ∧
            ((port.poll world).1 - startMs < timeoutMs →
              ClockAdvancesFor startMs timeoutMs polls (port.poll world).1
                (port.poll world).2)

/-- As long as a wait lasts, each sample it takes is later than the last. -/
def ClockAdvances
    (startMs timeoutMs lastMs : UInt32)
    (world : World) : Prop :=
  ∀ polls, port.ClockAdvancesFor startMs timeoutMs polls lastMs world

variable {port}

/-- What a round that finds nothing leaves. -/
theorem ClockAdvances.next
    {startMs timeoutMs lastMs : UInt32}
    {world : World}
    (advances : port.ClockAdvances startMs timeoutMs lastMs world)
    (notReady : (port.responseReady world).1 = false) :
    1 ≤ ((port.poll world).1 - lastMs).toNat ∧
      ((port.poll world).1 - lastMs).toNat ≤ 2 ^ 31 ∧
        ((port.poll world).1 - startMs < timeoutMs →
          port.ClockAdvances startMs timeoutMs (port.poll world).1
            (port.poll world).2) :=
  ⟨(advances 1 notReady).1, (advances 1 notReady).2.1,
    fun early polls => (advances (polls + 1) notReady).2.2 early⟩

/-- A step that does not pass the end of the range adds to the elapsed time. -/
theorem elapsed_next
    {startMs lastMs now : UInt32}
    (early : (lastMs - startMs).toNat < 2 ^ 31)
    (step : (now - lastMs).toNat ≤ 2 ^ 31) :
    (now - startMs).toNat =
      (lastMs - startMs).toNat + (now - lastMs).toNat := by
  have split : now - startMs = (lastMs - startMs) + (now - lastMs) := by
    grind
  rw [split, UInt32.toNat_add]
  omega

/--
The wait ends: while it lasts, what remains of the timeout becomes less with
every poll.
-/
theorem awaitResponse_ends
    {startMs timeoutMs : UInt32}
    (halfRange : timeoutMs.toNat ≤ 2 ^ 31)
    (remaining : Nat) :
    ∀ {lastMs : UInt32} {world : World},
      port.ClockAdvances startMs timeoutMs lastMs world →
        (lastMs - startMs).toNat < timeoutMs.toNat ∨ lastMs = startMs →
          timeoutMs.toNat - (lastMs - startMs).toNat < remaining →
            ∃ polls result,
              port.awaitResponse startMs timeoutMs polls world =
                some result := by
  induction remaining with
  | zero =>
      intro lastMs world _ _ impossible
      exact absurd impossible (Nat.not_lt_zero _)
  | succ remaining inductionHypothesis =>
      intro lastMs world advances early left
      cases ready : (port.responseReady world).1 with
      | true =>
          refine ⟨1, (true, (port.responseReady world).2), ?_⟩
          rw [awaitResponse_succ, if_pos ready]
      | false =>
          obtain ⟨later, step, advancesOn⟩ := advances.next ready
          by_cases late : timeoutMs ≤ (port.poll world).1 - startMs
          · refine ⟨1, (false, (port.poll world).2), ?_⟩
            rw [awaitResponse_succ, ready, if_neg Bool.noConfusion,
              if_pos late]
          · have onTime := UInt32.not_le.mp late
            have inTime :
                ((port.poll world).1 - startMs).toNat < timeoutMs.toNat :=
              UInt32.lt_iff_toNat_lt.mp onTime
            have before : (lastMs - startMs).toNat < 2 ^ 31 := by
              rcases early with early | start
              · omega
              · rw [start, UInt32.sub_self]
                decide
            have elapsed := elapsed_next before step
            obtain ⟨polls, result, waited⟩ :=
              inductionHypothesis (advancesOn onTime) (Or.inl inTime)
                (by omega)
            refine ⟨polls + 1, result, ?_⟩
            rw [awaitResponse_succ, ready, if_neg Bool.noConfusion,
              if_neg late]
            exact waited

end IpcPort

/-- A transaction that has ended stays as it is if it may poll longer. -/
theorem ipcTransact_mono
    {World : Type}
    {port : IpcPort World}
    {req : List UInt8}
    {respCap : Nat}
    {timeoutMs : UInt32}
    {polls more : Nat}
    {world : World}
    {result : IpcStatus × List UInt8 × World}
    (ended :
      ipcTransact port req respCap timeoutMs polls world = some result)
    (longer : polls ≤ more) :
    ipcTransact port req respCap timeoutMs more world = some result := by
  by_cases long : port.mailboxCap < req.length
  · rw [ipcTransact, if_pos long] at ended ⊢
    exact ended
  · cases acquired : (port.semaTryAcquire world).1 with
    | false =>
        rw [ipcTransact, if_neg long] at ended ⊢
        have busy := (if_pos acquired).symm.trans ended
        exact (if_pos acquired).trans busy
    | true =>
        have fits := Nat.not_lt.mp long
        rw [port.ipcTransact_of_acquired fits acquired] at ended ⊢
        obtain ⟨waited, awaited, collected⟩ := Option.map_eq_some_iff.mp ended
        rw [port.awaitResponse_mono awaited longer, Option.map_some, collected]

/-!
## What is taken and given back
-/

/-- The mailbox byte that a call stores. -/
def IpcPortCall.storedAt : IpcPortCall → Option Nat
  | .store i => some i
  | _ => none

/-- A call that neither takes the lock nor gives it back. -/
def IpcPortCall.KeepsLock : IpcPortCall → Prop
  | .acquire _ | .release => False
  | _ => True

/-- The lock is not asked for, or not had, or had and given back at the end. -/
def LockBalanced (calls : List IpcPortCall) : Prop :=
  calls = [] ∨ calls = [.acquire false] ∨
    ∃ held : List IpcPortCall,
      calls = .acquire true :: held ++ [.release] ∧
        ∀ call ∈ held, call.KeepsLock

/-- Calls that keep the lock give nothing back and take nothing. -/
theorem count_of_keepsLock
    {held : List IpcPortCall}
    (keep : ∀ call ∈ held, call.KeepsLock) :
    held.count .release = 0 ∧ .acquire true ∉ held := by
  constructor
  · rw [List.count_eq_zero]
    exact fun released => keep _ released
  · exact fun acquired => keep _ acquired

/-- The lock is given back once if it was had, and never otherwise. -/
theorem LockBalanced.count_release
    {calls : List IpcPortCall}
    (balanced : LockBalanced calls) :
    calls.count .release = if .acquire true ∈ calls then 1 else 0 := by
  rcases balanced with rfl | rfl | ⟨held, rfl, keep⟩
  · rfl
  · rfl
  · obtain ⟨noRelease, -⟩ := count_of_keepsLock keep
    rw [if_pos (by simp), List.cons_append, List.count_cons_of_ne (by simp),
      List.count_append, noRelease]
    rfl

/-- The calls that open a transaction, behind the one for the lock. -/
theorem openingCalls_keepLock (reqLen : Nat) (startMs : UInt32) :
    ∃ writing : List IpcPortCall,
      openingCalls reqLen startMs = .acquire true :: writing ∧
        (∀ call ∈ writing, call.KeepsLock) ∧
          writing.filterMap IpcPortCall.storedAt = List.range reqLen := by
  refine ⟨(List.range' 0 reqLen).map .store ++ [.notify reqLen, .now startMs],
    rfl, ?_, ?_⟩
  · intro call member
    rcases List.mem_append.mp member with stored | last
    · obtain ⟨i, -, rfl⟩ := List.mem_map.mp stored
      trivial
    · simp only [List.mem_cons, List.not_mem_nil, or_false] at last
      rcases last with rfl | rfl <;> trivial
  · have stored :
        IpcPortCall.storedAt ∘ IpcPortCall.store = some :=
      rfl
    rw [List.filterMap_append, List.filterMap_map, stored, List.filterMap_some,
      List.range_eq_range']
    simp [IpcPortCall.storedAt]

/-- A call of the wait keeps the lock, and stores nothing. -/
theorem polling_keepsLock
    {polling : List IpcPortCall}
    (polled : ∀ call ∈ polling, call.Polls) :
    (∀ call ∈ polling, call.KeepsLock) ∧
      polling.filterMap IpcPortCall.storedAt = [] := by
  constructor
  · intro call member
    have polls := polled call member
    cases call <;> first | exact polls | trivial
  · rw [List.filterMap_eq_nil_iff]
    intro call member
    have polls := polled call member
    cases call <;> first | rfl | exact absurd polls id

/-- A transaction that had the lock, whatever it did behind the wait. -/
theorem opened_resources
    {reqLen : Nat}
    {startMs : UInt32}
    {polling closing : List IpcPortCall}
    (polled : ∀ call ∈ polling, call.Polls)
    (keep : ∀ call ∈ closing, call.KeepsLock)
    (noStores : closing.filterMap IpcPortCall.storedAt = []) :
    LockBalanced
        (openingCalls reqLen startMs ++ polling ++ (closing ++ [.release])) ∧
      (openingCalls reqLen startMs ++ polling ++
          (closing ++ [IpcPortCall.release])).filterMap IpcPortCall.storedAt =
        List.range reqLen := by
  obtain ⟨writing, opening, writingKeeps, stores⟩ :=
    openingCalls_keepLock reqLen startMs
  obtain ⟨pollingKeeps, pollingStores⟩ := polling_keepsLock polled
  rw [opening]
  constructor
  · refine Or.inr (Or.inr ⟨writing ++ polling ++ closing, ?_, ?_⟩)
    · simp only [List.cons_append, List.append_assoc]
    · intro call member
      rcases List.mem_append.mp member with before | closes
      · rcases List.mem_append.mp before with writes | polls
        · exact writingKeeps call writes
        · exact pollingKeeps call polls
      · exact keep call closes
  · rw [List.filterMap_append, List.filterMap_append, List.filterMap_append,
      List.filterMap_cons, stores, pollingStores, noStores]
    simp [IpcPortCall.storedAt]

/-- What holds however a transaction ends. -/
theorem IpcEnding.resources
    {reqLen respCap mailboxCap n : Nat}
    {st : IpcStatus}
    {calls : List IpcPortCall}
    (ending : IpcEnding reqLen respCap mailboxCap st n calls) :
    LockBalanced calls ∧
      (∃ stored ≤ mailboxCap,
        calls.filterMap IpcPortCall.storedAt = List.range stored) ∧
      n ≤ respCap ∧ (st ≠ .ok → n = 0) := by
  cases ending with
  | tooLong long =>
      exact ⟨Or.inl rfl, ⟨0, Nat.zero_le _, rfl⟩, Nat.zero_le _, fun _ => rfl⟩
  | busy =>
      exact
        ⟨Or.inr (Or.inl rfl), ⟨0, Nat.zero_le _, rfl⟩, Nat.zero_le _,
          fun _ => rfl⟩
  | timeout startMs polling fits polled =>
      obtain ⟨balanced, stores⟩ :=
        @opened_resources reqLen startMs polling [] polled
          (fun _ member => absurd member List.not_mem_nil) rfl
      exact
        ⟨balanced, ⟨reqLen, fits, stores⟩, Nat.zero_le _, fun _ => rfl⟩
  | overlong startMs polling n fits polled long =>
      obtain ⟨balanced, stores⟩ :=
        @opened_resources reqLen startMs polling [.responseLen n] polled
          (List.forall_mem_singleton.mpr trivial) rfl
      exact
        ⟨balanced, ⟨reqLen, fits, stores⟩, Nat.zero_le _, fun _ => rfl⟩
  | ok startMs polling n fits polled room inMailbox =>
      have loads :
          ∀ call ∈ IpcPortCall.responseLen n :: (List.range' 0 n).map .load,
            call.KeepsLock ∧ call.storedAt = none := by
        intro call member
        rcases List.mem_cons.mp member with rfl | loaded
        · exact ⟨trivial, rfl⟩
        · obtain ⟨i, -, rfl⟩ := List.mem_map.mp loaded
          exact ⟨trivial, rfl⟩
      obtain ⟨balanced, stores⟩ :=
        @opened_resources reqLen startMs polling
          (.responseLen n :: (List.range' 0 n).map .load) polled
          (fun call member => (loads call member).1)
          (List.filterMap_eq_nil_iff.mpr
            fun call member => (loads call member).2)
      rw [← List.append_assoc] at balanced stores
      exact
        ⟨balanced, ⟨reqLen, fits, stores⟩, room, fun other => absurd rfl other⟩

/--
While the wait of this transaction lasts, if it comes to that, the clock of the
port advances from sample to sample.
-/
def WaitingClockAdvances
    {World : Type}
    (port : Option (IpcPort World))
    (req : Option (List UInt8))
    (timeoutMs : UInt32)
    (world : World) : Prop :=
  ∀ bound bytes,
    port = some bound →
      req = some bytes →
        bytes.length ≤ bound.mailboxCap →
          (bound.semaTryAcquire world).1 = true →
            bound.ClockAdvances (bound.waitStart bytes world).1 timeoutMs
              (bound.waitStart bytes world).1 (bound.waitStart bytes world).2

/-- A transaction ends. -/
theorem ipcTransact_ends
    {World : Type}
    {port : IpcPort World}
    {req : List UInt8}
    {timeoutMs : UInt32}
    {world : World}
    (respCap : Nat)
    (halfRange : timeoutMs.toNat ≤ 2 ^ 31)
    (advances :
      WaitingClockAdvances (some port) (some req) timeoutMs world) :
    ∃ polls result,
      ipcTransact port req respCap timeoutMs polls world = some result := by
  by_cases long : port.mailboxCap < req.length
  · refine ⟨0, (.malformed, [], world), ?_⟩
    rw [ipcTransact, if_pos long]
  · cases acquired : (port.semaTryAcquire world).1 with
    | false =>
        refine ⟨0, (.busy, [], (port.semaTryAcquire world).2), ?_⟩
        rw [ipcTransact, if_neg long]
        exact if_pos acquired
    | true =>
        obtain ⟨polls, result, waited⟩ :=
          IpcPort.awaitResponse_ends halfRange
            (timeoutMs.toNat -
              ((port.waitStart req world).1 -
                (port.waitStart req world).1).toNat + 1)
            (advances port req rfl rfl (Nat.not_lt.mp long) acquired)
            (Or.inr rfl)
            (Nat.lt_succ_self _)
        have ended :=
          port.ipcTransact_of_acquired (Nat.not_lt.mp long) acquired respCap
            timeoutMs polls
        rw [waited, Option.map_some] at ended
        exact ⟨polls, _, ended⟩

/--
What a transaction owes its caller and its port.

The lock is released exactly once if it was acquired, and otherwise not.  No
more bytes are stored to the mailbox than it has, and each at most once; no more
cells of `resp` change than it has.  A status other than `IPC_OK` comes with the
length 0 and with `resp` as it was.
-/
structure IpcResources
    {World : Type}
    {respCap : Nat}
    (port : Option (IpcPort World))
    (resp : Option (FixedBuffer UInt8 respCap))
    (st : IpcStatus)
    (respLen : Nat)
    (after : Option (FixedBuffer UInt8 respCap))
    (calls : List IpcPortCall) : Prop where
  balanced : LockBalanced calls
  released :
    calls.count .release = if .acquire true ∈ calls then 1 else 0
  stores :
    ∀ bound,
      port = some bound →
        ∃ stored ≤ bound.mailboxCap,
          calls.filterMap IpcPortCall.storedAt = List.range stored
  copies : respLen ≤ respCap
  behind :
    ∀ before,
      resp = some before →
        ∃ final : FixedBuffer UInt8 respCap,
          after = some final ∧
            final.cells.drop respLen = before.cells.drop respLen
  failed : st ≠ .ok → respLen = 0 ∧ after = resp

/-- A transaction that is refused for a NULL pointer owes nothing. -/
theorem IpcResources.refused
    {World : Type}
    {respCap : Nat}
    (port : Option (IpcPort World))
    (resp : Option (FixedBuffer UInt8 respCap)) :
    IpcResources port resp .malformed 0 resp [] where
  balanced := Or.inl rfl
  released := rfl
  stores := fun _ _ => ⟨0, Nat.zero_le _, rfl⟩
  copies := Nat.zero_le _
  behind := fun before here => ⟨before, here, rfl⟩
  failed := fun _ => ⟨rfl, rfl⟩

/-- Any other transaction, from the way it ends. -/
theorem IpcEnding.ipcResources
    {World : Type}
    {respCap reqLen : Nat}
    {port : IpcPort World}
    {st : IpcStatus}
    {bytes : List UInt8}
    {calls : List IpcPortCall}
    (ending :
      IpcEnding reqLen respCap port.mailboxCap st bytes.length calls)
    (resp : FixedBuffer UInt8 respCap) :
    IpcResources (some port) (some resp) st bytes.length
      (some (resp.storeAll 0 bytes)) calls := by
  obtain ⟨balanced, stores, room, failed⟩ := ending.resources
  refine ⟨balanced, balanced.count_release, ?_, room, ?_, ?_⟩
  · intro bound same
    cases same
    exact stores
  · intro before same
    cases same
    refine ⟨_, rfl, ?_⟩
    rw [FixedBuffer.storeAll_cells _ _ _ (by omega), List.take_zero,
      List.nil_append, Nat.zero_add, List.drop_left]
  · intro other
    have none := failed other
    cases List.length_eq_zero_iff.mp none
    exact ⟨rfl, rfl⟩

/--
A transaction over any port ends, whatever it is asked for, and owes nothing
then; so it is over the port itself as over the one that records the calls.
-/
theorem ipc_transaction_resources
    {World : Type}
    {respCap : Nat}
    (port : Option (IpcPort World))
    (req : Option (List UInt8))
    (resp : Option (FixedBuffer UInt8 respCap))
    (timeoutMs : UInt32)
    (world : World)
    (halfRange : timeoutMs.toNat ≤ 2 ^ 31)
    (advances : WaitingClockAdvances port req timeoutMs world) :
    ∃ enough st respLen after left calls,
      (∀ polls, enough ≤ polls →
        ipcTransactInto port req resp timeoutMs polls world =
            some (st, respLen, after, left) ∧
          ipcTransactInto (port.map IpcPort.recorded) req resp timeoutMs
              polls (world, []) =
            some (st, respLen, after, left, calls)) ∧
        IpcResources port resp st respLen after calls := by
  cases port with
  | none =>
      exact ⟨0, _, _, _, _, _, fun _ _ => ⟨rfl, rfl⟩, .refused none resp⟩
  | some port =>
      cases req with
      | none =>
          exact
            ⟨0, _, _, _, _, _, fun _ _ => ⟨rfl, rfl⟩,
              .refused (some port) resp⟩
      | some req =>
          cases resp with
          | none =>
              exact
                ⟨0, _, _, _, _, _, fun _ _ => ⟨rfl, rfl⟩,
                  .refused (some port) none⟩
          | some resp =>
              obtain ⟨enough, ⟨st, bytes, left⟩, ended⟩ :=
                ipcTransact_ends respCap halfRange advances
              have traced :=
                ipcTransact_recorded port req respCap timeoutMs enough world
              rw [ended] at traced
              obtain ⟨calls, ending, recorded⟩ := traced
              refine
                ⟨enough, st, bytes.length, some (resp.storeAll 0 bytes), left,
                  calls, fun polls allowed => ⟨?_, ?_⟩,
                  ending.ipcResources resp⟩
              · rw [ipcTransactInto_eq, ipcTransact_mono ended allowed]
                rfl
              · change
                  ipcTransactInto (some port.recorded) (some req) (some resp)
                    timeoutMs polls (world, []) = _
                rw [ipcTransactInto_eq, ipcTransact_mono recorded allowed]
                rfl

/-- A port whose server never answers, and whose clock ticks when it is read. -/
def silentPort : IpcPort UInt32 where
  semaTryAcquire := fun clock => (true, clock)
  semaRelease := id
  storeByte := fun _ _ => id
  loadByte := fun _ clock => (0, clock)
  mailboxCap := 128
  notify := fun _ => id
  responseReady := fun clock => (false, clock)
  responseLen := fun clock => (0, clock)
  nowMs := fun clock => (clock, clock + 1)

/-- Its samples are one apart. -/
theorem silentPort_advances
    (startMs timeoutMs lastMs : UInt32) :
    silentPort.ClockAdvances startMs timeoutMs lastMs (lastMs + 1) := by
  intro polls
  induction polls generalizing lastMs with
  | zero =>
      trivial
  | succ polls inductionHypothesis =>
      intro _
      have one : lastMs + 1 - lastMs = 1 := by grind
      have step : ((silentPort.poll (lastMs + 1)).1 - lastMs).toNat = 1 :=
        congrArg UInt32.toNat one
      exact
        ⟨Nat.le_of_eq step.symm,
          Nat.le_trans (Nat.le_of_eq step) (by decide),
          fun _ => inductionHypothesis (lastMs + 1)⟩

/-- A transaction over it ends, shortly before its clock wraps around. -/
theorem silent_transaction_resources :
    ∃ enough st respLen after left calls,
      (∀ polls, enough ≤ polls →
        ipcTransactInto (some silentPort) (some [1, 0, 0])
              (some (FixedBuffer.filled 4 0)) 10 polls 0xFFFFFFFA =
            some (st, respLen, after, left) ∧
          ipcTransactInto (some silentPort.recorded) (some [1, 0, 0])
              (some (FixedBuffer.filled 4 0)) 10 polls (0xFFFFFFFA, []) =
            some (st, respLen, after, left, calls)) ∧
        IpcResources (some silentPort) (some (FixedBuffer.filled 4 0)) st
          respLen after calls :=
  ipc_transaction_resources (some silentPort) (some [1, 0, 0])
    (some (FixedBuffer.filled 4 0)) 10 0xFFFFFFFA (by decide)
    (by
      rintro _ _ ⟨⟩ ⟨⟩ _ _
      exact silentPort_advances 0xFFFFFFFA 10 0xFFFFFFFA)

end TraveoBodyDomain
