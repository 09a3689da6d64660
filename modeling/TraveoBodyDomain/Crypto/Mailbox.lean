import Mathlib.Logic.Function.Basic
import TraveoBodyDomain.Lib.Machine
import TraveoBodyDomain.Crypto.Dispatch
import TraveoBodyDomain.Crypto.Ipc

/-!
# Two cores at one mailbox

`ipc_transact` over the mailbox of `port_crypto.c`, step by step, against the
server loop of `main_cm0p.c`.  The client holds the lock of the channel while
it is in a transaction; the server never takes it.  Every store and every load
is one step, and the two sides take their steps in any order.

The server may still be at work on a request whose client has given up.  The
mailbox has one status word and no transaction number, so what it stores then
lands in whatever transaction is open.  Below, the answers belong to their
requests in every run in which nothing that the server stores for an earlier
request falls into a later transaction.
-/

namespace TraveoBodyDomain

/-- `ipc_mbx_status_t`. -/
inductive IpcMbxStatus where
  | idle
  | request
  | response
  deriving Repr, DecidableEq

/-- `ipc_mailbox_shared_t`. -/
structure IpcMailbox where
  status : IpcMbxStatus
  len : Nat
  payload : Nat → UInt8

/--
A call of `ipc_transact` that holds the lock.

`since` counts the requests the server had taken when the lock was acquired; no
code reads it.
-/
structure IpcCall where
  req : List UInt8
  respCap : Nat
  since : Nat
  deriving Repr, DecidableEq

/-- Where the client stands in `ipc_transact`. -/
inductive IpcClient where
  /-- the lock is free -/
  | free
  /-- before `mb[i] = req[i]` -/
  | writing (call : IpcCall) (i : Nat)
  /-- before `len = req_len` in `port_notify` -/
  | sizing (call : IpcCall)
  /-- before `status = IPC_MBX_REQUEST` in `port_notify` -/
  | ringing (call : IpcCall)
  /-- before `response_ready()` -/
  | waiting (call : IpcCall)
  /-- before the comparison with `timeout_ms` -/
  | notReady (call : IpcCall)
  /-- before `response_len()` -/
  | measuring (call : IpcCall)
  /-- in the loop `resp[i] = mb[i]`, with `n` bytes to copy -/
  | copying (call : IpcCall) (n : Nat) (resp : List UInt8)
  /-- before `status = IPC_MBX_IDLE` in `port_sema_release` -/
  | clearing (call : IpcCall) (st : IpcStatus) (resp : List UInt8)
  /-- before the lock is released -/
  | unlocking (call : IpcCall) (st : IpcStatus) (resp : List UInt8)
  deriving Repr, DecidableEq

/--
Where the server stands in its loop; `k` is the number of the request it is
handling.
-/
inductive IpcServer where
  /-- in `cm0p_wait_for_request` -/
  | polling
  /-- before the second look, in `service_mailbox_once` -/
  | checking
  /-- before `len` is read -/
  | measuring (k : Nat)
  /-- reading the request, of `n` bytes -/
  | copying (k n : Nat) (req : List UInt8)
  /-- before the byte `i` of the response is written -/
  | writing (k : Nat) (resp : List UInt8) (i : Nat)
  /-- before `len = resp_len` -/
  | sizing (k : Nat) (resp : List UInt8)
  /-- before `status = IPC_MBX_RESPONSE` -/
  | answering (k : Nat) (resp : List UInt8)
  deriving Repr, DecidableEq

/-- Both cores and what they share. -/
structure IpcState where
  mailbox : IpcMailbox
  client : IpcClient
  server : IpcServer
  /-- how many requests the server has taken -/
  taken : Nat

/-- What may happen next. -/
inductive IpcAction where
  /-- some task calls `ipc_transact` -/
  | transact (req : List UInt8) (respCap : Nat)
  /-- the holder of the lock takes a step; whether its clock says time is up -/
  | client (late : Bool)
  /-- the server takes a step -/
  | server
  deriving Repr, DecidableEq

/-- How a call of `ipc_transact` ends. -/
inductive IpcEvent where
  /-- before the lock was acquired -/
  | refused (st : IpcStatus)
  /-- after; `taken` requests had been taken by the server -/
  | returned (call : IpcCall) (st : IpcStatus) (resp : List UInt8) (taken : Nat)
  deriving Repr, DecidableEq

/-- `mailbox_cap` of the port. -/
def ipcMailboxCap : Nat :=
  cryptoMaxPayload

/--
What the server answers to its request number `k`.

A handler's answer may depend on when it is asked.
-/
def serverAnswer
    (tables : Nat → List CryptoHandler)
    (k : Nat)
    (req : List UInt8) : List UInt8 :=
  (cryptoDispatch (tables k) req cryptoMaxPayload).getD []

/-- One byte of the payload is stored. -/
def IpcMailbox.storeByte (mailbox : IpcMailbox) (i : Nat) (byte : UInt8) :
    IpcMailbox :=
  { mailbox with payload := Function.update mailbox.payload i byte }

/-- The first checks of `ipc_transact`, and the attempt to take the lock. -/
def transactStep (s : IpcState) (req : List UInt8) (respCap : Nat) :
    IpcState × List IpcEvent :=
  if ipcMailboxCap < req.length then
    (s, [.refused .malformed])
  else
    match s.client with
    | .free => ({ s with client := .writing ⟨req, respCap, s.taken⟩ 0 }, [])
    | _ => (s, [.refused .busy])

/-- The next step of `ipc_transact`, once it holds the lock. -/
def clientStep (s : IpcState) (late : Bool) : IpcState × List IpcEvent :=
  match s.client with
  | .free => (s, [])
  | .writing call i =>
      if i < call.req.length then
        ({ s with
            mailbox := s.mailbox.storeByte i (call.req.getD i 0)
            client := .writing call (i + 1) },
          [])
      else
        ({ s with client := .sizing call }, [])
  | .sizing call =>
      ({ s with
          mailbox := { s.mailbox with len := call.req.length }
          client := .ringing call },
        [])
  | .ringing call =>
      ({ s with
          mailbox := { s.mailbox with status := .request }
          client := .waiting call },
        [])
  | .waiting call =>
      if s.mailbox.status = .response then
        ({ s with client := .measuring call }, [])
      else
        ({ s with client := .notReady call }, [])
  | .notReady call =>
      if late then
        ({ s with client := .clearing call .timeout [] }, [])
      else
        ({ s with client := .waiting call }, [])
  | .measuring call =>
      if call.respCap < s.mailbox.len ∨ ipcMailboxCap < s.mailbox.len then
        ({ s with client := .clearing call .malformed [] }, [])
      else
        ({ s with client := .copying call s.mailbox.len [] }, [])
  | .copying call n resp =>
      if resp.length < n then
        ({ s with
            client :=
              .copying call n (resp ++ [s.mailbox.payload resp.length]) },
          [])
      else
        ({ s with client := .clearing call .ok resp }, [])
  | .clearing call st resp =>
      ({ s with
          mailbox := { s.mailbox with status := .idle }
          client := .unlocking call st resp },
        [])
  | .unlocking call st resp =>
      ({ s with client := .free }, [.returned call st resp s.taken])

/-- The next step of the server. -/
def serverStep (tables : Nat → List CryptoHandler) (s : IpcState) : IpcState :=
  match s.server with
  | .polling =>
      if s.mailbox.status = .request then
        { s with server := .checking }
      else
        s
  | .checking =>
      if s.mailbox.status = .request then
        { s with server := .measuring s.taken, taken := s.taken + 1 }
      else
        { s with server := .polling }
  | .measuring k => { s with server := .copying k s.mailbox.len [] }
  | .copying k n req =>
      if req.length < n then
        { s with
          server := .copying k n (req ++ [s.mailbox.payload req.length]) }
      else
        { s with server := .writing k (serverAnswer tables k req) 0 }
  | .writing k resp i =>
      if i < resp.length then
        { s with
          mailbox := s.mailbox.storeByte i (resp.getD i 0)
          server := .writing k resp (i + 1) }
      else
        { s with server := .sizing k resp }
  | .sizing k resp =>
      { s with
        mailbox := { s.mailbox with len := resp.length }
        server := .answering k resp }
  | .answering _ _ =>
      { s with
        mailbox := { s.mailbox with status := .response }
        server := .polling }

/-- One step of either core. -/
def ipcStep (tables : Nat → List CryptoHandler) :
    Machine.Step IpcState IpcAction IpcEvent
  | s, .transact req respCap => transactStep s req respCap
  | s, .client late => clientStep s late
  | s, .server => (serverStep tables s, [])

/-- The answer was computed for this call's request, within this call. -/
def AnswersCall
    (tables : Nat → List CryptoHandler)
    (call : IpcCall)
    (taken : Nat)
    (resp : List UInt8) : Prop :=
  ∃ k, call.since ≤ k ∧ k < taken ∧ resp = serverAnswer tables k call.req

/-- Whatever is returned with `IPC_OK` answers the request of the same call. -/
def AnsweredInTurn
    (tables : Nat → List CryptoHandler)
    (trace : List IpcEvent) : Prop :=
  ∀ call resp taken,
    .returned call .ok resp taken ∈ trace →
      AnswersCall tables call taken resp

/-- The server is at work on no request. -/
def IpcServer.Quiet : IpcServer → Prop
  | .polling => True
  | .checking => True
  | _ => False

/-- Every request the server is at work on has a number below `n`. -/
def IpcServer.Below (n : Nat) : IpcServer → Prop
  | .polling => True
  | .checking => True
  | .measuring k => k < n
  | .copying k _ _ => k < n
  | .writing k _ _ => k < n
  | .sizing k _ => k < n
  | .answering k _ => k < n

/-- The request for which the server's next step stores into the mailbox. -/
def IpcServer.storesFor : IpcServer → Option Nat
  | .writing k resp i => if i < resp.length then some k else none
  | .sizing k _ => some k
  | .answering k _ => some k
  | _ => none

/-- The call that holds the lock and has not got its outcome yet. -/
def IpcClient.openCall : IpcClient → Option IpcCall
  | .writing call _ => some call
  | .sizing call => some call
  | .ringing call => some call
  | .waiting call => some call
  | .notReady call => some call
  | .measuring call => some call
  | .copying call _ _ => some call
  | _ => none

/-- No store of the server for an earlier request falls into a later call. -/
def StoresInTime (s : IpcState) : IpcAction → Prop
  | .server =>
      ∀ k ∈ s.server.storesFor, ∀ call ∈ s.client.openCall, call.since ≤ k
  | _ => True

instance StoresInTime.decidable (s : IpcState) :
    DecidablePred (StoresInTime s)
  | .transact _ _ => inferInstanceAs (Decidable True)
  | .client _ => inferInstanceAs (Decidable True)
  | .server =>
      inferInstanceAs
        (Decidable
          (∀ k ∈ s.server.storesFor, ∀ call ∈ s.client.openCall,
            call.since ≤ k))

/-- The first `n` bytes of the payload. -/
def IpcMailbox.stored (mailbox : IpcMailbox) (n : Nat) : List UInt8 :=
  (List.range n).map mailbox.payload

@[simp] theorem IpcMailbox.length_stored (mailbox : IpcMailbox) (n : Nat) :
    (mailbox.stored n).length = n := by
  simp [stored]

/-- One more byte is read. -/
theorem IpcMailbox.stored_succ (mailbox : IpcMailbox) (n : Nat) :
    mailbox.stored (n + 1) = mailbox.stored n ++ [mailbox.payload n] := by
  simp [stored, List.range_succ]

/-- One more byte of `bytes` is stored behind those already there. -/
theorem IpcMailbox.stored_storeByte
    {mailbox : IpcMailbox}
    {bytes : List UInt8}
    {i : Nat}
    (inside : i < bytes.length)
    (before : mailbox.stored i = bytes.take i) :
    (mailbox.storeByte i (bytes.getD i 0)).stored (i + 1) =
      bytes.take (i + 1) := by
  have others :
      (mailbox.storeByte i (bytes.getD i 0)).stored i = mailbox.stored i := by
    apply List.map_congr_left
    intro j member
    have different : j ≠ i := Nat.ne_of_lt (List.mem_range.mp member)
    exact Function.update_of_ne different _ _
  have here :
      (mailbox.storeByte i (bytes.getD i 0)).payload i = bytes.getD i 0 :=
    Function.update_self ..
  have byte : bytes.getD i 0 = bytes[i] := by
    simp [List.getD, inside]
  rw [stored_succ, others, here, before,
    List.take_succ_eq_append_getElem inside, byte]

/-- The mailbox holds these bytes, and their number. -/
structure IpcMailbox.Carries (mailbox : IpcMailbox) (bytes : List UInt8) :
    Prop where
  sized : mailbox.len = bytes.length
  filled : mailbox.stored bytes.length = bytes

/-- The server has taken no request since the call began. -/
structure Behind (s : IpcState) (call : IpcCall) : Prop where
  earlier : s.server.Below call.since
  since : call.since = s.taken

/-- The call has not posted its request yet. -/
structure Unasked (s : IpcState) (call : IpcCall) : Prop where
  notAsking : s.mailbox.status ≠ .request
  behind : Behind s call

/-- The request of the call is posted, and not taken yet. -/
structure Posted (s : IpcState) (call : IpcCall) : Prop where
  asking : s.mailbox.status = .request
  behind : Behind s call
  carried : s.mailbox.Carries call.req

/-- What the server has established for the call whose request it took. -/
def Serving
    (tables : Nat → List CryptoHandler)
    (call : IpcCall)
    (s : IpcState) : Prop :=
  match s.server with
  | .polling => False
  | .checking => False
  | .measuring k =>
      call.since ≤ k ∧ k < s.taken ∧ s.mailbox.Carries call.req
  | .copying k n req =>
      call.since ≤ k ∧ k < s.taken ∧ n = call.req.length ∧
        s.mailbox.stored n = call.req ∧ req.length ≤ n ∧
          req = s.mailbox.stored req.length
  | .writing k resp i =>
      call.since ≤ k ∧ k < s.taken ∧ resp = serverAnswer tables k call.req ∧
        i ≤ resp.length ∧ s.mailbox.stored i = resp.take i
  | .sizing k resp =>
      call.since ≤ k ∧ k < s.taken ∧ resp = serverAnswer tables k call.req ∧
        s.mailbox.stored resp.length = resp
  | .answering k resp =>
      call.since ≤ k ∧ k < s.taken ∧ resp = serverAnswer tables k call.req ∧
        s.mailbox.Carries resp

/-- The answer to the call stands in the mailbox, and the server is done. -/
structure Answered
    (tables : Nat → List CryptoHandler)
    (call : IpcCall)
    (s : IpcState)
    (resp : List UInt8) : Prop where
  ready : s.mailbox.status = .response
  quiet : s.server.Quiet
  carried : s.mailbox.Carries resp
  answers : AnswersCall tables call s.taken resp

/-- The call waits for the server to take its request, to serve it, or has
been served. -/
def Awaited
    (tables : Nat → List CryptoHandler)
    (call : IpcCall)
    (s : IpcState) : Prop :=
  Posted s call ∨
    (s.mailbox.status = .request ∧ Serving tables call s) ∨
      ∃ resp, Answered tables call s resp

/-- It does not matter to the mailbox where the client stands. -/
theorem Unasked.client
    {s : IpcState}
    {call : IpcCall}
    (unasked : Unasked s call)
    (client : IpcClient) :
    Unasked { s with client := client } call :=
  ⟨unasked.notAsking, unasked.behind.earlier, unasked.behind.since⟩

/-- Nor to an answer that stands there. -/
theorem Answered.client
    {tables : Nat → List CryptoHandler}
    {s : IpcState}
    {call : IpcCall}
    {resp : List UInt8}
    (answered : Answered tables call s resp)
    (client : IpcClient) :
    Answered tables call { s with client := client } resp :=
  ⟨answered.ready, answered.quiet, answered.carried, answered.answers⟩

/-- Nor to the server's work. -/
theorem Awaited.client
    {tables : Nat → List CryptoHandler}
    {s : IpcState}
    {call : IpcCall}
    (awaited : Awaited tables call s)
    (client : IpcClient) :
    Awaited tables call { s with client := client } := by
  rcases awaited with posted | serving | ⟨resp, answered⟩
  · exact
      .inl
        ⟨posted.asking, ⟨posted.behind.earlier, posted.behind.since⟩,
          posted.carried⟩
  · exact .inr (.inl serving)
  · exact .inr (.inr ⟨resp, answered.client client⟩)

/-- What holds of the mailbox at each point of `ipc_transact`. -/
def ClientInv (tables : Nat → List CryptoHandler) (s : IpcState) : Prop :=
  match s.client with
  | .free => s.mailbox.status ≠ .request
  | .writing call i =>
      Unasked s call ∧ i ≤ call.req.length ∧
        s.mailbox.stored i = call.req.take i
  | .sizing call =>
      Unasked s call ∧ s.mailbox.stored call.req.length = call.req
  | .ringing call => Unasked s call ∧ s.mailbox.Carries call.req
  | .waiting call => Awaited tables call s
  | .notReady call => Awaited tables call s
  | .measuring call => ∃ resp, Answered tables call s resp
  | .copying call n got =>
      ∃ resp,
        Answered tables call s resp ∧ n = resp.length ∧ got.length ≤ n ∧
          got = s.mailbox.stored got.length
  | .clearing call st got => st = .ok → AnswersCall tables call s.taken got
  | .unlocking call st got =>
      s.mailbox.status ≠ .request ∧
        (st = .ok → AnswersCall tables call s.taken got)

/-- What holds in every state of a run. -/
structure IpcInv (tables : Nat → List CryptoHandler) (s : IpcState) : Prop where
  handled : s.server.Below s.taken
  client : ClientInv tables s

section Steps

variable {tables : Nat → List CryptoHandler} {s : IpcState} {call : IpcCall}

/-- An answer stays one while the server takes further requests. -/
theorem AnswersCall.mono
    {taken later : Nat}
    {resp : List UInt8}
    (answers : AnswersCall tables call taken resp)
    (since : taken ≤ later) :
    AnswersCall tables call later resp := by
  obtain ⟨k, begun, before, answer⟩ := answers
  exact ⟨k, begun, Nat.lt_of_lt_of_le before since, answer⟩

/-- The server never moves the client. -/
theorem serverStep_client : (serverStep tables s).client = s.client := by
  unfold serverStep
  split <;> (try split) <;> rfl

/-- The server's count of requests only grows. -/
theorem serverStep_taken : s.taken ≤ (serverStep tables s).taken := by
  unfold serverStep
  split <;> (try split) <;> simp

/-- The server never posts a request. -/
theorem serverStep_notAsking
    (notAsking : s.mailbox.status ≠ .request) :
    (serverStep tables s).mailbox.status ≠ .request := by
  unfold serverStep
  split <;> (try split) <;>
    first
      | exact notAsking
      | exact IpcMbxStatus.noConfusion

/-- The server is only ever at work on a request it has counted. -/
theorem serverStep_handled
    (handled : s.server.Below s.taken) :
    (serverStep tables s).server.Below (serverStep tables s).taken := by
  cases at_ : s.server with
  | polling =>
      simp only [serverStep, at_]
      split
      · trivial
      · exact handled
  | checking =>
      simp only [serverStep, at_]
      split
      · exact Nat.lt_succ_self s.taken
      · trivial
  | measuring k | sizing k resp =>
      rw [at_] at handled
      simp only [serverStep, at_]
      exact handled
  | answering k resp =>
      simp only [serverStep, at_]
      trivial
  | copying k n req | writing k resp i =>
      rw [at_] at handled
      simp only [serverStep, at_]
      split <;> exact handled

/--
A server that is at work on earlier requests only, and keeps its stores out of
the call, leaves the mailbox as the call needs it.
-/
theorem serverStep_behind
    (inTime : StoresInTime s .server)
    (opened : s.client.openCall = some call)
    (behind : Behind s call)
    (notTaking : s.mailbox.status = .request → s.server ≠ .checking) :
    (serverStep tables s).mailbox = s.mailbox ∧
      Behind (serverStep tables s) call := by
  have noStore : ∀ k, k < call.since → s.server.storesFor = some k → False := by
    intro k earlier stores
    have since := inTime k stores call opened
    exact Nat.not_lt.mpr since earlier
  obtain ⟨earlier, since⟩ := behind
  cases at_ : s.server with
  | polling =>
      simp only [serverStep, at_]
      split
      · exact ⟨rfl, trivial, since⟩
      · exact ⟨rfl, at_ ▸ trivial, since⟩
  | checking =>
      have notAsking : s.mailbox.status ≠ .request :=
        fun asking => notTaking asking at_
      simp only [serverStep, at_, notAsking, if_false]
      exact ⟨trivial, trivial, since⟩
  | measuring k =>
      rw [at_] at earlier
      simp only [serverStep, at_]
      exact ⟨trivial, earlier, since⟩
  | copying k n req =>
      rw [at_] at earlier
      simp only [serverStep, at_]
      split <;> exact ⟨rfl, earlier, since⟩
  | writing k resp i =>
      rw [at_] at earlier
      by_cases more : i < resp.length
      · exact (noStore k earlier (by simp [at_, IpcServer.storesFor, more])).elim
      · simp only [serverStep, at_, more, if_false]
        exact ⟨trivial, earlier, since⟩
  | sizing k resp =>
      rw [at_] at earlier
      exact (noStore k earlier (by rw [at_]; rfl)).elim
  | answering k resp =>
      rw [at_] at earlier
      exact (noStore k earlier (by rw [at_]; rfl)).elim

/-- A call whose request is not posted yet is left alone. -/
theorem serverStep_unasked
    (inTime : StoresInTime s .server)
    (opened : s.client.openCall = some call)
    (unasked : Unasked s call) :
    Unasked (serverStep tables s) call ∧
      (serverStep tables s).mailbox = s.mailbox := by
  obtain ⟨sameMailbox, behind⟩ :=
    serverStep_behind inTime opened unasked.behind
      (fun asking => (unasked.notAsking asking).elim)
  exact ⟨⟨sameMailbox ▸ unasked.notAsking, behind⟩, sameMailbox⟩

/-- An answer that stands in the mailbox is left alone. -/
theorem serverStep_answered
    {resp : List UInt8}
    (answered : Answered tables call s resp) :
    Answered tables call (serverStep tables s) resp ∧
      (serverStep tables s).mailbox = s.mailbox := by
  obtain ⟨ready, quiet, carried, answers⟩ := answered
  have notAsking : s.mailbox.status ≠ .request := by
    rw [ready]
    decide
  cases at_ : s.server with
  | polling =>
      simp only [serverStep, at_, notAsking, if_false]
      exact ⟨⟨ready, quiet, carried, answers⟩, trivial⟩
  | checking =>
      simp only [serverStep, at_, notAsking, if_false]
      exact ⟨⟨ready, trivial, carried, answers⟩, trivial⟩
  | measuring k | copying k n req | writing k resp i | sizing k resp
  | answering k resp =>
      rw [at_] at quiet
      exact quiet.elim

/-- A posted request is taken by the second look, and only by it. -/
theorem serverStep_posted
    (inTime : StoresInTime s .server)
    (opened : s.client.openCall = some call)
    (posted : Posted s call) :
    Awaited tables call (serverStep tables s) := by
  by_cases checking : s.server = .checking
  · simp only [serverStep, checking, posted.asking, if_true]
    exact
      .inr
        (.inl
          ⟨posted.asking, Nat.le_of_eq posted.behind.since,
            Nat.lt_succ_self s.taken, posted.carried⟩)
  · obtain ⟨sameMailbox, behind⟩ :=
      serverStep_behind inTime opened posted.behind
        (fun _ => checking)
    refine .inl ⟨?_, behind, ?_⟩
    · rw [sameMailbox]
      exact posted.asking
    · rw [sameMailbox]
      exact posted.carried

/-- One step of the server on the request it took from the open call. -/
theorem serverStep_serving
    (asking : s.mailbox.status = .request)
    (serving : Serving tables call s) :
    Awaited tables call (serverStep tables s) := by
  unfold Serving at serving
  refine .inr ?_
  cases at_ : s.server with
  | polling | checking =>
      simp only [at_] at serving
  | measuring k =>
      simp only [at_] at serving
      obtain ⟨begun, before, carries⟩ := serving
      simp only [serverStep, at_]
      refine
        .inl
          ⟨asking, begun, before, carries.sized, ?_, Nat.zero_le _, rfl⟩
      change s.mailbox.stored s.mailbox.len = call.req
      rw [carries.sized, carries.filled]
  | copying k n req =>
      simp only [at_] at serving
      obtain ⟨begun, before, sized, filled, short, read⟩ := serving
      simp only [serverStep, at_]
      split
      · next more =>
          refine .inl ⟨asking, begun, before, sized, filled, ?_, ?_⟩
          · rw [List.length_append]
            exact more
          · change req ++ _ = s.mailbox.stored (req ++ [_]).length
            rw [List.length_append, List.length_singleton,
              IpcMailbox.stored_succ, ← read]
      · next all =>
          have whole : req = call.req := by
            have length : req.length = n := by omega
            rw [read, length, filled]
          refine .inl ⟨asking, begun, before, ?_, Nat.zero_le _, rfl⟩
          rw [whole]
  | writing k resp i =>
      simp only [at_] at serving
      obtain ⟨begun, before, answer, inside, stored⟩ := serving
      simp only [serverStep, at_]
      split
      · next more =>
          exact
            .inl
              ⟨asking, begun, before, answer, more,
                IpcMailbox.stored_storeByte more stored⟩
      · next all =>
          refine .inl ⟨asking, begun, before, answer, ?_⟩
          have length : i = resp.length := by omega
          rw [length, List.take_length] at stored
          exact stored
  | sizing k resp =>
      simp only [at_] at serving
      obtain ⟨begun, before, answer, stored⟩ := serving
      simp only [serverStep, at_]
      exact .inl ⟨asking, begun, before, answer, rfl, stored⟩
  | answering k resp =>
      simp only [at_] at serving
      obtain ⟨begun, before, answer, carries⟩ := serving
      simp only [serverStep, at_]
      exact
        .inr
          ⟨resp, rfl, trivial, ⟨carries.sized, carries.filled⟩, k, begun,
            before, answer⟩

/-- A call that waits goes on being served, or its answer stands. -/
theorem serverStep_awaited
    (inTime : StoresInTime s .server)
    (opened : s.client.openCall = some call)
    (awaited : Awaited tables call s) :
    Awaited tables call (serverStep tables s) := by
  rcases awaited with posted | ⟨asking, serving⟩ | ⟨resp, answered⟩
  · exact serverStep_posted inTime opened posted
  · exact serverStep_serving asking serving
  · exact .inr (.inr ⟨resp, (serverStep_answered answered).1⟩)

/-- A step of the server keeps what holds at every point of the client. -/
theorem serverStep_inv
    (inTime : StoresInTime s .server)
    (inv : IpcInv tables s) :
    IpcInv tables (serverStep tables s) := by
  refine ⟨serverStep_handled inv.handled, ?_⟩
  have inv := inv.client
  unfold ClientInv at inv ⊢
  rw [serverStep_client]
  cases at_ : s.client with
  | free =>
      simp only [at_] at inv
      exact serverStep_notAsking inv
  | writing call i =>
      simp only [at_] at inv
      obtain ⟨unasked, sameMailbox⟩ :=
        serverStep_unasked inTime (by rw [at_]; rfl) inv.1
      exact ⟨unasked, inv.2.1, sameMailbox ▸ inv.2.2⟩
  | sizing call =>
      simp only [at_] at inv
      obtain ⟨unasked, sameMailbox⟩ :=
        serverStep_unasked inTime (by rw [at_]; rfl) inv.1
      exact ⟨unasked, sameMailbox ▸ inv.2⟩
  | ringing call =>
      simp only [at_] at inv
      obtain ⟨unasked, sameMailbox⟩ :=
        serverStep_unasked inTime (by rw [at_]; rfl) inv.1
      exact ⟨unasked, sameMailbox ▸ inv.2⟩
  | waiting call =>
      simp only [at_] at inv
      exact serverStep_awaited inTime (by rw [at_]; rfl) inv
  | notReady call =>
      simp only [at_] at inv
      exact serverStep_awaited inTime (by rw [at_]; rfl) inv
  | measuring call =>
      simp only [at_] at inv
      obtain ⟨resp, answered⟩ := inv
      exact ⟨resp, (serverStep_answered answered).1⟩
  | copying call n got =>
      simp only [at_] at inv
      obtain ⟨resp, answered, length, short, read⟩ := inv
      obtain ⟨stillAnswered, sameMailbox⟩ := serverStep_answered answered
      exact ⟨resp, stillAnswered, length, short, sameMailbox ▸ read⟩
  | clearing call st got =>
      simp only [at_] at inv
      intro isOk
      exact (inv isOk).mono serverStep_taken
  | unlocking call st got =>
      simp only [at_] at inv
      refine ⟨serverStep_notAsking inv.1, ?_⟩
      intro isOk
      exact (inv.2 isOk).mono serverStep_taken

/-- A step that answers nobody. -/
theorem answeredInTurn_silent : AnsweredInTurn tables [] := by
  intro call resp taken member
  cases member

/-- Writing the request, byte by byte. -/
theorem clientStep_writing
    {late : Bool}
    {i : Nat}
    (at_ : s.client = .writing call i)
    (inv : ClientInv tables s) :
    ClientInv tables (clientStep s late).1 ∧
      AnsweredInTurn tables (clientStep s late).2 := by
  simp only [ClientInv, at_] at inv
  obtain ⟨unasked, inside, stored⟩ := inv
  simp only [clientStep, at_]
  split
  · next more =>
      exact
        ⟨⟨⟨unasked.notAsking, unasked.behind.earlier, unasked.behind.since⟩,
            more, IpcMailbox.stored_storeByte more stored⟩,
          answeredInTurn_silent⟩
  · next all =>
      have length : i = call.req.length := by omega
      rw [length, List.take_length] at stored
      exact ⟨⟨unasked.client (.sizing call), stored⟩, answeredInTurn_silent⟩

/-- Waiting until the mailbox holds an answer. -/
theorem clientStep_waiting
    {late : Bool}
    (at_ : s.client = .waiting call)
    (inv : ClientInv tables s) :
    ClientInv tables (clientStep s late).1 ∧
      AnsweredInTurn tables (clientStep s late).2 := by
  simp only [ClientInv, at_] at inv
  simp only [clientStep, at_]
  split
  · next ready =>
      rcases inv with posted | ⟨asking, -⟩ | ⟨resp, answered⟩
      · rw [posted.asking] at ready
        cases ready
      · rw [asking] at ready
        cases ready
      · exact
          ⟨⟨resp, answered.client (.measuring call)⟩, answeredInTurn_silent⟩
  · exact ⟨inv.client (.notReady call), answeredInTurn_silent⟩

/-- Copying the answer, byte by byte. -/
theorem clientStep_copying
    {late : Bool}
    {n : Nat}
    {got : List UInt8}
    (at_ : s.client = .copying call n got)
    (inv : ClientInv tables s) :
    ClientInv tables (clientStep s late).1 ∧
      AnsweredInTurn tables (clientStep s late).2 := by
  simp only [ClientInv, at_] at inv
  obtain ⟨resp, answered, length, short, read⟩ := inv
  simp only [clientStep, at_]
  split
  · next more =>
      refine
        ⟨⟨resp, answered.client (.copying call n _), length, ?_, ?_⟩,
          answeredInTurn_silent⟩
      · rw [List.length_append]
        exact more
      · change got ++ _ = s.mailbox.stored (got ++ [_]).length
        rw [List.length_append, List.length_singleton,
          IpcMailbox.stored_succ, ← read]
  · next all =>
      refine ⟨?_, answeredInTurn_silent⟩
      intro _
      have whole : got = resp := by
        have gotLength : got.length = resp.length := by omega
        rw [read, gotLength, answered.carried.filled]
      rw [whole]
      exact answered.answers

/-- A step of the lock's holder keeps what holds at every point of it. -/
theorem clientStep_inv
    {late : Bool}
    (inv : ClientInv tables s) :
    ClientInv tables (clientStep s late).1 ∧
      AnsweredInTurn tables (clientStep s late).2 := by
  have silent := @answeredInTurn_silent tables
  cases at_ : s.client with
  | free =>
      simp only [ClientInv, at_] at inv
      simp only [clientStep, at_]
      refine ⟨?_, silent⟩
      simp only [ClientInv, at_]
      exact inv
  | writing call i =>
      exact clientStep_writing at_ inv
  | sizing call =>
      simp only [ClientInv, at_] at inv
      simp only [clientStep, at_]
      obtain ⟨unasked, stored⟩ := inv
      exact
        ⟨⟨⟨unasked.notAsking, unasked.behind.earlier, unasked.behind.since⟩, rfl, stored⟩,
          silent⟩
  | ringing call =>
      simp only [ClientInv, at_] at inv
      simp only [clientStep, at_]
      obtain ⟨unasked, carries⟩ := inv
      refine ⟨.inl ⟨rfl, ?_, ?_⟩, silent⟩
      · exact ⟨unasked.behind.earlier, unasked.behind.since⟩
      · exact ⟨carries.sized, carries.filled⟩
  | waiting call =>
      exact clientStep_waiting at_ inv
  | notReady call =>
      simp only [ClientInv, at_] at inv
      simp only [clientStep, at_]
      cases late with
      | true =>
          refine ⟨?_, silent⟩
          intro isOk
          cases isOk
      | false =>
          exact ⟨inv.client (.waiting call), silent⟩
  | measuring call =>
      simp only [ClientInv, at_] at inv
      simp only [clientStep, at_]
      obtain ⟨resp, answered⟩ := inv
      split
      · refine ⟨?_, silent⟩
        intro isOk
        cases isOk
      · exact
          ⟨⟨resp, answered.client (.copying call s.mailbox.len []),
              answered.carried.sized, Nat.zero_le _, rfl⟩,
            silent⟩
  | copying call n got =>
      exact clientStep_copying at_ inv
  | clearing call st got =>
      simp only [ClientInv, at_] at inv
      simp only [clientStep, at_]
      refine ⟨⟨?_, inv⟩, silent⟩
      intro asking
      cases asking
  | unlocking call st got =>
      simp only [ClientInv, at_] at inv
      simp only [clientStep, at_]
      refine ⟨inv.1, ?_⟩
      intro other resp taken member
      cases List.mem_singleton.mp member
      exact inv.2 rfl

/-- The lock's holder changes nothing about the server. -/
theorem clientStep_handled
    {late : Bool}
    (handled : s.server.Below s.taken) :
    (clientStep s late).1.server.Below (clientStep s late).1.taken := by
  unfold clientStep
  split <;> (try split) <;> exact handled

/-- A call that takes the lock starts behind the server's earlier work. -/
theorem transactStep_inv
    {req : List UInt8}
    {respCap : Nat}
    (inv : IpcInv tables s) :
    IpcInv tables (transactStep s req respCap).1 ∧
      AnsweredInTurn tables (transactStep s req respCap).2 := by
  have refused : ∀ st, AnsweredInTurn tables [.refused st] := by
    intro st call resp taken member
    cases List.mem_singleton.mp member
  unfold transactStep
  split
  · exact ⟨inv, refused _⟩
  · split
    · next free =>
        have notAsking : s.mailbox.status ≠ .request := by
          simpa only [ClientInv, free] using inv.client
        refine ⟨⟨inv.handled, ?_⟩, ?_⟩
        · exact ⟨⟨notAsking, inv.handled, rfl⟩, Nat.zero_le _, rfl⟩
        · intro call resp taken member
          cases member
    · exact ⟨inv, refused _⟩

/-- One step of either core. -/
theorem ipcStep_inv
    {action : IpcAction}
    (inTime : StoresInTime s action)
    (inv : IpcInv tables s) :
    IpcInv tables (ipcStep tables s action).1 ∧
      AnsweredInTurn tables (ipcStep tables s action).2 := by
  cases action with
  | transact req respCap =>
      exact transactStep_inv inv
  | client late =>
      obtain ⟨client, shown⟩ := clientStep_inv inv.client
      exact ⟨⟨clientStep_handled inv.handled, client⟩, shown⟩
  | server =>
      refine ⟨serverStep_inv inTime inv, ?_⟩
      intro call resp taken member
      cases member

end Steps

/--
The mailbox has been idled and no call is open.

What the server found in the mailbox before that may still keep it at work.
-/
structure IpcState.Idle (s : IpcState) : Prop where
  free : s.client = .free
  idle : s.mailbox.status = .idle
  handled : s.server.Below s.taken

/--
In every run in which no store of the server for an earlier request falls into
a later call, whatever is returned with `IPC_OK` is the server's answer to the
request of the same call.
-/
theorem responses_belong_to_their_requests
    (tables : Nat → List CryptoHandler)
    (start : IpcState)
    (idle : start.Idle)
    (actions : List IpcAction)
    (inTime : Machine.Allowed (ipcStep tables) StoresInTime start actions) :
    AnsweredInTurn tables (Machine.trace (ipcStep tables) start actions) := by
  have silent : AnsweredInTurn tables [] := by
    intro call resp taken member
    cases member
  have preserved :
      ∀ s history action,
        IpcInv tables s ∧ AnsweredInTurn tables history →
          StoresInTime s action →
            IpcInv tables (ipcStep tables s action).1 ∧
              AnsweredInTurn tables
                (history ++ (ipcStep tables s action).2) := by
    rintro s history action ⟨inv, answered⟩ allowed
    obtain ⟨next, shown⟩ := ipcStep_inv allowed inv
    refine ⟨next, ?_⟩
    intro call resp taken member
    rcases List.mem_append.mp member with earlier | now
    · exact answered call resp taken earlier
    · exact shown call resp taken now
  have atStart : IpcInv tables start := by
    refine ⟨idle.handled, ?_⟩
    simp only [ClientInv, idle.free, idle.idle]
    decide
  exact (Machine.invariant_of_start preserved ⟨atStart, silent⟩ inTime).2

/-- An idle mailbox, and a server that waits. -/
def idleMailbox : IpcState where
  mailbox := ⟨.idle, 0, fun _ => 0⟩
  client := .free
  server := .polling
  taken := 0

/-- A request without a payload. -/
def emptyRequest (op : UInt8) : List UInt8 :=
  [op, 0, 0]

/-- A call with such a request, up to its first look at the answer. -/
def posted (op : UInt8) : List IpcAction :=
  .transact (emptyRequest op) cryptoMsgMaxWire :: List.replicate 6 (.client false)

/-- The client looks, copies four bytes and returns. -/
def collected : List IpcAction :=
  List.replicate 9 (.client false)

/-- The server is slow over a MAC request, and the client gives up. -/
def abandoned : List IpcAction :=
  posted cryptoOpMac ++ List.replicate 7 .server ++
    List.replicate 4 (.client true)

/-- The late answer lands between two calls, and the second one is answered. -/
def lateBetweenCalls : List IpcAction :=
  abandoned ++ List.replicate 7 .server ++ posted cryptoOpVerifyImage ++
    List.replicate 14 .server ++ collected

/-- A call behind a late answer gets the answer to its own request. -/
theorem late_between_calls_is_harmless :
    Machine.trace (ipcStep fun _ => []) idleMailbox lateBetweenCalls =
        [.returned ⟨emptyRequest cryptoOpMac, cryptoMsgMaxWire, 0⟩ .timeout []
            1,
          .returned ⟨emptyRequest cryptoOpVerifyImage, cryptoMsgMaxWire, 1⟩ .ok
            [cryptoOpVerifyImage, 1, 0, 2] 2] ∧
      AnsweredInTurn (fun _ => [])
        (Machine.trace (ipcStep fun _ => []) idleMailbox lateBetweenCalls) :=
  ⟨by decide +kernel,
    responses_belong_to_their_requests (fun _ => []) idleMailbox ⟨rfl, rfl, trivial⟩
      lateBetweenCalls (by decide +kernel)⟩

/-- The late answer lands in the verify transaction that follows. -/
def lateAnswer : List IpcAction :=
  abandoned ++ posted cryptoOpVerifyImage ++ List.replicate 7 .server ++
    collected

/-- The late answer to an earlier request is returned with `IPC_OK`. -/
theorem late_answer_is_returned :
    Machine.trace (ipcStep fun _ => []) idleMailbox lateAnswer =
        [.returned ⟨emptyRequest cryptoOpMac, cryptoMsgMaxWire, 0⟩ .timeout []
            1,
          .returned ⟨emptyRequest cryptoOpVerifyImage, cryptoMsgMaxWire, 1⟩ .ok
            [cryptoOpMac, 1, 0, 2] 1] ∧
      ¬ AnsweredInTurn (fun _ => [])
        (Machine.trace (ipcStep fun _ => []) idleMailbox lateAnswer) := by
  have shown :
      Machine.trace (ipcStep fun _ => []) idleMailbox lateAnswer =
        [.returned ⟨emptyRequest cryptoOpMac, cryptoMsgMaxWire, 0⟩ .timeout []
            1,
          .returned ⟨emptyRequest cryptoOpVerifyImage, cryptoMsgMaxWire, 1⟩ .ok
            [cryptoOpMac, 1, 0, 2] 1] := by
    decide +kernel
  refine ⟨shown, ?_⟩
  intro inTurn
  obtain ⟨k, begun, before, answer⟩ :=
    inTurn _ _ _ (by
      rw [shown]
      exact List.mem_cons_of_mem _ (List.mem_singleton_self _))
  revert answer
  change [cryptoOpMac, 1, 0, 2] = _ → False
  have other :
      serverAnswer (fun _ => []) k (emptyRequest cryptoOpVerifyImage) =
        [cryptoOpVerifyImage, 1, 0, 2] := by
    change serverAnswer (fun _ => []) 0 _ = _
    decide +kernel
  rw [other]
  decide

end TraveoBodyDomain
