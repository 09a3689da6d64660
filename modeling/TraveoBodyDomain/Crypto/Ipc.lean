import TraveoBodyDomain.Crypto.Msg

/-!
# One IPC transaction

`ipc_mailbox.c`: the request is written into the mailbox, the doorbell is rung,
and the answer is awaited and copied.  The port is whatever the caller binds:
each of its functions may change a world of the port's own, and the mailbox is
read and written byte by byte.

The wait polls until the port answers or its clock says that time is up, so a
number of polls is given; `none` is a wait that has not ended by then.
-/

namespace TraveoBodyDomain

/-- `ipc_status_t`. -/
inductive IpcStatus where
  | ok
  | busy
  | timeout
  | malformed
  deriving Repr, DecidableEq

/-- `ipc_port_if_t`, with stores to and loads from its mailbox. -/
structure IpcPort (World : Type) where
  semaTryAcquire : World → Bool × World
  semaRelease : World → World
  storeByte : Nat → UInt8 → World → World
  loadByte : Nat → World → UInt8 × World
  mailboxCap : Nat
  notify : Nat → World → World
  responseReady : World → Bool × World
  responseLen : World → Nat × World
  nowMs : World → UInt32 × World

namespace IpcPort

variable {World : Type} (port : IpcPort World)

/-- The loop that writes the request, from the byte `i` on. -/
def storeBytes : Nat → List UInt8 → World → World
  | _, [], world => world
  | i, byte :: rest, world =>
      storeBytes (i + 1) rest (port.storeByte i byte world)

/-- The loop that copies `n` bytes of the answer, from the byte `i` on. -/
def loadBytes : Nat → Nat → World → List UInt8 × World
  | _, 0, world => ([], world)
  | i, n + 1, world =>
      let (byte, world) := port.loadByte i world
      let (rest, world) := loadBytes (i + 1) n world
      (byte :: rest, world)

/-- The bounded wait; whether an answer came. -/
def awaitResponse (startMs timeoutMs : UInt32) :
    Nat → World → Option (Bool × World)
  | 0, _ => none
  | polls + 1, world =>
      let (ready, world) := port.responseReady world
      if ready then
        some (true, world)
      else
        let (now, world) := port.nowMs world
        if timeoutMs ≤ now - startMs then
          some (false, world)
        else
          awaitResponse startMs timeoutMs polls world

end IpcPort

/-- `ipc_transact`: the status, the bytes copied, and the port's world. -/
def ipcTransact
    {World : Type}
    (port : IpcPort World)
    (req : List UInt8)
    (respCap : Nat)
    (timeoutMs : UInt32)
    (polls : Nat)
    (world : World) : Option (IpcStatus × List UInt8 × World) :=
  if port.mailboxCap < req.length then
    some (.malformed, [], world)
  else
    let (acquired, world) := port.semaTryAcquire world
    if acquired = false then
      some (.busy, [], world)
    else
      let world := port.storeBytes 0 req world
      let world := port.notify req.length world
      let (startMs, world) := port.nowMs world
      match port.awaitResponse startMs timeoutMs polls world with
      | none => none
      | some (false, world) => some (.timeout, [], port.semaRelease world)
      | some (true, world) =>
          let (n, world) := port.responseLen world
          if respCap < n ∨ port.mailboxCap < n then
            some (.malformed, [], port.semaRelease world)
          else
            let (resp, world) := port.loadBytes 0 n world
            some (.ok, resp, port.semaRelease world)

end TraveoBodyDomain
