import Mathlib.Tactic.Common
import TraveoBodyDomain.Secoc.Frame
import TraveoBodyDomain.Secoc.Freshness

/-!
# The composed receive verdict

`secoc_rx.c`: MAC first, then freshness, then the accept, with the drop counter
and the log event of each verdict side by side.  What a context points at
(`cy`, `fresh`) is part of it; `none` is a NULL pointer.
-/

namespace TraveoBodyDomain

/-- The SecOC events of the log contract. -/
inductive LogEvt where
  | secocAccept
  | secocRejectMac
  | secocRejectFreshness
  | secocResync
  deriving Repr, DecidableEq

/-- One call of `log_evt`. -/
structure LogRecord where
  evt : LogEvt
  arg0 : UInt32
  arg1 : UInt16
  deriving Repr, DecidableEq

/-- `secoc_rx_verdict_t`. -/
inductive SecocRxVerdict where
  | accept
  | dropMac
  | dropFreshness
  deriving Repr, DecidableEq

/-- `secoc_rx_t`. -/
structure SecocRx where
  cy : Option SecocCrypto
  fresh : Option SecocRxCtx
  pduLenOf : Option (UInt32 → Nat)
  nAccept : UInt32
  nDropMac : UInt32
  nDropFresh : UInt32

/-- `secoc_rx_init`. -/
def secocRxInit
    (cy : Option SecocCrypto)
    (fresh : Option SecocRxCtx) :
    SecocRx where
  cy := cy
  fresh := fresh
  pduLenOf := none
  nAccept := 0
  nDropMac := 0
  nDropFresh := 0

/-- `secoc_rx_set_pdu_len_of`. -/
def secocRxSetPduLenOf
    (rx : SecocRx)
    (pduLenOf : Option (UInt32 → Nat)) :
    SecocRx :=
  { rx with pduLenOf := pduLenOf }

/-- What one call of `secoc_rx_process` returns, writes and logs. -/
structure SecocRxResult (Store : Type) where
  verdict : SecocRxVerdict
  rx : SecocRx
  pduOut : Option (List UInt8)
  pduLen : Option Nat
  store : Store
  log : List LogRecord

section Process

variable {Store : Type}

/-- `drop_mac`. -/
def dropMac
    (rx : SecocRx)
    (canId : UInt16)
    (reason : SecocVerifyFailure)
    (pduOut : Option (List UInt8))
    (pduLen : Option Nat)
    (store : Store) :
    SecocRxResult Store where
  verdict := .dropMac
  rx := { rx with nDropMac := rx.nDropMac + 1 }
  pduOut := pduOut
  pduLen := pduLen
  store := store
  log := [⟨.secocRejectMac, canId.toUInt32, reason.code⟩]

/-- `drop_fresh`. -/
def dropFresh
    (rx : SecocRx)
    (canId counter : UInt16)
    (pduOut : Option (List UInt8))
    (pduLen : Option Nat)
    (store : Store) :
    SecocRxResult Store where
  verdict := .dropFreshness
  rx := { rx with nDropFresh := rx.nDropFresh + 1 }
  pduOut := pduOut
  pduLen := pduLen
  store := store
  log := [⟨.secocRejectFreshness, canId.toUInt32, counter⟩]

/-- The MAC check of `secoc_rx_process`, by configured length when there is one. -/
def rxVerify
    (mac : SecocMac)
    (pduLenOf : Option (UInt32 → Nat))
    (cy : SecocCrypto)
    (canId : UInt16)
    (frame : List UInt8)
    (cap : Nat) :
    Except SecocVerifyFailure Verified :=
  let cfgLen :=
    match pduLenOf with
    | some lookup => lookup canId.toUInt32
    | none => 0
  if cfgLen ≠ 0 then
    secocVerifyLen mac cy canId frame cfgLen cap
  else
    secocVerify mac cy canId frame cap

/--
`secoc_rx_process`.  `pduOut` is the output buffer, as long as its capacity,
and `pduLen` the length behind its pointer.
-/
def secocRxProcess
    (port : FreshnessStoreIf Store)
    (mac : SecocMac)
    (rx : SecocRx)
    (canId : UInt16)
    (frame : List UInt8)
    (pduOut : Option (List UInt8))
    (pduLen : Option Nat)
    (store : Store) :
    SecocRxResult Store :=
  let noPdu := pduLen.map fun _ => 0
  match rx.cy, rx.fresh, pduOut, noPdu with
  | some cy, some fresh, some out, some _ =>
      match rxVerify mac rx.pduLenOf cy canId frame out.length with
      | .error reason => dropMac rx canId reason pduOut noPdu store
      | .ok verified =>
          -- The verifier copied the PDU before freshness is looked at.
          let written := some (verified.pdu ++ out.drop verified.pdu.length)
          match secocRxCheck fresh canId verified.epoch verified.counter with
          | .ok =>
              match
                secocRxAccept port fresh canId verified.epoch verified.counter
                  store
              with
              | (false, fresh, store) =>
                  dropFresh { rx with fresh := some fresh } canId
                    verified.counter written noPdu store
              | (true, fresh, store) =>
                  { verdict := .accept
                    rx :=
                      { rx with
                        fresh := some fresh
                        nAccept := rx.nAccept + 1 }
                    pduOut := written
                    pduLen := some verified.pdu.length
                    store := store
                    log :=
                      [⟨.secocAccept, canId.toUInt32, verified.counter⟩] }
          | _ => dropFresh rx canId verified.counter written noPdu store
  | _, _, _, _ => dropMac rx canId .macError pduOut noPdu store

/-- `secoc_rx_sync_adopt`: whether the epoch moved, and the resync event. -/
def secocRxSyncAdopt
    (port : FreshnessStoreIf Store)
    (tx : SecocTxCtx)
    (canId requestedFloor : UInt16)
    (store : Store) :
    Except Fault (Bool × SecocTxCtx × Store × List LogRecord) :=
  match secocTxAdoptFloor port tx requestedFloor store with
  | .error fault => .error fault
  | .ok (moved, tx, store) =>
      .ok
        (moved, tx, store,
          if moved then
            [⟨.secocResync, canId.toUInt32, tx.epoch⟩]
          else
            [])

/-- What an accepted frame was: verified, fresh and committed. -/
structure AcceptedFrame
    (port : FreshnessStoreIf Store)
    (mac : SecocMac)
    (rx : SecocRx)
    (canId : UInt16)
    (frame : List UInt8)
    (cap : Nat)
    (store : Store) where
  cy : SecocCrypto
  fresh : SecocRxCtx
  freshAfter : SecocRxCtx
  verified : Verified
  storeAfter : Store
  cySet : rx.cy = some cy
  freshSet : rx.fresh = some fresh
  verifies :
    rxVerify mac rx.pduLenOf cy canId frame cap = .ok verified
  passes :
    secocRxCheck fresh canId verified.epoch verified.counter = .ok
  committed :
    secocRxAccept port fresh canId verified.epoch verified.counter store =
      (true, freshAfter, storeAfter)

/-- An accepting call released exactly the PDU of a frame that passed it all. -/
theorem secocRxProcess_accept
    {port : FreshnessStoreIf Store}
    {mac : SecocMac}
    {rx : SecocRx}
    {canId : UInt16}
    {frame out : List UInt8}
    {pduLen : Nat}
    {store : Store}
    {result : SecocRxResult Store}
    (ran :
      secocRxProcess port mac rx canId frame (some out) (some pduLen) store =
        result)
    (accepted : result.verdict = .accept) :
    ∃ one : AcceptedFrame port mac rx canId frame out.length store,
      result.rx =
          { rx with
            fresh := some one.freshAfter
            nAccept := rx.nAccept + 1 } ∧
        result.store = one.storeAfter ∧
        result.pduOut =
          some (one.verified.pdu ++ out.drop one.verified.pdu.length) ∧
        result.pduLen = some one.verified.pdu.length := by
  unfold secocRxProcess at ran
  dsimp only at ran
  split at ran
  next cy fresh outAgain unused cySet freshSet isOut isLen =>
    cases isOut
    split at ran
    next =>
      subst ran
      cases accepted
    next verified verifies =>
      split at ran
      next passes =>
        split at ran
        next =>
          subst ran
          cases accepted
        next freshAfter storeAfter committed =>
          subst ran
          exact
            ⟨⟨cy, fresh, freshAfter, verified, storeAfter, cySet, freshSet,
              verifies, passes, committed⟩, rfl, rfl, rfl, rfl⟩
      next =>
        subst ran
        cases accepted
  next =>
    subst ran
    cases accepted

/-- A refused call only counts, writes scratch bytes and may fail a commit. -/
theorem secocRxProcess_drop
    {port : FreshnessStoreIf Store}
    {mac : SecocMac}
    {rx : SecocRx}
    {canId : UInt16}
    {frame out : List UInt8}
    {pduLen : Nat}
    {store : Store}
    {result : SecocRxResult Store}
    (ran :
      secocRxProcess port mac rx canId frame (some out) (some pduLen) store =
        result)
    (refused : result.verdict ≠ .accept) :
    result.rx.cy = rx.cy ∧
      result.rx.fresh = rx.fresh ∧
      result.rx.pduLenOf = rx.pduLenOf ∧
      (result.store = store ∨
        ∃ fresh cy verified,
          rx.fresh = some fresh ∧
          rx.cy = some cy ∧
          rxVerify mac rx.pduLenOf cy canId frame out.length = .ok verified ∧
          secocRxCheck fresh canId verified.epoch verified.counter = .ok ∧
          secocRxAccept port fresh canId verified.epoch verified.counter
              store =
            (false, fresh, result.store)) := by
  unfold secocRxProcess at ran
  dsimp only at ran
  split at ran
  next cy fresh outAgain unused cySet freshSet isOut isLen =>
    cases isOut
    split at ran
    next =>
      subst ran
      exact ⟨rfl, rfl, rfl, Or.inl rfl⟩
    next verified verifies =>
      split at ran
      next passes =>
        split at ran
        next freshAfter storeAfter failed =>
          subst ran
          have kept : freshAfter = fresh := by
            rcases secocRxAccept_cases failed with
                ⟨-, same, -⟩ | ⟨_, succeeded, -⟩
            · exact same
            · cases succeeded
          subst kept
          exact
            ⟨rfl, freshSet.symm, rfl,
              Or.inr
                ⟨freshAfter, cy, verified, freshSet, cySet, verifies, passes,
                  failed⟩⟩
        next =>
          subst ran
          exact (refused rfl).elim
      next =>
        subst ran
        exact ⟨rfl, rfl, rfl, Or.inl rfl⟩
  next =>
    subst ran
    exact ⟨rfl, rfl, rfl, Or.inl rfl⟩

end Process

end TraveoBodyDomain
