import Mathlib.Tactic.Common
import TraveoBodyDomain.Can
import TraveoBodyDomain.Messages
import TraveoBodyDomain.Secoc.Rx
import TraveoBodyDomain.Store.Record

/-!
# The SecOC glue of the two nodes

`secoc_app.c` of the gateway (Node A) and of the actuator (Node B), and the
frame dispatch of their CAN tasks.  The two files mirror each other: what they
share is defined once, over the IDs a node sends and receives, and each node's
functions are that definition at its own IDs.
-/

namespace TraveoBodyDomain

/-- `SECOC_MAC_KEY_ID`. -/
def secocMacKeyId : UInt32 :=
  0x5E

/-- `g_cy`. -/
def gCy : SecocCrypto where
  keyId := secocMacKeyId

/-- `SECOC_DOM_TX_SELF`. -/
def secocDomTxSelf : UInt8 :=
  0

/-- `SECOC_DOM_RX_A` on one node, `SECOC_DOM_RX_B` on the other. -/
def secocDomRxPeer : UInt8 :=
  1

/-- What the two glue files differ in: `g_tx_ids`, `g_rx_ids`, the own sync. -/
structure AppConfig where
  txIds : List UInt16
  rxIds : List UInt16
  bootSyncId : UInt16
  deriving Repr, DecidableEq

/-- The static state of `secoc_app.c`; `g_rx` is what `rx.fresh` points at. -/
structure SecocApp where
  tx : SecocTxCtx
  rx : SecocRx
  dropDecode : UInt32

namespace SecocApp

/-- The state as reset leaves it in RAM. -/
def reset : SecocApp where
  tx := .reset
  rx := secocRxInit none none
  dropDecode := 0

/-- `g_rx`. -/
def gRx (app : SecocApp) : SecocRxCtx :=
  app.rx.fresh.getD .reset

end SecocApp

section Glue

variable {Store : Type}

/-- `secoc_app_init` after `secoc_store_mount` returned `status`. -/
def secocAppInit
    (config : AppConfig)
    (port : FreshnessStoreIf Store)
    (status : SecocStoreStatus)
    (app : SecocApp)
    (store : Store) :
    SecocApp × Store :=
  let (tx, gRx, store) :=
    if status ≠ .broken then
      let (_, tx, store) :=
        secocTxBoot port app.tx secocDomTxSelf config.txIds store
      let (_, gRx) :=
        secocRxBoot port app.gRx secocDomRxPeer config.rxIds store
      (tx, gRx, store)
    else
      (app.tx, app.gRx, store)
  let rx := secocRxInit (some gCy) (some gRx)
  ({ app with tx := tx, rx := secocRxSetPduLenOf rx (some bodyMsgPduLen) },
    store)

/-- The call of `secoc_rx_process` each receive path of the glue makes. -/
def rxProcess
    (port : FreshnessStoreIf Store)
    (mac : SecocMac)
    (app : SecocApp)
    (f : CanRawFrame)
    (store : Store) :
    SecocRxResult Store :=
  secocRxProcess port mac app.rx f.id.toUInt16 f.data
    (some (List.replicate canMaxDlen 0)) (some 0) store

/-- The stripped PDU an accepting call leaves its caller. -/
def released (result : SecocRxResult Store) : List UInt8 :=
  (result.pduOut.getD []).take (result.pduLen.getD 0)

/-- `rx_authentic`: the stripped PDU of an accepted frame. -/
def rxAuthentic
    (port : FreshnessStoreIf Store)
    (mac : SecocMac)
    (app : SecocApp)
    (f : CanRawFrame)
    (store : Store) :
    Option (List UInt8) × SecocApp × Store × List LogRecord :=
  let result := rxProcess port mac app f store
  let pdu := if result.verdict = .accept then some (released result) else none
  (pdu, { app with rx := result.rx }, result.store, result.log)

/-- What handling one received frame leaves behind. -/
structure Handled (Store : Type) where
  app : SecocApp
  store : Store
  log : List LogRecord
  /-- The decoded message handed on to the node's application. -/
  handedOn : Option BodyMsg

/-- `secoc_app_verify_and_decode`, and `secoc_app_verify_telemetry`. -/
def verifyAndDecode
    (port : FreshnessStoreIf Store)
    (mac : SecocMac)
    (app : SecocApp)
    (f : CanRawFrame)
    (store : Store) :
    Handled Store :=
  match rxAuthentic port mac app f store with
  | (none, app, store, log) => ⟨app, store, log, none⟩
  | (some pdu, app, store, log) =>
      match bodyDecode f.id pdu with
      | none => ⟨{ app with dropDecode := app.dropDecode + 1 }, store, log, none⟩
      | some msg => ⟨app, store, log, some msg⟩

/-- `secoc_app_handle_sync`, and `secoc_app_handle_gw_sync`. -/
def handleSync
    (port : FreshnessStoreIf Store)
    (mac : SecocMac)
    (app : SecocApp)
    (f : CanRawFrame)
    (store : Store) :
    Except Fault (Handled Store) :=
  match rxAuthentic port mac app f store with
  | (none, app, store, log) => .ok ⟨app, store, log, none⟩
  | (some pdu, app, store, log) =>
      if pdu.length < 2 then
        .ok ⟨{ app with dropDecode := app.dropDecode + 1 }, store, log, none⟩
      else
        let floor := getU16le pdu
        match secocRxSyncAdopt port app.tx f.id.toUInt16 floor store with
        | .error fault => .error fault
        | .ok (_, tx, store, resync) =>
            .ok ⟨{ app with tx := tx }, store, log ++ resync, none⟩

/-- A frame that `secoc_secure` produces has its PDU's length and the trailer's. -/
theorem length_of_secocSecure
    {mac : SecocMac}
    {cy : SecocCrypto}
    {canId epoch counter : UInt16}
    {pdu frame : List UInt8}
    {cap : Nat}
    (secured : secocSecure mac cy canId epoch counter pdu cap = some frame) :
    frame.length = pdu.length + secocTrailerLen ∧ frame.length ≤ cap := by
  unfold secocSecure at secured
  split at secured
  next => cases secured
  next =>
    split at secured
    next => cases secured
    next room =>
      dsimp only at secured
      split at secured
      next => cases secured
      next =>
        cases secured
        simp only [List.length_append, length_freshnessField,
          List.length_take, Vector.length_toList, secocFreshnessLen,
          secocTrailerLen, secocMacLen] at *
        omega

/-- `build_secured`. -/
def buildSecured
    (port : FreshnessStoreIf Store)
    (mac : SecocMac)
    (app : SecocApp)
    (canId : UInt16)
    (pdu : List UInt8)
    (store : Store) :
    Option CanRawFrame × SecocApp × Store :=
  match secocTxNext port app.tx canId store with
  | (none, tx, store) => (none, { app with tx := tx }, store)
  | (some (epoch, counter), tx, store) =>
      let app := { app with tx := tx }
      match
        secured : secocSecure mac gCy canId epoch counter pdu canMaxDlen
      with
      | none => (none, app, store)
      | some data =>
          (some
            { id := canId.toUInt32
              flags := canFlagFdf
              data := data
              fits := (length_of_secocSecure secured).2 },
            app, store)

/-- `secoc_app_build_boot_sync`: the PDU is this receiver's floor. -/
def buildBootSync
    (config : AppConfig)
    (port : FreshnessStoreIf Store)
    (mac : SecocMac)
    (app : SecocApp)
    (store : Store) :
    Option CanRawFrame × SecocApp × Store :=
  buildSecured port mac app config.bootSyncId (putU16le app.gRx.floor) store

end Glue

/-!
## Node A, the gateway
-/

namespace NodeA

variable {Store : Type}

/-- `g_tx_ids`, `g_rx_ids` and the ID of `secoc_app_build_boot_sync`. -/
def config : AppConfig where
  txIds := [msgIdDoorCmd, msgIdLightCmd, msgIdGwFreshnessSync]
  rxIds := [msgIdSensorRpt, msgIdFreshnessSync]
  bootSyncId := msgIdGwFreshnessSync

/-- `secoc_app_verify_telemetry`. -/
def secocAppVerifyTelemetry
    (port : FreshnessStoreIf Store)
    (mac : SecocMac)
    (app : SecocApp)
    (f : CanRawFrame)
    (store : Store) :
    Handled Store :=
  verifyAndDecode port mac app f store

/-- `secoc_app_handle_sync`. -/
def secocAppHandleSync
    (port : FreshnessStoreIf Store)
    (mac : SecocMac)
    (app : SecocApp)
    (f : CanRawFrame)
    (store : Store) :
    Except Fault (Handled Store) :=
  handleSync port mac app f store

/-- `secoc_app_build_door_cmd`. -/
def secocAppBuildDoorCmd
    (port : FreshnessStoreIf Store)
    (mac : SecocMac)
    (app : SecocApp)
    (locked : Bool)
    (store : Store) :
    Option CanRawFrame × SecocApp × Store :=
  let cmd := if locked then DoorCmd.lock else DoorCmd.unlock
  buildSecured port mac app msgIdDoorCmd [cmd.toByte] store

/-- `secoc_app_build_light_cmd`. -/
def secocAppBuildLightCmd
    (port : FreshnessStoreIf Store)
    (mac : SecocMac)
    (app : SecocApp)
    (brightnessPct : UInt8)
    (store : Store) :
    Option CanRawFrame × SecocApp × Store :=
  match packLightCmd ⟨brightnessPct⟩ 1 with
  | none => (none, app, store)
  | some pdu => buildSecured port mac app msgIdLightCmd pdu store

/-- `secoc_app_build_boot_sync`. -/
def secocAppBuildBootSync
    (port : FreshnessStoreIf Store)
    (mac : SecocMac)
    (app : SecocApp)
    (store : Store) :
    Option CanRawFrame × SecocApp × Store :=
  buildBootSync config port mac app store

/-- The dispatch of `can_task` on a received frame. -/
def canTaskReceive
    (port : FreshnessStoreIf Store)
    (mac : SecocMac)
    (app : SecocApp)
    (frame : CanRawFrame)
    (store : Store) :
    Except Fault (Handled Store) :=
  if frame.id = msgIdSensorRpt.toUInt32 then
    .ok (secocAppVerifyTelemetry port mac app frame store)
  else if frame.id = msgIdFreshnessSync.toUInt32 then
    secocAppHandleSync port mac app frame store
  else
    .ok ⟨app, store, [], none⟩

end NodeA

/-!
## Node B, the actuator
-/

namespace NodeB

variable {Store : Type}

/-- `g_tx_ids`, `g_rx_ids` and the ID of `secoc_app_build_boot_sync`. -/
def config : AppConfig where
  txIds := [msgIdSensorRpt, msgIdFreshnessSync]
  rxIds := [msgIdDoorCmd, msgIdLightCmd, msgIdGwFreshnessSync]
  bootSyncId := msgIdFreshnessSync

/-- `secoc_app_verify_and_decode`. -/
def secocAppVerifyAndDecode
    (port : FreshnessStoreIf Store)
    (mac : SecocMac)
    (app : SecocApp)
    (f : CanRawFrame)
    (store : Store) :
    Handled Store :=
  verifyAndDecode port mac app f store

/-- `secoc_app_handle_gw_sync`. -/
def secocAppHandleGwSync
    (port : FreshnessStoreIf Store)
    (mac : SecocMac)
    (app : SecocApp)
    (f : CanRawFrame)
    (store : Store) :
    Except Fault (Handled Store) :=
  handleSync port mac app f store

/-- `secoc_app_build_telemetry`. -/
def secocAppBuildTelemetry
    (port : FreshnessStoreIf Store)
    (mac : SecocMac)
    (app : SecocApp)
    (rpt : SensorReportMsg)
    (store : Store) :
    Option CanRawFrame × SecocApp × Store :=
  match packSensorReport rpt 8 with
  | none => (none, app, store)
  | some pdu => buildSecured port mac app msgIdSensorRpt pdu store

/-- `secoc_app_build_boot_sync`. -/
def secocAppBuildBootSync
    (port : FreshnessStoreIf Store)
    (mac : SecocMac)
    (app : SecocApp)
    (store : Store) :
    Option CanRawFrame × SecocApp × Store :=
  buildBootSync config port mac app store

/-- The dispatch of `can_task` on a received frame. -/
def canTaskReceive
    (port : FreshnessStoreIf Store)
    (mac : SecocMac)
    (app : SecocApp)
    (frame : CanRawFrame)
    (store : Store) :
    Except Fault (Handled Store) :=
  if frame.id = msgIdDoorCmd.toUInt32 ∨ frame.id = msgIdLightCmd.toUInt32 then
    .ok (secocAppVerifyAndDecode port mac app frame store)
  else if frame.id = msgIdGwFreshnessSync.toUInt32 then
    secocAppHandleGwSync port mac app frame store
  else
    .ok ⟨app, store, [], none⟩

end NodeB

end TraveoBodyDomain
