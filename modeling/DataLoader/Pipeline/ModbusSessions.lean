import DataLoader.Pipeline.Pool
import DataLoader.Sources.ModbusCodec

/-!
# Sessions with a Modbus device

The source side of a Modbus load: the device and its outages, the clients that
the sources hold, and the session of the runner, pooled or ephemeral
(`modbusSide`). Runs are one after another here, so `Obtain` and the release
function run alone.

Of the Modbus client it is assumed that a request on a broken connection, or to a
device that cannot be reached, fails, and that any other request is answered by
the device. `Open` succeeds when the device can be reached and gives a connection
that is not broken. `NewClient` accepts every URL of the scheme `tcp`.
-/

namespace DataLoader

open Effects

/-- What the device answers to the requests of a unit. -/
structure ModbusDevice where
  coil : UInt8 → UInt16 → Except Err Bool
  discreteInput : UInt8 → UInt16 → Except Err Bool
  registers : UInt8 → RegType → UInt16 → UInt16 → Except Err (List UInt8)

/-- What lies outside the process: the device, whether it can be reached, the
    error of a request that does not get through, and the tags of each load. -/
structure ModbusLine where
  device : ModbusDevice
  reachable : Bool
  linkError : Err
  tags : Int → List ModbusPoint

/-- The source side: the line, the runner's session and the sources it has built,
    with the parameters and the open client of each. -/
structure ModbusPlant where
  line : ModbusLine
  session : SourceSession
  pool : PoolState := {}
  params : ℕ → Params := fun _ => []
  clients : ℕ → Option ModbusClient := fun _ => none

/-- What happens to the device: it can no longer be reached, with or without the
    loss of the open connections; it can be reached again; its values change. And what
    happens to the tags of the loads: they are edited. -/
inductive ModbusChange
  | outage (drops : Bool)
  | recover
  | update (device : ModbusDevice)
  | retag (tags : Int → List ModbusPoint)

namespace ModbusPlant

/-- The steps of the line. -/
def change : ModbusChange → ModbusPlant → ModbusPlant
  | .outage drops, s =>
    { s with
      line := { s.line with reachable := false }
      clients := fun n => (s.clients n).map fun c => { c with broken := c.broken || drops } }
  | .recover, s => { s with line := { s.line with reachable := true } }
  | .update device, s => { s with line := { s.line with device } }
  | .retag tags, s => { s with line := { s.line with tags } }

/-! ## Open and close -/

/-- `s.cfg.Params["host"]` (source.go, line 40). -/
def host (params : Params) : String := (params.lookup "host").getD ""

/-- How `Open` of a source ends (lines 39–67). -/
def openOutcome (line : ModbusLine) (params : Params) : PoolOut :=
  if host params = "" then .fail "modbus source requires 'host' param"
  else if line.reachable then .ok
  else .fail ("open modbus client: " ++ line.linkError)

/-- How a step of the session ends. `New` does not fail. -/
def outcome (s : ModbusPlant) : PoolCall → PoolOut
  | .openSrc n => openOutcome s.line (s.params n)
  | _ => .ok

/-- What a step of the session does to the sources. -/
def onSources (s : ModbusPlant) : PoolCall → ModbusPlant
  | .build cfg => { s with params := Function.update s.params s.pool.nextSrc cfg.params }
  | .openSrc n =>
    if (openOutcome s.line (s.params n)).err = none then
      { s with clients := Function.update s.clients n (some {}) }
    else s
  | .closeSrc n => { s with clients := Function.update s.clients n none }
  | _ => s

/-- One step of the session. -/
def poolCall (c : PoolCall) (s : ModbusPlant) : Option (c.Ans × ModbusPlant) :=
  (PoolState.effect (s.outcome c) c s.pool).map fun rp => (rp.1, { s.onSources c with pool := rp.2 })

/-- The plant at time `t`. -/
def clocked (s : ModbusPlant) (t : Time) : ModbusPlant :=
  { s with pool := { s.pool with clock := t } }

/-- `Obtain` of the session. A lock that is held would be waited for; a run that
    starts when the last one has ended finds none (`Idle.obtain`). -/
def obtain (cfg : SourceConfig) (t : Time) (s : ModbusPlant) : Except Err ℕ × ModbusPlant :=
  match (s.session.obtain cfg).eval poolCall (s.clocked t) with
  | some (res, s') => (res.map (·.num), s')
  | none => (.error "waiting for the source", s)

/-- The release function of a lease. -/
def release (l : ℕ) (invalidate : Bool) (t : Time) (s : ModbusPlant) : ModbusPlant :=
  match s.pool.leases[l]? with
  | none => s
  | some lease =>
    match (s.session.release lease invalidate).eval poolCall (s.clocked t) with
    | some (_, s') => s'
    | none => s

/-! ## Driver calls -/

/-- A request to the device. -/
def request {β : Type} (line : ModbusLine) (c : ModbusClient) (answer : Except Err β) :
    Except Err β :=
  if c.broken || !line.reachable then .error line.linkError else answer

/-- One driver call with the client that the source holds. -/
def driverCall (line : ModbusLine) (o : Outcome) (t : Time) :
    (c : ModbusCall) → ModbusClient → c.Ans × ModbusClient
  | .listModbusTags loadID, client =>
    (match o with
      | .ok => .ok (line.tags loadID)
      | .fail msg _ => .error msg, client)
  | .now, client => (t, client)
  | .setUnitId id, client => (none, { client with unit := id })
  | .setEncoding e w, client => (none, client.setEncoding e w)
  | .readCoil addr, client => (request line client (line.device.coil client.unit addr), client)
  | .readDiscreteInput addr, client =>
    (request line client (line.device.discreteInput client.unit addr), client)
  | .readRegisters addr quantity type, client =>
    (request line client
      ((line.device.registers client.unit type addr quantity).map client.registers), client)
  | .observeBadQuality .., client => ((), client)

/-- One driver call on a lease. A lease that has not been released has an open
    client (`Leased.client`). -/
def answer (l : ℕ) (c : ModbusCall) (o : Outcome) (t : Time) (s : ModbusPlant) :
    c.Ans × ModbusPlant :=
  match s.pool.leases[l]? with
  | none => ((driverCall s.line o t c {}).1, s)
  | some lease =>
    let (r, client) := driverCall s.line o t c ((s.clients lease.src).getD {})
    (r, { s with clients := Function.update s.clients lease.src (some client) })

/-! ## The connection that a run is given -/

/-- The source that `Obtain` hands out again, if any. -/
def retained (s : ModbusPlant) (cfg : SourceConfig) (now : Time) : Option ℕ :=
  match s.session with
  | .ephemeral => none
  | .pooled p =>
    let ent := s.pool.entry cfg.sourceID
    if p.reusable ent (p.fingerprint cfg.sourceType cfg.params) now then ent.src else none

/-- The device can be reached, and a connection that is handed out again is not
    broken. -/
def sound (s : ModbusPlant) (cfg : SourceConfig) (now : Time) : Bool :=
  s.line.reachable &&
    (s.retained cfg now).all fun n => (s.clients n).all fun c => !c.broken

/-- The same plant with open-per-run sessions. -/
def perRun (s : ModbusPlant) : ModbusPlant := { s with session := .ephemeral }

end ModbusPlant

/-- The source side of a Modbus load. -/
def modbusSide : SourceSide modbusSig where
  State := ModbusPlant
  Change := ModbusChange
  change c s := some (s.change c)
  obtain cfg _ t s := s.obtain cfg t
  release l invalidate t s := s.release l invalidate t
  answer l c o t s := s.answer l c o t

/-- A step of a run that obtains a sound connection. -/
def soundStep (c : SysCall modbusSig) (w : World modbusSide) : Bool :=
  match c with
  | .obtain cfg => ModbusPlant.sound w.src cfg w.clock
  | _ => true

/-- The system with open-per-run sessions instead. -/
def World.perRun (w : World modbusSide) : World modbusSide :=
  { w with src := ModbusPlant.perRun w.src }

end DataLoader
