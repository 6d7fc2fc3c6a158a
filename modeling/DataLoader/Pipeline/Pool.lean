import DataLoader.Contracts
import DataLoader.Effects.Prog
import Mathlib.Logic.Function.Basic

/-!
# The source pool

Model of `internal/pipeline/pool.go` and `session.go`. Each function is a program
over the steps that other callers can come in between: the section under the
pool's own lock, locking and unlocking an entry, each access to the fields of an
entry, each call on a source, and each access to the flag `released` of a lease
(`PoolCall`). A source is known by its number in the order of building, an entry
by its source id, since entries are never removed from the map.
-/

namespace DataLoader

open Effects

/-- `poolEntry` (pool.go, lines 24–30) without its mutex. `src = none` is nil. -/
structure PoolEntry where
  src : Option ℕ := none
  fp : String := ""
  openedAt : Time := 0
  lastUsed : Time := 0
  deriving DecidableEq, Repr

/-- What the release function of an `Obtain` captures: its own flag `released`
    by number, the entry and the source. -/
structure Lease where
  num : ℕ
  id : Int
  src : ℕ
  deriving DecidableEq, Repr

/-- The steps of the pool. -/
inductive PoolCall
  /-- Under `p.mu`: make an entry for the id if there is none. -/
  | slot (id : Int)
  /-- Under `p.mu`: whether the id has an entry. -/
  | find (id : Int)
  /-- Under `p.mu`: the ids that have entries, in the order of the map. -/
  | slots
  | lock (id : Int)
  | unlock (id : Int)
  | read (id : Int)
  | write (id : Int) (ent : PoolEntry)
  | now
  | build (cfg : SourceConfig)
  | openSrc (src : ℕ)
  | closeSrc (src : ℕ)
  | ping (src : ℕ)
  /-- A new variable `released := false`. -/
  | newLease (id : Int) (src : ℕ)
  | released (l : Lease)
  | setReleased (l : Lease)

/-- The results of these steps. The error of `Close` is dropped everywhere. -/
def PoolCall.Ans : PoolCall → Type
  | .slot _ | .lock _ | .unlock _ | .write .. | .closeSrc _ | .setReleased _ => Unit
  | .find _ | .released _ => Bool
  | .slots => List Int
  | .read _ => PoolEntry
  | .now => Time
  | .build _ => Except Err ℕ
  | .openSrc _ | .ping _ => Option Err
  | .newLease .. => Lease

/-- The signature of the pool. -/
def poolSig : Sig := ⟨PoolCall, PoolCall.Ans⟩

/-- One step as a program. -/
def PoolCall.perform (c : PoolCall) : Prog poolSig c.Ans := Prog.perform (S := poolSig) c

/-- The configuration of a `SourcePool` (lines 15–19 and 33–36), with
    `ParamsFingerprint`, a digest of kind and parameters. -/
structure SourcePool where
  idle : Int
  maxAge : Int
  fingerprint : String → Params → String

namespace SourcePool

/-- Model of `NewSourcePool` (lines 39–57): an idle timeout of five minutes
    unless one is given. -/
def new (idleTimeout maxAge : Int) (fingerprint : String → Params → String) : SourcePool :=
  { idle := if idleTimeout ≤ 0 then 5 * 60 * 1000000000 else idleTimeout, maxAge, fingerprint }

variable (p : SourcePool)

/-- Model of `reusable` (lines 120–131). -/
def reusable (ent : PoolEntry) (fp : String) (now : Time) : Bool :=
  if ent.fp ≠ fp then false
  else if p.idle > 0 ∧ now - ent.lastUsed > p.idle then false
  else if p.maxAge > 0 ∧ now - ent.openedAt > p.maxAge then false
  else true

/-- Model of `closeEntry` (lines 133–140). -/
def closeEntry (id : Int) : Prog poolSig Unit := do
  let ent : PoolEntry ← (PoolCall.read id).perform
  match ent.src with
  | none => return ()
  | some src =>
    let () ← (PoolCall.closeSrc src).perform
    (PoolCall.write id { ent with src := none, fp := "" }).perform

/-- The entry's source is dropped if it cannot be reused (lines 71–74). -/
def evict (id : Int) (fp : String) (now : Time) : Prog poolSig Unit := do
  let ent : PoolEntry ← (PoolCall.read id).perform
  if ent.src.isSome && !p.reusable ent fp now then closeEntry id
  else return ()

/-- Build and open a source for an empty entry (lines 76–96). Both error returns
    unlock the entry. -/
def openEntry (cfg : SourceConfig) (fp : String) (now : Time) : Prog poolSig (Except Err ℕ) := do
  match ← (PoolCall.build cfg).perform with
  | (.error e : Except Err ℕ) =>
    let () ← (PoolCall.unlock cfg.sourceID).perform
    return .error e
  | .ok src =>
    match ← (PoolCall.openSrc src).perform with
    | (some e : Option Err) =>
      let () ← (PoolCall.closeSrc src).perform
      let () ← (PoolCall.unlock cfg.sourceID).perform
      return .error e
    | none =>
      let () ← (PoolCall.write cfg.sourceID ⟨some src, fp, now, now⟩).perform
      return .ok src

/-- Model of `Obtain` (lines 59–118). The lease stands for the source and the
    release function that are returned. -/
def obtain (cfg : SourceConfig) : Prog poolSig (Except Err Lease) := do
  let fp := p.fingerprint cfg.sourceType cfg.params
  let () ← (PoolCall.slot cfg.sourceID).perform
  let () ← (PoolCall.lock cfg.sourceID).perform
  let now : Time ← PoolCall.now.perform
  p.evict cfg.sourceID fp now
  let ent : PoolEntry ← (PoolCall.read cfg.sourceID).perform
  match ent.src with
  | some src => return .ok (← (PoolCall.newLease cfg.sourceID src).perform)
  | none =>
    match ← openEntry cfg fp now with
    | .error e => return .error e
    | .ok src => return .ok (← (PoolCall.newLease cfg.sourceID src).perform)

/-- Model of the release function (lines 101–116). -/
def release (l : Lease) (invalidate : Bool) : Prog poolSig Unit := do
  match ← (PoolCall.released l).perform with
  | (true : Bool) => return ()
  | false =>
    let () ← (PoolCall.setReleased l).perform
    if invalidate then closeEntry l.id
    else
      let now : Time ← PoolCall.now.perform
      let ent : PoolEntry ← (PoolCall.read l.id).perform
      (PoolCall.write l.id { ent with lastUsed := now }).perform
    (PoolCall.unlock l.id).perform

/-- Model of `Invalidate` (lines 143–153). -/
def invalidate (id : Int) : Prog poolSig Unit := do
  match ← (PoolCall.find id).perform with
  | (false : Bool) => return ()
  | true =>
    let () ← (PoolCall.lock id).perform
    closeEntry id
    (PoolCall.unlock id).perform

/-- The loop of `InvalidateAll` (lines 163–165). -/
def invalidateEach : List Int → Prog poolSig Unit
  | [] => return ()
  | id :: ids => do
    invalidate id
    invalidateEach ids

/-- Model of `InvalidateAll` (lines 156–166); `Close` is the same. -/
def invalidateAll : Prog poolSig Unit := do
  invalidateEach (← PoolCall.slots.perform)

/-- The loop of `PingAll` (lines 185–195). -/
def pingEach : List Int → Prog poolSig (Option Err)
  | [] => return none
  | id :: ids => do
    let () ← (PoolCall.lock id).perform
    let ent : PoolEntry ← (PoolCall.read id).perform
    let err : Option Err ←
      match ent.src with
      | none => pure none
      | some src => (PoolCall.ping src).perform
    let () ← (PoolCall.unlock id).perform
    match err with
    | some e => return some ("source_id " ++ toString id ++ ": " ++ e)
    | none => pingEach ids

/-- Model of `PingAll` (lines 175–197). -/
def pingAll : Prog poolSig (Option Err) := do
  pingEach (← PoolCall.slots.perform)

end SourcePool

/-! ## The sessions -/

namespace Ephemeral

/-- Model of `Ephemeral.Obtain` (session.go, lines 38–52). -/
def obtain (cfg : SourceConfig) : Prog poolSig (Except Err Lease) := do
  match ← (PoolCall.build cfg).perform with
  | (.error e : Except Err ℕ) => return .error e
  | .ok src =>
    match ← (PoolCall.openSrc src).perform with
    | (some e : Option Err) =>
      let () ← (PoolCall.closeSrc src).perform
      return .error e
    | none => return .ok (← (PoolCall.newLease cfg.sourceID src).perform)

/-- Model of its release function (lines 48–50), which ignores the flag. -/
def release (l : Lease) (_invalidate : Bool) : Prog poolSig Unit :=
  (PoolCall.closeSrc l.src).perform

end Ephemeral

/-- The two implementations of `SourceSession`. -/
inductive SourceSession
  | ephemeral
  | pooled (p : SourcePool)

namespace SourceSession

/-- `Obtain` of the session. -/
def obtain : SourceSession → SourceConfig → Prog poolSig (Except Err Lease)
  | .ephemeral, cfg => Ephemeral.obtain cfg
  | .pooled p, cfg => p.obtain cfg

/-- The release function that its `Obtain` returned. -/
def release : SourceSession → Lease → Bool → Prog poolSig Unit
  | .ephemeral, l, invalidate => Ephemeral.release l invalidate
  | .pooled _, l, invalidate => SourcePool.release l invalidate

end SourceSession

/-! ## The state of the pool -/

/-- The pool, the sources that have been built and the leases that have been
    granted. An id without an entry reads as an empty one. -/
structure PoolState where
  slots : List Int := []
  locked : Int → Bool := fun _ => false
  entry : Int → PoolEntry := fun _ => {}
  nextSrc : ℕ := 0
  /-- How often `Close` has been called on a source. -/
  closed : ℕ → ℕ := fun _ => 0
  /-- The leases that have been granted, by number. -/
  leases : List Lease := []
  released : ℕ → Bool := fun _ => false
  clock : Time := 0

/-- How a step that can go more than one way goes. -/
inductive PoolOut
  | ok
  | fail (e : Err)
  | order (ids : List Int)

/-- The error of a call on a source. -/
def PoolOut.err : PoolOut → Option Err
  | .fail e => some e
  | _ => none

namespace PoolState

/-- One step of a caller, `none` while it has to wait or if it is a fault. -/
def effect (o : PoolOut) : (c : PoolCall) → PoolState → Option (c.Ans × PoolState)
  | .slot id, s => some ((), if id ∈ s.slots then s else { s with slots := s.slots ++ [id] })
  | .find id, s => some (decide (id ∈ s.slots), s)
  | .slots, s =>
    match o with
    | .order ids => if ids.isPerm s.slots then some (ids, s) else none
    | _ => none
  | .lock id, s =>
    if s.locked id then none
    else some ((), { s with locked := Function.update s.locked id true })
  | .unlock id, s =>
    -- Go aborts the process when an unlocked mutex is unlocked
    if s.locked id then some ((), { s with locked := Function.update s.locked id false }) else none
  | .read id, s => some (s.entry id, s)
  | .write id ent, s => some ((), { s with entry := Function.update s.entry id ent })
  | .now, s => some (s.clock, s)
  | .build _, s =>
    match o with
    | .fail e => some (.error e, s)
    | _ => some (.ok s.nextSrc, { s with nextSrc := s.nextSrc + 1 })
  | .openSrc _, s => some (o.err, s)
  | .closeSrc src, s =>
    some ((), { s with closed := Function.update s.closed src (s.closed src + 1) })
  | .ping _, s => some (o.err, s)
  | .newLease id src, s =>
    some (⟨s.leases.length, id, src⟩,
      { s with leases := s.leases ++ [⟨s.leases.length, id, src⟩] })
  | .released l, s => some (s.released l.num, s)
  | .setReleased l, s => some ((), { s with released := Function.update s.released l.num true })

end PoolState

end DataLoader
