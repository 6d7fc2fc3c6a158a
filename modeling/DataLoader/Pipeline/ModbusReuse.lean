import DataLoader.Effects.Lockstep
import DataLoader.Pipeline.LeaseProtocol
import DataLoader.Pipeline.ModbusSessions

/-!
# Pooled against open-per-run Modbus sources

`Read` addresses the unit and sets the encoding before every request
(`modbusProtocol`), so what an earlier run left in a client does not matter: a
run on a connection that is not broken goes as one on a fresh connection.
-/

namespace DataLoader

open Effects

/-! ## The calls of a Modbus read -/

/-- What a read has set in its client so far. -/
inductive ClientPhase
  | unset
  | addressed
  | ready

/-- Requests are made with the unit and the encoding set for them. -/
def modbusProtocol : Protocol modbusSig ClientPhase where
  allows q c :=
    match c with
    | .setEncoding .. => q = .addressed
    | .readCoil _ | .readDiscreteInput _ | .readRegisters .. => q = .ready
    | _ => True
  next q c _ :=
    match c with
    | .setUnitId _ => .addressed
    | .setEncoding .. => .ready
    | _ => q

namespace Modbus

/-- A driver call and what follows it. -/
theorem perform_follows {α : Type} {q : ClientPhase} {c : ModbusCall}
    {k : c.Ans → Prog (readSig modbusSig) α} {R : α → ClientPhase → Prop}
    (hc : modbusProtocol.allows q c)
    (hk : ∀ r, (readProtocol modbusProtocol).Follows (k r) R (modbusProtocol.next q c r)) :
    (readProtocol modbusProtocol).Follows (perform c >>= k) R q :=
  ⟨hc, hk⟩

variable [GoText] [GoLib] [GoFloat]

theorem readRegisters_follows (tag : ModbusPoint) :
    (readProtocol modbusProtocol).Follows (readRegisters tag) (fun _ _ => True) .ready := by
  unfold readRegisters
  refine perform_follows rfl fun res => ?_
  match res with
  | .error e => exact trivial
  | .ok regs =>
    dsimp only
    cases decodeRegisters tag regs with
    | error e => exact trivial
    | ok raw =>
      dsimp only
      split_ifs <;> exact trivial

theorem readTagInto_follows (tag : ModbusPoint) :
    (readProtocol modbusProtocol).Follows (readTagInto tag) (fun _ _ => True) .ready := by
  unfold readTagInto
  dsimp only
  split_ifs
  · refine perform_follows rfl fun res => ?_
    match res with
    | .error e => exact trivial
    | .ok b => exact trivial
  · refine perform_follows rfl fun res => ?_
    match res with
    | .error e => exact trivial
    | .ok b => exact trivial
  · exact readRegisters_follows tag
  · exact trivial

theorem readTag_follows (tag : ModbusPoint) (pollTS : Time) (q : ClientPhase) :
    (readProtocol modbusProtocol).Follows (readTag tag pollTS) (fun _ _ => True) q := by
  unfold readTag
  refine perform_follows trivial fun e => ?_
  match e with
  | some e => exact trivial
  | none =>
    refine perform_follows rfl fun e => ?_
    match e with
    | some e => exact trivial
    | none => exact (readTagInto_follows tag).seq fun _ _ _ => trivial

theorem readTags_follows (pollTS : Time) (tags : List ModbusPoint) (rows : List Row) (n : Int)
    (q : ClientPhase) :
    (readProtocol modbusProtocol).Follows (readTags pollTS tags rows n) (fun _ _ => True) q := by
  induction tags generalizing rows n q with
  | nil => exact trivial
  | cons tag tags ih => exact (readTag_follows tag pollTS q).seq fun _ q' _ => ih _ _ q'

/-- `Read` of the Modbus module makes no request before it has set its client. -/
theorem read_follows (catalogue : Bool) (load : LoadConfig) (q : ClientPhase) :
    (readProtocol modbusProtocol).Follows (read catalogue load) (fun _ _ => True) q := by
  unfold read
  split_ifs
  · exact trivial
  · refine ⟨trivial, fun tags => ?_⟩
    match tags with
    | .error e => exact trivial
    | .ok [] => exact trivial
    | .ok (tag :: tags) =>
      refine ⟨trivial, fun pollTS => ?_⟩
      refine (readTags_follows pollTS (tag :: tags) [] 0 q).seq fun _ _ _ => ?_
      exact ⟨trivial, fun _ => ⟨trivial, fun _ => trivial⟩⟩

end Modbus

/-! ## The steps of the pool -/

theorem PoolState.effect_slot (o : PoolOut) (id : Int) (s : PoolState) :
    PoolState.effect o (.slot id) s = some ((), { s with
      slots := if id ∈ s.slots then s.slots else s.slots ++ [id] }) := by
  have hpool : (if id ∈ s.slots then s else { s with slots := s.slots ++ [id] }) = { s with
      slots := if id ∈ s.slots then s.slots else s.slots ++ [id] } := by
    split_ifs <;> rfl
  exact congrArg (fun x : PoolState => some ((), x)) hpool

theorem PoolState.effect_lock {o : PoolOut} {id : Int} {s : PoolState} (h : s.locked id = false) :
    PoolState.effect o (.lock id) s =
      some ((), { s with locked := Function.update s.locked id true }) :=
  if_neg (by simp [h])

theorem PoolState.effect_unlock {o : PoolOut} {id : Int} {s : PoolState} (h : s.locked id = true) :
    PoolState.effect o (.unlock id) s =
      some ((), { s with locked := Function.update s.locked id false }) :=
  if_pos h

namespace ModbusPlant

open Prog

variable {s s' : ModbusPlant} {p : SourcePool} {cfg : SourceConfig} {t : Time} {n : ℕ} {id : Int}
  {fp : String}

theorem poolCall_of_effect {c : PoolCall} {r : c.Ans} {pool : PoolState}
    (hsrc : s.onSources c = s)
    (h : PoolState.effect (s.outcome c) c s.pool = some (r, pool)) :
    poolCall c s = some (r, { s with pool }) := by
  rw [poolCall, h, hsrc]
  rfl

theorem eval_step {α : Type} {c : PoolCall} {k : c.Ans → Prog poolSig α} {r : c.Ans}
    {res : Option (α × ModbusPlant)} (hc : poolCall c s = some (r, s'))
    (hk : (k r).eval poolCall s' = res) : (c.perform >>= k).eval poolCall s = res :=
  eval_call hc hk

/-- The plant after `closeEntry` on an entry that holds source `n`. -/
def emptied (s : ModbusPlant) (id : Int) (n : ℕ) : ModbusPlant :=
  { s with
    clients := Function.update s.clients n none
    pool := { s.pool with
      closed := Function.update s.pool.closed n (s.pool.closed n + 1)
      entry := Function.update s.pool.entry id { s.pool.entry id with src := none, fp := "" } } }

theorem src_emptied (s : ModbusPlant) (id : Int) (n : ℕ) :
    ((s.emptied id n).pool.entry id).src = none := by
  unfold emptied
  dsimp only
  rw [Function.update_self]

theorem closeEntry_eval (hsrc : (s.pool.entry id).src = some n) :
    (SourcePool.closeEntry id).eval poolCall s = some ((), s.emptied id n) := by
  unfold SourcePool.closeEntry
  refine eval_step (c := .read id) (r := s.pool.entry id) rfl ?_
  rw [hsrc]
  exact eval_step rfl (eval_call rfl rfl)

theorem evict_eval_of_keep
    (h : (s.pool.entry id).src = none ∨ p.reusable (s.pool.entry id) fp t = true) :
    (p.evict id fp t).eval poolCall s = some ((), s) := by
  unfold SourcePool.evict
  refine eval_step (c := .read id) (r := s.pool.entry id) rfl ?_
  have hno : ((s.pool.entry id).src.isSome && !p.reusable (s.pool.entry id) fp t) = false := by
    rcases h with h | h <;> simp [h]
  rw [hno]
  rfl

theorem evict_eval_of_close (hsrc : (s.pool.entry id).src = some n)
    (h : p.reusable (s.pool.entry id) fp t = false) :
    (p.evict id fp t).eval poolCall s = some ((), s.emptied id n) := by
  unfold SourcePool.evict
  refine eval_step (c := .read id) (r := s.pool.entry id) rfl ?_
  have hyes : ((s.pool.entry id).src.isSome && !p.reusable (s.pool.entry id) fp t) = true := by
    simp [h, hsrc]
  rw [if_pos hyes]
  exact closeEntry_eval hsrc

/-- The plant at time `t` when `Obtain` has its entry and the lock on it. -/
def entered (s : ModbusPlant) (id : Int) (t : Time) : ModbusPlant :=
  { s with
    pool := { s.pool with
      clock := t
      slots := if id ∈ s.pool.slots then s.pool.slots else s.pool.slots ++ [id]
      locked := Function.update s.pool.locked id true } }

theorem enter_eval (hun : s.pool.locked id = false) {α : Type} {k : Time → Prog poolSig α}
    {res : Option (α × ModbusPlant)} (hk : (k t).eval poolCall (s.entered id t) = res) :
    (do
      let () ← (PoolCall.slot id).perform
      let () ← (PoolCall.lock id).perform
      let now : Time ← PoolCall.now.perform
      k now).eval poolCall (s.clocked t) = res := by
  have hslot := poolCall_of_effect (s := s.clocked t) (c := .slot id) rfl
    (PoolState.effect_slot _ id (s.clocked t).pool)
  refine eval_step hslot ?_
  refine eval_step (poolCall_of_effect (c := .lock id) rfl (PoolState.effect_lock hun)) ?_
  exact eval_step (c := .now) (r := t) rfl hk

/-- What `Obtain` leaves alone until it has looked at the entry again, with the lock on it. -/
structure Prepared (id : Int) (s s' : ModbusPlant) : Prop where
  line : s'.line = s.line
  session : s'.session = s.session
  leases : s'.pool.leases = s.pool.leases
  released : s'.pool.released = s.pool.released
  nextSrc : s'.pool.nextSrc = s.pool.nextSrc
  locked : s'.pool.locked id = true

/-- Then the entry holds the source that is handed out again, if any. -/
theorem evict_eval (cfg : SourceConfig) (hs : s.session = .pooled p) (t : Time) :
    ∃ s', Prepared cfg.sourceID s s' ∧ (s'.pool.entry cfg.sourceID).src = s.retained cfg t ∧
      (s.retained cfg t ≠ none → s'.clients = s.clients) ∧
      (p.evict cfg.sourceID (p.fingerprint cfg.sourceType cfg.params) t).eval poolCall
        (s.entered cfg.sourceID t) = some ((), s') := by
  have hretained : s.retained cfg t =
      if p.reusable (s.pool.entry cfg.sourceID) (p.fingerprint cfg.sourceType cfg.params) t then
        (s.pool.entry cfg.sourceID).src else none := by
    rw [retained, hs]
  have hentered : Prepared cfg.sourceID s (s.entered cfg.sourceID t) :=
    ⟨rfl, rfl, rfl, rfl, rfl, Function.update_self ..⟩
  cases hsrc : (s.pool.entry cfg.sourceID).src with
  | none =>
    rw [hsrc, ite_self] at hretained
    exact ⟨_, hentered, by rw [hretained]; exact hsrc, fun _ => rfl, evict_eval_of_keep (.inl hsrc)⟩
  | some n =>
    cases hreuse : p.reusable (s.pool.entry cfg.sourceID)
        (p.fingerprint cfg.sourceType cfg.params) t with
    | true =>
      rw [if_pos hreuse] at hretained
      exact ⟨_, hentered, hretained.symm, fun _ => rfl, evict_eval_of_keep (.inr hreuse)⟩
    | false =>
      rw [if_neg (by simp [hreuse])] at hretained
      refine ⟨(s.entered cfg.sourceID t).emptied cfg.sourceID n, { hentered with }, ?_,
        fun h => absurd hretained h, evict_eval_of_close hsrc hreuse⟩
      rw [hretained, src_emptied]

/-! ## Obtaining a source -/

/-- The plant with a new lease on source `n`. -/
def joined (s : ModbusPlant) (id : Int) (n : ℕ) : ModbusPlant :=
  { s with pool := { s.pool with leases := s.pool.leases ++ [⟨s.pool.leases.length, id, n⟩] } }

/-- The plant with a source that has been built and not opened yet. -/
def built (s : ModbusPlant) (cfg : SourceConfig) : ModbusPlant :=
  { s with
    params := Function.update s.params s.pool.nextSrc cfg.params
    pool := { s.pool with nextSrc := s.pool.nextSrc + 1 } }

/-- The plant with a source that has been built and opened. -/
def connected (s : ModbusPlant) (cfg : SourceConfig) : ModbusPlant :=
  { s.built cfg with clients := Function.update s.clients s.pool.nextSrc (some {}) }

/-- The plant after a source has been built, has not opened and has been closed. -/
def refused (s : ModbusPlant) (cfg : SourceConfig) : ModbusPlant :=
  { s.built cfg with
    clients := Function.update s.clients s.pool.nextSrc none
    pool := { s.pool with
      nextSrc := s.pool.nextSrc + 1
      closed := Function.update s.pool.closed s.pool.nextSrc (s.pool.closed s.pool.nextSrc + 1) } }

/-- `Open` succeeds or it fails with a text. -/
theorem openOutcome_cases (line : ModbusLine) (params : Params) :
    openOutcome line params = .ok ∨ ∃ e, openOutcome line params = .fail e := by
  unfold openOutcome
  split_ifs
  · exact .inr ⟨_, rfl⟩
  · exact .inl rfl
  · exact .inr ⟨_, rfl⟩

theorem params_built (s : ModbusPlant) (cfg : SourceConfig) :
    (s.built cfg).params s.pool.nextSrc = cfg.params :=
  Function.update_self ..

theorem openSrc_of_ok (hopen : openOutcome s.line cfg.params = .ok) :
    poolCall (.openSrc s.pool.nextSrc) (s.built cfg) = some (none, s.connected cfg) := by
  have h : openOutcome (s.built cfg).line ((s.built cfg).params s.pool.nextSrc) = .ok := by
    rw [params_built]
    exact hopen
  simp only [poolCall, PoolState.effect, outcome, onSources, h, PoolOut.err, if_true]
  rfl

theorem openSrc_of_fail {e : Err} (hopen : openOutcome s.line cfg.params = .fail e) :
    poolCall (.openSrc s.pool.nextSrc) (s.built cfg) = some (some e, s.built cfg) := by
  have h : openOutcome (s.built cfg).line ((s.built cfg).params s.pool.nextSrc) = .fail e := by
    rw [params_built]
    exact hopen
  simp only [poolCall, PoolState.effect, outcome, onSources, h, PoolOut.err, reduceCtorEq, if_false]
  rfl

/-- What a lease on source `n` that is granted in state `s` leaves alone. -/
structure Granted (s s' : ModbusPlant) (id : Int) (n : ℕ) : Prop where
  line : s'.line = s.line
  session : s'.session = s.session
  leases : s'.pool.leases = s.pool.leases ++ [⟨s.pool.leases.length, id, n⟩]
  released : s'.pool.released = s.pool.released

/-- A source that can be used again is handed out as it is. -/
theorem obtain_of_retained (hs : s.session = .pooled p)
    (hun : s.pool.locked cfg.sourceID = false) (hn : s.retained cfg t = some n) :
    ∃ s', s.obtain cfg t = (.ok s.pool.leases.length, s') ∧ Granted s s' cfg.sourceID n ∧
      s'.pool.locked cfg.sourceID = true ∧ s'.clients = s.clients ∧
      (s'.pool.entry cfg.sourceID).src = some n := by
  obtain ⟨s₁, hprep, hentry, hclients, hevict⟩ := evict_eval cfg hs t
  rw [hn] at hentry hclients
  have heval : (p.obtain cfg).eval poolCall (s.clocked t) =
      some (.ok ⟨s₁.pool.leases.length, cfg.sourceID, n⟩, s₁.joined cfg.sourceID n) := by
    unfold SourcePool.obtain
    refine enter_eval hun (eval_bind hevict ?_)
    refine eval_step (c := .read cfg.sourceID) (r := s₁.pool.entry cfg.sourceID) rfl ?_
    rw [hentry]
    exact eval_step rfl rfl
  refine ⟨s₁.joined cfg.sourceID n, ?_, ⟨hprep.line, hprep.session, ?_, hprep.released⟩,
    hprep.locked, hclients (by simp), hentry⟩
  · rw [obtain, hs, SourceSession.obtain, heval, ← hprep.leases]
    rfl
  · rw [joined, hprep.leases]

/-- Otherwise a new source is built and opened. -/
theorem obtain_of_open (hs : s.session = .pooled p)
    (hun : s.pool.locked cfg.sourceID = false) (hn : s.retained cfg t = none)
    (hopen : openOutcome s.line cfg.params = .ok) :
    ∃ s', s.obtain cfg t = (.ok s.pool.leases.length, s') ∧
      Granted s s' cfg.sourceID s.pool.nextSrc ∧ s'.pool.locked cfg.sourceID = true ∧
      s'.clients s.pool.nextSrc = some {} ∧
      (s'.pool.entry cfg.sourceID).src = some s.pool.nextSrc := by
  obtain ⟨s₁, hprep, hentry, -, hevict⟩ := evict_eval cfg hs t
  rw [hn] at hentry
  rw [← hprep.line] at hopen
  let s₂ : ModbusPlant := { s₁.connected cfg with pool := { (s₁.connected cfg).pool with
    entry := Function.update s₁.pool.entry cfg.sourceID
      ⟨some s₁.pool.nextSrc, p.fingerprint cfg.sourceType cfg.params, t, t⟩ } }
  have hnew : (SourcePool.openEntry cfg (p.fingerprint cfg.sourceType cfg.params) t).eval
      poolCall s₁ = some (.ok s₁.pool.nextSrc, s₂) := by
    unfold SourcePool.openEntry
    refine eval_step (c := .build cfg) (r := .ok s₁.pool.nextSrc) rfl ?_
    refine eval_step (c := .openSrc s₁.pool.nextSrc) (openSrc_of_ok hopen) ?_
    exact eval_step rfl rfl
  have heval : (p.obtain cfg).eval poolCall (s.clocked t) =
      some (.ok ⟨s₁.pool.leases.length, cfg.sourceID, s₁.pool.nextSrc⟩,
        s₂.joined cfg.sourceID s₁.pool.nextSrc) := by
    unfold SourcePool.obtain
    refine enter_eval hun (eval_bind hevict ?_)
    refine eval_step (c := .read cfg.sourceID) (r := s₁.pool.entry cfg.sourceID) rfl ?_
    rw [hentry]
    exact eval_bind hnew (eval_step rfl rfl)
  refine ⟨s₂.joined cfg.sourceID s₁.pool.nextSrc, ?_, ⟨hprep.line, hprep.session, ?_,
    hprep.released⟩, hprep.locked, ?_, ?_⟩
  · rw [obtain, hs, SourceSession.obtain, heval, ← hprep.leases]
    rfl
  · rw [← hprep.leases, ← hprep.nextSrc]
    rfl
  · rw [← hprep.nextSrc]
    exact Function.update_self ..
  · rw [← hprep.nextSrc]
    exact congrArg PoolEntry.src (Function.update_self cfg.sourceID _ s₁.pool.entry)

/-- A source that cannot be opened is closed again and the lock is given back. -/
theorem obtain_of_fail {e : Err} (hs : s.session = .pooled p)
    (hun : s.pool.locked cfg.sourceID = false) (hn : s.retained cfg t = none)
    (hopen : openOutcome s.line cfg.params = .fail e) :
    ∃ s', s.obtain cfg t = (.error e, s') ∧ s'.line = s.line ∧ s'.session = s.session ∧
      s'.pool.leases = s.pool.leases ∧ s'.pool.released = s.pool.released ∧
      (s'.pool.entry cfg.sourceID).src = none ∧ s'.pool.locked cfg.sourceID = false := by
  obtain ⟨s₁, hprep, hentry, -, hevict⟩ := evict_eval cfg hs t
  rw [hn] at hentry
  rw [← hprep.line] at hopen
  let s₂ : ModbusPlant := { s₁.refused cfg with pool := { (s₁.refused cfg).pool with
    locked := Function.update s₁.pool.locked cfg.sourceID false } }
  have heval : (p.obtain cfg).eval poolCall (s.clocked t) = some (.error e, s₂) := by
    unfold SourcePool.obtain
    refine enter_eval hun (eval_bind hevict ?_)
    refine eval_step (c := .read cfg.sourceID) (r := s₁.pool.entry cfg.sourceID) rfl ?_
    rw [hentry]
    refine eval_bind (a := .error e) ?_ rfl
    unfold SourcePool.openEntry
    refine eval_step (c := .build cfg) (r := .ok s₁.pool.nextSrc) rfl ?_
    refine eval_step (c := .openSrc s₁.pool.nextSrc) (openSrc_of_fail hopen) ?_
    have hunlock : poolCall (.unlock cfg.sourceID) (s₁.refused cfg) = some ((), s₂) :=
      poolCall_of_effect rfl (PoolState.effect_unlock hprep.locked)
    exact eval_step rfl (eval_step hunlock rfl)
  refine ⟨s₂, ?_, hprep.line, hprep.session, hprep.leases, hprep.released, hentry,
    Function.update_self ..⟩
  rw [obtain, hs, SourceSession.obtain, heval]
  rfl

/-! ## Open-per-run sources -/

theorem perRun_obtain_of_open (hs : s.session = .ephemeral)
    (hopen : openOutcome s.line cfg.params = .ok) :
    ∃ s', s.obtain cfg t = (.ok s.pool.leases.length, s') ∧
      Granted s s' cfg.sourceID s.pool.nextSrc ∧ s'.clients s.pool.nextSrc = some {} := by
  have heval : (Ephemeral.obtain cfg).eval poolCall (s.clocked t) =
      some (.ok ⟨s.pool.leases.length, cfg.sourceID, s.pool.nextSrc⟩,
        ((s.clocked t).connected cfg).joined cfg.sourceID s.pool.nextSrc) := by
    unfold Ephemeral.obtain
    refine eval_step (c := .build cfg) (r := .ok s.pool.nextSrc) rfl ?_
    refine eval_step (c := .openSrc s.pool.nextSrc)
      (openSrc_of_ok (s := s.clocked t) hopen) ?_
    exact eval_step rfl rfl
  refine ⟨((s.clocked t).connected cfg).joined cfg.sourceID s.pool.nextSrc, ?_,
    ⟨rfl, rfl, rfl, rfl⟩, Function.update_self ..⟩
  rw [obtain, hs, SourceSession.obtain, heval]
  rfl

theorem perRun_obtain_of_fail {e : Err} (hs : s.session = .ephemeral)
    (hopen : openOutcome s.line cfg.params = .fail e) :
    s.obtain cfg t = (.error e, (s.clocked t).refused cfg) := by
  have heval : (Ephemeral.obtain cfg).eval poolCall (s.clocked t) =
      some (.error e, (s.clocked t).refused cfg) := by
    unfold Ephemeral.obtain
    refine eval_step (c := .build cfg) (r := .ok s.pool.nextSrc) rfl ?_
    refine eval_step (c := .openSrc s.pool.nextSrc)
      (openSrc_of_fail (s := s.clocked t) hopen) ?_
    exact eval_step rfl rfl
  rw [obtain, hs, SourceSession.obtain, heval]
  rfl

end ModbusPlant

end DataLoader
