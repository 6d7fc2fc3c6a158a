import DataLoader.Pipeline.ModbusReuse
import DataLoader.Sink.Spec

/-!
# Pooled runs that agree with open-per-run

`Idle` and `Leased` are what holds of the pool before, between and during the
runs on one source. From an idle plant a run that obtains a sound connection goes
in lockstep with the same run on a fresh connection.
-/

namespace DataLoader

open Effects

/-- Whether a step of the device breaks the open connections. -/
def ModbusChange.drops : ModbusChange → Bool
  | .outage drops => drops
  | _ => false

namespace ModbusPlant

open Prog

variable {s s' u : ModbusPlant} {p : SourcePool} {cfg : SourceConfig} {t : Time} {l n : ℕ}

/-! ## The invariant of the runs on one source -/

/-- No run holds the source `cfg`. -/
structure Idle (p : SourcePool) (cfg : SourceConfig) (s : ModbusPlant) : Prop where
  session : s.session = .pooled p
  unlocked : s.pool.locked cfg.sourceID = false
  opened : ∀ n, (s.pool.entry cfg.sourceID).src = some n →
    s.clients n ≠ none ∧ host cfg.params ≠ ""
  unreleased : ∀ k, s.pool.leases.length ≤ k → s.pool.released k = false

/-- A run holds the source `cfg`, under lease `l` on source `n`. -/
structure Leased (p : SourcePool) (cfg : SourceConfig) (l n : ℕ) (s : ModbusPlant) : Prop where
  session : s.session = .pooled p
  lease : s.pool.leases[l]? = some ⟨l, cfg.sourceID, n⟩
  locked : s.pool.locked cfg.sourceID = true
  entry : (s.pool.entry cfg.sourceID).src = some n
  client : s.clients n ≠ none
  host : host cfg.params ≠ ""
  held : s.pool.released l = false
  unreleased : ∀ k, s.pool.leases.length ≤ k → s.pool.released k = false

theorem Granted.lease (h : Granted s s' cfg.sourceID n) :
    s'.pool.leases[s.pool.leases.length]? = some ⟨s.pool.leases.length, cfg.sourceID, n⟩ := by
  rw [h.leases]
  exact List.getElem?_concat_length

/-- A lease that is granted to an idle source. -/
theorem Idle.granted (h : Idle p cfg s) (hg : Granted s s' cfg.sourceID n)
    (hlocked : s'.pool.locked cfg.sourceID = true) (hentry : (s'.pool.entry cfg.sourceID).src = some n) (hclient : s'.clients n ≠ none)
    (hhost : host cfg.params ≠ "") : Leased p cfg s.pool.leases.length n s' where
  session := hg.session.trans h.session
  lease := hg.lease
  locked := hlocked
  entry := hentry
  client := hclient
  host := hhost
  held := by
    rw [hg.released]
    exact h.unreleased _ le_rfl
  unreleased := by
    intro k hk
    rw [hg.leases, List.length_append] at hk
    rw [hg.released]
    exact h.unreleased k (by omega)

theorem host_of_open {line : ModbusLine} {params : Params}
    (h : openOutcome line params = .ok) : ModbusPlant.host params ≠ "" := by
  intro hhost
  rw [openOutcome, if_pos hhost] at h
  cases h

/-- The source that is handed out again is the one in the entry. -/
theorem Idle.entry_of_retained (h : Idle p cfg s) (hn : s.retained cfg t = some n) :
    (s.pool.entry cfg.sourceID).src = some n := by
  rw [retained, h.session] at hn
  dsimp only at hn
  split_ifs at hn
  exact hn

/-- `Obtain` on an idle source: the retained source, a new one, or an error. -/
inductive Obtained (p : SourcePool) (cfg : SourceConfig) (t : Time) (s : ModbusPlant) : Prop
  | again (n : ℕ) (s' : ModbusPlant) (hn : s.retained cfg t = some n)
      (hobtain : s.obtain cfg t = (.ok s.pool.leases.length, s'))
      (hline : s'.line = s.line) (hclients : s'.clients = s.clients)
      (hleased : Leased p cfg s.pool.leases.length n s')
  | anew (s' : ModbusPlant) (hn : s.retained cfg t = none)
      (hopen : openOutcome s.line cfg.params = .ok)
      (hobtain : s.obtain cfg t = (.ok s.pool.leases.length, s'))
      (hline : s'.line = s.line) (hclient : s'.clients s.pool.nextSrc = some {})
      (hleased : Leased p cfg s.pool.leases.length s.pool.nextSrc s')
  | failed (e : Err) (s' : ModbusPlant) (hn : s.retained cfg t = none)
      (hopen : openOutcome s.line cfg.params = .fail e)
      (hobtain : s.obtain cfg t = (.error e, s')) (hidle : Idle p cfg s')

theorem Idle.obtain (h : Idle p cfg s) (t : Time) : Obtained p cfg t s := by
  cases hn : s.retained cfg t with
  | some n =>
    obtain ⟨s', hobtain, hg, hlocked, hclients, hentry⟩ :=
      obtain_of_retained h.session h.unlocked hn
    obtain ⟨hclient, hhost⟩ := h.opened n (h.entry_of_retained hn)
    rw [← hclients] at hclient
    exact .again n s' hn hobtain hg.line hclients (h.granted hg hlocked hentry hclient hhost)
  | none =>
    rcases openOutcome_cases s.line cfg.params with hopen | ⟨e, hopen⟩
    · obtain ⟨s', hobtain, hg, hlocked, hclient, hentry⟩ :=
        obtain_of_open h.session h.unlocked hn hopen
      have hsome : s'.clients s.pool.nextSrc ≠ none := by simp [hclient]
      exact .anew s' hn hopen hobtain hg.line hclient
        (h.granted hg hlocked hentry hsome (host_of_open hopen))
    · obtain ⟨s', hobtain, -, hsession, hleases, hreleased, hentry, hlocked⟩ :=
        obtain_of_fail h.session h.unlocked hn hopen
      refine .failed e s' hn hopen hobtain ⟨hsession.trans h.session, hlocked, ?_, ?_⟩
      · simp [hentry]
      · rw [hleases, hreleased]
        exact h.unreleased

/-- The plant after the release function has marked its lease. -/
def marked (s : ModbusPlant) (l : ℕ) (t : Time) : ModbusPlant :=
  { s with pool := { s.pool with
    clock := t
    released := Function.update s.pool.released l true } }

/-- The plant when the lock on an entry is given back. -/
def freed (s : ModbusPlant) (id : Int) : ModbusPlant :=
  { s with pool := { s.pool with locked := Function.update s.pool.locked id false } }

/-- The plant after an entry has been used at time `t`. -/
def used (s : ModbusPlant) (id : Int) (t : Time) : ModbusPlant :=
  { s with pool := { s.pool with
    entry := Function.update s.pool.entry id { s.pool.entry id with lastUsed := t } } }

theorem src_used (s : ModbusPlant) (id : Int) (t : Time) :
    ((s.used id t).pool.entry id).src = (s.pool.entry id).src := by
  unfold used
  dsimp only
  rw [Function.update_self]

/-- The release function of a held lease: the source is closed, or kept. -/
theorem Leased.release_eq (h : Leased p cfg l n s) (invalidate : Bool) :
    s.release l invalidate t =
      if invalidate then ((s.marked l t).emptied cfg.sourceID n).freed cfg.sourceID
      else ((s.marked l t).used cfg.sourceID t).freed cfg.sourceID := by
  have heval : (SourcePool.release ⟨l, cfg.sourceID, n⟩ invalidate).eval poolCall (s.clocked t) =
      some ((), if invalidate then ((s.marked l t).emptied cfg.sourceID n).freed cfg.sourceID
        else ((s.marked l t).used cfg.sourceID t).freed cfg.sourceID) := by
    have hheld : poolCall (.released ⟨l, cfg.sourceID, n⟩) (s.clocked t) =
        some (false, s.clocked t) := by
      rw [← h.held]
      rfl
    unfold SourcePool.release
    refine eval_step hheld ?_
    refine eval_step (c := .setReleased ⟨l, cfg.sourceID, n⟩) (r := ()) rfl ?_
    have hunlock : ∀ u : ModbusPlant, u.pool.locked cfg.sourceID = true →
        poolCall (.unlock cfg.sourceID) u = some ((), u.freed cfg.sourceID) :=
      fun u hu => poolCall_of_effect rfl (PoolState.effect_unlock hu)
    cases invalidate with
    | true =>
      exact eval_bind (closeEntry_eval (s := s.marked l t) h.entry)
        (eval_call (hunlock _ h.locked) rfl)
    | false =>
      refine eval_step rfl (eval_step rfl (eval_step rfl (eval_call ?_ rfl)))
      exact hunlock ((s.marked l t).used cfg.sourceID t) h.locked
  rw [release, h.lease, h.session]
  simp only [SourceSession.release, heval]

theorem Leased.release (h : Leased p cfg l n s) (invalidate : Bool) :
    Idle p cfg (s.release l invalidate t) := by
  have hmarked : ∀ k, s.pool.leases.length ≤ k →
      Function.update s.pool.released l true k = false := by
    intro k hk
    have hl : l < s.pool.leases.length := (List.getElem?_eq_some_iff.1 h.lease).1
    rw [Function.update_of_ne (by omega)]
    exact h.unreleased k hk
  rw [h.release_eq]
  cases invalidate with
  | true =>
    refine ⟨h.session, Function.update_self .., ?_, hmarked⟩
    intro m hm
    have hnone : (((s.marked l t).emptied cfg.sourceID n).pool.entry cfg.sourceID).src = none :=
      src_emptied ..
    exact absurd (hm.symm.trans hnone) (by simp)
  | false =>
    refine ⟨h.session, Function.update_self .., ?_, hmarked⟩
    intro m hm
    have hentry : ((((s.marked l t).used cfg.sourceID t).freed cfg.sourceID).pool.entry
        cfg.sourceID).src = some n :=
      (src_used ..).trans h.entry
    obtain rfl := Option.some.inj (hentry.symm.trans hm)
    exact ⟨h.client, h.host⟩

/-! ## Driver calls and outages -/

theorem answer_of_lease {id : Int} {c : ModbusClient}
    (hl : s.pool.leases[l]? = some ⟨l, id, n⟩) (hc : s.clients n = some c) (call : ModbusCall)
    (o : Outcome) :
    s.answer l call o t = ((driverCall s.line o t call c).1,
      { s with clients := Function.update s.clients n (some (driverCall s.line o t call c).2) }) := by
  rw [answer, hl]
  simp only [hc, Option.getD_some]

theorem Leased.answer (h : Leased p cfg l n s) (call : ModbusCall) (o : Outcome) :
    Leased p cfg l n (s.answer l call o t).2 := by
  obtain ⟨c, hc⟩ := Option.ne_none_iff_exists'.1 h.client
  rw [answer_of_lease h.lease hc]
  exact { h with client := by simp }

theorem clients_change {c : ModbusClient} (ch : ModbusChange) (hc : s.clients n = some c) :
    (s.change ch).clients n =
      some { c with broken := c.broken || ch.drops } := by
  cases ch <;> simp [change, hc, ModbusChange.drops]

theorem clients_change_ne (ch : ModbusChange) (hc : s.clients n ≠ none) :
    (s.change ch).clients n ≠ none := by
  obtain ⟨c, hc⟩ := Option.ne_none_iff_exists'.1 hc
  simp [clients_change ch hc]

theorem Idle.change (h : Idle p cfg s) (ch : ModbusChange) : Idle p cfg (s.change ch) := by
  have hopened : ∀ n, (s.pool.entry cfg.sourceID).src = some n →
      (s.change ch).clients n ≠ none ∧ host cfg.params ≠ "" := by
    intro n hn
    obtain ⟨hc, hhost⟩ := h.opened n hn
    exact ⟨clients_change_ne ch hc, hhost⟩
  cases ch <;> exact ⟨h.session, h.unlocked, hopened, h.unreleased⟩

theorem Leased.change (h : Leased p cfg l n s) (ch : ModbusChange) :
    Leased p cfg l n (s.change ch) := by
  have hclient := clients_change_ne ch h.client
  cases ch <;> exact ⟨h.session, h.lease, h.locked, h.entry, hclient, h.host, h.held, h.unreleased⟩

/-! ## Clients that read alike -/

/-- Two clients that a read in the given phase cannot tell apart. -/
def Alike : ClientPhase → ModbusClient → ModbusClient → Prop
  | .unset, c, c' => c'.broken = c.broken
  | .addressed, c, c' => c'.broken = c.broken ∧ c'.unit = c.unit
  | .ready, c, c' => c' = c

theorem Alike.broken {q : ClientPhase} {c c' : ModbusClient} (h : Alike q c c') :
    c'.broken = c.broken := by
  cases q with
  | unset => exact h
  | addressed => exact h.1
  | ready => exact congrArg _ h

theorem Alike.change {q : ClientPhase} {c c' : ModbusClient} (h : Alike q c c') (b : Bool) :
    Alike q { c with broken := c.broken || b } { c' with broken := c'.broken || b } := by
  cases q with
  | unset => exact congrArg (· || b) h
  | addressed => exact ⟨congrArg (· || b) h.1, h.2⟩
  | ready => rw [show c' = c from h]; rfl

/-- A driver call that the protocol allows answers alike. -/
theorem Alike.driverCall {q : ClientPhase} {c c' : ModbusClient} (h : Alike q c c')
    {call : ModbusCall} (hcall : modbusProtocol.allows q call) (line : ModbusLine) (o : Outcome)
    (r : call.Ans) :
    (ModbusPlant.driverCall line o t call c').1 = (ModbusPlant.driverCall line o t call c).1 ∧
      Alike (modbusProtocol.next q call r) (ModbusPlant.driverCall line o t call c).2
        (ModbusPlant.driverCall line o t call c').2 := by
  cases call with
  | listModbusTags id => exact ⟨rfl, h⟩
  | now => exact ⟨rfl, h⟩
  | observeBadQuality load bad => exact ⟨rfl, h⟩
  | setUnitId id => exact ⟨rfl, h.broken, rfl⟩
  | setEncoding e w =>
    obtain rfl : q = .addressed := hcall
    obtain ⟨hbroken, hunit⟩ := h
    refine ⟨rfl, ?_⟩
    show c'.setEncoding e w = c.setEncoding e w
    rw [ModbusClient.setEncoding, ModbusClient.setEncoding, hbroken, hunit]
  | readCoil addr =>
    obtain rfl : q = .ready := hcall
    rw [show c' = c from h]
    exact ⟨rfl, rfl⟩
  | readDiscreteInput addr =>
    obtain rfl : q = .ready := hcall
    rw [show c' = c from h]
    exact ⟨rfl, rfl⟩
  | readRegisters addr quantity type =>
    obtain rfl : q = .ready := hcall
    rw [show c' = c from h]
    exact ⟨rfl, rfl⟩

/-- A pooled plant `s` and an open-per-run plant `u` that a run cannot tell apart. -/
def Agree (p : SourcePool) (cfg : SourceConfig) :
    LeasePhase ClientPhase → ModbusPlant → ModbusPlant → Prop
  | .idle, s, u => Idle p cfg s ∧ u = s.perRun
  | .leased l q, s, u => u.line = s.line ∧ ∃ n m c c', Leased p cfg l n s ∧
      u.pool.leases[l]? = some ⟨l, cfg.sourceID, m⟩ ∧ s.clients n = some c ∧
      u.clients m = some c' ∧ Alike q c c'
  | .done, _, _ => True

theorem Agree.change {q : LeasePhase ClientPhase} (h : Agree p cfg q s u) (ch : ModbusChange) :
    Agree p cfg q (s.change ch) (u.change ch) := by
  cases q with
  | idle =>
    obtain ⟨hidle, rfl⟩ := h
    exact ⟨hidle.change ch, by cases ch <;> rfl⟩
  | done => trivial
  | leased l q =>
    obtain ⟨hline, n, m, c, c', hs, hu, hc, hc', halike⟩ := h
    have hline' : (u.change ch).line = (s.change ch).line := by
      cases ch <;> simp [ModbusPlant.change, hline]
    refine ⟨hline', n, m, _, _, hs.change ch, ?_, clients_change ch hc, clients_change ch hc',
      halike.change _⟩
    cases ch <;> exact hu

/-- `Obtain` of a sound connection. -/
theorem Agree.obtain (h : Agree p cfg .idle s u) (hsound : s.sound cfg t = true) :
    (u.obtain cfg t).1 = (s.obtain cfg t).1 ∧
      Agree p cfg ((leaseProtocol modbusProtocol .unset cfg).next .idle (.obtain cfg)
        (s.obtain cfg t).1) (s.obtain cfg t).2 (u.obtain cfg t).2 := by
  obtain ⟨hidle, rfl⟩ := h
  simp only [sound, Bool.and_eq_true] at hsound
  obtain ⟨hreach, hgood⟩ := hsound
  have hfresh : openOutcome s.line cfg.params = .ok →
      ∃ u', s.perRun.obtain cfg t = (.ok s.pool.leases.length, u') ∧ u'.line = s.line ∧
        u'.pool.leases[s.pool.leases.length]? =
          some ⟨s.pool.leases.length, cfg.sourceID, s.pool.nextSrc⟩ ∧
        u'.clients s.pool.nextSrc = some {} := by
    intro hopen
    obtain ⟨u', hu, hg, hclient⟩ :=
      perRun_obtain_of_open (s := s.perRun) (t := t) rfl hopen
    exact ⟨u', hu, hg.line, hg.lease, hclient⟩
  cases hidle.obtain t with
  | again n s' hn hobtain hline hclients hleased =>
    have hopen : openOutcome s.line cfg.params = .ok := by
      rw [openOutcome, if_neg hleased.host, if_pos hreach]
    obtain ⟨u', hu, huline, hulease, huclient⟩ := hfresh hopen
    obtain ⟨c, hc⟩ := Option.ne_none_iff_exists'.1 hleased.client
    have hbroken : c.broken = false := by
      rw [hn, ← hclients] at hgood
      simpa [hc] using hgood
    rw [hobtain, hu]
    exact ⟨rfl, huline.trans hline.symm, n, s.pool.nextSrc, c, {}, hleased, hulease, hc, huclient,
      hbroken.symm⟩
  | anew s' hn hopen hobtain hline hclient hleased =>
    obtain ⟨u', hu, huline, hulease, huclient⟩ := hfresh hopen
    rw [hobtain, hu]
    exact ⟨rfl, huline.trans hline.symm, s.pool.nextSrc, s.pool.nextSrc, {}, {}, hleased, hulease,
      hclient, huclient, rfl⟩
  | failed e s' hn hopen hobtain hidle' =>
    rw [hobtain, perRun_obtain_of_fail (s := s.perRun) rfl hopen]
    exact ⟨rfl, trivial⟩

/-- A driver call. -/
theorem Agree.answer {q : ClientPhase} (h : Agree p cfg (.leased l q) s u) {call : ModbusCall}
    (hcall : modbusProtocol.allows q call) (o : Outcome) (r : call.Ans) :
    (u.answer l call o t).1 = (s.answer l call o t).1 ∧
      Agree p cfg (.leased l (modbusProtocol.next q call r)) (s.answer l call o t).2
        (u.answer l call o t).2 := by
  obtain ⟨hline, n, m, c, c', hs, hu, hc, hc', halike⟩ := h
  have hs' := hs.answer (t := t) call o
  rw [answer_of_lease hs.lease hc] at hs' ⊢
  rw [answer_of_lease hu hc', hline]
  obtain ⟨hans, halike'⟩ := halike.driverCall (t := t) hcall s.line o r
  exact ⟨hans, rfl, n, m, _, _, hs', hu, Function.update_self .., Function.update_self .., halike'⟩

end ModbusPlant

namespace ModbusAgree

open ModbusPlant

variable {srv : SqlServer} {p : SourcePool} {cfg : SourceConfig}

/-- The protocol of a run on the source `cfg`. -/
abbrev protocol (cfg : SourceConfig) : Protocol (sysSig modbusSig) (LeasePhase ClientPhase) :=
  leaseProtocol modbusProtocol .unset cfg

/-- The invariant of the pool along a run. -/
def Holds (p : SourcePool) (cfg : SourceConfig) :
    LeasePhase ClientPhase → World modbusSide → Prop
  | .leased l _, w => ∃ n, Leased p cfg l n w.src
  | _, w => Idle p cfg w.src

theorem Holds.of_src {q : LeasePhase ClientPhase} {w w' : World modbusSide} (h : Holds p cfg q w)
    (hsrc : w'.src = w.src) : Holds p cfg q w' := by
  cases q <;> (simp only [Holds, hsrc]; exact h)

/-- A run keeps the invariant, whatever happens to the device. -/
theorem holds_kept (srv : SqlServer) (p : SourcePool) (cfg : SourceConfig) :
    Kept (World.machine srv modbusSide) (protocol cfg) (Holds p cfg) where
  answer := by
    intro q c o w r w' h hc ha
    obtain ⟨-, hans⟩ := World.machine_answer ha
    have hoff : SysCall.offSource c → Holds p cfg ((protocol cfg).next q c r) w' := by
      intro hoff
      rw [(LeaseProtocol.offSource_neutral c hoff q).2 r]
      have hsrc : (World.answer srv modbusSide o c w).2.src = w.src :=
        World.src_answer_offSource hoff o w
      rw [hans] at hsrc
      exact h.of_src hsrc
    cases c with
    | obtain cfg' =>
      obtain ⟨rfl, rfl⟩ := hc
      obtain ⟨rfl, rfl⟩ := Prod.mk.inj hans
      have hidle : Idle p cfg' w.src := h
      show Holds p cfg' ((protocol cfg').next .idle (.obtain cfg') (ModbusPlant.obtain cfg' w.clock w.src).1)
        { w with
          trace := w.trace ++ [.obtain cfg']
          src := (ModbusPlant.obtain cfg' w.clock w.src).2 }
      cases hidle.obtain w.clock with
      | again n s' hn hobtain hline hclients hleased =>
        rw [hobtain]
        exact ⟨n, hleased⟩
      | anew s' hn hopen hobtain hline hclient hleased =>
        rw [hobtain]
        exact ⟨_, hleased⟩
      | failed e s' hn hopen hobtain hidle' =>
        rw [hobtain]
        exact hidle'
    | release l invalidate =>
      obtain ⟨u, rfl⟩ := hc
      obtain ⟨n, hleased⟩ := h
      obtain ⟨-, rfl⟩ := Prod.mk.inj hans
      exact hleased.release invalidate
    | source l call =>
      obtain ⟨u, rfl, -⟩ := hc
      obtain ⟨n, hleased⟩ := h
      obtain ⟨-, rfl⟩ := Prod.mk.inj hans
      exact ⟨n, hleased.answer call o⟩
    | _ => exact hoff trivial
  env := by
    intro q e w w' h he
    cases e with
    | tick d =>
      obtain rfl := Option.some.inj he
      exact h.of_src rfl
    | cancel =>
      obtain rfl := Option.some.inj he
      exact h.of_src rfl
    | change ch =>
      obtain rfl := Option.some.inj he
      cases q with
      | leased l u =>
        obtain ⟨n, hleased⟩ := h
        exact ⟨n, hleased.change ch⟩
      | idle => exact Idle.change h ch
      | done => exact Idle.change h ch

/-! ## Runs in lockstep -/

/-- The system that answers a call of a run only where the connection it obtains
    is sound. -/
def soundMachine (srv : SqlServer) : Machine (sysSig modbusSig) (World modbusSide) :=
  (World.machine srv modbusSide).guard soundStep

/-- Two systems that differ in their source side only, and there not to a run. -/
def Agrees (p : SourcePool) (cfg : SourceConfig) (q : LeasePhase ClientPhase)
    (w v : World modbusSide) : Prop :=
  ∃ u : ModbusPlant, v = { w with src := u } ∧ Agree p cfg q w.src u

theorem soundMachine_answer {c : SysCall modbusSig} {o : Outcome} {w : World modbusSide}
    (hsound : soundStep c w = true) (hallowed : o.allowed c w.cancelled = true) :
    (soundMachine srv).answer c o w = some (World.answer srv modbusSide o c w) := by
  show (if soundStep c w then _ else none) = _
  rw [if_pos hsound]
  exact if_pos hallowed

theorem agrees_lockstep (srv : SqlServer) (p : SourcePool) (cfg : SourceConfig) :
    Lockstep (soundMachine srv) (protocol cfg) (Agrees p cfg) where
  answer := by
    rintro q c o w _ r w' ⟨u, rfl, h⟩ hc ha
    obtain ⟨hsound, ha⟩ := Machine.guard_answer ha
    obtain ⟨hallowed, hans⟩ := World.machine_answer ha
    have hoff : SysCall.offSource c → ∃ v',
        (soundMachine srv).answer c o { w with src := u } = some (r, v') ∧
          Agrees p cfg ((protocol cfg).next q c r) w' v' := by
      intro hoff
      have hquiet : soundStep c { w with src := u } = true := by
        cases c <;> first | exact hoff.elim | rfl
      have hv : World.answer srv modbusSide o c { w with src := u } = (r, { w' with src := u }) := by
        rw [← show (World.answer srv modbusSide o c w).1 = r from congrArg Prod.fst hans,
          ← show (World.answer srv modbusSide o c w).2 = w' from congrArg Prod.snd hans]
        exact World.answer_offSource hoff o w u
      refine ⟨{ w' with src := u }, ?_, u, rfl, ?_⟩
      · exact (soundMachine_answer hquiet hallowed).trans (congrArg some hv)
      have hsrc : (World.answer srv modbusSide o c w).2.src = w.src :=
        World.src_answer_offSource hoff o w
      rw [hans] at hsrc
      rw [(LeaseProtocol.offSource_neutral c hoff q).2 r, hsrc]
      exact h
    cases c with
    | obtain cfg' =>
      obtain ⟨rfl, rfl⟩ := hc
      obtain ⟨rfl, rfl⟩ := Prod.mk.inj hans
      obtain ⟨hres, hagree⟩ := Agree.obtain h hsound
      have hfresh : soundStep (.obtain cfg') { w with src := u } = true := by
        obtain ⟨-, rfl⟩ := h
        simp only [soundStep, sound, Bool.and_eq_true] at hsound ⊢
        exact ⟨hsound.1, rfl⟩
      exact ⟨_, (soundMachine_answer hfresh hallowed).trans (congrArg some (Prod.ext hres rfl)),
        (u.obtain cfg' w.clock).2, rfl, hagree⟩
    | release l invalidate =>
      obtain ⟨ph, rfl⟩ := hc
      obtain ⟨rfl, rfl⟩ := Prod.mk.inj hans
      exact ⟨_, soundMachine_answer rfl hallowed, u.release l invalidate w.clock, rfl, trivial⟩
    | source l call =>
      obtain ⟨ph, rfl, hcall⟩ := hc
      obtain ⟨rfl, rfl⟩ := Prod.mk.inj hans
      obtain ⟨hres, hagree⟩ := Agree.answer (t := w.clock) h hcall o
        (ModbusPlant.answer l call o w.clock w.src).1
      exact ⟨_, (soundMachine_answer (w := { w with src := u }) rfl hallowed).trans
          (congrArg some (Prod.ext hres rfl)),
        (u.answer l call o w.clock).2, rfl, hagree⟩
    | _ => exact hoff trivial
  env := by
    rintro q e w _ w' ⟨u, rfl, h⟩ he
    cases e with
    | tick d =>
      obtain rfl := Option.some.inj he
      exact ⟨_, rfl, u, rfl, h⟩
    | cancel =>
      obtain rfl := Option.some.inj he
      exact ⟨_, rfl, u, rfl, h⟩
    | change ch =>
      obtain rfl := Option.some.inj he
      exact ⟨_, rfl, u.change ch, rfl, h.change ch⟩

end ModbusAgree

open ModbusAgree in
/-- Whatever runs and outages came before on the pooled source, a run that obtains
    a sound connection has the same result and does the same to everything but the
    source side as it has and does with open-per-run sources: it hands the same
    rows to the sink. -/
theorem pooled_run_agrees [GoText] [GoLib] [GoFloat] {srv : SqlServer} {r : Runner modbusSig}
    {catalogue : Bool} (hread : r.read = Modbus.read catalogue) (hsink : r.sink.OnDb)
    {p : SourcePool} {cfg : SourceConfig} {w₀ w : World modbusSide}
    (hsession : w₀.src.session = .pooled p) (hpool : w₀.src.pool = {})
    {hs : List ((World.machine srv modbusSide).HEvent { load // r.On cfg load })}
    {rs : List (Run (World modbusSide) (Option Err))}
    (hh : (World.machine srv modbusSide).runHistory (fun load => r.execute load.1) hs w₀ =
      some (rs, w))
    {load : Load} (hon : r.On cfg load) {es : List (soundMachine srv).Event} {res : Option Err}
    {w' : World modbusSide} (hx : (soundMachine srv).exec es (r.execute load) w = some (res, w')) :
    ∃ v', (soundMachine srv).exec es (r.execute load) w.perRun = some (res, v') ∧
      v' = { w' with src := v'.src } := by
  have hread' : ∀ lc, (readProtocol modbusProtocol).Follows (r.read lc) (fun _ _ => True) .unset := by
    intro lc
    rw [hread]
    exact Modbus.read_follows catalogue lc .unset
  have hfollows : ∀ {load}, r.On cfg load → (protocol cfg).Follows (r.execute load)
      (fun _ q' => q' = .idle ∨ q' = .done) .idle :=
    fun hon => LeaseProtocol.execute_follows hsink hread' hon
  have hidle₀ : ModbusAgree.Holds p cfg .idle w₀ := by
    refine ⟨hsession, ?_, ?_, ?_⟩ <;> simp [hpool]
  have hidle : ModbusAgree.Holds p cfg .idle w := by
    refine (holds_kept srv p cfg).runHistory (fun load => ?_) hidle₀ hh
    refine (hfollows load.2).mono fun _ q' hq' v hv => ?_
    rcases hq' with rfl | rfl <;> exact hv
  obtain ⟨v', q', hx', ⟨u, rfl, -⟩, -⟩ := (agrees_lockstep srv p cfg).exec (hfollows hon)
    ⟨ModbusPlant.perRun w.src, rfl, hidle, rfl⟩ hx
  exact ⟨_, hx', rfl⟩

/-! ## A connection that broke during an earlier run -/

section

attribute [local instance] GoText.ascii GoLib.ascii GoFloat.finite

/-- A coil of a device. -/
def pumpTag : ModbusPoint :=
  { correlationID := "", tagName := "pump", unitID := 1, registerType := "coil", address := 0
    quantity := 1, dataType := "bool", byteOrder := "big", wordOrder := "high_first", scale := 0
    offset := 0 }

/-- A device that can be reached and has the coil set. -/
def pumpLine : ModbusLine where
  device := ⟨fun _ _ => .ok true, fun _ _ => .ok false, fun _ _ _ _ => .ok []⟩
  reachable := true
  linkError := "i/o timeout"
  tags _ := [pumpTag]

def pumpRunner : Runner modbusSig :=
  { resolveParams := fun _ => .ok [("host", "plc")], sink := Mssql.sink, read := Modbus.read true }

/-- A load that reads the coil. -/
def pumpLoad : Load :=
  { id := 1, sourceID := 1, source := ⟨1, "plc", "modbus", "", true⟩, name := "pumps"
    objectName := "", targetSchema := "dbo", targetTable := "pumps", mode := loadModeAppend
    watermarkColumn := "", watermarkType := watermarkNone, batchSize := 0
    autoCreateTable := true, cronExpression := "", isEnabled := true }

def pumpConfig : SourceConfig := ⟨1, "modbus", "plc", [("host", "plc")]⟩

theorem pumpLoad_on : pumpRunner.On pumpConfig pumpLoad := by
  intro params hparams
  obtain rfl := Except.ok.inj hparams
  rfl

/-- A new system with a pool of the default idle timeout. -/
def pumpWorld : World modbusSide :=
  { src := { line := pumpLine, session := .pooled (.new 0 0 fun kind _ => kind) }
    db := ⟨fun _ => none, none⟩, store := ⟨fun _ => none, [], 1⟩, registry := ∅, metrics := []
    clock := 0, cancelled := false }

/-- The machine of these runs. -/
abbrev pumpMachine : Machine (sysSig modbusSig) (World modbusSide) :=
  World.machine ⟨"wh", "dbo"⟩ modbusSide

/-- A first run that reads the coil and writes its row. -/
def pumpFirst : List (pumpMachine.HEvent { load // pumpRunner.On pumpConfig load }) :=
  [.run ⟨pumpLoad, pumpLoad_on⟩ (List.replicate 20 (.answer .ok))]

/-- The second run is given the connection of the first: no other source is built. -/
theorem pumpRun_agrees :
    ∃ rs w res w' v',
      pumpMachine.runHistory (fun load => pumpRunner.execute load.1) pumpFirst pumpWorld =
        some (rs, w) ∧
      (ModbusAgree.soundMachine ⟨"wh", "dbo"⟩).exec (List.replicate 19 (.answer .ok))
        (pumpRunner.execute pumpLoad) w = some (res, w') ∧
      w.src.clients 0 = some {} ∧ w.src.pool.nextSrc = 1 ∧ w'.src.pool.nextSrc = 1 ∧
      (ModbusAgree.soundMachine ⟨"wh", "dbo"⟩).exec (List.replicate 19 (.answer .ok))
        (pumpRunner.execute pumpLoad) w.perRun = some (res, v') ∧
      v' = { w' with src := v'.src } := by
  have heval : (pumpMachine.runHistory (fun load => pumpRunner.execute load.1) pumpFirst
      pumpWorld).bind (fun p => ((ModbusAgree.soundMachine ⟨"wh", "dbo"⟩).exec
        (List.replicate 19 (.answer .ok)) (pumpRunner.execute pumpLoad) p.2).map fun x =>
        (p.2.src.clients 0, p.2.src.pool.nextSrc, x.2.src.pool.nextSrc)) =
      some (some {}, 1, 1) := by decide +kernel
  obtain ⟨⟨rs, w⟩, hh, heval⟩ := Option.bind_eq_some_iff.1 heval
  obtain ⟨⟨res, w'⟩, hx, heval⟩ := Option.map_eq_some_iff.1 heval
  simp only [Prod.mk.injEq] at heval
  obtain ⟨hclient, hbuilt, hbuilt'⟩ := heval
  have hread : pumpRunner.read = Modbus.read true := rfl
  obtain ⟨v', hv, hsame⟩ :=
    pooled_run_agrees hread Mssql.sink_onDb rfl rfl hh pumpLoad_on hx
  exact ⟨rs, w, res, w', v', hh, hx, hclient, hbuilt, hbuilt', hv, hsame⟩

/-- The device fails while the first run is about to read and can be reached again
    before the second run. -/
def pumpOutage : List (pumpMachine.HEvent { load // pumpRunner.On pumpConfig load }) :=
  [.run ⟨pumpLoad, pumpLoad_on⟩ (List.replicate 8 (.answer .ok) ++
      .env (.change (.outage true)) :: List.replicate 12 (.answer .ok)),
    .env (.change .recover)]

/-- The batch of a run at time 0. -/
def pumpBatch (reading : Except Err TagReading) : Batch :=
  ⟨Modbus.columns, [Modbus.tagRow pumpTag 0 reading]⟩

/-- The second run is given the broken connection and hands over a bad row. The
    same run with open-per-run sources hands over the value of the coil. -/
theorem broken_connection_reused :
    ∃ rs w res w' res' v',
      pumpMachine.runHistory (fun load => pumpRunner.execute load.1) pumpOutage pumpWorld =
        some (rs, w) ∧
      w.src.line.reachable = true ∧
      pumpMachine.exec (List.replicate 19 (.answer .ok)) (pumpRunner.execute pumpLoad) w =
        some (res, w') ∧
      pumpMachine.exec (List.replicate 19 (.answer .ok)) (pumpRunner.execute pumpLoad) w.perRun =
        some (res', v') ∧
      deliveredBatches w'.trace = deliveredBatches w.trace ++ [pumpBatch (.error "i/o timeout")] ∧
      deliveredBatches v'.trace = deliveredBatches w.trace ++ [pumpBatch (.ok (.bool true))] := by
  have heval : (pumpMachine.runHistory (fun load => pumpRunner.execute load.1) pumpOutage
      pumpWorld).bind (fun p =>
        (pumpMachine.exec (List.replicate 19 (.answer .ok)) (pumpRunner.execute pumpLoad) p.2).bind
        fun x => (pumpMachine.exec (List.replicate 19 (.answer .ok)) (pumpRunner.execute pumpLoad)
          p.2.perRun).map fun y =>
        (p.2.src.line.reachable, deliveredBatches p.2.trace, deliveredBatches x.2.trace,
          deliveredBatches y.2.trace)) =
      some (true, [pumpBatch (.error "i/o timeout")],
        [pumpBatch (.error "i/o timeout"), pumpBatch (.error "i/o timeout")],
        [pumpBatch (.error "i/o timeout"), pumpBatch (.ok (.bool true))]) := by decide +kernel
  obtain ⟨⟨rs, w⟩, hh, heval⟩ := Option.bind_eq_some_iff.1 heval
  obtain ⟨⟨res, w'⟩, hx, heval⟩ := Option.bind_eq_some_iff.1 heval
  obtain ⟨⟨res', v'⟩, hy, heval⟩ := Option.map_eq_some_iff.1 heval
  simp only [Prod.mk.injEq] at heval
  obtain ⟨hreach, hbefore, hpooled, hfresh⟩ := heval
  refine ⟨rs, w, res, w', res', v', hh, hreach, hx, hy, ?_, ?_⟩
  · rw [hpooled, hbefore]
    rfl
  · rw [hfresh, hbefore]
    rfl

end

end DataLoader
