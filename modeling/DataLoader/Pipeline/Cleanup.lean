import DataLoader.Pipeline.StagingProtocol

/-!
# The staging table of a failed replace

A replace run that fails at or before `CommitReplace` drops its staging table in
the deferred `abort`, with the context of the run. What the run has done to the table
is read off its log (`stagingOf`), with the database available to it (`World.available`).

* `failed_replace_cleans_up_iff`: the staging table is gone after a failed run
  exactly when it was dropped or not there before, and, where it was begun, the last
  `DROP` succeeded. It fails only when the context has been cancelled.
* `cancelled_replace_keeps_staging`: a run that is cancelled after staging began.
-/

namespace DataLoader

open Effects Mssql

variable {S : Sig} {t u : TargetTable} {q : StagingState}

/-! ## The database -/

/-- The outcomes of a call while the sink database is available: a statement
    succeeds under a live context. -/
def Outcome.available (c : SysCall S) (cancelled : Bool) (o : Outcome) : Bool :=
  match c with
  | .db _ => cancelled || decide (o = .ok)
  | _ => true

/-- The system whose sink database stays available. -/
def World.available (srv : SqlServer) (side : SourceSide S) : Machine (sysSig S) (World side) :=
  (World.machine srv side).limit fun c o w => Outcome.available c w.cancelled o

variable {srv : SqlServer} {side : SourceSide S}

/-- The outcomes of a statement: it succeeds, or the context is cancelled and it has
    no effect. A rollback does not take the context. -/
def Outcome.Fits (c : DbCall) (cancelled : Bool) (o : Outcome) : Prop :=
  o = .ok ∨ (cancelled = true ∧ (c = .rollbackTx ∨ ∃ msg, o = .fail msg 0))

theorem World.available_db {c : DbCall} {o : Outcome} {w w' : World side} {r : c.Ans}
    (h : (World.available srv side).answer (.db c) o w = some (r, w')) :
    w.db.answer srv o c = (r, w'.db) ∧ w'.cancelled = w.cancelled ∧
      successes w'.trace = successes w.trace ∧ o.Fits c w.cancelled := by
  obtain ⟨hav, h⟩ := Machine.limit_answer h
  obtain ⟨hallowed, hans⟩ := World.machine_answer h
  have hr : (World.answer srv side o (.db c) w).1 = r := congrArg Prod.fst hans
  have hw' : (World.answer srv side o (.db c) w).2 = w' := congrArg Prod.snd hans
  refine ⟨?_, ?_, ?_, ?_⟩
  · rw [← hw', ← hr]
    rfl
  · rw [← hw', World.cancelled_answer]
  · rw [← hw', World.trace_answer]
    simp [successes, SysCall.finishesSuccess]
  cases o with
  | ok => exact .inl rfl
  | fail msg done =>
    have hc : w.cancelled = true := by simpa [Outcome.available] using hav
    refine .inr ⟨hc, ?_⟩
    by_cases hroll : c = .rollbackTx
    · exact .inl hroll
    · have htakes : SysCall.takesContext (.db c : SysCall S) = true := by
        cases c <;> first | rfl | exact absurd rfl hroll
      have hdone : done = 0 := by
        simpa [Outcome.allowed, htakes, hc, Outcome.effective] using hallowed
      exact .inr ⟨msg, by rw [hdone]⟩

theorem Db.tables_inTx (db : Db) (o : Outcome) (f : Tables → Except Err Tables) :
    (db.inTx o f).2.tables = db.tables := by
  unfold Db.inTx
  split
  · rfl
  · split <;> rfl

/-- A statement under a cancelled context leaves the tables. -/
theorem Db.tables_answer_fail {c : DbCall} (db : Db) (msg : Err) :
    (db.answer srv (.fail msg 0) c).2.tables = db.tables := by
  cases c with
  | bulkCopy t rows =>
    simp only [Db.answer, Db.append, List.take_zero]
    cases ht : db.tables t with
    | none => rfl
    | some old => simp [← ht]
  | selectInto stg t =>
    simp only [Db.answer, Db.statement]
    split <;> rfl
  | createTable t cols =>
    simp only [Db.answer, Db.statement]
    split <;> rfl
  | truncateTable t =>
    simp only [Db.answer, Db.statement]
    split <;> rfl
  | spRename obj new => exact Db.tables_inTx db _ _
  | dropTable t => exact Db.tables_inTx db _ _
  | _ => rfl

/-- A statement that says nothing about `u` leaves it present or missing. -/
theorem Db.present_answer {c : DbCall} {o : Outcome} {b : Bool} (db : Db) (ho : o.Fits c b)
    (hc : SysCall.leaves u (.db c : SysCall S)) :
    (db.answer srv o c).2.tables u = none ↔ db.tables u = none := by
  obtain rfl | ⟨-, rfl | ⟨msg, rfl⟩⟩ := ho
  · cases c with
    | bulkCopy t rows =>
      simp only [Db.answer, Db.append]
      cases ht : db.tables t with
      | none => rfl
      | some old =>
        by_cases hu : u = t
        · subst hu
          simp [ht]
        · simp [Function.update_of_ne hu]
    | dropTableIfExists t =>
      have hu : u ≠ t := fun h => hc h.symm
      simp [Db.answer, Db.statement, Function.update_of_ne hu]
    | selectInto stg t =>
      have hu : u ≠ stg := fun h => hc h.symm
      simp only [Db.answer, Db.statement]
      split
      · rfl
      · rename_i ts hts
        split at hts
        · obtain rfl := Except.ok.inj hts
          simp [Function.update_of_ne hu]
        · cases hts
        · cases hts
    | createTable t cols =>
      have hu : u ≠ t := fun h => hc h.symm
      simp only [Db.answer, Db.statement, Db.create]
      cases db.tables t with
      | none => simp [Function.update_of_ne hu]
      | some old => rfl
    | truncateTable t =>
      simp only [Db.answer, Db.statement]
      cases ht : db.tables t with
      | none => rfl
      | some old =>
        by_cases hu : u = t
        · subst hu
          simp [ht]
        · simp [Function.update_of_ne hu]
    | spRename obj new => rw [Db.answer, Db.tables_inTx]
    | dropTable t => rw [Db.answer, Db.tables_inTx]
    | commitTx => exact hc.elim
    | _ => rfl
  · rfl
  · rw [Db.tables_answer_fail]

/-- What the state of the protocol says about the system, when the run started
    in `w₀`. -/
structure StagingKept (u : TargetTable) (w₀ : World side) (q : StagingState) (w : World side) :
    Prop where
  unbroken : q.broken = false
  untouched : q.committed = false → q.dropped = false →
    (w.db.tables u = none ↔ w₀.db.tables u = none)
  present : q.committed = false → q.dropped = true → (w.db.tables u = none ↔ q.present = false)
  live : q.last = false → w.cancelled = true
  grown : successes w₀.trace ≤ successes w.trace
  recorded : q.recorded = true → successes w₀.trace < successes w.trace

/-- A statement on the tables: its effect, or an error and no effect. -/
theorem Db.statement_cases {c : DbCall} {o : Outcome} {b : Bool} {db db' : Db} {e : Option Err}
    {f : Tables → Except Err Tables} (h : db.statement o f = (e, db')) (ho : o.Fits c b)
    (hc : c ≠ .rollbackTx) :
    (e = none ∧ f db.tables = .ok db'.tables) ∨ (e ≠ none ∧ db'.tables = db.tables) := by
  unfold Db.statement at h
  obtain rfl | ⟨-, rfl | ⟨msg, rfl⟩⟩ := ho
  · cases hf : f db.tables with
    | error e =>
      rw [hf] at h
      obtain ⟨rfl, rfl⟩ := Prod.mk.inj h
      exact .inr ⟨by simp, rfl⟩
    | ok ts =>
      rw [hf] at h
      obtain ⟨rfl, rfl⟩ := Prod.mk.inj h
      exact .inl ⟨rfl, rfl⟩
  · exact absurd rfl hc
  · cases hf : f db.tables with
    | error e =>
      rw [hf] at h
      obtain ⟨rfl, rfl⟩ := Prod.mk.inj h
      exact .inr ⟨by simp [Outcome.err], rfl⟩
    | ok ts =>
      rw [hf] at h
      obtain ⟨rfl, rfl⟩ := Prod.mk.inj h
      exact .inr ⟨by simp [Outcome.err], rfl⟩

namespace StagingKept

variable {w₀ w w' : World side}

theorem start (w : World side) : StagingKept u w {} w where
  unbroken := rfl
  untouched _ _ := Iff.rfl
  present _ h := Bool.noConfusion h
  live h := Bool.noConfusion h
  grown := le_refl _
  recorded h := Bool.noConfusion h

section

variable (h : StagingKept u w₀ q w) (hcancelled : w'.cancelled = w.cancelled)
  (hsuccesses : successes w'.trace = successes w.trace)

include h hcancelled hsuccesses

/-- A call that says nothing about the table. -/
theorem same (htables : w'.db.tables u = none ↔ w.db.tables u = none) : StagingKept u w₀ q w' where
  unbroken := h.unbroken
  untouched hc hd := htables.trans (h.untouched hc hd)
  present hc hd := htables.trans (h.present hc hd)
  live hl := hcancelled.trans (h.live hl)
  grown := hsuccesses ▸ h.grown
  recorded hr := hsuccesses ▸ h.recorded hr

theorem drop {e : Option Err} (hnone : e = none → w'.db.tables u = none)
    (hsome : e ≠ none → w.cancelled = true ∧ w'.db.tables = w.db.tables) :
    StagingKept u w₀ (q.drop e) w' := by
  cases e with
  | none =>
    exact ⟨h.unbroken, fun _ hd => Bool.noConfusion hd, fun _ _ => iff_of_true (hnone rfl) rfl,
      fun hl => Bool.noConfusion hl, hsuccesses ▸ h.grown, fun hr => hsuccesses ▸ h.recorded hr⟩
  | some e =>
    obtain ⟨hc, htables⟩ := hsome (Option.some_ne_none e)
    have hsame := h.same hcancelled hsuccesses (by rw [htables])
    exact ⟨hsame.unbroken, hsame.untouched, hsame.present, fun _ => hcancelled.trans hc,
      hsame.grown, hsame.recorded⟩

theorem make (hd : q.dropped = true) {e : Option Err} (hnone : e = none → w'.db.tables u ≠ none)
    (hsome : e ≠ none → w'.db.tables = w.db.tables) : StagingKept u w₀ (q.make e) w' := by
  cases e with
  | none =>
    refine ⟨h.unbroken, fun _ hd' => ?_, fun _ _ => ?_, fun hl => hcancelled.trans (h.live hl),
      hsuccesses ▸ h.grown, fun hr => hsuccesses ▸ h.recorded hr⟩
    · exact absurd (hd.symm.trans hd') Bool.noConfusion
    · exact iff_of_false (hnone rfl) (by simp [StagingState.make])
  | some e => exact h.same hcancelled hsuccesses (by rw [hsome (Option.some_ne_none e)])

theorem commit {e : Option Err} (hsome : e ≠ none → w'.db.tables = w.db.tables) :
    StagingKept u w₀ (q.commit e) w' := by
  cases e with
  | none =>
    exact ⟨h.unbroken, fun hc => Bool.noConfusion hc, fun hc => Bool.noConfusion hc,
      fun hl => hcancelled.trans (h.live hl), hsuccesses ▸ h.grown,
      fun hr => hsuccesses ▸ h.recorded hr⟩
  | some e => exact h.same hcancelled hsuccesses (by rw [hsome (Option.some_ne_none e)])

theorem query {r : Except Err Bool} (hr : ∀ b, r = .ok b → b = (w.db.tables u).isSome)
    (htables : w'.db.tables = w.db.tables) : StagingKept u w₀ (q.query r) w' := by
  have hsame := h.same hcancelled hsuccesses (by rw [htables])
  cases r with
  | error e => exact hsame
  | ok b =>
    have hnot : ¬(q.dropped = true ∧ q.committed = false ∧ b ≠ q.present) := by
      rintro ⟨hd, hc, hne⟩
      have hpresent := h.present hc hd
      rw [hr b rfl] at hne
      cases hp : q.present <;> cases htab : w.db.tables u <;> simp_all
    simp only [StagingState.query, if_neg hnot]
    exact hsame

end

/-- The statements keep it. -/
theorem answer_db (h : StagingKept u w₀ q w) {c : DbCall} {o : Outcome} {r : c.Ans}
    (hcreates : SysCall.creates u (.db c : SysCall S) → q.dropped = true)
    (ho : o.Fits c w.cancelled) (hans : w.db.answer srv o c = (r, w'.db))
    (hcancelled : w'.cancelled = w.cancelled)
    (hsuccesses : successes w'.trace = successes w.trace) :
    StagingKept u w₀ (q.next u (.db c : SysCall S) r) w' := by
  by_cases hl : SysCall.leaves u (.db c : SysCall S)
  · have heq : q.next u (.db c : SysCall S) r = q := (stagingProtocol_ignores u _ hl q).2 r
    rw [heq]
    refine h.same hcancelled hsuccesses ?_
    rw [← Db.present_answer w.db ho hl, hans]
  cases c with
  | dropTableIfExists u' =>
    obtain rfl : u' = u := not_not.1 hl
    have heq : q.next u' (.db (.dropTableIfExists u') : SysCall S) r = q.drop r := if_pos rfl
    rw [heq]
    simp only [Db.answer] at hans
    obtain ⟨hnone, hf⟩ | ⟨hne, htables⟩ := Db.statement_cases hans ho (by simp)
    · refine h.drop hcancelled hsuccesses (fun _ => ?_) fun hne => absurd hnone hne
      rw [← Except.ok.inj hf, Function.update_self]
    · refine h.drop hcancelled hsuccesses (fun hnone => absurd hnone hne) fun _ => ⟨?_, htables⟩
      obtain rfl | ⟨hc, -⟩ := ho
      · exact absurd (congrArg Prod.fst hans).symm hne
      · exact hc
  | selectInto u' v =>
    obtain rfl : u' = u := not_not.1 hl
    have heq : q.next u' (.db (.selectInto u' v) : SysCall S) r = q.make r := if_pos rfl
    rw [heq]
    simp only [Db.answer] at hans
    obtain ⟨hnone, hf⟩ | ⟨hne, htables⟩ := Db.statement_cases hans ho (by simp)
    · refine h.make hcancelled hsuccesses (hcreates rfl) (fun _ => ?_) fun hne => absurd hnone hne
      split at hf
      · rw [← Except.ok.inj hf, Function.update_self]
        exact Option.some_ne_none _
      · cases hf
      · cases hf
    · exact h.make hcancelled hsuccesses (hcreates rfl) (fun hnone => absurd hnone hne)
        fun _ => htables
  | createTable u' cols =>
    obtain rfl : u' = u := not_not.1 hl
    have heq : q.next u' (.db (.createTable u' cols) : SysCall S) r = q.make r := if_pos rfl
    rw [heq]
    simp only [Db.answer] at hans
    obtain ⟨hnone, hf⟩ | ⟨hne, htables⟩ := Db.statement_cases hans ho (by simp)
    · refine h.make hcancelled hsuccesses (hcreates rfl) (fun _ => ?_) fun hne => absurd hnone hne
      unfold Db.create at hf
      split at hf
      · rw [← Except.ok.inj hf, Function.update_self]
        exact Option.some_ne_none _
      · cases hf
    · exact h.make hcancelled hsuccesses (hcreates rfl) (fun hnone => absurd hnone hne)
        fun _ => htables
  | tableExists u' =>
    obtain rfl : u' = u := not_not.1 hl
    have heq : q.next u' (.db (.tableExists u') : SysCall S) r = q.query r := if_pos rfl
    obtain ⟨rfl, hdb⟩ := Prod.mk.inj hans
    rw [heq]
    refine h.query hcancelled hsuccesses (fun b hb => ?_) (by rw [← hdb])
    cases o with
    | ok => exact (Except.ok.inj hb).symm
    | fail msg done => cases hb
  | commitTx =>
    refine h.commit (e := r) hcancelled hsuccesses fun hne => ?_
    simp only [Db.answer, Db.commit] at hans
    split at hans
    · exact absurd (congrArg Prod.fst hans).symm hne
    · exact congrArg Db.tables (Prod.mk.inj hans).2.symm
    · rw [← (Prod.mk.inj hans).2]
  | _ => exact absurd trivial hl

/-- A recorded success. -/
theorem record (h : StagingKept u w₀ q w) (htables : w'.db = w.db)
    (hcancelled : w'.cancelled = w.cancelled)
    (hsuccesses : successes w'.trace = successes w.trace + 1) :
    StagingKept u w₀ { q with recorded := true } w' where
  unbroken := h.unbroken
  untouched hc hd := htables ▸ h.untouched hc hd
  present hc hd := htables ▸ h.present hc hd
  live hl := hcancelled.trans (h.live hl)
  grown := by
    have := h.grown
    omega
  recorded _ := by
    have := h.grown
    omega

/-- The calls outside the sink database keep it. -/
theorem answer_other (h : StagingKept u w₀ q w) {c : SysCall S} {o : Outcome} {r : c.Ans}
    (hc : ∀ s, c ≠ .db s) (hans : World.answer srv side o c w = (r, w')) :
    StagingKept u w₀ (q.next u c r) w' := by
  have hw' : (World.answer srv side o c w).2 = w' := congrArg Prod.snd hans
  have htables : w'.db = w.db := by rw [← hw', World.db_answer o hc w]
  have hcancelled : w'.cancelled = w.cancelled := by rw [← hw', World.cancelled_answer]
  have htrace : successes w'.trace = successes w.trace + if c.finishesSuccess then 1 else 0 := by
    rw [← hw', World.trace_answer, successes, List.countP_append, List.countP_singleton]
    rfl
  have hsame : c.finishesSuccess = false → StagingKept u w₀ q w' := fun hf =>
    h.same hcancelled (by rw [htrace, hf]; rfl) (by rw [htables])
  cases c with
  | db c => exact absurd rfl (hc c)
  | store c =>
    cases c with
    | finishRun run status rr rw wm msg =>
      by_cases hs : status = .success
      · subst hs
        exact h.record htables hcancelled htrace
      · have heq : q.next u (.store (.finishRun run status rr rw wm msg) : SysCall S) r = q :=
          if_neg hs
        rw [heq]
        exact hsame (decide_eq_false hs)
    | _ => exact hsame rfl
  | _ => exact hsame rfl

end StagingKept

theorem stagingKept (u : TargetTable) (w₀ : World side) :
    Kept (World.available srv side) (stagingProtocol S u) (StagingKept u w₀) where
  answer {q c o w r w'} hI hallows ha := by
    have hcreates : SysCall.creates u c → q.dropped = true :=
      hallows.resolve_left (by simp [hI.unbroken])
    cases c with
    | db c =>
      obtain ⟨hans, hcancelled, hsuccesses, ho⟩ := World.available_db ha
      exact hI.answer_db hcreates ho hans hcancelled hsuccesses
    | _ =>
      obtain ⟨-, h⟩ := Machine.limit_answer ha
      exact hI.answer_other (by simp) (World.machine_answer h).2
  env {q e w w'} hI he := by
    obtain ⟨hdb, -, htrace⟩ := World.env_db he
    have hcancelled : w.cancelled = true → w'.cancelled = true := by
      intro hc
      cases e with
      | tick d => cases he; exact hc
      | cancel => cases he; rfl
      | change c =>
        obtain ⟨s, -, rfl⟩ := Option.map_eq_some_iff.1 he
        exact hc
    refine ⟨hI.unbroken, ?_, ?_, fun hl => hcancelled (hI.live hl), ?_, ?_⟩
    · rw [hdb]
      exact hI.untouched
    · rw [hdb]
      exact hI.present
    · rw [htrace]
      exact hI.grown
    · rw [htrace]
      exact hI.recorded

/-! ## Failed runs -/

/-- What the log of a run says about the staging table of `t`. -/
def stagingOf (t : TargetTable) (l : List (Entry (sysSig S) Outcome)) : StagingState :=
  (stagingProtocol S (staging t)).after {} l

variable [GoLib] in
/-- After a replace run that failed at or before `CommitReplace` the staging table
    is gone exactly when the run dropped it or it was not there before, and, where
    the run created it, its last `DROP` (that of the deferred abort) succeeded. While the
    database is available that `DROP` fails only under a cancelled context. -/
theorem failed_replace_cleans_up_iff (l : ReplaceLoad S t) {w w' : World side} {e : Err}
    {log : List (Entry (sysSig S) Outcome)}
    (hrun : (World.available srv side).Runs l.execute w log (some e) w')
    (hfailed : successes w'.trace = successes w.trace) :
    (w'.db.tables (staging t) = none ↔
      ((stagingOf t log).dropped = true ∨ w.db.tables (staging t) = none) ∧
      ((stagingOf t log).begun = true → (stagingOf t log).last = true)) ∧
    (w'.cancelled = false → (stagingOf t log).last = true) := by
  have hidle : StagingState.Idle {} := ⟨rfl, rfl, rfl, rfl⟩
  obtain ⟨hkept, hsettled⟩ := hrun.of_kept (stagingKept (staging t) w)
    (follows_execute l.sink l.mode l.kind l.target hidle) (StagingKept.start w)
  change StagingKept (staging t) w (stagingOf t log) w' at hkept
  change (stagingOf t log).Settled at hsettled
  have hrecorded : (stagingOf t log).recorded ≠ true := fun h =>
    absurd (hkept.recorded h) (by omega)
  obtain hb | hr | ⟨hcommitted, hbegun, hidle⟩ := hsettled
  · exact absurd (hb.symm.trans hkept.unbroken) Bool.noConfusion
  · exact absurd hr hrecorded
  refine ⟨?_, fun hlive => ?_⟩
  · cases hd : (stagingOf t log).dropped with
    | false =>
      have hnot : (stagingOf t log).begun ≠ true := fun h =>
        absurd ((hbegun h).1.symm.trans hd) Bool.noConfusion
      rw [hkept.untouched hcommitted hd]
      simp [hnot]
    | true =>
      rw [hkept.present hcommitted hd]
      cases hbg : (stagingOf t log).begun with
      | false => simp [hidle hbg]
      | true => simp [(hbegun hbg).2]
  · by_contra hl
    have := hkept.live (by simpa using hl)
    exact absurd (this.symm.trans hlive) Bool.noConfusion

section

attribute [local instance] GoLib.ascii

/-- The machine of the example runs. -/
abbrev ordersMachine : Machine (sysSig noDriver) (World plainSide) :=
  World.available ⟨"wh", "dbo"⟩ plainSide

/-- A source that fails before its first batch. -/
def readRefused : Reader noDriver := fun _ => return ({}, some "refused")

theorem reports_readRefused (cfg : LoadConfig) : Reports false (readRefused cfg) := by
  simp [readRefused, Reports]

theorem refused_replace_cleans_up :
    ∃ log w', ordersMachine.Runs (plainLoad orders reports_readRefused).execute emptyOrders log
        (some "refused") w' ∧
      (stagingOf orders log).begun = true ∧ w'.db.tables (staging orders) = none := by
  have heval : (ordersMachine.exec (List.replicate 15 (.answer .ok))
      (plainLoad orders reports_readRefused).execute emptyOrders).map
      (fun x => (x.1, successes x.2.trace)) = some (some "refused", 0) := by decide +kernel
  obtain ⟨⟨_, w'⟩, hx, hw'⟩ := Option.map_eq_some_iff.1 heval
  obtain ⟨rfl, hsuccesses⟩ := Prod.mk.inj hw'
  have hrun := Machine.Runs.of_exec hx
  have hlog : stagingOf orders (ordersMachine.log (List.replicate 15 (.answer .ok))
      (plainLoad orders reports_readRefused).execute emptyOrders) =
      { dropped := true, begun := true } := by decide +kernel
  refine ⟨_, w', hrun, by rw [hlog], ?_⟩
  refine (failed_replace_cleans_up_iff _ hrun hsuccesses).1.2 ⟨.inl (by rw [hlog]), fun _ => ?_⟩
  rw [hlog]

/-- The context is cancelled when the batch is about to be written. -/
def cancelledSchedule : List ordersMachine.Event :=
  List.replicate 10 (.answer .ok) ++ .env .cancel :: .answer (.fail "context canceled" 0) ::
    .answer (.fail "context canceled" 0) :: List.replicate 3 (.answer .ok) ++
    [.answer (.fail "context canceled" 0), .answer .ok]

/-- A run that is cancelled after staging began: it fails, every statement under the
    live context succeeded, and the staging table is still there. -/
theorem cancelled_replace_keeps_staging :
    ∃ log w', ordersMachine.Runs (oneRowLoad orders).execute emptyOrders log
        (some "context canceled") w' ∧
      successes w'.trace = successes emptyOrders.trace ∧
      emptyOrders.db.tables (staging orders) = none ∧
      w'.db.tables (staging orders) = some [] := by
  have heval : (ordersMachine.exec cancelledSchedule (oneRowLoad orders).execute emptyOrders).map
      (fun x => (x.1, successes x.2.trace, x.2.db.tables (staging orders))) =
      some (some "context canceled", 0, some []) := by decide +kernel
  obtain ⟨⟨_, w'⟩, hx, hw'⟩ := Option.map_eq_some_iff.1 heval
  obtain ⟨rfl, hw'⟩ := Prod.mk.inj hw'
  obtain ⟨hsuccesses, htables⟩ := Prod.mk.inj hw'
  exact ⟨_, w', Machine.Runs.of_exec hx, hsuccesses, by decide +kernel, htables⟩

end

end DataLoader
