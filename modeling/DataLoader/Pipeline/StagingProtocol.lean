import DataLoader.Effects.Runs
import DataLoader.Pipeline.Footprint

/-!
# What a replace run does to its staging table

The state of the staging table is followed through a run as the state of a protocol
(`StagingState`): it is dropped before it is created, created by `BeginReplace` only,
and renamed by the commit only. `follows_execute`: a run that ends without having been
recorded as successful has sent the `DROP` of its deferred `abort` last, or never
created the table.
-/

namespace DataLoader

open Effects Mssql

/-- What a run has done to its staging table. -/
structure StagingState where
  /-- A `DROP` of the table succeeded. -/
  dropped : Bool := false
  /-- The table was created. -/
  begun : Bool := false
  /-- The last `DROP` of the table succeeded. -/
  last : Bool := true
  /-- Whether the table exists, once it was dropped. -/
  present : Bool := false
  /-- A transaction was committed. -/
  committed : Bool := false
  /-- The run was recorded as successful. -/
  recorded : Bool := false
  /-- A query for the table contradicted `present`. -/
  broken : Bool := false
  deriving DecidableEq, Repr

variable {S : Sig}

namespace StagingState

/-- After a `DROP` of the table. -/
def drop (q : StagingState) : Option Err → StagingState
  | none => { q with dropped := true, present := false, last := true }
  | some _ => { q with last := false }

/-- After a statement that creates the table. -/
def make (q : StagingState) : Option Err → StagingState
  | none => { q with begun := true, present := true }
  | some _ => q

/-- After a query for the table. -/
def query (q : StagingState) : Except Err Bool → StagingState
  | .ok b =>
    if q.dropped = true ∧ q.committed = false ∧ b ≠ q.present then { q with broken := true } else q
  | .error _ => q

/-- After the end of a transaction. -/
def commit (q : StagingState) : Option Err → StagingState
  | none => { q with committed := true }
  | some _ => q

/-- The state after a call and its answer; `u` is the staging table. -/
def next (u : TargetTable) (q : StagingState) : (c : SysCall S) → c.Ans → StagingState
  | .db (.dropTableIfExists u'), e => if u' = u then q.drop e else q
  | .db (.selectInto u' _), e => if u' = u then q.make e else q
  | .db (.createTable u' _), e => if u' = u then q.make e else q
  | .db (.tableExists u'), r => if u' = u then q.query r else q
  | .db .commitTx, e => q.commit e
  | .store (.finishRun _ status _ _ _ _), _ =>
    if status = .success then { q with recorded := true } else q
  | _, _ => q

theorem broken_drop (q : StagingState) (e : Option Err) : (q.drop e).broken = q.broken := by
  cases e <;> rfl

theorem broken_make (q : StagingState) (e : Option Err) : (q.make e).broken = q.broken := by
  cases e <;> rfl

theorem broken_commit (q : StagingState) (e : Option Err) :
    (q.commit e).broken = q.broken := by
  cases e <;> rfl

theorem broken_query {q : StagingState} (hq : q.broken = true) (r : Except Err Bool) :
    (q.query r).broken = true := by
  cases r with
  | error e => exact hq
  | ok b =>
    simp only [query]
    split_ifs
    · rfl
    · exact hq

theorem broken_ite {b : Prop} [Decidable b] {q q' : StagingState} (hq' : q'.broken = true)
    (hq : q.broken = true) : (if b then q' else q).broken = true := by
  split_ifs
  · exact hq'
  · exact hq

/-- A contradiction is never forgotten. -/
theorem broken_next (u : TargetTable) {q : StagingState} (hq : q.broken = true) (c : SysCall S)
    (r : c.Ans) : (q.next u c r).broken = true := by
  cases c with
  | db c =>
    cases c with
    | dropTableIfExists u' => exact broken_ite ((broken_drop q r).trans hq) hq
    | selectInto u' v => exact broken_ite ((broken_make q r).trans hq) hq
    | createTable u' cols => exact broken_ite ((broken_make q r).trans hq) hq
    | tableExists u' => exact broken_ite (broken_query hq r) hq
    | commitTx => exact (broken_commit q r).trans hq
    | _ => exact hq
  | store c =>
    cases c with
    | finishRun run status rr rw wm msg => exact broken_ite hq hq
    | _ => exact hq
  | _ => exact hq

end StagingState

/-- The calls that create the table `u`. -/
def SysCall.creates (u : TargetTable) : SysCall S → Prop
  | .db (.selectInto u' _) => u' = u
  | .db (.createTable u' _) => u' = u
  | _ => False

/-- The table is created only after it was dropped. -/
def stagingProtocol (S : Sig) (u : TargetTable) : Protocol (sysSig S) StagingState where
  allows q c := q.broken = true ∨ (SysCall.creates u c → q.dropped = true)
  next := StagingState.next u

/-- The calls that say nothing about the table `u`. -/
def SysCall.leaves (u : TargetTable) : SysCall S → Prop
  | .db (.dropTableIfExists u') => u' ≠ u
  | .db (.selectInto u' _) => u' ≠ u
  | .db (.createTable u' _) => u' ≠ u
  | .db (.tableExists u') => u' ≠ u
  | .db .commitTx => False
  | .store (.finishRun _ status _ _ _ _) => status ≠ .success
  | _ => True

variable {t u : TargetTable} {q : StagingState} {α : Type}

theorem stagingProtocol_ignores (u : TargetTable) :
    (stagingProtocol S u).Ignores (SysCall.leaves u) := by
  intro c hc q
  cases c with
  | db c =>
    cases c with
    | dropTableIfExists u' => exact ⟨.inr False.elim, fun r => if_neg hc⟩
    | selectInto u' v => exact ⟨.inr fun h => absurd h hc, fun r => if_neg hc⟩
    | createTable u' cols => exact ⟨.inr fun h => absurd h hc, fun r => if_neg hc⟩
    | tableExists u' => exact ⟨.inr False.elim, fun r => if_neg hc⟩
    | commitTx => exact hc.elim
    | _ => exact ⟨.inr False.elim, fun _ => rfl⟩
  | store c =>
    cases c with
    | finishRun run status rr rw wm msg => exact ⟨.inr False.elim, fun _ => if_neg hc⟩
    | _ => exact ⟨.inr False.elim, fun _ => rfl⟩
  | _ => exact ⟨.inr False.elim, fun _ => rfl⟩

/-- After a contradiction nothing more is said. -/
theorem follows_broken (hq : q.broken = true) (p : Prog (sysSig S) α) :
    (stagingProtocol S u).Follows p (fun _ q' => q'.broken = true) q := by
  induction p generalizing q with
  | ret a => exact hq
  | call c k ih => exact ⟨.inl hq, fun r => ih r (StagingState.broken_next u hq c r)⟩

/-! ## Where a run stands -/

namespace StagingState

/-- Staging has not begun. -/
structure Idle (q : StagingState) : Prop where
  begun : q.begun = false
  present : q.present = false
  committed : q.committed = false
  recorded : q.recorded = false

/-- Staging has begun. -/
structure Staged (q : StagingState) : Prop where
  dropped : q.dropped = true
  begun : q.begun = true
  present : q.present = true
  committed : q.committed = false
  recorded : q.recorded = false

/-- The run is over: it was recorded, or a table that was begun is there only if
    its last `DROP` failed. -/
def Settled (q : StagingState) : Prop :=
  q.broken = true ∨ q.recorded = true ∨ (q.committed = false ∧
    (q.begun = true → q.dropped = true ∧ q.present = !q.last) ∧ (q.begun = false → q.present = false))

theorem Idle.drop (h : q.Idle) (e : Option Err) : (q.drop e).Idle := by
  cases e with
  | none => exact ⟨h.begun, rfl, h.committed, h.recorded⟩
  | some e => exact ⟨h.begun, h.present, h.committed, h.recorded⟩

theorem Idle.make (h : q.Idle) (hd : q.dropped = true) : (q.make none).Staged :=
  ⟨hd, rfl, rfl, h.committed, h.recorded⟩

theorem Idle.settled (h : q.Idle) : q.Settled :=
  .inr (.inr ⟨h.committed, fun hb => by simp [h.begun] at hb, fun _ => h.present⟩)

theorem Staged.settled_drop (h : q.Staged) (e : Option Err) : (q.drop e).Settled := by
  cases e with
  | none =>
    exact .inr (.inr ⟨h.committed, fun _ => ⟨rfl, rfl⟩, fun hb => by simp [StagingState.drop] at hb ⊢⟩)
  | some e =>
    refine .inr (.inr ⟨h.committed, fun _ => ⟨h.dropped, h.present⟩, fun hb => ?_⟩)
    exact absurd (h.begun.symm.trans hb) Bool.noConfusion

/-- A query tells nothing new, or contradicts the state. -/
theorem query_cases (q : StagingState) (r : Except Err Bool) :
    (q.query r).broken = true ∨ (q.query r = q ∧
      ∀ b, r = .ok b → q.dropped = true → q.committed = false → b = q.present) := by
  cases r with
  | error e => exact .inr ⟨rfl, by simp⟩
  | ok b =>
    by_cases h : q.dropped = true ∧ q.committed = false ∧ b ≠ q.present
    · exact .inl (by simp [query, h])
    · refine .inr ⟨by simp only [query, if_neg h], fun b' hb' hd hc => ?_⟩
      obtain rfl := Except.ok.inj hb'
      by_contra hne
      exact h ⟨hd, hc, hne⟩

end StagingState

/-! ## The functions of the sink -/

theorem follows_dropTableIfExists (u : TargetTable) :
    (stagingProtocol S u).Follows (dropTableIfExists u) (fun e q' => q' = q.drop e) q :=
  ⟨.inr False.elim, fun _ => if_pos rfl⟩

theorem follows_tableExists' (u : TargetTable) :
    (stagingProtocol S u).Follows (tableExists' u) (fun r q' => q' = q.query r) q :=
  ⟨.inr False.elim, fun _ => if_pos rfl⟩

/-- A transaction whose body says nothing about the table. -/
theorem follows_inTx {body : Prog (sysSig S) (Option Err)} (hbody : body.Calls (SysCall.leaves u)) :
    (stagingProtocol S u).Follows (Mssql.inTx body)
      (fun e q' => (e = none → q' = q.commit none) ∧ (e ≠ none → q' = q)) q := by
  have hig := stagingProtocol_ignores (S := S) u
  refine (Protocol.Follows.of_calls hig (p := statement .beginTx) ⟨trivial, fun _ => trivial⟩).seq ?_
  rintro (_ | e) _ rfl
  · refine (Protocol.Follows.of_calls hig hbody).seq ?_
    rintro (_ | e) _ rfl
    · refine ⟨.inr False.elim, fun r => ?_⟩
      refine ⟨.inr False.elim, fun _ => ?_⟩
      cases r with
      | none => exact ⟨fun _ => rfl, fun h => absurd rfl h⟩
      | some e => exact ⟨fun h => absurd h (Option.some_ne_none e), fun _ => rfl⟩
    · exact ⟨.inr False.elim, fun _ => ⟨fun h => absurd h (Option.some_ne_none e), fun _ => rfl⟩⟩
  · exact ⟨fun h => absurd h (Option.some_ne_none e), fun _ => rfl⟩

open StagingState

theorem follows_broken_or (hq : q.broken = true) (p : Prog (sysSig S) α)
    (R : α → StagingState → Prop) :
    (stagingProtocol S u).Follows p (fun a q' => q'.broken = true ∨ R a q') q :=
  (follows_broken hq p).mono fun _ _ h => .inl h

variable [GoLib]

theorem follows_ensureTable (hq : q.Idle) (hd : q.dropped = true) (cols : List Column) :
    (stagingProtocol S u).Follows (ensureTable u cols)
      (fun e q' => q'.broken = true ∨ ((e = none → q'.Staged) ∧ (e ≠ none → q'.Idle))) q := by
  have hfail : ∀ e : Err, (some e = none → q.Staged) ∧ (some e ≠ none → q.Idle) := fun e =>
    ⟨fun h => absurd h (Option.some_ne_none e), fun _ => hq⟩
  unfold ensureTable
  cases validateTarget u with
  | some e => exact .inr (hfail e)
  | none =>
    refine (follows_tableExists' u).seq ?_
    rintro r _ rfl
    obtain hb | ⟨heq, hans⟩ := query_cases q r
    · exact follows_broken_or hb _ _
    · rw [heq]
      match r, hans with
      | .error e, _ => exact .inr (hfail e)
      | .ok true, hans =>
        exact absurd ((hans true rfl hd hq.committed).trans hq.present) (by decide)
      | .ok false, _ =>
        cases columnDefs cols with
        | error e => exact .inr (hfail e)
        | ok defs =>
          refine ⟨.inr fun _ => hd, fun e => ?_⟩
          have hnext : (stagingProtocol S u).next q (.db (.createTable u defs)) e = q.make e :=
            if_pos rfl
          rw [hnext]
          cases e with
          | none => exact .inr ⟨fun _ => hq.make hd, fun h => absurd rfl h⟩
          | some e => exact .inr (hfail e)

/-- `BeginReplace` begins staging or leaves the run idle. -/
theorem follows_beginReplace (hq : q.Idle) (cols : List Column) :
    (stagingProtocol S (staging t)).Follows (beginReplace t cols)
      (fun r q' => q'.broken = true ∨
        ((∀ stg, r = .ok stg → stg = staging t ∧ q'.Staged ∧ validateTarget (staging t) = none) ∧
          (∀ e, r = .error e → q'.Idle))) q := by
  have hig := stagingProtocol_ignores (S := S) (staging t)
  have hfail : ∀ {q : StagingState}, q.Idle → ∀ e : Err,
      (∀ stg, (.error e : Except Err TargetTable) = .ok stg →
        stg = staging t ∧ q.Staged ∧ validateTarget (staging t) = none) ∧
      (∀ e', (.error e : Except Err TargetTable) = .error e' → q.Idle) :=
    fun h e => ⟨by simp, fun _ _ => h⟩
  unfold beginReplace
  cases ht : validateTarget t with
  | some e => exact .inr (hfail hq e)
  | none =>
    unfold stagingTarget
    cases hstg : Sqlident.validate (t.name ++ stagingSuffix) with
    | some e => exact .inr (hfail hq _)
    | none =>
      have hdone : ∀ {q : StagingState}, q.Staged →
          (∀ stg, (.ok (staging t) : Except Err TargetTable) = .ok stg →
            stg = staging t ∧ q.Staged ∧ validateTarget (staging t) = none) ∧
          (∀ e', (.ok (staging t) : Except Err TargetTable) = .error e' → q.Idle) :=
        fun h => ⟨fun stg hs => ⟨(Except.ok.inj hs).symm, h, validateTarget_staging ht hstg⟩, by simp⟩
      refine (follows_dropTableIfExists (staging t)).seq ?_
      rintro e _ rfl
      have hidle := hq.drop e
      cases e with
      | some e => exact .inr (hfail hidle _)
      | none =>
        have hlive : (tableExists' t : Prog (sysSig S) _).Calls (SysCall.leaves (staging t)) :=
          ⟨(staging_ne t).symm, fun _ => trivial⟩
        refine (Protocol.Follows.of_calls hig hlive).seq ?_
        rintro r _ rfl
        match r with
        | .error e => exact .inr (hfail hidle e)
        | .ok true =>
          refine ⟨.inr fun _ => rfl, fun e => ?_⟩
          have hnext : (stagingProtocol S (staging t)).next (q.drop none)
              (.db (.selectInto (staging t) t)) e = (q.drop none).make e := if_pos rfl
          rw [hnext]
          cases e with
          | none => exact .inr (hdone (hidle.make rfl))
          | some e => exact .inr (hfail hidle _)
        | .ok false =>
          change (stagingProtocol S (staging t)).Follows (if cols.isEmpty then _ else _) _ _
          split_ifs
          · exact .inr (hfail hidle _)
          · refine (follows_ensureTable hidle rfl cols).seq ?_
            rintro e q' (hb | ⟨hnone, hsome⟩)
            · exact follows_broken_or hb _ _
            · cases e with
              | none => exact .inr (hdone (hnone rfl))
              | some e => exact .inr (hfail (hsome (Option.some_ne_none e)) _)

/-- `CommitReplace` that fails leaves the staging table. -/
theorem follows_commitReplace (hq : q.Staged) :
    (stagingProtocol S (staging t)).Follows (commitReplace t (staging t))
      (fun e q' => q'.broken = true ∨ (e ≠ none → q'.Staged)) q := by
  have hig := stagingProtocol_ignores (S := S) (staging t)
  have hfail : ∀ e : Err, some e ≠ none → q.Staged := fun _ _ => hq
  have htx : ∀ {body : Prog (sysSig S) (Option Err)}, body.Calls (SysCall.leaves (staging t)) →
      (stagingProtocol S (staging t)).Follows (Mssql.inTx body)
        (fun e q' => q'.broken = true ∨ (e ≠ none → q'.Staged)) q := fun hbody =>
    (follows_inTx hbody).mono fun e q' h => .inr fun hne => (h.2 hne).symm ▸ hq
  unfold commitReplace
  cases validateTarget t with
  | some e => exact .inr (hfail e)
  | none =>
    cases validateTarget (staging t) with
    | some e => exact .inr (hfail e)
    | none =>
      have hlive : (tableExists' t : Prog (sysSig S) _).Calls (SysCall.leaves (staging t)) :=
        ⟨(staging_ne t).symm, fun _ => trivial⟩
      refine (Protocol.Follows.of_calls hig hlive).seq ?_
      rintro r _ rfl
      cases r with
      | error e => exact .inr (hfail e)
      | ok liveExists =>
        refine (follows_tableExists' (staging t)).seq ?_
        rintro r _ rfl
        obtain hb | ⟨heq, -⟩ := query_cases _ r
        · exact follows_broken_or hb _ _
        · rw [heq]
          match r with
          | .error e => exact .inr (hfail e)
          | .ok false => exact .inr (hfail _)
          | .ok true =>
            change (stagingProtocol S (staging t)).Follows (if !liveExists then _ else _) _ _
            split_ifs
            · exact htx (calls_renameInTx trivial)
            · unfold oldTarget
              cases Sqlident.validate (t.name ++ oldSuffix) with
              | some e => exact .inr (hfail _)
              | none =>
                have hold : (dropTableIfExists (old t) : Prog (sysSig S) _).Calls
                    (SysCall.leaves (staging t)) :=
                  ⟨(staging_ne_old t).symm, fun _ => trivial⟩
                refine (Protocol.Follows.of_calls hig hold).seq ?_
                rintro (_ | e) _ rfl
                · exact htx (calls_swapInTx trivial trivial trivial)
                · exact .inr (hfail _)

/-! ## The session -/

/-- The session of a run and the state of its staging table. -/
inductive Tracks (t : TargetTable) : ReplaceSession S → StagingState → Prop
  | broken {s : ReplaceSession S} {q : StagingState} (hq : q.broken = true) : Tracks t s q
  | idle {q : StagingState} (hq : q.Idle) : Tracks t (session S t) q
  | staged {q : StagingState} (hvalid : validateTarget (staging t) = none) (hq : q.Staged) :
      Tracks t (begunSession S t) q

theorem Tracks.settled {s : ReplaceSession S} (h : Tracks t s q) (hs : s.active = false) :
    q.Settled := by
  cases h with
  | broken hq => exact .inl hq
  | idle hq => exact hq.settled
  | staged hvalid hq => cases hs

/-- The result of a step from the session `s` that returns the new session. -/
def Tracked (t : TargetTable) (s : ReplaceSession S) (r : Except Err (ReplaceSession S))
    (q : StagingState) : Prop :=
  (∀ s', r = .ok s' → Tracks t s' q) ∧ ∀ e, r = .error e → Tracks t s q

theorem Tracked.broken (hq : q.broken = true) (s : ReplaceSession S)
    (r : Except Err (ReplaceSession S)) : Tracked t s r q :=
  ⟨fun _ _ => .broken hq, fun _ _ => .broken hq⟩

theorem Tracked.ok {s s' : ReplaceSession S} (h : Tracks t s' q) : Tracked t s (.ok s') q :=
  ⟨fun _ hs => Except.ok.inj hs ▸ h, by simp⟩

theorem Tracked.error {s : ReplaceSession S} (h : Tracks t s q) (e : Err) :
    Tracked t s (.error e) q :=
  ⟨by simp, fun _ _ => h⟩

/-- `BeginReplace` and the session it leaves. -/
theorem follows_begin (hq : q.Idle) (cols : List Column) :
    (stagingProtocol S (staging t)).Follows
      (do match ← beginReplace t cols with
          | .error e => return .error ("begin replace: " ++ e)
          | .ok stg => return .ok ((session S t).begun stg))
      (Tracked t (session S t)) q := by
  refine (follows_beginReplace hq cols).seq ?_
  rintro r q' (hb | ⟨hok, herr⟩)
  · exact (follows_broken hb _).mono fun r _ h => .broken h _ r
  · cases r with
    | error e => exact .error (.idle (herr e rfl)) _
    | ok stg =>
      obtain ⟨rfl, hstaged, hvalid⟩ := hok stg rfl
      exact .ok (.staged hvalid hstaged)

theorem follows_prepareExisting (hq : q.Idle) :
    (stagingProtocol S (staging t)).Follows ((session S t).prepareExisting Mssql.sink)
      (Tracked t (session S t)) q := by
  have hlive : (Mssql.tableExists t : Prog (sysSig S) _).Calls (SysCall.leaves (staging t)) := by
    unfold Mssql.tableExists
    cases validateTarget t with
    | some e => trivial
    | none => exact ⟨(staging_ne t).symm, fun _ => trivial⟩
  refine (Protocol.Follows.of_calls (stagingProtocol_ignores (staging t)) hlive).seq ?_
  rintro r _ rfl
  match r with
  | .error e => exact .error (.idle hq) e
  | .ok false => exact .ok (.idle hq)
  | .ok true => exact follows_begin hq []

theorem follows_ensureFirstBatch {s : ReplaceSession S} (hs : Tracks t s q) (autoCreate : Bool)
    (cols : List Column) :
    (stagingProtocol S (staging t)).Follows (s.ensureFirstBatch Mssql.sink autoCreate cols)
      (Tracked t s) q := by
  cases hs with
  | broken hq => exact (follows_broken hq _).mono fun r _ h => .broken h s r
  | idle hq => exact follows_begin hq cols
  | staged hvalid hq => exact .ok (.staged hvalid hq)

/-- A commit that fails leaves the session as it was, and one that succeeds leaves
    nothing to abort. -/
theorem follows_commit {s : ReplaceSession S} (hs : Tracks t s q) :
    (stagingProtocol S (staging t)).Follows s.commit
      (fun r q' => q'.broken = true ∨
        ((∀ e, r = .error e → Tracks t s q') ∧ ∀ s', r = .ok s' → s'.abort = pure ())) q := by
  cases hs with
  | broken hq => exact follows_broken_or hq _ _
  | idle hq => exact .inr ⟨by simp, fun s' hs' => Except.ok.inj hs' ▸ rfl⟩
  | staged hvalid hq =>
    refine (follows_commitReplace hq).seq ?_
    rintro e q' (hb | hstaged)
    · exact follows_broken_or hb _ _
    · cases e with
      | none => exact .inr ⟨by simp, fun s' hs' => Except.ok.inj hs' ▸ rfl⟩
      | some e =>
        exact .inr ⟨fun _ _ => .staged hvalid (hstaged (Option.some_ne_none e)), by simp⟩

/-- The deferred abort of a run that was not committed. -/
theorem follows_abort {s : ReplaceSession S} (hs : Tracks t s q) :
    (stagingProtocol S (staging t)).Follows s.abort (fun _ q' => q'.Settled) q := by
  cases hs with
  | broken hq => exact (follows_broken hq _).mono fun _ _ h => .inl h
  | idle hq => exact hq.settled
  | staged hvalid hq =>
    have habort : (stagingProtocol S (staging t)).Follows (abortReplace (staging t))
        (fun _ q' => q'.Settled) q := by
      unfold abortReplace
      rw [hvalid]
      refine (follows_dropTableIfExists (staging t)).mono ?_
      rintro e _ rfl
      exact hq.settled_drop e
    exact habort.seq fun _ _ h => h

/-! ## The run -/

/-- The session that the handler holds. -/
def Holding (t : TargetTable) (st : HandlerState S) (q : StagingState) : Prop :=
  ∃ s, st.repl = some s ∧ Tracks t s q

theorem calls_writeBatch_leaves (v : TargetTable) (b : Batch) (loadTS : Time) :
    (Mssql.writeBatch v b loadTS : Prog (sysSig S) _).Calls (SysCall.leaves u) := by
  unfold Mssql.writeBatch
  split_ifs
  · trivial
  · cases validateTarget v with
    | some e => trivial
    | none =>
      cases validateColumns b.columns with
      | some e => trivial
      | none =>
        cases prepareRows b.columns loadTS b.rows with
        | error e => trivial
        | ok rows =>
          refine ⟨trivial, fun e => ?_⟩
          cases e <;> trivial

section

variable {r : Runner S} (hsink : r.sink = Mssql.sink) {load : Load} {loadTS : Time}

include hsink

theorem follows_writeBatch {st : HandlerState S} (hst : Holding t st q) (b : Batch) :
    (stagingProtocol S (staging t)).Follows (r.writeBatch loadTS st b)
      (fun se q' => Holding t se.1 q') q := by
  unfold Runner.writeBatch
  rw [hsink]
  refine (Protocol.Follows.of_calls (stagingProtocol_ignores (staging t))
    (calls_writeBatch_leaves st.writeTarget b loadTS)).seq ?_
  rintro res _ rfl
  cases res with
  | error e => exact hst
  | ok n => exact hst

theorem follows_handler {st : HandlerState S} (hst : Holding t st q) (b : Batch) :
    (stagingProtocol S (staging t)).Follows (r.handler load loadTS st b)
      (fun se q' => Holding t se.1 q') q := by
  unfold Runner.handler
  split_ifs
  · obtain ⟨s, hs, htrack⟩ := hst
    have hfirst : (stagingProtocol S (staging t)).Follows (r.onFirstBatch load st b)
        (fun res q' => (∀ st', res = .ok st' → Holding t st' q') ∧
          ∀ e, res = .error e → Holding t st q') q := by
      unfold Runner.onFirstBatch
      rw [hs, hsink]
      refine (follows_ensureFirstBatch htrack load.autoCreateTable b.columns).seq ?_
      rintro (e | s') q' ⟨hok, herr⟩
      · exact ⟨by simp, fun _ _ => ⟨s, hs, herr e rfl⟩⟩
      · exact ⟨fun st' hst' => ⟨s', by rw [← Except.ok.inj hst'], hok s' rfl⟩, by simp⟩
    refine hfirst.seq ?_
    rintro (e | st') q' ⟨hok, herr⟩
    · exact herr e rfl
    · exact follows_writeBatch hsink (hok st' rfl) b
  · exact follows_writeBatch hsink hst b

theorem follows_interpret (src : ℕ) {p : Prog (readSig S) α} {st : HandlerState S}
    (hst : Holding t st q) :
    (stagingProtocol S (staging t)).Follows (Runner.interpret src (r.handler load loadTS) p st)
      (fun sr q' => Holding t sr.1 q') q := by
  have hig := stagingProtocol_ignores (S := S) (staging t)
  induction p generalizing st q with
  | ret a => exact hst
  | call c k ih =>
    cases c with
    | driver c =>
      have hc : SysCall.leaves (staging t) (.source src c) := trivial
      exact .call_ignored hig hc fun ans => ih ans hst
    | emit b =>
      have hc : SysCall.leaves (staging t) (.deliver b : SysCall S) := trivial
      refine .call_ignored hig hc fun _ => ?_
      exact Protocol.Follows.seq (follows_handler hsink hst b) fun se _ hse => ih se.2 hse

end

section

variable {load : Load}

omit [GoLib] in
theorem calls_failRun_leaves (run : LoadRun) (rr rw : Int) (wm : String) (msg : Err) :
    (Runner.failRun load run rr rw wm msg : Prog (sysSig S) Unit).Calls (SysCall.leaves u) := by
  have hfailed : RunStatus.failed ≠ .success := by decide
  exact ⟨hfailed, fun _ => ⟨trivial, fun _ => ⟨trivial, fun _ => ⟨trivial, fun _ => trivial⟩⟩⟩⟩

omit [GoLib] in
/-- A run that passes the commit records its success. -/
theorem follows_finishRead (hmode : load.mode = loadModeReplace) (run : LoadRun) (current : String)
    (result : ReadResult) (rw : Int) :
    (stagingProtocol S u).Follows (Runner.finishRead load run current result rw)
      (fun _ q' => q'.recorded = true) q := by
  have hig := stagingProtocol_ignores (S := S) u
  unfold Runner.finishRead
  rw [if_neg (by simp [Runner.advances, hmode, loadModeReplace, loadModeDelta])]
  refine ⟨.inr False.elim, fun e => ?_⟩
  have hrecorded : (stagingProtocol S u).next q (.store (.finishRun run .success result.rowsRead rw
      result.newWatermark.value "")) e = { q with recorded := true } := rfl
  rw [hrecorded]
  cases e with
  | some e =>
    refine Protocol.Follows.mono (Protocol.Follows.of_calls hig ?_) fun _ q' h => by rw [h]
    exact ⟨trivial, fun _ => ⟨trivial, fun _ => ⟨trivial, fun _ => trivial⟩⟩⟩
  | none =>
    refine Protocol.Follows.mono (Protocol.Follows.of_calls hig ?_) fun _ q' h => by rw [h]
    refine ⟨trivial, fun _ => ⟨trivial, fun _ => ⟨trivial, fun _ => ?_⟩⟩⟩
    rw [if_neg (by simp [hmode, loadModeReplace, loadModeDelta])]
    trivial

end

/-- How the body of a run ends: it is recorded with nothing left to abort, or its
    session is the one to abort. -/
def Ends (t : TargetTable) (exit : Runner.Exit S) (q : StagingState) : Prop :=
  q.broken = true ∨ (q.recorded = true ∧ exit.abort = pure ()) ∨
    ∃ s, exit.repl = some s ∧ Tracks t s q

theorem follows_exitAbort {exit : Runner.Exit S} (h : Ends t exit q) :
    (stagingProtocol S (staging t)).Follows exit.abort (fun _ q' => q'.Settled) q := by
  obtain hb | ⟨hrec, habort⟩ | ⟨s, hs, htrack⟩ := h
  · exact (follows_broken hb _).mono fun _ _ h => .inl h
  · rw [habort]
    exact .inr (.inl hrec)
  · unfold Runner.Exit.abort
    rw [hs]
    exact follows_abort htrack

section

variable {r : Runner S} (hsink : r.sink = Mssql.sink) {load : Load}
  (hmode : load.mode = loadModeReplace)

include hsink hmode

theorem follows_readAndFinish {src : ℕ} {run : LoadRun} {current : Watermark} {loadTS : Time}
    {s : ReplaceSession S} (hs : Tracks t s q) :
    (stagingProtocol S (staging t)).Follows
      (r.readAndFinish load src run current loadTS (some s)) (Ends t) q := by
  have hig := stagingProtocol_ignores (S := S) (staging t)
  have hst : Holding t (⟨0, true, s.writeTo, some s⟩ : HandlerState S) q := ⟨s, rfl, hs⟩
  unfold Runner.readAndFinish
  refine (follows_interpret hsink src hst).seq ?_
  rintro ⟨st, result, rerr⟩ q₁ ⟨s₁, hs₁, htrack₁⟩
  replace hs₁ : st.repl = some s₁ := hs₁
  cases rerr with
  | some e =>
    refine (Protocol.Follows.of_calls hig (calls_failRun_leaves _ _ _ _ _)).seq ?_
    rintro _ _ rfl
    exact .inr (.inr ⟨s₁, hs₁, htrack₁⟩)
  | none =>
    simp only [hs₁]
    refine (follows_commit htrack₁).seq ?_
    rintro res q₂ (hb | ⟨herr, hok⟩)
    · exact (follows_broken hb _).mono fun _ _ h => .inl h
    · cases res with
      | error e =>
        refine (Protocol.Follows.of_calls hig (calls_failRun_leaves _ _ _ _ _)).seq ?_
        rintro _ _ rfl
        exact .inr (.inr ⟨s₁, rfl, herr e rfl⟩)
      | ok s₂ =>
        refine (follows_finishRead hmode run current.value result st.rowsWritten).seq ?_
        rintro e q₃ hrec
        exact .inr (.inl ⟨hrec, hok s₂ rfl⟩)

theorem follows_runStarted (htarget : load.target = t) (hq : q.Idle) {src : ℕ} {run : LoadRun}
    {current : Watermark} :
    (stagingProtocol S (staging t)).Follows (r.runStarted load src run current)
      (fun _ q' => q'.Settled) q := by
  have hig := stagingProtocol_ignores (S := S) (staging t)
  have hsession : ReplaceSession.new r.sink load.target = session S t := by rw [hsink, htarget]
  unfold Runner.runStarted
  refine Protocol.Follows.call_ignored hig (by trivial) fun _ => ?_
  refine Protocol.Follows.call_ignored hig (by trivial) fun loadTS => ?_
  change (stagingProtocol S (staging t)).Follows (if load.mode = loadModeReplace then _ else _) _ q
  rw [if_pos hmode, hsession, hsink]
  refine (follows_prepareExisting hq).seq ?_
  rintro (e | s) q₁ ⟨hok, herr⟩
  · refine Protocol.Follows.mono (R := fun _ q' => q' = q₁) ?_ fun _ q' h => ?_
    · have hfailed : RunStatus.failed ≠ .success := by decide
      exact Protocol.Follows.of_calls hig
        ⟨hfailed, fun _ => ⟨trivial, fun _ => ⟨trivial, fun _ => trivial⟩⟩⟩
    · rw [h]
      exact (herr e rfl).settled rfl
  · refine (follows_readAndFinish hsink hmode (hok s rfl)).seq ?_
    intro exit q₂ hexit
    exact (follows_exitAbort hexit).seq fun _ _ h => h

/-- Every run settles what it did to its staging table. -/
theorem follows_execute (hkind : load.source.kind ≠ "modbus" ∧ load.source.kind ≠ "opcua")
    (htarget : load.target = t) (hq : q.Idle) :
    (stagingProtocol S (staging t)).Follows (r.execute load) (fun _ q' => q'.Settled) q := by
  have hig := stagingProtocol_ignores (S := S) (staging t)
  have hpoint : Runner.pointBased load = load := if_neg (not_or.2 hkind)
  unfold Runner.execute
  simp only [hpoint]
  cases r.resolveParams load.source.paramsJSON with
  | error e => exact hq.settled
  | ok params =>
    refine Protocol.Follows.call_ignored hig (by trivial) fun src => ?_
    cases src with
    | error e => exact hq.settled
    | ok src =>
      have hleased : (stagingProtocol S (staging t)).Follows (r.leased load src)
          (fun _ q' => q'.Settled) q := by
        refine Protocol.Follows.call_ignored hig (by trivial) fun wm => ?_
        cases wm with
        | error e => exact hq.settled
        | ok wm =>
          refine Protocol.Follows.call_ignored hig (by trivial) fun run => ?_
          cases run with
          | error e => exact hq.settled
          | ok run => exact follows_runStarted hsink hmode htarget hq
      refine hleased.seq fun exit q' hq' => ?_
      exact Protocol.Follows.call_ignored hig (by trivial) fun _ => hq'

end

end DataLoader
