import DataLoader.Effects.Protocol
import DataLoader.Pipeline.Pool

/-!
# The discipline of the pool's functions

What a call on the pool may do where, as a protocol on its steps: the fields of
an entry are only touched under the entry's lock, a source is closed either
before it gets into an entry or while it is in the entry whose lock is held, and
an entry never keeps a source that has been closed. Each function of the pool
follows the protocol through every branch (`job_follows`).
-/

namespace DataLoader

open Effects

/-- The calls of the pool that callers make. -/
inductive PoolJob
  | obtain (cfg : SourceConfig)
  | release (l : Lease) (invalidate : Bool)
  | invalidate (id : Int)
  | invalidateAll
  | pingAll

/-- What a call returns. -/
inductive PoolResult
  | leased (l : Lease)
  | failed (e : Err)
  | done
  | pinged (err : Option Err)

/-- The program of a call. -/
def PoolJob.prog (p : SourcePool) : PoolJob → Prog poolSig PoolResult
  | .obtain cfg => do
    match ← p.obtain cfg with
    | .error e => return .failed e
    | .ok l => return .leased l
  | .release l inv => do SourcePool.release l inv; return .done
  | .invalidate id => do SourcePool.invalidate id; return .done
  | .invalidateAll => do SourcePool.invalidateAll; return .done
  | .pingAll => do return .pinged (← SourcePool.pingAll)

/-- Where a call stands. In all phases but the first and the last it holds the
    lock of the entry. -/
inductive PoolPhase
  | free
  /-- The fields have not been read yet. -/
  | held (id : Int)
  /-- The entry's source is `src`. -/
  | known (id : Int) (src : Option ℕ)
  /-- The entry's source has been closed and is still in the entry. -/
  | closing (id : Int) (src : ℕ)
  /-- A source has been built for the empty entry. -/
  | fresh (id : Int) (src : ℕ)
  /-- The flag of the lease was found unset. -/
  | unreleased (l : Lease)
  deriving DecidableEq, Repr

namespace SourcePool

/-- The protocol of a call. Only `release` touches a lease, its own, only `Obtain`
    builds a source, and `Obtain` unlocks an entry only when it is empty. -/
def protocol (job : PoolJob) : Protocol poolSig PoolPhase where
  allows q c :=
    match c with
    | .slot _ | .find _ | .slots | .now | .openSrc _ | .ping _ => True
    | .lock _ => q = .free
    | .unlock id => ∃ x, q = .known id x ∧ ((∃ cfg, job = .obtain cfg) → x = none)
    | .read id => q = .held id ∨ ∃ x, q = .known id x
    | .write id ent =>
      (∃ x, q = .known id x ∧ ent.src = x) ∨ (∃ src, q = .closing id src ∧ ent.src = none) ∨
        ∃ src, q = .fresh id src ∧ ent.src = some src
    | .build cfg => q = .known cfg.sourceID none ∧ job = .obtain cfg
    | .closeSrc src => ∃ id, q = .known id (some src) ∨ q = .fresh id src
    | .newLease id src => q = .known id (some src)
    | .released l => q = .free ∧ ∃ inv, job = .release l inv
    | .setReleased l => q = .unreleased l
  next q c r :=
    match c, r with
    | .lock id, _ => .held id
    | .unlock _, _ => .free
    | .read id, (ent : PoolEntry) => .known id ent.src
    | .write id ent, _ => .known id ent.src
    | .build _, (.ok src : Except Err ℕ) =>
      match q with
      | .known id _ => .fresh id src
      | q => q
    | .closeSrc src, _ =>
      match q with
      | .known id _ => .closing id src
      | .fresh id _ => .known id none
      | q => q
    | .newLease .., _ => .free
    | .released l, (false : Bool) => .unreleased l
    | .setReleased l, _ => .held l.id
    | _, _ => q

variable {job : PoolJob} {p : SourcePool} {q : PoolPhase} {id : Int}

/-- A step that the protocol allows everywhere and that changes no phase. -/
theorem call_neutral {α : Type} {c : PoolCall} {k : c.Ans → Prog poolSig α}
    {R : α → PoolPhase → Prop} (hc : (protocol job).allows q c)
    (hn : ∀ r, (protocol job).next q c r = q) (hk : ∀ r, (protocol job).Follows (k r) R q) :
    (protocol job).Follows (.call (S := poolSig) c k) R q := by
  refine ⟨hc, fun r => ?_⟩
  rw [hn r]
  exact hk r

theorem closeEntry_follows (hq : q = .held id ∨ ∃ x, q = .known id x) :
    (protocol job).Follows (closeEntry id) (fun _ q' => q' = .known id none) q := by
  refine ⟨hq, ?_⟩
  rintro ⟨_ | src, fp, openedAt, lastUsed⟩
  · rfl
  · exact ⟨⟨id, .inl rfl⟩, fun _ => ⟨.inr (.inl ⟨src, rfl, rfl⟩), fun _ => rfl⟩⟩

theorem evict_follows (fp : String) (now : Time) :
    (protocol job).Follows (p.evict id fp now) (fun _ q' => ∃ x, q' = .known id x) (.held id) := by
  refine ⟨.inl rfl, fun ent : PoolEntry => ?_⟩
  show (protocol job).Follows
    (if ent.src.isSome && !p.reusable ent fp now then closeEntry id else return ()) _
    (.known id ent.src)
  split_ifs
  · exact (closeEntry_follows (.inr ⟨ent.src, rfl⟩)).mono fun _ _ hq => ⟨none, hq⟩
  · exact ⟨ent.src, rfl⟩

theorem openEntry_follows (cfg : SourceConfig) (fp : String) (now : Time) :
    (protocol (.obtain cfg)).Follows (openEntry cfg fp now)
      (fun res q' => (∃ e, res = .error e ∧ q' = .free) ∨
        ∃ src, res = .ok src ∧ q' = .known cfg.sourceID (some src)) (.known cfg.sourceID none) := by
  have hunlock : (protocol (.obtain cfg)).allows (.known cfg.sourceID none) (.unlock cfg.sourceID) :=
    ⟨none, rfl, fun _ => rfl⟩
  refine ⟨⟨rfl, rfl⟩, ?_⟩
  rintro (e | src)
  · exact ⟨hunlock, fun _ => .inl ⟨e, rfl, rfl⟩⟩
  · refine call_neutral (by trivial) (fun _ => rfl) ?_
    rintro (_ | e)
    · refine ⟨.inr (.inr ⟨src, rfl, rfl⟩), fun _ => .inr ⟨src, rfl, rfl⟩⟩
    · exact ⟨⟨cfg.sourceID, .inr rfl⟩, fun _ => ⟨hunlock, fun _ => .inl ⟨e, rfl, rfl⟩⟩⟩

theorem obtain_follows (cfg : SourceConfig) :
    (protocol (.obtain cfg)).Follows (p.obtain cfg) (fun _ q' => q' = .free) .free := by
  refine call_neutral (by trivial) (fun _ => rfl) fun _ => ⟨rfl, fun _ => ?_⟩
  refine call_neutral (by trivial) (fun _ => rfl) fun now => ?_
  refine (evict_follows _ now).seq ?_
  rintro _ _ ⟨x, rfl⟩
  refine ⟨.inr ⟨x, rfl⟩, ?_⟩
  rintro ⟨_ | src, fp, openedAt, lastUsed⟩
  · refine (openEntry_follows cfg _ now).seq ?_
    rintro res _ (⟨e, rfl, rfl⟩ | ⟨src, rfl, rfl⟩)
    · rfl
    · exact ⟨rfl, fun _ => rfl⟩
  · exact ⟨rfl, fun _ => rfl⟩

/-- The end of `release` and of `Invalidate`. -/
theorem unlock_follows (hjob : ∀ cfg, job ≠ .obtain cfg) (x : Option ℕ) :
    (protocol job).Follows (PoolCall.unlock id).perform (fun _ q' => q' = .free) (.known id x) :=
  ⟨⟨x, rfl, fun ⟨cfg, h⟩ => absurd h (hjob cfg)⟩, fun _ => rfl⟩

theorem release_follows (l : Lease) (inv : Bool) :
    (protocol (.release l inv)).Follows (release l inv) (fun _ q' => q' = .free) .free := by
  have hjob : ∀ cfg, PoolJob.release l inv ≠ .obtain cfg := fun _ h => by cases h
  refine ⟨⟨rfl, inv, rfl⟩, ?_⟩
  rintro (_ | _)
  · refine ⟨rfl, fun _ => ?_⟩
    dsimp only
    split_ifs
    · refine (closeEntry_follows (.inl rfl)).seq ?_
      rintro _ _ rfl
      exact unlock_follows hjob none
    · refine call_neutral (by trivial) (fun _ => rfl) fun now => ?_
      refine ⟨.inl rfl, fun ent : PoolEntry => ⟨.inl ⟨ent.src, rfl, rfl⟩, fun _ => ?_⟩⟩
      exact unlock_follows hjob ent.src
  · rfl

theorem invalidate_follows (hjob : ∀ cfg, job ≠ .obtain cfg) (id : Int) :
    (protocol job).Follows (invalidate id) (fun _ q' => q' = .free) .free := by
  refine call_neutral (by trivial) (fun _ => rfl) ?_
  rintro (_ | _)
  · rfl
  · refine ⟨rfl, fun _ => ?_⟩
    refine (closeEntry_follows (.inl rfl)).seq ?_
    rintro _ _ rfl
    exact unlock_follows hjob none

theorem invalidateEach_follows (hjob : ∀ cfg, job ≠ .obtain cfg) (ids : List Int) :
    (protocol job).Follows (invalidateEach ids) (fun _ q' => q' = .free) .free := by
  induction ids with
  | nil => rfl
  | cons id ids ih =>
    refine (invalidate_follows hjob id).seq ?_
    rintro _ _ rfl
    exact ih

theorem pingEach_follows (hjob : ∀ cfg, job ≠ .obtain cfg) (ids : List Int) :
    (protocol job).Follows (pingEach ids) (fun _ q' => q' = .free) .free := by
  induction ids with
  | nil => rfl
  | cons id ids ih =>
    have hrest : ∀ (err : Option Err) (x : Option ℕ), (protocol job).Follows
        ((PoolCall.unlock id).perform >>= fun () => err.elim (pingEach ids) fun e =>
          return some ("source_id " ++ toString id ++ ": " ++ e)) (fun _ q' => q' = .free) (.known id x) := by
      intro err x
      refine (unlock_follows hjob x).seq ?_
      rintro _ _ rfl
      cases err with
      | some e => rfl
      | none => exact ih
    refine ⟨rfl, fun _ => ⟨.inl rfl, ?_⟩⟩
    rintro ⟨_ | src, fp, openedAt, lastUsed⟩
    · exact hrest none none
    · refine call_neutral (by trivial) (fun _ => rfl) fun err => ?_
      cases err with
      | none => exact hrest none (some src)
      | some e => exact hrest (some e) (some src)

/-- Every call of the pool follows its protocol, and holds nothing when it
    returns. -/
theorem job_follows (job : PoolJob) :
    (protocol job).Follows (job.prog p) (fun _ q' => q' = .free) .free := by
  cases job with
  | obtain cfg =>
    refine (obtain_follows cfg).seq ?_
    rintro res _ rfl
    cases res <;> rfl
  | release l inv =>
    refine (release_follows l inv).seq ?_
    rintro _ _ rfl
    rfl
  | invalidate id =>
    refine (invalidate_follows (fun _ h => by cases h) id).seq ?_
    rintro _ _ rfl
    rfl
  | invalidateAll =>
    refine call_neutral (by trivial) (fun _ => rfl) fun ids => ?_
    refine (invalidateEach_follows (fun _ h => by cases h) ids).seq ?_
    rintro _ _ rfl
    rfl
  | pingAll =>
    refine call_neutral (by trivial) (fun _ => rfl) fun ids => ?_
    refine (pingEach_follows (fun _ h => by cases h) ids).seq ?_
    rintro _ _ rfl
    rfl

/-! ## How a failed `Obtain` ends -/

theorem openEntry_ends (cfg : SourceConfig) (fp : String) (now : Time) (q : Option PoolCall) :
    (lastCall poolSig).Follows (openEntry cfg fp now)
      (fun res q' => ∀ e, res = .error e → q' = some (.unlock cfg.sourceID)) q := by
  refine ⟨trivial, ?_⟩
  rintro (e | src)
  · exact ⟨trivial, fun _ _ _ => rfl⟩
  · refine ⟨trivial, ?_⟩
    rintro (_ | e)
    · exact ⟨trivial, fun _ e he => by cases he⟩
    · exact ⟨trivial, fun _ => ⟨trivial, fun _ _ _ => rfl⟩⟩

/-- The last thing that a failed `Obtain` does is to unlock its entry. -/
theorem obtain_ends (cfg : SourceConfig) (q : Option PoolCall) :
    (lastCall poolSig).Follows (PoolJob.prog p (.obtain cfg))
      (fun res q' => ∀ e, res = .failed e → q' = some (.unlock cfg.sourceID)) q := by
  have hobtain : (lastCall poolSig).Follows (p.obtain cfg)
      (fun res q' => ∀ e, res = .error e → q' = some (.unlock cfg.sourceID)) q := by
    refine ⟨trivial, fun _ => ⟨trivial, fun _ => ⟨trivial, fun now => ?_⟩⟩⟩
    refine (lastCall_follows (p.evict cfg.sourceID _ now) _).seq fun _ _ _ => ⟨trivial, ?_⟩
    rintro ⟨_ | src, fp, openedAt, lastUsed⟩
    · refine (openEntry_ends cfg _ now _).seq ?_
      rintro (e | src) q' hq'
      · exact fun _ _ => hq' e rfl
      · exact ⟨trivial, fun _ e he => by cases he⟩
    · exact ⟨trivial, fun _ e he => by cases he⟩
  refine hobtain.seq ?_
  rintro (e | l) q' hq'
  · exact fun _ _ => hq' e rfl
  · exact fun e he => by cases he

end SourcePool

end DataLoader
