import DataLoader.Pipeline.PoolProtocol

/-!
# What a call on the pool knows

A second protocol of the pool's functions: what a call knows while it holds the
lock of an entry (`Know`), namely what the entry holds, when the clock was read,
and which source it has built and opened. An answer that contradicts what is known
cannot come, since the entry is locked; the protocol allows everything after it.
`job_watched`: every function of the pool follows the protocol.
-/

namespace DataLoader

open Effects

/-- What a call knows. -/
structure Know where
  now : Option Time := none
  entry : Option (Int × PoolEntry) := none
  built : Option ℕ := none
  opened : Option ℕ := none
  granted : Option Lease := none
  /-- An entry was read that is not the one that was known. -/
  broken : Bool := false

/-- What the call knows after a step. -/
def Know.after (k : Know) : (c : PoolCall) → c.Ans → Know
  | .lock _, _ | .unlock _, _ => { k with entry := none }
  | .read id, (ent : PoolEntry) =>
    match k.entry with
    | none => { k with entry := some (id, ent) }
    | some (id', e) =>
      if id' = id ∧ e ≠ ent then { k with broken := true } else { k with entry := some (id, ent) }
  | .write id ent, _ => { k with entry := some (id, ent) }
  | .now, (t : Time) => { k with now := some t }
  | .build _, (.ok src : Except Err ℕ) => { k with built := some src }
  | .openSrc src, (none : Option Err) => { k with opened := some src }
  | .newLease .., (l : Lease) => { k with entry := none, granted := some l }
  | _, _ => k

namespace SourcePool

variable (p : SourcePool)

/-- The fingerprint of a configuration. -/
def identity (cfg : SourceConfig) : String := p.fingerprint cfg.sourceType cfg.params

/-- What a step of a call relies on. An entry is written to drop its source, to
    note the end of a lease, or to put in a source that has just been opened. -/
def Justified (job : PoolJob) (k : Know) : PoolCall → Prop
  | .now => k.opened = none
  | .write id ent =>
    ent.src = none ∨
      (∃ l inv e t, job = .release l inv ∧ k.entry = some (id, e) ∧ k.now = some t ∧
        ent = { e with lastUsed := t }) ∨
      ∃ cfg src t, job = .obtain cfg ∧ k.opened = some src ∧ k.now = some t ∧
        ent = ⟨some src, p.identity cfg, t, t⟩
  | .build cfg => job = .obtain cfg
  | .openSrc src => k.built = some src
  | .newLease id src => ∃ cfg e t, job = .obtain cfg ∧ k.entry = some (id, e) ∧ e.src = some src ∧
      k.now = some t ∧ p.reusable e (p.identity cfg) t = true
  | _ => True

/-- The protocol of what a call knows. -/
def watch (job : PoolJob) : Protocol poolSig Know where
  allows k c := k.broken = true ∨ p.Justified job k c
  next k c r := if k.broken then k else k.after c r

/-- The program follows the protocol and ends with `R`, as far as the answers are
    not contradictory. -/
def Watched {α : Type} (job : PoolJob) (prog : Prog poolSig α) (R : α → Know → Prop) (k : Know) :
    Prop :=
  (p.watch job).Follows prog (fun a k' => k'.broken = true ∨ R a k') k

variable {p} {job : PoolJob} {k : Know} {α β : Type} {R : α → Know → Prop}

theorem watched_of_broken (prog : Prog poolSig α) (hk : k.broken = true) :
    p.Watched job prog R k := by
  induction prog with
  | ret a => exact .inl hk
  | call c f ih =>
    refine ⟨.inl hk, fun r => ?_⟩
    have hnext : (p.watch job).next k c r = k := if_pos hk
    rw [hnext]
    exact ih r

theorem Watched.seq {R' : β → Know → Prop} {prog : Prog poolSig α} {f : α → Prog poolSig β}
    (hp : p.Watched job prog R k) (hf : ∀ a k', R a k' → p.Watched job (f a) R' k') :
    p.Watched job (prog >>= f) R' k := by
  refine Protocol.Follows.seq hp ?_
  rintro a k' (hbroken | hR)
  · exact watched_of_broken _ hbroken
  · exact hf a k' hR

/-- One step of a program. -/
theorem watched_call {c : PoolCall} {f : c.Ans → Prog poolSig α} (hc : p.Justified job k c)
    (hf : ∀ r, p.Watched job (f r) R (k.after c r)) :
    p.Watched job (.call (S := poolSig) c f) R k := by
  by_cases hk : k.broken = true
  · exact watched_of_broken _ hk
  · refine ⟨.inr hc, fun r => ?_⟩
    have hnext : (p.watch job).next k c r = k.after c r := if_neg hk
    rw [hnext]
    exact hf r

/-- An entry is read. What is known of it is what it holds. -/
theorem watched_read {id : Int} {f : PoolEntry → Prog poolSig α}
    (hf : ∀ ent, (∀ e, k.entry = some (id, e) → e = ent) →
      p.Watched job (f ent) R { k with entry := some (id, ent) }) :
    p.Watched job (.call (S := poolSig) (.read id) f) R k := by
  refine watched_call trivial fun ent => ?_
  simp only [Know.after]
  split
  next hnone => exact hf ent (by simp [hnone])
  next id' e hsome =>
    split_ifs with hne
    · exact watched_of_broken _ rfl
    · refine hf ent fun e' he' => ?_
      rw [hsome] at he'
      obtain ⟨rfl, rfl⟩ := Prod.mk.inj (Option.some.inj he')
      by_contra hne'
      exact hne ⟨rfl, hne'⟩

theorem closeEntry_watched (id : Int) : p.Watched job (closeEntry id)
    (fun _ k' => ∃ e, e.src = none ∧ k' = { k with entry := some (id, e) }) k := by
  refine watched_read fun ent _ => ?_
  obtain ⟨_ | src, fp, openedAt, lastUsed⟩ := ent
  · exact .inr ⟨_, rfl, rfl⟩
  · refine watched_call trivial fun _ => watched_call (.inl rfl) fun _ => ?_
    exact .inr ⟨_, rfl, rfl⟩

/-- After `evict`, what is left in the entry can be reused. -/
theorem evict_watched (id : Int) (fp : String) (now : Time) : p.Watched job (p.evict id fp now)
    (fun _ k' => ∃ e, (e.src = none ∨ p.reusable e fp now = true) ∧
      k' = { k with entry := some (id, e) }) k := by
  refine watched_read fun ent _ => ?_
  show p.Watched job
    (if ent.src.isSome && !p.reusable ent fp now then closeEntry id else return ()) _ _
  split_ifs with hdrop
  · refine (closeEntry_watched id).mono ?_
    rintro _ k' (hbroken | ⟨e, he, rfl⟩)
    · exact .inl hbroken
    · exact .inr ⟨e, .inl he, rfl⟩
  · refine .inr ⟨ent, ?_, rfl⟩
    cases hsrc : ent.src with
    | none => exact .inl rfl
    | some src => exact .inr (by simpa [hsrc] using hdrop)

theorem reusable_fresh (src : ℕ) (fp : String) (t : Time) :
    p.reusable ⟨some src, fp, t, t⟩ fp t = true := by
  have hage : ∀ limit : Int, ¬ (limit > 0 ∧ t - t > limit) := by
    rintro limit ⟨hpos, hlt⟩
    rw [Int.sub_self] at hlt
    exact Int.lt_asymm hpos hlt
  rw [reusable, if_neg (not_not.2 rfl), if_neg (hage p.idle), if_neg (hage p.maxAge)]

theorem openEntry_watched (cfg : SourceConfig) (now : Time) (hnow : k.now = some now) :
    p.Watched (.obtain cfg) (openEntry cfg (p.identity cfg) now)
      (fun res k' => ∀ src, res = .ok src → k'.now = some now ∧
        k'.entry = some (cfg.sourceID, ⟨some src, p.identity cfg, now, now⟩)) k := by
  refine watched_call rfl ?_
  rintro (e | src)
  · exact watched_call trivial fun _ => .inr fun _ h => (by cases h)
  · refine watched_call rfl ?_
    rintro (_ | e)
    · refine watched_call (.inr (.inr ⟨cfg, src, now, rfl, rfl, hnow, rfl⟩)) fun _ => .inr ?_
      intro src' h
      cases h
      exact ⟨hnow, rfl⟩
    · exact watched_call trivial fun _ => watched_call trivial fun _ => .inr fun _ h => (by cases h)

theorem obtain_watched (cfg : SourceConfig) : p.Watched (.obtain cfg) (p.obtain cfg)
    (fun res k' => ∀ l, res = .ok l → k'.granted = some l) {} := by
  refine watched_call trivial fun _ => watched_call trivial fun _ => watched_call rfl fun now => ?_
  refine (evict_watched cfg.sourceID (p.identity cfg) now).seq ?_
  rintro _ _ ⟨e, he, rfl⟩
  refine watched_read fun ent hent => ?_
  obtain rfl := hent e rfl
  obtain ⟨_ | src, fp, openedAt, lastUsed⟩ := e
  · refine (openEntry_watched cfg now rfl).seq ?_
    rintro (err | src) k' hk'
    · exact .inr fun _ h => (by cases h)
    · obtain ⟨hnow, hentry⟩ := hk' src rfl
      refine watched_call ⟨cfg, _, now, rfl, hentry, rfl, hnow, reusable_fresh src _ now⟩
        fun l => .inr ?_
      intro l' h
      cases h
      rfl
  · have hreuse := he.resolve_left (by simp)
    refine watched_call ⟨cfg, _, now, rfl, rfl, rfl, rfl, hreuse⟩ fun l => .inr ?_
    intro l' h
    cases h
    rfl

/-- The call knows of no source that it has opened, nor of a lease. -/
def Blank (k : Know) : Prop := k.opened = none ∧ k.granted = none

theorem release_watched (l : Lease) (inv : Bool) :
    p.Watched (.release l inv) (release l inv) (fun _ k' => Blank k') {} := by
  refine watched_call trivial ?_
  rintro (_ | _)
  · refine watched_call trivial fun _ => ?_
    dsimp only
    split_ifs
    · refine (closeEntry_watched l.id).seq ?_
      rintro _ _ ⟨e, -, rfl⟩
      exact watched_call trivial fun _ => .inr ⟨rfl, rfl⟩
    · refine watched_call rfl fun now => watched_read fun ent _ => ?_
      refine watched_call (.inr (.inl ⟨l, inv, ent, now, rfl, rfl, rfl, rfl⟩)) fun _ => ?_
      exact watched_call trivial fun _ => .inr ⟨rfl, rfl⟩
  · exact .inr ⟨rfl, rfl⟩

theorem invalidate_watched (id : Int) (hk : Blank k) :
    p.Watched job (invalidate id) (fun _ k' => Blank k') k := by
  refine watched_call trivial ?_
  rintro (_ | _)
  · exact .inr hk
  · refine watched_call trivial fun _ => (closeEntry_watched id).seq ?_
    rintro _ _ ⟨e, -, rfl⟩
    exact watched_call trivial fun _ => .inr hk

theorem invalidateEach_watched (ids : List Int) (hk : Blank k) :
    p.Watched job (invalidateEach ids) (fun _ k' => Blank k') k := by
  induction ids generalizing k with
  | nil => exact .inr hk
  | cons id ids ih => exact (invalidate_watched id hk).seq fun _ k' hk' => ih hk'

theorem pingEach_watched (ids : List Int) (hk : Blank k) :
    p.Watched job (pingEach ids) (fun _ k' => Blank k') k := by
  induction ids generalizing k with
  | nil => exact .inr hk
  | cons id ids ih =>
    have hrest : ∀ (err : Option Err) {k : Know}, Blank k → p.Watched job
        ((PoolCall.unlock id).perform >>= fun () => err.elim (pingEach ids) fun e =>
          return some ("source_id " ++ toString id ++ ": " ++ e)) (fun _ k' => Blank k') k := by
      intro err k hk
      refine watched_call trivial fun _ => ?_
      cases err with
      | some e => exact .inr hk
      | none => exact ih hk
    refine watched_call trivial fun _ => watched_read fun ent _ => ?_
    obtain ⟨_ | src, fp, openedAt, lastUsed⟩ := ent
    · exact hrest none hk
    · refine watched_call trivial fun err => ?_
      cases err with
      | none => exact hrest none hk
      | some e => exact hrest (some e) hk

/-- Every call of the pool follows the protocol; a lease that it returns is the one
    that was granted to it. -/
theorem job_watched (job : PoolJob) : p.Watched job (job.prog p)
    (fun res k' => ∀ l, res = .leased l → k'.granted = some l) {} := by
  cases job with
  | obtain cfg =>
    refine (obtain_watched cfg).seq ?_
    rintro (e | l) k' hk'
    · exact .inr fun _ h => (by cases h)
    · refine .inr fun l' h => ?_
      cases h
      exact hk' l rfl
  | release l inv =>
    exact (release_watched l inv).seq fun _ _ _ => .inr fun _ h => (by cases h)
  | invalidate id =>
    exact (invalidate_watched id ⟨rfl, rfl⟩).seq fun _ _ _ => .inr fun _ h => (by cases h)
  | invalidateAll =>
    refine watched_call trivial fun ids => ?_
    exact (invalidateEach_watched ids ⟨rfl, rfl⟩).seq fun _ _ _ => .inr fun _ h => (by cases h)
  | pingAll =>
    refine watched_call trivial fun ids => ?_
    exact (pingEach_watched ids ⟨rfl, rfl⟩).seq fun _ _ _ => .inr fun _ h => (by cases h)

theorem reusable_iff {e : PoolEntry} {fp : String} {t : Time} : p.reusable e fp t = true ↔
    e.fp = fp ∧ (0 < p.idle → t - e.lastUsed ≤ p.idle) ∧
      (0 < p.maxAge → t - e.openedAt ≤ p.maxAge) := by
  have hlimit : ∀ limit age : Int, ¬ (limit > 0 ∧ age > limit) ↔ (0 < limit → age ≤ limit) := by
    intro limit age
    rw [not_and, Int.not_lt]
  unfold reusable
  split_ifs with h1 h2 h3
  · simp [h1]
  · simp only [false_iff, ← hlimit]
    exact fun h => h.2.1 h2
  · simp only [false_iff, ← hlimit]
    exact fun h => h.2.2 h3
  · simp only [true_iff, ← hlimit]
    exact ⟨not_not.1 h1, h2, h3⟩

end SourcePool

end DataLoader
