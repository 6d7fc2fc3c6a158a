import DataLoader.Pipeline.PoolFit

/-!
# Invalidation of the whole pool

`InvalidateAll` runs after every reload of the metadata and, as `Close`, when the
process stops. It takes the ids of the map once and then visits one entry after the
other, while other callers build, lease and release sources.

* `InPool`: a source is in an entry or in the hands of the `Obtain` that has built it.
  `inPool_effect`: a source never gets to another id.
* `sweep`: the ids that a call of `InvalidateAll` has still to visit.
* `invalidateAll_closes`: the sources that were built before the call are closed when it
  returns, and no lease is on one of them from then on.
-/

namespace DataLoader

open Effects

namespace PoolSys

variable {p : SourcePool} {w w' : PoolSys} {ph : ℕ → PoolPhase} {place : ℕ → Place}

/-! ## Where a source can be -/

/-- The source is in the entry `id`, or a call has built it for that entry. -/
def InPool (ph : ℕ → PoolPhase) (s : PoolState) (id : Int) (src : ℕ) : Prop :=
  (s.entry id).src = some src ∨ ∃ j, ph j = .fresh id src

/-- A step puts a source nowhere where it has not been, unless it builds the source. -/
theorem inPool_effect {i : ℕ} {job : PoolJob} {c : PoolCall} {o : PoolOut} {r : c.Ans}
    {s s' : PoolState} (hfits : SourcePool.Fits place s i (ph i))
    (hallow : (SourcePool.protocol job).allows (ph i) c) (heff : s.effect o c = some (r, s'))
    {id : Int} {src : ℕ}
    (h : InPool (Function.update ph i ((SourcePool.protocol job).next (ph i) c r)) s' id src) :
    InPool ph s id src ∨ src = s.nextSrc ∧ ∃ cfg, c = .build cfg ∧ cfg.sourceID = id := by
  obtain hentry | ⟨j, hj⟩ := h
  · rcases (PoolState.effect_frame heff).2.2 id with hsame | ⟨ent, rfl, hent⟩
    · exact .inl (.inl (by rw [← hsame]; exact hentry))
    · rw [hent] at hentry
      rcases hallow with ⟨x, hq, hx⟩ | ⟨src', hq, hx⟩ | ⟨src', hq, hx⟩
      · rw [hq] at hfits
        exact .inl (.inl (Eq.trans hfits (hx.symm.trans hentry)))
      · rw [hx] at hentry
        cases hentry
      · obtain rfl : src' = src := Option.some.inj (hx.symm.trans hentry)
        exact .inl (.inr ⟨i, hq⟩)
  · by_cases hji : j = i
    · subst hji
      rw [Function.update_self] at hj
      have hkept : ph j = .fresh id src → InPool ph s id src ∨
          src = s.nextSrc ∧ ∃ cfg, c = .build cfg ∧ cfg.sourceID = id := fun hq =>
        .inl (.inr ⟨j, hq⟩)
      cases c with
      | build cfg =>
        cases (r : Except Err ℕ) with
        | error e => exact hkept hj
        | ok src' =>
          rw [hallow.1] at hj
          obtain ⟨hid, rfl⟩ : cfg.sourceID = id ∧ src' = src := PoolPhase.fresh.inj hj
          exact .inr ⟨(build_new heff).1, cfg, rfl, hid⟩
      | closeSrc src' => obtain ⟨id', hq | hq⟩ := hallow <;> rw [hq] at hj <;> cases hj
      | released l =>
        cases (r : Bool) with
        | false => cases hj
        | true => exact hkept hj
      | lock | unlock | read | write | newLease | setReleased => cases hj
      | slot | find | slots | now | openSrc | ping => exact hkept hj
    · rw [Function.update_of_ne hji] at hj
      exact .inl (.inr ⟨j, hj⟩)

/-! ## Every source is under an id of the map -/

/-- A call that neither makes an entry nor builds a source. -/
def offSlots : PoolCall → Prop
  | .slot _ | .build _ => False
  | _ => True

/-- A source is built for an id only after the entry of the id has been made. The state
    is the ids whose entries the call has made. -/
def slotted : Protocol poolSig (List Int) where
  allows q c :=
    match c with
    | .build cfg => cfg.sourceID ∈ q
    | _ => True
  next q c _ :=
    match c with
    | .slot id => id :: q
    | _ => q

theorem slotted_ignores : slotted.Ignores offSlots := by
  intro c hc q
  cases c with
  | slot | build => exact hc.elim
  | _ => exact ⟨trivial, fun _ => rfl⟩

theorem closeEntry_offSlots (id : Int) : (SourcePool.closeEntry id).Calls offSlots := by
  refine ⟨trivial, ?_⟩
  rintro ⟨_ | src, fp, openedAt, lastUsed⟩
  · trivial
  · exact ⟨trivial, fun _ => ⟨trivial, fun _ => trivial⟩⟩

theorem evict_offSlots (id : Int) (fp : String) (now : Time) :
    (p.evict id fp now).Calls offSlots := by
  refine ⟨trivial, fun ent : PoolEntry => ?_⟩
  show (if ent.src.isSome && !p.reusable ent fp now then SourcePool.closeEntry id
    else return ()).Calls offSlots
  split_ifs
  · exact closeEntry_offSlots id
  · trivial

theorem release_offSlots (l : Lease) (inv : Bool) : (SourcePool.release l inv).Calls offSlots := by
  refine ⟨trivial, ?_⟩
  rintro (_ | _)
  · refine ⟨trivial, fun _ => ?_⟩
    dsimp only
    split_ifs
    · exact (closeEntry_offSlots l.id).bind fun _ => ⟨trivial, fun _ => trivial⟩
    · exact ⟨trivial, fun _ => ⟨trivial, fun _ => ⟨trivial, fun _ => ⟨trivial, fun _ => trivial⟩⟩⟩⟩
  · trivial

theorem invalidate_offSlots (id : Int) : (SourcePool.invalidate id).Calls offSlots := by
  refine ⟨trivial, ?_⟩
  rintro (_ | _)
  · trivial
  · exact ⟨trivial, fun _ => (closeEntry_offSlots id).bind fun _ => ⟨trivial, fun _ => trivial⟩⟩

theorem invalidateEach_offSlots (ids : List Int) :
    (SourcePool.invalidateEach ids).Calls offSlots := by
  induction ids with
  | nil => trivial
  | cons id ids ih => exact (invalidate_offSlots id).bind fun _ => ih

theorem pingEach_offSlots (ids : List Int) : (SourcePool.pingEach ids).Calls offSlots := by
  induction ids with
  | nil => trivial
  | cons id ids ih =>
    refine ⟨trivial, fun _ => ⟨trivial, ?_⟩⟩
    rintro ⟨_ | src, fp, openedAt, lastUsed⟩
    · exact ⟨trivial, fun _ => ih⟩
    · refine ⟨trivial, ?_⟩
      rintro (_ | e)
      · exact ⟨trivial, fun _ => ih⟩
      · exact ⟨trivial, fun _ => trivial⟩

theorem openEntry_slotted (cfg : SourceConfig) (fp : String) (now : Time) {q : List Int}
    (hq : cfg.sourceID ∈ q) :
    slotted.Follows (SourcePool.openEntry cfg fp now) (fun _ _ => True) q := by
  refine ⟨hq, ?_⟩
  rintro (e | src)
  · exact ⟨trivial, fun _ => trivial⟩
  · refine ⟨trivial, ?_⟩
    rintro (_ | e)
    · exact ⟨trivial, fun _ => trivial⟩
    · exact ⟨trivial, fun _ => ⟨trivial, fun _ => trivial⟩⟩

theorem obtain_slotted (cfg : SourceConfig) (q : List Int) :
    slotted.Follows (p.obtain cfg) (fun _ _ => True) q := by
  refine ⟨trivial, fun _ => ⟨trivial, fun _ => ⟨trivial, fun now => ?_⟩⟩⟩
  refine (Protocol.Follows.of_calls slotted_ignores (evict_offSlots _ _ now)).seq ?_
  rintro _ _ rfl
  refine ⟨trivial, ?_⟩
  rintro ⟨_ | src, fp, openedAt, lastUsed⟩
  · refine (openEntry_slotted cfg _ now List.mem_cons_self).seq ?_
    rintro (e | src) _ -
    · trivial
    · exact ⟨trivial, fun _ => trivial⟩
  · exact ⟨trivial, fun _ => trivial⟩

/-- Every call of the pool builds sources only for entries that it has made. -/
theorem job_slotted (job : PoolJob) (q : List Int) :
    slotted.Follows (job.prog p) (fun _ _ => True) q := by
  have hoff : ∀ {prog : Prog poolSig PoolResult}, prog.Calls offSlots →
      slotted.Follows prog (fun _ _ => True) q := fun h =>
    (Protocol.Follows.of_calls slotted_ignores h).mono fun _ _ _ => trivial
  cases job with
  | obtain cfg =>
    refine (obtain_slotted cfg q).seq ?_
    rintro (e | l) _ - <;> trivial
  | release l inv => exact hoff ((release_offSlots l inv).bind fun _ => trivial)
  | invalidate id => exact hoff ((invalidate_offSlots id).bind fun _ => trivial)
  | invalidateAll =>
    exact hoff ⟨trivial, fun ids => (invalidateEach_offSlots ids).bind fun _ => trivial⟩
  | pingAll => exact hoff ⟨trivial, fun ids => (pingEach_offSlots ids).bind fun _ => trivial⟩

/-- The sources of the pool are under ids of its map, and the calls know the entries
    that they have made. -/
structure Slotted (ph : ℕ → PoolPhase) (w : PoolSys) : Prop where
  sources : ∀ {id src}, InPool ph w.pool id src → id ∈ w.pool.slots
  calls : ∀ {i run}, w.busy i = some run → ∃ q,
    slotted.Follows run.rest (fun _ _ => True) q ∧ ∀ id ∈ q, id ∈ w.pool.slots

theorem slots_effect {c : PoolCall} {o : PoolOut} {r : c.Ans} {s s' : PoolState}
    (heff : s.effect o c = some (r, s')) {id : Int} (hid : id ∈ s.slots) : id ∈ s'.slots := by
  cases c with
  | slot id' =>
    cases heff
    split_ifs
    · exact hid
    · exact List.mem_append_left _ hid
  | slots =>
    cases o <;> simp only [PoolState.effect] at heff
    · cases heff
    · cases heff
    · split_ifs at heff
      cases heff
      exact hid
  | lock id' | unlock id' =>
    simp only [PoolState.effect] at heff
    split_ifs at heff
    cases heff
    exact hid
  | build cfg => cases o <;> cases heff <;> exact hid
  | _ =>
    cases heff
    exact hid

theorem slot_made {id : Int} {o : PoolOut} {r : Unit} {s s' : PoolState}
    (heff : s.effect o (.slot id) = some (r, s')) : id ∈ s'.slots := by
  cases heff
  split_ifs with hmem
  · exact hmem
  · exact List.mem_append_right _ List.mem_cons_self

theorem slotted_start (n : ℕ) (t : Time) : Slotted (fun _ => .free) (start n t) where
  sources := by
    rintro id src (h | ⟨j, h⟩)
    · simp [start] at h
    · cases h
  calls := by simp

/-- A call in progress makes a step. -/
theorem Slotted.effect {i : ℕ} {o : PoolOut} {job : PoolJob} {since : Time} {c : PoolCall}
    {k : c.Ans → Prog poolSig PoolResult} {r : c.Ans} (h : Slotted ph w) (hinv : Inv ph place w)
    (hrun : w.busy i = some ⟨job, since, .call c k⟩)
    (heff : w.pool.effect o c = some (r, w'.pool))
    (hbusy : w'.busy = Function.update w.busy i (some ⟨job, since, k r⟩)) :
    Slotted (Function.update ph i ((SourcePool.protocol job).next (ph i) c r)) w' := by
  obtain ⟨q, hfollows, hq⟩ := h.calls hrun
  constructor
  · intro id src hsrc
    refine slots_effect heff ?_
    rcases inPool_effect (hinv.sound.fits i) (hinv.follows hrun).1 heff hsrc with
      hold | ⟨-, cfg, rfl, rfl⟩
    · exact h.sources hold
    · exact hq _ hfollows.1
  · intro j run hj
    rcases busy_cases hbusy hj with ⟨rfl, rfl⟩ | ⟨-, hj⟩
    · refine ⟨slotted.next q c r, hfollows.2 r, fun id hid => ?_⟩
      cases c with
      | slot id' =>
        rcases List.mem_cons.1 hid with rfl | hid
        · exact slot_made heff
        · exact slots_effect heff (hq id hid)
      | _ => exact slots_effect heff (hq id hid)
    · obtain ⟨q', hfollows', hq'⟩ := h.calls hj
      exact ⟨q', hfollows', fun id hid => slots_effect heff (hq' id hid)⟩

/-- A call begins or ends, or time passes. What is left to show is about a call that
    begins. -/
theorem Slotted.turn (h : Slotted ph w) (hentry : w'.pool.entry = w.pool.entry)
    (hslots : w'.pool.slots = w.pool.slots)
    (hbusy : ∀ {j run}, w'.busy j = some run → w.busy j = some run ∨
      slotted.Follows run.rest (fun _ _ => True) []) : Slotted ph w' := by
  constructor
  · intro id src hsrc
    rw [hslots]
    exact h.sources (hsrc.imp_left fun hent => by rw [← hentry]; exact hent)
  · intro j run hj
    rcases hbusy hj with hold | hnew
    · rw [hslots]
      exact h.calls hold
    · exact ⟨[], hnew, by simp⟩

/-! ## The ids that are still to be visited -/

/-- How far a call of `InvalidateAll` has come: the ids that it has still to visit, all
    until it has read the map, and its phase. -/
structure Sweep where
  left : Set Int
  phase : PoolPhase

/-- An id has been visited when its empty entry is unlocked, or when the map has no
    entry for it. -/
def sweep : Protocol poolSig Sweep where
  allows s c := (SourcePool.protocol .invalidateAll).allows s.phase c
  next s c r :=
    { left :=
        match c, r with
        | .slots, (ids : List Int) => {id | id ∈ ids}
        | .find id, (false : Bool) => s.left \ {id}
        | .unlock id, _ => if s.phase = .known id none then s.left \ {id} else s.left
        | _, _ => s.left
      phase := (SourcePool.protocol .invalidateAll).next s.phase c r }

theorem closeEntry_sweep (left : Set Int) (id : Int) :
    sweep.Follows (SourcePool.closeEntry id) (fun _ s => s = ⟨left, .known id none⟩)
      ⟨left, .held id⟩ := by
  refine ⟨.inl rfl, ?_⟩
  rintro ⟨_ | src, fp, openedAt, lastUsed⟩
  · rfl
  · exact ⟨⟨id, .inl rfl⟩, fun _ => ⟨.inr (.inl ⟨src, rfl, rfl⟩), fun _ => rfl⟩⟩

theorem invalidate_sweep (left : Set Int) (id : Int) :
    sweep.Follows (SourcePool.invalidate id) (fun _ s => s = ⟨left \ {id}, .free⟩)
      ⟨left, .free⟩ := by
  refine ⟨trivial, ?_⟩
  rintro (_ | _)
  · rfl
  · refine ⟨rfl, fun _ => ?_⟩
    refine (closeEntry_sweep left id).seq ?_
    rintro _ _ rfl
    refine ⟨⟨none, rfl, fun _ => rfl⟩, fun _ => ?_⟩
    show Sweep.mk (if PoolPhase.known id none = .known id none then left \ {id} else left) _ = _
    rw [if_pos rfl]
    rfl

theorem invalidateEach_sweep (left : Set Int) (ids : List Int) :
    sweep.Follows (SourcePool.invalidateEach ids)
      (fun _ s => s = ⟨left \ {id | id ∈ ids}, .free⟩) ⟨left, .free⟩ := by
  induction ids generalizing left with
  | nil => simp [SourcePool.invalidateEach, Protocol.Follows]
  | cons id ids ih =>
    refine (invalidate_sweep left id).seq ?_
    rintro _ _ rfl
    refine (ih _).mono ?_
    rintro _ _ rfl
    congr 1
    ext x
    simp [not_or, and_assoc]

/-- When `InvalidateAll` returns, it has no id left to visit. -/
theorem invalidateAll_sweep :
    sweep.Follows (PoolJob.prog p .invalidateAll) (fun _ s => s.left = ∅)
      ⟨Set.univ, .free⟩ := by
  refine ⟨trivial, fun ids : List Int => ?_⟩
  refine (invalidateEach_sweep {id | id ∈ ids} ids).seq ?_
  rintro _ _ rfl
  exact Set.sdiff_self

/-! ## The sources that were built before the call -/

/-- The sources below `n` that are still in the pool are under ids of `left`. -/
def Confined (n : ℕ) (left : Set Int) (ph : ℕ → PoolPhase) (w : PoolSys) : Prop :=
  ∀ id src, src < n → InPool ph w.pool id src → id ∈ left

/-- No step brings an old source to another id. -/
theorem Confined.effect {n : ℕ} {left : Set Int} {i : ℕ} {o : PoolOut} {job : PoolJob}
    {since : Time} {c : PoolCall} {k : c.Ans → Prog poolSig PoolResult} {r : c.Ans}
    (h : Confined n left ph w) (hinv : Inv ph place w) (hn : n ≤ w.pool.nextSrc)
    (hrun : w.busy i = some ⟨job, since, .call c k⟩)
    (heff : w.pool.effect o c = some (r, w'.pool)) :
    Confined n left (Function.update ph i ((SourcePool.protocol job).next (ph i) c r)) w' := by
  intro id src hsrc hin
  rcases inPool_effect (hinv.sound.fits i) (hinv.follows hrun).1 heff hin with hold | ⟨rfl, -⟩
  · exact h id src hsrc hold
  · exact absurd hn (Nat.not_le.2 hsrc)

/-- An entry that a call holds the lock of and that is empty has no source under it. -/
theorem Inv.vacant (h : Inv ph place w) {i : ℕ} {id : Int} (hi : ph i = .known id none) (src : ℕ) :
    ¬ InPool ph w.pool id src := by
  have hfit := h.sound.fits i
  rw [hi] at hfit
  rintro (hentry | ⟨j, hj⟩)
  · rw [hfit] at hentry
    cases hentry
  · have hkey : (ph i).key = some id := by rw [hi]; rfl
    have hkey' : (ph j).key = some id := by rw [hj]; rfl
    obtain rfl := h.key_unique hkey hkey'
    rw [hi] at hj
    cases hj

/-- The step of the `InvalidateAll` itself: what it takes off its list has no source. -/
theorem Confined.visit {n : ℕ} {left : Set Int} {i : ℕ} {o : PoolOut} {since : Time}
    {c : PoolCall} {k : c.Ans → Prog poolSig PoolResult} {r : c.Ans} (h : Confined n left ph w)
    (hinv : Inv ph place w) (hslotted : Slotted ph w) (hn : n ≤ w.pool.nextSrc)
    (hrun : w.busy i = some ⟨.invalidateAll, since, .call c k⟩)
    (heff : w.pool.effect o c = some (r, w'.pool)) :
    Confined n (sweep.next ⟨left, ph i⟩ c r).left
      (Function.update ph i ((SourcePool.protocol .invalidateAll).next (ph i) c r)) w' := by
  have hnone : ∀ {id}, (∀ src, ¬ InPool ph w.pool id src) → Confined n (left \ {id}) ph w := by
    intro id hid id' src hsrc hin
    refine ⟨h id' src hsrc hin, ?_⟩
    rintro rfl
    exact hid src hin
  refine Confined.effect ?_ hinv hn hrun heff
  cases c with
  | slots =>
    cases o with
    | order ids =>
      simp only [PoolState.effect] at heff
      split_ifs at heff with hperm
      obtain ⟨rfl, -⟩ := Prod.mk.inj (Option.some.inj heff)
      intro id src _ hin
      exact (List.isPerm_iff.1 hperm).mem_iff.2 (hslotted.sources hin)
    | ok => cases heff
    | fail e => cases heff
  | find id =>
    obtain ⟨rfl, -⟩ := Prod.mk.inj (Option.some.inj heff)
    by_cases hmem : id ∈ w.pool.slots
    · simp only [hmem, decide_true]
      exact h
    · simp only [hmem, decide_false]
      exact hnone fun src hin => hmem (hslotted.sources hin)
  | unlock id =>
    show Confined n (if ph i = .known id none then left \ {id} else left) ph w
    split_ifs with hq
    · exact hnone (hinv.vacant hq)
    · exact h
  | _ => exact h

/-- A call of `InvalidateAll` is in progress, and the sources below `n` are where it has
    still to come. -/
def Sweeping (n i : ℕ) (ph : ℕ → PoolPhase) (w : PoolSys) : Prop :=
  ∃ left since rest, w.busy i = some ⟨.invalidateAll, since, rest⟩ ∧
    sweep.Follows rest (fun _ s => s.left = ∅) ⟨left, ph i⟩ ∧ Confined n left ph w

/-- What the callers' phases say of a state. -/
structure Steady (ph : ℕ → PoolPhase) (w : PoolSys) : Prop where
  inv : ∃ place, Inv ph place w
  slots : Slotted ph w

/-- From one state with phases to the next: no old source moves, and an `InvalidateAll`
    that does not end goes on. -/
structure Advances (a : PoolAct) (ph : ℕ → PoolPhase) (w : PoolSys) (ph' : ℕ → PoolPhase)
    (w' : PoolSys) : Prop where
  steady : Steady ph' w'
  built : w.pool.nextSrc ≤ w'.pool.nextSrc
  confined : ∀ {n left}, n ≤ w.pool.nextSrc → Confined n left ph w → Confined n left ph' w'
  sweeping : ∀ {n i}, a ≠ .ret i → n ≤ w.pool.nextSrc → Sweeping n i ph w → Sweeping n i ph' w'

theorem steady_start (n : ℕ) (t : Time) : Steady (fun _ => .free) (start n t) :=
  ⟨⟨_, inv_start n t⟩, slotted_start n t⟩

/-- A call begins or ends, or time passes. -/
theorem Steady.turn {a : PoolAct} (h : Steady ph w) (hinv : ∃ place', Inv ph place' w')
    (hentry : w'.pool.entry = w.pool.entry) (hslots : w'.pool.slots = w.pool.slots)
    (hnext : w'.pool.nextSrc = w.pool.nextSrc)
    (hbusy : ∀ {j run}, w'.busy j = some run → w.busy j = some run ∨
      slotted.Follows run.rest (fun _ _ => True) [])
    (hkept : ∀ {j run}, a ≠ .ret j → w.busy j = some run → w'.busy j = some run) :
    Advances a ph w ph w' := by
  have hconfined : ∀ {n left}, Confined n left ph w → Confined n left ph w' := by
    intro n left hc id src hsrc hin
    exact hc id src hsrc (hin.imp_left fun hent => by rw [← hentry]; exact hent)
  refine ⟨⟨hinv, h.slots.turn hentry hslots hbusy⟩, Nat.le_of_eq hnext.symm,
    fun _ hc => hconfined hc, ?_⟩
  rintro n i ha - ⟨left, since, rest, hrun, hfollows, hc⟩
  exact ⟨left, since, rest, hkept ha hrun, hfollows, hconfined hc⟩

/-- A call in progress makes a step. -/
theorem Steady.effect {i : ℕ} {o : PoolOut} {job : PoolJob} {since : Time} {c : PoolCall}
    {k : c.Ans → Prog poolSig PoolResult} {r : c.Ans} (h : Steady ph w)
    (hrun : w.busy i = some ⟨job, since, .call c k⟩)
    (heff : w.pool.effect o c = some (r, w'.pool))
    (hbusy : w'.busy = Function.update w.busy i (some ⟨job, since, k r⟩)) :
    Advances (.step i o) ph w
      (Function.update ph i ((SourcePool.protocol job).next (ph i) c r)) w' := by
  obtain ⟨place, hinv⟩ := h.inv
  refine ⟨⟨hinv.effect hrun heff hbusy, h.slots.effect hinv hrun heff hbusy⟩,
    (PoolState.effect_frame heff).2.1, fun hn hc => hc.effect hinv hn hrun heff, ?_⟩
  rintro n j - hn ⟨left, since', rest, hj, hfollows, hc⟩
  by_cases hji : j = i
  · subst hji
    rw [hrun] at hj
    cases hj
    refine ⟨_, since, k r, by rw [hbusy, Function.update_self], ?_,
      hc.visit hinv h.slots hn hrun heff⟩
    rw [Function.update_self]
    exact hfollows.2 r
  · refine ⟨left, since', rest, by rw [hbusy, Function.update_of_ne hji, hj], ?_,
      hc.effect hinv hn hrun heff⟩
    rw [Function.update_of_ne hji]
    exact hfollows

theorem steady_step {a : PoolAct} (h : Steady ph w) (happart : a.apart w = true)
    (hstep : step p a w = some w') : ∃ ph', Advances a ph w ph' w' := by
  obtain ⟨place, hinv⟩ := h.inv
  cases step_cases hstep with
  | call i job hidle hjob hpool hlog hbusy =>
    refine ⟨ph, h.turn ⟨place, hinv.call hidle hjob happart hpool hbusy⟩ ?_ ?_ ?_ ?_ ?_⟩
    · rw [hpool]
    · rw [hpool]
    · rw [hpool]
    · intro j run hj
      rcases busy_cases hbusy hj with ⟨rfl, rfl⟩ | ⟨-, hj⟩
      · exact .inr (job_slotted job [])
      · exact .inl hj
    · intro j run _ hj
      rw [hbusy, Function.update_of_ne ?_, hj]
      rintro rfl
      rw [hidle] at hj
      cases hj
  | step i o job since c k r hrun heff hlog hbusy => exact ⟨_, h.effect hrun heff hbusy⟩
  | ret i job since res hrun hpool hlog hbusy =>
    refine ⟨ph, h.turn ⟨place, hinv.ret hrun hpool hbusy⟩ ?_ ?_ ?_ ?_ ?_⟩
    · rw [hpool]
    · rw [hpool]
    · rw [hpool]
    · intro j run hj
      rw [hbusy] at hj
      by_cases hji : j = i
      · rw [hji, Function.update_self] at hj
        cases hj
      · rw [Function.update_of_ne hji] at hj
        exact .inl hj
    · intro j run ha hj
      rw [hbusy, Function.update_of_ne ?_, hj]
      rintro rfl
      exact ha rfl
  | tick d hpool hlog hbusy =>
    refine ⟨ph, h.turn ⟨place, hinv.tick hpool hbusy⟩ ?_ ?_ ?_ ?_ ?_⟩
    · rw [hpool]
    · rw [hpool]
    · rw [hpool]
    · exact fun hj => .inl (by rw [← hbusy]; exact hj)
    · exact fun _ hj => by rw [hbusy]; exact hj

/-! ## After the call -/

/-- A source that no id can have has been closed, once. -/
theorem Inv.closed_of_confined (h : Inv ph place w) {n src : ℕ} (hc : Confined n ∅ ph w)
    (hn : n ≤ w.pool.nextSrc) (hsrc : src < n) : w.pool.closed src = 1 := by
  have hcount := h.sound.counts src
  cases hp : place src with
  | unbuilt => exact absurd (h.sound.unbuilt.1 hp) (Nat.not_le.2 (Nat.lt_of_lt_of_le hsrc hn))
  | gone =>
    rw [hp] at hcount
    exact hcount
  | hand i =>
    obtain ⟨id, hid⟩ := h.sound.hands hp
    exact absurd (hc id src hsrc (.inr ⟨i, hid⟩)) (Set.notMem_empty id)
  | entry id =>
    exact absurd (hc id src hsrc (.inl (h.sound.entries.2 hp))) (Set.notMem_empty id)

/-- The sources below `n` have been closed once and are in no entry, and every lease is
    on a later source. -/
structure Renewed (n : ℕ) (w : PoolSys) : Prop where
  closed : ∀ src, src < n → w.pool.closed src = 1
  entries : ∀ id src, (w.pool.entry id).src = some src → n ≤ src
  leases : ∀ m l, w.pool.outstanding m = some l → n ≤ l.src

theorem Inv.renewed (h : Inv ph place w) {n : ℕ} (hc : Confined n ∅ ph w)
    (hn : n ≤ w.pool.nextSrc) : Renewed n w := by
  have hentry : ∀ id src, (w.pool.entry id).src = some src → n ≤ src := by
    intro id src hid
    by_contra hlt
    exact Set.notMem_empty id (hc id src (Nat.not_le.1 hlt) (.inl hid))
  exact ⟨fun src hsrc => h.closed_of_confined hc hn hsrc, hentry,
    fun m l hl => hentry l.id l.src (h.sound.leased hl)⟩

/-- A call of `InvalidateAll` begins, and every source may be anywhere. -/
theorem Steady.sweep_begins {n i : ℕ} (h : Steady ph w)
    (hcall : step p (.call i .invalidateAll) w = some w') :
    Steady ph w' ∧ w'.pool.nextSrc = w.pool.nextSrc ∧ Sweeping n i ph w' := by
  obtain ⟨place, hinv⟩ := h.inv
  cases step_cases hcall with
  | call _ _ hidle hjob hpool hlog hbusy =>
    have hslots : Slotted ph w' := by
      refine h.slots.turn (by rw [hpool]) (by rw [hpool]) fun {j run} hj => ?_
      rcases busy_cases hbusy hj with ⟨-, rfl⟩ | ⟨-, hj⟩
      · exact .inr (job_slotted (p := p) .invalidateAll [])
      · exact .inl hj
    refine ⟨⟨⟨place, hinv.call hidle hjob rfl hpool hbusy⟩, hslots⟩, by rw [hpool], Set.univ, _, _,
      by rw [hbusy, Function.update_self], ?_, fun _ _ _ _ => trivial⟩
    rw [hinv.idle hidle]
    exact invalidateAll_sweep

/-- When it returns, no source that was built before is in the pool. -/
theorem Sweeping.ended {n i : ℕ} (h : Sweeping n i ph w) (hret : step p (.ret i) w = some w') :
    Confined n ∅ ph w := by
  obtain ⟨left, since, rest, hrun, hfollows, hc⟩ := h
  cases step_cases hret with
  | ret _ job since' res hrun' hpool hlog hbusy =>
    rw [hrun] at hrun'
    cases hrun'
    obtain rfl : left = ∅ := hfollows
    exact hc

/-- When a call of `InvalidateAll` has returned, every source that was built before the
    call has been closed, and from then on no lease is on one of them. `as'` is what the
    callers do during the call and `as''` what they do later. -/
theorem invalidateAll_closes {n i : ℕ} {t : Time} {as as' as'' : List PoolAct}
    {w₀ w₁ w₂ w₃ w₄ : PoolSys}
    (hbefore : runs (guarded PoolAct.apart (step p)) as (start n t) = some w₀)
    (hcall : step p (.call i .invalidateAll) w₀ = some w₁)
    (hduring : runs (guarded PoolAct.apart (step p)) as' w₁ = some w₂) (hsame : .ret i ∉ as')
    (hret : step p (.ret i) w₂ = some w₃)
    (hafter : runs (guarded PoolAct.apart (step p)) as'' w₃ = some w₄) :
    Renewed w₀.pool.nextSrc w₄ := by
  have h₀ : ∃ ph, Steady ph w₀ := by
    refine runs_inv (I := fun w => ∃ ph, Steady ph w) ?_ ⟨_, steady_start n t⟩ hbefore
    rintro a w w' ⟨ph, h⟩ hs
    obtain ⟨hok, hs⟩ := guarded_eq_some.1 hs
    obtain ⟨ph', h'⟩ := steady_step h hok hs
    exact ⟨ph', h'.steady⟩
  -- while the call is in progress, an old source is where the call has still to come
  have h₂ : ∃ ph, Steady ph w₂ ∧ w₀.pool.nextSrc ≤ w₂.pool.nextSrc ∧
      Sweeping w₀.pool.nextSrc i ph w₂ := by
    refine runs_inv_of (I := fun w => ∃ ph, Steady ph w ∧ w₀.pool.nextSrc ≤ w.pool.nextSrc ∧
      Sweeping w₀.pool.nextSrc i ph w) (P := fun a => a ≠ .ret i) ?_ ?_ ?_ hduring
    · rintro a w w' ha ⟨ph, h, hn, hsweep⟩ hs
      obtain ⟨hok, hs⟩ := guarded_eq_some.1 hs
      obtain ⟨ph', h'⟩ := steady_step h hok hs
      exact ⟨ph', h'.steady, Nat.le_trans hn h'.built, h'.sweeping ha hn hsweep⟩
    · rintro a ha rfl
      exact hsame ha
    · obtain ⟨ph, h⟩ := h₀
      obtain ⟨h₁, hnext, hsweep⟩ := h.sweep_begins hcall
      exact ⟨ph, h₁, Nat.le_of_eq hnext.symm, hsweep⟩
  -- from its end on, it is nowhere
  have h₄ : ∃ ph, Steady ph w₄ ∧ w₀.pool.nextSrc ≤ w₄.pool.nextSrc ∧
      Confined w₀.pool.nextSrc ∅ ph w₄ := by
    refine runs_inv (I := fun w => ∃ ph, Steady ph w ∧ w₀.pool.nextSrc ≤ w.pool.nextSrc ∧
      Confined w₀.pool.nextSrc ∅ ph w) ?_ ?_ hafter
    · rintro a w w' ⟨ph, h, hn, hc⟩ hs
      obtain ⟨hok, hs⟩ := guarded_eq_some.1 hs
      obtain ⟨ph', h'⟩ := steady_step h hok hs
      exact ⟨ph', h'.steady, Nat.le_trans hn h'.built, h'.confined hn hc⟩
    · obtain ⟨ph, h, hn, hsweep⟩ := h₂
      obtain ⟨ph', h'⟩ := steady_step h rfl hret
      exact ⟨ph', h'.steady, Nat.le_trans hn h'.built, h'.confined hn (hsweep.ended hret)⟩
  obtain ⟨ph, h, hn, hc⟩ := h₄
  obtain ⟨place, hinv⟩ := h.inv
  exact hinv.renewed hc hn

/-- Caller 0 holds a lease when caller 1 invalidates the pool, and caller 1 has to wait for
    it; caller 2 waits for the same entry and then gets a new source. -/
def heldWhileInvalidated : List PoolAct :=
  [.step 1 (.order [1]), .step 1 .ok, .call 2 (.obtain demoConfig)] ++ steps 2 1 ++
    [.call 0 (.release ⟨0, 1, 0⟩ false)] ++ steps 0 6 ++ steps 1 5 ++ steps 2 8

theorem heldWhileInvalidated_renews :
    ∃ w, w.pool.outstanding 1 = some ⟨1, 1, 1⟩ ∧ Renewed 1 w := by
  have hrun : ((runs (guarded PoolAct.apart (step demoPool))
      ([.call 0 (.obtain demoConfig)] ++ steps 0 9 ++ [.ret 0]) (start 3 0)).bind fun w₀ =>
      (step demoPool (.call 1 .invalidateAll) w₀).bind fun w₁ =>
      (runs (guarded PoolAct.apart (step demoPool)) heldWhileInvalidated w₁).bind fun w₂ =>
      (step demoPool (.ret 1) w₂).bind fun w₃ =>
      (runs (guarded PoolAct.apart (step demoPool)) [.ret 2, .ret 0] w₃).map fun w₄ =>
        (w₀.pool.nextSrc, w₄.pool.outstanding 1)) = some (1, some ⟨1, 1, 1⟩) := by
    decide +kernel
  obtain ⟨w₀, hbefore, hrun⟩ := Option.bind_eq_some_iff.1 hrun
  obtain ⟨w₁, hcall, hrun⟩ := Option.bind_eq_some_iff.1 hrun
  obtain ⟨w₂, hduring, hrun⟩ := Option.bind_eq_some_iff.1 hrun
  obtain ⟨w₃, hret, hrun⟩ := Option.bind_eq_some_iff.1 hrun
  obtain ⟨w₄, hafter, hrun⟩ := Option.map_eq_some_iff.1 hrun
  obtain ⟨hnext, hlease⟩ := Prod.mk.inj hrun
  have hrenewed := invalidateAll_closes hbefore hcall hduring
    (by simp [heldWhileInvalidated, steps]) hret hafter
  rw [hnext] at hrenewed
  exact ⟨w₄, hlease, hrenewed⟩

end PoolSys

end DataLoader
