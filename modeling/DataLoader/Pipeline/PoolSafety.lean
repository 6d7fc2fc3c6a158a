import DataLoader.Effects.Exclusion
import DataLoader.Pipeline.PoolProtocol

/-!
# Custody of pooled sources

The invariant of the pool under the steps of any number of callers.

* `Sound`: every source is in one place, an entry is locked exactly while one
  call or one lease holds it, and what the calls in progress rely on is true.
* `sound_effect`: every step that the protocol allows keeps it.
-/

namespace DataLoader

open Effects

/-- Where a source is: not built yet, in the hands of a call of caller `i`, in an
    entry, or closed and out of the pool. -/
inductive Place
  | unbuilt
  | hand (i : ℕ)
  | entry (id : Int)
  | gone
  deriving DecidableEq, Repr

/-- The entry that a call holds the lock of. -/
def PoolPhase.key : PoolPhase → Option Int
  | .held id | .known id _ | .closing id _ | .fresh id _ => some id
  | .free | .unreleased _ => none

/-- The lease number `n`, if it has been granted and not been released. -/
def PoolState.outstanding (s : PoolState) (n : ℕ) : Option Lease :=
  (s.leases[n]?).bind fun l => if s.released n then none else some l

namespace SourcePool

/-- Who holds the locks: callers by their phases, and outstanding leases. -/
def holders (ph : ℕ → PoolPhase) (s : PoolState) : ℕ ⊕ ℕ → Option Int
  | .inl i => (ph i).key
  | .inr n => (s.outstanding n).map (·.id)

/-- What a call of caller `i` relies on in a phase. -/
def Fits (place : ℕ → Place) (s : PoolState) (i : ℕ) : PoolPhase → Prop
  | .free | .held _ => True
  | .known id x => (s.entry id).src = x
  | .closing id src => (s.entry id).src = some src ∧ s.closed src = 1
  | .fresh id src => (s.entry id).src = none ∧ place src = .hand i
  | .unreleased l => s.leases[l.num]? = some l ∧ s.released l.num = false

/-- How often a source has been closed, by its place. -/
def Counts (ph : ℕ → PoolPhase) (closed : ℕ → ℕ) (src : ℕ) : Place → Prop
  | .unbuilt | .hand _ => closed src = 0
  | .gone => closed src = 1
  | .entry id => closed src = 0 ∨ closed src = 1 ∧ ∃ i, ph i = .closing id src

/-- The invariant of the pool, with `ph` as the phases of the callers and `place`
    as the places of the sources. -/
structure Sound (ph : ℕ → PoolPhase) (place : ℕ → Place) (s : PoolState) : Prop where
  locks : Excludes (holders ph s) s.locked
  fits : ∀ i, Fits place s i (ph i)
  entries : ∀ {id src}, (s.entry id).src = some src ↔ place src = .entry id
  hands : ∀ {i src}, place src = .hand i → ∃ id, ph i = .fresh id src
  unbuilt : ∀ {src}, place src = .unbuilt ↔ s.nextSrc ≤ src
  counts : ∀ src, Counts ph s.closed src (place src)
  nums : ∀ {n : ℕ} {l : Lease}, s.leases[n]? = some l → l.num = n
  flags : ∀ {n}, s.leases.length ≤ n → s.released n = false
  leased : ∀ {n l}, s.outstanding n = some l → (s.entry l.id).src = some l.src

variable {ph : ℕ → PoolPhase} {place place' : ℕ → Place} {s s' : PoolState} {i : ℕ} {id : Int}

theorem holders_update (q : PoolPhase) :
    holders (Function.update ph i q) s = Function.update (holders ph s) (.inl i) q.key := by
  funext x
  cases x with
  | inl j =>
    by_cases hj : j = i
    · subst hj
      simp [holders]
    · have hne : (Sum.inl j : ℕ ⊕ ℕ) ≠ .inl i := fun h => hj (Sum.inl.inj h)
      rw [Function.update_of_ne hne, holders, holders, Function.update_of_ne hj]
  | inr n => rw [Function.update_of_ne (by simp)]; rfl

theorem holders_outstanding {n : ℕ} {x : Option Lease}
    (hout : s'.outstanding = Function.update s.outstanding n x) :
    holders ph s' = Function.update (holders ph s) (.inr n) (x.map (·.id)) := by
  funext y
  cases y with
  | inl j => rw [Function.update_of_ne (by simp)]; rfl
  | inr m =>
    by_cases hm : m = n
    · subst hm
      simp [holders, hout]
    · have hne : (Sum.inr m : ℕ ⊕ ℕ) ≠ .inr n := fun h => hm (Sum.inr.inj h)
      rw [Function.update_of_ne hne, holders, holders, hout, Function.update_of_ne hm]

theorem outstanding_append {l : Lease} (hflag : s.released s.leases.length = false) :
    ({ s with leases := s.leases ++ [l] } : PoolState).outstanding =
      Function.update s.outstanding s.leases.length (some l) := by
  funext n
  by_cases hn : n = s.leases.length
  · subst hn
    simp [PoolState.outstanding, hflag]
  · rw [Function.update_of_ne hn, PoolState.outstanding, PoolState.outstanding]
    rcases Nat.lt_or_ge n s.leases.length with hlt | hge
    · rw [List.getElem?_append_left hlt]
    · rw [List.getElem?_eq_none hge, List.getElem?_eq_none (by simp; omega)]

theorem outstanding_setReleased (n : ℕ) :
    ({ s with released := Function.update s.released n true } : PoolState).outstanding =
      Function.update s.outstanding n none := by
  funext m
  by_cases hm : m = n
  · subst hm
    simp [PoolState.outstanding]
  · simp [PoolState.outstanding, hm]

/-- What a caller relies on is not touched by a change to an entry that it does
    not hold. -/
theorem Fits.frame {j : ℕ} {q : PoolPhase} (hf : Fits place s j q) (hkey : q.key ≠ some id)
    (hentry : ∀ id', id' ≠ id → s'.entry id' = s.entry id')
    (hclosed : ∀ id' src, id' ≠ id → (s.entry id').src = some src → s'.closed src = s.closed src)
    (hplace : ∀ src, place src = .hand j → place' src = .hand j)
    (hleases : ∀ (n : ℕ) x, s.leases[n]? = some x → s'.leases[n]? = some x)
    (hreleased : s'.released = s.released) : Fits place' s' j q := by
  cases q with
  | free => trivial
  | held id' => trivial
  | known id' x =>
    have hid : id' ≠ id := fun heq => hkey (by rw [heq]; rfl)
    show (s'.entry id').src = x
    rw [hentry id' hid]
    exact hf
  | closing id' src =>
    have hid : id' ≠ id := fun heq => hkey (by rw [heq]; rfl)
    refine ⟨?_, ?_⟩
    · rw [hentry id' hid]
      exact hf.1
    · rw [hclosed id' src hid hf.1]
      exact hf.2
  | fresh id' src =>
    have hid : id' ≠ id := fun heq => hkey (by rw [heq]; rfl)
    refine ⟨?_, hplace src hf.2⟩
    rw [hentry id' hid]
    exact hf.1
  | unreleased l =>
    refine ⟨hleases _ _ hf.1, ?_⟩
    rw [hreleased]
    exact hf.2

/-- How often a source has been closed does not depend on a caller that is not closing
    it. -/
theorem Counts.rephase {closed closed' : ℕ → ℕ} {src : ℕ} {P : Place}
    (hcount : Counts ph closed src P) (hsame : closed' src = closed src)
    (hclosing : ∀ id, ph i ≠ .closing id src) (q : PoolPhase) :
    Counts (Function.update ph i q) closed' src P := by
  cases P with
  | entry id =>
    unfold Counts at hcount ⊢
    rw [hsame]
    rcases hcount with h0 | ⟨h1, j, hj⟩
    · exact .inl h0
    · have hji : j ≠ i := by rintro rfl; exact hclosing id hj
      exact .inr ⟨h1, j, by rw [Function.update_of_ne hji, hj]⟩
  | _ => exact hsame.trans hcount

namespace Sound

variable (h : Sound ph place s)
include h

/-- A source stays in the hands of a call while another one gets to a phase. -/
theorem hands_update {j src : ℕ} (hhand : place src = .hand j) (hfresh : ∀ id, ph i ≠ .fresh id src)
    (q : PoolPhase) : ∃ id, Function.update ph i q j = .fresh id src := by
  obtain ⟨id, hid⟩ := h.hands hhand
  have hji : j ≠ i := by rintro rfl; exact hfresh id hid
  exact ⟨id, by rw [Function.update_of_ne hji, hid]⟩

/-- Another caller does not hold the lock that caller `i` holds. -/
theorem key_ne (hi : (ph i).key = some id) {j : ℕ} (hj : j ≠ i) : (ph j).key ≠ some id := by
  intro hk
  have heq : (Sum.inl j : ℕ ⊕ ℕ) = .inl i := h.locks.single hk hi
  exact hj (Sum.inl.inj heq)

/-- A lease that is outstanding is not on an entry that a caller holds. -/
theorem lease_ne (hi : (ph i).key = some id) {n : ℕ} {l : Lease} (hl : s.outstanding n = some l) :
    l.id ≠ id := by
  rintro rfl
  have hn : holders ph s (.inr n) = some l.id := by rw [holders, hl]; rfl
  have hi' : holders ph s (.inl i) = some l.id := hi
  have heq := h.locks.single hn hi'
  cases heq

/-- The source of an outstanding lease is open. -/
theorem leased_open {n : ℕ} {l : Lease} (hl : s.outstanding n = some l) : s.closed l.src = 0 := by
  have hplace := h.entries.1 (h.leased hl)
  have hcount := h.counts l.src
  rw [hplace] at hcount
  rcases hcount with h0 | ⟨-, j, hj⟩
  · exact h0
  · exact absurd rfl (h.lease_ne (by rw [hj]; rfl) hl)

/-- Only the locks change, and the phase of one caller that has no source in its
    hands. -/
theorem rephase {q : PoolPhase} {locked : Int → Bool} (hfresh : ∀ id src, ph i ≠ .fresh id src)
    (hclosing : ∀ id src, ph i ≠ .closing id src) (hfits : Fits place s i q)
    (hlocks : Excludes (holders (Function.update ph i q) s) locked) :
    Sound (Function.update ph i q) place { s with locked } := by
  refine ⟨hlocks, fun j => ?_, h.entries, ?_, h.unbuilt, ?_, h.nums, h.flags, h.leased⟩
  · by_cases hj : j = i
    · subst hj
      rw [Function.update_self]
      exact hfits
    · rw [Function.update_of_ne hj]
      exact h.fits j
  · exact fun {j src} hj => h.hands_update hj (fun id => hfresh id src) q
  · exact fun src => (h.counts src).rephase rfl (fun id => hclosing id src) q

/-- The invariant reads the sources of the entries and nothing else of them. -/
theorem congr_entry {entry : Int → PoolEntry} (he : ∀ id, (entry id).src = (s.entry id).src) :
    Sound ph place { s with entry } := by
  refine ⟨h.locks, fun j => ?_, ?_, h.hands, h.unbuilt, h.counts, h.nums, h.flags, ?_⟩
  · have hf := h.fits j
    cases hq : ph j with
    | known id x =>
      rw [hq] at hf
      exact (he id).trans hf
    | closing id src =>
      rw [hq] at hf
      exact ⟨(he id).trans hf.1, hf.2⟩
    | fresh id src =>
      rw [hq] at hf
      exact ⟨(he id).trans hf.1, hf.2⟩
    | _ =>
      rw [hq] at hf
      exact hf
  · intro id src
    show (entry id).src = some src ↔ _
    rw [he id]
    exact h.entries
  · intro n l hl
    show (entry l.id).src = some l.src
    rw [he l.id]
    exact h.leased hl

/-- Caller `i`, which holds the lock of `id`, moves the source `src` to another
    place. What is left to show is about that entry and that source. -/
theorem relocate {src : ℕ} {P : Place} {q : PoolPhase} (hkey : (ph i).key = some id)
    (hqkey : q.key = some id)
    (hold : place src = .unbuilt ∨ place src = .hand i ∨ place src = .entry id)
    (hnew : P = .hand i ∧ q = .fresh id src ∨ P = .entry id ∨ P = .gone)
    (hfresh : ∀ id' src', ph i = .fresh id' src' → src' = src)
    (hclosing : ∀ id' src', ph i = .closing id' src' → src' = src)
    (hother : ∀ id', id' ≠ id → s'.entry id' = s.entry id')
    (hentry : ∀ src', (s'.entry id).src = some src' ↔ Function.update place src P src' = .entry id)
    (hclosed : ∀ src', src' ≠ src → s'.closed src' = s.closed src')
    (hnext : ∀ src', Function.update place src P src' = .unbuilt ↔ s'.nextSrc ≤ src')
    (hfits : Fits (Function.update place src P) s' i q)
    (hcounts : Counts (Function.update ph i q) s'.closed src P)
    (hleases : s'.leases = s.leases) (hreleased : s'.released = s.released)
    (hlocked : s'.locked = s.locked) :
    Sound (Function.update ph i q) (Function.update place src P) s' := by
  have hout : s'.outstanding = s.outstanding := by
    funext n
    rw [PoolState.outstanding, PoolState.outstanding, hleases, hreleased]
  have hplace : ∀ {src' id'}, id' ≠ id → place src' = .entry id' → src' ≠ src := by
    rintro src' id' hid hp rfl
    rcases hold with h₁ | h₁ | h₁ <;> rw [h₁] at hp <;> cases hp
    exact hid rfl
  refine ⟨?_, fun j => ?_, ?_, ?_, hnext _, fun src' => ?_, ?_, ?_, ?_⟩
  · rw [holders_update, hqkey, hlocked, Function.update_eq_self_iff.2]
    · have hsame : holders ph s' = holders ph s := by
        funext x
        cases x with
        | inl j => rfl
        | inr n => rw [holders, holders, hout]
      rw [hsame]
      exact h.locks
    · exact hkey.symm
  · by_cases hj : j = i
    · rw [hj, Function.update_self]
      exact hfits
    · rw [Function.update_of_ne hj]
      refine Fits.frame (h.fits j) (h.key_ne hkey hj) hother ?_ ?_ ?_ hreleased
      · exact fun id' src' hid hs => hclosed src' (hplace hid (h.entries.1 hs))
      · intro src' hhand
        rw [Function.update_of_ne ?_, hhand]
        rintro rfl
        rcases hold with h₁ | h₁ | h₁ <;> rw [h₁] at hhand <;> cases hhand
        exact hj rfl
      · rw [hleases]
        exact fun _ _ hn => hn
  · intro id' src'
    by_cases hid : id' = id
    · rw [hid]
      exact hentry src'
    · rw [hother id' hid, h.entries]
      by_cases hsrc : src' = src
      · rw [hsrc, Function.update_self]
        constructor
        · exact fun hp => absurd rfl (hplace hid hp)
        · intro hp
          rcases hnew with ⟨h₁, -⟩ | h₁ | h₁ <;> rw [h₁] at hp <;> cases hp
          exact absurd rfl hid
      · rw [Function.update_of_ne hsrc]
  · intro j src' hhand
    by_cases hsrc : src' = src
    · rw [hsrc, Function.update_self] at hhand
      rcases hnew with ⟨h₁, h₂⟩ | h₁ | h₁ <;> rw [h₁] at hhand <;> cases hhand
      exact ⟨id, by rw [hsrc, Function.update_self, h₂]⟩
    · rw [Function.update_of_ne hsrc] at hhand
      exact h.hands_update hhand (fun id' hq => hsrc (hfresh id' src' hq)) q
  · by_cases hsrc : src' = src
    · rw [hsrc, Function.update_self]
      exact hcounts
    · rw [Function.update_of_ne hsrc]
      exact (h.counts src').rephase (hclosed src' hsrc)
        (fun id' hq => hsrc (hclosing id' src' hq)) q
  · rw [hleases]
    exact h.nums
  · rw [hleases, hreleased]
    exact h.flags
  · rw [hout]
    intro n l hl
    rw [hother l.id (h.lease_ne hkey hl)]
    exact h.leased hl

/-- Moving a source that has been built leaves the others built or not. -/
theorem unbuilt_update {src : ℕ} {P : Place} (hold : place src ≠ .unbuilt) (hP : P ≠ .unbuilt)
    (src' : ℕ) : Function.update place src P src' = .unbuilt ↔ s.nextSrc ≤ src' := by
  by_cases hsrc : src' = src
  · rw [hsrc, Function.update_self, ← h.unbuilt]
    exact ⟨fun hp => absurd hp hP, fun hp => absurd hp hold⟩
  · rw [Function.update_of_ne hsrc]
    exact h.unbuilt

/-- An entry whose only source has been moved elsewhere is empty. -/
theorem entry_update {src : ℕ} {P : Place} (hP : P ≠ .entry id)
    (hsrc : ∀ src', (s.entry id).src = some src' → src' = src) (src' : ℕ) :
    (none : Option ℕ) = some src' ↔ Function.update place src P src' = .entry id := by
  constructor
  · intro hn
    cases hn
  · intro hp
    by_cases heq : src' = src
    · rw [heq, Function.update_self] at hp
      exact absurd hp hP
    · rw [Function.update_of_ne heq] at hp
      exact absurd (hsrc src' (h.entries.2 hp)) heq

/-- The closed source leaves the entry. -/
theorem writeClosing {src : ℕ} {ent : PoolEntry} (hq : ph i = .closing id src)
    (hent : ent.src = none) :
    Sound (Function.update ph i (.known id none)) (Function.update place src .gone)
      { s with entry := Function.update s.entry id ent } := by
  have hfit := h.fits i
  rw [hq] at hfit
  have hplace : place src = .entry id := h.entries.1 hfit.1
  refine h.relocate (by rw [hq]; rfl) rfl (.inr (.inr hplace)) (.inr (.inr rfl)) ?_ ?_ ?_ ?_
    (fun _ _ => rfl) (h.unbuilt_update (by simp [hplace]) (by simp)) ?_ hfit.2 rfl rfl rfl
  · simp [hq]
  · rw [hq]
    exact fun id' src' hc => (PoolPhase.closing.inj hc).2.symm
  · exact fun id' hid => Function.update_of_ne hid ..
  · simp only [Function.update_self, hent]
    refine h.entry_update (by simp) fun src' hs => ?_
    rw [hfit.1] at hs
    exact (Option.some.inj hs).symm
  · simp [Fits, hent]

/-- The source in hand gets into the entry. -/
theorem writeFresh {src : ℕ} {ent : PoolEntry} (hq : ph i = .fresh id src)
    (hent : ent.src = some src) :
    Sound (Function.update ph i (.known id (some src))) (Function.update place src (.entry id))
      { s with entry := Function.update s.entry id ent } := by
  have hfit := h.fits i
  rw [hq] at hfit
  have hcount := h.counts src
  rw [hfit.2] at hcount
  refine h.relocate (by rw [hq]; rfl) rfl (.inr (.inl hfit.2)) (.inr (.inl rfl)) ?_ ?_ ?_ ?_
    (fun _ _ => rfl) (h.unbuilt_update (by simp [hfit.2]) (by simp)) ?_ (.inl hcount) rfl rfl rfl
  · rw [hq]
    exact fun id' src' hc => (PoolPhase.fresh.inj hc).2.symm
  · simp [hq]
  · exact fun id' hid => Function.update_of_ne hid ..
  · intro src'
    simp only [Function.update_self, hent, Option.some.injEq]
    by_cases hsrc : src' = src
    · simp [hsrc]
    · rw [Function.update_of_ne hsrc, ← h.entries, hfit.1]
      simp [Ne.symm hsrc]
  · simp [Fits, hent]

/-- The source of the entry is closed. -/
theorem closeKnown {src : ℕ} (hq : ph i = .known id (some src)) :
    Sound (Function.update ph i (.closing id src)) (Function.update place src (.entry id))
      { s with closed := Function.update s.closed src (s.closed src + 1) } := by
  have hkey : (ph i).key = some id := by rw [hq]; rfl
  have hfit := h.fits i
  rw [hq] at hfit
  have hplace : place src = .entry id := h.entries.1 hfit
  have hopen : s.closed src = 0 := by
    have hcount := h.counts src
    rw [hplace] at hcount
    rcases hcount with h0 | ⟨-, j, hj⟩
    · exact h0
    · -- the only caller that holds the entry is `i`, and it is not closing
      have hji : j ≠ i := by rintro rfl; rw [hq] at hj; cases hj
      exact absurd (by rw [hj]; rfl) (h.key_ne hkey hji)
  refine h.relocate hkey rfl (.inr (.inr hplace)) (.inr (.inl rfl)) ?_ ?_ (fun _ _ => rfl) ?_ ?_
    (h.unbuilt_update (by simp [hplace]) (by simp)) ?_ ?_ rfl rfl rfl
  · simp [hq]
  · simp [hq]
  · have hsame : Function.update place src (.entry id) = place :=
      Function.update_eq_self_iff.2 hplace.symm
    rw [hsame]
    exact fun src' => h.entries
  · exact fun src' hsrc => Function.update_of_ne hsrc ..
  · exact ⟨hfit, by simp [hopen]⟩
  · exact .inr ⟨by simp [hopen], i, Function.update_self ..⟩

/-- The source in hand is closed instead of getting into the entry. -/
theorem closeFresh {src : ℕ} (hq : ph i = .fresh id src) :
    Sound (Function.update ph i (.known id none)) (Function.update place src .gone)
      { s with closed := Function.update s.closed src (s.closed src + 1) } := by
  have hfit := h.fits i
  rw [hq] at hfit
  have hopen := h.counts src
  rw [hfit.2] at hopen
  replace hopen : s.closed src = 0 := hopen
  refine h.relocate (by rw [hq]; rfl) rfl (.inr (.inl hfit.2)) (.inr (.inr rfl)) ?_ ?_
    (fun _ _ => rfl) ?_ ?_ (h.unbuilt_update (by simp [hfit.2]) (by simp)) hfit.1 ?_ rfl rfl rfl
  · rw [hq]
    exact fun id' src' hc => (PoolPhase.fresh.inj hc).2.symm
  · simp [hq]
  · rw [hfit.1]
    refine h.entry_update (by simp) fun src' hs => ?_
    rw [hfit.1] at hs
    cases hs
  · exact fun src' hsrc => Function.update_of_ne hsrc ..
  · simp [Counts, hopen]

/-- A source is built for an empty entry. -/
theorem build (hq : ph i = .known id none) :
    Sound (Function.update ph i (.fresh id s.nextSrc)) (Function.update place s.nextSrc (.hand i))
      { s with nextSrc := s.nextSrc + 1 } := by
  have hfit : (s.entry id).src = none := by
    have hf := h.fits i
    rw [hq] at hf
    exact hf
  have hplace : place s.nextSrc = .unbuilt := h.unbuilt.2 (Nat.le_refl _)
  have hcount := h.counts s.nextSrc
  rw [hplace] at hcount
  refine h.relocate (by rw [hq]; rfl) rfl (.inl hplace) (.inl ⟨rfl, rfl⟩) ?_ ?_
    (fun _ _ => rfl) ?_ (fun _ _ => rfl) ?_ ⟨hfit, Function.update_self ..⟩ hcount rfl rfl rfl
  · simp [hq]
  · simp [hq]
  · rw [hfit]
    refine h.entry_update (by simp) fun src' hs => ?_
    rw [hfit] at hs
    cases hs
  · intro src'
    show _ ↔ s.nextSrc + 1 ≤ src'
    by_cases hsrc : src' = s.nextSrc
    · rw [hsrc, Function.update_self]
      exact ⟨fun hp => (by cases hp), fun hle => (by omega)⟩
    · rw [Function.update_of_ne hsrc, h.unbuilt]
      omega

/-- A call that holds nothing takes a lock that is free. -/
theorem lock (hq : ph i = .free) (hfree : s.locked id = false) :
    Sound (Function.update ph i (.held id)) place
      { s with locked := Function.update s.locked id true } := by
  refine h.rephase (by simp [hq]) (by simp [hq]) trivial ?_
  rw [holders_update]
  have hidle : holders ph s (.inl i) = none := by rw [holders, hq]; rfl
  exact h.locks.take hidle hfree

/-- A call gives its lock back. -/
theorem unlock {x : Option ℕ} (hq : ph i = .known id x) :
    Sound (Function.update ph i .free) place
      { s with locked := Function.update s.locked id false } := by
  refine h.rephase (by simp [hq]) (by simp [hq]) trivial ?_
  rw [holders_update]
  have hheld : holders ph s (.inl i) = some id := by rw [holders, hq]; rfl
  exact h.locks.drop hheld

/-- A call gets to a phase in which it holds the same lock and has no source in
    its hands. -/
theorem advance {q : PoolPhase} (hkey : q.key = (ph i).key) (hfresh : ∀ id src, ph i ≠ .fresh id src)
    (hclosing : ∀ id src, ph i ≠ .closing id src) (hfits : Fits place s i q) :
    Sound (Function.update ph i q) place s := by
  refine h.rephase hfresh hclosing hfits ?_
  rw [holders_update, Function.update_eq_self_iff.2]
  · exact h.locks
  · exact hkey

/-- The fields of an entry are written without a change of its source. -/
theorem writeKnown {x : Option ℕ} {ent : PoolEntry} (hq : ph i = .known id x) (hent : ent.src = x) :
    Sound (Function.update ph i (.known id x)) place
      { s with entry := Function.update s.entry id ent } := by
  have hsame : Function.update ph i (.known id x) = ph := Function.update_eq_self_iff.2 hq.symm
  rw [hsame]
  refine h.congr_entry fun id' => ?_
  by_cases hid : id' = id
  · have hfit := h.fits i
    rw [hq] at hfit
    rw [hid, Function.update_self, hent]
    exact hfit.symm
  · rw [Function.update_of_ne hid]

/-- `Obtain` hands the lock of its entry to the lease that it grants. -/
theorem newLease {src : ℕ} (hq : ph i = .known id (some src)) :
    Sound (Function.update ph i .free) place
      { s with leases := s.leases ++ [⟨s.leases.length, id, src⟩] } := by
  have hflag := h.flags (Nat.le_refl s.leases.length)
  have hout := outstanding_append (l := ⟨s.leases.length, id, src⟩) hflag
  have hnone : s.outstanding s.leases.length = none := by simp [PoolState.outstanding]
  have hfree := h.rephase (i := i) (q := .free) (by simp [hq]) (by simp [hq]) trivial <| by
    rw [holders_update]
    exact h.locks.drop (show holders ph s (.inl i) = some id by rw [holders, hq]; rfl)
  refine ⟨?_, fun j => ?_, h.entries, hfree.hands, h.unbuilt, hfree.counts, ?_, ?_, ?_⟩
  · rw [holders_outstanding hout, holders_update]
    refine h.locks.move ?_ (by simp) ?_
    · rw [holders, hq]
      rfl
    · rw [holders, hnone]
      rfl
  · refine Fits.frame (hfree.fits j) (?_ : _ ≠ some id) (fun _ _ => rfl) (fun _ _ _ _ => rfl)
      (fun _ hp => hp) ?_ rfl
    · by_cases hj : j = i
      · rw [hj, Function.update_self]
        simp [PoolPhase.key]
      · rw [Function.update_of_ne hj]
        exact h.key_ne (by rw [hq]; rfl) hj
    · intro n x hn
      exact (List.getElem?_append_left (List.getElem?_eq_some_iff.1 hn).1).trans hn
  · intro n l hl
    rcases Nat.lt_or_ge n s.leases.length with hlt | hge
    · rw [List.getElem?_append_left hlt] at hl
      exact h.nums hl
    · rw [List.getElem?_append_right hge, List.getElem?_singleton] at hl
      split_ifs at hl with hn
      cases hl
      show s.leases.length = n
      omega
  · intro n hn
    refine h.flags (Nat.le_trans ?_ hn)
    simp
  · intro n l hl
    rw [hout] at hl
    by_cases hn : n = s.leases.length
    · rw [hn, Function.update_self] at hl
      cases hl
      have hfit := h.fits i
      rw [hq] at hfit
      exact hfit
    · rw [Function.update_of_ne hn] at hl
      exact h.leased hl

/-- The release function takes the lock of the entry over from the lease. -/
theorem setReleased {l : Lease} (hq : ph i = .unreleased l)
    (halone : ∀ j l', j ≠ i → ph j = .unreleased l' → l'.num ≠ l.num) :
    Sound (Function.update ph i (.held l.id)) place
      { s with released := Function.update s.released l.num true } := by
  obtain ⟨hl, hunset⟩ : s.leases[l.num]? = some l ∧ s.released l.num = false := by
    have hfit := h.fits i
    rw [hq] at hfit
    exact hfit
  have hout := outstanding_setReleased (s := s) l.num
  have hheld : s.outstanding l.num = some l := by simp [PoolState.outstanding, hl, hunset]
  refine ⟨?_, fun j => ?_, h.entries, ?_, h.unbuilt, ?_, h.nums, ?_, ?_⟩
  · rw [holders_update, holders_outstanding hout]
    refine h.locks.move ?_ (by simp) ?_
    · rw [holders, hheld]
      rfl
    · rw [holders, hq]
      rfl
  · by_cases hj : j = i
    · rw [hj, Function.update_self]
      trivial
    · have hfit := h.fits j
      rw [Function.update_of_ne hj]
      cases hp : ph j with
      | unreleased l' =>
        rw [hp] at hfit
        refine ⟨hfit.1, ?_⟩
        show Function.update s.released l.num true l'.num = false
        rw [Function.update_of_ne (halone j l' hj hp)]
        exact hfit.2
      | _ =>
        rw [hp] at hfit
        exact hfit
  · exact fun hj => h.hands_update hj (by simp [hq]) _
  · exact fun src => (h.counts src).rephase rfl (by simp [hq]) _
  · intro n hn
    have hlt := (List.getElem?_eq_some_iff.1 hl).1
    have hne : n ≠ l.num := by
      rintro rfl
      exact absurd hlt (Nat.not_lt.2 hn)
    show Function.update s.released l.num true n = false
    rw [Function.update_of_ne hne]
    exact h.flags hn
  · intro n l' hl'
    rw [hout] at hl'
    by_cases hn : n = l.num
    · rw [hn, Function.update_self] at hl'
      cases hl'
    · rw [Function.update_of_ne hn] at hl'
      exact h.leased hl'

/-- A step that changes no phase and nothing that the invariant reads. -/
theorem stay : Sound (Function.update ph i (ph i)) place s := by
  rw [Function.update_eq_self]
  exact h

/-- A new entry is an empty one, and time does not matter. -/
theorem congr_slots {slots : List Int} {clock : Time} : Sound ph place { s with slots, clock } :=
  ⟨h.locks, h.fits, h.entries, h.hands, h.unbuilt, h.counts, h.nums, h.flags, h.leased⟩

end Sound

/-- What a phase says about the call that is in it. -/
def Linked (job : PoolJob) : PoolPhase → Prop
  | .fresh id _ => ∃ cfg, job = .obtain cfg ∧ cfg.sourceID = id
  | .unreleased l => ∃ inv, job = .release l inv
  | _ => True

theorem linked_next {job : PoolJob} {q : PoolPhase} {c : PoolCall} (r : c.Ans) (hq : Linked job q)
    (hallow : (protocol job).allows q c) : Linked job ((protocol job).next q c r) := by
  cases c with
  | lock | unlock | read | write | newLease | setReleased => trivial
  | slot | find | slots | now | openSrc | ping => exact hq
  | build cfg =>
    obtain ⟨rfl, hjob⟩ := hallow
    cases (r : Except Err ℕ) with
    | error e => exact hq
    | ok src => exact ⟨cfg, hjob, rfl⟩
  | closeSrc src =>
    obtain ⟨id, rfl | rfl⟩ := hallow
    · trivial
    · trivial
  | released l =>
    obtain ⟨rfl, hjob⟩ := hallow
    cases (r : Bool) with
    | false => exact hjob
    | true => exact hq

/-- A call keeps the lock of an entry until it unlocks it or hands it to a lease. -/
theorem key_next {job : PoolJob} {q : PoolPhase} {c : PoolCall} (r : c.Ans) {id : Int}
    (hallow : (protocol job).allows q c) (hq : q.key = some id) :
    ((protocol job).next q c r).key = some id ∨ c = .unlock id ∨ ∃ src, c = .newLease id src := by
  cases c with
  | slot | find | slots | now | openSrc | ping => exact .inl hq
  | lock id' =>
    obtain rfl : q = .free := hallow
    cases hq
  | unlock id' =>
    obtain ⟨x, rfl, -⟩ := hallow
    cases hq
    exact .inr (.inl rfl)
  | read id' =>
    rcases hallow with rfl | ⟨x, rfl⟩
    · cases hq
      exact .inl rfl
    · cases hq
      exact .inl rfl
  | write id' ent =>
    rcases hallow with ⟨x, rfl, -⟩ | ⟨src, rfl, -⟩ | ⟨src, rfl, -⟩
    · cases hq
      exact .inl rfl
    · cases hq
      exact .inl rfl
    · cases hq
      exact .inl rfl
  | build cfg =>
    obtain ⟨rfl, -⟩ := hallow
    cases (r : Except Err ℕ) with
    | error e => exact .inl hq
    | ok src => exact .inl hq
  | closeSrc src =>
    obtain ⟨id', rfl | rfl⟩ := hallow
    · exact .inl hq
    · exact .inl hq
  | newLease id' src =>
    obtain rfl : q = .known id' (some src) := hallow
    cases hq
    exact .inr (.inr ⟨src, rfl⟩)
  | released l =>
    obtain ⟨rfl, -⟩ := hallow
    cases hq
  | setReleased l =>
    obtain rfl : q = .unreleased l := hallow
    cases hq

/-- Every step that the protocol allows keeps the invariant, if no two calls are
    between the test and the setting of the flag of one lease. -/
theorem sound_effect {job : PoolJob} {c : PoolCall} {o : PoolOut} {r : c.Ans}
    (h : Sound ph place s) (hallow : (protocol job).allows (ph i) c)
    (hlease : ∀ l inv, job = .release l inv → s.leases[l.num]? = some l)
    (halone : ∀ j l l', j ≠ i → ph i = .unreleased l → ph j = .unreleased l' → l'.num ≠ l.num)
    (heff : s.effect o c = some (r, s')) :
    ∃ place', Sound (Function.update ph i ((protocol job).next (ph i) c r)) place' s' := by
  cases c with
  | slot id =>
    cases heff
    refine ⟨place, ?_⟩
    split_ifs
    · exact h.stay
    · exact h.stay.congr_slots
  | find id =>
    cases heff
    exact ⟨place, h.stay⟩
  | slots =>
    cases o with
    | order ids =>
      simp only [PoolState.effect] at heff
      split_ifs at heff
      cases heff
      exact ⟨place, h.stay⟩
    | ok => cases heff
    | fail e => cases heff
  | lock id =>
    simp only [PoolState.effect] at heff
    split_ifs at heff with hfree
    cases heff
    exact ⟨place, h.lock hallow (by simpa using hfree)⟩
  | unlock id =>
    simp only [PoolState.effect] at heff
    split_ifs at heff
    cases heff
    obtain ⟨x, hq, -⟩ := hallow
    exact ⟨place, h.unlock hq⟩
  | read id =>
    cases heff
    refine ⟨place, h.advance ?_ ?_ ?_ rfl⟩
    all_goals rcases hallow with hq | ⟨x, hq⟩ <;> rw [hq]
    all_goals first | rfl | simp
  | write id ent =>
    cases heff
    show ∃ place', Sound (Function.update ph i (.known id ent.src)) place' _
    rcases hallow with ⟨x, hq, hent⟩ | ⟨src, hq, hent⟩ | ⟨src, hq, hent⟩
    · rw [hent]
      exact ⟨place, h.writeKnown hq hent⟩
    · rw [hent]
      exact ⟨_, h.writeClosing hq hent⟩
    · rw [hent]
      exact ⟨_, h.writeFresh hq hent⟩
  | now =>
    cases heff
    exact ⟨place, h.stay⟩
  | build cfg =>
    obtain ⟨hq, -⟩ := hallow
    have hbuilt : ∃ place', Sound (Function.update ph i
        ((protocol job).next (ph i) (.build cfg) (.ok s.nextSrc : Except Err ℕ))) place'
        { s with nextSrc := s.nextSrc + 1 } := by
      rw [hq]
      exact ⟨_, h.build hq⟩
    cases o with
    | fail e =>
      cases heff
      exact ⟨place, h.stay⟩
    | ok =>
      cases heff
      exact hbuilt
    | order ids =>
      cases heff
      exact hbuilt
  | openSrc src =>
    cases heff
    exact ⟨place, h.stay⟩
  | closeSrc src =>
    cases heff
    obtain ⟨id, hq | hq⟩ := hallow
    · rw [hq]
      exact ⟨_, h.closeKnown hq⟩
    · rw [hq]
      exact ⟨_, h.closeFresh hq⟩
  | ping src =>
    cases heff
    exact ⟨place, h.stay⟩
  | newLease id src =>
    cases heff
    exact ⟨place, h.newLease hallow⟩
  | released l =>
    cases heff
    obtain ⟨hq, inv, hjob⟩ := hallow
    show ∃ place', Sound (Function.update ph i
      ((protocol job).next (ph i) (.released l) (s.released l.num : Bool))) place' s
    cases hflag : s.released l.num with
    | true => exact ⟨place, h.stay⟩
    | false =>
      refine ⟨place, h.advance ?_ ?_ ?_ ⟨hlease l inv hjob, hflag⟩⟩
      · rw [hq]
        rfl
      · simp [hq]
      · simp [hq]
  | setReleased l =>
    cases heff
    exact ⟨place, h.setReleased hallow fun j l' hj hl' => halone j l l' hj hallow hl'⟩

end SourcePool

end DataLoader
