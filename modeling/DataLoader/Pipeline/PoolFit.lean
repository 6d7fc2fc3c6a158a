import DataLoader.Pipeline.PoolLifecycle
import DataLoader.Pipeline.PoolWatch
import DataLoader.Pipeline.Session

/-!
# A source from the pool fits the request

The fingerprint and the times of an entry stay in step with the log of its source,
and what the calls know is so (`Fit`, `fit_step`). A source that `Obtain` returns
was therefore built for the same kind and parameters, and was neither idle for too
long nor too old (`Fresh`), unless a NUL character in a configuration makes two
fingerprints equal.
-/

namespace DataLoader

open Effects

/-! ## The log of the sources -/

/-- What the log says of a source stays, and its times only move on. -/
def Aged (log log' : ℕ → SourceLog) : Prop :=
  ∀ src cfg, (log src).config = some cfg → (log' src).config = some cfg ∧
    (log src).opened ≤ (log' src).opened ∧ (log src).used ≤ (log' src).used

theorem Aged.refl (log : ℕ → SourceLog) : Aged log log := fun _ _ h =>
  ⟨h, Int.le_refl _, Int.le_refl _⟩

/-- A change to a source that has not been built, or to later times. -/
theorem aged_update {log : ℕ → SourceLog} {src : ℕ} {x : SourceLog}
    (h : ∀ cfg, (log src).config = some cfg →
      x.config = some cfg ∧ (log src).opened ≤ x.opened ∧ (log src).used ≤ x.used) :
    Aged log (Function.update log src x) := by
  intro src' cfg hcfg
  by_cases heq : src' = src
  · subst heq
    rw [Function.update_self]
    exact h cfg hcfg
  · rw [Function.update_of_ne heq]
    exact ⟨hcfg, Int.le_refl _, Int.le_refl _⟩

/-- What one step leaves alone. -/
theorem PoolState.effect_frame {c : PoolCall} {o : PoolOut} {r : c.Ans} {s s' : PoolState}
    (heff : s.effect o c = some (r, s')) : s'.clock = s.clock ∧ s.nextSrc ≤ s'.nextSrc ∧
      ∀ id, s'.entry id = s.entry id ∨ ∃ ent, c = .write id ent ∧ s'.entry id = ent := by
  have hsame : ∀ {s'' : PoolState}, s''.clock = s.clock → s''.nextSrc = s.nextSrc →
      s''.entry = s.entry → s''.clock = s.clock ∧ s.nextSrc ≤ s''.nextSrc ∧
      ∀ id, s''.entry id = s.entry id ∨ ∃ ent, c = .write id ent ∧ s''.entry id = ent :=
    fun h1 h2 h3 => ⟨h1, Nat.le_of_eq h2.symm, fun id => .inl (by rw [h3])⟩
  cases c with
  | slot id =>
    cases heff
    exact hsame (by split_ifs <;> rfl) (by split_ifs <;> rfl) (by split_ifs <;> rfl)
  | slots =>
    cases o <;> simp only [PoolState.effect] at heff
    · cases heff
    · cases heff
    · split_ifs at heff
      cases heff
      exact hsame rfl rfl rfl
  | lock id | unlock id =>
    simp only [PoolState.effect] at heff
    split_ifs at heff
    cases heff
    exact hsame rfl rfl rfl
  | build cfg =>
    cases o <;> cases heff
    · exact ⟨rfl, Nat.le_succ _, fun _ => .inl rfl⟩
    · exact hsame rfl rfl rfl
    · exact ⟨rfl, Nat.le_succ _, fun _ => .inl rfl⟩
  | write id ent =>
    cases heff
    refine ⟨rfl, Nat.le_refl _, fun id' => ?_⟩
    by_cases hid : id' = id
    · subst hid
      exact .inr ⟨ent, rfl, Function.update_self ..⟩
    · exact .inl (Function.update_of_ne hid ..)
  | _ =>
    cases heff
    exact hsame rfl rfl rfl

namespace PoolSys

variable {p : SourcePool} {w w' : PoolSys} {ph : ℕ → PoolPhase} {place : ℕ → Place}

/-- The source fits a request for `cfg` at time `t`, as far as the fingerprint
    tells. -/
structure Suits (p : SourcePool) (log : ℕ → SourceLog) (cfg : SourceConfig) (src : ℕ) (t : Time) :
    Prop where
  config : ∃ cfg₀, (log src).config = some cfg₀ ∧ p.identity cfg₀ = p.identity cfg
  idle : 0 < p.idle → t - (log src).used ≤ p.idle
  age : 0 < p.maxAge → t - (log src).opened ≤ p.maxAge

theorem Suits.grow {log log' : ℕ → SourceLog} {cfg : SourceConfig} {src : ℕ} {t : Time}
    (h : Suits p log cfg src t) (hg : Aged log log') : Suits p log' cfg src t := by
  obtain ⟨cfg₀, hcfg, hid⟩ := h.config
  obtain ⟨hcfg', hopened, hused⟩ := hg src cfg₀ hcfg
  exact ⟨⟨cfg₀, hcfg', hid⟩, fun hpos => Int.le_trans (Int.sub_le_sub_left hused t) (h.idle hpos),
    fun hpos => Int.le_trans (Int.sub_le_sub_left hopened t) (h.age hpos)⟩

/-- What a call in the phase `q` knows is so. -/
structure Facts (p : SourcePool) (w : PoolSys) (q : PoolPhase) (job : PoolJob) (since : Time)
    (k : Know) : Prop where
  sane : k.broken = false
  begun : since ≤ w.pool.clock
  now : ∀ t, k.now = some t → since ≤ t ∧ t ≤ w.pool.clock
  entry : ∀ id e, k.entry = some (id, e) → q.key = some id ∧ w.pool.entry id = e
  built : ∀ src, k.built = some src → ∃ cfg, job = .obtain cfg ∧ (w.log src).config = some cfg
  opened : ∀ src, k.opened = some src → (∃ cfg, job = .obtain cfg ∧ (w.log src).config = some cfg) ∧
    ∀ t, k.now = some t → t ≤ (w.log src).opened ∧ t ≤ (w.log src).used
  granted : ∀ l, k.granted = some l →
    ∃ cfg t, job = .obtain cfg ∧ since ≤ t ∧ t ≤ w.pool.clock ∧ Suits p w.log cfg l.src t

/-- The log and the entries are in step, and what the calls know is so. -/
structure Fit (p : SourcePool) (ph : ℕ → PoolPhase) (w : PoolSys) : Prop where
  logs : ∀ src cfg, (w.log src).config = some cfg → src < w.pool.nextSrc ∧
    (w.log src).opened ≤ w.pool.clock ∧ (w.log src).used ≤ w.pool.clock
  entries : ∀ id src, (w.pool.entry id).src = some src → ∃ cfg, (w.log src).config = some cfg ∧
    (w.pool.entry id).fp = p.identity cfg ∧ (w.pool.entry id).openedAt ≤ (w.log src).opened ∧
    (w.pool.entry id).lastUsed ≤ w.pool.clock
  /-- Only a release function that has not yet unlocked its entry is ahead of the log. -/
  used : ∀ id src, (w.pool.entry id).src = some src →
    (w.pool.entry id).lastUsed ≤ (w.log src).used ∨
      ∃ i run l inv, w.busy i = some run ∧ run.job = .release l inv ∧ (ph i).key = some id
  calls : ∀ i run, w.busy i = some run → ∃ k,
    p.Watched run.job run.rest (fun res k' => ∀ l, res = .leased l → k'.granted = some l) k ∧
      Facts p w (ph i) run.job run.since k

variable {i : ℕ} {q q' : PoolPhase} {job : PoolJob} {since : Time} {k : Know}

/-- Knowledge outlasts what other callers do. -/
theorem Facts.frame (h : Facts p w q job since k) (q' : PoolPhase) (hg : Aged w.log w'.log)
    (hclock : w.pool.clock ≤ w'.pool.clock)
    (hentry : ∀ id e, k.entry = some (id, e) → q'.key = some id ∧ w'.pool.entry id = e) :
    Facts p w' q' job since k where
  sane := h.sane
  begun := Int.le_trans h.begun hclock
  now t ht := ⟨(h.now t ht).1, Int.le_trans (h.now t ht).2 hclock⟩
  entry := hentry
  built src hsrc := by
    obtain ⟨cfg, hjob, hcfg⟩ := h.built src hsrc
    exact ⟨cfg, hjob, (hg src cfg hcfg).1⟩
  opened src hsrc := by
    obtain ⟨⟨cfg, hjob, hcfg⟩, htimes⟩ := h.opened src hsrc
    obtain ⟨hcfg', hopened, hused⟩ := hg src cfg hcfg
    refine ⟨⟨cfg, hjob, hcfg'⟩, fun t ht => ?_⟩
    have ht' := htimes t ht
    exact ⟨Int.le_trans ht'.1 hopened, Int.le_trans ht'.2 hused⟩
  granted l hl := by
    obtain ⟨cfg, t, hjob, h1, h2, hsuits⟩ := h.granted l hl
    exact ⟨cfg, t, hjob, h1, Int.le_trans h2 hclock, hsuits.grow hg⟩

theorem Facts.forget (h : Facts p w q job since k) (q' : PoolPhase) :
    Facts p w q' job since { k with entry := none } :=
  ⟨h.sane, h.begun, h.now, by simp, h.built, h.opened, h.granted⟩

/-- A step that tells nothing new. -/
theorem Facts.idle {c : PoolCall} {r : c.Ans} {o : PoolOut} (h : Facts p w q job since k)
    (hallow : (SourcePool.protocol job).allows q c) (heff : w.pool.effect o c = some (r, w'.pool))
    (hg : Aged w.log w'.log) (hnot : ∀ id, c ≠ .unlock id ∧ (∀ src, c ≠ .newLease id src) ∧
      ∀ ent, c ≠ .write id ent) :
    Facts p w' ((SourcePool.protocol job).next q c r) job since k := by
  obtain ⟨hclock, -, hentry⟩ := PoolState.effect_frame heff
  refine h.frame _ hg (Int.le_of_eq hclock.symm) fun id e he => ?_
  obtain ⟨hkey, hent⟩ := h.entry id e he
  refine ⟨?_, ?_⟩
  · rcases SourcePool.key_next r hallow hkey with hnext | hunlock | ⟨src, hlease⟩
    · exact hnext
    · exact absurd hunlock (hnot id).1
    · exact absurd hlease ((hnot id).2.1 src)
  · rcases hentry id with hsame | ⟨ent, hwrite, -⟩
    · rw [hsame, hent]
    · exact absurd hwrite ((hnot id).2.2 ent)

/-- The source that a successful `build` makes is a new one. -/
theorem build_new {o : PoolOut} {cfg : SourceConfig} {src : ℕ} {s s' : PoolState}
    (heff : s.effect o (.build cfg) = some ((.ok src : Except Err ℕ), s')) :
    src = s.nextSrc ∧ s'.nextSrc = s.nextSrc + 1 := by
  cases o with
  | fail e => cases heff
  | ok =>
    cases heff
    exact ⟨rfl, rfl⟩
  | order ids =>
    cases heff
    exact ⟨rfl, rfl⟩

/-- Unlocking an entry leaves the log alone, or it is the end of a lease. -/
theorem record_unlock (s : PoolState) (job : PoolJob) (log : ℕ → SourceLog) (id : Int)
    (r : (PoolCall.unlock id).Ans) :
    (s.record job log (.unlock id) r = log ∧
        ((∃ l inv, job = .release l inv) → (s.entry id).src = none)) ∨
      ∃ src, (s.entry id).src = some src ∧
        s.record job log (.unlock id) r =
          Function.update log src { log src with used := s.clock } := by
  cases job with
  | release l inv =>
    cases hsrc : (s.entry id).src with
    | none => exact .inl ⟨by simp [PoolState.record, hsrc], fun _ => rfl⟩
    | some src => exact .inr ⟨src, rfl, by simp [PoolState.record, hsrc]⟩
  | _ => exact .inl ⟨rfl, fun ⟨_, _, h⟩ => (by cases h)⟩

theorem Fit.grows {c : PoolCall} {r : c.Ans} {o : PoolOut} (h : Fit p ph w)
    (heff : w.pool.effect o c = some (r, w'.pool)) :
    Aged w.log (w.pool.record job w.log c r) := by
  cases c with
  | build cfg =>
    cases (r : Except Err ℕ) with
    | error e => exact Aged.refl _
    | ok src =>
      refine aged_update fun cfg' hcfg' => ?_
      obtain ⟨rfl, -⟩ := build_new heff
      exact absurd (h.logs _ cfg' hcfg').1 (Nat.lt_irrefl _)
  | openSrc src =>
    cases (r : Option Err) with
    | some e => exact Aged.refl _
    | none => exact aged_update fun cfg hcfg => ⟨hcfg, (h.logs src cfg hcfg).2⟩
  | unlock id =>
    rcases record_unlock w.pool job w.log id r with ⟨heq, -⟩ | ⟨src, -, heq⟩
    · rw [heq]
      exact Aged.refl _
    · rw [heq]
      exact aged_update fun cfg hcfg => ⟨hcfg, Int.le_refl _, (h.logs src cfg hcfg).2.2⟩
  | _ => exact Aged.refl _

/-- Two callers do not hold one entry. -/
theorem Inv.key_unique (h : Inv ph place w) {j : ℕ} {id : Int} (hi : (ph i).key = some id)
    (hj : (ph j).key = some id) : j = i := by
  by_contra hne
  exact h.sound.key_ne hi hne hj

/-- The source that `Obtain` hands out suits the request. -/
theorem Fit.suits (h : Fit p ph w) (hinv : Inv ph place w) {cfg : SourceConfig} {id : Int}
    {e : PoolEntry} {src : ℕ} {t : Time} {run : PoolRun} (hrun : w.busy i = some run)
    (hjob : run.job = .obtain cfg) (hkey : (ph i).key = some id) (hent : w.pool.entry id = e)
    (hsrc : e.src = some src) (hreuse : p.reusable e (p.identity cfg) t = true) :
    Suits p w.log cfg src t := by
  subst hent
  obtain ⟨hfp, hidle, hage⟩ := SourcePool.reusable_iff.1 hreuse
  obtain ⟨cfg₀, hcfg, hfp₀, hopened, -⟩ := h.entries id src hsrc
  have hused : (w.pool.entry id).lastUsed ≤ (w.log src).used := by
    rcases h.used id src hsrc with hle | ⟨j, run', l, inv, hrun', hjob', hkey'⟩
    · exact hle
    · -- the entry is held by this call, which is no release
      obtain rfl := hinv.key_unique hkey hkey'
      rw [hrun] at hrun'
      cases hrun'
      rw [hjob] at hjob'
      cases hjob'
  exact ⟨⟨cfg₀, hcfg, hfp₀.symm.trans hfp⟩,
    fun hpos => Int.le_trans (Int.sub_le_sub_left hused t) (hidle hpos),
    fun hpos => Int.le_trans (Int.sub_le_sub_left hopened t) (hage hpos)⟩

/-- What a call knows after its own step is so. -/
theorem Facts.step {c : PoolCall} {f : c.Ans → Prog poolSig PoolResult} {r : c.Ans} {o : PoolOut}
    (h : Facts p w (ph i) job since k) (hfit : Fit p ph w) (hinv : Inv ph place w)
    (hrun : w.busy i = some ⟨job, since, .call c f⟩) (hjust : p.Justified job k c)
    (heff : w.pool.effect o c = some (r, w'.pool)) (hlog : w'.log = w.pool.record job w.log c r) :
    Facts p w' ((SourcePool.protocol job).next (ph i) c r) job since (k.after c r) := by
  have hallow := (hinv.follows hrun).1
  have hg : Aged w.log w'.log := hlog ▸ hfit.grows heff
  have hclock : w'.pool.clock = w.pool.clock := (PoolState.effect_frame heff).1
  have hle : w.pool.clock ≤ w'.pool.clock := Int.le_of_eq hclock.symm
  cases c with
  | slot | find | slots | closeSrc | ping | released | setReleased =>
    exact h.idle hallow heff hg (by simp)
  | lock id => exact (h.forget .free).frame _ hg hle (by simp)
  | unlock id => exact (h.forget .free).frame _ hg hle (by simp)
  | read id =>
    obtain ⟨rfl, hpool⟩ := Prod.mk.inj (Option.some.inj heff)
    have hafter : k.after (.read id) (w.pool.entry id) =
        { k with entry := some (id, w.pool.entry id) } := by
      simp only [Know.after]
      split
      next => rfl
      next id' e he =>
        rw [if_neg]
        rintro ⟨rfl, hne⟩
        exact hne (h.entry id' e he).2.symm
    rw [hafter]
    have hfacts := (h.forget .free).frame .free hg hle (by simp)
    refine ⟨hfacts.sane, hfacts.begun, hfacts.now, ?_, hfacts.built, hfacts.opened, hfacts.granted⟩
    intro id' e he
    cases he
    exact ⟨rfl, by rw [← hpool]⟩
  | write id ent =>
    obtain ⟨-, hpool⟩ := Prod.mk.inj (Option.some.inj heff)
    have hfacts := (h.forget .free).frame .free hg hle (by simp)
    refine ⟨hfacts.sane, hfacts.begun, hfacts.now, ?_, hfacts.built, hfacts.opened, hfacts.granted⟩
    intro id' e he
    cases he
    refine ⟨rfl, ?_⟩
    rw [← hpool]
    exact Function.update_self ..
  | now =>
    obtain ⟨rfl, -⟩ := Prod.mk.inj (Option.some.inj heff)
    have hfacts := h.idle hallow heff hg (by simp)
    refine ⟨hfacts.sane, hfacts.begun, ?_, hfacts.entry, hfacts.built, ?_, hfacts.granted⟩
    · intro t ht
      cases ht
      exact ⟨h.begun, hle⟩
    · intro src hsrc
      have hnone : k.opened = none := hjust
      rw [Know.after] at hsrc
      simp only [hnone] at hsrc
      cases hsrc
  | build cfg =>
    have hfacts := h.idle hallow heff hg (by simp)
    cases (r : Except Err ℕ) with
    | error e => exact hfacts
    | ok src =>
      refine ⟨hfacts.sane, hfacts.begun, hfacts.now, hfacts.entry, ?_, hfacts.opened,
        hfacts.granted⟩
      intro src' hsrc'
      cases hsrc'
      refine ⟨cfg, hjust, ?_⟩
      rw [hlog]
      simp [PoolState.record]
  | openSrc src =>
    have hfacts := h.idle hallow heff hg (by simp)
    cases (r : Option Err) with
    | some e => exact hfacts
    | none =>
      refine ⟨hfacts.sane, hfacts.begun, hfacts.now, hfacts.entry, hfacts.built, ?_,
        hfacts.granted⟩
      intro src' hsrc'
      cases hsrc'
      refine ⟨hfacts.built src hjust, fun t ht => ?_⟩
      have hpast := (h.now t ht).2
      rw [hlog]
      simpa [PoolState.record] using hpast
  | newLease id src =>
    obtain ⟨cfg, e, t, rfl, hentry, hsrc, hnow, hreuse⟩ := hjust
    obtain ⟨hkey, hent⟩ := h.entry id e hentry
    obtain ⟨rfl, -⟩ := Prod.mk.inj (Option.some.inj heff)
    have hsuits := hfit.suits hinv hrun rfl hkey hent hsrc hreuse
    have hfacts := (h.forget .free).frame .free hg hle (by simp)
    refine ⟨hfacts.sane, hfacts.begun, hfacts.now, by simp [Know.after], hfacts.built,
      hfacts.opened, ?_⟩
    intro l hl
    cases hl
    exact ⟨cfg, t, rfl, (h.now t hnow).1, Int.le_trans (h.now t hnow).2 hle, hsuits.grow hg⟩

/-- The times in the log are not ahead of the clock. -/
theorem Fit.logs_effect {c : PoolCall} {r : c.Ans} {o : PoolOut} (h : Fit p ph w)
    (heff : w.pool.effect o c = some (r, w'.pool)) (hlog : w'.log = w.pool.record job w.log c r)
    {src : ℕ} {cfg : SourceConfig} (hcfg : (w'.log src).config = some cfg) :
    src < w'.pool.nextSrc ∧ (w'.log src).opened ≤ w'.pool.clock ∧
      (w'.log src).used ≤ w'.pool.clock := by
  obtain ⟨hclock, hnext, -⟩ := PoolState.effect_frame heff
  rw [hclock]
  -- a source whose log has not changed
  have hold : w'.log src = w.log src → src < w'.pool.nextSrc ∧
      (w'.log src).opened ≤ w.pool.clock ∧ (w'.log src).used ≤ w.pool.clock := by
    intro hsame
    rw [hsame] at hcfg ⊢
    have hlogs := h.logs src cfg hcfg
    exact ⟨Nat.lt_of_lt_of_le hlogs.1 hnext, hlogs.2⟩
  cases c with
  | build cfg' =>
    cases (r : Except Err ℕ) with
    | error e => exact hold (by rw [hlog]; rfl)
    | ok src' =>
      obtain ⟨rfl, hnew⟩ := build_new heff
      by_cases hsrc : src = w.pool.nextSrc
      · subst hsrc
        rw [hlog, hnew]
        simp [PoolState.record]
      · exact hold (by rw [hlog]; exact Function.update_of_ne hsrc ..)
  | openSrc src' =>
    cases (r : Option Err) with
    | some e => exact hold (by rw [hlog]; rfl)
    | none =>
      by_cases hsrc : src = src'
      · subst hsrc
        have hcfg' : (w.log src).config = some cfg := by
          rw [hlog] at hcfg
          simpa [PoolState.record] using hcfg
        rw [hlog]
        refine ⟨Nat.lt_of_lt_of_le (h.logs src cfg hcfg').1 hnext, ?_⟩
        simp [PoolState.record]
      · exact hold (by rw [hlog]; exact Function.update_of_ne hsrc ..)
  | unlock id =>
    rcases record_unlock w.pool job w.log id r with ⟨heq, -⟩ | ⟨src', -, heq⟩
    · exact hold (by rw [hlog, heq])
    · by_cases hsrc : src = src'
      · subst hsrc
        have hcfg' : (w.log src).config = some cfg := by
          rw [hlog, heq] at hcfg
          simpa using hcfg
        have hlogs := h.logs src cfg hcfg'
        rw [hlog, heq]
        refine ⟨Nat.lt_of_lt_of_le hlogs.1 hnext, ?_⟩
        simpa using hlogs.2.1
      · exact hold (by rw [hlog, heq]; exact Function.update_of_ne hsrc ..)
  | _ => exact hold (by rw [hlog]; rfl)

/-- What the log says of an entry's source outlasts a step. -/
theorem Fit.entry_aged (h : Fit p ph w) (hg : Aged w.log w'.log) {id : Int} {src : ℕ}
    (hsrc : (w.pool.entry id).src = some src) : ∃ cfg, (w'.log src).config = some cfg ∧
      (w.pool.entry id).fp = p.identity cfg ∧ (w.pool.entry id).openedAt ≤ (w'.log src).opened ∧
      (w.pool.entry id).lastUsed ≤ w.pool.clock := by
  obtain ⟨cfg, hcfg, hfp, hopened, hused⟩ := h.entries id src hsrc
  obtain ⟨hcfg', hopened', -⟩ := hg src cfg hcfg
  exact ⟨cfg, hcfg', hfp, Int.le_trans hopened hopened', hused⟩

/-- An entry's fields agree with the log of the source in it after a step: an entry is
    written only with a source that this call has opened, or as it was read. -/
theorem Fit.entries_effect {c : PoolCall} {f : c.Ans → Prog poolSig PoolResult} {r : c.Ans}
    {o : PoolOut} (h : Fit p ph w) (hinv : Inv ph place w)
    (hrun : w.busy i = some ⟨job, since, .call c f⟩) (hfacts : Facts p w (ph i) job since k)
    (hjust : p.Justified job k c) (heff : w.pool.effect o c = some (r, w'.pool))
    (hlog : w'.log = w.pool.record job w.log c r) {id : Int} {src : ℕ}
    (hsrc : (w'.pool.entry id).src = some src) : ∃ cfg, (w'.log src).config = some cfg ∧
      (w'.pool.entry id).fp = p.identity cfg ∧
      (w'.pool.entry id).openedAt ≤ (w'.log src).opened ∧
      (w'.pool.entry id).lastUsed ≤ w'.pool.clock := by
  have hg : Aged w.log w'.log := hlog ▸ h.grows heff
  have hstep := hfacts.step h hinv hrun hjust heff hlog
  obtain ⟨hclock, -, hframe⟩ := PoolState.effect_frame heff
  rw [hclock]
  rcases hframe id with hsame | ⟨ent, rfl, hent⟩
  · rw [hsame] at hsrc ⊢
    exact h.entry_aged hg hsrc
  · rw [hent] at hsrc ⊢
    rcases hjust with hnone | ⟨l, inv, e, t, -, hentry, hnow, rfl⟩ |
      ⟨cfg, src', t, hobtain, hopen, hnow, rfl⟩
    · rw [hnone] at hsrc
      cases hsrc
    · rw [← (hfacts.entry id e hentry).2] at hsrc ⊢
      obtain ⟨cfg, hcfg, hfp, hopened, -⟩ := h.entry_aged hg hsrc
      exact ⟨cfg, hcfg, hfp, hopened, (hfacts.now t hnow).2⟩
    · cases hsrc
      obtain ⟨⟨cfg', hjob, hcfg⟩, htimes⟩ := hstep.opened src hopen
      cases hobtain.symm.trans hjob
      exact ⟨cfg, hcfg, rfl, (htimes t hnow).1, (hfacts.now t hnow).2⟩

/-- A release function that is ahead of the log stays the one that holds the entry, or
    its step is the unlock that brings the log up to date. -/
theorem Fit.release_effect {l : Lease} {inv : Bool} {c : PoolCall}
    {f : c.Ans → Prog poolSig PoolResult} {r : c.Ans} (h : Fit p ph w) (hinv : Inv ph place w)
    (hrun : w.busy i = some ⟨.release l inv, since, .call c f⟩)
    (hjust : p.Justified (.release l inv) k c)
    (hlog : w'.log = w.pool.record (.release l inv) w.log c r) {id : Int} {src : ℕ}
    (hkey : (ph i).key = some id) (hsrc : (w.pool.entry id).src = some src) :
    ((SourcePool.protocol (.release l inv)).next (ph i) c r).key = some id ∨
      (w.pool.entry id).lastUsed ≤ (w'.log src).used := by
  obtain ⟨cfg, -, -, -, hpast⟩ := h.entries id src hsrc
  rcases SourcePool.key_next r (hinv.follows hrun).1 hkey with hkey' | rfl | ⟨src', rfl⟩
  · exact .inl hkey'
  · -- the lease ends here
    rcases record_unlock w.pool (.release l inv) w.log id r with ⟨-, hnone⟩ | ⟨src', hs, heq⟩
    · rw [hnone ⟨l, inv, rfl⟩] at hsrc
      cases hsrc
    · rw [hs] at hsrc
      cases hsrc
      refine .inr ?_
      rw [hlog, heq, Function.update_self]
      exact hpast
  · obtain ⟨cfg', e, t, hjob, -⟩ := hjust
    cases hjob

/-- After a step, too, only a release function is ahead of the log. -/
theorem Fit.used_effect {c : PoolCall} {f : c.Ans → Prog poolSig PoolResult} {r : c.Ans}
    {o : PoolOut} (h : Fit p ph w) (hinv : Inv ph place w)
    (hrun : w.busy i = some ⟨job, since, .call c f⟩) (hfacts : Facts p w (ph i) job since k)
    (hjust : p.Justified job k c) (heff : w.pool.effect o c = some (r, w'.pool))
    (hlog : w'.log = w.pool.record job w.log c r)
    (hbusy : w'.busy = Function.update w.busy i (some ⟨job, since, f r⟩)) {id : Int} {src : ℕ}
    (hsrc : (w'.pool.entry id).src = some src) :
    (w'.pool.entry id).lastUsed ≤ (w'.log src).used ∨
      ∃ j run l inv, w'.busy j = some run ∧ run.job = .release l inv ∧
        (Function.update ph i ((SourcePool.protocol job).next (ph i) c r) j).key = some id := by
  have hg : Aged w.log w'.log := hlog ▸ h.grows heff
  have hstep := hfacts.step h hinv hrun hjust heff hlog
  have hbusy_i : w'.busy i = some ⟨job, since, f r⟩ := by rw [hbusy, Function.update_self]
  obtain ⟨-, -, hframe⟩ := PoolState.effect_frame heff
  rcases hframe id with hsame | ⟨ent, rfl, hent⟩
  · rw [hsame] at hsrc ⊢
    rcases h.used id src hsrc with hle | ⟨j, run, l, inv, hj, hjob, hkeyj⟩
    · obtain ⟨cfg, hcfg, -⟩ := h.entries id src hsrc
      exact .inl (Int.le_trans hle (hg src cfg hcfg).2.2)
    · by_cases hji : j = i
      · subst hji
        rw [hrun] at hj
        cases hj
        obtain rfl : job = .release l inv := hjob
        rcases h.release_effect hinv hrun hjust hlog hkeyj hsrc with hkey' | hle
        · exact .inr ⟨j, _, l, inv, hbusy_i, rfl, by rw [Function.update_self, hkey']⟩
        · exact .inl hle
      · refine .inr ⟨j, run, l, inv, ?_, hjob, ?_⟩
        · rw [hbusy, Function.update_of_ne hji, hj]
        · rw [Function.update_of_ne hji, hkeyj]
  · rw [hent] at hsrc ⊢
    rcases hjust with hnone | ⟨l, inv, e, t, rfl, -⟩ | ⟨cfg, src', t, -, hopen, hnow, rfl⟩
    · rw [hnone] at hsrc
      cases hsrc
    · exact .inr ⟨i, _, l, inv, hbusy_i, rfl, by rw [Function.update_self]; rfl⟩
    · cases hsrc
      exact .inl ((hstep.opened src hopen).2 t hnow).2

/-- A call in progress makes a step. -/
theorem Fit.effect {c : PoolCall} {f : c.Ans → Prog poolSig PoolResult} {r : c.Ans} {o : PoolOut}
    (h : Fit p ph w) (hinv : Inv ph place w) (hrun : w.busy i = some ⟨job, since, .call c f⟩)
    (heff : w.pool.effect o c = some (r, w'.pool)) (hlog : w'.log = w.pool.record job w.log c r)
    (hbusy : w'.busy = Function.update w.busy i (some ⟨job, since, f r⟩)) :
    Fit p (Function.update ph i ((SourcePool.protocol job).next (ph i) c r)) w' := by
  obtain ⟨k, hwatched, hfacts⟩ := h.calls i _ hrun
  have hjust : p.Justified job k c := hwatched.1.resolve_left (by rw [hfacts.sane]; simp)
  have hnext : (p.watch job).next k c r = k.after c r := if_neg (by rw [hfacts.sane]; simp)
  refine ⟨fun src cfg hcfg => h.logs_effect heff hlog hcfg,
    fun id src hsrc => h.entries_effect hinv hrun hfacts hjust heff hlog hsrc,
    fun id src hsrc => h.used_effect hinv hrun hfacts hjust heff hlog hbusy hsrc, ?_⟩
  intro j run hj
  rcases busy_cases hbusy hj with ⟨rfl, rfl⟩ | ⟨hji, hj⟩
  · rw [Function.update_self]
    exact ⟨_, hnext ▸ hwatched.2 r, hfacts.step h hinv hrun hjust heff hlog⟩
  · obtain ⟨hclock, -, hframe⟩ := PoolState.effect_frame heff
    obtain ⟨k', hwatched', hfacts'⟩ := h.calls j run hj
    rw [Function.update_of_ne hji]
    refine ⟨k', hwatched', hfacts'.frame _ (hlog ▸ h.grows heff) (Int.le_of_eq hclock.symm)
      fun id e he => ?_⟩
    obtain ⟨hkeyj, hent⟩ := hfacts'.entry id e he
    refine ⟨hkeyj, ?_⟩
    rcases hframe id with hsame | ⟨ent, rfl, -⟩
    · rw [hsame, hent]
    · -- an entry is written under its lock
      have hkey : (ph i).key = some id := by
        rcases (hinv.follows hrun).1 with ⟨x, hq, -⟩ | ⟨src, hq, -⟩ | ⟨src, hq, -⟩ <;>
          rw [hq] <;> rfl
      exact absurd (hinv.key_unique hkey hkeyj) hji

theorem fit_start (n : ℕ) (t : Time) : Fit p (fun _ => .free) (start n t) where
  logs := by simp [start]
  entries := by simp [start]
  used := by simp [start]
  calls := by simp

/-- A caller without a lock starts a call or ends one. What is left to show is about the
    call that it starts. -/
theorem Fit.turn {x : Option PoolRun} (h : Fit p ph w) (hpool : w'.pool = w.pool)
    (hlog : w'.log = w.log) (hbusy : w'.busy = Function.update w.busy i x)
    (hkey : ∀ run, w.busy i = some run → (ph i).key = none)
    (hnew : ∀ run, x = some run → ∃ k,
      p.Watched run.job run.rest (fun res k' => ∀ l, res = .leased l → k'.granted = some l) k ∧
        Facts p w' (ph i) run.job run.since k) : Fit p ph w' := by
  refine ⟨by rw [hpool, hlog]; exact h.logs, by rw [hpool, hlog]; exact h.entries, ?_, ?_⟩
  · intro id src hsrc
    rw [hpool] at hsrc ⊢
    rcases h.used id src hsrc with hle | ⟨j, run, l, inv, hj, hjob, hkeyj⟩
    · exact .inl (by rw [hlog]; exact hle)
    · refine .inr ⟨j, run, l, inv, ?_, hjob, hkeyj⟩
      rw [hbusy, Function.update_of_ne ?_, hj]
      rintro rfl
      rw [hkey run hj] at hkeyj
      cases hkeyj
  · intro j run hj
    rw [hbusy] at hj
    by_cases hji : j = i
    · rw [hji, Function.update_self] at hj
      rw [hji]
      exact hnew run hj
    · rw [Function.update_of_ne hji] at hj
      obtain ⟨k, hwatched, hfacts⟩ := h.calls j run hj
      refine ⟨k, hwatched, hfacts.frame _ (hlog ▸ Aged.refl _) (hpool ▸ Int.le_refl _) ?_⟩
      rw [hpool]
      exact hfacts.entry

/-- An idle caller starts a call. -/
theorem Fit.call (h : Fit p ph w) (hidle : w.busy i = none) (hpool : w'.pool = w.pool)
    (hlog : w'.log = w.log)
    (hbusy : w'.busy = Function.update w.busy i (some ⟨job, w.pool.clock, job.prog p⟩)) :
    Fit p ph w' := by
  refine h.turn hpool hlog hbusy (by simp [hidle]) ?_
  rintro _ ⟨⟩
  refine ⟨{}, SourcePool.job_watched job, rfl, ?_, ?_, ?_, ?_, ?_, ?_⟩
  · exact Int.le_of_eq (congrArg PoolState.clock hpool).symm
  all_goals simp

/-- A call that has returned is over. -/
theorem Fit.ret {res : PoolResult} (h : Fit p ph w) (hinv : Inv ph place w)
    (hrun : w.busy i = some ⟨job, since, .ret res⟩) (hpool : w'.pool = w.pool)
    (hlog : w'.log = w.log) (hbusy : w'.busy = Function.update w.busy i none) : Fit p ph w' := by
  refine h.turn hpool hlog hbusy (fun _ _ => ?_) nofun
  -- a call that has returned holds nothing
  have hfree : ph i = .free := hinv.follows hrun
  rw [hfree]
  rfl

theorem Fit.tick {d : ℕ} (h : Fit p ph w)
    (hpool : w'.pool = { w.pool with clock := w.pool.clock + d }) (hlog : w'.log = w.log)
    (hbusy : w'.busy = w.busy) : Fit p ph w' := by
  have hclock : w.pool.clock ≤ w'.pool.clock := by
    rw [hpool]
    exact Int.le_add_of_nonneg_right (Int.natCast_nonneg d)
  refine ⟨?_, ?_, ?_, ?_⟩
  · intro src cfg hcfg
    rw [hlog] at hcfg ⊢
    obtain ⟨hlt, hopened, hused⟩ := h.logs src cfg hcfg
    refine ⟨?_, Int.le_trans hopened hclock, Int.le_trans hused hclock⟩
    rw [hpool]
    exact hlt
  · intro id src hsrc
    have hent : w'.pool.entry = w.pool.entry := by rw [hpool]
    rw [hent] at hsrc ⊢
    rw [hlog]
    obtain ⟨cfg, hcfg, hfp, hopened, hused⟩ := h.entries id src hsrc
    exact ⟨cfg, hcfg, hfp, hopened, Int.le_trans hused hclock⟩
  · rw [hbusy, hlog, hpool]
    exact h.used
  · intro j run hj
    rw [hbusy] at hj
    obtain ⟨k, hwatched, hfacts⟩ := h.calls j run hj
    refine ⟨k, hwatched, hfacts.frame _ (hlog ▸ Aged.refl _) hclock ?_⟩
    rw [hpool]
    exact hfacts.entry

/-- Every action keeps the log and the entries in step, if the calls of a release
    function do not overlap. -/
theorem fit_step {a : PoolAct} (h : ∃ ph place, Inv ph place w ∧ Fit p ph w)
    (happart : a.apart w = true) (hstep : step p a w = some w') :
    ∃ ph place, Inv ph place w' ∧ Fit p ph w' := by
  obtain ⟨ph, place, hinv, h⟩ := h
  cases step_cases hstep with
  | call i job hidle hjob hpool hlog hbusy =>
    exact ⟨ph, place, hinv.call hidle hjob happart hpool hbusy, h.call hidle hpool hlog hbusy⟩
  | step i o job since c k r hrun heff hlog hbusy =>
    obtain ⟨place', hinv'⟩ := hinv.effect hrun heff hbusy
    exact ⟨_, place', hinv', h.effect hinv hrun heff hlog hbusy⟩
  | ret i job since res hrun hpool hlog hbusy =>
    exact ⟨ph, place, hinv.ret hrun hpool hbusy, h.ret hinv hrun hpool hlog hbusy⟩
  | tick d hpool hlog hbusy => exact ⟨ph, place, hinv.tick hpool hbusy, h.tick hpool hlog hbusy⟩

end PoolSys

/-! ## Requests without NUL characters -/

/-- A source is only requested with a configuration that satisfies `ok`. -/
def PoolAct.asks (ok : SourceConfig → Bool) : PoolAct → Bool
  | .call _ (.obtain cfg) => ok cfg
  | _ => true

namespace PoolSys

variable {ok : SourceConfig → Bool}

/-- Every configuration in use was asked for. -/
structure Asked (ok : SourceConfig → Bool) (w : PoolSys) : Prop where
  logs : ∀ src cfg, (w.log src).config = some cfg → ok cfg = true
  calls : ∀ i run cfg, w.busy i = some run → run.job = .obtain cfg → ok cfg = true

/-- Only `build` writes a configuration into the log. -/
theorem record_config {s : PoolState} {log : ℕ → SourceLog} {c : PoolCall} {r : c.Ans} {src : ℕ}
    {cfg : SourceConfig} (h : (s.record job log c r src).config = some cfg) :
    (log src).config = some cfg ∨ c = .build cfg := by
  have hupdate : ∀ {src' : ℕ} {x : SourceLog},
      (Function.update log src' x src).config = some cfg →
      (log src).config = some cfg ∨ src = src' ∧ x.config = some cfg := by
    intro src' x hx
    by_cases hsrc : src = src'
    · rw [hsrc, Function.update_self] at hx
      exact .inr ⟨hsrc, hx⟩
    · rw [Function.update_of_ne hsrc] at hx
      exact .inl hx
  cases c with
  | build cfg' =>
    cases (r : Except Err ℕ) with
    | error e => exact .inl h
    | ok src' =>
      rcases hupdate h with hlog | ⟨-, hnew⟩
      · exact .inl hlog
      · cases hnew
        exact .inr rfl
  | openSrc src' =>
    cases (r : Option Err) with
    | some e => exact .inl h
    | none =>
      rcases hupdate h with hlog | ⟨rfl, hsame⟩
      · exact .inl hlog
      · exact .inl hsame
  | unlock id =>
    rcases record_unlock s job log id r with ⟨heq, -⟩ | ⟨src', -, heq⟩
    · rw [heq] at h
      exact .inl h
    · rw [heq] at h
      rcases hupdate h with hlog | ⟨rfl, hsame⟩
      · exact .inl hlog
      · exact .inl hsame
  | _ => exact .inl h

theorem asked_step {a : PoolAct} (h : Asked ok w) (hinv : Inv ph place w) (hok : a.asks ok = true)
    (hstep : step p a w = some w') : Asked ok w' := by
  cases step_cases hstep with
  | call i job hidle hjob hpool hlog hbusy =>
    refine ⟨by rw [hlog]; exact h.logs, fun j run cfg hj hcfg => ?_⟩
    rcases busy_cases hbusy hj with ⟨rfl, rfl⟩ | ⟨-, hj⟩
    · obtain rfl : job = .obtain cfg := hcfg
      exact hok
    · exact h.calls j run cfg hj hcfg
  | step i o job since c k r hrun heff hlog hbusy =>
    constructor
    · intro src cfg hcfg
      rw [hlog] at hcfg
      rcases record_config hcfg with hold | rfl
      · exact h.logs src cfg hold
      · exact h.calls i _ cfg hrun (hinv.follows hrun).1.2
    · intro j run cfg hj hcfg
      rcases busy_cases hbusy hj with ⟨rfl, rfl⟩ | ⟨-, hj⟩
      · exact h.calls j _ cfg hrun hcfg
      · exact h.calls j run cfg hj hcfg
  | ret i job since res hrun hpool hlog hbusy =>
    refine ⟨by rw [hlog]; exact h.logs, fun j run cfg hj hcfg => ?_⟩
    by_cases hji : j = i
    · rw [hbusy, hji, Function.update_self] at hj
      cases hj
    · rw [hbusy, Function.update_of_ne hji] at hj
      exact h.calls j run cfg hj hcfg
  | tick d hpool hlog hbusy =>
    refine ⟨by rw [hlog]; exact h.logs, ?_⟩
    rw [hbusy]
    exact h.calls

/-- What the `Obtain` of caller `i` is about to return: its configuration, when it
    was called, and the lease. -/
def obtained (w : PoolSys) (i : ℕ) : Option (SourceConfig × Time × Lease) :=
  match w.busy i with
  | some ⟨.obtain cfg, since, .ret (.leased l)⟩ => some (cfg, since, l)
  | _ => none

theorem busy_of_obtained {w : PoolSys} {i : ℕ} {since : Time} {cfg : SourceConfig} {l : Lease}
    (h : w.obtained i = some (cfg, since, l)) :
    w.busy i = some ⟨.obtain cfg, since, .ret (.leased l)⟩ := by
  unfold obtained at h
  split at h
  next heq =>
    cases h
    exact heq
  next => cases h

end PoolSys

/-- The pool of `NewSourcePool`, with `ParamsFingerprint`. -/
def SourcePool.hashed [GoText] (digest : List Char → String) (idleTimeout maxAge : Int) :
    SourcePool :=
  .new idleTimeout maxAge (paramsFingerprint digest)

theorem SourcePool.idle_pos [GoText] (digest : List Char → String) (idleTimeout maxAge : Int) :
    0 < (SourcePool.hashed digest idleTimeout maxAge).idle := by
  simp only [SourcePool.hashed, SourcePool.new]
  split_ifs <;> omega

namespace PoolSys

/-- The source was built for the same kind and parameters as `cfg` has, and at the
    time `t` it was not idle for too long and not too old. -/
structure Fresh [GoText] (p : SourcePool) (log : SourceLog) (cfg : SourceConfig) (t : Time) :
    Prop where
  config : ∃ cfg₀, log.config = some cfg₀ ∧ cfg₀.Same cfg
  idle : t - log.used ≤ p.idle
  age : 0 < p.maxAge → t - log.opened ≤ p.maxAge

/-- In every history in which the calls of one release function do not overlap and
    no configuration has a NUL character, a source that `Obtain` returns fits: at a
    moment of the call, for SHA-256 without collisions. -/
theorem obtain_fits [GoText] {digest : List Char → String} (hdigest : Function.Injective digest)
    (idleTimeout maxAge : Int) {n : ℕ} {t : Time} {as : List PoolAct} {w : PoolSys} {i : ℕ}
    {cfg : SourceConfig} {since : Time} {l : Lease}
    (hr : runs (guarded (fun a w => a.apart w && a.asks SourceConfig.plain)
      (step (.hashed digest idleTimeout maxAge))) as (start n t) = some w)
    (hret : w.obtained i = some (cfg, since, l)) :
    ∃ now, since ≤ now ∧ now ≤ w.pool.clock ∧
      Fresh (.hashed digest idleTimeout maxAge) (w.log l.src) cfg now := by
  have hinv : ∃ ph place, Inv ph place w ∧ Fit (.hashed digest idleTimeout maxAge) ph w ∧
      Asked SourceConfig.plain w := by
    refine runs_inv (I := fun w => ∃ ph place, Inv ph place w ∧
      Fit (.hashed digest idleTimeout maxAge) ph w ∧ Asked SourceConfig.plain w) ?_
      ⟨_, _, inv_start n t, fit_start n t, by simp [start], by simp⟩ hr
    rintro a w w' ⟨ph, place, hinv, hfit, hasked⟩ hs
    obtain ⟨hok, hs⟩ := guarded_eq_some.1 hs
    obtain ⟨happart, hasks⟩ := Bool.and_eq_true_iff.1 hok
    have hasked' := asked_step hasked hinv hasks hs
    obtain ⟨ph', place', hinv', hfit'⟩ := fit_step ⟨ph, place, hinv, hfit⟩ happart hs
    exact ⟨ph', place', hinv', hfit', hasked'⟩
  obtain ⟨ph, place, -, hfit, hasked⟩ := hinv
  have hbusy := busy_of_obtained hret
  obtain ⟨k, hwatched, hfacts⟩ := hfit.calls i _ hbusy
  have hgranted := (hwatched.resolve_left (by rw [hfacts.sane]; simp)) l rfl
  obtain ⟨cfg', now, hjob, hsince, hclock, hsuits⟩ := hfacts.granted l hgranted
  cases hjob
  obtain ⟨cfg₀, hcfg, hid⟩ := hsuits.config
  refine ⟨now, hsince, hclock, ⟨cfg₀, hcfg, ?_⟩,
    hsuits.idle (SourcePool.idle_pos digest idleTimeout maxAge), hsuits.age⟩
  exact paramsText_inj (hasked.logs _ cfg₀ hcfg) (hasked.calls i _ cfg hbusy rfl) (hdigest hid)

section Runs

attribute [local instance] GoText.ascii

/-- One source, asked for, handed back and asked for again with the kind in upper
    case and the parameters in another order. -/
def askedTwice : List PoolAct :=
  [.call 0 (.obtain ⟨1, "modbus", "plant", [("host", "plc"), ("port", "502")]⟩)] ++ steps 0 9 ++
    [.ret 0, .tick 60, .call 0 (.release ⟨0, 1, 0⟩ false)] ++ steps 0 6 ++ [.ret 0, .tick 60,
    .call 0 (.obtain ⟨1, "MODBUS", "plant", [("port", "502"), ("host", "plc")]⟩)] ++ steps 0 6

theorem askedTwice_fits :
    ∃ w since cfg l, runs (guarded (fun a w => a.apart w && a.asks SourceConfig.plain)
        (step (.hashed String.ofList 0 0))) askedTwice (start 1 0) = some w ∧
      w.obtained 0 = some (cfg, since, l) ∧ l.num = 1 ∧ l.src = 0 ∧
      ∃ now, since ≤ now ∧ now ≤ w.pool.clock ∧
        Fresh (.hashed String.ofList 0 0) (w.log l.src) cfg now := by
  have heval : ((runs (guarded (fun a w => a.apart w && a.asks SourceConfig.plain)
      (step (.hashed String.ofList 0 0))) askedTwice (start 1 0)).map fun w => w.obtained 0) =
      some (some (⟨1, "MODBUS", "plant", [("port", "502"), ("host", "plc")]⟩, 120, ⟨1, 1, 0⟩)) := by
    decide +kernel
  obtain ⟨w, hr, hret⟩ := Option.map_eq_some_iff.1 heval
  have hinj : Function.Injective String.ofList := fun a b h => String.ofList_injective h
  exact ⟨w, _, _, _, hr, hret, rfl, rfl, obtain_fits hinj 0 0 hr hret⟩

/-- The parameters `a = "b\x00c\x00d"`, and then `a = "b"` and `c = "d"`. -/
def nulInValue : List PoolAct :=
  [.call 0 (.obtain ⟨1, "modbus", "plant", [("a", "b\x00c\x00d")]⟩)] ++ steps 0 9 ++
    [.ret 0, .call 0 (.release ⟨0, 1, 0⟩ false)] ++ steps 0 6 ++
    [.ret 0, .call 0 (.obtain ⟨1, "modbus", "plant", [("a", "b"), ("c", "d")]⟩)] ++ steps 0 6

theorem nulInValue_gets_wrong_source :
    ∃ w, runs (step (.hashed String.ofList 0 0)) nulInValue (start 1 0) = some w ∧
      w.obtained 0 = some (⟨1, "modbus", "plant", [("a", "b"), ("c", "d")]⟩, 0, ⟨1, 1, 0⟩) ∧
      (w.log 0).config = some ⟨1, "modbus", "plant", [("a", "b\x00c\x00d")]⟩ ∧
      ∀ now, ¬ Fresh (.hashed String.ofList 0 0) (w.log 0)
        ⟨1, "modbus", "plant", [("a", "b"), ("c", "d")]⟩ now := by
  have heval : ((runs (step (.hashed String.ofList 0 0)) nulInValue (start 1 0)).map fun w =>
      (w.obtained 0, (w.log 0).config)) =
      some (some (⟨1, "modbus", "plant", [("a", "b"), ("c", "d")]⟩, 0, ⟨1, 1, 0⟩),
        some ⟨1, "modbus", "plant", [("a", "b\x00c\x00d")]⟩) := by
    decide +kernel
  obtain ⟨w, hr, heq⟩ := Option.map_eq_some_iff.1 heval
  obtain ⟨hret, hcfg⟩ := Prod.mk.inj heq
  refine ⟨w, hr, hret, hcfg, fun now hfresh => ?_⟩
  obtain ⟨cfg₀, hcfg₀, hsame⟩ := hfresh.config
  rw [hcfg] at hcfg₀
  cases hcfg₀
  have hlook := hsame.params "c"
  revert hlook
  decide

end Runs

end PoolSys

end DataLoader
