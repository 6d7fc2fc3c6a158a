import DataLoader.Feed.Chunks
import DataLoader.Sources.Dialect
import DataLoader.Sources.Handed
import DataLoader.Sources.Queries

/-!
# The batches of the SQL sources

`Read` of both SQL sources on every path: whatever the database answers and whatever the
handler does.

* `readLoop_path`: what the loop over the result set has handed over when it ends, by
  induction on the rows that are left.
* `sql_reads_in_batches`: the rows of the result set arrive in order, in full batches but
  for the last, and no batch follows one that the handler refused.
-/

namespace DataLoader

open Effects Feed

namespace Sql

/-- What `rows.Next` and `rows.Scan` return before the first error. -/
def scanned : List (Except Err (List Value)) → List (List Value)
  | .ok holders :: rest => holders :: scanned rest
  | _ => []

/-- The rows of a result set. -/
def Flavour.rowsOf (f : Flavour) (columns : List Column) (rows : List (Except Err (List Value))) :
    List Row :=
  (scanned rows).map (f.row columns)

@[simp] theorem Flavour.rowsOf_cons (f : Flavour) (columns : List Column) (holders : List Value)
    (rest : List (Except Err (List Value))) :
    f.rowsOf columns (.ok holders :: rest) = f.row columns holders :: f.rowsOf columns rest := rfl

theorem effectiveBatchSize_pos (batchSize : Int) : 0 < effectiveBatchSize batchSize := by
  unfold effectiveBatchSize
  split_ifs <;> omega

variable {f : Flavour} {columns : List Column} {size : ℕ}

/-- How the loop ends after it has handed over `ds`: with a rest that is pending, at a row
    that cannot be scanned, or at a batch that the handler refused. -/
inductive LoopEnds (f : Flavour) (columns : List Column) (size : ℕ)
    (rows : List (Except Err (List Value))) (pending : List Row) (n : Int) :
    List (List Row × Option Err) → Except Err (List Row × Int) → Prop
  | done {ds : List (List Row × Option Err)} {rest : List Row}
      (hall : (scanned rows).length = rows.length) (hfull : Full size ds)
      (hflat : ds.flatMap (·.1) ++ rest = pending ++ f.rowsOf columns rows)
      (hrest : rest.length < size) :
      LoopEnds f columns size rows pending n ds (.ok (rest, n + rows.length))
  | stopped {ds : List (List Row × Option Err)} {e : Err} (hfull : Full size ds)
      (hflat : ds.flatMap (·.1) <+: pending ++ f.rowsOf columns rows) :
      LoopEnds f columns size rows pending n ds (.error e)
  | refused {ds : List (List Row × Option Err)} {c : List Row} {e : Err} (hfull : Full size ds)
      (hlen : c.length = size) (hflat : ds.flatMap (·.1) ++ c <+: pending ++ f.rowsOf columns rows) :
      LoopEnds f columns size rows pending n (ds ++ [(c, some e)]) (.error e)

/-- One more row that stays pending. -/
theorem LoopEnds.pend {holders : List Value} {rest : List (Except Err (List Value))}
    {pending : List Row} {n : Int} {ds : List (List Row × Option Err)}
    {res : Except Err (List Row × Int)}
    (h : LoopEnds f columns size rest (pending ++ [f.row columns holders]) (n + 1) ds res) :
    LoopEnds f columns size (.ok holders :: rest) pending n ds res := by
  cases h with
  | done hall hfull hflat hrest =>
    have hn : n + 1 + (rest.length : Int) = n + ((.ok holders :: rest : List _).length : Int) := by
      rw [List.length_cons]
      omega
    rw [hn]
    exact .done (by simp [scanned, hall]) hfull (by simpa using hflat) hrest
  | stopped hfull hflat => exact .stopped hfull (by simpa using hflat)
  | refused hfull hlen hflat => exact .refused hfull hlen (by simpa using hflat)

/-- A batch that the handler accepted, and what follows it. -/
theorem LoopEnds.flush {c : List Row} (hc : c.length = size)
    {rest : List (Except Err (List Value))} {n : Int} {ds : List (List Row × Option Err)}
    {res : Except Err (List Row × Int)} (h : LoopEnds f columns size rest [] n ds res) :
    LoopEnds f columns size rest c n ((c, none) :: ds) res := by
  cases h with
  | done hall hfull hflat hrest => exact .done hall (hfull.cons hc) (by simpa using hflat) hrest
  | stopped hfull hflat =>
    refine .stopped (hfull.cons hc) ?_
    simpa using hflat
  | refused hfull hlen hflat =>
    refine .refused (hfull.cons hc) hlen ?_
    simpa using hflat

theorem readLoop_path {rows : List (Except Err (List Value))} {pending : List Row} {n : Int}
    {tr : List (Step (readSig sqlSig))} {res : Except Err (List Row × Int)}
    (hpending : pending.length < size)
    (h : (readLoop f columns size rows pending n).Path tr res) :
    LoopEnds f columns size rows pending n (handedRows tr) res := by
  induction rows generalizing pending n tr with
  | nil =>
    obtain ⟨rfl, rfl⟩ := Prog.Path.of_ret h
    have hdone : LoopEnds f columns size [] pending n [] (.ok (pending, n + ([] : List Row).length)) :=
      .done rfl Full.nil (by simp [Flavour.rowsOf, scanned]) hpending
    simpa using hdone
  | cons row rest ih =>
    cases row with
    | error e =>
      obtain ⟨rfl, rfl⟩ := Prog.Path.of_ret h
      exact .stopped Full.nil (by simp)
    | ok holders =>
      unfold readLoop at h
      refine LoopEnds.pend ?_
      generalize hc : pending ++ [f.row columns holders] = c at h ⊢
      have hlen : c.length ≤ size := by
        rw [← hc, List.length_append]
        exact hpending
      dsimp only at h
      split_ifs at h with hsize
      · obtain ⟨e, tr', rfl, h'⟩ := Prog.Path.of_call h
        have hfull : c.length = size := hlen.antisymm hsize
        cases e with
        | some e =>
          obtain ⟨rfl, rfl⟩ := Prog.Path.of_ret h'
          have hnil : Full size ([] : List (List Row × Option Err)) := Full.nil
          exact LoopEnds.refused hnil hfull (by simp)
        | none =>
          have hnil : ([] : List Row).length < size := Nat.zero_lt_of_lt hpending
          exact (ih hnil h').flush hfull
      · exact ih (by omega) h

/-- The batch that is pending after the loop, if there is one. -/
theorem lastBatch_path {pending : List Row} {n : Int} {wm : Watermark}
    {tr : List (Step (readSig sqlSig))} {result : ReadResult} {err : Option Err}
    (h : Prog.Path (if pending.isEmpty then pure ({ rowsRead := n, newWatermark := wm }, none)
      else do
        match ← emit ⟨columns, pending⟩ with
        | some e => pure ({}, some e)
        | none => pure ({ rowsRead := n, newWatermark := wm }, none)) tr (result, err)) :
    (∀ s ∈ tr, ∃ b, s.1 = ReadCall.emit b) ∧
      (pending = [] ∧ err = none ∧ handedRows tr = [] ∨
        pending ≠ [] ∧ handedRows tr = [(pending, err)]) ∧
      (err = none → result.rowsRead = n) ∧ (err ≠ none → result.rowsRead = 0) := by
  split_ifs at h with hempty
  · obtain ⟨rfl, rfl, rfl⟩ := Prog.Path.of_ret_pair h
    exact ⟨by simp, .inl ⟨List.isEmpty_iff.1 hempty, rfl, rfl⟩, fun _ => rfl, by simp⟩
  · have hne : pending ≠ [] := fun hnil => hempty (List.isEmpty_iff.2 hnil)
    obtain ⟨e, tr', rfl, hlast⟩ := Prog.Path.of_perform h
    have hemit : ∀ s ∈ [(⟨.emit ⟨columns, pending⟩, e⟩ : Step (readSig sqlSig))],
        ∃ b, s.1 = ReadCall.emit b := by
      intro s hs
      exact ⟨_, congrArg Sigma.fst (List.mem_singleton.1 hs)⟩
    cases e with
    | some e =>
      obtain ⟨rfl, rfl, rfl⟩ := Prog.Path.of_ret_pair hlast
      exact ⟨hemit, .inr ⟨hne, rfl⟩, by simp, fun _ => rfl⟩
    | none =>
      obtain ⟨rfl, rfl, rfl⟩ := Prog.Path.of_ret_pair hlast
      exact ⟨hemit, .inr ⟨hne, rfl⟩, fun _ => rfl, by simp⟩

/-- How the part of `Read` after `buildQuery` ends: without a result set, or with a
    delivery of its rows. -/
inductive RowsRead (f : Flavour) (batchSize : Int) (q : Select) :
    List (Step (readSig sqlSig)) → ReadResult → Option Err → Prop
  | unread {ans : Except Err Cursor} {e : Err}
      (hans : ∀ cur types, ans = .ok cur → cur.columnTypes ≠ .ok types) :
      RowsRead f batchSize q [⟨.driver (.query q), ans⟩] {} (some e)
  | read {cur : Cursor} {types : List ColumnType} {tr : List (Step (readSig sqlSig))}
      {result : ReadResult} {err : Option Err} (htypes : cur.columnTypes = .ok types)
      (hemits : ∀ s ∈ tr, ∃ b, s.1 = ReadCall.emit b)
      (hchunked : Chunked (effectiveBatchSize batchSize)
        (f.rowsOf (types.map f.column) cur.rows) (handedRows tr) err)
      (hcount : err = none → result.rowsRead = cur.rows.length ∧
        (scanned cur.rows).length = cur.rows.length)
      (hfailed : err ≠ none → result.rowsRead = 0) :
      RowsRead f batchSize q (⟨.driver (.query q), .ok cur⟩ :: tr) result err

theorem readRows_path {batchSize : Int} {q : Select} {wm : Watermark}
    {tr : List (Step (readSig sqlSig))} {result : ReadResult} {err : Option Err}
    (h : (readRows f batchSize q wm).Path tr (result, err)) :
    RowsRead f batchSize q tr result err := by
  unfold readRows at h
  obtain ⟨ans, tr', rfl, hrest⟩ := Prog.Path.of_perform h
  cases ans with
  | error e =>
    obtain ⟨rfl, rfl, rfl⟩ := Prog.Path.of_ret_pair hrest
    exact .unread (by simp)
  | ok cur =>
    dsimp only at hrest
    cases htypes : cur.columnTypes with
    | error e =>
      rw [htypes] at hrest
      obtain ⟨rfl, rfl, rfl⟩ := Prog.Path.of_ret_pair hrest
      refine .unread fun cur' types hcur => ?_
      obtain rfl := Except.ok.inj hcur
      simp [htypes]
    | ok types =>
      rw [htypes] at hrest
      obtain ⟨res, tr₁, tr₂, hloop, hend, rfl⟩ := Prog.Path.of_bind hrest
      have hsize := effectiveBatchSize_pos batchSize
      have hends := readLoop_path (by simpa using hsize) hloop
      have hemits : ∀ s ∈ tr₁, ∃ b, s.1 = ReadCall.emit b :=
        hloop.calls (calls_readLoop (P := fun c => ∃ b, c = ReadCall.emit b) (fun b => ⟨b, rfl⟩) ..)
      generalize hds : handedRows tr₁ = ds at hends
      cases hends with
      | @stopped ds e hfull hflat =>
        obtain ⟨rfl, rfl, rfl⟩ := Prog.Path.of_ret_pair hend
        refine .read htypes (by simpa using hemits) ?_ (by simp) (fun _ => rfl)
        simpa [hds] using hfull.ended hsize (some e) (by simpa using hflat) (by simp)
      | @refused ds c e hfull hlen hflat =>
        obtain ⟨rfl, rfl, rfl⟩ := Prog.Path.of_ret_pair hend
        refine .read htypes (by simpa using hemits) ?_ (by simp) (fun _ => rfl)
        have hne : c ≠ [] := List.ne_nil_of_length_pos (hlen ▸ hsize)
        simpa [hds] using hfull.last hsize hne hlen.le (some e) (by simpa using hflat) (by simp)
      | @done ds rest hall hfull hflat hpending =>
        have hrows : ds.flatMap (·.1) ++ rest = f.rowsOf (types.map f.column) cur.rows := by
          simpa using hflat
        dsimp only at hend
        cases herr : cur.err with
        | some e =>
          rw [herr] at hend
          obtain ⟨rfl, rfl, rfl⟩ := Prog.Path.of_ret_pair hend
          refine .read htypes (by simpa using hemits) ?_ (by simp) (fun _ => rfl)
          simpa [hds] using hfull.ended hsize (some (f.iterErr e)) ⟨rest, hrows⟩ (by simp)
        | none =>
          rw [herr] at hend
          obtain ⟨hemits', hlast, hn, hfailed⟩ := lastBatch_path hend
          refine .read htypes (List.forall_mem_append.2 ⟨hemits, hemits'⟩) ?_
            (fun he => ⟨by simpa using hn he, hall⟩) hfailed
          rw [handedRows_append, hds]
          rcases hlast with ⟨rfl, rfl, hnil⟩ | ⟨hne, hone⟩
          · rw [hnil, List.append_nil]
            exact hfull.ended hsize none ⟨[], hrows⟩ fun _ => by simpa using hrows
          · rw [hone]
            exact hfull.last hsize hne hpending.le err ⟨[], by simpa using hrows⟩ fun _ => hrows

end Sql

/-! ## `Read` -/

section

variable [GoLib]

/-- The queries of `currentMaxWatermark`. -/
def ReadCall.AsksMax (c : ReadCall sqlSig) : Prop :=
  ∃ obj col, c = .driver (.maxTime obj col) ∨ c = .driver (.maxText obj col)

theorem Sqlserver.currentMaxWatermark_asksMax (obj col wmType : String) :
    (Sqlserver.currentMaxWatermark obj col wmType).Calls ReadCall.AsksMax := by
  unfold Sqlserver.currentMaxWatermark
  cases Sqlident.validate col with
  | some e => trivial
  | none => exact Sql.calls_scanMax ⟨_, _, .inl rfl⟩ ⟨_, _, .inr rfl⟩

theorem Sqlserver.buildQuery_asksMax (load : LoadConfig) :
    (Sqlserver.buildQuery load).Calls ReadCall.AsksMax := by
  unfold Sqlserver.buildQuery
  cases Sqlserver.quoteObject load.objectName with
  | error e => trivial
  | ok obj =>
    dsimp only
    split_ifs
    · trivial
    · trivial
    · cases Sqlident.validate load.watermarkColumn with
      | some e => trivial
      | none =>
        refine (Sqlserver.currentMaxWatermark_asksMax ..).bind fun res => ?_
        cases res <;> trivial

theorem Postgres.currentMaxWatermark_asksMax (obj col wmType : String) :
    (Postgres.currentMaxWatermark obj col wmType).Calls ReadCall.AsksMax := by
  unfold Postgres.currentMaxWatermark
  cases Sqlident.validate col with
  | some e => trivial
  | none =>
    cases Sqlident.quotePostgresQualified obj with
    | error e => trivial
    | ok obj => exact Sql.calls_scanMax ⟨_, _, .inl rfl⟩ ⟨_, _, .inr rfl⟩

theorem Postgres.buildQuery_asksMax (load : LoadConfig) :
    (Postgres.buildQuery load).Calls ReadCall.AsksMax := by
  unfold Postgres.buildQuery
  cases Sqlident.quotePostgresQualified load.objectName with
  | error e => trivial
  | ok obj =>
    dsimp only
    split_ifs
    · trivial
    · trivial
    · cases Sqlident.validate load.watermarkColumn with
      | some e => trivial
      | none =>
        refine (Postgres.currentMaxWatermark_asksMax ..).bind fun res => ?_
        cases res with
        | error e => trivial
        | ok upper =>
          dsimp only
          cases Postgres.parseWatermark load.lastWatermark with
          | error e => trivial
          | ok last =>
            dsimp only
            cases Postgres.parseWatermark upper <;> trivial

/-- How `Read` ends: before it has sent its query, or with the rows of the query. -/
inductive SqlRead (d : Dialect) (batchSize : Int) :
    List (Step (readSig sqlSig)) → ReadResult → Option Err → Prop
  | unasked {tr : List (Step (readSig sqlSig))} {result : ReadResult} {err : Option Err}
      (hmax : ∀ s ∈ tr, ReadCall.AsksMax s.1) (hcount : result.rowsRead = 0) :
      SqlRead d batchSize tr result err
  | asked {tr₁ tr₂ : List (Step (readSig sqlSig))} {q : Select} {result : ReadResult}
      {err : Option Err} (hmax : ∀ s ∈ tr₁, ReadCall.AsksMax s.1)
      (hread : Sql.RowsRead d.flavour batchSize q tr₂ result err) :
      SqlRead d batchSize (tr₁ ++ tr₂) result err

omit [GoLib] in
theorem handedRows_of_asksMax {tr : List (Step (readSig sqlSig))}
    (h : ∀ s ∈ tr, ReadCall.AsksMax s.1) : handedRows tr = [] := by
  refine handedRows_eq_nil fun s hs => ?_
  obtain ⟨obj, col, hc | hc⟩ := h s hs
  · exact ⟨_, hc⟩
  · exact ⟨_, hc⟩

variable {load : LoadConfig} {tr : List (Step (readSig sqlSig))} {result : ReadResult}
  {err : Option Err}

/-- What follows `currentMaxWatermark` on a first run. -/
theorem SqlRead.of_seed {d : Dialect} {batchSize : Int}
    {p : Prog (readSig sqlSig) (Except Err Watermark)} (hp : p.Calls ReadCall.AsksMax)
    (h : Prog.Path (do
      match ← p with
      | .error e => pure (({} : ReadResult), some ("initialize watermark: " ++ e))
      | .ok upper => pure ({ newWatermark := upper, watermarkInit := true }, none)) tr (result, err)) :
    SqlRead d batchSize tr result err := by
  obtain ⟨res, tr₁, tr₂, hseed, hret, rfl⟩ := Prog.Path.of_bind h
  cases res with
  | error e =>
    obtain ⟨rfl, rfl, rfl⟩ := Prog.Path.of_ret_pair hret
    exact .unasked (by simpa using hseed.calls hp) rfl
  | ok upper =>
    obtain ⟨rfl, rfl, rfl⟩ := Prog.Path.of_ret_pair hret
    exact .unasked (by simpa using hseed.calls hp) rfl

/-- What follows `buildQuery`. -/
theorem SqlRead.of_build {d : Dialect} {batchSize : Int}
    {p : Prog (readSig sqlSig) (Except Err (Select × Watermark))} (hp : p.Calls ReadCall.AsksMax)
    (h : Prog.Path (do
      match ← p with
      | .error e => pure (({} : ReadResult), some e)
      | .ok (q, newWM) => Sql.readRows d.flavour batchSize q newWM) tr (result, err)) :
    SqlRead d batchSize tr result err := by
  obtain ⟨res, tr₁, tr₂, hbuild, hrest, rfl⟩ := Prog.Path.of_bind h
  cases res with
  | error e =>
    obtain ⟨rfl, rfl, rfl⟩ := Prog.Path.of_ret_pair hrest
    exact .unasked (by simpa using hbuild.calls hp) rfl
  | ok qwm => exact .asked (hbuild.calls hp) (Sql.readRows_path hrest)

theorem Dialect.read_path (d : Dialect) (h : (d.read load).Path tr (result, err)) :
    SqlRead d load.batchSize tr result err := by
  cases d with
  | sqlserver =>
    unfold Dialect.read Sqlserver.read at h
    dsimp only at h
    split_ifs at h
    · cases hobj : Sqlserver.quoteObject load.objectName with
      | error e =>
        rw [hobj] at h
        obtain ⟨rfl, rfl, rfl⟩ := Prog.Path.of_ret_pair h
        exact .unasked (by simp) rfl
      | ok obj =>
        rw [hobj] at h
        exact .of_seed (Sqlserver.currentMaxWatermark_asksMax ..) h
    · exact .of_build (Sqlserver.buildQuery_asksMax load) h
  | postgres =>
    unfold Dialect.read Postgres.read at h
    dsimp only at h
    split_ifs at h
    · exact .of_seed (Postgres.currentMaxWatermark_asksMax ..) h
    · exact .of_build (Postgres.buildQuery_asksMax load) h

end

section

attribute [local instance] GoLib.ascii

end

end DataLoader
