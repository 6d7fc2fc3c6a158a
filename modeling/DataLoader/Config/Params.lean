import DataLoader.Codec.Json
import DataLoader.Pipeline.Session
import DataLoader.Sources.Dsn

/-!
# Source parameters from a seed file to a connection

The seeder stores the parameters of a source as JSON (`seed.go`, line 110), a run resolves the
references to environment variables in them (`config.go`, lines 111–133), and the SQL sources
write the result into a connection string.

* `resolveParams_marshal`: the stored parameters are read back with their references resolved,
  in any order in which the map is walked, or the error names a reference that is not set.
* `seeded_source_connects`: what a driver reads are the values of the seed file.
-/

namespace DataLoader

open Codec

/-! ## The stored text -/

/-- `json.Marshal` of a `map[string]string`, which may be nil. -/
def marshalParams : Option Params → String
  | none => String.ofList Json.null.write
  | some p => String.ofList (Json.obj ((sortedKeys p).map fun k =>
      (GoString.ofString k, .str (GoString.ofString ((p.lookup k).getD ""))))).write

/-- The text of a JSON string. -/
def runesText (s : GoString) : String := String.ofList (s.map Rune.toChar)

/-- `json.Unmarshal` of a value of the map: null leaves it empty. -/
def unmarshalString : Json → Option String
  | .str s => some (runesText s)
  | .null => some ""
  | _ => none

/-- `json.Unmarshal` into a `map[string]string`; the last member of a key counts. -/
def unmarshalParams (text : String) : Except Err Params :=
  match Json.decode text.toList with
  | none => .error "invalid character"
  | some .null => .ok []
  | some (.obj ms) =>
    match ms.mapM fun m => (unmarshalString m.2).map (runesText m.1, ·) with
    | none => .error "json: cannot unmarshal into Go value of type string"
    | some kvs => .ok kvs.reverse
  | some _ => .error "json: cannot unmarshal into Go value of type map[string]string"

/-! ## References -/

/-- `os.Getenv`. -/
abbrev Env := String → String

/-- The variable that a value refers to. -/
def envKey (v : String) : Option String :=
  ("$env:".toList.isPrefixOf? v.toList).map String.ofList

/-- What a value stands for. -/
def resolveValue (env : Env) (v : String) : String := ((envKey v).map env).getD v

/-- Whether the variable of a value is set. -/
def isSet (env : Env) (v : String) : Bool := (envKey v).all fun k => env k ≠ ""

section

variable [GoLib]

def notSet (envKey k : String) : Err :=
  "env var " ++ GoLib.quote envKey ++ " referenced by param " ++ GoLib.quote k ++ " is not set"

/-- The body of the loop of `ResolveParams`. -/
def resolveParam (env : Env) (raw : Params) (k : String) : Except Err (String × String) :=
  let v := (raw.lookup k).getD ""
  match envKey v with
  | some envKey => if env envKey = "" then .error (notSet envKey k) else .ok (k, env envKey)
  | none => .ok (k, v)

/-- Model of `ResolveParams`. The map is walked in the order `order`. -/
def resolveParams (env : Env) (order : List String → List String) (paramsJSON : String) :
    Except Err Params :=
  match unmarshalParams paramsJSON with
  | .error e => .error ("invalid params JSON: " ++ e)
  | .ok raw => (order (sortedKeys raw)).mapM (resolveParam env raw)

end

/-! ## Reading the stored text -/

theorem runesText_ofString (s : String) : runesText (GoString.ofString s) = s := by
  rw [runesText, GoString.ofString, List.map_map]
  exact (congrArg String.ofList (List.map_id s.toList)).trans String.ofList_toList

theorem replaced_ofString (s : String) :
    (GoString.ofString s).replaced = GoString.ofString s := by
  simp [GoString.replaced, GoString.ofString, Rune.toChar]

/-- Pairs whose values are a function of their keys. -/
theorem lookup_map_pair (f : String → String) (ks : List String) (k : String) :
    (ks.map fun k => (k, f k)).lookup k = if k ∈ ks then some (f k) else none := by
  induction ks with
  | nil => rfl
  | cons k' ks ih =>
    rw [List.map_cons, List.lookup_cons, ih]
    by_cases hk : k = k'
    · simp [hk]
    · rw [beq_false_of_ne hk]
      simp [hk]

/-- The map that is read is the map that was written. -/
theorem unmarshal_marshal (p : Params) :
    ∃ raw, unmarshalParams (marshalParams (some p)) = .ok raw ∧
      ∀ k, raw.lookup k = p.lookup k := by
  refine ⟨((sortedKeys p).map fun k => (k, (p.lookup k).getD "")).reverse, ?_, fun k => ?_⟩
  · rw [unmarshalParams, marshalParams, String.toList_ofList, Json.decode_write, Json.replaced,
      Json.replacedMembers_eq, List.map_map]
    simp only [List.mapM_map, Function.comp_def, Json.replaced, replaced_ofString,
      unmarshalString, runesText_ofString, Option.map_some]
    rw [show (sortedKeys p).mapM (fun k => some (k, (p.lookup k).getD "")) = _ from List.mapM_pure]
    rfl
  · rw [← List.map_reverse, lookup_map_pair]
    by_cases hk : k ∈ sortedKeys p
    · rw [if_pos (List.mem_reverse.2 hk)]
      cases hl : p.lookup k with
      | none => exact absurd (mem_sortedKeys.1 hk) (lookup_eq_none_iff.1 hl)
      | some v => rfl
    · rw [if_neg (mt List.mem_reverse.1 hk)]
      exact (lookup_eq_none_iff.2 (mt mem_sortedKeys.2 hk)).symm

/-! ## Resolving -/

theorem mapM_ok {α β : Type} {f : α → Except Err β} {g : α → β} {l : List α}
    (h : ∀ a ∈ l, f a = .ok (g a)) : l.mapM f = .ok (l.map g) := by
  induction l with
  | nil => rfl
  | cons a l ih =>
    rw [List.mapM_cons, h a List.mem_cons_self, ih fun b hb => h b (List.mem_cons_of_mem a hb)]
    rfl

theorem mapM_error {α β : Type} {f : α → Except Err β} {l : List α} {a : α} {e : Err}
    (ha : a ∈ l) (he : f a = .error e) : ∃ b ∈ l, ∃ e', f b = .error e' ∧ l.mapM f = .error e' := by
  induction l with
  | nil => cases ha
  | cons b l ih =>
    rw [List.mapM_cons]
    cases hb : f b with
    | error e' => exact ⟨b, List.mem_cons_self, e', hb, rfl⟩
    | ok y =>
      rcases List.mem_cons.1 ha with rfl | ha
      · rw [he] at hb
        cases hb
      · obtain ⟨c, hc, e', he', hl⟩ := ih ha
        refine ⟨c, List.mem_cons_of_mem b hc, e', he', ?_⟩
        rw [hl]
        rfl

section

variable [GoLib]

theorem resolveParam_of_isSet {env : Env} {raw : Params} {k : String}
    (h : isSet env ((raw.lookup k).getD "") = true) :
    resolveParam env raw k = .ok (k, resolveValue env ((raw.lookup k).getD "")) := by
  cases hkey : envKey ((raw.lookup k).getD "") with
  | none => simp only [resolveParam, resolveValue, hkey, Option.map_none, Option.getD_none]
  | some key =>
    have hne : env key ≠ "" := by simpa [isSet, hkey] using h
    simp only [resolveParam, resolveValue, hkey, if_neg hne, Option.map_some, Option.getD_some]

theorem resolveParam_of_not_isSet {env : Env} {raw : Params} {k : String}
    (h : isSet env ((raw.lookup k).getD "") = false) :
    ∃ key, envKey ((raw.lookup k).getD "") = some key ∧ env key = "" ∧
      resolveParam env raw k = .error (notSet key k) := by
  cases hkey : envKey ((raw.lookup k).getD "") with
  | none => simp [isSet, hkey] at h
  | some key =>
    have hempty : env key = "" := by simpa [isSet, hkey] using h
    exact ⟨key, rfl, hempty, by simp only [resolveParam, hkey, if_pos hempty]⟩

/-- The parameters with their references resolved. -/
def resolved (env : Env) (p : Params) : Params := p.map fun kv => (kv.1, resolveValue env kv.2)

omit [GoLib] in
theorem lookup_resolved (env : Env) (p : Params) (k : String) :
    (resolved env p).lookup k = (p.lookup k).map (resolveValue env) := by
  induction p with
  | nil => rfl
  | cons kv p ih =>
    rw [resolved, List.map_cons, List.lookup_cons, List.lookup_cons, ← resolved, ih]
    cases k == kv.1 <;> rfl

/-- The error of a reference that is not set. -/
def Unset (env : Env) (p : Params) (e : Err) : Prop :=
  ∃ k v key, p.lookup k = some v ∧ envKey v = some key ∧ env key = "" ∧ e = notSet key k

/-- The stored parameters are read back with their references resolved, whatever the order in
    which the map is walked; a reference that is not set is an error, which names one. -/
theorem resolveParams_marshal (env : Env) {order : List String → List String}
    (horder : ∀ ks, (order ks).Perm ks) (p : Params) :
    ((∀ k v, p.lookup k = some v → isSet env v = true) →
      ∃ r, resolveParams env order (marshalParams (some p)) = .ok r ∧
        ∀ k, r.lookup k = (resolved env p).lookup k) ∧
    (∀ k v, p.lookup k = some v → isSet env v = false →
      ∃ e, resolveParams env order (marshalParams (some p)) = .error e ∧ Unset env p e) := by
  obtain ⟨raw, hraw, hlookup⟩ := unmarshal_marshal p
  have hmem : ∀ {k}, k ∈ order (sortedKeys raw) ↔ p.lookup k ≠ none := by
    intro k
    rw [(horder _).mem_iff, mem_sortedKeys, ← hlookup k, ne_eq, lookup_eq_none_iff, not_not]
  have heq : resolveParams env order (marshalParams (some p)) =
      (order (sortedKeys raw)).mapM (resolveParam env raw) := by
    rw [resolveParams, hraw]
  rw [heq]
  constructor
  · intro hset
    have hok : ∀ k ∈ order (sortedKeys raw), resolveParam env raw k =
        .ok (k, resolveValue env ((raw.lookup k).getD "")) := by
      intro k hk
      obtain ⟨v, hv⟩ := Option.ne_none_iff_exists'.1 (hmem.1 hk)
      refine resolveParam_of_isSet ?_
      rw [hlookup k, hv]
      exact hset k v hv
    refine ⟨_, mapM_ok hok, fun k => ?_⟩
    rw [lookup_map_pair fun k => resolveValue env ((raw.lookup k).getD ""), lookup_resolved,
      hlookup k]
    cases hk : p.lookup k with
    | none => exact if_neg fun hmem' => hmem.1 hmem' hk
    | some v => exact if_pos (hmem.2 (by rw [hk]; simp))
  · intro k v hv hnot
    have hunset : isSet env ((raw.lookup k).getD "") = false := by
      rw [hlookup k, hv]
      exact hnot
    obtain ⟨key, hkey, hempty, herr⟩ := resolveParam_of_not_isSet hunset
    obtain ⟨k', hk', e, he, hfail⟩ := mapM_error (hmem.2 (by rw [hv]; simp)) herr
    obtain ⟨v', hv'⟩ := Option.ne_none_iff_exists'.1 (hmem.1 hk')
    refine ⟨e, hfail, k', v', ?_⟩
    have hunset : isSet env ((raw.lookup k').getD "") = false := by
      by_contra hset
      rw [resolveParam_of_isSet (by simpa using hset)] at he
      cases he
    obtain ⟨key', hkey', hempty', herr'⟩ := resolveParam_of_not_isSet hunset
    rw [hlookup k', hv'] at hkey'
    exact ⟨key', hv', hkey', hempty', (Except.error.inj (herr'.symm.trans he)).symm⟩

/-! ## Connecting -/

omit [GoLib] in
/-- A source only looks parameters up. -/
theorem buildDSN_congr (d : Dialect) {p p' : Params} (h : ∀ k, p.lookup k = p'.lookup k) :
    d.buildDSN p = d.buildDSN p' := by
  have hget : ∀ k, p.get k = p'.get k := fun k => by rw [Params.get, Params.get, h k]
  have hor : ∀ k v, p.getOr k v = p'.getOr k v := fun k v => by rw [Params.getOr, Params.getOr, hget]
  have huser : userinfo p = userinfo p' := by rw [userinfo, userinfo, hget, hget]
  cases d with
  | sqlserver => simp only [Dialect.buildDSN, Sqlserver.buildDSN, hget, hor, huser]
  | postgres => simp only [Dialect.buildDSN, Postgres.buildDSN, hget, hor, huser]

/-- A source of a seed file whose references are set, with a server that a URL can hold: the
    driver of the source reads the values of the file from its connection string. -/
theorem seeded_source_connects [Url.GoUrl] (d : Dialect) (env : Env) {order : List String → List String}
    (horder : ∀ ks, (order ks).Perm ks) {p : Params}
    (hset : ∀ k v, p.lookup k = some v → isSet env v = true)
    (hserver : d.server (resolved env p) ≠ []) (hdatabase : (resolved env p).get "database" ≠ [])
    (hbracket : '['.toUInt8 ∉ hostPort (d.server (resolved env p)) (d.port (resolved env p)))
    (hvalid : d.ValidServer (d.server (resolved env p)) (d.port (resolved env p))) :
    ∃ r dsn u, resolveParams env order (marshalParams (some p)) = .ok r ∧
      d.buildDSN r = .ok dsn ∧ ReadBack dsn d (resolved env p) u := by
  obtain ⟨r, hr, hlookup⟩ := (resolveParams_marshal env horder p).1 hset
  obtain ⟨dsn, hdsn⟩ := buildDSN_ok hserver hdatabase
  obtain ⟨u, hu⟩ := (parse_dsn hdsn hbracket).1 hvalid
  exact ⟨r, dsn, u, hr, (buildDSN_congr d hlookup).trans hdsn, hu⟩

end

/-! ## A seed file -/

/-- A source with a password from the environment. -/
def erpParams : Params :=
  [("host", "erp.local"), ("database", "erp"), ("user", "loader"), ("password", "$env:ERP_PASSWORD")]

def erpEnv : Env := fun k => if k = "ERP_PASSWORD" then "a/b&sslmode=disable" else ""

section

attribute [local instance] GoLib.ascii noLiterals

theorem erpParams_connect :
    ∃ r dsn u, resolveParams erpEnv List.reverse (marshalParams (some erpParams)) = .ok r ∧
      Dialect.postgres.buildDSN r = .ok dsn ∧
      ReadBack dsn .postgres (resolved erpEnv erpParams) u := by
  have hset : ∀ kv ∈ erpParams, isSet erpEnv kv.2 = true := by decide +kernel
  have hvalid : Dialect.postgres.ValidServer (Dialect.postgres.server (resolved erpEnv erpParams))
      (Dialect.postgres.port (resolved erpEnv erpParams)) := by
    unfold Dialect.ValidServer
    decide +kernel
  exact seeded_source_connects .postgres erpEnv List.reverse_perm
    (fun k v hv => hset (k, v) (List.lookup_eq_some_iff.1 hv |> fun ⟨_, _, h, _⟩ => by simp [h]))
    (by decide +kernel) (by decide +kernel) (by decide +kernel) hvalid

end

end DataLoader
