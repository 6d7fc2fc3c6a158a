import DataLoader.Codec.Json
import DataLoader.Contracts
import Mathlib.Data.List.AList
import Mathlib.Data.List.Sort

/-!
# The entry of a log record

Model of how `Handle` in `internal/logging/dbhandler.go` makes a `metadata.LogEntry` of a
record (lines 65–107), with `int64FromAttr` and `levelString` (lines 175–199). Four keys
go into columns of their own, and all other attributes into one JSON object, the later
one of two with the same key. If `json.Marshal` fails on any of them, there is no object.

What `log/slog` and `encoding/json` do with a value that is neither a string nor an
integer nor a boolean is data of the value: its text, and its JSON if it has any. An
`error` is encoded by its exported fields or its `MarshalJSON`, not by its message.
-/

namespace DataLoader.Logging

open Codec

/-- A value by its `String()` and by what `json.Marshal` makes of it, if it succeeds. -/
structure Printed where
  text : GoString
  json : Option Json

/-- A `slog.Value` that is no `LogValuer`. -/
inductive LogValue
  | string (s : GoString)
  | int64 (n : Int64)
  | uint64 (n : UInt64)
  /-- `trunc` is `int64(v)`. -/
  | float64 (trunc : Int64) (p : Printed)
  | bool (b : Bool)
  /-- An `error` with its message. -/
  | error (message : GoString) (p : Printed)
  /-- A duration, a time, a group or any other value. -/
  | other (p : Printed)

namespace LogValue

/-- `v.String()`. -/
def text : LogValue → GoString
  | .string s => s
  | .int64 n => (Number.decimal n.toInt).map .char
  | .uint64 n => (Number.decimal n.toNat).map .char
  | .float64 _ p => p.text
  | .bool b => .ofString (if b then "true" else "false")
  | .error _ p => p.text
  | .other p => p.text

/-- `json.Marshal(v.Any())`. -/
def json : LogValue → Option Json
  | .string s => some (.str s)
  | .int64 n => some (.num (.ofInt n.toInt))
  | .uint64 n => some (.num (.ofInt n.toNat))
  | .float64 _ p => p.json
  | .bool b => some (.bool b)
  | .error _ p => p.json
  | .other p => p.json

end LogValue

/-- A `slog.Value`. A `LogValuer` is given by what `Resolve` gets from it: the value that
    its `LogValue` calls end in, or the error that stands for a panic or for too many
    calls. -/
inductive SlogValue
  | plain (v : LogValue)
  | logValuer (resolved : LogValue)

/-- `v.Resolve()`. -/
def SlogValue.resolve : SlogValue → LogValue
  | .plain v => v
  | .logValuer v => v

/-- `slog.Attr`. -/
structure Attr where
  key : GoString
  value : SlogValue

/-- `slog.Any(key, v)`. -/
def Attr.ofString (key : String) (v : LogValue) : Attr := ⟨.ofString key, .plain v⟩

/-- `slog.Record`, the fields that `Handle` reads. -/
structure Record where
  time : Time
  level : Int
  message : GoString
  attrs : List Attr

/-- `metadata.LogEntry` (lines 90–100 of `internal/metadata/models.go`) as `Handle` fills
    it; the database gives the id. -/
structure LogEntry where
  createdAt : Time
  level : String
  runUUID : GoString := []
  loadID : Option Int64 := none
  sourceID : Option Int64 := none
  category : GoString := []
  message : GoString
  details : String := ""
  deriving DecidableEq, Repr

/-- Model of `int64FromAttr` (lines 175–186). -/
def int64FromAttr : LogValue → Int64
  | .int64 n => n
  | .uint64 n => n.toInt64
  | .float64 trunc _ => trunc
  | _ => 0

/-- Model of `levelString` (lines 188–199). -/
def levelString (l : Int) : String :=
  if l ≤ -4 then "debug"
  else if l ≤ 0 then "info"
  else if l ≤ 4 then "warn"
  else "error"

/-- The map `details`. -/
abbrev Details := AList fun _ : GoString => LogValue

/-- `entry` and `details` while `apply` goes over the attributes. -/
structure Filling where
  entry : LogEntry
  details : Details

/-- The keys with columns of their own. -/
def promotedKeys : List GoString :=
  [.ofString "run_uuid", .ofString "load_id", .ofString "source_id", .ofString "category"]

/-- Model of `apply` (lines 72–91). -/
def apply (f : Filling) (a : Attr) : Filling :=
  let v := a.value.resolve
  if a.key = .ofString "run_uuid" then { f with entry := { f.entry with runUUID := v.text } }
  else if a.key = .ofString "load_id" then
    if int64FromAttr v ≠ 0 then
      { f with entry := { f.entry with loadID := some (int64FromAttr v) } }
    else f
  else if a.key = .ofString "source_id" then
    if int64FromAttr v ≠ 0 then
      { f with entry := { f.entry with sourceID := some (int64FromAttr v) } }
    else f
  else if a.key = .ofString "category" then { f with entry := { f.entry with category := v.text } }
  else { f with details := f.details.insert a.key v }

/-- Strings are ordered by their bytes. -/
def bytesLE : List UInt8 → List UInt8 → Bool
  | [], _ => true
  | _ :: _, [] => false
  | a :: as, b :: bs => decide (a.toNat < b.toNat) || decide (a = b) && bytesLE as bs

/-- The entries of the map in the order of their keys. -/
def sortedEntries (d : Details) : List (Σ _ : GoString, LogValue) :=
  d.entries.insertionSort fun x y => bytesLE x.1.bytes y.1.bytes

/-- The members of the object that `json.Marshal` makes of a map, if every value can be
    encoded. -/
def members (d : Details) : Option (List (GoString × Json)) :=
  (sortedEntries d).mapM fun e => e.2.json.map fun j => (e.1, j)

/-- `json.Marshal(details)`. -/
def marshal (d : Details) : Option String :=
  (members d).map fun ms => String.ofList (Json.obj ms).write

/-- Lines 103–107: an error of `json.Marshal` is ignored. -/
def Filling.finish (f : Filling) : LogEntry :=
  if f.details.entries.length > 0 then
    match marshal f.details with
    | some b => { f.entry with details := b }
    | none => f.entry
  else f.entry

/-- `strings.Join(groups, ".")`. -/
def join (groups : List GoString) : GoString := List.intercalate [.char '.'] groups

/-- An attribute within the groups whose names make up `path` (lines 97–99, 124–126). -/
def qualify (path : GoString) (a : Attr) : Attr :=
  if path ≠ [] then { a with key := path ++ .char '.' :: a.key } else a

/-- The entry before the attributes (lines 65–71). -/
def Record.filling (r : Record) : Filling where
  entry := { createdAt := r.time, level := levelString r.level, message := r.message }
  details := ∅

/-- Model of `Handle` up to the queue (lines 65–107) for a handler with these attributes
    and groups, after the base handler has succeeded. -/
def handle (attrs : List Attr) (groups : List GoString) (r : Record) : LogEntry :=
  let f := attrs.foldl apply r.filling
  let path := join groups
  (r.attrs.foldl (fun f a => apply f (qualify path a)) f).finish

example : handle [.ofString "load_id" (.int64 42), .ofString "source_id" (.int64 7),
      .ofString "run_uuid" (.string (.ofString "run-abc")),
      .ofString "load_name" (.string (.ofString "orders"))] []
      ⟨0, 0, .ofString "load started", [.ofString "category" (.string (.ofString "read"))]⟩ =
    { createdAt := 0, level := "info", runUUID := .ofString "run-abc", loadID := some 42
      sourceID := some 7, category := .ofString "read", message := .ofString "load started"
      details := "\x7b\"load_name\":\"orders\"\x7d" } := by
  decide +kernel

end DataLoader.Logging
