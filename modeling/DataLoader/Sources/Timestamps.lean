import DataLoader.Codec.Rfc3339
import DataLoader.Sources.Dialect

/-!
# Datetime watermarks

ADR-006 stores watermarks as text and asks for a lossless format. A datetime MAX is written
with `time.RFC3339Nano` by both SQL sources. The PostgreSQL source reads it back with
`time.Parse` and passes a time; the SQL Server source passes the text, which the server
converts.

* `GoTime`: the two functions of package `time` are those of `Codec.Rfc3339`.
* `faithful_postgres`, `faithful_sqlserver`: what a run stores is the bound that the next run
  compares with.
* `watermarkLag_formatTime`: the lag metric is the age of the watermark.
-/

namespace DataLoader

open Rfc3339 (InYears)

/-- The two functions of package `time` on the layout `RFC3339Nano`. `time.Parse` accepts
    some texts beyond those of `Rfc3339.parse`, on which nothing is assumed. -/
class GoTime [GoLib] : Prop where
  formatTime_eq : ∀ t, GoLib.formatTime t = String.ofList (Rfc3339.format t)
  parseTime_eq : ∀ {s : String} {t}, Rfc3339.parse s.toList = some t → GoLib.parseTime s = .ok t

/-- A library with these functions, to evaluate the model with. -/
@[reducible] def GoLib.rfc3339 : GoLib :=
  { GoLib.ascii with
    formatTime := fun t => String.ofList (Rfc3339.format t)
    parseTime := fun s =>
      match Rfc3339.parse s.toList with
      | some t => .ok t
      | none => .error "parsing time: cannot parse"
    parseTime_empty := fun _ h => by cases h }

theorem goTime_rfc3339 : @GoTime GoLib.rfc3339 :=
  @GoTime.mk GoLib.rfc3339 (fun _ => rfl) fun {s t} h => by
    show (match Rfc3339.parse s.toList with
      | some t => Except.ok t
      | none => .error "parsing time: cannot parse") = .ok t
    rw [h]

/-- A column whose values are times in the years 0 to 9999. -/
structure WatermarkColumn.HoldsTimes {V : Type} (col : WatermarkColumn V) : Prop where
  inYears : ∀ v, InYears (col.time v)
  ofTime : ∀ v, col.ofTime (col.time v) = some v

section

variable [GoLib] [GoTime]

theorem parseTime_formatTime {t : Time} (ht : InYears t) :
    GoLib.parseTime (GoLib.formatTime t) = .ok t := by
  refine GoTime.parseTime_eq ?_
  rw [GoTime.formatTime_eq, String.toList_ofList, Rfc3339.parse_format ht]

theorem formatTime_ne_empty {t : Time} (ht : InYears t) : GoLib.formatTime t ≠ "" := by
  intro hempty
  have hparse := parseTime_formatTime ht
  rw [hempty] at hparse
  exact GoLib.parseTime_empty t hparse

variable {V : Type} {col : WatermarkColumn V}

omit [GoTime] in
theorem mark_datetime (v : V) :
    mark col watermarkDatetime (some v) = GoLib.formatTime (col.time v) := by
  rw [mark, if_pos rfl]

theorem faithful_postgres (hcol : col.HoldsTimes) :
    Dialect.postgres.Faithful col watermarkDatetime := by
  intro v
  have harg : Dialect.postgres.arg watermarkDatetime (GoLib.formatTime (col.time v)) =
      .ok (.time (col.time v)) := by
    simp only [Dialect.arg, Postgres.parseWatermark, if_pos, parseTime_formatTime (hcol.inYears v),
      Except.map]
  rw [mark_datetime]
  exact Dialect.bound_eq_some harg (hcol.ofTime v)

/-- SQL Server gets the text, and has to read it as the time that it was written for. -/
theorem faithful_sqlserver
    (htext : ∀ v, col.ofText (String.ofList (Rfc3339.format (col.time v))) = some v) :
    Dialect.sqlserver.Faithful col watermarkDatetime := by
  intro v
  rw [mark_datetime, GoTime.formatTime_eq]
  exact Dialect.bound_eq_some rfl (htext v)

end

/-! ## The lag of a watermark -/

/-- `math.MaxInt64`, the longest `time.Duration`. -/
def maxDuration : Int := 2 ^ 63 - 1

/-- Model of `Time.Sub`, which stays within the range of `time.Duration`. -/
def Time.sub (t u : Time) : Int := max (-maxDuration - 1) (min maxDuration (t - u))

/-- Model of `ObserveWatermarkLag` (`metrics.go`, lines 97–113): the value that the gauge is
    set to, in nanoseconds. -/
def watermarkLag [GoLib] (watermarkValue : String) (now : Time) : Int :=
  if watermarkValue = "" then 0
  else
    match GoLib.parseTime watermarkValue with
    | .error _ => 0
    | .ok ts => if Time.sub now ts < 0 then 0 else Time.sub now ts

/-- The gauge of a run that stored the MAX `t` is the age of `t`. -/
theorem watermarkLag_formatTime [GoLib] [GoTime] {t now : Time} (ht : InYears t)
    (hnow : now - t ≤ maxDuration) :
    watermarkLag (GoLib.formatTime t) now = max 0 (now - t) := by
  rw [watermarkLag, if_neg (formatTime_ne_empty ht), parseTime_formatTime ht]
  have hsub : Time.sub now t = max (-maxDuration - 1) (now - t) := by
    rw [Time.sub, min_eq_right hnow]
  by_cases hlt : now - t < 0
  · have hneg : Time.sub now t < 0 := by
      rw [hsub]
      exact max_lt (by decide) hlt
    exact (if_pos hneg).trans (max_eq_left hlt.le).symm
  · have hsub' : Time.sub now t = now - t := by
      rw [hsub]
      exact max_eq_right (le_trans (by decide) (not_lt.mp hlt))
    simp only [hsub']
    exact (if_neg hlt).trans (max_eq_right (not_lt.mp hlt)).symm

end DataLoader
