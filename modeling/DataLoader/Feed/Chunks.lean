import Mathlib.Data.List.Infix

/-!
# Delivery in chunks

A producer hands a list over to a consumer in chunks of a fixed size, and the consumer
accepts or refuses each. `Chunked` says what a sound delivery is: nothing is lost,
repeated or reordered, only the last chunk may be short, and a refusal ends it.

* `Full`: the chunks handed over before the last, all of the full size and accepted.
* `Full.ended`, `Full.last`: the ways in which a delivery ends.
-/

namespace DataLoader.Feed

variable {α ε : Type} {size : ℕ} {xs : List α} {ds : List (List α × Option ε)}

/-- The chunks `ds`, each with the error of its consumer, are a delivery of `xs` that
    ends with `err`. -/
structure Chunked (size : ℕ) (xs : List α) (ds : List (List α × Option ε)) (err : Option ε) :
    Prop where
  inOrder : ds.flatMap (·.1) <+: xs
  whole : err = none → ds.flatMap (·.1) = xs
  nonempty : ∀ d ∈ ds, d.1 ≠ []
  atMost : ∀ d ∈ ds, d.1.length ≤ size
  full : ∀ d ∈ ds.dropLast, d.1.length = size
  accepted : ∀ d ∈ ds.dropLast, d.2 = none
  refused : ∀ d e, ds.getLast? = some d → d.2 = some e → err = some e

/-- In a delivery without an error every chunk was accepted. -/
theorem Chunked.all_accepted (h : Chunked size xs ds (none : Option ε)) : ∀ d ∈ ds, d.2 = none := by
  intro d hd
  have hne := List.ne_nil_of_mem hd
  rw [← List.dropLast_append_getLast hne, List.mem_append, List.mem_singleton] at hd
  rcases hd with hd | hd
  · exact h.accepted d hd
  · have hlast : ds.getLast? = some d := by rw [hd, List.getLast?_eq_some_getLast hne]
    cases he : d.2 with
    | none => rfl
    | some e => cases h.refused d e hlast he

/-- The chunks have the full size and were accepted. -/
def Full (size : ℕ) (ds : List (List α × Option ε)) : Prop :=
  ∀ d ∈ ds, d.1.length = size ∧ d.2 = none

namespace Full

theorem nil : Full size ([] : List (List α × Option ε)) := by simp [Full]

theorem cons {c : List α} (hc : c.length = size) (h : Full size ds) : Full size ((c, none) :: ds) :=
  List.forall_mem_cons.2 ⟨⟨hc, rfl⟩, h⟩

/-- A chunk of positive size is not empty. -/
theorem ne_nil (hsize : 0 < size) (h : Full size ds) : ∀ d ∈ ds, d.1 ≠ [] := by
  intro d hd heq
  have hlen := (h d hd).1
  rw [heq] at hlen
  exact absurd hlen hsize.ne

/-- The delivery ended between two chunks: everything was handed over, or the producer
    failed. -/
theorem ended (hsize : 0 < size) (h : Full size ds) (err : Option ε)
    (hflat : ds.flatMap (·.1) <+: xs) (hwhole : err = none → ds.flatMap (·.1) = xs) :
    Chunked size xs ds err where
  inOrder := hflat
  whole := hwhole
  nonempty := h.ne_nil hsize
  atMost d hd := (h d hd).1.le
  full d hd := (h d (List.mem_of_mem_dropLast hd)).1
  accepted d hd := (h d (List.mem_of_mem_dropLast hd)).2
  refused d e hlast he := by
    rw [(h d (List.mem_of_getLast? hlast)).2] at he
    cases he

/-- After the full chunks came a last one. It ended the delivery. -/
theorem last (hsize : 0 < size) (h : Full size ds) {c : List α} (hne : c ≠ [])
    (hlen : c.length ≤ size) (err : Option ε) (hflat : ds.flatMap (·.1) ++ c <+: xs)
    (hwhole : err = none → ds.flatMap (·.1) ++ c = xs) :
    Chunked size xs (ds ++ [(c, err)]) err where
  inOrder := by simpa using hflat
  whole herr := by simpa using hwhole herr
  nonempty := by
    rw [List.forall_mem_append]
    exact ⟨h.ne_nil hsize, by simpa using hne⟩
  atMost := by
    rw [List.forall_mem_append]
    exact ⟨fun d hd => (h d hd).1.le, by simpa using hlen⟩
  full := by
    rw [List.dropLast_concat]
    exact fun d hd => (h d hd).1
  accepted := by
    rw [List.dropLast_concat]
    exact fun d hd => (h d hd).2
  refused d e hlast he := by
    obtain rfl : (c, err) = d := by simpa using hlast
    exact he

end Full

end DataLoader.Feed
