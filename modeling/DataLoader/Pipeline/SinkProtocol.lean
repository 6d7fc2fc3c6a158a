import DataLoader.Effects.Protocol
import DataLoader.Pipeline.Runner
import DataLoader.Sink.Calls

/-!
# Protocols that leave the sink alone

A protocol on the calls of a run that does not speak about the sink database is
followed by every program of the runner that only works on the sink: the replace
session and the batch handler (`handler_follows`), for any sink whose calls are
statements.
-/

namespace DataLoader.SinkProtocol

open Effects

variable {S : Sig} {Q α : Type} {P : Protocol (sysSig S) Q} {q : Q}

/-- A session whose replacer only calls the sink database. -/
def OnDb (s : ReplaceSession S) : Prop := ∀ a, s.atomic = some a → a.OnDb

/-- A handler state whose session only calls the sink database. -/
def HandlerOnDb (st : HandlerState S) : Prop := ∀ s, st.repl = some s → OnDb s

section

variable (hP : P.Ignores SysCall.onDb)

include hP

/-! ## The replace session -/

theorem prepareExisting_follows {k : Sink S} (hk : k.OnDb) {s : ReplaceSession S} (hs : OnDb s) :
    P.Follows (s.prepareExisting k)
      (fun res q' => q' = q ∧ ∀ s', res = .ok s' → OnDb s') q := by
  unfold ReplaceSession.prepareExisting
  cases ha : s.atomic with
  | none =>
    refine (Protocol.Follows.of_calls hP (hk.tableExists s.live)).seq ?_
    rintro res _ rfl
    match res with
    | .error e => exact ⟨rfl, by simp⟩
    | .ok false => exact ⟨rfl, by simpa using hs⟩
    | .ok true =>
      refine (Protocol.Follows.of_calls hP (hk.truncate s.live)).seq ?_
      rintro e _ rfl
      cases e with
      | some e => exact ⟨rfl, by simp⟩
      | none => exact ⟨rfl, by simpa using hs⟩
  | some a =>
    refine (Protocol.Follows.of_calls hP (hk.tableExists s.live)).seq ?_
    rintro res _ rfl
    match res with
    | .error e => exact ⟨rfl, by simp⟩
    | .ok false => exact ⟨rfl, by simpa using hs⟩
    | .ok true =>
      refine (Protocol.Follows.of_calls hP ((hs a ha).beginReplace s.live [])).seq ?_
      rintro res _ rfl
      cases res with
      | error e => exact ⟨rfl, by simp⟩
      | ok stg =>
        refine ⟨rfl, fun s' h => ?_⟩
        obtain rfl := Except.ok.inj h
        exact hs

theorem ensureFirstBatch_follows {k : Sink S} (hk : k.OnDb) {s : ReplaceSession S} (hs : OnDb s)
    (autoCreate : Bool) (cols : List Column) :
    P.Follows (s.ensureFirstBatch k autoCreate cols)
      (fun res q' => q' = q ∧ ∀ s', res = .ok s' → OnDb s') q := by
  unfold ReplaceSession.ensureFirstBatch
  cases ha : s.atomic with
  | none =>
    simp only
    split_ifs
    · refine (Protocol.Follows.of_calls hP (hk.ensureTable s.live cols)).seq ?_
      rintro e _ rfl
      cases e with
      | some e => exact ⟨rfl, by simp⟩
      | none => exact ⟨rfl, by simpa using hs⟩
    · exact ⟨rfl, by simpa using hs⟩
  | some a =>
    simp only
    split_ifs
    · exact ⟨rfl, by simpa using hs⟩
    · refine (Protocol.Follows.of_calls hP ((hs a ha).beginReplace s.live cols)).seq ?_
      rintro res _ rfl
      cases res with
      | error e => exact ⟨rfl, by simp⟩
      | ok stg =>
        refine ⟨rfl, fun s' h => ?_⟩
        obtain rfl := Except.ok.inj h
        exact hs

theorem commit_follows {s : ReplaceSession S} (hs : OnDb s) :
    P.Follows s.commit (fun res q' => q' = q ∧ ∀ s', res = .ok s' → OnDb s') q := by
  unfold ReplaceSession.commit
  cases ha : s.atomic with
  | none => exact ⟨rfl, by simpa using hs⟩
  | some a =>
    simp only
    split_ifs
    · exact ⟨rfl, by simpa using hs⟩
    · refine (Protocol.Follows.of_calls hP ((hs a ha).commitReplace s.live s.staging)).seq ?_
      rintro e _ rfl
      cases e with
      | some e => exact ⟨rfl, by simp⟩
      | none =>
        refine ⟨rfl, fun s' h => ?_⟩
        obtain rfl := Except.ok.inj h
        exact fun a' ha' => hs a' (ha.trans ha')

theorem abort_follows {s : ReplaceSession S} (hs : OnDb s) :
    P.Follows s.abort (fun _ q' => q' = q) q := by
  unfold ReplaceSession.abort
  cases ha : s.atomic with
  | none => rfl
  | some a =>
    simp only
    split_ifs
    · rfl
    · refine (Protocol.Follows.of_calls hP ((hs a ha).abortReplace s.staging)).seq ?_
      rintro _ _ rfl
      rfl

/-! ## The batch handler -/

variable {r : Runner S} {load : Load} {loadTS : Time}

theorem writeBatch_follows (hk : r.sink.OnDb) {st : HandlerState S} (hst : HandlerOnDb st)
    (b : Batch) :
    P.Follows (r.writeBatch loadTS st b)
      (fun se q' => q' = q ∧ HandlerOnDb se.1) q := by
  unfold Runner.writeBatch
  refine (Protocol.Follows.of_calls hP (hk.writeBatch st.writeTarget b loadTS)).seq ?_
  rintro res _ rfl
  cases res with
  | error e => exact ⟨rfl, hst⟩
  | ok n => exact ⟨rfl, hst⟩

theorem onFirstBatch_follows (hk : r.sink.OnDb) {st : HandlerState S} (hst : HandlerOnDb st)
    (b : Batch) :
    P.Follows (r.onFirstBatch load st b)
      (fun res q' => q' = q ∧ ∀ st', res = .ok st' → HandlerOnDb st') q := by
  unfold Runner.onFirstBatch
  cases hr : st.repl with
  | some s =>
    refine (ensureFirstBatch_follows hP hk (hst s hr) load.autoCreateTable b.columns).seq ?_
    rintro res _ ⟨rfl, hok⟩
    cases res with
    | error e => exact ⟨rfl, by simp⟩
    | ok s' =>
      refine ⟨rfl, fun st' h => ?_⟩
      obtain rfl := Except.ok.inj h
      intro s'' h''
      obtain rfl := Option.some.inj h''
      exact hok _ rfl
  | none =>
    have hnone : ∀ st' : HandlerState S, st'.repl = none → HandlerOnDb st' := by
      intro st' h' s hs
      rw [h'] at hs
      cases hs
    simp only
    split_ifs
    · refine (Protocol.Follows.of_calls hP (hk.ensureTable load.target b.columns)).seq ?_
      rintro e _ rfl
      cases e with
      | some e => exact ⟨rfl, by simp⟩
      | none => exact ⟨rfl, fun st' h => hnone st' (by rw [← Except.ok.inj h])⟩
    · exact ⟨rfl, fun st' h => hnone st' (by rw [← Except.ok.inj h])⟩

theorem handler_follows (hk : r.sink.OnDb) {st : HandlerState S} (hst : HandlerOnDb st)
    (b : Batch) :
    P.Follows (r.handler load loadTS st b)
      (fun se q' => q' = q ∧ HandlerOnDb se.1) q := by
  unfold Runner.handler
  split_ifs
  · refine (onFirstBatch_follows hP hk hst b).seq ?_
    rintro res _ ⟨rfl, hok⟩
    cases res with
    | error e => exact ⟨rfl, hst⟩
    | ok st' => exact writeBatch_follows hP hk (hok st' rfl) b
  · exact writeBatch_follows hP hk hst b

/-- A `Read` on the runner's handler, where the protocol ignores driver calls. -/
theorem interpret_follows {N : SysCall S → Prop} (hN : P.Ignores N)
    (hsource : ∀ l c, N (.source l c)) (hdeliver : ∀ b, N (.deliver b)) (hk : r.sink.OnDb)
    (src : ℕ) {p : Prog (readSig S) α} {st : HandlerState S} (hst : HandlerOnDb st) :
    P.Follows (Runner.interpret src (r.handler load loadTS) p st)
      (fun sa q' => q' = q ∧ HandlerOnDb sa.1) q := by
  induction p generalizing st with
  | ret a => exact ⟨rfl, hst⟩
  | call c k ih =>
    cases c with
    | driver c => exact .call_ignored hN (hsource src c) fun ans => ih ans hst
    | emit b =>
      refine .call_ignored hN (hdeliver b) fun _ => ?_
      refine Protocol.Follows.seq (handler_follows hP hk hst b) ?_
      rintro se _ ⟨rfl, hse⟩
      exact ih se.2 hse

/-- The deferred abort of a run. -/
theorem exitAbort_follows {exit : Runner.Exit S} (hexit : ∀ s, exit.repl = some s → OnDb s) :
    P.Follows exit.abort (fun _ q' => q' = q) q := by
  unfold Runner.Exit.abort
  cases hr : exit.repl with
  | none => rfl
  | some s => exact abort_follows hP (hexit s hr)

end

theorem prepareExisting_calls {k : Sink S} (hk : k.OnDb) {s : ReplaceSession S} (hs : OnDb s) :
    (s.prepareExisting k).Calls SysCall.onDb :=
  (prepareExisting_follows (allowing_ignores fun _ hc => hc) hk hs).calls

theorem handler_calls {r : Runner S} {load : Load} {loadTS : Time} (hk : r.sink.OnDb)
    {st : HandlerState S} (hst : HandlerOnDb st) (b : Batch) :
    (r.handler load loadTS st b).Calls SysCall.onDb :=
  (handler_follows (allowing_ignores fun _ hc => hc) hk hst b).calls

end DataLoader.SinkProtocol
