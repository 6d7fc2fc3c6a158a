import Mathlib.Tactic.Common

/-!
# Tokens of SQL text

A tokeniser for SQL as a machine that reads one character at a time: words,
delimited identifiers and string literals with their closing delimiter doubled
inside, line comments, nested block comments, and single characters for
everything else. A dialect says which characters open a delimited identifier.

* `Reads`: what the machine makes of a piece of text.
* `Adds`: the tokens that a piece adds before any text that does not run on into it;
  pieces compose (`Adds.append`, `adds_intercalate`).
* `adds_delimited`: a text with its closing delimiters doubled and delimiters around
  it is one delimited identifier.
-/

namespace DataLoader.SqlLex

/-- The delimiter that closes an identifier, for each character that opens one. -/
structure Delimiters where
  closing : Char → Option Char

/-- `[..]` and `".."`. -/
def tsql : Delimiters where
  closing c := if c = '[' then some ']' else if c = '"' then some '"' else none

/-- `".."`. -/
def postgres : Delimiters where
  closing c := if c = '"' then some '"' else none

/-- Words are keywords, plain identifiers, numbers and parameters. -/
inductive Token
  | word (s : String)
  | delimited (s : String)
  | literal (s : String)
  | symbol (c : Char)
  deriving DecidableEq, Repr

/-- Where the machine stands. What has been read of a token is in reverse. -/
inductive Mode
  | idle
  | word (read : List Char)
  | delimited (close : Char) (read : List Char)
  /-- After a closing delimiter, which may be the first half of a doubled one. -/
  | closed (close : Char) (read : List Char)
  | literal (read : List Char)
  | unquoted (read : List Char)
  | dash
  | slash
  | lineComment
  | blockComment (depth : ℕ)
  | blockStar (depth : ℕ)
  | blockSlash (depth : ℕ)
  deriving DecidableEq, Repr

def isSpace (c : Char) : Bool := c ∈ [' ', '\t', '\n', '\r', '\x0b', '\x0c']

/-- Characters of words; beyond ASCII everything is one. -/
def isWord (c : Char) : Bool := c.isAlphanum || c ∈ ['_', '@', '#', '$'] || decide (128 ≤ c.toNat)

def text (read : List Char) : String := String.ofList read.reverse

variable (d : Delimiters)

/-- The first character of a token. -/
def start (c : Char) : Mode × List Token :=
  if isSpace c then (.idle, [])
  else if isWord c then (.word [c], [])
  else if c = '\'' then (.literal [], [])
  else if c = '-' then (.dash, [])
  else if c = '/' then (.slash, [])
  else
    match d.closing c with
    | some close => (.delimited close [], [])
    | none => (.idle, [.symbol c])

/-- A token ends before the character. -/
def ended (t : Token) (c : Char) : Mode × List Token := ((start d c).1, t :: (start d c).2)

def step : Mode → Char → Mode × List Token
  | .idle, c => start d c
  | .word read, c => if isWord c then (.word (c :: read), []) else ended d (.word (text read)) c
  | .delimited close read, c =>
    if c = close then (.closed close read, []) else (.delimited close (c :: read), [])
  | .closed close read, c =>
    if c = close then (.delimited close (c :: read), []) else ended d (.delimited (text read)) c
  | .literal read, c => if c = '\'' then (.unquoted read, []) else (.literal (c :: read), [])
  | .unquoted read, c =>
    if c = '\'' then (.literal (c :: read), []) else ended d (.literal (text read)) c
  | .dash, c => if c = '-' then (.lineComment, []) else ended d (.symbol '-') c
  | .slash, c => if c = '*' then (.blockComment 1, []) else ended d (.symbol '/') c
  | .lineComment, c => if c = '\n' then (.idle, []) else (.lineComment, [])
  | .blockComment depth, c =>
    if c = '*' then (.blockStar depth, [])
    else if c = '/' then (.blockSlash depth, [])
    else (.blockComment depth, [])
  | .blockStar depth, c =>
    if c = '/' then (if depth = 1 then .idle else .blockComment (depth - 1), [])
    else if c = '*' then (.blockStar depth, [])
    else (.blockComment depth, [])
  | .blockSlash depth, c =>
    if c = '*' then (.blockComment (depth + 1), [])
    else if c = '/' then (.blockSlash depth, [])
    else (.blockComment depth, [])

def run : Mode → List Char → Mode × List Token
  | m, [] => (m, [])
  | m, c :: cs => ((run (step d m c).1 cs).1, (step d m c).2 ++ (run (step d m c).1 cs).2)

/-- The last token, unless the text ends inside of one. -/
def finish : Mode → Option (List Token)
  | .idle | .lineComment => some []
  | .word read => some [.word (text read)]
  | .closed _ read => some [.delimited (text read)]
  | .unquoted read => some [.literal (text read)]
  | .dash => some [.symbol '-']
  | .slash => some [.symbol '/']
  | .delimited .. | .literal _ | .blockComment _ | .blockStar _ | .blockSlash _ => none

/-- The tokens of a text. -/
def tokens (cs : List Char) : Option (List Token) :=
  (finish (run d .idle cs).1).map ((run d .idle cs).2 ++ ·)

/-! ## Pieces of text -/

/-- From mode `m` on the machine reads `cs`, gives out `ts` and stands in `m'`. -/
def Reads (m : Mode) (cs : List Char) (m' : Mode) (ts : List Token) : Prop := run d m cs = (m', ts)

variable {d} {m m₁ m' : Mode} {cs cs' : List Char} {ts ts' : List Token}

theorem Reads.append (h : Reads d m cs m₁ ts) (h' : Reads d m₁ cs' m' ts') :
    Reads d m (cs ++ cs') m' (ts ++ ts') := by
  induction cs generalizing m ts with
  | nil =>
    obtain ⟨rfl, rfl⟩ := Prod.mk.inj h
    exact h'
  | cons c cs ih =>
    obtain ⟨hmode, hts⟩ := Prod.mk.inj h
    have hrest : run d (step d m c).1 (cs ++ cs') = (m', (run d (step d m c).1 cs).2 ++ ts') :=
      ih (Prod.ext hmode rfl)
    show run d m (c :: (cs ++ cs')) = _
    rw [run, hrest, ← hts, List.append_assoc]

instance : Decidable (Reads d m cs m' ts) := inferInstanceAs (Decidable (run d m cs = (m', ts)))

variable (d) in
/-- In mode `m` the token that has been read ends before the text: what it adds is
    `ts`, and the machine goes on as from the start. -/
def Ends (m : Mode) (ts : List Token) (cs : List Char) : Prop :=
  finish m = some ts ∧ ∀ c ∈ cs.head?, step d m c = ((start d c).1, ts ++ (start d c).2)

/-- A text that ends a token, and one that goes on from there. -/
theorem tokens_append {ts₁ : List Token} (h : Reads d .idle cs m ts) (hend : Ends d m ts₁ cs')
    (h' : tokens d cs' = some ts') : tokens d (cs ++ cs') = some (ts ++ ts₁ ++ ts') := by
  obtain ⟨hfinish, hstep⟩ := hend
  cases cs' with
  | nil =>
    cases h'
    rw [List.append_nil, tokens, show run d .idle cs = (m, ts) from h, hfinish]
    simp [run]
  | cons c rest =>
    have hfrom : Reads d m (c :: rest) (run d .idle (c :: rest)).1
        (ts₁ ++ (run d .idle (c :: rest)).2) := by
      have hidle : step d .idle c = start d c := rfl
      simp only [Reads, run, hstep c rfl, hidle, List.append_assoc]
    have hall : run d .idle (cs ++ c :: rest) = _ := h.append hfrom
    obtain ⟨last, hlast, hts'⟩ := Option.map_eq_some_iff.1 h'
    rw [tokens, hall, hlast, ← hts']
    simp

variable (d) in
/-- Before any text that begins with a character that is `ok`, the piece `cs` adds the
    tokens `ts`. -/
def Adds (ok : Char → Bool) (cs : List Char) (ts : List Token) : Prop :=
  ∀ rest ts', (∀ c ∈ rest.head?, ok c = true) → tokens d rest = some ts' →
    tokens d (cs ++ rest) = some (ts ++ ts')

variable {ok ok' : Char → Bool}

theorem Adds.tokens (h : Adds d ok cs ts) : tokens d cs = some ts := by
  have hall := h [] [] (by simp) rfl
  rwa [List.append_nil, List.append_nil] at hall

/-- A piece after which the machine is idle. -/
theorem Reads.adds (h : Reads d .idle cs .idle ts) (ok : Char → Bool) : Adds d ok cs ts := by
  intro rest ts' _ hrest
  have hall := tokens_append h (⟨rfl, fun _ _ => rfl⟩ : Ends d .idle [] rest) hrest
  rwa [List.append_nil] at hall

/-- A piece that ends in a word, before a character that does not continue it. -/
theorem Reads.adds_word {read : List Char} (h : Reads d .idle cs (.word read) ts) :
    Adds d (fun c => !isWord c) cs (ts ++ [.word (text read)]) := by
  intro rest ts' hok hrest
  refine tokens_append h ⟨rfl, fun c hc => ?_⟩ hrest
  have hword : isWord c = false := by simpa using hok c hc
  simp [step, hword, ended]

/-- One piece after another. -/
theorem Adds.append (h : Adds d ok cs ts) (h' : Adds d ok' cs' ts')
    (hhead : cs'.head?.any ok = true) : Adds d ok' (cs ++ cs') (ts ++ ts') := by
  intro rest ts₁ hok hrest
  have hnext : ∀ c ∈ (cs' ++ rest).head?, ok c = true := by
    cases cs' with
    | nil => cases hhead
    | cons c cs' =>
      intro x hx
      obtain rfl : c = x := Option.some.inj hx
      exact hhead
  rw [List.append_assoc, List.append_assoc]
  exact h _ _ hnext (h' rest ts₁ hok hrest)

/-- A piece after which the machine is idle, and anything after it. -/
theorem Reads.append_adds (h : Reads d .idle cs .idle ts) (h' : Adds d ok cs' ts') :
    Adds d ok (cs ++ cs') (ts ++ ts') := by
  intro rest ts₁ hok hrest
  rw [List.append_assoc, List.append_assoc]
  exact h.adds (fun _ => true) _ _ (fun _ _ => rfl) (h' rest ts₁ hok hrest)

/-- Pieces with separators between them. -/
theorem adds_intercalate {α : Type} {enc : α → List Char} {tok : α → List Token} {sep : List Char}
    {sts : List Token} (hsep : Reads d .idle sep .idle sts) (hhead : sep.head?.any ok = true)
    {xs : List α} (hxs : ∀ x ∈ xs, Adds d ok (enc x) (tok x)) :
    Adds d ok (sep.intercalate (xs.map enc)) (sts.intercalate (xs.map tok)) := by
  induction xs with
  | nil =>
    intro rest ts' _ hrest
    exact hrest
  | cons x xs ih =>
    have hx := hxs x List.mem_cons_self
    cases xs with
    | nil => simpa using hx
    | cons y xs =>
      have hrest := ih fun z hz => hxs z (List.mem_cons_of_mem _ hz)
      have hall := hx.append (hsep.append_adds hrest) (by
        cases sep with
        | nil => cases hhead
        | cons c sep => exact hhead)
      simpa [List.intercalate_cons_cons] using hall

/-! ## Delimited identifiers -/

/-- The closing delimiters of a text doubled. -/
def escaped (close : Char) (s : List Char) : List Char :=
  s.flatMap fun c => if c = close then [close, close] else [c]

/-- Inside the delimiters the machine reads on to the end. -/
theorem reads_escaped (close : Char) (read s : List Char) :
    Reads d (.delimited close read) (escaped close s) (.delimited close (s.reverse ++ read)) [] := by
  induction s generalizing read with
  | nil => rfl
  | cons c s ih =>
    have hchar : Reads d (.delimited close read) (if c = close then [close, close] else [c])
        (.delimited close (c :: read)) [] := by
      split_ifs with hc
      · simp [Reads, run, step, hc]
      · simp [Reads, run, step, hc]
    have hall := hchar.append (ih (c :: read))
    rwa [List.reverse_cons, List.append_assoc]

/-- The delimiters around such a text. -/
theorem reads_delimited {opening close : Char} (hopen : start d opening = (.delimited close [], []))
    (s : List Char) :
    Reads d .idle (opening :: escaped close s ++ [close]) (.closed close s.reverse) [] := by
  have hfirst : Reads d .idle [opening] (.delimited close []) [] := by
    simp [Reads, run, step, hopen]
  have hlast : Reads d (.delimited close s.reverse) [close] (.closed close s.reverse) [] := by
    simp [Reads, run, step]
  have hbody := reads_escaped (d := d) close [] s
  rw [List.append_nil] at hbody
  exact (hfirst.append hbody).append hlast

/-- One delimited identifier, before a character that is not its closing delimiter. -/
theorem adds_delimited {opening close : Char}
    (hopen : start d opening = (.delimited close [], [])) (s : List Char) :
    Adds d (· != close) (opening :: escaped close s ++ [close]) [.delimited (String.ofList s)] := by
  have htext : text s.reverse = String.ofList s := by rw [text, List.reverse_reverse]
  intro rest ts' hok hrest
  refine tokens_append (reads_delimited hopen s) ⟨by rw [finish, htext], fun c hc => ?_⟩ hrest
  have hne : c ≠ close := by simpa using hok c hc
  simp [step, hne, ended, htext]

end DataLoader.SqlLex
