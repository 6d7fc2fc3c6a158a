import DataLoader.Codec.Hex
import Mathlib.Data.List.AList
import Mathlib.Data.List.TakeWhile

/-!
# URLs

What package `net/url` writes and reads of URLs with a scheme, an authority and a query, as
byte strings. Each part has its own set of bytes that are percent-encoded.

* `unescape_escape`: a part is read back; in a host, only some bytes can be.
* `parseQuery_encode`: the parameters of a query are read back in the order of their keys.
* `parse_write`: a URL is read back as it was, or refused for its host.

Opaque URLs, relative ones and fragments are not read here, and hosts in brackets only as
`GoUrl` says.
-/

namespace DataLoader.Url

open Codec

/-- A Go string. -/
abbrev Bytes := List UInt8

/-- The bytes of ASCII characters. -/
def bytes (cs : List Char) : Bytes := cs.map Char.toUInt8

theorem forall_byte {P : UInt8 → Prop} [DecidablePred P] (h : ∀ n : Fin 256, P (UInt8.ofNat n)) :
    ∀ b, P b := by
  intro b
  have hb := h ⟨b.toNat, b.toNat_lt⟩
  rwa [UInt8.ofNat_toNat] at hb

/-! ## Percent-encoding -/

/-- The part of a URL. -/
inductive Mode
  | path
  | userPassword
  | queryComponent
  | host
deriving DecidableEq

def isAlphanumeric (c : UInt8) : Bool :=
  (97 ≤ c && c ≤ 122) || (65 ≤ c && c ≤ 90) || (48 ≤ c && c ≤ 57)

/-- What a host may have beside letters and digits. -/
def hostBytes : Bytes :=
  bytes ['!', '$', '&', '\x27', '(', ')', '*', '+', ',', ';', '=', ':', '[', ']', '<', '>', '"']

/-- Model of `shouldEscape`. -/
def shouldEscape (m : Mode) (c : UInt8) : Bool :=
  if isAlphanumeric c then false
  else if m = .host && hostBytes.contains c then false
  else if (bytes ['-', '_', '.', '~']).contains c then false
  else if (bytes ['$', '&', '+', ',', '/', ':', ';', '=', '?', '@']).contains c then
    match m with
    | .path => (bytes ['?']).contains c
    | .userPassword => (bytes ['@', '/', '?', ':']).contains c
    | .queryComponent => true
    | .host => true
  else true

/-- An upper case hexadecimal digit. -/
def upperhex (n : UInt8) : UInt8 := if n < 10 then 48 + n else 55 + n

def escapeByte (m : Mode) (c : UInt8) : Bytes :=
  if shouldEscape m c then
    if c = ' '.toUInt8 && m = .queryComponent then ['+'.toUInt8]
    else ['%'.toUInt8, upperhex (c / 16), upperhex (c % 16)]
  else [c]

/-- Model of `escape`. -/
def escape (m : Mode) (s : Bytes) : Bytes := s.flatMap (escapeByte m)

/-- Model of `unescape`. In a host, only bytes outside ASCII and the percent sign may be
    encoded, and the other bytes have to be among those that need not be. -/
def unescape (m : Mode) : Bytes → Option Bytes
  | [] => some []
  | c :: s =>
    if c = '%'.toUInt8 then
      match s with
      | a :: b :: s =>
        match hexVal a, hexVal b with
        | some x, some y =>
          if m = .host && x < 8 && !(a = '2'.toUInt8 && b = '5'.toUInt8) then none
          else (unescape m s).map ((16 * x + y) :: ·)
        | _, _ => none
      | _ => none
    else if c = '+'.toUInt8 then
      (unescape m s).map ((if m = .queryComponent then ' '.toUInt8 else c) :: ·)
    else if m = .host && c < 0x80 && shouldEscape m c then none
    else (unescape m s).map (c :: ·)

/-- The bytes that are read back. -/
def readable (m : Mode) (c : UInt8) : Bool :=
  m ≠ .host || 0x80 ≤ c || c = '%'.toUInt8 || !shouldEscape m c

theorem hexVal_upperhex : ∀ c : UInt8,
    hexVal (upperhex (c / 16)) = some (c / 16) ∧ hexVal (upperhex (c % 16)) = some (c % 16) :=
  forall_byte (by decide +kernel)

/-- An encoded byte of a host is refused if it is an ASCII byte other than the percent sign. -/
theorem refuses_iff : ∀ c : UInt8,
    (c / 16 < 8 && !(upperhex (c / 16) = '2'.toUInt8 && upperhex (c % 16) = '5'.toUInt8)) =
      !(0x80 ≤ c || c = '%'.toUInt8) :=
  forall_byte (by decide +kernel)

theorem shouldEscape_percent (m : Mode) : shouldEscape m '%'.toUInt8 = true := by
  cases m <;> decide

theorem unescape_cons {m : Mode} {c : UInt8} (hc : c ≠ '%'.toUInt8) (s : Bytes) :
    unescape m (c :: s) =
      if c = '+'.toUInt8 then
        (unescape m s).map ((if m = .queryComponent then ' '.toUInt8 else c) :: ·)
      else if m = .host && c < 0x80 && shouldEscape m c then none
      else (unescape m s).map (c :: ·) := by
  conv_lhs => unfold unescape
  exact if_neg hc

theorem unescape_plain {m : Mode} {c : UInt8} (hc : shouldEscape m c = false) (s : Bytes) :
    unescape m (c :: s) = (unescape m s).map (c :: ·) := by
  have hpercent : c ≠ '%'.toUInt8 := by
    rintro rfl
    rw [shouldEscape_percent] at hc
    cases hc
  have hplus : c = '+'.toUInt8 → m ≠ .queryComponent := by
    rintro rfl rfl
    revert hc
    decide
  rw [unescape_cons hpercent]
  split_ifs with h₁ h₂ h₃
  · exact absurd h₂ (hplus h₁)
  · rfl
  · simp [hc] at h₃
  · rfl

theorem unescape_percent (m : Mode) (c : UInt8) (s : Bytes) :
    unescape m ('%'.toUInt8 :: upperhex (c / 16) :: upperhex (c % 16) :: s) =
      if m = .host && !(0x80 ≤ c || c = '%'.toUInt8) then none
      else (unescape m s).map (c :: ·) := by
  rw [unescape, if_pos rfl]
  simp only [(hexVal_upperhex c).1, (hexVal_upperhex c).2, Bool.and_assoc, refuses_iff,
    byte_eq_digits]

theorem unescape_escapeByte (m : Mode) (c : UInt8) (s : Bytes) :
    unescape m (escapeByte m c ++ s) =
      if readable m c then (unescape m s).map (c :: ·) else none := by
  cases hc : shouldEscape m c with
  | false => simp [escapeByte, readable, hc, unescape_plain hc]
  | true =>
    by_cases hspace : c = ' '.toUInt8 ∧ m = .queryComponent
    · obtain ⟨rfl, rfl⟩ := hspace
      have hbyte : escapeByte .queryComponent ' '.toUInt8 = ['+'.toUInt8] := by decide
      rw [hbyte, if_pos (by decide), List.singleton_append, unescape_cons (by decide), if_pos rfl,
        if_pos rfl]
    · have hbyte : escapeByte m c =
          ['%'.toUInt8, upperhex (c / 16), upperhex (c % 16)] := by
        simp only [escapeByte, hc, if_true]
        exact if_neg (by simpa using hspace)
      rw [hbyte, List.cons_append, List.cons_append, List.cons_append, List.nil_append,
        unescape_percent, readable, hc]
      cases m <;> by_cases h₁ : 0x80 ≤ c <;> by_cases h₂ : c = '%'.toUInt8 <;> simp [h₁, h₂]

theorem unescape_escape (m : Mode) (s : Bytes) :
    unescape m (escape m s) = if s.all (readable m) then some s else none := by
  induction s with
  | nil => rfl
  | cons c s ih =>
    rw [escape, List.flatMap_cons, ← escape, unescape_escapeByte, ih, List.all_cons]
    cases readable m c <;> cases s.all (readable m) <;> rfl

theorem unescape_escape_of_ne {m : Mode} (hm : m ≠ .host) (s : Bytes) :
    unescape m (escape m s) = some s := by
  rw [unescape_escape, if_pos]
  simp [readable, hm]

/-- The delimiters that do not occur in an encoded part. -/
def delimiters : Mode → Bytes
  | .path => bytes ['?', '#']
  | .userPassword => bytes ['@', '/', '?', '#', ':']
  | .queryComponent => bytes ['&', '=', ';', '#']
  | .host => bytes ['@', '/', '?', '#']

/-- What an encoded part consists of. -/
def isClean (m : Mode) (c : UInt8) : Bool := 0x20 < c && c < 0x7f && !(delimiters m).contains c

def isHexDigit (c : UInt8) : Bool := (48 ≤ c && c ≤ 57) || (65 ≤ c && c ≤ 70)

theorem isHexDigit_upperhex : ∀ c : UInt8,
    isHexDigit (upperhex (c / 16)) = true ∧ isHexDigit (upperhex (c % 16)) = true :=
  forall_byte (by decide +kernel)

/-- What an encoded byte consists of. -/
theorem mem_escapeByte {m : Mode} {c d : UInt8} (h : d ∈ escapeByte m c) :
    d = '%'.toUInt8 ∨ d = '+'.toUInt8 ∧ m = .queryComponent ∨ isHexDigit d = true ∨
      d = c ∧ shouldEscape m c = false := by
  unfold escapeByte at h
  split_ifs at h with hesc hspace
  · simp only [Bool.and_eq_true, decide_eq_true_eq] at hspace
    exact .inr (.inl ⟨List.mem_singleton.1 h, hspace.2⟩)
  · simp only [List.mem_cons, List.not_mem_nil, or_false] at h
    rcases h with rfl | rfl | rfl
    · exact .inl rfl
    · exact .inr (.inr (.inl (isHexDigit_upperhex c).1))
    · exact .inr (.inr (.inl (isHexDigit_upperhex c).2))
  · exact .inr (.inr (.inr ⟨List.mem_singleton.1 h, by simpa using hesc⟩))

theorem isClean_of_isHexDigit (m : Mode) : ∀ c, isHexDigit c = true → isClean m c = true := by
  cases m <;> exact forall_byte (by decide +kernel)

theorem isClean_of_not_shouldEscape (m : Mode) :
    ∀ c, shouldEscape m c = false → isClean m c = true := by
  cases m <;> exact forall_byte (by decide +kernel)

theorem escape_clean {m : Mode} {s : Bytes} {c : UInt8} (hc : c ∈ escape m s) :
    isClean m c = true := by
  obtain ⟨b, -, hb⟩ := List.mem_flatMap.1 hc
  rcases mem_escapeByte hb with rfl | ⟨rfl, rfl⟩ | hhex | ⟨rfl, hplain⟩
  · cases m <;> decide
  · decide
  · exact isClean_of_isHexDigit m c hhex
  · exact isClean_of_not_shouldEscape m c hplain

theorem notMem_escape {m : Mode} {c : UInt8} (hc : isClean m c = false) (s : Bytes) :
    c ∉ escape m s := by
  intro hmem
  rw [escape_clean hmem] at hc
  cases hc

/-! ## Cutting -/

/-- Model of `strings.Cut` at a byte. -/
def cut (c : UInt8) (s : Bytes) : Bytes × Option Bytes :=
  match s.dropWhile (· ≠ c) with
  | [] => (s, none)
  | _ :: rest => (s.takeWhile (· ≠ c), some rest)

theorem cut_append {c : UInt8} {a : Bytes} (ha : c ∉ a) (b : Bytes) :
    cut c (a ++ c :: b) = (a, some b) := by
  have hne : ∀ x ∈ a, decide (x ≠ c) = true := by
    intro x hx
    exact decide_eq_true fun heq => ha (heq ▸ hx)
  have hdrop : (a ++ c :: b).dropWhile (· ≠ c) = c :: b := by
    rw [List.dropWhile_append_of_pos hne, List.dropWhile_cons_of_neg (by simp)]
  have htake : (a ++ c :: b).takeWhile (· ≠ c) = a := by
    rw [List.takeWhile_append_of_pos hne, List.takeWhile_cons_of_neg (by simp), List.append_nil]
  simp only [cut, hdrop, htake]

theorem cut_of_notMem {c : UInt8} {a : Bytes} (ha : c ∉ a) : cut c a = (a, none) := by
  have hdrop : a.dropWhile (· ≠ c) = [] := by
    rw [List.dropWhile_eq_nil_iff]
    intro x hx
    exact decide_eq_true fun heq => ha (heq ▸ hx)
  simp only [cut, hdrop]

/-- The parts before and after the last occurrence of a byte. -/
def cutLast (c : UInt8) (s : Bytes) : Option (Bytes × Bytes) :=
  match cut c s.reverse with
  | (_, none) => none
  | (after, some before) => some (before.reverse, after.reverse)

theorem cutLast_append {c : UInt8} {b : Bytes} (hb : c ∉ b) (a : Bytes) :
    cutLast c (a ++ c :: b) = some (a, b) := by
  have hrev : (a ++ c :: b).reverse = b.reverse ++ c :: a.reverse := by simp
  rw [cutLast, hrev, cut_append (by simpa using hb)]
  simp

/-- The last one is in the rest if the rest has one. -/
theorem cutLast_append_cons {c : UInt8} (a b : Bytes) : (cutLast c (a ++ c :: b)).map (·.2) =
    some (((cutLast c b).map (·.2)).getD b) := by
  by_cases hb : c ∈ b
  · obtain ⟨y, x, hrev, hy⟩ := List.eq_append_cons_of_mem (List.mem_reverse.2 hb)
    obtain rfl : b = x.reverse ++ c :: y.reverse := by
      rw [← List.reverse_reverse b, hrev]
      simp
    have hy' : c ∉ y.reverse := by simpa using hy
    rw [← List.cons_append, ← List.append_assoc, cutLast_append hy', cutLast_append hy']
    rfl
  · rw [cutLast_append hb, cutLast, cut_of_notMem (by simpa using hb)]
    rfl

theorem cutLast_of_notMem {c : UInt8} {a : Bytes} (ha : c ∉ a) : cutLast c a = none := by
  rw [cutLast, cut_of_notMem (by simpa using ha)]

/-! ## Queries -/

/-- A key and a value. -/
abbrev Pair := Σ _ : Bytes, Bytes

/-- Model of `Values` with one value per key. -/
abbrev Values := AList fun _ : Bytes => Bytes

/-- The parameters in the order of their keys. -/
def Values.sorted (q : Values) : List Pair := q.entries.mergeSort fun a b => decide (a.1 ≤ b.1)

def encodePair (p : Pair) : Bytes :=
  escape .queryComponent p.1 ++ '='.toUInt8 :: escape .queryComponent p.2

/-- Model of `Values.Encode`. -/
def Values.encode (q : Values) : Bytes := ['&'.toUInt8].intercalate (q.sorted.map encodePair)

/-- One round of the loop of `parseQuery`. -/
def parsePair (s : Bytes) : Option Pair :=
  if ';'.toUInt8 ∈ s then none
  else if s = [] then none
  else
    let (key, value) := cut '='.toUInt8 s
    match unescape .queryComponent key, unescape .queryComponent (value.getD []) with
    | some key, some value => some ⟨key, value⟩
    | _, _ => none

/-- Model of `ParseQuery`, which skips what it cannot read. -/
def parseQuery (s : Bytes) : List Pair := (s.splitOn '&'.toUInt8).filterMap parsePair

theorem notMem_encodePair {c : UInt8} (hc : isClean .queryComponent c = false)
    (hne : c ≠ '='.toUInt8) (p : Pair) : c ∉ encodePair p := by
  simp only [encodePair, List.mem_append, List.mem_cons, not_or]
  exact ⟨notMem_escape hc _, hne, notMem_escape hc _⟩

theorem parsePair_encodePair (p : Pair) : parsePair (encodePair p) = some p := by
  have hsemi : ';'.toUInt8 ∉ encodePair p := notMem_encodePair (by decide) (by decide) p
  have hne : encodePair p ≠ [] := by simp [encodePair]
  rw [parsePair, if_neg hsemi, if_neg hne, encodePair, cut_append (notMem_escape (by decide) _)]
  simp only [Option.getD_some, unescape_escape_of_ne (show Mode.queryComponent ≠ .host by decide)]

theorem filterMap_parsePair (ps : List Pair) : (ps.map encodePair).filterMap parsePair = ps := by
  rw [List.filterMap_map]
  have hid : parsePair ∘ encodePair = some := funext parsePair_encodePair
  rw [hid, List.filterMap_some]

/-- The parameters are read back in the order of their keys. -/
theorem parseQuery_encode (q : Values) : parseQuery q.encode = q.sorted := by
  rw [parseQuery, Values.encode]
  cases hq : q.sorted with
  | nil => rfl
  | cons p ps =>
    rw [List.splitOn_intercalate _ _ (by simp), filterMap_parsePair]
    intro l hl
    obtain ⟨p', -, rfl⟩ := List.mem_map.1 hl
    exact notMem_encodePair (by decide) (by decide) p'

theorem nodupKeys_parseQuery (q : Values) : (parseQuery q.encode).NodupKeys := by
  rw [parseQuery_encode]
  exact (List.perm_nodupKeys (List.mergeSort_perm ..)).2 q.nodupKeys

/-- No value adds a parameter, and none hides one. -/
theorem dlookup_parseQuery (q : Values) (key : Bytes) :
    (parseQuery q.encode).dlookup key = q.lookup key := by
  refine List.perm_dlookup key (nodupKeys_parseQuery q) ?_
  rw [parseQuery_encode]
  exact List.mergeSort_perm ..

theorem mem_intercalate {c sep : UInt8} :
    ∀ {ls : List Bytes}, c ∈ [sep].intercalate ls → c = sep ∨ ∃ l ∈ ls, c ∈ l
  | [], hc => by simp at hc
  | [l], hc => .inr ⟨l, List.mem_singleton_self l, by simpa using hc⟩
  | l :: l' :: ls, hc => by
    rw [List.intercalate_cons_cons, List.append_assoc, List.mem_append, List.singleton_append,
      List.mem_cons] at hc
    rcases hc with hc | hc | hc
    · exact .inr ⟨l, List.mem_cons_self, hc⟩
    · exact .inl hc
    · exact (mem_intercalate hc).imp_right fun ⟨m, hm, hcm⟩ => ⟨m, List.mem_cons_of_mem l hm, hcm⟩

/-- What an encoded query consists of. -/
theorem encode_clean {q : Values} {c : UInt8} (hc : c ∈ q.encode) :
    c = '&'.toUInt8 ∨ c = '='.toUInt8 ∨ isClean .queryComponent c = true := by
  rcases mem_intercalate hc with hamp | ⟨l, hl, hcl⟩
  · exact .inl hamp
  · obtain ⟨p, -, rfl⟩ := List.mem_map.1 hl
    rw [encodePair, List.mem_append, List.mem_cons] at hcl
    rcases hcl with hcl | rfl | hcl
    · exact .inr (.inr (escape_clean hcl))
    · exact .inr (.inl rfl)
    · exact .inr (.inr (escape_clean hcl))

/-! ## URLs -/

/-- A name and an optional password. -/
structure Userinfo where
  username : Bytes
  password : Option Bytes
deriving DecidableEq

/-- Model of `URL`, without an opaque part and a fragment. -/
structure URL where
  scheme : Bytes
  user : Option Userinfo
  host : Bytes
  path : Bytes
  rawQuery : Bytes
deriving DecidableEq

/-- Model of `Userinfo.String`. -/
def Userinfo.write (u : Userinfo) : Bytes :=
  escape .userPassword u.username ++
    match u.password with
    | none => []
    | some password => ':'.toUInt8 :: escape .userPassword password

/-- Model of `URL.String` for a URL with a scheme and a host. -/
def URL.write (u : URL) : Bytes :=
  u.scheme ++ bytes [':', '/', '/'] ++
    (match u.user with
      | none => []
      | some user => user.write ++ ['@'.toUInt8]) ++
    escape .host u.host ++ escape .path u.path ++
    if u.rawQuery = [] then [] else '?'.toUInt8 :: u.rawQuery

/-- Model of `getScheme`. -/
def getScheme (s : Bytes) : Option (Bytes × Bytes) :=
  match cut ':'.toUInt8 s with
  | (_, none) => none
  | (scheme, some rest) =>
    if scheme.all (fun c => isAlphanumeric c || (bytes ['+', '-', '.']).contains c) &&
        scheme.head?.any (fun c => !(48 ≤ c && c ≤ 57) && isAlphanumeric c) then
      some (scheme.map fun c => if 65 ≤ c && c ≤ 90 then c + 32 else c, rest)
    else none

/-- What a user and a password may have beside letters and digits. -/
def userinfoBytes : Bytes :=
  bytes ['-', '.', '_', ':', '~', '!', '$', '&', '\x27', '(', ')', '*', '+', ',', ';', '=', '%', '@']

/-- Model of `validUserinfo`. -/
def validUserinfo (s : Bytes) : Bool := s.all fun c => isAlphanumeric c || userinfoBytes.contains c

def isDigit (c : UInt8) : Bool := 48 ≤ c && c ≤ 57

/-- What is left open of `net/url`. -/
class GoUrl where
  /-- `parseHost` for a host with a bracket, which has to be an IPv6 address. -/
  parseLiteral : Bytes → Option Bytes

/-- The schemes whose host may be a list of hosts, each with its port. -/
def listsHosts (scheme : Bytes) : Bool :=
  scheme = bytes ['p', 'o', 's', 't', 'g', 'r', 'e', 's'] ||
    scheme = bytes ['p', 'o', 's', 't', 'g', 'r', 'e', 's', 'q', 'l']

/-- What follows the last colon, or everything. -/
def afterLast (s : Bytes) : Bytes := ((cutLast ':'.toUInt8 s).map (·.2)).getD s

/-- What is checked for a port: what follows the first colon, and in a list of hosts the last. -/
def portOf (scheme s : Bytes) : Bytes :=
  match cut ':'.toUInt8 s with
  | (_, none) => []
  | (_, some rest) => if listsHosts scheme then afterLast rest else rest

/-- Model of `parseHost`. -/
def parseHost [GoUrl] (scheme s : Bytes) : Option Bytes :=
  if '['.toUInt8 ∈ s then GoUrl.parseLiteral s
  else if (portOf scheme s).all isDigit then unescape .host s
  else none

/-- The part of `parseAuthority` before the at sign. -/
def parseUserinfo (s : Bytes) : Option Userinfo :=
  if validUserinfo s then
    match cut ':'.toUInt8 s with
    | (name, none) => (unescape .userPassword name).map (⟨·, none⟩)
    | (name, some password) => do
      return ⟨← unescape .userPassword name, some (← unescape .userPassword password)⟩
  else none

/-- Model of `parseAuthority`. -/
def parseAuthority [GoUrl] (scheme s : Bytes) : Option (Option Userinfo × Bytes) :=
  match cutLast '@'.toUInt8 s with
  | none => (parseHost scheme s).map fun host => (none, host)
  | some (userinfo, host) => do
    let host ← parseHost scheme host
    return (some (← parseUserinfo userinfo), host)

/-- Model of `Parse` for a text with a scheme and an authority. -/
def parse [GoUrl] (s : Bytes) : Option URL :=
  if '#'.toUInt8 ∈ s then none
  else if s.any fun c => c < 0x20 || c = 0x7f then none
  else
    match getScheme s with
    | none => none
    | some (scheme, rest) =>
      let (rest, rawQuery) := cut '?'.toUInt8 rest
      match rest with
      | a :: b :: rest =>
        if a = '/'.toUInt8 ∧ b = '/'.toUInt8 then do
          let (user, host) ← parseAuthority scheme (rest.takeWhile (· ≠ '/'.toUInt8))
          let path ← unescape .path (rest.dropWhile (· ≠ '/'.toUInt8))
          return ⟨scheme, user, host, path, rawQuery.getD []⟩
        else none
      | _ => none

/-! ## Hosts -/

/-- The hosts without a bracket that are read back. -/
def validHost (scheme h : Bytes) : Bool :=
  h.all (readable .host) && (portOf scheme h).all isDigit

theorem notMem_escape_host {c : UInt8} {s : Bytes} (hs : c ∉ s)
    (hc : c = ':'.toUInt8 ∨ c = '['.toUInt8) : c ∉ escape .host s := by
  have hhex : isHexDigit c = false ∧ c ≠ '%'.toUInt8 := by
    rcases hc with rfl | rfl <;> decide
  intro hmem
  obtain ⟨b, hb, hbc⟩ := List.mem_flatMap.1 hmem
  rcases mem_escapeByte hbc with hpercent | ⟨-, hmode⟩ | hhex' | ⟨rfl, -⟩
  · exact hhex.2 hpercent
  · cases hmode
  · rw [hhex.1] at hhex'
    cases hhex'
  · exact hs hb

theorem all_isDigit_escape (s : Bytes) : (escape .host s).all isDigit = s.all isDigit := by
  have hplain : ∀ c, isDigit c = true → shouldEscape .host c = false :=
    forall_byte (by decide +kernel)
  have hpercent : isDigit '%'.toUInt8 = false := by decide
  induction s with
  | nil => rfl
  | cons c s ih =>
    rw [escape, List.flatMap_cons, ← escape, List.all_append, ih, List.all_cons]
    congr 1
    cases hc : shouldEscape .host c with
    | false => simp [escapeByte, hc]
    | true =>
      have hdigit : isDigit c = false := by
        by_contra hne
        rw [hplain c (by simpa using hne)] at hc
        cases hc
      simp [escapeByte, hc, hdigit, hpercent]

theorem escape_host_colon (a b : Bytes) :
    escape .host (a ++ ':'.toUInt8 :: b) = escape .host a ++ ':'.toUInt8 :: escape .host b := by
  rw [escape, List.flatMap_append, List.flatMap_cons]
  rfl

theorem afterLast_append {b : Bytes} (hb : ':'.toUInt8 ∉ b) (a : Bytes) :
    afterLast (a ++ ':'.toUInt8 :: b) = b := by
  rw [afterLast, cutLast_append hb]
  rfl

theorem afterLast_of_notMem {s : Bytes} (hs : ':'.toUInt8 ∉ s) : afterLast s = s := by
  rw [afterLast, cutLast_of_notMem hs]
  rfl

theorem afterLast_escape_host (s : Bytes) : afterLast (escape .host s) = escape .host (afterLast s) := by
  by_cases hs : ':'.toUInt8 ∈ s
  · obtain ⟨b, a, hrev, hb⟩ := List.eq_append_cons_of_mem (List.mem_reverse.2 hs)
    obtain rfl : s = a.reverse ++ ':'.toUInt8 :: b.reverse := by
      rw [← List.reverse_reverse s, hrev]
      simp
    have hb' : ':'.toUInt8 ∉ b.reverse := by simpa using hb
    rw [escape_host_colon, afterLast_append hb', afterLast_append (notMem_escape_host hb' (.inl rfl))]
  · rw [afterLast_of_notMem hs, afterLast_of_notMem (notMem_escape_host hs (.inl rfl))]

theorem portOf_escape_host (scheme s : Bytes) :
    portOf scheme (escape .host s) = escape .host (portOf scheme s) := by
  by_cases hs : ':'.toUInt8 ∈ s
  · obtain ⟨a, b, rfl, ha⟩ := List.eq_append_cons_of_mem hs
    rw [escape_host_colon, portOf, portOf, cut_append ha, cut_append (notMem_escape_host ha (.inl rfl))]
    dsimp only
    split_ifs
    · exact afterLast_escape_host b
    · rfl
  · rw [portOf, portOf, cut_of_notMem hs, cut_of_notMem (notMem_escape_host hs (.inl rfl))]
    rfl

theorem parseHost_escape [GoUrl] {scheme h : Bytes} (hbracket : '['.toUInt8 ∉ h) :
    parseHost scheme (escape .host h) = if validHost scheme h then some h else none := by
  rw [parseHost, if_neg (notMem_escape_host hbracket (.inr rfl)), portOf_escape_host,
    all_isDigit_escape, unescape_escape, validHost]
  cases h.all (readable .host) <;> cases (portOf scheme h).all isDigit <;> rfl

theorem all_readable_of_isDigit {port : Bytes} (h : port.all isDigit = true) :
    port.all (readable .host) = true := by
  have hbyte : ∀ c : UInt8, isDigit c = true → readable .host c = true :=
    forall_byte (by decide +kernel)
  exact List.all_eq_true.2 fun c hc => hbyte c (List.all_eq_true.1 h c hc)

/-- Names and ports of a list of hosts. -/
theorem validHost_append_of_lists {scheme : Bytes} (hlist : listsHosts scheme = true)
    (name port : Bytes) : validHost scheme (name ++ ':'.toUInt8 :: port) =
      (name.all (readable .host) && port.all (readable .host) && (afterLast port).all isDigit) := by
  have hcolon : readable .host ':'.toUInt8 = true := by decide
  have hport : portOf scheme (name ++ ':'.toUInt8 :: port) = afterLast port := by
    by_cases hname : ':'.toUInt8 ∈ name
    · obtain ⟨a, b, rfl, ha⟩ := List.eq_append_cons_of_mem hname
      rw [List.append_assoc, List.cons_append, portOf, cut_append ha]
      dsimp only
      rw [if_pos hlist, afterLast, afterLast, cutLast_append_cons]
      rfl
    · rw [portOf, cut_append hname]
      exact if_pos hlist
  rw [validHost, List.all_append, List.all_cons, hcolon, Bool.true_and, hport]

/-- A name and a port. -/
theorem validHost_append {scheme : Bytes} (hlist : listsHosts scheme = false) (name port : Bytes) :
    validHost scheme (name ++ ':'.toUInt8 :: port) =
      (!decide (':'.toUInt8 ∈ name) && name.all (readable .host) && port.all isDigit) := by
  have hcolon : readable .host ':'.toUInt8 = true := by decide
  rw [validHost, List.all_append, List.all_cons, hcolon, Bool.true_and]
  by_cases hname : ':'.toUInt8 ∈ name
  · -- the colon before the port is no digit
    obtain ⟨a, b, rfl, ha⟩ := List.eq_append_cons_of_mem hname
    have hdigit : isDigit ':'.toUInt8 = false := by decide
    rw [List.append_assoc, List.cons_append, portOf, cut_append ha]
    simp [hlist, hdigit]
  · rw [portOf, cut_append hname]
    cases hport : port.all isDigit with
    | false => simp [hlist, hport]
    | true => simp [hlist, hname, hport, all_readable_of_isDigit hport]

/-! ## Reading what was written -/

/-- The URLs that are written in a form that can be read. -/
structure URL.WellFormed (u : URL) : Prop where
  scheme_ne : u.scheme ≠ []
  scheme : ∀ c ∈ u.scheme, 97 ≤ c ∧ c ≤ 122
  host : '['.toUInt8 ∉ u.host
  path : u.path = [] ∨ ∃ p, u.path = '/'.toUInt8 :: p
  rawQuery : ∃ q : Values, u.rawQuery = q.encode

/-- The user and the host. -/
def URL.authority (u : URL) : Bytes :=
  (match u.user with
    | none => []
    | some user => user.write ++ ['@'.toUInt8]) ++ escape .host u.host

theorem URL.write_eq (u : URL) :
    u.write = u.scheme ++ ':'.toUInt8 :: '/'.toUInt8 :: '/'.toUInt8 :: (u.authority ++
      escape .path u.path ++ if u.rawQuery = [] then [] else '?'.toUInt8 :: u.rawQuery) := by
  simp [URL.write, URL.authority, bytes]

theorem Userinfo.mem_write {u : Userinfo} {c : UInt8} (hc : c ∈ u.write) :
    c = ':'.toUInt8 ∨ isClean .userPassword c = true := by
  rw [Userinfo.write, List.mem_append] at hc
  rcases hc with hc | hc
  · exact .inr (escape_clean hc)
  · cases hp : u.password with
    | none => simp [hp] at hc
    | some password =>
      rw [hp] at hc
      rcases List.mem_cons.1 hc with rfl | hc
      · exact .inl rfl
      · exact .inr (escape_clean hc)

theorem validUserinfo_escape (s : Bytes) : validUserinfo (escape .userPassword s) = true := by
  have hhex : ∀ c, isHexDigit c = true → validUserinfo [c] = true := forall_byte (by decide +kernel)
  have hplain : ∀ c, shouldEscape .userPassword c = false → validUserinfo [c] = true :=
    forall_byte (by decide +kernel)
  refine List.all_eq_true.2 fun c hc => ?_
  obtain ⟨b, -, hb⟩ := List.mem_flatMap.1 hc
  rcases mem_escapeByte hb with rfl | ⟨-, hmode⟩ | hc | ⟨rfl, hc⟩
  · decide
  · cases hmode
  · simpa [validUserinfo] using hhex c hc
  · simpa [validUserinfo] using hplain c hc

theorem parseUserinfo_write (u : Userinfo) : parseUserinfo u.write = some u := by
  have hread := unescape_escape_of_ne (show Mode.userPassword ≠ .host by decide)
  have hcolon : ∀ s, ':'.toUInt8 ∉ escape .userPassword s := notMem_escape (by decide)
  obtain ⟨username, password⟩ := u
  cases password with
  | none =>
    have hwrite : (⟨username, none⟩ : Userinfo).write = escape .userPassword username :=
      List.append_nil _
    rw [hwrite, parseUserinfo, if_pos (validUserinfo_escape _), cut_of_notMem (hcolon _)]
    simp only [hread, Option.map_some]
  | some password =>
    have hwrite : (⟨username, some password⟩ : Userinfo).write =
        escape .userPassword username ++ ':'.toUInt8 :: escape .userPassword password := rfl
    have hvalid : validUserinfo (⟨username, some password⟩ : Userinfo).write = true := by
      rw [hwrite, validUserinfo, List.all_append, List.all_cons]
      exact Bool.and_eq_true_iff.2 ⟨validUserinfo_escape _,
        Bool.and_eq_true_iff.2 ⟨by decide, validUserinfo_escape _⟩⟩
    rw [parseUserinfo, if_pos hvalid, hwrite, cut_append (hcolon _)]
    simp only [hread]
    rfl

theorem parseAuthority_authority [GoUrl] {u : URL} (hbracket : '['.toUInt8 ∉ u.host) :
    parseAuthority u.scheme u.authority =
      if validHost u.scheme u.host then some (u.user, u.host) else none := by
  have hat : '@'.toUInt8 ∉ escape .host u.host := notMem_escape (by decide) _
  rw [parseAuthority, URL.authority]
  cases hu : u.user with
  | none =>
    rw [List.nil_append, cutLast_of_notMem hat, parseHost_escape hbracket]
    cases validHost u.scheme u.host <;> rfl
  | some user =>
    simp only [List.append_assoc, List.singleton_append, cutLast_append hat,
      parseHost_escape hbracket, parseUserinfo_write]
    cases validHost u.scheme u.host <;> rfl

theorem URL.notMem_authority {u : URL} {c : UInt8} (hcolon : c ≠ ':'.toUInt8)
    (hat : c ≠ '@'.toUInt8) (huser : isClean .userPassword c = false)
    (hhost : isClean .host c = false) : c ∉ u.authority := by
  rw [URL.authority, List.mem_append, not_or]
  refine ⟨?_, notMem_escape hhost _⟩
  cases u.user with
  | none => exact List.not_mem_nil
  | some user =>
    rw [List.mem_append, List.mem_singleton, not_or]
    refine ⟨fun hmem => ?_, hat⟩
    rcases Userinfo.mem_write hmem with rfl | hclean
    · exact hcolon rfl
    · rw [hclean] at huser
      cases huser

/-- What a written URL consists of. -/
def isPrintable (c : UInt8) : Bool := 0x20 < c && c < 0x7f && c ≠ '#'.toUInt8

theorem isPrintable_of_isClean {m : Mode} {c : UInt8} (h : isClean m c = true) :
    isPrintable c = true := by
  have hhash : (delimiters m).contains '#'.toUInt8 = true := by cases m <;> decide
  simp only [isClean, Bool.and_eq_true, Bool.not_eq_true'] at h
  have hne : c ≠ '#'.toUInt8 := by
    rintro rfl
    rw [hhash] at h
    cases h.2
  simp [isPrintable, h.1, hne]

theorem URL.isPrintable_authority {u : URL} {c : UInt8} (hc : c ∈ u.authority) :
    isPrintable c = true := by
  rw [URL.authority, List.mem_append] at hc
  rcases hc with hc | hc
  · cases hu : u.user with
    | none => simp [hu] at hc
    | some user =>
      rw [hu] at hc
      rcases List.mem_append.1 hc with hc | hc
      · rcases Userinfo.mem_write hc with rfl | hclean
        · decide
        · exact isPrintable_of_isClean hclean
      · obtain rfl := List.mem_singleton.1 hc
        decide
  · exact isPrintable_of_isClean (escape_clean hc)

theorem URL.isPrintable_write {u : URL} (h : u.WellFormed) {c : UInt8} (hc : c ∈ u.write) :
    isPrintable c = true := by
  have hletter : ∀ c : UInt8, 97 ≤ c ∧ c ≤ 122 → isPrintable c = true :=
    forall_byte (by decide +kernel)
  rw [URL.write_eq, List.mem_append] at hc
  rcases hc with hc | hc
  · exact hletter c (h.scheme c hc)
  rcases List.mem_cons.1 hc with rfl | hc
  · decide
  rcases List.mem_cons.1 hc with rfl | hc
  · decide
  rcases List.mem_cons.1 hc with rfl | hc
  · decide
  rcases List.mem_append.1 hc with hc | hc
  · rcases List.mem_append.1 hc with hc | hc
    · exact isPrintable_authority hc
    · exact isPrintable_of_isClean (escape_clean hc)
  · split_ifs at hc with hq
    · cases hc
    rcases List.mem_cons.1 hc with rfl | hc
    · decide
    · obtain ⟨q, hq⟩ := h.rawQuery
      rw [hq] at hc
      rcases encode_clean hc with rfl | rfl | hclean
      · decide
      · decide
      · exact isPrintable_of_isClean hclean

theorem getScheme_append {scheme : Bytes} (hne : scheme ≠ []) (h : ∀ c ∈ scheme, 97 ≤ c ∧ c ≤ 122)
    (rest : Bytes) : getScheme (scheme ++ ':'.toUInt8 :: rest) = some (scheme, rest) := by
  have hbyte : ∀ c : UInt8, 97 ≤ c ∧ c ≤ 122 → c ≠ ':'.toUInt8 ∧ isAlphanumeric c = true ∧
      (48 ≤ c && c ≤ 57) = false ∧ (if 65 ≤ c && c ≤ 90 then c + 32 else c) = c :=
    forall_byte (by decide +kernel)
  have hcolon : ':'.toUInt8 ∉ scheme := fun hc => (hbyte _ (h _ hc)).1 rfl
  have hall : scheme.all (fun c => isAlphanumeric c || (bytes ['+', '-', '.']).contains c) = true :=
    List.all_eq_true.2 fun c hc => by rw [(hbyte c (h c hc)).2.1, Bool.true_or]
  have hlower : scheme.map (fun c => if 65 ≤ c && c ≤ 90 then c + 32 else c) = scheme :=
    (List.map_congr_left fun c hc => (hbyte c (h c hc)).2.2.2).trans (List.map_id scheme)
  have hhead : scheme.head?.any (fun c => !(48 ≤ c && c ≤ 57) && isAlphanumeric c) = true := by
    obtain ⟨c, s, rfl⟩ := List.exists_cons_of_ne_nil hne
    have hc := hbyte c (h c List.mem_cons_self)
    rw [List.head?_cons, Option.any_some, hc.2.1, hc.2.2.1]
    rfl
  rw [getScheme, cut_append hcolon]
  simp only [hall, hhead, hlower, Bool.and_self, if_true]

theorem cut_rawQuery {a : Bytes} (ha : '?'.toUInt8 ∉ a) (rawQuery : Bytes) :
    ∃ q, cut '?'.toUInt8 (a ++ if rawQuery = [] then [] else '?'.toUInt8 :: rawQuery) = (a, q) ∧
      q.getD [] = rawQuery := by
  by_cases hq : rawQuery = []
  · exact ⟨none, by rw [if_pos hq, List.append_nil, cut_of_notMem ha], hq.symm⟩
  · exact ⟨some rawQuery, by rw [if_neg hq, cut_append ha], rfl⟩

theorem span_path {a p : Bytes} {c : UInt8} (ha : c ∉ a) (hp : p = [] ∨ ∃ p', p = c :: p') :
    (a ++ p).takeWhile (· ≠ c) = a ∧ (a ++ p).dropWhile (· ≠ c) = p := by
  have hne : ∀ x ∈ a, decide (x ≠ c) = true := by
    intro x hx
    exact decide_eq_true fun heq => ha (heq ▸ hx)
  rw [List.takeWhile_append_of_pos hne, List.dropWhile_append_of_pos hne]
  rcases hp with rfl | ⟨p', rfl⟩
  · simp
  · simp

/-- A URL is read back as it was, or refused for its host. -/
theorem parse_write [GoUrl] {u : URL} (h : u.WellFormed) :
    parse u.write = if validHost u.scheme u.host then some u else none := by
  have hhash : '#'.toUInt8 ∉ u.write := fun hc => by
    have := u.isPrintable_write h hc
    revert this
    decide
  have hcontrol : ¬u.write.any (fun c => c < 0x20 || c = 0x7f) = true := by
    have hbyte : ∀ c : UInt8, isPrintable c = true → (c < 0x20 || c = 0x7f) = false :=
      forall_byte (by decide +kernel)
    rw [Bool.not_eq_true, List.any_eq_false]
    intro c hc
    rw [hbyte c (u.isPrintable_write h hc)]
    decide
  have hslash : '/'.toUInt8 ∉ u.authority :=
    URL.notMem_authority (by decide) (by decide) (by decide) (by decide)
  have hquestion : '?'.toUInt8 ∉
      '/'.toUInt8 :: '/'.toUInt8 :: (u.authority ++ escape .path u.path) := by
    simp only [List.mem_cons, List.mem_append, not_or]
    exact ⟨by decide, by decide,
      URL.notMem_authority (by decide) (by decide) (by decide) (by decide),
      notMem_escape (by decide) _⟩
  have hpath : escape .path u.path = [] ∨ ∃ p, escape .path u.path = '/'.toUInt8 :: p := by
    rcases h.path with hp | ⟨p, hp⟩
    · exact .inl (by rw [hp]; rfl)
    · exact .inr ⟨escape .path p, by rw [hp]; rfl⟩
  obtain ⟨q, hcut, hq⟩ := cut_rawQuery hquestion u.rawQuery
  obtain ⟨htake, hdrop⟩ := span_path hslash hpath
  rw [parse, if_neg hhash, if_neg hcontrol, URL.write_eq, getScheme_append h.scheme_ne h.scheme]
  simp only [List.cons_append] at hcut
  simp only [hcut, and_self, if_true, htake, hdrop, parseAuthority_authority h.host,
    unescape_escape_of_ne (show Mode.path ≠ .host by decide), hq]
  cases validHost u.scheme u.host <;> rfl

end DataLoader.Url
