import ElectrumClink.Protocol

/-!
# Relay URLs

The check of a relay URL that a user types: `normalizeRelayUrl`, over what it reads of
`urllib.parse.urlsplit`.

`normalizeRelayUrl_eq_ok_iff` says what is accepted: the text without the whitespace around it, if
it has the scheme of a websocket, a host and a proper port. Nothing bounds its length.
-/

namespace ElectrumClink

namespace CharTables

variable (tables : CharTables)

/-! ## Texts -/

/-- `str.strip()`, of a text. -/
def stripText (s : String) : String := String.ofList (tables.strip s.toList)

/-- What is left after stripping starts with no whitespace. -/
theorem dropWhile_strip (s : List Char) :
    (tables.strip s).dropWhile tables.isSpace = tables.strip s := by
  rw [List.dropWhile_eq_self_iff]
  intro hpos
  have hstart : tables.strip s <+: s.dropWhile tables.isSpace := List.rdropWhile_prefix _ _
  have hpos' : 0 < (s.dropWhile tables.isSpace).length := hpos.trans_le hstart.length_le
  rw [hstart.getElem hpos]
  exact List.dropWhile_get_zero_not tables.isSpace s hpos'

/-- Stripping twice is stripping once. -/
theorem strip_strip (s : List Char) : tables.strip (tables.strip s) = tables.strip s := by
  have hdrop := tables.dropWhile_strip s
  calc tables.strip (tables.strip s)
      = tables.rstrip ((tables.strip s).dropWhile tables.isSpace) := rfl
    _ = tables.rstrip (tables.strip s) := by rw [hdrop]
    _ = tables.strip s := List.rdropWhile_idempotent _ _

@[simp]
theorem stripText_stripText (s : String) :
    tables.stripText (tables.stripText s) = tables.stripText s := by
  rw [stripText, stripText, String.toList_ofList, strip_strip]

/-- The escaped form of a character in a quoted text. -/
def reprChar (quote c : Char) : List Char :=
  if c = quote ∨ c = '\\' then ['\\', c]
  else if c = '\t' then ['\\', 't']
  else if c = '\n' then ['\\', 'n']
  else if c = '\r' then ['\\', 'r']
  else if tables.isPrintable c then [c]
  else if c.toNat < 256 then '\\' :: 'x' :: hexDigits 2 c.toNat
  else if c.toNat < 65536 then '\\' :: 'u' :: hexDigits 4 c.toNat
  else '\\' :: 'U' :: hexDigits 8 c.toNat
where
  /-- The last `width` hexadecimal digits of `n`. -/
  hexDigits (width n : ℕ) : List Char :=
    (List.range width).reverse.map fun i => Nat.digitChar (n / 16 ^ i % 16)

/-- `repr`: the text in single quotes, or in double quotes when it holds a single quote and no
double one. -/
def repr (s : String) : String :=
  let quote := if Char.ofNat 39 ∈ s.toList ∧ Char.ofNat 34 ∉ s.toList then Char.ofNat 34
    else Char.ofNat 39
  String.ofList (quote :: (s.toList.flatMap (tables.reprChar quote) ++ [quote]))

end CharTables

/-! ## Splitting -/

/-- `str.partition`: what stands before the first `c`, whether there is one, and what stands
after it. -/
def partition (c : Char) (s : List Char) : List Char × Bool × List Char :=
  (s.takeWhile (· != c), s.contains c, (s.dropWhile (· != c)).tail)

/-- What stands after the last `c`; the whole text without one. -/
def afterLast (c : Char) (s : List Char) : List Char := s.rtakeWhile (· != c)

/-- What `normalize_relay_url` uses of Python's tables and parsers. -/
structure UrlTables extends CharTables where
  /-- The message of the `ValueError` for a network location whose bracketed host is no IP address,
  or that has a separator in its Unicode normal form. -/
  netlocError : List Char → Option String

/-- The parts of a URL that are read. -/
structure SplitResult where
  scheme : List Char
  netloc : List Char
deriving DecidableEq

/-- A character of a URL scheme. -/
def isSchemeChar (c : Char) : Bool := c.isAlphanum || c == '+' || c == '-' || c == '.'

/-- `urlsplit`, up to the network location. -/
def urlsplit (tables : UrlTables) (url : String) : Except PyError SplitResult := do
  let url := (url.toList.dropWhile (· ≤ ' ')).filter fun c => c != '\t' && c != '\r' && c != '\n'
  let (head, found, rest) := partition ':' url
  let hasScheme := found && (head.head?.any Char.isAlpha) && head.all isSchemeChar
  let (scheme, url) := if hasScheme then (head.map Char.toLower, rest) else ([], url)
  if url.take 2 = ['/', '/'] then
    let netloc := (url.drop 2).takeWhile fun c => c != '/' && c != '?' && c != '#'
    if netloc.contains '[' != netloc.contains ']' then
      throw (.valueError "Invalid IPv6 URL")
    match tables.netlocError netloc with
    | some message => throw (.valueError message)
    | none => return ⟨scheme, netloc⟩
  else
    return ⟨scheme, []⟩

namespace SplitResult

/-- `_hostinfo`: the host and the port, as they are written. -/
def hostinfo (parts : SplitResult) : List Char × List Char :=
  let hostinfo := afterLast '@' parts.netloc
  let (_, haveOpenBr, bracketed) := partition '[' hostinfo
  if haveOpenBr then
    let (hostname, _, port) := partition ']' bracketed
    (hostname, (partition ':' port).2.2)
  else
    let (hostname, _, port) := partition ':' hostinfo
    (hostname, port)

/-- Whether `parts.port` can be read: there is none, or it is a number within the range. Python
refuses to read a number of more than 4300 digits. -/
def portIsValid (parts : SplitResult) : Bool :=
  let port := parts.hostinfo.2
  port.isEmpty || (port.all Char.isDigit && decide (port.length ≤ 4300) &&
    decide (digitsValue (String.ofList port) ≤ 65535))

end SplitResult

/-- `normalize_relay_url`: the stripped URL, unless it names no relay. -/
def normalizeRelayUrl (tables : UrlTables) (url : String) : Except PyError String := do
  let candidate := tables.stripText url
  if candidate = "" then
    throw (.valueError "relay URL is empty")
  if candidate.toList.any tables.isSpace then
    throw (.valueError ("relay URL contains whitespace: " ++ tables.repr candidate))
  let parts ← urlsplit tables candidate
  if parts.scheme ≠ "ws".toList ∧ parts.scheme ≠ "wss".toList then
    throw (.valueError
      ("relay URL must start with wss:// or ws:// (got " ++ tables.repr candidate ++ ")"))
  if parts.hostinfo.1.isEmpty then
    throw (.valueError ("relay URL has no host: " ++ tables.repr candidate))
  if !parts.portIsValid then
    throw (.valueError ("relay URL has an invalid port: " ++ tables.repr candidate))
  return candidate

/-- The parts have the scheme of a websocket, a host, and no port that cannot be read. -/
structure SplitResult.NamesRelay (parts : SplitResult) : Prop where
  scheme : parts.scheme = "ws".toList ∨ parts.scheme = "wss".toList
  host : parts.hostinfo.1 ≠ []
  port : parts.portIsValid = true

/-- What is accepted: the stripped text, if it is not empty, has no whitespace in it and names a
relay. -/
theorem normalizeRelayUrl_eq_ok_iff {tables : UrlTables} {url relay : String} :
    normalizeRelayUrl tables url = .ok relay ↔
      relay = tables.stripText url ∧ relay ≠ "" ∧
        (∀ c ∈ relay.toList, tables.isSpace c = false) ∧
        ∃ parts, urlsplit tables relay = .ok parts ∧ parts.NamesRelay := by
  have hspace_iff : (tables.stripText url).toList.any tables.isSpace = true ↔
      ¬ ∀ c ∈ (tables.stripText url).toList, tables.isSpace c = false := by
    rw [List.any_eq_true]
    push Not
    simp only [Bool.not_eq_false]
  unfold normalizeRelayUrl
  constructor
  · intro h
    by_cases hempty : tables.stripText url = ""
    · rw [if_pos hempty] at h
      cases h
    by_cases hspace : (tables.stripText url).toList.any tables.isSpace = true
    · rw [if_neg hempty, if_pos hspace] at h
      cases h
    rw [if_neg hempty, if_neg hspace] at h
    rcases hsplit : urlsplit tables (tables.stripText url) with e | parts
    · rw [hsplit] at h
      cases h
    rw [hsplit, PyError.ok_bind] at h
    -- the remaining checks refuse the candidate or let it through
    by_cases hscheme : parts.scheme ≠ "ws".toList ∧ parts.scheme ≠ "wss".toList
    · rw [if_pos hscheme] at h
      cases h
    by_cases hhost : parts.hostinfo.1.isEmpty = true
    · rw [if_neg hscheme, if_pos hhost] at h
      cases h
    by_cases hport : (!parts.portIsValid) = true
    · rw [if_neg hscheme, if_neg hhost, if_pos hport] at h
      cases h
    rw [if_neg hscheme, if_neg hhost, if_neg hport] at h
    obtain rfl := Except.ok.inj h
    refine ⟨rfl, hempty, ?_, parts, hsplit, ?_, ?_, ?_⟩
    · by_contra hnot
      exact hspace (hspace_iff.2 hnot)
    · by_contra hnot
      exact hscheme (not_or.1 hnot)
    · rwa [List.isEmpty_iff] at hhost
    · rwa [Bool.not_eq_true', Bool.not_eq_false] at hport
  · rintro ⟨rfl, hne, hspace, parts, hsplit, hparts⟩
    have hscheme : ¬ (parts.scheme ≠ "ws".toList ∧ parts.scheme ≠ "wss".toList) := by
      rw [← not_or, not_not]
      exact hparts.scheme
    have hhost : ¬ parts.hostinfo.1.isEmpty = true := by
      rw [List.isEmpty_iff]
      exact hparts.host
    have hport : ¬ (!parts.portIsValid) = true := by
      rw [hparts.port]
      exact Bool.false_ne_true
    rw [if_neg hne, if_neg fun h => hspace_iff.1 h hspace, hsplit, PyError.ok_bind,
      if_neg hscheme, if_neg hhost, if_neg hport]
    rfl

end ElectrumClink
