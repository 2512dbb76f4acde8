import EventStream.Url.Host
import EventStream.Text.Quoted
import EventStream.Fault

/-
# The parts of a URL

A URL is cut into scheme, authority, path, query and fragment. Control characters and spaces in
front are skipped, and tabs and line ends are removed wherever they stand. What precedes the first
colon is the scheme if it looks like one. An authority follows two slashes and ends at the next
slash, question mark or number sign; brackets in it have to hold an address, and it must not
contain a character that stands for a separator of URLs.
-/

namespace EventStream.Url

/-- The parts of a URL. -/
structure Parts where
  scheme : Text
  authority : Text
  path : Text
  query : Text
  fragment : Text
  deriving DecidableEq

/-- Why a text has no parts. -/
inductive SplitError where
  | brackets
  | futureAddress
  | address (host : Text)
  | bracketedIPv4
  | separator (authority : Text)
  deriving DecidableEq

/-- The wording of a failed split. -/
def SplitError.message : SplitError → Text
  | .brackets => "Invalid IPv6 URL"
  | .futureAddress => "IPvFuture address is invalid"
  | .address host =>
    Text.concat [Text.quoted host, " does not appear to be an IPv4 or IPv6 address"]
  | .bracketedIPv4 => "An IPv4 address cannot be in brackets"
  | .separator authority =>
    Text.concat ["netloc '", authority, "' contains invalid characters under NFKC normalization"]

/-- A failed split as a fault. -/
def SplitError.toFault (e : SplitError) : Fault := .raised .value e.message

/-- Whether a code point is skipped in front of a URL. -/
def isControlOrSpace (c : CodePoint) : Bool := c.toNat ≤ 32

/-- Whether a code point is removed from a URL. -/
def isRemoved (c : CodePoint) : Bool := c = .scalar '\t' || c = .scalar '\r' || c = .scalar '\n'

/-- Whether a code point is an ASCII letter. -/
def isLetter (c : CodePoint) : Bool :=
  let n := c.toNat
  (65 ≤ n && n ≤ 90) || (97 ≤ n && n ≤ 122)

/-- Whether a code point may stand in a scheme. -/
def isSchemePart (c : CodePoint) : Bool :=
  isLetter c || isDigit c || c = .scalar '+' || c = .scalar '-' || c = .scalar '.'

/-- Whether a text is a scheme: a letter, then letters, digits, plus, hyphen and point. -/
def isScheme (t : Text) : Bool :=
  match t with
  | [] => false
  | c :: _ => isLetter c && t.all isSchemePart

/-- The scheme in lower case, if there is one, and what follows it. -/
def cutScheme (t : Text) : Text × Text :=
  match Text.cut ':' t with
  | (scheme, some rest) => if isScheme scheme then (Text.toLowerAscii scheme, rest) else ([], t)
  | (_, none) => ([], t)

/-- Whether a code point ends an authority. -/
def endsAuthority (c : CodePoint) : Bool :=
  c = .scalar '/' || c = .scalar '?' || c = .scalar '#'

/-- The authority after two slashes, and what follows it. -/
def cutAuthority (t : Text) : Option (Text × Text) :=
  match t with
  | .scalar '/' :: .scalar '/' :: rest =>
    some (rest.takeWhile (!endsAuthority ·), rest.dropWhile (!endsAuthority ·))
  | _ => none

/-- The code points whose compatibility form holds a slash, question mark, number sign, at sign or
colon. -/
def separatorLookalikes : List Nat :=
  [0x2047, 0x2048, 0x2049, 0x2100, 0x2101, 0x2105, 0x2106, 0x2A74, 0xFE13, 0xFE16, 0xFE55, 0xFE56,
    0xFE5F, 0xFE6B, 0xFF03, 0xFF0F, 0xFF1A, 0xFF1F, 0xFF20]

/-- Check the brackets of an authority and what stands between them. -/
def checkBrackets (authority : Text) : Except SplitError Unit :=
  match authority.contains '[', authority.contains ']' with
  | false, false => .ok ()
  | true, true =>
    let inside := (Text.cut '[' authority).2.getD []
    let host := (Text.cut ']' inside).1
    if host.head? = some (.scalar 'v') then
      if isFutureAddress host then .ok () else .error .futureAddress
    else if isIPv4 host then .error .bracketedIPv4
    else if isIPv6 host then .ok ()
    else .error (.address host)
  | _, _ => .error .brackets

/-- Check that an authority holds no character that stands for a separator. -/
def checkLookalikes (authority : Text) : Except SplitError Unit :=
  if authority.any fun c => separatorLookalikes.contains c.toNat then .error (.separator authority)
  else .ok ()

/-- The parts of a URL. -/
def split (url : Text) : Except SplitError Parts := do
  let (scheme, rest) := cutScheme ((url.dropWhile isControlOrSpace).filter (!isRemoved ·))
  let (authority, rest) ← match cutAuthority rest with
    | none => pure ([], rest)
    | some (authority, rest) => do
      checkBrackets authority
      pure (authority, rest)
  let (rest, fragment) := Text.cut '#' rest
  let (path, query) := Text.cut '?' rest
  checkLookalikes authority
  return ⟨scheme, authority, path, query.getD [], fragment.getD []⟩

/-- A URL with an authority, of which path, scheme and authority are given. A path that does not
begin with a slash is given one. -/
def assemble (scheme authority path : Text) : Text :=
  let path := if path.isEmpty || path.head? = some (.scalar '/') then path else .scalar '/' :: path
  Text.concat [scheme, "://", authority, path]

end EventStream.Url
