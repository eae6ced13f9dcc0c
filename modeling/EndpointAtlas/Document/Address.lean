import EndpointAtlas.Document.Host
import EndpointAtlas.Numeric.Reading
import EndpointAtlas.Text.Bytes
import EndpointAtlas.Text.Quoted

/-!
# Addresses

An address of a page has a scheme, a host, perhaps with a user before it and a port behind it, a
path, and perhaps a query and a fragment. `Address.ofText?` reads one in normal form: the host in
lower case and in ASCII, no port that the scheme implies, no points in the path that only lead
around, and every part with the escapes that it needs. `Address.text` writes it.
-/

namespace EndpointAtlas

/-- An address in normal form. -/
structure Address where
  scheme : List Char
  user : List Char
  host : List Char
  port : Option Int
  path : List Char
  query : Option (List Char)
  fragment : Option (List Char)
  deriving DecidableEq, Repr

namespace Address

/-! ## Escapes -/

/-- A character as its bytes, each a percent sign with two digits. -/
def escapeChar (c : Char) : List Char :=
  (Text.encodeChar c).flatMap fun b => '%' :: (Text.hex 2 b.toNat).map Char.toUpper

/-- A text with the characters escaped that are not kept. -/
def escape (kept : Char → Bool) (cs : List Char) : List Char :=
  cs.flatMap fun c => if kept c then [c] else escapeChar c

/-- Whether a part of an address keeps a character: those of ASCII are kept but for controls and
those that the part escapes. An escape that is there already is kept with its percent sign. -/
def isKept (escaped : List Char) (c : Char) : Bool :=
  ' ' ≤ c && c ≤ '~' && !escaped.contains c

/-- What is escaped in a fragment. -/
def fragmentEscapes : List Char := " \"<>`".toList

/-- What is escaped in a query. -/
def queryEscapes : List Char := " \"#<>".toList

/-- What is escaped in a path. -/
def pathEscapes : List Char := queryEscapes ++ "?`\x7b\x7d".toList

/-- What is escaped in a user, who may have a colon and a password. -/
def userEscapes : List Char := pathEscapes ++ "/;=@[\\]^|".toList

/-! ## Parts -/

/-- A host in normal form, if it is one. A number in brackets stands without them. -/
def host? (host : List Char) : Option (List Char) :=
  if Host.looksNumeric host then if Host.isFourBytes host then some host else none
  else if host.head? = some '[' && host.getLast? = some ']' then
    let number := (host.drop 1).dropLast
    if Host.isSixteenBytes number then some number else none
  else if host.all Text.Punycode.isAscii then
    some (escape Host.isNameChar (host.map Char.toLower))
  else Host.labels? (Text.lower host)

/-- The port that a scheme implies. -/
def impliedPort (scheme : List Char) : Option Int :=
  if scheme = "http".toList then some 80
  else if scheme = "https".toList then some 443
  else none

/-- A port that the scheme does not imply; nothing stands for the implied one. -/
def port? (scheme port : List Char) : Option (Option Int) :=
  if port.isEmpty then some none
  else do
    let n ← Numeric.readInteger? 10 port
    return if impliedPort scheme = some n then none else some n

/-- The characters up to the last one that passes a test, none if no one does, and those behind. -/
def splitAtLast (p : Char → Bool) (cs : List Char) : Option (List Char × List Char) :=
  match cs.reverse.dropWhile fun c => !p c with
  | [] => none
  | c :: before =>
    let first := (c :: before).reverse
    some (first, cs.drop first.length)

/-- The host and the port in a text without a user. -/
def hostAndPort (cs : List Char) : List Char × List Char :=
  let (host, rest) :=
    match if cs.head? = some '[' then splitAtLast (· = ']') cs else none with
    | some parts => parts
    | none => (cs.takeWhile (· ≠ ':'), cs.dropWhile (· ≠ ':'))
  (host, if rest.head? = some ':' then rest.tail else rest)

/-- The names of a path without those that lead nowhere: a single point stays where it is, and two
points take back the name before. -/
def settle (kept : List (List Char)) : List (List Char) → List (List Char)
  | [] => kept
  | name :: rest =>
    if name = ['.'] then settle kept rest
    else if name = ['.', '.'] then settle (if kept = [[]] then kept else kept.dropLast) rest
    else settle (kept ++ [name]) rest

/-- A path without points that only lead around. -/
def settledPath (path : List Char) : List Char :=
  ['/'].intercalate (settle [] (Text.splitOn '/' path))

/-! ## Reading and writing -/

/-- The longest address. -/
def maxLength : Nat := 65536

/-- Whether a character may not stand in an address: a control of ASCII. -/
def isControl (c : Char) : Bool := c < ' ' || c = '\x7f'

/-- A text up to a mark, and what stands behind the mark if there is one. -/
def cut (mark : Char) (cs : List Char) : List Char × Option (List Char) :=
  match cs.dropWhile (· ≠ mark) with
  | [] => (cs, none)
  | _ :: behind => (cs.takeWhile (· ≠ mark), some behind)

/-- The address that a text writes behind its scheme. -/
def ofParts? (scheme rest : List Char) : Option Address := do
  let (rest, fragment) := cut '#' rest
  let (rest, query) := cut '?' rest
  let authority := rest.takeWhile (· ≠ '/')
  let path := rest.drop authority.length
  let (user, place) := match splitAtLast (· = '@') authority with
    | some (user, place) => (user.dropLast, place)
    | none => ([], authority)
  let (host, port) := hostAndPort place
  return {
    scheme
    user := escape (isKept userEscapes) user
    host := ← host? host
    port := ← port? scheme port
    path := escape (isKept pathEscapes) (settledPath path)
    query := query.map (escape (isKept queryEscapes))
    fragment := fragment.map (escape (isKept fragmentEscapes)) }

/-- What stands between a scheme and a host. -/
def schemeEnd : List Char := "://".toList

/-- The address that a text writes. -/
def ofText? (cs : List Char) : Option Address :=
  if maxLength < cs.length || cs.any isControl then none
  else
    let scheme := cs.takeWhile (· ≠ ':')
    match schemeEnd.isPrefixOf? (cs.drop scheme.length) with
    | some rest => ofParts? scheme rest
    | none => none

/-- The user, the host and the port of an address. -/
def authority (a : Address) : List Char :=
  (if a.user.isEmpty then [] else a.user ++ ['@']) ++
    (if a.host.contains ':' then '[' :: a.host ++ [']'] else a.host) ++
    (match a.port with
      | some n => ':' :: (toString n).toList
      | none => [])

/-- The text of an address. -/
def text (a : Address) : List Char :=
  a.scheme ++ [':'] ++ (if a.authority.isEmpty then [] else '/' :: '/' :: a.authority) ++ a.path ++
    (match a.query with
      | some q => '?' :: q
      | none => []) ++
    (match a.fragment with
      | some f => '#' :: f
      | none => [])

end Address

end EndpointAtlas
