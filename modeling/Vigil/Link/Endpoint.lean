import Vigil.Record.Basic
/-! Which endpoints can be connected to, and the authority they connect to. -/
namespace Vigil.Link

inductive EndpointFault where
  | invalidChar | invalidAuthority | invalidFormat | tooLong
deriving DecidableEq, Repr

/-- An endpoint that can be connected to. -/
structure Endpoint where
  text : String
  authority : List Char
deriving DecidableEq, Repr

namespace Endpoint

/-- The characters that end an authority. -/
def endsAuthority (c : Char) : Bool := c == '/' || c == '?' || c == '#'

def isPlain (c : Char) : Bool :=
  c.isAlphanum || ['!', '$', '&', '\x27', '(', ')', '*', '+', ',', '-', '.', ';', '=', '_', '~'].contains c

/-- What an authority's characters so far say about the ones to come. -/
structure Scan where
  colons : Nat := 0
  opened : Bool := false
  closed : Bool := false
  percent : Bool := false
deriving DecidableEq, Repr

/-- Colons and percent signs count only behind the last `@` or `]`. -/
def Scan.step (s : Scan) (c : Char) : Except EndpointFault Scan :=
  if c == ':' then
    if 8 ≤ s.colons then .error .invalidAuthority else .ok { s with colons := s.colons + 1 }
  else if c == '[' then
    if s.percent || s.opened then .error .invalidAuthority else .ok { s with opened := true }
  else if c == ']' then
    if !s.opened || s.closed then .error .invalidAuthority
    else .ok { s with closed := true, colons := 0, percent := false }
  else if c == '@' then .ok { s with colons := 0, percent := false }
  else if c == '%' then .ok { s with percent := true }
  else if isPlain c then .ok s
  else .error .invalidChar

def checkAuthority (authority : List Char) : Except EndpointFault Unit := do
  let s ← authority.foldlM Scan.step {}
  if s.opened != s.closed || 1 < s.colons || authority.getLast? == some '@' || s.percent then
    .error .invalidAuthority
  else if authority.isEmpty then .error .invalidFormat
  else .ok ()

def inPath (c : Char) : Bool :=
  let n := c.toNat
  0x21 ≤ n && n != 0x7F && !(c == '<' || c == '>' || c == '\x60')

def inQuery (c : Char) : Bool :=
  let n := c.toNat
  0x21 ≤ n && n != 0x7F && !(c == '\x22' || c == '<' || c == '>')

/-- What follows the authority: a path, a query behind `?`, and anything behind `#`. -/
def checkRest (rest : List Char) : Except EndpointFault Unit :=
  let rest := rest.takeWhile (· != '#')
  let path := rest.takeWhile (· != '?')
  let query := (rest.drop path.length).drop 1
  if path.all inPath && query.all inQuery then .ok () else .error .invalidChar

/-- A text has 65534 bytes at most. -/
def ofText (text : String) : Except EndpointFault Endpoint :=
  if 65534 < text.utf8ByteSize then .error .tooLong
  else do
    let rest := text.toList.drop "http://".length
    let authority := rest.takeWhile fun c => !endsAuthority c
    checkAuthority authority
    checkRest (rest.drop authority.length)
    .ok ⟨text, authority⟩

end Endpoint

end Vigil.Link
