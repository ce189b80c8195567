namespace Tabularium

namespace Http

/-- The characters of the part of a target that names a host. -/
def isHostChar (c : Char) : Bool :=
  c.isAlphanum || "!$%&\x27()*+,-.:;=@[]_~".toList.contains c

/-- What was seen of the name of a host since the last user or bracket, and of its brackets. -/
structure HostProgress where
  colons : Nat := 0
  percent : Bool := false
  opened : Bool := false
  closed : Bool := false

/-- Reads a character of the name of a host. Colons and percent signs in front of a user's mark or
inside brackets do not count. -/
def HostProgress.next (p : HostProgress) (c : Char) : Option HostProgress :=
  if c = ':' then if 8 ≤ p.colons then none else some { p with colons := p.colons + 1 }
  else if c = '[' then if p.percent || p.opened then none else some { p with opened := true }
  else if c = ']' then
    if !p.opened || p.closed then none
    else some { p with colons := 0, percent := false, closed := true }
  else if c = '@' then some { p with colons := 0, percent := false }
  else if c = '%' then some { p with percent := true }
  else if isHostChar c then some p
  else none

/-- The text names a host: a user may stand in front of it, and one colon with a number behind
it. -/
def isHost (cs : List Char) : Bool :=
  match cs.foldlM HostProgress.next {} with
  | none => false
  | some p =>
    !cs.isEmpty && cs.getLast? != some '@' && p.opened == p.closed && p.colons ≤ 1 && !p.percent

def isSchemeChar (c : Char) : Bool :=
  c.isAlphanum || "+-.~".toList.contains c

def isPathChar (c : Char) : Bool :=
  0x21 ≤ c.toNat && !"#<>?\x60".toList.contains c

def isQueryChar (c : Char) : Bool :=
  0x21 ≤ c.toNat && !"\x22#<>".toList.contains c

/-- The path in front of a query and a fragment; an empty one is the root. -/
def readPath? (cs : List Char) : Option String :=
  let path := cs.takeWhile fun c => c != '?' && c != '#'
  let query := (cs.drop (path.length + 1)).takeWhile (· != '#')
  let hasQuery := (cs.drop path.length).head? == some '?'
  if !path.all isPathChar || (hasQuery && !query.all isQueryChar) then none
  else some (if path.isEmpty then "/" else String.ofList path)

/-- The longest target, in bytes. -/
def targetLimit : Nat := Nat.pow 2 16 - 2

def schemeLimit : Nat := 64

/-- The path of the target of a request, which may have a scheme and a host in front; a host alone
has no path. -/
def pathOf? (target : String) : Option String :=
  if targetLimit < target.utf8ByteSize then none
  else
    match target.toList with
    | ['*'] => some "*"
    | '/' :: rest => readPath? ('/' :: rest)
    | cs =>
      let scheme := cs.takeWhile isSchemeChar
      match cs.dropWhile isSchemeChar with
      | ':' :: '/' :: '/' :: rest =>
        let host := rest.takeWhile fun c => !"/?#".toList.contains c
        if schemeLimit < scheme.length || !isHost host then none
        else readPath? (rest.drop host.length)
      | _ => if isHost cs then some "" else none

end Http

end Tabularium
