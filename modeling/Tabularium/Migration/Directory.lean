import Tabularium.Text.Pieces

namespace Tabularium

/-- A place below the root of a directory, given by the names on the way to it. -/
abbrev Place := List String

/-- What stands at a place. -/
inductive Node where
  | folder
  | file (text : String)
deriving DecidableEq, Repr

/-- Why a place cannot be read or written. -/
inductive DirectoryFault where
  | notFound
  | taken
  | notFolder
  | isFolder
  | nameTooLong
deriving DecidableEq, Repr

def DirectoryFault.message : DirectoryFault → String
  | notFound => "No such file or directory (os error 2)"
  | taken => "File exists (os error 17)"
  | notFolder => "Not a directory (os error 20)"
  | isFolder => "Is a directory (os error 21)"
  | nameTooLong => "File name too long (os error 36)"

/-- A directory with what stands in it. The name of its root is told in messages only. -/
structure Directory where
  root : String
  nodes : List (Place × Node) := []
deriving DecidableEq

/-- A path continued by another, which stands alone when it starts from elsewhere. -/
def joinPath (front back : String) : String :=
  if back.toList.head? = some '/' then back else front ++ "/" ++ back

/-- The names in a path; an empty name and a dot lead nowhere. -/
def pathNames (path : String) : List String :=
  ((splitAtEach '/' path.toList).map String.ofList).filter fun name => name != "" && name != "."

namespace Directory

def node? (d : Directory) (p : Place) : Option Node :=
  d.nodes.lookup p

def put (d : Directory) (p : Place) (n : Node) : Directory :=
  { d with nodes := (p, n) :: d.nodes.filter fun entry => entry.1 != p }

/-- The longest name that a place may have, in bytes. -/
def nameLimit : Nat := 255

/-- Where names lead from a place. Two dots lead back, but never out of the directory; what is
passed has to be a folder. -/
def walk (d : Directory) (here : Place) : List String → Except DirectoryFault Place
  | [] => .ok here
  | name :: names =>
    match d.node? here with
    | none => .error .notFound
    | some (.file _) => .error .notFolder
    | some .folder =>
      if name = ".." then
        if here = [] then .error .notFound else walk d here.dropLast names
      else if nameLimit < name.utf8ByteSize then .error .nameTooLong
      else walk d (here ++ [name]) names

def place (d : Directory) (path : String) : Except DirectoryFault Place :=
  if path.toList.head? = some '/' then .error .notFound else d.walk [] (pathNames path)

/-- What stands where a path leads to. -/
def find (d : Directory) (path : String) : Except DirectoryFault Node := do
  match d.node? (← d.place path) with
  | some n => return n
  | none => throw .notFound

def has (d : Directory) (path : String) : Bool :=
  (d.find path).isOk

/-- The text of the file at a path. -/
def read (d : Directory) (path : String) : Except DirectoryFault String := do
  match ← d.find path with
  | .file text => return text
  | .folder => throw .isFolder

def hasFile (d : Directory) (path : String) : Bool :=
  (d.read path).isOk

def hasFolder (d : Directory) (path : String) : Bool :=
  match d.find path with
  | .ok .folder => true
  | _ => false

def write (d : Directory) (path text : String) : Except DirectoryFault Directory := do
  let p ← d.place path
  match d.node? p with
  | some .folder => throw .isFolder
  | _ => return d.put p (.file text)

def enter (d : Directory) (p : Place) (onFile : DirectoryFault) : Except DirectoryFault Directory :=
  match d.node? p with
  | none => .ok (d.put p .folder)
  | some .folder => .ok d
  | some (.file _) => .error onFile

/-- The directory with folders on the way from a place along names. -/
def makeFolders (d : Directory) (here : Place) : List String → Except DirectoryFault Directory
  | [] => d.enter here .taken
  | name :: names => do
    let d ← d.enter here .notFolder
    if name = ".." then
      if here = [] then throw .notFound else makeFolders d here.dropLast names
    else if nameLimit < name.utf8ByteSize then throw .nameTooLong
    else makeFolders d (here ++ [name]) names

/-- The directory with a folder at a path, and with the folders on the way. -/
def makeFolder (d : Directory) (path : String) : Except DirectoryFault Directory :=
  d.makeFolders [] (pathNames path)

/-- The directory without what stands at a path and below. -/
def remove (d : Directory) (path : String) : Directory :=
  match d.place path with
  | .ok p => { d with nodes := d.nodes.filter fun entry => !p.isPrefixOf entry.1 }
  | .error _ => d

/-- Writes files one after the other, up to the first that cannot be written. -/
def writeAll (d : Directory) : List (String × String) → Except DirectoryFault Unit × Directory
  | [] => (.ok (), d)
  | (path, text) :: files =>
    match d.write path text with
    | .ok d => writeAll d files
    | .error fault => (.error fault, d)

def files (d : Directory) : List (String × String) :=
  d.nodes.filterMap fun
    | (p, .file text) => some (separated "/" p, text)
    | _ => none

end Directory

end Tabularium
