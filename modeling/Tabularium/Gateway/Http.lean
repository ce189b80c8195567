import Tabularium.Text.Ascii
import Tabularium.Text.Pieces

namespace Tabularium

structure HttpRequest where
  method : String := "POST"
  path : String
  headers : List (String × String) := []
  body : String := ""
deriving DecidableEq

structure HttpResponse where
  status : Nat
  headers : List (String × String) := []
  body : String := ""
deriving DecidableEq

namespace Http

/-- The value of the first header of a name, whatever its case. -/
def header? (headers : List (String × String)) (name : String) : Option String :=
  (headers.find? fun header => sameIgnoringCase header.1 name).map Prod.snd

/-- The value can be read as text: it holds visible characters, spaces and tabs only. -/
def isReadable (value : String) : Bool :=
  value.toList.all fun c => c == '\t' || (0x20 ≤ c.toNat && c.toNat < 0x7F)

/-- The value can be sent: it holds no control character but the tab. -/
def isSendable (value : String) : Bool :=
  value.toList.all fun c => c == '\t' || (0x20 ≤ c.toNat && c.toNat ≠ 0x7F)

/-- The value of a header that can be read as text. -/
def readable? (headers : List (String × String)) (name : String) : Option String :=
  (header? headers name).filter isReadable

/-- The value of a header that can be read as text and is not empty. -/
def present? (headers : List (String × String)) (name : String) : Option String :=
  (readable? headers name).filter fun value => !value.isEmpty

def isSuccess (status : Nat) : Bool :=
  200 ≤ status && status < 300

def phrases : List (Nat × String) :=
  [(100, "Continue"), (101, "Switching Protocols"), (102, "Processing"), (103, "Early Hints"),
    (200, "OK"), (201, "Created"), (202, "Accepted"), (203, "Non Authoritative Information"),
    (204, "No Content"), (205, "Reset Content"), (206, "Partial Content"), (207, "Multi-Status"),
    (208, "Already Reported"), (226, "IM Used"), (300, "Multiple Choices"),
    (301, "Moved Permanently"), (302, "Found"), (303, "See Other"), (304, "Not Modified"),
    (305, "Use Proxy"), (307, "Temporary Redirect"), (308, "Permanent Redirect"),
    (400, "Bad Request"), (401, "Unauthorized"), (402, "Payment Required"), (403, "Forbidden"),
    (404, "Not Found"), (405, "Method Not Allowed"), (406, "Not Acceptable"),
    (407, "Proxy Authentication Required"), (408, "Request Timeout"), (409, "Conflict"),
    (410, "Gone"), (411, "Length Required"), (412, "Precondition Failed"),
    (413, "Payload Too Large"), (414, "URI Too Long"), (415, "Unsupported Media Type"),
    (416, "Range Not Satisfiable"), (417, "Expectation Failed"), (418, "I'm a teapot"),
    (421, "Misdirected Request"), (422, "Unprocessable Entity"), (423, "Locked"),
    (424, "Failed Dependency"), (425, "Too Early"), (426, "Upgrade Required"),
    (428, "Precondition Required"), (429, "Too Many Requests"),
    (431, "Request Header Fields Too Large"), (451, "Unavailable For Legal Reasons"),
    (500, "Internal Server Error"), (501, "Not Implemented"), (502, "Bad Gateway"),
    (503, "Service Unavailable"), (504, "Gateway Timeout"), (505, "HTTP Version Not Supported"),
    (506, "Variant Also Negotiates"), (507, "Insufficient Storage"), (508, "Loop Detected"),
    (510, "Not Extended"), (511, "Network Authentication Required")]

def statusText (status : Nat) : String :=
  Nat.repr status ++ " " ++ (phrases.lookup status).getD "<unknown status code>"

/-- The characters that the names of methods and in media types are made of. -/
def isTokenChar (c : Char) : Bool :=
  c.isAlphanum || "!#$%&\x27*+-.^_\x60|~".toList.contains c

/-- The text can be the name of a method. -/
def isToken (s : String) : Bool :=
  !s.isEmpty && s.toList.all isTokenChar

/-- What is left behind the value of a parameter in quotes, of which at least one character is
inside. -/
def skipQuotedValue : Nat → List Char → Option (List Char)
  | _, [] => none
  | seen, c :: cs =>
    if c = '\x22' ∧ 0 < seen then some cs
    else if c.toNat < 0x20 ∨ c.toNat = 0x7F then none
    else skipQuotedValue (seen + 1) cs

/-- What is left behind the value of a parameter and the semicolon after it; nothing when it is the
last one. -/
def skipValue (cs : List Char) : Option (List Char) :=
  match cs with
  | '\x22' :: rest =>
    match skipQuotedValue 0 rest with
    | none => none
    | some rest =>
      match rest.dropWhile (· == ' ') with
      | [] => some []
      | ';' :: rest => some rest
      | _ => none
  | _ =>
    let value := cs.takeWhile isTokenChar
    match cs.dropWhile isTokenChar with
    | [] => some []
    | ';' :: rest => if value.isEmpty then none else some rest
    | _ => none

/-- The parameters of a media type are well formed; each takes a step of the fuel. -/
def areParameters : Nat → List Char → Bool
  | 0, _ => false
  | fuel + 1, cs =>
    match cs.dropWhile (· == ' ') with
    | [] => true
    | rest =>
      let name := rest.takeWhile isTokenChar
      match rest.dropWhile isTokenChar with
      | '=' :: rest =>
        if name.isEmpty then false
        else
          match skipValue rest with
          | some rest => areParameters fuel rest
          | none => false
      | _ => false

/-- The name of a subtype and its suffix, which stands behind the last plus that is not in
front. -/
def splitSuffix (subtype : List Char) : List Char × List Char :=
  let suffix := (subtype.reverse.takeWhile (· != '+')).reverse
  let stem := subtype.take (subtype.length - suffix.length - 1)
  if suffix.length < subtype.length ∧ stem ≠ [] then (stem, suffix) else (subtype, [])

/-- The media type is the one for documents, or one with their suffix. -/
def isJsonMediaType (value : String) : Bool :=
  match splitOnce? '/' (asciiLower value).toList with
  | none => false
  | some (kind, rest) =>
    let subtype := rest.takeWhile isTokenChar
    let parametersOk := match rest.dropWhile isTokenChar with
      | [] => true
      | ';' :: parameters => areParameters (parameters.length + 1) parameters
      | _ => false
    let (stem, suffix) := splitSuffix subtype
    kind == "application".toList && !subtype.isEmpty && parametersOk
      && (stem == "json".toList || suffix == "json".toList)

end Http

end Tabularium
