import ModuleRig.Web.HostName

/-!
# URLs

The URL of a web page, taken apart and brought into its usual form: the host in lower case, the port
only if it is not the one of the scheme, a path without steps up or in place, and everything else
percent-encoded where it has to be. Backslashes are slashes, and line ends and tabs do not count.
The path has a segment in any case: `pathOf_ne_nil`.
-/

namespace ModuleRig.Web

inductive Scheme where
  | http
  | https
deriving DecidableEq, Repr

namespace Scheme

def text : Scheme → List Char
  | .http => ['h', 't', 't', 'p']
  | .https => ['h', 't', 't', 'p', 's']

def port : Scheme → Nat
  | .http => 80
  | .https => 443

end Scheme

/-- A user and a password in front of a host, percent-encoded. -/
structure Credentials where
  user : List Char
  password : List Char
deriving DecidableEq, Repr

structure Url where
  scheme : Scheme
  credentials : Credentials
  host : HostName
  /-- A port other than that of the scheme. -/
  port : Option Nat
  /-- The segments of the path, at least one. -/
  path : List (List Char)
  query : Option (List Char)
  fragment : Option (List Char)
deriving DecidableEq, Repr

namespace Url

def noCredentials : Credentials := ⟨[], []⟩

/-! ## Reading -/

def isSlash (c : Char) : Bool :=
  c == '/' || c == '\\'

def isLineEnd (c : Char) : Bool :=
  c == '\t' || c == '\n' || c == '\r'

/-- A character that ends the host and its port. -/
def endsAuthority (c : Char) : Bool :=
  isSlash c || c == '?' || c == '#'

/-- The scheme and what follows its colon. -/
def schemeOf? (cs : List Char) : Option (Scheme × List Char) :=
  match Text.after? ['h', 't', 't', 'p', 's', ':'] cs with
  | some rest => some (.https, rest)
  | none => (Text.after? ['h', 't', 't', 'p', ':'] cs).map fun rest => (.http, rest)

/-- What stands before and after the first character of a class, which is dropped. -/
def cutAt (isCut : Char → Bool) (cs : List Char) : List Char × List Char :=
  (cs.takeWhile (!isCut ·), (cs.dropWhile (!isCut ·)).drop 1)

/-- What stands before the last at sign, and what stands after it. -/
def cutAtLastAt (cs : List Char) : List Char × List Char :=
  let (back, front) := cutAt (· == '@') cs.reverse
  (front.reverse, back.reverse)

def credentialsOf (cs : List Char) : Credentials :=
  let (user, password) := cutAt (· == ':') cs
  ⟨Percent.encode Percent.isEncodedInUser user, Percent.encode Percent.isEncodedInUser password⟩

/-- The host, and what follows it from a colon on. A colon in brackets belongs to the host. -/
def hostAndPort (inBrackets : Bool) : List Char → List Char × List Char
  | [] => ([], [])
  | c :: cs =>
    if c = ':' ∧ !inBrackets then ([], c :: cs)
    else
      let (host, rest) := hostAndPort (c == '[' || inBrackets && c != ']') cs
      (c :: host, rest)

/-- The port behind a host. None is written for that of the scheme. -/
def portOf? (scheme : Scheme) : List Char → Option (Option Nat)
  | ':' :: digits =>
    if digits.isEmpty then some none
    else do
      let port ← Text.boundedNumeral? 65535 digits
      return if port = scheme.port then none else some port
  | _ => some none

/-- The dots of a segment, each of which may be percent-encoded. None if there is anything else. -/
def dots? : List Char → Option Nat
  | [] => some 0
  | '.' :: rest => (dots? rest).map (· + 1)
  | '%' :: '2' :: 'e' :: rest => (dots? rest).map (· + 1)
  | '%' :: '2' :: 'E' :: rest => (dots? rest).map (· + 1)
  | _ => none

/-- A letter and a colon or bar, as a drive is named. A step up does not leave it. -/
def isDrive : List Char → Bool
  | [letter, mark] => letter.isAlpha && (mark == ':' || mark == '|')
  | _ => false

/-- The segments before the last, the newest first, after a step up. -/
def stepUp : List (List Char) → List (List Char)
  | [] => []
  | segment :: above => if isDrive segment then segment :: above else above

/-- The segments that a path leads along, given those already passed, the newest first. A step at
the end leads to a directory. -/
def pathFrom (passed : List (List Char)) : List (List Char) → List (List Char)
  | [] => passed.reverse
  | segment :: rest =>
    let step : Option (List (List Char)) :=
      match dots? segment with
      | some 1 => some passed
      | some 2 => some (stepUp passed)
      | _ => none
    match step with
    | none => pathFrom (segment :: passed) rest
    | some passed => if rest.isEmpty then ([] :: passed).reverse else pathFrom passed rest

def pathOf (cs : List Char) : List (List Char) :=
  let cs := cs.map fun c => if isSlash c then '/' else c
  pathFrom [] ((Text.splitOn '/' (cs.drop 1)).map (Percent.encode Percent.isEncodedInPath))

/-- What follows the first character of a class, encoded. -/
def partBehind (mark : Char) (isEncoded : Char → Bool) (cs : List Char) : Option (List Char) :=
  match cs.dropWhile (· != mark) with
  | [] => none
  | _ :: rest => some (Percent.encode isEncoded rest)

def ofChars? (cs : List Char) : Option Url := do
  let (scheme, rest) ← schemeOf? (cs.filter (!isLineEnd ·))
  let rest := rest.dropWhile isSlash
  let (credentials, address) := cutAtLastAt (rest.takeWhile (!endsAuthority ·))
  let (host, port) := hostAndPort false address
  let rest := rest.dropWhile (!endsAuthority ·)
  let beforeFragment := rest.takeWhile (· != '#')
  return {
    scheme
    credentials := credentialsOf credentials
    host := ← HostName.parse? host
    port := ← portOf? scheme port
    path := pathOf (beforeFragment.takeWhile (· != '?'))
    query := partBehind '?' Percent.isEncodedInQuery beforeFragment
    fragment := partBehind '#' Percent.isEncodedInFragment rest }

def parse? (url : String) : Option Url :=
  ofChars? url.toList

/-! ## Writing -/

def credentialsText (c : Credentials) : List Char :=
  if c = noCredentials then []
  else c.user ++ (if c.password.isEmpty then [] else ':' :: c.password) ++ ['@']

/-- A part behind its mark, if it is there. -/
def partText (mark : Char) : Option (List Char) → List Char
  | none => []
  | some part => mark :: part

def chars (u : Url) : List Char :=
  u.scheme.text ++ ':' :: '/' :: '/' :: credentialsText u.credentials ++ u.host.text ++
    partText ':' (u.port.map Text.digits) ++ '/' :: Text.joinWith '/' u.path ++
    partText '?' u.query ++ partText '#' u.fragment

def text (u : Url) : String :=
  String.ofList u.chars

/-! ## Requests -/

def isText (cs : List Char) : Bool :=
  (Text.Utf8.decode? (Percent.decode cs)).isSome

/-- The URL without its credentials, which are sent in another place. They stay if they are no
text. -/
def withoutCredentials (u : Url) : Url :=
  let { user, password } := u.credentials
  if isText user && (!user.isEmpty || isText password) then { u with credentials := noCredentials }
  else u

/-- What a server is asked for: the URL without its credentials and its fragment. -/
def page (u : Url) : String :=
  { u with credentials := noCredentials, fragment := none }.text

/-- The greatest length of a URL that can be requested. -/
def lengthLimit : Nat := 65534

/-- Not every host name can be asked for a page. -/
def canBeRequested (u : Url) : Bool :=
  !u.host.text.any (fun c => c == '"' || c == '`' || c == '{' || c == '}') &&
    u.chars.length ≤ lengthLimit

theorem pathFrom_ne_nil {passed segments : List (List Char)}
    (h : passed ≠ [] ∨ segments ≠ []) : pathFrom passed segments ≠ [] := by
  induction segments generalizing passed with
  | nil => simpa [pathFrom] using h
  | cons segment rest ih =>
    simp only [pathFrom]
    split
    · exact ih (.inl (by simp))
    · split
      · simp
      · next hr => exact ih (.inr (by simpa using hr))

/-- Every path has a segment, if only an empty one. -/
theorem pathOf_ne_nil (cs : List Char) : pathOf cs ≠ [] :=
  pathFrom_ne_nil (.inr (by simp [Text.splitOn_ne_nil]))

end Url

end ModuleRig.Web
