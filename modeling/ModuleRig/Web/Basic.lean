import ModuleRig.Text.Numeral
import ModuleRig.Text.Utf8
import ModuleRig.Web.Url

/-!
# The web

What a request for a URL meets, and what a client makes of it: content, nothing, or a failure. A
missing page is not a failure. Redirects are the client's own matter: a reply is what it ends with
when it has followed them.
-/

namespace ModuleRig

/-- What the client ends with, behind any redirects. -/
inductive Web.Reply where
  /-- There is no connection. -/
  | refused
  /-- The connection closes before any answer. -/
  | dropped
  /-- An answer. If it is not whole, its connection closes within the body. -/
  | answered (status : Nat) (body : Bytes) (whole : Bool)
deriving DecidableEq, Repr

/-- The replies to the pages that are known, and the one to all others. -/
structure Web where
  routes : List (String × Web.Reply)
  otherwise : Web.Reply
deriving Repr

namespace Web

/-- A web that nothing can be reached on. -/
def unreachable : Web := ⟨[], .refused⟩

def reply (web : Web) (page : String) : Reply :=
  (web.routes.lookup page).getD web.otherwise

/-! ## What a client makes of a reply -/

def reasonPhrases : List (Nat × String) :=
  [(100, "Continue"), (101, "Switching Protocols"), (102, "Processing"), (200, "OK"),
   (201, "Created"), (202, "Accepted"), (203, "Non Authoritative Information"),
   (204, "No Content"), (205, "Reset Content"), (206, "Partial Content"), (207, "Multi-Status"),
   (208, "Already Reported"), (226, "IM Used"), (300, "Multiple Choices"),
   (301, "Moved Permanently"), (302, "Found"), (303, "See Other"), (304, "Not Modified"),
   (305, "Use Proxy"), (307, "Temporary Redirect"), (308, "Permanent Redirect"),
   (400, "Bad Request"), (401, "Unauthorized"), (402, "Payment Required"), (403, "Forbidden"),
   (404, "Not Found"), (405, "Method Not Allowed"), (406, "Not Acceptable"),
   (407, "Proxy Authentication Required"), (408, "Request Timeout"), (409, "Conflict"),
   (410, "Gone"), (411, "Length Required"), (412, "Precondition Failed"),
   (413, "Payload Too Large"), (414, "URI Too Long"), (415, "Unsupported Media Type"),
   (416, "Range Not Satisfiable"), (417, "Expectation Failed"), (418, "I'm a teapot"),
   (421, "Misdirected Request"), (422, "Unprocessable Entity"), (423, "Locked"),
   (424, "Failed Dependency"), (425, "Too Early"), (426, "Upgrade Required"),
   (428, "Precondition Required"), (429, "Too Many Requests"),
   (431, "Request Header Fields Too Large"), (451, "Unavailable For Legal Reasons"),
   (500, "Internal Server Error"), (501, "Not Implemented"), (502, "Bad Gateway"),
   (503, "Service Unavailable"), (504, "Gateway Timeout"), (505, "HTTP Version Not Supported"),
   (506, "Variant Also Negotiates"), (507, "Insufficient Storage"), (508, "Loop Detected"),
   (510, "Not Extended"), (511, "Network Authentication Required")]

def statusText (code : Nat) : String :=
  Text.decimal code ++ " " ++ (reasonPhrases.lookup code).getD "<unknown status code>"

def isSuccess (code : Nat) : Bool :=
  200 ≤ code && code < 300

def notFoundStatus : Nat := 404

inductive Problem where
  /-- There was no answer, or only a part of one. -/
  | transport (reason : String)
  | status (code : Nat)
deriving DecidableEq, Repr

def Problem.reason : Problem → String
  | .transport reason => reason
  | .status code => "status " ++ statusText code

/-- The reason of a request that is not made, since its URL cannot be read. -/
def unreadable : Problem :=
  .transport "builder error"

/-- The reason of a request that is not made, since its URL has a host that cannot be asked. -/
def unaskable (url : Url) : Problem :=
  .transport ("builder error for url (" ++ url.text ++ ")")

def noAnswer (url : Url) : Problem :=
  .transport ("error sending request for url (" ++ url.text ++ ")")

/-- The reason of an answer whose body could not be read to its end. -/
def brokenBody : Problem :=
  .transport "error decoding response body"

/-- What a client makes of the reply to a URL. -/
def Reply.content? (url : Url) : Reply → Except Problem (Option Bytes)
  | .refused => .error (noAnswer url)
  | .dropped => .error (noAnswer url)
  | .answered code body whole =>
    if code = notFoundStatus then .ok none
    else if !isSuccess code then .error (.status code)
    else if whole then .ok (some body)
    else .error brokenBody

def content? (web : Web) (url : String) : Except Problem (Option Bytes) :=
  match Url.parse? url with
  | none => .error unreadable
  | some u =>
    let shown := u.withoutCredentials
    if shown.canBeRequested then (web.reply shown.page).content? shown
    else .error (unaskable shown)

/-- The page that a server sees asked for, if the request gets as far as that. -/
def seen? (web : Web) (url : String) : Option String := do
  let asked ← Url.parse? url
  if asked.withoutCredentials.canBeRequested && web.reply asked.page != .refused then
    some asked.page
  else none

end Web

end ModuleRig
