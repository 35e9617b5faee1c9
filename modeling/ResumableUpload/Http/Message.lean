import ResumableUpload.Http.Url

/-!
# Requests and responses

What a client sends to a server, and what it gets back. The names of headers are in lower case.
-/

namespace ResumableUpload.Http

/-- What is to be done with a resource. -/
inductive Method
  | get
  | put
  | post
  | delete
  deriving DecidableEq, Repr

def Method.name : Method → String
  | .get => "GET"
  | .put => "PUT"
  | .post => "POST"
  | .delete => "DELETE"

/-- A header: a name in lower case, and a value. -/
abbrev Header := String × String

/-- May the text be the value of a header? No control character may stand in it but the tab. -/
def isHeaderValue (value : String) : Bool :=
  value.toList.all fun c => c == '\t' || (' ' ≤ c && c != '\x7f')

/-- The first value of a header. -/
def header? (name : String) (headers : List Header) : Option String := headers.lookup name

/-- A request. -/
structure Request where
  method : Method
  url : Url
  headers : List Header
  body : Bytes
  deriving DecidableEq, Repr

/-- A response. -/
structure Response where
  status : Nat
  headers : List Header
  body : String
  deriving DecidableEq, Repr

namespace Response

/-- Has the request been granted? -/
def isSuccess (r : Response) : Bool := 200 ≤ r.status && r.status < 300

/-- What arrives of a reply. One whose status is not of three digits or whose headers are malformed
is none, an interim reply is none either, and some replies never have a body. -/
def received (r : Response) : Option Response :=
  if r.status < 100 ∨ 999 < r.status ∨ ¬ r.headers.all fun h => isHeaderValue h.2 then none
  else if r.status = 101 then some { r with body := "" }
  else if r.status < 200 then none
  else if r.status = 204 ∨ r.status = 304 then some { r with body := "" }
  else some r

end Response

end ResumableUpload.Http
