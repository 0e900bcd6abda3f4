import FaultCodec.Fault
import FaultCodec.Text.Blank

/-!
# HTTP statuses

Answers of HTTP servers are classified by their status: those from 400 to 599 are faults, whose text
is the status line and the trimmed body. In the other direction every kind has the status that a
proxy answers with. The two are not inverse to each other: 404 and 503 come back as internal faults.
-/

namespace FaultCodec
namespace Http

/-- An HTTP status has three digits. -/
structure Status where
  number : Nat
  valid : 100 ≤ number ∧ number ≤ 999 := by decide
  deriving Repr, DecidableEq

def Status.ofNumber? (n : Nat) : Option Status :=
  if h : 100 ≤ n ∧ n ≤ 999 then some ⟨n, h⟩ else none

/-- The reason phrases of the registered client and server errors. -/
def phrases : List (Nat × String) := [
  (400, "Bad Request"),
  (401, "Unauthorized"),
  (402, "Payment Required"),
  (403, "Forbidden"),
  (404, "Not Found"),
  (405, "Method Not Allowed"),
  (406, "Not Acceptable"),
  (407, "Proxy Authentication Required"),
  (408, "Request Timeout"),
  (409, "Conflict"),
  (410, "Gone"),
  (411, "Length Required"),
  (412, "Precondition Failed"),
  (413, "Payload Too Large"),
  (414, "URI Too Long"),
  (415, "Unsupported Media Type"),
  (416, "Range Not Satisfiable"),
  (417, "Expectation Failed"),
  (418, "I'm a teapot"),
  (421, "Misdirected Request"),
  (422, "Unprocessable Entity"),
  (423, "Locked"),
  (424, "Failed Dependency"),
  (425, "Too Early"),
  (426, "Upgrade Required"),
  (428, "Precondition Required"),
  (429, "Too Many Requests"),
  (431, "Request Header Fields Too Large"),
  (451, "Unavailable For Legal Reasons"),
  (500, "Internal Server Error"),
  (501, "Not Implemented"),
  (502, "Bad Gateway"),
  (503, "Service Unavailable"),
  (504, "Gateway Timeout"),
  (505, "HTTP Version Not Supported"),
  (506, "Variant Also Negotiates"),
  (507, "Insufficient Storage"),
  (508, "Loop Detected"),
  (510, "Not Extended"),
  (511, "Network Authentication Required")]

namespace Status

def phrase (s : Status) : String := (phrases.lookup s.number).getD "<unknown status code>"

/-- The number and the reason phrase. -/
def line (s : Status) : String := toString s.number ++ " " ++ s.phrase

/-- Client and server errors. -/
def isFault (s : Status) : Bool := 400 ≤ s.number && s.number ≤ 599

def kind (s : Status) : Kind :=
  match s.number with
  | 400 => .badRequest
  | 409 => .conflict
  | 422 => .unprocessableEntity
  | 429 => .rateLimited
  | 501 => .unimplemented
  | _ => .internal

/-- The text of a fault: the status line, followed by the body unless it is blank. -/
def text (s : Status) (body : String) : String :=
  let body := Text.trim body
  if body = "" then s.line else s.line ++ ": " ++ body

/-- The fault of an answer; none for informational answers, success and redirection. -/
def fault? (s : Status) (body : String) : Option Fault :=
  if s.isFault then some (.raise s.kind (s.text body)) else none

/-- The status that a proxy answers with for a kind. -/
def ofKind : Kind → Status
  | .internal => ⟨500, by decide⟩
  | .badRequest => ⟨400, by decide⟩
  | .requiresProxyRequest _ => ⟨404, by decide⟩
  | .rateLimited => ⟨429, by decide⟩
  | .disabled => ⟨503, by decide⟩
  | .unimplemented => ⟨501, by decide⟩
  | .unprocessableEntity => ⟨422, by decide⟩
  | .conflict => ⟨409, by decide⟩
  | .tooManyRequests => ⟨429, by decide⟩

theorem fault?_eq_none_iff (s : Status) (body : String) :
    s.fault? body = none ↔ s.isFault = false := by
  simp [fault?]

theorem isFault_ofKind (k : Kind) : (ofKind k).isFault = true := by
  cases k <;> rfl

end Status
end Http
end FaultCodec
