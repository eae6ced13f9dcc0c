import EndpointAtlas.Document.Address
import EndpointAtlas.Fault
import EndpointAtlas.Json.Reader
import EndpointAtlas.Text.Units

/-!
# Pages

A document can be fetched from an address. `Reply.document` reads the JSON document of a reply, or
says why there is none.
-/

namespace EndpointAtlas

/-- What comes back when an address is fetched. -/
inductive Reply where
  | page (status : Nat) (body : List UInt8)
  | failed (reason : String)
  | invalidUrl
  deriving Repr

namespace Page

/-- The phrases of status codes. -/
def phrases : List (Nat × String) :=
  [(100, "Continue"), (101, "Switching Protocols"), (102, "Processing"), (103, "Early Hints"),
    (200, "OK"), (201, "Created"), (202, "Accepted"), (203, "Non-Authoritative Information"),
    (204, "No Content"), (205, "Reset Content"), (206, "Partial Content"), (207, "Multi-Status"),
    (208, "Already Reported"), (226, "IM Used"), (300, "Multiple Choices"),
    (301, "Moved Permanently"), (302, "Found"), (303, "See Other"), (304, "Not Modified"),
    (305, "Use Proxy"), (307, "Temporary Redirect"), (308, "Permanent Redirect"),
    (400, "Bad Request"), (401, "Unauthorized"), (402, "Payment Required"), (403, "Forbidden"),
    (404, "Not Found"), (405, "Method Not Allowed"), (406, "Not Acceptable"),
    (407, "Proxy Authentication Required"), (408, "Request Timeout"), (409, "Conflict"),
    (410, "Gone"), (411, "Length Required"), (412, "Precondition Failed"),
    (413, "Request Entity Too Large"), (414, "Request-URI Too Long"),
    (415, "Unsupported Media Type"), (416, "Requested Range Not Satisfiable"),
    (417, "Expectation Failed"), (418, "I'm a teapot"), (421, "Misdirected Request"),
    (422, "Unprocessable Entity"), (423, "Locked"), (424, "Failed Dependency"), (425, "Too Early"),
    (426, "Upgrade Required"), (428, "Precondition Required"), (429, "Too Many Requests"),
    (431, "Request Header Fields Too Large"), (451, "Unavailable For Legal Reasons"),
    (500, "Internal Server Error"), (501, "Not Implemented"), (502, "Bad Gateway"),
    (503, "Service Unavailable"), (504, "Gateway Timeout"), (505, "HTTP Version Not Supported"),
    (506, "Variant Also Negotiates"), (507, "Insufficient Storage"), (508, "Loop Detected"),
    (510, "Not Extended"), (511, "Network Authentication Required")]

/-- Whether a status code stands for success. -/
def isSuccess (status : Nat) : Bool := 200 ≤ status && status < 300

/-- The class of a status code that does not stand for success. -/
def statusClass (status : Nat) : String :=
  match status / 100 with
  | 1 => "Informational response"
  | 3 => "Redirect response"
  | 4 => "Client error"
  | 5 => "Server error"
  | _ => "Invalid status code"

/-- What addresses of pages start with: plain and secure transport. -/
def schemes : List String := ["http://", "https://"]

/-- Where status codes are explained: a host and a path. -/
def reference : String := "developer.mozilla.org/en-US/docs/Web/HTTP/Status/"

/-- Why a page with a status code is not used. -/
def statusText (address : Address) (status : Nat) : String :=
  statusClass status ++ " '" ++ toString status ++ " " ++ (phrases.lookup status).getD "" ++
    "' for url '" ++ String.ofList address.text ++ "'\nFor more information check: https://" ++
    reference ++ toString status

/-- The JSON value that bytes write. -/
def json? (body : List UInt8) : Option Value := do Json.read? (← Text.ofBytes body)

end Page

/-- The document of a reply from an address. -/
def Reply.document (url : String) : Reply → Except Fault Value
  | .invalidUrl => .error .invalidUrl
  | .failed reason => .error (.document (.fetchFailed url reason))
  | .page status body =>
    match Address.ofText? url.toList with
    | none => .error .invalidUrl
    | some address =>
      if Page.isSuccess status then
        match Page.json? body with
        | some v => .ok v
        | none => .error (.document (.notJson url))
      else .error (.document (.fetchFailed url (Page.statusText address status)))

end EndpointAtlas
