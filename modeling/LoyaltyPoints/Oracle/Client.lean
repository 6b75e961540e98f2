import LoyaltyPoints.Error
import LoyaltyPoints.Oracle.Address
import LoyaltyPoints.Oracle.Codec
import LoyaltyPoints.Retry
import LoyaltyPoints.Text.Utf8
import LoyaltyPoints.Url.Reader

/-! # Oracle: asking it over HTTP

    One request asks for one order. An answer with status 204 means that the oracle does not know
    the order, and any other success carries the answer as JSON. Every other status is a failure,
    and so are a connection that breaks and an answer that is late. Failures of the transport are
    retried until the head of the answer is there; what goes wrong behind it is not. -/

namespace LoyaltyPoints.Oracle

/-- The name of the oracle in errors. -/
def serviceName : String := "accrual"

/-! ## One exchange -/

/-- How a server ends an exchange. -/
inductive Manner where
  /-- It answers. -/
  | whole
  /-- It closes the connection without an answer. -/
  | close
  /-- It never answers. -/
  | stall
  /-- It closes the connection before the end of the body. -/
  | cut
  /-- It never comes to the end of the body. -/
  | stallBody
deriving DecidableEq, Repr

/-- What a server does with one connection. -/
structure Reply where
  manner : Manner := .whole
  status : Nat := 200
  body : List UInt8 := []
deriving DecidableEq, Repr

/-- The failure of a request that brought no answer. -/
def sendFailure (url : String) : SystemError :=
  .external serviceName ("error sending request for url (" ++ url ++ ")")

/-- The failure of an answer whose body is no answer of the oracle. -/
def bodyFailure : SystemError := .internal "accrual 响应解析失败: error decoding response body"

/-- Whether a status announces another one; 101 does not. -/
def isInterim (status : Nat) : Bool := 100 ≤ status && status < 200 && status != 101

/-- What an exchange about an order comes to. -/
def Reply.outcome (number url : String) (r : Reply) : Except SystemError Answer :=
  if r.manner = .close then .error (sendFailure url)
  else if r.manner = .stall then .error (.externalTimeout serviceName)
  else if r.status < 100 ∨ 999 < r.status then .error (sendFailure url)
  else if isInterim r.status then
    if r.manner = .stallBody ∧ r.body = [] then .error (.externalTimeout serviceName)
    else .error (sendFailure url)
  else if r.status = 204 then .ok (.unregistered number)
  else if r.status < 200 ∨ 300 ≤ r.status then .error (.externalStatus serviceName r.status)
  else if r.manner ≠ .whole then .error bodyFailure
  else match Answer.ofSymbols? (Text.symbols r.body) with
    | some a => .ok a
    | none => .error bodyFailure

/-! ## Where requests go -/

/-- Whether the host of a url can stand in a request. -/
def isSendable (u : Url) : Bool :=
  !u.authority.any fun c => ['"', '\x60', '\x7b', '\x7d'].contains c

/-- The url at which an order is asked for, or why there is no request. -/
def requestUrl (base number : String) : Except SystemError Url :=
  match Url.read (orderAddress base number) with
  | .error _ => .error (.external serviceName "builder error")
  | .ok u =>
    let scheme := String.ofList u.scheme
    if (scheme = "http" ∨ scheme = "https") ∧ isSendable u then .ok u
    else .error (.external serviceName ("builder error for url (" ++ u.toText ++ ")"))

/-- A server: where it listens and what it does with each connection; the last reply repeats. -/
structure Server where
  address : String
  first : Reply
  others : List Reply

/-- What the server does with connection `k`. -/
def Server.reply (s : Server) (k : Nat) : Reply :=
  ((s.first :: s.others)[k]?).getD ((s.others.getLast?).getD s.first)

/-- Whether requests for a url reach a server. -/
def Server.serves (s : Server) (u : Url) : Bool :=
  String.ofList u.scheme = "http" && String.ofList u.authority = s.address

/-! ## One order -/

/-- What came of asking for one order. -/
structure Query where
  run : Retry.Run SystemError Answer
  /-- What was asked for from the server, request by request. -/
  requests : List String

/-- Asks for an order while the server, if there is one, has seen `used` connections. -/
def ask (policy : RetryPolicy) (server : Option Server) (base : String) (used : Nat)
    (number : String) : Query :=
  match requestUrl base number with
  | .error e => ⟨Retry.run policy SystemError.isRetryable fun _ => .error e, []⟩
  | .ok u =>
    match server.filter (·.serves u) with
    | some s =>
      let run := Retry.run policy SystemError.isRetryable fun k =>
        (s.reply (used + k)).outcome number u.toText
      ⟨run, List.replicate run.calls ("GET " ++ String.ofList u.target)⟩
    | none => ⟨Retry.run policy SystemError.isRetryable fun _ => .error (sendFailure u.toText), []⟩

/-- Asks for one order after another, while the server has seen `used` connections. -/
def askAll (policy : RetryPolicy) (server : Option Server) (base : String) :
    (used : Nat) → List String → List Query
  | _, [] => []
  | used, number :: numbers =>
    let q := ask policy server base used number
    q :: askAll policy server base (used + q.requests.length) numbers

end LoyaltyPoints.Oracle
