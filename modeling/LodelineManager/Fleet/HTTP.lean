import LodelineManager.Fleet.Retry

/-!
# The HTTP client of the fleet API

One request and the mapping of its outcome to a value or an error.  The transport
({lit}`http.Client.Do`), the parsing of a URL and the decoding of JSON belong to other
packages and are fields of the client.
-/

namespace LodelineManager
namespace Fleet

open Go Foundation

abbrev Bytes := List UInt8

structure Request where
  method : String
  url : String
  authorization : Option String
  deriving DecidableEq

/-- A response whose body broke off with an error has that error besides the bytes
that came before it. -/
structure Response where
  status : Nat
  retryAfter : String
  body : Bytes
  bodyErr : Option GoErr

/-- The client and what it calls outside the package: {lit}`newRequest` is the error of
{lit}`http.NewRequestWithContext`, {lit}`send` is {lit}`httpClient.Do`,
{lit}`decodeAPIError` finds the code and message of an error body. -/
structure HTTPClient where
  baseURL : String
  token : String
  newRequest : String -> Option GoErr
  send : Request -> Except GoErr Response
  decodeAPIError : Bytes -> Option (String × String)
  bodyText : Bytes -> String

/-- {lit}`json.NewDecoder(resp.Body).Decode(&out)`: the first value of the bytes, else the
error of the body when it broke off. -/
def decodeBody {value : Type} (decode : Bytes -> Except GoErr value) (resp : Response) :
    Except GoErr value :=
  match decode resp.body with
  | .ok v => .ok v
  | .error e => .error (resp.bodyErr.getD e)

/-- {lit}`unicode.IsSpace`, which {lit}`strings.TrimSpace` asks. -/
def isSpace (c : Char) : Bool :=
  decide (9 <= c.toNat ∧ c.toNat <= 13 ∨ 0x2000 <= c.toNat ∧ c.toNat <= 0x200a) ||
    decide (c.toNat ∈ [0x20, 0x85, 0xA0, 0x1680, 0x2028, 0x2029, 0x202f, 0x205f, 0x3000])

def trimSpace (s : List Char) : List Char :=
  ((s.dropWhile isSpace).reverse.dropWhile isSpace).reverse

/-- {lit}`strconv.Atoi` on a 64-bit machine. -/
def atoi (s : List Char) : Option Int :=
  let magnitude (digits : List Char) : Option Int :=
    if digits.isEmpty then none else (readDigits digits).map (fun n => (n : Int))
  let parsed : Option Int :=
    match s with
    | '-' :: digits => (magnitude digits).map (fun n => -n)
    | '+' :: digits => magnitude digits
    | digits => magnitude digits
  match parsed with
  | none => none
  | some n => if -(2 ^ 63) <= n && n < 2 ^ 63 then some n else none

def parseRetryAfter (v : String) : Int :=
  if v = "" then 5 * second
  else
    match atoi (trimSpace v.toList) with
    | none => 5 * second
    | some n => if n < 0 then 5 * second else wrap64 (n * second)

namespace HTTPClient

/-- The error of a status that has no meaning of its own; the rest of a body that
broke off is ignored. -/
def parseAPIError (c : HTTPClient) (resp : Response) : GoErr :=
  match c.decodeAPIError resp.body with
  | some (code, message) =>
      if code ≠ "" then .api resp.status code message
      else .api resp.status "unknown" (String.ofList (trimSpace (c.bodyText resp.body).toList))
  | none =>
      .api resp.status "unknown" (String.ofList (trimSpace (c.bodyText resp.body).toList))

/-- {lit}`doJSON`; {lit}`query` is the encoded query, empty when there are no parameters. -/
def doJSON {value : Type} (c : HTTPClient) (decode : Bytes -> Except GoErr value)
    (method path query : String) (auth : Bool) : Except GoErr value :=
  let u := if query = "" then c.baseURL ++ path else c.baseURL ++ path ++ "?" ++ query
  match c.newRequest u with
  | some e => .error (.wrap "fleet: build request" e)
  | none =>
      match c.send
          { method := method, url := u,
            authorization := if auth then some ("Bearer " ++ c.token) else none } with
      | .error e => .error (.wrap ("fleet: " ++ method ++ " " ++ path) e)
      | .ok resp =>
          if resp.status = 200 then
            match decodeBody decode resp with
            | .error e => .error (.wrap ("fleet: decode " ++ path) e)
            | .ok v => .ok v
          else if resp.status = 401 then .error (.sentinel errUnauthorized)
          else if resp.status = 404 then .error (.sentinel errReadAPIDisabled)
          else if resp.status = 503 then
            .error (.serviceUnavailable (parseRetryAfter resp.retryAfter))
          else .error (c.parseAPIError resp)

def notFoundByID {value : Type} (out : Except GoErr value) : Except GoErr value :=
  match out with
  | .error e => if e.is errReadAPIDisabled then .error (.sentinel errNotFound) else .error e
  | .ok v => .ok v

section

variable {value : Type} (c : HTTPClient) (decode : Bytes -> Except GoErr value)
  (pathEscape : String -> String)

def healthz : Except GoErr value := c.doJSON decode "GET" "/v1/healthz" "" false

def serverMeta : Except GoErr value := c.doJSON decode "GET" "/v1/meta" "" true

def policyMeta : Except GoErr value := c.doJSON decode "GET" "/v1/policy/meta" "" true

def events (query : String) : Except GoErr value :=
  c.doJSON decode "GET" "/v1/events" query true

def eventByID (eventID : String) : Except GoErr value :=
  notFoundByID (c.doJSON decode "GET" ("/v1/events/" ++ pathEscape eventID) "" true)

def fleetHosts (query : String) : Except GoErr value :=
  c.doJSON decode "GET" "/v1/fleet/hosts" query true

def fleetHostByID (hostID : String) : Except GoErr value :=
  notFoundByID (c.doJSON decode "GET" ("/v1/fleet/hosts/" ++ pathEscape hostID) "" true)

def fleetRisk (query : String) : Except GoErr value :=
  c.doJSON decode "GET" "/v1/fleet/risk" query true

def fleetCompliance (query : String) : Except GoErr value :=
  c.doJSON decode "GET" "/v1/fleet/compliance" query true

end

end HTTPClient

/-- The methods of the client with their parameters. -/
inductive Endpoint where
  | healthz
  | serverMeta
  | policyMeta
  | events (query : String)
  | eventByID (eventID : String)
  | fleetHosts (query : String)
  | fleetHostByID (hostID : String)
  | fleetRisk (query : String)
  | fleetCompliance (query : String)

/-- One upstream call. -/
def HTTPClient.call {value : Type} (c : HTTPClient) (decode : Bytes -> Except GoErr value)
    (pathEscape : String -> String) : Endpoint -> Except GoErr value
  | .healthz => c.healthz decode
  | .serverMeta => c.serverMeta decode
  | .policyMeta => c.policyMeta decode
  | .events query => c.events decode query
  | .eventByID eventID => c.eventByID decode pathEscape eventID
  | .fleetHosts query => c.fleetHosts decode query
  | .fleetHostByID hostID => c.fleetHostByID decode pathEscape hostID
  | .fleetRisk query => c.fleetRisk decode query
  | .fleetCompliance query => c.fleetCompliance decode query

example : parseRetryAfter " 7 " = 7 * second := by decide

end Fleet
end LodelineManager
