import ServerBoundary.Client.Codec
import ServerBoundary.Client.Config

/-!
# Requests and responses

What a client sends for a path and its parameters, and what it makes of a response.
-/

namespace ServerBoundary.Client

/-- The parameters of a request. -/
inductive Params where
  /-- A query, which is sent with the address. -/
  | query (text : String)
  /-- A value, which is sent as the body. -/
  | value (v : Json)

/-- Whether two parameters are equal. -/
def Params.same : Params → Params → Bool
  | query a, query b => a == b
  | value a, value b => a.same b
  | _, _ => false

/-- Whether parameters are equal, or missing in both cases. -/
def sameParams : Option Params → Option Params → Bool
  | none, none => true
  | some p, some q => p.same q
  | _, _ => false

/-- The value of parameters as an argument of a server function. -/
def Params.argument : Params → Json
  | query text => .string text
  | value v => v

/-- The parameters of a call: a single query is sent as it is, and anything else as the list of
arguments. -/
def Params.ofArguments : List Params → Params
  | [.query text] => .query text
  | args => .value (.array (args.map Params.argument))

/-- How a request is sent. -/
inductive Method where
  | get
  | post
deriving DecidableEq, Repr

/-- A request. -/
structure Request where
  method : Method
  url : String
  body : Option (List UInt8)
deriving DecidableEq, Repr

namespace Request

/-- A request without a body. -/
def get (url : String) : Request := ⟨.get, url, none⟩

/-- A request with a body. -/
def post (url : String) (body : List UInt8) : Request := ⟨.post, url, some body⟩

/-- The request for a path with parameters. -/
def ofPath (config : ClientConfig) (path : String) (params : Option Params) :
    Except PathFault Request := do
  let url := config.url (← RscPath.encode path)
  return match params with
    | none => get url
    | some (.query text) => get (url ++ "?" ++ text)
    | some (.value v) => post url (encodeReply {} v)

end Request

/-- A response. -/
structure Response where
  status : Nat := 200
  statusText : String := "OK"
  location : Option String := none
  body : List UInt8 := []
deriving DecidableEq, Repr

namespace Response

/-- Whether a response is a success. -/
def isOk (r : Response) : Bool := 200 ≤ r.status && r.status < 300

/-- The body as text. -/
def bodyText (r : Response) : String := Text.Utf8.decodeLossy r.body

/-- A response that is a success, or its error. -/
def checkStatus (r : Response) : Except RscError Response :=
  if r.isOk then .ok r
  else
    let text := r.bodyText
    .error (.status r.status r.location (if text.isEmpty then r.statusText else text))

/-- The elements in the body of a response. -/
def elements (r : Response) : Except RscError Elements :=
  match decodeElements {} r.body with
  | .ok e => .ok e
  | .error f => .error (.payload f)

end Response

end ServerBoundary.Client
