import ServerBoundary.Client.RscPath
import ServerBoundary.Json.Read

/-!
# What can go wrong in a client
-/

namespace ServerBoundary.Client

/-- Why a payload holds no elements. -/
inductive PayloadFault where
  | notJson (e : JsonError)
  | notObject
deriving DecidableEq, Repr

/-- The wording of a fault. -/
def PayloadFault.message : PayloadFault → String
  | notJson e => e.message
  | notObject => "RSC payload must be an object of elements"

/-- An error of a client. -/
inductive RscError where
  /-- A response that is no success. Its message is its body, or its status text if that is empty. -/
  | status (code : Nat) (location : Option String) (message : String)
  /-- A slot without an element. -/
  | invalidElement (id : String)
  /-- A slot whose element is there but undefined. -/
  | undefinedElement (id : String)
  /-- A slot outside of a root. -/
  | missingRoot
  | invalidPath (fault : PathFault)
  | invalidFunctionId (fault : FunctionIdFault)
  /-- A request that got no response; the causes are listed from the outside in. -/
  | transport (causes : List String)
  | payload (fault : PayloadFault)
deriving DecidableEq, Repr

/-- The wording of an error. -/
def RscError.message : RscError → String
  | status _ _ message => message
  | invalidElement id => "Invalid element: " ++ id
  | undefinedElement id => "Element cannot be undefined, use null instead: " ++ id
  | missingRoot => "Missing Root component"
  | invalidPath fault => "Invalid RSC path: " ++ fault.message
  | invalidFunctionId fault => "Invalid function id: " ++ fault.message
  | transport causes => "Failed to fetch RSC payload: " ++ ": ".intercalate causes
  | payload fault => "Failed to decode RSC payload: " ++ fault.message

end ServerBoundary.Client
