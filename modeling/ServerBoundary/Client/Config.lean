import ServerBoundary.Json.Record

/-!
# The configuration of a client

Where payloads are served from, and whether fetches take part in hot reloading.
-/

namespace ServerBoundary.Client

/-- The configuration of a client. -/
structure ClientConfig where
  basePath : String := "/"
  rscBase : String := "RSC"
  hot : Bool := false
deriving DecidableEq, Repr

namespace ClientConfig

/-- How a configuration is read. -/
def record : Record ClientConfig where
  name := "struct ClientConfig"
  blank := {}
  fields := [
    .text "basePath" false fun c s => { c with basePath := s },
    .text "rscBase" false fun c s => { c with rscBase := s },
    .flag "hot" false fun c b => { c with hot := b }]

/-- The configuration that an environment gives; what it leaves out has its default. -/
def ofEnvironment (basePath rscBase : Option String) : ClientConfig :=
  let c : ClientConfig := {}
  { c with basePath := basePath.getD c.basePath, rscBase := rscBase.getD c.rscBase }

/-- The configuration as a JSON value. -/
def toJson (c : ClientConfig) : Json :=
  .object [("basePath", .string c.basePath), ("rscBase", .string c.rscBase), ("hot", .bool c.hot)]

/-- The address of an encoded path. -/
def url (c : ClientConfig) (encoded : String) : String := c.basePath ++ c.rscBase ++ "/" ++ encoded

end ClientConfig

end ServerBoundary.Client
