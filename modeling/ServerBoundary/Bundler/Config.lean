import ServerBoundary.Data.OrderedMap
import ServerBoundary.Json.Record

/-!
# The configuration of a bundler plugin

What a bundler says about the build, and what fixed ids say about a single module.
-/

namespace ServerBoundary.Bundler

/-- Entry files as a bundler writes them. Only the keyed form gives modules their ids. -/
inductive EntryFiles where
  | keyed (files : OrderedMap String)
  | list (files : List String)
  | single (file : String)

/-- The texts of fields, if all are texts. -/
def textFields? : List (String × Json) → Option (List (String × String))
  | [] => some []
  | (k, .string s) :: rest => (textFields? rest).map ((k, s) :: ·)
  | _ => none

/-- The texts of items, if all are texts. -/
def textItems? : List Json → Option (List String)
  | [] => some []
  | .string s :: rest => (textItems? rest).map (s :: ·)
  | _ => none

/-- Reads entry files; `null` stands for none. -/
def EntryFiles.read : Json → Except RecordFault (Option EntryFiles)
  | .null => .ok none
  | .string s => .ok (some (.single s))
  | .object fields => found ((textFields? fields).map fun fs => .keyed (.ofList fs))
  | .array items => found ((textItems? items).map .list)
  | _ => found none
where
  /-- The form that was recognised. -/
  found : Option EntryFiles → Except RecordFault (Option EntryFiles)
    | some files => .ok (some files)
    | none => .error (.noVariant "untagged enum EntryFiles")

/-- The configuration of a plugin. -/
structure Config where
  /-- The plugin works on the modules of the browser. -/
  isClient : Bool := false
  /-- The plugin works for a build and not for a development server. -/
  isBuild : Bool := false
  clientEntryFiles : Option EntryFiles := none
  serverEntryFiles : Option EntryFiles := none
  /-- Remember under which specifier a module was first imported. -/
  trackResolved : Bool := false
  /-- Keep the values a client module shares with the server without registering them. -/
  bare : Bool := false

/-- How a configuration is read. -/
def Config.record : Record Config where
  name := "struct Config"
  blank := {}
  fields := [
    .flag "isClient" true fun c b => { c with isClient := b },
    .flag "isBuild" true fun c b => { c with isBuild := b },
    ⟨"clientEntryFiles", false,
      fun c v => (EntryFiles.read v).map fun f => { c with clientEntryFiles := f }⟩,
    ⟨"serverEntryFiles", false,
      fun c v => (EntryFiles.read v).map fun f => { c with serverEntryFiles := f }⟩,
    .flag "trackResolved" false fun c b => { c with trackResolved := b },
    .flag "dceOnly" false fun c b => { c with bare := b }]

/-- Fixed ids for a single module. -/
structure FixedIds where
  clientId : String := ""
  serverId : String := ""
  bare : Bool := false

/-- How fixed ids are read. -/
def FixedIds.record : Record FixedIds where
  name := "struct Config"
  blank := {}
  fields := [
    .text "clientId" true fun c s => { c with clientId := s },
    .text "serverId" true fun c s => { c with serverId := s },
    .flag "dceOnly" false fun c b => { c with bare := b }]

end ServerBoundary.Bundler
