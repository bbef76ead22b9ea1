import ServerBoundary.Boundary.Transform
import ServerBoundary.Bundler.Config
import ServerBoundary.Bundler.Path

/-!
# The transforms as a bundler plugin

A plugin decides which transform a file gets and under which ids, and on a development server it
remembers under which specifier each module was first imported. What the bundler resolves is a
parameter: resolving a specifier needs one answer of the bundler at most.
-/

namespace ServerBoundary.Bundler

open Boundary

/-- Why a configuration makes no plugin. -/
inductive PluginError where
  /-- The files of an option are not keyed. -/
  | notKeyed (option : String)
  /-- A build needs the option. -/
  | missing (option : String)
deriving DecidableEq, Repr

/-- The wording of an error. -/
def PluginError.message : PluginError → String
  | notKeyed option => option ++ ": string/array input is unsupported"
  | missing option => option ++ " is required for builds"

/-- The entry files of an option by their ids. -/
def entryMap (files : Option EntryFiles) (option : String) (required : Bool) :
    Except PluginError (OrderedMap String) :=
  match files with
  | some (.keyed m) => .ok m
  | some _ => .error (.notKeyed option)
  | none => if required then .error (.missing option) else .ok .empty

/-- A plugin for one module graph. -/
structure Plugin where
  isClient : Bool
  isBuild : Bool
  /-- Keep the values a client module shares with the server without registering them. -/
  bare : Bool
  clientEntries : OrderedMap String
  serverEntries : OrderedMap String
  /-- The specifier under which each resolved module was first imported, if that is tracked. -/
  sources : Option (OrderedMap String)

/-- The extensions of the files that are looked at. -/
def extensions : List String := [".js", ".ts", ".tsx", ".jsx", ".mjs", ".cjs"]

namespace Plugin

/-- The plugin of a configuration. -/
def ofConfig (c : Config) : Except PluginError Plugin := do
  let clientEntries ← entryMap c.clientEntryFiles "clientEntryFiles" (c.isBuild && !c.isClient)
  let serverEntries ← entryMap c.serverEntryFiles "serverEntryFiles" c.isBuild
  return {
    isClient := c.isClient, isBuild := c.isBuild, bare := c.bare, clientEntries, serverEntries
    sources := if !c.isClient && !c.isBuild && c.trackResolved then some .empty else none }

/-- The first id of a file among entry files. -/
def entryId? (entries : OrderedMap String) (file : String) : Option String :=
  (entries.entries.find? fun e => e.2 == file).map Prod.fst

/-- The id of a module that runs on the server. -/
def serverId (p : Plugin) (file : String) : ModuleId :=
  if !p.isBuild then .ok (stripQuery file)
  else
    match entryId? p.serverEntries file with
    | some id => .ok id
    | none => .error (.unknownServer file)

/-- The id of a module that runs in the browser. -/
def clientId (p : Plugin) (file : String) : ModuleId :=
  if p.isClient then .error .clientGraph
  else if !p.isBuild then .ok (stripQuery file)
  else
    match entryId? p.clientEntries file with
    | some id => .ok id
    | none => .error (.unknownClient file)

/-- Whether a file is looked at. A development server adds queries to ids. -/
def handles (p : Plugin) (file : String) : Bool :=
  extensions.contains (extension (if p.isBuild then file else stripQuery file))

/-- A source as the plugin's graph sees it, or nothing if it is left alone. -/
def transform (p : Plugin) (file source : String) (rendering : Bool) :
    Except TransformError (Option String) :=
  if !p.handles file then .ok none
  else if p.isClient then
    if rendering then transformRendering file source
    else transformClient (p.serverId file) file source
  else if rendering then
    transformServer
      { clientId := p.clientId file, serverId := p.serverId file, bare := p.bare } file source
  else .ok none

/-- What the bundler is asked. -/
structure Query where
  specifier : String
  importer : Option String
deriving DecidableEq, Repr

/-- What a specifier in an importing module has to do with the plugin. -/
inductive Resolution where
  /-- Nothing. -/
  | ignored
  /-- The bundler's answer to a question is the answer. -/
  | forwarded (query : Query)
  /-- The bundler's answer is remembered, and left to the bundler. -/
  | tracked (query : Query) (source : String)
deriving DecidableEq, Repr

/-- Whether a specifier is relative to its importer. -/
def isRelative (specifier : String) : Bool :=
  ["./", "../"].any fun start => (Text.dropStart? start.toList specifier.toList).isSome

/-- The module that a specifier names, as far as that can be told without resolving it. -/
def sourceId (q : Query) : String :=
  match q.importer with
  | some importer =>
    if isRelative q.specifier then joinPath [stripQuery importer, "..", q.specifier]
    else q.specifier
  | none => q.specifier

/-- What is done about a specifier. -/
def resolution (p : Plugin) (q : Query) : Resolution :=
  if p.isBuild then .ignored
  else
    match Text.dropStart? "/@id/".toList q.specifier.toList with
    | some rest => .forwarded { q with specifier := String.ofList rest }
    | none =>
      match Text.dropStart? "/@fs/".toList q.specifier.toList with
      | some rest => .forwarded { q with specifier := String.ofList ('/' :: rest) }
      | none => if p.sources.isSome then .tracked q (sourceId q) else .ignored

/-- The plugin after a module turned out to be what a source id names. The first source id that
differs from the module stays. -/
def remember (p : Plugin) (source : String) : Option String → Plugin
  | none => p
  | some resolved =>
    let id := stripQuery resolved
    if id == source then p
    else { p with sources := p.sources.map fun m => m.insertNew id source }

/-- The answer of a bundler. -/
abbrev Answer (ε : Type) := Except ε (Option String)

/-- Resolves a specifier: the plugin afterwards, what the bundler was asked, and the answer. -/
def resolve {ε : Type} (p : Plugin) (bundler : Query → Answer ε) (q : Query) :
    Plugin × List Query × Answer ε :=
  match p.resolution q with
  | .ignored => (p, [], .ok none)
  | .forwarded q' => (p, [q'], bundler q')
  | .tracked q' source =>
    match bundler q' with
    | .ok resolved => (p.remember source resolved, [q'], .ok none)
    | .error e => (p, [q'], .error e)

end Plugin

end ServerBoundary.Bundler
