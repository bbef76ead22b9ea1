import ServerBoundary.Bundler.Plugin
import ServerBoundary.Proofs.Client.RequestPath
import ServerBoundary.Proofs.References.ReferenceId

/-!
# Functions are told apart on the wire

A build gives each module the first key of its file among the entry files, and a development server
gives it its file without the query. The id of a function is made of the id of its module and its own
name, and what is sent is the path of this id.

> `function_paths_tell_functions_apart`: functions with one path have one name and are functions of
> one module, which a development server may know under several queries.
-/

namespace ServerBoundary.Bundler

open Boundary Client

/-- An id is that of one file. -/
theorem Plugin.entryId?_inj {entries : OrderedMap String} {file file' id : String}
    (h : Plugin.entryId? entries file = some id) (h' : Plugin.entryId? entries file' = some id) :
    file = file' := by
  -- The key leads back to the file, because no key occurs twice.
  have hback : ∀ {f : String}, Plugin.entryId? entries f = some id →
      lookupKey id entries.entries = some f := by
    intro f hf
    obtain ⟨e, he, rfl⟩ := Option.map_eq_some_iff.mp hf
    have hfile : e.2 = f := by simpa using List.find?_some he
    rw [← hfile]
    exact lookupKey_of_mem entries.nodup (List.mem_of_find?_eq_some he)
  exact Option.some.inj ((hback h).symm.trans (hback h'))

/-- Two files with one id are one file in a build, and on a development server they differ in their
query at most. -/
theorem Plugin.serverId_inj {p : Plugin} {file file' id : String} (h : p.serverId file = .ok id)
    (h' : p.serverId file' = .ok id) :
    if p.isBuild then file = file' else stripQuery file = stripQuery file' := by
  have hbuild : ∀ {f : String}, p.isBuild = true → p.serverId f = .ok id →
      Plugin.entryId? p.serverEntries f = some id := by
    intro f hp hf
    rw [Plugin.serverId, hp] at hf
    cases hid : Plugin.entryId? p.serverEntries f with
    | none =>
      rw [hid] at hf
      exact absurd hf (by simp)
    | some i =>
      rw [hid] at hf
      cases hf
      rfl
  split
  next hp => exact Plugin.entryId?_inj (hbuild hp h) (hbuild hp h')
  next hp =>
    rw [Plugin.serverId, if_pos (by simpa using hp)] at h h'
    cases h
    exact (Except.ok.inj h').symm

/-- **Functions are told apart on the wire.** If two exported identifiers of modules that a plugin
knows have one path, they are one name, and the modules are one module. -/
theorem function_paths_tell_functions_apart {p : Plugin} {file file' id id' name name' path : String}
    (hid : p.serverId file = .ok id) (hid' : p.serverId file' = .ok id')
    (hname : isIdentifierName name = true) (hname' : isIdentifierName name' = true)
    (hpath : RscPath.ofFunctionId (referenceId id name) = .ok path)
    (hpath' : RscPath.ofFunctionId (referenceId id' name') = .ok path) :
    name = name' ∧ if p.isBuild then file = file' else stripQuery file = stripQuery file' := by
  obtain ⟨rfl, rfl⟩ := referenceId_inj hname hname' (RscPath.ofFunctionId_inj hpath hpath')
  exact ⟨rfl, Plugin.serverId_inj hid hid'⟩

/-- The plugin of a server graph, for a build or for a development server. -/
def serverPlugin (isBuild : Bool) (entries : List (String × String)) : Plugin where
  isClient := false
  isBuild := isBuild
  bare := false
  clientEntries := .empty
  serverEntries := .ofList entries
  sources := none

/-- In a build an id may have any characters; on a development server two queries of a file have one
id. -/
theorem save_is_told_apart :
    let build := serverPlugin true [("/b", "/src/b.js"), ("a_?#b", "/src/a.js")]
    let development := serverPlugin false []
    isIdentifierName "save" = true ∧
    (build.serverId "/src/a.js" = .ok "a_?#b" ∧
      RscPath.ofFunctionId (referenceId "a_?#b" "save") = .ok "F/a_?/b#save" ∧
      "save" = "save" ∧ if build.isBuild then "/src/a.js" = "/src/a.js"
        else stripQuery "/src/a.js" = stripQuery "/src/a.js") ∧
    development.serverId "/src/a.js?v=1" = .ok "/src/a.js" ∧
    development.serverId "/src/a.js?v=2" = .ok "/src/a.js" ∧
    RscPath.ofFunctionId (referenceId "/src/a.js" "save") = .ok "F/_/src/a.js/save" ∧
    "save" = "save" ∧ if development.isBuild then "/src/a.js?v=1" = "/src/a.js?v=2"
      else stripQuery "/src/a.js?v=1" = stripQuery "/src/a.js?v=2" := by
  intro build development
  have hname : isIdentifierName "save" = true := by decide
  have hbuild : build.serverId "/src/a.js" = .ok "a_?#b" := rfl
  have hfirst : development.serverId "/src/a.js?v=1" = .ok "/src/a.js" := rfl
  have hsecond : development.serverId "/src/a.js?v=2" = .ok "/src/a.js" := rfl
  refine ⟨hname, ⟨hbuild, rfl, ?_⟩, hfirst, hsecond, rfl, ?_⟩
  · exact function_paths_tell_functions_apart hbuild hbuild hname hname rfl rfl
  · exact function_paths_tell_functions_apart hfirst hsecond hname hname rfl rfl

end ServerBoundary.Bundler
