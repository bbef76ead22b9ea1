import ServerBoundary.Proofs.Client.RequestPath
import ServerBoundary.Proofs.Client.Visits
import ServerBoundary.Proofs.References.ReferenceId
import ServerBoundary.Proofs.References.Stubs

/-!
# Calls through references

A reference in the browser holds the id of a function. To call the function, the client makes a path
of the id and asks for it. The path has to be one that can be encoded, and the server has to read the
id back from it.

> `references_can_be_called`: this is so for every reference to an identifier that does not end with
> the mark of paths, and a call through it sends a request.

> `reference_ending_with_mark_fails`: a function whose name ends with the mark has a reference, and a
> call through it sends nothing.
-/

namespace ServerBoundary.Client

/-- A request whose address is that of an encoded path, with a query behind it or without one. -/
def Request.IsAt (config : ClientConfig) (encoded : String) (r : Request) : Prop :=
  r.url = config.url encoded ∨ ∃ query, r.url = config.url encoded ++ "?" ++ query

/-- The request for a path is one for its encoding. -/
theorem Request.exists_ofPath {path encoded : String} (h : RscPath.encode path = .ok encoded)
    (config : ClientConfig) (params : Option Params) :
    ∃ r, Request.ofPath config path params = .ok r ∧ r.IsAt config encoded := by
  rw [Request.ofPath, h]
  cases params with
  | none => exact ⟨_, rfl, .inl rfl⟩
  | some params =>
    cases params with
    | query text => exact ⟨_, rfl, .inr ⟨text, rfl⟩⟩
    | value v => exact ⟨_, rfl, .inl rfl⟩

/-- What it takes to call the function with an id: its path has an encoding, from which the id is
read back, and a call sends a request for this encoding unless a response to such a request is
parked. -/
structure Callable (id path encoded : String) : Prop where
  encode_eq : RscPath.encode path = .ok encoded
  decode_eq : RscPath.decode encoded = .ok path
  toFunctionId?_eq : RscPath.toFunctionId? path = some id
  sends : ∀ {ρ : Type} (s : Store ρ) (route : ρ) (args : List Params), s.transformers = [] →
    ∃ p after, s.call route id args = .ok (p, after) ∧
      (s.adopted? ⟨path, some (.ofArguments args), false⟩ = none →
        ∃ r, r.IsAt s.config encoded ∧
          after.requests = s.requests ++ [(s.nextResponse, route, r)])

/-- A function can be called if its path has an encoding. -/
theorem callable_of_encode {id path encoded : String} (hpath : RscPath.ofFunctionId id = .ok path)
    (h : RscPath.encode path = .ok encoded) : Callable id path encoded where
  encode_eq := h
  decode_eq := RscPath.decode_encode h
  toFunctionId?_eq := RscPath.toFunctionId?_ofFunctionId hpath
  sends s route args htransformers := by
    refine ⟨_, _, by rw [Store.call, hpath], fun hadopted => ?_⟩
    obtain ⟨r, hr, hat⟩ := Request.exists_ofPath h s.config (some (.ofArguments args))
    have hout : s.outgoing ⟨path, some (.ofArguments args), false⟩ = .ok r := by
      rw [Store.outgoing, Store.reached, htransformers]
      exact hr
    refine ⟨r, hat, ?_⟩
    obtain ⟨response, -, hdraws⟩ :=
      s.draws_obtain route ⟨path, some (.ofArguments args), false⟩
    exact (hdraws.asks hadopted r hout).2

end ServerBoundary.Client

namespace ServerBoundary.Boundary

open Client Syntax

/-- **Every reference to an identifier can be called,** unless the identifier ends with the mark of
paths: the reference is there under the id of its module, and if this has a path, the path leads
there and back. -/
theorem references_can_be_called {id : ModuleId} {module stubs : Node} {name : String}
    (hstubs : serverReferences id module = .ok (some stubs)) (hname : name ∈ exportNames module)
    (hidentifier : isIdentifierName name = true) (hend : name.toList.getLast? ≠ some '_') :
    ∃ s, id = .ok s ∧ serverReference s name ∈ stubs.children ∧
      ∀ path, RscPath.ofFunctionId (referenceId s name) = .ok path →
        ∃ encoded, Callable (referenceId s name) path encoded := by
  obtain ⟨s, hid, rfl⟩ := exists_of_serverReferences hstubs
  refine ⟨s, hid (List.ne_nil_of_mem hname),
    List.mem_append_right _ (List.mem_map_of_mem hname), fun path hpath => ?_⟩
  have hlast := getLast?_referenceId s hidentifier
  have hseparator : (referenceId s name).toList.getLast? ≠ some '#' := by
    rw [hlast]
    exact fun h => not_mem_of_isIdentifierName hidentifier (by decide) (List.mem_of_getLast? h)
  have hencode := RscPath.encode_ofFunctionId hpath hseparator
  rw [if_neg (by rw [hlast]; exact hend)] at hencode
  exact ⟨_, callable_of_encode hpath hencode⟩

/-- A server module that exports a function without parameters and statements. -/
def exportingModule (name : String) : Node :=
  Build.module [
    Build.statement (Build.string Directive.useServer.text),
    Build.node (.module .exportDecl) [Build.node (.stmt (.function false)) [
      Build.ident name,
      Build.node (.member (.function {})) [
        .group [], .group [], Build.node (.stmt .block) [], .absent, .absent]]]]

/-- The function `save` of `/src/a.js` has the path `F/_/src/a.js/save`. -/
theorem save_can_be_called :
    ∃ stubs, serverReferences (.ok "/src/a.js") (exportingModule "save") = .ok (some stubs) ∧
      "save" ∈ exportNames (exportingModule "save") ∧ isIdentifierName "save" = true ∧
      "save".toList.getLast? ≠ some '_' ∧
      serverReference "/src/a.js" "save" ∈ stubs.children ∧
      RscPath.ofFunctionId "/src/a.js#save" = .ok "F/_/src/a.js/save" ∧
      ∃ encoded, Callable "/src/a.js#save" "F/_/src/a.js/save" encoded := by
  have hname : "save" ∈ exportNames (exportingModule "save") := by decide
  have hpath : RscPath.ofFunctionId "/src/a.js#save" = .ok "F/_/src/a.js/save" := rfl
  have hstubs : serverReferences (.ok "/src/a.js") (exportingModule "save") = .ok (some
      (Build.module (referenceImports ++
        (exportNames (exportingModule "save")).map (serverReference "/src/a.js")))) := rfl
  obtain ⟨s, hs, hmem, hcall⟩ := references_can_be_called hstubs hname (by decide) (by decide)
  cases hs
  exact ⟨_, hstubs, hname, by decide, by decide, hmem, hpath, hcall _ hpath⟩

/-- With `export function save_() {}` the browser has a reference to a function that no call
reaches: its path ends with the mark and has no encoding, and nothing is sent. -/
theorem reference_ending_with_mark_fails :
    isIdentifierName "save_" = true ∧
    (∃ stubs, serverReferences (.ok "m") (exportingModule "save_") = .ok (some stubs) ∧
      serverReference "m" "save_" ∈ stubs.children) ∧
    RscPath.ofFunctionId "m#save_" = .ok "F/m/save_" ∧
    RscPath.encode "F/m/save_" = .error (.endsWithMark "F/m/save_") ∧
    ∃ p after, ({} : Store Unit).call () "m#save_" [] = .ok (p, after) ∧ after.requests = [] := by
  refine ⟨by decide, ⟨_, rfl, ?_⟩, rfl, rfl, _, _, rfl, rfl⟩
  exact List.mem_append_right _ (List.mem_singleton_self _)

end ServerBoundary.Boundary
