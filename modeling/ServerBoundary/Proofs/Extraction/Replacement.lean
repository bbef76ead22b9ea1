import ServerBoundary.Proofs.Extraction.Traversal

/-!
# What a node looks like after the extraction

A node either keeps its kind, its place and the number of its parts, or it was a server closure and
a call stands in its place. Which of the two happens can be read off the tree before anything in it
was rewritten: `serverSite?_rewriteParts` says that a node is a server closure after its parts were
rewritten exactly if it was one before, in the same kind of place.
-/

namespace ServerBoundary.Boundary

open Syntax

/-! ## Kinds that stay -/

/-- Whether nodes of a kind are neither closures nor what takes the place of one. -/
def keepsKind : Kind → Bool
  | .expr .function => false
  | .expr (.arrow _) => false
  | .expr (.call _) => false
  | .stmt (.function _) => false
  | .stmt (.variable_ _ _) => false
  | .module .exportDefaultFunction => false
  | .module .exportDefaultExpr => false
  | _ => true

/-- How a server closure stands in the tree, for each form of it. -/
inductive StandsAt (n : Node) : Site → Prop
  | function : n.kind = .expr .function → isServerFunctionNode (n.part 1) = true →
      StandsAt n .expression
  | arrow {isAsync : Bool} : n.kind = .expr (.arrow isAsync) → isServerFunction n = true →
      StandsAt n .expression
  | declaration {isDeclare : Bool} {name : String} : n.kind = .stmt (.function isDeclare) →
      (n.part 0).kind = .ident name → isServerFunctionNode (n.part 1) = true →
      StandsAt n (.declaration name (n.part 0).span)
  | defaultExport : n.kind = .module .exportDefaultFunction →
      isServerFunctionNode (n.part 1) = true → StandsAt n .defaultExport

theorem standsAt_of_serverSite? {n : Node} {site : Site} (h : serverSite? n = some site) :
    StandsAt n site := by
  unfold serverSite? at h
  split at h
  next hk =>
    split at h
    next hf =>
      cases h
      exact .function hk hf
    next => exact absurd h (by simp)
  next hk =>
    split at h
    next hf =>
      cases h
      exact .arrow hk hf
    next => exact absurd h (by simp)
  next hk =>
    split at h
    next hname =>
      split at h
      next hf =>
        cases h
        exact .declaration hk hname hf
      next => exact absurd h (by simp)
    next => exact absurd h (by simp)
  next hk =>
    split at h
    next hf =>
      cases h
      exact .defaultExport hk hf
    next => exact absurd h (by simp)
  next => exact absurd h (by simp)

theorem StandsAt.keepsKind {n : Node} {site : Site} (h : StandsAt n site) :
    Boundary.keepsKind n.kind = false := by
  cases h with
  | function hk => rw [hk]; rfl
  | arrow hk => rw [hk]; rfl
  | declaration hk => rw [hk]; rfl
  | defaultExport hk => rw [hk]; rfl

theorem keepsKind_of_serverSite? {n : Node} {site : Site} (h : serverSite? n = some site) :
    keepsKind n.kind = false :=
  (standsAt_of_serverSite? h).keepsKind

/-- A closure is no type. -/
theorem isType_of_serverSite? {n : Node} {site : Site} (h : serverSite? n = some site) :
    n.kind.isType = false := by
  have hk := keepsKind_of_serverSite? h
  generalize n.kind = k at hk
  cases k with
  | type t => exact absurd hk (by simp [keepsKind])
  | _ => rfl

theorem keepsKind_fill (site : Site) (name : String) (bound : List String) :
    keepsKind (site.fill (Build.bindNull name bound)).kind = false := by
  cases site <;> rfl

theorem extractSite_of_none {n : Node} (h : serverSite? n = none) (st : Extraction) :
    extractSite n st = (n, st) := by
  rw [extractSite, h]

theorem extractSite_of_some {n : Node} {site : Site} (h : serverSite? n = some site)
    (st : Extraction) :
    extractSite n st =
      (site.fill (Build.bindNull st.nextName (st.captured (site.closure n))),
        st.move site (site.closure n)) := by
  rw [extractSite, h]

/-- A kind that is neither a closure's nor a replacement's is found after the extraction where it
was before. -/
theorem extract_kind_iff {K : Kind} (hK : keepsKind K = true) (n : Node) (st : Extraction) :
    (extract n st).1.kind = K ↔ n.kind = K := by
  cases hn : n.kind.isType with
  | true => rw [extract_of_isType hn]
  | false =>
    rw [extract_of_not_isType hn]
    cases hs : serverSite? (rewriteParts n st).1 with
    | none =>
      rw [extractSite_of_none hs]
      rfl
    | some site =>
      -- Neither the closure nor what takes its place is of the kind `K`.
      rw [extractSite_of_some hs]
      have hsite := keepsKind_of_serverSite? hs
      have hfill := keepsKind_fill site (rewriteParts n st).2.nextName
        ((rewriteParts n st).2.captured (site.closure (rewriteParts n st).1))
      constructor
      · intro h
        rw [h, hK] at hfill
        exact absurd hfill (by simp)
      · intro h
        rw [show (rewriteParts n st).1.kind = n.kind from rfl, h, hK] at hsite
        exact absurd hsite (by simp)

/-- A node of a kind that stays is only rewritten inside. -/
theorem extract_of_keepsKind {n : Node} (hk : keepsKind n.kind = true)
    (ht : n.kind.isType = false) (st : Extraction) : extract n st = rewriteParts n st := by
  rw [extract_of_not_isType ht, extractSite_of_none]
  cases hs : serverSite? (rewriteParts n st).1 with
  | none => rfl
  | some site =>
    have hsite := keepsKind_of_serverSite? hs
    rw [show (rewriteParts n st).1.kind = n.kind from rfl, hk] at hsite
    exact absurd hsite (by simp)

/-! ## Directives -/

theorem directiveValue?_eq_some_iff (n : Node) (value : String) :
    directiveValue? n = some value ↔
      n.kind = .stmt .expression ∧
        ∃ c raw, n.children = [c] ∧ c.kind = .literal (.string value raw) := by
  constructor
  · intro h
    unfold directiveValue? at h
    split at h
    next sp lit raw lsp lcs =>
      rw [Option.some.injEq] at h
      exact ⟨rfl, _, raw, rfl, by rw [← h]; rfl⟩
    next => exact absurd h (by simp)
  · intro ⟨hk, c, raw, hcs, hc⟩
    cases n with
    | mk k sp cs =>
      cases c with
      | mk ck csp ccs =>
        rw [Node.kind_mk] at hk hc
        rw [Node.children_mk] at hcs
        subst hk hc hcs
        rfl

/-- A statement is the same directive after the extraction as before it. -/
theorem directiveValue?_extract (n : Node) (st : Extraction) :
    directiveValue? (extract n st).1 = directiveValue? n := by
  apply Option.ext
  intro value
  rw [directiveValue?_eq_some_iff, directiveValue?_eq_some_iff, extract_kind_iff rfl]
  refine and_congr_right ?_
  intro hk
  rw [extract_of_keepsKind (by rw [hk]; rfl) (by rw [hk]; rfl)]
  show (∃ c raw, (extractAll n.children _).1 = [c] ∧ _) ↔ _
  constructor
  · intro ⟨c', raw, hcs, hc⟩
    have hlen := congrArg List.length hcs
    rw [length_extractAll, List.length_singleton] at hlen
    obtain ⟨c, hc1⟩ := List.length_eq_one_iff.mp hlen
    rw [hc1, extractAll_cons] at hcs
    have hhead : (extract c _).1 = c' := (List.cons.inj hcs).1
    rw [← hhead, extract_kind_iff rfl] at hc
    exact ⟨c, raw, hc1, hc⟩
  · intro ⟨c, raw, hcs, hc⟩
    rw [hcs, extractAll_cons]
    exact ⟨_, raw, rfl, (extract_kind_iff rfl c _).mpr hc⟩

theorem opensWithUseServer_cons (s : Node) (ss : List Node) :
    opensWithUseServer (s :: ss) =
      match directiveValue? s with
      | some value => value == Directive.useServer.text || opensWithUseServer ss
      | none => false := rfl

theorem opensWithUseServer_extractAll (ss : List Node) (st : Extraction) :
    opensWithUseServer (extractAll ss st).1 = opensWithUseServer ss := by
  induction ss generalizing st with
  | nil => rfl
  | cons s ss ih =>
    rw [extractAll_cons, opensWithUseServer_cons, opensWithUseServer_cons,
      directiveValue?_extract, ih]

/-- The statements of a block are rewritten one by one; anything else has none. -/
theorem opensWithUseServer_statements_extract (body : Node) (st : Extraction) :
    opensWithUseServer (extract body st).1.statements = opensWithUseServer body.statements := by
  have hnone : ∀ n : Node, n.kind ≠ .stmt .block → n.statements = [] := by
    intro n hn
    unfold Node.statements
    split
    · exact absurd rfl hn
    · rfl
  by_cases hb : body.kind = .stmt .block
  · rw [extract_of_keepsKind (by rw [hb]; rfl) (by rw [hb]; rfl)]
    cases body with
    | mk k sp ss =>
      rw [Node.kind_mk] at hb
      subst hb
      exact opensWithUseServer_extractAll ss _
  · rw [hnone body hb, hnone _ (fun h => hb ((extract_kind_iff rfl body st).mp h))]

/-! ## Closures -/

theorem extract_absent (st : Extraction) : extract .absent st = (.absent, st) := by
  rw [extract_of_not_isType rfl]
  rfl

/-- A part of a node whose parts were rewritten is the rewritten part. -/
theorem part_rewriteParts (n : Node) (i : Nat) (st : Extraction) :
    ∃ st', (rewriteParts n st).1.part i = (extract (n.part i) st').1 := by
  show ∃ st', (extractAll n.children _).1.getD i .absent =
    (extract (n.children.getD i .absent) st').1
  cases hi : n.children[i]? with
  | some c =>
    refine ⟨(extractAll (n.children.take i) (st.enter n.localNames?)).2, ?_⟩
    rw [List.getD_eq_getElem?_getD, getElem?_extractAll hi, List.getD_eq_getElem?_getD, hi]
    rfl
  | none =>
    refine ⟨st, ?_⟩
    have hlen := List.getElem?_eq_none_iff.mp hi
    rw [List.getD_eq_getElem?_getD, List.getD_eq_getElem?_getD, hi,
      List.getElem?_eq_none (by rw [length_extractAll]; exact hlen), Option.getD_none,
      extract_absent]

/-- A function or an arrow function runs on the server exactly if its parameters are listed and its
body is a block that opens with the directive. -/
theorem isServerFunction_iff (n : Node) :
    isServerFunction n = true ↔
      (n.part 0).kind = .group ∧
        (((∃ m, n.kind = .member (.function m)) ∧
            opensWithUseServer (n.part 2).statements = true) ∨
          ((∃ a, n.kind = .expr (.arrow a)) ∧
            opensWithUseServer (n.part 1).statements = true)) := by
  constructor
  · intro h
    unfold isServerFunction Node.scopeParts? at h
    split at h
    next hparts =>
      split at hparts
      next =>
        rw [Option.some.injEq, Prod.mk.injEq] at hparts
        rw [← hparts.2] at h
        exact ⟨rfl, Or.inl ⟨⟨_, rfl⟩, h⟩⟩
      next =>
        rw [Option.some.injEq, Prod.mk.injEq] at hparts
        rw [← hparts.2] at h
        exact ⟨rfl, Or.inr ⟨⟨_, rfl⟩, h⟩⟩
      next => exact absurd hparts (by simp)
    next => exact absurd h (by simp)
  · intro ⟨hp, h⟩
    obtain ⟨k, sp, cs⟩ := n
    rcases h with ⟨⟨m, hk⟩, hopen⟩ | ⟨⟨a, hk⟩, hopen⟩
    · rw [Node.kind_mk] at hk
      subst hk
      match cs with
      | .mk pk psp ps :: ds :: body :: rest =>
        change pk = .group at hp
        subst hp
        exact hopen
      -- A part that is missing has no statements, and opens with nothing.
      | [] => exact absurd hopen Bool.false_ne_true
      | [_] => exact absurd hopen Bool.false_ne_true
      | [_, _] => exact absurd hopen Bool.false_ne_true
    · rw [Node.kind_mk] at hk
      subst hk
      match cs with
      | .mk pk psp ps :: body :: rest =>
        change pk = .group at hp
        subst hp
        exact hopen
      | [] => exact absurd hopen Bool.false_ne_true
      | [_] => exact absurd hopen Bool.false_ne_true

/-- Whether a node runs on the server by its own directive does not depend on what was rewritten
inside it. -/
theorem isServerFunction_rewriteParts (n : Node) (st : Extraction) :
    isServerFunction (rewriteParts n st).1 = isServerFunction n := by
  apply Bool.eq_iff_iff.mpr
  obtain ⟨st₀, h₀⟩ := part_rewriteParts n 0 st
  obtain ⟨st₁, h₁⟩ := part_rewriteParts n 1 st
  obtain ⟨st₂, h₂⟩ := part_rewriteParts n 2 st
  rw [isServerFunction_iff, isServerFunction_iff, h₀, h₁, h₂, extract_kind_iff rfl,
    opensWithUseServer_statements_extract, opensWithUseServer_statements_extract]
  rfl

theorem isServerFunctionNode_iff (n : Node) :
    isServerFunctionNode n = true ↔
      (∃ m, n.kind = .member (.function m)) ∧ isServerFunction n = true := by
  unfold isServerFunctionNode
  split
  next m hk => exact ⟨fun h => ⟨⟨m, hk⟩, h⟩, fun h => h.2⟩
  next hk => exact ⟨fun h => absurd h (by simp), fun h => absurd h.1.choose_spec (hk _)⟩

/-- A function is one that runs on the server after the extraction exactly if it was one before. -/
theorem isServerFunctionNode_extract (n : Node) (st : Extraction) :
    isServerFunctionNode (extract n st).1 = isServerFunctionNode n := by
  apply Bool.eq_iff_iff.mpr
  have hkind : ∀ m,
      (extract n st).1.kind = .member (.function m) ↔ n.kind = .member (.function m) :=
    fun m => extract_kind_iff rfl n st
  rw [isServerFunctionNode_iff, isServerFunctionNode_iff, exists_congr hkind]
  refine and_congr_right ?_
  intro ⟨m, hm⟩
  rw [extract_of_keepsKind (by rw [hm]; rfl) (by rw [hm]; rfl), isServerFunction_rewriteParts]

/-- **A closure is one before and after.** A node whose parts were rewritten is a server closure
exactly if it was one before, and it stands in the same kind of place. -/
theorem serverSite?_rewriteParts (n : Node) (st : Extraction) :
    serverSite? (rewriteParts n st).1 = serverSite? n := by
  obtain ⟨st₀, h₀⟩ := part_rewriteParts n 0 st
  obtain ⟨st₁, h₁⟩ := part_rewriteParts n 1 st
  unfold serverSite?
  rw [show (rewriteParts n st).1.kind = n.kind from rfl, h₀, h₁, isServerFunctionNode_extract,
    isServerFunction_rewriteParts]
  split
  next => rfl
  next => rfl
  next =>
    by_cases hname : ∃ name, (n.part 0).kind = .ident name
    · obtain ⟨name, hname⟩ := hname
      rw [extract_of_keepsKind (by rw [hname]; rfl) (by rw [hname]; rfl)]
      rfl
    · have hother : ∀ name, (n.part 0).kind ≠ .ident name := fun name h => hname ⟨name, h⟩
      have hother' : ∀ name, (extract (n.part 0) st₀).1.kind ≠ .ident name :=
        fun name h => hother name ((extract_kind_iff rfl _ _).mp h)
      split
      next name hk => exact absurd hk (hother' name)
      next => rfl
  next => rfl
  next => rfl

end ServerBoundary.Boundary
