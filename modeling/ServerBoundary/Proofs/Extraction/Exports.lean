import ServerBoundary.Boundary.ExportNames
import ServerBoundary.Proofs.Extraction.Conservation

/-!
# The extraction keeps the exports

A closure can be an export itself: a declaration that is exported becomes a constant of the same
name, and a default function becomes a default expression. Nothing else in an export decides its
name but the kinds of a few of its parts, which stay.

> `itemExports_extract`: what is left of an item exports the names that the item exports.

> `exports_extractModule`: after the extraction a module exports the names of its closures, in front
> of the names that it exported.
-/

namespace ServerBoundary.Boundary

open Syntax

/-! ## What is read off a node -/

/-- Whether something that is read off a node is the same when the parts of the node are rewritten,
and when a call takes the place of the node because it is a closure. -/
structure KeptByExtraction {α : Type} (read : Node → α) : Prop where
  parts : ∀ n st, read (rewriteParts n st).1 = read n
  fill : ∀ n site target bound, StandsAt n site →
    read (site.fill (Build.bindNull target bound)) = read n

variable {α : Type} {read : Node → α}

/-- What the two halves of a visit keep is the same after the extraction. -/
theorem KeptByExtraction.extract (h : KeptByExtraction read) (n : Node) (st : Extraction) :
    read (extract n st).1 = read n := by
  cases hs : serverSite? n with
  | none =>
    rcases extract_of_serverSite?_eq_none hs st with heq | heq
    · rw [heq]
    · rw [heq, h.parts]
  | some site =>
    rw [extract_closure hs]
    exact h.fill n site _ _ (standsAt_of_serverSite? hs)

theorem KeptByExtraction.map_extractAll (h : KeptByExtraction read) (ns : List Node)
    (st : Extraction) : (extractAll ns st).1.map read = ns.map read := by
  induction ns generalizing st with
  | nil => rfl
  | cons n ns ih => rw [extractAll_cons, List.map_cons, List.map_cons, h.extract, ih]

theorem KeptByExtraction.filterMap_extractAll {read : Node → Option α}
    (h : KeptByExtraction read) (ns : List Node) (st : Extraction) :
    (extractAll ns st).1.filterMap read = ns.filterMap read := by
  have hmap := congrArg (List.filterMap id) (h.map_extractAll ns st)
  rw [List.filterMap_map, List.filterMap_map] at hmap
  exact hmap

theorem KeptByExtraction.flatMap_extractAll {read : Node → List α}
    (h : KeptByExtraction read) (ns : List Node) (st : Extraction) :
    (extractAll ns st).1.flatMap read = ns.flatMap read := by
  rw [List.flatMap_def, List.flatMap_def, h.map_extractAll]

/-- What is not found on closures and on calls that take the place of one is kept if rewriting the
parts of a node keeps it. -/
theorem keptByExtraction_of_none {read : Node → Option α}
    (hparts : ∀ n st, read (rewriteParts n st).1 = read n)
    (hnone : ∀ n, keepsKind n.kind = false → read n = none) : KeptByExtraction read where
  parts := hparts
  fill n site target bound h := by
    rw [hnone _ (keepsKind_fill site target bound), hnone n h.keepsKind]

/-! ## Names -/

/-- A name is told by the kind of the node alone. -/
theorem writtenName?_congr {n m : Node} (h : n.kind = m.kind) : writtenName? n = writtenName? m := by
  obtain ⟨k, sp, cs⟩ := n
  obtain ⟨k', sp', cs'⟩ := m
  cases h
  cases k with
  | literal l => cases l <;> rfl
  | _ => rfl

theorem keptByExtraction_writtenName? : KeptByExtraction writtenName? := by
  refine keptByExtraction_of_none (fun _ _ => writtenName?_congr rfl) fun n hk => ?_
  unfold writtenName?
  split
  next => exact absurd hk (by simp [keepsKind])
  next => exact absurd hk (by simp [keepsKind])
  next => rfl

theorem isPresent_extract (n : Node) (st : Extraction) :
    (extract n st).1.isPresent = n.isPresent := by
  have hkind : ∀ m : Node, m.isPresent = false ↔ m.kind = .absent := by
    intro m
    unfold Node.isPresent
    split
    next hk => simp [hk]
    next hk => simpa using hk
  rw [← Bool.not_inj_iff, Bool.eq_iff_iff, Bool.not_eq_true', Bool.not_eq_true', hkind, hkind]
  exact extract_kind_iff rfl n st

/-- A declarator is a plain name by the kind of the pattern that stands in front. -/
theorem plainName?_eq_some_iff {d : Node} {name : String} : plainName? d = some name ↔
    (∃ definite, d.kind = .stmt (.declarator definite)) ∧
      ∃ o, (d.part 0).kind = .pattern (.binding name o) := by
  unfold plainName?
  split
  next definite sp x o psp pcs rest =>
    show some x = some name ↔ (∃ b, Kind.stmt (.declarator definite) = .stmt (.declarator b)) ∧
      ∃ o', Kind.pattern (.binding x o) = .pattern (.binding name o')
    simp
  next hother =>
    refine ⟨fun h => absurd h (by simp), fun ⟨⟨definite, hd⟩, o, hname⟩ => ?_⟩
    obtain ⟨k, sp, cs⟩ := d
    cases hd
    match cs, hname with
    | .mk pk psp pcs :: rest, hname =>
      cases hname
      exact absurd rfl (hother _ _ _ _ _ _ _)

theorem keptByExtraction_plainName? : KeptByExtraction plainName? := by
  refine keptByExtraction_of_none (fun n st => ?_) fun n hk => ?_
  · obtain ⟨st', hpart⟩ := part_rewriteParts n 0 st
    refine Option.ext fun name => ?_
    rw [plainName?_eq_some_iff, plainName?_eq_some_iff, hpart]
    exact and_congr_right fun _ => exists_congr fun o => extract_kind_iff rfl _ _
  · unfold plainName?
    split
    next => exact absurd hk (by simp [keepsKind])
    next => rfl

theorem keptByExtraction_specifierName? : KeptByExtraction specifierName? := by
  refine keptByExtraction_of_none (fun n st => ?_) fun n hk => ?_
  · obtain ⟨k, sp, cs⟩ := n
    show specifierName? (.mk k sp (extractAll cs _).1) = _
    generalize st.enter _ = st'
    cases k with
    | module m =>
      cases m with
      | exportSpecifier t =>
        match cs with
        | [] => rfl
        | [own] => rw [extractAll_cons]; rfl
        | [own, exported] =>
          rw [extractAll_cons, extractAll_cons]
          show (if (extract exported _).1.isPresent then writtenName? (extract exported _).1
            else writtenName? (extract own _).1) = _
          rw [isPresent_extract, keptByExtraction_writtenName?.extract,
            keptByExtraction_writtenName?.extract]
          rfl
        | _ :: _ :: _ :: _ => rw [extractAll_cons, extractAll_cons, extractAll_cons]; rfl
      | exportNamespace =>
        match cs with
        | [] => rfl
        | [name] =>
          rw [extractAll_cons]
          exact keptByExtraction_writtenName?.extract name _
        | _ :: _ :: _ => rw [extractAll_cons, extractAll_cons]; rfl
      | _ => rfl
    | _ => rfl
  · unfold specifierName?
    split
    next => exact absurd hk (by simp [keepsKind])
    next => exact absurd hk (by simp [keepsKind])
    next => rfl

/-! ## Exports -/

/-- A function that is declared and moved out leaves a constant of the same name. -/
theorem keptByExtraction_declarationNames : KeptByExtraction declarationNames where
  parts n st := by
    obtain ⟨k, sp, cs⟩ := n
    show declarationNames (.mk k sp (extractAll cs _).1) = _
    generalize st.enter _ = st'
    cases k with
    | stmt s =>
      cases s with
      | function isDeclare =>
        cases cs with
        | nil => rfl
        | cons name rest =>
          rw [extractAll_cons]
          exact congrArg Option.toList (keptByExtraction_writtenName?.extract name _)
      | class_ isDeclare =>
        cases cs with
        | nil => rfl
        | cons name rest =>
          rw [extractAll_cons]
          exact congrArg Option.toList (keptByExtraction_writtenName?.extract name _)
      | variable_ w isDeclare => exact keptByExtraction_plainName?.filterMap_extractAll cs _
      | _ => rfl
    | _ => rfl
  fill n site target bound h := by
    obtain ⟨k, sp, cs⟩ := n
    cases h with
    | function hk _ => cases hk; rfl
    | arrow hk _ => cases hk; rfl
    | @declaration isDeclare name hk hname _ =>
      cases hk
      match cs, hname with
      | .mk nk nsp ncs :: rest, hname =>
        cases hname
        rfl
    | defaultExport hk _ => cases hk; rfl

/-- Without the group of its specifiers an export of names exports none. -/
theorem itemExports_eq_nil {t : Bool} {sp : Span} {group : Node} {rest : List Node}
    (h : group.kind ≠ .group) :
    itemExports (.mk (.module (.exportNamed t)) sp (group :: rest)) = [] := by
  obtain ⟨k, gsp, specifiers⟩ := group
  cases k with
  | group => exact absurd rfl h
  | _ => rfl

/-- A default function that is moved out leaves a default expression. -/
theorem keptByExtraction_itemExports : KeptByExtraction itemExports where
  parts n st := by
    obtain ⟨k, sp, cs⟩ := n
    show itemExports (.mk k sp (extractAll cs _).1) = _
    generalize st.enter _ = st'
    cases k with
    | module m =>
      cases m with
      | exportDecl =>
        match cs with
        | [] => rfl
        | [d] =>
          rw [extractAll_cons]
          exact keptByExtraction_declarationNames.extract d _
        | _ :: _ :: _ => rw [extractAll_cons, extractAll_cons]; rfl
      | exportNamed t =>
        cases cs with
        | nil => rfl
        | cons group rest =>
          rw [extractAll_cons]
          by_cases hgroup : group.kind = .group
          · rw [extract_of_keepsKind (by rw [hgroup]; rfl) (by rw [hgroup]; rfl)]
            obtain ⟨gk, gsp, specifiers⟩ := group
            cases hgroup
            exact keptByExtraction_specifierName?.filterMap_extractAll specifiers _
          · rw [itemExports_eq_nil hgroup,
              itemExports_eq_nil fun h => hgroup ((extract_kind_iff rfl group _).mp h)]
      | _ => rfl
    | _ => rfl
  fill n site target bound h := by
    obtain ⟨k, sp, cs⟩ := n
    cases h with
    | function hk _ => cases hk; rfl
    | arrow hk _ => cases hk; rfl
    | declaration hk _ _ => cases hk; rfl
    | defaultExport hk _ => cases hk; rfl

/-- **What is left of an item exports what the item exports.** -/
theorem itemExports_extract (item : Node) (st : Extraction) :
    itemExports (extract item st).1 = itemExports item :=
  keptByExtraction_itemExports.extract item st

/-! ## The exports of a module -/

/-- An import and a directive export nothing. -/
theorem itemExports_of_isHead {item : Node} (h : isHead item = true) : itemExports item = [] := by
  rw [isHead, Bool.or_eq_true] at h
  obtain ⟨k, sp, cs⟩ := item
  rcases h with himport | hdirective
  · obtain ⟨t, ht⟩ := (isImport_iff _).mp himport
    cases ht
    rfl
  · obtain ⟨value, hvalue⟩ := Option.isSome_iff_exists.mp hdirective
    obtain ⟨hkind, -⟩ := (directiveValue?_eq_some_iff _ value).mp hvalue
    cases hkind
    rfl

/-- What is put behind the head of a module is exported first. -/
theorem exports_insertAfterHead (new items : List Node) :
    (insertAfterHead new items).flatMap itemExports =
      new.flatMap itemExports ++ items.flatMap itemExports := by
  have hhead : (items.takeWhile isHead).flatMap itemExports = [] :=
    List.flatMap_eq_nil_iff.mpr fun item hitem =>
      itemExports_of_isHead (List.all_eq_true.mp List.all_takeWhile item hitem)
  have hsplit : (items.takeWhile isHead ++ items.dropWhile isHead).flatMap itemExports = _ :=
    List.flatMap_append
  rw [List.takeWhile_append_dropWhile, hhead, List.nil_append] at hsplit
  rw [insertAfterHead, List.flatMap_append, List.flatMap_append, hhead, List.nil_append, hsplit]

/-- A closure that was moved out exports its name. -/
theorem exports_items (id : String) (found : List Extracted) :
    (found.flatMap (·.items id)).flatMap itemExports = found.map Extracted.name := by
  induction found with
  | nil => rfl
  | cons e found ih =>
    rw [List.flatMap_cons, List.flatMap_append, ih, List.map_cons]
    cases e <;> rfl

/-- **Exports after the extraction.** If it succeeds, the module exports the names of its closures,
in their order, in front of the names that it exported. -/
theorem exports_extractModule {id : ModuleId} {shebang : Option String} {sp : Span}
    {items : List Node} {out : Node} {changed : Bool}
    (h : extractModule id (.mk (.module (.module_ shebang)) sp items) = .ok (out, changed)) :
    out.children.flatMap itemExports =
      (List.range (closurePlaces (.mk (.module (.module_ shebang)) sp items)).length).map
        extractedName ++ items.flatMap itemExports := by
  have hrelocates : Relocates "" (.mk (.module (.module_ shebang)) sp items) _ _
      (extractAll items {}).2.found := relocates_found rfl
  rw [← hrelocates.names_eq]
  unfold extractModule at h
  dsimp only [Node.children_mk] at h
  split at h
  next hempty =>
    cases h
    rw [List.isEmpty_iff.mp hempty]
    rfl
  next =>
    obtain ⟨s, -, hs⟩ := exists_of_requireId h
    cases hs
    show (insertAfterHead _ (extractAll items {}).1).flatMap itemExports = _
    rw [exports_insertAfterHead, exports_items, keptByExtraction_itemExports.flatMap_extractAll]

end ServerBoundary.Boundary
