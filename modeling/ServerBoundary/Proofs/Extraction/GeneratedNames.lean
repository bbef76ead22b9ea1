import ServerBoundary.Proofs.Extraction.Census
import ServerBoundary.Proofs.References.Registrations

/-!
# Generated names

The closures of a module are exported under names that begin with a reserved prefix. A module with
no identifier of that kind declares and registers nothing under such a name, before and after the
extraction, so that what is declared and registered there stems from the closures.

> `nodup_extractedNames`: different closures have different names.

> `isReserved_of_mem_declaredExports_extract`, `registrations_extractAll_of_unreserved`: what is
> left of the module exports no reserved name where it declares it, and registers nothing.
-/

namespace ServerBoundary.Boundary

open Syntax

/-! ## Names -/

/-- The prefix of the names that are generated. -/
def reservedPrefix : String := "__waku_"

/-- Whether a name begins with the reserved prefix. -/
def isReserved (name : String) : Bool := reservedPrefix.toList.isPrefixOf name.toList

theorem isReserved_append {name : String} (h : isReserved name = true) (suffix : String) :
    isReserved (name ++ suffix) = true := by
  rw [isReserved, List.isPrefixOf_iff_prefix] at h ⊢
  rw [String.toList_append]
  exact h.trans (List.prefix_append _ _)

theorem isReserved_extractedName (k : Nat) : isReserved (extractedName k) = true :=
  isReserved_append (by decide) _

theorem isReserved_registerServer : isReserved registerServer = true := by decide

/-- Different numbers give different names. -/
theorem extractedName_inj {j k : Nat} (h : extractedName j = extractedName k) : j = k := by
  rw [extractedName, extractedName, String.append_right_inj, ← String.toList_inj,
    Nat.toList_repr, Nat.toList_repr] at h
  -- A number can be read off its digits.
  have hread := congrArg (Nat.ofDigitChars 10 · 0) h
  simp only [Nat.ofDigitChars_ten_toDigits] at hread
  exact Nat.succ.inj hread

theorem nodup_extractedNames (n : Nat) : ((List.range n).map extractedName).Nodup := by
  rw [List.Nodup, List.pairwise_map]
  exact List.nodup_range.imp fun hne heq => hne (extractedName_inj heq)

/-! ## Trees without reserved names -/

/-- Whether a node is no identifier that is reserved. -/
def unreservedNode (n : Node) : Bool := n.kind.identifier?.all fun name => !isReserved name

/-- Whether no identifier of a tree is reserved. -/
def unreserved (n : Node) : Bool := n.every unreservedNode

/-- Whether a node is no pattern that binds a reserved name. -/
def unreservedBinding (n : Node) : Bool :=
  match n.kind with
  | .pattern (.binding name _) => !isReserved name
  | _ => true

theorem unreservedBinding_of_unreservedNode (n : Node) (h : unreservedNode n = true) :
    unreservedBinding n = true := by
  unfold unreservedBinding
  split
  next hk =>
    rw [unreservedNode, hk] at h
    exact h
  next => rfl

theorem isReserved_of_unreserved {n : Node} {name : String} (h : unreserved n = true)
    (hn : n.kind.identifier? = some name) : isReserved name = false := by
  have hroot := (Node.every_iff.mp h).1
  rw [unreservedNode, hn] at hroot
  simpa using hroot

theorem unreserved_part {n : Node} (h : unreserved n = true) (i : Nat) :
    unreserved (n.part i) = true :=
  Node.every_part h rfl i

/-- A pattern binds names that stand in it. -/
theorem isReserved_of_mem_boundNames {name : String} : ∀ n : Node,
    n.every unreservedBinding = true → name ∈ n.boundNames → isReserved name = false :=
  Node.of_parts fun k sp cs ih h hname => by
    have hparts : ∀ c ∈ cs, name ∈ c.boundNames → isReserved name = false := fun c hc =>
      ih c hc ((Node.every_iff.mp h).2 c hc)
    have hin : ∀ ps : List Node, (∀ p ∈ ps, p ∈ cs) → name ∈ Node.boundNamesIn ps →
        isReserved name = false := by
      intro ps hps hmem
      induction ps with
      | nil => exact absurd hmem List.not_mem_nil
      | cons p ps ihps =>
        rw [Node.boundNamesIn, List.mem_append] at hmem
        rcases hmem with hp | hrest
        · exact hparts p (hps p List.mem_cons_self) hp
        · exact ihps (fun q hq => hps q (List.mem_cons_of_mem _ hq)) hrest
    unfold Node.boundNames at hname
    split at hname
    next heq =>
      cases heq
      exact hin _ (fun _ hp => hp) hname
    next heq =>
      cases heq
      rw [List.mem_singleton.mp hname]
      have hroot := (Node.every_iff.mp h).1
      rw [unreservedBinding, Node.kind_mk] at hroot
      simpa using hroot
    next heq =>
      cases heq
      exact hparts _ List.mem_cons_self hname
    next heq =>
      cases heq
      exact hparts _ List.mem_cons_self hname
    next heq =>
      cases heq
      exact hparts _ (List.mem_cons_of_mem _ List.mem_cons_self) hname
    next heq =>
      cases heq
      exact hparts _ List.mem_cons_self hname
    next heq =>
      cases heq
      exact hparts _ List.mem_cons_self hname
    next heq =>
      cases heq
      exact hparts _ List.mem_cons_self hname
    next heq =>
      cases heq
      exact hparts _ (List.mem_cons_of_mem _ List.mem_cons_self) hname
    next => exact absurd hname List.not_mem_nil

/-! ## After the extraction -/

/-- The name of a declaration is the identifier that stands in front. -/
theorem kind_of_declaration {n : Node} {name : String} {sp : Span}
    (h : serverSite? n = some (.declaration name sp)) : (n.part 0).kind = .ident name := by
  cases standsAt_of_serverSite? h with
  | declaration _ hname _ => exact hname

/-- A call that takes the place of a closure binds no reserved name, if the closure has none. -/
theorem every_unreservedBinding_fill {c : Node} {site : Site} (hs : serverSite? c = some site)
    (hc : unreserved c = true) (target : String) (bound : List String) :
    (site.fill (Build.bindNull target bound)).every unreservedBinding = true := by
  have hcall : (Build.bindNull target bound).every unreservedBinding = true := by
    have hbound : ∀ n ∈ bound.map Build.ident, n.every unreservedBinding = true := by
      intro n hn
      obtain ⟨name, -, rfl⟩ := List.mem_map.mp hn
      rfl
    have hargs := Node.everyIn_iff.mpr hbound
    simp only [Build.bindNull, Build.expr, Build.node, Build.ident, Node.every, Node.everyIn,
      unreservedBinding, hargs]
    rfl
  cases site with
  | expression => exact hcall
  | declaration name sp =>
    have hname := isReserved_of_unreserved (unreserved_part hc 0)
      (by rw [kind_of_declaration hs]; rfl)
    simp only [Site.fill, Build.constant, Build.node, Node.every, Node.everyIn, unreservedBinding,
      Node.kind_mk, hcall, hname]
    rfl
  | defaultExport =>
    simp only [Site.fill, Build.exportDefault, Build.node, Node.every, Node.everyIn,
      unreservedBinding, hcall]
    rfl

/-- The extraction adds no binding of a reserved name. -/
theorem every_unreservedBinding_extract {n : Node} (h : unreserved n = true) (st : Extraction) :
    (extract n st).1.every unreservedBinding = true := by
  refine every_extract ⟨unreservedBinding_of_unreservedNode, fun n _ => ?_, ?_⟩ n st h
  · exact unreservedBinding_of_unreservedNode n
  · exact fun _ _ target bound hs hc => every_unreservedBinding_fill hs hc target bound

/-! ## Declared exports -/

/-- The names that an item of a module exports where it declares them: the name of what it declares,
or those that its declarators bind. -/
def declaredExports : Node → List String
  | .mk (.module .exportDecl) _ [d] => (d.part 0).kind.identifier?.toList ++ d.variableNames
  | _ => []

/-- A closure that was moved out is declared once, under its name. -/
theorem declaredExports_items (id : String) (e : Extracted) :
    (e.items id).flatMap declaredExports = [e.name] := by
  cases e <;> rfl

/-- A node is the identifier after the extraction that it was before. -/
theorem identifier?_extract (n : Node) (st : Extraction) :
    (extract n st).1.kind.identifier? = n.kind.identifier? := by
  have hcases : ∀ (k : Kind) (name : String), k.identifier? = some name ↔
      k = .ident name ∨ ∃ o, k = .pattern (.binding name o) := by
    intro k name
    unfold Kind.identifier?
    split
    next => simp
    next => simp
    next hident hbinding =>
      constructor
      · exact fun h => absurd h (by simp)
      · rintro (h | ⟨o, h⟩)
        · exact absurd h (hident name)
        · exact absurd h (hbinding name o)
  apply Option.ext
  intro name
  rw [hcases, hcases, extract_kind_iff rfl]
  exact or_congr_right (exists_congr fun o => extract_kind_iff rfl n st)

theorem isReserved_of_mem_variableNames {d : Node} {name : String}
    (h : d.every unreservedBinding = true) (hname : name ∈ d.variableNames) :
    isReserved name = false := by
  unfold Node.variableNames at hname
  split at hname
  next w b sp ds =>
    obtain ⟨declarator, hd, hmem⟩ := List.mem_flatMap.mp hname
    exact isReserved_of_mem_boundNames _
      (Node.every_part ((Node.every_iff.mp h).2 declarator hd) rfl 0) hmem
  next => exact absurd hname List.not_mem_nil

/-- What stands in front of a declaration after the extraction stood there before. -/
theorem identifier?_part_extract {d : Node} {st : Extraction} {name : String}
    (h : ((extract d st).1.part 0).kind.identifier? = some name) :
    (d.part 0).kind.identifier? = some name := by
  cases hs : serverSite? d with
  | some site =>
    rw [extract_closure hs] at h
    cases site <;> exact absurd h (by simp [Site.fill, Build.constant, Build.exportDefault,
      Build.bindNull, Build.expr, Build.node, Node.part, Kind.identifier?])
  | none =>
    rcases extract_of_serverSite?_eq_none hs st with heq | heq
    · rw [heq] at h
      exact h
    · obtain ⟨st', hpart⟩ := part_rewriteParts d 0 st
      rw [heq, hpart, identifier?_extract] at h
      exact h

/-- What is left of an item exports no reserved name where it declares it. -/
theorem isReserved_of_mem_declaredExports_extract {item : Node} {name : String}
    (h : unreserved item = true) (st : Extraction)
    (hname : name ∈ declaredExports (extract item st).1) : isReserved name = false := by
  have hbinds := every_unreservedBinding_extract h st
  have hkind : (extract item st).1.kind = .module .exportDecl ↔ item.kind = .module .exportDecl :=
    extract_kind_iff rfl item st
  generalize hout : (extract item st).1 = out at hname hbinds hkind
  unfold declaredExports at hname
  split at hname
  next sp d =>
    have hitem := hkind.mp rfl
    have hd : d.every unreservedBinding = true :=
      (Node.every_iff.mp hbinds).2 d (List.mem_singleton_self d)
    rcases List.mem_append.mp hname with hfront | hvariable
    · -- The item is only rewritten inside, so `d` is what became of its only part.
      obtain ⟨st', hpart⟩ := part_rewriteParts item 0 st
      rw [← extract_of_keepsKind (by rw [hitem]; rfl) (by rw [hitem]; rfl), hout] at hpart
      have hd' : d = (extract (item.part 0) st').1 := hpart
      rw [Option.mem_toList, hd'] at hfront
      exact isReserved_of_unreserved (unreserved_part (unreserved_part h 0) 0)
        (identifier?_part_extract hfront)
    · exact isReserved_of_mem_variableNames hd hvariable
  next => exact absurd hname List.not_mem_nil

/-! ## Registrations -/

/-- A tree without reserved names registers nothing. -/
theorem registrations_of_unreserved : ∀ n : Node, unreserved n = true → registrations n = [] :=
  Node.of_parts fun k sp cs ih h => by
    rw [List.eq_nil_iff_forall_not_mem]
    intro ⟨id, name⟩ hr
    rcases mem_registrations.mp hr with hown | ⟨c, hc, hr⟩
    · -- The function that registers something has a reserved name.
      obtain ⟨-, hcallee, -⟩ := (registrationOf?_eq_some_iff _ id name).mp hown
      have hreserved := isReserved_of_unreserved (unreserved_part h 0)
        (by rw [hcallee]; rfl)
      rw [isReserved_registerServer] at hreserved
      exact absurd hreserved (by simp)
    · rw [ih c hc ((Node.every_iff.mp h).2 c hc)] at hr
      exact absurd hr List.not_mem_nil

theorem registrationsIn_of_unreserved {ns : List Node} (h : ∀ n ∈ ns, unreserved n = true) :
    registrationsIn ns = [] := by
  rw [List.eq_nil_iff_forall_not_mem]
  intro r hr
  obtain ⟨n, hn, hr⟩ := mem_registrationsIn.mp hr
  rw [registrations_of_unreserved n (h n hn)] at hr
  exact absurd hr List.not_mem_nil

/-- Neither what is left of items without reserved names nor a closure that is moved out of them
registers anything. -/
theorem registrations_extractAll_of_unreserved {items : List Node}
    (h : ∀ n ∈ items, unreserved n = true) :
    registrationsIn (extractAll items {}).1 = [] ∧
      foundRegistrations (extractAll items {}).2 = [] := by
  have hnone : ∀ r, ¬(r ∈ registrationsIn (extractAll items {}).1 ∨
      r ∈ foundRegistrations (extractAll items {}).2) := by
    intro r hr
    rcases mem_registrationsIn_extractAll items {} r hr with hold | hfound
    · rw [registrationsIn_of_unreserved h] at hold
      exact absurd hold List.not_mem_nil
    · exact absurd hfound List.not_mem_nil
  constructor
  · exact List.eq_nil_iff_forall_not_mem.mpr fun r hr => hnone r (.inl hr)
  · exact List.eq_nil_iff_forall_not_mem.mpr fun r hr => hnone r (.inr hr)

end ServerBoundary.Boundary
