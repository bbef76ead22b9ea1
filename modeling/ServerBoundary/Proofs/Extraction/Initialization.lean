import ServerBoundary.Proofs.Extraction.OuterNames
import ServerBoundary.Proofs.Extraction.Script
import ServerBoundary.Proofs.References.Agreement
import ServerBoundary.Proofs.References.Idempotence

/-!
# Declarations that become constants

The declaration of a server function becomes a constant where it stands. A function can be used
before its declaration, and a constant cannot, so it matters which statements stand before it in its
statement list: the items of the module, or the statements of a block.

> `exists_moved_list`: every block of a module is found again in the module that comes out, in its
> place or in a closure that was moved out.

> `constant_is_initialized_first_iff`: no statement before the constant reads its name outside its
> functions if and only if none did before the declaration, and no closure that stands there is
> given the name.

> `constant_is_read_uninitialized`: a module that uses the function first reads the constant before
> it is initialized.
-/

namespace ServerBoundary.Boundary

open Syntax

/-! ## Blocks that are found again -/

/-- Whether a kind of node has no parts. -/
def isAtom : Kind → Bool
  | .absent => true
  | .ident _ => true
  | .literal _ => true
  | _ => false

/-- Whether a node has the parts of its kind: names and literals have none, and a declaration of a
function has its name, if there is one, and the function. -/
def isFormed (n : Node) : Bool :=
  match n.kind with
  | .stmt (.function _) => n.children.length == 2 && isAtom (n.part 0).kind
  | .module .exportDefaultFunction => n.children.length == 2 && isAtom (n.part 0).kind
  | k => !isAtom k || n.children.length == 0

theorem isAtom_eq_false {n : Node} (h : isFormed n = true) (hn : n.children ≠ []) :
    isAtom n.kind = false := by
  unfold isFormed at h
  split at h
  next hk => rw [hk]; rfl
  next hk => rw [hk]; rfl
  next =>
    rcases Bool.or_eq_true_iff.mp h with hatom | hlength
    · simpa using hatom
    · exact absurd (List.length_eq_zero_iff.mp (beq_iff_eq.mp hlength)) hn

theorem isFormed_rewriteParts (n : Node) (st : Extraction) :
    isFormed (rewriteParts n st).1 = isFormed n := by
  obtain ⟨st', hpart⟩ := part_rewriteParts n 0 st
  have hlength : (rewriteParts n st).1.children.length = n.children.length :=
    length_extractAll _ _
  have hatom : isAtom (extract (n.part 0) st').1.kind = isAtom (n.part 0).kind :=
    test_kind_extract (fun k hk => by
      cases k <;> first | rfl | exact absurd hk Bool.false_ne_true) _ _
  unfold isFormed
  rw [show (rewriteParts n st).1.kind = n.kind from rfl, hlength, hpart, hatom]

/-- A node stands in a tree, below nodes that have parts. -/
inductive StandsIn (b : Node) : Node → Prop
  | here : StandsIn b b
  | part {n c : Node} : isAtom n.kind = false → c ∈ n.children → StandsIn b c → StandsIn b n

/-- The block `b` as it is moved, with its directives or without them, stands in a tree. -/
def MovedIn (b n : Node) : Prop :=
  ∃ b', (b' = b ∨ b' = stripUseServer b) ∧ StandsIn b' n

section Blocks

variable {b n : Node}

/-- A block that stands in a node of another kind stands in a part of it. -/
theorem StandsIn.exists_part (h : StandsIn b n) (hb : b.kind = .stmt .block)
    (hn : n.kind ≠ .stmt .block) : isAtom n.kind = false ∧ ∃ c ∈ n.children, StandsIn b c := by
  cases h with
  | here => exact absurd hb hn
  | part ha hc hstands => exact ⟨ha, _, hc, hstands⟩

/-- No block stands in a directive. -/
theorem not_standsIn_directive (hb : b.kind = .stmt .block) (hn : isUseServer n = true) :
    ¬ StandsIn b n := by
  intro h
  obtain ⟨hk, lit, raw, hcs, hlit⟩ := (directiveValue?_eq_some_iff n _).mp (beq_iff_eq.mp hn)
  obtain ⟨-, c, hc, hstands⟩ := h.exists_part hb (by rw [hk]; simp)
  rw [hcs, List.mem_singleton] at hc
  subst hc
  obtain ⟨hatom, -⟩ := hstands.exists_part hb (by rw [hlit]; simp)
  rw [hlit] at hatom
  exact absurd hatom (by simp [isAtom])

/-- A block of a body is there without the directives of the body, or it is the body. -/
theorem StandsIn.stripUseServer {body : Node} (h : StandsIn b body) (hb : b.kind = .stmt .block) :
    MovedIn b (Boundary.stripUseServer body) := by
  cases h with
  | here => exact ⟨_, .inr rfl, .here⟩
  | @part _ c ha hc hstands =>
    refine ⟨b, .inl rfl, ?_⟩
    unfold Boundary.stripUseServer
    split
    next sp ss =>
      have hkept : isUseServer c = false :=
        Bool.eq_false_iff.mpr fun hdirective => not_standsIn_directive hb hdirective hstands
      exact .part rfl (List.mem_filter.mpr ⟨hc, by rw [hkept]; rfl⟩) hstands
    next => exact .part ha hc hstands

/-- A block of a parameter list is there behind more parameters. -/
theorem StandsIn.moreParams {gsp : Span} {params : List Node}
    (h : StandsIn b (.mk .group gsp params)) (hb : b.kind = .stmt .block) (more : List Node) :
    StandsIn b (.mk .group gsp (more ++ params)) := by
  obtain ⟨-, c, hc, hstands⟩ := h.exists_part hb (by simp)
  exact .part rfl (List.mem_append_right _ hc) hstands

/-- A block of a function is found again in the function with more parameters and without its
directives. -/
theorem StandsIn.moved_function {m : FunctionMode} {sp gsp : Span} {params : List Node}
    {ds body : Node} {rest : List Node}
    (h : StandsIn b (.mk (.member (.function m)) sp (.mk .group gsp params :: ds :: body :: rest)))
    (hb : b.kind = .stmt .block) (more : List Node) :
    MovedIn b (.mk (.member (.function m)) sp
      (.mk .group gsp (more ++ params) :: ds :: Boundary.stripUseServer body :: rest)) := by
  obtain ⟨-, c, hc, hstands⟩ := h.exists_part hb (by simp)
  simp only [Node.children_mk, List.mem_cons] at hc
  rcases hc with rfl | rfl | rfl | hrest
  · exact ⟨b, .inl rfl, .part rfl List.mem_cons_self (hstands.moreParams hb more)⟩
  · exact ⟨b, .inl rfl, .part rfl (by simp) hstands⟩
  · obtain ⟨b', hb', hbody⟩ := hstands.stripUseServer hb
    exact ⟨b', hb', .part rfl (by simp) hbody⟩
  · exact ⟨b, .inl rfl, .part rfl (by simp [hrest]) hstands⟩

/-- The same for every form of a closure. -/
theorem StandsIn.moved {f : Node} (h : StandsIn b f) (hf : IsFunction f)
    (hb : b.kind = .stmt .block) (names : List String) :
    MovedIn b (prependParams names (stripFunction f)) := by
  cases hf with
  | function m sp gsp params ds body rest => exact h.moved_function hb (names.map plainParam)
  | arrow a sp gsp params body rest =>
    obtain ⟨-, c, hc, hstands⟩ := h.exists_part hb (by simp)
    simp only [Node.children_mk, List.mem_cons] at hc
    rcases hc with rfl | rfl | hrest
    · exact ⟨b, .inl rfl, .part rfl List.mem_cons_self (hstands.moreParams hb _)⟩
    · obtain ⟨b', hb', hbody⟩ := hstands.stripUseServer hb
      exact ⟨b', hb', .part rfl (List.mem_cons_of_mem _ List.mem_cons_self) hbody⟩
    · exact ⟨b, .inl rfl,
        .part rfl (List.mem_cons_of_mem _ (List.mem_cons_of_mem _ hrest)) hstands⟩
  | expression m sp fsp gsp name params ds body rest more =>
    obtain ⟨-, c, hc, hstands⟩ := h.exists_part hb (by simp)
    simp only [Node.children_mk, List.mem_cons] at hc
    rcases hc with rfl | rfl | hmore
    · exact ⟨b, .inl rfl, .part rfl List.mem_cons_self hstands⟩
    · obtain ⟨b', hb', hfunction⟩ := hstands.moved_function hb (names.map plainParam)
      exact ⟨b', hb', .part rfl (List.mem_cons_of_mem _ List.mem_cons_self) hfunction⟩
    · exact ⟨b, .inl rfl,
        .part rfl (List.mem_cons_of_mem _ (List.mem_cons_of_mem _ hmore)) hstands⟩

/-- A block of the function of a closure stands in the items of the closure. -/
theorem StandsIn.items {e : Extracted} (h : StandsIn b e.function) (id : String) :
    ∃ item ∈ e.items id, StandsIn b item := by
  cases e with
  | declaration name f =>
    exact ⟨_, List.mem_cons_self, .part rfl List.mem_cons_self
      (.part rfl (List.mem_cons_of_mem _ List.mem_cons_self) h)⟩
  | expression name f =>
    -- The declaration of a constant, its declarator, the call that registers, and its arguments.
    exact ⟨_, List.mem_cons_self, .part rfl List.mem_cons_self (.part rfl List.mem_cons_self
      (.part rfl (List.mem_cons_of_mem _ List.mem_cons_self)
        (.part rfl (List.mem_cons_of_mem _ List.mem_cons_self)
          (.part rfl List.mem_cons_self h))))⟩

/-- Where the first of two parts is a name, a block stands in the second. -/
theorem StandsIn.second {c : Node} {i : Nat} (h : StandsIn b c) (hb : b.kind = .stmt .block)
    (hn : n.children.length = 2 ∧ isAtom (n.part 0).kind = true) (hc : n.children[i]? = some c) :
    StandsIn b (n.part 1) := by
  obtain ⟨hlength, hatom⟩ := hn
  have hi : i < 2 := hlength ▸ (List.getElem?_eq_some_iff.mp hc).1
  have hpart : n.part i = c := by rw [Node.part, List.getD_eq_getElem?_getD, hc]; rfl
  obtain rfl | rfl : i = 0 ∨ i = 1 := by omega
  · rw [hpart] at hatom
    have hother : c.kind ≠ .stmt .block := fun hk => by
      rw [hk] at hatom
      exact absurd hatom Bool.false_ne_true
    exact absurd ((h.exists_part hb hother).1.symm.trans hatom) Bool.false_ne_true
  · rwa [hpart]

/-- A block that stands in a part of a closure is found again in what is moved out: the first part
of a declaration is its name. -/
theorem movedIn_of_site {c : Node} {i : Nat} {site : Site} (hs : serverSite? n = some site)
    (hn : isFormed n = true) (hc : n.children[i]? = some c) (hb : b.kind = .stmt .block)
    (h : StandsIn b c) (names : List String) :
    MovedIn b (prependParams names (stripFunction (site.closure n))) := by
  refine StandsIn.moved ?_ (isFunction_closure hs) hb names
  have hmem := List.mem_of_getElem? hc
  unfold isFormed at hn
  cases standsAt_of_serverSite? hs with
  | function hk => exact .part (by rw [Site.closure, hk]; rfl) hmem h
  | arrow hk => exact .part (by rw [Site.closure, hk]; rfl) hmem h
  | declaration hk =>
    rw [hk] at hn
    exact h.second hb ((Bool.and_eq_true_iff.mp hn).imp_left beq_iff_eq.mp) hc
  | defaultExport hk =>
    rw [hk] at hn
    exact h.second hb ((Bool.and_eq_true_iff.mp hn).imp_left beq_iff_eq.mp) hc

end Blocks

/-- The closure that a node becomes is the last one that was found. -/
theorem mem_found_of_serverSite? {n : Node} {site : Site} (hs : serverSite? n = some site)
    (st : Extraction) :
    site.moved (rewriteParts n st).2.nextName
        (prependParams ((rewriteParts n st).2.captured (site.closure (rewriteParts n st).1))
          (stripFunction (site.closure (rewriteParts n st).1))) ∈ (extract n st).2.found := by
  rw [extract_closure hs]
  exact List.mem_append_right _ (List.mem_singleton_self _)

/-- **Every block is found again**: in its place, or in a closure that was moved out. -/
theorem standsIn_of_arrival {d : Node} {st' : Extraction} (hd : d.kind = .stmt .block) :
    ∀ {p : List Nat} {n : Node} {st : Extraction}, arrival n st p = some (d, st') →
      (∀ a ∈ n.above p, isFormed a = true) →
      StandsIn (rewriteParts d st').1 (extract n st).1 ∨
        ∃ e ∈ (extract n st).2.found, MovedIn (rewriteParts d st').1 e.function := by
  have hb : (rewriteParts d st').1.kind = .stmt .block := hd
  intro p
  induction p with
  | nil =>
    intro n st h _
    rw [arrival_nil, Option.some.injEq, Prod.mk.injEq] at h
    obtain ⟨rfl, rfl⟩ := h
    rw [extract_of_keepsKind (by rw [hd]; rfl) (by rw [hd]; rfl)]
    exact .inl .here
  | cons i p ih =>
    intro n st h hformed
    obtain ⟨c, hc, ht, hstep⟩ := exists_step_of_arrival h
    rw [Node.above_cons hc] at hformed
    have hn : isFormed (rewriteParts n st).1 = true := by
      rw [isFormed_rewriteParts]
      exact hformed n (List.mem_append_right _ (List.mem_singleton_self n))
    have hchild : (rewriteParts n st).1.children[i]? =
        some (extract c (extractAll (n.children.take i) (st.enter n.localNames?)).2).1 :=
      getElem?_extractAll hc _
    rcases ih hstep fun a ha => hformed a (List.mem_append_left _ ha) with hstands | ⟨e, he, hmoved⟩
    · cases hs : serverSite? n with
      | none =>
        left
        rw [extract_of_not_isType ht, extractSite_of_none (by rw [serverSite?_rewriteParts, hs])]
        exact .part (isAtom_eq_false hn (List.ne_nil_of_mem (List.mem_of_getElem? hchild)))
          (List.mem_of_getElem? hchild) hstands
      | some site =>
        refine .inr ⟨_, mem_found_of_serverSite? hs st, ?_⟩
        have hmoved := movedIn_of_site (by rw [serverSite?_rewriteParts, hs]) hn hchild hb hstands
          ((rewriteParts n st).2.captured (site.closure (rewriteParts n st).1))
        cases site <;> exact hmoved
    · -- What was found in the part stays found.
      have hkept : (extract c _).2.found <+: (extract n st).2.found :=
        found_prefix_arrival (p := [i]) ((arrival_cons hc ht st []).trans (arrival_nil _ _))
      exact .inr ⟨e, hkept.subset he, hmoved⟩

section Module

variable {shebang : Option String} {sp : Span} {items : List Node} {p : List Nat} {d : Node}
  {st : Extraction}

/-- A block of a module stands in the module that comes out, with its directives or without them. -/
theorem exists_moved_list
    (ha : arrival (.mk (.module (.module_ shebang)) sp items) {} p = some (d, st))
    (hd : d.kind = .stmt .block)
    (hformed : ∀ a ∈ (Node.mk (.module (.module_ shebang)) sp items).above p, isFormed a = true)
    (id : String) :
    MovedIn (rewriteParts d st).1 (withItems (.mk (.module (.module_ shebang)) sp items)
      (insertAfterHead ((extractAll items {}).2.found.flatMap (·.items id))
        (extractAll items {}).1)) := by
  have hplace := standsIn_of_arrival hd ha hformed
  rw [extract_module] at hplace
  rcases hplace with hstands | ⟨e, he, b', hb', hstands⟩
  · obtain ⟨hatom, item, hitem, hstands⟩ := hstands.exists_part hd (by simp)
    exact ⟨_, .inl rfl, .part rfl (mem_insertAfterHead.mpr (.inr hitem)) hstands⟩
  · obtain ⟨item, hitem, hstands⟩ := hstands.items id
    exact ⟨b', hb', .part rfl
      (mem_insertAfterHead.mpr (.inl (List.mem_flatMap.mpr ⟨e, he, hitem⟩))) hstands⟩

/-! ## Statements before the constant -/

/-- A statement that declares a server function, exported or not. -/
inductive DeclaresServerFunction (name : String) : Node → Prop
  | plain {s : Node} {at_ : Span} : serverSite? s = some (.declaration name at_) →
      DeclaresServerFunction name s
  | exported {s : Node} {at_ sp : Span} : serverSite? s = some (.declaration name at_) →
      DeclaresServerFunction name (.mk (.module .exportDecl) sp [s])

/-- The constant that stands for a server function, exported or not. -/
inductive BindsServerFunction (name : String) : Node → Prop
  | plain (at_ : Span) (target : String) (bound : List String) :
      BindsServerFunction name (Site.fill (Build.bindNull target bound) (.declaration name at_))
  | exported (at_ sp : Span) (target : String) (bound : List String) :
      BindsServerFunction name (.mk (.module .exportDecl) sp
        [Site.fill (Build.bindNull target bound) (.declaration name at_)])

theorem DeclaresServerFunction.binds {name : String} {s : Node}
    (h : DeclaresServerFunction name s) (st : Extraction) :
    BindsServerFunction name (extract s st).1 := by
  cases h with
  | plain hs =>
    rw [extract_closure hs]
    exact .plain ..
  | exported hs =>
    rw [extract_of_keepsKind rfl rfl]
    change BindsServerFunction name (.mk (.module .exportDecl) _ (extractAll [_] _).1)
    rw [extractAll_cons, extract_closure hs]
    exact .exported ..

/-- Somewhere in the statement a closure is found. -/
theorem DeclaresServerFunction.found_ne_nil {name : String} {s : Node}
    (h : DeclaresServerFunction name s) (st : Extraction) : (extract s st).2.found ≠ [] := by
  cases h with
  | plain hs => exact List.ne_nil_of_mem (mem_found_of_serverSite? hs st)
  | @exported d _ sp hs =>
    have hpart := (arrival_cons (n := .mk (.module .exportDecl) sp [d]) (i := 0) rfl rfl st
      []).trans (arrival_nil _ _)
    have hkept := found_prefix_arrival hpart
    exact List.ne_nil_of_mem (hkept.subset (mem_found_of_serverSite? hs _))

theorem BindsServerFunction.not_isHead {name : String} {const : Node}
    (h : BindsServerFunction name const) : isHead const = false := by
  cases h <;> rfl

theorem BindsServerFunction.not_isUseServer {name : String} {const : Node}
    (h : BindsServerFunction name const) : isUseServer const = false := by
  cases h <;> rfl

/-- What is put behind the head is put before anything else. -/
theorem insertAfterHead_append {c : Node} (hc : isHead c = false) (new pre post : List Node) :
    insertAfterHead new (pre ++ c :: post) = insertAfterHead new pre ++ c :: post := by
  have hlist : ∀ xs : List Node, insertAfterHead new xs =
      xs.takeWhile isHead ++ (new ++ xs.dropWhile isHead) := fun xs => List.append_assoc ..
  induction pre with
  | nil =>
    rw [List.nil_append, hlist, hlist, List.takeWhile_cons_of_neg (by simp [hc]),
      List.dropWhile_cons_of_neg (by simp [hc])]
    simp
  | cons x pre ih =>
    rw [hlist, hlist] at ih ⊢
    rw [List.cons_append]
    cases hx : isHead x with
    | true =>
      rw [List.takeWhile_cons_of_pos hx, List.dropWhile_cons_of_pos hx,
        List.takeWhile_cons_of_pos hx, List.dropWhile_cons_of_pos hx, List.cons_append, ih]
      rfl
    | false =>
      rw [List.takeWhile_cons_of_neg (by simp [hx]), List.dropWhile_cons_of_neg (by simp [hx]),
        List.takeWhile_cons_of_neg (by simp [hx]), List.dropWhile_cons_of_neg (by simp [hx])]
      simp

/-- A closure that is moved out of an expression is a function. -/
theorem outerNames_of_expression {name : String} {f : Node}
    (he : Extracted.expression name f ∈ (extractAll items {}).2.found) : outerNames f = [] := by
  obtain ⟨k, hk⟩ := List.getElem?_of_mem he
  obtain ⟨path, c, site, st, -, hs, heq, -⟩ := @exists_movedOut_of_found none .generated _ _ _ hk
  have hform : IsFunction (site.closure (rewriteParts c st).1) :=
    isFunction_closure (by rw [serverSite?_rewriteParts, hs])
  have hkind := kind_prependParams_stripFunction hform
    ((rewriteParts c st).2.captured (site.closure (rewriteParts c st).1))
  cases standsAt_of_serverSite? hs with
  | function hc =>
    cases heq
    exact outerNames_of_no_parts (hkind.trans hc) fun _ => rfl
  | arrow hc =>
    cases heq
    exact outerNames_of_no_parts (hkind.trans hc) fun _ => rfl
  | declaration => cases heq
  | defaultExport => cases heq

/-- A call that registers a value reads what it registers it with, and the value. -/
theorem outerNames_registration (value : Node) (id name : String) :
    outerNames (registration value id name) = registerServer :: outerNames value := by
  change registerServer :: ((outerNames value ++ ([] ++ ([] ++ []))) ++ ([] ++ [])) = _
  simp only [List.append_nil]

/-- The items of a closure read what they declare and what they register it with. -/
theorem mem_outerNames_items {x : String} {e : Extracted}
    (he : e ∈ (extractAll items {}).2.found) {id : String} {item : Node} (hitem : item ∈ e.items id)
    (hx : x ∈ outerNames item) : x = e.name ∨ x = registerServer := by
  cases e with
  | declaration name f =>
    simp only [Extracted.items, List.mem_cons, List.not_mem_nil, or_false] at hitem
    rcases hitem with rfl | rfl
    · left
      change x ∈ outerNames (.mk (.stmt (.function false)) f.span [Build.ident name, f]) ++ [] at hx
      rw [List.append_nil] at hx
      exact (outerNames_of_declaration rfl rfl).mp hx
    · change x ∈ outerNames (registration (Build.ident name) id name) ++ [] at hx
      rw [outerNames_registration] at hx
      change x ∈ [registerServer, name] at hx
      rw [List.mem_pair] at hx
      exact hx.symm
  | expression name f =>
    rw [Extracted.items, List.mem_singleton] at hitem
    subst hitem
    change x ∈ ((name :: (outerNames (registration f id name) ++ [])) ++ []) ++ [] at hx
    rw [outerNames_registration, outerNames_of_expression he] at hx
    change x ∈ [name, registerServer] at hx
    exact List.mem_pair.mp hx

theorem not_mem_outerNames_moved {x : String} (hx : isReserved x = false) (id : String) :
    ∀ item ∈ (extractAll items {}).2.found.flatMap (·.items id), x ∉ outerNames item := by
  intro item hitem hmem
  obtain ⟨e, he, hitem⟩ := List.mem_flatMap.mp hitem
  rcases mem_outerNames_items he hitem hmem with rfl | rfl
  · obtain ⟨k, hk⟩ := exists_extractedName_of_mem_movedNames (List.mem_map.mpr ⟨e, he, rfl⟩)
    rw [hk, isReserved_extractedName] at hx
    exact Bool.noConfusion hx
  · rw [isReserved_registerServer] at hx
    exact Bool.noConfusion hx

/-- Whether some statement has a name outside its functions. -/
def Reads (x : String) (ss : List Node) : Prop := ∃ s ∈ ss, x ∈ outerNames s

/-- Statements that stand for others: all of these are there, apart from directives, and what is
more or less reads no more and no less. -/
structure StandFor (x : String) (ss pre : List Node) : Prop where
  kept : ∀ s ∈ pre, isUseServer s = false → s ∈ ss
  reads_iff : Reads x ss ↔ Reads x pre

variable {x : String} {pre : List Node}

theorem StandFor.refl : StandFor x pre pre := ⟨fun _ hs _ => hs, Iff.rfl⟩

/-- Items that read nothing can be put behind the head. -/
theorem StandFor.insertAfterHead {new : List Node} (hnew : ∀ item ∈ new, x ∉ outerNames item) :
    StandFor x (Boundary.insertAfterHead new pre) pre where
  kept s hs _ := mem_insertAfterHead.mpr (.inr hs)
  reads_iff := by
    constructor
    · rintro ⟨s, hs, hx⟩
      exact ⟨s, (mem_insertAfterHead.mp hs).resolve_left fun hitem => hnew s hitem hx, hx⟩
    · rintro ⟨s, hs, hx⟩
      exact ⟨s, mem_insertAfterHead.mpr (.inr hs), hx⟩

/-- A directive reads nothing. -/
theorem outerNames_of_isUseServer {s : Node} (hs : isUseServer s = true) : outerNames s = [] := by
  obtain ⟨hk, c, raw, hcs, hc⟩ := (directiveValue?_eq_some_iff s _).mp (beq_iff_eq.mp hs)
  obtain ⟨k, sp, cs⟩ := s
  cases hk
  cases hcs
  change outerNames c ++ [] = []
  rw [outerNames_of_no_parts hc fun _ => rfl]
  rfl

/-- Directives can be taken out. -/
theorem StandFor.filter : StandFor x (pre.filter fun s => !isUseServer s) pre where
  kept s hs hdirective := List.mem_filter.mpr ⟨hs, by rw [hdirective]; rfl⟩
  reads_iff := by
    constructor
    · rintro ⟨s, hs, hx⟩
      exact ⟨s, (List.mem_filter.mp hs).1, hx⟩
    · rintro ⟨s, hs, hx⟩
      refine ⟨s, List.mem_filter.mpr ⟨hs, ?_⟩, hx⟩
      cases hdirective : isUseServer s with
      | false => rfl
      | true =>
        rw [outerNames_of_isUseServer hdirective] at hx
        exact absurd hx List.not_mem_nil

/-! ## The list of a declaration -/

/-- A closure that stands before statement `i` of the list `d` at a path, outside functions, is
given a name. -/
def GivenBefore (module : Node) (p : List Nat) (d : Node) (i : Nat) (x : String) : Prop :=
  ∃ j s, j < i ∧ d.children[j]? = some s ∧
    ∃ q, isOuter s q = true ∧ x ∈ givenNames module {} (p ++ j :: q)

/-- What is given at a place of a statement, seen from the module. -/
theorem givenNames_append {n s : Node} {st₀ : Extraction} (ha : arrival n st₀ p = some (d, st))
    {j : Nat} (hs : d.children[j]? = some s) (ht : d.kind.isType = false) (q : List Nat) :
    givenNames n st₀ (p ++ j :: q) =
      givenNames s (extractAll (d.children.take j) (st.enter d.localNames?)).2 q := by
  rw [givenNames, arrival_append (j :: q) ha, arrival_cons hs ht, givenNames]

theorem reads_take {ss : List Node} {i : Nat} :
    Reads x (ss.take i) ↔ ∃ j s, j < i ∧ ss[j]? = some s ∧ x ∈ outerNames s := by
  constructor
  · rintro ⟨s, hs, hx⟩
    obtain ⟨j, hj⟩ := List.getElem?_of_mem hs
    rw [List.getElem?_take] at hj
    split at hj
    next hlt => exact ⟨j, s, hlt, hj, hx⟩
    next => cases hj
  · rintro ⟨j, s, hlt, hj, hx⟩
    exact ⟨s, List.mem_of_getElem? (by rw [List.getElem?_take, if_pos hlt, hj]), hx⟩

/-- The first statements of a list, rewritten, read what they read before and what is given to the
closures there. -/
theorem reads_take_rewriteParts (hx : isReserved x = false) {module : Node}
    (ha : arrival module {} p = some (d, st)) (ht : d.kind.isType = false) (i : Nat) :
    Reads x ((rewriteParts d st).1.children.take i) ↔
      Reads x (d.children.take i) ∨ GivenBefore module p d i x := by
  rw [reads_take, reads_take]
  constructor
  · rintro ⟨j, s', hj, hs', hread⟩
    obtain ⟨s, hs, rfl⟩ := exists_of_getElem?_extractAll hs'
    rw [mem_outerNames_extract hx] at hread
    rcases hread with hread | ⟨q, hq, hgiven⟩
    · exact .inl ⟨j, s, hj, hs, hread⟩
    · exact .inr ⟨j, s, hj, hs, q, hq, by rwa [givenNames_append ha hs ht]⟩
  · have hmem : ∀ j s, j < i → d.children[j]? = some s →
        (x ∈ outerNames s ∨ GivenOutside s
          (extractAll (d.children.take j) (st.enter d.localNames?)).2 x) →
        ∃ j s', j < i ∧ (rewriteParts d st).1.children[j]? = some s' ∧ x ∈ outerNames s' :=
      fun j s hj hs h => ⟨j, _, hj, getElem?_extractAll hs _, (mem_outerNames_extract hx _ _).mpr h⟩
    rintro (⟨j, s, hj, hs, hread⟩ | ⟨j, s, hj, hs, q, hq, hgiven⟩)
    · exact hmem j s hj hs (.inl hread)
    · exact hmem j s hj hs (.inr ⟨q, hq, by rwa [← givenNames_append ha hs ht]⟩)

/-- The list of statements that a list becomes, cut at the constant `const` that statement `i`
becomes. -/
structure CutAt (module : Node) (p : List Nat) (d : Node) (i : Nat) (name : String)
    (out list : Node) (before : List Node) (const : Node) (after : List Node) : Prop where
  /-- The list is in the module that comes out, there or in a closure that was moved out. -/
  stands : StandsIn list out
  kind_eq : list.kind = d.kind
  children_eq : list.children = before ++ const :: after
  binds : BindsServerFunction name const
  /-- The statements before the declaration are before the constant, rewritten, apart from
  directives. -/
  kept : ∀ j s, j < i → d.children[j]? = some s → isUseServer s = false →
    ∃ st, arrival module {} (p ++ [j]) = some (s, st) ∧ (extract s st).1 ∈ before
  /-- They use the constant too early if the statements of the source use the function before its
  declaration, or if this is given to a closure there. -/
  reads_iff : Reads name before ↔ Reads name (d.children.take i) ∨ GivenBefore module p d i name

variable {s : Node} {i : Nat} {name : String}

/-- A list of statements, cut at one of them. -/
theorem eq_take_append_cons_drop {ss : List Node} (hs : ss[i]? = some s) :
    ss = ss.take i ++ s :: ss.drop (i + 1) := by
  obtain ⟨hi, rfl⟩ := List.getElem?_eq_some_iff.mp hs
  rw [← List.drop_eq_getElem_cons hi, List.take_append_drop]

/-- A list is cut at the constant if what is before it stands for the statements before the
declaration. -/
theorem cutAt_of_standFor {module out list const : Node} {before after : List Node}
    (ha : arrival module {} p = some (d, st)) (ht : d.kind.isType = false)
    (hname : isReserved name = false) (hstands : StandsIn list out) (hkind : list.kind = d.kind)
    (hlist : list.children = before ++ const :: after) (hbinds : BindsServerFunction name const)
    (hbefore : StandFor name before ((rewriteParts d st).1.children.take i)) :
    CutAt module p d i name out list before const after where
  stands := hstands
  kind_eq := hkind
  children_eq := hlist
  binds := hbinds
  kept j s hj hs hdirective := by
    refine ⟨_, (arrival_append [j] ha).trans (arrival_cons hs ht st []), hbefore.kept _ ?_ ?_⟩
    · refine List.mem_of_getElem? (i := j) ?_
      rw [List.getElem?_take, if_pos hj]
      exact getElem?_extractAll hs _
    · rw [isUseServer, directiveValue?_extract]
      exact hdirective
  reads_iff := hbefore.reads_iff.trans (reads_take_rewriteParts hname ha ht i)

end Module

/-- **When a constant is initialized before it is read.** Let a statement of a module, or of a block
somewhere in it, declare a server function. The list comes out with the constant in place of the
declaration. No statement before it reads the constant outside functions if and only if no statement
before the declaration used the function there, and no closure there is given it. -/
theorem constant_is_initialized_first_iff (id : String) (shebang : Option String) (sp : Span)
    (items : List Node) (p : List Nat) (d s : Node) (i : Nat) (name : String)
    (hd : (Node.mk (.module (.module_ shebang)) sp items).at? p = some d)
    (habove : ∀ a ∈ (Node.mk (.module (.module_ shebang)) sp items).above p,
      a.kind.isType = false ∧ isFormed a = true)
    (hlist : p = [] ∨ d.kind = .stmt .block) (hs : d.children[i]? = some s)
    (hdeclares : DeclaresServerFunction name s) (hname : isReserved name = false) :
    ∃ out list before const after,
      extractModule (.ok id) (.mk (.module (.module_ shebang)) sp items) = .ok (out, true) ∧
      CutAt (.mk (.module (.module_ shebang)) sp items) p d i name out list before const after := by
  obtain ⟨st, ha⟩ := exists_arrival {} hd fun a h => (habove a h).1
  have ht : d.kind.isType = false := by
    rcases hlist with rfl | hblock
    · cases hd
      rfl
    · rw [hblock]
      rfl
  have hfound : (extractAll items {}).2.found ≠ [] := by
    have hprefix := found_prefix_arrival
      ((arrival_append [i] ha).trans (arrival_cons hs ht st []))
    rw [extract_module] at hprefix
    exact fun hnil => hdeclares.found_ne_nil _ (List.prefix_nil.mp (hnil ▸ hprefix))
  have hbinds := hdeclares.binds (extractAll (d.children.take i) (st.enter d.localNames?)).2
  -- The rewritten list, cut at what becomes of the declaration.
  have hsplit : (rewriteParts d st).1.children = (rewriteParts d st).1.children.take i ++
      (extract s (extractAll (d.children.take i) (st.enter d.localNames?)).2).1 ::
        (rewriteParts d st).1.children.drop (i + 1) :=
    eq_take_append_cons_drop (getElem?_extractAll hs _)
  have hout := @extractModule_of_found (.mk (.module (.module_ shebang)) sp items) hfound id
  rcases hlist with rfl | hblock
  · -- The items of the closures come before the constant as well.
    cases hd
    cases ha
    have hitems := (congrArg (insertAfterHead ((extractAll items {}).2.found.flatMap (·.items id)))
      hsplit).trans (insertAfterHead_append hbinds.not_isHead _ _ _)
    exact ⟨_, _, _, _, _, hout, cutAt_of_standFor (arrival_nil _ _) rfl hname .here rfl hitems
      hbinds (.insertAfterHead (not_mem_outerNames_moved hname id))⟩
  · obtain ⟨list, rfl | rfl, hstands⟩ :=
      exists_moved_list ha hblock (fun a h => (habove a h).2) id
    · exact ⟨_, _, _, _, _, hout, cutAt_of_standFor ha ht hname hstands rfl hsplit hbinds .refl⟩
    · -- The block is the body of a closure and comes without its directives.
      have hstrip : (stripUseServer (rewriteParts d st).1).children =
          (rewriteParts d st).1.children.filter fun s => !isUseServer s := by
        obtain ⟨k, bsp, ss⟩ := d
        cases hblock
        rfl
      rw [hsplit, List.filter_append,
        List.filter_cons_of_pos (by rw [hbinds.not_isUseServer]; rfl)] at hstrip
      exact ⟨_, _, _, _, _, hout, cutAt_of_standFor ha ht hname hstands (kind_stripUseServer _)
        hstrip hbinds .filter⟩

/-- The declaration of a server function `save`. -/
def serverSave : Node :=
  functionNamed "save" [] [Build.statement (Build.string Directive.useServer.text)]

/-- The statement `register(save);`. -/
def registerSave : Node := Build.statement (Build.call "register" [Build.ident "save"])

/-- The statement `register(async () => { 'use server' });`. -/
def registerClosure : Node :=
  Build.statement (Build.call "register" [serverArrow [] []])

/-- Behind a statement that does not use it, and whose closure is not given it, a function is
initialized before it is used. -/
theorem constant_behind_closure_is_initialized :
    let module := Build.module [registerClosure, serverSave, registerSave]
    ∃ out list before const after, extractModule (.ok "m") module = .ok (out, true) ∧
      CutAt module [] module 1 "save" out list before const after ∧ ¬ Reads "save" before := by
  intro module
  obtain ⟨out, list, before, const, after, hout, hcut⟩ :=
    constant_is_initialized_first_iff "m" none .generated
      [registerClosure, serverSave, registerSave] [] module serverSave 1 "save" rfl
      (fun a ha => absurd ha List.not_mem_nil) (.inl rfl) rfl (.plain rfl) (by decide)
  have hbefore := reads_take_rewriteParts (x := "save") (by decide) (arrival_nil module {}) rfl 1
  refine ⟨out, list, before, const, after, hout, hcut, fun hreads => ?_⟩
  -- What is before the constant can be read off the rewritten items.
  exact absurd (hbefore.mpr (hcut.reads_iff.mp hreads)) (by unfold Reads; decide)

/-- In `register(save); function save() { 'use server' }` the function could be used above its
declaration. The constant is read there before it is initialized. -/
theorem constant_is_read_uninitialized :
    let module := Build.module [registerSave, serverSave]
    DeclaresServerFunction "save" serverSave ∧ ∃ out before const after,
      extractModule (.ok "m") module = .ok (out, true) ∧
      out.children = before ++ const :: after ∧ BindsServerFunction "save" const ∧
      registerSave ∈ before ∧ "save" ∈ outerNames registerSave := by
  refine ⟨.plain rfl, _, [_, _, registerSave], _, [], rfl, rfl, .plain .generated _ _, ?_, ?_⟩
  · simp
  · decide

end ServerBoundary.Boundary
