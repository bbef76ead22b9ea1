import ServerBoundary.Boundary.Transform
import ServerBoundary.Proofs.Grammar.Markup
import ServerBoundary.Proofs.Grammar.Statement

/-!
# Modules that were read

> `isModule_of_parse`: the tree of a source that has no fault was read from the text of the source.
-/

namespace ServerBoundary.Grammar

open Syntax Source

variable {src : List Char} {g : Productions} [Sound src g]

/-! ## Imports -/

instance : Gives src .code (importAttributes g) .code (ReadFrom src) where
  yields := .pass fun _ => .pass fun _ => .pass fun _ => .ite
    (.pass fun _ => .pass fun start => .pass fun _ => .take fun ps => .finish fun sp hps => by
      simpa using hps) .last

instance : Gives src .code moduleName .code (ReadFrom src) where
  yields := by
    refine .pass fun start => .pass fun t => ?_
    split
    next => exact .last
    next => exact .pass fun _ => .finish fun sp => by simp
    next => exact .refuse

instance : Looks atTypeMark := by
  refine .andThen fun c => .andThen fun _ => ?_
  split
  next =>
    refine .andThen fun second => ?_
    split <;> infer_instance
  next => infer_instance

instance : Gives src .code importSpecifier .code (ReadFrom src) where
  yields := by
    refine .pass fun start => .pass fun typeOnly => .passIf fun _ => .pass fun second => .ite ?_ ?_
    · refine .take fun imported => .pass fun _ => .bind yields_boundIdentifier fun localName => ?_
      exact .finish fun sp hlocal himported => by simp [hlocal, himported]
    · exact .bind yields_boundIdentifier fun localName => .finish fun sp hlocal => by simp [hlocal]

instance : Gives src .code importClause .code (AllReadFrom src) where
  yields := by
    refine .pass fun start => .pass fun _ => .ite ?_ (.pass fun _ => .last)
    refine .pass fun _ => .bind yields_boundIdentifier fun name => .take fun n => .pure ?_
    intro ⟨sp, heq⟩ hname
    simp [heq, hname]

instance {start : Nat} {isExport typeOnly : Bool} :
    Gives src .code (importEquals g start isExport typeOnly) .code (ReadFrom src) where
  yields := by
    refine .bind yields_boundIdentifier fun name => .pass fun _ => .pass fun inner => ?_
    refine .pass fun second => .pass fun _ => ?_
    extract_lets -underBinder jp
    have hjp : ∀ reference, Yields src .code (jp reference) .code fun n =>
        ReadFrom src reference → ReadFrom src name → ReadFrom src n :=
      fun reference => .pass fun _ => .finish fun sp hreference hname => by simp [hreference, hname]
    clear_value jp
    refine .ite (.pass fun _ => .pass fun _ => .pass fun _ => .pass fun _ => ?_) (.take hjp)
    exact .take fun reference => (hjp reference).mono fun n hn ⟨sp, heq⟩ => hn (by simp [heq])

instance : Gives src .code (importItem g) .code (ReadFrom src) where
  yields := by
    refine .pass fun start => .pass fun _ => .pass fun t => ?_
    split
    next =>
      refine .take fun source => .take fun attrs => .pass fun _ => .finish ?_
      exact fun sp hattrs hsource => by simp [hattrs, hsource]
    next =>
      refine .pass fun c => .pass fun _ => ?_
      extract_lets -underBinder jp
      have hjp : ∀ typeOnly, Yields src .code (jp typeOnly) .code (ReadFrom src) := by
        refine fun typeOnly => .passIf fun _ => .pass fun second => .pass fun c => .ite .last ?_
        refine .pass fun inner => .pass fun _ => .pass fun _ => ?_
        extract_lets -underBinder jp
        have hjp : ∀ specifiers, Yields src .code (jp specifiers) .code fun n =>
            AllReadFrom src specifiers → ReadFrom src n := by
          refine fun specifiers => .pass fun _ => .take fun source => .take fun attrs => ?_
          refine .pass fun _ => .finish fun sp hattrs hsource hspecifiers => ?_
          simp [hattrs, hsource, hspecifiers]
        clear_value jp
        refine .ite (.take hjp) ?_
        refine .bind yields_boundIdentifier fun name => .take fun first => .pass fun _ => .ite ?_ ?_
        · refine .take fun rest => .passPure ((hjp _).mono fun n hn hrest ⟨sp, heq⟩ hname => hn ?_)
          simp [heq, hname, hrest]
        · refine .passPure ((hjp _).mono fun n hn ⟨sp, heq⟩ hname => hn ?_)
          simp [heq, hname]
      clear_value jp
      refine .ite (.pass fun second => ?_) (.pass hjp)
      split <;> exact .pass hjp

/-! ## Exports -/

instance : Gives src .code exportSpecifier .code (ReadFrom src) where
  yields := by
    refine .pass fun start => .pass fun typeOnly => .passIf fun _ => .take fun own => ?_
    refine .pass fun _ => .takeEither fun exported => .finish fun sp hexported hown => ?_
    simp [hexported, hown]

instance : Gives src .code (exportSource g) .code fun parts =>
    ReadFrom src parts.1 ∧ ReadFrom src parts.2 where
  yields := .pass fun _ => .take fun _ => .take fun _ => .pure fun hattrs hsource =>
    ⟨hsource, hattrs⟩

instance {start : Nat} {typeOnly : Bool} :
    Gives src .code (exportList g start typeOnly) .code (ReadFrom src) where
  yields := by
    refine .pass fun _ => .take fun ss => .pass fun _ => .ite ?_ ?_
    · refine .take fun parts => .pass fun _ => .finish fun sp ⟨hsource, hattrs⟩ hss => ?_
      simp [hsource, hattrs, hss]
    · refine .bind (moves_forM (fun s => ⟨?_⟩) ss).yields fun _ => .pass fun _ => .finish ?_
      · split <;> exact Moves.yields
      intro sp _ hss
      refine (readFrom_iff rfl).mpr ⟨trivial, allReadFrom_cons.mpr ⟨?_, by simp⟩⟩
      -- The mark of the list is put on each specifier, which changes none of its names.
      refine (readFrom_iff rfl).mpr ⟨trivial, List.forall_mem_map.mpr fun s hs => ?_⟩
      have hread := hss s hs
      split <;> simp_all

instance {start : Nat} : Gives src .code (exportDefault g start) .code (ReadFrom src) where
  yields := by
    refine .pass fun inner => .pass fun second => .take fun ds => ?_
    extract_lets -underBinder optionalName
    have : Gives src .code optionalName .code (ReadFrom src) := by
      refine ⟨.pass fun t => ?_⟩
      split
      next => exact .ite .last yields_boundIdentifier
      next => exact .last
    clear_value optionalName
    refine .pass fun _ => .ite ?_ (.pass fun _ => .ite ?_ ?_)
    · refine .pass fun _ => .pass fun _ => .take fun name => .take fun f => .finish ?_
      exact fun sp hf hname _ => by simp [hf, hname]
    · refine .pass fun _ => .pass fun _ => .pass fun _ => .take fun name => .take fun f => ?_
      exact .finish fun sp hf hname _ => by simp [hf, hname]
    refine .pass fun c => .pass fun _ => .passIf fun _ => .pass fun _ => .ite ?_ ?_
    · refine .pass fun _ => .take fun name => .bind (yields_classFrom ..) fun c => .finish ?_
      exact fun sp hc hname hds => by simp [hc hds, hname]
    refine .pass fun _ => .ite (.take fun i => .finish fun sp hi _ => by simp [hi]) ?_
    exact .take fun e => .pass fun _ => .finish fun sp he _ => by simp [he]

instance {start : Nat} {typeOnly : Bool} :
    Gives src .code (exportItem.exportAll g start typeOnly) .code (ReadFrom src) where
  yields := by
    refine .pass fun inner => .pass fun _ => .pass fun _ => .ite ?_ ?_
    · refine .take fun name => .take fun specifier => .take fun parts => .pass fun _ => .finish ?_
      intro sp ⟨hsource, hattrs⟩ ⟨sp', heq⟩ hname
      simp [hsource, hattrs, heq, hname]
    · refine .take fun parts => .pass fun _ => .finish fun sp ⟨hsource, hattrs⟩ => ?_
      simp [hsource, hattrs]

theorem yields_exportItem (start : Nat) (ds : List Node) :
    Yields src .code (exportItem g start ds) .code fun n =>
      AllReadFrom src ds → ReadFrom src n := by
  refine .pass fun _ => .pass fun c => .pass fun second => ?_
  extract_lets -underBinder declaration
  have hdeclaration : ∀ d, Yields src .code (declaration d) .code fun n =>
      ReadFrom src d → AllReadFrom src ds → ReadFrom src n :=
    fun d => .finish fun sp hd _ => by simp [hd]
  clear_value declaration
  refine .pass fun _ => .ite (Yields.last.anyway) ?_
  refine .pass fun _ => .ite (Yields.last.anyway) ?_
  refine .pass fun _ => .ite (Yields.last.anyway) ?_
  refine .pass fun _ => .ite (.pass fun _ => Yields.last.anyway) ?_
  refine .pass fun _ => .ite (.pass fun _ => Yields.last.anyway) ?_
  refine .pass fun _ => .ite ?_ (.pass fun _ => .ite ?_ ?_)
  · exact .pass fun _ => .take fun e => .pass fun _ => .finish fun sp he _ => by simp [he]
  · refine .pass fun _ => .pass fun _ => .bind yields_boundIdentifier fun name => .pass fun _ => ?_
    exact .finish fun sp hname _ => by simp [hname]
  refine .pass fun _ => .ite ?_ ?_
  · refine .pass fun _ => .pass fun t => .pass fun second => ?_
    extract_lets -underBinder jp
    have hjp : ∀ typeOnly, Yields src .code (jp typeOnly) .code fun n =>
        AllReadFrom src ds → ReadFrom src n :=
      fun typeOnly => .passIf fun _ => Yields.last.anyway
    clear_value jp
    split <;> exact .pass hjp
  extract_lets -underBinder jp
  have hjp : Yields src .code (jp ()) .code fun n => AllReadFrom src ds → ReadFrom src n := by
    refine .pass fun w => ?_
    split
    next v => exact .take hdeclaration
    refine .pass fun inner => .pass fun t => ?_
    split
    next => exact .take hdeclaration
    next => exact .take hdeclaration
    next => exact .bind (yields_classDeclaration inner ds) fun d =>
        (hdeclaration d).mono fun n hn hd hds => hn (hd hds) hds
    next =>
      refine .ite (.take fun ds' => .bind (yields_classDeclaration inner ds') fun d => ?_) .refuse
      exact (hdeclaration d).mono fun n hn hd hds' => hn (hd hds')
    next => exact .refuse
  clear_value jp
  refine .ite (.pass fun c => .take fun o => ?_) hjp
  split
  next d => exact (hdeclaration d).mono fun n hn ho => hn (ho d rfl)
  next => exact hjp.anyway

/-! ## Modules -/

instance : Gives src .code (itemProduction g) .code (ReadFrom src) where
  yields := by
    have hexport : ∀ start, Yields src .code (exportItem g start []) .code (ReadFrom src) :=
      fun start => (yields_exportItem start []).mono fun _ h => h allReadFrom_nil
    refine .pass fun start => .pass fun _ => .ite (.pass fun second => .ite .last .last) ?_
    refine .pass fun _ => .ite (hexport start) (.pass fun c => .pass fun _ => .ite ?_ .last)
    refine .take fun ds => .pass fun _ => .ite ?_ ?_
    · exact yields_exportItem start ds
    · exact yields_classDeclaration start ds

instance sound_grammar (n : Nat) : Sound src (grammar n) := by
  induction n with
  | zero => exact ⟨.refuse, .refuse, .refuse, .refuse, .refuse, .refuse, .refuse, .refuse⟩
  | succ n ih =>
    exact ⟨Gives.yields (p := expressionProduction (grammar n)),
      Gives.yields (p := assignmentProduction (grammar n)),
      Gives.yields (p := unaryProduction (grammar n)),
      Gives.yields (p := statementProduction (grammar n)),
      Gives.yields (p := itemProduction (grammar n)),
      Gives.yields (p := patternProduction (grammar n)),
      Gives.yields (p := typeProduction (grammar n)),
      Gives.yields (p := elementProduction (grammar n))⟩

/-- A fault noted for each of a list. -/
theorem moves_noteEach {α : Type} {e : SyntaxError} (as : List α) :
    Moves src .code (forIn as PUnit.unit fun _ _ => do
      note e
      pure (ForInStep.yield PUnit.unit)) .code := by
  induction as with
  | nil => exact ⟨.pure trivial⟩
  | cons a as ih =>
    refine ⟨?_⟩
    rw [List.forIn_cons, bind_assoc]
    exact .pass fun _ => .passPure ih.yields

/-- A module that was read. -/
def IsModule (src : List Char) (m : Node) : Prop :=
  (∃ shebang sp items, m = .mk (.module (.module_ shebang)) sp items) ∧ ReadFrom src m

theorem IsModule.items {m : Node} (h : IsModule src m) : AllReadFrom src m.children := by
  obtain ⟨⟨shebang, sp, items, rfl⟩, hread⟩ := h
  exact ((readFrom_iff rfl).mp hread).2

instance {shebang : Option String} :
    Gives src .code (moduleProduction g shebang) .code (IsModule src) where
  yields := .pass fun _ => .take fun items => .bind (moves_noteEach (initializedIn items)).yields
    fun _ => .finish fun sp _ hitems => ⟨⟨shebang, sp, items, rfl⟩, by simpa using hitems⟩

/-- **What is read stands in the source.** The tree of a source without faults is a module that was
read from the text of the source. -/
theorem isModule_of_parse {dialect : Dialect} {source : String} {parsed : Parsed}
    (h : parseModule dialect source = .ok parsed) : IsModule source.toList parsed.module := by
  unfold parseModule at h
  extract_lets cs size context at h
  have hcs : cs = source.toList := rfl
  clear_value context size cs
  rw [← hcs]
  split at h
  next shebang position rest heq =>
    have hrest : rest <:+ cs := by
      split at heq
      next more =>
        cases heq
        exact (span_suffix _ more).trans (List.suffix_append ['#', '!'] more)
      next =>
        cases heq
        exact List.suffix_refl cs
    have hyields : Yields cs .code (moduleProduction (grammar (4 * size + 64)) shebang) .code
      (IsModule cs) := .last
    split at h
    next m r hrun =>
      split at h
      next hnone =>
        cases h
        exact ((hyields hrun).2 (in_ofText hrest position) (List.isEmpty_iff.mp hnone)).2
      next => cases h
    next => cases h

/-- The same for the source of a file. -/
theorem isModule_of_parseFile {file source : String} {parsed : Parsed}
    (h : Boundary.parseFile file source = .ok parsed) : IsModule source.toList parsed.module := by
  unfold Boundary.parseFile at h
  split at h
  next hmodule =>
    cases h
    exact isModule_of_parse hmodule
  next => cases h

/-- A file that is read with a certain result is read. -/
theorem exists_of_parseFile_map {α : Type} {file source : String} {read : Parsed → α} {a : α}
    (h : (Boundary.parseFile file source).map read = .ok a) :
    ∃ parsed, Boundary.parseFile file source = .ok parsed ∧ read parsed = a := by
  cases hparse : Boundary.parseFile file source with
  | error e =>
    rw [hparse] at h
    cases h
  | ok parsed =>
    rw [hparse] at h
    exact ⟨parsed, rfl, Except.ok.inj h⟩

end ServerBoundary.Grammar
