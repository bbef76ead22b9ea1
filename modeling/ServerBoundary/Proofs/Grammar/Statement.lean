import ServerBoundary.Grammar.Statement
import ServerBoundary.Proofs.Grammar.Expression

/-!
# Statements that were read
-/

namespace ServerBoundary.Grammar

open Syntax Source

variable {src : List Char} {g : Productions} [Sound src g]

/-- Where a node ends does not matter. -/
theorem ReadFrom.moved {n : Node} (h : ReadFrom src n) (sp : Span) :
    ReadFrom src (.mk n.kind sp n.children) := by
  obtain ⟨k, _, cs⟩ := n
  cases h with
  | type => exact .type
  | node fits parts => exact .node fits parts

/-! ## Declarations -/

/-- A pattern is still one with the type that may stand after it. -/
theorem IsPattern.typed {p t : Node} (hp : IsPattern src p) (ht : ReadFrom src t) (stop : Nat) :
    IsPattern src (if t.isPresent then withType p false t stop else p) := by
  split
  next => exact ⟨readFrom_withType hp.1 ht _ _, isDeclarable_withType hp.2 _ _ _⟩
  next => exact hp

instance {word : VarWord} {checked : Bool} :
    Gives src .code (declarator g word checked) .code (ReadFrom src) where
  yields := by
    refine .pass fun start => .take fun p => .pass fun c => .pass fun _ => ?_
    refine .passEither fun definite => .take fun t => .pass fun r => .take fun value => ?_
    extract_lets -underBinder jp
    have hjp : ∀ u, Yields src .code (jp u) .code fun n =>
        ReadFrom src value → ReadFrom src t → IsPattern src p → ReadFrom src n := by
      refine fun u => .finish fun sp hvalue ht hp => (readFrom_iff rfl).mpr ?_
      have htyped := hp.typed ht r.lastStop
      exact ⟨htyped.2, by simp [htyped.1, hvalue]⟩
    clear_value jp
    refine .ite (.ite (.pass hjp) ?_) (hjp ())
    split
    next => exact .pass hjp
    next => exact .pass hjp
    next => exact hjp ()

instance : Looks variableWord := by
  refine .andThen fun _ => ?_
  split
  next => infer_instance
  next =>
    refine .andThen fun _ => ?_
    split
    next => infer_instance
    next =>
      refine .andThen fun _ => ?_
      split
      next =>
        refine .andThen fun second => ?_
        split <;> infer_instance
      next => infer_instance

instance {word : VarWord} {checked : Bool} :
    Gives src .code (variableList g word checked) .code (ReadFrom src) where
  yields := .pass fun start => .pass fun _ => .take fun ds =>
    .finish fun sp hds => by simpa using hds

instance {word : VarWord} : Gives src .code (variableStatement g word) .code (ReadFrom src) where
  yields := .pass fun _ => .take fun _ => .pass fun _ => .pass fun _ => .pure fun hd => hd.moved _

instance : Gives src .code (functionDeclaration g) .code (ReadFrom src) where
  yields := by
    refine .pass fun start => .pass fun isAsync => .pass fun _ => .pass fun isGenerator => ?_
    refine .take fun name => .take fun f => .finish fun sp hf ⟨text, sp', heq, hbinds⟩ => ?_
    simp [heq, hbinds, hf]

theorem yields_classDeclaration (start : Nat) (ds : List Node) :
    Yields src .code (classDeclaration g start ds) .code fun c =>
      AllReadFrom src ds → ReadFrom src c := by
  refine .pass fun c => .passEither fun isAbstract => .pass fun _ => .take fun name => ?_
  refine .bind (yields_classFrom start isAbstract ds) fun c => .finish ?_
  intro sp hc ⟨text, sp', heq, hbinds⟩ hds
  simp [heq, hbinds, hc hds]

instance {start : Nat} : Gives src .code (classDeclaration g start []) .code (ReadFrom src) :=
  ⟨(yields_classDeclaration start []).mono fun _ h => h allReadFrom_nil⟩

instance : Gives src .code declaredName .code (ReadFrom src) where
  yields := by
    refine .pass fun t => ?_
    split
    next => exact .last
    next => exact .refuse

instance : Gives src .code (interfaceDeclaration g) .code (ReadFrom src) where
  yields := .pass fun start => .pass fun _ => .pass fun name => .pass fun params => .pass fun _ =>
    .passEither fun bases => .pass fun ms => .finish fun sp => by simp

instance : Gives src .code (aliasDeclaration g) .code (ReadFrom src) where
  yields := .pass fun start => .pass fun _ => .pass fun name => .pass fun params => .pass fun _ =>
    .pass fun t => .pass fun _ => .finish fun sp => by simp

instance : Gives src .code (enumMember g) .code (ReadFrom src) where
  yields := by
    refine .pass fun start => .pass fun t => ?_
    extract_lets -underBinder jp
    have hjp : ∀ name, Yields src .code (jp name) .code fun n =>
        ReadFrom src name → ReadFrom src n :=
      fun name => .take fun value => .finish fun sp hvalue hname => by simp [hvalue, hname]
    clear_value jp
    split
    next =>
      refine .pass fun _ => .take fun name => (hjp name).mono ?_
      exact fun n hn ⟨sp, heq⟩ => hn (by simp [heq])
    next => exact .take hjp

instance {start : Nat} {isConst : Bool} :
    Gives src .code (enumDeclaration g start isConst) .code (ReadFrom src) where
  yields := by
    refine .pass fun _ => .take fun name => .pass fun _ => .take fun ms => .finish ?_
    exact fun sp hms hname => (readFrom_iff rfl).mpr
      ⟨trivial, allReadFrom_cons.mpr ⟨hname.readFrom, hms⟩⟩

instance : Gives src .code (namespaceBlock g) .code (ReadFrom src) where
  yields := .pass fun start => .pass fun _ =>
    .bind (.manyUntil (.pass fun _ => .passIf fun _ => Moves.yields) .last) fun is =>
      .finish fun sp his => by simpa using his

theorem yields_namespaceFrom (n start : Nat) {kind : StmtKind}
    (hfits : ∀ cs, NodeFits src (.stmt kind) cs) :
    Yields src .code (namespaceFrom g start kind n) .code (ReadFrom src) := by
  induction n generalizing start kind with
  | zero => exact .refuse
  | succ n ih =>
    refine .pass fun t => ?_
    extract_lets -underBinder jp
    have hjp : ∀ name, Yields src .code (jp name) .code fun n =>
        ReadFrom src name → ReadFrom src n := by
      intro name
      refine .pass fun _ => .pass fun _ => ?_
      extract_lets -underBinder jp
      have hjp : ∀ b, Yields src .code (jp b) .code fun n =>
          ReadFrom src b → ReadFrom src name → ReadFrom src n :=
        fun b => .finish fun sp hb hname => (readFrom_iff rfl).mpr ⟨hfits _, by simp [hb, hname]⟩
      clear_value jp
      refine .ite (.pass fun start => .bind (ih start fun _ => trivial) hjp) (.ite (.take hjp) ?_)
      exact .pass fun _ => .take hjp
    clear_value jp
    split
    next => exact .take hjp
    next => exact .bind yields_boundIdentifier hjp

/-- A declaration without a value is read as any other. -/
theorem ReadFrom.declared {n : Node} (h : ReadFrom src n) (start : Nat) :
    ReadFrom src (declared start n) := by
  unfold Grammar.declared
  split <;> simp_all

instance {n : Nat} : Gives src .code (typedDeclaration g n) .code (MaybeReadFrom src) where
  yields := by
    have hsome : ∀ n : Node, ReadFrom src n → MaybeReadFrom src (some n) :=
      fun n hn _ h => Option.some.inj h ▸ hn
    induction n with
    | zero => exact .refuse
    | succ n ih =>
      refine .pass fun start => .pass fun next => ?_
      refine .pass fun _ => .ite (.take fun d => .pure (hsome d)) ?_
      refine .pass fun _ => .ite (.take fun d => .pure (hsome d)) ?_
      refine .pass fun _ => .ite (.take fun d => .pure (hsome d)) ?_
      refine .pass fun _ => .ite (.pass fun _ => .take fun d => .pure (hsome d)) ?_
      refine .pass fun _ => .pass fun _ => .ite (.pass fun _ => .pass fun c => ?_) ?_
      · exact .bind (yields_namespaceFrom _ _ fun _ => trivial) fun d => .pure (hsome d)
      refine .pass fun _ => .ite (.take fun d => .pure (hsome d)) ?_
      refine .pass fun _ => .ite (.take fun name => .take fun b => ?_) ?_
      · exact .finishSome fun sp hb hname => by simp [MaybeReadFrom, hb, hname]
      have hdeclared : ∀ d, Yields src .code (pure (some (declared start d))) .code fun o =>
          ReadFrom src d → MaybeReadFrom src o :=
        fun d => .pure fun hd => hsome _ (hd.declared start)
      refine .pass fun _ => .ite (.pass fun _ => .bind (.within ?_) hdeclared) (.pure nofun)
      refine .bind ih fun o => ?_
      split
      next d => exact .pure fun ho => ho d rfl
      next =>
        refine .pass fun w => ?_
        split
        next word => exact Yields.last.anyway
        next => exact .pass fun _ => .ite (Yields.last.anyway) (Yields.last.anyway)

/-! ## Statements -/

instance : Gives src .code (expressionStatement g) .code (ReadFrom src) where
  yields := by
    refine .pass fun start => .pass fun second => .pass fun t => .ite ?_ ?_
    · refine .take fun label => .pass fun _ => ?_
      split
      next =>
        refine .pass fun c => .passIf fun _ => .take fun s => .finish fun sp hs hlabel => ?_
        simp [hs, hlabel]
      next => exact .refuse
    · exact .take fun e => .pass fun _ => .finish fun sp he => by simp [he]

instance : Gives src .code (condition g) .code (ReadFrom src) where
  yields := .pass fun _ => .take fun _ => .pass fun _ => .pure id

instance : Gives src .code (loopBody g) .code (ReadFrom src) where
  yields := .within .last

theorem yields_forTarget (e : Node) :
    Yields src .code (forStatement.forTarget e) .code fun t => ReadFrom src e → ReadFrom src t := by
  unfold forStatement.forTarget
  split
  next => exact .pure id
  next => exact yields_targetOf "=" _

theorem moves_forM {α : Type} {f : α → Parser Unit} (hf : ∀ a, Moves src .code (f a) .code)
    (as : List α) : Moves src .code (as.forM f) .code := by
  induction as with
  | nil => exact ⟨.pure trivial⟩
  | cons a as ih => exact ⟨.pass fun _ => ih.yields⟩

instance : Gives src .code (forStatement g) .code (ReadFrom src) where
  yields := by
    refine .pass fun start => .pass fun _ => .pass fun awaits => .pass fun _ => .pass fun _ => ?_
    extract_lets -underBinder jp
    have hjp : ∀ first, Yields src .code (jp first) .code fun n =>
        ReadFrom src first → ReadFrom src n := by
      refine fun first => .pass fun _ => .ite ?_ (.pass fun _ => .ite ?_ ?_)
      · refine .bind (yields_forTarget first) fun target => .pass fun _ => .take fun object => ?_
        refine .pass fun _ => .take fun b => .finish fun sp hb hobject htarget hfirst => ?_
        simp [hb, hobject, htarget hfirst]
      · refine .bind (yields_forTarget first) fun target => .pass fun _ => .take fun object => ?_
        refine .pass fun _ => .take fun b => .finish fun sp hb hobject htarget hfirst => ?_
        simp [hb, hobject, htarget hfirst]
      extract_lets -underBinder jp
      have hjp : ∀ u, Yields src .code (jp u) .code fun n =>
          ReadFrom src first → ReadFrom src n := by
        refine fun u => .pass fun _ => .pass fun _ => .takeEither fun test => .pass fun _ => ?_
        refine .pass fun _ => .takeEither fun update => .pass fun _ => .take fun b => .finish ?_
        intro sp hb hupdate htest hfirst
        simp [hb, hupdate, htest, hfirst]
      clear_value jp
      split
      next ds =>
        refine .bind (moves_forM (fun d => ?_) ds).yields fun u => (hjp u).anyway
        infer_instance
      next => exact hjp ()
    clear_value jp
    refine .ite (.take hjp) (.pass fun w => ?_)
    split
    next => exact .take hjp
    next => exact .take hjp

instance : Gives src .code (switchCase g) .code (ReadFrom src) where
  yields := by
    refine .pass fun start => .pass fun _ => ?_
    extract_lets -underBinder jp
    have hjp : ∀ test, Yields src .code (jp test) .code fun n =>
        ReadFrom src test → ReadFrom src n :=
      fun test => .pass fun _ => .take fun ss => .finish fun sp hss htest => by simp [hss, htest]
    clear_value jp
    exact .ite (.take hjp) (.pass fun _ => .take hjp)

instance : Gives src .code (tryStatement g) .code (ReadFrom src) where
  yields := by
    refine .pass fun start => .pass fun _ => .take fun b => .pass fun inner => .pass fun _ => ?_
    extract_lets ending caught
    have hending : ∀ handler, Yields src .code (ending handler) .code fun n =>
        ReadFrom src handler → ReadFrom src b → ReadFrom src n := by
      refine fun handler => .pass fun _ => .takeEither fun finalizer => .passUnless fun _ => ?_
      exact .finish fun sp _ hfinalizer hhandler hb => by simp [hfinalizer, hhandler, hb]
    have hcaught : ∀ p, Yields src .code (caught p) .code fun n =>
        ReadFrom src p → ReadFrom src b → ReadFrom src n := by
      refine fun p => .take fun hb => .take fun handler => (hending handler).mono ?_
      intro n hn ⟨sp, heq⟩ hbody hp
      exact hn (by simp [heq, hbody, hp])
    clear_value ending caught
    refine .ite (.pass fun _ => ?_) (.take hending)
    exact .ite (.take fun p => .pass fun _ => .passPure (hcaught p)) (.take hcaught)

instance {breaks : Bool} : Gives src .code (jumpStatement breaks) .code (ReadFrom src) where
  yields := by
    refine .pass fun start => .pass fun _ => .pass fun _ => .pass fun _ => ?_
    refine .takeEither fun label => .pass fun c => ?_
    extract_lets -underBinder jp
    have hjp : ∀ u, Yields src .code (jp u) .code fun n => ReadFrom src label → ReadFrom src n := by
      refine fun u => .pass fun _ => .finish fun sp hlabel => ?_
      refine (readFrom_iff rfl).mpr ⟨?_, by simp [hlabel]⟩
      cases breaks <;> trivial
    clear_value jp
    split
    next => exact .ite (hjp ()) (.pass hjp)
    next => exact .passIf fun _ => .ite (.pass hjp) (hjp ())

instance : Gives src .code (statementProduction g) .code (ReadFrom src) where
  yields := by
    refine .pass fun start => .pass fun t => ?_
    split
    next => exact .last
    next => exact .pass fun _ => .finish fun sp => by simp
    next => exact .pass fun c => .ite (.take fun ds => yields_classDeclaration start ds) .last
    next word =>
      refine .pass fun c => ?_
      extract_lets -underBinder jp
      have hjp : Yields src .code (jp ()) .code (ReadFrom src) := by
        refine .pass fun w => ?_
        split
        next v => exact .last
        refine .pass fun second => ?_
        split
        next => exact .last
        next => exact .ite .last .last
        next => exact .last
        next =>
          refine .pass fun _ => .take fun test => .take fun yes => .pass fun _ => ?_
          exact .takeEither fun no => .finish fun sp hno hyes htest => by simp [hno, hyes, htest]
        next => exact .last
        next =>
          refine .pass fun _ => .take fun test => .take fun b => .finish fun sp hb htest => ?_
          simp [hb, htest]
        next =>
          refine .pass fun _ => .take fun b => .pass fun _ => .take fun test => .pass fun _ => ?_
          exact .finish fun sp htest hb => by simp [hb, htest]
        next =>
          refine .pass fun _ => .take fun value => .pass fun _ => .take fun cs => .finish ?_
          exact fun sp hcs hvalue => by simp [hcs, hvalue]
        next => exact .last
        next =>
          refine .pass fun _ => .pass fun _ => .passIf fun _ => .take fun e => .pass fun _ => ?_
          exact .finish fun sp he => by simp [he]
        next =>
          refine .pass fun _ => .pass fun _ => .passElse fun _ => .pass fun _ => .pass fun _ => ?_
          exact .takeEither fun e => .pass fun _ => .finish fun sp he => by simp [he]
        next => exact .last
        next => exact .last
        next => exact .pass fun _ => .pass fun _ => .finish fun sp => by simp
        next =>
          refine .pass fun _ => .pass fun _ => .take fun object => .take fun b => .finish ?_
          exact fun sp hb hobject => by simp [hb, hobject]
        next => exact .last
      clear_value jp
      refine .ite (.pass fun c => .take fun o => ?_) hjp
      split
      next d => exact .pure fun ho => ho d rfl
      next => exact hjp.anyway
    next => exact .last

end ServerBoundary.Grammar
