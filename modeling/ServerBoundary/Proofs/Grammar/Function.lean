import ServerBoundary.Grammar.Function
import ServerBoundary.Proofs.Grammar.Pattern

/-!
# Functions and classes that were read
-/

namespace ServerBoundary.Grammar

open Syntax Source

variable {src : List Char} {g : Productions} [Sound src g]

/-! ## Functions -/

instance : Gives src .code (block g) .code (ReadFrom src) where
  yields := .pass fun start => .pass fun _ =>
    .bind (.manyUntil (.pass fun _ => .passIf fun _ => Moves.yields) .last) fun ss =>
      .finish fun sp hss => by simp [hss]

instance : Gives src .code (decorators g) .code (AllReadFrom src) where
  yields := .pass fun _ => .ite (.manyUntil Moves.yields <|
    .pass fun start => .pass fun _ => .take fun e => .finish fun sp he => by simp [he]) .last

instance : Moves src .code accessWord .code where
  yields := .pass fun _ => .ite Moves.yields <| .pass fun _ => .ite Moves.yields <|
    .pass fun _ => Moves.yields

instance : Gives src .code (parameter g) .code (ReadFrom src) where
  yields := by
    refine .pass fun start => .take fun ds => .pass fun c => .passEither fun access => ?_
    refine .pass fun _ => .passEither fun isOverride => ?_
    refine .pass fun _ => .passEither fun isReadonly => ?_
    refine .pass fun _ => .takeEither fun p => .ite ?_ ?_
    · exact .finish fun sp hp hds => by simp [hp, hds]
    · exact .finish fun sp hp hds => by simp [hp, hds]

instance : Gives src .code (parameters g) .code (ReadFrom src) where
  yields := .pass fun _ => .take fun ps => .pure fun hps => by simp [hps]

instance : Gives src .code (body g) .code (ReadFrom src) where
  yields := .pass fun _ => .pass fun _ => .ite (.pass fun _ => .last) .last

theorem yields_functionFrom (start : Nat) (mode : FunctionMode) (ds : List Node) :
    Yields src .code (functionFrom g start mode ds) .code fun f =>
      AllReadFrom src ds → ReadFrom src f :=
  .take fun typeParams =>
    .bind (P := fun parts => ReadFrom src parts.1 ∧ ReadFrom src parts.2.1 ∧ ReadFrom src parts.2.2)
      (.within <| .take fun args => .take fun result => .take fun b =>
        .pure fun hb hresult hargs => ⟨hargs, hresult, hb⟩)
      fun parts => .finish fun sp ⟨hargs, hresult, hb⟩ htypes hds => by
        simp [hargs, hresult, hb, htypes, hds]

instance {start : Nat} {mode : FunctionMode} :
    Gives src .code (functionFrom g start mode []) .code (ReadFrom src) :=
  ⟨(yields_functionFrom start mode []).mono fun _ h => h allReadFrom_nil⟩

/-! ## Classes -/

instance {word : String} {sameLine : Bool} : Looks (isKeyWord word sameLine) := by
  unfold isKeyWord
  infer_instance

theorem moves_memberModifiers (n : Nat) (modifiers : Modifiers) :
    Moves src .code (memberModifiers n modifiers) .code := by
  induction n generalizing modifiers with
  | zero => exact ⟨.pure trivial⟩
  | succ n ih =>
    refine ⟨.pass fun c => .pass fun next => ?_⟩
    extract_lets modifies word
    have hword : ∀ w, Moves src .code (word w) .code :=
      fun w => ⟨.pass fun _ => Moves.yields⟩
    refine .pass fun _ => .ite (ih _).yields (.ite (.pure trivial) (.ite (.pure trivial) ?_))
    refine .pass fun _ => .ite (ih _).yields (.pass fun _ => .ite (ih _).yields ?_)
    refine .pass fun _ => .ite (ih _).yields (.pass fun _ => .ite (ih _).yields ?_)
    refine .pass fun _ => .ite (ih _).yields (.pass fun _ => .ite (ih _).yields ?_)
    exact .pass fun _ => .ite (ih _).yields (.pass fun _ => .ite (ih _).yields (.pure trivial))

instance {n : Nat} {modifiers : Modifiers} : Moves src .code (memberModifiers n modifiers) .code :=
  moves_memberModifiers n modifiers

instance : Gives src .code (classMember g) .code (ReadFrom src) where
  yields := by
    refine .pass fun start => .pass fun _ => .ite (.finish fun sp => by simp) ?_
    refine .take fun ds => .pass fun second => .pass fun _ => .ite ?_ ?_
    · exact .pass fun _ => .take fun b => .finish fun sp hb _ => by simp [hb]
    refine .pass fun modifiers => .pass fun _ => .pass fun _ => .ite ?_ ?_
    · exact Yields.last.anyway
    refine .pass fun isAsync => .passIf fun _ => .pass fun isGenerator => ?_
    refine .passEither fun isGetter => .passEither fun isSetter => .passIf fun _ => ?_
    refine .take fun key => .pass fun c => .passEither fun isOptional => ?_
    refine .pass fun _ => .pass fun _ => .pass fun _ => .ite (.ite ?_ ?_) ?_
    · refine .bind (P := fun parts => ReadFrom src parts.1 ∧ ReadFrom src parts.2)
        (.within <| .take fun args => .take fun b => .pure fun hb hargs => ⟨hargs, hb⟩)
        fun parts => ?_
      exact .finish fun sp ⟨hargs, hb⟩ hkey _ => by simp [hargs, hb, hkey]
    · refine .bind (yields_functionFrom _ _ ds) fun f => .finish fun sp hf hkey hds => ?_
      simp [hf hds, hkey]
    · refine .pass fun _ => .passEither fun isDefinite => .take fun t => .take fun value =>
        .pass fun _ => .finish fun sp hvalue ht hkey hds => ?_
      simp [hvalue, ht, hkey, hds]

instance : Gives src .code (heritage g) .code (ReadFrom src) where
  yields := .pass fun start => .pass fun name => .pass fun args => .finish fun sp => by simp

theorem yields_classFrom (start : Nat) (isAbstract : Bool) (ds : List Node) :
    Yields src .code (classFrom g start isAbstract ds) .code fun c =>
      AllReadFrom src ds → ReadFrom src c := by
  refine .take fun typeParams => .pass fun b => .takeEither fun superclass => ?_
  extract_lets jp
  have hjp : ∀ parts, Yields src .code (jp parts) .code fun c =>
      ReadFrom src parts.1 → ReadFrom src parts.2 → ReadFrom src typeParams → AllReadFrom src ds →
        ReadFrom src c := by
    intro parts
    refine .pass fun _ => .pass fun _ => .takeEither fun types => .pass fun _ => .take fun ms => ?_
    refine .finish fun sp hms htypes hsuper hargs hparams hds => ?_
    simp [hms, htypes, hsuper, hargs, hparams, hds]
  clear_value jp
  dsimp only
  split
  next =>
    -- The type arguments of the superclass were read as a part of it.
    refine .passPure ((hjp _).mono ?_)
    intro c hc hsuper
    simp only [readFrom_mk, NodeFits, allReadFrom_cons, true_and] at hsuper
    exact hc hsuper.1 hsuper.2.1
  next =>
    refine .takeEither fun args => .passPure ((hjp _).mono ?_)
    exact fun c hc hargs hsuper => hc hsuper hargs

end ServerBoundary.Grammar
