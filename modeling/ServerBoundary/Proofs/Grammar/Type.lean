import ServerBoundary.Grammar.Type
import ServerBoundary.Proofs.Grammar.Reading

/-!
# Types that were read

Nothing is asked of a type, so it is enough that its productions stay in the text. What other
productions use of them are keys and templates.
-/

namespace ServerBoundary.Grammar

open Syntax Source

variable {src : List Char}

/-! ## Templates -/

theorem yields_templateParts {piece : Parser Node} [Gives src .code piece .code (ReadFrom src)]
    (n : Nat) : Yields src .code (templateParts piece n) .code fun parts =>
      AllReadFrom src parts.1 ∧ AllReadFrom src parts.2 := by
  induction n with
  | zero => exact .refuse
  | succ n ih =>
    refine .get fun r => ?_
    dsimp only
    split
    next => exact .of .throw
    next text more rest hsplit =>
      -- The reader goes to the delimiter of the chunk, which is in the text after its chunk.
      refine .set rfl
        (fun hat => ⟨List.nil_suffix, (splitChunk_suffix hsplit).trans hat.rest, trivial⟩)
        (.pass fun _ => ?_)
      split
      next =>
        refine .take fun e => .pass fun _ => .passElse fun _ => .bind ih fun parts => .pure ?_
        intro ⟨hes, hchunks⟩ he
        simp [he, hes, hchunks]
      next => exact .pure ⟨allReadFrom_nil, by simp⟩

instance {kind : TypeKind} {piece : Parser Node} [Gives src .code piece .code (ReadFrom src)] :
    Gives src .code (templateOf (.type kind) piece) .code (ReadFrom src) where
  yields := .pass fun start => .pass fun c => .bind (yields_templateParts _) fun parts =>
    .finish fun sp => by simp

instance {kind : ExprKind} {piece : Parser Node} [Gives src .code piece .code (ReadFrom src)] :
    Gives src .code (templateOf (.expr kind) piece) .code (ReadFrom src) where
  yields := .pass fun start => .pass fun c => .bind (yields_templateParts _) fun parts =>
    .finish fun sp h => by simpa using h

/-! ## Types -/

variable {g : Productions} [Sound src g]

instance : Gives src .code (propertyKey g) .code (ReadFrom src) where
  yields := by
    refine .pass fun start => .pass fun t => ?_
    split
    next => exact .last
    next => exact .last
    next => exact .passIf fun _ => .pass fun _ => .finish fun sp => by simp
    next => exact .pass fun _ => .finish fun sp => by simp
    next => exact .pass fun _ => .finish fun sp => by simp
    next =>
      exact .pass fun _ => .take fun e => .pass fun _ => .finish fun sp he => by simp [he]
    next => exact .refuse

instance : Gives src m (typeArguments g) .code (ReadFrom src) where
  yields := .pass fun start => .pass fun _ => .pass fun ts => .finish fun sp => by simp

instance : Gives src .code (optionalTypeArguments g) .code (ReadFrom src) where
  yields := .pass fun _ => .pass fun _ => .ite .last .last

instance : Gives src .code (typeParameter g) .code (ReadFrom src) where
  yields := .pass fun start => .pass fun isConst => .pass fun next => .pass fun b =>
    .passEither fun isIn => .pass fun b => .passEither fun isOut => .pass fun name =>
    .pass fun b => .passEither fun constraint => .pass fun fallback => .finish fun sp => by simp

instance : Gives src .code (optionalTypeParameters g) .code (ReadFrom src) where
  yields := .pass fun start => .pass fun c => .pass fun b =>
    .ite (.pass fun ps => .finish fun sp => by simp) .last

instance : Gives src .code (ascribed g) .code (ReadFrom src) where
  yields := .pass fun start => .pass fun t => .finish fun sp => by simp

instance : Gives src .code (optionalType g) .code (ReadFrom src) where
  yields := .pass fun _ => .pass fun _ => .ite .last .last

instance : Gives src .code (resultType g) .code (ReadFrom src) where
  yields := by
    refine .pass fun start => .pass fun second => ?_
    extract_lets isPredicate predicate
    have hpredicate : ∀ asserts, Yields src .code (predicate asserts) .code (ReadFrom src) :=
      fun asserts => .pass fun name => .pass fun b => .passEither fun t =>
        .finish fun sp => by simp
    refine .pass fun t => ?_
    split
    next =>
      split
      next => exact .pass fun b => .ite .last (.pass fun _ => hpredicate true)
      next => exact .last
    next => exact .ite (hpredicate false) .last
    next => exact .last

instance : Gives src .code (resultAscribed g) .code (ReadFrom src) where
  yields := .pass fun start => .pass fun t => .finish fun sp => by simp

instance : Gives src .code (optionalResult g) .code (ReadFrom src) where
  yields := .pass fun _ => .pass fun _ => .ite .last .last

instance : Gives src .code entityName .code (ReadFrom src) where
  yields := by
    refine .pass fun start => .take fun first => .extend (fun left => ?_) first
    refine .pass fun b => .ite ?_ (.pure fun _ => nofun)
    exact .pass fun _ => .pass fun right => .finishSome fun sp _ => by simp

instance : Gives src .code (typeParam g) .code (ReadFrom src) where
  yields := .pass fun start => .pass fun b =>
    .ite (.take fun p => .finish fun sp hp => by simp [hp]) .last

instance : Gives src .code (signatureParams g) .code (ReadFrom src) where
  yields := .pass fun _ => .take fun ps => .pure fun hps => by simp [hps]

instance : Moves src .code endTypeMember .code := by
  unfold endTypeMember
  infer_instance

instance : Gives src .code (indexSignature g modifiers) .code (ReadFrom src) where
  yields := .pass fun start => .pass fun _ => .pass fun key => .pass fun _ => .pass fun t =>
    .pass fun _ => .finish fun sp => by simp

instance {word : String} : Looks (isModifier word) := by
  unfold isModifier
  infer_instance

instance : Gives src .code (typeMember g) .code (ReadFrom src) where
  yields := by
    refine .pass fun start => ?_
    extract_lets signature
    have hsignature : ∀ kind, Yields src .code (signature kind) .code (ReadFrom src) :=
      fun kind => .pass fun params => .pass fun args => .pass fun t => .pass fun _ =>
        .finish fun sp => by simp
    refine .pass fun b => .pass fun b => .ite (hsignature _) ?_
    refine .pass fun second => .pass fun b => .ite (.pass fun _ => hsignature _) ?_
    refine .pass fun isReadonly => .passIf fun _ => .pass fun b => .ite .last ?_
    refine .pass fun isGetter => .pass fun isSetter => .passIf fun _ => .pass fun key => .ite ?_ ?_
    · exact .pass fun _ => .pass fun _ => .pass fun t => .pass fun _ => .finish fun sp => by simp
    refine .ite (.pass fun args => .pass fun _ => .finish fun sp => by simp) ?_
    refine .pass fun isOptional => .pass fun b => .pass fun b => .ite ?_ ?_
    · exact .pass fun params => .pass fun args => .pass fun t => .pass fun _ =>
        .finish fun sp => by simp
    · exact .pass fun t => .pass fun _ => .finish fun sp => by simp

instance : Gives src .code (typeMembers g) .code (AllReadFrom src) where
  yields := .pass fun _ => .last

instance {present : Parser Bool} [Moves src .code present .code] :
    Moves src .code (mappedMark present) .code where
  yields := .pass fun _ => .ite Moves.yields (.pass fun _ => Moves.yields)

instance : Gives src .code (mappedType g) .code (ReadFrom src) where
  yields := .pass fun start => .pass fun _ => .pass fun readonlyMark => .pass fun _ =>
    .pass fun name => .pass fun _ => .pass fun constraint => .pass fun b =>
    .passEither fun renamed => .pass fun _ => .pass fun optionalMark => .pass fun b =>
    .passEither fun t => .pass fun _ => .pass fun _ => .finish fun sp => by simp

instance : Gives src .code (tupleElement g) .code (ReadFrom src) where
  yields := by
    refine .pass fun start => .pass fun labelled => .pass fun isRest => .pass fun inner => ?_
    extract_lets jp
    have hjp : ∀ t, Yields src .code (jp t) .code fun n => ReadFrom src t → ReadFrom src n :=
      fun t => .ite (.finish fun sp ht => by simp) (.pure id)
    refine .ite ?_ ?_
    · refine .pass fun name => .pass fun isOptional => .pass fun _ => .pass fun t =>
        .take fun t' => (hjp t').mono ?_
      rintro n hn ⟨sp, rfl⟩
      exact hn (by simp)
    · refine .take fun t => .pass fun b => .ite (.take fun t' => (hjp t').mono ?_) (hjp t)
      rintro n hn ⟨sp, rfl⟩ -
      exact hn (by simp)

instance {start : Nat} :
    Gives src .code (primaryType.importedType g start) .code (ReadFrom src) where
  yields := .pass fun _ => .pass fun _ => .pass fun source => .pass fun _ => .pass fun b =>
    .passEither fun name => .pass fun args => .finish fun sp => by simp

instance : Gives src .code (primaryType g) .code (ReadFrom src) where
  yields := by
    refine .pass fun start => .pass fun t => ?_
    split
    next => exact .pass fun b => .ite .last (.pass fun ms => .finish fun sp => by simp)
    next => exact .pass fun _ => .pass fun es => .finish fun sp => by simp
    next => exact .pass fun _ => .pass fun t => .pass fun _ => .finish fun sp => by simp
    next => exact .last
    next =>
      refine .pass fun _ => .pass fun t => ?_
      split
      next => exact .pass fun _ => .finish fun sp => by simp
      next => exact .pass fun _ => .finish fun sp => by simp
      next => exact .refuse
    next => exact .pass fun s => .finish fun sp => by simp
    next => exact .pass fun l => .finish fun sp => by simp
    next => exact .pass fun l => .finish fun sp => by simp
    next =>
      refine .pass fun second => .ite (.pass fun _ => .finish fun sp => by simp) ?_
      refine .ite (.pass fun _ => .pass fun b => .passEither fun name => .pass fun b =>
        .passEither fun args => .finish fun sp => by simp) ?_
      refine .ite .last (.ite (.pass fun _ => .finish fun sp => by simp) (.ite .refuse ?_))
      exact .pass fun name => .pass fun b => .passEither fun args => .finish fun sp => by simp
    next => exact .refuse

instance : Gives src .code (postfixType g) .code (ReadFrom src) where
  yields := by
    refine .pass fun start => .take fun t => .extend (fun t => ?_) t
    refine .pass fun b => .pass fun b => .ite ?_ (.pure fun _ => nofun)
    refine .pass fun _ => .pass fun b => .ite (.finishSome fun sp _ => by simp) ?_
    exact .pass fun index => .pass fun _ => .finishSome fun sp _ => by simp

theorem yields_operatorType (n : Nat) :
    Yields src .code (operatorType g n) .code (ReadFrom src) := by
  induction n with
  | zero => exact .refuse
  | succ n ih =>
    refine .pass fun start => ?_
    extract_lets operator
    have hoperator : ∀ word, Yields src .code (operator word) .code (ReadFrom src) :=
      fun word => .pass fun _ => .bind ih fun t => .finish fun sp _ => by simp
    refine .pass fun next => .pass fun b => .ite (hoperator _) ?_
    refine .pass fun b => .ite (hoperator _) (.pass fun b => .ite (hoperator _) ?_)
    refine .pass fun b => .ite ?_ .last
    refine .pass fun _ => .pass fun inner => .pass fun name =>
      .bind (.attempt (P := fun _ => True) ?_) fun constraint => .pass fun p =>
        .finish fun sp _ => by simp
    exact .pass fun _ => .pass fun c => .pass fun _ => .pass fun b =>
      .passIf fun _ => .pure trivial

instance {n : Nat} : Gives src .code (operatorType g n) .code (ReadFrom src) :=
  ⟨yields_operatorType n⟩

instance {operator : String} {kind : TypeKind} {piece : Parser Node}
    [Gives src .code piece .code (ReadFrom src)] :
    Gives src .code (joinedType operator kind piece) .code (ReadFrom src) where
  yields := by
    refine .pass fun start => .pass fun leading => .take fun ts => ?_
    split
    next => exact .ite (.finish fun sp _ => by simp) (.pure fun h => by simpa using h)
    next => exact .finish fun sp _ => by simp

instance {start : Nat} {kind : TypeKind} :
    Gives src .code (functionType g start kind) .code (ReadFrom src) where
  yields := .pass fun params => .pass fun args => .pass fun _ => .pass fun t =>
    .finish fun sp => by simp

instance : Gives src .code (typeProduction g) .code (ReadFrom src) where
  yields := by
    refine .pass fun start => .pass fun second => .pass fun b => .ite (.pass fun _ => .last) ?_
    refine .pass fun b => .ite (.pass fun _ => .pass fun _ => .last) (.pass fun b => .ite .last ?_)
    refine .pass fun b => .passEither fun isFunction => .ite .last ?_
    refine .pass fun c => .take fun checked => .pass fun c => .pass fun b => .pass fun b => ?_
    refine .ite ?_ (.pure id)
    exact .pass fun _ => .pass fun constraint => .pass fun _ => .pass fun yes => .pass fun _ =>
      .pass fun no => .finish fun sp _ => by simp

end ServerBoundary.Grammar
