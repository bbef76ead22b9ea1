import ServerBoundary.Grammar.Expression
import ServerBoundary.Proofs.Grammar.Function

/-!
# Expressions that were read
-/

namespace ServerBoundary.Grammar

open Syntax Source

variable {src : List Char} {g : Productions} [Sound src g]

/-! ## Arrow functions and parentheses -/

instance : Looks arrowFollows := by
  unfold arrowFollows
  infer_instance

theorem yields_arrowFrom (start : Nat) (isAsync : Bool) (params : List Node)
    (typeParams result : Node) :
    Yields src .code (arrowFrom g start isAsync params typeParams result) .code fun n =>
      AllReadFrom src params → ReadFrom src typeParams → ReadFrom src result → ReadFrom src n :=
  .pass fun _ => .pass fun c => .bind (P := ReadFrom src)
    (.within <| .pass fun _ => .ite .last .last) fun b =>
      .finish fun sp hb hparams htypes hresult => by simp [hb, hparams, htypes, hresult]

/-- The parts of the head of an arrow function. -/
def IsHead (src : List Char) (head : List Node × Node × Node) : Prop :=
  AllReadFrom src head.1 ∧ ReadFrom src head.2.1 ∧ ReadFrom src head.2.2

/-- An arrow function whose head was looked for and found. -/
theorem yields_arrowWith {start : Nat} {isAsync : Bool} {params : List Node}
    {typeParams result : Node} :
    Yields src .code (arrowFrom g start isAsync params typeParams result) .code fun n =>
      (∀ head ∈ some (params, typeParams, result), IsHead src head) → ReadFrom src n := by
  refine (yields_arrowFrom ..).mono fun n hn hhead => ?_
  obtain ⟨hparams, htypes, hresult⟩ := hhead _ rfl
  exact hn hparams htypes hresult

instance : Gives src .code (typedArrowHead g) .code (IsHead src) where
  yields := .take fun _ => .pass fun _ =>
    .bind (.listIn <| .pass fun _ => .ite .last .last) fun _ => .take fun _ => .pass fun _ =>
      .passElse fun _ => .pure fun hresult hparams htypes => ⟨hparams, htypes, hresult⟩

instance : Gives src .code (coveredItems g) .code (AllReadFrom src) where
  yields := .within <| .listIn <| .pass fun _ => .ite
    (.pass fun start => .pass fun _ => .take fun e => .finish fun sp he => by simp [he]) .last

theorem yields_paramsOf (items : List Node) :
    Yields src .code (paramsOf items) .code fun ps =>
      AllReadFrom src items → AllReadFrom src ps := by
  unfold paramsOf
  split
  next ps hps => exact .pure fun hitems =>
      allReadFrom_patternsOf (fun e _ => readFrom_patternOf e) hps hitems
  next => exact .refuse

instance : Gives src .code (parenthesized g) .code (ReadFrom src) where
  yields := by
    refine .pass fun start => .pass fun c => ?_
    extract_lets jp
    have hjp : ∀ head, Yields src .code (jp head) .code fun n =>
        (∀ parts ∈ head, IsHead src parts) → ReadFrom src n := by
      intro head
      dsimp only [jp]
      split
      next => exact yields_arrowWith
      next =>
        refine .pass fun _ => .pass fun inner => .take fun items => .pass fun _ => .ite ?_ ?_
        · refine .bind (yields_paramsOf items) fun params =>
            (yields_arrowFrom ..).mono fun n hn hparams hitems _ => ?_
          exact hn (hparams hitems) readFrom_absent readFrom_absent
        · split
          next => exact .refuse
          next =>
            split
            next => exact .refuse
            next => exact .finish fun sp hitems _ => by simpa using hitems
          next => exact .finish fun sp hitems _ => by simpa using hitems
    clear_value jp
    exact .ite (.take hjp) (.passPure ((hjp none).mono fun n hn => hn nofun))

/-- Arguments are a list of trees that were read. -/
def IsArguments (src : List Char) (n : Node) : Prop :=
  ∃ items, n = .group items ∧ AllReadFrom src items

theorem IsArguments.readFrom {n : Node} (h : IsArguments src n) : ReadFrom src n := by
  obtain ⟨items, rfl, hitems⟩ := h
  simpa using hitems

instance : Gives src .code (arguments g) .code (IsArguments src) where
  yields := .pass fun _ => .take fun items => .pure fun hitems => ⟨items, rfl, hitems⟩

/-- A piece that may be missing was read. -/
def MaybeReadFrom (src : List Char) (o : Option Node) : Prop := ∀ n ∈ o, ReadFrom src n

instance : Gives src .code (asyncExpression g) .code (MaybeReadFrom src) where
  yields := by
    refine .pass fun start => .pass fun next => .ite (.pure nofun) ?_
    split
    next =>
      refine .ite ?_ (.ite (.pure nofun) ?_)
      · refine .pass fun _ => .pass fun _ => .pass fun isGenerator => .pass fun _ => ?_
        refine .pass fun _ => .bindEither .last yields_boundIdentifier fun name => .take fun f => ?_
        exact .finishSome fun sp hf hname => by simp [MaybeReadFrom, hf, hname]
      · refine .pass fun found => .ite (.pass fun _ => .take fun p => ?_) (.pure nofun)
        refine .bind (yields_arrowFrom ..) fun n => .pure fun hn hp => ?_
        have hread := hn (by simp [hp.1]) readFrom_absent readFrom_absent
        simp [MaybeReadFrom, hread]
    next p =>
      refine .pass fun c => ?_
      extract_lets jp
      have hjp : Yields src .code (jp ()) .code (MaybeReadFrom src) := by
        refine .ite (.take fun name => .take fun args => .pass fun _ => .ite ?_ ?_) (.pure nofun)
        · split
          next items =>
            refine .bind (yields_paramsOf items) fun params => ?_
            refine .bind (yields_arrowFrom ..) fun n => .pure fun hn hparams hargs _ => ?_
            obtain ⟨items, heq, hitems⟩ := hargs
            cases heq
            simp [MaybeReadFrom, hn (hparams hitems) readFrom_absent readFrom_absent]
        · exact .finishSome fun sp hargs hname => by simp [MaybeReadFrom, hargs.readFrom, hname]
      clear_value jp
      refine .ite (.take fun head => ?_) hjp
      split
      next =>
        refine .bind yields_arrowWith fun n => .pure fun hn hhead => ?_
        simp [MaybeReadFrom, hn hhead]
      next => exact .passPure (hjp.anyway)
    next => exact .pure nofun

/-! ## What is applied to nothing -/

instance : Gives src .code (arrayItem g) .code (ReadFrom src) where
  yields := .pass fun start => .pass fun _ => .ite .last <| .pass fun _ => .ite
    (.take fun e => .finish fun sp he => by simp [he]) .last

instance : Gives src .code (objectItem g) .code (ReadFrom src) where
  yields := by
    refine .pass fun start => .pass fun _ => .ite ?_ (.pass fun second => .pass fun next => ?_)
    · exact .take fun e => .finish fun sp he => by simp [he]
    refine .ite ?_ ?_
    · refine .take fun name => .pass fun _ => .ite ?_ (.pure id)
      exact .take fun value => .finish fun sp hvalue hname => by simp [hvalue, hname]
    refine .pass fun isAsync => .passIf fun _ => .pass fun isGenerator => ?_
    refine .passEither fun isGetter => .passEither fun isSetter => .passIf fun _ => ?_
    refine .take fun key => .ite ?_ (.ite ?_ ?_)
    · refine .bind (P := fun parts => ReadFrom src parts.1 ∧ ReadFrom src parts.2)
        (.within <| .pass fun _ => .pass fun _ => .take fun t => .take fun b =>
          .pure fun hb ht => ⟨ht, hb⟩) fun parts => ?_
      exact .finish fun sp ⟨ht, hb⟩ hkey => by simp [ht, hb, hkey]
    · refine .bind (P := fun parts => ReadFrom src parts.1 ∧ ReadFrom src parts.2)
        (.within <| .pass fun _ => .pass fun _ => .takeEither fun p => .pass fun _ =>
          .pass fun _ => .take fun b => .pure fun hb hp => ⟨hp, hb⟩) fun parts => ?_
      exact .finish fun sp ⟨hp, hb⟩ hkey => by simp [hp, hb, hkey]
    · refine .pass fun _ => .pass fun _ => .pass fun _ => .ite ?_ ?_
      · exact .take fun f => .finish fun sp hf hkey => by simp [hf, hkey]
      · exact .pass fun _ => .take fun value => .finish fun sp hvalue hkey => by
          simp [hvalue, hkey]

instance : Gives src .code (functionExpression g) .code (ReadFrom src) where
  yields := .pass fun start => .pass fun _ => .pass fun _ => .pass fun _ => .pass fun _ =>
    .bindEither .last yields_boundIdentifier fun name => .take fun f =>
      .finish fun sp hf hname => by simp [hf, hname]

theorem yields_classExpression (start : Nat) (ds : List Node) :
    Yields src .code (classExpression g start ds) .code fun c =>
      AllReadFrom src ds → ReadFrom src c := by
  refine .pass fun _ => .pass fun _ => .pass fun _ => .pass fun _ => ?_
  extract_lets named jp
  have hjp : ∀ anonymous, Yields src .code (jp anonymous) .code fun c =>
      AllReadFrom src ds → ReadFrom src c := by
    refine fun anonymous => .bindEither .last yields_boundIdentifier fun name => ?_
    refine .bind (yields_classFrom start false ds) fun c => .finish fun sp hc hname hds => ?_
    simp [hc hds, hname]
  clear_value jp
  exact .ite (.pass hjp) (.pass fun _ => .ite (.pass fun _ => .pass hjp) (.pass hjp))

instance {start : Nat} : Gives src .code (classExpression g start []) .code (ReadFrom src) :=
  ⟨(yields_classExpression start []).mono fun _ h => h allReadFrom_nil⟩

theorem yields_literalOf {l : Literal} (h : NodeFits src (.literal l) [] := by trivial) :
    Yields src .code (literalOf l) .code (ReadFrom src) :=
  .pass fun _ => .pass fun _ => .finish fun _ => (readFrom_iff rfl).mpr ⟨h, allReadFrom_nil⟩

instance : Moves src m (rescan Token.scanRegex) .code := moves_rescan scans_scanRegex

/-- What an identifier is when no arrow function starts with it. -/
theorem yields_arrowOf {start : Nat} {name p : Node} (hp : patternOf? name = some p) :
    Yields src .code (arrowFrom g start false [p] .absent .absent) .code fun n =>
      ReadFrom src name → ReadFrom src n :=
  (yields_arrowFrom ..).mono fun n hn hname =>
    hn (by simp [readFrom_patternOf name p hp hname]) readFrom_absent readFrom_absent

instance : Gives src .code (primary g) .code (ReadFrom src) where
  yields := by
    refine .pass fun start => .pass fun t => ?_
    split
    next word escaped =>
      extract_lets named jp
      have hjp : Yields src .code (jp ()) .code (ReadFrom src) := by
        dsimp only [jp, named]
        split
        next => exact .pass fun _ => .finish fun sp => by simp
        next => exact .pass fun _ => .finish fun sp => by simp
        next => exact yields_literalOf
        next => exact yields_literalOf
        next => exact yields_literalOf
        next => exact .last
        next => exact .last
        next =>
          refine .pass fun _ => .pass fun _ => .ite ?_ (.pass fun _ => .ite ?_ .refuse)
          · exact .pass fun _ => .finish fun sp => by simp
          · exact .finish fun sp => by simp
        next =>
          refine .passUnless fun _ => .take fun name => .pass fun _ => .ite ?_ (.pure fun h _ => h)
          split
          next p hp => exact (yields_arrowOf hp).mono fun n hn hname _ => hn hname
          next => exact .pure fun h _ => h
      clear_value jp
      refine .ite (.take fun o => ?_) hjp
      split
      next e => exact .pure fun ho => ho e rfl
      next => exact hjp.anyway
    next => exact .passUnless fun _ => (yields_literalOf).anyway
    next => exact yields_literalOf
    next => exact .last
    next =>
      exact .pass fun _ => .pass fun _ => .pass fun _ => .ite (.finish fun sp => by simp) .refuse
    next p =>
      split
      next => exact .last
      next => exact .pass fun _ => .take fun es => .finish fun sp hes => by simpa using hes
      next => exact .pass fun _ => .take fun ps => .finish fun sp hps => by simpa using hps
      next => exact .last
      next =>
        refine .pass fun _ => .pass fun _ => ?_
        split
        next => exact yields_literalOf
        next => exact .refuse
      next =>
        refine .pass fun _ => .pass fun _ => ?_
        split
        next => exact yields_literalOf
        next => exact .refuse
      next =>
        refine .pass fun c => ?_
        extract_lets jp
        have hjp : Yields src .code (jp ()) .code (ReadFrom src) :=
          .pass fun _ => .ite (.take fun e => .pass fun _ => .pure id) .refuse
        clear_value jp
        refine .ite (.take fun head => ?_) hjp
        split
        next => exact yields_arrowWith
        next => exact hjp.anyway
      next =>
        refine .pass fun _ => .ite (.take fun ds => ?_) .refuse
        exact yields_classExpression start ds
      next => exact .refuse
    next => exact .refuse

/-! ## Members and calls -/

instance : Gives src .code memberName .code (ReadFrom src) where
  yields := by
    refine .pass fun t => ?_
    split
    next => exact .pass fun _ => .pass fun _ => .finish fun sp => by simp
    next => exact .last

instance : Looks atInstantiationEnd := by
  refine .andThen fun b => ?_
  split
  next => infer_instance
  next =>
    refine .andThen fun t => ?_
    split <;> infer_instance

theorem yields_chainStep (start : Nat) (calls : Bool) (e : Node) :
    Yields src .code (chainStep g start calls e) .code fun o =>
      ReadFrom src e → MaybeReadFrom src o := by
  refine .ite (.pure fun _ => nofun) ?_
  extract_lets index
  have hindex : ∀ optional, Yields src .code (index optional) .code fun n =>
      ReadFrom src e → ReadFrom src n :=
    fun optional => .pass fun _ => .take fun i => .pass fun _ => .finish fun sp hi he => by
      simp [hi, he]
  clear_value index
  refine .pass fun t => ?_
  split
  next =>
    refine .pass fun _ => .take fun name => .finishSome fun sp hname he => ?_
    simp [MaybeReadFrom, hname, he]
  next =>
    refine .passUnless fun _ => .pass fun _ => .pass fun _ => .ite ?_ (.pass fun _ => .ite ?_ ?_)
    · exact .bind (hindex true) fun n => .pure fun hn _ he => by simp [MaybeReadFrom, hn he]
    · exact .take fun args => .finishSome fun sp hargs _ he => by
        simp [MaybeReadFrom, hargs.readFrom, he]
    · refine .take fun typeArgs => .ite (.take fun args => ?_) (.take fun name => ?_)
      · exact .finishSome fun sp hargs htypes _ he => by
          simp [MaybeReadFrom, hargs.readFrom, htypes, he]
      · exact .finishSome fun sp hname _ _ he => by simp [MaybeReadFrom, hname, he]
  next => exact .bind (hindex false) fun n => .pure fun hn he => by simp [MaybeReadFrom, hn he]
  next =>
    refine .ite (.take fun args => ?_) (.pure fun _ => nofun)
    exact .finishSome fun sp hargs he => by simp [MaybeReadFrom, hargs.readFrom, he]
  next => exact .take fun t => .finishSome fun sp ht he => by simp [MaybeReadFrom, ht, he]
  next =>
    refine .pass fun _ => .pass fun _ => .ite (.pass fun _ => ?_) (.pure fun _ => nofun)
    exact .finishSome fun sp he => by simp [MaybeReadFrom, he]
  next =>
    refine .pass fun _ => .ite (.pure fun _ => nofun) ?_
    refine .mono (.attempt (P := fun n => ReadFrom src e → ReadFrom src n) ?_)
      fun o ho he n hn => ho n hn he
    refine .take fun typeArgs => .pass fun _ => .ite ?_ (.pass fun _ => .ite ?_ ?_)
    · exact .take fun args => .finish fun sp hargs htypes he => by
        simp [hargs.readFrom, htypes, he]
    · exact .take fun t => .finish fun sp ht htypes he => by simp [ht, htypes, he]
    · refine .pass fun _ => .pass fun _ => .ite ?_ .refuse
      exact .finish fun sp htypes he => by simp [htypes, he]
  next => exact .pure fun _ => nofun

instance {n : Nat} : Gives src .code (newExpression g n) .code (ReadFrom src) where
  yields := by
    induction n with
    | zero => exact .refuse
    | succ n ih =>
      refine .pass fun start => .pass fun _ => .pass fun _ => .ite ?_ (.pass fun inner => ?_)
      · exact .pass fun _ => .pass fun _ => .passElse fun _ => .finish fun sp => by simp
      · refine .pass fun _ => .bindEither ih .last fun base => ?_
        refine .bind (.extend (yields_chainStep inner false) base) fun callee => ?_
        split
        next callee' typeArgs hparts =>
          refine .pass fun _ => .bindEither (P := ReadFrom src)
            (Yields.last.mono fun _ => IsArguments.readFrom) .last fun args => ?_
          -- A callee with type arguments is taken apart again.
          refine .finish fun sp hargs hextended hbase => ?_
          have hcallee : ReadFrom src callee' ∧ ReadFrom src typeArgs := by
            have hread := hextended hbase
            split at hparts <;> (cases hparts; simpa using hread)
          simp [hargs, hcallee]

instance : Gives src .code (leftHandSide g) .code (ReadFrom src) where
  yields := .pass fun start => .pass fun _ => .ite
    (.pass fun _ => .take fun base => .extend (yields_chainStep start true) base)
    (.take fun base => .extend (yields_chainStep start true) base)

/-! ## Operators -/

instance : Gives src .code (unaryProduction g) .code (ReadFrom src) where
  yields := by
    refine .pass fun start => ?_
    extract_lets operator jp
    have hoperator : ∀ op, Yields src .code (operator op) .code (ReadFrom src) := by
      intro op
      refine .pass fun _ => .take fun e => ?_
      dsimp only
      split
      next => exact .pass fun _ => .finish fun sp he => by simp [he]
      next => exact .finish fun sp he => by simp [he]
    have hjp : ∀ asserted, Yields src .code (jp asserted) .code (ReadFrom src) := by
      refine fun asserted => .ite (.pass fun _ => .pass fun _ => .ite ?_ ?_) ?_
      · exact .pass fun _ => .pass fun _ => .take fun e => .finish fun sp he => by simp [he]
      · exact .take fun t => .pass fun _ => .take fun e => .finish fun sp he ht => by simp [he, ht]
      refine .take fun e => .pass fun _ => .ite (.pure id) ?_
      refine .pass fun _ => .ite (.finish fun sp he => by simp [he]) ?_
      exact .pass fun _ => .ite (.finish fun sp he => by simp [he]) (.pure id)
    clear_value operator jp
    refine .pass fun t => ?_
    split
    next => exact hoperator _
    next => exact hoperator _
    next => exact hoperator _
    next =>
      refine .pass fun _ => .ite (.pass fun _ => .take fun e => ?_) .refuse
      exact .finish fun sp he => by simp [he]
    next => exact hoperator _
    next => exact hoperator _
    next => exact hoperator _
    next => exact hoperator _
    next => exact .pass fun _ => .take fun e => .finish fun sp he => by simp [he]
    next => exact .pass fun _ => .take fun e => .finish fun sp he => by simp [he]
    next =>
      exact .pass fun c => .pass fun _ => .ite (.pass fun _ => .pass hjp) (.pass hjp)

instance : Looks operatorText := by
  refine .andThen fun t => ?_
  split
  next =>
    refine .andThen fun r => ?_
    split <;> infer_instance
  next => infer_instance
  next => infer_instance
  next => infer_instance

instance : Moves src .code skipOperator .code where
  yields :=
    have : Moves src .code (rescan fun cs => match splitGreater cs with
        | some (op, rest) => (.punct op, rest)
        | none => (.eof, cs)) .code := moves_rescan scans_splitGreater
    .pass fun _ => .passIf fun _ => Moves.yields

theorem yields_binaryFrom (n start level : Nat) (left : Node) :
    Yields src .code (binaryFrom g n start level left) .code fun e =>
      ReadFrom src left → ReadFrom src e := by
  induction n generalizing start level left with
  | zero => exact .refuse
  | succ n ih =>
    refine .ite (.pure id) (.pass fun op => ?_)
    split
    next => exact .pure id
    next p hp =>
      refine .ite (.pure id) (.pass fun _ => .pass fun _ => .ite ?_ (.ite ?_ ?_))
      · refine .pass fun _ => .take fun e => (ih start level e).mono ?_
        exact fun n hn ⟨sp, he⟩ hleft => hn (by simp [he, hleft])
      · refine .take fun t => .take fun e => (ih start level e).mono ?_
        exact fun n hn ⟨sp, he⟩ ht hleft => hn (by simp [he, hleft, ht])
      · refine .passUnless fun _ => .pass fun inner => .take fun operand => ?_
        refine .bind (ih _ _ operand) fun right => ?_
        extract_lets mixes jp
        have hjp : ∀ u, Yields src .code (jp u) .code fun n =>
            ReadFrom src left → ReadFrom src right → ReadFrom src n := by
          refine fun u => .take fun e => (ih start level e).mono ?_
          exact fun n hn ⟨sp, he⟩ hleft hright => hn (by simp [he, hleft, hright])
        clear_value jp
        have hjp' : ∀ u, Yields src .code (jp u) .code fun n =>
            (ReadFrom src operand → ReadFrom src right) → ReadFrom src operand →
              ¬(op == "**" && isUnary left) = true → ReadFrom src left → ReadFrom src n :=
          fun u => (hjp u).mono fun n hn hright hoperand _ hleft => hn hleft (hright hoperand)
        exact .ite (.pass hjp') (.ite (.pass hjp') (hjp' ()))

instance : Gives src .code (conditional g) .code (ReadFrom src) where
  yields := by
    refine .pass fun start => .take fun left => .pass fun c => ?_
    refine .bind (yields_binaryFrom _ _ _ left) fun test => .ite (.pure id) ?_
    refine .pass fun _ => .ite ?_ (.pure id)
    refine .take fun yes => .pass fun _ => .take fun no => .finish fun sp hno hyes htest hleft => ?_
    simp [hno, hyes, htest hleft]

theorem yields_targetOf (op : String) (e : Node) :
    Yields src .code (targetOf op e) .code fun t => ReadFrom src e → ReadFrom src t := by
  refine .ite (.pure id) ?_
  have hpattern : ∀ p, patternOf? e = some p →
      Yields src .code (pure p) .code fun t => ReadFrom src e → ReadFrom src t :=
    fun p hp => .pure (readFrom_patternOf e p hp)
  split
  next =>
    split
    next p hp => exact hpattern p hp
    next => exact .refuse
  next =>
    split
    next p hp => exact hpattern p hp
    next => exact .refuse
  next => exact .refuse

instance : Gives src .code (yieldExpression g) .code (ReadFrom src) where
  yields := by
    refine .pass fun start => .pass fun _ => .pass fun _ => ?_
    extract_lets jp
    have hjp : ∀ ends, Yields src .code (jp ends) .code (ReadFrom src) :=
      fun ends => .ite (.finish fun sp => by simp) <|
        .pass fun _ => .take fun e => .finish fun sp he => by simp [he]
    clear_value jp
    refine .ite (.pass hjp) (.pass fun t => ?_)
    split <;> exact .pass hjp

instance : Gives src .code (assignmentProduction g) .code (ReadFrom src) where
  yields := by
    refine .pass fun c => .pass fun _ => .ite .last ?_
    refine .pass fun start => .take fun left => .ite (.pure id) (.pass fun op => .ite ?_ (.pure id))
    refine .bind (yields_targetOf op left) fun target => .pass fun _ => .take fun value => ?_
    exact .finish fun sp hvalue htarget hleft => by simp [hvalue, htarget hleft]

instance : Gives src .code (expressionProduction g) .code (ReadFrom src) where
  yields := by
    refine .pass fun start => .take fun es => ?_
    split
    next e => exact .pure fun hes => by simpa using hes
    next => exact .finish fun sp hes => by simpa using hes

end ServerBoundary.Grammar
