import ServerBoundary.Proofs.Grammar.Tokens
import ServerBoundary.Syntax.Names

/-!
# What the grammar reads

A program logic for productions. `Yields src m p m' post` says of a production `p` that reads from
the text `src`: it takes no fault back, and if it leaves no fault, what it gives satisfies `post`
and the reader is again at a token of the text. The modes say how the token before and the token
after were looked for.

> `ReadFrom`: what holds of every tree that was read. A string without a backslash stands in the
> text, and a declared name may be bound.

A production is proved step by step: `Yields.pass` goes past a step of which nothing is used,
`Yields.take` past one whose result is used later, and what is known of a result stands in front of
what is asked at the end. What is known of each production is an instance, so that a step names the
result and not the lemma. Where the ways of a condition join again, what follows is a function `jp`
of the result, and is proved first.
-/

namespace ServerBoundary.Grammar

open Syntax Source

variable {α β : Type} {src : List Char} {m m₁ m' : Mode} {P post post' : α → Prop}

/-! ## Trees that were read -/

/-- Whether a name may be bound in a module. -/
def isBindable (name : String) : Bool :=
  isNameText name.toList && !isReserved name && !strictWords.contains name &&
    name != "eval" && name != "arguments"

/-- A pattern that may be declared, if it is a name. Where types are written, `this` is read as a
name as well. -/
@[simp] def IsDeclarable : Node → Prop
  | .mk (.pattern (.binding name _)) _ _ => isBindable name = true ∨ name = "this"
  | _ => True

/-- A declaration whose name, if it has one, may be bound. -/
@[simp] def IsNamed : List Node → Prop
  | .mk (.ident name) _ _ :: _ => isBindable name = true
  | .mk (.literal _) _ _ :: _ => False
  | _ => True

/-- What holds of a node that was read, by its kind and its parts: a string is written in the text,
and a name that is declared may be bound. -/
@[simp] def NodeFits (src : List Char) : Kind → List Node → Prop
  | .literal (.string value raw), _ => ∃ written, raw = some written ∧ Quoted src value written
  | .stmt (.declarator _), p :: _ => IsDeclarable p
  | .stmt (.function _), cs => IsNamed cs
  | .stmt (.class_ _), cs => IsNamed cs
  | _, _ => True

/-- A tree that was read from a text. Nothing is asked of types. -/
inductive ReadFrom (src : List Char) : Node → Prop
  | type {t : TypeKind} {sp : Span} {cs : List Node} : ReadFrom src (.mk (.type t) sp cs)
  | node {k : Kind} {sp : Span} {cs : List Node} (fits : NodeFits src k cs)
      (parts : ∀ c ∈ cs, ReadFrom src c) : ReadFrom src (.mk k sp cs)

/-- All trees of a list were read from a text. -/
def AllReadFrom (src : List Char) (cs : List Node) : Prop := ∀ c ∈ cs, ReadFrom src c

@[simp] theorem allReadFrom_nil : AllReadFrom src [] := fun _ h => absurd h List.not_mem_nil

@[simp] theorem allReadFrom_cons {c : Node} {cs : List Node} :
    AllReadFrom src (c :: cs) ↔ ReadFrom src c ∧ AllReadFrom src cs :=
  List.forall_mem_cons

theorem readFrom_iff {k : Kind} {sp : Span} {cs : List Node} (hk : k.isType = false) :
    ReadFrom src (.mk k sp cs) ↔ NodeFits src k cs ∧ AllReadFrom src cs := by
  constructor
  · intro h
    cases h with
    | type => exact absurd hk (by simp [Kind.isType])
    | node fits parts => exact ⟨fits, parts⟩
  · exact fun h => .node h.1 h.2

/-- The same for a kind that is known, so that the condition on the node can be computed. -/
@[simp] theorem readFrom_mk {k : Kind} {sp : Span} {cs : List Node} :
    ReadFrom src (.mk k sp cs) ↔
      match k with
      | .type _ => True
      | k => NodeFits src k cs ∧ AllReadFrom src cs := by
  cases k with
  | type => exact ⟨fun _ => trivial, fun _ => .type⟩
  | _ => exact readFrom_iff rfl

@[simp] theorem readFrom_absent : ReadFrom src .absent :=
  (readFrom_iff rfl).mpr ⟨trivial, allReadFrom_nil⟩

/-! ## The logic -/

/-- The reader is at a token of a text. -/
def At (src : List Char) (m : Mode) (r : Reader) : Prop := r.current.In src m

/-- From one reader a piece takes no fault back, and if it leaves none, it goes from a token of the
text to a token of the text, and what it gives satisfies a condition. -/
def YieldsAt (src : List Char) (m : Mode) (r : Reader) (p : Parser α) (m' : Mode)
    (post : α → Prop) : Prop :=
  ∀ ⦃c : Context⦄ ⦃a : α⦄ ⦃r' : Reader⦄, p c r = .ok a r' →
    (r'.faults = [] → r.faults = []) ∧
      (At src m r → r'.faults = [] → At src m' r' ∧ post a)

/-- The same from every reader. -/
def Yields (src : List Char) (m : Mode) (p : Parser α) (m' : Mode) (post : α → Prop) : Prop :=
  ∀ ⦃r : Reader⦄, YieldsAt src m r p m' post

/-- A piece that goes from one kind of token to another. -/
class Moves (src : List Char) (m : Mode) (p : Parser α) (m' : outParam Mode) : Prop where
  yields : Yields src m p m' fun _ => True

/-- A piece of whose result something is known. -/
class Gives (src : List Char) (m : Mode) (p : Parser α) (m' : outParam Mode)
    (post : outParam (α → Prop)) : Prop where
  yields : Yields src m p m' post

/-- A piece that looks at the source and does not move. -/
class Looks (p : Parser α) : Prop where
  stays : ∀ ⦃c : Context⦄ ⦃r : Reader⦄ ⦃a : α⦄ ⦃r' : Reader⦄, p c r = .ok a r' → r' = r

theorem bind_run (p : Parser α) (f : α → Parser β) (c : Context) (r : Reader) :
    (p >>= f) c r = match p c r with
      | .ok a r' => f a c r'
      | .error e r' => .error e r' := by
  show EStateM.bind (p c) (fun a => f a c) r = _
  unfold EStateM.bind
  cases p c r <;> rfl

theorem YieldsAt.of {r : Reader} {p : Parser α} (h : Yields src m p m' post) :
    YieldsAt src m r p m' post :=
  @h r

/-- Past a change of the reader that changes no faults. -/
theorem YieldsAt.set {r r₁ : Reader} {f : Unit → Parser β} {post : β → Prop}
    (hfaults : r₁.faults = r.faults) (hat : At src m r → At src m r₁)
    (hf : Yields src m (f ()) m' post) : YieldsAt src m r (set r₁ >>= f) m' post := by
  intro c b r' hok
  have h := hf (show f () c r₁ = .ok b r' from hok)
  exact ⟨fun hnone => hfaults ▸ h.1 hnone, fun hr hnone => h.2 (hat hr) hnone⟩

namespace Yields

theorem mono {p : Parser α} (hp : Yields src m p m' post) (h : ∀ a, post a → post' a) :
    Yields src m p m' post' := fun _ _ a _ hok =>
  ⟨(hp hok).1, fun hat hfaults => ((hp hok).2 hat hfaults).imp_right (h a)⟩

/-- Whatever was known before. -/
theorem anyway {p : Parser α} (hp : Yields src m p m' post) {known : Prop} :
    Yields src m p m' fun a => known → post a :=
  hp.mono fun _ h _ => h

/-- A token of the code will do where any token will. -/
theorem weaken {p : Parser α} (hp : Yields src m p .code post) : Yields src m p m' post :=
  fun _ _ _ _ hok =>
    ⟨(hp hok).1, fun hat hfaults => ((hp hok).2 hat hfaults).imp_left Lexeme.In.weaken⟩

/-- A piece that can start inside a tag can start anywhere. -/
theorem anywhere {p : Parser α} (hp : Yields src .tag p m' post) : Yields src m p m' post :=
  fun _ _ _ _ hok =>
    ⟨(hp hok).1, fun hat hfaults => (hp hok).2 (Lexeme.In.inTag hat) hfaults⟩

protected theorem pure {a : α} (h : post a) : Yields src m (pure a) m post := by
  intro r c b r' hok
  cases hok
  exact ⟨id, fun hat _ => ⟨hat, h⟩⟩

theorem bind {p : Parser α} {f : α → Parser β} {post : β → Prop} (hp : Yields src m p m₁ P)
    (hf : ∀ a, Yields src m₁ (f a) m' fun b => P a → post b) :
    Yields src m (p >>= f) m' post := by
  intro r c b r'' hok
  rw [bind_run] at hok
  cases hfirst : p c r with
  | error e r' =>
    rw [hfirst] at hok
    cases hok
  | ok a r' =>
    rw [hfirst] at hok
    obtain ⟨hback, hgoes⟩ := hp hfirst
    obtain ⟨hback', hgoes'⟩ := hf a hok
    refine ⟨hback ∘ hback', fun hat hfaults => ?_⟩
    obtain ⟨hat', ha⟩ := hgoes hat (hback' hfaults)
    exact (hgoes' hat' hfaults).imp_right fun h => h ha

/-- Past a value that is only named. -/
theorem passPure {a : α} {f : α → Parser β} {post : β → Prop} (hf : Yields src m (f a) m' post) :
    Yields src m (pure a >>= f) m' post :=
  pure_bind a f ▸ hf

/-- With the reader as it is. -/
theorem get {f : Reader → Parser β} {post : β → Prop}
    (hf : ∀ r, YieldsAt src m r (f r) m' post) : Yields src m (get >>= f) m' post :=
  fun r => hf r

/-- Past a step of which nothing is used. -/
theorem pass {p : Parser α} {f : α → Parser β} {post : β → Prop} [Moves src m p m₁]
    (hf : ∀ a, Yields src m₁ (f a) m' post) : Yields src m (p >>= f) m' post :=
  bind Moves.yields fun a => (hf a).anyway

/-- Past a step whose result is used. -/
theorem take {p : Parser α} {f : α → Parser β} {post : β → Prop} [Gives src m p m₁ P]
    (hf : ∀ a, Yields src m₁ (f a) m' fun b => P a → post b) : Yields src m (p >>= f) m' post :=
  bind Gives.yields hf

/-- A last step. -/
theorem last {p : Parser α} [Gives src m p m' post] : Yields src m p m' post := Gives.yields

theorem ite {c : Prop} [Decidable c] {p q : Parser α} (hp : Yields src m p m' post)
    (hq : Yields src m q m' post) : Yields src m (if c then p else q) m' post := by
  split
  next => exact hp
  next => exact hq

/-- Past a step that is taken in one of two ways. -/
theorem passEither {c : Prop} [Decidable c] {p q : Parser α} {f : α → Parser β} {post : β → Prop}
    [Moves src m p m₁] [Moves src m q m₁] (hf : ∀ a, Yields src m₁ (f a) m' post) :
    Yields src m (if c then p >>= f else q >>= f) m' post :=
  .ite (.pass hf) (.pass hf)

/-- Past a step that is taken in one of two ways and whose result is used. -/
theorem takeEither {c : Prop} [Decidable c] {p q : Parser α} {f : α → Parser β} {post : β → Prop}
    [Gives src m p m₁ P] [Gives src m q m₁ P]
    (hf : ∀ a, Yields src m₁ (f a) m' fun b => P a → post b) :
    Yields src m (if c then p >>= f else q >>= f) m' post :=
  .ite (.take hf) (.take hf)

/-- Past a step that is taken in one of two ways, as proved here. -/
theorem bindEither {c : Prop} [Decidable c] {p q : Parser α} {f : α → Parser β} {post : β → Prop}
    (hp : Yields src m p m₁ P) (hq : Yields src m q m₁ P)
    (hf : ∀ a, Yields src m₁ (f a) m' fun b => P a → post b) :
    Yields src m (if c then p >>= f else q >>= f) m' post :=
  .ite (.bind hp hf) (.bind hq hf)

/-- Past a step that may be left out. -/
theorem passIf {c : Prop} [Decidable c] {p : Parser Unit} {f : Unit → Parser β} {post : β → Prop}
    [Moves src m p m] (hf : ∀ a, Yields src m (f a) m' post) :
    Yields src m (if c then p >>= f else f ()) m' post :=
  .ite (.pass hf) (hf ())

/-- Past a step that is left out under a condition. -/
theorem passElse {c : Prop} [Decidable c] {p : Parser Unit} {f : Unit → Parser β} {post : β → Prop}
    [Moves src m p m] (hf : ∀ a, Yields src m (f a) m' post) :
    Yields src m (if c then f () else p >>= f) m' post :=
  .ite (hf ()) (.pass hf)

/-- After a failure anything holds. -/
theorem throw {e : SyntaxError} : Yields src m (throw e : Parser α) m' post :=
  fun _ _ _ _ hok => nomatch hok

theorem finish {start : Nat} {kind : Kind} {children : List Node} {post : Node → Prop}
    (h : ∀ sp, post (.mk kind sp children)) :
    Yields src m (Grammar.finish start kind children) m post := by
  intro r c a r' hok
  cases hok
  exact ⟨id, fun hat _ => ⟨hat, h _⟩⟩

/-- The same with the node as one that may be missing. -/
theorem finishSome {start : Nat} {kind : Kind} {children : List Node} {post : Option Node → Prop}
    (h : ∀ sp, post (some (.mk kind sp children))) :
    Yields src m (Grammar.finish start kind children >>= fun n => pure (some n)) m post := by
  intro r c a r' hok
  cases hok
  exact ⟨id, fun hat _ => ⟨hat, h _⟩⟩

end Yields

/-! ## Steps that do not move -/

instance Looks.moves {p : Parser α} [Looks p] : Moves src m p m where
  yields c r a r' hok := by
    rw [Looks.stays hok]
    exact ⟨id, fun hat _ => ⟨hat, trivial⟩⟩

instance Looks.bind {p : Parser α} {f : α → Parser β} [Looks p] [∀ a, Looks (f a)] :
    Looks (p >>= f) where
  stays c r b r'' hok := by
    rw [bind_run] at hok
    cases hfirst : p c r with
    | error e r' =>
      rw [hfirst] at hok
      cases hok
    | ok a r' =>
      rw [hfirst] at hok
      exact (Looks.stays hok).trans (Looks.stays hfirst)

/-- Looks at something and then, whatever that is, looks further. -/
theorem Looks.andThen {p : Parser α} {f : α → Parser β} [Looks p] (hf : ∀ a, Looks (f a)) :
    Looks (p >>= f) :=
  .bind

instance {c : Prop} [Decidable c] {p q : Parser α} [Looks p] [Looks q] :
    Looks (if c then p else q) := by
  split <;> infer_instance

instance {a : α} : Looks (pure a : Parser α) where
  stays _ _ _ _ hok := by
    cases hok
    rfl

instance : Looks (get : Parser Reader) where
  stays _ _ _ _ hok := by
    cases hok
    rfl

instance : Looks (read : Parser Context) where
  stays _ _ _ _ hok := by
    cases hok
    rfl

instance {e : SyntaxError} : Looks (throw e : Parser α) where
  stays _ _ _ _ hok := nomatch hok

instance {p : Parser Bool} : Looks (testing p) where
  stays c r a r' hok := by
    unfold testing at hok
    split at hok <;> (cases hok; rfl)

instance : Looks peek := by unfold peek; infer_instance

instance : Looks position := by unfold position; infer_instance

instance : Looks newlineBefore := by unfold newlineBefore; infer_instance

instance : Looks peekSecond := by unfold peekSecond; infer_instance

instance {text : String} : Looks (isPunct text) := by
  refine .andThen fun t => ?_
  split <;> infer_instance

instance {text : String} : Looks (isWord text) := by
  refine .andThen fun t => ?_
  split <;> infer_instance

instance : Looks atStatementEnd := by
  refine .andThen fun t => ?_
  split <;> infer_instance

instance {e : SyntaxError} : Looks (refuse e : Parser α) := by
  refine .andThen fun t => ?_
  split <;> infer_instance

instance {wanted : String} : Looks (refuseFor wanted : Parser α) := by
  unfold refuseFor
  infer_instance

/-! ## Steps that fail or note a fault -/

namespace Yields

theorem refuse {e : SyntaxError} : Yields src m (refuse e : Parser α) m' post := by
  refine .pass fun t => ?_
  split <;> exact .throw

theorem refuseFor {wanted : String} : Yields src m (refuseFor wanted : Parser α) m' post :=
  .pass fun _ => .refuse

end Yields

/-- Nothing is read from a text after a refusal. -/
instance {e : SyntaxError} : Gives src m (refuse e : Parser α) m fun _ => False := ⟨.refuse⟩

instance {wanted : String} : Gives src m (refuseFor wanted : Parser α) m fun _ => False :=
  ⟨.refuseFor⟩

/-- Nothing is read without a fault after one was noted. -/
instance {e : SyntaxError} : Gives src m (note e) m fun _ => False where
  yields c r a r' hok := by
    cases hok
    exact ⟨nofun, nofun⟩

/-- Past a fault that is not there. -/
theorem Yields.passUnless {c : Prop} [Decidable c] {p : Parser Unit} {f : Unit → Parser β}
    {post : β → Prop} [Gives src m p m fun _ => False]
    (hf : ∀ u, Yields src m (f u) m' fun b => ¬c → post b) :
    Yields src m (if c then p >>= f else f ()) m' post := by
  split
  next => exact .take fun u => (hf u).mono fun _ _ => False.elim
  next hc => exact (hf ()).mono fun _ h => h hc

/-! ## Steps that move -/

instance (priority := low) Gives.moves {p : Parser α} [Gives src m p m' P] : Moves src m p m' where
  yields := (Gives.yields (p := p)).mono fun _ _ => trivial

instance Moves.bind {p : Parser α} {f : α → Parser β} [Moves src m p m₁]
    [∀ a, Moves src m₁ (f a) m'] : Moves src m (p >>= f) m' where
  yields := .pass fun _ => Moves.yields

instance {c : Prop} [Decidable c] {p q : Parser α} [Moves src m p m'] [Moves src m q m'] :
    Moves src m (if c then p else q) m' := by
  split <;> infer_instance

instance {p : Parser α} {q : Parser β} {Q : β → Prop} [Moves src m p m₁] [Gives src m₁ q m' Q] :
    Gives src m (p *> q) m' Q where
  yields := by
    rw [seqRight_eq_bind]
    exact .pass fun _ => .last

/-- Moving on to what a scanner finds. -/
theorem Yields.modify {f : Reader → Reader} (hfaults : ∀ r, (f r).faults = r.faults)
    (hf : ∀ r, At src m r → At src m' (f r)) :
    Yields src m (modify f : Parser Unit) m' fun _ => True := by
  intro r c a r' hok
  cases hok
  exact ⟨fun h => (hfaults r).symm.trans h, fun hat _ => ⟨hf r hat, trivial⟩⟩

instance : Moves src m skip .code where
  yields := .modify (fun _ => rfl) fun _ hat => scans_scan.advance hat.rest

theorem moves_rescan {scan : List Char → Token × List Char} (h : Scans src m' scan) :
    Moves src m (rescan scan) m' where
  yields := .modify (fun _ => rfl) fun _ hat => h.ofScan hat.here _ _

instance {text : String} : Moves src .code (eatPunct text) .code := by
  unfold eatPunct
  infer_instance

instance {text : String} : Moves src .code (eatWord text) .code := by
  unfold eatWord
  infer_instance

theorem expectPunct_eq (text : String) :
    expectPunct text = isPunct text >>= fun b => if b then skip else refuseFor text := by
  have hassoc : expectPunct text = isPunct text >>= fun b =>
      (if b then skip >>= fun _ => pure true else pure false) >>= fun b =>
        if b then pure () else refuseFor text := by
    rw [expectPunct, eatPunct, bind_assoc]
  rw [hassoc]
  refine bind_congr fun b => ?_
  cases b with
  | false => exact pure_bind false _
  | true => exact (bind_assoc _ _ _).trans (bind_pure_unit)

instance {text : String} : Moves src m (expectPunct text) .code where
  yields := by
    rw [expectPunct_eq]
    refine .pass fun b => ?_
    split
    next => exact Moves.yields
    next => exact .refuseFor

instance {text : String} : Moves src .code (expectWord text) .code := by
  unfold expectWord
  infer_instance

instance {e : SyntaxError} : Moves src .code (endStatement e) .code := by
  unfold endStatement
  infer_instance

instance {start : Nat} {kind : Kind} {children : List Node} :
    Gives src m (finish start kind children) m fun n => ∃ sp, n = .mk kind sp children :=
  ⟨.finish fun sp => ⟨sp, rfl⟩⟩

instance {start : Nat} {kind : ExprKind} {children : List Node} :
    Gives src m (finishExpr start kind children) m fun n =>
      ∃ sp, n = .mk (.expr kind) sp children :=
  ⟨.finish fun sp => ⟨sp, rfl⟩⟩

/-! ## Combinators -/

theorem Yields.within {p : Parser α} (hp : Yields src m p m' post) {change : Context → Context} :
    Yields src m (within change p) m' post :=
  fun _ _ _ _ hok => hp hok

instance {p : Parser α} {change : Context → Context} [Gives src m p m' P] :
    Gives src m (within change p) m' P :=
  ⟨.within Gives.yields⟩

instance {p : Parser α} {change : Context → Context} [Moves src m p m'] :
    Moves src m (within change p) m' :=
  ⟨.within Moves.yields⟩

theorem Yields.attempt {p : Parser α} (hp : Yields src m p m P) :
    Yields src m (attempt p) m fun o => ∀ a ∈ o, P a := by
  intro r c o r' hok
  unfold Grammar.attempt at hok
  split at hok
  next a r'' hrun =>
    cases hok
    refine ⟨(hp hrun).1, fun hat hfaults => ((hp hrun).2 hat hfaults).imp_right fun ha b hb => ?_⟩
    cases hb
    exact ha
  next =>
    cases hok
    exact ⟨id, fun hat _ => ⟨hat, nofun⟩⟩

instance {p : Parser α} [Gives src m p m P] : Gives src m (attempt p) m fun o => ∀ a ∈ o, P a :=
  ⟨.attempt Gives.yields⟩

instance : Gives src m (pure .absent : Parser Node) m (ReadFrom src) := ⟨.pure readFrom_absent⟩

instance : Gives src m (pure [] : Parser (List Node)) m (AllReadFrom src) :=
  ⟨.pure allReadFrom_nil⟩

instance {text : String} {piece : Parser Node} [Gives src .code piece .code (ReadFrom src)] :
    Gives src .code (after text piece) .code (ReadFrom src) where
  yields := .pass fun _ => .ite .last .last

section Lists

variable {piece : Parser Node}

theorem Yields.manyUntil {stop : Parser Bool} (hstop : Yields src m stop m fun _ => True)
    (hpiece : Yields src m piece m (ReadFrom src)) :
    Yields src m (manyUntil stop piece) m (AllReadFrom src) := by
  refine .pass fun c => ?_
  induction c.limit with
  | zero => exact .refuse
  | succ n ih =>
    refine .bind hstop fun b => .ite (.pure fun _ => allReadFrom_nil) ?_
    exact .bind hpiece fun p => .bind ih fun ps => .pure fun hps hp _ => by simp [hp, hps]

theorem Yields.listIn (hpiece : Yields src .code piece .code (ReadFrom src)) {close : String} :
    Yields src .code (listIn close piece) .code (AllReadFrom src) := by
  refine .pass fun c => ?_
  induction c.limit with
  | zero => exact .refuse
  | succ n ih =>
    refine .pass fun b => .ite .last (.bind hpiece fun p => .pass fun b => .ite ?_ ?_)
    · exact .pure fun hp => by simp [hp]
    · exact .pass fun _ => .bind ih fun ps => .pure fun hps hp => by simp [hp, hps]

theorem Yields.separated {separator : String}
    (hpiece : Yields src .code piece .code (ReadFrom src)) :
    Yields src .code (separated separator piece) .code (AllReadFrom src) := by
  refine .pass fun c => ?_
  induction c.limit with
  | zero => exact .refuse
  | succ n ih =>
    refine .bind hpiece fun p => .pass fun b => .ite ?_ ?_
    · exact .bind ih fun ps => .pure fun hps hp => by simp [hp, hps]
    · exact .pure fun hp => by simp [hp]

instance {stop : Parser Bool} [Moves src m stop m] [Gives src m piece m (ReadFrom src)] :
    Gives src m (manyUntil stop piece) m (AllReadFrom src) :=
  ⟨.manyUntil Moves.yields Gives.yields⟩

instance {close : String} [Gives src .code piece .code (ReadFrom src)] :
    Gives src .code (listIn close piece) .code (AllReadFrom src) :=
  ⟨.listIn Gives.yields⟩

instance {separator : String} [Gives src .code piece .code (ReadFrom src)] :
    Gives src .code (separated separator piece) .code (AllReadFrom src) :=
  ⟨.separated Gives.yields⟩

end Lists

/-- A node that is extended as long as there is a way to. -/
theorem Yields.extend {step : Node → Parser (Option Node)}
    (hstep : ∀ n, Yields src m (step n) m fun o =>
      ReadFrom src n → ∀ longer ∈ o, ReadFrom src longer) (n : Node) :
    Yields src m (extend step n) m fun longer => ReadFrom src n → ReadFrom src longer := by
  refine .pass fun c => ?_
  induction c.limit generalizing n with
  | zero => exact .refuse
  | succ k ih =>
    refine .bind (hstep n) fun o => ?_
    split
    next longer => exact (ih longer).mono fun m hm ho hn => hm (ho hn longer rfl)
    next => exact .pure fun _ hn => hn

/-! ## Words and strings -/

instance : Gives src m peek m (Fits src m) where
  yields c r a r' hok := by
    cases hok
    exact ⟨id, fun hat _ => ⟨hat, hat.token⟩⟩

instance : Gives src .code anyWord .code (ReadFrom src) where
  yields := by
    refine .pass fun t => ?_
    split
    next => exact .pass fun start => .pass fun _ => .finish fun sp => by simp
    next => exact .refuse

/-- A word that may be used as an identifier. -/
def IsUsable (text : String) : Prop :=
  isNameText text.toList = true ∧ isReserved text = false ∧ text ∉ strictWords

instance : Gives src .code identifierText .code IsUsable where
  yields := by
    refine .take fun t => ?_
    split
    next text escaped =>
      refine .passUnless fun _ => .passUnless fun _ => .pass fun _ => .pure ?_
      intro hstrict hreserved hname
      exact ⟨hname rfl, by simpa using hreserved, by simpa using hstrict⟩
    next => exact .refuse

instance : Gives src .code identifier .code (ReadFrom src) where
  yields := .pass fun start => .pass fun text => .finish fun sp => by simp

/-- An identifier that may be bound. -/
def IsBound (n : Node) : Prop := ∃ name sp, n = .mk (.ident name) sp [] ∧ isBindable name = true

instance : Gives src .code boundIdentifier .code IsBound where
  yields := by
    refine .pass fun start => .take fun text => .passUnless fun _ => .finish fun sp => ?_
    intro hbinds ⟨hname, hreserved, hstrict⟩
    refine ⟨text, sp, rfl, ?_⟩
    rw [Bool.or_eq_true, not_or, beq_iff_eq, beq_iff_eq] at hbinds
    simp [isBindable, hname, hreserved, hstrict, hbinds]

theorem IsBound.readFrom {n : Node} (h : IsBound n) : ReadFrom src n := by
  obtain ⟨name, sp, rfl, _⟩ := h
  simp

/-- Such an identifier, of which only its strings matter. -/
theorem yields_boundIdentifier : Yields src .code boundIdentifier .code (ReadFrom src) :=
  Yields.last.mono fun _ => IsBound.readFrom

instance : Gives src .code stringLiteral .code (ReadFrom src) where
  yields := by
    refine .take fun t => ?_
    split
    next value raw octal =>
      refine .pass fun start => .passUnless fun _ => .pass fun _ => .finish fun sp => ?_
      exact fun _ hquoted => (readFrom_iff rfl).mpr ⟨⟨raw, rfl, hquoted⟩, allReadFrom_nil⟩
    next => exact .refuseFor

/-! ## Productions -/

/-- Every production gives trees that were read from the text. An element ends inside a tag. -/
class Sound (src : List Char) (g : Productions) : Prop where
  expression : Yields src .code g.expression .code (ReadFrom src)
  assignment : Yields src .code g.assignment .code (ReadFrom src)
  unary : Yields src .code g.unary .code (ReadFrom src)
  statement : Yields src .code g.statement .code (ReadFrom src)
  item : Yields src .code g.item .code (ReadFrom src)
  pattern : Yields src .code g.pattern .code (ReadFrom src)
  type : Yields src .code g.type .code (ReadFrom src)
  element : Yields src .tag g.element .tag (ReadFrom src)

section Productions

variable {g : Productions} [Sound src g]

instance : Gives src .code g.expression .code (ReadFrom src) := ⟨Sound.expression⟩

instance : Gives src .code g.assignment .code (ReadFrom src) := ⟨Sound.assignment⟩

instance : Gives src .code g.unary .code (ReadFrom src) := ⟨Sound.unary⟩

instance : Gives src .code g.statement .code (ReadFrom src) := ⟨Sound.statement⟩

instance : Gives src .code g.item .code (ReadFrom src) := ⟨Sound.item⟩

instance : Gives src .code g.pattern .code (ReadFrom src) := ⟨Sound.pattern⟩

instance : Gives src .code g.type .code (ReadFrom src) := ⟨Sound.type⟩

instance : Gives src m g.element .tag (ReadFrom src) := ⟨.anywhere Sound.element⟩

end Productions

end ServerBoundary.Grammar
