import ServerBoundary.Grammar.Pattern
import ServerBoundary.Proofs.Grammar.Type

/-!
# Patterns that were read

A pattern that an expression was meant as has the strings of the expression. A name that stands
alone where a pattern is declared may be bound.
-/

namespace ServerBoundary.Grammar

open Syntax Source

variable {src : List Char} {g : Productions} [Sound src g]

/-! ## Expressions meant as patterns -/

/-- Patterns that are made one by one, each with its place in the list, were read if the expressions
were. -/
theorem allReadFrom_of_patterns (patterns? : List Node → Option (List Node)) {place : Node → Node}
    (hnil : patterns? [] = some [])
    (hcons : ∀ e es, patterns? (e :: es) =
      (patternOf? e).bind fun p => (patterns? es).map (place p :: ·))
    (hplace : ∀ p, ReadFrom src p → ReadFrom src (place p)) {es : List Node}
    (h : ∀ e ∈ es, ∀ p, patternOf? e = some p → ReadFrom src e → ReadFrom src p) {ps : List Node}
    (hps : patterns? es = some ps) (hes : AllReadFrom src es) : AllReadFrom src ps := by
  induction es generalizing ps with
  | nil =>
    rw [hnil] at hps
    cases hps
    exact allReadFrom_nil
  | cons e es ih =>
    rw [hcons] at hps
    obtain ⟨p, hp, hrest⟩ := Option.bind_eq_some_iff.mp hps
    obtain ⟨ps', hps', rfl⟩ := Option.map_eq_some_iff.mp hrest
    obtain ⟨he, hes⟩ := allReadFrom_cons.mp hes
    rw [List.forall_mem_cons] at h
    exact allReadFrom_cons.mpr ⟨hplace p (h.1 p hp he), ih h.2 hps' hes⟩

theorem allReadFrom_patternsOf {es : List Node}
    (h : ∀ e ∈ es, ∀ p, patternOf? e = some p → ReadFrom src e → ReadFrom src p) {ps : List Node}
    (hps : patternsOf? es = some ps) (hes : AllReadFrom src es) : AllReadFrom src ps :=
  allReadFrom_of_patterns patternsOf? rfl (fun _ _ => rfl) (fun _ => id) h hps hes

theorem allReadFrom_propertyPatternsOf {es : List Node}
    (h : ∀ e ∈ es, ∀ p, patternOf? e = some p → ReadFrom src e → ReadFrom src p) {ps : List Node}
    (hps : propertyPatternsOf? es = some ps) (hes : AllReadFrom src es) : AllReadFrom src ps := by
  refine allReadFrom_of_patterns propertyPatternsOf? rfl (fun _ _ => rfl) (fun p hp => ?_) h hps hes
  -- A name that stands alone is in the place of its key.
  split
  next => simpa using hp
  next => exact hp

/-- A pattern that an expression was meant as has the strings of the expression. -/
theorem readFrom_patternOf : ∀ e p : Node, patternOf? e = some p → ReadFrom src e →
    ReadFrom src p := by
  refine Node.of_parts fun k sp cs ih p hp he => ?_
  have hpart : ∀ e ∈ cs, ∀ q, patternOf? e = some q → AllReadFrom src cs → ReadFrom src q :=
    fun e hmem q hq hcs => ih e hmem q hq (hcs e hmem)
  have hself : ∀ {q : Node}, .mk k sp cs = q → some q = some p → ReadFrom src p :=
    fun hsame hq => Option.some.inj hq ▸ hsame ▸ he
  unfold patternOf? at hp
  split at hp
  next =>
    cases hp
    simp
  next heq => exact hself heq hp
  next es heq =>
    cases heq
    obtain ⟨ps, hps, rfl⟩ := Option.map_eq_some_iff.mp hp
    simpa using allReadFrom_patternsOf ih hps (by simpa using he)
  next es heq =>
    cases heq
    obtain ⟨ps, hps, rfl⟩ := Option.map_eq_some_iff.mp hp
    simpa using allReadFrom_propertyPatternsOf ih hps (by simpa using he)
  next e heq =>
    cases heq
    obtain ⟨q, hq, rfl⟩ := Option.map_eq_some_iff.mp hp
    simpa using hpart e (by simp) q hq (by simpa using he)
  next target value heq =>
    cases heq
    split at hp
    next =>
      obtain ⟨q, hq, rfl⟩ := Option.map_eq_some_iff.mp hp
      have htarget := hpart target (by simp) q hq (by simpa using he)
      simp_all
    next => cases hp
  next key value heq =>
    cases heq
    obtain ⟨q, hq, rfl⟩ := Option.map_eq_some_iff.mp hp
    have hvalue := hpart value (by simp) q hq (by simpa using he)
    simp_all
  next name value heq =>
    cases heq
    obtain ⟨q, hq, rfl⟩ := Option.map_eq_some_iff.mp hp
    have hname := hpart name (by simp) q hq (by simpa using he)
    simp_all
  -- Everything else that can be assigned to is its own pattern.
  next heq => exact hself heq hp
  next heq => exact hself heq hp
  next heq => exact hself heq hp
  next heq => exact hself heq hp
  next heq => exact hself heq hp
  next heq => exact hself heq hp
  next heq => exact hself heq hp
  next heq => exact hself heq hp
  next => cases hp

/-! ## Binding patterns -/

/-- A pattern keeps its name, if it is one, when it gets its type. -/
theorem isDeclarable_withType {p : Node} (h : IsDeclarable p) (optional : Bool) (t : Node)
    (stop : Nat) : IsDeclarable (withType p optional t stop) := by
  unfold withType
  split <;> simp_all

theorem readFrom_withType {p t : Node} (hp : ReadFrom src p) (ht : ReadFrom src t)
    (optional : Bool) (stop : Nat) : ReadFrom src (withType p optional t stop) := by
  unfold withType
  split <;> simp_all

/-- A pattern that was read and may be declared. -/
def IsPattern (src : List Char) (p : Node) : Prop := ReadFrom src p ∧ IsDeclarable p

instance : Gives src .code bindingName .code (IsPattern src) where
  yields := by
    refine .pass fun start => .pass fun c => .pass fun b => .ite ?_ (.take fun name => ?_)
    · exact .pass fun _ => .finish fun sp => ⟨by simp, .inr rfl⟩
    · split
      next =>
        refine .pure ?_
        rintro ⟨name, sp, heq, hname⟩
        cases heq
        exact ⟨by simp, .inl hname⟩
      next hother =>
        refine .pure ?_
        rintro ⟨name, sp, rfl, -⟩
        exact absurd rfl (hother _ _ _)

instance {pattern : Parser Node} [Gives src .code pattern .code (ReadFrom src)] :
    Gives src .code (withDefault g pattern) .code (ReadFrom src) where
  yields := .pass fun start => .take fun p => .pass fun b =>
    .ite (.take fun value => .finish fun sp hvalue hp => by simp [hvalue, hp]) (.pure id)

instance : Gives src .code (restPattern g) .code (ReadFrom src) where
  yields := by
    refine .pass fun start => .pass fun _ => .take fun p => ?_
    split <;> exact .finish fun sp hp => by simp_all

instance : Gives src .code (arrayElement g) .code (ReadFrom src) where
  yields := .pass fun _ => .ite .last (.pass fun _ => .ite .last .last)

instance : Gives src .code (objectElement g) .code (ReadFrom src) where
  yields := by
    refine .pass fun start => .pass fun b => .ite .last ?_
    refine .pass fun second => .pass fun t => .ite ?_ ?_
    · exact .take fun name => .take fun value => .finish fun sp hvalue hname => by
        simp [hvalue, hname.1]
    · exact .take fun key => .pass fun _ => .take fun p => .finish fun sp hp hkey => by
        simp [hp, hkey]

instance : Gives src .code (patternCore g) .code (IsPattern src) where
  yields := by
    refine .pass fun start => .pass fun b => .ite ?_ (.pass fun b => .ite ?_ .last)
    · exact .take fun es => .finish fun sp hes => ⟨by simp [hes], trivial⟩
    · exact .take fun ps => .finish fun sp hps => ⟨by simp [hps], trivial⟩

instance : Gives src .code (patternProduction g) .code (ReadFrom src) where
  yields := by
    refine .take fun p => .pass fun c => .ite ?_ (.pure And.left)
    exact .pass fun optional => .take fun t => .pass fun r => .pure fun ht hp =>
      readFrom_withType hp.1 ht optional r.lastStop

end ServerBoundary.Grammar
