import ServerBoundary.Proofs.Syntax.Path

/-!
# Conditions on every node of a tree

`every` asks the same of every node of a tree. It is a function of the tree, so that a concrete tree
can be tested.
-/

namespace ServerBoundary.Syntax.Node

mutual
/-- Whether every node of a tree satisfies a condition. Types are nodes like any others. -/
def every (ok : Node → Bool) : Node → Bool
  | .mk k sp cs => ok (.mk k sp cs) && everyIn ok cs
/-- The same for a list of trees. -/
def everyIn (ok : Node → Bool) : List Node → Bool
  | [] => true
  | c :: cs => every ok c && everyIn ok cs
end

variable {ok ok' : Node → Bool}

theorem everyIn_iff {cs : List Node} : everyIn ok cs = true ↔ ∀ c ∈ cs, c.every ok = true := by
  induction cs with
  | nil => simp [everyIn]
  | cons c cs ih => simp [everyIn, ih]

theorem every_iff {n : Node} :
    n.every ok = true ↔ ok n = true ∧ ∀ c ∈ n.children, c.every ok = true := by
  cases n with
  | mk k sp cs =>
    rw [every, Bool.and_eq_true, everyIn_iff]
    rfl

/-- A weaker condition holds as well. -/
theorem every_mono (h : ∀ n, ok n = true → ok' n = true) :
    ∀ n : Node, n.every ok = true → n.every ok' = true :=
  of_parts fun k sp cs ih hn => by
    rw [every_iff] at hn ⊢
    exact ⟨h _ hn.1, fun c hc => ih c hc (hn.2 c hc)⟩

/-- A part has the condition that every node of the tree has, also if it is not written. -/
theorem every_part {n : Node} (h : n.every ok = true) (hab : ok .absent = true) (i : Nat) :
    (n.part i).every ok = true := by
  rw [part, List.getD_eq_getElem?_getD]
  cases hc : n.children[i]? with
  | none => exact every_iff.mpr ⟨hab, fun c hc => absurd hc List.not_mem_nil⟩
  | some c => exact (every_iff.mp h).2 c (List.mem_of_getElem? hc)

end ServerBoundary.Syntax.Node
