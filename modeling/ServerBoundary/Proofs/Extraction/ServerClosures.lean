import ServerBoundary.Proofs.Extraction.Census

/-!
# The server closures of a tree

`closurePlaces` lists where the server closures of a tree stand, and `serverClosures` are the nodes
that stand there. As a list of nodes they can be compared between two trees in which the same
closures stand in different places.

> `serverClosures_of_not_isType`: the server closures of a node are those of its parts, and the node
> itself if it is one.
-/

namespace ServerBoundary.Boundary

open Syntax

/-- The server closures of a tree, in the order of their places. -/
def serverClosures (n : Node) : List Node := (closurePlaces n).filterMap n.at?

/-- The server closures of a list of trees. -/
def serverClosuresIn (ns : List Node) : List Node := ns.flatMap serverClosures

@[simp] theorem serverClosuresIn_nil : serverClosuresIn [] = [] := rfl

@[simp] theorem serverClosuresIn_cons (n : Node) (ns : List Node) :
    serverClosuresIn (n :: ns) = serverClosures n ++ serverClosuresIn ns := rfl

theorem serverClosuresIn_append (ns ms : List Node) :
    serverClosuresIn (ns ++ ms) = serverClosuresIn ns ++ serverClosuresIn ms :=
  List.flatMap_append

/-- What stands at the places in a list of trees is what stands at the places in each of them. -/
theorem filterMap_closurePlacesFrom {f : List Nat → Option Node} (i : Nat) (ns : List Node)
    (h : ∀ j n, ns[j]? = some n → ∀ p, f ((i + j) :: p) = n.at? p) :
    (closurePlacesFrom i ns).filterMap f = serverClosuresIn ns := by
  induction ns generalizing i with
  | nil => rfl
  | cons n ns ih =>
    have hhead : f ∘ (i :: ·) = n.at? := funext fun p => h 0 n rfl p
    rw [closurePlacesFrom_cons, List.filterMap_append, List.filterMap_map, hhead, ih]
    · rfl
    · intro j m hm p
      rw [Nat.add_assoc, Nat.add_comm 1]
      exact h (j + 1) m hm p

theorem serverClosures_of_not_isType {n : Node} (h : n.kind.isType = false) :
    serverClosures n =
      serverClosuresIn n.children ++ if isServerClosure n then [n] else [] := by
  have hparts := filterMap_closurePlacesFrom (f := n.at?) 0 n.children fun j c hc p => by
    rw [Nat.zero_add, Node.at?_cons hc]
  rw [serverClosures, closurePlaces_of_not_isType h, List.filterMap_append, hparts]
  cases isServerClosure n <;> rfl

/-- A node that is no closure has the server closures of its parts. -/
theorem serverClosures_of_not_closure {n : Node} (ht : n.kind.isType = false)
    (h : isServerClosure n = false) : serverClosures n = serverClosuresIn n.children := by
  rw [serverClosures_of_not_isType ht, h]
  exact List.append_nil _

end ServerBoundary.Boundary
