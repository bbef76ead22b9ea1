import ServerBoundary.Boundary.ServerReference
import ServerBoundary.Source.NameCharacters
import ServerBoundary.Text.Part

/-!
# Ids of references

The id of a reference is the id of a module and the name of an export, with `#` between them. The id
of a module may have that character in it, but an identifier has not, so that the parts can be told
apart:

> `referenceId_inj`: two references to identifiers have one id only if the modules have one id and
> the names are the same.
-/

namespace ServerBoundary.Boundary

open Source

/-! ## Identifiers -/

/-- Whether a text is the name of an identifier. -/
def isIdentifierName (name : String) : Bool :=
  match name.toList with
  | [] => false
  | c :: cs => isNameStart c && cs.all isNamePart

theorem isNamePart_of_isNameStart {c : Char} (h : isNameStart c = true) : isNamePart c = true := by
  unfold isNameStart at h
  unfold isNamePart
  split at h
  next hascii =>
    rw [if_pos hascii, Char.isAlphanum]
    simp only [Bool.or_eq_true] at h ⊢
    exact h.imp_left (Or.imp_left .inl)
  next hascii =>
    rw [if_neg hascii, h]
    simp only [Bool.or_true, Bool.true_or]

/-- An identifier consists of characters of names, and there is a last one. -/
theorem exists_of_isIdentifierName {name : String} (h : isIdentifierName name = true) :
    (∀ c ∈ name.toList, isNamePart c = true) ∧ ∃ c, name.toList.getLast? = some c := by
  unfold isIdentifierName at h
  cases hname : name.toList with
  | nil =>
    rw [hname] at h
    exact absurd h (by simp)
  | cons c cs =>
    rw [hname, Bool.and_eq_true, List.all_eq_true] at h
    exact ⟨List.forall_mem_cons.mpr ⟨isNamePart_of_isNameStart h.1, h.2⟩, _, List.getLast?_cons⟩

/-- A character that stands in no name stands in no identifier. -/
theorem not_mem_of_isIdentifierName {name : String} (h : isIdentifierName name = true) {c : Char}
    (hc : isNamePart c = false) : c ∉ name.toList := by
  intro hmem
  rw [(exists_of_isIdentifierName h).1 c hmem] at hc
  exact absurd hc (by simp)

/-! ## Ids -/

theorem toList_referenceId (id name : String) :
    (referenceId id name).toList = id.toList ++ '#' :: name.toList := by
  rw [referenceId, String.toList_append, String.toList_append, List.append_assoc]
  rfl

/-- **The parts of a reference's id can be told apart** if the names are identifiers. -/
theorem referenceId_inj {id id' name name' : String} (hname : isIdentifierName name = true)
    (hname' : isIdentifierName name' = true) (h : referenceId id name = referenceId id' name') :
    id = id' ∧ name = name' := by
  have hsplit : ∀ {i n : String}, isIdentifierName n = true →
      Text.splitLast? '#' (referenceId i n).toList = some (i.toList, n.toList) := fun {i n} hn =>
    Text.splitLast?_eq_some_iff.mpr
      ⟨toList_referenceId i n, not_mem_of_isIdentifierName hn (by decide)⟩
  have hparts := (hsplit hname).symm.trans ((congrArg _ (congrArg _ h)).trans (hsplit hname'))
  rw [Option.some.injEq, Prod.mk.injEq, String.toList_inj, String.toList_inj] at hparts
  exact hparts

/-- A reference to an identifier ends as the identifier does. -/
theorem getLast?_referenceId (id : String) {name : String} (h : isIdentifierName name = true) :
    (referenceId id name).toList.getLast? = name.toList.getLast? := by
  obtain ⟨-, c, hc⟩ := exists_of_isIdentifierName h
  rw [toList_referenceId, List.getLast?_append, List.getLast?_cons, hc]
  rfl

end ServerBoundary.Boundary
