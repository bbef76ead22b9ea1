import ServerBoundary.Client.RscPath

/-!
# Marks at the ends of a path

On the wire a path is marked where it starts and ends with a slash, and if it is empty. Marking one
end and taking the mark off again undo each other, on texts that can be told by that end:

> `startMarked_eq_iff`: this law for the start of a text. `endMarked_eq_iff` is the same law for the
> reversed text.

> `mark_eq_iff`: the law for a whole path.

The two ends of a path that is not empty do not get in each other's way, although they may share
their slash (`mark_cons`, `isEndMarked_startMarked`).
-/

namespace ServerBoundary.Client.RscPath

/-! ## One end -/

/-- A text with the mark in front if it starts with a slash. -/
def startMarked (text : List Char) : List Char :=
  if text.head? == some '/' then '_' :: text else text

/-- A text with the mark behind it if it ends with a slash. -/
def endMarked (text : List Char) : List Char :=
  if text.getLast? == some '/' then text ++ ['_'] else text

/-- A text whose start may have been marked: it starts with no slash, and with the mark only in
front of one. -/
def IsStartMarked (text : List Char) : Prop :=
  text.head? ≠ some '/' ∧ (text.head? = some '_' → ['_', '/'] <+: text)

/-- A text whose end may have been marked: it ends with no slash, and with the mark only behind
one. -/
def IsEndMarked (text : List Char) : Prop :=
  text.getLast? ≠ some '/' ∧ (text.getLast? = some '_' → ['/', '_'] <:+ text)

/-- **Marking the start and taking the mark off undo each other**, on the texts that do not start
with the mark and on those whose start is marked. -/
theorem startMarked_eq_iff {text marked : List Char} :
    text.head? ≠ some '_' ∧ startMarked text = marked ↔
      IsStartMarked marked ∧ (Text.dropStart? ['_'] marked).getD marked = text := by
  constructor
  · rintro ⟨hhead, rfl⟩
    unfold startMarked
    split
    next hslash =>
      obtain ⟨rest, rfl⟩ := List.head?_eq_some_iff.mp (beq_iff_eq.mp hslash)
      exact ⟨⟨by simp, fun _ => ⟨rest, rfl⟩⟩, Text.getD_dropStart?_cons '_' ('/' :: rest)⟩
    next hslash =>
      exact ⟨⟨fun h => hslash (beq_iff_eq.mpr h), fun h => absurd h hhead⟩,
        Text.getD_dropStart?_of_ne hhead⟩
  · rintro ⟨⟨hslash, hmark⟩, rfl⟩
    by_cases hhead : marked.head? = some '_'
    · obtain ⟨rest, rfl⟩ := hmark hhead
      have hdrop : (Text.dropStart? ['_'] (['_', '/'] ++ rest)).getD (['_', '/'] ++ rest) =
          '/' :: rest := Text.getD_dropStart?_cons '_' ('/' :: rest)
      rw [hdrop]
      exact ⟨by simp, rfl⟩
    · rw [Text.getD_dropStart?_of_ne hhead]
      exact ⟨hhead, if_neg (by simpa using hslash)⟩

theorem endMarked_eq_reverse (text : List Char) :
    endMarked text = (startMarked text.reverse).reverse := by
  rw [endMarked, startMarked, List.head?_reverse]
  split
  next => rw [List.reverse_cons, List.reverse_reverse]
  next => rw [List.reverse_reverse]

theorem isEndMarked_iff_reverse {text : List Char} :
    IsEndMarked text ↔ IsStartMarked text.reverse := by
  rw [IsEndMarked, IsStartMarked, List.head?_reverse, ← List.reverse_suffix, List.reverse_reverse]
  rfl

/-- Marking the end and taking the mark off undo each other. -/
theorem endMarked_eq_iff {text marked : List Char} :
    text.getLast? ≠ some '_' ∧ endMarked text = marked ↔
      IsEndMarked marked ∧ (Text.dropEnd? ['_'] marked).getD marked = text := by
  rw [endMarked_eq_reverse, List.reverse_eq_iff, ← List.head?_reverse, startMarked_eq_iff,
    isEndMarked_iff_reverse, Text.getD_dropEnd?_eq_reverse, List.reverse_eq_iff]

/-- What marking the start puts before a text does not change how it ends. -/
theorem isEndMarked_startMarked (text : List Char) :
    IsEndMarked (startMarked text) ↔ IsEndMarked text := by
  unfold startMarked
  split
  next hslash =>
    obtain ⟨rest, rfl⟩ := List.head?_eq_some_iff.mp (beq_iff_eq.mp hslash)
    have hsuffix : ['/', '_'] <:+ '_' :: '/' :: rest ↔ ['/', '_'] <:+ '/' :: rest := by
      rw [List.suffix_cons_iff, or_iff_right (by simp)]
    rw [IsEndMarked, IsEndMarked, List.getLast?_cons_cons, hsuffix]
  next => rfl

/-- Apart from the mark, a text with its start marked has the characters of the text. -/
theorem mem_startMarked {text : List Char} {c : Char} (hc : c ≠ '_') :
    c ∈ startMarked text ↔ c ∈ text := by
  unfold startMarked
  split
  next => rw [List.mem_cons, or_iff_right hc]
  next => rfl

theorem mem_endMarked {text : List Char} {c : Char} (hc : c ≠ '_') :
    c ∈ endMarked text ↔ c ∈ text := by
  rw [endMarked_eq_reverse, List.mem_reverse, mem_startMarked hc, List.mem_reverse]

/-! ## Both ends -/

/-- A path that is not empty is marked at both ends apart. -/
theorem mark_cons (c : Char) (cs : List Char) :
    mark (c :: cs) = startMarked (endMarked (c :: cs)) := by
  have hlast : (startMarked (c :: cs)).getLast? = (c :: cs).getLast? := by
    unfold startMarked
    split
    next => rw [List.getLast?_cons_cons]
    next => rfl
  have hend : mark (c :: cs) = if (startMarked (c :: cs)).getLast? == some '/' then
      startMarked (c :: cs) ++ ['_'] else startMarked (c :: cs) := rfl
  rw [hend, hlast, endMarked]
  split
  next =>
    unfold startMarked
    rw [List.cons_append, List.head?_cons, List.head?_cons]
    split <;> rfl
  next => rfl

theorem mem_mark {path : List Char} {c : Char} (hc : c ≠ '_') : c ∈ mark path ↔ c ∈ path := by
  cases path with
  | nil =>
    show c ∈ ['_'] ↔ c ∈ []
    simp [hc]
  | cons d ds => rw [mark_cons, mem_startMarked hc, mem_endMarked hc]

/-- A path that has an encoding: it neither starts nor ends with the mark. -/
def IsPlain (path : List Char) : Prop := path.head? ≠ some '_' ∧ path.getLast? ≠ some '_'

/-- A text that is a path with its marks: a lone mark stands for the empty path, and in any other
text both ends are marked. -/
def IsMarked (marked : List Char) : Prop :=
  marked = ['_'] ∨ (marked ≠ [] ∧ IsStartMarked marked ∧ IsEndMarked marked)

theorem head?_endMarked {text : List Char} (h : text ≠ []) :
    (endMarked text).head? = text.head? := by
  cases text with
  | nil => exact absurd rfl h
  | cons c cs =>
    unfold endMarked
    split <;> rfl

theorem startMarked_ne_nil {text : List Char} (h : text ≠ []) : startMarked text ≠ [] := by
  unfold startMarked
  split
  next => exact List.cons_ne_nil _ _
  next => exact h

theorem endMarked_ne_nil {text : List Char} (h : text ≠ []) : endMarked text ≠ [] := by
  rw [endMarked_eq_reverse, ne_eq, List.reverse_eq_nil_iff]
  exact startMarked_ne_nil (by simpa using h)

/-- **Marking a path and taking its marks off undo each other.** -/
theorem mark_eq_iff {path marked : List Char} :
    IsPlain path ∧ mark path = marked ↔ IsMarked marked ∧ unmark marked = path := by
  constructor
  · rintro ⟨⟨hstart, hend⟩, rfl⟩
    cases path with
    | nil => exact ⟨.inl rfl, rfl⟩
    | cons c cs =>
      have hne : endMarked (c :: cs) ≠ [] := endMarked_ne_nil (List.cons_ne_nil c cs)
      rw [← head?_endMarked (List.cons_ne_nil c cs)] at hstart
      obtain ⟨hopen, hopened⟩ := startMarked_eq_iff.mp ⟨hstart, rfl⟩
      obtain ⟨hclose, hclosed⟩ := endMarked_eq_iff.mp ⟨hend, rfl⟩
      rw [mark_cons, unmark, hopened]
      exact ⟨.inr ⟨startMarked_ne_nil hne, hopen, (isEndMarked_startMarked _).mpr hclose⟩, hclosed⟩
  · rintro ⟨rfl | ⟨hne, hstart, hend⟩, hunmark⟩
    · have hempty : path = [] := hunmark.symm.trans (by decide)
      rw [hempty]
      exact ⟨by simp [IsPlain], rfl⟩
    · -- The mark at the start is taken off first, and then the one at the end.
      obtain ⟨hhead, hopened⟩ := startMarked_eq_iff.mpr ⟨hstart, rfl⟩
      rw [← hopened, isEndMarked_startMarked] at hend
      obtain ⟨hlast, hclosed⟩ := endMarked_eq_iff.mpr ⟨hend, hunmark⟩
      cases path with
      | nil => exact absurd (by rw [← hopened, ← hclosed]; rfl) hne
      | cons c cs =>
        rw [← hclosed, head?_endMarked (List.cons_ne_nil c cs)] at hhead
        exact ⟨⟨hhead, hlast⟩, by rw [mark_cons, hclosed, hopened]⟩

/-- Marks are taken off again from a path that has none of its own. -/
theorem unmark_mark {path : List Char} (h : IsPlain path) : unmark (mark path) = path :=
  (mark_eq_iff.mp ⟨h, rfl⟩).2

end ServerBoundary.Client.RscPath
