/-!
# Parts of texts

Finding, dropping and splitting off parts of texts, given as lists of characters.
-/

namespace ServerBoundary.Text

/-- Drops the first text from the start of the second, if it stands there. -/
def dropStart? : List Char → List Char → Option (List Char)
  | [], cs => some cs
  | _ :: _, [] => none
  | p :: ps, c :: cs => if p == c then dropStart? ps cs else none

/-- Drops the first text from the end of the second, if it stands there. -/
def dropEnd? (part text : List Char) : Option (List Char) :=
  (dropStart? part.reverse text.reverse).map List.reverse

theorem dropStart?_eq_some_iff {part text rest : List Char} :
    dropStart? part text = some rest ↔ text = part ++ rest := by
  induction part generalizing text with
  | nil => simp [dropStart?]
  | cons p ps ih =>
    cases text with
    | nil => simp [dropStart?]
    | cons c cs =>
      rw [dropStart?, List.cons_append, List.cons.injEq]
      split
      next h => rw [ih, and_iff_right (beq_iff_eq.mp h).symm]
      next h => simp [show ¬c = p from fun heq => h (by simp [heq])]

theorem dropEnd?_eq_some_iff {part text rest : List Char} :
    dropEnd? part text = some rest ↔ text = rest ++ part := by
  rw [dropEnd?, Option.map_eq_some_iff]
  constructor
  · rintro ⟨r, hr, rfl⟩
    rw [dropStart?_eq_some_iff] at hr
    rw [← List.reverse_reverse text, hr, List.reverse_append, List.reverse_reverse]
  · rintro rfl
    exact ⟨rest.reverse, dropStart?_eq_some_iff.mpr List.reverse_append, List.reverse_reverse rest⟩

/-- A character is dropped from the start of a text that starts with it. -/
theorem getD_dropStart?_cons (c : Char) (text : List Char) :
    (dropStart? [c] (c :: text)).getD (c :: text) = text := by
  rw [show dropStart? [c] (c :: text) = some text from dropStart?_eq_some_iff.mpr rfl]
  rfl

theorem getD_dropStart?_of_ne {c : Char} {text : List Char} (h : text.head? ≠ some c) :
    (dropStart? [c] text).getD text = text := by
  cases hdrop : dropStart? [c] text with
  | none => rfl
  | some rest =>
    rw [dropStart?_eq_some_iff] at hdrop
    exact absurd (by rw [hdrop]; rfl) h

/-- Dropping a character from the end is dropping it from the start of the reversed text. -/
theorem getD_dropEnd?_eq_reverse (c : Char) (text : List Char) :
    (dropEnd? [c] text).getD text =
      ((dropStart? [c] text.reverse).getD text.reverse).reverse := by
  rw [dropEnd?, List.reverse_singleton]
  cases dropStart? [c] text.reverse with
  | none => exact (List.reverse_reverse text).symm
  | some rest => rfl

theorem isSome_dropStart? {part text : List Char} :
    (dropStart? part text).isSome = true ↔ part <+: text := by
  rw [Option.isSome_iff_exists]
  exact exists_congr fun rest => dropStart?_eq_some_iff.trans eq_comm

/-- Whether the second text contains the first one. -/
def contains (part : List Char) : List Char → Bool
  | [] => part.isEmpty
  | c :: cs => (dropStart? part (c :: cs)).isSome || contains part cs

theorem contains_iff {part text : List Char} : contains part text = true ↔ part <:+: text := by
  induction text with
  | nil => rw [contains, List.isEmpty_iff, List.infix_nil]
  | cons c cs ih =>
    rw [contains, Bool.or_eq_true, isSome_dropStart?, ih, List.infix_cons_iff]

/-- The parts of a text before and after the first place of a character. -/
def splitFirst? (mark : Char) : List Char → Option (List Char × List Char)
  | [] => none
  | c :: cs =>
    if c == mark then some ([], cs)
    else (splitFirst? mark cs).map fun (before, after) => (c :: before, after)

/-- The parts of a text before and after the last place of a character. -/
def splitLast? (mark : Char) (text : List Char) : Option (List Char × List Char) :=
  (splitFirst? mark text.reverse).map fun (after, before) => (before.reverse, after.reverse)

theorem splitFirst?_eq_some_iff {mark : Char} {text before after : List Char} :
    splitFirst? mark text = some (before, after) ↔
      text = before ++ mark :: after ∧ mark ∉ before := by
  induction text generalizing before with
  | nil => simp [splitFirst?]
  | cons c cs ih =>
    rw [splitFirst?]
    by_cases hc : c = mark
    · cases before with
      | nil => simp [hc]
      | cons b bs =>
        rw [if_pos (beq_iff_eq.mpr hc)]
        constructor
        · exact fun h => absurd (congrArg Prod.fst (Option.some.inj h)) (by simp)
        · rintro ⟨h, hmark⟩
          exact absurd (List.mem_cons.mpr (.inl (hc.symm.trans (List.cons.inj h).1))) hmark
    · rw [if_neg (by simpa using hc), Option.map_eq_some_iff]
      constructor
      · rintro ⟨⟨b, a⟩, hsplit, heq⟩
        cases heq
        obtain ⟨rfl, hmark⟩ := ih.mp hsplit
        exact ⟨rfl, fun h => (List.mem_cons.mp h).elim (fun h => hc h.symm) hmark⟩
      · rintro ⟨h, hmark⟩
        cases before with
        | nil => exact absurd (List.cons.inj h).1 hc
        | cons b bs =>
          obtain ⟨rfl, rfl⟩ := List.cons.inj h
          exact ⟨(bs, after), ih.mpr ⟨rfl, fun h => hmark (List.mem_cons_of_mem _ h)⟩, rfl⟩

theorem splitLast?_eq_some_iff {mark : Char} {text before after : List Char} :
    splitLast? mark text = some (before, after) ↔
      text = before ++ mark :: after ∧ mark ∉ after := by
  rw [splitLast?, Option.map_eq_some_iff]
  constructor
  · rintro ⟨⟨a, b⟩, hsplit, heq⟩
    cases heq
    obtain ⟨htext, hmark⟩ := splitFirst?_eq_some_iff.mp hsplit
    refine ⟨?_, fun h => hmark (List.mem_reverse.mp h)⟩
    rw [← List.reverse_reverse text, htext]
    simp
  · rintro ⟨rfl, hmark⟩
    refine ⟨(after.reverse, before.reverse), splitFirst?_eq_some_iff.mpr ⟨by simp, ?_⟩, by simp⟩
    exact fun h => hmark (List.mem_reverse.mp h)

/-- The parts of a text between the places of a character; there is always at least one. -/
def splitAll (mark : Char) : List Char → List (List Char)
  | [] => [[]]
  | c :: cs =>
    if c == mark then [] :: splitAll mark cs
    else
      match splitAll mark cs with
      | s :: rest => (c :: s) :: rest
      | [] => [[c]]

/-- Splitting a text is splitting a list. -/
theorem splitAll_eq_splitOn (mark : Char) (text : List Char) :
    splitAll mark text = text.splitOn mark := by
  induction text with
  | nil => rw [splitAll, List.splitOn_nil]
  | cons c cs ih =>
    rw [splitAll, ih, List.splitOn_cons_eq_if_modifyHead]
    cases hsplit : cs.splitOn mark with
    | nil => exact absurd hsplit (List.splitOn_ne_nil mark cs)
    | cons part parts => rfl

theorem not_mem_of_mem_splitAll {mark : Char} {text part : List Char}
    (h : part ∈ splitAll mark text) : mark ∉ part := by
  induction text generalizing part with
  | nil =>
    rw [splitAll, List.mem_singleton] at h
    rw [h]
    exact List.not_mem_nil
  | cons c cs ih =>
    rw [splitAll] at h
    split at h
    next =>
      rcases List.mem_cons.mp h with rfl | hrest
      · exact List.not_mem_nil
      · exact ih hrest
    next hc =>
      have hne : mark ≠ c := fun heq => hc (beq_iff_eq.mpr heq.symm)
      split at h
      next first rest hsplit =>
        rw [hsplit, List.forall_mem_cons] at ih
        rcases List.mem_cons.mp h with rfl | hrest
        · exact List.not_mem_cons_of_ne_of_not_mem hne ih.1
        · exact ih.2 part hrest
      next =>
        rw [List.mem_singleton.mp h]
        exact List.not_mem_cons_of_ne_of_not_mem hne List.not_mem_nil

end ServerBoundary.Text
