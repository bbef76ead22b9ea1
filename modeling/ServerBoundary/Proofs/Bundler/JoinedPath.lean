import ServerBoundary.Bundler.Path

/-!
# The normal form of a path

Joining paths keeps a stack of segments. A `..` takes the segment on top of it, and goes on the
stack only if there is nothing that it could take, so that at every time the stack is a path in
normal form (`IsNormal`), read from its bottom. Pushing the segments of such a path on an empty stack
builds that stack again (`foldl_pushSegment`), and both halves of the main statement rest on this: a
path in normal form is joined to itself, and the stack of some paths is that of the path they join
to.

> `joined_path_is_normal`: what is joined is in normal form, starts at the root as the first of the
> paths does, and is left as it is by joining; paths may be joined one after the other or at once.

> `joinPath_eq_self_iff`: the paths that joining leaves as they are are those in normal form.
-/

namespace ServerBoundary.Bundler

/-- The segment that leads to the directory above. -/
def upward : List Char := ['.', '.']

/-- The segments of a path in normal form. None of them is empty or `.` or could be split. Whatever
stands before a `..` is one, and a path that starts at the root has none. -/
structure IsNormal (absolute : Bool) (segments : List (List Char)) : Prop where
  segment : ∀ s ∈ segments, s ≠ [] ∧ s ≠ ['.'] ∧ '/' ∉ s
  upward_first : segments.Pairwise fun s t => t = upward → s = upward
  relative : upward ∈ segments → absolute = false

/-- The text of a path with some segments, which may start at the root. -/
def pathText (absolute : Bool) (segments : List (List Char)) : String :=
  String.ofList ((if absolute then ['/'] else []) ++ List.intercalate ['/'] segments)

namespace IsNormal

variable {absolute : Bool} {segments : List (List Char)}

theorem nil (absolute : Bool) : IsNormal absolute [] where
  segment _ h := absurd h List.not_mem_nil
  upward_first := List.Pairwise.nil
  relative h := absurd h List.not_mem_nil

theorem sublist {part : List (List Char)} (h : IsNormal absolute segments)
    (hpart : part.Sublist segments) : IsNormal absolute part where
  segment s hs := h.segment s (hpart.subset hs)
  upward_first := h.upward_first.sublist hpart
  relative hup := h.relative (hpart.subset hup)

/-- One more segment may follow; a `..` may only follow others. -/
theorem concat {s : List Char} (h : IsNormal absolute segments)
    (hs : s ≠ [] ∧ s ≠ ['.'] ∧ '/' ∉ s)
    (hup : s = upward → absolute = false ∧ ∀ t ∈ segments, t = upward) :
    IsNormal absolute (segments ++ [s]) where
  segment t ht := by
    rcases List.mem_append.mp ht with hold | hnew
    · exact h.segment t hold
    · rw [List.mem_singleton.mp hnew]
      exact hs
  upward_first := by
    rw [List.pairwise_append]
    refine ⟨h.upward_first, List.pairwise_singleton _ _, fun t ht u hu heq => ?_⟩
    rw [List.mem_singleton.mp hu] at heq
    exact (hup heq).2 t ht
  relative hmem := by
    rcases List.mem_append.mp hmem with hold | hnew
    · exact h.relative hold
    · exact (hup (List.mem_singleton.mp hnew).symm).1

/-- What stands before a `..` at the end. -/
theorem of_concat_upward (h : IsNormal absolute (segments ++ [upward])) :
    absolute = false ∧ ∀ t ∈ segments, t = upward := by
  refine ⟨h.relative (List.mem_append_right _ List.mem_cons_self), fun t ht => ?_⟩
  have hpairs := (List.pairwise_append.mp h.upward_first).2.2
  exact hpairs t ht upward List.mem_cons_self rfl

end IsNormal

/-! ## The stack -/

/-- **One segment.** Pushing a segment on a stack in normal form leaves one in normal form. -/
theorem isNormal_pushSegment {absolute : Bool} {stack : List (List Char)} {s : List Char}
    (h : IsNormal absolute stack.reverse) (hs : '/' ∉ s) :
    IsNormal absolute (pushSegment absolute stack s).reverse := by
  unfold pushSegment
  split
  next => exact h
  next hplain =>
    have hsegment : s ≠ [] ∧ s ≠ ['.'] ∧ '/' ∉ s := by
      simp only [Bool.or_eq_true, beq_iff_eq, not_or] at hplain
      exact ⟨hplain.1, hplain.2, hs⟩
    split
    next hup =>
      have hup : s = upward := beq_iff_eq.mp hup
      cases stack with
      | nil =>
        cases absolute with
        | true => exact h
        | false => exact h.concat hsegment fun _ => ⟨rfl, fun t ht => absurd ht List.not_mem_nil⟩
      | cons top below =>
        rw [List.reverse_cons] at h
        dsimp only
        split
        next htop =>
          -- The top is a `..`, so that the path is relative and the whole stack is made of them.
          have htop : top = upward := beq_iff_eq.mp htop
          rw [htop] at h ⊢
          obtain ⟨habsolute, hbelow⟩ := h.of_concat_upward
          rw [habsolute] at h ⊢
          rw [if_neg Bool.false_ne_true, List.reverse_cons, List.reverse_cons]
          refine h.concat hsegment fun _ => ⟨rfl, fun t ht => ?_⟩
          rcases List.mem_append.mp ht with hold | hnew
          · exact hbelow t hold
          · exact List.mem_singleton.mp hnew
        next => exact h.sublist (List.sublist_append_left _ _)
    next hup =>
      rw [List.reverse_cons]
      exact h.concat hsegment fun heq => absurd (beq_iff_eq.mpr heq) hup

theorem isNormal_foldl_pushSegment {absolute : Bool} {segments stack : List (List Char)}
    (h : IsNormal absolute stack.reverse) (hsegments : ∀ s ∈ segments, '/' ∉ s) :
    IsNormal absolute (segments.foldl (pushSegment absolute) stack).reverse := by
  induction segments generalizing stack with
  | nil => exact h
  | cons s rest ih =>
    rw [List.forall_mem_cons] at hsegments
    exact ih (isNormal_pushSegment h hsegments.1) hsegments.2

/-- The stack of some paths is in normal form. -/
theorem isNormal_foldl_pushPath {absolute : Bool} (paths : List String) {stack : List (List Char)}
    (h : IsNormal absolute stack.reverse) :
    IsNormal absolute (paths.foldl (pushPath absolute) stack).reverse := by
  induction paths generalizing stack with
  | nil => exact h
  | cons path rest ih =>
    exact ih (isNormal_foldl_pushSegment h fun s hs => Text.not_mem_of_mem_splitAll hs)

/-! ## Building a stack again -/

/-- A segment that may follow the others in a normal form is put on top of them. -/
theorem pushSegment_of_isNormal {absolute : Bool} {stack : List (List Char)} {s : List Char}
    (h : IsNormal absolute (stack.reverse ++ [s])) : pushSegment absolute stack s = s :: stack := by
  obtain ⟨hnil, hdot, -⟩ := h.segment s (List.mem_append_right _ List.mem_cons_self)
  unfold pushSegment
  rw [if_neg (by simp [hnil, hdot])]
  split
  next hup =>
    have hup : s = upward := beq_iff_eq.mp hup
    rw [hup] at h ⊢
    obtain ⟨habsolute, hstack⟩ := h.of_concat_upward
    rw [habsolute]
    cases stack with
    | nil => rfl
    | cons top below =>
      rw [hstack top (List.mem_reverse.mpr List.mem_cons_self)]
      rfl
  next => rfl

/-- **The segments of a normal form build their stack.** -/
theorem foldl_pushSegment {absolute : Bool} {segments stack : List (List Char)}
    (h : IsNormal absolute (stack.reverse ++ segments)) :
    segments.foldl (pushSegment absolute) stack = segments.reverse ++ stack := by
  induction segments generalizing stack with
  | nil => rfl
  | cons s rest ih =>
    have hfirst : IsNormal absolute (stack.reverse ++ [s]) :=
      h.sublist (List.Sublist.append_left (List.singleton_sublist.mpr List.mem_cons_self) _)
    rw [List.foldl_cons, pushSegment_of_isNormal hfirst, ih (by simpa using h)]
    simp

/-- Splitting the text of a normal form gives its segments back, apart from empty ones. -/
theorem pushPath_pathText {absolute : Bool} {segments : List (List Char)}
    (h : IsNormal absolute segments) :
    pushPath absolute [] (pathText absolute segments) = segments.reverse := by
  have hbody : (Text.splitAll '/' (List.intercalate ['/'] segments)).foldl (pushSegment absolute) []
      = segments.reverse := by
    cases hsegments : segments with
    | nil => rfl
    | cons s rest =>
      rw [← hsegments, Text.splitAll_eq_splitOn, List.splitOn_intercalate '/'
        (fun s hs => (h.segment s hs).2.2) (by simp [hsegments])]
      exact (@foldl_pushSegment absolute segments [] h).trans (List.append_nil _)
  rw [pushPath, pathText, String.toList_ofList]
  cases absolute with
  | true => exact hbody
  | false => exact hbody

/-! ## Joined paths -/

/-- Only a path that starts at the root has a `/` in front. -/
theorem isAbsolute_pathText {absolute : Bool} {segments : List (List Char)}
    (h : IsNormal absolute segments) : isAbsolute (pathText absolute segments) = absolute := by
  rw [isAbsolute, pathText, String.toList_ofList]
  cases absolute with
  | true => rfl
  | false =>
    cases segments with
    | nil => rfl
    | cons s rest =>
      obtain ⟨hnil, -, hslash⟩ := h.segment s List.mem_cons_self
      obtain ⟨c, cs, rfl⟩ := List.exists_cons_of_ne_nil hnil
      have hc : ¬c = '/' := fun heq => hslash (heq ▸ List.mem_cons_self)
      rw [if_neg Bool.false_ne_true, List.nil_append, List.intercalate_cons_cons_left,
        List.head?_cons]
      simpa using hc

/-- Whether the first of some paths starts at the root. -/
def startsAtRoot (paths : List String) : Bool := (paths.head?.map isAbsolute).getD false

/-- The segments of the path that some paths join to. -/
def joinedSegments (paths : List String) : List (List Char) :=
  (paths.foldl (pushPath (startsAtRoot paths)) []).reverse

theorem joinPath_eq (paths : List String) :
    joinPath paths = pathText (startsAtRoot paths) (joinedSegments paths) := rfl

theorem isNormal_joinedSegments (paths : List String) :
    IsNormal (startsAtRoot paths) (joinedSegments paths) :=
  isNormal_foldl_pushPath paths (.nil _)

theorem isAbsolute_joinPath (paths : List String) :
    isAbsolute (joinPath paths) = startsAtRoot paths := by
  rw [joinPath_eq]
  exact isAbsolute_pathText (isNormal_joinedSegments paths)

/-- **What was joined may be joined on.** An empty list is no start, because a path that it stands
before may start at the root. -/
theorem joinPath_append {paths : List String} (h : paths ≠ []) (more : List String) :
    joinPath (paths ++ more) = joinPath (joinPath paths :: more) := by
  have hroot : startsAtRoot (paths ++ more) = startsAtRoot paths := by
    obtain ⟨first, rest, rfl⟩ := List.exists_cons_of_ne_nil h
    rfl
  have hroot' : startsAtRoot (joinPath paths :: more) = startsAtRoot paths :=
    isAbsolute_joinPath paths
  have hstack : pushPath (startsAtRoot paths) [] (joinPath paths) =
      paths.foldl (pushPath (startsAtRoot paths)) [] := by
    rw [joinPath_eq, pushPath_pathText (isNormal_joinedSegments paths), joinedSegments,
      List.reverse_reverse]
  rw [joinPath_eq, joinPath_eq (joinPath paths :: more), joinedSegments, joinedSegments, hroot,
    hroot', List.foldl_append, List.foldl_cons, hstack]

/-- The path `/a` is not joined to the path that nothing joins to. -/
example : joinPath ([] ++ ["/a"]) = "/a" ∧ joinPath (joinPath [] :: ["/a"]) = "a" := by decide

/-- **The normal forms** are the paths that joining leaves as they are. -/
theorem joinPath_eq_self_iff {path : String} :
    joinPath [path] = path ↔
      ∃ absolute segments, IsNormal absolute segments ∧ path = pathText absolute segments := by
  constructor
  · intro h
    exact ⟨_, _, isNormal_joinedSegments [path], h.symm.trans (joinPath_eq [path])⟩
  · rintro ⟨absolute, segments, hnormal, rfl⟩
    have hroot : startsAtRoot [pathText absolute segments] = absolute := isAbsolute_pathText hnormal
    rw [joinPath_eq, joinedSegments, hroot, List.foldl_cons, List.foldl_nil,
      pushPath_pathText hnormal, List.reverse_reverse]

/-- **Joining gives a normal form.** What some paths join to starts at the root exactly if the first
of them does, and its segments are those of a path in normal form; joining leaves it as it is, and
more paths may be joined to it instead of to the paths that it was joined from. -/
theorem joined_path_is_normal (paths : List String) :
    ((joinPath paths).toList.head? = some '/' ↔
      ∃ first, paths.head? = some first ∧ first.toList.head? = some '/') ∧
    (∃ segments, IsNormal (isAbsolute (joinPath paths)) segments ∧
      joinPath paths = pathText (isAbsolute (joinPath paths)) segments) ∧
    joinPath [joinPath paths] = joinPath paths ∧
    (paths ≠ [] → ∀ more, joinPath (paths ++ more) = joinPath (joinPath paths :: more)) := by
  have hroot := isAbsolute_joinPath paths
  have hnormal := isNormal_joinedSegments paths
  refine ⟨?_, ⟨joinedSegments paths, ?_, ?_⟩, ?_, fun h => joinPath_append h⟩
  · have hhead : (joinPath paths).toList.head? = some '/' ↔ startsAtRoot paths = true := by
      rw [← hroot, isAbsolute, beq_iff_eq]
    rw [hhead, startsAtRoot]
    cases paths with
    | nil => simp
    | cons first rest => simp [isAbsolute]
  · rw [hroot]
    exact hnormal
  · rw [hroot, joinPath_eq]
  · exact joinPath_eq_self_iff.mpr ⟨_, _, hnormal, joinPath_eq paths⟩

/-- The module that `../lib/b.js` is for a page, at once and by way of the directory of the page. -/
theorem path_of_neighbour_is_normal :
    let page := ["/src/./pages//index.js", ".."]
    page ≠ [] ∧ joinPath page = "/src/pages" ∧ joinPath ["/src/pages"] = "/src/pages" ∧
    joinPath (page ++ ["../lib/b.js"]) = joinPath ["/src/pages", "../lib/b.js"] ∧
    joinPath ["/src/pages", "../lib/b.js"] = "/src/lib/b.js" := by
  intro page
  have hne : page ≠ [] := List.cons_ne_nil _ _
  have hpage : joinPath page = "/src/pages" := by decide
  obtain ⟨-, -, hself, happend⟩ := joined_path_is_normal page
  rw [hpage] at hself
  have hlib := happend hne ["../lib/b.js"]
  rw [hpage] at hlib
  exact ⟨hne, hpage, hself, hlib, by decide⟩

end ServerBoundary.Bundler
