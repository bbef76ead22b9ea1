import ServerBoundary.Proofs.Client.PathMarks

/-!
# Encoded paths are read back

A path and a function id each have an encoding of their own. Both are undone by their decoding, so
that no two paths and no two ids are the same on the wire.

> `RscPath.decode_encode`: the encoding of a path is read back as the path.

> `RscPath.toFunctionId?_ofFunctionId`, `RscPath.ofFunctionId_inj`: the path of a function is read
> back as its id, and two functions with one path have one id.

The two encodings reserve the mark `_` at different places:

> `RscPath.encode_ofFunctionId`: the path of a function is a path that can be encoded, unless the
> name of the function ends with the mark.
-/

namespace ServerBoundary.Client.RscPath

/-! ## Paths -/

theorem encode_of_isPlain {path : String} (h : IsPlain path.toList) :
    encode path = .ok (String.ofList (mark path.toList ++ ending)) := by
  rw [encode, if_neg (by simpa using h.1), if_neg (by simpa using h.2)]

/-- A path is refused if it starts or ends with the mark, and only then. -/
theorem exists_encode_eq_error_iff {path : String} :
    (∃ fault, encode path = .error fault) ↔ ¬IsPlain path.toList := by
  constructor
  · rintro ⟨fault, hfault⟩ hplain
    cases hfault.symm.trans (encode_of_isPlain hplain)
  · intro h
    unfold encode
    dsimp only
    split
    next => exact ⟨_, rfl⟩
    next hstart =>
      split
      next => exact ⟨_, rfl⟩
      next hend => exact absurd ⟨by simpa using hstart, by simpa using hend⟩ h

theorem isPlain_of_encode {path encoded : String} (h : encode path = .ok encoded) :
    IsPlain path.toList := by
  by_cases hplain : IsPlain path.toList
  · exact hplain
  · obtain ⟨fault, hfault⟩ := exists_encode_eq_error_iff.mpr hplain
    cases hfault.symm.trans h

theorem decode_eq_ok_iff {encoded path : String} : decode encoded = .ok path ↔
    ∃ marked, encoded.toList = marked ++ ending ∧ unmark marked = path.toList := by
  simp only [← Text.dropEnd?_eq_some_iff]
  rw [decode]
  cases Text.dropEnd? ending encoded.toList with
  | none => simp
  | some marked => simp [← String.toList_inj]

/-- **The encoding of a path is read back as the path.** -/
theorem decode_encode {path encoded : String} (h : encode path = .ok encoded) :
    decode encoded = .ok path := by
  have hplain := isPlain_of_encode h
  rw [encode_of_isPlain hplain] at h
  cases h
  exact decode_eq_ok_iff.mpr ⟨mark path.toList, String.toList_ofList, unmark_mark hplain⟩

/-! ## Function ids -/

/-- A function id that has a path is a file and a name, which are the parts of the path. -/
structure Locates (id path : String) (file name : List Char) : Prop where
  id_eq : id.toList = file ++ '#' :: name
  path_eq : path.toList = functionStart ++ startMarked file ++ '/' :: name
  separator : '#' ∉ file
  name : '/' ∉ name
  file : file.head? ≠ some '_'

theorem exists_locates {id path : String} (h : ofFunctionId id = .ok path) :
    ∃ file name, Locates id path file name := by
  unfold ofFunctionId at h
  split at h
  next => exact absurd h (by simp)
  next file name hsplit =>
    obtain ⟨hid, hseparator⟩ := Text.splitFirst?_eq_some_iff.mp hsplit
    split at h
    next => exact absurd h (by simp)
    next hname =>
      split at h
      next => exact absurd h (by simp)
      next hfile =>
        cases h
        exact ⟨file, name, hid, String.toList_ofList, hseparator, by simpa using hname,
          by simpa using hfile⟩

/-- The function that a path is read as: its name stands behind the last slash. -/
theorem toFunctionId?_eq_some_iff {path id : String} : toFunctionId? path = some id ↔
    ∃ marked name, path.toList = functionStart ++ marked ++ '/' :: name ∧ '/' ∉ name ∧
      id.toList = (Text.dropStart? ['_'] marked).getD marked ++ '#' :: name := by
  simp only [toFunctionId?, Option.bind_eq_bind, Option.bind_eq_some_iff,
    Text.dropStart?_eq_some_iff, Prod.exists, Text.splitLast?_eq_some_iff]
  constructor
  · rintro ⟨_, hpath, marked, name, ⟨rfl, hname⟩, hid⟩
    refine ⟨marked, name, by rw [hpath, List.append_assoc], hname, ?_⟩
    rw [← Option.some.inj hid, String.toList_ofList]
  · rintro ⟨marked, name, hpath, hname, hid⟩
    refine ⟨_, by rw [hpath, List.append_assoc], marked, name, ⟨rfl, hname⟩, ?_⟩
    rw [← hid, String.ofList_toList]
    rfl

/-- **The path of a function is read back as its id.** -/
theorem toFunctionId?_ofFunctionId {id path : String} (h : ofFunctionId id = .ok path) :
    toFunctionId? path = some id := by
  obtain ⟨file, name, hlocates⟩ := exists_locates h
  exact toFunctionId?_eq_some_iff.mpr ⟨startMarked file, name, hlocates.path_eq, hlocates.name,
    by rw [(startMarked_eq_iff.mp ⟨hlocates.file, rfl⟩).2, hlocates.id_eq]⟩

/-- Two functions with one path have one id. -/
theorem ofFunctionId_inj {id id' path : String} (h : ofFunctionId id = .ok path)
    (h' : ofFunctionId id' = .ok path) : id = id' :=
  Option.some.inj ((toFunctionId?_ofFunctionId h).symm.trans (toFunctionId?_ofFunctionId h'))

/-- The path of a function starts with a letter. -/
theorem head?_ofFunctionId {id path : String} (h : ofFunctionId id = .ok path) :
    path.toList.head? = some 'F' := by
  obtain ⟨file, name, hlocates⟩ := exists_locates h
  rw [hlocates.path_eq]
  rfl

/-- The path of a function ends as its id does, if the id has a name. -/
theorem getLast?_ofFunctionId {id path : String} (h : ofFunctionId id = .ok path)
    (hlast : id.toList.getLast? ≠ some '#') : path.toList.getLast? = id.toList.getLast? := by
  obtain ⟨file, name, hlocates⟩ := exists_locates h
  rw [hlocates.id_eq] at hlast ⊢
  rw [hlocates.path_eq]
  cases name with
  | nil => exact absurd (by rw [List.getLast?_append]; rfl) hlast
  | cons c cs =>
    have hname : ∀ (front : List Char) (sep : Char),
        (front ++ sep :: c :: cs).getLast? = (c :: cs).getLast? := fun front sep => by
      rw [List.getLast?_append, List.getLast?_cons_cons, List.getLast?_cons, Option.some_or]
    rw [hname, hname]

/-- **When a function can be asked for.** The path of a function has an encoding unless the name of
the function ends with the mark. -/
theorem encode_ofFunctionId {id path : String} (h : ofFunctionId id = .ok path)
    (hlast : id.toList.getLast? ≠ some '#') :
    encode path = if id.toList.getLast? = some '_' then .error (.endsWithMark path)
      else .ok (String.ofList (mark path.toList ++ ending)) := by
  rw [← getLast?_ofFunctionId h hlast, encode, if_neg (by rw [head?_ofFunctionId h]; decide)]
  simp only [beq_iff_eq]

end ServerBoundary.Client.RscPath
