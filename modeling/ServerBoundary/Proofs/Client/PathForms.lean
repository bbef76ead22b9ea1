import ServerBoundary.Proofs.Client.RequestPath

/-!
# Which texts are encoded

Paths and function ids are read back from their encodings (`Proofs/Client/RequestPath`). Here is the
other half: the texts that are encodings, told by their ends and their separators. On these texts,
and on no others, writing undoes reading.

> `paths_correspond_to_marked_texts`: the paths that neither start nor end with the mark correspond
> one to one to the texts `IsEncoded`.

> `function_ids_correspond_to_paths`: the ids that have a path correspond one to one to the paths
> `IsFunctionPath`.

Both are read off the laws of the marks (`mark_eq_iff`, `startMarked_eq_iff`).
-/

namespace ServerBoundary.Client.RscPath

/-! ## Paths -/

/-- A text that is the encoding of a path. -/
def IsEncoded (encoded : String) : Prop :=
  ∃ marked, encoded.toList = marked ++ ending ∧ IsMarked marked

theorem IsEncoded.hasEnding {encoded : String} (h : IsEncoded encoded) :
    ending <:+ encoded.toList := by
  obtain ⟨marked, hencoded, -⟩ := h
  exact ⟨marked, hencoded.symm⟩

/-- A text is read if it has the ending, and only then. -/
theorem exists_decode_eq_ok_iff {encoded : String} :
    (∃ path, decode encoded = .ok path) ↔ ending <:+ encoded.toList := by
  constructor
  · rintro ⟨path, h⟩
    obtain ⟨marked, hencoded, -⟩ := decode_eq_ok_iff.mp h
    exact ⟨marked, hencoded.symm⟩
  · rintro ⟨marked, hencoded⟩
    exact ⟨_, decode_eq_ok_iff.mpr ⟨marked, hencoded.symm, String.toList_ofList.symm⟩⟩

/-- **The encodings of paths** are the texts of the form `IsEncoded`, and the path of each is the
one that is read from it. -/
theorem encode_eq_ok_iff {path encoded : String} :
    encode path = .ok encoded ↔ decode encoded = .ok path ∧ IsEncoded encoded := by
  constructor
  · intro h
    have hplain := isPlain_of_encode h
    refine ⟨decode_encode h, mark path.toList, ?_, (mark_eq_iff.mp ⟨hplain, rfl⟩).1⟩
    rw [← Except.ok.inj ((encode_of_isPlain hplain).symm.trans h), String.toList_ofList]
  · rintro ⟨hdecode, marked, hencoded, hmarked⟩
    obtain ⟨read, hread, hunmark⟩ := decode_eq_ok_iff.mp hdecode
    obtain rfl : marked = read := List.append_cancel_right (hencoded.symm.trans hread)
    obtain ⟨hplain, hmark⟩ := mark_eq_iff.mpr ⟨hmarked, hunmark⟩
    rw [encode_of_isPlain hplain, hmark, ← hencoded, String.ofList_toList]

/-- **Paths and encoded paths correspond one to one.** A path is encoded and read back if it neither
starts nor ends with the mark, and is refused otherwise. A text is the encoding of what is read from
it if it is of the form `IsEncoded`; any other text with the ending is read too, but what is read
from it has another encoding or none. -/
theorem paths_correspond_to_marked_texts (path encoded : String) :
    ((∃ written, encode path = .ok written ∧ decode written = .ok path) ↔ IsPlain path.toList) ∧
    ((∃ fault, encode path = .error fault) ↔ ¬IsPlain path.toList) ∧
    ((∃ read, decode encoded = .ok read ∧ encode read = .ok encoded) ↔ IsEncoded encoded) ∧
    ((∃ read, decode encoded = .ok read ∧ encode read ≠ .ok encoded) ↔
      ending <:+ encoded.toList ∧ ¬IsEncoded encoded) := by
  refine ⟨⟨?_, fun h => ?_⟩, exists_encode_eq_error_iff, ⟨?_, fun h => ?_⟩, ⟨?_, ?_⟩⟩
  · rintro ⟨written, hwritten, -⟩
    exact isPlain_of_encode hwritten
  · exact ⟨_, encode_of_isPlain h, decode_encode (encode_of_isPlain h)⟩
  · rintro ⟨read, -, hwritten⟩
    exact (encode_eq_ok_iff.mp hwritten).2
  · obtain ⟨read, hread⟩ := exists_decode_eq_ok_iff.mpr h.hasEnding
    exact ⟨read, hread, encode_eq_ok_iff.mpr ⟨hread, h⟩⟩
  · rintro ⟨read, hread, hother⟩
    exact ⟨exists_decode_eq_ok_iff.mp ⟨read, hread⟩,
      fun h => hother (encode_eq_ok_iff.mpr ⟨hread, h⟩)⟩
  · rintro ⟨hending, h⟩
    obtain ⟨read, hread⟩ := exists_decode_eq_ok_iff.mpr hending
    exact ⟨read, hread, fun hwritten => h (encode_eq_ok_iff.mp hwritten).2⟩

/-! ## Function ids -/

/-- An id that has a path: a file, which does not start with the mark, and a name without slashes
behind the first separator. Both may be empty. -/
def IsFunctionId (id : String) : Prop :=
  ∃ file name, id.toList = file ++ '#' :: name ∧ '#' ∉ file ∧ '/' ∉ name ∧ file.head? ≠ some '_'

/-- A text that is the path of a function: the file with its mark, and the name behind the last
slash. -/
def IsFunctionPath (path : String) : Prop :=
  ∃ marked name, path.toList = functionStart ++ marked ++ '/' :: name ∧ '/' ∉ name ∧
    '#' ∉ marked ∧ IsStartMarked marked

theorem ofFunctionId_of_locates {id path : String} {file name : List Char}
    (h : Locates id path file name) : ofFunctionId id = .ok path := by
  have hsplit : Text.splitFirst? '#' id.toList = some (file, name) :=
    Text.splitFirst?_eq_some_iff.mpr ⟨h.id_eq, h.separator⟩
  rw [ofFunctionId, hsplit]
  dsimp only
  rw [if_neg (by simpa using h.name), if_neg (by simpa using h.file), Except.ok.injEq,
    ← String.toList_inj, String.toList_ofList, h.path_eq, startMarked]

theorem exists_ofFunctionId_eq_ok_iff {id : String} :
    (∃ path, ofFunctionId id = .ok path) ↔ IsFunctionId id := by
  constructor
  · rintro ⟨path, h⟩
    obtain ⟨file, name, hlocates⟩ := exists_locates h
    exact ⟨file, name, hlocates.id_eq, hlocates.separator, hlocates.name, hlocates.file⟩
  · rintro ⟨file, name, hid, hseparator, hname, hfile⟩
    exact ⟨_, ofFunctionId_of_locates ⟨hid, String.toList_ofList, hseparator, hname, hfile⟩⟩

theorem exists_ofFunctionId_eq_error_iff {id : String} :
    (∃ fault, ofFunctionId id = .error fault) ↔ ¬IsFunctionId id := by
  rw [← exists_ofFunctionId_eq_ok_iff]
  cases ofFunctionId id with
  | ok path => simp
  | error fault => simp

/-- **The paths of functions** are the texts of the form `IsFunctionPath`, and the id of each is the
one that it is read as. -/
theorem ofFunctionId_eq_ok_iff {id path : String} :
    ofFunctionId id = .ok path ↔ toFunctionId? path = some id ∧ IsFunctionPath path := by
  constructor
  · intro h
    obtain ⟨file, name, hlocates⟩ := exists_locates h
    exact ⟨toFunctionId?_ofFunctionId h, startMarked file, name, hlocates.path_eq, hlocates.name,
      fun h => hlocates.separator ((mem_startMarked (by decide)).mp h),
      (startMarked_eq_iff.mp ⟨hlocates.file, rfl⟩).1⟩
  · rintro ⟨hread, marked, name, hpath, hname, hseparator, hmarked⟩
    obtain ⟨marked', name', hpath', hname', hid⟩ := toFunctionId?_eq_some_iff.mp hread
    -- The name is what stands behind the last slash, so there is only one way to cut the path.
    have hcut : (marked, name) = (marked', name') := by
      rw [hpath, List.append_assoc, List.append_assoc] at hpath'
      have hsplit : Text.splitLast? '/' (marked ++ '/' :: name) = some (marked, name) :=
        Text.splitLast?_eq_some_iff.mpr ⟨rfl, hname⟩
      rw [List.append_cancel_left hpath', Text.splitLast?_eq_some_iff.mpr ⟨rfl, hname'⟩] at hsplit
      exact (Option.some.inj hsplit).symm
    cases hcut
    obtain ⟨hfile, hstart⟩ := startMarked_eq_iff.mpr ⟨hmarked, rfl⟩
    rw [← hstart, mem_startMarked (by decide)] at hseparator
    exact ofFunctionId_of_locates ⟨hid, by rw [hpath, hstart], hseparator, hname, hfile⟩

/-- **Function ids and their paths correspond one to one.** An id is encoded and read back if it is
of the form `IsFunctionId`, and is refused otherwise. A text is the path of the function that it is
read as if it is of the form `IsFunctionPath`, and of no other text is this true. -/
theorem function_ids_correspond_to_paths (id path : String) :
    ((∃ written, ofFunctionId id = .ok written ∧ toFunctionId? written = some id) ↔
      IsFunctionId id) ∧
    ((∃ fault, ofFunctionId id = .error fault) ↔ ¬IsFunctionId id) ∧
    (ofFunctionId id = .ok path ↔ toFunctionId? path = some id ∧ IsFunctionPath path) := by
  refine ⟨⟨?_, fun h => ?_⟩, exists_ofFunctionId_eq_error_iff, ofFunctionId_eq_ok_iff⟩
  · rintro ⟨written, hwritten, -⟩
    exact exists_ofFunctionId_eq_ok_iff.mp ⟨written, hwritten⟩
  · obtain ⟨written, hwritten⟩ := exists_ofFunctionId_eq_ok_iff.mpr h
    exact ⟨written, hwritten, toFunctionId?_ofFunctionId hwritten⟩

/-- Ids with a second separator, with neither file nor name, and with slashes in the file. -/
example : ofFunctionId "a#b#c" = .ok "F/a/b#c" ∧ ofFunctionId "#" = .ok "F//" ∧
    ofFunctionId "/src//a/#f" = .ok "F/_/src//a//f" := ⟨rfl, rfl, rfl⟩

end ServerBoundary.Client.RscPath
