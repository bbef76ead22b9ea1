import Mathlib.Data.List.Induction
import ServerBoundary.Bundler.Plugin
import ServerBoundary.Proofs.Bundler.JoinedPath
import ServerBoundary.Proofs.Data.OrderedMap

/-!
# Sources of resolved modules

A development server asks the bundler what each specifier resolves to, and remembers for each module
under which id it was imported first. An id that is relative to its importer is joined to the
directory of the importer, and one that is the module itself says nothing. Each call brings its own
bundler, so that a statement about every run is one about every bundler, whatever it answers when.

> `modules_keep_their_first_source`: after every run a module has the source of the earliest call
> that found one, the modules stand in the order of these calls, and what is remembered stays. Each
> call asks the bundler once, and passes on its error, or the answer for a specifier with a prefix.

`FirstFinds` speaks of calls and of what their bundlers answer, and of no plugin. That it tells what
a plugin remembers (`Remembers`) is an invariant, which one call preserves (`Tracks.act`).
-/

namespace ServerBoundary.Bundler.Plugin

variable {ε : Type}

/-! ## What a call is about -/

/-- The directory of a module. -/
def directory (id : String) : String := joinPath [stripQuery id, ".."]

/-- A specifier with a prefix of the development server. -/
def IsPrefixed (specifier : String) : Prop :=
  "/@id/".toList <+: specifier.toList ∨ "/@fs/".toList <+: specifier.toList

/-- A specifier that starts in the directory of its importer. -/
def StartsAtImporter (specifier : String) : Prop :=
  "./".toList <+: specifier.toList ∨ "../".toList <+: specifier.toList

/-- The id under which a query imports a module: its specifier, which is joined to the directory of
the importer if it starts there. -/
inductive IsSource : Query → String → Prop where
  | joined (specifier importer : String) (h : StartsAtImporter specifier) :
    IsSource ⟨specifier, some importer⟩ (joinPath [directory importer, specifier])
  | specifier (q : Query) (h : q.importer = none ∨ ¬StartsAtImporter q.specifier) :
    IsSource q q.specifier

/-- What the bundler is asked for a query: the query itself, or the one without a prefix, where that
of a file leaves its `/`. -/
inductive Asks : Query → Query → Prop where
  | package (rest : List Char) (importer : Option String) :
    Asks ⟨String.ofList ("/@id/".toList ++ rest), importer⟩ ⟨String.ofList rest, importer⟩
  | file (rest : List Char) (importer : Option String) :
    Asks ⟨String.ofList ("/@fs/".toList ++ rest), importer⟩ ⟨String.ofList ('/' :: rest), importer⟩
  | itself (q : Query) (h : ¬IsPrefixed q.specifier) : Asks q q

/-- A query that is resolved, with the bundler that answers for it. -/
structure Call (ε : Type) where
  bundler : Query → Answer ε
  query : Query

/-- A call finds a module and the id under which it is imported, which is another one. -/
structure Call.Finds (c : Call ε) (id source : String) : Prop where
  plain : ¬IsPrefixed c.query.specifier
  resolved : ∃ answer, c.bundler c.query = .ok (some answer) ∧ stripQuery answer = id
  isSource : IsSource c.query source
  ne : source ≠ id

/-- The `i`-th call is the first that finds a module. -/
structure FirstFinds (calls : List (Call ε)) (i : Nat) (id source : String) : Prop where
  finds : ∃ c, calls[i]? = some c ∧ c.Finds id source
  first : ∀ c ∈ calls.take i, ∀ source', ¬c.Finds id source'

/-- Some pairs are the modules that calls found, each with what was found first, in the order of the
calls that found them. -/
structure Remembers (calls : List (Call ε)) (entries : List (String × String)) : Prop where
  mem : ∀ id source, (id, source) ∈ entries ↔ ∃ i, FirstFinds calls i id source
  sorted : entries.Pairwise fun e e' => ∀ i j, FirstFinds calls i e.1 e.2 →
    FirstFinds calls j e'.1 e'.2 → i < j

/-! ## Sources and prefixes in texts -/

theorem isRelative_iff {specifier : String} :
    isRelative specifier = true ↔ StartsAtImporter specifier := by
  rw [isRelative, StartsAtImporter, ← Text.isSome_dropStart?, ← Text.isSome_dropStart?]
  simp

/-- Joining a specifier to the directory of its importer is joining it to the importer and `..`. -/
theorem joinPath_directory (importer specifier : String) :
    joinPath [directory importer, specifier] = joinPath [stripQuery importer, "..", specifier] :=
  (joinPath_append (List.cons_ne_nil _ _) [specifier]).symm

theorem sourceId_some (specifier importer : String) : sourceId ⟨specifier, some importer⟩ =
    if isRelative specifier then joinPath [directory importer, specifier] else specifier := by
  rw [joinPath_directory]
  rfl

/-- Every query has one source. -/
theorem isSource_iff {q : Query} {source : String} : IsSource q source ↔ sourceId q = source := by
  constructor
  · intro h
    cases h with
    | joined specifier importer hstarts =>
      rw [sourceId_some, if_pos (isRelative_iff.mpr hstarts)]
    | specifier _ hother =>
      obtain ⟨specifier, importer⟩ := q
      cases importer with
      | none => rfl
      | some importer =>
        have hnot : ¬StartsAtImporter specifier := hother.resolve_left (by simp)
        rw [sourceId_some, if_neg fun h => hnot (isRelative_iff.mp h)]
  · rintro rfl
    obtain ⟨specifier, importer⟩ := q
    cases importer with
    | none => exact .specifier _ (.inl rfl)
    | some importer =>
      rw [sourceId_some]
      by_cases hstarts : StartsAtImporter specifier
      · rw [if_pos (isRelative_iff.mpr hstarts)]
        exact .joined specifier importer hstarts
      · rw [if_neg fun h => hstarts (isRelative_iff.mp h)]
        exact .specifier _ (.inr hstarts)

theorem not_mem_stripQuery (id : String) : '?' ∉ (stripQuery id).toList := by
  rw [stripQuery, String.toList_ofList]
  intro hmem
  have hkept := List.all_eq_true.mp List.all_takeWhile '?' hmem
  exact absurd hkept (by decide)

/-! ## What is found first -/

theorem Call.Finds.source_eq {c : Call ε} {id source id' source' : String} (h : c.Finds id source)
    (h' : c.Finds id' source') : id = id' ∧ source = source' := by
  obtain ⟨answer, hanswer, rfl⟩ := h.resolved
  obtain ⟨answer', hanswer', rfl⟩ := h'.resolved
  cases hanswer.symm.trans hanswer'
  exact ⟨rfl, (isSource_iff.mp h.isSource).symm.trans (isSource_iff.mp h'.isSource)⟩

theorem FirstFinds.lt {calls : List (Call ε)} {i : Nat} {id source : String}
    (h : FirstFinds calls i id source) : i < calls.length := by
  obtain ⟨c, hc, -⟩ := h.finds
  exact (List.getElem?_eq_some_iff.mp hc).1

/-- The last call finds a module first if no other one finds it. -/
theorem firstFinds_concat {calls : List (Call ε)} {c : Call ε} {i : Nat} {id source : String} :
    FirstFinds (calls ++ [c]) i id source ↔ FirstFinds calls i id source ∨
      (i = calls.length ∧ c.Finds id source ∧ ∀ d ∈ calls, ∀ source', ¬d.Finds id source') := by
  constructor
  · rintro ⟨⟨d, hd, hfinds⟩, hfirst⟩
    by_cases hlt : i < calls.length
    · rw [List.getElem?_append_left hlt] at hd
      rw [List.take_append_of_le_length (Nat.le_of_lt hlt)] at hfirst
      exact .inl ⟨⟨d, hd, hfinds⟩, hfirst⟩
    · have hle : i < calls.length + 1 := by simpa using (List.getElem?_eq_some_iff.mp hd).1
      obtain rfl : i = calls.length := by omega
      rw [List.getElem?_concat_length] at hd
      rw [List.take_left] at hfirst
      cases hd
      exact .inr ⟨rfl, hfinds, hfirst⟩
  · rintro (hold | ⟨rfl, hfinds, hfirst⟩)
    · obtain ⟨d, hd, hfinds⟩ := hold.finds
      refine ⟨⟨d, ?_, hfinds⟩, ?_⟩
      · rw [List.getElem?_append_left hold.lt]
        exact hd
      · rw [List.take_append_of_le_length (Nat.le_of_lt hold.lt)]
        exact hold.first
    · exact ⟨⟨c, List.getElem?_concat_length, hfinds⟩, by rwa [List.take_left]⟩

/-- A module that is found at all is found by a first call. -/
theorem exists_firstFinds {calls : List (Call ε)} {c : Call ε} {id source : String} (hc : c ∈ calls)
    (hfinds : c.Finds id source) : ∃ i source', FirstFinds calls i id source' := by
  induction calls using List.reverseRecOn generalizing c source with
  | nil => exact absurd hc List.not_mem_nil
  | append_singleton calls last ih =>
    by_cases hold : ∃ d ∈ calls, ∃ source', d.Finds id source'
    · obtain ⟨d, hd, source', hd'⟩ := hold
      obtain ⟨i, source'', hi⟩ := ih hd hd'
      exact ⟨i, source'', firstFinds_concat.mpr (.inl hi)⟩
    · have hnone : ∀ d ∈ calls, ∀ source', ¬d.Finds id source' := fun d hd source' hd' =>
        hold ⟨d, hd, source', hd'⟩
      rcases List.mem_append.mp hc with hbefore | hlast
      · exact absurd hfinds (hnone c hbefore source)
      · rw [List.mem_singleton.mp hlast] at hfinds
        exact ⟨_, source, firstFinds_concat.mpr (.inr ⟨rfl, hfinds, hnone⟩)⟩

namespace Remembers

variable {calls : List (Call ε)} {entries : List (String × String)} {c : Call ε}

theorem nil : Remembers ([] : List (Call ε)) [] where
  mem id source := by
    constructor
    · intro h
      exact absurd h List.not_mem_nil
    · rintro ⟨i, hi⟩
      exact absurd hi.lt (Nat.not_lt_zero i)
  sorted := List.Pairwise.nil

/-- The modules that are remembered are those that were found. -/
theorem mem_keys_iff (h : Remembers calls entries) {id : String} :
    id ∈ entries.map Prod.fst ↔ ∃ d ∈ calls, ∃ source, d.Finds id source := by
  constructor
  · intro hid
    obtain ⟨⟨id, source⟩, hmem, rfl⟩ := List.mem_map.mp hid
    obtain ⟨i, hi⟩ := (h.mem id source).mp hmem
    obtain ⟨d, hd, hfinds⟩ := hi.finds
    exact ⟨d, List.mem_of_getElem? hd, source, hfinds⟩
  · rintro ⟨d, hd, source, hfinds⟩
    obtain ⟨i, source', hi⟩ := exists_firstFinds hd hfinds
    exact List.mem_map.mpr ⟨(id, source'), (h.mem id source').mpr ⟨i, hi⟩, rfl⟩

/-- A call that finds nothing new changes nothing. -/
theorem concat_known (h : Remembers calls entries)
    (hknown : ∀ id source, c.Finds id source → id ∈ entries.map Prod.fst) :
    Remembers (calls ++ [c]) entries := by
  have hsame : ∀ {i id source}, FirstFinds (calls ++ [c]) i id source ↔
      FirstFinds calls i id source := by
    intro i id source
    rw [firstFinds_concat]
    refine ⟨fun hi => hi.resolve_right ?_, .inl⟩
    rintro ⟨-, hfinds, hfirst⟩
    obtain ⟨d, hd, source', hd'⟩ := h.mem_keys_iff.mp (hknown id source hfinds)
    exact hfirst d hd source' hd'
  constructor
  · intro id source
    rw [h.mem]
    exact exists_congr fun i => hsame.symm
  · exact h.sorted.imp fun hlt i j hi hj => hlt i j (hsame.mp hi) (hsame.mp hj)

/-- A call that finds a new module adds it at the end. -/
theorem concat_new (h : Remembers calls entries) {id source : String} (hfinds : c.Finds id source)
    (hnew : id ∉ entries.map Prod.fst) : Remembers (calls ++ [c]) (entries ++ [(id, source)]) := by
  have hnone : ∀ d ∈ calls, ∀ source', ¬d.Finds id source' := fun d hd source' hd' =>
    hnew (h.mem_keys_iff.mpr ⟨d, hd, source', hd'⟩)
  -- The modules that were remembered before were found by the calls before.
  have hold : ∀ {e : String × String} {i : Nat}, e ∈ entries →
      FirstFinds (calls ++ [c]) i e.1 e.2 → FirstFinds calls i e.1 e.2 := by
    intro e i he hi
    rcases firstFinds_concat.mp hi with hi | ⟨-, -, hfirst⟩
    · exact hi
    · obtain ⟨d, hd, source', hd'⟩ := h.mem_keys_iff.mp (List.mem_map_of_mem he)
      exact absurd hd' (hfirst d hd source')
  constructor
  · intro id' source'
    rw [List.mem_append, List.mem_singleton, h.mem]
    constructor
    · rintro (⟨i, hi⟩ | heq)
      · exact ⟨i, firstFinds_concat.mpr (.inl hi)⟩
      · cases heq
        exact ⟨_, firstFinds_concat.mpr (.inr ⟨rfl, hfinds, hnone⟩)⟩
    · rintro ⟨i, hi⟩
      rcases firstFinds_concat.mp hi with hi | ⟨-, hfinds', -⟩
      · exact .inl ⟨i, hi⟩
      · obtain ⟨rfl, rfl⟩ := hfinds'.source_eq hfinds
        exact .inr rfl
  · rw [List.pairwise_append]
    refine ⟨?_, List.pairwise_singleton _ _, ?_⟩
    · refine h.sorted.imp_of_mem fun he he' hlt i j hi hj => ?_
      exact hlt i j (hold he hi) (hold he' hj)
    · intro e he e' he' i j hi hj
      rw [List.mem_singleton.mp he'] at hj
      have hj : j = calls.length := by
        rcases firstFinds_concat.mp hj with hj | ⟨hj, -⟩
        · obtain ⟨d, hd, hd'⟩ := hj.finds
          exact absurd hd' (hnone d (List.mem_of_getElem? hd) source)
        · exact hj
      rw [hj]
      exact (hold he hi).lt

end Remembers

/-! ## One call -/

/-- What a call comes to on a development server that remembers: the one question to the bundler,
and what is done about the answer. -/
structure Serves (p : Plugin) (c : Call ε) (asked : Query) : Prop where
  asks : Asks c.query asked
  once : (p.resolve c.bundler c.query).2.1 = [asked]
  fails : ∀ e, c.bundler asked = .error e →
    (p.resolve c.bundler c.query).2.2 = .error e ∧ (p.resolve c.bundler c.query).1 = p
  forwards : IsPrefixed c.query.specifier →
    (p.resolve c.bundler c.query).2.2 = c.bundler asked ∧ (p.resolve c.bundler c.query).1 = p
  leaves : ¬IsPrefixed c.query.specifier → ∀ resolved, c.bundler asked = .ok resolved →
    (p.resolve c.bundler c.query).2.2 = .ok none

/-- A specifier with a prefix is forwarded, and any other one is tracked. -/
theorem exists_resolution {p : Plugin} {m : OrderedMap String} (hbuild : p.isBuild = false)
    (hsources : p.sources = some m) (q : Query) :
    (IsPrefixed q.specifier ∧ ∃ asked, Asks q asked ∧ p.resolution q = .forwarded asked) ∨
      (¬IsPrefixed q.specifier ∧ p.resolution q = .tracked q (sourceId q)) := by
  obtain ⟨specifier, importer⟩ := q
  rw [resolution, hbuild, if_neg Bool.false_ne_true]
  cases hpackage : Text.dropStart? "/@id/".toList specifier.toList with
  | some rest =>
    have htext := Text.dropStart?_eq_some_iff.mp hpackage
    refine .inl ⟨.inl ⟨rest, htext.symm⟩, _, ?_, rfl⟩
    rw [← String.ofList_toList (s := specifier), htext]
    exact .package rest importer
  | none =>
    cases hfile : Text.dropStart? "/@fs/".toList specifier.toList with
    | some rest =>
      have htext := Text.dropStart?_eq_some_iff.mp hfile
      refine .inl ⟨.inr ⟨rest, htext.symm⟩, _, ?_, rfl⟩
      rw [← String.ofList_toList (s := specifier), htext]
      exact .file rest importer
    | none =>
      refine .inr ⟨?_, ?_⟩
      · rw [IsPrefixed, ← Text.isSome_dropStart?, ← Text.isSome_dropStart?, hpackage, hfile]
        simp
      · rw [hsources]
        rfl

section Resolve

variable {p : Plugin} {bundler : Query → Answer ε} {q asked : Query} {source : String}

theorem resolve_of_forwarded (h : p.resolution q = .forwarded asked) :
    p.resolve bundler q = (p, [asked], bundler asked) := by
  rw [resolve, h]

theorem resolve_of_error (h : p.resolution q = .tracked asked source) {e : ε}
    (he : bundler asked = .error e) : p.resolve bundler q = (p, [asked], .error e) := by
  rw [resolve, h]
  dsimp only
  rw [he]

theorem resolve_of_ok (h : p.resolution q = .tracked asked source) {resolved : Option String}
    (hresolved : bundler asked = .ok resolved) :
    p.resolve bundler q = (p.remember source resolved, [asked], .ok none) := by
  rw [resolve, h]
  dsimp only
  rw [hresolved]

end Resolve

/-- The plugin after a call. -/
def act (p : Plugin) (c : Call ε) : Plugin := (p.resolve c.bundler c.query).1

/-- The plugin after some calls. -/
def run (p : Plugin) (calls : List (Call ε)) : Plugin := calls.foldl act p

/-- **One call.** A plugin that remembers adds what the call finds, unless the module is there, and
nothing if it finds nothing. -/
theorem act_cases {p : Plugin} {m : OrderedMap String} (hbuild : p.isBuild = false)
    (hsources : p.sources = some m) (c : Call ε) :
    (∃ id source, c.Finds id source ∧
      p.act c = { p with sources := some (m.insertNew id source) }) ∨
    ((∀ id source, ¬c.Finds id source) ∧ p.act c = p) := by
  rcases exists_resolution hbuild hsources c.query with
    ⟨hprefixed, asked, -, hresolution⟩ | ⟨hplain, hresolution⟩
  · refine .inr ⟨fun id source h => h.plain hprefixed, ?_⟩
    rw [act, resolve_of_forwarded hresolution]
  · have hnothing : (∀ answer, c.bundler c.query ≠ .ok (some answer)) →
        ∀ id source, ¬c.Finds id source := by
      intro hnone id source hfinds
      obtain ⟨answer, hanswer, -⟩ := hfinds.resolved
      exact hnone answer hanswer
    cases hanswer : c.bundler c.query with
    | error e =>
      rw [act, resolve_of_error hresolution hanswer]
      exact .inr ⟨hnothing (by simp [hanswer]), rfl⟩
    | ok resolved =>
      rw [act, resolve_of_ok hresolution hanswer]
      cases resolved with
      | none => exact .inr ⟨hnothing (by simp [hanswer]), rfl⟩
      | some answer =>
        unfold remember
        dsimp only
        split
        next hsame =>
          refine .inr ⟨fun id source hfinds => hfinds.ne ?_, rfl⟩
          obtain ⟨answer', hanswer', rfl⟩ := hfinds.resolved
          cases hanswer.symm.trans hanswer'
          exact (isSource_iff.mp hfinds.isSource).symm.trans (beq_iff_eq.mp hsame).symm
        next hother =>
          refine .inl ⟨stripQuery answer, sourceId c.query, ⟨hplain, ⟨answer, hanswer, rfl⟩,
            isSource_iff.mpr rfl, fun heq => hother (beq_iff_eq.mpr heq.symm)⟩, ?_⟩
          rw [hsources]
          rfl

/-! ## Runs -/

/-- Some calls account for what a plugin on a development server remembers. -/
structure Tracks (p : Plugin) (calls : List (Call ε)) (m : OrderedMap String) : Prop where
  isBuild : p.isBuild = false
  sources : p.sources = some m
  remembers : Remembers calls m.entries

theorem Tracks.exists_serves {p : Plugin} {calls : List (Call ε)} {m : OrderedMap String}
    (h : Tracks p calls m) (c : Call ε) : ∃ asked, Serves p c asked := by
  rcases exists_resolution h.isBuild h.sources c.query with
    ⟨hprefixed, asked, hasks, hresolution⟩ | ⟨hplain, hresolution⟩
  · have hresolve : p.resolve c.bundler c.query = (p, [asked], c.bundler asked) :=
      resolve_of_forwarded hresolution
    refine ⟨asked, hasks, by rw [hresolve], fun e he => ?_, fun _ => ?_,
      fun hplain => absurd hprefixed hplain⟩
    · rw [hresolve]
      exact ⟨he, rfl⟩
    · rw [hresolve]
      exact ⟨rfl, rfl⟩
  · refine ⟨c.query, .itself _ hplain, ?_, fun e he => ?_, fun hprefixed => absurd hprefixed hplain,
      fun _ resolved hresolved => ?_⟩
    · cases hanswer : c.bundler c.query with
      | error e => rw [resolve_of_error hresolution hanswer]
      | ok resolved => rw [resolve_of_ok hresolution hanswer]
    · rw [resolve_of_error hresolution he]
      exact ⟨rfl, rfl⟩
    · rw [resolve_of_ok hresolution hresolved]

/-- **One call keeps the account,** and what is remembered stays. -/
theorem Tracks.act {p : Plugin} {calls : List (Call ε)} {m : OrderedMap String}
    (h : Tracks p calls m) (c : Call ε) :
    ∃ m', Tracks (p.act c) (calls ++ [c]) m' ∧ m.entries <+: m'.entries := by
  rcases act_cases h.isBuild h.sources c with ⟨id, source, hfinds, hact⟩ | ⟨hnothing, hact⟩
  · rw [hact]
    by_cases hknown : id ∈ m.keys
    · rw [OrderedMap.insertNew_of_mem hknown]
      refine ⟨m, ⟨h.isBuild, rfl, h.remembers.concat_known fun id' source' hfinds' => ?_⟩,
        List.prefix_rfl⟩
      rw [(hfinds'.source_eq hfinds).1]
      exact hknown
    · have hentries := OrderedMap.entries_insertNew_of_not_mem hknown source
      refine ⟨m.insertNew id source, ⟨h.isBuild, rfl, ?_⟩, ?_⟩
      · rw [hentries]
        exact h.remembers.concat_new hfinds hknown
      · rw [hentries]
        exact List.prefix_append _ _
  · rw [hact]
    refine ⟨m, ⟨h.isBuild, h.sources, h.remembers.concat_known fun id source hfinds => ?_⟩,
      List.prefix_rfl⟩
    exact absurd hfinds (hnothing id source)

theorem Tracks.run {p : Plugin} {calls : List (Call ε)} {m : OrderedMap String}
    (h : Tracks p calls m) (more : List (Call ε)) :
    ∃ m', Tracks (p.run more) (calls ++ more) m' ∧ m.entries <+: m'.entries := by
  induction more generalizing p calls m with
  | nil =>
    rw [List.append_nil]
    exact ⟨m, h, List.prefix_rfl⟩
  | cons c more ih =>
    obtain ⟨m', h', hprefix⟩ := h.act c
    obtain ⟨m'', h'', hprefix'⟩ := ih h'
    rw [List.append_assoc, List.singleton_append] at h''
    exact ⟨m'', h'', hprefix.trans hprefix'⟩

/-- A plugin of a configuration that asks for it starts with nothing that it remembers. -/
theorem tracks_ofConfig {c : Config} {p : Plugin} (h : ofConfig c = .ok p)
    (hserver : c.isClient = false) (hdevelopment : c.isBuild = false)
    (htrack : c.trackResolved = true) : Tracks p ([] : List (Call ε)) .empty := by
  obtain ⟨clientEntries, -, h⟩ := Boundary.exists_of_bind_eq_ok h
  obtain ⟨serverEntries, -, h⟩ := Boundary.exists_of_bind_eq_ok h
  cases h
  refine ⟨hdevelopment, ?_, .nil⟩
  rw [hserver, hdevelopment, htrack]
  rfl

/-- **Modules keep their first source.** After any calls on a plugin of a development server that
remembers, with any bundlers, a module has the source of the first call that found it, in the order
of these calls; it has no query and is not its own source; and what is remembered stays. Whatever is
called next asks the bundler once. The error of the bundler is passed on, and then nothing is
remembered. Its answer is passed on for a specifier with a prefix, for which nothing is remembered
either, and otherwise is left to the bundler. -/
theorem modules_keep_their_first_source {config : Config} {p : Plugin}
    (h : ofConfig config = .ok p) (hserver : config.isClient = false)
    (hdevelopment : config.isBuild = false) (htrack : config.trackResolved = true)
    (calls : List (Call ε)) :
    (∃ m, (p.run calls).sources = some m ∧ Remembers calls m.entries ∧
      (∀ e ∈ m.entries, '?' ∉ e.1.toList ∧ e.1 ≠ e.2) ∧
      ∀ more, ∃ m', (p.run (calls ++ more)).sources = some m' ∧ m.entries <+: m'.entries) ∧
    ∀ c : Call ε, ∃ asked, Serves (p.run calls) c asked := by
  obtain ⟨m, htracks, -⟩ := (tracks_ofConfig h hserver hdevelopment htrack).run calls
  rw [List.nil_append] at htracks
  refine ⟨⟨m, htracks.sources, htracks.remembers, ?_, fun more => ?_⟩, htracks.exists_serves⟩
  · rintro ⟨id, source⟩ hmem
    obtain ⟨i, hi⟩ := (htracks.remembers.mem id source).mp hmem
    obtain ⟨c, -, hfinds⟩ := hi.finds
    obtain ⟨answer, -, rfl⟩ := hfinds.resolved
    exact ⟨not_mem_stripQuery answer, hfinds.ne.symm⟩
  · obtain ⟨m', htracks', hprefix⟩ := htracks.run more
    refine ⟨m', ?_, hprefix⟩
    rw [run, List.foldl_append]
    exact htracks'.sources

/-- A bundler that has a file beside a page, and a package under two names. -/
def pageBundler (q : Query) : Answer String :=
  if q.specifier == "./counter.js" then .ok (some "/src/counter.js?v=1")
  else if q.specifier == "lib" then .ok (some "/node_modules/lib/index.js?v=1")
  else if q.specifier == "../lib.js" then .ok (some "/node_modules/lib/index.js")
  else if q.specifier == "broken" then .error "broken cannot be read"
  else .ok none

/-- What a page imports: the file under its own id, the package under both names, a module that
cannot be read, and one behind a prefix. -/
def pageImports : List (Call String) :=
  [⟨"./counter.js", some "/src/page.js?v=2"⟩, ⟨"lib", some "/src/page.js"⟩,
    ⟨"../lib.js", some "/src/page.js"⟩, ⟨"broken", none⟩, ⟨"/@id/lib", none⟩].map
      fun q => ⟨pageBundler, q⟩

/-- The package keeps its first name; its other name would be `/lib.js`. -/
theorem package_keeps_its_first_name :
    let config : Config := { trackResolved := true }
    config.isClient = false ∧ config.isBuild = false ∧ config.trackResolved = true ∧
    ∃ p, ofConfig config = .ok p ∧
      Remembers pageImports [("/node_modules/lib/index.js", "lib")] ∧
      (p.run pageImports).sources.map OrderedMap.entries =
        some [("/node_modules/lib/index.js", "lib")] ∧
      IsSource ⟨"../lib.js", some "/src/page.js"⟩ "/lib.js" ∧
      ∀ c : Call String, ∃ asked, Serves (p.run pageImports) c asked := by
  intro config
  refine ⟨rfl, rfl, rfl, _, rfl, ?_⟩
  obtain ⟨⟨m, hm, hremembers, -, -⟩, hserves⟩ :=
    @modules_keep_their_first_source String config _ rfl rfl rfl rfl pageImports
  have hentries : m.entries = [("/node_modules/lib/index.js", "lib")] := by
    have hsources := congrArg (Option.map OrderedMap.entries) hm
    exact (Option.some.inj hsources).symm
  refine ⟨hentries ▸ hremembers, ?_, isSource_iff.mpr (by decide), hserves⟩
  rw [hm, Option.map_some, hentries]

end ServerBoundary.Bundler.Plugin
