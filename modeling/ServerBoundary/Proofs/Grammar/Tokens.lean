import Mathlib.Data.List.Infix
import ServerBoundary.Grammar.Reader

/-!
# Tokens and the text they are read from

Every scanner leaves an end of the text it was given. So whatever a reader comes to is an end of its
source, and what a string is written as stands in the source.

> `Quoted`: if a string is written without a backslash, what it stands for is in the source.

> `Scans`: what a scanner finds at an end of the source, and what it leaves.
-/

namespace ServerBoundary.Source

open Text

/-! ## Strings -/

/-- If a string is written without a backslash, what it stands for is a part of a text. -/
def Quoted (src : List Char) (value raw : String) : Prop :=
  '\x5c' ∉ raw.toList → value.toList <:+: src

/-- A part that was split off, after some characters that were put back in front of it. -/
theorem exists_of_map_append (front : List Char) {split : Option (List Char × List Char)}
    {t r : List Char} (h : split.map (fun (t, r) => (front ++ t, r)) = some (t, r)) :
    ∃ t', split = some (t', r) ∧ t = front ++ t' := by
  obtain ⟨⟨t', r'⟩, hsplit, heq⟩ := Option.map_eq_some_iff.mp h
  cases heq
  exact ⟨t', hsplit, rfl⟩

/-- A string is its text, its quote, and the rest. -/
theorem splitString_eq {quote : Char} {cs t r : List Char}
    (h : splitString quote cs = some (t, r)) : cs = t ++ quote :: r := by
  fun_induction splitString quote cs generalizing t with
  | case1 => cases h
  | case2 rest ih =>
    obtain ⟨t', hsplit, rfl⟩ := exists_of_map_append ['\x5c', '\r', '\n'] h
    rw [ih hsplit]
    rfl
  | case3 c rest _ ih =>
    obtain ⟨t', hsplit, rfl⟩ := exists_of_map_append ['\x5c', c] h
    rw [ih hsplit]
    rfl
  | case4 c rest _ _ hquote =>
    cases h
    rw [beq_iff_eq.mp hquote]
    rfl
  | case5 => cases h
  | case6 c rest _ _ _ _ ih =>
    obtain ⟨t', hsplit, rfl⟩ := exists_of_map_append [c] h
    rw [ih hsplit]
    rfl

theorem charsOfUnits_cons {u : Nat} (h : ¬(0xD800 ≤ u ∧ u < 0xE000)) (us : List Nat) :
    charsOfUnits (u :: us) = Char.ofNat u :: charsOfUnits us := by
  cases us with
  | nil => simp only [charsOfUnits, Bool.and_eq_true, decide_eq_true_eq, if_neg h]
  | cons v us =>
    have hpair : ¬(((0xD800 ≤ u ∧ u < 0xDC00) ∧ 0xDC00 ≤ v) ∧ v < 0xE000) := by omega
    simp only [charsOfUnits, Bool.and_eq_true, decide_eq_true_eq, if_neg h, if_neg hpair]

theorem charsOfUnits_pair {u v : Nat} (hu : 0xD800 ≤ u ∧ u < 0xDC00) (hv : 0xDC00 ≤ v ∧ v < 0xE000)
    (us : List Nat) : charsOfUnits (u :: v :: us) =
      Char.ofNat (0x10000 + (u - 0xD800) * 0x400 + (v - 0xDC00)) :: charsOfUnits us := by
  rw [charsOfUnits, if_pos (by simp; omega)]

/-- The units of a character stand for it. -/
theorem charsOfUnits_unitsOfCode (c : Char) (us : List Nat) :
    charsOfUnits (unitsOfCode c.toNat ++ us) = c :: charsOfUnits us := by
  have hvalid : c.toNat < 0xD800 ∨ 0xDFFF < c.toNat ∧ c.toNat < 0x110000 := c.valid
  unfold unitsOfCode
  split
  next => rw [List.singleton_append, charsOfUnits_cons (by omega), Char.ofNat_toNat]
  next =>
    have hcode : 0x10000 + (0xD800 + (c.toNat - 0x10000) / 0x400 - 0xD800) * 0x400 +
        (0xDC00 + (c.toNat - 0x10000) % 0x400 - 0xDC00) = c.toNat := by omega
    rw [List.cons_append, List.singleton_append, charsOfUnits_pair (by omega) (by omega), hcode,
      Char.ofNat_toNat]

/-- A string without a backslash stands for what it is written as. -/
theorem toList_cook {inside : List Char} (h : '\x5c' ∉ inside) : (cook inside).toList = inside := by
  have hunits : charsOfUnits (cookUnits .outside inside) = inside := by
    induction inside with
    | nil => rfl
    | cons c rest ih =>
      rw [List.mem_cons, not_or] at h
      rw [cookUnits, if_neg (by simpa using Ne.symm h.1), charsOfUnits_unitsOfCode, ih h.2]
  rw [cook, hunits, String.toList_ofList]

/-! ## What splitting leaves -/

theorem span_suffix (p : Char → Bool) (cs : List Char) : (cs.span p).2 <:+ cs := by
  rw [List.span_eq_takeWhile_dropWhile]
  exact List.dropWhile_suffix p

theorem suffix_of_firstOf {texts : List String} {cs r : List Char} {t : String}
    (h : firstOf texts cs = some (t, r)) : r <:+ cs := by
  obtain ⟨text, -, htext⟩ := List.exists_of_findSome?_eq_some h
  obtain ⟨rest, hdrop, heq⟩ := Option.map_eq_some_iff.mp htext
  cases heq
  exact ⟨t.toList, (dropStart?_eq_some_iff.mp hdrop).symm⟩

theorem splitName_suffix (code : Option Nat) (cs : List Char) :
    (splitName code cs).2.2 <:+ cs := by
  fun_induction splitName code cs with
  | case1 code c rest _ t e r hsplit ih =>
    rw [hsplit] at ih
    exact ih.trans (List.suffix_cons c rest)
  | case2 code c rest _ ih => exact ih.trans (List.suffix_cons c rest)
  | case3 rest ih => exact ih.trans (List.suffix_append ['\x5c', 'u', '{'] rest)
  | case4 a b c d rest _ t e r hsplit ih =>
    rw [hsplit] at ih
    exact ih.trans (List.suffix_append ['\x5c', 'u', a, b, c, d] rest)
  | case5 c rest _ _ _ t e r hsplit ih =>
    rw [hsplit] at ih
    exact ih.trans (List.suffix_cons c rest)
  | case6 => exact List.suffix_rfl
  | case7 => exact List.suffix_rfl

theorem splitDigits_suffix (isDigit : Char → Bool) (cs : List Char) :
    (splitDigits isDigit cs).2 <:+ cs :=
  span_suffix _ cs

theorem splitExponent_suffix (cs : List Char) : (splitExponent cs).2 <:+ cs := by
  unfold splitExponent
  split
  next e s d rest =>
    split
    next => exact (splitDigits_suffix _ rest).trans (List.suffix_append [e, s, d] rest)
    next =>
      split
      next => exact (splitDigits_suffix _ (d :: rest)).trans (List.suffix_append [e, s] (d :: rest))
      next => exact List.suffix_rfl
  next e d =>
    split
    next => exact List.nil_suffix
    next => exact List.suffix_rfl
  next => exact List.suffix_rfl

theorem splitRegexBody_suffix {inClass : Bool} {cs t r : List Char}
    (h : splitRegexBody inClass cs = some (t, r)) : r <:+ cs := by
  fun_induction splitRegexBody inClass cs generalizing t with
  | case1 => cases h
  | case2 => cases h
  | case3 inClass c rest _ ih =>
    obtain ⟨t', hsplit, -⟩ := exists_of_map_append ['\x5c', c] h
    exact (ih hsplit).trans (List.suffix_append ['\x5c', c] rest)
  | case4 => cases h
  | case5 =>
    cases h
    exact List.suffix_cons _ _
  | case6 inClass c rest _ _ _ ih =>
    obtain ⟨t', hsplit, -⟩ := exists_of_map_append [c] h
    exact (ih hsplit).trans (List.suffix_cons c rest)

theorem skip_suffix (before : Token) (s : GapState) (cs : List Char) (g : Gap) :
    (Gap.skip before s cs g).2 <:+ cs := by
  fun_induction Gap.skip before s cs g with
  | case1 rest g ih => exact ih.trans (List.suffix_append ['/', '/'] rest)
  | case2 rest g ih => exact ih.trans (List.suffix_append ['/', '*'] rest)
  | case3 c rest g _ _ _ ih => exact ih.trans (List.suffix_cons c rest)
  | case4 => exact List.suffix_rfl
  | case5 => exact List.suffix_rfl
  | case6 text forNext c rest g _ ih => exact ih.trans (List.suffix_cons c rest)
  | case7 text forNext c rest g _ ih => exact ih.trans (List.suffix_cons c rest)
  | case8 => exact List.suffix_rfl
  | case9 text newlineBefore rest g _ _ ih => exact ih.trans (List.suffix_append ['*', '/'] rest)
  | case10 text newlineBefore c rest g _ ih => exact ih.trans (List.suffix_cons c rest)
  | case11 => exact List.suffix_rfl

theorem splitChunk_suffix {cs t r : List Char} {more : Bool}
    (h : splitChunk cs = some (t, more, r)) : r <:+ cs := by
  -- What is put back in front of the text does not change the rest.
  have rest_of_map : ∀ {split : Option (List Char × Bool × List Char)}
      {f : List Char × Bool × List Char → List Char × Bool × List Char} {t : List Char},
      split.map f = some (t, more, r) → (∀ s, (f s).2 = s.2) →
        ∃ t', split = some (t', more, r) := by
    intro split f t h hf
    obtain ⟨s, hsplit, heq⟩ := Option.map_eq_some_iff.mp h
    have hrest : (more, r) = s.2 := by rw [← hf s, heq]
    exact ⟨s.1, by rw [hsplit, hrest]⟩
  fun_induction splitChunk cs generalizing t with
  | case1 => cases h
  | case2 rest =>
    cases h
    exact List.suffix_cons _ _
  | case3 rest =>
    cases h
    exact List.suffix_append ['$', '{'] r
  | case4 rest ih =>
    obtain ⟨t', hsplit⟩ := rest_of_map h fun _ => rfl
    exact (ih hsplit).trans (List.suffix_append ['\x5c', '\r', '\n'] rest)
  | case5 c rest _ ih =>
    obtain ⟨t', hsplit⟩ := rest_of_map h fun _ => rfl
    exact (ih hsplit).trans (List.suffix_append ['\x5c', c] rest)
  | case6 rest ih =>
    obtain ⟨t', hsplit⟩ := rest_of_map h fun _ => rfl
    exact (ih hsplit).trans (List.suffix_append ['\r', '\n'] rest)
  | case7 rest _ ih =>
    obtain ⟨t', hsplit⟩ := rest_of_map h fun _ => rfl
    exact (ih hsplit).trans (List.suffix_cons _ rest)
  | case8 c rest _ _ _ _ _ _ ih =>
    obtain ⟨t', hsplit⟩ := rest_of_map h fun _ => rfl
    exact (ih hsplit).trans (List.suffix_cons c rest)

theorem decimal_suffix {withSuffix : List Char → List Char → List Char × Bool × List Char}
    (hsuffix : ∀ t r, (withSuffix t r).2.2 <:+ r) (cs : List Char) :
    (splitNumber.decimal withSuffix cs).2.2 <:+ cs := by
  have hwhole := splitDigits_suffix Char.isDigit cs
  unfold splitNumber.decimal
  generalize splitDigits Char.isDigit cs = split at hwhole ⊢
  obtain ⟨whole, r⟩ := split
  dsimp only at hwhole ⊢
  split
  next r' =>
    have hfraction := splitDigits_suffix Char.isDigit r'
    exact (((splitExponent_suffix _).trans hfraction).trans (List.suffix_cons '.' r')).trans hwhole
  next =>
    split
    next => exact (hsuffix whole r).trans hwhole
    next => exact (splitExponent_suffix r).trans hwhole

theorem splitNumber_suffix (cs : List Char) : (splitNumber cs).2.2 <:+ cs := by
  unfold splitNumber
  extract_lets withSuffix radix
  have hsuffix : ∀ t r, (withSuffix t r).2.2 <:+ r := by
    intro t r
    dsimp only [withSuffix]
    split
    next r' => exact List.suffix_cons 'n' r'
    next => exact List.suffix_rfl
  have hradix : ∀ z x isDigit rest, (radix z x isDigit rest).2.2 <:+ z :: x :: rest :=
    fun z x isDigit rest => ((hsuffix _ _).trans (splitDigits_suffix isDigit rest)).trans
      (List.suffix_append [z, x] rest)
  split
  next z x rest =>
    split
    next => exact hradix z x isHexDigit rest
    next =>
      split
      next => exact hradix z x Char.isDigit rest
      next => exact decimal_suffix hsuffix (z :: x :: rest)
  next => exact decimal_suffix hsuffix cs

/-! ## Scanners -/

/-- How a token is looked for: as one of the code, where a name is an identifier, or inside a tag,
where it may have hyphens. -/
inductive Mode where
  | code
  | tag

/-- What is known of a token that was found in a text. -/
def Fits (src : List Char) (m : Mode) : Token → Prop
  | .string value raw _ => Quoted src value raw
  | .name text _ => m = .code → isNameText text.toList = true
  | _ => True

/-- What is known of a token that was found in a text, and of what follows it. -/
structure Found (src : List Char) (m : Mode) (found : Token × List Char) : Prop where
  rest : found.2 <:+ src
  token : Fits src m found.1

/-- A scanner finds tokens of a text at every end of it. -/
def Scans (src : List Char) (m : Mode) (scan : List Char → Token × List Char) : Prop :=
  ∀ ⦃cs⦄, cs <:+ src → Found src m (scan cs)

variable {src : List Char} {m : Mode}

/-- What was found as a token of the code is a token of any kind. -/
theorem Fits.weaken {t : Token} (h : Fits src .code t) : Fits src m t := by
  cases t with
  | name text escaped => exact fun _ => h rfl
  | string value raw octal => exact h
  | _ => trivial

/-- Any token will do inside a tag. -/
theorem Fits.inTag {t : Token} (h : Fits src m t) : Fits src .tag t := by
  cases t with
  | name text escaped => exact nofun
  | string value raw octal => exact h
  | _ => trivial

theorem Scans.weaken {scan : List Char → Token × List Char} (h : Scans src .code scan) :
    Scans src m scan :=
  fun _ hcs => ⟨(h hcs).rest, (h hcs).token.weaken⟩

theorem Found.ite {c : Prop} [Decidable c] {found found' : Token × List Char}
    (h : Found src m found) (h' : Found src m found') :
    Found src m (if c then found else found') := by
  split
  next => exact h
  next => exact h'

theorem scans_scanNumber : Scans src m Token.scanNumber := by
  intro cs hcs
  have hrest := (splitNumber_suffix cs).trans hcs
  unfold Token.scanNumber
  generalize splitNumber cs = split at hrest ⊢
  obtain ⟨raw, big, rest⟩ := split
  refine .ite ⟨hrest, trivial⟩ ⟨hrest, ?_⟩
  cases big <;> trivial

/-- What a string stands for is what stands between its quotes if no character is escaped. -/
theorem quoted_of_infix {quote : Char} {inside : List Char} (h : inside <:+: src) :
    Quoted src (cook inside) (String.ofList (quote :: inside ++ [quote])) := by
  intro hplain
  rw [String.toList_ofList, List.cons_append, List.mem_cons, List.mem_append, not_or, not_or]
    at hplain
  rw [toList_cook hplain.2.1]
  exact h

theorem scans_scanString (quote : Char) : Scans src m (Token.scanString quote) := by
  intro cs hcs
  unfold Token.scanString
  split
  next => exact ⟨List.nil_suffix, trivial⟩
  next inside rest hsplit =>
    have heq := splitString_eq hsplit
    have hinside : inside <:+: cs := ⟨[], quote :: rest, heq.symm⟩
    have hrest : rest <:+ cs := ⟨inside ++ [quote], by rw [heq, List.append_assoc]; rfl⟩
    exact ⟨hrest.trans hcs, quoted_of_infix (hinside.trans hcs.isInfix)⟩

theorem scans_scanPunct : Scans src m Token.scanPunct := by
  intro cs hcs
  have hdrop := (List.drop_suffix 1 cs).trans hcs
  unfold Token.scanPunct
  split
  next p rest hfirst =>
    split
    next => exact ⟨hdrop, trivial⟩
    next => exact ⟨(suffix_of_firstOf hfirst).trans hcs, trivial⟩
  next => exact ⟨hdrop, trivial⟩

theorem scans_scan : Scans src .code Token.scan := by
  intro cs hcs
  unfold Token.scan
  split
  next => exact ⟨hcs, trivial⟩
  next c rest =>
    have hrest := (List.suffix_cons c rest).trans hcs
    split
    next =>
      have hname := (splitName_suffix none (c :: rest)).trans hcs
      generalize splitName none (c :: rest) = split at hname ⊢
      obtain ⟨t, e, r⟩ := split
      dsimp only at hname ⊢
      split
      next => exact ⟨hrest, trivial⟩
      next =>
        split
        next htext => exact ⟨hname, fun _ => by rw [String.toList_ofList]; exact htext⟩
        next => exact ⟨hname, trivial⟩
    next =>
      split
      next => exact scans_scanNumber hcs
      next =>
        split
        next => exact scans_scanString c hrest
        next =>
          split
          next =>
            have hname := (splitName_suffix none rest).trans hrest
            generalize splitName none rest = split at hname ⊢
            obtain ⟨t, e, r⟩ := split
            dsimp only at hname ⊢
            split
            next => exact ⟨hrest, trivial⟩
            next => exact ⟨hname, trivial⟩
          next => exact scans_scanPunct hcs

theorem scans_scanRegex : Scans src m Token.scanRegex := by
  intro cs hcs
  unfold Token.scanRegex
  split
  next => exact ⟨List.nil_suffix, trivial⟩
  next body rest hsplit =>
    have hrest := (splitRegexBody_suffix hsplit).trans ((List.drop_suffix 1 cs).trans hcs)
    exact ⟨(span_suffix isNamePart rest).trans hrest, trivial⟩

theorem scans_scanMarkup : Scans src m Token.scanMarkup := by
  intro cs hcs
  have hrest := (span_suffix (fun c => c != '{' && c != '<') cs).trans hcs
  unfold Token.scanMarkup
  generalize cs.span (fun c => c != '{' && c != '<') = split at hrest ⊢
  obtain ⟨t, r⟩ := split
  dsimp only at hrest ⊢
  split
  next => exact ⟨List.nil_suffix, trivial⟩
  next =>
    split
    next => exact scans_scan.weaken hcs
    next => exact ⟨hrest, trivial⟩

theorem scans_scanMarkupName : Scans src .tag Token.scanMarkupName := by
  intro cs hcs
  unfold Token.scanMarkupName
  split
  next => exact ⟨hcs, trivial⟩
  next c rest =>
    split
    next => exact ⟨(span_suffix _ _).trans hcs, nofun⟩
    next => exact scans_scan.weaken hcs

theorem scans_scanMarkupString : Scans src m Token.scanMarkupString := by
  intro cs hcs
  unfold Token.scanMarkupString
  split
  next => exact ⟨hcs, trivial⟩
  next c rest =>
    have hrest := (List.suffix_cons c rest).trans hcs
    refine .ite ?_ (scans_scan.weaken hcs)
    rw [List.span_eq_takeWhile_dropWhile]
    have heq := List.takeWhile_append_dropWhile (p := (· != c)) (l := rest)
    generalize rest.takeWhile (· != c) = t at heq ⊢
    generalize rest.dropWhile (· != c) = r at heq ⊢
    dsimp only
    split
    next => exact ⟨List.nil_suffix, trivial⟩
    next d r' =>
      refine ⟨(show r' <:+ rest from ⟨t ++ [d], by rw [← heq, List.append_assoc]; rfl⟩).trans hrest,
        fun _ => ?_⟩
      rw [String.toList_ofList]
      exact (show t <:+: rest from ⟨[], d :: r', heq⟩).trans hrest.isInfix

theorem scans_splitGreater : Scans src m (fun cs => match splitGreater cs with
    | some (op, rest) => (.punct op, rest)
    | none => (.eof, cs)) := by
  intro cs hcs
  dsimp only
  split
  next hfirst => exact ⟨(suffix_of_firstOf hfirst).trans hcs, trivial⟩
  next => exact ⟨hcs, trivial⟩

/-! ## Lexemes and readers -/

/-- What is known of a lexeme of a text. -/
structure Lexeme.In (src : List Char) (m : Mode) (l : Lexeme) : Prop where
  here : l.here <:+ src
  rest : l.rest <:+ src
  token : Fits src m l.token

theorem Lexeme.In.weaken {l : Lexeme} (h : l.In src .code) : l.In src m :=
  ⟨h.here, h.rest, h.token.weaken⟩

theorem Lexeme.In.inTag {l : Lexeme} (h : l.In src m) : l.In src .tag :=
  ⟨h.here, h.rest, h.token.inTag⟩

variable {scan : List Char → Token × List Char}

theorem Scans.ofScan (h : Scans src m scan) {cs : List Char} (hcs : cs <:+ src) (newline : Bool)
    (start : Nat) : (Lexeme.ofScan scan newline start cs).In src m :=
  ⟨hcs, (h hcs).rest, (h hcs).token⟩

open Grammar

theorem Scans.lexemeAfter (h : Scans src m scan) {cs : List Char} (hcs : cs <:+ src)
    (before : Token) (stop : Nat) (fresh : Bool) (comments : Comments) :
    (Reader.lexemeAfter scan before stop fresh cs comments).1.In src m := by
  have hrest := (skip_suffix before .blank cs ⟨stop, fresh, [], [], false⟩).trans hcs
  unfold Reader.lexemeAfter
  generalize Gap.skip before .blank cs ⟨stop, fresh, [], [], false⟩ = split at hrest ⊢
  obtain ⟨gap, rest⟩ := split
  dsimp only at hrest ⊢
  have hnext := h.ofScan hrest gap.newline gap.position
  split
  next => exact ⟨List.nil_suffix, List.nil_suffix, trivial⟩
  next =>
    dsimp only
    -- An end that is moved to the start of the text is the same lexeme at another place.
    split
    next => exact ⟨hnext.here, hnext.rest, hnext.token⟩
    next => exact hnext

/-- The next token of an advanced reader is one that its scanner finds in the text. -/
theorem Scans.advance (h : Scans src m scan) {r : Reader} (hrest : r.current.rest <:+ src) :
    (r.advance scan).current.In src m :=
  h.lexemeAfter hrest _ _ _ _

theorem in_ofText {cs : List Char} (hcs : cs <:+ src) (position : Nat) :
    (Reader.ofText position cs).current.In src .code :=
  scans_scan.lexemeAfter hcs _ _ _ _

end ServerBoundary.Source
