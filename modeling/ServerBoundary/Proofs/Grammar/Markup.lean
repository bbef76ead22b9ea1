import ServerBoundary.Grammar.Markup
import ServerBoundary.Proofs.Grammar.Expression

/-!
# Markup that was read

An element starts at a token of any kind and ends at one inside a tag. Between tags the reader is at
a token of the code.
-/

namespace ServerBoundary.Grammar

open Syntax Source

variable {src : List Char} {m : Mode} {g : Productions} [Sound src g]

instance : Moves src m skipInTag .tag where
  yields := .modify (fun _ => rfl) fun _ hat => scans_scanMarkupName.advance hat.rest

instance : Moves src m skipToText .code where
  yields := .modify (fun _ => rfl) fun _ hat => scans_scanMarkup.ofScan hat.rest _ _

theorem yields_finishThrough {start : Nat} {kind : Kind} {children : List Node}
    {post : Node → Prop} (h : ∀ sp, post (.mk kind sp children)) :
    Yields src m (finishThrough start kind children) m post :=
  .pass fun _ => .pure (h _)

/-! ## Names of tags -/

instance : Moves src m tagWord .tag where
  yields := by
    refine .pass fun t => ?_
    split
    next => exact .pass fun _ => .pure trivial
    next => exact .refuse

instance : Gives src .tag tagName .tag (ReadFrom src) where
  yields := by
    refine .pass fun start => .pass fun first => .pass fun _ => .ite ?_ ?_
    · exact .pass fun _ => .pass fun second => .finish fun sp => by simp
    · refine .take fun name => .mono (.extend (fun left => ?_) name) fun n hn ⟨sp, heq⟩ => hn ?_
      · refine .pass fun _ => .ite ?_ (.pure fun _ => nofun)
        refine .pass fun _ => .pass fun inner => .pass fun text => .take fun right => ?_
        exact .finishSome fun sp ⟨sp', heq⟩ hleft => by simp [heq, hleft]
      · simp [heq]

/-! ## Attributes -/

instance {inChildren : Bool} : Gives src m (container g inChildren) .code (ReadFrom src) where
  yields := by
    refine .pass fun start => .pass fun r => .pass fun _ => .pass fun _ => .ite ?_ ?_
    · exact .pass fun stop => yields_finishThrough fun sp => by simp
    refine .pass fun _ => .ite ?_ ?_
    · refine .pass fun _ => .take fun e => .pass fun _ => .passElse fun _ => ?_
      exact yields_finishThrough fun sp he => by simp [he]
    · refine .take fun e => .pass fun _ => .passElse fun _ => ?_
      exact yields_finishThrough fun sp he => by simp [he]

instance : Gives src .tag (attributeValue g) .tag (ReadFrom src) where
  yields := by
    -- A value is looked for as a token of the code, but a string in it has no escapes.
    have hvalue : ∀ r, At src .tag r → At src .code (r.advance Token.scanMarkupString) :=
      fun _ hat => scans_scanMarkupString.advance hat.rest
    refine .bind (.modify (fun _ => rfl) hvalue) fun _ => .pass fun start => .take fun t => ?_
    split
    next value raw octal =>
      refine .pass fun _ => .finish fun sp hquoted _ => ?_
      exact (readFrom_iff rfl).mpr ⟨⟨raw, rfl, hquoted⟩, allReadFrom_nil⟩
    next => exact .take fun c => .pass fun _ => .pure fun hc _ _ => hc
    next => exact .take fun e => .pass fun _ => .pure fun he _ _ => he
    next => exact .refuse

instance : Gives src .tag (tagAttribute g) .tag (ReadFrom src) where
  yields := by
    refine .pass fun start => .pass fun _ => .ite ?_ ?_
    · refine .pass fun _ => .pass fun _ => .take fun e => .pass fun _ => .passElse fun _ => ?_
      exact .pass fun _ => .finish fun sp he => by simp [he]
    · refine .pass fun first => .pass fun _ => ?_
      extract_lets jp
      have hjp : ∀ name, Yields src .tag (jp name) .tag fun n =>
          ReadFrom src name → ReadFrom src n :=
        fun name => .pass fun _ => .takeEither fun value => .finish fun sp hvalue hname => by
          simp [hvalue, hname]
      clear_value jp
      refine .ite (.pass fun _ => .pass fun second => .take fun name => ?_) (.take fun name => ?_)
      · exact (hjp name).mono fun n hn ⟨sp, heq⟩ => hn (by simp [heq])
      · exact (hjp name).mono fun n hn ⟨sp, heq⟩ => hn (by simp [heq])

/-! ## Elements -/

theorem yields_tagChildren (n : Nat) :
    Yields src .code (tagChildren g n) .tag (AllReadFrom src) := by
  induction n with
  | zero => exact .refuse
  | succ n ih =>
    refine .pass fun start => .pass fun t => ?_
    split
    next =>
      refine .pass fun _ => .take fun t => .bind ih fun ts => .pure fun hts ⟨sp, heq⟩ => ?_
      simp [heq, hts]
    next =>
      exact .take fun c => .pass fun _ => .bind ih fun cs => .pure fun hcs hc => by simp [hc, hcs]
    next =>
      refine .pass fun r => .ite ?_ ?_
      · exact .pass fun _ => .pass fun _ => .pure allReadFrom_nil
      · exact .take fun e => .pass fun _ => .bind ih fun es => .pure fun hes he => by simp [he, hes]
    next => exact .refuse

instance : Gives src .tag (optionalTypeArguments g) .tag (ReadFrom src) where
  yields := .pass fun _ => .pass fun _ => .ite (.weaken .last) .last

instance : Moves src m (rescan Token.scanMarkupName) .tag := moves_rescan scans_scanMarkupName

instance : Gives src .tag (elementProduction g) .tag (ReadFrom src) where
  yields := by
    refine .pass fun start => .pass fun _ => .passElse fun _ => .pass fun _ => .pass fun c => ?_
    refine .pass fun _ => .ite (.pass fun _ => .bind (yields_tagChildren _) fun cs => ?_) ?_
    · refine .pass fun _ => .passElse fun _ => yields_finishThrough fun sp hcs => ?_
      simp [hcs]
    refine .take fun name => .take fun typeArgs => .passIf fun _ => .take fun attrs => ?_
    refine .pass fun _ => .ite ?_ ?_
    · refine .pass fun _ => .pass fun _ => .passElse fun _ => yields_finishThrough ?_
      intro sp hattrs htypes hname
      simp [hattrs, htypes, hname]
    · refine .pass fun _ => .bind (yields_tagChildren _) fun cs => .pass fun _ => ?_
      refine .passIf fun _ => .take fun closing => .pass fun _ => .passElse fun _ => ?_
      refine .passIf fun _ => yields_finishThrough fun sp hclosing hcs hattrs htypes hname => ?_
      simp [hclosing, hcs, hattrs, htypes, hname]

end ServerBoundary.Grammar
