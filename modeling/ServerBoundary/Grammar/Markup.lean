import ServerBoundary.Grammar.Expression

/-!
# Markup

Tags, attributes and what stands between tags. Inside a tag names may have hyphens, and between
tags everything up to a brace or a tag is text, so the token after each one is scanned the way its
place asks for. An element ends before its last `>`, because only the code around it knows how the
text after that is scanned.
-/

namespace ServerBoundary.Grammar

open Syntax Source

/-- Moves past a token inside a tag. -/
def skipInTag : Parser Unit := modify (Reader.advance Token.scanMarkupName)

/-- Moves past a token before the text between tags, where blanks and comments are text too. -/
def skipToText : Parser Unit := modify fun r =>
  { r with
    current := Lexeme.ofScan Token.scanMarkup false r.current.stop r.current.rest
    lastStop := r.current.stop }

/-- A node that ends with the token that is next. -/
def finishThrough (start : Nat) (kind : Kind) (children : List Node) : Parser Node := do
  return .mk kind ⟨start, (← get).current.stop⟩ children

/-- The text of the name that is next in a tag. -/
def tagWord : Parser String := do
  match ← peek with
  | .name text _ => skipInTag; return text
  | _ => refuse .identifierExpected

/-- The name of a tag. -/
def tagName : Parser Node := do
  let start ← position
  let first ← tagWord
  if ← isPunct ":" then
    skipInTag
    let second ← tagWord
    finish start (.markup (.namespacedName (first ++ ":" ++ second))) []
  else
    let name ← finish start (.ident first) []
    extend (fun left => do
      if ← isPunct "." then
        skipInTag
        let inner ← position
        let text ← tagWord
        let right ← finish inner (.word text) []
        return some (← finish start (.markup .memberName) [left, right])
      else return none) name

/-- How a tag's name is written. -/
def shownTag : Node → String
  | .mk (.ident name) _ _ => name
  | .mk (.word text) _ _ => text
  | .mk (.markup (.namespacedName text)) _ _ => text
  | .mk (.markup .memberName) _ [left, .mk (.word text) _ _] => shownTag left ++ "." ++ text
  | _ => ""

/-- An expression in braces, or nothing in braces. The closing brace is not passed. -/
def container (g : Productions) (inChildren : Bool) : Parser Node := do
  let start ← position
  let inside := (← get).current.stop
  skip
  if ← isPunct "\x7d" then
    let empty := Node.mk (.markup .emptyExpr) ⟨inside, ← position⟩ []
    finishThrough start (.markup .container) [empty]
  else if inChildren && (← isPunct "...") then
    skip
    let e ← g.expression
    unless ← isPunct "\x7d" do refuseFor "\x7d"
    finishThrough start (.markup .spreadChild) [e]
  else
    let e ← within ({ · with allowIn := true }) g.expression
    unless ← isPunct "\x7d" do refuseFor "\x7d"
    finishThrough start (.markup .container) [e]

/-- The value of an attribute, whose equals sign is next. -/
def attributeValue (g : Productions) : Parser Node := do
  modify (Reader.advance Token.scanMarkupString)
  let start ← position
  match ← peek with
  | .string value raw _ =>
    skipInTag
    finish start (.literal (.string value (some raw))) []
  | .punct "\x7b" =>
    let c ← container g false
    skipInTag
    return c
  | .punct "<" =>
    let e ← g.element
    skipInTag
    return e
  | _ => refuse .expressionExpected

/-- An attribute. -/
def tagAttribute (g : Productions) : Parser Node := do
  let start ← position
  if ← isPunct "\x7b" then
    skip
    expectPunct "..."
    let e ← g.assignment
    unless ← isPunct "\x7d" do refuseFor "\x7d"
    skipInTag
    finish start (.markup .spreadAttribute) [e]
  else
    let first ← tagWord
    let name ←
      if ← isPunct ":" then
        skipInTag
        let second ← tagWord
        finish start (.markup (.namespacedName (first ++ ":" ++ second))) []
      else finish start (.word first) []
    let value ← if ← isPunct "=" then attributeValue g else pure .absent
    finish start (.markup .attribute) [name, value]

/-- What stands between tags, up to a closing tag, whose name is next after it. -/
def tagChildren (g : Productions) : Nat → Parser (List Node)
  | 0 => refuse .tooDeep
  | n + 1 => do
    let start ← position
    match ← peek with
    | .markupText raw =>
      skipToText
      let t ← finish start (.markup (.text raw)) []
      return t :: (← tagChildren g n)
    | .punct "\x7b" =>
      let c ← container g true
      skipToText
      return c :: (← tagChildren g n)
    | .punct "<" =>
      let next := ((← get).advance Token.scanMarkupName).current
      if next.token == .punct "/" then
        skipInTag
        skipInTag
        return []
      else
        let e ← g.element
        skipToText
        return e :: (← tagChildren g n)
    | _ => refuse .unterminatedMarkup

/-- An element or a fragment, up to its last `>`. -/
def elementProduction (g : Productions) : Parser Node := do
  let start ← position
  unless ← isPunct "<" do refuseFor "<"
  skipInTag
  let limit := (← read).limit
  if ← isPunct ">" then
    skipToText
    let cs ← tagChildren g limit
    unless ← isPunct ">" do refuse .fragmentClosing
    finishThrough start (.markup .fragment) [.group cs]
  else
    let name ← tagName
    let typeArgs ← optionalTypeArguments g
    if typeArgs.isPresent then rescan Token.scanMarkupName
    let attrs ← manyUntil (return (← isPunct "/") || (← isPunct ">")) (tagAttribute g)
    if ← isPunct "/" then
      skipInTag
      unless ← isPunct ">" do refuseFor ">"
      finishThrough start (.markup .element) [name, .group attrs, typeArgs, .group [], .absent]
    else
      skipToText
      let cs ← tagChildren g limit
      if ← isPunct ">" then refuse (.markupClosing (shownTag name))
      let closing ← tagName
      unless ← isPunct ">" do refuseFor ">"
      if shownTag closing != shownTag name then note (.markupClosing (shownTag name))
      finishThrough start (.markup .element) [name, .group attrs, typeArgs, .group cs, closing]

end ServerBoundary.Grammar
