/-!
# What can be wrong with a source

Each cause is a constructor and its wording is in `message`. Some faults do not end the reading of
a module: they are noted and reading goes on, so one source can have several.
-/

namespace ServerBoundary.Source

/-- A fault of a source text. -/
inductive SyntaxError where
  | expressionExpected
  | identifierExpected
  /-- An expression statement goes on without a separator. -/
  | statementEndExpected
  /-- A statement or declaration is not ended, or misses a part after which it could end. -/
  | semicolonExpected
  | expected (wanted found : String)
  | uninitializedConst
  | uninitializedPattern
  | returnOutsideFunction
  | unterminatedString
  | unterminatedTemplate
  | unterminatedComment
  | unterminatedRegex
  | unterminatedMarkup
  | lineBreakAfterThrow
  | breakOutside
  | continueOutside
  | duplicateLabel (name : String)
  | withStatement
  | deleteOfIdentifier
  | legacyOctal
  | initializedProperty
  | unaryBeforePower
  | newTargetOutside
  | reservedExport (name : String)
  | reservedName (name : String)
  | bindingOfArguments
  | invalidTarget
  | nameAfterNumber
  /-- An escape in a name stands for a character that a name cannot have there. -/
  | nameCharacter
  | restNotLast
  | mixedCoalescing
  | markupClosing (name : String)
  | fragmentClosing
  | unexpectedCharacter (c : Char)
  | invalidEscape
  | typeExpected
  /-- The text is nested more deeply than the reader was told to follow. -/
  | tooDeep
deriving DecidableEq, Repr

/-- The wording of a fault. -/
def SyntaxError.message : SyntaxError → String
  | expressionExpected => "Expression expected"
  | identifierExpected => "Expected ident"
  | statementEndExpected => "Expected ';', '\x7d' or <eof>"
  | semicolonExpected => "Expected a semicolon"
  | expected wanted found => "Expected '" ++ wanted ++ "', got '" ++ found ++ "'"
  | uninitializedConst => "'const' declarations must be initialized"
  | uninitializedPattern => "Destructuring bindings require initializers"
  | returnOutsideFunction => "Return statement is not allowed here"
  | unterminatedString => "Unterminated string constant"
  | unterminatedTemplate => "Unterminated template"
  | unterminatedComment => "Unterminated block comment"
  | unterminatedRegex => "Unterminated regexp literal"
  | unterminatedMarkup => "Unterminated JSX contents"
  | lineBreakAfterThrow => "LineBreak cannot follow 'throw'"
  | breakOutside =>
    "A 'break' statement can only be used within an enclosing iteration or switch statement"
  | continueOutside =>
    "A 'continue' statement can only jump to a label of an enclosing iteration statement"
  | duplicateLabel name => "Label " ++ name ++ " is already declared"
  | withStatement => "With statement are not allowed in strict mode"
  | deleteOfIdentifier => "'delete' cannot be called on an identifier in strict mode"
  | legacyOctal => "Legacy octal escape is not permitted in strict mode"
  | initializedProperty => "assignment property is invalid syntax"
  | unaryBeforePower => "'**' cannot be applied to unary/await expression."
  | newTargetOutside =>
    "'new.target' is only allowed in the body of a function declaration, function expression, " ++
    "or class."
  | reservedExport name => "`" ++ name ++ "` cannot be used without `from` clause"
  | reservedName name => "`" ++ name ++ "` cannot be used as an identifier in strict mode"
  | bindingOfArguments =>
    "'eval' and 'arguments' cannot be used as a binding identifier in strict mode"
  | invalidTarget => "Cannot assign to this"
  | nameAfterNumber => "Identifier cannot follow number"
  | nameCharacter => "Invalid character in identifier"
  | restNotLast => "Rest element must be final element"
  | mixedCoalescing =>
    "Nullish coalescing operator(??) requires parens when mixing with logical operators"
  | markupClosing name => "Expected corresponding JSX closing tag for <" ++ name ++ ">"
  | fragmentClosing => "Expected corresponding closing tag for JSX fragment"
  | unexpectedCharacter c => "Unexpected character '" ++ c.toString ++ "'"
  | invalidEscape => "Invalid unicode escape"
  | typeExpected => "Expected type"
  | tooDeep => "Expression expected"

end ServerBoundary.Source
