import AccessRules.Rule.Token.Basic

/-!
# Syntax errors

A text that is no rule fails at one place, the first at which no rule could go on, with one fault.
`SyntaxFault.message` has the wording of each.
-/

namespace AccessRules.Rule

/-- How deep a rule may nest. -/
def maxDepth : Nat := 256

/-- What could have stood in the place of a token. -/
inductive Expected
  /-- An operand of an operator, or a whole condition. -/
  | operand
  /-- An item of a list. -/
  | listItem
  /-- One certain token. -/
  | token (kind : TokenKind)
deriving DecidableEq

/-- The wording of what was expected. -/
def Expected.text : Expected → String
  | .operand => "expected a value, identifier or '('"
  | .listItem => "list elements must be literals"
  | .token kind => String.join ["expected '", kind.text, "'"]

/-- Why a text is no rule. -/
inductive SyntaxFault
  /-- No token starts with the character. -/
  | unexpectedCharacter (c : Char)
  /-- A sign that only stands before an equals sign stands alone. -/
  | loneSign (sign : Char)
  /-- A whole number does not fit 64 bits. -/
  | integerOutOfRange (digits : String)
  /-- A string has no closing quote. -/
  | unterminatedString
  /-- A name holds the macro sign behind its first character. -/
  | misplacedMacroSign
  /-- The macro sign stands without a name. -/
  | missingMacroName
  /-- Another token was expected. -/
  | unexpectedToken (found : TokenKind) (expected : Expected)
  /-- A token stands behind a whole rule. -/
  | tokenAfterEnd (found : TokenKind)
  /-- A comparison is compared without parentheses. -/
  | chainedComparison (found : TokenKind)
  /-- The rule nests deeper than it may. -/
  | nestedTooDeeply
deriving DecidableEq

/-- The wording of a fault. -/
def SyntaxFault.message : SyntaxFault → String
  | .unexpectedCharacter c => String.join ["unexpected character '", c.toString, "'"]
  | .loneSign sign =>
    String.join ["expected '", sign.toString, "=', found single '", sign.toString, "'"]
  | .integerOutOfRange digits => String.join ["integer literal '", digits, "' out of range"]
  | .unterminatedString => "unterminated string literal"
  | .misplacedMacroSign => "'@' is only allowed at the start of an identifier"
  | .missingMacroName => "expected a macro name after '@'"
  | .unexpectedToken .eof expected => String.join ["unexpected end of input; ", expected.text]
  | .unexpectedToken found expected =>
    String.join ["unexpected token '", found.text, "'; ", expected.text]
  | .tokenAfterEnd found =>
    String.join ["unexpected token '", found.text, "' after end of expression"]
  | .chainedComparison found =>
    String.join ["comparison operators cannot be chained; wrap one side in parentheses before '",
      found.text, "'"]
  | .nestedTooDeeply =>
    String.join ["expression nested too deeply (limit ", toString maxDepth, ")"]

/-- A fault and the place in the text where it lies. -/
structure SyntaxError where
  position : Nat
  fault : SyntaxFault
deriving DecidableEq

end AccessRules.Rule
