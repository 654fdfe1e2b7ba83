import AccessRules.Rule.SyntaxError
import AccessRules.Text.Blank
import AccessRules.Text.Letter

/-!
# Scanning a text into tokens

`Token.scan` reads a text from left to right. Between tokens it skips blanks; at any other
character it takes the longest token that starts there. A number is a row of digits, with a
fraction if a digit follows the point; a string is all between two equal quotes, and has no
escapes; a name starts with a letter, `_` or `@` and goes on with letters, numerals, `_` and `.`.
The last token is always the end of the text.
-/

namespace AccessRules.Rule

open Number Text

/-- Whether a name may start with the character. -/
def startsName (c : Char) : Bool :=
  isLetter c || c = '_' || c = '@'

/-- Whether a name may go on with the character. -/
def continuesName (c : Char) : Bool :=
  isLetter c || isNumeral c || c = '_' || c = '.'

/-- What stands at a place of a text: a token and how many characters it takes behind its first,
or a fault and how far behind that character it lies. -/
abbrev Lexeme := Except (Nat × SyntaxFault) (TokenKind × Nat)

namespace Lexeme

/-- The number that starts with the digit `c`. -/
def number (c : Char) (cs : List Char) : Lexeme :=
  let (more, rest) := spanDigits cs
  let whole := c :: more
  let (fractional, _) := match rest with
    | '.' :: rest => spanDigits rest
    | _ => ([], [])
  if fractional.isEmpty then
    let n := ofDigits whole
    if n < Nat.pow 2 63 then .ok (.integer (Int64.ofNat n), more.length)
    else .error (0, .integerOutOfRange (String.ofList whole))
  else
    let d : Decimal := ⟨ofDigits (whole ++ fractional), -fractional.length⟩
    .ok (.float (d.toBinary64 false), more.length + 1 + fractional.length)

/-- The string that starts with the given quote. -/
def string (quote : Char) (cs : List Char) : Lexeme :=
  let body := cs.takeWhile (· ≠ quote)
  if body.length < cs.length then .ok (.string (String.ofList body), body.length + 1)
  else .error (0, .unterminatedString)

/-- The name or reserved word that starts with `c`. -/
def name (c : Char) (cs : List Char) : Lexeme :=
  let more := cs.takeWhile continuesName
  let word := String.ofList (c :: more)
  if (cs.drop more.length).head? = some '@' then .error (more.length + 1, .misplacedMacroSign)
  else if word = "@" then .error (0, .missingMacroName)
  else .ok ((TokenKind.ofWord? word).getD (.name word), more.length)

/-- A sign that must be followed by an equals sign. -/
def beforeEquals (sign : Char) (op : Comparison) (cs : List Char) : Lexeme :=
  if cs.head? = some '=' then .ok (.comparison op, 1) else .error (0, .loneSign sign)

/-- A sign that has another meaning when an equals sign follows. -/
def perhapsEquals (without followed : Comparison) (cs : List Char) : Lexeme :=
  if cs.head? = some '=' then .ok (.comparison followed, 1) else .ok (.comparison without, 0)

/-- The token that starts with the character `c`, which is no blank. -/
def read (c : Char) (cs : List Char) : Lexeme :=
  if isDigit c then number c cs
  else if c = '"' || c = '\'' then string c cs
  else if startsName c then name c cs
  else if c = '(' then .ok (.leftParen, 0)
  else if c = ')' then .ok (.rightParen, 0)
  else if c = '[' then .ok (.leftBracket, 0)
  else if c = ']' then .ok (.rightBracket, 0)
  else if c = ',' then .ok (.comma, 0)
  else if c = '=' then beforeEquals c .eq cs
  else if c = '!' then beforeEquals c .ne cs
  else if c = '<' then perhapsEquals .lt .le cs
  else if c = '>' then perhapsEquals .gt .ge cs
  else .error (0, .unexpectedCharacter c)

end Lexeme

namespace Token

/-- Scans the rest of a text from a position on. The next `taken` characters belong to the token
found last; `found` holds the tokens so far, the last one first. -/
def scanFrom (position taken : Nat) (found : List Token) :
    List Char → Except SyntaxError (List Token)
  | [] => .ok (⟨.eof, position⟩ :: found).reverse
  | c :: cs =>
    match taken with
    | taken + 1 => scanFrom (position + 1) taken found cs
    | 0 =>
      if isBlank c then scanFrom (position + 1) 0 found cs
      else match Lexeme.read c cs with
        | .error (ahead, fault) => .error ⟨position + ahead, fault⟩
        | .ok (kind, more) => scanFrom (position + 1) more (⟨kind, position⟩ :: found) cs

/-- The tokens of a text. -/
def scan (text : String) : Except SyntaxError (List Token) :=
  scanFrom 0 0 [] text.toList

end Token

end AccessRules.Rule
