import SimilarityStore.Numeric.NumberStyle
import SimilarityStore.Text.Description
import SimilarityStore.Text.Quoted

/-
  Tokens of filter texts, their structural descriptions, and the errors that reading a filter text
  can end with.
-/

namespace SimilarityStore.Predicate

open SimilarityStore.Numeric SimilarityStore.Text

/-- The operators of filter texts. -/
inductive Operator where
  | equal
  | notEqual
  | greater
  | atLeast
  | less
  | atMost
  | and
  | or
  | not
deriving DecidableEq, Repr

/-- How an operator is written. -/
def Operator.text : Operator → String
  | equal => "=="
  | notEqual => "!="
  | greater => ">"
  | atLeast => ">="
  | less => "<"
  | atMost => "<="
  | and => "&&"
  | or => "||"
  | not => "!"

/-- A token of a filter text. -/
inductive Token where
  /-- A point and a name: the attribute of that name. -/
  | selector (name : String)
  /-- A string in quotes of either kind. -/
  | text (s : String)
  | number (x : Float)
  /-- A name without a point. -/
  | word (w : String)
  | operator (o : Operator)
  | openParen
  | closeParen
  | openBracket
  | closeBracket
  | comma
deriving DecidableEq

namespace Token

/-- The token's structural description. -/
def describe : Token → String
  | selector name => describeCase "Selector" [quoted name]
  | text s => describeCase "Str" [quoted s]
  | number x => describeCase "Num" [NumberStyle.descriptive.spell x]
  | word w => describeCase "Word" [quoted w]
  | operator o => describeCase "Op" [quoted o.text]
  | openParen => "LParen"
  | closeParen => "RParen"
  | openBracket => "LBracket"
  | closeBracket => "RBracket"
  | comma => "Comma"

end Token

/-- Why a text is no filter text. -/
inductive SyntaxError where
  /-- No closing quote for the quote at a position. -/
  | openString (position : Nat)
  /-- A character at a position that starts no token. -/
  | badCharacter (c : Char) (position : Nat)
  /-- Number characters that are no numeral. -/
  | badNumber (text : String)
  /-- A token at a position, behind a complete expression. -/
  | leftOver (token : Token) (position : Nat)
  /-- Something else where a closing parenthesis has to stand. -/
  | unclosedParen (found : Option Token)
  /-- Something else where a list has to go on or end. -/
  | unclosedList (found : Option Token)
  /-- A word where an operand has to stand. -/
  | badWord (w : String)
  /-- Something else where an operand has to stand. -/
  | noOperand (found : Option Token)
deriving DecidableEq

/-- The wording of a syntax error. -/
def SyntaxError.message : SyntaxError → String
  | openString position => "unterminated string at position " ++ decimalText position
  | badCharacter c position =>
    "unexpected character " ++ quotedChar c ++ " at position " ++ decimalText position
  | badNumber text => "invalid number " ++ quoted text
  | leftOver token position =>
    "unexpected token " ++ token.describe ++ " at position " ++ decimalText position
  | unclosedParen found =>
    "expected " ++ Token.closeParen.describe ++ ", found " ++ describeOption Token.describe found
  | unclosedList found => "expected ',' or ']', found " ++ describeOption Token.describe found
  | badWord w => "unexpected word " ++ quoted w
  | noOperand found => "unexpected token " ++ describeOption Token.describe found

end SimilarityStore.Predicate
