import AnnotatedShader.Position
import AnnotatedShader.Text.Lower

set_option autoImplicit false

/-!
# Tokens of the annotation language

A token belongs to a terminal of the grammar: a reserved word, a punctuation mark, an identifier, a
number, a comment or a blank.  Each terminal has a symbol, by which the grammar names it, and a
description, by which messages name it.

Reserved words are an enumeration with their spellings, and a spelling belongs to one word
(`Reserved.ofText?_text`).
-/

namespace AnnotatedShader

/-- The reserved words. -/
inductive Reserved where
  | use_ | as_ | const_ | struct_ | output_ | vformat_ | pipeline_ | blendfunc_ | true_ | false_
  deriving DecidableEq, Repr, Inhabited

namespace Reserved

/-- Every reserved word. -/
def all : List Reserved :=
  [.use_, .as_, .const_, .struct_, .output_, .vformat_, .pipeline_, .blendfunc_, .true_, .false_]

/-- How a reserved word is written. -/
def text : Reserved → String
  | .use_ => "use"
  | .as_ => "as"
  | .const_ => "const"
  | .struct_ => "struct"
  | .output_ => "output"
  | .vformat_ => "vformat"
  | .pipeline_ => "pipeline"
  | .blendfunc_ => "blendfunc"
  | .true_ => "true"
  | .false_ => "false"

/-- The reserved word that a run of name characters is, if it is one. -/
def ofText? (word : String) : Option Reserved := all.find? (·.text == word)

theorem ofText?_text (w : Reserved) : ofText? w.text = some w := by cases w <;> decide

theorem text_of_ofText? {word : String} {w : Reserved} (h : ofText? word = some w) :
    w.text = word := by
  simpa using List.find?_some h

end Reserved

/-- The punctuation marks. -/
inductive Mark where
  | semicolon | leftBrace | rightBrace | equals | doubleColon | colon
  | leftBracket | rightBracket | leftParen | rightParen
  deriving DecidableEq, Repr, Inhabited

namespace Mark

/-- Every mark, a longer one before those it begins with. -/
def all : List Mark :=
  [.semicolon, .leftBrace, .rightBrace, .equals, .doubleColon, .colon,
    .leftBracket, .rightBracket, .leftParen, .rightParen]

/-- How a mark is written. -/
def text : Mark → String
  | .semicolon => ";"
  | .leftBrace => "\x7b"
  | .rightBrace => "\x7d"
  | .equals => "="
  | .doubleColon => "::"
  | .colon => ":"
  | .leftBracket => "["
  | .rightBracket => "]"
  | .leftParen => "("
  | .rightParen => ")"

end Mark

/-- What a token is called in a listing. -/
inductive TokenKind where
  | keyword | identifier | literal | punctuation | comment
  deriving DecidableEq, Repr, Inhabited

/-- The name of a kind. -/
def TokenKind.text : TokenKind → String
  | .keyword => "keyword"
  | .identifier => "identifier"
  | .literal => "literal"
  | .punctuation => "punctuation"
  | .comment => "comment"

/-- The terminals of the grammar, with the end of the input. -/
inductive Terminal where
  | word (w : Reserved)
  | mark (m : Mark)
  | identifier
  | integer
  | floating
  | comment
  | blank
  | endOfInput
  deriving DecidableEq, Repr, Inhabited

namespace Terminal

/-- Every terminal. -/
def all : List Terminal :=
  Reserved.all.map .word ++ Mark.all.map .mark ++
    [.identifier, .integer, .floating, .comment, .blank, .endOfInput]

/-- The symbol of a terminal in the grammar. -/
def symbol : Terminal → String
  | .word .use_ => "_USE"
  | .word .as_ => "_AS"
  | .word .const_ => "_CONST"
  | .word .struct_ => "_STRUCT"
  | .word .output_ => "_OUTPUT"
  | .word .vformat_ => "_VFORMAT"
  | .word .pipeline_ => "_PIPELINE"
  | .word .blendfunc_ => "_BLENDFUNC"
  | .word .true_ => "TRUE"
  | .word .false_ => "FALSE"
  | .mark .semicolon => "_SEMI"
  | .mark .leftBrace => "_LBRACE"
  | .mark .rightBrace => "_RBRACE"
  | .mark .equals => "_EQ"
  | .mark .doubleColon => "_DCOLON"
  | .mark .colon => "_COLON"
  | .mark .leftBracket => "_LBRACK"
  | .mark .rightBracket => "_RBRACK"
  | .mark .leftParen => "_LPAR"
  | .mark .rightParen => "_RPAR"
  | .identifier => "IDENT"
  | .integer => "INT"
  | .floating => "FLOAT"
  | .comment => "COMMENT"
  | .blank => "WS"
  | .endOfInput => "$END"

/-- How messages name a terminal: a fixed text between quotes, another one by a noun. -/
def describe : Terminal → String
  | .word w => "'" ++ w.text ++ "'"
  | .mark m => "'" ++ m.text ++ "'"
  | .identifier => "identifier"
  | .integer => "integer"
  | .floating => "float"
  | .comment => "comment"
  | .blank => "ws"
  | .endOfInput => "end of input"

/-- The kind of the tokens of a terminal. -/
def kind : Terminal → TokenKind
  | .word .true_ | .word .false_ | .integer | .floating => .literal
  | .word _ => .keyword
  | .identifier => .identifier
  | .comment => .comment
  | .mark _ | .blank | .endOfInput => .punctuation

/-- Whether one text only belongs to the terminal. -/
def isFixed : Terminal → Bool
  | .word _ | .mark _ => true
  | _ => false

/-- Names a terminal by its symbol.  A symbol that the grammar does not have is shown in lower case
without its leading underscores. -/
def describeSymbol (name : String) : String :=
  match all.find? (·.symbol == name) with
  | some t => t.describe
  | none => Text.lower (String.ofList (name.toList.dropWhile (· == '_')))

end Terminal

/-- A token: its terminal, its text and where it starts. -/
structure Token where
  terminal : Terminal
  text : String
  position : Position
  deriving DecidableEq, Repr, Inhabited

namespace Token

/-- A token in a listing. -/
def render (t : Token) : String := t.terminal.kind.text ++ "(" ++ t.text ++ ")"

/-- A token in a message: a fixed text between quotes, another one behind its noun. -/
def describe (t : Token) : String :=
  if t.terminal.isFixed then t.terminal.describe
  else t.terminal.describe ++ " '" ++ t.text ++ "'"

end Token

end AnnotatedShader
