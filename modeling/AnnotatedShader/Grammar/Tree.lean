import AnnotatedShader.Token.Basic

set_option autoImplicit false

/-!
# Syntax trees

The tree of a statement holds the names and literals of its derivation as they are written.  What a
literal or an attribute means is decided afterwards, when the whole text has been read.

A `Phrase` is a tree with the tokens that it begins and ends with.  These tell the lines it covers,
which decide about the comments beside it.
-/

namespace AnnotatedShader.Grammar

/-- A written type. -/
structure TypeTree where
  name : String
  element : Option String
  size : Option Token
  deriving DecidableEq, Repr, Inhabited

/-- A written attribute: a name, or a name with an argument. -/
inductive AttributeTree where
  | bare (name : Token)
  | call (name argument : Token)
  deriving DecidableEq, Repr, Inhabited

/-- A written property. -/
structure PropertyTree where
  type : TypeTree
  name : Token
  attr : Option AttributeTree
  deriving DecidableEq, Repr, Inhabited

/-- A written state entry: a key, a second part of it behind a double colon, a value. -/
structure EntryTree where
  key : String
  subkey : Option String
  value : Token
  deriving DecidableEq, Repr, Inhabited

/-- What a written statement is. -/
inductive StatementTree where
  | use (file member : String) (rename : Option String)
  | buffer (name : String) (attr : Option AttributeTree) (fields : List PropertyTree)
  | constant (p : PropertyTree)
  | output (p : PropertyTree)
  | vertexFormat (name : String) (attr : Option AttributeTree) (fields : List PropertyTree)
  | pipeline (name : String) (entries : List EntryTree)
  | blendFunc (name : String) (entries : List EntryTree)
  deriving DecidableEq, Repr, Inhabited

/-- A written statement with the tokens that it consists of. -/
structure Phrase where
  tree : StatementTree
  tokens : List Token
  deriving DecidableEq, Repr, Inhabited

namespace Phrase

/-- Where a phrase starts. -/
def start (p : Phrase) : Position := (p.tokens.head?.map Token.position).getD .nowhere

/-- The line of the last token of a phrase. -/
def lastLine (p : Phrase) : Nat := (p.tokens.getLast?.map (·.position.line)).getD 0

/-- Whether a line meets the lines of a phrase. -/
def covers (p : Phrase) (line : Nat) : Bool := p.start.line ≤ line && line ≤ p.lastLine

end Phrase

end AnnotatedShader.Grammar
