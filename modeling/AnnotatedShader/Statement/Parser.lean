import AnnotatedShader.Failure
import AnnotatedShader.Grammar.Descent
import AnnotatedShader.Statement.Basic
import AnnotatedShader.Text.Blank
import AnnotatedShader.Token.Lexer

set_option autoImplicit false

/-!
# Statements from text

The tokens of a text are read as phrases, and each phrase becomes a statement: literals get their
values, spellings of attributes their meanings.  The first literal or spelling without one is
reported, but only when the whole text is well formed.  A comment becomes a statement of its own,
unless its line meets a line of another statement.

The grammar does not see comments, so they are taken out before the text is read and put back by
their positions.  A character that no terminal matches is reported when the reader gets there, and
not before: what is wrong with the tokens in front of it comes first.
-/

namespace AnnotatedShader

open Grammar

namespace Statement

/-! ## Meaning of phrases -/

/-- The meaning of a written type.  An array size is no negative number. -/
def typeOfTree (file : String) (t : TypeTree) : Except Failure TypeRef :=
  match t.size with
  | none => .ok ⟨t.name, t.element, none⟩
  | some size =>
    match Number.readLiteral? size.text with
    | none => .error .numeralUnread
    | some n =>
      if n < 0 then
        .error (.diagnosed
          ⟨file, size.position, .unexpectedToken [.arraySize] (.text (toString n))⟩)
      else .ok ⟨t.name, t.element, some n.toNat⟩

/-- The meaning of a written attribute.  Only `Order` takes an argument. -/
def attributeOfTree (file : String) : AttributeTree → Except Failure Attribute
  | .bare name =>
    match Attribute.ofName name.text with
    | .ok a => .ok a
    | .error _ => .error .numeralUnread
  | .call name argument =>
    let refused : Except Failure Attribute := .error (.diagnosed
      ⟨file, name.position, .unexpectedToken [.orderName] (.text name.text)⟩)
    match Number.readLiteral? argument.text with
    | none => refused
    | some n =>
      match Attribute.ofCall name.text n with
      | .ok a => .ok a
      | .error _ => refused

/-- The meaning of an attribute that may be missing. -/
def attributeOfTree? (file : String) :
    Option AttributeTree → Except Failure (Option Attribute)
  | none => .ok none
  | some t => (attributeOfTree file t).map some

/-- The meaning of a written property with its index in a struct. -/
def propertyOfTree (file : String) (index : Nat) (t : PropertyTree) :
    Except Failure Property := do
  let type ← typeOfTree file t.type
  let attr ← attributeOfTree? file t.attr
  .ok ⟨type, t.name.text, attr, index, t.name.position⟩

/-- The meaning of written properties, numbered from an index on. -/
def propertiesOfTrees (file : String) : Nat → List PropertyTree → Except Failure (List Property)
  | _, [] => .ok []
  | index, t :: ts => do
    let p ← propertyOfTree file index t
    let ps ← propertiesOfTrees file (index + 1) ts
    .ok (p :: ps)

/-- The value of a written literal or name. -/
def valueOfToken (t : Token) : Except Failure StateValue :=
  match t.terminal with
  | .floating => .ok (.float (Number.Binary64.ofText t.text.toList))
  | .integer =>
    match Number.readLiteral? t.text with
    | some n => .ok (.int n)
    | none => .error .numeralUnread
  | .word .true_ => .ok (.bool true)
  | .word .false_ => .ok (.bool false)
  | _ => .ok (.name t.text)

/-- The key of a written entry, with its second part. -/
def keyOfTree (t : EntryTree) : String := t.key ++ (t.subkey.map ("::" ++ ·)).getD ""

/-- The meaning of written state entries. -/
def entriesOfTrees : List EntryTree → Except Failure (List StateEntry)
  | [] => .ok []
  | t :: ts => do
    let v ← valueOfToken t.value
    let es ← entriesOfTrees ts
    .ok (⟨keyOfTree t, v⟩ :: es)

/-- The meaning of a written statement. -/
def bodyOfTree (file : String) : StatementTree → Except Failure StatementBody
  | .use target member rename => .ok (.use ⟨target, member, rename⟩)
  | .buffer name attr fields => do
    let attr ← attributeOfTree? file attr
    let fields ← propertiesOfTrees file 0 fields
    .ok (.declare (.buffer name attr fields))
  | .constant p => do
    let p ← propertyOfTree file 0 p
    .ok (.declare (.constant p))
  | .output p => do
    let p ← propertyOfTree file 0 p
    .ok (.declare (.output p))
  | .vertexFormat name attr fields => do
    let attr ← attributeOfTree? file attr
    let fields ← propertiesOfTrees file 0 fields
    .ok (.declare (.vertexFormat name attr fields))
  | .pipeline name entries => do
    let entries ← entriesOfTrees entries
    .ok (.declare (.pipeline name entries))
  | .blendFunc name entries => do
    let entries ← entriesOfTrees entries
    .ok (.declare (.blendFunc name entries))

/-- The meanings of phrases. -/
def ofPhrases (file : String) : List Phrase → Except Failure (List Statement)
  | [] => .ok []
  | p :: ps => do
    let body ← bodyOfTree file p.tree
    let others ← ofPhrases file ps
    .ok (⟨p.start, body⟩ :: others)

/-! ## Comments -/

/-- The text of a comment, without its mark. -/
def commentText (t : Token) : String := String.ofList (Text.trim (t.text.toList.drop 1))

/-- The comments that stand apart from all phrases. -/
def commentsApart (phrases : List Phrase) (tokens : List Token) : List Statement :=
  (tokens.filter fun t =>
    t.terminal == .comment && !phrases.any (·.covers t.position.line)).map
      fun t => ⟨t.position, .comment (commentText t)⟩

/-- Puts statements into the order of their positions. -/
def inOrder (statements : List Statement) : List Statement :=
  statements.mergeSort fun a b => a.position.le b.position

/-! ## Whole texts -/

/-- The tokens that the grammar sees. -/
def grammarTokens (tokens : List Token) : List Token := tokens.filter (·.terminal != .comment)

/-- The diagnostic for a reader that is stuck.  Behind the last token the report names the place of
that token. -/
def stuckDiagnostic (file : String) (tokens : List Token) (s : Stuck) : Diagnostic :=
  let expected := s.expected.map .terminal
  match s.rest with
  | t :: _ => ⟨file, t.position, .unexpectedToken expected (.token t)⟩
  | [] =>
    ⟨file, (tokens.getLast?.map Token.position).getD .start,
      .unexpectedToken expected .endOfInput⟩

/-- The phrases of a text.  A character that stops the scan counts when the reader gets there. -/
def phrasesOfScan (file : String) (s : Lexer.Scan) : Except Diagnostic (List Phrase) :=
  let tokens := grammarTokens s.tokens
  match phrases tokens, s.stop with
  | .error ⟨expected, t :: rest⟩, _ => .error (stuckDiagnostic file tokens ⟨expected, t :: rest⟩)
  | _, some stop => .error (Lexer.stopDiagnostic file stop)
  | .error stuck, none => .error (stuckDiagnostic file tokens stuck)
  | .ok ps, none => .ok ps

/-- The statements of a text. -/
def parse (file text : String) : Except Failure (List Statement) := do
  let s := Lexer.scan text
  match phrasesOfScan file s with
  | .error d => .error (.diagnosed d)
  | .ok ps =>
    let statements ← ofPhrases file ps
    .ok (inOrder (statements ++ commentsApart ps s.tokens))

end Statement

end AnnotatedShader
