import AnnotatedShader.Grammar.Tree

set_option autoImplicit false

/-!
# Reading statements

The grammar is read from the left with one token of lookahead.  A reader takes the tokens in front
of it and returns a tree with the tokens behind it, or the terminals it could have gone on with.

What a reader reports as expected is decided in two steps.  Behind a complete part it first asks for
any terminal that can follow such a part anywhere in the language, and only then for those that can
follow it here; the first question that fails gives the report.

There is one reader for each kind of part, from types and attributes to whole texts, and lists of
parts are read by recursion on the tokens.  The questions of the first kind are the lists
`boundary`, `afterBlock` and `afterProperty`: they merge what follows a part in different places, as
a table of states does.
-/

namespace AnnotatedShader.Grammar

/-- Why a reader stops: what it expected, and the tokens it has not read. -/
structure Stuck where
  expected : List Terminal
  rest : List Token
  deriving DecidableEq, Repr, Inhabited

/-- A reader of a tree at the front of some tokens. -/
abbrev Reader (α : Type) := List Token → Except Stuck (α × List Token)

/-! ## Terminals -/

/-- The terminal in front. -/
def front : List Token → Terminal
  | [] => .endOfInput
  | t :: _ => t.terminal

/-- Asks for one of several terminals and reads nothing. -/
def ask (expected : List Terminal) (ts : List Token) : Except Stuck Unit :=
  if front ts ∈ expected then .ok () else .error ⟨expected, ts⟩

/-- Reads a token of a terminal. -/
def need (terminal : Terminal) : Reader Token
  | t :: rest => if t.terminal = terminal then .ok (t, rest) else .error ⟨[terminal], t :: rest⟩
  | [] => .error ⟨[terminal], []⟩

/-- Reads a punctuation mark. -/
def needMark (m : Mark) : Reader Token := need (.mark m)

/-- The terminals that start a statement. -/
def statementStarts : List Terminal :=
  [.word .use_, .word .const_, .word .output_, .word .vformat_, .word .pipeline_,
    .word .blendfunc_]

/-- What can stand between two statements. -/
def boundary : List Terminal := statementStarts ++ [.endOfInput]

/-- What can follow the closing brace of a block. -/
def afterBlock : List Terminal := .mark .semicolon :: boundary

/-- What can follow a property, in a block or as a statement. -/
def afterProperty : List Terminal := .identifier :: .mark .rightBrace :: boundary

/-- The terminals that are values of state entries. -/
def valueTerminals : List Terminal :=
  [.floating, .integer, .word .true_, .word .false_, .identifier]

/-! ## Parts of declarations -/

/-- Reads the element type behind a colon, if there is a colon. -/
def elementPart (ts : List Token) : Except Stuck (Option String × List Token) :=
  if front ts = .mark .colon then do
    let (_, ts) ← needMark .colon ts
    let (element, ts) ← need .identifier ts
    ask [.identifier, .mark .leftBracket] ts
    .ok (some element.text, ts)
  else .ok (none, ts)

/-- Reads an array size in brackets, if there is a bracket. -/
def sizePart (ts : List Token) : Except Stuck (Option Token × List Token) :=
  if front ts = .mark .leftBracket then do
    let (_, ts) ← needMark .leftBracket ts
    let (size, ts) ← need .integer ts
    let (_, ts) ← needMark .rightBracket ts
    .ok (some size, ts)
  else .ok (none, ts)

/-- Reads a type. -/
def typeTree : Reader TypeTree := fun ts => do
  let (name, ts) ← need .identifier ts
  ask [.mark .colon, .identifier, .mark .leftBracket] ts
  let (element, ts) ← elementPart ts
  let (size, ts) ← sizePart ts
  .ok (⟨name.text, element, size⟩, ts)

/-- Reads an attribute behind a colon, if there is a colon. -/
def attributePart (ts : List Token) : Except Stuck (Option AttributeTree × List Token) :=
  if front ts = .mark .colon then do
    let (_, ts) ← needMark .colon ts
    let (name, ts) ← need .identifier ts
    ask [.mark .leftParen, .mark .semicolon, .mark .leftBrace] ts
    if front ts = .mark .leftParen then do
      let (_, ts) ← needMark .leftParen ts
      let (argument, ts) ← need .integer ts
      let (_, ts) ← needMark .rightParen ts
      ask [.mark .semicolon, .mark .leftBrace] ts
      .ok (some (.call name argument), ts)
    else .ok (some (.bare name), ts)
  else .ok (none, ts)

/-- Reads a property up to its semicolon. -/
def property : Reader PropertyTree := fun ts => do
  let (type, ts) ← typeTree ts
  let (name, ts) ← need .identifier ts
  ask [.mark .colon, .mark .semicolon] ts
  let (attr, ts) ← attributePart ts
  let (_, ts) ← needMark .semicolon ts
  ask afterProperty ts
  .ok (⟨type, name, attr⟩, ts)

/-- Reads properties up to a closing brace; `fuel` bounds their number. -/
def moreProperties : Nat → Reader (List PropertyTree)
  | 0, ts => .ok ([], ts)
  | fuel + 1, ts => do
    ask [.identifier, .mark .rightBrace] ts
    if front ts = .identifier then do
      let (p, ts) ← property ts
      let (ps, ts) ← moreProperties fuel ts
      .ok (p :: ps, ts)
    else .ok ([], ts)

/-- Reads the semicolon behind a block, if there is one. -/
def optionalSemicolon (ts : List Token) : Except Stuck (List Token) := do
  ask afterBlock ts
  if front ts = .mark .semicolon then do
    let (_, ts) ← needMark .semicolon ts
    .ok ts
  else .ok ts

/-- Reads the name, the attribute and the members of a struct. -/
def structPart (ts : List Token) :
    Except Stuck ((String × Option AttributeTree × List PropertyTree) × List Token) := do
  let (_, ts) ← need (.word .struct_) ts
  let (name, ts) ← need .identifier ts
  ask [.mark .colon, .mark .leftBrace] ts
  let (attr, ts) ← attributePart ts
  let (_, ts) ← needMark .leftBrace ts
  ask [.identifier] ts
  let (fields, ts) ← moreProperties ts.length ts
  let (_, ts) ← needMark .rightBrace ts
  let ts ← optionalSemicolon ts
  .ok ((name.text, attr, fields), ts)

/-- Reads the second part of a key, if there is a double colon. -/
def subkeyPart (ts : List Token) : Except Stuck (Option String × List Token) :=
  if front ts = .mark .doubleColon then do
    let (_, ts) ← needMark .doubleColon ts
    let (subkey, ts) ← need .identifier ts
    .ok (some subkey.text, ts)
  else .ok (none, ts)

/-- Reads the value of a state entry. -/
def value : Reader Token
  | t :: rest =>
    if t.terminal ∈ valueTerminals then .ok (t, rest) else .error ⟨valueTerminals, t :: rest⟩
  | [] => .error ⟨valueTerminals, []⟩

/-- Reads a state entry. -/
def entry : Reader EntryTree := fun ts => do
  let (key, ts) ← need .identifier ts
  ask [.mark .doubleColon, .mark .equals] ts
  let (subkey, ts) ← subkeyPart ts
  let (_, ts) ← needMark .equals ts
  let (v, ts) ← value ts
  let (_, ts) ← needMark .semicolon ts
  .ok (⟨key.text, subkey, v⟩, ts)

/-- Reads state entries up to a closing brace; `fuel` bounds their number. -/
def moreEntries : Nat → Reader (List EntryTree)
  | 0, ts => .ok ([], ts)
  | fuel + 1, ts => do
    ask [.identifier, .mark .rightBrace] ts
    if front ts = .identifier then do
      let (e, ts) ← entry ts
      let (es, ts) ← moreEntries fuel ts
      .ok (e :: es, ts)
    else .ok ([], ts)

/-- Reads the block of state entries of a pipeline or blend function. -/
def stateBlock : Reader (List EntryTree) := fun ts => do
  let (_, ts) ← needMark .leftBrace ts
  let (entries, ts) ← moreEntries (ts.length + 1) ts
  let (_, ts) ← needMark .rightBrace ts
  let ts ← optionalSemicolon ts
  .ok (entries, ts)

/-! ## Statements -/

/-- Reads the new name of an import, if there is one. -/
def renamePart (ts : List Token) : Except Stuck (Option String × List Token) :=
  if front ts = .word .as_ then do
    let (_, ts) ← need (.word .as_) ts
    let (name, ts) ← need .identifier ts
    .ok (some name.text, ts)
  else .ok (none, ts)

/-- Reads an import behind its reserved word. -/
def useStatement : Reader StatementTree := fun ts => do
  let (file, ts) ← need .identifier ts
  let (_, ts) ← needMark .doubleColon ts
  let (member, ts) ← need .identifier ts
  ask [.word .as_, .mark .semicolon] ts
  let (rename, ts) ← renamePart ts
  let (_, ts) ← needMark .semicolon ts
  .ok (.use file.text member.text rename, ts)

/-- Reads a constant or a constant struct behind its reserved word. -/
def constStatement : Reader StatementTree := fun ts => do
  ask [.identifier, .word .struct_] ts
  if front ts = .word .struct_ then do
    let ((name, attr, fields), ts) ← structPart ts
    .ok (.buffer name attr fields, ts)
  else do
    let (p, ts) ← property ts
    .ok (.constant p, ts)

/-- Reads an output behind its reserved word. -/
def outputStatement : Reader StatementTree := fun ts => do
  let (p, ts) ← property ts
  .ok (.output p, ts)

/-- Reads a vertex format behind its reserved word. -/
def vertexFormatStatement : Reader StatementTree := fun ts => do
  let ((name, attr, fields), ts) ← structPart ts
  .ok (.vertexFormat name attr fields, ts)

/-- Reads a pipeline behind its reserved word. -/
def pipelineStatement : Reader StatementTree := fun ts => do
  let (name, ts) ← need .identifier ts
  let (entries, ts) ← stateBlock ts
  .ok (.pipeline name.text entries, ts)

/-- Reads a blend function behind its reserved word. -/
def blendFuncStatement : Reader StatementTree := fun ts => do
  let (name, ts) ← need .identifier ts
  ask [.mark .semicolon, .mark .leftBrace] ts
  if front ts = .mark .semicolon then do
    let (_, ts) ← needMark .semicolon ts
    .ok (.blendFunc name.text [], ts)
  else do
    let (entries, ts) ← stateBlock ts
    .ok (.blendFunc name.text entries, ts)

/-- Reads a statement. -/
def statement : Reader StatementTree
  | [] => .error ⟨boundary, []⟩
  | t :: ts =>
    match t.terminal with
    | .word .use_ => useStatement ts
    | .word .const_ => constStatement ts
    | .word .output_ => outputStatement ts
    | .word .vformat_ => vertexFormatStatement ts
    | .word .pipeline_ => pipelineStatement ts
    | .word .blendfunc_ => blendFuncStatement ts
    | _ => .error ⟨boundary, t :: ts⟩

/-- The tokens in front of a rest. -/
def consumed (ts rest : List Token) : List Token := ts.take (ts.length - rest.length)

/-- Reads statements up to the end of the input; `fuel` bounds their number. -/
def phrasesFrom : Nat → List Token → Except Stuck (List Phrase)
  | 0, _ => .ok []
  | _ + 1, [] => .ok []
  | fuel + 1, t :: ts => do
    let (tree, rest) ← statement (t :: ts)
    let others ← phrasesFrom fuel rest
    .ok (⟨tree, consumed (t :: ts) rest⟩ :: others)

/-- Reads a whole text.  Every statement has a token, so their number is enough fuel. -/
def phrases (ts : List Token) : Except Stuck (List Phrase) := phrasesFrom ts.length ts

end AnnotatedShader.Grammar
