import AnnotatedShader.Grammar.Descent

set_option autoImplicit false

/-!
# The grammar

The rules of the annotation language, as relations between tokens and the trees that they derive.
There is a relation for each rule and for each part of a rule that may be missing, and a constructor
for each alternative.  No reader is mentioned here, and no lookahead: the tokens of a tree are those
of its parts, one behind the other.

`DerivesText` is the rule of a whole text, a sequence of phrases up to the end.  The readers are
proved sound and complete for these rules in other files, so this one is what has to be compared
with the grammar to know what is read.

The last section tells with which tokens a tree can start.  These are the questions that a reader
asks when it decides between alternatives with one token of lookahead.
-/

namespace AnnotatedShader.Grammar

/-- Any number of trees one behind the other. -/
inductive Sequence {α : Type} (rule : List Token → α → Prop) : List Token → List α → Prop
  | nil : Sequence rule [] []
  | cons {us vs : List Token} {a : α} {as : List α} (hfirst : rule us a)
    (hrest : Sequence rule vs as) : Sequence rule (us ++ vs) (a :: as)

/-! ## Properties -/

/-- An element type behind a colon, or nothing: `[":" IDENT]`. -/
inductive DerivesElement : List Token → Option String → Prop
  | absent : DerivesElement [] none
  | present {colon element : Token} (hcolon : colon.terminal = .mark .colon)
    (helement : element.terminal = .identifier) :
    DerivesElement [colon, element] (some element.text)

/-- An array size in brackets, or nothing: `["[" INT "]"]`. -/
inductive DerivesSize : List Token → Option Token → Prop
  | absent : DerivesSize [] none
  | present {left size right : Token} (hleft : left.terminal = .mark .leftBracket)
    (hsize : size.terminal = .integer) (hright : right.terminal = .mark .rightBracket) :
    DerivesSize [left, size, right] (some size)

/-- A type: `IDENT [":" IDENT] ["[" INT "]"]`. -/
inductive DerivesType : List Token → TypeTree → Prop
  | type {name : Token} {es ss : List Token} {element : Option String} {size : Option Token}
    (hname : name.terminal = .identifier) (helement : DerivesElement es element)
    (hsize : DerivesSize ss size) :
    DerivesType (name :: (es ++ ss)) ⟨name.text, element, size⟩

/-- An attribute, or nothing: `[":" IDENT | ":" IDENT "(" INT ")"]`. -/
inductive DerivesAttribute : List Token → Option AttributeTree → Prop
  | absent : DerivesAttribute [] none
  | bare {colon name : Token} (hcolon : colon.terminal = .mark .colon)
    (hname : name.terminal = .identifier) : DerivesAttribute [colon, name] (some (.bare name))
  | call {colon name left argument right : Token} (hcolon : colon.terminal = .mark .colon)
    (hname : name.terminal = .identifier) (hleft : left.terminal = .mark .leftParen)
    (hargument : argument.terminal = .integer) (hright : right.terminal = .mark .rightParen) :
    DerivesAttribute [colon, name, left, argument, right] (some (.call name argument))

/-- A property: `type IDENT [attribute] ";"`. -/
inductive DerivesProperty : List Token → PropertyTree → Prop
  | property {ts as : List Token} {type : TypeTree} {name semicolon : Token}
    {attr : Option AttributeTree} (htype : DerivesType ts type)
    (hname : name.terminal = .identifier) (hattr : DerivesAttribute as attr)
    (hsemicolon : semicolon.terminal = .mark .semicolon) :
    DerivesProperty (ts ++ name :: (as ++ [semicolon])) ⟨type, name, attr⟩

/-! ## State entries -/

/-- The second part of a key, or nothing: `["::" IDENT]`. -/
inductive DerivesSubkey : List Token → Option String → Prop
  | absent : DerivesSubkey [] none
  | present {colons subkey : Token} (hcolons : colons.terminal = .mark .doubleColon)
    (hsubkey : subkey.terminal = .identifier) :
    DerivesSubkey [colons, subkey] (some subkey.text)

/-- A state entry: `IDENT ["::" IDENT] "=" (FLOAT | INT | "true" | "false" | IDENT) ";"`. -/
inductive DerivesEntry : List Token → EntryTree → Prop
  | entry {key equals v semicolon : Token} {ks : List Token} {subkey : Option String}
    (hkey : key.terminal = .identifier) (hsubkey : DerivesSubkey ks subkey)
    (hequals : equals.terminal = .mark .equals) (hvalue : v.terminal ∈ valueTerminals)
    (hsemicolon : semicolon.terminal = .mark .semicolon) :
    DerivesEntry (key :: (ks ++ [equals, v, semicolon])) ⟨key.text, subkey, v⟩

/-! ## Blocks -/

/-- The semicolon behind a block, or nothing: `[";"]`. -/
inductive DerivesSemicolon : List Token → Prop
  | absent : DerivesSemicolon []
  | present {semicolon : Token} (hsemicolon : semicolon.terminal = .mark .semicolon) :
    DerivesSemicolon [semicolon]

/-- A struct: `"struct" IDENT [attribute] "{" property+ "}" [";"]`. -/
inductive DerivesStruct :
    List Token → String × Option AttributeTree × List PropertyTree → Prop
  | struct {word name left right : Token} {as ps ss : List Token} {attr : Option AttributeTree}
    {fields : List PropertyTree} (hword : word.terminal = .word .struct_)
    (hname : name.terminal = .identifier) (hattr : DerivesAttribute as attr)
    (hleft : left.terminal = .mark .leftBrace) (hfields : Sequence DerivesProperty ps fields)
    (hsome : fields ≠ []) (hright : right.terminal = .mark .rightBrace)
    (hsemicolon : DerivesSemicolon ss) :
    DerivesStruct (word :: name :: (as ++ left :: (ps ++ right :: ss))) (name.text, attr, fields)

/-- A block of state entries: `"{" entry* "}" [";"]`. -/
inductive DerivesStateBlock : List Token → List EntryTree → Prop
  | block {left right : Token} {es ss : List Token} {entries : List EntryTree}
    (hleft : left.terminal = .mark .leftBrace) (hentries : Sequence DerivesEntry es entries)
    (hright : right.terminal = .mark .rightBrace) (hsemicolon : DerivesSemicolon ss) :
    DerivesStateBlock (left :: (es ++ right :: ss)) entries

/-! ## Statements -/

/-- The new name of an import, or nothing: `["as" IDENT]`. -/
inductive DerivesRename : List Token → Option String → Prop
  | absent : DerivesRename [] none
  | present {word name : Token} (hword : word.terminal = .word .as_)
    (hname : name.terminal = .identifier) : DerivesRename [word, name] (some name.text)

/-- What stands behind the reserved word of a statement. -/
inductive DerivesBehind : Reserved → List Token → StatementTree → Prop
  /-- `IDENT "::" IDENT ["as" IDENT] ";"` -/
  | use {file colons member semicolon : Token} {rs : List Token} {rename : Option String}
    (hfile : file.terminal = .identifier) (hcolons : colons.terminal = .mark .doubleColon)
    (hmember : member.terminal = .identifier) (hrename : DerivesRename rs rename)
    (hsemicolon : semicolon.terminal = .mark .semicolon) :
    DerivesBehind .use_ (file :: colons :: member :: (rs ++ [semicolon]))
      (.use file.text member.text rename)
  | buffer {ts : List Token} {name : String} {attr : Option AttributeTree}
    {fields : List PropertyTree} (hstruct : DerivesStruct ts (name, attr, fields)) :
    DerivesBehind .const_ ts (.buffer name attr fields)
  | constant {ts : List Token} {p : PropertyTree} (hproperty : DerivesProperty ts p) :
    DerivesBehind .const_ ts (.constant p)
  | output {ts : List Token} {p : PropertyTree} (hproperty : DerivesProperty ts p) :
    DerivesBehind .output_ ts (.output p)
  | vertexFormat {ts : List Token} {name : String} {attr : Option AttributeTree}
    {fields : List PropertyTree} (hstruct : DerivesStruct ts (name, attr, fields)) :
    DerivesBehind .vformat_ ts (.vertexFormat name attr fields)
  /-- `IDENT "{" entry* "}" [";"]` -/
  | pipeline {name : Token} {es : List Token} {entries : List EntryTree}
    (hname : name.terminal = .identifier) (hblock : DerivesStateBlock es entries) :
    DerivesBehind .pipeline_ (name :: es) (.pipeline name.text entries)
  /-- `IDENT ";"` -/
  | blendFuncAlone {name semicolon : Token} (hname : name.terminal = .identifier)
    (hsemicolon : semicolon.terminal = .mark .semicolon) :
    DerivesBehind .blendfunc_ [name, semicolon] (.blendFunc name.text [])
  /-- `IDENT "{" entry* "}" [";"]` -/
  | blendFunc {name : Token} {es : List Token} {entries : List EntryTree}
    (hname : name.terminal = .identifier) (hblock : DerivesStateBlock es entries) :
    DerivesBehind .blendfunc_ (name :: es) (.blendFunc name.text entries)

/-- A statement: a reserved word and what stands behind it. -/
inductive DerivesStatement : List Token → StatementTree → Prop
  | statement {word : Token} {w : Reserved} {ts : List Token} {tree : StatementTree}
    (hword : word.terminal = .word w) (hbehind : DerivesBehind w ts tree) :
    DerivesStatement (word :: ts) tree

/-- A phrase: a statement with its tokens. -/
def DerivesPhrase (ts : List Token) (p : Phrase) : Prop :=
  p.tokens = ts ∧ DerivesStatement ts p.tree

/-- A text: statements one behind the other. -/
def DerivesText : List Token → List Phrase → Prop := Sequence DerivesPhrase

/-! ## The first token of a tree

A part that may be missing starts with a token of its own, or what follows it comes first.
-/

@[simp] theorem front_cons (t : Token) (ts : List Token) : front (t :: ts) = t.terminal := rfl

section Front

variable {used rest : List Token} {expected : List Terminal} (hrest : front rest ∈ expected)

include hrest

theorem DerivesElement.front_mem {element : Option String} (h : DerivesElement used element)
    (hstart : .mark .colon ∈ expected) : front (used ++ rest) ∈ expected := by
  cases h with
  | absent => exact hrest
  | present hcolon => simpa [hcolon] using hstart

theorem DerivesSize.front_mem {size : Option Token} (h : DerivesSize used size)
    (hstart : .mark .leftBracket ∈ expected) : front (used ++ rest) ∈ expected := by
  cases h with
  | absent => exact hrest
  | present hleft => simpa [hleft] using hstart

theorem DerivesAttribute.front_mem {attr : Option AttributeTree} (h : DerivesAttribute used attr)
    (hstart : .mark .colon ∈ expected) : front (used ++ rest) ∈ expected := by
  cases h with
  | absent => exact hrest
  | bare hcolon => simpa [hcolon] using hstart
  | call hcolon => simpa [hcolon] using hstart

theorem DerivesSubkey.front_mem {subkey : Option String} (h : DerivesSubkey used subkey)
    (hstart : .mark .doubleColon ∈ expected) : front (used ++ rest) ∈ expected := by
  cases h with
  | absent => exact hrest
  | present hcolons => simpa [hcolons] using hstart

theorem DerivesRename.front_mem {rename : Option String} (h : DerivesRename used rename)
    (hstart : .word .as_ ∈ expected) : front (used ++ rest) ∈ expected := by
  cases h with
  | absent => exact hrest
  | present hword => simpa [hword] using hstart

theorem DerivesSemicolon.front_mem (h : DerivesSemicolon used)
    (hstart : .mark .semicolon ∈ expected) : front (used ++ rest) ∈ expected := by
  cases h with
  | absent => exact hrest
  | present hsemicolon => simpa [hsemicolon] using hstart

end Front

theorem DerivesType.front {used : List Token} {t : TypeTree} (h : DerivesType used t)
    (rest : List Token) : front (used ++ rest) = .identifier := by
  cases h with
  | type hname => exact hname

theorem DerivesProperty.front {used : List Token} {p : PropertyTree}
    (h : DerivesProperty used p) (rest : List Token) : front (used ++ rest) = .identifier := by
  cases h with
  | property htype =>
    rw [List.append_assoc]
    exact htype.front _

theorem DerivesEntry.front {used : List Token} {e : EntryTree} (h : DerivesEntry used e)
    (rest : List Token) : front (used ++ rest) = .identifier := by
  cases h with
  | entry hkey => exact hkey

theorem DerivesStatement.front {used : List Token} {t : StatementTree}
    (h : DerivesStatement used t) (rest : List Token) : front (used ++ rest) ∈ statementStarts := by
  cases h with
  | statement hword hbehind =>
    rw [List.cons_append, Grammar.front, hword]
    cases hbehind <;> decide

namespace Sequence

variable {α : Type} {rule : List Token → α → Prop} {used rest : List Token} {as : List α}

/-- What stands in front of a sequence and its rest: the first token of a tree, or the rest. -/
theorem front_mem (h : Sequence rule used as) (starts follow : List Terminal)
    (hrule : ∀ us vs a, rule us a → front (us ++ vs) ∈ starts) (hrest : front rest ∈ follow) :
    front (used ++ rest) ∈ starts ++ follow := by
  cases h with
  | nil => exact List.mem_append_right _ hrest
  | cons hfirst =>
    rw [List.append_assoc]
    exact List.mem_append_left _ (hrule _ _ _ hfirst)

/-- A sequence of trees that have tokens is not longer than its tokens. -/
theorem length_le (h : Sequence rule used as) (hrule : ∀ us a, rule us a → us ≠ []) :
    as.length ≤ used.length := by
  induction h with
  | nil => exact Nat.le_refl 0
  | cons hfirst _ ih =>
    have hpos := List.length_pos_iff.mpr (hrule _ _ hfirst)
    simp only [List.length_cons, List.length_append]
    omega

end Sequence

end AnnotatedShader.Grammar
