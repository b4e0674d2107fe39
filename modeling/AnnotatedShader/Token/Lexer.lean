import AnnotatedShader.Diagnostic
import AnnotatedShader.Text.Word

set_option autoImplicit false

/-!
# Lexer

The text of an annotation is cut into tokens from the left.  `munch` gives the longest piece that a
terminal matches at the front of a text; `scan` repeats it and keeps the position of each piece.
Blanks are dropped, comments are kept.  Where no terminal matches, the scan stops and reports the
character.

The classes of characters are ASCII here: the language has no identifiers, digits or blanks of
another script.

`munch` looks at the first character and knows then which terminals are possible.  That its pieces
are the longest ones is proved in `Proofs.Token.Longest`, and that patterns tried in the order of
their priorities find the same ones in `Proofs.Token.Precedence`.
-/

namespace AnnotatedShader.Lexer

open AnnotatedShader.Text

/-! ## The longest piece at the front of a text -/

/-- The blanks between tokens: space, tab, carriage return, line feed and form feed. -/
def isGap (c : Char) : Bool :=
  c == ' ' || c == '\t' || c == '\r' || c == '\n' || c == '\x0c'

/-- The sign of an exponent, if there is one. -/
def exponentSign : List Char → List Char
  | '+' :: _ => ['+']
  | '-' :: _ => ['-']
  | _ => []

/-- The exponent at the front of a text, or nothing if no complete exponent stands there. -/
def exponentPart : List Char → List Char
  | [] => []
  | e :: rest =>
    if e = 'e' || e = 'E' then
      let sign := exponentSign rest
      let digits := (rest.drop sign.length).takeWhile Char.isDigit
      if digits.isEmpty then [] else e :: (sign ++ digits)
    else []

/-- The sign of a number, if there is one. -/
def numberSign : List Char → List Char
  | '-' :: _ => ['-']
  | _ => []

/-- The number at the front of a text.  A point or an exponent makes it a floating one. -/
def number? (text : List Char) : Option (Terminal × List Char) :=
  let sign := numberSign text
  let whole := (text.drop sign.length).takeWhile Char.isDigit
  if whole.isEmpty then none
  else
    let front := sign ++ whole
    match text.drop front.length with
    | '.' :: rest =>
      let fraction := rest.takeWhile Char.isDigit
      some (.floating, front ++ '.' :: (fraction ++ exponentPart (rest.drop fraction.length)))
    | rest =>
      let exponent := exponentPart rest
      if exponent.isEmpty then some (.integer, front) else some (.floating, front ++ exponent)

/-- The punctuation mark at the front of a text. -/
def mark? (text : List Char) : Option (Terminal × List Char) :=
  (Mark.all.find? fun m => m.text.toList.isPrefixOf text).map fun m => (.mark m, m.text.toList)

/-- The terminal of a run of name characters: a reserved word only if the whole run is the word. -/
def wordTerminal (word : List Char) : Terminal :=
  match Reserved.ofText? (String.ofList word) with
  | some w => .word w
  | none => .identifier

/-- The longest piece that a terminal matches at the front of a text. -/
def munch (text : List Char) : Option (Terminal × List Char) :=
  match text with
  | [] => none
  | c :: _ =>
    if isNameStart c then
      let word := text.takeWhile isNameChar
      some (wordTerminal word, word)
    else if isGap c then some (.blank, text.takeWhile isGap)
    else if c = '#' then some (.comment, text.takeWhile (· != '\n'))
    else if c = '-' || c.isDigit then number? text
    else mark? text

/-! ## The tokens of a text -/

/-- The tokens of a text as far as there are any, and the character that stopped the scan. -/
structure Scan where
  tokens : List Token
  stop : Option (Char × Position)
  deriving DecidableEq, Repr, Inhabited

/-- Puts a token in front, unless it is blank. -/
def Scan.push (t : Token) (s : Scan) : Scan :=
  if t.terminal = .blank then s else { s with tokens := t :: s.tokens }

/-- Scans a text that starts at a position; `fuel` bounds the number of pieces. -/
def scanFrom : Nat → Position → List Char → Scan
  | 0, _, _ => ⟨[], none⟩
  | _ + 1, _, [] => ⟨[], none⟩
  | fuel + 1, p, c :: rest =>
    match munch (c :: rest) with
    | none => ⟨[], some (c, p)⟩
    | some (terminal, piece) =>
      (scanFrom fuel (p.advance piece) ((c :: rest).drop piece.length)).push
        ⟨terminal, String.ofList piece, p⟩

/-- Scans a whole text.  No piece is empty, so the length of the text is enough fuel. -/
def scan (text : String) : Scan := scanFrom text.toList.length .start text.toList

/-- The diagnostic for the character that stopped a scan. -/
def stopDiagnostic (file : String) (stop : Char × Position) : Diagnostic :=
  ⟨file, stop.2, .unexpectedCharacter stop.1⟩

/-- The tokens of a text, comments included. -/
def tokenize (file text : String) : Except Diagnostic (List Token) :=
  let s := scan text
  match s.stop with
  | some stop => .error (stopDiagnostic file stop)
  | none => .ok s.tokens

end AnnotatedShader.Lexer
