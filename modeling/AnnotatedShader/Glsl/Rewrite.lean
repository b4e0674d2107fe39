import AnnotatedShader.Text.Blank
import AnnotatedShader.Text.Word

set_option autoImplicit false

/-!
# References in shader bodies

A body refers to a member of a buffer as `Buffer_Member` and samples a texture by a call of
`Texture_Sample`.  Both are replaced by what GLSL has for them; every other character of the body is
copied.  An identifier starts where no word character is in front of it; behind a point it selects a
member of something else and is left alone.

The arguments of a call reach to the parenthesis that closes it, and references in them are
rewritten in their turn.  A name whose parenthesis is never closed makes no call.  `rewriteFrom`
goes through the text once and keeps only the character in front of its place; it is given as much
fuel as there are characters, which is enough since every step takes one.
-/

namespace AnnotatedShader.Glsl

open AnnotatedShader.Text

/-- What identifiers are replaced by: members by their selections, textures by the names of their
samplers. -/
structure Rewriting where
  members : List (String × String)
  textures : List (String × String)
  deriving DecidableEq, Repr, Inhabited

/-- The end of an identifier that samples a texture. -/
def sampleSuffix : List Char := "_Sample".toList

/-- What lies before the parenthesis that closes an open one, and what lies behind it; `depth`
counts the parentheses opened since. -/
def closeParen? : (depth : Nat) → List Char → Option (List Char × List Char)
  | _, [] => none
  | depth, c :: rest =>
    if c = ')' then
      match depth with
      | 0 => some ([], rest)
      | depth + 1 => (closeParen? depth rest).map fun (inner, behind) => (c :: inner, behind)
    else
      (closeParen? (if c = '(' then depth + 1 else depth) rest).map fun (inner, behind) =>
        (c :: inner, behind)

/-- A call that samples a texture: the sampler, the arguments as they stand and the text behind. -/
structure SampleCall where
  sampler : String
  arguments : List Char
  behind : List Char
  deriving DecidableEq, Repr, Inhabited

/-- Whether a character may stand between a name and its arguments. -/
def isCallGap (c : Char) : Bool := c == ' ' || c == '\t'

/-- The texture that an identifier samples. -/
def sampledTexture? (r : Rewriting) (ident : List Char) : Option String :=
  if sampleSuffix.isSuffixOf ident then
    r.textures.lookup (String.ofList (ident.take (ident.length - sampleSuffix.length)))
  else none

/-- The call that an identifier with the text behind it makes. -/
def sampleCall? (r : Rewriting) (ident after : List Char) : Option SampleCall :=
  match sampledTexture? r ident with
  | none => none
  | some sampler =>
    match after.dropWhile isCallGap with
    | '(' :: rest =>
      (closeParen? 0 rest).map fun (arguments, behind) => ⟨sampler, arguments, behind⟩
    | _ => none

/-- A call of the GLSL sampling function. -/
def textureCall (sampler : String) (arguments : List Char) : List Char :=
  "texture(".toList ++ sampler.toList ++
    (if arguments.isEmpty then [] else ',' :: ' ' :: arguments) ++ [')']

/-- Rewrites a text behind a character; `fuel` bounds the number of steps.  The arguments of a call
are rewritten as a text of their own. -/
def rewriteFrom (r : Rewriting) : Nat → (before : Option Char) → List Char → List Char
  | 0, _, text => text
  | _ + 1, _, [] => []
  | fuel + 1, before, c :: rest =>
    if isNameStart c && !before.any isWordChar then
      let ident := (c :: rest).takeWhile isNameChar
      let after := (c :: rest).drop ident.length
      let last := ident.getLast?
      if before = some '.' then ident ++ rewriteFrom r fuel last after
      else
        match r.members.lookup (String.ofList ident) with
        | some replacement => replacement.toList ++ rewriteFrom r fuel last after
        | none =>
          match sampleCall? r ident after with
          | none => ident ++ rewriteFrom r fuel last after
          | some call =>
            textureCall call.sampler (trim (rewriteFrom r fuel none call.arguments)) ++
              rewriteFrom r fuel (some ')') call.behind
    else c :: rewriteFrom r fuel (some c) rest

/-- Rewrites a text.  Every step takes a character, so its length is enough fuel. -/
def rewrite (r : Rewriting) (text : List Char) : List Char := rewriteFrom r text.length none text

end AnnotatedShader.Glsl
