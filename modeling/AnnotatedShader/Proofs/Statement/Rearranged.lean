import AnnotatedShader.Proofs.Model.Build
import AnnotatedShader.Proofs.Model.Unsited
import AnnotatedShader.Proofs.Namespace.Lookup

set_option autoImplicit false

/-!
# Rearranged statements

The statements of a file may be put into another order.  Those that belong to one list of the file's
record are a series, and the order within each series is kept; the order of all others is free.
What is imported belongs where its declaration belongs.

`Product` is what becomes of a declaration, and `Series` the list that it goes to: buffers and
numeric constants are one series, since both come to be buffers.  `Rearranged` relates two modules
with the same contents in this sense, which leaves samplers and packed structs, that are in no list,
free.  What is read off the contents alone is the same for both: names, imports and symbols up to
order and positions.
-/

namespace AnnotatedShader

/-- What a declaration makes.  A number is a constant outside all structs that is neither a texture
nor a sampler; a packed struct makes a type and no buffer. -/
inductive Product where
  | structType | buffer | number | texture | sampler | output | vertexFormat | pipeline | blendFunc
  deriving DecidableEq, Repr, Inhabited

/-- What a declaration makes. -/
def Declaration.product : Declaration → Product
  | .buffer _ attr _ => if attr = some .pack then .structType else .buffer
  | .constant p =>
    if (TextureKind.ofName? p.type.name).isSome then .texture
    else if ShaderType.ofName? p.type.name = some .sampler then .sampler
    else .number
  | .output _ => .output
  | .vertexFormat _ _ _ => .vertexFormat
  | .pipeline _ _ => .pipeline
  | .blendFunc _ _ => .blendFunc

@[simp] theorem Declaration.product_unsited (d : Declaration) : d.unsited.product = d.product := by
  cases d <;> rfl

/-- The lists of a record whose entries have the order of statements. -/
inductive Series where
  | buffers | textures | outputs | pipelines | blendFuncs
  deriving DecidableEq, Repr, Inhabited

/-- The series of a product, if it has one.  Numbers are collected into one of the buffers, so they
count among these. -/
def Product.series? : Product → Option Series
  | .buffer | .number => some .buffers
  | .texture => some .textures
  | .output => some .outputs
  | .pipeline => some .pipelines
  | .blendFunc => some .blendFuncs
  | .structType | .sampler | .vertexFormat => none

namespace StatementBody

/-- The series of a statement: that of the declaration which it makes or imports. -/
def series? (ns : Namespace) : StatementBody → Option Series
  | .use u => (ns.lookup u.file u.member).bind fun s => s.declaration.product.series?
  | .declare d => d.product.series?
  | .comment _ => none

/-- Whether a statement is no comment. -/
def isPhrase : StatementBody → Bool
  | .comment _ => false
  | _ => true

/-- The name that a statement introduces. -/
def name? : StatementBody → Option String
  | .use u => some u.name
  | .declare d => some d.name
  | .comment _ => none

/-- The import that a statement is. -/
def use? : StatementBody → Option Use
  | .use u => some u
  | _ => none

/-- The symbol that a statement declares in its file. -/
def symbol? (file : String) : StatementBody → Option Symbol
  | .declare d => some ⟨file, .nowhere, d⟩
  | _ => none

end StatementBody

namespace Module

/-- What the statements of a file are, without positions and comments. -/
def contents (m : Module) : List StatementBody :=
  (m.statements.map fun s => s.body.unsited).filter StatementBody.isPhrase

/-- The statements of a file in another order, which keeps that of each series.  Comments may come,
go and move. -/
structure Rearranged (ns : Namespace) (m m' : Module) : Prop where
  file : m'.file = m.file
  contents : m'.contents.Perm m.contents
  series : ∀ c, m'.contents.filter (fun b => b.series? ns = some c) =
    m.contents.filter fun b => b.series? ns = some c

/-! ## What is read off the contents -/

/-- What only phrases give is read off the contents. -/
theorem filterMap_contents {α : Type} (m : Module) {f : StatementBody → Option α}
    {g : Statement → Option α} (hcomment : ∀ text, f (.comment text) = none)
    (hg : ∀ s, g s = f s.body.unsited) : m.contents.filterMap f = m.statements.filterMap g := by
  rw [contents, List.filterMap_filter, List.filterMap_map]
  refine List.filterMap_congr fun s _ => ?_
  rw [hg, Function.comp_apply]
  cases s.body with
  | comment text => exact (hcomment text).symm
  | use u => rfl
  | declare d => rfl

theorem namesOf_eq (m : Module) : Model.namesOf m = m.contents.filterMap StatementBody.name? := by
  refine (m.filterMap_contents (fun _ => rfl) fun s => ?_).symm
  cases hbody : s.body <;> simp [Statement.name?, hbody, StatementBody.name?, StatementBody.unsited]

theorem map_fst_uses (m : Module) :
    m.uses.map Prod.fst = m.contents.filterMap StatementBody.use? := by
  rw [uses, List.map_filterMap]
  refine (m.filterMap_contents (fun _ => rfl) fun s => ?_).symm
  cases hbody : s.body <;> simp [StatementBody.use?, StatementBody.unsited]

theorem map_unsited_symbols (m : Module) :
    m.symbols.map Symbol.unsited = m.contents.filterMap (StatementBody.symbol? m.file) := by
  rw [symbols, declarations, List.map_map, List.map_filterMap]
  refine (m.filterMap_contents (fun _ => rfl) fun s => ?_).symm
  cases hbody : s.body <;> simp [StatementBody.symbol?, StatementBody.unsited, Symbol.unsited]

variable {ns : Namespace} {m m' : Module} (h : m.Rearranged ns m')

include h

theorem Rearranged.namesOf : (Model.namesOf m').Perm (Model.namesOf m) := by
  rw [namesOf_eq, namesOf_eq]
  exact h.contents.filterMap _

theorem Rearranged.uses : (m'.uses.map Prod.fst).Perm (m.uses.map Prod.fst) := by
  rw [map_fst_uses, map_fst_uses]
  exact h.contents.filterMap _

theorem Rearranged.symbols :
    (m'.symbols.map Symbol.unsited).Perm (m.symbols.map Symbol.unsited) := by
  rw [map_unsited_symbols, map_unsited_symbols, h.file]
  exact h.contents.filterMap _

end Module

end AnnotatedShader
