import AnnotatedShader.Proofs.Batch.Interface
import AnnotatedShader.Proofs.Glsl.Placement
import AnnotatedShader.Proofs.Statement.Place

set_option autoImplicit false

/-!
# The layout of accepted files

Every statement of a file starts in one of its blocks, so every entity of its model is declared in
the place of exactly one block.

`Laid` says how a text is laid out: it is assembled of the rewritten stretches of the body and of
pieces, one for each entity of the model, in the order of the statements, behind the version if the
source states none.  Each piece has lines that introduce the resources of its entity, and the entity
starts in exactly one block, in whose place the piece stands.  `LaidFile` adds where the model comes
from, so that the entities are those that the statements of the file introduce.

A position outside all blocks would count for the first of them.  `Sited.exists_statement` and the
places of statements rule that out: there is no such position.
-/

namespace AnnotatedShader

namespace Source

theorem length_lines_of_read {file text : String} {a : Annotated}
    (h : (read file text).outcome = .ok a) : a.lines.length = a.roles.length := by
  rw [roles_of_read h, roles, rolesFrom_length]

end Source

namespace Model

/-- The site of an entity is that of a statement of the file. -/
theorem Sited.exists_statement {file : String} {imports : List ResolvedImport}
    {statements : List Statement} {site : Site} (h : Sited file imports statements site) :
    ∃ s ∈ statements, s.position = site.position := by
  have hposition : ∀ {i : Introduction}, Introduces file imports 0 statements i →
      ∃ s ∈ statements, s.position = i.position := by
    intro i hi
    obtain ⟨k, s, hs, hby⟩ := hi.introducedBy
    refine ⟨s, hs, ?_⟩
    cases hby <;> rfl
  cases h with
  | introduced i cls hi => exact hposition hi
  | root i hi => exact hposition hi

end Model

namespace Batch

open Glsl (Piece)

/-- How the text of a file is laid out: it is assembled of pieces, one for each entity of the model,
in the order of the statements, behind the version if the source states none.  The lines of a piece
introduce the resources of its entity.  The entity starts in exactly one block, in whose place it is
declared. -/
structure Laid (o : Options) (a : Source.Annotated) (m : Model) (ps : List Piece)
    (text : String) : Prop where
  text : ∃ front, Glsl.heading a o = .ok front ∧
    text = Glsl.assembled front a (Glsl.rewritingOf m) ps
  written : ∀ p ∈ ps, p.Written m o
  introduced : ∀ p ∈ ps, ∀ res ∈ Glsl.resourcesOf o p.entity, ∃ line ∈ p.lines, res.Line line
  entities : (ps.map Piece.entity).Perm m.entities
  sorted : ps.Pairwise fun p q => p.entity.site.index < q.entity.site.index
  inside : ∀ p ∈ ps, ∃ i, a.blockOf? p.entity.site.position.line = some i ∧
    ∀ j, a.holds j p.entity.site.position = true ↔ j = i

theorem Placed.sites {m placed : Model} (h : Placed m placed) : placed.sites = m.sites := by
  cases h with
  | alone => rfl
  | shared ms buffers textures hm htables => exact Model.rebind_sites buffers textures m

/-- What the text of an accepted file consists of.  The entities of its model are those that its
statements introduce. -/
inductive LaidFile (o : Options) (ns : Namespace) (f : SourceFile) (r : FileResult) : Prop
  | intro (a : Source.Annotated) (statements : List Statement) (imports : List ResolvedImport)
    (analysed m : Model) (ps : List Piece) (text : String)
    (hread : (Source.read f.name f.text).outcome = .ok a)
    (hparse : Statement.parse f.name a.annotationText = .ok statements)
    (himports : Module.resolveImports ⟨f.name, statements⟩ ns = .ok imports)
    (hanalyse : analyse ns ⟨a, ⟨f.name, statements⟩⟩ = .ok analysed) (hplaced : Placed analysed m)
    (hsited : ∀ site, site ∈ m.sites ↔ Model.Sited f.name imports statements site)
    (hsource : r.source = some text) (hlaid : Laid o a m ps text)

/-- The text of every accepted file is assembled of the stretches of its body and, in the places of
its blocks, the declarations of the entities whose statements start there. -/
theorem compile_laid {o : Options} {v : Validator} {files : List SourceFile} {rs : List FileResult}
    (h : compile o v files = .ok rs) :
    ∃ ws, readAll [] files = .ok ws ∧
      List.Forall₂ (fun f r => r.isOk = true → LaidFile o (namespaceOf ws) f r) files rs := by
  obtain ⟨ws, hws, haccepted⟩ := compile_acceptedIn h
  refine ⟨ws, hws, haccepted.imp fun f r hr hok => ?_⟩
  obtain ⟨p, analysed, m, text, hread, hanalyse, hplaced, hgenerate, _, hsource, _⟩ := hr hok
  obtain ⟨a, statements, houtcome, hparse, rfl⟩ := readFile_eq_ok hread
  have hbuild := hanalyse
  simp only [analyse, bind_eq_ok_iff] at hbuild
  obtain ⟨imports, himports, model, hmodel, hassign⟩ := hbuild
  obtain ⟨hsited, hindices⟩ := Model.build_sites hmodel
  have hsites : m.sites = model.sites := hplaced.sites.trans (Model.assignSlots_sites hassign)
  rw [← hsites] at hsited hindices
  have hsplit := Source.split_of_read houtcome
  have hinside : ∀ site ∈ m.sites, ∃ i, a.blockOf? site.position.line = some i := by
    intro site hsite
    obtain ⟨s, hs, hposition⟩ := ((hsited site).mp hsite).exists_statement
    obtain ⟨k, hline, hrole⟩ := Source.annotated_of_parse houtcome hparse hs
    rw [← hposition, hline]
    exact Source.Annotated.exists_blockOf?_eq_some hsplit hrole
  obtain ⟨ps, hentities, hsorted, hwritten, htext⟩ := Glsl.generate_assembled hsplit
    (Source.length_lines_of_read houtcome) hindices hinside hgenerate
  refine .intro a statements imports analysed m ps text houtcome hparse himports hanalyse hplaced
    hsited hsource ⟨htext, hwritten, fun p hp => (hwritten p hp).exists_line, hentities, hsorted,
      fun p hp => ?_⟩
  obtain ⟨i, hi⟩ := hinside _ (List.mem_map_of_mem (hentities.subset (List.mem_map_of_mem hp)))
  refine ⟨i, hi, fun j => ?_⟩
  rw [Source.Annotated.holds_iff hsplit, hi, Option.some.injEq, eq_comm]

/-- A file with a struct, one whose import goes on in its next block, and one with a constant in its
second block. -/
def mural : List SourceFile :=
  [annotated "Camera" "const struct Camera \x7b float Zoom; \x7d",
   ⟨"Wall",
     "#sal\nuse Camera::Camera as\n#sal\nfloat b;\n#sal\nLens;\n#sal\nfloat c = Lens_Zoom;\n"⟩,
   ⟨"Lamp", "float a;\n#sal\n#sal\n#stage pixel\n#sal\nconst float Glow;\n#sal\n"⟩]

theorem compile_laid_mural :
    ∃ rs, compile .default (.script default) mural = .ok rs ∧ (∀ r ∈ rs, r.isOk = true) ∧
      ∃ ws, readAll [] mural = .ok ws ∧
        List.Forall₂ (fun f r => LaidFile .default (namespaceOf ws) f r) mural rs := by
  have hcompile : ((compile .default (.script default) mural).toOption.any fun rs =>
      rs.all FileResult.isOk) = true := by decide +kernel
  obtain ⟨rs, hrs, hok⟩ := exists_eq_ok_of_any hcompile
  rw [List.all_eq_true] at hok
  obtain ⟨ws, hws, hlaid⟩ := compile_laid hrs
  exact ⟨rs, hrs, hok, ws, hws, forall₂_imp_of_mem hlaid fun f r hr h => h (hok r hr)⟩

end Batch

end AnnotatedShader
