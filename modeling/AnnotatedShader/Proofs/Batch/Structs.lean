import AnnotatedShader.Proofs.Batch.Placement
import AnnotatedShader.Proofs.Batch.Rearranged
import AnnotatedShader.Proofs.Glsl.Structs
import Mathlib

set_option autoImplicit false

/-!
# Struct types in accepted files

The statements of an accepted file stand in the order of their lines, each in a block, so its text
declares the entities of its model in the order of the statements.  A struct type is in front of its
first use then, in whatever block that is and whichever file the struct type comes from.

Emission keeps the struct types that it has declared over all buffers of a file, in the order of the
buffers, and the text has the blocks in the order of their lines.  That the two orders agree is what
this file adds (`seated_of_sited`): statements that have been parsed stand in the order of their
tokens (`Statement.line_le_of_parse`).  `DeclaresStructs` is the result for a file: where each
struct type stands among the declarations, which ones are declared, and that the text has the lines
of each.
-/

namespace AnnotatedShader

/-- The site of an entity is that of the statement at its index. -/
theorem Model.Sited.getElem?_index {file : String} {imports : List ResolvedImport}
    {statements : List Statement} {site : Site} (h : Sited file imports statements site) :
    ∃ s, statements[site.index]? = some s ∧ s.position = site.position := by
  have hintroduced : ∀ {i : Introduction}, Introduces file imports 0 statements i →
      ∃ s, statements[i.index]? = some s ∧ s.position = i.position := by
    rintro i ⟨k, s, hs, hi⟩
    have hby := introducedBy_of_introduction? hi
    rw [hby.index_eq, Nat.zero_add]
    refine ⟨s, hs, ?_⟩
    cases hby <;> rfl
  cases h with
  | introduced i cls hi => exact hintroduced hi
  | root i hi => exact hintroduced hi

theorem Position.line_le_of_le {p q : Position} (h : p.le q = true) : p.line ≤ q.line := by
  simp only [le, Bool.or_eq_true, Bool.and_eq_true, decide_eq_true_eq, beq_iff_eq] at h
  omega

/-- Statements that have been parsed stand in the order of their lines. -/
theorem Statement.line_le_of_parse {file text : String} {ss : List Statement}
    (h : parse file text = .ok ss) {i j : Nat} (hij : i ≤ j) {s t : Statement}
    (hs : ss[i]? = some s)
    (ht : ss[j]? = some t) : s.position.line ≤ t.position.line := by
  obtain ⟨_, _, _, _, rfl⟩ := parse_eq_ok_iff.mp h
  rcases Nat.eq_or_lt_of_le hij with rfl | hlt
  · obtain rfl := Option.some.inj (hs.symm.trans ht)
    exact Nat.le_refl _
  · obtain ⟨hi, rfl⟩ := List.getElem?_eq_some_iff.mp hs
    obtain ⟨hj, rfl⟩ := List.getElem?_eq_some_iff.mp ht
    exact Position.line_le_of_le (List.pairwise_iff_getElem.mp (pairwise_inOrder _) i j hi hj hlt)

namespace Batch

/-- Entities that statements of a file introduce are in its blocks, in the order of the
statements. -/
theorem seated_of_sited {file text : String} {a : Source.Annotated} {statements : List Statement}
    {imports : List ResolvedImport} {m : Model} (hread : (Source.read file text).outcome = .ok a)
    (hparse : Statement.parse file a.annotationText = .ok statements)
    (hsited : ∀ site ∈ m.sites, Model.Sited file imports statements site) : Glsl.Seated a m := by
  constructor
  · intro site hsite
    obtain ⟨s, hs, hposition⟩ := (hsited site hsite).getElem?_index
    obtain ⟨k, hline, hrole⟩ := Source.annotated_of_parse hread hparse (List.mem_of_getElem? hs)
    rw [← hposition, hline]
    exact Source.Annotated.exists_blockOf?_eq_some (Source.split_of_read hread) hrole
  · intro site hsite site' hsite' hle
    obtain ⟨s, hs, hposition⟩ := (hsited site hsite).getElem?_index
    obtain ⟨t, ht, hposition'⟩ := (hsited site' hsite').getElem?_index
    rw [← hposition, ← hposition']
    exact Statement.line_le_of_parse hparse hle hs ht

/-- The struct types in the text of an accepted file: they stand among its declarations, read from
top to bottom over all blocks, where its model needs them, and the text has the lines of each. -/
inductive DeclaresStructs (o : Options) (ns : Namespace) (f : SourceFile) (r : FileResult) : Prop
  | intro (p : ParsedFile) (analysed m : Model) (text : String) (rewriting : Glsl.Rewriting)
    (ds : Nat → List Glsl.Declaration) (hread : readFile f = .ok p)
    (hanalyse : analyse ns p = .ok analysed) (hplaced : Placed analysed m)
    (hsource : r.source = some text) (hwritten : Glsl.Written o p.source rewriting ds text)
    (hstructs : Glsl.StructsPlaced o m (Glsl.emitted p.source ds))
    (hstated : ∀ id members, .struct id members ∈ Glsl.emitted p.source ds →
      Glsl.StructStated text id members)

/-- In the text of every accepted file each struct type that a declaration has members of, or arrays
of, is declared once, in front of that declaration, with the members recorded for it.  The struct
types that are declared are those that a buffer of the file needs, itself or by others. -/
theorem compile_structs {o : Options} {v : Validator} {files : List SourceFile}
    {rs : List FileResult} (h : compile o v files = .ok rs) :
    ∃ ws, readAll [] files = .ok ws ∧ List.Forall₂ (fun f r => r.isOk = true →
      DeclaresStructs o (namespaceOf ws) f r) files rs := by
  obtain ⟨ws, hws, haccepted⟩ := compile_acceptedIn h
  refine ⟨ws, hws, haccepted.imp fun f r hr hok => ?_⟩
  obtain ⟨p, analysed, m, text, hread, hanalyse, hplaced, hgenerate, _, hsource, _⟩ := hr hok
  obtain ⟨a, statements, houtcome, hparse, rfl⟩ := readFile_eq_ok hread
  have hbuild := hanalyse
  simp only [analyse, bind_eq_ok_iff] at hbuild
  obtain ⟨imports, _, built, hbuild, hassign⟩ := hbuild
  have hunslotted := hplaced.unslotted.trans (Model.assignSlots_unslotted hassign)
  have hsited : ∀ site ∈ m.sites, Model.Sited f.name imports statements site := by
    rw [hplaced.sites, Model.assignSlots_sites hassign]
    exact fun site => ((Model.build_sites hbuild).1 site).mp
  have hstructs := (Model.accepted_of_build hbuild).structs
  rw [← Model.structs_eq_of_unslotted hunslotted] at hstructs
  obtain ⟨rewriting, ds, hwritten, hplacedStructs⟩ := Glsl.generate_structs hgenerate
    (Source.roles_of_read houtcome) (Source.split_of_read houtcome)
    (seated_of_sited houtcome hparse hsited)
    ((Model.build_ordered hbuild).of_unslotted_eq hunslotted).buffers hstructs
    ((Model.build_emittable hbuild).of_unslotted_eq hunslotted)
  exact .intro _ analysed m text rewriting ds hread hanalyse hplaced hsource hwritten hplacedStructs
    fun _ _ => hwritten.structStated

/-- A file with a buffer of an array of structs. -/
def porch : SourceFile := annotated "Porch"
  "const struct Light : Pack \x7b vec3f Tint; \x7d const struct Lamps \x7b Light[2] Pair; \x7d"

/-- A file that imports the buffer, and with it the struct. -/
def yard : SourceFile := annotated "Yard" "use Porch::Lamps;"

/-- The statements of the file with the buffer. -/
def porchRead : ParsedFile := ⟨sourceOf porch, ⟨"Porch",
  [⟨⟨3, 1⟩, .declare (.buffer "Light" (some .pack)
      [⟨⟨"vec3f", none, none⟩, "Tint", none, 0, ⟨3, 35⟩⟩])⟩,
   ⟨⟨3, 43⟩, .declare (.buffer "Lamps" none
      [⟨⟨"Light", none, some 2⟩, "Pair", none, 0, ⟨3, 73⟩⟩])⟩]⟩⟩

@[inherit_doc porchRead]
def yardRead : ParsedFile := ⟨sourceOf yard, ⟨"Yard", [⟨⟨3, 1⟩, .use ⟨"Porch", "Lamps", none⟩⟩]⟩⟩

theorem compile_structs_porch :
    ∃ rs, compile .default (.script default) [porch, yard] = .ok rs ∧
      rs.map FileResult.isOk = [true, true] ∧
      ∃ ws, readAll [] [porch, yard] = .ok ws ∧
        List.Forall₂ (DeclaresStructs .default (namespaceOf ws)) [porch, yard] rs := by
  have hporchFile : porch = annotatedFile ("Porch", _) := rfl
  have hyardFile : yard = annotatedFile ("Yard", _) := rfl
  have hporch : readFile porch = .ok porchRead := by
    rw [porchRead, hporchFile]
    exact readFile_line (by decide) (by decide +kernel)
  have hyard : readFile yard = .ok yardRead := by
    rw [yardRead, hyardFile]
    exact readFile_line (by decide) (by decide +kernel)
  have hread : readAll [] [porch, yard] = .ok [readTo porch porchRead, readTo yard yardRead] := by
    rw [readAll_eq_mapM (by decide) (by simp)]
    exact mapM_of_forall₂ (.cons (readWork_readTo hporch) (.cons (readWork_readTo hyard) .nil))
  obtain ⟨rs, hrs, hoks⟩ := exists_eq_ok_of_any
    (show ((finish .default (.script default)
      [readTo porch porchRead, readTo yard yardRead]).toOption.any fun rs =>
        rs.map FileResult.isOk = [true, true]) = true by
        rw [porchRead, yardRead, hporchFile, hyardFile, sourceOf_annotated (by decide),
          sourceOf_annotated (by decide)]
        decide +kernel)
  have hoks : rs.map FileResult.isOk = [true, true] := of_decide_eq_true hoks
  have hcompile : compile .default (.script default) [porch, yard] = .ok rs := by
    rw [compile_eq_finish]
    exact bind_eq_ok_iff.mpr ⟨_, hread, hrs⟩
  obtain ⟨ws, hws, hstructs⟩ := compile_structs hcompile
  have hok : ∀ r ∈ rs, r.isOk = true := fun r hr => by
    have hmem := List.mem_map_of_mem (f := FileResult.isOk) hr
    simpa [hoks] using hmem
  exact ⟨rs, hcompile, hoks, ws, hws, forall₂_imp_of_mem hstructs fun f r hr h => h (hok r hr)⟩

end Batch

end AnnotatedShader
