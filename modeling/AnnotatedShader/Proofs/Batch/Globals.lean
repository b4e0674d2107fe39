import AnnotatedShader.Proofs.Batch.Interface
import AnnotatedShader.Proofs.Glsl.Globals

set_option autoImplicit false

/-!
# Global names of accepted files

The declarations in the text of an accepted file introduce everything once: each struct type, each
uniform block, each handle and each vertex input.  Whether the names of all these are distinct
depends on what no check sees to: struct types of one name from two files, and derived names.

That nothing is introduced twice comes from the analysis, which refuses a second declaration of a
handle (`analyse_handles`), and from the emission, which keeps the struct types that it has
declared.  Neither compares the names of struct types from different files with each other, or a
derived name such as that of a block with a name that is declared.  `Apart`, from the theory of
global names, is what remains to be asked, and the names are distinct exactly if it holds.
-/

namespace AnnotatedShader.Batch

open Glsl (Global globalsOf emitted)

theorem analyse_handles {ns : Namespace} {p : ParsedFile} {m : Model}
    (h : analyse ns p = .ok m) : m.handles.Nodup := by
  simp only [analyse, bind_eq_ok_iff] at h
  obtain ⟨_, _, model, hbuild, hassign⟩ := h
  rw [← Model.handles_unslotted, Model.assignSlots_unslotted hassign, Model.handles_unslotted]
  exact Model.build_handles hbuild

theorem Placed.handles {m placed : Model} (h : Placed m placed) : placed.handles = m.handles := by
  rw [← Model.handles_unslotted, h.unslotted, Model.handles_unslotted]

/-- In the text of an accepted file nothing is introduced twice.  The global names are distinct
exactly when struct types of one name are of one file, no handle or vertex input is named like a
struct type or a uniform block, and no vertex input like a handle. -/
theorem compile_globals {o : Options} {v : Validator} {files : List SourceFile}
    {rs : List FileResult} (h : compile o v files = .ok rs) :
    List.Forall₂ (fun f r => r.isOk = true →
      ∃ a text rewriting ds, (Source.read f.name f.text).outcome = .ok a ∧
        r.source = some text ∧ Glsl.Written o a rewriting ds text ∧
        (globalsOf (emitted a ds)).Nodup ∧
        (((globalsOf (emitted a ds)).map Global.name).Nodup ↔
          Global.Apart (globalsOf (emitted a ds)))) files rs := by
  obtain ⟨ns, haccepted⟩ := compile_accepted h
  refine haccepted.imp fun f r hr hok => ?_
  obtain ⟨p, analysed, m, text, hread, hanalyse, hplaced, hgenerate, _, hsource, _⟩ := hr hok
  obtain ⟨houtcome, hnone⟩ := readFile_source hread
  have hhandles : m.handles.Nodup := hplaced.handles ▸ analyse_handles hanalyse
  obtain ⟨rewriting, ds, hwritten, hglobals⟩ :=
    Glsl.generate_globals hgenerate (Source.roles_of_read houtcome)
      (fun hopenings => hplaced.bare (analyse_bare (hnone hopenings) hanalyse))
      (hplaced.addressed (analyse_addressed hanalyse)) hhandles
  exact ⟨p.source, text, rewriting, ds, houtcome, hsource, hwritten, hglobals,
    Global.nodup_names_iff hglobals⟩

/-- A file with a buffer, one with a constant, and one with a vertex format. -/
def lobby : List SourceFile :=
  [annotated "Camera" "const struct Camera \x7b float Zoom; \x7d",
   annotated "Dusk" "const float Dusk;",
   annotated "Mesh" "vformat struct Vertex \x7b vec3f Position; \x7d"]

theorem compile_globals_lobby :
    ∃ rs, compile .default (.script default) lobby = .ok rs ∧ (∀ r ∈ rs, r.isOk = true) ∧
      List.Forall₂ (fun f r =>
        ∃ a text rewriting ds, (Source.read f.name f.text).outcome = .ok a ∧
          r.source = some text ∧ Glsl.Written .default a rewriting ds text ∧
          (globalsOf (emitted a ds)).Nodup ∧
          (((globalsOf (emitted a ds)).map Global.name).Nodup ↔
            Global.Apart (globalsOf (emitted a ds)))) lobby rs := by
  have hcompile : ((compile .default (.script default) lobby).toOption.any fun rs =>
      rs.all FileResult.isOk) = true := by
    rw [show lobby = [(_, _), (_, _), (_, _)].map annotatedFile from rfl,
      compile_annotated (by decide) (by decide)]
    decide +kernel
  obtain ⟨rs, hrs, hok⟩ := exists_eq_ok_of_any hcompile
  rw [List.all_eq_true] at hok
  refine ⟨rs, hrs, hok, ?_⟩
  exact forall₂_imp_of_mem (compile_globals hrs) fun f r hr h => h (hok r hr)

end AnnotatedShader.Batch
