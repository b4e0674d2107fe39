import AnnotatedShader.Proofs.Batch.Acceptance
import AnnotatedShader.Proofs.Batch.Isolation
import AnnotatedShader.Proofs.Glsl.Interface
import AnnotatedShader.Proofs.Model.Provenance
import AnnotatedShader.Proofs.Slot.Unslotted
import AnnotatedShader.Proofs.Statement.Parsing

set_option autoImplicit false

/-!
# Interfaces of accepted files

The model of an accepted file has resources that are addressed, also when the file shares its slots
with other files, and it has resources only if the file has a block.  So what is declared in the
generated text and what is recorded of it correspond.

Two facts about models are needed for this, and both are kept by relocation.  Slots and names are
distinct where they have to be (`analyse_addressed`, `Placed.addressed`), which makes the
correspondence one to one.  And a file without annotations has no resources (`analyse_bare`,
`Placed.bare`), so no declaration falls into a block that is not there.  The rest is about one text
and one model and comes from the theory of interfaces: the declarations, the records, and the line
of the text that each recorded resource has.
-/

namespace AnnotatedShader.Batch

open Glsl (Bare)

/-! ## Models of accepted files -/

theorem analyse_addressed {ns : Namespace} {p : ParsedFile} {m : Model}
    (h : analyse ns p = .ok m) : m.Addressed := by
  simp only [analyse, bind_eq_ok_iff] at h
  obtain ⟨_, _, model, hbuild, hassign⟩ := h
  exact Model.assignSlots_addressed (Model.build_names hbuild) (Model.build_inputs hbuild) hassign

theorem Placed.addressed {m placed : Model} (h : Placed m placed) (hm : m.Addressed) :
    placed.Addressed := by
  cases h with
  | alone => exact hm
  | shared ms buffers textures hmem htables =>
    exact Program.rebind_addressed htables.buffers htables.textures hmem hm

theorem Placed.unslotted {m placed : Model} (h : Placed m placed) :
    placed.unslotted = m.unslotted := by
  cases h with
  | alone => rfl
  | shared ms buffers textures => exact Program.rebind_unslotted buffers textures m

/-- A file without statements has no resources. -/
theorem analyse_bare {ns : Namespace} {p : ParsedFile} {m : Model}
    (hnone : p.module.statements = []) (h : analyse ns p = .ok m) : Bare m := by
  simp only [analyse, bind_eq_ok_iff] at h
  obtain ⟨_, _, model, hbuild, hassign⟩ := h
  obtain ⟨_, d, hvisit, hroot, _⟩ := Model.build_eq_ok hbuild
  rw [hnone] at hvisit
  obtain rfl := Except.ok.inj hvisit
  cases hroot with
  | root b _ hb =>
    obtain ⟨first, rest, hroots, _⟩ := hb.eq
    simp at hroots
  | plain =>
    simp only [Model.assignSlots, bind_eq_ok_iff] at hassign
    obtain ⟨_, hformat, _, _, _, hbuffers, _, _, _, htextures, _, _, _, houtputs, h⟩ := hassign
    obtain rfl := Except.ok.inj hformat
    obtain rfl := Except.ok.inj hbuffers
    obtain rfl := Except.ok.inj htextures
    obtain rfl := Except.ok.inj houtputs
    obtain rfl := Except.ok.inj h
    exact ⟨rfl, rfl, rfl, rfl⟩

theorem Placed.bare {m placed : Model} (h : Placed m placed) (hm : Bare m) : Bare placed := by
  cases h with
  | alone => exact hm
  | shared ms buffers textures hmem htables =>
    exact ⟨hm.vertexFormat, by simp [Program.rebind, hm.buffers],
      by simp [Program.rebind, hm.textures], hm.outputs⟩

/-- A file is read off its annotations, so without a block it has no statements. -/
theorem readFile_source {f : SourceFile} {p : ParsedFile} (h : readFile f = .ok p) :
    (Source.read f.name f.text).outcome = .ok p.source ∧
      (Source.openings p.source = 0 → p.module.statements = []) := by
  obtain ⟨a, statements, ha, hparse, rfl⟩ := readFile_eq_ok h
  refine ⟨ha, fun hnone => ?_⟩
  have hgaps : ∀ c ∈ a.annotationText.toList, Lexer.isGap c = true := fun c hc => by
    rw [Source.annotationText_of_openings_eq_zero ha hnone c hc]
    rfl
  exact (Except.ok.inj ((Statement.parse_of_gaps hgaps).symm.trans hparse)).symm

/-! ## Declarations and records -/

/-- When declarations state their bindings, the declarations in the text of an accepted file and its
reflection record correspond one to one, kind by kind, and the lists of the record ascend in their
slots.  The text has a line for each resource that is recorded. -/
theorem compile_interface {o : Options} {v : Validator} {files : List SourceFile}
    {rs : List FileResult} (hbindings : o.explicitBindings = true)
    (hreflection : o.emitReflection = true) (h : compile o v files = .ok rs) :
    List.Forall₂ (fun f r => r.isOk = true →
      ∃ a text rewriting ds reflection, (Source.read f.name f.text).outcome = .ok a ∧
        r.source = some text ∧ Glsl.Written o a rewriting ds text ∧
        r.reflection = some reflection ∧ Glsl.Corresponds o (Glsl.emitted a ds) reflection ∧
        Glsl.Stated o text reflection ∧ Glsl.Ascending reflection) files rs := by
  obtain ⟨ns, haccepted⟩ := compile_accepted h
  refine haccepted.imp fun f r hr hok => ?_
  obtain ⟨p, analysed, m, text, hread, hanalyse, hplaced, hgenerate, _, hsource, hrecord⟩ := hr hok
  obtain ⟨houtcome, hnone⟩ := readFile_source hread
  have haddressed : m.Addressed := hplaced.addressed (analyse_addressed hanalyse)
  obtain ⟨rewriting, ds, blocks, hwritten, hblocks, hemitted⟩ :=
    Glsl.generate_emitted hgenerate (Source.roles_of_read houtcome)
      fun hopenings => hplaced.bare (analyse_bare (hnone hopenings) hanalyse)
  have hcorresponds := Glsl.corresponds hemitted hblocks hbindings haddressed
  exact ⟨p.source, text, rewriting, ds, .ofModel m, houtcome, hsource, hwritten,
    by rw [hrecord, if_pos hreflection], hcorresponds, hcorresponds.stated hwritten,
    Glsl.ofModel_ascending haddressed⟩

/-- A file that declares a buffer, one that imports it under another name, and one with an
output. -/
def scene : List SourceFile :=
  [annotated "Camera" "const struct Camera \x7b float Zoom; float[2] Tilt; \x7d",
   annotated "Lit" "use Camera::Camera as Lens;",
   annotated "Glow" "output vec4f Glow;"]

theorem compile_interface_scene :
    ∃ rs, compile .default (.script default) scene = .ok rs ∧ (∀ r ∈ rs, r.isOk = true) ∧
      List.Forall₂ (fun f r =>
        ∃ a text rewriting ds reflection, (Source.read f.name f.text).outcome = .ok a ∧
          r.source = some text ∧ Glsl.Written .default a rewriting ds text ∧
          r.reflection = some reflection ∧
          Glsl.Corresponds .default (Glsl.emitted a ds) reflection ∧
          Glsl.Stated .default text reflection ∧ Glsl.Ascending reflection) scene rs := by
  have hcompile : ((compile .default (.script default) scene).toOption.any fun rs =>
      rs.all FileResult.isOk) = true := by
    rw [show scene = [(_, _), (_, _), (_, _)].map annotatedFile from rfl,
      compile_annotated (by decide) (by decide)]
    decide +kernel
  obtain ⟨rs, hrs, hok⟩ := exists_eq_ok_of_any hcompile
  rw [List.all_eq_true] at hok
  refine ⟨rs, hrs, hok, ?_⟩
  exact forall₂_imp_of_mem (compile_interface rfl rfl hrs) fun f r hr h => h (hok r hr)

end AnnotatedShader.Batch
