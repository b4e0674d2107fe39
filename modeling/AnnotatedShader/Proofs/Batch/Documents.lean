import AnnotatedShader.Proofs.Batch.Interface
import AnnotatedShader.Proofs.Batch.Recording
import AnnotatedShader.Proofs.Model.States
import AnnotatedShader.Proofs.Reflection.Document

set_option autoImplicit false

/-!
# The documents of a batch

The reflection of an accepted file lists each pipeline and blend function that the file declares or
imports, with all entries of the declaration in their order, and the document is well-formed and
read back as the reflection.

A floating literal beyond all finite values is an infinity, for which documents have no number.
`NoInfinity` is the condition that no literal of an accepted file is one; it is asked of the
statements of the batch, since an imported state block brings its values along
(`statesFinite_of_noInfinity`).  `Documented` is what then holds of the document: its text denotes
one value of the grammar of JSON, and this value is read back as the record with all its fields in
order.
-/

namespace AnnotatedShader.Batch

open Reflection (pipelineRecord? blendFuncRecord?)

/-- No infinity in the entries of state blocks. -/
def NoInfinity (blocks : List StateRecord) : Prop :=
  ∀ b ∈ blocks, ∀ e ∈ b.entries, ∀ negative, e.value ≠ .float (.infinite negative)

/-- The state blocks of the reflection of a file, and its document. -/
structure Documented (ns : Namespace) (m : Module) (x : Reflection) : Prop where
  pipelines : x.pipelines = (m.brought ns).filterMap pipelineRecord?
  blendFuncs : x.blendFuncs = (m.brought ns).filterMap blendFuncRecord?
  keys : ∀ b ∈ x.pipelines ++ x.blendFuncs, (b.entries.map StateEntry.key).Nodup
  document : NoInfinity (x.pipelines ++ x.blendFuncs) →
    x.toJson.integers.all Number.isWritable = true → ∃ text, x.document = .ok text ∧ x.Holds text

theorem statesOf_of_analyse {ns : Namespace} {p : ParsedFile} {m : Model}
    (h : analyse ns p = .ok m) : Model.StatesOf p.module ns m := by
  simp only [analyse, bind_eq_ok_iff] at h
  obtain ⟨imports, himports, built, hbuild, hassign⟩ := h
  exact (Model.build_statesOf himports hbuild).of_unslotted_eq (Model.assignSlots_unslotted hassign)

/-- The floating numbers of a reflection are those of declarations, so they are in their one
form. -/
theorem statesFinite_of_noInfinity {ms : List Module} (hms : ∀ m ∈ ms, m.Canonical) {m : Module}
    (hm : m.Canonical) {blocks : List StateRecord}
    (hblocks : ∀ b ∈ blocks, ∃ brought ∈ m.brought (.ofModules ms),
      pipelineRecord? brought = some b ∨ blendFuncRecord? brought = some b)
    (h : NoInfinity blocks) : Reflection.StatesFinite blocks := by
  intro b hb e he x hx
  obtain ⟨brought, hbrought, hrecord⟩ := hblocks b hb
  rw [Reflection.entries_of_record? hrecord] at he
  refine ⟨Module.brought_canonical hms hm hbrought e he x hx, fun negative hinfinite => ?_⟩
  rw [← Reflection.entries_of_record? hrecord] at he
  exact h b hb e he negative (hinfinite ▸ hx)

theorem documented_of_model {ms : List Module} (hms : ∀ m ∈ ms, m.Canonical) {module : Module}
    (hmodule : module.Canonical) {m : Model} (h : Model.StatesOf module (.ofModules ms) m) :
    Documented (.ofModules ms) module (.ofModel m) := by
  have hpipelines : (Reflection.ofModel m).pipelines = _ := h.pipelines
  have hblendFuncs : (Reflection.ofModel m).blendFuncs = _ := h.blendFuncs
  refine ⟨hpipelines, hblendFuncs, ?_, fun hfinite hintegers => ?_⟩
  · have hrecords : (Reflection.ofModel m).pipelines ++ (Reflection.ofModel m).blendFuncs =
        (m.pipelines ++ m.blendFuncs).map Reflection.stateRecord := by
      rw [List.map_append]
      rfl
    rw [hrecords]
    exact List.forall_mem_map.mpr h.keys
  · refine Reflection.document_holds (statesFinite_of_noInfinity hms hmodule ?_ hfinite) hintegers
    intro b hb
    rcases List.mem_append.mp hb with hb | hb
    · rw [hpipelines] at hb
      obtain ⟨brought, hbrought, hrecord⟩ := List.mem_filterMap.mp hb
      exact ⟨brought, hbrought, .inl hrecord⟩
    · rw [hblendFuncs] at hb
      obtain ⟨brought, hbrought, hrecord⟩ := List.mem_filterMap.mp hb
      exact ⟨brought, hbrought, .inr hrecord⟩

/-- The reflection of an accepted file lists the pipelines and blend functions that the file
declares or imports, with all entries of each in the order of its declaration and no key twice.  Its
document is a well-formed text that is read back as the reflection, unless it has an infinity or too
large an integer. -/
theorem compile_documents {o : Options} {v : Validator} {files : List SourceFile}
    {rs : List FileResult} (hreflection : o.emitReflection = true)
    (h : compile o v files = .ok rs) :
    ∃ ws, readAll [] files = .ok ws ∧
      List.Forall₂ (fun f r => r.isOk = true → ∃ p x, readFile f = .ok p ∧ r.reflection = some x ∧
        Documented (namespaceOf ws) p.module x) files rs := by
  obtain ⟨ws, hread, haccepted⟩ := compile_acceptedIn h
  have hms : ∀ m ∈ modulesIn ws, m.Canonical :=
    forall_mem_modulesIn (fun _ _ _ => Statement.parse_canonical) hread
  refine ⟨ws, hread, haccepted.imp fun f r hok hr => ?_⟩
  obtain ⟨p, analysed, m, source, hfile, hanalyse, hplaced, _, _, _, hx⟩ := hok hr
  rw [if_pos hreflection] at hx
  refine ⟨p, .ofModel m, hfile, hx, documented_of_model hms ?_ ?_⟩
  · obtain ⟨a, statements, _, hparse, rfl⟩ := readFile_eq_ok hfile
    exact Statement.parse_canonical hparse
  · exact (statesOf_of_analyse hanalyse).of_unslotted_eq hplaced.unslotted

/-- A file with a pipeline. -/
def glass : List SourceFile :=
  [annotated "Glass" "pipeline Opaque \x7b Alpha = 0.5; Depth::Write = true; \x7d"]

theorem compile_documents_glass : Options.default.emitReflection = true ∧
    ∃ rs, compile .default (.script default) glass = .ok rs ∧
      (rs.map fun r => (r.isOk, r.reflection.map Reflection.pipelines)) =
        [(true, some [⟨"Opaque", [⟨"Alpha", .float (.finite false 4503599627370496 (-53))⟩,
          ⟨"Depth::Write", .bool true⟩]⟩])] ∧
      ∃ ws, readAll [] glass = .ok ws ∧
        List.Forall₂ (fun f r => r.isOk = true → ∃ p x, readFile f = .ok p ∧ r.reflection = some x ∧
          Documented (namespaceOf ws) p.module x) glass rs := by
  have hcompile : (compile .default (.script default) glass).map (fun rs => rs.map fun r =>
      (r.isOk, r.reflection.map Reflection.pipelines)) =
        .ok [(true, some [⟨"Opaque", [⟨"Alpha", .float (.finite false 4503599627370496 (-53))⟩,
          ⟨"Depth::Write", .bool true⟩]⟩])] := by
    rw [show glass = [(_, _)].map annotatedFile from rfl, compile_annotated (by decide) (by decide)]
    decide +kernel
  obtain ⟨rs, hrs, hpipelines⟩ := map_eq_ok_iff.mp hcompile
  exact ⟨rfl, rs, hrs, hpipelines, compile_documents rfl hrs⟩

end AnnotatedShader.Batch
