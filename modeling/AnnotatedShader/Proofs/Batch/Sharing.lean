import AnnotatedShader.Proofs.Batch.Recording
import AnnotatedShader.Proofs.Batch.Interface
import AnnotatedShader.Proofs.Model.Sharing

set_option autoImplicit false

/-!
# Slots that files share

In a program two files have buffers at one slot exactly if these have one name.  The slot says
nothing about the contents: these are recorded alike when both files give the buffer the same
members.

All files that keep their models are relocated with one table of slots (`relocateFrom_tables`).  A
table gives each name one slot and each slot one name, which is what `InProgram` says of a buffer of
the program.  Contents come from the analysis: two files build a buffer alike when it comes from one
declaration (`InProgram.consistent`), and the root buffers of two files, which have one name, hold
what each file puts into its own.  `Shares` states both for the results of a batch.

The second example has two root buffers, at one slot and with different members.
-/

namespace AnnotatedShader.Batch

open Model (BuiltIn)
open Program

/-! ## One table of slots -/

theorem length_models_dropModel {d : Diagnostic} {ws : List Work}
    (h : ∃ m ∈ models ws, m.file = d.file) :
    (models (dropModel d ws)).length < (models ws).length := by
  induction ws with
  | nil =>
    obtain ⟨_, hm, _⟩ := h
    cases hm
  | cons w rest ih =>
    rw [dropModel]
    split
    · rename_i hfile
      obtain ⟨m, hmodel, _⟩ := Option.map_eq_some_iff.mp hfile
      rw [models_cons_none rfl, models_cons_some hmodel]
      exact Nat.lt_succ_self _
    · rename_i hother
      cases hmodel : w.model with
      | none =>
        rw [models_cons_none hmodel] at h
        rw [models_cons_none hmodel, models_cons_none hmodel]
        exact ih h
      | some first =>
        rw [models_cons_some hmodel] at h
        rw [models_cons_some hmodel, models_cons_some hmodel]
        refine Nat.succ_lt_succ (ih ?_)
        obtain ⟨m, hm, hfile⟩ := h
        rcases List.mem_cons.mp hm with rfl | hm
        · exact absurd (by rw [hmodel, Option.map_some, hfile]) hother
        · exact ⟨m, hm, hfile⟩

/-- A work that has lost its model differs in nothing else but its diagnostics. -/
theorem mem_dropModel {d : Diagnostic} {ws : List Work} {w : Work} (h : w ∈ dropModel d ws) :
    w ∈ ws ∨ ∃ old ∈ ws, w = { old with model := none, diagnostics := old.diagnostics ++ [d] } := by
  induction ws with
  | nil => cases h
  | cons first rest ih =>
    rw [dropModel] at h
    split at h
    · rcases List.mem_cons.mp h with rfl | h
      · exact .inr ⟨first, List.mem_cons_self, rfl⟩
      · exact .inl (List.mem_cons_of_mem _ h)
    · rcases List.mem_cons.mp h with rfl | h
      · exact .inl List.mem_cons_self
      · rcases ih h with h | ⟨old, hold, heq⟩
        · exact .inl (List.mem_cons_of_mem _ h)
        · exact .inr ⟨old, List.mem_cons_of_mem _ hold, heq⟩

/-- What is known of the work on a file of a batch: its module is registered under its name, and its
model comes from the analysis of this module. -/
structure Owned (ms : List Module) (w : Work) : Prop where
  registered : ∀ p, w.parsed = some p → p.module ∈ ms ∧ p.module.file = w.name
  analysed : ∀ m, w.model = some m → ∃ p, w.parsed = some p ∧ analyse (.ofModules ms) p = .ok m

theorem dropModel_owned {ms : List Module} {d : Diagnostic} {ws : List Work}
    (h : ∀ w ∈ ws, Owned ms w) : ∀ w ∈ dropModel d ws, Owned ms w := by
  intro w hw
  rcases mem_dropModel hw with hw | ⟨old, hold, rfl⟩
  · exact h w hw
  · exact ⟨(h old hold).registered, fun _ hm => nomatch hm⟩

/-- In the last round of relocation all models that are left get their slots from the same
tables. -/
theorem relocateFrom_tables {ms : List Module} {fuel : Nat} {ws : List Work}
    (h : ∀ w ∈ ws, Owned ms w) (hfuel : (models ws).length < fuel) :
    ∃ left buffers textures, Tables left buffers textures ∧
      ∀ w ∈ relocateFrom fuel ws, ∃ old, Owned ms old ∧ (∀ m, old.model = some m → m ∈ left) ∧
        w = { old with model := old.model.map (rebind buffers textures) } := by
  induction fuel generalizing ws with
  | zero => contradiction
  | succ fuel ih =>
    unfold relocateFrom
    split
    · rename_i placed hplaced
      obtain ⟨buffers, textures, htables, rfl⟩ := exists_tables hplaced
      refine ⟨models ws, buffers, textures, htables, ?_⟩
      rw [replaceModels_map]
      refine List.forall_mem_map.mpr fun old hold => ⟨old, h old hold, fun m hm => ?_, rfl⟩
      exact List.mem_filterMap.mpr ⟨old, hold, hm⟩
    · rename_i d hd
      have hless :=
        length_models_dropModel (mem_of_addModels_eq_error (relocate_eq_error_iff.mp hd))
      exact ih (dropModel_owned h) (Nat.lt_of_lt_of_le hless (Nat.le_of_lt_succ hfuel))

theorem analyseWork_owned {ms : List Module} {f : SourceFile} {w a : Work} (hw : HasBeenRead f w)
    (hmodule : ∀ p, w.parsed = some p → p.module ∈ ms)
    (h : analyseWork (.ofModules ms) w = .ok a) : Owned ms a := by
  cases hw with
  | rejected d =>
    obtain rfl := Except.ok.inj h
    exact ⟨fun _ hp => (nomatch hp), fun _ hm => (nomatch hm)⟩
  | parsed p hread =>
    have hregistered : ∀ q, some p = some q → q.module ∈ ms ∧ q.module.file = f.name := by
      intro q hq
      obtain rfl := Option.some.inj hq
      exact ⟨hmodule p rfl, readFile_module_file hread⟩
    obtain ⟨outcome, houtcome, h⟩ := bind_eq_ok_iff.mp h
    cases outcome with
    | error d =>
      obtain rfl := Except.ok.inj h
      exact ⟨hregistered, fun _ hm => nomatch hm⟩
    | ok m =>
      obtain rfl := Except.ok.inj h
      refine ⟨hregistered, fun m' hm' => ⟨p, rfl, ?_⟩⟩
      rw [← Option.some.inj hm']
      exact spare_eq_ok_ok_iff.mp houtcome

/-! ## Buffers in the program -/

/-- A model of a file of a program, in which a map gives the names of buffers their slots. -/
structure InProgram (ms : List Module) (met : List String) (slot : String → Int) (module : Module)
    (m : Model) : Prop where
  built : ∃ built, BuiltIn ms module built ∧ m.unslotted = built.unslotted
  bound : ∀ b ∈ m.buffers, b.name ∈ met ∧ b.binding = slot b.name

/-- What the map must be: different names have different slots. -/
def TellsApart (met : List String) (slot : String → Int) : Prop :=
  ∀ name ∈ met, ∀ name' ∈ met, slot name = slot name' → name = name'

theorem builtIn_of_analyse {ms : List Module} (hfiles : (ms.map Module.file).Nodup)
    {p : ParsedFile} (hp : p.module ∈ ms) {m : Model} (h : analyse (.ofModules ms) p = .ok m) :
    ∃ built, BuiltIn ms p.module built ∧ m.unslotted = built.unslotted := by
  simp only [analyse, bind_eq_ok_iff] at h
  obtain ⟨imports, himports, built, hbuild, hassign⟩ := h
  refine ⟨built, ⟨hp, fun m' hm' hfile => ?_, p.source.stage, imports, himports, hbuild⟩,
    Model.assignSlots_unslotted hassign⟩
  exact List.inj_on_of_nodup_map hfiles hm' hp hfile

/-- The models of a program share one map from the names of buffers to slots. -/
theorem relocate_inProgram {ms : List Module} (hfiles : (ms.map Module.file).Nodup)
    {ws : List Work} (h : ∀ w ∈ ws, Owned ms w) :
    ∃ met slot, TellsApart met slot ∧ ∀ w ∈ relocate ws, ∀ m, w.model = some m →
      ∃ p, w.parsed = some p ∧ p.module ∈ ms ∧ p.module.file = w.name ∧
        InProgram ms met slot p.module m := by
  obtain ⟨left, buffers, textures, htables, hworks⟩ :=
    relocateFrom_tables h (Nat.lt_succ_of_le (List.length_filterMap_le _ _))
  obtain ⟨slot, hslot, hnumbering⟩ := slots_numbering htables.buffers
  rw [flatMap_declared_buffersOf] at hslot hnumbering
  refine ⟨buffersMet left, slot, hnumbering.injective, fun w hw m hm => ?_⟩
  obtain ⟨old, howned, hleft, rfl⟩ := hworks w hw
  obtain ⟨analysed, hanalysed, rfl⟩ := Option.map_eq_some_iff.mp hm
  obtain ⟨p, hparsed, hanalyse⟩ := howned.analysed analysed hanalysed
  obtain ⟨hmodule, hfile⟩ := howned.registered p hparsed
  obtain ⟨built, hbuilt, hsame⟩ := builtIn_of_analyse hfiles hmodule hanalyse
  refine ⟨p, hparsed, hmodule, hfile,
    ⟨built, hbuilt, (rebind_unslotted buffers textures analysed).trans hsame⟩, ?_⟩
  refine List.forall_mem_map.mpr fun b hb => ?_
  have hmet := name_mem_buffersMet (hleft analysed hanalysed) hb
  exact ⟨hmet, by rw [hslot b.name hmet, Option.getD_some]⟩

theorem InProgram.exists_built {ms : List Module} {met : List String} {slot : String → Int}
    {module : Module} {m : Model} (h : InProgram ms met slot module m) {b : Buffer}
    (hb : b ∈ m.buffers) : ∃ built, BuiltIn ms module built ∧ ∃ b' ∈ built.buffers,
      { b' with binding := b.binding } = b := by
  obtain ⟨built, hbuilt, hsame⟩ := h.built
  have hbuffers := congrArg Model.buffers hsame
  simp only [Model.unslotted] at hbuffers
  have hmem := List.mem_map_of_mem (f := fun b : Buffer => { b with binding := unassigned }) hb
  rw [hbuffers] at hmem
  obtain ⟨b', hb', heq⟩ := List.mem_map.mp hmem
  have hbound := congrArg (fun x : Buffer => { x with binding := b.binding }) heq
  exact ⟨built, hbuilt, b', hb', hbound⟩

/-- Two buffers of two files of a program: they have one slot exactly if they have one name, the
same records then if they have the same members, and the same members if both come from one
declaration. -/
structure Consistent (ms : List Module) (module₁ module₂ : Module) (b₁ b₂ : Buffer) : Prop where
  names : b₁.binding = b₂.binding ↔ b₁.name = b₂.name
  records : b₁.binding = b₂.binding → b₁.SameMembers b₂ →
    Reflection.bufferRecord b₁ = Reflection.bufferRecord b₂
  declared : ∀ sym, (Namespace.ofModules ms).lookup sym.file sym.name = some sym →
    module₁.Brings sym b₁.name → module₂.Brings sym b₂.name → b₁.SameMembers b₂

theorem InProgram.consistent {ms : List Module} {met : List String} {slot : String → Int}
    {module₁ module₂ : Module} {m₁ m₂ : Model} (h₁ : InProgram ms met slot module₁ m₁)
    (h₂ : InProgram ms met slot module₂ m₂) (hslot : TellsApart met slot) {b₁ b₂ : Buffer}
    (hb₁ : b₁ ∈ m₁.buffers) (hb₂ : b₂ ∈ m₂.buffers) : Consistent ms module₁ module₂ b₁ b₂ := by
  obtain ⟨hmet₁, hbound₁⟩ := h₁.bound b₁ hb₁
  obtain ⟨hmet₂, hbound₂⟩ := h₂.bound b₂ hb₂
  obtain ⟨built₁, hbuilt₁, b₁', hb₁', heq₁⟩ := h₁.exists_built hb₁
  obtain ⟨built₂, hbuilt₂, b₂', hb₂', heq₂⟩ := h₂.exists_built hb₂
  have hnames : b₁.binding = b₂.binding ↔ b₁.name = b₂.name := by
    rw [hbound₁, hbound₂]
    exact ⟨hslot _ hmet₁ _ hmet₂, congrArg slot⟩
  refine ⟨hnames, fun hbinding hsame => ?_, fun sym hexported hbrings₁ hbrings₂ => ?_⟩
  · have hname := hnames.mp hbinding
    rw [← heq₁, ← heq₂] at hsame hname ⊢
    obtain ⟨hmembers, hlayout⟩ := hbuilt₁.agree_of_sameMembers hbuilt₂ hb₁' hb₂' hsame
    simp only [Reflection.bufferRecord] at hname ⊢
    rw [hname, hbinding, hmembers, hlayout]
  · rw [← heq₁] at hbrings₁
    rw [← heq₂] at hbrings₂
    rw [← heq₁, ← heq₂]
    have hsame : b₁'.SameMembers b₂' :=
      hbuilt₁.sameMembers_of_brings hbuilt₂ hb₁' hb₂' hexported hbrings₁ hbrings₂
    exact hsame

/-! ## Reflections -/

/-- The reflection of a file is that of a model of its module, with the slots of the program. -/
structure Reflects (ms : List Module) (r : FileResult) (x : Reflection) (module : Module)
    (m : Model) : Prop where
  registered : module ∈ ms
  file : module.file = r.name
  reflection : x = .ofModel m
  built : ∃ built, BuiltIn ms module built ∧ m.unslotted = built.unslotted

/-- All buffers that two files list are consistent. -/
def Shares (ms : List Module) (r₁ r₂ : FileResult) : Prop :=
  ∀ x₁ x₂, r₁.reflection = some x₁ → r₂.reflection = some x₂ →
    ∃ module₁ m₁, Reflects ms r₁ x₁ module₁ m₁ ∧ ∃ module₂ m₂, Reflects ms r₂ x₂ module₂ m₂ ∧
      ∀ b₁ ∈ m₁.buffers, ∀ b₂ ∈ m₂.buffers, Consistent ms module₁ module₂ b₁ b₂

theorem Generated.exists_model {o : Options} {w : Work} {r : FileResult} (h : Generated o w r)
    {x : Reflection} (hx : r.reflection = some x) : ∃ m, w.model = some m ∧ x = .ofModel m := by
  cases h with
  | failed => contradiction
  | done p m source more validation hparsed hmodel =>
    have hreflection : (if o.emitReflection then some (Reflection.ofModel m) else none) = some x :=
      hx
    split at hreflection
    · exact ⟨m, hmodel, (Option.some.inj hreflection).symm⟩
    · contradiction

/-- With common slots the files of a batch list buffers at one slot exactly if these have one name.
They list one size and the same members there if they give the buffer the same members, and so they
do when both have it from one declaration. -/
theorem compile_shares {o : Options} {v : Validator} {files : List SourceFile}
    {rs : List FileResult} (hprogram : o.programBindings = true)
    (h : compile o v files = .ok rs) :
    ∃ ws, readAll [] files = .ok ws ∧ ∀ r₁ ∈ rs, ∀ r₂ ∈ rs, Shares (modulesIn ws) r₁ r₂ := by
  simp only [compile, analyseAll, bind_eq_ok_iff] at h
  obtain ⟨placed, ⟨ws, hread, analysed, hanalysed, hplaced⟩, hgenerate⟩ := h
  obtain ⟨hworks, hfiles, _⟩ := readAll_spec hread
  have howned : ∀ a ∈ analysed, Owned (modulesIn ws) a := by
    intro a ha
    obtain ⟨w, hw, hstep⟩ := exists_left_of_forall₂ (forall₂_of_mapM hanalysed) ha
    obtain ⟨f, _, hbeen⟩ := exists_left_of_forall₂ hworks hw
    refine analyseWork_owned hbeen (fun p hp => ?_) hstep
    exact List.mem_filterMap.mpr ⟨w, hw, by rw [hp, Option.map_some]⟩
  obtain ⟨met, slot, hslot, hmodels⟩ := relocate_inProgram hfiles howned
  rw [if_pos hprogram] at hplaced
  obtain rfl := Except.ok.inj hplaced
  have hreflects : ∀ r ∈ rs, ∀ x, r.reflection = some x → ∃ module m,
      Reflects (modulesIn ws) r x module m ∧ InProgram (modulesIn ws) met slot module m := by
    intro r hr x hx
    obtain ⟨w, hw, hstep⟩ := exists_left_of_forall₂ (forall₂_of_mapM hgenerate) hr
    have hgenerated := generate_generated hstep
    obtain ⟨m, hmodel, hx⟩ := hgenerated.exists_model hx
    obtain ⟨p, _, hmodule, hfile, hin⟩ := hmodels w hw m hmodel
    exact ⟨p.module, m, ⟨hmodule, hfile.trans hgenerated.name.symm, hx, hin.built⟩, hin⟩
  refine ⟨ws, hread, fun r₁ hr₁ r₂ hr₂ x₁ x₂ hx₁ hx₂ => ?_⟩
  obtain ⟨module₁, m₁, hreflects₁, hm₁⟩ := hreflects r₁ hr₁ x₁ hx₁
  obtain ⟨module₂, m₂, hreflects₂, hm₂⟩ := hreflects r₂ hr₂ x₂ hx₂
  exact ⟨module₁, m₁, hreflects₁, module₂, m₂, hreflects₂,
    fun b₁ hb₁ b₂ hb₂ => hm₁.consistent hm₂ hslot hb₁ hb₂⟩

/-- A file with a struct, and one that imports it. -/
def lenses : List SourceFile :=
  [annotated "Lens" "const struct Lens \x7b mat4f View; float[2] Range; \x7d",
   annotated "Gaze" "use Lens::Lens;"]

theorem compile_shares_lenses : Options.default.programBindings = true ∧
    ∃ rs, compile .default (.script default) lenses = .ok rs ∧
      (rs.map fun r => r.reflection.map fun x => x.buffers.map fun b => (b.name, b.binding)) =
        [some [("Lens", 0)], some [("Lens", 0)]] ∧
      ∃ ws, readAll [] lenses = .ok ws ∧ ∀ r₁ ∈ rs, ∀ r₂ ∈ rs, Shares (modulesIn ws) r₁ r₂ := by
  have hcompile : (compile .default (.script default) lenses).map (fun rs => rs.map fun r =>
      r.reflection.map fun x => x.buffers.map fun b => (b.name, b.binding)) =
        .ok [some [("Lens", 0)], some [("Lens", 0)]] := by
    rw [show lenses = [(_, _), (_, _)].map annotatedFile from rfl,
      compile_annotated (by decide) (by decide)]
    decide +kernel
  obtain ⟨rs, hrs, hbuffers⟩ := map_eq_ok_iff.mp hcompile
  exact ⟨rfl, rs, hrs, hbuffers, compile_shares rfl hrs⟩

/-- Two files with a constant each, which are of different sizes. -/
def shores : List SourceFile :=
  [annotated "Sky" "const float Fog;", annotated "Sea" "const vec4f Foam;"]

/-- At a slot that two files share, each of them may have a buffer of its own contents. -/
theorem compile_shares_shores :
    ¬ ∀ (o : Options) (v : Validator) (files : List SourceFile) (rs : List FileResult),
      o.programBindings = true → compile o v files = .ok rs → ∀ r₁ ∈ rs, ∀ r₂ ∈ rs,
        r₁.isOk = true → r₂.isOk = true → ∀ x₁ x₂, r₁.reflection = some x₁ →
          r₂.reflection = some x₂ → ∀ b₁ ∈ x₁.buffers, ∀ b₂ ∈ x₂.buffers,
            b₁.binding = b₂.binding →
              b₁.name = b₂.name ∧ b₁.size = b₂.size ∧ b₁.members = b₂.members := by
  intro h
  have hcompile : ((compile .default (.script default) shores).toOption.any fun rs =>
      rs.any fun r₁ => rs.any fun r₂ => r₁.isOk && r₂.isOk &&
        r₁.reflection.any fun x₁ => r₂.reflection.any fun x₂ =>
          x₁.buffers.any fun b₁ => x₂.buffers.any fun b₂ =>
            decide (b₁.binding = b₂.binding) && decide (b₁.members ≠ b₂.members)) = true := by
    rw [show shores = [(_, _), (_, _)].map annotatedFile from rfl,
      compile_annotated (by decide) (by decide)]
    decide +kernel
  obtain ⟨rs, hrs, hany⟩ := exists_eq_ok_of_any hcompile
  simp only [List.any_eq_true, Bool.and_eq_true, Option.any_eq_true, decide_eq_true_eq] at hany
  obtain ⟨r₁, hr₁, r₂, hr₂, ⟨hok₁, hok₂⟩, x₁, hx₁, x₂, hx₂, b₁, hb₁, b₂, hb₂, hbinding, hne⟩ := hany
  exact hne (h _ _ _ rs rfl hrs r₁ hr₁ r₂ hr₂ hok₁ hok₂ x₁ x₂ hx₁ hx₂ b₁ hb₁ b₂ hb₂ hbinding).2.2

end AnnotatedShader.Batch
