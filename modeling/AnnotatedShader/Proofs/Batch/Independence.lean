import AnnotatedShader.Proofs.Batch.Isolation
import AnnotatedShader.Proofs.Lists
import AnnotatedShader.Proofs.Namespace.Resolution

set_option autoImplicit false

/-!
# What a file depends on

Without common slots a batch does with each file what can be said of this file and the modules of
the batch alone.  Of these only the ones that are reached from the file matter.

`outcome` is what is said of one file: it is read, analysed in the namespace of the modules that can
be read, numbered and generated.  `compile_outcomes` has the results of a batch as the outcomes of
its files, one by one, whenever the batch has results at all.  A namespace with more modules in it
is alike in the region of the file (`ofModules_readable_alike`), so the outcome of a file is the
same in every batch that has the modules it reaches (`outcome_eq`).

The example at the end has a file that stands next to a cycle that it does not reach: whether the
cycle is there makes no difference to it.
-/

namespace AnnotatedShader.Batch

open Relation

/-- The modules of the files that can be read. -/
def readable (files : List SourceFile) : List Module :=
  files.filterMap fun f => (readFile f).toOption.map ParsedFile.module

/-- What becomes of a file among the modules of a batch. -/
def outcome (o : Options) (v : Validator) (files : List SourceFile) (f : SourceFile) :
    Except Failure FileResult := do
  let w ← readWork f
  let a ← analyseWork (.ofModules (readable files)) w
  generate o v a

variable {o : Options} {v : Validator} {files files' : List SourceFile} {f : SourceFile}

/-! ## A batch file by file -/

theorem outcome_name {r : FileResult} (h : outcome o v files f = .ok r) : r.name = f.name := by
  simp only [outcome, bind_eq_ok_iff] at h
  obtain ⟨w, hw, a, ha, hr⟩ := h
  rw [(generate_generated hr).name, analyseWork_name ha, (readWork_readAs hw).name]

/-- The module of a file whose work has begun. -/
theorem readWork_module {w : Work} (h : readWork f = .ok w) :
    w.parsed.map ParsedFile.module = (readFile f).toOption.map ParsedFile.module := by
  unfold readWork spare at h
  split at h
  · rename_i p hread
    obtain rfl := Except.ok.inj h
    rw [hread]
    rfl
  · rename_i d hread
    obtain rfl := Except.ok.inj h
    rw [hread]
    rfl
  · simp [bind, Except.bind] at h

theorem modulesIn_eq_readable {ws : List Work} (h : files.mapM readWork = .ok ws) :
    modulesIn ws = readable files := by
  have hpairs := forall₂_of_mapM h
  clear h
  induction hpairs with
  | nil => rfl
  | cons hw _ ih =>
    rw [modulesIn, readable, List.filterMap_cons, List.filterMap_cons, readWork_module hw]
    rw [modulesIn, readable] at ih
    rw [ih]

/-- Without common slots a batch gives each file its own outcome. -/
theorem compile_eq_ok_iff (hnames : (files.map SourceFile.name).Nodup)
    (hbindings : o.programBindings = false) {rs : List FileResult} :
    compile o v files = .ok rs ↔ files.mapM (outcome o v files) = .ok rs := by
  have hns : ∀ ws, files.mapM readWork = .ok ws →
      namespaceOf ws = .ofModules (readable files) := by
    intro ws hws
    rw [← modulesIn_eq_readable hws]
    rfl
  have houtcome : outcome o v files = fun f => readWork f >>= fun w =>
      analyseWork (.ofModules (readable files)) w >>= generate o v := rfl
  simp only [houtcome, mapM_bind_eq_ok_iff, compile, analyseAll, hbindings,
    readAll_eq_mapM hnames (show ∀ f ∈ files, f.name ∉ [] by simp), bind_eq_ok_iff]
  constructor
  · rintro ⟨final, ⟨ws, hws, as, has, hfinal⟩, hrs⟩
    obtain rfl := Except.ok.inj hfinal
    exact ⟨ws, hws, as, hns ws hws ▸ has, hrs⟩
  · rintro ⟨ws, hws, as, has, hrs⟩
    exact ⟨as, ⟨ws, hws, as, (hns ws hws).symm ▸ has, rfl⟩, hrs⟩

/-- A batch has results when each file has an outcome, and then the outcomes are its results. -/
theorem compile_outcomes (hnames : (files.map SourceFile.name).Nodup)
    (hbindings : o.programBindings = false) :
    ((∃ rs, compile o v files = .ok rs) ↔ ∀ f ∈ files, ∃ r, outcome o v files f = .ok r) ∧
      ∀ rs, compile o v files = .ok rs →
        ∀ f ∈ files, ∃ r, outcome o v files f = .ok r ∧ rs.filter (·.name = f.name) = [r] := by
  simp only [compile_eq_ok_iff hnames hbindings]
  refine ⟨exists_mapM_eq_ok_iff, ?_⟩
  intro rs hrs f hf
  have hpairs := forall₂_of_mapM hrs
  have hkeys : rs.map FileResult.name = files.map SourceFile.name :=
    map_eq_of_forall₂ hpairs fun _ _ hr => outcome_name hr
  obtain ⟨r, hr, houtcome⟩ := exists_right_of_forall₂ hpairs hf
  refine ⟨r, houtcome, ?_⟩
  rw [← outcome_name houtcome]
  exact filter_key_eq_singleton (hkeys ▸ hnames) hr

/-! ## What is reached from a file -/

theorem mem_readable {m : Module} :
    m ∈ readable files ↔ ∃ f ∈ files, ∃ p, readFile f = .ok p ∧ p.module = m := by
  simp only [readable, List.mem_filterMap, Option.map_eq_some_iff]
  constructor
  · rintro ⟨f, hf, p, hp, rfl⟩
    cases hread : readFile f with
    | error e => simp [hread, Except.toOption] at hp
    | ok q =>
      rw [hread] at hp
      obtain rfl : q = p := Option.some.inj hp
      exact ⟨f, hf, q, hread, rfl⟩
  · rintro ⟨f, hf, p, hp, rfl⟩
    exact ⟨f, hf, p, by rw [hp]; rfl, rfl⟩

/-- The modules of a name are those of the files of this name. -/
theorem modulesOf_readable (files : List SourceFile) (name : String) :
    modulesOf (readable files) name = readable (files.filter fun f => f.name = name) := by
  unfold readable modulesOf
  induction files with
  | nil => rfl
  | cons f rest ih =>
    cases hread : readFile f with
    | error e =>
      by_cases hname : f.name = name <;> simpa [hread, Except.toOption, hname] using ih
    | ok p =>
      have hfile := readFile_module_file hread
      by_cases hname : f.name = name
      · simpa [hread, Except.toOption, hname, hfile] using ih
      · simpa [hread, Except.toOption, hname, hfile] using ih

theorem importing_readable_iff {a b : String} :
    Module.Importing (readable files) a b ↔ Uses files a b := by
  constructor
  · rintro ⟨m, hm, rfl, hentry⟩
    obtain ⟨f, hf, p, hp, rfl⟩ := mem_readable.mp hm
    exact ⟨f, hf, (readFile_module_file hp).symm, p, hp, hentry⟩
  · rintro ⟨f, hf, rfl, p, hp, hentry⟩
    exact ⟨p.module, mem_readable.mpr ⟨f, hf, p, hp, rfl⟩, readFile_module_file hp, hentry⟩

section Agreement

variable (hnames : (files.map SourceFile.name).Nodup) (hnames' : (files'.map SourceFile.name).Nodup)
  (hagree : ∀ g, ReflTransGen (Uses files) f.name g.name → (g ∈ files ↔ g ∈ files'))

include hnames hnames' hagree

/-- Batches that agree on what is reached from a file are alike there. -/
theorem ofModules_readable_alike :
    Alike (ReflTransGen (Uses files) f.name) (.ofModules (readable files))
      (.ofModules (readable files')) := by
  have hmodules : ∀ file, ReflTransGen (Uses files) f.name file →
      modulesOf (readable files) file = modulesOf (readable files') file := by
    intro file hreached
    rw [modulesOf_readable, modulesOf_readable, filter_key_eq hnames hnames']
    rintro g rfl
    exact hagree g hreached
  refine ⟨?_, ?_, ?_, ?_⟩
  · intro file hreached name
    rw [Namespace.lookup_ofModules, Namespace.lookup_ofModules, hmodules file hreached]
  · intro file hreached
    rw [Namespace.usesOf_ofModules, Namespace.usesOf_ofModules, hmodules file hreached]
  · intro file hreached entry hentry
    have himports : (Namespace.ofModules (readable files)).Imports file entry.1.file :=
      ⟨entry, hentry, rfl⟩
    rw [Namespace.imports_ofModules_iff, importing_readable_iff] at himports
    exact hreached.tail himports
  · intro file _ name s hs
    exact (Namespace.lookup_ofModules_eq_some hs).1

/-- A file that reaches no cycle has one outcome in batches that agree on what it reaches. -/
theorem outcome_eq (hf : f ∈ files) (hacyclic : ¬ ReachesCycle (Uses files) f.name) :
    outcome o v files f = outcome o v files' f := by
  unfold outcome
  cases hread : readWork f with
  | error e => rfl
  | ok w =>
    have hreadAs := readWork_readAs hread
    have hanalyse : analyseWork (.ofModules (readable files)) w =
        analyseWork (.ofModules (readable files')) w := by
      unfold analyseWork
      cases hparsed : w.parsed with
      | none => rfl
      | some p =>
        obtain ⟨hp, _⟩ := hreadAs.parsed p hparsed
        have hfile := readFile_module_file hp
        have halike := ofModules_readable_alike hnames hnames' hagree
        have hreached : ReflTransGen (Uses files) f.name p.module.file := hfile ▸ .refl
        have huses : ∀ entry, entry ∈ p.module.uses ↔
            entry ∈ (Namespace.ofModules (readable files)).usesOf p.module.file := by
          intro entry
          rw [Namespace.usesOf_ofModules, modulesOf_readable, hfile,
            filter_key_eq_singleton hnames hf]
          simp [readable, hp, Except.toOption]
        have hnodup := Namespace.nodup_files_ofModules (readable files)
        have hnone : (Namespace.ofModules (readable files)).dependencyCycle? p.module.file =
            none := by
          have hcycle := (Module.dependencyCycle?_ofModules (readable files) p.module.file).2.1
          have huses : Module.Importing (readable files) = Uses files := by
            funext a b
            exact propext importing_readable_iff
          rw [huses, hfile] at hcycle
          rw [hfile]
          exact Option.not_isSome_iff_eq_none.mp fun hsome => hacyclic (hcycle.mp hsome)
        simp only [analyse_eq_of_resolveImports_eq halike hreached huses
          (halike.resolveImports_eq hnodup (Namespace.nodup_files_ofModules _)
            hreached huses hnone)]
    simp only [bind, Except.bind, hanalyse]

end Agreement

/-- Without common slots, and as far as no cycle is reached from a file, its result depends only on
the files that are reached from it: in batches that agree on these the file has the same outcome.
Each batch that has results has this outcome among them, once and under the name of the file, and it
has results if every file of it has an outcome. -/
theorem compile_independent (hnames : (files.map SourceFile.name).Nodup)
    (hnames' : (files'.map SourceFile.name).Nodup) (hbindings : o.programBindings = false)
    (hf : f ∈ files) (hf' : f ∈ files')
    (hagree : ∀ g, ReflTransGen (Uses files) f.name g.name → (g ∈ files ↔ g ∈ files'))
    (hacyclic : ¬ ReachesCycle (Uses files) f.name) :
    outcome o v files f = outcome o v files' f ∧
      ∀ batch, batch = files ∨ batch = files' →
        ((∃ rs, compile o v batch = .ok rs) ↔ ∀ g ∈ batch, ∃ r, outcome o v batch g = .ok r) ∧
        ∀ rs, compile o v batch = .ok rs →
          ∃ r, outcome o v files f = .ok r ∧ rs.filter (·.name = f.name) = [r] := by
  have heq := outcome_eq (o := o) (v := v) hnames hnames' hagree hf hacyclic
  refine ⟨heq, ?_⟩
  rintro batch (rfl | rfl)
  · obtain ⟨hreturns, hresults⟩ := compile_outcomes (v := v) hnames hbindings
    exact ⟨hreturns, fun rs hrs => hresults rs hrs f hf⟩
  · obtain ⟨hreturns, hresults⟩ := compile_outcomes (v := v) hnames' hbindings
    exact ⟨hreturns, fun rs hrs => heq ▸ hresults rs hrs f hf'⟩

/-! ## A file next to a cycle -/

/-- Options under which each file has its own slots. -/
def separately : Options := { Options.default with programBindings := false }

/-- A file, and another one that imports from it. -/
def lit : List SourceFile :=
  [annotated "Camera" "const struct Camera { float Zoom; }",
   annotated "Lit" "use Camera::Camera;"]

/-- The same files in another order, after a file that imports from itself. -/
def litByRing : List SourceFile :=
  [annotated "Ring" "use Ring::Glow;",
   annotated "Lit" "use Camera::Camera;",
   annotated "Camera" "const struct Camera { float Zoom; }"]

/-- The only import leads from the second file to the first. -/
theorem lit_uses {a b : String} (h : Uses lit a b) : a = "Lit" ∧ b = "Camera" := by
  have hall : ∀ f ∈ lit, ∀ p, readFile f = .ok p →
      (p.module.uses.all fun entry => p.module.file = "Lit" ∧ entry.1.file = "Camera") = true := by
    rw [show lit = [(_, _), (_, _)].map annotatedFile from rfl]
    exact forall_read_annotated (by decide) (by decide +kernel)
  obtain ⟨f, hf, rfl, p, hp, entry, hentry, rfl⟩ := h
  rw [← readFile_module_file hp]
  exact of_decide_eq_true (List.all_eq_true.mp (hall f hf p hp) entry hentry)

theorem lit_acyclic : ¬ ReachesCycle (Uses lit) "Lit" := by
  rintro ⟨b, _, hcycle⟩
  obtain ⟨_, hfirst, _⟩ := TransGen.head'_iff.mp hcycle
  obtain ⟨_, _, hlast⟩ := TransGen.tail'_iff.mp hcycle
  have hwrong := (lit_uses hfirst).1.symm.trans (lit_uses hlast).2
  simp at hwrong

theorem lit_agrees : ∀ g, ReflTransGen (Uses lit) "Lit" g.name → (g ∈ lit ↔ g ∈ litByRing) := by
  intro g hreached
  have hname : g.name ≠ "Ring" := by
    intro heq
    rw [heq] at hreached
    rcases ReflTransGen.cases_tail hreached with hsame | ⟨_, _, hlast⟩
    · simp at hsame
    · have hwrong := (lit_uses hlast).2
      simp at hwrong
  have hring : g ≠ annotated "Ring" "use Ring::Glow;" := by
    rintro rfl
    exact hname rfl
  simp only [lit, litByRing, List.mem_cons, List.not_mem_nil, or_false, hring, false_or]
  exact or_comm

theorem compile_independent_lit :
    ∃ r rs rs', ¬ ReachesCycle (Uses lit) "Lit" ∧
      compile separately (.script default) lit = .ok rs ∧ rs.filter (·.name = "Lit") = [r] ∧
      compile separately (.script default) litByRing = .ok rs' ∧
      rs'.filter (·.name = "Lit") = [r] := by
  obtain ⟨rs, hrs, _⟩ := exists_eq_ok_of_any (p := fun _ => true)
    (show ((compile separately (.script default) lit).toOption.any fun _ => true) = true by
      rw [show lit = [(_, _), (_, _)].map annotatedFile from rfl,
        compile_annotated (by decide) (by decide)]
      decide +kernel)
  obtain ⟨rs', hrs', _⟩ := exists_eq_ok_of_any (p := fun _ => true)
    (show ((compile separately (.script default) litByRing).toOption.any fun _ => true) = true by
      rw [show litByRing = [(_, _), (_, _), (_, _)].map annotatedFile from rfl,
        compile_annotated (by decide) (by decide)]
      decide +kernel)
  obtain ⟨_, hbatch⟩ := compile_independent (f := annotated "Lit" "use Camera::Camera;")
    (o := separately) (v := .script default) (show (lit.map SourceFile.name).Nodup by decide)
    (show (litByRing.map SourceFile.name).Nodup by decide) rfl (by decide) (by decide) lit_agrees
    lit_acyclic
  obtain ⟨r, hr, hfilter⟩ := (hbatch lit (.inl rfl)).2 rs hrs
  obtain ⟨r', hr', hfilter'⟩ := (hbatch litByRing (.inr rfl)).2 rs' hrs'
  obtain rfl := Except.ok.inj (hr.symm.trans hr')
  exact ⟨r, rs, rs', lit_acyclic, hrs, hfilter, hrs', hfilter'⟩

end AnnotatedShader.Batch
