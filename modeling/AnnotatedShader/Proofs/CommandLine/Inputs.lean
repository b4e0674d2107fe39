import AnnotatedShader.CommandLine.Run
import AnnotatedShader.Proofs.Batch.Acceptance
import AnnotatedShader.Proofs.Files.Tree

set_option autoImplicit false

/-!
# What becomes of input files

A run makes directories in empty places and writes the outputs of accepted files, and changes
nothing else.  An output goes below the output directory under the name of an input and a suffix of
its own, and no step looks whether an input stands there.

`Delivers` says where the output of an input goes, and follows from the way in which deliveries are
made up.  `node?_perform` then tells what is at any place of the tree behind a run: what was there
before, a directory where nothing was, or an output.  So an input file loses its text only if an
output of some input goes to its own place (`Replaced`), and that needs an input whose name ends in
a suffix of outputs.

The validator is any validator here.  Whether it takes a text decides which outputs are written, and
not where.
-/

namespace AnnotatedShader.CommandLine

/-- The paths of the inputs. -/
def Request.paths (r : Request) : List Path := r.inputs.map Path.ofText

/-- The suffixes of outputs: of a source and of a reflection document. -/
def outputSuffixes : List String := [".glsl", ".json"]

/-- What a run is to write. -/
def Delivers (v : Validator) (r : Request) (t : FileTree) (d : Delivery) : Prop :=
  ∃ files rs, readInputs t r.paths = .ok files ∧
    Batch.compile r.options v files = .ok rs ∧
      ∃ result ∈ rs, d ∈ deliveriesOf (outputDirectory r r.paths) result

/-! ## Deliveries -/

theorem path_of_mem_deliveriesOf {directory : Path} {result : FileResult} {d : Delivery}
    (h : d ∈ deliveriesOf directory result) :
    result.isOk = true ∧ ∃ suffix ∈ outputSuffixes, d.path = directory.child
      (result.name ++ suffix) := by
  unfold deliveriesOf at h
  split at h
  · rename_i hok
    refine ⟨hok, ?_⟩
    rcases List.mem_append.mp h with h | h
    · obtain rfl := List.mem_singleton.mp h
      exact ⟨".glsl", by simp [outputSuffixes], rfl⟩
    · obtain ⟨x, _, rfl⟩ := Option.map_eq_some_iff.mp (Option.mem_toList.mp h)
      exact ⟨".json", by simp [outputSuffixes], rfl⟩
  · cases h

theorem stem_of_readInputs {t : FileTree} {paths : List Path} {files : List SourceFile}
    (h : readInputs t paths = .ok files) : files.map SourceFile.name = paths.map Path.stem := by
  induction paths generalizing files with
  | nil =>
    obtain rfl := Except.ok.inj h
    rfl
  | cons p rest ih =>
    rw [readInputs] at h
    split at h
    · cases h
    · rw [bind_eq_ok_iff] at h
      obtain ⟨others, hothers, h⟩ := h
      obtain rfl := Except.ok.inj h
      rw [List.map_cons, List.map_cons, ih hothers]

/-- An output is named after an input. -/
theorem Delivers.exists_input {v : Validator} {r : Request} {t : FileTree} {d : Delivery}
    (h : Delivers v r t d) :
    ∃ q ∈ r.paths, ∃ suffix ∈ outputSuffixes,
      d.path = (outputDirectory r r.paths).child (q.stem ++ suffix) := by
  obtain ⟨files, rs, hread, hcompile, result, hresult, hd⟩ := h
  obtain ⟨hok, suffix, hsuffix, hpath⟩ := path_of_mem_deliveriesOf hd
  obtain ⟨ns, haccepted⟩ := Batch.compile_accepted hcompile
  obtain ⟨f, hf, hfile⟩ := exists_left_of_forall₂ haccepted hresult
  obtain ⟨_, _, _, _, _, _, _, _, hname, _, _⟩ := hfile hok
  have hmem : f.name ∈ r.paths.map Path.stem :=
    stem_of_readInputs hread ▸ List.mem_map_of_mem hf
  obtain ⟨q, hq, hstem⟩ := List.mem_map.mp hmem
  exact ⟨q, hq, suffix, hsuffix, by rw [hpath, hname, hstem]⟩

/-- After files have been written, a place holds what it did or the text of one of them. -/
theorem node?_deliver (t : FileTree) (ds : List Delivery) (l : Location) :
    (deliver t ds).2.1.node? l = t.node? l ∨
      ∃ d ∈ ds, ∃ out, d.text = .ok out ∧ l = .ofPath d.path ∧
        (deliver t ds).2.1.node? l = some (.file out) := by
  induction ds generalizing t with
  | nil => exact .inl rfl
  | cons d rest ih =>
    rw [deliver]
    split
    · exact .inl rfl
    · rename_i out hout
      split
      · exact .inl rfl
      · rename_i t' hwrite
        obtain ⟨hself, hother⟩ := FileTree.writeText_eq_ok hwrite
        rcases ih t' with hkept | ⟨d', hd', hrest⟩
        · by_cases hl : l = .ofPath d.path
          · exact .inr ⟨d, List.mem_cons_self, out, hout, hl, hkept.trans (hl ▸ hself)⟩
          · exact .inl (hkept.trans (hother l hl))
        · exact .inr ⟨d', List.mem_cons_of_mem _ hd', hrest⟩

/-! ## Runs -/

theorem node?_writeResults (directory : Path) (log : String) (rs : List FileResult) {t : FileTree}
    {l : Location} {n : Node} (h : t.node? l = some n) :
    (writeResults directory log rs t).tree.node? l = some n ∨
      ∃ result ∈ rs, ∃ d ∈ deliveriesOf directory result, ∃ out, d.text = .ok out ∧
        l = .ofPath d.path ∧ (writeResults directory log rs t).tree.node? l = some (.file out) := by
  unfold writeResults
  split
  · exact .inl h
  · rename_i t' hmake
    have hmade := FileTree.makeDirectory_keeps hmake l n h
    have hdeliver := node?_deliver t' (rs.flatMap (deliveriesOf directory)) l
    have hcases : ∀ written : FileTree,
        (deliver t' (rs.flatMap (deliveriesOf directory))).2.1 = written →
        written.node? l = some n ∨ ∃ result ∈ rs, ∃ d ∈ deliveriesOf directory result,
          ∃ out, d.text = .ok out ∧ l = .ofPath d.path ∧ written.node? l = some (.file out) := by
      rintro _ rfl
      rcases hdeliver with hkept | ⟨d, hd, hrest⟩
      · exact .inl (hkept.trans hmade)
      · obtain ⟨result, hresult, hd⟩ := List.mem_flatMap.mp hd
        exact .inr ⟨result, hresult, d, hd, hrest⟩
    split
    · rename_i heq
      exact hcases _ (by rw [heq])
    · rename_i heq
      exact hcases _ (by rw [heq])

theorem node?_perform (v : Validator) (r : Request) {t : FileTree} {l : Location} {n : Node}
    (h : t.node? l = some n) :
    (perform v r t).tree.node? l = some n ∨
      ∃ d, Delivers v r t d ∧ ∃ out, d.text = .ok out ∧ l = .ofPath d.path ∧
        (perform v r t).tree.node? l = some (.file out) := by
  unfold perform
  dsimp only
  split
  · exact .inl h
  split
  · exact .inl h
  · exact .inl h
  · split
    · exact .inl h
    · unfold compileInputs
      split
      · exact .inl h
      · rename_i files hread
        split
        · exact .inl h
        · rename_i rs hcompile
          refine (node?_writeResults _ _ rs h).imp_right ?_
          rintro ⟨result, hresult, d, hd, hrest⟩
          exact ⟨d, ⟨files, rs, hread, hcompile, result, hresult, hd⟩, hrest⟩

/-- An output in the place of a file: it goes below the output directory under the name of an
accepted input, and the path of the file ends with this name. -/
inductive Replaced (v : Validator) (r : Request) (t : FileTree) (p : Path) (l : Location)
    (out : String) : Prop
  | intro (d : Delivery) (q : Path) (suffix : String) (hdelivers : Delivers v r t d)
    (hq : q ∈ r.paths) (hsuffix : suffix ∈ outputSuffixes)
    (hpath : d.path = (outputDirectory r r.paths).child (q.stem ++ suffix))
    (hplace : l = .ofPath d.path) (hname : p.names.getLast? = some (q.stem ++ suffix))
    (htext : d.text = .ok out)

theorem append_suffix_ne_up {stem suffix : String} (h : suffix ∈ outputSuffixes) :
    stem ++ suffix ≠ ".." := by
  intro heq
  have hlength := congrArg String.length heq
  rw [String.length_append] at hlength
  rcases List.mem_cons.mp h with rfl | h
  · exact absurd hlength (by show _ + 5 ≠ 2; omega)
  · rw [List.mem_singleton.mp h] at hlength
    exact absurd hlength (by show _ + 5 ≠ 2; omega)

/-- After a run, with whatever validator, every file, the inputs among them, has the content that it
had, unless an output of an accepted input goes to its place.  Then it holds that output, and its
name is that of an output. -/
theorem run_keeps_files {arguments : List String} {r : Request}
    (hr : Request.ofArguments arguments = .ok r) {t : FileTree} {p : Path} {l : Location}
    {text : String} (hl : t.locate p = .ok l) (hfile : t.node? l = some (.file text))
    (v : Validator) :
    (run arguments t v).tree.node? l = some (.file text) ∨
      ∃ out, Replaced v r t p l out ∧ (run arguments t v).tree.node? l = some (.file out) := by
  have hrun : run arguments t v = perform v r t := by rw [run, hr]
  rw [hrun]
  refine (node?_perform v r hfile).imp_right ?_
  rintro ⟨d, hdelivers, out, htext, hplace, hwritten⟩
  obtain ⟨q, hq, suffix, hsuffix, hpath⟩ := hdelivers.exists_input
  obtain ⟨name, hname, hlast⟩ := FileTree.exists_name_of_locate hl hfile
  have hout : l.names.getLast? = some (q.stem ++ suffix) := by
    rw [hplace, hpath, Location.ofPath_child]
    exact Location.getLast?_step (append_suffix_ne_up hsuffix)
  refine ⟨out, .intro d q suffix hdelivers hq hsuffix hpath hplace ?_ htext, hwritten⟩
  rw [hname, ← hlast, hout]

/-- A shader with one constant. -/
def glowText : String := "#stage pixel\n#sal\nconst float Glow;\n#sal\n"

/-- A working directory with one file. -/
def desk (name : String) : FileTree := FileTree.empty.addFile [name] glowText

theorem run_keeps_files_desk :
    Request.ofArguments ["lamp.sal"] = .ok { Request.empty with inputs := ["lamp.sal"] } ∧
      (desk "lamp.sal").locate (.ofText "lamp.sal") = .ok (.ofNames ["lamp.sal"]) ∧
      (run ["lamp.sal"] (desk "lamp.sal")).output = "Wrote lamp.glsl\nWrote lamp.json\n" ∧
      (run ["lamp.sal"] (desk "lamp.sal")).tree.node? (.ofNames ["lamp.sal"]) =
        some (.file glowText) := by
  have hr :
      Request.ofArguments ["lamp.sal"] = .ok { Request.empty with inputs := ["lamp.sal"] } := by
    decide +kernel
  have hl : (desk "lamp.sal").locate (.ofText "lamp.sal") = .ok (.ofNames ["lamp.sal"]) := by
    decide +kernel
  have hfile : (desk "lamp.sal").node? (.ofNames ["lamp.sal"]) = some (.file glowText) := by
    decide +kernel
  refine ⟨hr, hl, by decide +kernel, ?_⟩
  rcases run_keeps_files hr hl hfile .default with hkept | ⟨out, hreplaced, _⟩
  · exact hkept
  · -- the path ends with no suffix of an output
    obtain ⟨_, q, suffix, _, _, hsuffix, _, _, hname, _⟩ := hreplaced
    have hends : suffix.toList <:+ "lamp.sal".toList := by
      have hlast : (Path.ofText "lamp.sal").names.getLast? = some "lamp.sal" := by decide +kernel
      rw [hlast, Option.some.injEq] at hname
      rw [hname, String.toList_append]
      exact List.suffix_append _ _
    have hnone : ∀ suffix ∈ outputSuffixes, ¬ suffix.toList <:+ "lamp.sal".toList := by
      decide +kernel
    exact absurd hends (hnone suffix hsuffix)

/-- An input that has the name of its output is lost. -/
example : (run ["lamp.glsl"] (desk "lamp.glsl")).tree.node? (.ofNames ["lamp.glsl"]) =
    some (.file ("#version 450 core\nlayout(binding = 0, std140) uniform RootBlock \x7b\n" ++
      "    layout(offset = 0) float Glow;\n\x7d;\n")) := by decide +kernel

end AnnotatedShader.CommandLine
