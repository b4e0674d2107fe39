import AnnotatedShader.Proofs.Batch.Reading
import AnnotatedShader.Proofs.Batch.Relocation
import AnnotatedShader.Proofs.EndAlike
import AnnotatedShader.Proofs.Glsl.Reindexed
import AnnotatedShader.Proofs.Slot.Reindexed
import AnnotatedShader.Proofs.Source.Comments

set_option autoImplicit false

/-!
# Comments have no effect

A batch is compiled like the one whose files hold no annotation lines and no comment statements
behind their reading.  So two batches that are the same but for comments have the same results: what
is read of their files is the same up to those.

A comment statement takes a place among the statements, and entities carry the index of their
statement.  Leaving comments out renumbers the statements then, and everything that follows is the
same up to indices that stand in the same order (`Renumbered`).  The order is all that the emission
of declarations asks for, so the texts are equal (`generate_renumbered`).  Analysis and relocation
keep the correspondence file by file, and `finish_bare` has it for all that follows the reading.

What is read of a file with fewer comments is told by `readFile_uncommented`, whether it can be read
or not.
-/

namespace AnnotatedShader

/-! ## Modules without comments -/

namespace Module

theorem uses_uncommented (m : Module) : m.uncommented.uses = m.uses := by
  rw [uses, uses, uncommented, List.filterMap_filter]
  refine List.filterMap_congr fun s _ => ?_
  obtain ⟨position, body⟩ := s
  cases body <;> rfl

theorem declarations_uncommented (m : Module) : m.uncommented.declarations = m.declarations := by
  rw [declarations, declarations, uncommented, List.filterMap_filter]
  refine List.filterMap_congr fun s _ => ?_
  obtain ⟨position, body⟩ := s
  cases body <;> rfl

theorem resolveImports_uncommented (m : Module) (ns : Namespace) :
    m.uncommented.resolveImports ns = m.resolveImports ns := by
  unfold resolveImports cycleFailure
  rw [uses_uncommented]
  rfl

end Module

theorem Namespace.register_uncommented (ns : Namespace) (m : Module) :
    ns.register m.uncommented = ns.register m := by
  have hscope : ∀ scope : FileScope, scope.addModule m.uncommented = scope.addModule m := by
    intro scope
    rw [FileScope.addModule, FileScope.addModule, m.uses_uncommented, m.declarations_uncommented]
    rfl
  unfold register
  simp only [hscope]
  rfl

theorem Namespace.ofModules_uncommented (ms : List Module) :
    Namespace.ofModules (ms.map Module.uncommented) = Namespace.ofModules ms := by
  unfold ofModules
  rw [List.foldl_map]
  exact congrArg (fun step => List.foldl step empty ms)
    (funext fun ns => funext fun m => ns.register_uncommented m)

/-- A file that has been read, without annotation lines and comments. -/
def ParsedFile.bare (p : ParsedFile) : ParsedFile := ⟨p.source.bare, p.module.uncommented⟩

/-- The work on a file, without annotation lines and comments. -/
def Work.bare (w : Work) : Work := { w with parsed := w.parsed.map ParsedFile.bare }

namespace Batch

theorem namespaceOf_bare (ws : List Work) : namespaceOf (ws.map Work.bare) = namespaceOf ws := by
  have hmodules : (ws.map Work.bare).filterMap (fun w => w.parsed.map ParsedFile.module) =
      (ws.filterMap fun w => w.parsed.map ParsedFile.module).map Module.uncommented := by
    rw [List.filterMap_map, List.map_filterMap]
    refine List.filterMap_congr fun w _ => ?_
    simp only [Function.comp_apply, Work.bare, Option.map_map]
    rfl
  rw [namespaceOf, namespaceOf, hmodules, Namespace.ofModules_uncommented]

/-! ## Analysis -/

theorem analyse_bareFile (ns : Namespace) (p : ParsedFile) : analyse ns p =
    (analyse ns p.bare).map (Model.reindex (Model.indexAmong p.module.statements)) := by
  have hstage : p.bare.source.stage = p.source.stage := rfl
  have hmodule : p.bare.module = p.module.uncommented := rfl
  simp only [analyse, hstage, hmodule, Module.resolveImports_uncommented, map_bind]
  refine congrArg _ (funext fun imports => ?_)
  rw [Model.build_uncommented, bind_map]
  exact congrArg _ (funext fun m =>
    Model.assignSlots_reindex (Model.strictMono_indexAmong p.module.statements) m)

/-- Work on a file, and the same work without annotation lines and comments: its model is the same
up to indices. -/
structure Renumbered (w w' : Work) : Prop where
  name : w'.name = w.name
  parsed : w.parsed = w'.parsed.map ParsedFile.bare
  model : Option.Rel Model.Renumbered w.model w'.model
  diagnostics : w'.diagnostics = w.diagnostics

theorem spare_map {α β : Type} (x : Except Failure α) (g : α → β) :
    spare (x.map g) = (spare x).map (Except.map g) := by
  cases x with
  | ok a => rfl
  | error e => cases e <;> rfl

theorem renumbered_model (m : Model) : Option.Rel Model.Renumbered (some m) (some m) :=
  .some ⟨id, strictMono_id, m.reindex_id.symm⟩

theorem renumbered_bare (w : Work) : Renumbered w.bare w := by
  refine ⟨rfl, rfl, ?_, rfl⟩
  show Option.Rel _ w.model w.model
  cases w.model with
  | none => exact .none
  | some m => exact renumbered_model m

theorem analyseWork_bare (ns : Namespace) (w : Work) :
    EndTogether Renumbered (analyseWork ns w.bare) (analyseWork ns w) := by
  have hmodel := (renumbered_bare w).model
  obtain ⟨name, parsed, model, diagnostics⟩ := w
  cases parsed with
  | none => exact .ok ⟨rfl, rfl, hmodel, rfl⟩
  | some p =>
    simp only [analyseWork, Work.bare, Option.map_some, analyse_bareFile ns p, spare_map, bind_map]
    cases spare (analyse ns p.bare) with
    | error e => exact .error e
    | ok outcome =>
      cases outcome with
      | error d => exact .ok ⟨rfl, rfl, hmodel, rfl⟩
      | ok m =>
        exact .ok ⟨rfl, rfl, .some ⟨_, Model.strictMono_indexAmong p.module.statements, rfl⟩, rfl⟩

/-! ## Common slots -/

theorem abreast_renumbered : Abreast Model.Renumbered Eq Renumbered where
  model _ _ hw := hw.model
  file := by
    rintro m _ ⟨f, _, rfl⟩
    rfl
  diagnostic := by
    rintro d _ rfl
    rfl
  put _ _ _ _ hw hm := ⟨hw.name, hw.parsed, .some hm, hw.diagnostics⟩
  drop := by
    rintro w w' d _ hw rfl
    exact ⟨hw.name, hw.parsed, .none, by rw [hw.diagnostics]⟩
  relocate ms ms' hms := by
    have htogether := Program.relocate_renumbered hms
    generalize Program.relocate ms = x at htogether
    generalize Program.relocate ms' = y at htogether
    cases htogether with
    | error d => exact .inr ⟨d, d, rfl, rfl, rfl⟩
    | ok hrs => exact .inl ⟨_, _, rfl, rfl, hrs⟩

/-! ## Generation -/

theorem generate_renumbered (o : Options) (v : Validator) {w w' : Work} (h : Renumbered w w') :
    generate o v w' = generate o v w := by
  obtain ⟨name, parsed, model, diagnostics⟩ := w'
  obtain ⟨name', parsed', model', diagnostics'⟩ := w
  obtain ⟨hname, hparsed, hmodel, hdiagnostics⟩ := h
  change name = name' at hname
  change diagnostics = diagnostics' at hdiagnostics
  change parsed' = parsed.map ParsedFile.bare at hparsed
  change Option.Rel Model.Renumbered model' model at hmodel
  subst hname hdiagnostics hparsed
  cases parsed with
  | none => rfl
  | some p =>
    cases hmodel with
    | none => rfl
    | some hm =>
      obtain ⟨f, hf, rfl⟩ := hm
      simp only [generate, Option.map_some, ParsedFile.bare, Glsl.generate_bare,
        Glsl.generate_reindex _ _ o hf, Reflection.ofModel_reindex]
      rfl

theorem mapM_generate_renumbered (o : Options) (v : Validator) {ws ws' : List Work}
    (h : List.Forall₂ Renumbered ws ws') : ws'.mapM (generate o v) = ws.mapM (generate o v) := by
  induction h with
  | nil => rfl
  | cons hw _ ih => rw [List.mapM_cons, List.mapM_cons, generate_renumbered o v hw, ih]

/-! ## Whole batches -/

/-- Annotation lines and comments have no part in what becomes of files. -/
theorem finish_bare (o : Options) (v : Validator) (ws : List Work) :
    finish o v (ws.map Work.bare) = finish o v ws := by
  have hworks : List.Forall₂ (fun w w' => w = Work.bare w') (ws.map Work.bare) ws := by
    rw [List.forall₂_map_left_iff]
    exact List.forall₂_same.mpr fun _ _ => rfl
  have hanalysed : EndTogether (List.Forall₂ Renumbered)
      ((ws.map Work.bare).mapM (analyseWork (namespaceOf ws)))
      (ws.mapM (analyseWork (namespaceOf ws))) :=
    EndTogether.mapM hworks fun w w' hw => hw ▸ analyseWork_bare (namespaceOf ws) w'
  rw [finish, finish, namespaceOf_bare]
  refine endTogether_eq_iff.mp (hanalysed.bind fun as as' has => endTogether_eq_iff.mpr ?_)
  split
  · exact (mapM_generate_renumbered o v (abreast_renumbered.relocateAll has)).symm
  · exact (mapM_generate_renumbered o v has).symm

/-! ## Files that lose their comments -/

end Batch

/-- A file some of whose comments are deleted: a line of a block of annotations may end in front of
its first `#`, every other line stays as it is. -/
structure SourceFile.Uncommented (f f' : SourceFile) : Prop where
  name : f'.name = f.name
  lines : Source.UncommentedLines (Text.lines f.text) (Text.lines f'.text)

/-- A file all of whose comments are deleted. -/
def SourceFile.uncommented (f : SourceFile) : SourceFile := ⟨f.name, Source.uncommented f.text⟩

theorem SourceFile.uncommented_uncommented (f : SourceFile) : f.Uncommented f.uncommented where
  name := by rw [SourceFile.uncommented]
  lines := by
    rw [SourceFile.uncommented, Source.lines_uncommented]
    exact Source.uncommentedLines_withoutComments _

namespace Batch

/-- The same statements are read, but for comments, from sources that are the same but for
theirs. -/
theorem readFile_uncommented {f f' : SourceFile} (h : f.Uncommented f') :
    EndTogether (fun p p' => p'.bare = p.bare) (readFile f) (readFile f') := by
  obtain ⟨name, text⟩ := f
  obtain ⟨name', text'⟩ := f'
  obtain rfl : name' = name := h.name
  unfold readFile
  rw [Source.read_uncommented h.lines]
  cases hread : (Source.read name' text).outcome with
  | error d => exact .error _
  | ok a =>
    have hsource := (Source.sameButComments_of_read h.lines hread).bare_eq
    refine (Statement.parse_withoutComments (Source.scan_uncommented h.lines hread)).bind ?_
    intro ss ss' hss
    refine .ok ?_
    rw [ParsedFile.bare, ParsedFile.bare, hsource, Module.uncommented, Module.uncommented, hss]

theorem spare_together {α β : Type} {R : α → β → Prop} {x : Except Failure α} {y : Except Failure β}
    (h : EndTogether R x y) : EndTogether (EndTogether R) (spare x) (spare y) := by
  cases h with
  | ok hr => exact .ok (.ok hr)
  | error e =>
    cases e with
    | diagnosed d => exact .ok (.error d)
    | _ => exact .error _

theorem readAll_uncommented {files files' : List SourceFile} (seen : List String)
    (h : List.Forall₂ SourceFile.Uncommented files files') :
    EndTogether (fun ws ws' => ws'.map Work.bare = ws.map Work.bare) (readAll seen files)
      (readAll seen files') := by
  induction h generalizing seen with
  | nil => exact .ok rfl
  | @cons f f' rest rest' hf _ ih =>
    rw [readAll, readAll, hf.name]
    split
    · refine (ih seen).bind fun ws ws' hws => .ok ?_
      rw [List.map_cons, List.map_cons, hws]
    · refine (spare_together (readFile_uncommented hf)).bind fun x y hxy => ?_
      refine (ih (f.name :: seen)).bind fun ws ws' hws => ?_
      cases hxy with
      | error d =>
        refine .ok ?_
        rw [List.map_cons, List.map_cons, hws]
      | ok hp =>
        refine .ok ?_
        rw [List.map_cons, List.map_cons, hws]
        simp only [Work.bare, Option.map_some, hp]

/-- Comments have no effect: a batch whose comments are deleted has the same results.  On the way
the statements of each file are the same but for comments, in the same order and at the same
positions.  All statements are in the order of their positions, and there is one for each comment
whose line meets no line of a phrase. -/
theorem compile_uncommented (o : Options) (v : Validator) {files files' : List SourceFile}
    (h : List.Forall₂ SourceFile.Uncommented files files') :
    compile o v files' = compile o v files ∧
      List.Forall₂ (fun f f' => EndTogether (fun p p' =>
        (p'.module.statements.filter fun s => !s.isComment) =
          p.module.statements.filter fun s => !s.isComment)
          (readFile f) (readFile f')) files files' ∧
      ∀ f p, readFile f = .ok p →
        (p.module.statements.Pairwise fun s s' => s.position.le s'.position = true) ∧
          ∃ ps, Statement.Derives p.source.annotationText ps ∧
            Statement.ofPhrases f.name ps =
              .ok (p.module.statements.filter fun s => !s.isComment) ∧
            p.module.statements.filter Statement.isComment =
              (((Lexer.scan p.source.annotationText).tokens.filter fun t =>
                t.terminal = .comment ∧ ∀ phrase ∈ ps, ¬ (phrase.start.line ≤ t.position.line ∧
                  t.position.line ≤ phrase.lastLine)).map fun t =>
                    ⟨t.position, .comment (Statement.commentText t)⟩) := by
  refine ⟨?_, ?_, ?_⟩
  · rw [compile_eq_finish, compile_eq_finish]
    refine (endTogether_eq_iff.mp ((readAll_uncommented [] h).bind fun ws ws' hws => ?_)).symm
    rw [endTogether_eq_iff, ← finish_bare, ← hws, finish_bare]
  · refine h.imp fun f f' hf => (readFile_uncommented hf).imp fun p p' hp => ?_
    exact congrArg (fun p : ParsedFile => p.module.statements) hp
  · intro f p hp
    unfold readFile at hp
    split at hp
    · cases hp
    · rename_i a hread
      obtain ⟨ss, hss, hp⟩ := bind_eq_ok_iff.mp hp
      obtain rfl := Except.ok.inj hp
      obtain ⟨hsorted, ps, hderives, hfound, hcomments⟩ := Statement.parse_comments hss
      exact ⟨hsorted, ps, hderives, hfound, hcomments.trans (Statement.commentsApart_eq ps _)⟩

/-- A constant with a comment of its own and one behind it, and a file that imports it. -/
def remarked : List SourceFile :=
  [⟨"Lamp", "#stage pixel\n#sal\n# how bright\nconst float Glow; # at most 1\n#sal\n"⟩,
   ⟨"Lit", "#stage pixel\n#sal\nuse Lamp::Glow; # const float Glow;\n#sal\nfloat g = Glow;\n"⟩]

theorem compile_uncommented_remarked :
    (remarked.map SourceFile.uncommented).map SourceFile.text =
      ["#stage pixel\n#sal\n\nconst float Glow; \n#sal\n",
       "#stage pixel\n#sal\nuse Lamp::Glow; \n#sal\nfloat g = Glow;\n"] ∧
    List.Forall₂ SourceFile.Uncommented remarked (remarked.map SourceFile.uncommented) ∧
      ∃ rs, compile .default .default remarked = .ok rs ∧ rs.all FileResult.isOk = true := by
  have hfiles : List.Forall₂ SourceFile.Uncommented remarked
      (remarked.map SourceFile.uncommented) := by
    rw [List.forall₂_map_right_iff]
    exact List.forall₂_same.mpr fun f _ => f.uncommented_uncommented
  have hbare : remarked.map SourceFile.uncommented =
      [⟨"Lamp", "#stage pixel\n#sal\n\nconst float Glow; \n#sal\n"⟩,
       ⟨"Lit", "#stage pixel\n#sal\nuse Lamp::Glow; \n#sal\nfloat g = Glow;\n"⟩] := by
    decide +kernel
  obtain ⟨rs, hrs, hok⟩ := exists_eq_ok_of_any
    (show ((compile .default .default (remarked.map SourceFile.uncommented)).toOption.any fun rs =>
      rs.all FileResult.isOk) = true by
        rw [hbare]
        decide +kernel)
  obtain ⟨hsame, _⟩ := compile_uncommented .default .default hfiles
  exact ⟨by rw [hbare]; rfl, hfiles, rs, hsame ▸ hrs, hok⟩

end Batch

end AnnotatedShader
