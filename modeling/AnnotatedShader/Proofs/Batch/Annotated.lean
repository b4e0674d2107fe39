import AnnotatedShader.Proofs.Batch.Reading
import AnnotatedShader.Proofs.Source.Comments
import AnnotatedShader.Proofs.Statement.Comments
import AnnotatedShader.Proofs.Token.Line

set_option autoImplicit false

/-!
# Files of one line of annotations

What a file is read as follows from its source and the characters of its annotation text.  Of a file
that holds nothing but a stage and one line of annotations both are known beforehand, so a batch of
such files is compiled from the characters of those lines, without a look at the texts.

Most concrete batches of the library are made of such files (`annotated`).  `read_annotated` gives
the source of one, `readFile_annotated` what it is read as, and `compile_annotated` the results of a
batch of them, all by `readLine`, which starts at the characters of the line.  A run on a concrete
batch is then a small computation, where one over the whole texts, with their encodings, would be a
long one.

`readFile_of_phrases` does the same for a file whose source is given apart.
-/

namespace AnnotatedShader.Batch

/-- A file of a stage whose annotations are given. -/
def annotated (name annotations : String) : SourceFile :=
  ⟨name, "#stage pixel\n#sal\n" ++ annotations ++ "\n#sal\n"⟩

/-! ## From a source to its statements -/

/-- What a file is read as, from its source and the characters of its annotation text. -/
def readText (name : String) (a : Source.Annotated) (text : List Char) :
    Except Failure ParsedFile := do
  let scan := Lexer.scanAt .start text
  match Statement.phrasesOfScan name scan with
  | .error d => .error (.diagnosed d)
  | .ok ps =>
    let statements ← Statement.ofPhrases name ps
    .ok ⟨a, ⟨name, Statement.inOrder (statements ++ Statement.commentsApart ps scan.tokens)⟩⟩

section Text

variable {f : SourceFile} {a : Source.Annotated} {text : List Char}
  (hread : (Source.read f.name f.text).outcome = .ok a) (htext : a.annotationText.toList = text)

include hread htext

theorem readFile_eq_readText : readFile f = readText f.name a text := by
  have hscan : Lexer.scan a.annotationText = Lexer.scanAt .start text := by
    rw [Lexer.scan, Lexer.scanAt, htext]
  rw [readFile, hread]
  show (Statement.parse f.name a.annotationText >>= _) = _
  rw [Statement.parse, readText, hscan]
  cases Statement.phrasesOfScan f.name (Lexer.scanAt .start text) with
  | error d => rfl
  | ok ps =>
    show (Statement.ofPhrases f.name ps >>= _) >>= _ = Statement.ofPhrases f.name ps >>= _
    cases Statement.ofPhrases f.name ps <;> rfl

/-- Without comments apart a file is read to what its phrases mean. -/
theorem readFile_of_phrases {ss : List Statement}
    (h : ((Statement.phrasesOfScan f.name (Lexer.scanAt .start text)).toOption.any fun ps =>
      Statement.ofPhrases f.name ps = .ok ss ∧
        Statement.commentsApart ps (Lexer.scanAt .start text).tokens = []) = true) :
    readFile f = .ok ⟨a, ⟨f.name, ss⟩⟩ := by
  have hscan : Lexer.scanAt .start text = Lexer.scan a.annotationText := by
    rw [Lexer.scan, Lexer.scanAt, htext]
  rw [hscan] at h
  obtain ⟨ps, hps, hany⟩ := exists_eq_ok_of_any h
  obtain ⟨hss, hcomments⟩ := of_decide_eq_true hany
  rw [readFile, hread]
  exact bind_eq_ok_iff.mpr ⟨ss, Statement.parse_of_phrases hps hss hcomments, rfl⟩

end Text

/-! ## One line of annotations -/

/-- Whether characters are one line of annotations: none of them ends the line, and it is no
sentinel. -/
def isAnnotation (line : List Char) : Bool :=
  (line.all fun c => !Text.isLineBreak c) && Text.trim line != Source.sentinel.toList

/-- The file of a name whose annotations are a line. -/
def annotatedFile (entry : String × List Char) : SourceFile :=
  annotated entry.1 (String.ofList entry.2)

/-- The source of a file with one line of annotations. -/
def annotatedSource (line : List Char) : Source.Annotated :=
  ⟨.pixel, ["#stage pixel", "#sal", String.ofList line, "#sal"],
    [.directive "pixel", .opening, .annotated, .closing]⟩

/-- The characters of its annotation text. -/
def annotatedText (line : List Char) : List Char := '\n' :: '\n' :: line ++ ['\n', '\n']

theorem toList_annotationText (line : List Char) :
    (annotatedSource line).annotationText.toList = annotatedText line := by
  simp [annotatedSource, annotatedText, Source.Annotated.annotationText,
    Source.Annotated.annotationLine, Text.joinLines]

theorem roles_annotated {line : List Char} (h : isAnnotation line = true) :
    Source.roles (annotatedSource line).lines = (annotatedSource line).roles := by
  have hstage : Source.outsideRole "#stage pixel" = .directive "pixel" := by decide
  have hapart : Source.isSentinel "#stage pixel" = false := by decide
  have hopening : Source.outsideRole "#sal" = .opening := by decide
  have hclosing : Source.insideRole "#sal" = .closing := by decide
  have hsentinel : Source.isSentinel "#sal" = true := by decide
  have hplain : Source.isSentinel (String.ofList line) = false := by
    obtain ⟨-, hplain⟩ := (Bool.and_eq_true _ _).mp h
    rw [Source.isSentinel, String.toList_ofList]
    simpa using hplain
  simp only [Source.roles, annotatedSource, Source.rolesFrom, hstage, hapart, hopening, hsentinel,
    Source.insideRole_eq hplain, hplain, Bool.not_false, hclosing]

theorem hasVersion_annotated (line : List Char) :
    Glsl.hasVersion (annotatedSource line) = false := by
  have hstage : Glsl.statesVersion "#stage pixel" = false := by decide
  have hsentinel : Glsl.statesVersion "#sal" = false := by decide
  simp [Glsl.hasVersion, annotatedSource, Glsl.isOutside, hstage, hsentinel]

section File

variable {entry : String × List Char} (h : isAnnotation entry.2 = true)

include h

theorem lines_annotated :
    Text.lines (annotatedFile entry).text = (annotatedSource entry.2).lines := by
  have htext : (annotatedFile entry).text.toList =
      ["#stage pixel".toList, "#sal".toList, entry.2, "#sal".toList].flatMap (· ++ ['\n']) := by
    simp [annotatedFile, annotated]
  have hbreaks : (["#stage pixel".toList, "#sal".toList, entry.2, "#sal".toList].all fun line =>
      line.all fun c => !Text.isLineBreak c) = true := by
    obtain ⟨hbreaks, -⟩ := (Bool.and_eq_true _ _).mp h
    simp only [List.all_cons, hbreaks]
    decide
  rw [Text.lines, htext, Source.splitLines_flatMap (by simpa using hbreaks)]
  rfl

theorem read_annotated :
    (Source.read (annotatedFile entry).name (annotatedFile entry).text).outcome =
    .ok (annotatedSource entry.2) := by
  simp only [Source.read, lines_annotated h, roles_annotated h]
  rfl

end File

/-- What a file with one line of annotations is read as, from the characters of the line. -/
def readLine (entry : String × List Char) : Except Failure ParsedFile :=
  readText entry.1 (annotatedSource entry.2) (annotatedText entry.2)

theorem readFile_annotated {entry : String × List Char} (h : isAnnotation entry.2 = true) :
    readFile (annotatedFile entry) = readLine entry :=
  readFile_eq_readText (read_annotated h) (toList_annotationText entry.2)

/-! ## Batches -/

/-- The work on such a file when it has been read. -/
def lineWork (entry : String × List Char) : Except Failure Work := do
  match ← spare (readLine entry) with
  | .ok p => .ok ⟨entry.1, some p, none, []⟩
  | .error d => .ok (rejected entry.1 d)

theorem readWork_annotated {entry : String × List Char} (h : isAnnotation entry.2 = true) :
    readWork (annotatedFile entry) = lineWork entry := by
  rw [readWork, readFile_annotated h]
  rfl

section Batches

variable {entries : List (String × List Char)}
  (hlines : (entries.all fun entry => isAnnotation entry.2) = true)

include hlines

/-- What holds of all that is read off the lines holds of all that is read of the files. -/
theorem forall_read_annotated {P : ParsedFile → Bool}
    (h : (entries.all fun entry => (readLine entry).toOption.all P) = true) :
    ∀ f ∈ entries.map annotatedFile, ∀ p, readFile f = .ok p → P p = true := by
  intro f hf p hp
  obtain ⟨entry, hentry, rfl⟩ := List.mem_map.mp hf
  have hread := List.all_eq_true.mp h entry hentry
  rw [← readFile_annotated (List.all_eq_true.mp hlines entry hentry), hp] at hread
  exact hread

theorem mapM_readWork_annotated :
    (entries.map annotatedFile).mapM readWork = entries.mapM lineWork := by
  induction entries with
  | nil => rfl
  | cons entry rest ih =>
    obtain ⟨hline, hrest⟩ := (Bool.and_eq_true _ _).mp hlines
    rw [List.map_cons, List.mapM_cons, List.mapM_cons, readWork_annotated hline, ih hrest]

/-- A batch of such files is compiled from the characters of their lines. -/
theorem compile_annotated {o : Options} {v : Validator} (hnames : (entries.map Prod.fst).Nodup) :
    compile o v (entries.map annotatedFile) = entries.mapM lineWork >>= finish o v := by
  have hfiles : ((entries.map annotatedFile).map SourceFile.name).Nodup := by
    rwa [List.map_map]
  rw [compile_eq_finish, readAll_eq_mapM hfiles (by simp), mapM_readWork_annotated hlines]

end Batches

end AnnotatedShader.Batch
