import AnnotatedShader.Proofs.EndAlike
import AnnotatedShader.Proofs.Statement.Parsing
import AnnotatedShader.Proofs.Statement.Place
import AnnotatedShader.Proofs.Token.Line

set_option autoImplicit false

/-!
# Statements and comments

The grammar does not see comments.  The statements of a text are the meanings of its phrases, and a
comment for each comment that stands apart from them, all in the order of their positions.  Two
texts that have the same tokens but for comments have the same statements but for comments.

A comment stands apart when it begins on a line on which no statement has begun.  `parse_comments`
tells the comment statements of a text by this, and `parse_withoutComments` compares two texts: the
phrases of both are read from the same tokens, so both have the same meanings or the same report.
-/

namespace AnnotatedShader

/-- The statements of a file without its comments. -/
def Module.uncommented (m : Module) : Module :=
  ⟨m.file, m.statements.filter fun s => !s.isComment⟩

namespace Statement

open Grammar Lexer

variable {file : String}

/-! ## Statements of phrases -/

theorem isComment_of_bodyOfTree {t : StatementTree} {body : StatementBody}
    (h : bodyOfTree file t = .ok body) (position : Position) :
    isComment ⟨position, body⟩ = false := by
  cases t with
  | use => rw [← Except.ok.inj h]; rfl
  | buffer | vertexFormat =>
    simp only [bodyOfTree, bind_eq_ok_iff] at h
    obtain ⟨_, _, _, _, h⟩ := h
    rw [← Except.ok.inj h]
    rfl
  | constant | output | pipeline | blendFunc =>
    simp only [bodyOfTree, bind_eq_ok_iff] at h
    obtain ⟨_, _, h⟩ := h
    rw [← Except.ok.inj h]
    rfl

/-- The meanings of phrases are no comments, and stand where the phrases start. -/
theorem ofPhrases_eq_ok {ps : List Phrase} {ss : List Statement} (h : ofPhrases file ps = .ok ss) :
    (∀ s ∈ ss, s.isComment = false) ∧ ss.map Statement.position = ps.map Phrase.start := by
  induction ps generalizing ss with
  | nil =>
    obtain rfl := Except.ok.inj h
    exact ⟨by simp, rfl⟩
  | cons p ps ih =>
    simp only [ofPhrases, bind_eq_ok_iff] at h
    obtain ⟨body, hbody, others, hothers, h⟩ := h
    obtain rfl := Except.ok.inj h
    obtain ⟨hcomments, hpositions⟩ := ih hothers
    refine ⟨?_, by rw [List.map_cons, List.map_cons, hpositions]⟩
    intro s hs
    rcases List.mem_cons.mp hs with rfl | hs
    · exact isComment_of_bodyOfTree hbody p.start
    · exact hcomments s hs

theorem sorted_of_ofPhrases {text : String} {ps : List Phrase} {ss : List Statement}
    (hderives : Derives text ps) (h : ofPhrases file ps = .ok ss) :
    ss.Pairwise fun a b => a.position.le b.position = true := by
  have hstarts := hderives.sorted
  rw [← (ofPhrases_eq_ok h).2] at hstarts
  exact List.pairwise_map.mp hstarts

/-- When no comment stands apart from the phrases of a text, its statements are what these mean. -/
theorem parse_of_phrases {text : String} {ps : List Phrase} {ss : List Statement}
    (hps : phrasesOfScan file (scan text) = .ok ps) (hss : ofPhrases file ps = .ok ss)
    (hcomments : commentsApart ps (scan text).tokens = []) : parse file text = .ok ss := by
  have hderives := (phrasesOfScan_eq_ok_iff file).mp hps
  refine parse_eq_ok_iff.mpr ⟨ps, hderives, ss, hss, ?_⟩
  rw [hcomments, List.append_nil, inOrder,
    List.mergeSort_of_pairwise (sorted_of_ofPhrases hderives hss)]

/-! ## Comments among statements -/

theorem isComment_of_mem_commentsApart {ps : List Phrase} {ts : List Token} {s : Statement}
    (h : s ∈ commentsApart ps ts) : s.isComment = true := by
  obtain ⟨t, _, rfl⟩ := List.mem_map.mp h
  rfl

/-- A comment stands apart from phrases when its line meets no line from the first to the last token
of one. -/
theorem commentsApart_eq (ps : List Phrase) (ts : List Token) : commentsApart ps ts =
    (ts.filter fun t => t.terminal = .comment ∧ ∀ p ∈ ps, ¬ (p.start.line ≤ t.position.line ∧
      t.position.line ≤ p.lastLine)).map fun t => ⟨t.position, .comment (commentText t)⟩ := by
  rw [commentsApart]
  refine congrArg _ (List.filter_congr fun t _ => ?_)
  rw [Bool.eq_iff_iff]
  simp [Phrase.covers]

/-- Comments stand in the order of their positions. -/
theorem commentsApart_sorted {text : String} {ts : List Token} (hcut : Cut .start text.toList ts)
    (ps : List Phrase) : (commentsApart ps (visible ts)).Pairwise fun a b =>
      a.position.le b.position = true := by
  refine List.pairwise_map.mpr ?_
  exact hcut.sorted.2.sublist (List.filter_sublist.trans List.filter_sublist)

/-- The statements of a text are in the order of their positions.  Those that are no comments are
the meanings of the phrases, and there is a comment for each comment whose line meets no phrase. -/
theorem parse_comments {text : String} {ss : List Statement} (h : parse file text = .ok ss) :
    (ss.Pairwise fun a b => a.position.le b.position = true) ∧
      ∃ ps, Derives text ps ∧ ofPhrases file ps = .ok (ss.filter fun s => !s.isComment) ∧
        ss.filter isComment = commentsApart ps (scan text).tokens := by
  obtain ⟨ps, hderives, found, hfound, rfl⟩ := parse_eq_ok_iff.mp h
  obtain ⟨hphrases, _⟩ := ofPhrases_eq_ok hfound
  have hsorted := sorted_of_ofPhrases hderives hfound
  have hcomments : ∀ s ∈ commentsApart ps (scan text).tokens, s.isComment = true :=
    fun s hs => isComment_of_mem_commentsApart hs
  have hkept : (found ++ commentsApart ps (scan text).tokens).filter isComment =
      commentsApart ps (scan text).tokens := by
    rw [List.filter_append, List.filter_eq_nil_iff.mpr (by simpa using hphrases),
      List.filter_eq_self.mpr hcomments, List.nil_append]
  refine ⟨?_, ps, hderives, ?_, ?_⟩
  · exact pairwise_inOrder _
  · rwa [filter_inOrder hsorted hphrases hcomments]
  · have htokens := hderives
    obtain ⟨ts, hcut, _⟩ := htokens
    have hapart := commentsApart_sorted hcut ps
    rw [scan_of_cut hcut] at hkept ⊢
    rw [filter_inOrder_of_sorted _ (by rwa [hkept]), hkept]

/-! ## Two texts that differ in comments -/

theorem phrasesOfScan_withoutComments (s : Scan) :
    phrasesOfScan file s.withoutComments = phrasesOfScan file s := by
  have htokens : grammarTokens s.withoutComments.tokens = grammarTokens s.tokens := by
    rw [grammarTokens, grammarTokens, Scan.withoutComments, List.filter_filter]
    exact List.filter_congr fun _ _ => Bool.and_self _
  simp only [phrasesOfScan, htokens]
  rfl

/-- Texts with the same tokens but for comments have the same statements but for comments. -/
theorem parse_withoutComments {text text' : String}
    (h : (scan text').withoutComments = (scan text).withoutComments) :
    EndTogether (fun ss ss' => (ss'.filter fun s => !s.isComment) = ss.filter fun s => !s.isComment)
      (parse file text) (parse file text') := by
  have hphrases : phrasesOfScan file (scan text') = phrasesOfScan file (scan text) := by
    rw [← phrasesOfScan_withoutComments, h, phrasesOfScan_withoutComments]
  have hparse : ∀ {text : String} {ps}, phrasesOfScan file (scan text) = .ok ps →
      parse file text = ofPhrases file ps >>= fun found =>
        .ok (inOrder (found ++ commentsApart ps (scan text).tokens)) := by
    intro text ps hps
    simp only [parse, hps]
  cases hps : phrasesOfScan file (scan text) with
  | error d =>
    simp only [parse, hphrases, hps]
    exact .error _
  | ok ps =>
    have hps' := hphrases.trans hps
    cases hfound : ofPhrases file ps with
    | error e =>
      rw [hparse hps, hparse hps', hfound]
      exact .error e
    | ok found =>
      obtain ⟨hcomments, _⟩ := ofPhrases_eq_ok hfound
      have hsorted := sorted_of_ofPhrases ((phrasesOfScan_eq_ok_iff file).mp hps) hfound
      rw [hparse hps, hparse hps', hfound]
      refine .ok ?_
      rw [filter_inOrder hsorted hcomments fun s hs => isComment_of_mem_commentsApart hs,
        filter_inOrder hsorted hcomments fun s hs => isComment_of_mem_commentsApart hs]

end Statement

end AnnotatedShader
