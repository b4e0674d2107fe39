import AnnotatedShader.Proofs.Except
import AnnotatedShader.Proofs.Grammar.Stuck
import AnnotatedShader.Proofs.Statement.Place

set_option autoImplicit false

/-!
# Places of statements and reports

Statements and their properties stand at tokens of their text, and so does whatever is reported of a
text, unless it is the character that no token starts with (`Scanned`).

The tokens of a tree are among those that it is derived from, so it is enough to follow trees from
here on.  Each function that computes a meaning has a lemma that its reports are at tokens of its
tree (`OnMeaning`), and reports of the grammar are at the token at which the reader is stuck.
`parse_reports` has all reports of a text, and `parse_positions` the positions of its statements and
properties.
-/

namespace AnnotatedShader

open Failure (Reports reports_diagnosed)

/-- The properties in a declaration: the members of a struct or format, or what is declared
itself. -/
def Declaration.properties : Declaration → List Property
  | .buffer _ _ fields | .vertexFormat _ _ fields => fields
  | .constant p | .output p => [p]
  | .pipeline _ _ | .blendFunc _ _ => []

/-- The properties in a statement. -/
def StatementBody.properties : StatementBody → List Property
  | .declare d => d.properties
  | .use _ | .comment _ => []

namespace Grammar

/-! ## Tokens of trees -/

/-- The tokens of a written attribute. -/
def AttributeTree.tokens : AttributeTree → List Token
  | .bare name => [name]
  | .call name argument => [name, argument]

/-- The tokens of a written property that are kept: its name, its array size and those of its
attribute. -/
def PropertyTree.tokens (p : PropertyTree) : List Token :=
  p.name :: (p.type.size.toList ++ p.attr.toList.flatMap AttributeTree.tokens)

/-- The tokens of a written statement that are kept, but for the values of state entries. -/
def StatementTree.tokens : StatementTree → List Token
  | .buffer _ attr fields | .vertexFormat _ attr fields =>
    attr.toList.flatMap AttributeTree.tokens ++ fields.flatMap PropertyTree.tokens
  | .constant p | .output p => p.tokens
  | .use _ _ _ | .pipeline _ _ | .blendFunc _ _ => []

theorem DerivesAttribute.tokens_subset {ts : List Token} {attr : Option AttributeTree}
    (h : DerivesAttribute ts attr) : attr.toList.flatMap AttributeTree.tokens ⊆ ts := by
  cases h <;> simp [AttributeTree.tokens]

theorem DerivesType.size_subset {ts : List Token} {t : TypeTree} (h : DerivesType ts t) :
    t.size.toList ⊆ ts := by
  cases h with
  | type _ _ hsize => cases hsize <;> simp

theorem DerivesProperty.tokens_subset {ts : List Token} {p : PropertyTree}
    (h : DerivesProperty ts p) : p.tokens ⊆ ts := by
  cases h with
  | property htype _ hattr =>
    refine List.cons_subset.mpr ⟨by simp, List.append_subset.mpr ⟨?_, ?_⟩⟩
    · exact List.Subset.trans htype.size_subset (List.subset_append_left _ _)
    · exact fun t ht => by simp [hattr.tokens_subset ht]

theorem DerivesStruct.tokens_subset {ts : List Token} {name : String} {attr : Option AttributeTree}
    {fields : List PropertyTree} (h : DerivesStruct ts (name, attr, fields)) :
    attr.toList.flatMap AttributeTree.tokens ++ fields.flatMap PropertyTree.tokens ⊆ ts := by
  cases h with
  | struct _ _ hattr _ hfields =>
    refine List.append_subset.mpr ⟨fun t ht => by simp [hattr.tokens_subset ht], fun t ht => ?_⟩
    obtain ⟨p, hp, ht⟩ := List.mem_flatMap.mp ht
    obtain ⟨us, hsub, hderives⟩ := hfields.exists_of_mem hp
    simp [hsub (hderives.tokens_subset ht)]

theorem DerivesStatement.tokens_subset {ts : List Token} {t : StatementTree}
    (h : DerivesStatement ts t) : t.tokens ⊆ ts := by
  cases h with
  | statement _ hbehind =>
    refine List.Subset.trans ?_ (List.subset_cons_self _ _)
    cases hbehind with
    | buffer hstruct | vertexFormat hstruct => exact hstruct.tokens_subset
    | constant hproperty | output hproperty => exact hproperty.tokens_subset
    | use | pipeline | blendFunc | blendFuncAlone => exact List.nil_subset _

/-- The tokens of a text that derives phrases are those of the phrases. -/
theorem DerivesText.tokens_subset {ts : List Token} {ps : List Phrase} (h : DerivesText ts ps)
    {p : Phrase} (hp : p ∈ ps) : p.tokens ≠ [] ∧ p.tokens ⊆ ts ∧ p.tree.tokens ⊆ ts := by
  obtain ⟨us, hsub, hphrase⟩ := h.exists_of_mem hp
  rw [hphrase.1]
  exact ⟨hphrase.ne_nil, hsub, List.Subset.trans hphrase.2.tokens_subset hsub⟩

end Grammar

namespace Statement

open Grammar

/-! ## Reports on phrases -/

/-- A report on the meaning of a token: it is no array size, or no name that takes an argument. -/
inductive OnMeaning (file : String) (u : Token) : Diagnostic → Prop
  | arraySize {n : Int} (hn : n < 0) :
    OnMeaning file u ⟨file, u.position, .unexpectedToken [.arraySize] (.text (toString n))⟩
  | orderName :
    OnMeaning file u ⟨file, u.position, .unexpectedToken [.orderName] (.text u.text)⟩

section Reports

variable {file : String} {Q : Diagnostic → Prop}

theorem OnMeaning.located {u : Token} {d : Diagnostic} (h : OnMeaning file u d) :
    d.file = file ∧ d.position = u.position := by
  cases h <;> exact ⟨rfl, rfl⟩

theorem failsOnly_numeralUnread {α : Type} :
    FailsOnly (Reports Q) (.error .numeralUnread : Except Failure α) :=
  failsOnly_error fun _ h => nomatch h

theorem typeOfTree_reports {t : TypeTree}
    (h : ∀ size ∈ t.size.toList, ∀ d, OnMeaning file size d → Q d) :
    FailsOnly (Reports Q) (typeOfTree file t) := by
  unfold typeOfTree
  split
  · exact failsOnly_ok _ _
  · rename_i size hsize
    split
    · exact failsOnly_numeralUnread
    · split
      · rename_i hn
        exact failsOnly_error (reports_diagnosed (h size (by simp [hsize]) _ (.arraySize hn)))
      · exact failsOnly_ok _ _

theorem attributeOfTree_reports {t : AttributeTree}
    (h : ∀ u ∈ t.tokens, ∀ d, OnMeaning file u d → Q d) :
    FailsOnly (Reports Q) (attributeOfTree file t) := by
  cases t with
  | bare name =>
    rw [attributeOfTree]
    split
    · exact failsOnly_ok _ _
    · exact failsOnly_numeralUnread
  | call name argument =>
    have hname := h name List.mem_cons_self _ .orderName
    rw [attributeOfTree]
    split
    · exact failsOnly_error (reports_diagnosed hname)
    · split
      · exact failsOnly_ok _ _
      · exact failsOnly_error (reports_diagnosed hname)

theorem attributeOfTree?_reports {t : Option AttributeTree}
    (h : ∀ u ∈ t.toList.flatMap AttributeTree.tokens, ∀ d, OnMeaning file u d → Q d) :
    FailsOnly (Reports Q) (attributeOfTree? file t) := by
  cases t with
  | none => exact failsOnly_ok _ _
  | some t => exact (attributeOfTree_reports fun u hu => h u (by simpa using hu)).map some

theorem propertyOfTree_reports {index : Nat} {t : PropertyTree}
    (h : ∀ u ∈ t.tokens, ∀ d, OnMeaning file u d → Q d) :
    FailsOnly (Reports Q) (propertyOfTree file index t) := by
  have hrest := List.forall_mem_append.mp (List.forall_mem_cons.mp h).2
  refine (typeOfTree_reports hrest.1).bind fun _ _ => ?_
  exact (attributeOfTree?_reports hrest.2).bind fun _ _ => failsOnly_ok _ _

theorem propertiesOfTrees_reports {index : Nat} {ts : List PropertyTree}
    (h : ∀ u ∈ ts.flatMap PropertyTree.tokens, ∀ d, OnMeaning file u d → Q d) :
    FailsOnly (Reports Q) (propertiesOfTrees file index ts) := by
  induction ts generalizing index with
  | nil => exact failsOnly_ok _ _
  | cons t rest ih =>
    rw [List.flatMap_cons, List.forall_mem_append] at h
    exact (propertyOfTree_reports h.1).bind fun _ _ => (ih h.2).bind fun _ _ => failsOnly_ok _ _

theorem entriesOfTrees_reports (ts : List EntryTree) :
    FailsOnly (Reports Q) (entriesOfTrees ts) := by
  induction ts with
  | nil => exact failsOnly_ok _ _
  | cons t rest ih =>
    refine FailsOnly.bind ?_ fun _ _ => ih.bind fun _ _ => failsOnly_ok _ _
    unfold valueOfToken
    split
    · exact failsOnly_ok _ _
    · split
      · exact failsOnly_ok _ _
      · exact failsOnly_numeralUnread
    · exact failsOnly_ok _ _
    · exact failsOnly_ok _ _
    · exact failsOnly_ok _ _

theorem bodyOfTree_reports {t : StatementTree}
    (h : ∀ u ∈ t.tokens, ∀ d, OnMeaning file u d → Q d) :
    FailsOnly (Reports Q) (bodyOfTree file t) := by
  cases t with
  | use => exact failsOnly_ok _ _
  | buffer name attr fields | vertexFormat name attr fields =>
    obtain ⟨hattr, hfields⟩ := List.forall_mem_append.mp h
    refine (attributeOfTree?_reports hattr).bind fun _ _ => ?_
    exact (propertiesOfTrees_reports hfields).bind fun _ _ => failsOnly_ok _ _
  | constant p | output p => exact (propertyOfTree_reports h).bind fun _ _ => failsOnly_ok _ _
  | pipeline name entries | blendFunc name entries =>
    exact (entriesOfTrees_reports entries).bind fun _ _ => failsOnly_ok _ _

theorem ofPhrases_reports {ps : List Phrase}
    (h : ∀ p ∈ ps, ∀ u ∈ p.tree.tokens, ∀ d, OnMeaning file u d → Q d) :
    FailsOnly (Reports Q) (ofPhrases file ps) := by
  induction ps with
  | nil => exact failsOnly_ok _ _
  | cons p rest ih =>
    obtain ⟨hfirst, hrest⟩ := List.forall_mem_cons.mp h
    exact (bodyOfTree_reports hfirst).bind fun _ _ => (ih hrest).bind fun _ _ => failsOnly_ok _ _

end Reports

/-! ## Reports on texts -/

/-- A position is that of a token of a scan, or of the character that stops it. -/
inductive Scanned (s : Lexer.Scan) : Position → Prop
  | token (t : Token) (ht : t ∈ s.tokens) : Scanned s t.position
  | character (c : Char) (q : Position) (hstop : s.stop = some (c, q)) : Scanned s q

theorem mem_of_mem_grammarTokens {ts : List Token} {t : Token} (h : t ∈ grammarTokens ts) :
    t ∈ ts := (List.mem_filter.mp h).1

/-- The phrases of a scan are derived by its tokens. -/
theorem derivesText_of_phrasesOfScan {file : String} {s : Lexer.Scan} {ps : List Phrase}
    (h : phrasesOfScan file s = .ok ps) : DerivesText (grammarTokens s.tokens) ps := by
  simp only [phrasesOfScan] at h
  split at h
  · contradiction
  · contradiction
  · contradiction
  · rename_i hphrases _
    obtain rfl := Except.ok.inj h
    exact phrases_eq_ok_iff.mp hphrases

/-- A reader that is stuck is reported at the token where it is stuck, or at the last one. -/
theorem stuckDiagnostic_scanned {file : String} {s : Lexer.Scan} {stuck : Stuck}
    (h : phrases (grammarTokens s.tokens) = .error stuck) :
    Scanned s (stuckDiagnostic file (grammarTokens s.tokens) stuck).position := by
  unfold stuckDiagnostic
  simp only
  split
  · rename_i t rest hrest
    refine .token t (mem_of_mem_grammarTokens ((phrases_stuck _).of_eq _ h ?_))
    rw [hrest]
    exact List.mem_cons_self
  · cases hlast : (grammarTokens s.tokens).getLast? with
    | some t => exact .token t (mem_of_mem_grammarTokens (List.mem_of_getLast? hlast))
    | none =>
      -- without a token there is nothing to be stuck at
      rw [List.getLast?_eq_none_iff.mp hlast] at h
      contradiction

theorem phrasesOfScan_reports {file : String} {s : Lexer.Scan} {d : Diagnostic}
    (h : phrasesOfScan file s = .error d) : d.file = file ∧ Scanned s d.position := by
  simp only [phrasesOfScan] at h
  split at h
  · rename_i hphrases
    obtain rfl := Except.error.inj h
    exact ⟨rfl, stuckDiagnostic_scanned hphrases⟩
  · rename_i stop hstop _
    obtain rfl := Except.error.inj h
    exact ⟨rfl, .character stop.1 stop.2 hstop⟩
  · obtain rfl := Except.error.inj h
    refine ⟨?_, stuckDiagnostic_scanned ‹phrases _ = _›⟩
    unfold stuckDiagnostic
    simp only
    split <;> rfl
  · contradiction

/-- A report names a file and a place of a class. -/
def ReportsIn (file : String) (Here : Position → Prop) : Failure → Prop :=
  Reports fun d => d.file = file ∧ Here d.position

/-- Whatever is reported of a text is reported under the name that it is given, at one of its tokens
or at the character that stops the scan. -/
theorem parse_reports (file text : String) :
    FailsOnly (ReportsIn file (Scanned (Lexer.scan text))) (parse file text) := by
  simp only [parse]
  split
  · rename_i d hd
    exact failsOnly_error (reports_diagnosed (phrasesOfScan_reports hd))
  · rename_i ps hps
    refine (ofPhrases_reports fun p hp u hu d hd => ?_).bind fun _ _ => failsOnly_ok _ _
    have hmem := ((derivesText_of_phrasesOfScan hps).tokens_subset hp).2.2 hu
    exact ⟨hd.located.1, hd.located.2 ▸ .token u (mem_of_mem_grammarTokens hmem)⟩

/-! ## Places of statements and properties -/

theorem propertiesOfTrees_positions {file : String} {index : Nat} {ts : List PropertyTree}
    {ps : List Property} (h : propertiesOfTrees file index ts = .ok ps) :
    ps.map Property.position = ts.map (·.name.position) := by
  induction ts generalizing index ps with
  | nil =>
    obtain rfl := Except.ok.inj h
    rfl
  | cons t rest ih =>
    simp only [propertiesOfTrees, propertyOfTree, bind_eq_ok_iff] at h
    obtain ⟨p, ⟨_, _, _, _, hp⟩, others, hothers, h⟩ := h
    obtain rfl := Except.ok.inj hp
    obtain rfl := Except.ok.inj h
    rw [List.map_cons, List.map_cons, ih hothers]

theorem bodyOfTree_positions {file : String} {t : StatementTree} {b : StatementBody}
    (h : bodyOfTree file t = .ok b) :
    b.properties.map Property.position = t.properties.map (·.name.position) := by
  cases t with
  | use =>
    obtain rfl := Except.ok.inj h
    rfl
  | buffer | vertexFormat =>
    simp only [bodyOfTree, bind_eq_ok_iff] at h
    obtain ⟨_, _, fields, hfields, h⟩ := h
    obtain rfl := Except.ok.inj h
    exact propertiesOfTrees_positions hfields
  | constant | output =>
    simp only [bodyOfTree, propertyOfTree, bind_eq_ok_iff] at h
    obtain ⟨p, ⟨_, _, _, _, hp⟩, h⟩ := h
    obtain rfl := Except.ok.inj hp
    obtain rfl := Except.ok.inj h
    rfl
  | pipeline | blendFunc =>
    simp only [bodyOfTree, bind_eq_ok_iff] at h
    obtain ⟨_, _, h⟩ := h
    obtain rfl := Except.ok.inj h
    rfl

theorem name_mem_tokens {t : StatementTree} {p : PropertyTree} (hp : p ∈ t.properties) :
    p.name ∈ t.tokens := by
  have hname : p.name ∈ p.tokens := List.mem_cons_self
  cases t with
  | buffer | vertexFormat =>
    exact List.mem_append_right _ (List.mem_flatMap.mpr ⟨p, hp, hname⟩)
  | constant | output =>
    obtain rfl := List.mem_singleton.mp hp
    exact hname
  | use | pipeline | blendFunc => exact absurd hp List.not_mem_nil

/-- The statements that phrases mean stand at tokens of the phrases, and so do their properties. -/
theorem positions_of_ofPhrases {file : String} {us : List Token} {ps : List Phrase}
    {ss : List Statement} (h : ofPhrases file ps = .ok ss)
    (hps : ∀ p ∈ ps, p.tokens ≠ [] ∧ p.tokens ⊆ us ∧ p.tree.tokens ⊆ us) :
    ∀ s ∈ ss, (∃ t ∈ us, s.position = t.position) ∧
      ∀ p ∈ s.body.properties, ∃ t ∈ us, p.position = t.position := by
  induction ps generalizing ss with
  | nil =>
    obtain rfl := Except.ok.inj h
    simp
  | cons p rest ih =>
    simp only [ofPhrases, bind_eq_ok_iff] at h
    obtain ⟨body, hbody, others, hothers, h⟩ := h
    obtain rfl := Except.ok.inj h
    obtain ⟨⟨hne, htokens, htree⟩, hrest⟩ := List.forall_mem_cons.mp hps
    refine List.forall_mem_cons.mpr ⟨⟨?_, fun q hq => ?_⟩, ih hothers hrest⟩
    · obtain ⟨t, ts, heq⟩ := List.exists_cons_of_ne_nil hne
      refine ⟨t, htokens (by rw [heq]; exact List.mem_cons_self), ?_⟩
      simp [Phrase.start, heq]
    · have hmem := List.mem_map_of_mem (f := Property.position) hq
      rw [bodyOfTree_positions hbody] at hmem
      obtain ⟨tree, htreeMem, hposition⟩ := List.mem_map.mp hmem
      exact ⟨tree.name, htree (name_mem_tokens htreeMem), hposition.symm⟩

/-- The statements of a text stand at its tokens, and so do their properties. -/
theorem parse_positions {file text : String} {ss : List Statement} (h : parse file text = .ok ss) :
    ∀ s ∈ ss, Scanned (Lexer.scan text) s.position ∧
      ∀ p ∈ s.body.properties, Scanned (Lexer.scan text) p.position := by
  simp only [parse] at h
  split at h
  · contradiction
  · rename_i ps hps
    obtain ⟨found, hfound, h⟩ := bind_eq_ok_iff.mp h
    obtain rfl := Except.ok.inj h
    intro s hs
    rw [inOrder, List.mem_mergeSort, List.mem_append] at hs
    rcases hs with hs | hs
    · obtain ⟨⟨t, ht, hposition⟩, hproperties⟩ := positions_of_ofPhrases hfound
        (fun p hp => (derivesText_of_phrasesOfScan hps).tokens_subset hp) s hs
      refine ⟨hposition ▸ .token t (mem_of_mem_grammarTokens ht), fun p hp => ?_⟩
      obtain ⟨u, hu, hposition⟩ := hproperties p hp
      exact hposition ▸ .token u (mem_of_mem_grammarTokens hu)
    · obtain ⟨t, ht, rfl⟩ := List.mem_map.mp hs
      exact ⟨.token t (List.mem_filter.mp ht).1, by simp [StatementBody.properties]⟩

end Statement

end AnnotatedShader
