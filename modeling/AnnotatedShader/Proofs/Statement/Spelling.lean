import AnnotatedShader.Proofs.Glsl.Lexeme
import AnnotatedShader.Proofs.Statement.Parsing

set_option autoImplicit false

/-!
# Spellings of names

The names that the statements of a text introduce, and those of their members, are identifiers of
the text, and bodies refer to them as such (`Worded`).

Names are texts of tokens of the terminal of identifiers, which holds for the trees by their
derivation and for the statements by their meaning.  `Module.Spelled` collects it for a module: the
names of declarations and imports, and the names in properties, those of types among them.
-/

namespace AnnotatedShader

/-- A name that is an identifier. -/
def Worded (name : String) : Prop := Glsl.IsIdentifier name.toList

/-- The members of a declaration. -/
def Declaration.fields : Declaration → List Property
  | .buffer _ _ fields | .vertexFormat _ _ fields => fields
  | .constant _ | .output _ | .pipeline _ _ | .blendFunc _ _ => []

/-- The names in a declaration: its own, and those of its members. -/
def Declaration.names (d : Declaration) : List String := d.name :: d.fields.map Property.name

/-- The names in a statement: what it introduces, and the members of that. -/
def StatementBody.names : StatementBody → List String
  | .use u => [u.name]
  | .declare d => d.names
  | .comment _ => []

/-- All names in a file are identifiers. -/
def Module.Spelled (m : Module) : Prop := ∀ s ∈ m.statements, ∀ name ∈ s.body.names, Worded name

namespace Grammar

/-- The names in a written statement. -/
def StatementTree.names : StatementTree → List String
  | .use _ member rename => [rename.getD member]
  | .buffer name _ fields | .vertexFormat name _ fields => name :: fields.map fun p => p.name.text
  | .constant p | .output p => [p.name.text]
  | .pipeline name _ | .blendFunc name _ => [name]

/-- A text is that of an identifier among some tokens. -/
def Names (ts : List Token) (text : String) : Prop :=
  ∃ t ∈ ts, t.terminal = .identifier ∧ t.text = text

theorem Names.mono {us ts : List Token} {text : String} (h : Names us text) (hsub : us ⊆ ts) :
    Names ts text := by
  obtain ⟨t, ht, hidentifier⟩ := h
  exact ⟨t, hsub ht, hidentifier⟩

theorem DerivesProperty.names {ts : List Token} {p : PropertyTree} (h : DerivesProperty ts p) :
    Names ts p.name.text := by
  cases h with
  | @property _ _ _ name _ _ _ hname => exact ⟨name, by simp, hname, rfl⟩

theorem DerivesStruct.names {ts : List Token} {name : String} {attr : Option AttributeTree}
    {fields : List PropertyTree} (h : DerivesStruct ts (name, attr, fields)) :
    ∀ text ∈ name :: fields.map fun p => p.name.text, Names ts text := by
  cases h with
  | struct _ hname _ _ hfields =>
    refine List.forall_mem_cons.mpr ⟨⟨_, by simp, hname, rfl⟩, List.forall_mem_map.mpr ?_⟩
    intro p hp
    obtain ⟨us, hsub, hderives⟩ := hfields.exists_of_mem hp
    exact hderives.names.mono fun t ht => by simp [hsub ht]

theorem DerivesStatement.names {ts : List Token} {t : StatementTree} (h : DerivesStatement ts t) :
    ∀ text ∈ t.names, Names ts text := by
  cases h with
  | @statement word w us tree hword hbehind =>
    have hsub : us ⊆ word :: us := List.subset_cons_self _ _
    have hbehind : ∀ text ∈ t.names, Names us text := by
      cases hbehind with
      | use _ _ hmember hrename =>
        refine List.forall_mem_singleton.mpr ?_
        cases hrename with
        | absent => exact ⟨_, by simp, hmember, rfl⟩
        | present _ hname => exact ⟨_, by simp, hname, rfl⟩
      | buffer hstruct | vertexFormat hstruct => exact hstruct.names
      | constant hproperty | output hproperty =>
        exact List.forall_mem_singleton.mpr hproperty.names
      | pipeline hname | blendFunc hname | blendFuncAlone hname =>
        exact List.forall_mem_singleton.mpr ⟨_, by simp, hname, rfl⟩
    exact fun text htext => (hbehind text htext).mono hsub

end Grammar

namespace Statement

open Grammar

variable {file : String}

theorem propertyOfTree_name {index : Nat} {t : PropertyTree} {p : Property}
    (h : propertyOfTree file index t = .ok p) : p.name = t.name.text := by
  simp only [propertyOfTree, bind_eq_ok_iff] at h
  obtain ⟨_, _, _, _, h⟩ := h
  rw [← Except.ok.inj h]

theorem propertiesOfTrees_names {index : Nat} {ts : List PropertyTree} {ps : List Property}
    (h : propertiesOfTrees file index ts = .ok ps) :
    ps.map Property.name = ts.map fun t => t.name.text := by
  induction ts generalizing index ps with
  | nil =>
    obtain rfl := Except.ok.inj h
    rfl
  | cons t rest ih =>
    simp only [propertiesOfTrees, bind_eq_ok_iff] at h
    obtain ⟨p, hp, others, hothers, h⟩ := h
    obtain rfl := Except.ok.inj h
    rw [List.map_cons, List.map_cons, propertyOfTree_name hp, ih hothers]

theorem bodyOfTree_names {t : StatementTree} {b : StatementBody} (h : bodyOfTree file t = .ok b) :
    b.names = t.names := by
  cases t with
  | use =>
    obtain rfl := Except.ok.inj h
    rfl
  | buffer | vertexFormat =>
    simp only [bodyOfTree, bind_eq_ok_iff] at h
    obtain ⟨_, _, fields, hfields, h⟩ := h
    obtain rfl := Except.ok.inj h
    exact congrArg _ (propertiesOfTrees_names hfields)
  | constant | output =>
    simp only [bodyOfTree, bind_eq_ok_iff] at h
    obtain ⟨p, hp, h⟩ := h
    obtain rfl := Except.ok.inj h
    exact congrArg (fun name => [name]) (propertyOfTree_name hp)
  | pipeline | blendFunc =>
    simp only [bodyOfTree, bind_eq_ok_iff] at h
    obtain ⟨_, _, h⟩ := h
    obtain rfl := Except.ok.inj h
    rfl

theorem ofPhrases_names {ps : List Phrase} {ss : List Statement} (h : ofPhrases file ps = .ok ss) :
    ss.map (·.body.names) = ps.map (·.tree.names) := by
  induction ps generalizing ss with
  | nil =>
    obtain rfl := Except.ok.inj h
    rfl
  | cons p rest ih =>
    simp only [ofPhrases, bind_eq_ok_iff] at h
    obtain ⟨body, hbody, others, hothers, h⟩ := h
    obtain rfl := Except.ok.inj h
    rw [List.map_cons, List.map_cons, bodyOfTree_names hbody, ih hothers]

/-- Every name in the statements of a text is an identifier. -/
theorem parse_spelled {text : String} {ss : List Statement} (h : parse file text = .ok ss) :
    Module.Spelled ⟨file, ss⟩ := by
  obtain ⟨ps, ⟨ts, hcut, hderives⟩, found, hfound, rfl⟩ := parse_eq_ok_iff.mp h
  intro s hs name hname
  rw [inOrder, List.mem_mergeSort, List.mem_append] at hs
  rcases hs with hs | hs
  · obtain ⟨p, hp, hnames⟩ : ∃ p ∈ ps, p.tree.names = s.body.names :=
      List.mem_map.mp (ofPhrases_names hfound ▸ List.mem_map_of_mem hs)
    obtain ⟨us, hsub, hphrase⟩ := hderives.exists_of_mem hp
    obtain ⟨t, ht, hidentifier, rfl⟩ := hphrase.2.names name (hnames ▸ hname)
    have ht := (List.mem_filter.mp (hsub ht)).1
    exact .of_head? (hcut.isNameStart ht hidentifier) (hcut.isNameChar ht hidentifier)
  · obtain ⟨t, _, rfl⟩ := List.mem_map.mp hs
    simp [StatementBody.names] at hname

end Statement

end AnnotatedShader
