import AnnotatedShader.Glsl.Generate
import AnnotatedShader.Proofs.Glsl.Rewriting
import AnnotatedShader.Proofs.Model.Leaf
import AnnotatedShader.Proofs.Model.Names
import Mathlib.Data.List.Induction

set_option autoImplicit false

/-!
# References to members

A body refers to the member of a buffer by both names with an underscore in between.  The names may
hold underscores themselves, so two members may be referred to by one identifier, and an identifier
that refers to a member may be the name of another declaration.  Both take a name that extends the
name of a buffer by an underscore (`Extends`, `eq_or_extends_of_joined`).

`references` are the members that a body of the model can refer to, those of the root buffer apart,
which keep their names.  `Puts` says what a rewriting puts in the place of an identifier.  It puts
the selection of a member that nothing else is referred to by, and where two members share an
identifier that of the later one (`puts_reference`); the names of the model's own declarations stay
as they are unless a member is referred to by them (`puts_name`).
-/

namespace AnnotatedShader

/-- Whether a name consists of another one, an underscore and some more text. -/
def Extends (short long : String) : Prop := ∃ more : String, long = short ++ "_" ++ more

/-- Joined names that agree have equal fronts, or one front extends the other one. -/
theorem eq_or_extends_of_joined {a b c d : String} (h : a ++ "_" ++ b = c ++ "_" ++ d) :
    (a = c ∧ b = d) ∨ Extends a c ∨ Extends c a := by
  have hlist : a.toList ++ '_' :: b.toList = c.toList ++ '_' :: d.toList := by
    simpa [String.toList_append] using congrArg String.toList h
  have hextends {x y : String} {more : List Char} (hy : y.toList = x.toList ++ '_' :: more) :
      Extends x y := by
    refine ⟨String.ofList more, String.toList_inj.mp ?_⟩
    simp [String.toList_append, hy]
  rcases List.append_eq_append_iff.mp hlist with ⟨more, hc, hb⟩ | ⟨more, ha, hd⟩
  · cases more with
    | nil =>
      rw [List.append_nil] at hc
      exact .inl ⟨String.toList_inj.mp hc.symm, String.toList_inj.mp (List.cons.inj hb).2⟩
    | cons x more =>
      obtain ⟨rfl, -⟩ := List.cons.inj hb
      exact .inr (.inl (hextends hc))
  · cases more with
    | nil =>
      rw [List.append_nil] at ha
      exact .inl ⟨String.toList_inj.mp ha, String.toList_inj.mp (List.cons.inj hd).2.symm⟩
    | cons x more =>
      obtain ⟨rfl, -⟩ := List.cons.inj hd
      exact .inr (.inr (hextends ha))

namespace Model

/-- A member of a buffer, by the names of both. -/
structure Reference where
  buffer : String
  member : String
  deriving DecidableEq, Repr, Inhabited

/-- The identifier that refers to a member. -/
def Reference.ident (ref : Reference) : String := ref.buffer ++ "_" ++ ref.member

/-- The selection of a member. -/
def Reference.selection (ref : Reference) : String := ref.buffer ++ "." ++ ref.member

/-- The members that bodies refer to: those of all buffers but the root. -/
def references (m : Model) : List Reference :=
  (m.buffers.filter fun b => !b.isRoot).flatMap fun b =>
    b.members.map fun member => ⟨b.name, member.name⟩

/-- The last member that an identifier refers to. -/
def reference? (m : Model) (ident : String) : Option Reference :=
  (m.references.filter fun ref => ref.ident == ident).getLast?

/-- The names of buffers and textures, with which references start. -/
def referredNames (m : Model) : List String :=
  m.references.map Reference.buffer ++ m.textures.map Texture.name

end Model

namespace Glsl

open AnnotatedShader.Text

/-- That a rewriting puts a text for an identifier wherever it does not select a member. -/
def Puts (r : Rewriting) (ident replacement : String) : Prop :=
  ∀ (fuel : Nat) (before : Option Char) (behind : List Char), IsIdentifier ident.toList →
    before.any isWordChar = false → before ≠ some '.' → behind.head?.any isNameChar = false →
    rewriteFrom r (fuel + 1) before (ident.toList ++ behind) =
      replacement.toList ++ rewriteFrom r fuel ident.toList.getLast? behind

theorem puts_of_lookup {r : Rewriting} {ident replacement : String}
    (h : r.members.lookup ident = some replacement) : Puts r ident replacement := by
  intro fuel before behind hident hbefore hpoint hbehind
  rw [rewriteFrom_name r fuel hident hbefore hbehind, if_neg hpoint, String.ofList_toList, h]

/-- An identifier that refers to no member and samples no texture is left alone. -/
theorem puts_self {r : Rewriting} {ident : String} (hmember : r.members.lookup ident = none)
    (htexture : ∀ t, ident = t ++ "_Sample" → r.textures.lookup t = none) :
    Puts r ident ident := by
  intro fuel before behind hident hbefore hpoint hbehind
  have hcall : sampleCall? r ident.toList behind = none := by
    cases hcall : sampleCall? r ident.toList behind with
    | none => rfl
    | some call =>
      obtain ⟨hsampler, -⟩ := sampleCall?_eq_some_iff.mp hcall
      obtain ⟨t, ht, hlookup⟩ := sampledTexture?_eq_some_iff.mp hsampler
      rw [htexture t (by rwa [String.ofList_toList] at ht)] at hlookup
      contradiction
  rw [rewriteFrom_name r fuel hident hbefore hbehind, if_neg hpoint, String.ofList_toList, hmember,
    hcall]

/-! ## The references of a model -/

section Lookups

variable (m : Model)

theorem members_rewritingOf : (rewritingOf m).members =
    (m.references.map fun ref => (ref.ident, ref.selection)).reverse := by
  simp [rewritingOf, Model.references, Model.Reference.ident, Model.Reference.selection,
    List.map_flatMap, Function.comp_def]

/-- Of the members that an identifier refers to the last one counts. -/
theorem lookup_members (ident : String) : (rewritingOf m).members.lookup ident =
    (m.reference? ident).map Model.Reference.selection := by
  rw [members_rewritingOf, Model.reference?]
  induction m.references using List.reverseRecOn with
  | nil => rfl
  | append_singleton refs ref ih =>
    rw [List.map_append, List.map_singleton, List.reverse_append, List.reverse_singleton,
      List.singleton_append, List.lookup_cons, ih, List.filter_append]
    by_cases hident : ref.ident = ident
    · simp [hident]
    · have hne : (ident == ref.ident) = false := by simpa using Ne.symm hident
      simp [hident, hne]

theorem textures_rewritingOf {t sampler : String}
    (h : (rewritingOf m).textures.lookup t = some sampler) :
    t ∈ m.textures.map Texture.name := by
  obtain ⟨before, after, hsplit, -⟩ := List.lookup_eq_some_iff.mp h
  have hmem : (t, sampler) ∈ m.textures.map fun t => (t.name, t.name) := by
    rw [show (m.textures.map fun t => (t.name, t.name)) = _ from hsplit]
    simp
  obtain ⟨texture, htexture, heq⟩ := List.mem_map.mp hmem
  exact List.mem_map.mpr ⟨texture, htexture, (Prod.mk.inj heq).1⟩

end Lookups

variable {m : Model}

/-- The identifier of a member becomes the selection of a member, and another one only if the name
of one buffer extends that of the other. -/
theorem puts_reference {ref : Model.Reference} (h : ref ∈ m.references) :
    ∃ last, m.reference? ref.ident = some last ∧
      Puts (rewritingOf m) ref.ident last.selection ∧
      (last = ref ∨ Extends last.buffer ref.buffer ∨ Extends ref.buffer last.buffer) := by
  have hmem : ref ∈ m.references.filter fun other => other.ident == ref.ident :=
    List.mem_filter.mpr ⟨h, beq_self_eq_true _⟩
  obtain ⟨last, hlast⟩ : ∃ last, m.reference? ref.ident = some last :=
    ⟨_, List.getLast?_eq_some_getLast (List.ne_nil_of_mem hmem)⟩
  refine ⟨last, hlast, puts_of_lookup (by rw [lookup_members, hlast, Option.map_some]), ?_⟩
  have hident : last.ident = ref.ident :=
    beq_iff_eq.mp (List.mem_filter.mp (List.mem_of_getLast? hlast)).2
  rcases eq_or_extends_of_joined hident with ⟨hbuffer, hmember⟩ | hextends
  · exact .inl (by cases last; cases ref; simp_all)
  · exact .inr hextends

/-- An identifier is left alone unless a reference to a member or a sampled texture is written
so. -/
theorem puts_name {n : String}
    (hmember : ∀ ref ∈ m.references, ref.ident ≠ n)
    (htexture : ∀ t ∈ m.textures.map Texture.name, t ++ "_Sample" ≠ n) :
    Puts (rewritingOf m) n n := by
  refine puts_self ?_ fun t ht => ?_
  · rw [lookup_members, Model.reference?, List.filter_eq_nil_iff.mpr (by simpa using hmember)]
    rfl
  · cases hlookup : (rewritingOf m).textures.lookup t with
    | none => rfl
    | some sampler => exact absurd ht.symm (htexture t (textures_rewritingOf m hlookup))

/-- The name of the vertex format of an accepted model is not that of a buffer or texture. -/
theorem format_not_referred {module : Module} {stage : Stage} {ns : Namespace}
    {imports : List ResolvedImport} (h : Model.build module stage ns imports = .ok m)
    {vf : VertexFormat} (hvf : m.vertexFormat = some vf) : vf.name ∉ m.referredNames := by
  have hnames := Model.build_names h
  simp only [Model.names, hvf, Option.toList_some, List.map_cons, List.map_nil, List.nodup_append,
    List.mem_append, List.mem_singleton] at hnames
  obtain ⟨⟨⟨-, -, hformat⟩, -⟩, -⟩ := hnames
  intro hmem
  refine hformat vf.name ?_ vf.name rfl rfl
  rcases List.mem_append.mp hmem with hmem | hmem
  · obtain ⟨ref, href, hname⟩ := List.mem_map.mp hmem
    obtain ⟨b, hb, href⟩ := List.mem_flatMap.mp href
    obtain ⟨member, -, rfl⟩ := List.mem_map.mp href
    exact .inl (.inl (.inl (List.mem_map.mpr ⟨b, (List.mem_filter.mp hb).1, hname⟩)))
  · exact .inl (.inl (.inr hmem))

/-- For every accepted model the identifier of a member becomes the selection of the last member
that is referred to so, which is another one only if one of the two buffer names extends the other.
Every name that does not extend the name of a buffer or texture is left alone, be it that of an
output, of a root constant or of a texture, and so is that of a vertex input, unless one of the name
of its format and the name of a buffer or texture extends the other. -/
theorem rewritingOf_spec {module : Module} {stage : Stage} {ns : Namespace}
    {imports : List ResolvedImport} (h : Model.build module stage ns imports = .ok m) :
    (∀ ref ∈ m.references, ∃ last, m.reference? ref.ident = some last ∧
      Puts (rewritingOf m) ref.ident last.selection ∧
      (last = ref ∨ Extends last.buffer ref.buffer ∨ Extends ref.buffer last.buffer)) ∧
    (∀ n : String, Puts (rewritingOf m) n n ∨ ∃ x ∈ m.referredNames, Extends x n) ∧
    ∀ vf, m.vertexFormat = some vf → ∀ i ∈ vf.inputs,
      Puts (rewritingOf m) (vf.name ++ "_" ++ i.name) (vf.name ++ "_" ++ i.name) ∨
        ∃ x ∈ m.referredNames, Extends x vf.name ∨ Extends vf.name x := by
  have hbuffer {ref : Model.Reference} (href : ref ∈ m.references) :
      ref.buffer ∈ m.referredNames :=
    List.mem_append_left _ (List.mem_map_of_mem href)
  have htexture {t : String} (ht : t ∈ m.textures.map Texture.name) : t ∈ m.referredNames :=
    List.mem_append_right _ ht
  have hsample (t : String) : t ++ "_Sample" = t ++ "_" ++ "Sample" := by
    rw [String.append_assoc]
    rfl
  refine ⟨fun ref => puts_reference, fun n => ?_, fun vf hvf i _ => ?_⟩
  · refine or_iff_not_imp_right.mpr fun hfree =>
      puts_name (fun ref href heq => ?_) fun t ht heq => ?_
    · exact hfree ⟨_, hbuffer href, ref.member, heq.symm⟩
    · exact hfree ⟨t, htexture ht, "Sample", heq.symm.trans (hsample t)⟩
  · have hother := format_not_referred h hvf
    refine or_iff_not_imp_right.mpr fun hfree =>
      puts_name (fun ref href heq => ?_) fun t ht heq => ?_
    · rcases eq_or_extends_of_joined heq with ⟨hname, -⟩ | hextends
      · exact hother (hname ▸ hbuffer href)
      · exact hfree ⟨_, hbuffer href, hextends⟩
    · rcases eq_or_extends_of_joined ((hsample t).symm.trans heq) with ⟨hname, -⟩ | hextends
      · exact hother (hname ▸ htexture ht)
      · exact hfree ⟨t, htexture ht, hextends⟩

theorem rewritingOf_spec_litModule :
    Model.build Model.litModule .pixel (Namespace.ofModules [Model.litModule]) [] =
      .ok Model.litModel ∧
    Model.litModel.references = [⟨"Scene", "basis"⟩, ⟨"Scene", "lights"⟩] ∧
    (∀ ref ∈ Model.litModel.references, ∃ last, Model.litModel.reference? ref.ident = some last ∧
      Puts (rewritingOf Model.litModel) ref.ident last.selection ∧
      (last = ref ∨ Extends last.buffer ref.buffer ∨ Extends ref.buffer last.buffer)) ∧
    ∀ n : String, Puts (rewritingOf Model.litModel) n n ∨
      ∃ x ∈ Model.litModel.referredNames, Extends x n :=
  have h := rewritingOf_spec Model.build_litModule
  ⟨Model.build_litModule, rfl, h.1, h.2.1⟩

end Glsl

end AnnotatedShader
