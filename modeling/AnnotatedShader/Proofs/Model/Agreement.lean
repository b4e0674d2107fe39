import AnnotatedShader.Proofs.Model.Introduction
import Mathlib

set_option autoImplicit false

/-!
# Agreement between files

Two files of a batch lay a struct out in the same way.  The members of a struct are typed in the
file that declares it, so they are the same for every file; and by induction on the order in which
structs have been defined, so are the layouts that they refer to.

The induction is `Derived.sameDefs`: each definition of one file that the other one has too is the
same there.  A member is determined by its field and the file of its struct (`MemberOf.unique`), and
a body by its members and the definitions in front of it (`Body.agree`).  For buffers the same
holds, whatever they are called where they are used (`BufferOf.agree`).  `Sourced` says that a
buffer of a model comes from a declaration of some file of the batch, which two files may share.
-/

namespace AnnotatedShader.Model

open AnnotatedShader.Layout

/-- A struct that a file exports. -/
def Exported (ns : Namespace) (d : DeclaredStruct) : Prop :=
  ∃ sym, ns.lookup d.id.origin d.id.name = some sym ∧ sym.struct? = some d

theorem Exported.eq_of_id {ns : Namespace} {d d' : DeclaredStruct} (h : Exported ns d)
    (h' : Exported ns d') (hid : d.id = d'.id) : d = d' := by
  obtain ⟨sym, hlookup, hd⟩ := h
  obtain ⟨sym', hlookup', hd'⟩ := h'
  rw [← hid, hlookup] at hlookup'
  obtain rfl := Option.some.inj hlookup'
  exact Option.some.inj (hd.symm.trans hd')

theorem id_of_struct? {sym : Symbol} {d : DeclaredStruct} (h : sym.struct? = some d) :
    d.id = ⟨sym.name, sym.file⟩ := by
  unfold Symbol.struct? at h
  split at h
  · rename_i name attr fields hdecl
    obtain rfl := Option.some.inj h
    simp [Symbol.name, Declaration.name, hdecl]
  · simp at h

theorem exported_of_lookup {ns : Namespace} {sym : Symbol}
    (hlookup : ns.lookup sym.file sym.name = some sym) {d : DeclaredStruct}
    (h : sym.struct? = some d) : Exported ns d :=
  ⟨sym, by rwa [id_of_struct? h], h⟩

theorem coversNames_exported (ms : List Module) :
    CoversNames (Namespace.ofModules ms) (Exported (Namespace.ofModules ms)) := by
  intro origin name d h
  obtain ⟨sym, hresolve, hstruct⟩ := Option.bind_eq_some_iff.mp h
  exact exported_of_lookup (Namespace.lookup_of_resolveName hresolve) hstruct

/-- The structs that a file introduces are exported, when it is the only one of its name. -/
theorem coversStructs_exported {ms : List Module} {m : Module} {imports : List ResolvedImport}
    (hm : m ∈ ms) (honly : ∀ m' ∈ ms, m'.file = m.file → m' = m) (hnames : (namesOf m).Nodup)
    (himports : List.Forall₂ (Resolves (.ofModules ms)) m.uses imports) :
    CoversStructs (Exported (.ofModules ms)) (Introduces m.file imports 0 m.statements) := by
  intro i hi name attr fields hdecl
  exact exported_of_lookup (lookup_of_introduces hm honly hnames himports hi)
    (by simp [Symbol.struct?, Introduction.symbol, hdecl])

/-! ## Bodies -/

theorem MemberOf.unique {ns : Namespace} {origin : String} {p : Property} {m m' : Member}
    (h : MemberOf ns origin p m) (h' : MemberOf ns origin p m') : m = m' := by
  have htype := Option.some.inj (h.type.symm.trans h'.type)
  rw [h.eq, h'.eq, htype]

theorem members_unique {ns : Namespace} {origin : String} {fields : List Property}
    {raw raw' : List Member} (h : List.Forall₂ (MemberOf ns origin) fields raw)
    (h' : List.Forall₂ (MemberOf ns origin) fields raw') : raw = raw' := by
  induction h generalizing raw' with
  | nil =>
    cases h'
    rfl
  | cons hm _ ih =>
    cases h' with
    | cons hm' hrest => rw [hm.unique hm', ih hrest]

/-- A body depends on the layouts that it refers to and on nothing else. -/
theorem Body.agree {ns : Namespace} {origin : String} {defs defs' : List StructDef}
    {fields : List Property} {raw raw' : List Member} {l l' : Layout}
    (hagree : Std140.Agree (layoutsOf defs) (layoutsOf defs'))
    (h : Body ns origin defs fields raw l) (h' : Body ns origin defs' fields raw' l') :
    raw = raw' ∧ l = l' := by
  obtain rfl := members_unique h.typed h'.typed
  exact ⟨rfl, Std140.ofFields_agree hagree h.layout h'.layout⟩

/-! ## Structs -/

/-- Definitions of the same structs are the same. -/
def SameDefs (defs defs' : List StructDef) : Prop :=
  ∀ d ∈ defs, ∀ d' ∈ defs', d.id = d'.id → d.members = d'.members ∧ d.layout = d'.layout

theorem SameDefs.agree {defs defs' : List StructDef} (h : SameDefs defs defs') :
    Std140.Agree (layoutsOf defs) (layoutsOf defs') := by
  intro id l l' hl hl'
  obtain ⟨d, hd, rfl⟩ := Option.map_eq_some_iff.mp hl
  obtain ⟨d', hd', rfl⟩ := Option.map_eq_some_iff.mp hl'
  have hid : d.id = id := by simpa using List.find?_some hd
  have hid' : d'.id = id := by simpa using List.find?_some hd'
  exact (h d (List.mem_of_find?_eq_some hd) d' (List.mem_of_find?_eq_some hd')
    (hid.trans hid'.symm)).2

/-- However two lists of definitions have grown, they define the same structs in the same way. -/
theorem Derived.sameDefs {ns : Namespace} {defs defs' : List StructDef}
    (h : Derived ns (Exported ns) defs) (h' : Derived ns (Exported ns) defs') :
    SameDefs defs defs' := by
  induction h with
  | nil => simp [SameDefs]
  | @snoc defs last _ hlast ih =>
    intro d hd d' hd' hid
    rcases List.mem_append.mp hd with hd | hd
    · exact ih d hd d' hd' hid
    · obtain rfl := List.mem_singleton.mp hd
      obtain ⟨decl, raw, hdecl, hdeclId, hbody, hmembers⟩ := hlast.body
      obtain ⟨decl', raw', hdecl', hdeclId', hbody', hmembers'⟩ := h'.body hd'
      obtain rfl := hdecl.eq_of_id hdecl' (by rw [hdeclId, hdeclId', hid])
      rw [← hid] at hbody'
      obtain ⟨hraw, hlayout⟩ := hbody.agree ih.agree hbody'
      refine ⟨?_, hlayout⟩
      rw [hmembers, hmembers', hraw, hlayout]

/-! ## Buffers -/

/-- Buffers of one declaration are the same up to their names, slots and positions. -/
theorem BufferOf.agree {ns : Namespace} {structs structs' : List StructDef} {i i' : Introduction}
    {b b' : Buffer} (hsame : SameDefs structs structs') (hsymbol : i.symbol = i'.symbol)
    (h : BufferOf ns structs i b) (h' : BufferOf ns structs' i' b') :
    b.members = b'.members ∧ b.layout = b'.layout := by
  obtain ⟨name, attr, fields, order, raw, hdecl, _, _, hbody, heq⟩ := h.source
  obtain ⟨name', attr', fields', order', raw', hdecl', _, _, hbody', heq'⟩ := h'.source
  have horigin : i.origin = i'.origin := congrArg Symbol.file hsymbol
  have hdeclaration : i.declaration = i'.declaration := congrArg Symbol.declaration hsymbol
  rw [← hdeclaration, hdecl] at hdecl'
  obtain ⟨_, _, rfl⟩ := Declaration.buffer.inj hdecl'
  rw [← horigin] at hbody'
  obtain ⟨hraw, hlayout⟩ := hbody.agree hsame.agree hbody'
  refine ⟨?_, hlayout⟩
  rw [heq, heq', hraw, hlayout]

/-! ## Models of one batch -/

/-- A model of a file among the registered modules; no other module is registered as this file. -/
structure BuiltIn (ms : List Module) (m : Module) (model : Model) : Prop where
  registered : m ∈ ms
  only : ∀ m' ∈ ms, m'.file = m.file → m' = m
  built : ∃ stage imports, m.resolveImports (Namespace.ofModules ms) = .ok imports ∧
    build m stage (Namespace.ofModules ms) imports = .ok model

/-- Where the structs and buffers of a file come from, when its imports are resolved. -/
structure Sourced (ms : List Module) (m : Module) (model : Model) (imports : List ResolvedImport) :
    Prop where
  resolved : List.Forall₂ (Resolves (Namespace.ofModules ms)) m.uses imports
  accepted : Accepted (Namespace.ofModules ms) (Exported (Namespace.ofModules ms)) m imports model

theorem BuiltIn.sourced {ms : List Module} {m : Module} {model : Model} (h : BuiltIn ms m model) :
    ∃ stage imports, build m stage (Namespace.ofModules ms) imports = .ok model ∧
      Sourced ms m model imports := by
  obtain ⟨stage, imports, himports, hbuild⟩ := h.built
  have hresolved := (Module.resolveImports_eq_ok himports).2
  refine ⟨stage, imports, hbuild, hresolved, ?_⟩
  exact build_accepted (coversNames_exported ms)
    (coversStructs_exported h.registered h.only (build_eq_ok hbuild).1 hresolved) hbuild

/-- The buffer of a symbol that a file brings is a buffer of the symbol's declaration. -/
theorem Sourced.bufferOf {ms : List Module} {m : Module} {model : Model}
    {imports : List ResolvedImport} (h : Sourced ms m model imports) {sym : Symbol} {name : String}
    (hlookup : (Namespace.ofModules ms).lookup sym.file sym.name = some sym)
    (hbrings : m.Brings sym name) {b : Buffer} (hb : b ∈ model.buffers) (hname : b.name = name) :
    ∃ i, i.symbol = sym ∧ BufferOf (Namespace.ofModules ms) model.structs i b := by
  obtain ⟨i, hi, hiName, hsymbol⟩ := introduces_of_brings h.resolved hlookup hbrings
  rcases h.accepted.buffers b hb with ⟨j, hj, hbuffer⟩ | ⟨roots, hroot, hfresh, _⟩
  · have hjName : j.name = b.name := by
      obtain ⟨_, _, _, _, _, _, _, _, _, heq⟩ := hbuffer.source
      rw [heq]
    have heq := hi.eq_of_name h.accepted.names hj (by rw [hiName, hjName, hname])
    exact ⟨j, heq ▸ hsymbol, hbuffer⟩
  · have hrootName : b.name = rootName := by
      obtain ⟨_, _, _, heq⟩ := hroot.eq
      rw [heq]
    have hmem := hi.name_mem
    rw [hiName, ← hname, hrootName] at hmem
    exact absurd hmem hfresh

/-- Two files that bring a struct give it buffers with the same members and the same layout, and
they have the same definitions of the structs that both of them define. -/
theorem build_agree {ms : List Module} {m₁ m₂ : Module} {model₁ model₂ : Model}
    (h₁ : BuiltIn ms m₁ model₁) (h₂ : BuiltIn ms m₂ model₂) :
    (∀ file name attr fields position x₁ x₂,
      (Namespace.ofModules ms).lookup file name =
        some ⟨file, position, .buffer name attr fields⟩ →
      m₁.Brings ⟨file, position, .buffer name attr fields⟩ x₁ →
      m₂.Brings ⟨file, position, .buffer name attr fields⟩ x₂ →
      (attr ≠ some .pack →
        (∃ b ∈ model₁.buffers, b.name = x₁) ∧ ∃ b ∈ model₂.buffers, b.name = x₂) ∧
      ∀ b₁ ∈ model₁.buffers, ∀ b₂ ∈ model₂.buffers, b₁.name = x₁ → b₂.name = x₂ →
        b₁.members = b₂.members ∧ b₁.layout = b₂.layout) ∧
    ∀ d₁ ∈ model₁.structs, ∀ d₂ ∈ model₂.structs, d₁.id = d₂.id →
      d₁.members = d₂.members ∧ d₁.layout = d₂.layout := by
  obtain ⟨stage₁, imports₁, hbuild₁, hs₁⟩ := h₁.sourced
  obtain ⟨stage₂, imports₂, hbuild₂, hs₂⟩ := h₂.sourced
  have hsame := hs₁.accepted.structs.sameDefs hs₂.accepted.structs
  refine ⟨fun file name attr fields position x₁ x₂ hlookup hx₁ hx₂ => ⟨fun hattr => ?_, ?_⟩, hsame⟩
  · have hpresent : ∀ {m : Module} {model : Model} {stage : Stage} {imports : List ResolvedImport}
        {x : String}, build m stage (Namespace.ofModules ms) imports = .ok model →
        Sourced ms m model imports → m.Brings ⟨file, position, .buffer name attr fields⟩ x →
        ∃ b ∈ model.buffers, b.name = x := by
      intro m model stage imports x hbuild hs hx
      obtain ⟨i, hi, hname, hsymbol⟩ := introduces_of_brings hs.resolved hlookup hx
      rw [← hname]
      exact exists_buffer hbuild hi (congrArg Symbol.declaration hsymbol) hattr
    exact ⟨hpresent hbuild₁ hs₁ hx₁, hpresent hbuild₂ hs₂ hx₂⟩
  · intro b₁ hb₁ b₂ hb₂ hname₁ hname₂
    obtain ⟨i₁, hsymbol₁, hbuffer₁⟩ := hs₁.bufferOf hlookup hx₁ hb₁ hname₁
    obtain ⟨i₂, hsymbol₂, hbuffer₂⟩ := hs₂.bufferOf hlookup hx₂ hb₂ hname₂
    exact hbuffer₁.agree hsame (hsymbol₁.trans hsymbol₂.symm) hbuffer₂

/-! ## A struct with a member type that another file redeclares -/

/-- A field without attribute or array size. -/
def bareField (type name : String) (index : Nat) : Property :=
  ⟨⟨type, none, none⟩, name, none, index, .start⟩

/-- The struct that is shared. -/
def lamp : Declaration :=
  .buffer "Lamp" none [bareField "Colour" "colour" 0, bareField "float" "power" 1]

/-- Declares the struct and the type of its first member. -/
def lampModule : Module :=
  ⟨"lamps",
    [⟨.start, .declare (.buffer "Colour" (some .pack) [bareField "vec3f" "rgb" 0])⟩,
     ⟨.start, .declare lamp⟩]⟩

/-- Imports the struct under another name, and declares a type of the name of its member type. -/
def roomModule : Module :=
  ⟨"room",
    [⟨.start, .declare (.buffer "Colour" (some .pack) [bareField "vec4d" "cmyk" 0])⟩,
     ⟨.start, .declare (.buffer "Wall" none [bareField "Colour" "paint" 0])⟩,
     ⟨.start, .use ⟨"lamps", "Lamp", some "Ceiling"⟩⟩]⟩

/-- Both files. -/
def lampBatch : List Module := [roomModule, lampModule]

theorem exists_builtIn {m : Module} (hm : m ∈ lampBatch) {imports : List ResolvedImport}
    (himports : m.resolveImports (Namespace.ofModules lampBatch) = .ok imports)
    (hbuild : (build m .pixel (Namespace.ofModules lampBatch) imports).toOption.isSome = true) :
    ∃ model, BuiltIn lampBatch m model := by
  have honly : ∀ m ∈ lampBatch, ∀ m' ∈ lampBatch, m'.file = m.file → m' = m := by decide
  cases hmodel : build m .pixel (Namespace.ofModules lampBatch) imports with
  | error failure => simp [hmodel, Except.toOption] at hbuild
  | ok model => exact ⟨model, hm, honly m hm, .pixel, imports, himports, hmodel⟩

theorem build_agree_lamps :
    ∃ model₁ model₂, BuiltIn lampBatch lampModule model₁ ∧ BuiltIn lampBatch roomModule model₂ ∧
      ∃ b₁ ∈ model₁.buffers, b₁.name = "Lamp" ∧ ∃ b₂ ∈ model₂.buffers, b₂.name = "Ceiling" ∧
        b₁.members = b₂.members ∧ b₁.layout = b₂.layout := by
  have hlookup : (Namespace.ofModules lampBatch).lookup "lamps" "Lamp" =
      some ⟨"lamps", .start, lamp⟩ := by cbv
  have himports : roomModule.resolveImports (Namespace.ofModules lampBatch) =
      .ok [⟨⟨"lamps", "Lamp", some "Ceiling"⟩, .start, ⟨"lamps", .start, lamp⟩⟩] := by cbv
  have himports' : lampModule.resolveImports (Namespace.ofModules lampBatch) = .ok [] := by cbv
  obtain ⟨model₁, h₁⟩ := exists_builtIn (by decide) himports' (by cbv)
  obtain ⟨model₂, h₂⟩ := exists_builtIn (by decide) himports (by cbv)
  have hdeclares : lampModule.Brings ⟨"lamps", .start, lamp⟩ "Lamp" :=
    .declares rfl (by decide)
  have himported : roomModule.Brings ⟨"lamps", .start, lamp⟩ "Ceiling" :=
    .imports .start ⟨"lamps", "Lamp", some "Ceiling"⟩ rfl rfl (by decide)
  obtain ⟨hbuffers, _⟩ := build_agree h₁ h₂
  obtain ⟨hpresent, hsame⟩ := hbuffers _ _ _ _ _ _ _ hlookup hdeclares himported
  obtain ⟨⟨b₁, hb₁, hname₁⟩, b₂, hb₂, hname₂⟩ := hpresent (by decide)
  exact ⟨model₁, model₂, h₁, h₂, b₁, hb₁, hname₁, b₂, hb₂, hname₂,
    hsame b₁ hb₁ b₂ hb₂ hname₁ hname₂⟩

end AnnotatedShader.Model
