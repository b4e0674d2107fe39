import AnnotatedShader.Namespace.Basic
import Mathlib.Data.List.Nodup

set_option autoImplicit false

/-!
# Lookup among registered modules

What a namespace knows of a file, in terms of the modules that have been registered: the file
exports the first declaration of each name, and its imports are those of its modules, in order.

Registration adds to the scope of a file, so it is followed from one module to the next
(`lookup_register`, `usesOf_register`) and then over a list of modules (`lookup_ofModules`,
`usesOf_ofModules`).  A batch whose files have distinct names has one module for each; the lemmas do
not ask for this, because a namespace can be given any modules.
-/

namespace AnnotatedShader

/-- The declarations of a module as symbols. -/
def Module.symbols (m : Module) : List Symbol := m.declarations.map fun (d, p) => ⟨m.file, p, d⟩

/-- The modules of a file. -/
def modulesOf (ms : List Module) (file : String) : List Module := ms.filter (·.file == file)

namespace FileScope

theorem find?_addSymbol (exports : List Symbol) (s : Symbol) (name : String) :
    (addSymbol exports s).find? (·.name == name) =
      (exports.find? (·.name == name)).or ([s].find? (·.name == name)) := by
  unfold addSymbol
  split
  · rename_i hany
    -- a symbol that is left out has the name of an earlier one
    obtain ⟨e, he, hname⟩ := List.any_eq_true.mp hany
    cases hfind : exports.find? (·.name == name) with
    | some found => rfl
    | none =>
      have hother : ¬ (s.name == name) := by
        intro hs
        have := List.find?_eq_none.mp hfind e he
        rw [eq_of_beq hname] at this
        exact this hs
      simp [hother]
  · exact List.find?_append

theorem find?_foldl_addSymbol (added exports : List Symbol) (name : String) :
    (added.foldl addSymbol exports).find? (·.name == name) =
      (exports.find? (·.name == name)).or (added.find? (·.name == name)) := by
  induction added generalizing exports with
  | nil => simp
  | cons s rest ih =>
    rw [List.foldl_cons, ih, find?_addSymbol, Option.or_assoc, ← List.find?_append,
      List.singleton_append]

theorem find?_exports_addModule (scope : FileScope) (m : Module) (name : String) :
    (scope.addModule m).exports.find? (·.name == name) =
      (scope.exports.find? (·.name == name)).or (m.symbols.find? (·.name == name)) :=
  find?_foldl_addSymbol m.symbols scope.exports name

end FileScope

namespace Namespace

theorem file_of_scope? {ns : Namespace} {file : String} {scope : FileScope}
    (h : ns.scope? file = some scope) : scope.file = file := by
  simpa using List.find?_some h

theorem isSome_scope?_iff {ns : Namespace} {file : String} :
    (ns.scope? file).isSome = true ↔ file ∈ ns.files := by
  rw [scope?, List.find?_isSome, files, List.mem_map]
  simp only [beq_iff_eq]

/-- Adding a module to the scopes of its file leaves every scope under its file. -/
theorem scope?_map_addModule (ns : Namespace) (m : Module) (file : String) :
    (Namespace.mk
      (ns.scopes.map fun s => if s.file == m.file then s.addModule m else s)).scope? file =
      (ns.scope? file).map fun s => if s.file == m.file then s.addModule m else s := by
  rw [scope?, scope?, List.find?_map]
  congr 2
  funext s
  show ((if s.file == m.file then s.addModule m else s).file == file) = (s.file == file)
  split <;> rfl

/-- Registration changes the scope of one file only. -/
theorem scope?_register (ns : Namespace) (m : Module) (file : String) :
    (ns.register m).scope? file =
      if m.file = file then some (((ns.scope? file).getD ⟨m.file, [], []⟩).addModule m)
      else ns.scope? file := by
  unfold register
  split
  · rename_i hknown
    rw [scope?_map_addModule]
    split
    · rename_i heq
      have hsome : (ns.scope? file).isSome = true :=
        isSome_scope?_iff.mpr (heq ▸ List.contains_iff_mem.mp hknown)
      obtain ⟨s, hs⟩ := Option.isSome_iff_exists.mp hsome
      have hs' : s.file = m.file := by rw [file_of_scope? hs, heq]
      simp [hs, hs']
    · rename_i hne
      cases hs : ns.scope? file with
      | none => rfl
      | some s =>
        have hs' : s.file ≠ m.file := by
          rw [file_of_scope? hs]
          exact Ne.symm hne
        simp [hs']
  · rename_i hnew
    rw [scope?, List.find?_append]
    split
    · rename_i heq
      have hnone : ns.scope? file = none := by
        rw [← Option.not_isSome_iff_eq_none, isSome_scope?_iff, ← heq]
        simpa using hnew
      rw [scope?] at hnone
      simp [hnone, FileScope.addModule, heq, scope?]
    · rename_i hne
      have hother : ((⟨m.file, [], []⟩ : FileScope).addModule m).file ≠ file := hne
      simp [hother, scope?]

theorem lookup_register (ns : Namespace) (m : Module) (file name : String) :
    (ns.register m).lookup file name =
      (ns.lookup file name).or
        (if m.file = file then m.symbols.find? (·.name == name) else none) := by
  simp only [lookup, scope?_register, Option.bind_eq_bind]
  split
  · cases ns.scope? file with
    | none => simp [FileScope.find?_exports_addModule]
    | some scope => simp [FileScope.find?_exports_addModule]
  · simp

theorem usesOf_register (ns : Namespace) (m : Module) (file : String) :
    (ns.register m).usesOf file = ns.usesOf file ++ if m.file = file then m.uses else [] := by
  simp only [usesOf, scope?_register]
  split
  · cases ns.scope? file <;> simp [FileScope.addModule]
  · simp

/-! ## All registrations -/

/-- A file exports the first declaration of each name in its modules. -/
theorem lookup_ofModules (ms : List Module) (file name : String) :
    (ofModules ms).lookup file name =
      ((modulesOf ms file).flatMap Module.symbols).find? (·.name == name) := by
  have hfold : ∀ ns : Namespace, (ms.foldl register ns).lookup file name =
      (ns.lookup file name).or
        (((modulesOf ms file).flatMap Module.symbols).find? (·.name == name)) := by
    induction ms with
    | nil => intro ns; simp [modulesOf]
    | cons m rest ih =>
      intro ns
      rw [List.foldl_cons, ih, lookup_register, Option.or_assoc]
      congr 1
      unfold modulesOf
      by_cases hfile : m.file = file
      · simp [hfile, List.find?_append]
      · simp [hfile]
  exact hfold empty

/-- A file has the imports of its modules. -/
theorem usesOf_ofModules (ms : List Module) (file : String) :
    (ofModules ms).usesOf file = (modulesOf ms file).flatMap Module.uses := by
  have hfold : ∀ ns : Namespace, (ms.foldl register ns).usesOf file =
      ns.usesOf file ++ (modulesOf ms file).flatMap Module.uses := by
    induction ms with
    | nil => intro ns; simp [modulesOf]
    | cons m rest ih =>
      intro ns
      rw [List.foldl_cons, ih, usesOf_register, List.append_assoc]
      congr 1
      unfold modulesOf
      by_cases hfile : m.file = file
      · simp [hfile]
      · simp [hfile]
  exact hfold empty

/-- What a lookup finds is a declaration of the file that has the name. -/
theorem lookup_ofModules_eq_some {ms : List Module} {file name : String} {s : Symbol}
    (h : (ofModules ms).lookup file name = some s) :
    s.file = file ∧ s.name = name ∧
      ∃ m ∈ ms, m.file = file ∧ (s.declaration, s.position) ∈ m.declarations := by
  rw [lookup_ofModules] at h
  have hname : s.name = name := by simpa using List.find?_some h
  obtain ⟨m, hm, hs⟩ := List.mem_flatMap.mp (List.mem_of_find?_eq_some h)
  obtain ⟨⟨d, p⟩, hd, rfl⟩ := List.mem_map.mp hs
  obtain ⟨hm, hfile⟩ := List.mem_filter.mp hm
  exact ⟨eq_of_beq hfile, hname, m, hm, eq_of_beq hfile, hd⟩

/-- A file whose names are distinct exports all that it declares, if it is registered under its name
alone. -/
theorem lookup_ofModules_declared {ms : List Module} {m : Module} (hm : m ∈ ms)
    (honly : ∀ m' ∈ ms, m'.file = m.file → m' = m)
    (hnames : (m.declarations.map fun entry => entry.1.name).Nodup) {d : Declaration} {p : Position}
    (hd : (d, p) ∈ m.declarations) :
    (ofModules ms).lookup m.file d.name = some ⟨m.file, p, d⟩ := by
  have hmem : (⟨m.file, p, d⟩ : Symbol) ∈ (modulesOf ms m.file).flatMap Module.symbols := by
    refine List.mem_flatMap.mpr ⟨m, List.mem_filter.mpr ⟨hm, beq_self_eq_true _⟩, ?_⟩
    exact List.mem_map.mpr ⟨(d, p), hd, rfl⟩
  have hsome : ((ofModules ms).lookup m.file d.name).isSome = true := by
    rw [lookup_ofModules, List.find?_isSome]
    exact ⟨_, hmem, beq_self_eq_true _⟩
  obtain ⟨s, hs⟩ := Option.isSome_iff_exists.mp hsome
  obtain ⟨hfile, hname, m', hm', hfile', hdecl⟩ := lookup_ofModules_eq_some hs
  obtain rfl := honly m' hm' hfile'
  have heq := List.inj_on_of_nodup_map hnames hdecl hd hname
  obtain ⟨hd', hp'⟩ := Prod.mk.inj heq
  rw [hs, ← hfile, ← hp', ← hd']

end Namespace

end AnnotatedShader
