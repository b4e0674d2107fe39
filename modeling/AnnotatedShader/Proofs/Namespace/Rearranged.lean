import AnnotatedShader.Namespace.Import
import AnnotatedShader.Proofs.EndAlike
import AnnotatedShader.Proofs.Model.Unsited
import AnnotatedShader.Proofs.Namespace.Graph
import AnnotatedShader.Proofs.Namespace.Imports
import AnnotatedShader.Proofs.Statement.Rearranged

set_option autoImplicit false

/-!
# Moved and rearranged namespaces

Every name means the same in a batch when the statements of one of its files stand at other
positions, and also when they stand in another order.

Both are said by one relation between namespaces, `Namespace.Moved`: each name finds the same
declaration up to positions, and each file has the same cycle.  Imports then resolve to the same
symbols up to positions (`resolveImports_moved`).  The second half of the file proves it for a
rearranged file (`moved_rearranged`): a name is declared once, so the order of declarations does not
decide what is found, and the import graph sorts what a file imports, so the order of its use
statements does not decide which cycle is reported.
-/

/-!
## Namespaces at other positions

Two namespaces that say the same but for positions.  The order in which a file exports and imports
may be another one, as long as every name means the same.
-/

namespace AnnotatedShader

/-- Every name means the same in two namespaces, but for positions, and they have the same
cycles. -/
structure Namespace.Moved (ns ns' : Namespace) : Prop where
  lookup : ∀ file name,
    (ns'.lookup file name).map Symbol.unsited = (ns.lookup file name).map Symbol.unsited
  resolveName : ∀ file name,
    (ns'.resolveName file name).map Symbol.unsited = (ns.resolveName file name).map Symbol.unsited
  structCount : ns'.structCount = ns.structCount
  dependencyCycle? : ∀ file, ns'.dependencyCycle? file = ns.dependencyCycle? file

theorem Namespace.Moved.symm {ns ns' : Namespace} (h : ns.Moved ns') : ns'.Moved ns where
  lookup file name := (h.lookup file name).symm
  resolveName file name := (h.resolveName file name).symm
  structCount := h.structCount.symm
  dependencyCycle? file := (h.dependencyCycle? file).symm

/-- An import whose target is at another position. -/
structure ResolvedImport.Moved (r r' : ResolvedImport) : Prop where
  use : r'.use = r.use
  position : r'.position = r.position
  target : r.target.Moved r'.target

namespace Module

variable {ns ns' : Namespace} (h : ns.Moved ns')

include h

theorem lookupUses_moved (file : String) (uses : List (Use × Position)) :
    EndAlike (List.Forall₂ ResolvedImport.Moved) (lookupUses file ns uses)
      (lookupUses file ns' uses) := by
  induction uses with
  | nil => exact .ok .nil
  | cons entry rest ih =>
    obtain ⟨u, position⟩ := entry
    have hfound := Symbol.rel_moved_of_unsited (h.lookup u.file u.member)
    rw [lookupUses, lookupUses]
    generalize ns.lookup u.file u.member = s at hfound
    generalize ns'.lookup u.file u.member = s' at hfound
    cases hfound with
    | none => exact .diagnosed _ _
    | some hs => exact ih.bind fun _ _ hrest => .ok (.cons ⟨rfl, rfl, hs⟩ hrest)

/-- The imports of a module are resolved to the same symbols. -/
theorem resolveImports_moved (m : Module) :
    EndAlike (List.Forall₂ ResolvedImport.Moved) (m.resolveImports ns) (m.resolveImports ns') := by
  rw [resolveImports, resolveImports, h.dependencyCycle?]
  cases ns.dependencyCycle? m.file with
  | some path => exact .failed _
  | none => exact lookupUses_moved h m.file m.uses

end Module

end AnnotatedShader

/-!
## Namespaces of rearranged files

Every name means the same in a batch when the statements of one of its files are rearranged: what
the file declares and imports have distinct names, so the first of a name is the only one.
-/

namespace AnnotatedShader

/-! ## Lists with distinct keys -/

/-- Of elements with distinct keys the first of a key is the same in any order. -/
theorem find?_key_of_perm {α β : Type} [DecidableEq β] {key : α → β} {as bs : List α}
    (hperm : as.Perm bs) (hkeys : (bs.map key).Nodup) (k : β) :
    as.find? (fun a => key a == k) = bs.find? fun a => key a == k := by
  have hsame := filter_key_eq ((hperm.map key).nodup_iff.mpr hkeys) hkeys (k := k)
    fun a _ => hperm.mem_iff
  have hhead := congrArg List.head? hsame
  rw [List.head?_filter, List.head?_filter] at hhead
  simpa only [beq_eq_decide] using hhead

theorem sortedUnique_of_perm {as bs : List String} (h : as.Perm bs) :
    sortedUnique as = sortedUnique bs := by
  have hperm : as.eraseDups.Perm bs.eraseDups :=
    (List.perm_ext_iff_of_nodup (nodup_eraseDups as) (nodup_eraseDups bs)).mpr fun name => by
      rw [List.mem_eraseDups, List.mem_eraseDups, h.mem_iff]
  have hsorted : ∀ names : List String, (names.mergeSort fun a b => decide (a ≤ b)).Pairwise
      fun a b => a ≤ b := by
    intro names
    refine (List.pairwise_mergeSort ?_ ?_ names).imp fun hab => of_decide_eq_true hab
    · intro a b c hab hbc
      exact decide_eq_true (String.le_trans (of_decide_eq_true hab) (of_decide_eq_true hbc))
    · intro a b
      simpa using String.le_total a b
  refine ((List.mergeSort_perm ..).trans (hperm.trans (List.mergeSort_perm ..).symm)).eq_of_pairwise
    (fun a b _ _ hab hba => String.le_antisymm hab hba) (hsorted _) (hsorted _)

/-! ## Names -/

/-- The declarations of a file have distinct names if all its statements do. -/
theorem Module.nodup_names_symbols {m : Module} (hnames : (Model.namesOf m).Nodup) :
    (m.symbols.map Symbol.name).Nodup := by
  have hsame : m.symbols.map Symbol.name = m.declarations.map fun entry => entry.1.name := by
    rw [Module.symbols, List.map_map]
    rfl
  rw [hsame]
  exact hnames.sublist m.declarations_names_sublist

/-- The imports of a file have distinct names if all its statements do. -/
theorem Module.nodup_names_uses {m : Module} (hnames : (Model.namesOf m).Nodup) :
    (m.uses.map fun entry => entry.1.name).Nodup := by
  refine List.Nodup.sublist ?_ hnames
  unfold Module.uses Model.namesOf
  induction m.statements with
  | nil => exact .slnil
  | cons s rest ih =>
    cases hbody : s.body with
    | use u => simpa [hbody, Statement.name?] using ih
    | declare d => simpa [hbody, Statement.name?] using ih.cons d.name
    | comment text => simpa [hbody, Statement.name?] using ih

/-! ## Scopes -/

/-- The scope of a file that is registered once. -/
def Module.scope (m : Module) : FileScope := (⟨m.file, [], []⟩ : FileScope).addModule m

/-- A file whose names are distinct exports all its symbols. -/
theorem FileScope.exports_scope {m : Module} (hnames : (m.symbols.map Symbol.name).Nodup) :
    m.scope.exports = m.symbols := by
  have hfold : ∀ exports added : List Symbol, ((exports ++ added).map Symbol.name).Nodup →
      added.foldl addSymbol exports = exports ++ added := by
    intro exports added
    induction added generalizing exports with
    | nil => simp
    | cons s rest ih =>
      intro hnodup
      have hfresh : exports.any (·.name == s.name) = false := by
        rw [List.any_eq_false]
        intro e he heq
        rw [List.map_append, List.nodup_append] at hnodup
        exact hnodup.2.2 e.name (List.mem_map_of_mem he) s.name (by simp) (eq_of_beq heq)
      rw [List.foldl_cons, addSymbol, if_neg (by simp [hfresh]), ih _ (by simpa using hnodup)]
      simp
  exact hfold [] m.symbols hnames

namespace Namespace

/-- Files that are registered once have a scope each, in order. -/
theorem scopes_ofModules {ms : List Module} (hfiles : (ms.map Module.file).Nodup) :
    (ofModules ms).scopes = ms.map Module.scope := by
  have hfold : ∀ ns : Namespace, (ns.files ++ ms.map Module.file).Nodup →
      (ms.foldl register ns).scopes = ns.scopes ++ ms.map Module.scope := by
    clear hfiles
    induction ms with
    | nil => simp
    | cons m rest ih =>
      intro ns hnodup
      have hnew : ns.register m = ⟨ns.scopes ++ [m.scope]⟩ := by
        rw [register, if_neg]
        · rfl
        · rw [List.contains_iff_mem]
          intro hmem
          rw [List.nodup_append] at hnodup
          exact hnodup.2.2 m.file hmem m.file (by simp) rfl
      rw [List.foldl_cons, hnew, ih]
      · simp
      · have hfile : m.scope.file = m.file := rfl
        simpa [files, hfile] using hnodup
  exact hfold empty (by simpa [files, empty] using hfiles)

section Rearranged

variable {ns : Namespace} {before after : List Module} {m m' : Module}
  (hfiles : ((before ++ m :: after).map Module.file).Nodup) (h : m.Rearranged ns m')
  (hnames : (Model.namesOf m).Nodup)

include hfiles

theorem modulesOf_middle : modulesOf (before ++ m :: after) m.file = [m] := by
  rw [modulesOf, ← filter_key_eq_singleton hfiles (List.mem_append_right _ List.mem_cons_self)]
  simp only [beq_eq_decide]

include h

theorem files_rearranged : ((before ++ m' :: after).map Module.file).Nodup := by
  simpa [h.file] using hfiles

omit hfiles in
theorem modulesOf_rearranged {file : String} (hfile : ¬ m.file = file) :
    modulesOf (before ++ m' :: after) file = modulesOf (before ++ m :: after) file := by
  simp [modulesOf, List.filter_append, h.file, hfile]

include hnames

omit hfiles in
/-- A name finds the same declaration of a file. -/
theorem find?_symbols_rearranged (name : String) :
    (m'.symbols.find? (·.name == name)).map Symbol.unsited =
      (m.symbols.find? (·.name == name)).map Symbol.unsited := by
  have hfind : ∀ symbols : List Symbol, (symbols.find? (·.name == name)).map Symbol.unsited =
      (symbols.map Symbol.unsited).find? (·.name == name) := by
    intro symbols
    induction symbols with
    | nil => rfl
    | cons s symbols ih =>
      rw [List.map_cons, List.find?_cons, List.find?_cons, Symbol.name_unsited]
      cases s.name == name with
      | true => rfl
      | false => exact ih
  have hkeys : ((m.symbols.map Symbol.unsited).map Symbol.name).Nodup := by
    simpa [List.map_map, Function.comp_def] using Module.nodup_names_symbols hnames
  rw [hfind, hfind]
  exact find?_key_of_perm h.symbols hkeys name

omit hfiles in
/-- A name finds the same import of a file. -/
theorem find?_uses_rearranged (name : String) :
    (m'.uses.find? (·.1.name == name)).map Prod.fst =
      (m.uses.find? (·.1.name == name)).map Prod.fst := by
  have hfind : ∀ uses : List (Use × Position), (uses.find? (·.1.name == name)).map Prod.fst =
      (uses.map Prod.fst).find? (·.name == name) := by
    intro uses
    rw [List.find?_map]
    rfl
  have hkeys : ((m.uses.map Prod.fst).map Use.name).Nodup := by
    rw [List.map_map]
    exact Module.nodup_names_uses hnames
  rw [hfind, hfind]
  exact find?_key_of_perm h.uses hkeys name

theorem lookup_rearranged (file name : String) :
    ((ofModules (before ++ m' :: after)).lookup file name).map Symbol.unsited =
      ((ofModules (before ++ m :: after)).lookup file name).map Symbol.unsited := by
  rw [lookup_ofModules, lookup_ofModules]
  by_cases hfile : m.file = file
  · subst hfile
    have hsingle := modulesOf_middle (files_rearranged hfiles h)
    rw [h.file] at hsingle
    rw [hsingle, modulesOf_middle hfiles, List.flatMap_singleton, List.flatMap_singleton]
    exact find?_symbols_rearranged h hnames name
  · rw [modulesOf_rearranged h hfile]

theorem resolveName_rearranged (file name : String) :
    ((ofModules (before ++ m' :: after)).resolveName file name).map Symbol.unsited =
      ((ofModules (before ++ m :: after)).resolveName file name).map Symbol.unsited := by
  have huses : (((ofModules (before ++ m' :: after)).usesOf file).find? (·.1.name == name)).map
      Prod.fst = (((ofModules (before ++ m :: after)).usesOf file).find? (·.1.name == name)).map
        Prod.fst := by
    rw [usesOf_ofModules, usesOf_ofModules]
    by_cases hfile : m.file = file
    · subst hfile
      have hsingle := modulesOf_middle (files_rearranged hfiles h)
      rw [h.file] at hsingle
      rw [hsingle, modulesOf_middle hfiles, List.flatMap_singleton, List.flatMap_singleton]
      exact find?_uses_rearranged h hnames name
    · rw [modulesOf_rearranged h hfile]
  have hlookup := lookup_rearranged hfiles h hnames
  have hown := hlookup file name
  unfold resolveName
  generalize (ofModules (before ++ m :: after)).lookup file name = s at hown
  generalize (ofModules (before ++ m' :: after)).lookup file name = s' at hown
  generalize ((ofModules (before ++ m :: after)).usesOf file).find? _ = u at huses
  generalize ((ofModules (before ++ m' :: after)).usesOf file).find? _ = u' at huses
  cases s <;> cases s' <;> simp only [Option.map_none, Option.map_some, reduceCtorEq] at hown
  · cases u <;> cases u' <;> simp only [Option.map_none, Option.map_some, reduceCtorEq] at huses
    · rfl
    · rename_i u u'
      obtain ⟨u, position⟩ := u
      obtain ⟨u', position'⟩ := u'
      obtain rfl : u' = u := Option.some.inj huses
      exact hlookup u'.file u'.member
  · exact hown

theorem structCount_rearranged : (ofModules (before ++ m' :: after)).structCount =
    (ofModules (before ++ m :: after)).structCount := by
  have hcount : ∀ p : Symbol → Bool, (∀ s, p s.unsited = p s) →
      m'.symbols.countP p = m.symbols.countP p := by
    intro p hp
    have hmap : ∀ symbols : List Symbol,
        symbols.countP p = (symbols.map Symbol.unsited).countP p := by
      intro symbols
      rw [List.countP_map]
      exact List.countP_congr fun s _ => by rw [Function.comp_apply, hp]
    rw [hmap, hmap m.symbols, h.symbols.countP_eq]
  have hnames' : (m'.symbols.map Symbol.name).Nodup := by
    have hkeys := (h.symbols.map Symbol.name).nodup_iff.mpr (by
      simpa [List.map_map, Function.comp_def] using Module.nodup_names_symbols hnames)
    simpa [List.map_map, Function.comp_def] using hkeys
  rw [structCount, structCount, scopes_ofModules hfiles,
    scopes_ofModules (files_rearranged hfiles h)]
  simp only [List.map_append, List.map_cons, List.flatMap_append, List.flatMap_cons,
    List.countP_append, FileScope.exports_scope hnames',
    FileScope.exports_scope (Module.nodup_names_symbols hnames)]
  rw [hcount]
  intro s
  rw [Symbol.unsited]
  cases s.declaration <;> rfl

omit hnames in
theorem importGraph_rearranged : (ofModules (before ++ m' :: after)).importGraph =
    (ofModules (before ++ m :: after)).importGraph := by
  have huses : ∀ m : Module, m.scope.uses.map (·.1.file) = (m.uses.map Prod.fst).map Use.file := by
    intro m
    rw [Module.scope, FileScope.addModule, List.nil_append, List.map_map]
    rfl
  rw [importGraph, importGraph, scopes_ofModules hfiles,
    scopes_ofModules (files_rearranged hfiles h)]
  simp only [List.map_append, List.map_cons, huses]
  rw [sortedUnique_of_perm (h.uses.map Use.file), show m'.scope.file = m.scope.file from h.file]

/-- Every name means the same in a batch one of whose files is rearranged. -/
theorem moved_rearranged :
    (ofModules (before ++ m :: after)).Moved (ofModules (before ++ m' :: after)) where
  lookup := lookup_rearranged hfiles h hnames
  resolveName := resolveName_rearranged hfiles h hnames
  structCount := structCount_rearranged hfiles h hnames
  dependencyCycle? file := by
    rw [Namespace.dependencyCycle?, Namespace.dependencyCycle?, importGraph_rearranged hfiles h]

end Rearranged

end Namespace

end AnnotatedShader
