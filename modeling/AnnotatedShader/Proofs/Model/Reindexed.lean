import AnnotatedShader.Model.Build
import AnnotatedShader.Proofs.Except
import AnnotatedShader.Proofs.Statement.Comments
import Mathlib.Order.Monotone.Basic

set_option autoImplicit false

/-!
# Models with other indices

Comments take up indices among the statements of a file, and nothing else: the model of a file is
that of its statements without the comments, where every entity has moved to the index of its
statement.  No entity changes its place among the others.

`reindex` moves all indices of a model by a function.  Visits commute with it (`visit_reindex`), and
so does the place of the root buffer, if the function keeps the order of indices.  `indexAmong` is
the function in question, from the index among statements without comments to the one among all
statements; it is strictly monotone (`strictMono_indexAmong`).
-/

namespace AnnotatedShader

/-! ## Other indices -/

section Reindex

variable (f : Nat → Nat)

def Buffer.reindex (b : Buffer) : Buffer := { b with index := f b.index }

def VertexFormat.reindex (vf : VertexFormat) : VertexFormat := { vf with index := f vf.index }

def Sampler.reindex (s : Sampler) : Sampler := { s with index := f s.index }

def Texture.reindex (t : Texture) : Texture := { t with index := f t.index }

def Output.reindex (out : Output) : Output := { out with index := f out.index }

def StateBlock.reindex (b : StateBlock) : StateBlock := { b with index := f b.index }

namespace Model

/-- A model whose entities have moved to other indices. -/
def reindex (m : Model) : Model where
  file := m.file
  stage := m.stage
  buffers := m.buffers.map (Buffer.reindex f)
  structs := m.structs
  vertexFormat := m.vertexFormat.map (VertexFormat.reindex f)
  samplers := m.samplers.map (Sampler.reindex f)
  textures := m.textures.map (Texture.reindex f)
  outputs := m.outputs.map (Output.reindex f)
  pipelines := m.pipelines.map (StateBlock.reindex f)
  blendFuncs := m.blendFuncs.map (StateBlock.reindex f)

theorem reindex_id (m : Model) : m.reindex id = m := by
  have hbuffers : Buffer.reindex id = id := rfl
  have hformat : VertexFormat.reindex id = id := rfl
  have hsamplers : Sampler.reindex id = id := rfl
  have htextures : Texture.reindex id = id := rfl
  have houtputs : Output.reindex id = id := rfl
  have hblocks : StateBlock.reindex id = id := rfl
  simp only [reindex, hbuffers, hformat, hsamplers, htextures, houtputs, hblocks, List.map_id,
    Option.map_id, id]

def RootConstant.reindex (c : RootConstant) : RootConstant := { c with index := f c.index }

/-- A draft whose entities have moved to other indices. -/
def Draft.reindex (d : Draft) : Draft :=
  ⟨d.model.reindex f, d.roots.map (RootConstant.reindex f), d.samplerRefs⟩

def Introduction.reindex (i : Introduction) : Introduction := { i with index := f i.index }

end Model

end Reindex

namespace Model

variable {f : Nat → Nat} {ns : Namespace} {file : String}

/-! ## Visits -/

section Visits

variable (d : Draft) (i : Introduction)

theorem stateBlock_reindex (entries : List StateEntry) :
    stateBlock (i.reindex f) entries = (stateBlock i entries).map (StateBlock.reindex f) := by
  have hkeys : ∀ seen, distinctKeys (i.reindex f) seen entries = distinctKeys i seen entries := by
    induction entries with
    | nil => exact fun _ => rfl
    | cons e rest ih =>
      intro seen
      rw [distinctKeys, distinctKeys, ih]
      rfl
  rw [stateBlock, stateBlock, hkeys]
  cases distinctKeys i [] entries <;> rfl

theorem visitBuffer_reindex (name : String) (attr : Option Attribute) (fields : List Property) :
    visitBuffer ns (d.reindex f) (i.reindex f) name attr fields =
      (visitBuffer ns d i name attr fields).map (Draft.reindex f) := by
  have hstructs : (d.reindex f).model.structs = d.model.structs := rfl
  unfold visitBuffer
  simp only [Introduction.reindex, hstructs]
  split
  · simp only [map_bind]
    rfl
  · rfl
  · simp only [map_bind]
    simp [Except.map, Draft.reindex, Model.reindex, Buffer.reindex]

theorem visitTexture_reindex (p : Property) :
    visitTexture (d.reindex f) (i.reindex f) p = (visitTexture d i p).map (Draft.reindex f) := by
  unfold visitTexture
  simp only [Introduction.reindex]
  split
  · rfl
  · split
    · split
      · simp [Except.map, Draft.reindex, Model.reindex, Texture.reindex]
      · rfl
    · rfl

theorem visitNumeric_reindex (p : Property) (t : ShaderType) :
    visitNumeric (d.reindex f) (i.reindex f) p t =
      (visitNumeric d i p t).map (Draft.reindex f) := by
  unfold visitNumeric
  simp only [map_bind]
  simp [Except.map, Draft.reindex, RootConstant.reindex, Introduction.reindex]

theorem visitSampler_reindex (p : Property) :
    visitSampler (d.reindex f) (i.reindex f) p = (visitSampler d i p).map (Draft.reindex f) := by
  unfold visitSampler
  simp only [map_bind]
  simp [Except.map, Draft.reindex, Model.reindex, Sampler.reindex, Introduction.reindex]

theorem visitConstant_reindex (p : Property) :
    visitConstant (d.reindex f) (i.reindex f) p =
      (visitConstant d i p).map (Draft.reindex f) := by
  unfold visitConstant
  split
  · exact visitTexture_reindex d i p
  · split
    · rfl
    · split
      · rfl
      · exact visitSampler_reindex d i p
      · exact visitNumeric_reindex d i p _

theorem visitOutput_reindex (p : Property) :
    visitOutput (d.reindex f) (i.reindex f) p = (visitOutput d i p).map (Draft.reindex f) := by
  unfold visitOutput
  simp only [Introduction.reindex]
  split
  · split
    · simp only [map_bind]
      simp [Except.map, Draft.reindex, Model.reindex, Output.reindex]
    · rfl
  · rfl

theorem visitVertexFormat_reindex (attr : Option Attribute) (fields : List Property) :
    visitVertexFormat file (d.reindex f) (i.reindex f) attr fields =
      (visitVertexFormat file d i attr fields).map (Draft.reindex f) := by
  unfold visitVertexFormat
  simp only [Introduction.reindex, Draft.reindex, Model.reindex, Option.isSome_map]
  split
  · rfl
  · simp only [map_bind]
    rfl

/-- What a statement adds does not depend on the indices so far, nor on its own. -/
theorem visit_reindex :
    visit ns file (d.reindex f) (i.reindex f) = (visit ns file d i).map (Draft.reindex f) := by
  have hdeclaration : (i.reindex f).declaration = i.declaration := rfl
  unfold visit
  simp only [hdeclaration]
  cases i.declaration with
  | buffer name attr fields => exact visitBuffer_reindex d i name attr fields
  | constant p => exact visitConstant_reindex d i p
  | output p => exact visitOutput_reindex d i p
  | vertexFormat name attr fields => exact visitVertexFormat_reindex d i attr fields
  | pipeline name entries | blendFunc name entries =>
    simp only [stateBlock_reindex]
    cases stateBlock i entries with
    | error e => rfl
    | ok block => simp [bind, Except.bind, Except.map, Draft.reindex, Model.reindex]

end Visits

/-! ## Indices among statements with comments -/

/-- The index of a statement that is no comment, among statements with comments, from its index
among those that are none. -/
def indexAmong : List Statement → Nat → Nat
  | [], k => k
  | s :: rest, k =>
    if s.isComment then indexAmong rest k + 1
    else
      match k with
      | 0 => 0
      | k + 1 => indexAmong rest k + 1

section Cons

variable {s : Statement} (rest : List Statement)

theorem indexAmong_comment (h : s.isComment = true) (k : Nat) :
    indexAmong (s :: rest) k = indexAmong rest k + 1 := by
  cases k <;> simp [indexAmong, h]

theorem indexAmong_zero (h : s.isComment = false) : indexAmong (s :: rest) 0 = 0 := by
  simp [indexAmong, h]

theorem indexAmong_succ (h : s.isComment = false) (k : Nat) :
    indexAmong (s :: rest) (k + 1) = indexAmong rest k + 1 := by
  simp [indexAmong, h]

end Cons

theorem strictMono_indexAmong (ss : List Statement) : StrictMono (indexAmong ss) := by
  induction ss with
  | nil => exact strictMono_id
  | cons s rest ih =>
    intro j k hjk
    cases hcomment : s.isComment with
    | true =>
      rw [indexAmong_comment rest hcomment, indexAmong_comment rest hcomment]
      exact Nat.succ_lt_succ (ih hjk)
    | false =>
      obtain ⟨k, rfl⟩ := Nat.exists_eq_add_one_of_ne_zero (Nat.ne_zero_of_lt hjk)
      rw [indexAmong_succ rest hcomment]
      cases j with
      | zero =>
        rw [indexAmong_zero rest hcomment]
        exact Nat.succ_pos _
      | succ j =>
        rw [indexAmong_succ rest hcomment]
        exact Nat.succ_lt_succ (ih (Nat.lt_of_succ_lt_succ hjk))

theorem introduction?_reindex {imports : List ResolvedImport} {s : Statement} {k n : Nat}
    (h : f k = n) : introduction? file imports n s =
      (introduction? file imports k s).map (Option.map (Introduction.reindex f)) := by
  subst h
  unfold introduction?
  split
  · rfl
  · rfl
  · split <;> rfl

theorem introduction?_of_isComment {imports : List ResolvedImport} {s : Statement} {n : Nat}
    (h : s.isComment = true) : introduction? file imports n s = .ok none := by
  unfold Statement.isComment at h
  unfold introduction?
  split at h
  · rename_i hbody
    rw [hbody]
  · contradiction

/-- Visits of statements with comments are those of the others, at other indices. -/
theorem visitAll_uncommented {imports : List ResolvedImport} {ss : List Statement} {k n : Nat}
    (hf : ∀ j, f (k + j) = n + indexAmong ss j) (d : Draft) :
    visitAll ns file imports n (d.reindex f) ss =
      (visitAll ns file imports k d (ss.filter fun s => !s.isComment)).map (Draft.reindex f) := by
  induction ss generalizing k n d with
  | nil => rfl
  | cons s rest ih =>
    cases hcomment : s.isComment with
    | true =>
      rw [List.filter_cons_of_neg (by simp [hcomment]), visitAll,
        introduction?_of_isComment hcomment]
      refine ih (fun j => ?_) d
      rw [hf j, indexAmong_comment rest hcomment]
      omega
    | false =>
      have hfirst : f k = n := by
        have h0 := hf 0
        rwa [indexAmong_zero rest hcomment] at h0
      have hrest : ∀ j, f (k + 1 + j) = n + 1 + indexAmong rest j := by
        intro j
        have hnext := hf (j + 1)
        rw [indexAmong_succ rest hcomment] at hnext
        rw [Nat.add_assoc, Nat.add_comm 1 j, hnext]
        omega
      rw [List.filter_cons_of_pos (by simp [hcomment]), visitAll, visitAll,
        introduction?_reindex hfirst, map_bind]
      cases introduction? file imports k s with
      | error e => rfl
      | ok i? =>
        cases i? with
        | none => exact ih hrest d
        | some i =>
          show visit ns file (d.reindex f) (i.reindex f) >>= _ =
            (visit ns file d i >>= _).map (Draft.reindex f)
          rw [visit_reindex, map_bind]
          cases visit ns file d i with
          | error e => rfl
          | ok d' => exact ih hrest d'

/-! ## The root buffer -/

theorem sortBuffers_reindex (hf : StrictMono f) (bs : List Buffer) :
    sortBuffers (bs.map (Buffer.reindex f)) = (sortBuffers bs).map (Buffer.reindex f) := by
  rw [sortBuffers, sortBuffers]
  refine (List.map_mergeSort fun b _ b' _ => ?_).symm
  exact decide_eq_decide.mpr hf.le_iff_le.symm

theorem buildRoot_reindex (hf : StrictMono f) (names : List String) (d : Draft) :
    buildRoot file names (d.reindex f) = (buildRoot file names d).map (Model.reindex f) := by
  have horders : rootOrders (d.reindex f).roots = rootOrders d.roots := by
    simp only [rootOrders, Draft.reindex, List.filterMap_map]
    rfl
  have hmembers : (d.reindex f).roots.map RootConstant.member =
      d.roots.map RootConstant.member := by
    simp only [Draft.reindex, List.map_map]
    rfl
  unfold buildRoot
  simp only [horders, hmembers]
  cases hroots : d.roots with
  | nil =>
    have hroots' : (d.reindex f).roots = [] := by simp only [Draft.reindex, hroots, List.map_nil]
    rw [hroots']
    rfl
  | cons first rest =>
    have hroots' : (d.reindex f).roots =
        first.reindex f :: rest.map (RootConstant.reindex f) := by
      simp only [Draft.reindex, hroots, List.map_cons]
    rw [hroots']
    simp only
    split
    · rfl
    · split
      · rfl
      · rw [map_bind]
        refine congrArg _ (funext fun l => ?_)
        simp only [Except.map, Draft.reindex, Model.reindex, ← sortBuffers_reindex hf,
          List.map_append, List.map_singleton]
        rfl

/-! ## Models of files -/

theorem name?_of_isComment {s : Statement} (h : s.isComment = true) : s.name? = none := by
  unfold Statement.isComment at h
  unfold Statement.name?
  split at h
  · rename_i hbody
    rw [hbody]
  · contradiction

theorem distinctNames_uncommented (ss : List Statement) (seen : List String) :
    distinctNames file seen (ss.filter fun s => !s.isComment) = distinctNames file seen ss := by
  induction ss generalizing seen with
  | nil => rfl
  | cons s rest ih =>
    cases hcomment : s.isComment with
    | true =>
      rw [List.filter_cons_of_neg (by simp [hcomment]), distinctNames, name?_of_isComment hcomment]
      exact ih seen
    | false =>
      rw [List.filter_cons_of_pos (by simp [hcomment]), distinctNames, distinctNames]
      simp only [ih]

theorem names_uncommented (ss : List Statement) :
    (ss.filter fun s => !s.isComment).filterMap Statement.name? = ss.filterMap Statement.name? := by
  rw [List.filterMap_filter]
  refine List.filterMap_congr fun s _ => ?_
  cases hcomment : s.isComment with
  | true => rw [name?_of_isComment hcomment]; rfl
  | false => rfl

/-- The model of a file is that of its statements without the comments, at other indices. -/
theorem build_uncommented (m : Module) (stage : Stage) (ns : Namespace)
    (imports : List ResolvedImport) : build m stage ns imports =
      (build m.uncommented stage ns imports).map (Model.reindex (indexAmong m.statements)) := by
  have hvisit : visitAll ns m.file imports 0 ⟨.empty m.file stage, [], []⟩ m.statements =
      (visitAll ns m.file imports 0 ⟨.empty m.file stage, [], []⟩ m.uncommented.statements).map
        (Draft.reindex (indexAmong m.statements)) :=
    visitAll_uncommented (fun j => by rw [Nat.zero_add, Nat.zero_add]) ⟨.empty m.file stage, [], []⟩
  unfold Module.uncommented at hvisit ⊢
  simp only [build, distinctNames_uncommented, names_uncommented, hvisit,
    map_bind]
  refine congrArg _ (funext fun _ => ?_)
  cases visitAll ns m.file imports 0 ⟨.empty m.file stage, [], []⟩
    (m.statements.filter fun s => !s.isComment) with
  | error e => rfl
  | ok d =>
    show buildRoot m.file _ (d.reindex _) >>= _ = _
    rw [buildRoot_reindex (strictMono_indexAmong m.statements)]
    show _ = buildRoot m.file _ d >>= _
    cases buildRoot m.file (m.statements.filterMap Statement.name?) d <;> rfl

end Model

end AnnotatedShader
