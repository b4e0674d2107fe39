import AnnotatedShader.Files.Path

set_option autoImplicit false

/-!
# File trees

A file tree is what a program sees of a file system from its working directory: files with their
texts, and directories.  The directories above the working directory are there, but nothing else in
them is known.

A path is walked name by name, each in a directory that must be there.  The name `..` leads up, so
different paths can lead to one location.  Names and paths are limited in length, counted in the
bytes of their UTF-8 form, and no path has a null character.

Trees are finite tables of locations and nodes.  `node?_put_self` and `node?_put_of_ne` say all that
there is to a change of one place, and nothing else looks into the table.  Every operation that can
fail gives a `FileFault`, which is what the operating system would answer.
-/

namespace AnnotatedShader

/-- Where a location is counted from: so many directories above the working directory, or the root
of the file system. -/
inductive Anchor where
  | above (steps : Nat)
  | root
  deriving DecidableEq, Repr, Inhabited

/-- A place in a file system, which may be empty. -/
structure Location where
  anchor : Anchor
  names : List String
  deriving DecidableEq, Repr, Inhabited

namespace Location

/-- The working directory. -/
def working : Location := ⟨.above 0, []⟩

/-- A location below the working directory. -/
def ofNames (names : List String) : Location := ⟨.above 0, names⟩

/-- Where a path starts. -/
def startOf (p : Path) : Location := if p.root.isEmpty then working else ⟨.root, []⟩

/-- One directory up. -/
def up (l : Location) : Location :=
  match l.anchor, l.names with
  | .above n, [] => ⟨.above (n + 1), []⟩
  | .root, [] => l
  | _, names => { l with names := names.dropLast }

/-- Where a name leads. -/
def step (l : Location) (name : String) : Location :=
  if name = ".." then l.up else { l with names := l.names ++ [name] }

end Location

/-- What stands at a location. -/
inductive Node where
  | file (text : String)
  | directory
  deriving DecidableEq, Repr, Inhabited

/-- Why a file or a directory cannot be used. -/
inductive FileFault where
  /-- nothing is there -/
  | missing
  /-- a file is wanted where a directory is -/
  | isDirectory
  /-- a path leads through a file -/
  | notADirectory
  /-- a directory is wanted where a file is -/
  | occupied
  /-- a path, or a name where the path has led, is longer than any can be -/
  | tooLong
  /-- a path has a null character -/
  | nullCharacter
  deriving DecidableEq, Repr, Inhabited

/-- What is known of a file system. -/
structure FileTree where
  nodes : List (Location × Node)
  deriving DecidableEq, Repr, Inhabited

namespace FileTree

/-- A tree of which nothing is known. -/
def empty : FileTree := ⟨[]⟩

/-- What stands at a location. -/
def node? (t : FileTree) (l : Location) : Option Node :=
  if l.names.isEmpty then some .directory else (t.nodes.find? (·.1 == l)).map Prod.snd

/-- Puts a node at a location, in place of what was there. -/
def put (t : FileTree) (l : Location) (n : Node) : FileTree :=
  if t.nodes.any (·.1 == l) then ⟨t.nodes.map fun e => if e.1 == l then (l, n) else e⟩
  else ⟨t.nodes ++ [(l, n)]⟩

/-- The first entry for a place in entries of which those for it have been replaced. -/
theorem find?_replace (entries : List (Location × Node)) (l l' : Location) (n : Node) :
    ((entries.map fun e => if e.1 == l then (l, n) else e).find? (·.1 == l')) =
      (entries.find? (·.1 == l')).map fun e => if e.1 == l then (l, n) else e := by
  rw [List.find?_map]
  congr 2
  funext e
  by_cases he : e.1 = l <;> simp [he]

/-- What has been put at a place stands there. -/
theorem node?_put_self {t : FileTree} {l : Location} (n : Node) (h : l.names ≠ []) :
    (t.put l n).node? l = some n := by
  have hempty : l.names.isEmpty = false := by simpa using h
  simp only [node?, hempty, put, Bool.false_eq_true, if_false]
  cases hfind : t.nodes.find? (·.1 == l) with
  | some e =>
    have hel := List.find?_some hfind
    have hany : t.nodes.any (·.1 == l) = true :=
      List.any_eq_true.2 ⟨e, List.mem_of_find?_eq_some hfind, hel⟩
    rw [if_pos hany, find?_replace, hfind, Option.map_some, if_pos hel, Option.map_some]
  | none =>
    have hany : ¬ t.nodes.any (·.1 == l) = true := by
      rw [List.any_eq_true]
      rintro ⟨e, he, hel⟩
      exact List.find?_eq_none.1 hfind e he hel
    rw [if_neg hany, List.find?_append, hfind, Option.none_or, List.find?_cons_of_pos (by simp),
      Option.map_some]

/-- Putting a node changes no other place. -/
theorem node?_put_of_ne {t : FileTree} {l l' : Location} (n : Node) (h : l' ≠ l) :
    (t.put l n).node? l' = t.node? l' := by
  have hne : ¬ (l == l') = true := fun e => h (eq_of_beq e).symm
  rw [node?, node?, put]
  split
  · rfl
  split
  · rw [find?_replace]
    cases hfind : t.nodes.find? (·.1 == l') with
    | none => rfl
    | some e =>
      have hfound := List.find?_some hfind
      have he : e.1 = l' := eq_of_beq hfound
      have hel : ¬ (e.1 == l) = true := fun x => h (he.symm.trans (eq_of_beq x))
      rw [Option.map_some, if_neg hel]
  · rw [List.find?_append, List.find?_singleton, if_neg hne, Option.or_none]

/-- How many bytes a name may have. -/
def nameLimit : Nat := 255

/-- How many bytes a path may have. -/
def pathLimit : Nat := 4095

/-- Where names lead from a location.  The last of them may lead to an empty place. -/
def walk (t : FileTree) : Location → List String → Except FileFault Location
  | l, [] => .ok l
  | l, name :: rest =>
    match t.node? l with
    | none => .error .missing
    | some (.file _) => .error .notADirectory
    | some .directory =>
      if nameLimit < name.utf8ByteSize then .error .tooLong else walk t (l.step name) rest

/-- What is wrong with a path as it is spelled, wherever it leads. -/
def spellingFault? (text : String) : Option FileFault :=
  if text.toList.contains '\x00' then some .nullCharacter
  else if pathLimit < text.utf8ByteSize then some .tooLong
  else none

/-- Where a path leads that is spelled as a text, which may be longer than it has to be. -/
def locateSpelled (t : FileTree) (text : String) (p : Path) : Except FileFault Location :=
  match spellingFault? text with
  | some e => .error e
  | none => t.walk (.startOf p) p.names

/-- Where a path leads. -/
def locate (t : FileTree) (p : Path) : Except FileFault Location := t.locateSpelled p.render p

/-- Where the path of a text leads. -/
def locateText (t : FileTree) (text : String) : Except FileFault Location :=
  t.locateSpelled text (.ofText text)

/-- Whether a path leads to something; of a path that is too long this cannot be said. -/
def contains (t : FileTree) (p : Path) : Except FileFault Bool :=
  match t.locate p with
  | .ok l => .ok (t.node? l).isSome
  | .error .tooLong => .error .tooLong
  | .error _ => .ok false

/-- A text with a line feed for every carriage return and for every pair of the two. -/
def unifyBreaks : List Char → List Char
  | [] => []
  | '\r' :: '\n' :: rest => '\n' :: unifyBreaks rest
  | '\r' :: rest => '\n' :: unifyBreaks rest
  | c :: rest => c :: unifyBreaks rest

/-- Reads the text of a file. -/
def readText (t : FileTree) (p : Path) : Except FileFault String := do
  match t.node? (← t.locate p) with
  | none => .error .missing
  | some .directory => .error .isDirectory
  | some (.file text) => .ok (String.ofList (unifyBreaks text.toList))

/-- Writes a file in a directory that is there. -/
def writeText (t : FileTree) (p : Path) (text : String) : Except FileFault FileTree := do
  let l ← t.locate p
  match t.node? l with
  | some .directory => .error .isDirectory
  | _ => .ok (t.put l (.file text))

/-- Makes a directory in one that is there, unless it is there itself. -/
def makeOne (t : FileTree) (p : Path) : Except FileFault FileTree := do
  let l ← t.locate p
  match t.node? l with
  | none => .ok (t.put l .directory)
  | some .directory => .ok t
  | some (.file _) => .error .occupied

/-- Makes a directory, and before it those that its path leads through as far as they are missing;
the names of the path are given from the last to the first. -/
def makeFrom (t : FileTree) (root : String) : List String → Except FileFault FileTree
  | [] => .ok t
  | name :: before =>
    let p : Path := ⟨root, (name :: before).reverse⟩
    match t.makeOne p with
    | .error .missing => do
      let t ← makeFrom t root before
      t.makeOne p
    | outcome => outcome

/-- Makes a directory and those that its path leads through. -/
def makeDirectory (t : FileTree) (p : Path) : Except FileFault FileTree :=
  t.makeFrom p.root p.names.reverse

/-- Puts a file at the given names below the working directory, and directories above it. -/
def addFile (t : FileTree) (names : List String) (text : String) : FileTree :=
  let above := (List.range names.length).filterMap fun n =>
    if n = 0 then none else some (Location.ofNames (names.take n))
  let t := above.foldl (fun t l => if (t.node? l).isSome then t else t.put l .directory) t
  t.put (.ofNames names) (.file text)

/-- The files below the working directory that a tree has, or has with another text, compared to an
earlier tree. -/
def changes (earlier later : FileTree) : List (List String × String) :=
  later.nodes.filterMap fun (l, n) =>
    match l.anchor, n with
    | .above 0, .file text =>
      if earlier.node? l = some (.file text) then none else some (l.names, text)
    | _, _ => none

end FileTree

end AnnotatedShader
