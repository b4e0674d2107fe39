import AnnotatedShader.Namespace.Basic

set_option autoImplicit false

/-!
# Import cycles

The files of a namespace form a graph, with an edge from a file to each file that it imports from.
Rings are found one at a time: a depth-first search walks from files to their importers until it
comes back to its own path, the ring is taken out of the graph, and the search starts again.  A file
is then reported with the ring it lies on, or with a path that leads into one.

The search is that of a topological sorter, and the order in which it starts decides which ring is
reported when there are several.  Every round takes a ring away, and every step of a walk takes a
new file, so the number of files is enough fuel for both.
-/

namespace AnnotatedShader

/-- The files that each file imports from. -/
abbrev ImportGraph := List (String × List String)

/-- Strings in the order of their characters, each once. -/
def sortedUnique (names : List String) : List String :=
  (names.eraseDups).mergeSort fun a b => decide (a ≤ b)

namespace Namespace

/-- The files that each file of a namespace imports from, sorted. -/
def importGraph (ns : Namespace) : ImportGraph :=
  ns.scopes.map fun s => (s.file, sortedUnique (s.uses.map (·.1.file)))

end Namespace

namespace ImportGraph

/-- The files that a file imports from; a file outside the graph imports nothing. -/
def importsOf (g : ImportGraph) (file : String) : List String := (g.lookup file).getD []

/-- The files that import from a file, in the order of the graph. -/
def importersOf (g : ImportGraph) (file : String) : List String :=
  (g.filter fun entry => entry.2.contains file).map Prod.fst

/-- The edges between files of the graph. -/
def restrict (g : ImportGraph) : ImportGraph :=
  g.map fun (file, deps) => (file, deps.filter ((g.map Prod.fst).contains ·))

/-- Takes files and the edges to them out of the graph. -/
def without (g : ImportGraph) (gone : List String) : ImportGraph :=
  (g.filter fun entry => !gone.contains entry.1).map fun (file, deps) =>
    (file, deps.filter fun d => !gone.contains d)

/-- The files in the order in which a search starts at them: each file of the graph is followed by
those it imports from. -/
def searchOrder (g : ImportGraph) : List String :=
  (g.flatMap fun (file, deps) => file :: deps).eraseDups

/-- The part of a path, last file first, back to an earlier visit of a file: from that visit to the
end of the path and to the file again, in the order of the walk. -/
def closeRing (path : List String) (file : String) : List String :=
  file :: ((path.takeWhile (· != file)).reverse ++ [file])

/-- Visits a file and then its importers, depth first.  The result is a ring, or the files that have
been seen; `fuel` bounds the length of the path. -/
def visit (g : ImportGraph) :
    Nat → (path seen : List String) → (file : String) → Except (List String) (List String)
  | 0, _, seen, _ => .ok seen
  | fuel + 1, path, seen, file =>
    if seen.contains file then
      if path.contains file then .error (closeRing path file) else .ok seen
    else
      (g.importersOf file).foldlM (fun seen next => visit g fuel (file :: path) seen next)
        (file :: seen)

/-- A ring of the graph, in the order of imports, its first file again at its end. -/
def ring? (g : ImportGraph) : Option (List String) :=
  let order := searchOrder g
  match order.foldlM (fun seen file => visit g (order.length + 1) [] seen file) [] with
  | .error ring => some ring.reverse
  | .ok _ => none

/-- The rotations of a ring, each closed and listed under its first file. -/
def rotations (ring : List String) : List (String × List String) :=
  let members := ring.dropLast
  members.zipIdx.map fun (file, i) => (file, members.drop i ++ members.take i ++ [file])

/-- The rings of a graph, one after the other, with their rotations; `fuel` bounds their number. -/
def ringsFrom : Nat → ImportGraph → List (String × List String)
  | 0, _ => []
  | fuel + 1, g =>
    match ring? g with
    | none => []
    | some ring => rotations ring ++ ringsFrom fuel (g.without ring.dropLast)

/-- The rings of the files that lie on one. -/
def rings (g : ImportGraph) : List (String × List String) := ringsFrom g.length g.restrict

/-- Walks from the last path on a stack along imports until a file on a ring turns up; `fuel` bounds
the number of files that are visited. -/
def walk (g : ImportGraph) (rings : List (String × List String)) :
    Nat → (seen : List String) → (stack : List (String × List String)) → Option (List String)
  | 0, _, _ => none
  | _ + 1, _, [] => none
  | fuel + 1, seen, (file, path) :: stack =>
    let deps := sortedUnique (g.importsOf file)
    match deps.findSome? fun d => (rings.lookup d).map (path ++ ·) with
    | some found => some found
    | none =>
      let fresh := deps.filter fun d => !seen.contains d
      walk g rings fuel (seen ++ fresh)
        ((fresh.map fun d => (d, path ++ [d])).reverse ++ stack)

/-- A path of imports from a file into a ring and once around it. -/
def cycleFrom? (g : ImportGraph) (rings : List (String × List String)) (file : String) :
    Option (List String) :=
  match rings.lookup file with
  | some ring => some ring
  | none => walk g rings ((g.flatMap Prod.snd).length + 1) [file] [(file, [file])]

end ImportGraph

namespace Namespace

/-- A path of imports from a file into a cycle, if there is one. -/
def dependencyCycle? (ns : Namespace) (file : String) : Option (List String) :=
  let g := ns.importGraph
  ImportGraph.cycleFrom? g g.rings file

end Namespace

end AnnotatedShader
