import Colloquy.File.Type

/-!
# Colloquy — file trees

Directives name files. The files are a tree that does not change during a run, with a
directory from which relative paths start. A place in the tree is the list of names
on the way from the root; every spelling of a path that reaches something leads to
one place, which is how import cycles are recognised. A tree also knows which types the
paths of files tell.

* `FileTree.locate` — what a path leads to: a place, nothing, or a refusal.
* `FileTree.places` — all places of a tree; `FileTree.mem_places_of_locate` says that
  every path leads to one of them.
* `FileTree.filesBelow` — the visible files of a directory, in the order of their paths
  (`FileTree.pairwise_filesBelow`).
-/

namespace Colloquy

/-- A file with its bytes, or a directory with its entries. -/
inductive FileNode where
  | file (contents : ByteArray)
  | dir (entries : List (String × FileNode))
  deriving Inhabited

/-- The names on the way from the root. -/
abbrev Place := List String

structure FileTree where
  root : FileNode
  /-- Where relative paths start. -/
  base : Place
  /-- The type that a path tells; a tree that is given none goes by the common types. -/
  mimeType? : String → Option String := Path.commonType?

/-- What reaching for something ends in: it is there, it is not, or the way is barred, such as by a
file in the place of a directory. -/
inductive Access (α : Type) where
  | found (value : α)
  | missing
  | barred
  deriving Repr

namespace FileNode

/-- The entry of a name. -/
def child? (name : String) : List (String × FileNode) → Option FileNode
  | [] => none
  | (other, node) :: rest => if other = name then some node else child? name rest

/-- What stands at a place below this node. -/
def at? : FileNode → Place → Option FileNode
  | node, [] => some node
  | .file _, _ :: _ => none
  | .dir entries, name :: rest =>
    match child? name entries with
    | some node => node.at? rest
    | none => none

mutual

/-- Every place at or below a node. -/
def places : FileNode → List Place
  | .file _ => [[]]
  | .dir entries => [] :: entryPlaces entries

def entryPlaces : List (String × FileNode) → List Place
  | [] => []
  | (name, node) :: rest => node.places.map (name :: ·) ++ entryPlaces rest

end

theorem mem_entryPlaces_of_child {name : String} {node : FileNode} {place : Place} :
    ∀ {entries : List (String × FileNode)}, child? name entries = some node →
      place ∈ node.places → name :: place ∈ entryPlaces entries
  | [], h, _ => by simp [child?] at h
  | (other, node') :: rest, h, hp => by
    rw [entryPlaces]
    by_cases ho : other = name
    · simp only [child?, ho, if_true, Option.some.injEq] at h
      subst h
      subst ho
      exact List.mem_append_left _ (List.mem_map_of_mem hp)
    · rw [child?, if_neg ho] at h
      exact List.mem_append_right _ (mem_entryPlaces_of_child h hp)

theorem mem_places_of_at :
    ∀ {place : Place} {node found : FileNode}, node.at? place = some found → place ∈ node.places
  | [], .file _, _, _ => by simp [places]
  | [], .dir _, _, _ => by simp [places]
  | _ :: _, .file _, _, h => by simp [at?] at h
  | name :: rest, .dir entries, found, h => by
    rw [at?] at h
    split at h
    · next node hn =>
      rw [places]
      exact List.mem_cons_of_mem _ (mem_entryPlaces_of_child hn (mem_places_of_at h))
    · simp at h

/-- Put an entry among entries that are in the order of their names. -/
def putEntry (name : String) (node : FileNode) :
    List (String × FileNode) → List (String × FileNode)
  | [] => [(name, node)]
  | (other, old) :: rest =>
    if name < other then (name, node) :: (other, old) :: rest
    else if other = name then (name, node) :: rest
    else (other, old) :: putEntry name node rest

/-- Put a node at a place, with the directories on the way. -/
def put (node : FileNode) : Place → FileNode → FileNode
  | [], _ => node
  | name :: rest, .dir entries =>
    .dir (putEntry name (put node rest ((child? name entries).getD (.dir []))) entries)
  | name :: rest, .file _ => .dir [(name, put node rest (.dir []))]

/-- Entries that are left out of a directory: those with a dot in front, unless one is at the end too. -/
def isHidden (name : String) : Bool :=
  startsWith name "." && !endsWith name "."

mutual

/-- The files at or below a node with their paths, hidden entries left out, in the order in which
their directories hold them. -/
def visibleFiles (path : String) : FileNode → List (String × ByteArray)
  | .file contents => [(path, contents)]
  | .dir entries => visibleEntries path entries

def visibleEntries (path : String) : List (String × FileNode) → List (String × ByteArray)
  | [] => []
  | (name, node) :: rest =>
    (if isHidden name then [] else node.visibleFiles (Path.join path name)) ++
      visibleEntries path rest

end

end FileNode

namespace FileTree

/-- The tree that holds no file. -/
def empty : FileTree where
  root := .dir []
  base := []

/-- The longest name of an entry, in bytes. -/
def longestName : Nat := 255

/-- The longest path, in bytes. -/
def longestPath : Nat := 4095

/-- Go from a place along one component. -/
def step (tree : FileTree) (here : Place) (component : String) : Access Place :=
  match tree.root.at? here with
  | some (.dir entries) =>
    if component = "." then .found here
    else if component = ".." then .found here.dropLast
    else if longestName < component.utf8ByteSize then .barred
    else
      match FileNode.child? component entries with
      | some _ => .found (here ++ [component])
      | none => .missing
  | some (.file _) => .barred
  | none => .missing

/-- Go from a place along components. -/
def steps (tree : FileTree) (here : Place) : List String → Access Place
  | [] => .found here
  | component :: rest =>
    match tree.step here component with
    | .found next => steps tree next rest
    | .missing => .missing
    | .barred => .barred

/-- The components of a path that are gone along. A path that ends in a slash ends at a directory. -/
def componentsOf (path : String) : List String :=
  let named := (splitAll path '/').filter fun component => component != ""
  if path.toList.getLast? == some '/' then named ++ ["."] else named

/-- The place that a path leads to. -/
def place (tree : FileTree) (path : String) : Access Place :=
  if path.isEmpty then .missing
  else if path.toList.contains (Char.ofNat 0) || longestPath < path.utf8ByteSize then .barred
  else tree.steps (if Path.isAbsolute path then [] else tree.base) (componentsOf path)

/-- The place that a path leads to, and what stands there. -/
def locate (tree : FileTree) (path : String) : Access (Place × FileNode) :=
  match tree.place path with
  | .found here =>
    match tree.root.at? here with
    | some node => .found (here, node)
    | none => .missing
  | .missing => .missing
  | .barred => .barred

/-- All places of the tree. -/
def places (tree : FileTree) : List Place :=
  tree.root.places

theorem mem_places_of_locate {tree : FileTree} {path : String} {here : Place} {node : FileNode}
    (h : tree.locate path = .found (here, node)) : here ∈ tree.places := by
  unfold locate at h
  split at h
  · split at h
    · next hn =>
      simp only [Access.found.injEq, Prod.mk.injEq] at h
      obtain ⟨rfl, rfl⟩ := h
      exact FileNode.mem_places_of_at hn
    · simp at h
  · simp at h
  · simp at h

/-- Something stands where the path leads. -/
def hasPath (tree : FileTree) (path : String) : Bool :=
  match tree.locate path with
  | .found _ => true
  | _ => false

/-- A directory stands where the path leads. -/
def isDir (tree : FileTree) (path : String) : Bool :=
  match tree.locate path with
  | .found (_, .dir _) => true
  | _ => false

/-- The bytes of the file that the path leads to; a directory bars the way. -/
def read (tree : FileTree) (path : String) : Access ByteArray :=
  match tree.locate path with
  | .found (_, .file contents) => .found contents
  | .found (_, .dir _) => .barred
  | .missing => .missing
  | .barred => .barred

/-- The bytes of the file of a name in the directory at a place, which is given from its end, or else
in the closest directory above that has one. -/
def readUpwardFrom (tree : FileTree) (name : String) : List String → Option ByteArray
  | [] =>
    match tree.root.at? [name] with
    | some (.file contents) => some contents
    | _ => none
  | last :: outer =>
    match tree.root.at? (name :: last :: outer).reverse with
    | some (.file contents) => some contents
    | _ => readUpwardFrom tree name outer

/-- The bytes of the file of a name where relative paths start, or else in the closest directory above
that has one. -/
def readUpward (tree : FileTree) (name : String) : Option ByteArray :=
  tree.readUpwardFrom name tree.base.reverse

/-- The path does not come after the other one, as they compare component by component. -/
def inOrder (path other : String) : Bool :=
  !decide (componentsOf other < componentsOf path)

theorem inOrder_iff {a b : String} : inOrder a b ↔ ¬ componentsOf b < componentsOf a := by
  simp [inOrder]

theorem inOrder_trans {a b c : String} (hab : inOrder a b) (hbc : inOrder b c) : inOrder a c := by
  rw [inOrder_iff] at *
  exact List.le_trans hab hbc

theorem inOrder_total (a b : String) : inOrder a b || inOrder b a := by
  rw [Bool.or_eq_true, inOrder_iff, inOrder_iff]
  exact List.le_total _ _

/-- The visible files at or below a path, with their paths, in the order of their paths. A hyphen
stands for the standard input, below which there are none. -/
def filesBelow (tree : FileTree) (path : String) : List (String × ByteArray) :=
  if Path.isStandardInput path then []
  else
    match tree.locate path with
    | .found (_, node) => (node.visibleFiles path).mergeSort fun a b => inOrder a.1 b.1
    | _ => []

/-- However the directories hold their entries, the files come in the order of their paths. -/
theorem pairwise_filesBelow (tree : FileTree) (path : String) :
    (tree.filesBelow path).Pairwise fun a b => inOrder a.1 b.1 := by
  unfold filesBelow
  split
  · exact .nil
  · split
    · next node _ =>
      exact @List.pairwise_mergeSort (String × ByteArray) (fun a b => inOrder a.1 b.1)
        (fun _ _ _ => inOrder_trans) (fun _ _ => inOrder_total ..) (node.visibleFiles path)
    · exact .nil

end FileTree

end Colloquy
