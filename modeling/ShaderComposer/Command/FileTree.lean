import ShaderComposer.Command.FileAccess

/-!
# File trees

Files and directories held in memory.  A path is followed name by name through
directories that are there; a double dot leads to the directory around, and the
root has none around it but itself.
-/

namespace ShaderComposer

/-- The names that lead to a place from the root, the last one first. -/
abbrev Place := List String

inductive FileNode where
  | directory
  | file (content : ByteArray)

instance : DecidableEq FileNode
  | .directory, .directory => .isTrue rfl
  | .directory, .file _ => .isFalse nofun
  | .file _, .directory => .isFalse nofun
  | .file first, .file second =>
    match ByteArray.instDecidableEq first second with
    | .isTrue h => .isTrue (congrArg FileNode.file h)
    | .isFalse h => .isFalse fun heq => h (FileNode.file.inj heq)

structure FileTree where
  nodes : List (Place × FileNode)
  /-- Where the paths begin that do not begin at the root. -/
  working : Place

namespace FileTree

/-! ## Places -/

/-- What is at a place.  The root is a directory. -/
def node? (tree : FileTree) (place : Place) : Option FileNode :=
  if place = [] then some .directory else tree.nodes.lookup place

def put (tree : FileTree) (place : Place) (node : FileNode) : FileTree :=
  { tree with nodes := (place, node) :: tree.nodes.filter fun other => other.1 ≠ place }

@[simp] theorem node?_root (tree : FileTree) : tree.node? [] = some .directory := rfl

@[simp] theorem node?_put_self
    (tree : FileTree) {place : Place} (node : FileNode) (hplace : place ≠ []) :
    (tree.put place node).node? place = some node := by
  simp [node?, put, hplace]

theorem node?_put_of_ne
    (tree : FileTree) {place other : Place} (node : FileNode) (hne : other ≠ place) :
    (tree.put place node).node? other = tree.node? other := by
  have hlookup (nodes : List (Place × FileNode)) :
      (nodes.filter fun entry => entry.1 ≠ place).lookup other = nodes.lookup other := by
    induction nodes with
    | nil => rfl
    | cons entry rest ih =>
      obtain ⟨name, kept⟩ := entry
      by_cases hname : name = place
      · subst hname
        have hother : (other == name) = false := by simpa using hne
        simpa [List.lookup_cons, hother] using ih
      · by_cases hother : other = name <;> simp_all [List.lookup_cons]
  unfold node? put
  have hbeq : (other == place) = false := by simpa using hne
  simp only [List.lookup_cons, hbeq]
  rw [hlookup]

/-- The tree with directories on the whole way to a place. -/
def putDirectories (tree : FileTree) : Place → FileTree
  | [] => tree
  | name :: outer => (tree.putDirectories outer).put (name :: outer) .directory

/-! ## Paths -/

def maxNameSize : Nat := 255

def maxPathSize : Nat := 4095

def follow (tree : FileTree) (place : Place) (name : String) : Except FileError Place :=
  match tree.node? place with
  | none => .error .notFound
  | some (.file _) => .error .notDirectory
  | some .directory =>
    if name = "." then .ok place
    else if name = ".." then .ok place.tail
    else if maxNameSize < name.utf8ByteSize then .error .nameTooLong
    else .ok (name :: place)

/-- The names of a path that lead somewhere, or stay. -/
def names (path : String) : List String :=
  (Path.pieces path).filter fun piece => piece ≠ ""

/-- The place that a path leads to, whether or not there is something. -/
def locate (tree : FileTree) (path : String) : Except FileError Place :=
  if path.toList.contains '\x00' then .error .badName
  else if path = "" then .error .notFound
  else if maxPathSize < path.utf8ByteSize then .error .nameTooLong
  else (names path).foldlM tree.follow (if Path.isAbsolute path then [] else tree.working)

/-! ## Operations -/

def read (tree : FileTree) (path : String) : Except FileError ByteArray := do
  match tree.node? (← tree.locate path) with
  | none => .error .notFound
  | some .directory => .error .isDirectory
  | some (.file content) =>
    if Path.endsWithSlash path then .error .notDirectory else .ok content

def makeDirectory (tree : FileTree) (path : String) : Except FileError FileTree := do
  let place ← tree.locate path
  match tree.node? place with
  | none => .ok (tree.put place .directory)
  | some _ => .error .alreadyExists

def isDirectory (tree : FileTree) (path : String) : Bool :=
  match tree.locate path with
  | .error _ => false
  | .ok place => tree.node? place = some .directory

def write (tree : FileTree) (path text : String) : Except FileError FileTree := do
  let place ← tree.locate path
  match tree.node? place with
  | some .directory => .error .isDirectory
  | _ =>
    if Path.endsWithSlash path then .error .isDirectory
    else .ok (tree.put place (.file text.toUTF8))

/-- Goes on with a changed tree if the change succeeds. -/
def change (operation : FileTree → Except FileError FileTree) :
    StateM FileTree (Except FileError Unit) :=
  fun tree =>
    match operation tree with
    | .ok changed => (.ok (), changed)
    | .error error => (.error error, tree)

/-- Access to a tree that changes as it is written to. -/
def access : FileAccess (StateM FileTree) where
  read path := fun tree => (tree.read path, tree)
  makeDirectory path := change fun tree => tree.makeDirectory path
  isDirectory path := fun tree => (tree.isDirectory path, tree)
  write path text := change fun tree => tree.write path text

/-- The files of a tree that are not the same in an earlier one. -/
def filesSince (tree earlier : FileTree) : List (Place × ByteArray) :=
  tree.nodes.filterMap fun (place, node) =>
    match node with
    | .directory => none
    | .file content =>
      if earlier.node? place = some (.file content) then none else some (place, content)

end FileTree

end ShaderComposer
