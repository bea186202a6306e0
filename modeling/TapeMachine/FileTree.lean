import TapeMachine.Config.Error

/-!
A tree of files and directories as a value: what lies under a directory that a host works in. Paths
are relative to that directory, and nothing outside it can be reached.
-/

namespace TapeMachine

/-- What a path can lead to. -/
inductive FileContent where
  | file (bytes : ByteArray)
  | directory

/-- Contents by path, a path being the names from the top. The top itself is not listed. -/
structure FileTree where
  nodes : List (List String × FileContent)

namespace FileTree

def empty : FileTree := ⟨[]⟩

def get? (tree : FileTree) (names : List String) : Option FileContent :=
  if names.isEmpty then some .directory else tree.nodes.lookup names

/-- The names of a path, without those that stay where they are. -/
def names (path : String) : List String :=
  ((path.splitOn "/").filter fun name => name ≠ "" && name ≠ ".").foldl
    (fun names name => if name = ".." then names.dropLast else names ++ [name]) []

def erase (tree : FileTree) (names : List String) : FileTree where
  nodes := tree.nodes.filter fun node => !names.isPrefixOf node.1

def parents (names : List String) : List (List String) :=
  ((List.range names.length).drop 1).map names.take

/-- Makes the directories that are missing on the way to a path. -/
def makeParents (tree : FileTree) (names : List String) : FileTree :=
  (parents names).foldl
    (fun tree parent =>
      if (tree.get? parent).isSome then tree else ⟨tree.nodes ++ [(parent, .directory)]⟩)
    tree

/-- Puts something at a path, in place of whatever was there; with nothing to put, what was there
is gone. -/
def write (tree : FileTree) (path : String) (content : Option FileContent) : FileTree :=
  let names := names path
  let tree := tree.erase names
  match content with
  | none => tree
  | some content =>
      let tree := tree.makeParents names
      ⟨tree.nodes ++ [(names, content)]⟩

/-- Follows the steps of a path from a place in the tree. Only a directory can be stepped from, be
it to where it is. -/
def follow (tree : FileTree) : List String → FileContent → List String →
    Except ReadError FileContent
  | _, content, [] => .ok content
  | _, .file _, _ :: _ => .error .notDirectory
  | here, .directory, step :: steps =>
      if step = "" || step = "." then follow tree here .directory steps
      else if step = ".." then follow tree here.dropLast .directory steps
      else
        match tree.get? (here ++ [step]) with
        | none => .error .notFound
        | some content => follow tree (here ++ [step]) content steps

/-- Reads the text of a file. A path that is empty, or that starts outside, leads nowhere. -/
def read (tree : FileTree) (path : String) : Except ReadError String :=
  if path.isEmpty || path.startsWith "/" then .error .notFound
  else
    match tree.follow [] .directory (path.splitOn "/") with
    | .error e => .error e
    | .ok .directory => .error .isDirectory
    | .ok (.file bytes) =>
        match String.fromUTF8? bytes with
        | some text => .ok text
        | none => .error .notUtf8

end FileTree

end TapeMachine
