/-!
# Trees of files

What a path leads to in a tree of directories, files and symbolic links. Links are followed as they
are met, so `..` after a link leaves the directory that the link leads to; a chain of too many links
leads nowhere, and so does a path that is too long. At the top, `..` stays there.
-/

namespace EntityBroker

/-- What a path leads to. The directory of a file is canonical: it has no links in it. -/
inductive Found where
  | missing
  | directory
  | file (content : List UInt8) (directory : String)

inductive FileNode where
  | directory
  | file (content : List UInt8)
  | link (target : String)

/-- A place is a list of the names that lead to it from the top. -/
structure FileTree where
  /-- Where paths start that do not start at the top. -/
  working : List String
  nodes : List (List String × FileNode)

namespace FileTree

/-- The names in a path, with empty ones where a slash is doubled or begins or ends it. -/
def names (path : String) : List String := path.splitOn "/"

/-- The absolute path of a place. -/
def pathTo (place : List String) : String := "/" ++ String.intercalate "/" place

def node? (tree : FileTree) (place : List String) : Option FileNode :=
  if place = [] then some .directory else tree.nodes.lookup place

def startOf (tree : FileTree) (path : String) : List String :=
  if path.startsWith "/" then [] else tree.working

def isHere (name : String) : Bool := name = "" || name = "."

/-- The place that a name leads to where no link is. -/
def step (place : List String) (name : String) : List String :=
  if isHere name then place else if name = ".." then place.dropLast else place ++ [name]

-- ---------------------------------------------------------------- following paths

/-- The place that names lead to from a place, following at most `links` links. -/
def walk (tree : FileTree) (links : Nat) (place : List String) :
    List String → Option (List String)
  | [] => some place
  | name :: rest =>
    match tree.node? place with
    | some .directory =>
      match tree.node? (step place name), links with
      | some (.link target), links + 1 =>
        walk tree links (if target.startsWith "/" then [] else place) (names target ++ rest)
      | some (.link _), 0 => none
      | some _, links => walk tree links (step place name) rest
      | none, _ => none
    | _ => none
  termination_by way => (links, way.length)

/-- How many links are followed on one path. -/
def linkLimit : Nat := 40

/-- A path of this many bytes is too long. -/
def pathLimit : Nat := 4096

def foundAt (tree : FileTree) (place : List String) : Found :=
  match tree.node? place with
  | some (.file content) => .file content (pathTo place.dropLast)
  | some .directory => .directory
  | _ => .missing

def find (tree : FileTree) (path : String) : Found :=
  if path = "" || pathLimit ≤ path.utf8ByteSize then .missing
  else
    match tree.walk linkLimit (tree.startOf path) (names path) with
    | some place => tree.foundAt place
    | none => .missing

-- ---------------------------------------------------------------- making nodes

/-- Puts a node at a place. What is there stays, unless a file is written over a file. -/
def put (tree : FileTree) (place : List String) (node : FileNode) : FileTree :=
  match tree.node? place, node with
  | none, _ => { tree with nodes := (place, node) :: tree.nodes }
  | some (.file _), .file _ => { tree with nodes := (place, node) :: tree.nodes }
  | _, _ => tree

/-- Puts a node where names lead from a place. The last name is the node's own: a link of that name
is not followed. -/
def putAlong (tree : FileTree) (start way : List String) (node : FileNode) : FileTree :=
  match tree.walk linkLimit start way.dropLast, way.getLast? with
  | some place, some name => tree.put (step place name) node
  | _, _ => tree

/-- Makes a directory unless the names lead somewhere. -/
def makeDirectory (tree : FileTree) (start way : List String) : FileTree :=
  match tree.walk linkLimit start way with
  | some _ => tree
  | none => tree.putAlong start way .directory

/-- Makes the directories that names lead through, and the one that they lead to. -/
def makeWay (tree : FileTree) (start way : List String) : FileTree :=
  ((List.range (way.length + 1)).map way.take).foldl
    (fun tree firstNames => tree.makeDirectory start firstNames) tree

/-- Puts a node where a path leads, in directories that are made if there are none. -/
def add (tree : FileTree) (path : String) (node : FileNode) : FileTree :=
  let start := tree.startOf path
  (tree.makeWay start (names path).dropLast).putAlong start (names path) node

def addDirectory (tree : FileTree) (path : String) : FileTree :=
  tree.makeWay (tree.startOf path) (names path)

/-- A tree with a working directory and the directories above it. -/
def inDirectory (path : String) : FileTree :=
  { (⟨[], []⟩ : FileTree).addDirectory path with working := (names path).foldl step [] }

end FileTree

end EntityBroker
