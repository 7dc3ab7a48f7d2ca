import Redraw.Bytes
import Redraw.Stream.Fault

/-!
# File stores

Files and directories, seen from a base directory. A path is followed name by name, from the base
or the root on; each name but the last must lead to a directory. Names and paths have a greatest
length, and a name that is too long is refused where it is looked up.
-/

namespace Redraw

/-- What a name stands for. -/
inductive Node where
  /-- A file with its content. -/
  | file (content : Bytes)
  /-- A directory. -/
  | directory
  deriving DecidableEq, Repr

/-- The names from the base directory to a file or directory. The root directory is called by its
slash, and what lies above the base by two dots for each level. -/
abbrev Route := List String

/-- Files and directories by their routes. -/
structure FileStore where
  /-- The nodes with their routes. Of two nodes with one route the first counts. -/
  nodes : List (Route × Node) := []
  deriving DecidableEq, Repr

/-- What a path leads to. -/
inductive Place where
  /-- A directory. -/
  | directory
  /-- A file. -/
  | file (route : Route) (content : Bytes)
  /-- Nothing, in a directory that is there. -/
  | free (route : Route)
  deriving DecidableEq, Repr

namespace FileStore

/-- The node with a route. -/
def node? (store : FileStore) (route : Route) : Option Node :=
  store.nodes.lookup route

/-- The name of the root directory. -/
def rootName : String := "/"

/-- The name of the directory itself. -/
def selfName : String := "."

/-- The name of the directory above. -/
def aboveName : String := ".."

/-- The names that are those of directories in any place. -/
def isFixed (name : String) : Bool :=
  name == rootName || name == selfName || name == aboveName

/-- The route that a name leads to. -/
def step (here : Route) (name : String) : Route :=
  if name = rootName then [rootName]
  else if name = selfName then here
  else if name = aboveName then
    match here.getLast? with
    | none => [aboveName]
    | some last =>
      if last = rootName then here
      else if last = aboveName then here ++ [aboveName]
      else here.dropLast
  else here ++ [name]

/-- The greatest length of a name in bytes. -/
def nameLimit : Nat := 255

/-- The greatest length of a path in bytes. -/
def pathLimit : Nat := 4095

/-- The character that no name can hold. -/
def barred : Char := '\x00'

/-- The place of a name in a directory. -/
def place (store : FileStore) (here : Route) (name : String) : Except IoFault Place :=
  if isFixed name then .ok .directory
  else if nameLimit < name.utf8ByteSize then .error .nameTooLong
  else match store.node? (here ++ [name]) with
    | some .directory => .ok .directory
    | some (.file content) => .ok (.file (here ++ [name]) content)
    | none => .ok (.free (here ++ [name]))

/-- The route of the directory that a name leads to. -/
def enter (store : FileStore) (here : Route) (name : String) : Except IoFault Route :=
  match store.place here name with
  | .ok .directory => .ok (step here name)
  | .ok (.file ..) => .error .notDirectory
  | .ok (.free _) => .error .notFound
  | .error fault => .error fault

/-- Follows names up to the last one: the route of the directory that the last name is looked up
in, and that name. -/
def follow (store : FileStore) (here : Route) : List String → Except IoFault (Route × String)
  | [] => .ok (here, selfName)
  | [name] => .ok (here, name)
  | name :: names =>
    match store.enter here name with
    | .ok there => follow store there names
    | .error fault => .error fault

/-- The names in a path. -/
def names (path : String) : List String :=
  let names := (path.splitOn "/").filter fun name => !name.isEmpty
  if path.startsWith "/" then rootName :: names else names

/-- The routes to which a path leads, step by step. -/
def routes (path : String) : List Route :=
  go [] (names path)
where
  /-- The routes to which names lead from a directory on. -/
  go (here : Route) : List String → List Route
    | [] => []
    | name :: names => step here name :: go (step here name) names

/-- Whether a path can only be that of a directory. -/
def asksDirectory (path : String) : Bool :=
  path.endsWith "/"

/-- The route of the directory that a path leads to before its last name, and that name. The empty
path leads nowhere. -/
def approach (store : FileStore) (path : String) : Except IoFault (Route × String) :=
  if path.toList.contains barred then .error .badName
  else if pathLimit < path.utf8ByteSize then .error .nameTooLong
  else if path.isEmpty then .error .notFound
  else store.follow [] (names path)

/-- What a path leads to. -/
def locate (store : FileStore) (path : String) : Except IoFault Place :=
  match store.approach path with
  | .ok (here, name) => store.place here name
  | .error fault => .error fault

/-- The content of a file. -/
def read (store : FileStore) (path : String) : Except IoFault Bytes :=
  match store.locate path with
  | .ok (.file _ content) => if asksDirectory path then .error .notDirectory else .ok content
  | .ok .directory => .error .isDirectory
  | .ok (.free _) => .error .notFound
  | .error fault => .error fault

/-- The content of a file as text. -/
def readText (store : FileStore) (path : String) : Except IoFault String :=
  match store.read path with
  | .ok content =>
    match Bytes.text? content with
    | some text => .ok text
    | none => .error .invalidData
  | .error fault => .error fault

/-- Puts a node in front of all others. -/
def insert (store : FileStore) (route : Route) (node : Node) : FileStore :=
  ⟨(route, node) :: store.nodes⟩

/-- The route to which a path leads for writing. A path that can only be that of a directory is
refused before its last name is looked up. -/
def target (store : FileStore) (path : String) : Except IoFault Route :=
  match store.approach path with
  | .ok (here, name) =>
    if asksDirectory path then .error .isDirectory
    else match store.place here name with
      | .ok (.file route _) => .ok route
      | .ok (.free route) => .ok route
      | .ok .directory => .error .isDirectory
      | .error fault => .error fault
  | .error fault => .error fault

/-- Writes a file, whatever it held before. -/
def write (store : FileStore) (path : String) (content : Bytes) : Except IoFault FileStore :=
  (store.target path).map fun route => store.insert route (.file content)

/-- Makes a directory. -/
def makeDirectory (store : FileStore) (path : String) : Except IoFault FileStore :=
  match store.locate path with
  | .ok (.free route) => .ok (store.insert route .directory)
  | .ok _ => .error .alreadyExists
  | .error fault => .error fault

end FileStore

end Redraw
