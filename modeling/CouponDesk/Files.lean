import CouponDesk.Fault
import CouponDesk.Relational.Tables
import CouponDesk.Text.Basic

/-!
# Files

A tree of folders, files and databases with a working folder.  A path is a text: its names are
separated by slashes, a name may also be one dot or two, and a slash at the end asks for a
folder.  Whatever a path goes through must be a folder.
-/

set_option autoImplicit false

namespace CouponDesk

inductive Node
  | folder (entries : List (String × Node))
  | file (content : List UInt8)
  | database (tables : Relational.Tables)

namespace Node

def isFolder : Node → Bool
  | .folder _ => true
  | .file _ | .database _ => false

def find? : List String → Node → Option Node
  | [], node => some node
  | name :: rest, .folder entries => (entries.lookup name).bind (find? rest)
  | _ :: _, .file _ | _ :: _, .database _ => none

/-- The tree with another node where names lead, if all of them but the last lead to a folder. -/
def put (new : Node) : List String → Node → Node
  | [], _ => new
  | name :: rest, .folder entries =>
      match entries.lookup name with
      | some inner =>
          .folder (entries.map fun entry =>
            if entry.1 = name then (name, put new rest inner) else entry)
      | none => .folder (entries ++ [(name, put new rest (.folder []))])
  | _ :: _, node => node

end Node

/-- A tree and the names that lead from its root to the working folder. -/
structure Files where
  root : Node := .folder []
  working : List String := []

namespace Files

/-! ## Paths -/

def maxName : Nat := 255

def maxPath : Nat := 4095

/-- The names in a path.  A slash at its end counts as a dot. -/
def names (path : String) : List String :=
  let pieces := (Text.splitOn '/' path.toList).map String.ofList
  pieces.filter (· ≠ "") ++ if path ≠ "" ∧ pieces.getLast? = some "" then ["."] else []

/-- Follows names from a place.  All of them but the last must lead to a folder. -/
def follow (files : Files) (place : List String) : List String → Except FileFault (List String)
  | [] => .ok place
  | name :: rest =>
      match files.root.find? place with
      | none => .error .missing
      | some (.folder _) =>
          if name = "." then follow files place rest
          else if name = ".." then follow files place.dropLast rest
          else if maxName < name.utf8ByteSize then .error .nameTooLong
          else follow files (place ++ [name]) rest
      | some _ => .error .notFolder

def start (files : Files) (path : String) : List String :=
  if path.toList.head? = some '/' then [] else files.working

def malformed? (path : String) : Option FileFault :=
  if '\x00' ∈ path.toList then some .nulInName
  else if path = "" then some .missing
  else if maxPath < path.utf8ByteSize then some .nameTooLong
  else none

def locate (files : Files) (path : String) : Except FileFault (List String) :=
  match malformed? path with
  | some fault => .error fault
  | none => files.follow (files.start path) (names path)

/-! ## Reading -/

def at? (files : Files) (path : String) : Option Node :=
  match files.locate path with
  | .ok place => files.root.find? place
  | .error _ => none

/-- The bytes of the file at a path.  A database has no text. -/
def readBytes (files : Files) (path : String) : Except FileFault (List UInt8) := do
  match files.root.find? (← files.locate path) with
  | some (.file content) => return content
  | some (.folder _) => .error .isFolder
  | some (.database _) => .error .notText
  | none => .error .missing

def readText (files : Files) (path : String) : Except FileFault String := do
  match Text.ofBytes? (← files.readBytes path) with
  | some text => return text
  | none => .error .notText

/-! ## Writing -/

def write (files : Files) (path : String) (node : Node) : Files :=
  match files.locate path with
  | .ok place => { files with root := node.put place files.root }
  | .error _ => files

def makeFrom (files : Files) (place : List String) : List String → Except FileFault Files
  | [] => .ok files
  | name :: rest =>
      if name = "." then makeFrom files place rest
      else if name = ".." then makeFrom files place.dropLast rest
      else if maxName < name.utf8ByteSize then .error .nameTooLong
      else
        let next := place ++ [name]
        match files.root.find? next with
        | none => makeFrom { files with root := (Node.folder []).put next files.root } next rest
        | some (.folder _) => makeFrom files next rest
        | some _ => .error (if rest.isEmpty then .exists else .notFolder)

def makeFolders (files : Files) (path : String) : Except FileFault Files :=
  match malformed? path with
  | some fault => .error fault
  | none => files.makeFrom (files.start path) (names path)

/-- Whether a piece of a path is a name of its own: a dot counts only at the start. -/
def isOwnName (piece : List Char × Nat) : Bool :=
  piece.1 ≠ [] && (piece.1 ≠ ['.'] || piece.2 = 0)

def parent? (path : String) : Option String :=
  let pieces := (Text.splitOn '/' path.toList).zipIdx.reverse
  match pieces.dropWhile fun piece => !isOwnName piece with
  | [] => none
  | _ :: before =>
      match before.dropWhile fun piece => !isOwnName piece with
      | [] => if path.toList.head? = some '/' then some "/" else none
      | before =>
          some ("/".intercalate (before.reverse.map fun piece => String.ofList piece.1))

end Files

end CouponDesk
