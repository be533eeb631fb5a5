import CouponDesk.Relational.Snapshot
import CouponDesk.Run

/-!
# The command line

Reads from the disk what a run needs, lets `run` decide, and puts what it decided back.  A database
file holds a snapshot of the tables.
-/

set_option autoImplicit false

namespace CouponDesk.Disk

open Relational

def path (names : List String) : String := "/" ++ "/".intercalate names

/-- What stands on the disk where names lead; all that is there and cannot be read as a file counts
as a folder. -/
def node? (names : List String) : IO (Option Node) := do
  try
    let bytes ← IO.FS.readBinFile (path names)
    match (String.fromUTF8? bytes).bind Tables.ofSnapshot? with
    | some tables => return some (.database tables)
    | none => return some (.file bytes.toList)
  catch
    | .noFileOrDirectory .. => return none
    | _ => return some (.folder [])

def lookFrom (files : Files) (place : List String) : List String → IO Files
  | [] => return files
  | "." :: rest => lookFrom files place rest
  | ".." :: rest => lookFrom files place.dropLast rest
  | name :: rest => do
      let next := place ++ [name]
      if (files.root.find? next).isSome then lookFrom files next rest
      else
        match ← node? next with
        | some node => lookFrom { files with root := node.put next files.root } next rest
        | none => return files

def look (files : Files) (path : String) : IO Files :=
  lookFrom files (files.start path) (Files.names path)

def store (files : Files) (path : String) : IO Unit := do
  match files.locate path with
  | .error _ => return
  | .ok names =>
      match files.root.find? names with
      | some (.folder _) => IO.FS.createDirAll (Disk.path names)
      | some (.database tables) => IO.FS.writeFile (Disk.path names) tables.snapshot
      | _ => return

def workingFolder : IO Files := do
  let names := Files.names (← IO.currentDir).toString
  return { root := (Node.folder []).put names (.folder []), working := names }

end CouponDesk.Disk

open CouponDesk in
def main (args : List String) : IO UInt32 := do
  let env : Environment := match ← IO.getEnv Settings.urlVariable with
    | some url => [(Settings.urlVariable, url)]
    | none => []
  let files ← Disk.workingFolder
  let files ← Disk.look files Run.environmentPath
  let files ← Disk.look files Settings.defaultPath
  let paths := Run.paths files env
  let files ← paths.foldlM Disk.look files
  let (output, files) := run files env args
  for path in paths do
    Disk.store files path
  IO.print output.printed
  if output.reported ≠ "" then
    IO.eprintln output.reported
  return UInt32.ofNat output.exitCode
