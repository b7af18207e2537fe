import Hotspots.Failure
import Hotspots.Text.PathName

/-!
# Folders of files

A folder holds files under relative paths. A path is followed name by name from the folder; a name
that is no folder on the way leads nowhere, and of what lies outside the folder only its folders on
the way up are known. A path that is too long is not followed, and neither is a name that is too long.
-/

namespace Hotspots

/-- Files with their paths relative to a folder. -/
abbrev Folder := List (String × Bytes)

namespace Folder

/-- What a path leads to. -/
inductive Place where
  | absent
  | folder
  | file (content : Bytes)
  /-- The system does not tell, because the path or a name on its way is too long. -/
  | untold
  deriving DecidableEq, Repr

/-- What lies at a sequence of names from the folder. -/
def placeAt (f : Folder) (at' : List String) : Place :=
  match f.find? fun (path, _) => PathName.names path == at' with
  | some (_, content) => .file content
  | none =>
    if at'.isEmpty || f.any fun (path, _) => at'.isPrefixOf (PathName.names path) then .folder
    else .absent

/-- Where a path leads: out of the folder, or to names in it. -/
inductive Spot where
  | outside
  | inside (at' : List String)
  deriving DecidableEq, Repr

/-- The spot above another. -/
def Spot.up : Spot → Spot
  | .outside => .outside
  | .inside [] => .outside
  | .inside here => .inside here.dropLast

/-- Why a path leads nowhere. -/
inductive Miss where
  | absent
  | tooLong
  deriving DecidableEq, Repr

/-- Follows names from a spot. -/
def follow (f : Folder) : Spot → List String → Except Miss Spot
  | s, [] => .ok s
  | .outside, name :: rest =>
    if name = ".." then follow f .outside rest
    else .error (if PathName.isLongName name then .tooLong else .absent)
  | .inside here, name :: rest =>
    match placeAt f here with
    | .folder =>
      if PathName.isLongName name then .error .tooLong
      else follow f (if name = ".." then (Spot.inside here).up else .inside (here ++ [name])) rest
    | _ => .error .absent

/-- Where a path leads, if the way there exists. -/
def spot (f : Folder) (path : String) : Except Miss Spot :=
  if path.toList.contains '\x00' then .error .absent
  else if PathName.isLongPath (PathName.tidy path) then .error .tooLong
  else follow f (if PathName.rootText path = "" then .inside [] else .outside) (PathName.names path)

/-- What a path leads to. -/
def look (f : Folder) (path : String) : Place :=
  match f.spot path with
  | .error .absent => .absent
  | .error .tooLong => .untold
  | .ok .outside => .folder
  | .ok (.inside here) => placeAt f here

/-- The fault of asking for a path that is too long. -/
def tooLong (path : String) : Fault :=
  .other "OSError" ("[Errno 36] File name too long: " ++ Quoted.text (PathName.tidy path))

/-- Why the system does not tell what a path leads to, if it does not. -/
def refuses? (f : Folder) (path : String) : Option Fault :=
  match f.look path with
  | .untold => some (tooLong path)
  | _ => none

/-- The full path of what a path leads to, with a name for the folder itself. -/
def locate (f : Folder) (name path : String) : Option String :=
  match f.spot path with
  | .error _ => none
  | .ok .outside => some "/"
  | .ok (.inside here) =>
    if placeAt f here = .absent then none else some ("/".intercalate (name :: here))

end Folder

end Hotspots
