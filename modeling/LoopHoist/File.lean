import LoopHoist.Failure

/-!
# Files

`Files` says what reading a path gives, which is all that the rest of the library needs to know about
files: the fault of a path that cannot be read tells whether there is something at it.  A `Folder` is a
folder that holds files and nothing else; paths are looked up in it as they would be if it were the
current one.
-/

namespace LoopHoist

/-- What reading the file at a path gives. -/
abbrev Files := String → Except FileFault String

/-- Whether there is a file or a folder at a path, be it readable or not. -/
def Files.hasEntry (files : Files) (path : String) : Bool :=
  match files path with
  | .ok _ => true
  | .error fault => !fault.isAbsence

/-! ## Paths -/

namespace Path

/-- The components of a path, without those that stay where they are. -/
def components (path : String) : List String :=
  (path.splitOn "/").filter fun part => part != "" && part != "."

/-- Whether a path asks for a folder by how it ends. -/
def endsAsFolder (path : String) : Bool := path.endsWith "/" || path.endsWith "/."

/-- What stands after the last dot of a file name, if there is something before it. -/
def extensionOf? (name : String) : Option String :=
  match name.splitOn "." with
  | [] | [_] => none
  | parts => if parts.length = 2 && parts.head? == some "" then none else parts.getLast?

/-- The extension of the file at a path. -/
def extension? (path : String) : Option String :=
  ((components path).getLast?.filter (· != "..")).bind extensionOf?

/-- The format that the extension of a path stands for. -/
def format (path : String) : Document.Format :=
  match extension? path with
  | some "yaml" | some "yml" => .yaml
  | _ => .json

end Path

/-! ## Folders -/

/-- A folder with files in it, each with its name and its text. -/
structure Folder where
  entries : List (String × String)

namespace Folder

/-- The text of the file of this name. -/
def find? (folder : Folder) (name : String) : Option String := folder.entries.lookup name

/-- The folder with a file more, or with another text in a file. -/
def insert (folder : Folder) (name text : String) : Folder :=
  ⟨(name, text) :: folder.entries.filter fun entry => entry.1 != name⟩

/-- The folder with these files in it; a later one replaces an earlier one of the same name. -/
def ofList (entries : List (String × String)) : Folder :=
  entries.foldl (fun folder (name, text) => folder.insert name text) ⟨[]⟩

/-- The name of the file that a path leads to, be it there or not. -/
def locate (folder : Folder) (path : String) : Except FileFault String :=
  if path.isEmpty then .error .missing
  else
    match Path.components path with
    | [] => .error .folder
    | [name] =>
        if path.startsWith "/" then .error .missing
        else if name == ".." then .error .folder
        else .ok name
    | name :: _ => .error (if (folder.find? name).isSome then .notAFolder else .missing)

/-- Reads the file at a path. -/
def files (folder : Folder) : Files := fun path => do
  let name ← folder.locate path
  match folder.find? name with
  | none => .error .missing
  | some text => if Path.endsAsFolder path then .error .notAFolder else .ok text

/-- Writes a text to the file at a path. -/
def write (folder : Folder) (path text : String) : Except FileFault Folder := do
  let name ← folder.locate path
  if Path.endsAsFolder path then .error .folder else .ok (folder.insert name text)

end Folder

end LoopHoist
