import PushDispatch.Error
import PushDispatch.Text.Blank
import PushDispatch.Text.Utf8

/-!
The files of one directory, and reading one of them as text. Paths are relative to the directory; nothing
outside of it is known.
-/

namespace PushDispatch

/-- Something in the directory: a file with its bytes, or another directory that is empty. -/
inductive FileEntry where
  | file (bytes : List UInt8)
  | directory

/-- The entries of a directory by name. -/
structure Files where
  entries : List (String × FileEntry)

namespace Files

/-- The longest name, in bytes. -/
def maxNameLength : Nat := 255

/-- The text of a file. -/
def readEntry : FileEntry → Except FileProblem String
  | .directory => .error .isDirectory
  | .file bytes => match Text.Utf8.decode? bytes with
    | some cs => .ok (String.ofList cs)
    | none => .error .notUtf8

/-- Follows the parts of a path from the directory, or from an entry in it. A part that is empty or a dot stays
where it is, two dots go back to the directory. -/
def follow (files : Files) : Option FileEntry → List (List Char) → Except FileProblem String
  | none, [] => .error .isDirectory
  | some entry, [] => readEntry entry
  | some (.file _), _ :: _ => .error .notDirectory
  | some .directory, part :: parts =>
    if part.isEmpty || part = ['.'] then files.follow (some .directory) parts
    else if part = ['.', '.'] then files.follow none parts
    else .error .notFound
  | none, part :: parts =>
    if part.isEmpty || part = ['.'] then files.follow none parts
    else if maxNameLength < (Text.Utf8.encode part).length then .error .nameTooLong
    else match files.entries.lookup (String.ofList part) with
      | none => .error .notFound
      | some entry => files.follow (some entry) parts

/-- Reads the file at a path. -/
def readText (files : Files) (path : String) : Except FileProblem String :=
  if path.toList.any (·.toNat = 0) then .error .zeroInName
  else match path.toList with
    | [] => .error .notFound
    | '/' :: _ => .error .notFound
    | cs => files.follow none (Text.splitAll '/' cs)

end Files

end PushDispatch
