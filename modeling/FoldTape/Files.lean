import FoldTape.Run
import FoldTape.Text.Encoding
import FoldTape.Text.Newline

/-!
# Source files

Source texts are kept in files of a directory. A path is followed from the directory, name by
name; what is found is decoded, and its line ends are turned into line feeds.
-/

namespace FoldTape

/-! ## §1 Directories -/

/-- A directory tree: the files by their paths, with their contents, and the directories. -/
structure Directory where
  files : List (List String × List UInt8)
  directories : List (List String)

/-- What a path leads to. -/
inductive DirectoryEntry where
  | file (content : List UInt8)
  | directory

/-- Why a path leads to no file. -/
inductive PathFault where
  | notFound
  | notADirectory
  | isADirectory
  | nameTooLong
  deriving DecidableEq, Repr

/-- The number of a fault and what is said about it. -/
def PathFault.description : PathFault → Nat × String
  | notFound => (2, "No such file or directory")
  | notADirectory => (20, "Not a directory")
  | isADirectory => (21, "Is a directory")
  | nameTooLong => (36, "File name too long")

/-- The most bytes in a name, and the bytes that a path has to stay below. -/
def maxNameBytes : Nat := 255

@[inherit_doc maxNameBytes]
def maxPathBytes : Nat := 4096

namespace Directory

/-- The names that a path consists of, from first to last. -/
def names (path : String) : List String := path.splitOn "/"

/-- A path of one name. Splitting recurses on positions in the path, which evaluation does not get
through by itself. -/
theorem names_p : names "p" = ["p"] := by
  rw [names, String.splitOn, if_neg (by decide), String.splitOnAux, if_neg (by decide +kernel),
    if_neg (by decide +kernel), String.splitOnAux, if_pos (by decide +kernel)]
  decide +kernel

/-- A directory tree with files and further directories at given paths. -/
def ofPaths (files : List (String × List UInt8)) (directories : List String) : Directory where
  files := files.map fun (path, content) => (names path, content)
  directories := directories.map names

/-- The content of the file at a path. -/
def content? (d : Directory) (path : List String) : Option (List UInt8) :=
  (d.files.find? fun file => file.1 == path).map Prod.snd

/-- Whether there is a directory at a path: it is known as one, or something lies below it. -/
def hasDirectory (d : Directory) (path : List String) : Bool :=
  d.directories.any (path.isPrefixOf ·) ||
    d.files.any fun file => file.1.dropLast != [] && path.isPrefixOf file.1.dropLast

/-- Follows names from a directory. `here` is the way to that directory, or nothing if it lies
outside of the tree, where no file is known. -/
def follow (d : Directory) (here : Option (List String)) :
    List String → Except PathFault DirectoryEntry
  | [] => .ok .directory
  | name :: rest =>
    if name = "" ∨ name = "." then d.follow here rest
    else if name = ".." then
      d.follow (here.bind fun path => if path = [] then none else some path.dropLast) rest
    else if maxNameBytes < name.utf8ByteSize then .error .nameTooLong
    else
      match here.map (· ++ [name]) with
      | none => .error .notFound
      | some path =>
        if d.hasDirectory path then d.follow (some path) rest
        else
          match d.content? path with
          | none => .error .notFound
          | some content => if rest = [] then .ok (.file content) else .error .notADirectory

/-- The content of the file that a path leads to. The empty path leads nowhere, and a path that
begins with a slash leaves the tree. -/
def read (d : Directory) (path : String) : Except PathFault (List UInt8) :=
  if path = "" then .error .notFound
  else if maxPathBytes ≤ path.utf8ByteSize then .error .nameTooLong
  else
    match d.follow (if path.startsWith "/" then none else some []) (names path) with
    | .error fault => .error fault
    | .ok .directory => .error .isADirectory
    | .ok (.file content) => .ok content

end Directory

/-- A path without empty names and without dots that stand for the same directory. One or two
slashes at its beginning are kept, more become one; the empty path becomes a dot. -/
def tidyPath (path : String) : String :=
  let names := (Directory.names path).filter fun name => name ≠ "" ∧ name ≠ "."
  let root :=
    match (path.toList.takeWhile (· = '/')).length with
    | 0 => ""
    | 2 => "//"
    | _ => "/"
  match root ++ "/".intercalate names with
  | "" => "."
  | tidy => tidy

/-! ## §2 Texts from files -/

/-- Why no text could be read. -/
inductive FileError where
  /-- The path leads to no file. -/
  | access (fault : PathFault) (path : String)
  /-- The path holds the character NUL. -/
  | nulInPath
  | decode (e : DecodeError)
  deriving DecidableEq, Repr

/-- What is said when no text could be read. -/
def FileError.message : FileError → String
  | .access fault path =>
    let (number, words) := fault.description
    "[Errno " ++ decimalText number ++ "] " ++ words ++ ": " ++ quoted path
  | .nulInPath => "embedded null byte"
  | .decode e => e.message

/-- The text that the bytes of a file stand for. -/
def textOfBytes (encoding : Encoding) (bytes : List UInt8) : Except FileError (List Char) :=
  match encoding.decode bytes with
  | .ok text => .ok (unifyLineEnds text)
  | .error e => .error (.decode e)

/-- Reads the text of a file. -/
def Directory.readText (d : Directory) (path : String) (encoding : Encoding) :
    Except FileError (List Char) :=
  if path.contains '\x00' then .error .nulInPath
  else
    match d.read path with
    | .ok bytes => textOfBytes encoding bytes
    | .error fault => .error (.access fault path)

/-! ## §3 Compiling and running files -/

/-- Why a file could not be compiled and run. -/
inductive SourceError where
  | file (e : FileError)
  | run (e : RunError)
  deriving DecidableEq, Repr

/-- Compiles a file. The path is tidied first. -/
def compileFile (d : Directory) (path : String) (encoding : Encoding) :
    Except SourceError Program :=
  match d.readText (tidyPath path) encoding with
  | .error e => .error (.file e)
  | .ok text =>
    match compileText text with
    | .error report => .error (.run (.unbalanced report))
    | .ok p => .ok p

/-- Compiles a file and runs it on given input. There is no result if `fuel` does not suffice
for the run. -/
def runFile (fuel : Nat) (d : Directory) (path : String) (encoding : Encoding)
    (input : List UInt8) (settings : Settings) : Option (Except SourceError RunResult) :=
  match d.readText (tidyPath path) encoding with
  | .error e => some (.error (.file e))
  | .ok text =>
    (runText fuel text input settings).map fun
      | .ok result => .ok result
      | .error e => .error (.run e)

end FoldTape
