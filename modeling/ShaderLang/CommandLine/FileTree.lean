/-
**Files by their paths.**

A tree of files answers how reading a path ends: with a text, or with one of the ways in which
reading can fail.  A path is a sequence of names between slashes; a single dot stands for the
directory itself, two dots for the directory around it.

Main definitions:

* `ShaderLang.ReadError`, `ShaderLang.ReadError.message` — ways to fail;
* `ShaderLang.FileTree`, `ShaderLang.FileTree.find`, `ShaderLang.FileTree.read` — where a path leads,
  and what is read there;
* `ShaderLang.fileName` — the name of the file that a path ends in.
-/

set_option relaxedAutoImplicit false
set_option autoImplicit false

namespace ShaderLang

/-- How reading a file can fail. -/
inductive ReadError where
  | notFound
  | notDirectory
  | isDirectory
  | notPermitted
  | nameTooLong
  | notText
  | other (description : String)
  deriving DecidableEq, Repr

/-- A failure in words. -/
def ReadError.message : ReadError → String
  | notFound => "No such file or directory (os error 2)"
  | notDirectory => "Not a directory (os error 20)"
  | isDirectory => "Is a directory (os error 21)"
  | notPermitted => "Permission denied (os error 13)"
  | nameTooLong => "File name too long (os error 36)"
  | notText => "stream did not contain valid UTF-8"
  | other description => description

/-- The greatest number of bytes in a name. -/
def longestName : Nat := 255

/-- The greatest number of bytes in a path, whatever it leads to. -/
def longestPath : Nat := 4095

/-- The names in a path; empty names and single dots say nothing. -/
def pathNames (path : String) : List String :=
  ((path.toList.splitOn '/').map String.ofList).filter fun n => n != "" && n != "."

/-- The name of the file that a path ends in; a path that ends in no name stands for itself. -/
def fileName (path : String) : String :=
  match (pathNames path).getLast? with
  | some name => if name = ".." then path else name
  | none => path

/-- The text that bytes encode. -/
def decodeText (bytes : ByteArray) : Except ReadError String :=
  match String.fromUTF8? bytes with
  | some text => .ok text
  | none => .error .notText

/-- Files with the names on their way from the root of the tree. -/
structure FileTree where
  files : List (List String × ByteArray)

namespace FileTree

/-- Files by their paths. -/
def ofPaths (files : List (String × ByteArray)) : FileTree :=
  ⟨files.map fun (path, bytes) => (pathNames path, bytes)⟩

/-- What a place of the tree holds. -/
inductive Entry where
  | file (bytes : ByteArray)
  | directory

/-- What stands at the end of a way from the root. -/
def entryAt (t : FileTree) (way : List String) : Option Entry :=
  match t.files.lookup way with
  | some bytes => some (.file bytes)
  | none =>
      if way.isEmpty || t.files.any fun f => way.isPrefixOf f.1 then some .directory else none

/-- Goes on from the root of the tree to the directories around it, of which nothing is known but
that they are there. -/
def walkAround : List String → Except ReadError Entry
  | [] => .ok .directory
  | name :: names =>
      if name = ".." then walkAround names
      else if longestName < name.utf8ByteSize then .error .nameTooLong
      else .error .notFound

/-- Goes on from a directory of the tree through more names. -/
def walk (t : FileTree) (way : List String) : List String → Except ReadError Entry
  | [] =>
      match t.entryAt way with
      | some e => .ok e
      | none => .error .notFound
  | name :: names =>
      match t.entryAt way with
      | none => .error .notFound
      | some (.file _) => .error .notDirectory
      | some .directory =>
          if name = ".." then
            if way.isEmpty then walkAround names else t.walk way.dropLast names
          else if longestName < name.utf8ByteSize then .error .nameTooLong
          else t.walk (way ++ [name]) names

/-- What a path leads to; one that begins with a slash begins outside the tree. -/
def find (t : FileTree) (path : String) : Except ReadError Entry :=
  if path.toList.head? = some '/' then walkAround (pathNames path)
  else t.walk [] (pathNames path)

/-- The path ends in a slash or a dot and so asks for a directory. -/
def asksForDirectory (path : String) : Bool :=
  match (path.toList.splitOn '/').getLast? with
  | some [] => true
  | some ['.'] => true
  | _ => false

/-- Reads the file at a path. -/
def read (t : FileTree) (path : String) : Except ReadError String :=
  if longestPath < path.utf8ByteSize then .error .nameTooLong
  else if path = "" then .error .notFound
  else
    match t.find path with
    | .error e => .error e
    | .ok .directory => .error .isDirectory
    | .ok (.file bytes) =>
        if asksForDirectory path then .error .notDirectory else decodeText bytes

end FileTree

end ShaderLang
