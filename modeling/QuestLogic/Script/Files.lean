import QuestLogic.Script.Library

/-!
# Files of scripts

Scripts lie in a directory and the directories in it. What a file is about shows in its name or in
the names of the fields that it mentions; a file that shows nothing is passed over. A directory is
loaded in the order of its paths.
-/

namespace QuestLogic.Library

/-- A file. -/
structure File where
  /-- The names of the directories around it, and its own. -/
  path : List String
  /-- What it says, if it holds text. -/
  text : Option String
deriving DecidableEq, Inhabited

/-- A directory, as the files in it, of which no two lie at one path. -/
abbrev Directory := List File

/-- Whether one sequence occurs in another. -/
def occursIn (needle : List Char) : List Char → Bool
  | [] => needle.isEmpty
  | c :: rest => needle.isPrefixOf (c :: rest) || occursIn needle rest

/-- Whether a text mentions another one. -/
def mentions (text part : String) : Bool := occursIn part.toList text.toList

/-- What a file is about. -/
def Topic.ofFile? (name text : String) : Option Topic :=
  if mentions name "snippet" || mentions name "dialog" || mentions text "snippets:" then
    some .snippets
  else if mentions name "chapter" || mentions text "chapters:" then some .chapters
  else if mentions name "content" || mentions text "monster_names:" || mentions text "spell_names:"
    then some .names
  else if mentions name "config" then some .settings
  else none

/-- Where a name on a path leads to: two points lead back, and one point nowhere. -/
def follow (names : List String) (name : String) : List String :=
  if name = "" || name = "." then names
  else if name = ".." then names.dropLast
  else names ++ [name]

/-- The names on a path that is written with slashes. -/
def pathNames (path : String) : List String := (path.splitOn "/").foldl follow []

namespace Directory

/-- Writes a file, over the one that lies at its path. -/
def write (d : Directory) (f : File) : Directory := d.filter (·.path ≠ f.path) ++ [f]

/-- The directory into which files have been written one after the other. -/
def ofFiles (files : List File) : Directory := files.foldl write []

/-- The files in the directory that some names lead to. -/
def below (d : Directory) (names : List String) : Directory :=
  d.filter fun f => names.isPrefixOf f.path && f.path ≠ names

/-- Whether names lead to a directory; no name at all leads to the whole one. -/
def isDirectory (d : Directory) (names : List String) : Bool :=
  names.isEmpty || !(d.below names).isEmpty

/-- Follows a name from a directory; nothing lies outside the whole one. -/
def follow? (d : Directory) (names : List String) (name : String) : Option (List String) :=
  if d.isDirectory names && !(names.isEmpty && name = "..") then some (follow names name) else none

/-- The names that lead where a path does. It starts at the directory, not with a slash. -/
def resolve? (d : Directory) (path : String) : Option (List String) :=
  if path.startsWith "/" then none else (path.splitOn "/").foldlM d.follow? []

end Directory

/-- The file at a path. -/
def file? (d : Directory) (path : String) : Option File :=
  (d.resolve? path).bind fun names => d.find? (·.path = names)

/-- The files in the directory at a path; the empty path is the directory itself. -/
def subdirectory? (d : Directory) (path : String) : Option Directory :=
  ((d.resolve? path).filter d.isDirectory).map d.below

/-- Loads a file that has been found. -/
def loadFound (f : File) : Loading Unit :=
  match f.text with
  | none => throw .unreadable
  | some text =>
    match Topic.ofFile? (f.path.getLast?.getD "") text with
    | some topic => loadText topic text
    | none => pure ()

/-- Loads the file at a path. -/
def loadFile (d : Directory) (path : String) : Loading Unit :=
  match file? d path with
  | some f => loadFound f
  | none => throw .unreadable

/-- The last part of the names of scripts. -/
def scriptEnding : List Char := ".ron".toList

/-- Whether a file is a script by its name, which is more than the ending. -/
def isScript (f : File) : Bool :=
  let name := (f.path.getLast?.getD "").toList
  scriptEnding.isSuffixOf name && scriptEnding.length < name.length

/-- The order of names, by their characters. -/
def nameLe : List Char → List Char → Bool
  | [], _ => true
  | _ :: _, [] => false
  | a :: s, b :: t => a.toNat < b.toNat || (a = b && nameLe s t)

/-- The order of paths, by their names one after the other. -/
def pathLe : List String → List String → Bool
  | [], _ => true
  | _ :: _, [] => false
  | a :: p, b :: q => if a = b then pathLe p q else nameLe a.toList b.toList

/-- Loads files in order. -/
def loadFiles : List File → Loading Unit
  | [] => pure ()
  | f :: rest => do
    loadFound f
    loadFiles rest

/-- Loads the scripts in the directory at a path. -/
def loadDirectory (d : Directory) (path : String) : Loading Unit :=
  match subdirectory? d path with
  | some inside => loadFiles ((inside.filter isScript).mergeSort fun f g => pathLe f.path g.path)
  | none => throw .unreadable

end QuestLogic.Library
