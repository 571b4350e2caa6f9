import ResolutionPlan.Json.Documents

namespace ResolutionPlan

open Text

-- Variables by name; a value is any bytes. Newer entries come first.
structure Environment where
  changes : List (String × Option ByteArray)

namespace Environment

def empty : Environment := ⟨[]⟩

-- No variable has an empty name, or an equals sign or a null character in its name.
def isName (name : String) : Bool :=
  name ≠ "" && !name.toList.any fun c => c == '=' || c == '\x00'

def set (e : Environment) (name : String) (value : ByteArray) : Environment :=
  ⟨(name, some value) :: e.changes⟩

def unset (e : Environment) (name : String) : Environment :=
  ⟨(name, none) :: e.changes⟩

-- What the variable holds; a name that no variable can have is never set.
def held? (e : Environment) (name : String) : Option ByteArray :=
  if isName name then (e.changes.lookup name).join else none

-- What stands before the first equals sign of a name.
def stem (name : String) : String :=
  String.ofList (name.toList.takeWhile (· != '='))

-- A look-up compares the name and an equals sign with the beginning of each entry NAME=value. So a name that has an
-- equals sign itself is looked up within the value of the variable that is called like its stem.
def bytes? (e : Environment) (name : String) : Option ByteArray :=
  if '\x00' ∈ name.toList then none
  else match name.toList.dropWhile (· != '=') with
    | [] => e.held? name
    | _ :: inner => (e.held? (stem name)).bind fun value =>
      let front := (String.ofList inner ++ "=").toUTF8
      (front.data.toList.isPrefixOf? value.data.toList).map fun rest => ⟨rest.toArray⟩

-- A variable whose bytes are not a text counts as not set.
def text? (e : Environment) (name : String) : Option String :=
  (e.bytes? name).bind String.fromUTF8?

def variableName (group name : String) : String :=
  upperCase group ++ "_" ++ upperCase name

def defaultGroup : String := "FERROUS_CALLSITE"

def source (e : Environment) (group : String) : CostSource :=
  ⟨fun name => e.text? (variableName group name), variableName group⟩

theorem held?_unset (e : Environment) (name other : String) :
    (e.unset name).held? other = if other = name then none else e.held? other := by
  by_cases same : other = name
  · simp [unset, held?, same]
  · have differ : (other == name) = false := by simpa using same
    simp [unset, held?, List.lookup_cons, differ, same]

theorem held?_set (e : Environment) (name other : String) (value : ByteArray) :
    (e.set name value).held? other =
      if other = name then (if isName name then some value else none) else e.held? other := by
  by_cases same : other = name
  · simp [set, held?, same]
  · have differ : (other == name) = false := by simpa using same
    simp [set, held?, List.lookup_cons, differ, same]

end Environment

namespace CostTable

def ofEnvironment (e : Environment) (group : String) : Except Error CostTable :=
  ofSource (e.source group)

end CostTable

inductive FileContent where
  | bytes (content : ByteArray)
  | directory

inductive FileFault where
  | notFound
  | notDirectory
  | isDirectory
  | nameTooLong
  | nullInName
  | notText
  deriving DecidableEq

def FileFault.message : FileFault → String
  | .notFound => "No such file or directory (os error 2)"
  | .notDirectory => "Not a directory (os error 20)"
  | .isDirectory => "Is a directory (os error 21)"
  | .nameTooLong => "File name too long (os error 36)"
  | .nullInName => "file name contained an unexpected NUL byte"
  | .notText => "stream did not contain valid UTF-8"

-- Files by their path from the directory that names start from.
structure FileTree where
  entries : List (List String × FileContent)

namespace FileTree

def components (path : String) : List String :=
  path.splitOn "/"

-- The most bytes in the name of one file, and in a path.
def longestName : Nat := 255

def longestPath : Nat := 4095

def ofList (files : List (String × FileContent)) : FileTree :=
  ⟨files.map fun (name, content) => (components name, content)⟩

-- A directory is there if it is given, or if something is given below it.
def content? (t : FileTree) (place : List String) : Option FileContent :=
  match t.entries.lookup place with
  | some content => some content
  | none => if place = [] || t.entries.any (fun e => place.isPrefixOf e.1) then some .directory else none

-- Follows the components of a path. `above` counts the steps that lead out of the tree, where nothing is
-- known but the directories on the way.
def resolve (t : FileTree) (above : Nat) (place : List String) : List String → Except FileFault FileContent
  | [] => if 0 < above then .ok .directory else
    match t.content? place with
    | some content => .ok content
    | none => .error .notFound
  | name :: rest =>
    match (if 0 < above then some FileContent.directory else t.content? place) with
    | none => .error .notFound
    | some (.bytes _) => .error .notDirectory
    | some .directory =>
      if name = "" || name = "." then t.resolve above place rest
      else if name = ".." then
        if place = [] then t.resolve (above + 1) [] rest else t.resolve above place.dropLast rest
      else if longestName < name.utf8ByteSize then .error .nameTooLong
      else if 0 < above then .error .notFound
      else t.resolve above (place ++ [name]) rest

def readText (t : FileTree) (path : String) : Except FileFault String :=
  if path.toList.contains '\x00' then .error .nullInName
  else if path = "" then .error .notFound
  else if longestPath < path.utf8ByteSize then .error .nameTooLong
  else
    match components path with
    | "" :: rest => do
      -- An absolute path leads out of the tree.
      let _ ← t.resolve 1 [] rest
      .error .isDirectory
    | names => do
      match ← t.resolve 0 [] names with
      | .directory => .error .isDirectory
      | .bytes content =>
        match String.fromUTF8? content with
        | some text => .ok text
        | none => .error .notText

end FileTree

def CostTable.ofFile (t : FileTree) (path : String) : Except Error CostTable :=
  match t.readText path with
  | .ok text => ofJson text
  | .error fault => .error (.config (path ++ ": " ++ fault.message))

end ResolutionPlan
