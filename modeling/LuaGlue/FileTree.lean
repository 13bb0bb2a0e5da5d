namespace LuaGlue

/-- Why a file cannot be read or written. -/
inductive FileError where
  | notFound
  | notDirectory
  | isDirectory
  | nameTooLong
  /-- The path contains a character that no path can contain. -/
  | nulInPath
  /-- The bytes are no text. -/
  | notText
  /-- Anything else, in the words of the system. -/
  | system (message : String)
  deriving DecidableEq

def FileError.message : FileError → String
  | notFound => "No such file or directory (os error 2)"
  | notDirectory => "Not a directory (os error 20)"
  | isDirectory => "Is a directory (os error 21)"
  | nameTooLong => "File name too long (os error 36)"
  | nulInPath => "file name contained an unexpected NUL byte"
  | notText => "stream did not contain valid UTF-8"
  | system message => message

/-- What stands at a place in a tree. -/
inductive FileEntry where
  | file (bytes : ByteArray)
  | directory

/-- Files and directories by the names that lead to them from the root. -/
structure FileTree where
  entries : List (List String × FileEntry) := []
  /-- The directory from which relative paths start. -/
  workingDirectory : List String := []

/-- Paths at which a system refuses to read or to write for reasons that a tree does not show, such
as permissions. -/
structure Refusals where
  reading : String → Option FileError := fun _ => none
  writing : String → Option FileError := fun _ => none

namespace FileTree

/-- What stands behind some names. The root is always there. -/
def get? (tree : FileTree) (names : List String) : Option FileEntry :=
  if names = [] then some .directory else tree.entries.lookup names

/-- Puts an entry at a place, over what stands there. -/
def set (tree : FileTree) (names : List String) (entry : FileEntry) : FileTree :=
  { tree with entries := tree.entries.filter (fun other => other.1 ≠ names) ++ [(names, entry)] }

theorem lookup_filter_self (names : List String) (entries : List (List String × FileEntry)) :
    (entries.filter fun entry => entry.1 ≠ names).lookup names = none := by
  rw [List.lookup_eq_none_iff]
  intro entry hentry
  have hne : entry.1 ≠ names := by simpa using (List.mem_filter.1 hentry).2
  exact bne_iff_ne.2 hne.symm

theorem lookup_filter_of_ne {names other : List String} (h : other ≠ names)
    (entries : List (List String × FileEntry)) :
    (entries.filter fun entry => entry.1 ≠ names).lookup other = entries.lookup other := by
  induction entries with
  | nil => rfl
  | cons entry rest ih =>
    by_cases hentry : entry.1 = names
    · have hother : (other == entry.1) = false := by
        apply beq_false_of_ne
        rwa [hentry]
      rw [List.filter_cons_of_neg (by simpa using hentry), ih, List.lookup_cons, hother]
    · rw [List.filter_cons_of_pos (by simpa using hentry), List.lookup_cons, List.lookup_cons, ih]

theorem get?_set_self (tree : FileTree) {names : List String} (h : names ≠ [])
    (entry : FileEntry) : (tree.set names entry).get? names = some entry := by
  have hlast : [(names, entry)].lookup names = some entry := List.lookup_cons_self
  rw [get?, if_neg h, set, List.lookup_append, lookup_filter_self, Option.none_or, hlast]

/-- Only the place itself changes. -/
theorem get?_set_of_ne (tree : FileTree) {names other : List String} (h : other ≠ names)
    (entry : FileEntry) : (tree.set names entry).get? other = tree.get? other := by
  have hlast : [(names, entry)].lookup other = none := by
    rw [List.lookup_cons, beq_false_of_ne h]
    rfl
  rw [get?, get?, set, List.lookup_append, lookup_filter_of_ne h, hlast, Option.or_none]

/-- Puts an entry below the directory `above` and makes the directories that lead to it. -/
def plant (tree : FileTree) (above : List String) : List String → FileEntry → FileTree
  | [], _ => tree
  | [name], entry => tree.set (above ++ [name]) entry
  | name :: next :: rest, entry =>
    (tree.set (above ++ [name]) .directory).plant (above ++ [name]) (next :: rest) entry

/-- All files below the working directory with the names that lead to them from there. -/
def files (tree : FileTree) : List (List String × ByteArray) :=
  tree.entries.filterMap fun (names, entry) =>
    match entry with
    | .directory => none
    | .file bytes =>
      if tree.workingDirectory.isPrefixOf names then
        some (names.drop tree.workingDirectory.length, bytes)
      else none

/-- A path: where it starts, the names on its way, and whether it must be a directory because it
ends with a slash. -/
structure Path where
  absolute : Bool
  names : List String
  slashed : Bool

/-- Reads a path. Repeated slashes count as one. -/
def Path.of (text : String) : Path where
  absolute := text.toList.head? = some '/'
  names := (text.splitOn "/").filter (· ≠ "")
  slashed := text.toList.getLast? = some '/'

def isTooLong (name : String) : Bool :=
  255 < name.utf8ByteSize

/-- What `name` stands for in a directory. -/
def look (tree : FileTree) (directory : List String) (name : String) :
    Except FileError (List String × Option FileEntry) :=
  if isTooLong name then .error .nameTooLong
  else .ok (directory ++ [name], tree.get? (directory ++ [name]))

theorem look_eq_ok_iff {tree : FileTree} {directory names : List String} {name : String}
    {entry : Option FileEntry} :
    tree.look directory name = .ok (names, entry) ↔
      isTooLong name = false ∧ names = directory ++ [name] ∧ entry = tree.get? names := by
  rw [look]
  cases isTooLong name with
  | true => simp
  | false =>
    simp only [Bool.false_eq_true, if_false, Except.ok.injEq, Prod.mk.injEq, true_and]
    constructor
    · rintro ⟨rfl, rfl⟩
      exact ⟨rfl, rfl⟩
    · rintro ⟨rfl, rfl⟩
      exact ⟨rfl, rfl⟩

/-- Goes into the directory `name`. Above the root is the root again. -/
def enter (tree : FileTree) (directory : List String) (name : String) :
    Except FileError (List String) :=
  if name = "." then .ok directory
  else if name = ".." then .ok directory.dropLast
  else
    match tree.look directory name with
    | .error e => .error e
    | .ok (_, none) => .error .notFound
    | .ok (_, some (.file _)) => .error .notDirectory
    | .ok (names, some .directory) => .ok names

/-- The last name of a path in the directory that leads to it; nothing if the path ends in a
directory by its form. -/
def locate (tree : FileTree) (text : String) :
    Except FileError (Path × Option (List String × String)) :=
  if text.toList.contains '\x00' then .error .nulInPath
  else if 4096 ≤ text.utf8ByteSize then .error .nameTooLong
  else
    let path := Path.of text
    let start := if path.absolute then [] else tree.workingDirectory
    match path.names.dropLast.foldlM tree.enter start with
    | .error e => .error e
    | .ok directory =>
      match path.names.getLast? with
      | none => .ok (path, none)
      | some name =>
        if name = "." ∨ name = ".." then .ok (path, none) else .ok (path, some (directory, name))

def read (tree : FileTree) (text : String) : Except FileError ByteArray :=
  match tree.locate text with
  | .error e => .error e
  | .ok (_, none) => .error .isDirectory
  | .ok (path, some (directory, name)) =>
    match tree.look directory name with
    | .error e => .error e
    | .ok (_, none) => .error .notFound
    | .ok (_, some .directory) => .error .isDirectory
    | .ok (_, some (.file bytes)) => if path.slashed then .error .notDirectory else .ok bytes

/-- The place in the tree that is written at a path. A file that is not there yet is made, but no
directory is. -/
def target (tree : FileTree) (text : String) : Except FileError (List String) :=
  match tree.locate text with
  | .error e => .error e
  | .ok (_, none) => .error .isDirectory
  | .ok (path, some (directory, name)) =>
    if path.slashed then .error .isDirectory
    else
      match tree.look directory name with
      | .error e => .error e
      | .ok (_, some .directory) => .error .isDirectory
      | .ok (names, _) => .ok names

def write (tree : FileTree) (text : String) (bytes : ByteArray) : Except FileError FileTree :=
  (tree.target text).map fun names => tree.set names (.file bytes)

/-- Reads a file, if the system does not refuse that. -/
def readUnless (tree : FileTree) (refusals : Refusals) (text : String) :
    Except FileError ByteArray :=
  match refusals.reading text with
  | some e => .error e
  | none => tree.read text

/-- Writes a file, if the system does not refuse that. -/
def writeUnless (tree : FileTree) (refusals : Refusals) (text : String) (bytes : ByteArray) :
    Except FileError FileTree :=
  match refusals.writing text with
  | some e => .error e
  | none => tree.write text bytes

end FileTree

end LuaGlue
