import SentenceEngine.Config.File

/-!
# Folders

Files and folders form a tree, through which a path is walked part by part. Relative paths start at
a working folder, whose files are given by their names. It has no name itself and lies in the folder
for temporary files of a system in which nothing is known beyond what such systems agree on.
-/

namespace SentenceEngine

/-- What a name in a folder stands for. -/
inductive Entry where
  | file (text : String)
  | folder (entries : List (String × Entry))

/-- What is in a folder, by names. -/
abbrev Entries := List (String × Entry)

/-! ## Paths -/

namespace Folder

/-- The parts of a path between slashes, without those that stay in place. -/
def parts (path : String) : List String :=
  (path.splitToList (· == '/')).filter fun part => part != "" && part != "."

/-- Whether a path can only mean a folder. -/
def meansFolder (path : String) : Bool := path.endsWith "/" || path.endsWith "/."

end Folder

namespace Entries

/-- Puts something at the end of a path, in place of what was there; folders on the way that are
missing are made. -/
def put (entry : Entry) : List String → Entries → Entries
  | [], entries => entries
  | [name], entries => (name, entry) :: entries.filter (·.1 != name)
  | name :: rest, entries =>
    let inner := match entries.lookup name with
      | some (.folder inner) => inner
      | _ => []
    (name, .folder (put entry rest inner)) :: entries.filter (·.1 != name)

/-- What the parts of a path lead to. The walk is in one folder, and those above it are known, the
nearest first; nothing is above the root. A name has 255 bytes at most. -/
def walk (onlyFolder : Bool) (here : Entries) (above : List Entries) : List String → FileContent
  | [] => .error .isADirectory
  | ".." :: rest =>
    match above with
    | [] => walk onlyFolder here [] rest
    | outer :: above => walk onlyFolder outer above rest
  | name :: rest =>
    match here.lookup name with
    | some (.folder inner) => walk onlyFolder inner (here :: above) rest
    | some (.file text) =>
      if rest.isEmpty && !onlyFolder then .ok text else .error .notADirectory
    | none => .error (if 255 < name.utf8ByteSize then .nameTooLong else .notFound)

end Entries

/-! ## The system -/

/-- Folders that systems have in common; those in front hold those behind. -/
def standardFolders : List String :=
  ["/bin", "/boot", "/dev", "/dev/pts", "/dev/shm", "/etc", "/home", "/lib", "/media", "/mnt",
    "/opt", "/proc", "/root", "/run", "/sbin", "/srv", "/sys", "/tmp", "/usr", "/usr/bin",
    "/usr/lib", "/usr/local", "/usr/local/bin", "/usr/sbin", "/usr/share", "/var", "/var/cache",
    "/var/lib", "/var/log", "/var/tmp"]

/-- Files that systems have in common, with their text as far as it is the same: the device that is
always empty, and the table of users. -/
def standardFiles : List (String × String) :=
  [("/dev/null", ""), ("/etc/passwd", "root:x:0:0:")]

/-- What is at the root of a system. -/
def systemRoot : Entries :=
  let folders := standardFolders.foldl (fun entries path =>
    Entries.put (.folder []) (Folder.parts path) entries) []
  standardFiles.foldl (fun entries file =>
    Entries.put (.file file.2) (Folder.parts file.1) entries) folders

/-- The files of a working folder, with their names. Two names can mean the same file, which then
has the later text. -/
structure Folder where
  files : List (String × String)

namespace Folder

/-- What is in a folder. -/
def entries (folder : Folder) : Entries :=
  folder.files.foldl (fun entries file =>
    Entries.put (.file file.2) (parts file.1) entries) []

/-- What a path leads to. A path has less than 4096 bytes. -/
def read (folder : Folder) (path : String) : FileContent :=
  let onlyFolder := meansFolder path
  if path = "" then .error .notFound
  else if 4096 ≤ path.utf8ByteSize then .error .nameTooLong
  else if path.startsWith "/" then Entries.walk onlyFolder systemRoot [] (parts path)
  else Entries.walk onlyFolder folder.entries [[], systemRoot] (parts path)

end Folder
end SentenceEngine
