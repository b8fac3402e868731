import Downhill.Run
import Downhill.SettingsText

namespace Downhill

/-- Numbers as a list on one line. -/
def seriesText {places : Nat} (values : Vector Float places) : String :=
  Json.compactList (values.toList.map fun v => (Double.ofFloat v).text .stored)

/-- All series as one object on one line. -/
def History.toText {places : Nat} (h : History Float places) : String :=
  Json.compactObject (h.series.entries.map fun e => (e.1, seriesText e.2))

/-- The contents of files by name. In a blocked folder there can be none. -/
structure Folder where
  blocked : Bool
  files : Named String

namespace Folder

def empty : Folder where
  blocked := false
  files := ∅

/-- Where something else has the name of the folder. -/
def unusable : Folder where
  blocked := true
  files := ∅

/-- The longest name of a file, in bytes. -/
def maxNameSize : Nat :=
  255

/-- A file is named by one component of a path. -/
def accepts (folder : Folder) (name : String) : Bool :=
  !folder.blocked && !name.toList.contains '/' && !name.toList.contains (Char.ofNat 0) &&
    decide (name.utf8ByteSize ≤ maxNameSize)

/-- Files written one after another, up to the first whose name cannot be used. -/
def write (folder : Folder) : List (String × String) → Folder × Except (Failure Float) Unit
  | [] => (folder, .ok ())
  | (name, text) :: rest =>
    if folder.accepts name then { folder with files := folder.files.insert name text }.write rest
    else (folder, .error .unstorable)

/-- The files of a record: the series in the order of their names, then the settings. -/
def record {places : Nat} (h : History Float places) (settings : Settings Float) :
    List (String × String) :=
  h.series.entries.map (fun e => (e.1 ++ ".json", seriesText e.2)) ++
    [("params.json", settings.toText)]

/-- The recorder that keeps its record in a folder. -/
def recorder : Recorder Float Folder where
  store h settings folder :=
    let written := folder.write (record h settings)
    (written.1, written.2.map fun _ => [.stored h.series.size])

end Folder

end Downhill
