import AdLint.Project.Hierarchy
import AdLint.Room.Database
import AdLint.Room.Registration

/-!
# The Room scan

The scan of the Room databases of a project runs in two phases. The first inspects each database on
its own and puts it on a list. The second runs only if the list has an entry, and compares the list
with the registration class.

## Main definitions

* `RoomScan`, `RoomScan.step`: a scan under way, and its next phase
* `RoomScan.run`: the findings of a scan
-/

namespace AdLint

/-- Where a scan is. -/
inductive ScanPhase where
  | collect
  | verify
  | done
  deriving DecidableEq, Repr, Inhabited

/-- The word for a phase. -/
def ScanPhase.label : ScanPhase → String
  | collect => "collect"
  | verify => "verify"
  | done => "done"

/-- A scan under way. -/
structure RoomScan where
  project : Project
  room : RoomSettings
  phase : ScanPhase := .collect
  /-- The databases found. -/
  databases : List Declaration := []
  findings : List Finding := []

namespace RoomScan

/-- A scan that has not begun. -/
def start (project : Project) (room : RoomSettings) : RoomScan := { project, room }

/-- The databases of a project: the classes below the base class. -/
def databasesOf (p : Project) (room : RoomSettings) : List Declaration :=
  p.types.filter fun d => d.kind == .classType && p.isSubtypeOf d room.baseClass

/-- The earliest of some databases by file and line, the first of equals. -/
def earliest? : List Declaration → Option Declaration
  | [] => none
  | d :: ds =>
    match earliest? ds with
    | none => some d
    | some e =>
      let order := (d.location.file.compare e.location.file).then
        (compare d.location.line e.location.line)
      some (if order == .gt then e else d)

/-- The finding about a missing registration class, at the earliest database. -/
def registrationMissing (room : RoomSettings) (databases : List Declaration) : List Finding :=
  match earliest? databases with
  | some first =>
    let count := databases.length
    [{ Finding.ofRule .registrationMissing first.location room.registrationClass with
        message :=
          s!"Database registration class '{room.registrationClass}' was not found; " ++
            s!"{count} Room database(s) cannot be verified" }]
  | none => []

/-- The finding about a database that is not registered. -/
def unregistered (room : RoomSettings) (database : Declaration) : Finding :=
  { Finding.ofRule .databaseUnregistered database.location database.name with
    message :=
      s!"Room database '{database.name}' is not registered in {room.registrationClass}" }

/-- Whether the registration class lists a database. -/
def isRegistered (p : Project) (r : Registration) (database : Declaration) : Bool :=
  r.registers database.name ((p.find? database.id).bind p.qualifiedName?)

/-- The findings of the second phase. -/
def verified (p : Project) (room : RoomSettings) (databases : List Declaration) : List Finding :=
  let registration := Registration.collect p room.registrationClass
  if registration.isFound then
    (databases.filter fun d => !isRegistered p registration d).map (unregistered room)
  else registrationMissing room databases

/-- The scan after its next phase. -/
def step (s : RoomScan) : RoomScan :=
  match s.phase with
  | .collect =>
    let databases := s.databases ++ databasesOf s.project s.room
    let reports := (databasesOf s.project s.room).map (Database.inspect s.project s.room)
    { s with
      phase := if databases.isEmpty then .done else .verify
      databases
      findings := s.findings ++ reports.flatMap fun r => r.findings }
  | .verify =>
    { s with
      phase := .done
      findings := s.findings ++ verified s.project s.room s.databases }
  | .done => s

/-- The findings of the scan when all its phases are over. There are two of them. -/
def run (s : RoomScan) : List Finding := s.step.step.findings

end RoomScan

end AdLint
