import AdLint.Finding
import AdLint.Project.Constant
import AdLint.Room.MigrationPath
import AdLint.Settings.Basic

/-!
# One Room database

What is learned about a database class on its own: the version in its version field, the version in
its annotation, the declared migrations, and the rules it breaks.

Only what is known without running the program is judged. If an operand of a migration or a version
is not known, the migrations are left alone.

## Main definitions

* `DatabaseReport`: what was learned about a database
* `Database.inspect`: the report on a class
-/

namespace AdLint

/-- What was learned about a database class. -/
structure DatabaseReport where
  /-- The version in the version field, if there is one and its value is known. -/
  fieldVersion : Option Int := none
  /-- The version in the annotation, if its value is known. -/
  annotatedVersion : Option Int := none
  /-- The declared migrations, if there are any and all are known. -/
  migrations : Option (List MigrationStep) := none
  findings : List Finding := []
  deriving Repr, Inhabited

/-- The version that the migrations must reach. -/
def DatabaseReport.target? (r : DatabaseReport) : Option Int :=
  r.fieldVersion.or r.annotatedVersion

namespace Database

/-- The version field of a class, in its body or in a companion object. -/
def versionField? (p : Project) (room : RoomSettings) (cls : Declaration) : Option Declaration :=
  (p.fieldsOf cls).find? fun f => f.name == room.versionField

/-- The migration that an annotation declares, if both versions are known. -/
def step? (p : Project) (cls : Declaration) (a : Annot) : Option MigrationStep := do
  let source ← p.evaluateInt? (some cls) (← a.argumentAt? "from" 0).value
  let target ← p.evaluateInt? (some cls) (← a.argumentAt? "to" 1).value
  some ⟨source, target⟩

/-- The migration that an item of the list declares. -/
def itemStep? (p : Project) (room : RoomSettings) (cls : Declaration) : Expr → Option MigrationStep
  | .annot a => if a.named room.migrationAnnotation then step? p cls a else none
  | _ => none

/-- The migrations that the argument for them declares; none if any of them is not known. -/
def steps? (p : Project) (room : RoomSettings) (cls : Declaration) :
    Expr → Option (List MigrationStep)
  | .array items => items.mapM (itemStep? p room cls)
  | .annot a => [Expr.annot a].mapM (itemStep? p room cls)
  | _ => none

/-- The finding about a missing annotation. -/
def unannotated (cls : Declaration) (a : Option Annot) : List Finding :=
  if a.isNone then [.ofRule .databaseUnannotated cls.location cls.name] else []

/-- The finding about a missing version field. -/
def fieldMissing (room : RoomSettings) (cls : Declaration) (field : Option Declaration) :
    List Finding :=
  if field.isNone then
    [{ Finding.ofRule .versionFieldMissing cls.location cls.name with
        message := s!"Room database '{cls.name}' must declare a {room.versionField} constant" }]
  else []

/-- The finding about a schema that is not exported. -/
def notExported (p : Project) (cls : Declaration) (a : Annot) : List Finding :=
  match a.argument? "exportSchema" with
  | some argument =>
    if (p.evaluate? (some cls) argument.value).bind Constant.asTruth? == some false then
      [.ofRule .schemaNotExported argument.location cls.name]
    else []
  | none => []

/-- The finding about two versions that differ. -/
def disagreeing (room : RoomSettings) (cls : Declaration) (version : Option Argument)
    (annotated field : Option Int) : List Finding :=
  match version, annotated, field with
  | some argument, some annotated, some field =>
    if annotated != field then
      [{ Finding.ofRule .versionsDisagree argument.location cls.name with
          message :=
            s!"@Database version of '{cls.name}' is {annotated} " ++
              s!"but {room.versionField} is {field}" }]
    else []
  | _, _, _ => []

/-- The finding about migrations that are not declared at all. -/
def undeclared (cls : Declaration) (a : Annot) (target : Int) : List Finding :=
  if 1 < target then
    [{ Finding.ofRule .migrationsMissing a.location cls.name with
        message :=
          s!"Room database '{cls.name}' is at version {target} but declares no autoMigrations" }]
  else []

/-- The finding about migrations that do not lead to the version. -/
def broken (cls : Declaration) (argument : Argument) (steps : Option (List MigrationStep))
    (target : Int) : List Finding :=
  match steps.bind fun steps => MigrationPath.defect? steps target with
  | some defect =>
    let reason := defect.message
    [{ Finding.ofRule .migrationPathBroken argument.location cls.name with
        message :=
          s!"autoMigrations of '{cls.name}' do not reach version {target}: {reason}" }]
  | none => []

/-- The report on a class. -/
def inspect (p : Project) (room : RoomSettings) (cls : Declaration) : DatabaseReport :=
  let annotation? := cls.annotationNamed? room.databaseAnnotation
  let field? := versionField? p room cls
  let fieldVersion := (field?.bind fun f => f.initializer).bind (p.evaluateInt? (some cls))
  let start := unannotated cls annotation? ++ fieldMissing room cls field?
  match annotation? with
  | none => { fieldVersion, findings := start }
  | some a =>
    let version := a.argument? "version"
    let annotatedVersion := version.bind fun argument => p.evaluateInt? (some cls) argument.value
    let start := start ++ notExported p cls a ++
      disagreeing room cls version annotatedVersion fieldVersion
    let report : DatabaseReport := { fieldVersion, annotatedVersion, findings := start }
    match report.target?, a.argument? "autoMigrations" with
    | none, _ => report
    | some target, none => { report with findings := start ++ undeclared cls a target }
    | some target, some argument =>
      let migrations := steps? p room cls argument.value
      { report with migrations, findings := start ++ broken cls argument migrations target }

end Database

end AdLint
