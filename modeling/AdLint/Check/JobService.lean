import AdLint.Finding
import AdLint.Project.Hierarchy

/-!
# Fields of job services

The fields of a job service are initialized when the system makes the service, before it starts a
job. On an older version of the module that is enough to load a class that does not exist there. So
an initializer may be a literal, a constant or a class literal, but must not run code.
-/

namespace AdLint.JobService

/-- The class that job services extend. -/
def baseClass : String := "JobService"

/-- The finding about a field of a service, if its initializer runs code. -/
def finding? (service field : Declaration) : Option Finding := do
  let value ← field.initializer
  if value.isInert then none
  else
    let what := value.describe
    some { Finding.ofRule .eagerJobServiceField field.location
      (service.name ++ "." ++ field.name) with
      message :=
        s!"Field '{field.name}' of JobService '{service.name}' is initialized with a {what}; " ++
          "move it into onStartJob or make it lazy" }

/-- The job services of a project. -/
def services (p : Project) : List Declaration :=
  p.types.filter fun d => d.kind == .classType && p.isSubtypeOf d baseClass

/-- The findings about the job services of a project. -/
def findings (p : Project) : List Finding :=
  (services p).flatMap fun service => (p.fieldsOf service).filterMap (finding? service)

end AdLint.JobService
