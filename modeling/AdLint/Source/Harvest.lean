import AdLint.Declaration
import AdLint.Source.Place

/-!
# What a visit of a tree yields

The outline of a file is put together from what its parts yield, in the order of the text.
-/

namespace AdLint

/-- What a part of a file yields. -/
structure Harvest where
  package : Option String := none
  imports : List Import := []
  declarations : List Declaration := []
  calls : List Call := []
  deriving Inhabited

namespace Harvest

/-- What two parts yield, one after the other. The last package counts. -/
def append (a b : Harvest) : Harvest :=
  { package := b.package.or a.package
    imports := a.imports ++ b.imports
    declarations := a.declarations ++ b.declarations
    calls := a.calls ++ b.calls }

instance : Append Harvest := ⟨append⟩

/-- The outline of a file that yields this. -/
def toOutline (h : Harvest) (path : Path) (language : Language) : Outline :=
  { file := { path, language, package := h.package, imports := h.imports }
    declarations := h.declarations
    calls := h.calls }

end Harvest

/-- The identifier of a declaration on a span. -/
def Source.identify (s : Source) (span : Span) : DeclarationId :=
  ⟨s.path, span.start.byte, span.stop⟩

end AdLint
