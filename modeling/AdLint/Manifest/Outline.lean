import AdLint.Declaration
import AdLint.Manifest.Markup

/-!
# The outline of a manifest

A manifest contributes its package and the components of its application.

## Main definitions

* `Survey`, `Survey.step`: what was seen up to a tag
* `outline`: the outline of a manifest
-/

namespace AdLint.Manifest

/-- The elements that list a component. -/
def componentTags : List String := ["activity", "activity-alias", "service", "receiver", "provider"]

/-- What was seen up to a tag. -/
structure Survey where
  package : Option String := none
  /-- Whether the tag stands in the application. -/
  inApplication : Bool := false
  components : List ManifestComponent := []
  deriving Inhabited

/-- The class of a component. A name that starts with a dot, or has none, belongs to the package of
the manifest. -/
def qualify (package : Option String) (name : String) : String :=
  match package with
  | some package =>
    if Text.beginsWith name "." then package ++ name
    else if name != "" && !name.toList.contains '.' then package ++ "." ++ name
    else name
  | none => name

/-- The component that a tag lists. -/
def componentOf (path : Path) (package : Option String) (tag : Tag) : ManifestComponent :=
  { tag := tag.name
    name :=
      ((tag.attribute? "android:name").or (tag.attribute? "android:targetActivity")).map
        (qualify package)
    process := tag.attribute? "android:process"
    ignored :=
      match tag.attribute? "tools:ignore" with
      | some rules => (Text.splitAt ',' rules).map Text.trim
      | none => []
    location := Source.locate { path, text := "" } tag.span tag.span }

/-- What was seen after one more tag. -/
def Survey.step (path : Path) (s : Survey) : Piece → Survey
  | .opening tag =>
    if tag.name == "manifest" then { s with package := tag.attribute? "package" }
    else if tag.name == "application" then { s with inApplication := !tag.isEmpty }
    else if s.inApplication && componentTags.contains tag.name then
      { s with components := s.components ++ [componentOf path s.package tag] }
    else s
  | .closing name => if name == "application" then { s with inApplication := false } else s
  | .other => s

/-- The outline of a manifest. -/
def outline (path : Path) (text : String) : Except MarkupError Outline := do
  let survey := (← pieces text).foldl (Survey.step path) {}
  return { file := { path, language := .xml, package := survey.package }
           components := survey.components }

end AdLint.Manifest
