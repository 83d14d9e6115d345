import AdLint.Text.LetterCase
import AdLint.Text.Blank

/-!
# Type names

A type is written with its package, its type arguments, a nullable mark or array brackets in free
layout. Most checks compare types by their simple name, which is what is left when all of that is
taken off.
-/

namespace AdLint.TypeName

/-- A written type without type arguments, nullable marks and array brackets. -/
def bare (written : String) : List Char :=
  let beforeArguments := written.toList.takeWhile fun c => c != '<'
  let unmarked := Text.dropEndWhile (fun c => c == '?') (Text.trimChars beforeArguments)
  Text.dropEndAll ['[', ']'] unmarked

/-- The simple name of a written type: `androidx.room.RoomDatabase` is `RoomDatabase`, and
`List<Foo>?` is `List`. -/
def simple (written : String) : String :=
  String.ofList (Text.trimChars (Text.afterLast '.' (Text.trimChars (bare written))))

end AdLint.TypeName
