import SourceBundle.Path.Order

/-!
# File name extensions

The extension of a path is what follows the last dot of its last name, unless that dot is the
name's first character.
-/

namespace SourceBundle.Path

/-- The last name of a path that names an entry: empty names and single dots do not count, and a
path that ends in two dots names none. -/
def fileName? (path : Text) : Option Text :=
  match ((components path).filter fun name => !name.isEmpty && name != ['.']).getLast? with
  | none => none
  | some name => if name = ['.', '.'] then none else some name

/-- What follows the last dot of a name whose last dot is not its first character. -/
def extensionOfName? (name : Text) : Option Text :=
  match name.beforeLast? '.' with
  | none => none
  | some [] => none
  | some stem => some (name.drop (stem.length + 1))

/-- The extension of a path, without the dot. -/
def extension? (path : Text) : Option Text := (fileName? path).bind extensionOfName?

end SourceBundle.Path
