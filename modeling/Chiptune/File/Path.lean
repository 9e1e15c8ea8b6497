/-!
# File — Paths

A path is a text of parts with slashes between them.  Its file name is the last part that is not
empty or a lone dot; the extension of a name is what follows its last dot, unless that dot comes
first.  `withExtension` puts another extension in its place, and drops the slashes and lone dots
after the name.
-/

namespace Chiptune
namespace Path

/-- The path without slashes and lone dots at its end, reversed; nothing is left of a path that has
no other parts. -/
def trimReversed : List Char → List Char
  | '/' :: rest => trimReversed rest
  | '.' :: '/' :: rest => trimReversed ('/' :: rest)
  | ['.'] => []
  | path => path

/-- The part of a path up to the end of its last part, and that part, unless it names the directory
above. -/
def lastPart? (path : List Char) : Option (List Char × List Char) :=
  let body := trimReversed path.reverse
  let name := (body.takeWhile (· ≠ '/')).reverse
  if name.isEmpty ∨ name = ['.', '.'] then none else some (body.reverse, name)

/-- The extension of a file name. -/
def extension? (name : List Char) : Option (List Char) :=
  let reversed := name.reverse
  let tail := reversed.takeWhile (· ≠ '.')
  if reversed.length ≤ tail.length + 1 then none else some tail.reverse

/-- Give a path's file name another extension, in place of the one it has. -/
def setExtension (path extension : List Char) : List Char :=
  match lastPart? path with
  | none => path
  | some (body, name) =>
    let kept := match extension? name with
      | some old => body.take (body.length - old.length - 1)
      | none => body
    kept ++ '.' :: extension

/-- The path with another extension.  As many characters as the old extension has are cut off the
end first; that matters only when nothing but a dot is left in front of them, which then is the name
of the directory above and takes no extension. -/
def withExtension (path extension : String) : String :=
  let chars := path.toList
  let cut := match lastPart? chars with
    | none => chars
    | some (_, name) =>
      match extension? name with
      | some old => chars.take (chars.length - old.length)
      | none => chars
  String.ofList (setExtension cut extension.toList)

end Path
end Chiptune
