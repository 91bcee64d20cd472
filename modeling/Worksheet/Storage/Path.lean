/-!
# Paths

A path is a sequence of components with slashes between them. Empty components and single dots
change nothing. The extension of a file name is what follows its last dot, unless nothing stands
before that dot.

## Main definitions

* `Path.components`: The components that matter.
* `Path.asksForDirectory`: Whether a path can only name a directory.
* `Path.fileName?`: The last component, if it can name a file.
* `Path.extension?`: The extension of the file name.
-/

namespace Worksheet

namespace Path

/-- The pieces of a list between elements that satisfy a test. -/
def splitBy (test : Char → Bool) : List Char → List (List Char)
  | [] => [[]]
  | c :: rest =>
    if test c then [] :: splitBy test rest
    else
      match splitBy test rest with
      | [] => [[c]]
      | piece :: later => (c :: piece) :: later

/-- The components of a path, those apart that change nothing. -/
def components (path : String) : List (List Char) :=
  (splitBy (· = '/') path.toList).filter fun c => c ≠ [] ∧ c ≠ ['.']

/-- Whether a path can only name a directory, because it has a slash at its end. -/
def asksForDirectory (path : String) : Bool := path.toList.getLast? == some '/'

/-- The last component, if it can name a file. -/
def fileName? (path : String) : Option (List Char) :=
  (components path).getLast?.filter (· ≠ ['.', '.'])

/-- The extension of a file name: what follows its last dot, if something stands before it. -/
def extensionOf? (name : List Char) : Option (List Char) :=
  match name.reverse.dropWhile (· ≠ '.') with
  | _ :: _ :: _ => some (name.reverse.takeWhile (· ≠ '.')).reverse
  | _ => none

/-- The extension of the file that a path names. -/
def extension? (path : String) : Option (List Char) := (fileName? path).bind extensionOf?

end Path

end Worksheet
