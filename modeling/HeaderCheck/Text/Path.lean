/-!
# HeaderCheck.Text.Path

Slash-separated paths of sources and headers.

* `normalize`: removes `.` and empty segments and folds `..` into the segment before it.
* `isRequest`: tells a path apart from the bare name of a package.
* `resolve`: a request read against the directory of the file that makes it.
* `withDefaultExtension`: an extension for a last segment that has none.
-/

namespace HeaderCheck.Text

/-- The pieces of `cs` between separators; `n` separators give `n + 1` pieces. -/
def pieces (sep : Char) : List Char → List (List Char)
  | [] => [[]]
  | c :: cs =>
    if c = sep then [] :: pieces sep cs
    else
      match pieces sep cs with
      | [] => [[c]]
      | piece :: rest => (c :: piece) :: rest

/-- Concatenate `parts` with `sep` between neighbours. -/
def join (sep : List Char) : List (List Char) → List Char
  | [] => []
  | [part] => part
  | part :: rest => part ++ sep ++ join sep rest

theorem pieces_ne_nil (sep : Char) (cs : List Char) : pieces sep cs ≠ [] := by
  cases cs with
  | nil => simp [pieces]
  | cons c cs =>
    simp only [pieces]
    split
    · simp
    · split <;> simp

/-- Joining the pieces at the separator gives the text back. -/
theorem join_pieces (sep : Char) (cs : List Char) : join [sep] (pieces sep cs) = cs := by
  induction cs with
  | nil => rfl
  | cons c cs ih =>
    by_cases h : c = sep
    · subst h
      cases hp : pieces c cs with
      | nil => exact absurd hp (pieces_ne_nil c cs)
      | cons p rest =>
        rw [hp] at ih
        simp [pieces, join, hp, ih]
    · cases hp : pieces sep cs with
      | nil => exact absurd hp (pieces_ne_nil sep cs)
      | cons p rest =>
        rw [hp] at ih
        cases rest with
        | nil => simpa [pieces, h, hp, join] using ih
        | cons q rest => simpa [pieces, h, hp, join] using ih

end HeaderCheck.Text

namespace HeaderCheck.Path

open HeaderCheck.Text

def slash : Char := '/'

def isAbsolute (path : String) : Bool :=
  match path.toList with
  | c :: _ => c == slash
  | [] => false

/-- Add one segment to the kept segments, which are held last one first. -/
def pushSegment (absolute : Bool) (kept : List (List Char)) (segment : List Char) :
    List (List Char) :=
  if segment = [] ∨ segment = ['.'] then kept
  else if segment = ['.', '.'] then
    match kept with
    | last :: rest =>
      if last = ['.', '.'] then (if absolute then kept else segment :: kept) else rest
    | [] => if absolute then [] else [segment]
  else segment :: kept

/-- The kept segments of a path, in order. -/
def segments (absolute : Bool) (parts : List (List Char)) : List (List Char) :=
  (parts.foldl (pushSegment absolute) []).reverse

/-- Collapse `.` and `..` segments and repeated separators. An absolute path never climbs above
its root; a relative one keeps the leading `..` segments it cannot fold. -/
def normalize (path : String) : String :=
  let absolute := isAbsolute path
  let joined := join [slash] (segments absolute (pieces slash path.toList))
  String.ofList (if absolute then slash :: joined else joined)

/-- Whether a module request is a relative or absolute path rather than a bare package name. -/
def isRequest (request : String) : Bool :=
  let cs := request.toList
  ['.', '/'].isPrefixOf cs || ['.', '.', '/'].isPrefixOf cs || ['/'].isPrefixOf cs

/-- The text before the last separator, if there is one. -/
def directory? (path : String) : Option (List Char) :=
  match (pieces slash path.toList).dropLast with
  | [] => none
  | parts => some (join [slash] parts)

/-- Resolve `request` against the directory that contains `file`. -/
def resolve (file request : String) : String :=
  if isAbsolute request then normalize request
  else
    let dir := (directory? file).getD ['.']
    normalize (String.ofList (dir ++ slash :: request.toList))

/-- Append `.ext` unless the last segment has a dot already. -/
def withDefaultExtension (path ext : String) : String :=
  let file := (pieces slash path.toList).getLastD []
  if file.contains '.' then path else path ++ "." ++ ext

end HeaderCheck.Path
