/-!
# Paths

Slash-separated paths as texts. Empty parts and single dots inside a path stand for nothing.
-/

set_option autoImplicit false

namespace ClusterScaler.Path

/-- Whether a path starts at the root. -/
def isAbsolute (p : String) : Bool := p.startsWith "/"

/-- A relative path seen from a directory; an absolute path stays as it is. -/
def join (base p : String) : String :=
  if isAbsolute p || base.isEmpty then p
  else if base.endsWith "/" then base ++ p
  else base ++ "/" ++ p

/-- The text between slashes, in order, empty parts included. -/
def pieces (p : String) : List String := p.splitOn "/"

/-- Whether a part of a path inside it stands for nothing. -/
def isIdle (part : List Char) : Bool := part.isEmpty || part == ['.']

/-- The characters before the last part of a path, without the slashes and idle parts at their
end, and that part. Both are given in reading order. -/
def splitLast (cs : List Char) : List Char × List Char :=
  go cs.length cs.reverse
where
  /-- Work on the reversed path: take its last part, skipping idle ones. -/
  go : Nat → List Char → List Char × List Char
    | 0, r => (r.reverse, [])
    | fuel + 1, r =>
      let part := r.takeWhile (· != '/')
      let before := r.drop part.length
      match before with
      | [] => ([], part.reverse)
      | _ :: more =>
        if isIdle part.reverse then
          if more.isEmpty then (['/'], []) else go fuel more
        else (before.reverse, part.reverse)

/-- Drop slashes and idle parts from the end of a path, but not the root. -/
def trimEnd (cs : List Char) : List Char :=
  go cs.length cs.reverse
where
  /-- Work on the reversed path. -/
  go : Nat → List Char → List Char
    | 0, r => r.reverse
    | fuel + 1, r =>
      let part := r.takeWhile (· != '/')
      match r.drop part.length with
      | [] => r.reverse
      | _ :: more =>
        if isIdle part then
          if more.isEmpty then ['/'] else go fuel more
        else r.reverse

/-- The path without its last part; `none` for the root and the empty path. -/
def parent? (p : String) : Option String :=
  let cs := trimEnd p.toList
  if cs.isEmpty || cs == ['/'] then none
  else
    let (before, _) := splitLast cs
    some (String.ofList (trimEnd before))

/-- The last part of a path; `none` where it names no entry of a directory. -/
def fileName? (p : String) : Option String :=
  let cs := trimEnd p.toList
  let (_, part) := splitLast cs
  if part.isEmpty || part == ['.'] || part == ['.', '.'] then none else some (String.ofList part)

/-- A file name without its extension: what stands before the last dot that is not its first
character. -/
def stem (name : String) : String :=
  let r := name.toList.reverse
  let ext := r.takeWhile (· != '.')
  match r.drop ext.length with
  | [] => name
  | _ :: before => if before.isEmpty || name == ".." then name else String.ofList before.reverse

/-- The path with the extension of its last part replaced. -/
def withExtension (p ext : String) : String :=
  match fileName? p with
  | none => p
  | some name =>
    let cs := trimEnd p.toList
    let front := cs.take (cs.length - name.length)
    String.ofList front ++ stem name ++ "." ++ ext

end ClusterScaler.Path
