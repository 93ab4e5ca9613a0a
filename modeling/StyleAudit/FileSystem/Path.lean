/-
Module: StyleAudit.FileSystem.Path
Purpose: Paths as sequences of names, and the lookups that are paths.
Trusted boundary: none
Main exports: Path, Path.ofText, Path.literal, Path.display, Path.join, Path.parent,
  Text.fileName, isPathLookup, modulePath
-/
import StyleAudit.Text.Blank

namespace StyleAudit

/-!
### Paths

A path is a start and a list of names.  Empty names and single dots are dropped
when a path is read; double dots stay, since what they mean depends on links.
Two leading slashes are a start of their own, distinct from one or from more.
-/

/-- Where a path starts. -/
inductive Anchor where
  | relative
  | root
  | doubleRoot
deriving DecidableEq, Repr

/-- A start and the names behind it. -/
structure Path where
  anchor : Anchor
  parts : List Text
deriving DecidableEq, Repr

namespace Path

/-- The name that stays where it is. -/
def dot : Text := "."

/-- The name that leads to the directory above. -/
def doubleDot : Text := ".."

/-- The start that leading slashes denote. -/
def anchorOf : List CodePoint → Anchor
  | [.char '/', .char '/'] => .doubleRoot
  | .char '/' :: .char '/' :: p :: _ => if p = .char '/' then .root else .doubleRoot
  | .char '/' :: _ => .root
  | _ => .relative

/-- The names between slashes that are neither empty nor a dot. -/
def partsOf (text : Text) : List Text :=
  (text.splitOn '/').filter fun part => !part.isEmpty && part != dot

/-- The path that a text denotes. -/
def ofText (text : Text) : Path :=
  ⟨anchorOf text.points, partsOf text⟩

/-- The path that a text denotes where a slash or a lone dot at its end asks for a directory:
a dot then stays as the last name. -/
def literal (text : Text) : Path :=
  let p := ofText text
  match (text.splitOn '/').getLast? with
  | some last =>
      if (last.isEmpty || last = dot) && !p.parts.isEmpty then ⟨p.anchor, p.parts ++ [dot]⟩ else p
  | none => p

/-- The path starts at the root. -/
def isAbsolute (p : Path) : Bool :=
  p.anchor ≠ .relative

/-- The slashes before the names. -/
def anchorText : Anchor → String
  | .relative => ""
  | .root => "/"
  | .doubleRoot => "//"

/-- A path as text; the path without start and names is a dot. -/
def display (p : Path) : Text :=
  if p.anchor = .relative && p.parts.isEmpty then dot
  else anchorText p.anchor ++ Text.intercalate "/" p.parts

/-- A path seen from a base; an absolute path does not depend on it. -/
def join (base other : Path) : Path :=
  if other.isAbsolute then other else ⟨base.anchor, base.parts ++ other.parts⟩

/-- The path with one more name. -/
def child (p : Path) (name : Text) : Path :=
  ⟨p.anchor, p.parts ++ [name]⟩

/-- The path without its last name. -/
def parent (p : Path) : Path :=
  ⟨p.anchor, p.parts.dropLast⟩

/-- The path above, links not followed.  Above a relative path without names, or with
nothing but double dots, stand further double dots. -/
def above (p : Path) : Path :=
  if p.anchor = .relative && (p.parts.getLast?.getD doubleDot) = doubleDot then p.child doubleDot
  else p.parent

/-- The last name; empty when there is none. -/
def name (p : Path) : Text :=
  p.parts.getLast?.getD ""

/-- The path with something added to its last name; there must be one. -/
def addSuffix? (p : Path) (suffix : Text) : Option Path :=
  p.parts.getLast?.map fun last => ⟨p.anchor, p.parts.dropLast ++ [last ++ suffix]⟩

/-- The last dot of a name and what follows it, unless the dot is the first or the
last character. -/
def suffixOf (name : Text) : Text :=
  let tail := (name.points.reverse.takeWhile (· != .char '.')).reverse
  if tail.isEmpty || name.length ≤ tail.length + 1 then "" else ⟨.char '.' :: tail⟩

/-- The suffix of the last name. -/
def suffix (p : Path) : Text :=
  suffixOf p.name

/-- The empty path. -/
def here : Path := ⟨.relative, []⟩

@[simp] theorem join_of_isAbsolute {base other : Path} (h : other.isAbsolute = true) :
    base.join other = other := by
  simp [join, h]

end Path

/-!
### Names in a file system

A file system knows names as bytes.  A character stands for its bytes, and each of the 128
halves of surrogate pairs from U+DC80 on for one byte beyond ASCII.  Any other half stands for
no byte, so a name that holds one is no name, and neither is one with the character that
ends names.
-/

/-- The byte that the first of those halves stands for. -/
def firstEscapedByte : Nat := 0x80

/-- The bytes that a code point stands for in a name. -/
def CodePoint.fileBytes? : CodePoint → Option (List UInt8)
  | .char c => if c = '\x00' then none else some (String.utf8EncodeChar c)
  | .surrogate place =>
      if 0x480 ≤ place.val ∧ place.val < 0x500 then
        some [UInt8.ofNat (firstEscapedByte + (place.val - 0x480))]
      else none

/-- The bytes of a name. -/
def Text.fileBytes? (name : Text) : Option (List UInt8) :=
  (name.points.mapM CodePoint.fileBytes?).map List.flatten

/-- The name with the same bytes that holds characters only, when there is one. -/
def Text.fileName (name : Text) : Text :=
  match name.fileBytes? with
  | some bytes =>
      match String.fromUTF8? ⟨bytes.toArray⟩ with
      | some plain => plain
      | none => name
  | none => name

/-- The number of bytes of a name. -/
def Text.byteSize (name : Text) : Nat :=
  match name.fileBytes? with
  | some bytes => bytes.length
  | none => 0

/-- The path holds a name that is none, and so names nothing. -/
def Path.isUnnameable (p : Path) : Bool :=
  p.parts.any fun part => part.fileBytes?.isNone

/-!
### Lookups

A lookup names a file when it starts with a dot or two and a slash of either kind,
or when it is an absolute path.  Any other lookup is a dotted module name; each of
its pieces is a path of its own, so a slash behind a dot starts over at the root.
-/

/-- The starts that make a lookup a path. -/
def pathLookupStarts : List String := ["./", "../", ".\\", "..\\"]

/-- The lookup names a file rather than a module. -/
def isPathLookup (lookup : Text) : Bool :=
  pathLookupStarts.any (fun start => (lookup.behind? start).isSome)
    || (Path.ofText lookup).isAbsolute

/-- The path that a dotted module name denotes. -/
def modulePath (name : Text) : Path :=
  (name.splitOn '.').foldl (fun path piece => path.join (Path.ofText piece)) Path.here

end StyleAudit
