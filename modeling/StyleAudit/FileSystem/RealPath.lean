/-
Module: StyleAudit.FileSystem.RealPath
Purpose: The absolute path without links that a path denotes, whether or not it exists.
Trusted boundary: none
Main exports: Followed, World.follow, World.absolute
-/
import StyleAudit.FileSystem.Tree

namespace StyleAudit

/-!
### Making a path absolute

A path can be made absolute without reaching anything: links that exist are
followed, however many, and a name that does not exist is kept.  Double dots then
take back the name before them.  A link that leads back to itself is kept, with
everything behind it.  Links are told apart by the paths on which they were met, and
where a link leads is found out once.
-/

/-- Where following a path ends: at a path without links, or at a link that leads back
to itself. -/
inductive Followed where
  | complete (path : Path)
  | looping (path : Path)
deriving DecidableEq, Repr

/-- The path at which following ends. -/
def Followed.path : Followed → Path
  | .complete path => path
  | .looping path => path

/-- The links met so far, and where each leads unless that is still being found out. -/
abbrev LinksMet := List (Path × Option Path)

/-- A place with names behind it, where double dots take back a name. -/
def lexicalPlace (start : Location) (names : List Text) : Location :=
  names.foldl (fun place name => if name = Path.doubleDot then place.dropLast else place ++ [name])
    start

namespace World

/-- The place that a path names when none of its names is a link. -/
def literalPlace (w : World) (p : Path) : Location :=
  lexicalPlace [] (w.names p)

/-- The target of the link that a path names, if it names one. -/
def linkAt? (w : World) (p : Path) : Option Path :=
  match w.tree.entryAt? (w.literalPlace p) with
  | some (.link target) => some target
  | _ => none

/-- Follows names from a path.  How to follow a link's target is given. -/
def followNames (w : World) (onLink : LinksMet → Path → List Text → Followed × LinksMet) :
    LinksMet → Path → List Text → Followed × LinksMet
  | met, here, [] => (.complete here, met)
  | met, here, name :: rest =>
      if name = Path.dot then followNames w onLink met here rest
      else if name = Path.doubleDot then followNames w onLink met here.above rest
      else
        let next := here.child name
        match w.linkAt? next with
        | none => followNames w onLink met next rest
        | some target =>
            match met.lookup next with
            | some (some end_) => followNames w onLink met end_ rest
            | some none => (.looping ⟨next.anchor, next.parts ++ rest⟩, met)
            | none =>
                let start := if target.isAbsolute then ⟨.root, []⟩ else here
                match onLink ((next, none) :: met) start target.parts with
                | (.complete end_, met) =>
                    followNames w onLink ((next, some end_) :: met) end_ rest
                | (.looping kept, met) => (.looping ⟨kept.anchor, kept.parts ++ rest⟩, met)

/-- Follows names from a path with at most the given number of links inside each other. -/
def followWithin (w : World) : Nat → LinksMet → Path → List Text → Followed × LinksMet
  | 0 => fun met here rest => (.looping ⟨here.anchor, here.parts ++ rest⟩, met)
  | depth + 1 => w.followNames (followWithin w depth)

/-- Follows a path.  A link is met on no more paths than the working directory has names,
and two more, so the depth of links inside each other is bounded. -/
def follow (w : World) (p : Path) : Followed :=
  let depth := w.tree.entries.length * (w.workingDirectory.length + 2) + 1
  let start : Path := if p.isAbsolute then ⟨.root, []⟩ else Path.here
  (w.followWithin depth [] start p.parts).1

/-- The absolute path that a path denotes, whether or not it exists.  A path on which a
link leads back to itself denotes none, unless double dots take that link back. -/
def absolute (w : World) (p : Path) : Except Failure Path :=
  if p.isUnnameable then .error .unusable
  else
    let reached : Path := ⟨.root, w.literalPlace (w.follow p).path⟩
    match w.reach reached with
    | .error .tooManyLinks => .error (.linkLoop reached)
    | _ => .ok reached

end World

end StyleAudit
