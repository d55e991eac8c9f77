import TaskNetwork.Storage.Entry

/-!
# File trees

A file tree holds files, links and directories below a root directory. Operations take paths, which
are followed through links from a working directory, and fail by giving nothing.
-/

namespace TaskNetwork

/-- A place in a file tree: names from the root. -/
abbrev FileTree.Place := List FileName

/-- Files, directories and links below a root. -/
structure FileTree where
  root : Directory
deriving DecidableEq, Inhabited

namespace FileTree

/-- The tree with nothing in it. -/
def empty : FileTree := ⟨[]⟩

/-- What stands at a place, links not followed. -/
def entry? (t : FileTree) (place : Place) : Option Entry := t.root.entry? place

/-- Puts an entry at a place, or takes away what stands there. -/
def set (t : FileTree) (place : Place) (e : Option Entry) : FileTree := ⟨t.root.set e place⟩

/-! ## Following paths -/

/-- The longest name, in bytes. -/
def maxNameBytes : Nat := 255

/-- Whether a name can be used in a tree. -/
def isName (name : FileName) : Bool :=
  name.bytes.length ≤ maxNameBytes && !name.bytes.contains 0

/-- How far a path can be followed without a link. -/
inductive Walk where
  /-- To a place, at which something stands or could be put. -/
  | reached (place : Place)
  /-- To a link in a directory, with the rest of the path behind it. -/
  | link (directory : Place) (target : Path) (rest : List FileName)
  | blocked

/-- Names and directories on a way down, the last one first: each name with the directory in which
it stands. -/
abbrev Trail := List (FileName × Directory)

/-- The place to which a trail leads. -/
def Trail.place (trail : Trail) : Place := (trail.map (·.1)).reverse

/-- Follows segments from the directory at the end of a trail; `followLast` says whether a link at
the end is followed. -/
def walk (followLast : Bool) (trail : Trail) (here : Directory) : List FileName → Walk
  | [] => .reached trail.place
  | segment :: rest =>
    if Path.isHere segment then walk followLast trail here rest
    else if segment = ".." then
      match trail with
      | [] => walk followLast [] here rest
      | (_, above) :: trail => walk followLast trail above rest
    else if !isName segment then .blocked
    else
      match here.lookup segment with
      | some (.directory inner) => walk followLast ((segment, here) :: trail) inner rest
      | some (.link target) =>
        if rest.isEmpty && !followLast then .reached (trail.place ++ [segment])
        else .link trail.place target rest
      | _ => if rest.isEmpty then .reached (trail.place ++ [segment]) else .blocked

/-- How many links a path may lead through. -/
def maxLinks : Nat := 40

/-- Follows segments from the root through at most `links` links. -/
def follow (t : FileTree) (followLast : Bool) : (links : Nat) → List FileName → Option Place
  | links, segments =>
    match walk followLast [] t.root segments with
    | .reached place => some place
    | .blocked => none
    | .link directory target rest =>
      match links with
      | 0 => none
      | links + 1 =>
        follow t followLast links
          ((if target.absolute then [] else directory) ++ target.segments ++ rest)

/-- The place that a path leads to from a working directory. -/
def resolve (t : FileTree) (cwd : Place) (followLast : Bool) (p : Path) : Option Place :=
  if p.isShort then
    t.follow followLast maxLinks ((if p.absolute then [] else cwd) ++ p.segments)
  else none

/-! ## Operations -/

/-- The content of a file. -/
def read? (t : FileTree) (cwd : Place) (p : Path) : Option ByteArray :=
  match (t.resolve cwd true p).bind t.entry? with
  | some (.file content) => some content
  | _ => none

/-- Writes a file, over an older one. -/
def write? (t : FileTree) (cwd : Place) (p : Path) (content : ByteArray) : Option FileTree := do
  let place ← t.resolve cwd true p
  match t.entry? place with
  | some (.directory _) => none
  | _ => return t.set place (some (.file content))

/-- Moves a file or a link to another place, over a file or a link that stands there. -/
def rename? (t : FileTree) (cwd : Place) (source target : Path) : Option FileTree := do
  let origin ← t.resolve cwd false source
  let place ← t.resolve cwd false target
  match t.entry? origin, t.entry? place with
  | none, _ => none
  | some (.directory _), _ => none
  | _, some (.directory _) => none
  | some e, _ => return (t.set origin none).set place (some e)

/-- Removes a file or a link. -/
def remove? (t : FileTree) (cwd : Place) (p : Path) : Option FileTree := do
  let place ← t.resolve cwd false p
  match t.entry? place with
  | none => none
  | some (.directory _) => none
  | some _ => return t.set place none

/-- Puts a link at a free place. -/
def link? (t : FileTree) (cwd : Place) (p : Path) (target : Path) : Option FileTree := do
  let place ← t.resolve cwd false p
  match t.entry? place with
  | none => if target.isTarget then return t.set place (some (.link target)) else none
  | some _ => none

/-- The names in a directory, in order, with what stands there. -/
def list? (t : FileTree) (cwd : Place) (p : Path) : Option (List (FileName × Entry)) := do
  let place ← t.resolve cwd true p
  match t.entry? place with
  | some (.directory entries) => return entries
  | _ => none

/-! ## Operations in several steps

These give the tree as it is after the last step that could be done, and whether all could. -/

/-- Whether a path leads to a directory. -/
def isDirectory (t : FileTree) (cwd : Place) (p : Path) : Bool :=
  match (t.resolve cwd true p).bind t.entry? with
  | some (.directory _) => true
  | _ => false

/-- What comes of making one directory. -/
inductive Making where
  | made (t : FileTree)
  /-- There is no directory to make it in. -/
  | homeless
  | refused
deriving DecidableEq

/-- Makes a directory at a free place. -/
def makeOne (t : FileTree) (cwd : Place) (p : Path) : Making :=
  let named := p.withoutEndSlashes
  match named.segments.getLast? with
  | none => .refused
  | some name =>
    if !p.isShort then .refused
    else
      match t.resolve cwd true ⟨named.absolute, named.segments.dropLast⟩ with
      | none => .homeless
      | some above =>
        match t.entry? above with
        | some (.directory entries) =>
          if !named.endsInName || !isName name || (entries.lookup name).isSome then .refused
          else .made (t.set (above ++ [name]) (some (.directory [])))
        | _ => .homeless

/-- Makes a directory, and before it those above it that are missing. -/
def makeMissing (t : FileTree) (cwd : Place) (p : Path) : FileTree × Bool :=
  match t.makeOne cwd p with
  | .made t => (t, true)
  | .refused => (t, t.isDirectory cwd p)
  | .homeless =>
    match _h : p.parent? with
    | none => (t, false)
    | some above =>
      match makeMissing t cwd above with
      | (t, false) => (t, false)
      | (t, true) =>
        match t.makeOne cwd p with
        | .made t => (t, true)
        | _ => (t, t.isDirectory cwd p)
termination_by p.segments.length
decreasing_by exact Path.length_parent?_lt _h

/-- Makes a directory unless there is one, and those above it. -/
def makeDirectory (t : FileTree) (cwd : Place) (p : Path) : FileTree × Bool :=
  if p.segments.any fun s => s.bytes.contains 0 then (t, false) else t.makeMissing cwd p

/-- Removes the empty directory that a path names. If the way to it is gone, so is the directory,
and nothing is left to do. -/
def removeEmpty (t : FileTree) (cwd : Place) (p : Path) : FileTree × Bool :=
  match t.resolve cwd false p.withoutEndSlashes with
  | none => (t, true)
  | some place =>
    if !p.endsInName then (t, false)
    else
      match t.entry? place with
      | none => (t, true)
      | some (.directory []) => (t.set place none, true)
      | some _ => (t, false)

/-- Removes a link, or a directory with all that is in it. The directory is emptied first and then
removed by its path, which may have led through what was in it; so it may stay. -/
def removeAll (t : FileTree) (cwd : Place) (p : Path) : FileTree × Bool :=
  match t.resolve cwd false p with
  | none => (t, false)
  | some place =>
    match t.entry? place with
    | some (.link _) => (t.set place none, true)
    | some (.directory _) => (t.set place (some (.directory []))).removeEmpty cwd p
    | _ => (t, false)

end FileTree

end TaskNetwork
