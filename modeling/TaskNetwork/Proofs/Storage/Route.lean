import Mathlib.Data.List.Basic
import TaskNetwork.Proofs.Storage.Names
import TaskNetwork.Storage.Tree

/-!
# Routes

A walk carries the directories that it has come through. What it finds depends on less: on which
places are directories, and where the links among the others lead. So paths are followed alike in
trees that agree on that, and a path through a directory goes on from there.
-/

namespace TaskNetwork

namespace FileTree

/-! ## What a walk sees -/

/-- How a walk goes on at a place. -/
inductive Passage where
  | directory
  | link (target : Path)
  /-- It does not. -/
  | closed
deriving DecidableEq

/-- The passage at a place where something stands, or nothing. -/
def Passage.ofEntry : Option Entry → Passage
  | some (.directory _) => .directory
  | some (.link target) => .link target
  | some (.file _) => .closed
  | none => .closed

/-- The passage at a place of a tree. -/
def passage (t : FileTree) (place : Place) : Passage := .ofEntry (t.entry? place)

/-- Follows segments from a directory, given by its place, as `walk` does. -/
def route (passage : Place → Passage) (followLast : Bool) (place : Place) : List FileName → Walk
  | [] => .reached place
  | segment :: rest =>
    if Path.isHere segment then route passage followLast place rest
    else if segment = ".." then route passage followLast place.dropLast rest
    else if !isName segment then .blocked
    else
      match passage (place ++ [segment]) with
      | .directory => route passage followLast (place ++ [segment]) rest
      | .link target =>
        if rest.isEmpty && !followLast then .reached (place ++ [segment])
        else .link place target rest
      | .closed => if rest.isEmpty then .reached (place ++ [segment]) else .blocked

/-- A trail of directories that stand one in the other, down to the last one. -/
inductive IsTrail (root : Directory) : Trail → Directory → Prop where
  | root : IsTrail root [] root
  | down {trail : Trail} {here inner : Directory} {name : FileName} :
      IsTrail root trail here → here.lookup name = some (.directory inner) →
        IsTrail root ((name, here) :: trail) inner

theorem Trail.place_nil : Trail.place [] = [] := rfl

theorem Trail.place_cons (name : FileName) (here : Directory) (trail : Trail) :
    Trail.place ((name, here) :: trail) = trail.place ++ [name] := by
  simp [Trail.place]

theorem IsTrail.entry?_append {root here : Directory} {trail : Trail} (h : IsTrail root trail here)
    (rest : List FileName) : root.entry? (trail.place ++ rest) = here.entry? rest := by
  induction h generalizing rest with
  | root => rfl
  | @down trail here inner name _ hlookup ih =>
      rw [Trail.place_cons, List.append_assoc, ih, List.singleton_append, Directory.entry?_cons,
        hlookup]

theorem walk_eq_route {t : FileTree} {followLast : Bool} {trail : Trail} {here : Directory}
    (h : IsTrail t.root trail here) (segments : List FileName) :
    walk followLast trail here segments = route t.passage followLast trail.place segments := by
  induction segments generalizing trail here with
  | nil => rfl
  | cons segment rest ih =>
      have hat : t.passage (trail.place ++ [segment]) = .ofEntry (here.lookup segment) := by
        rw [passage, entry?, h.entry?_append, Directory.entry?_singleton]
      unfold walk
      rw [route, hat]
      split
      · exact ih h
      · split
        · cases h with
          | root => exact ih .root
          | down habove _ =>
              rw [Trail.place_cons, List.dropLast_concat]
              exact ih habove
        · split
          · rfl
          · cases hlookup : here.lookup segment with
            | none => rfl
            | some e =>
                cases e with
                | file content => rfl
                | link target => rfl
                | directory inner =>
                    show walk _ _ _ _ = route _ _ _ _
                    rw [← Trail.place_cons segment here]
                    exact ih (.down h hlookup)

/-! ## Following links -/

variable {t t' : FileTree} {followLast : Bool} {links : Nat} {segments more : List FileName}
  {here above place : Place}

/-- From a directory, segments lead to a place through at most so many links. -/
inductive Leads (t : FileTree) (followLast : Bool) :
    Nat → Place → List FileName → Place → Prop where
  | reached {links : Nat} {here place : Place} {segments : List FileName} :
      route t.passage followLast here segments = .reached place →
        Leads t followLast links here segments place
  | link {links : Nat} {here directory place : Place} {segments rest : List FileName}
      {target : Path} :
      route t.passage followLast here segments = .link directory target rest →
        Leads t followLast links []
          ((if target.absolute then [] else directory) ++ target.segments ++ rest) place →
        Leads t followLast (links + 1) here segments place

theorem Leads.reached_iff (h : route t.passage followLast here segments = .reached above) :
    Leads t followLast links here segments place ↔ place = above := by
  constructor
  · rintro (h' | ⟨h', -⟩)
    · cases h.symm.trans h'
      rfl
    · cases h.symm.trans h'
  · rintro rfl
    exact .reached h

theorem Leads.not_blocked (h : route t.passage followLast here segments = .blocked) :
    ¬ Leads t followLast links here segments place := by
  rintro (h' | ⟨h', -⟩) <;> cases h.symm.trans h'

theorem Leads.link_iff {directory : Place} {target : Path} {rest : List FileName}
    (h : route t.passage followLast here segments = .link directory target rest) :
    Leads t followLast (links + 1) here segments place ↔ Leads t followLast links []
      ((if target.absolute then [] else directory) ++ target.segments ++ rest) place := by
  constructor
  · rintro (h' | ⟨h', hleads⟩)
    · cases h.symm.trans h'
    · cases h.symm.trans h'
      exact hleads
  · exact .link h

theorem Leads.not_link_zero {directory : Place} {target : Path} {rest : List FileName}
    (h : route t.passage followLast here segments = .link directory target rest) :
    ¬ Leads t followLast 0 here segments place := by
  rintro (h' | _)
  cases h.symm.trans h'

theorem Leads.of_route_eq {here' : Place} {segments' : List FileName}
    (heq : route t.passage followLast here segments = route t.passage followLast here' segments')
    (h : Leads t followLast links here segments place) :
    Leads t followLast links here' segments' place := by
  rcases h with hroute | ⟨hroute, hleads⟩
  · exact .reached (heq ▸ hroute)
  · exact .link (heq ▸ hroute) hleads

theorem follow_eq_some :
    t.follow followLast links segments = some place ↔
      Leads t followLast links [] segments place := by
  induction links generalizing segments with
  | zero =>
      rw [follow, walk_eq_route .root, Trail.place_nil]
      cases hroute : route t.passage followLast [] segments with
      | reached above => simp [Leads.reached_iff hroute, eq_comm]
      | link directory target rest => simp [Leads.not_link_zero hroute]
      | blocked => simp [Leads.not_blocked hroute]
  | succ links ih =>
      rw [follow, walk_eq_route .root, Trail.place_nil]
      cases hroute : route t.passage followLast [] segments with
      | reached above => simp [Leads.reached_iff hroute, eq_comm]
      | link directory target rest => exact ih.trans (Leads.link_iff hroute).symm
      | blocked => simp [Leads.not_blocked hroute]

theorem resolve_eq_some {cwd : Place} {p : Path} :
    t.resolve cwd followLast p = some place ↔ p.isShort = true ∧
      Leads t followLast maxLinks [] ((if p.absolute then [] else cwd) ++ p.segments) place := by
  rw [resolve]
  split
  · rename_i hshort
    rw [follow_eq_some]
    exact (and_iff_right hshort).symm
  · rename_i hshort
    exact iff_of_false nofun fun h => hshort h.1

/-- What paths lead to depends on the passages of a tree only. -/
theorem Leads.congr (h : t.passage = t'.passage)
    (hleads : Leads t followLast links here segments place) :
    Leads t' followLast links here segments place := by
  induction hleads with
  | reached hroute => exact .reached (h ▸ hroute)
  | link hroute _ ih => exact .link (h ▸ hroute) ih

/-! ## Paths through a directory -/

/-- How a walk that follows its last link goes on with more segments. -/
def Walk.goOn (passage : Place → Passage) (followLast : Bool) (more : List FileName) : Walk → Walk
  | .reached place =>
    if passage place = .directory then route passage followLast place more else .blocked
  | .link directory target rest => .link directory target (rest ++ more)
  | .blocked => .blocked

theorem route_append {passage : Place → Passage}
    (hup : ∀ place, passage place = .directory → passage place.dropLast = .directory)
    (hhere : passage here = .directory) (hmore : more ≠ []) :
    route passage followLast here (segments ++ more) =
      (route passage true here segments).goOn passage followLast more := by
  induction segments generalizing here with
  | nil => simp [route, Walk.goOn, hhere]
  | cons segment rest ih =>
      have hrest : (rest ++ more).isEmpty = false := by simp [hmore]
      rw [List.cons_append, route, route, hrest]
      split
      · exact ih hhere
      · split
        · exact ih (hup _ hhere)
        · split
          · rfl
          · split
            · rename_i hdir
              exact ih hdir
            · simp [Walk.goOn]
            · rename_i hclosed
              by_cases hlast : rest.isEmpty
              · simp [hlast, Walk.goOn, hclosed]
              · simp [hlast, Walk.goOn]

theorem passage_eq_directory :
    t.passage place = .directory ↔ ∃ inner, t.entry? place = some (.directory inner) := by
  rw [passage]
  cases t.entry? place with
  | none => simp [Passage.ofEntry]
  | some e => cases e <;> simp [Passage.ofEntry]

theorem passage_dropLast (place : Place) (h : t.passage place = .directory) :
    t.passage place.dropLast = .directory := by
  rcases place.eq_nil_or_concat' with rfl | ⟨above, name, rfl⟩
  · exact h
  · obtain ⟨inner, hinner⟩ := passage_eq_directory.mp h
    rw [List.dropLast_concat]
    exact passage_eq_directory.mpr
      (Directory.exists_directory_of_entry?_append hinner (List.cons_ne_nil name []))

/-- Behind a directory a path goes on as from there, with the links that are left. -/
theorem Leads.append_iff (h : Leads t true links here segments above)
    (hhere : t.passage here = .directory) (habove : t.passage above = .directory)
    (hmore : more ≠ []) :
    ∃ links', ∀ {followLast : Bool} {place : Place},
      Leads t followLast links here (segments ++ more) place ↔
        Leads t followLast links' above more place := by
  induction h with
  | @reached links here above segments hroute =>
      refine ⟨links, fun {followLast place} => ?_⟩
      have happend : route t.passage followLast here (segments ++ more) =
          route t.passage followLast above more := by
        rw [route_append passage_dropLast hhere hmore, hroute, Walk.goOn, if_pos habove]
      exact ⟨fun h => h.of_route_eq happend, fun h => h.of_route_eq happend.symm⟩
  | @link links here directory above segments rest target hroute _ ih =>
      obtain ⟨links', hiff⟩ := ih rfl habove
      refine ⟨links', fun {followLast place} => ?_⟩
      have happend : route t.passage followLast here (segments ++ more) =
          .link directory target (rest ++ more) := by
        rw [route_append passage_dropLast hhere hmore, hroute, Walk.goOn]
      rw [Leads.link_iff happend, ← List.append_assoc]
      exact hiff

theorem route_cases_of_append {walk : Walk}
    (h : route t.passage followLast here (segments ++ more) = walk) (hwalk : walk ≠ .blocked)
    (hhere : t.passage here = .directory) (hmore : more ≠ []) :
    (∃ above, route t.passage true here segments = .reached above ∧
      t.passage above = .directory) ∨
    ∃ directory target rest, route t.passage true here segments = .link directory target rest ∧
      walk = .link directory target (rest ++ more) := by
  rw [route_append passage_dropLast hhere hmore] at h
  cases hroute : route t.passage true here segments with
  | reached above =>
      rw [hroute, Walk.goOn] at h
      split at h
      · rename_i hdir
        exact .inl ⟨above, rfl, hdir⟩
      · exact absurd h.symm hwalk
  | link directory target rest =>
      rw [hroute] at h
      exact .inr ⟨directory, target, rest, rfl, h.symm⟩
  | blocked =>
      rw [hroute] at h
      exact absurd h.symm hwalk

/-- A path leads through directories. -/
theorem Leads.exists_directory (h : Leads t followLast links here (segments ++ more) place)
    (hhere : t.passage here = .directory) (hmore : more ≠ []) :
    ∃ above, Leads t true links here segments above ∧ t.passage above = .directory := by
  generalize hall : segments ++ more = all at h
  induction h generalizing segments with
  | reached hroute =>
      subst hall
      rcases route_cases_of_append hroute nofun hhere hmore with
        ⟨above, hwalk, hdir⟩ | ⟨_, _, _, -, heq⟩
      · exact ⟨above, .reached hwalk, hdir⟩
      · cases heq
  | link hroute _ ih =>
      subst hall
      rcases route_cases_of_append hroute nofun hhere hmore with
        ⟨above, hwalk, hdir⟩ | ⟨directory, target, rest, hwalk, heq⟩
      · exact ⟨above, .reached hwalk, hdir⟩
      · cases heq
        obtain ⟨above, habove, hdir⟩ := ih rfl (List.append_assoc _ rest more)
        exact ⟨above, .link hwalk habove, hdir⟩

/-! ## Names in a directory -/

theorem route_singleton {passage : Place → Passage} {name : FileName} (hname : Path.IsSegment name)
    (hopen : ∀ target, passage (here ++ [name]) ≠ .link target) :
    route passage followLast here [name] =
      if isName name then .reached (here ++ [name]) else .blocked := by
  rw [route, hname.not_here, if_neg hname.not_up]
  cases hat : passage (here ++ [name]) with
  | directory => cases isName name <;> simp [route]
  | link target => exact absurd hat (hopen target)
  | closed => cases isName name <;> simp

/-- A path to a directory and then to a name there leads to that name, if it is no link itself. -/
theorem Leads.append_singleton_iff {name : FileName} (h : Leads t true links [] segments above)
    (habove : t.passage above = .directory) (hname : Path.IsSegment name)
    (hopen : ∀ target, t.passage (above ++ [name]) ≠ .link target) :
    Leads t followLast links [] (segments ++ [name]) place ↔
      isName name = true ∧ place = above ++ [name] := by
  obtain ⟨links', hiff⟩ := h.append_iff rfl habove (List.cons_ne_nil name [])
  have hroute : route t.passage followLast above [name] =
      if isName name then .reached (above ++ [name]) else .blocked := route_singleton hname hopen
  rw [hiff]
  split at hroute
  · rename_i hshort
    exact (Leads.reached_iff hroute).trans (and_iff_right hshort).symm
  · rename_i hlong
    exact iff_of_false (Leads.not_blocked hroute) fun h => hlong h.1

theorem route_of_isHere {passage : Place → Passage} (h : ∀ s ∈ segments, Path.isHere s = true) :
    route passage followLast here segments = .reached here := by
  induction segments with
  | nil => rfl
  | cons segment rest ih =>
      rw [route, if_pos (h segment List.mem_cons_self)]
      exact ih fun s hs => h s (List.mem_cons_of_mem _ hs)

/-- Segments that stand for the directory itself can be left out or put in. -/
theorem Leads.append_isHere_iff {heres : List FileName} (h : ∀ s ∈ heres, Path.isHere s = true)
    (hplace : t.passage place = .directory) :
    Leads t true links [] (segments ++ heres) place ↔ Leads t true links [] segments place := by
  by_cases hnil : heres = []
  · rw [hnil, List.append_nil]
  · constructor
    · intro hleads
      obtain ⟨above, habove, hdir⟩ := hleads.exists_directory rfl hnil
      obtain ⟨links', hiff⟩ := habove.append_iff rfl hdir hnil
      obtain rfl := (Leads.reached_iff (route_of_isHere h)).mp (hiff.mp hleads)
      exact habove
    · intro hleads
      obtain ⟨links', hiff⟩ := hleads.append_iff rfl hplace hnil
      exact hiff.mpr (.reached (route_of_isHere h))

end FileTree

end TaskNetwork
