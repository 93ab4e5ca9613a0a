/-
Module: StyleAudit.Proofs.FileSystem.Following
Purpose: What an absolute path reaches, and what it is made to when its links are followed, does
  not depend on the working directory.
Trusted boundary: none
Main exports: World.movedTo, reach_movedTo, World.stepName, followWithin_movedTo, follow_movedTo,
  absolute_movedTo, isAbsolute_of_absolute
-/
import StyleAudit.FileSystem.Lookup
import StyleAudit.Proofs.FileSystem.PathText

namespace StyleAudit

/-!
### Another working directory
-/

theorem mem_entries_of_entryAt? {t : FileTree} {place : Location} {entry : Entry}
    (stands : t.entryAt? place = some entry) : (place, entry) ∈ t.entries := by
  obtain ⟨listed, first, rfl⟩ := Option.map_eq_some_iff.1 stands
  have same := List.find?_some first
  simp only [beq_iff_eq] at same
  rw [← same]
  exact List.mem_of_find?_eq_some first

/-- The same file tree and search path, seen from another working directory. -/
abbrev World.movedTo (w : World) (directory : Location) : World :=
  { w with workingDirectory := directory }

section Paths

variable {w : World} {directory : Location} {p : Path}

theorem names_movedTo (absolute : p.isAbsolute = true) :
    (w.movedTo directory).names p = w.names p := by
  rw [World.names, World.names, if_pos absolute, if_pos absolute]

/-- An absolute path reaches the same place from every working directory. -/
theorem reach_movedTo (absolute : p.isAbsolute = true) :
    (w.movedTo directory).reach p = w.reach p := by
  rw [World.reach, World.reach, names_movedTo absolute]

theorem fileAt?_movedTo (absolute : p.isAbsolute = true) :
    (w.movedTo directory).fileAt? p = w.fileAt? p := by
  unfold World.fileAt?
  rw [reach_movedTo absolute]
  rfl

theorem isDirectory_movedTo (absolute : p.isAbsolute = true) :
    (w.movedTo directory).isDirectory p = w.isDirectory p := by
  rw [World.isDirectory, World.isDirectory, reach_movedTo absolute]

end Paths

/-!
### Following links

An absolute path is followed from the root on, so every path on the way starts at the root, and no
double dots are left on it.  Each link that is begun is a place of the tree that was not met
before, so as many links can be inside each other as places are left.  A run that may go deeper
than that goes no further, and the working directory only says how deep a run may go.
-/

/-- The path starts at the root and has no double dots. -/
structure Path.IsRooted (p : Path) : Prop where
  anchor : p.anchor = .root
  plain : doubleDot ∉ p.parts

/-- Wherever a link leads that was found out about, that is a path from the root on. -/
def LinksMet.AreRooted (met : LinksMet) : Prop :=
  ∀ link found, met.lookup link = some (some found) → found.IsRooted

/-- How many places of the tree were not met as links. -/
def linksLeft (w : World) (met : LinksMet) : Nat :=
  w.tree.entries.countP fun entry => (met.lookup ⟨.root, entry.1⟩).isNone

section Rooted

variable {p : Path}

theorem isRooted_root : Path.IsRooted ⟨.root, []⟩ :=
  ⟨rfl, List.not_mem_nil⟩

theorem Path.IsRooted.isAbsolute (rooted : p.IsRooted) : p.isAbsolute = true := by
  rw [Path.isAbsolute, rooted.anchor]
  rfl

theorem Path.IsRooted.child (rooted : p.IsRooted) {name : Text} (other : name ≠ doubleDot) :
    (p.child name).IsRooted where
  anchor := rooted.anchor
  plain := by
    rw [Path.child, List.mem_append, List.mem_singleton, not_or]
    exact ⟨rooted.plain, other.symm⟩

theorem Path.IsRooted.above (rooted : p.IsRooted) : p.above.IsRooted := by
  have toParent : p.above = p.parent := by
    rw [Path.above, if_neg]
    rw [rooted.anchor]
    exact Bool.false_ne_true
  rw [toParent]
  exact ⟨rooted.anchor, fun member => rooted.plain (List.dropLast_subset _ member)⟩

theorem lexicalPlace_of_plain {names : List Text} (plain : Path.doubleDot ∉ names)
    (start : Location) : lexicalPlace start names = start ++ names := by
  induction names generalizing start with
  | nil => rw [List.append_nil]; rfl
  | cons name rest ih =>
      obtain ⟨other, restPlain⟩ := List.ne_and_not_mem_of_not_mem_cons plain
      rw [lexicalPlace, List.foldl_cons, if_neg other.symm]
      exact (ih restPlain _).trans (List.append_assoc start [name] rest)

/-- A path from the root on without double dots names the place of its names. -/
theorem Path.IsRooted.literalPlace_eq (rooted : p.IsRooted) (w : World) :
    w.literalPlace p = p.parts := by
  rw [World.literalPlace, World.names, if_pos rooted.isAbsolute]
  exact lexicalPlace_of_plain rooted.plain []

end Rooted

section Left

variable {w : World} {met : LinksMet} {link : Path}

theorem isNone_lookup_of_cons {found : Option Path} {other : Path}
    (fresh : (((link, found) :: met).lookup other).isNone = true) :
    (met.lookup other).isNone = true := by
  rw [List.lookup_cons] at fresh
  split at fresh
  · cases fresh
  · exact fresh

theorem linksLeft_cons_le (found : Option Path) :
    linksLeft w ((link, found) :: met) ≤ linksLeft w met :=
  List.countP_mono_left fun _ _ => isNone_lookup_of_cons

/-- A link that is met for the first time leaves fewer. -/
theorem linksLeft_cons_lt (rooted : link.IsRooted) {target : Path}
    (leads : w.linkAt? link = some target) (fresh : met.lookup link = none)
    (found : Option Path) : linksLeft w ((link, found) :: met) < linksLeft w met := by
  obtain ⟨entry, member, same⟩ : ∃ entry ∈ w.tree.entries, entry.1 = link.parts := by
    rw [World.linkAt?, rooted.literalPlace_eq] at leads
    split at leads
    · rename_i stands
      exact ⟨_, mem_entries_of_entryAt? stands, rfl⟩
    · cases leads
  have isLink : (⟨.root, entry.1⟩ : Path) = link := by
    rw [same, ← rooted.anchor]
  obtain ⟨before, after, split⟩ := List.append_of_mem member
  -- The entry counts before and no longer does; no other entry begins to count.
  have wasFresh : (met.lookup ⟨.root, entry.1⟩).isNone = true := by
    rw [isLink, fresh]
    rfl
  have isMet : (((link, found) :: met).lookup ⟨.root, entry.1⟩).isNone = false := by
    rw [isLink, List.lookup_cons_self]
    rfl
  have others (entries : List (Location × Entry)) :
      entries.countP (fun entry => (((link, found) :: met).lookup ⟨.root, entry.1⟩).isNone)
        ≤ entries.countP fun entry => (met.lookup ⟨.root, entry.1⟩).isNone :=
    List.countP_mono_left fun entry _ => isNone_lookup_of_cons
  have first := others before
  have last := others after
  rw [linksLeft, linksLeft, split, List.countP_append, List.countP_append, List.countP_cons,
    List.countP_cons, wasFresh, isMet]
  simp only [if_true, Bool.false_eq_true, if_false]
  omega

theorem areRooted_cons (rooted : met.AreRooted) {found : Option Path}
    (ends : ∀ p, found = some p → p.IsRooted) : LinksMet.AreRooted ((link, found) :: met) := by
  intro other p looked
  rw [List.lookup_cons] at looked
  split at looked
  · exact ends p (Option.some.inj looked)
  · exact rooted other p looked

end Left

/-!
One name is looked at first, apart from what is done about it: it leads on to a path, names a link
that is being followed already, or names a link that is new.
-/

/-- What a name on the way turns out to be. -/
inductive NameStep where
  | onward (here : Path)
  | back (link : Path)
  | into (link start : Path) (names : List Text)

/-- Following a link's target, as it is given to the following of names. -/
abbrev LinkFollower := LinksMet → Path → List Text → Followed × LinksMet

namespace World

/-- Looks at one name behind a path. -/
def stepName (w : World) (met : LinksMet) (here : Path) (name : Text) : NameStep :=
  if name = Path.dot then .onward here
  else if name = Path.doubleDot then .onward here.above
  else
    match w.linkAt? (here.child name) with
    | none => .onward (here.child name)
    | some target =>
        match met.lookup (here.child name) with
        | some (some found) => .onward found
        | some none => .back (here.child name)
        | none =>
            .into (here.child name) (if target.isAbsolute then ⟨.root, []⟩ else here) target.parts

/-- Goes on with the names behind one that was looked at. -/
def proceed (w : World) (onLink : LinkFollower) (met : LinksMet) (rest : List Text) :
    NameStep → Followed × LinksMet
  | .onward here => w.followNames onLink met here rest
  | .back link => (.looping ⟨link.anchor, link.parts ++ rest⟩, met)
  | .into link start names =>
      match onLink ((link, none) :: met) start names with
      | (.complete found, met) => w.followNames onLink ((link, some found) :: met) found rest
      | (.looping kept, met) => (.looping ⟨kept.anchor, kept.parts ++ rest⟩, met)

theorem followNames_cons (w : World) (onLink : LinkFollower) (met : LinksMet) (here : Path)
    (name : Text) (rest : List Text) :
    w.followNames onLink met here (name :: rest)
      = w.proceed onLink met rest (w.stepName met here name) := by
  rw [followNames, stepName]
  split
  · rfl
  · split
    · rfl
    · simp only
      cases w.linkAt? (here.child name) with
      | none => rfl
      | some target =>
          cases met.lookup (here.child name) with
          | none => rfl
          | some found => cases found <;> rfl

end World

/-- A name that was looked at leads to a path from the root on, and leaves fewer links when it
names a new one. -/
def NameStep.IsRooted (w : World) (met : LinksMet) : NameStep → Prop
  | .onward here => here.IsRooted
  | .back link => link.IsRooted
  | .into link start _ => link.IsRooted ∧ start.IsRooted
      ∧ linksLeft w ((link, none) :: met) < linksLeft w met

section Steps

variable {w : World} {met : LinksMet} {here : Path}

theorem isRooted_stepName (metRooted : met.AreRooted) (rooted : here.IsRooted) (name : Text) :
    (w.stepName met here name).IsRooted w met := by
  unfold World.stepName
  split
  · exact rooted
  · split
    · exact rooted.above
    · rename_i other
      have next := rooted.child other
      cases leads : w.linkAt? (here.child name) with
      | none => exact next
      | some target =>
          cases known : met.lookup (here.child name) with
          | some found =>
              cases found with
              | some found => exact metRooted _ _ known
              | none => exact next
          | none =>
              refine ⟨next, ?_, linksLeft_cons_lt next leads known none⟩
              split
              · exact isRooted_root
              · exact rooted

theorem stepName_movedTo (rooted : here.IsRooted) (name : Text) (directory : Location) :
    (w.movedTo directory).stepName met here name = w.stepName met here name := by
  by_cases double : name = Path.doubleDot
  · rw [World.stepName, World.stepName, if_pos double, if_pos double]
  · have next := rooted.child double
    have same : (w.movedTo directory).linkAt? (here.child name) = w.linkAt? (here.child name) := by
      rw [World.linkAt?, World.linkAt?, next.literalPlace_eq, next.literalPlace_eq]
    rw [World.stepName, World.stepName, same]

end Steps

/-- Following ends at a path that starts at the root, and has no double dots unless a link leads
back to itself.  What was found out about links is such a path too, and no link is forgotten. -/
structure EndsRooted (w : World) (met : LinksMet) (done : Followed × LinksMet) : Prop where
  anchor : done.1.path.anchor = .root
  rooted : ∀ p, done.1 = .complete p → p.IsRooted
  found : done.2.AreRooted
  left : linksLeft w done.2 ≤ linksLeft w met

/-- A way to follow links that ends at paths from the root on. -/
def LinkFollower.EndsRooted (w : World) (onLink : LinkFollower) : Prop :=
  ∀ (met : LinksMet) (here : Path) (names : List Text), met.AreRooted → here.IsRooted →
    StyleAudit.EndsRooted w met (onLink met here names)

section Following

variable {w : World}

theorem EndsRooted.weaken {met before : LinksMet} {done : Followed × LinksMet}
    (ends : EndsRooted w met done) (fewer : linksLeft w met ≤ linksLeft w before) :
    EndsRooted w before done :=
  { ends with left := Nat.le_trans ends.left fewer }

/-- Where the names behind a link are followed from, the link being new. -/
theorem endsRooted_into {onLink : LinkFollower} (ends : onLink.EndsRooted w) {met : LinksMet}
    (metRooted : met.AreRooted) {link start : Path} {names : List Text}
    (step : (NameStep.into link start names).IsRooted w met) :
    EndsRooted w met (onLink ((link, none) :: met) start names) := by
  obtain ⟨_, startRooted, fewer⟩ := step
  have nothing : ∀ p : Path, none = some p → p.IsRooted := by
    rintro _ ⟨⟩
  exact (ends _ start names (areRooted_cons metRooted nothing) startRooted).weaken
    (Nat.le_of_lt fewer)

theorem endsRooted_followNames {onLink : LinkFollower} (ends : onLink.EndsRooted w) :
    LinkFollower.EndsRooted w (w.followNames onLink) := by
  intro met here names
  induction names generalizing met here with
  | nil =>
      intro metRooted rooted
      refine ⟨rooted.anchor, ?_, metRooted, Nat.le_refl _⟩
      rintro _ ⟨⟩
      exact rooted
  | cons name rest ih =>
      intro metRooted rooted
      have step := isRooted_stepName (w := w) metRooted rooted name
      rw [World.followNames_cons]
      generalize w.stepName met here name = looked at step
      cases looked with
      | onward next => exact ih met next metRooted step
      | back link => exact ⟨step.anchor, (by rintro _ ⟨⟩), metRooted, Nat.le_refl _⟩
      | into link start names =>
          have inner := endsRooted_into ends metRooted step
          rw [World.proceed]
          cases followed : onLink ((link, none) :: met) start names with
          | mk reached after =>
              rw [followed] at inner
              cases reached with
              | looping kept => exact ⟨inner.anchor, (by rintro _ ⟨⟩), inner.found, inner.left⟩
              | complete found =>
                  have foundRooted := inner.rooted found rfl
                  have afterRooted : LinksMet.AreRooted ((link, some found) :: after) := by
                    apply areRooted_cons inner.found
                    rintro _ ⟨⟩
                    exact foundRooted
                  exact (ih _ found afterRooted foundRooted).weaken
                    (Nat.le_trans (linksLeft_cons_le _) inner.left)

/-- However deep it may go, following ends at a path from the root on. -/
theorem endsRooted_followWithin (depth : Nat) :
    LinkFollower.EndsRooted w (w.followWithin depth) := by
  induction depth with
  | zero =>
      intro met here names metRooted rooted
      exact ⟨rooted.anchor, (by rintro _ ⟨⟩), metRooted, Nat.le_refl _⟩
  | succ depth ih => exact endsRooted_followNames ih

/-- Two ways to follow links that agree where fewer links are left make no difference to the
following of names, and neither does the working directory. -/
theorem followNames_movedTo {onLink other : LinkFollower} (ends : onLink.EndsRooted w)
    {directory : Location} {bound : Nat}
    (agree : ∀ (met : LinksMet) (here : Path) (names : List Text), met.AreRooted →
      here.IsRooted → linksLeft w met < bound → other met here names = onLink met here names)
    (names : List Text) (met : LinksMet) (here : Path) (metRooted : met.AreRooted)
    (rooted : here.IsRooted) (enough : linksLeft w met ≤ bound) :
    (w.movedTo directory).followNames other met here names
      = w.followNames onLink met here names := by
  induction names generalizing met here with
  | nil => rfl
  | cons name rest ih =>
      have step := isRooted_stepName (w := w) metRooted rooted name
      rw [World.followNames_cons, World.followNames_cons, stepName_movedTo rooted]
      generalize w.stepName met here name = looked at step
      cases looked with
      | onward next => exact ih met next metRooted step enough
      | back link => rfl
      | into link start names =>
          have inner := endsRooted_into ends metRooted step
          obtain ⟨_, startRooted, fewer⟩ := step
          have innerRooted : LinksMet.AreRooted ((link, none) :: met) := by
            apply areRooted_cons metRooted
            rintro _ ⟨⟩
          rw [World.proceed, World.proceed,
            agree _ start names innerRooted startRooted (Nat.lt_of_lt_of_le fewer enough)]
          cases followed : onLink ((link, none) :: met) start names with
          | mk reached after =>
              rw [followed] at inner
              cases reached with
              | looping kept => rfl
              | complete found =>
                  have foundRooted := inner.rooted found rfl
                  apply ih _ found _ foundRooted
                  · exact Nat.le_trans (Nat.le_trans (linksLeft_cons_le _) inner.left) enough
                  · apply areRooted_cons inner.found
                    rintro _ ⟨⟩
                    exact foundRooted

/-- Depths that exceed the links that are left all come to the same, in every working
directory. -/
theorem followWithin_movedTo (directory : Location) (depth other : Nat) (names : List Text)
    (met : LinksMet) (here : Path) (metRooted : met.AreRooted) (rooted : here.IsRooted)
    (enough : linksLeft w met < depth) (enoughOther : linksLeft w met < other) :
    (w.movedTo directory).followWithin other met here names
      = w.followWithin depth met here names := by
  induction depth generalizing other met here names with
  | zero => exact absurd enough (Nat.not_lt_zero _)
  | succ depth ih =>
      cases other with
      | zero => exact absurd enoughOther (Nat.not_lt_zero _)
      | succ other =>
          have agree (met : LinksMet) (here : Path) (names : List Text)
              (metRooted : met.AreRooted) (rooted : here.IsRooted)
              (fewer : linksLeft w met < min depth other) :
              (w.movedTo directory).followWithin other met here names
                = w.followWithin depth met here names :=
            ih other names met here metRooted rooted
              (Nat.lt_of_lt_of_le fewer (Nat.min_le_left _ _))
              (Nat.lt_of_lt_of_le fewer (Nat.min_le_right _ _))
          apply followNames_movedTo (endsRooted_followWithin depth) agree names met here metRooted
            rooted
          exact Nat.le_min.2 ⟨Nat.le_of_lt_succ enough, Nat.le_of_lt_succ enoughOther⟩

end Following

/-!
### Absolute paths made absolute
-/

section Absolute

variable {w : World} {p : Path}

theorem areRooted_nil : LinksMet.AreRooted [] := by
  rintro _ _ ⟨⟩

theorem linksLeft_nil_lt (w : World) (count : Nat) :
    linksLeft w [] < w.tree.entries.length * (count + 2) + 1 := by
  have few : linksLeft w [] ≤ w.tree.entries.length := List.countP_le_length
  have much : w.tree.entries.length ≤ w.tree.entries.length * (count + 2) :=
    Nat.le_mul_of_pos_right _ (Nat.succ_pos _)
  exact Nat.lt_succ_of_le (Nat.le_trans few much)

/-- An absolute path is followed to the same end in every working directory. -/
theorem follow_movedTo (absolute : p.isAbsolute = true) (directory : Location) :
    (w.movedTo directory).follow p = w.follow p := by
  unfold World.follow
  simp only [absolute, if_true]
  rw [followWithin_movedTo directory _ _ _ _ _ areRooted_nil isRooted_root
    (linksLeft_nil_lt w w.workingDirectory.length) (linksLeft_nil_lt w directory.length)]

theorem isAbsolute_follow (absolute : p.isAbsolute = true) :
    (w.follow p).path.isAbsolute = true := by
  have ends := endsRooted_followWithin (w := w)
    (w.tree.entries.length * (w.workingDirectory.length + 2) + 1) [] ⟨.root, []⟩ p.parts
    areRooted_nil isRooted_root
  unfold World.follow
  simp only [absolute, if_true]
  rw [Path.isAbsolute, ends.anchor]
  rfl

/-- An absolute path is made to the same path without links in every working directory. -/
theorem absolute_movedTo (absolute : p.isAbsolute = true) (directory : Location) :
    (w.movedTo directory).absolute p = w.absolute p := by
  have literal : (w.movedTo directory).literalPlace (w.follow p).path
      = w.literalPlace (w.follow p).path := by
    rw [World.literalPlace, World.literalPlace, names_movedTo (isAbsolute_follow absolute)]
  unfold World.absolute
  simp only [follow_movedTo absolute, literal]
  rw [reach_movedTo]
  rfl

/-- What a path is made to starts at the root. -/
theorem isAbsolute_of_absolute {made : Path} (absolute : w.absolute p = .ok made) :
    made.isAbsolute = true := by
  unfold World.absolute at absolute
  split at absolute
  · cases absolute
  · simp only at absolute
    split at absolute
    · cases absolute
    · cases absolute
      rfl

end Absolute

end StyleAudit
