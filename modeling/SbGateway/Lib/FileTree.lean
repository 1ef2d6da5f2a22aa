import Mathlib.Data.List.Basic
import Mathlib.Data.List.Infix

namespace SbGateway.Lib

/-!
# File trees

A place of a file tree is the list of the names on the way to it.  A `FileTree` says what stands
at every place and carries that a tree it is: whatever stands in a place stands in a directory.

* `FileTree.put`, `remove`, `prune` — the updates; each of them keeps the tree a tree;
* `clean` — the shortest path with the same meaning; `clean_append` — paths without `..` stay
  below the place they start from;
* `FileTree.walk` — the way down to a place, one name at a time, which refuses links and files
  on the way; `walk_true_iff`, `walk_false_iff` — which places it reaches;
* `FileTree.lookup` — the directory that the system finds for a path, links being followed;
  `lookup_mono` — it is found again as long as directories and links stay.
-/

/-- A name in a directory. -/
abbrev FileName := List Char

/-- A place in a file tree. -/
abbrev Place := List FileName

/-- What following a symbolic link finds; a directory is known by its place. -/
inductive Target where
  | nothing
  | file (content : List UInt8)
  | directory (place : Place)
  deriving DecidableEq

/-- What stands at a place. -/
inductive Node where
  | directory
  | regular (content : List UInt8)
  | symlink (target : Target)
  | other
  deriving DecidableEq

/-- The contents of a file system. -/
structure FileTree where
  node : Place → Option Node
  closed : ∀ place name, node (place ++ [name]) ≠ none → node place = some .directory

namespace FileTree

variable (t : FileTree)

theorem missing_below (hp : t.node p = none) (h : p <+: q) : t.node q = none := by
  obtain ⟨rest, rfl⟩ := h
  induction rest generalizing p with
  | nil => rw [List.append_nil]; exact hp
  | cons name rest ih =>
    rw [List.append_cons]
    refine ih ?_
    by_contra hne
    rw [t.closed p name hne] at hp
    cases hp

theorem directory_above (hq : t.node q ≠ none) (h : p <+: q) (hne : p ≠ q) :
    t.node p = some .directory := by
  obtain ⟨rest, rfl⟩ := h
  cases rest with
  | nil => simp at hne
  | cons name rest =>
    refine t.closed p name fun hmissing => hq ?_
    refine t.missing_below hmissing ?_
    rw [List.append_cons p name rest]
    exact List.prefix_append _ _

/-! ### Updates -/

/-- A place where a file or an empty directory can be put. -/
def Ready (place : Place) : Prop :=
  (place = [] ∨ t.node place.dropLast = some .directory) ∧ t.node place ≠ some .directory

instance (place : Place) : Decidable (t.Ready place) := inferInstanceAs (Decidable (_ ∧ _))

/-- Put something at a place. -/
def put (place : Place) (n : Node) (h : t.Ready place) : FileTree where
  node q := if q = place then some n else t.node q
  closed p name hne := by
    have hself : p ≠ p ++ [name] := by simp
    by_cases hplace : p ++ [name] = place
    · -- what is put there stands in a directory
      obtain ⟨hroot | hparent, -⟩ := h
      · simp [hroot] at hplace
      · rw [← hplace, List.dropLast_concat] at hparent
        rw [if_neg (hplace ▸ hself)]
        exact hparent
    · -- and nothing stands below the file that was there
      rw [if_neg hplace] at hne
      have hdirectory := t.closed p name hne
      have hother : p ≠ place := fun heq => h.2 (heq ▸ hdirectory)
      rw [if_neg hother]
      exact hdirectory

/-- Remove something that is not a directory. -/
def remove (place : Place) (h : t.node place ≠ some .directory) : FileTree where
  node q := if q = place then none else t.node q
  closed p name hne := by
    by_cases hplace : p ++ [name] = place
    · simp [hplace] at hne
    · rw [if_neg hplace] at hne
      have hdirectory := t.closed p name hne
      have hother : p ≠ place := fun heq => h (heq ▸ hdirectory)
      rw [if_neg hother]
      exact hdirectory

/-- Remove a place and everything below it. -/
def prune (place : Place) : FileTree where
  node q := if place <+: q then none else t.node q
  closed p name hne := by
    by_cases hbelow : place <+: p ++ [name]
    · simp [hbelow] at hne
    · rw [if_neg hbelow] at hne
      rw [if_neg fun h => hbelow (h.trans (List.prefix_append _ _))]
      exact t.closed p name hne

end FileTree

/-! ### Path text -/

/-- A name that stands for itself. -/
def PlainName (name : FileName) : Prop := name ≠ [] ∧ name ≠ ['.'] ∧ name ≠ ['.', '.']

instance (name : FileName) : Decidable (PlainName name) := inferInstanceAs (Decidable (_ ∧ _))

/-- One name of a path that is cleaned. -/
def cleanStep (place : Place) (name : FileName) : Place :=
  if name = [] ∨ name = ['.'] then place
  else if name = ['.', '.'] then place.dropLast
  else place ++ [name]

/-- The shortest path with the meaning of an absolute one. -/
def clean (names : List FileName) : Place := names.foldl cleanStep []

/-- The names of a path that lead downwards. -/
def plainNames (names : List FileName) : Place := names.filter fun name => decide (PlainName name)

theorem foldl_cleanStep (h : ['.', '.'] ∉ names) (place : Place) :
    names.foldl cleanStep place = place ++ plainNames names := by
  induction names generalizing place with
  | nil => simp [plainNames]
  | cons name names ih =>
    rw [List.mem_cons, not_or] at h
    rw [List.foldl_cons, ih h.2, plainNames, plainNames, List.filter_cons]
    by_cases hskip : name = [] ∨ name = ['.']
    · have hplain : ¬ PlainName name := fun hp => hskip.elim hp.1 hp.2.1
      simp [cleanStep, hskip, hplain]
    · have hplain : PlainName name :=
        ⟨fun heq => hskip (.inl heq), fun heq => hskip (.inr heq), fun heq => h.1 heq.symm⟩
      simp [cleanStep, hskip, Ne.symm h.1, hplain]

/-- **Containment.** Below a clean place, a path without `..` cannot leave it. -/
theorem clean_append (hroot : ∀ name ∈ root, PlainName name) (h : ['.', '.'] ∉ names) :
    clean (root ++ names) = root ++ plainNames names := by
  have hup : ['.', '.'] ∉ root ++ names := by
    rw [List.mem_append, not_or]
    exact ⟨fun hmem => (hroot _ hmem).2.2 rfl, h⟩
  have hself : plainNames root = root := List.filter_eq_self.mpr fun name hname => by
    simpa using hroot name hname
  rw [clean, foldl_cleanStep hup, List.nil_append, plainNames, List.filter_append]
  exact congrArg₂ _ hself rfl

/-! ### The way down -/

/-- The places on the way down from a place. -/
def below (root : Place) : List FileName → List Place
  | [] => []
  | name :: rest => (root ++ [name]) :: below (root ++ [name]) rest

/-- Why a way down is refused. -/
inductive WayFault where
  | missing
  | link
  | notDirectory
  deriving DecidableEq, Repr

/-- The way to a place below another one; the way to the place itself is that place. -/
def way (root : Place) (names : List FileName) : List Place :=
  if names = [] then [root] else below root names

namespace FileTree

variable (t : FileTree)

/-- A symbolic link stands at the place. -/
def link (q : Place) : Bool :=
  match t.node q with
  | some (.symlink _) => true
  | _ => false

/-- A file stands at the place, so that nothing can be looked for below it. -/
def file (q : Place) : Bool :=
  match t.node q with
  | some (.regular _) | some .other => true
  | _ => false

theorem link_congr {s t : FileTree} {q : Place} (h : s.node q = t.node q) :
    s.link q = t.link q := by
  rw [link, link, h]

/-- Go down the places of a way: nothing on it may be a link, and all but its end must be
    directories.  A place may be missing unless it is said to exist. -/
def walk (mustExist : Bool) : List Place → Except WayFault Unit
  | [] => .ok ()
  | place :: rest =>
    match t.node place with
    | none => if mustExist then .error .missing else .ok ()
    | some (.symlink _) => .error .link
    | some .directory => walk mustExist rest
    | some _ => if rest = [] then .ok () else .error .notDirectory

theorem walk_missing (mustExist : Bool) (rest : List Place) (h : t.node place = none) :
    t.walk mustExist (place :: rest) = if mustExist then .error .missing else .ok () := by
  rw [walk, h]

theorem walk_directory (mustExist : Bool) (rest : List Place) (h : t.node place = some .directory) :
    t.walk mustExist (place :: rest) = t.walk mustExist rest := by
  rw [walk, h]

/-- The end of a way may be a file. -/
theorem walk_end (mustExist : Bool) (place : Place) : t.walk mustExist [place] = .ok () ↔
      t.link place = false ∧ (mustExist = true → t.node place ≠ none) := by
  cases hnode : t.node place with
  | none => cases mustExist <;> simp [walk, link, hnode]
  | some n => cases n <;> simp [walk, link, hnode]

/-- Nothing but a directory or a missing place can be passed. -/
theorem walk_pass (h : t.walk mustExist (place :: next :: rest) = .ok ()) :
    t.node place = none ∨ t.node place = some .directory := by
  cases hnode : t.node place with
  | none => exact .inl rfl
  | some n => cases n <;> simp [walk, hnode] at h ⊢

theorem way_cons_cons (root : Place) (name next : FileName) (names : List FileName) :
    way root (name :: next :: names) =
      (root ++ [name]) :: way (root ++ [name]) (next :: names) := rfl

/-- The way may be taken to a place that exists and is no link. -/
theorem walk_true_iff (root : Place) (names : List FileName) :
    t.walk true (way root names) = .ok () ↔
      t.node (root ++ names) ≠ none ∧ t.link (root ++ names) = false := by
  induction names generalizing root with
  | nil => simp [way, walk_end, and_comm]
  | cons name names ih =>
    rw [List.append_cons]
    cases names with
    | nil => simp [way, below, walk_end, and_comm]
    | cons next names =>
      rw [way_cons_cons]
      constructor
      · intro h
        rcases t.walk_pass h with hnone | hdirectory
        · rw [t.walk_missing true _ hnone] at h
          simp at h
        · rw [t.walk_directory true _ hdirectory] at h
          exact (ih _).mp h
      · intro h
        have hdirectory := t.directory_above h.1 (List.prefix_append _ _) (by simp)
        rw [t.walk_directory true _ hdirectory]
        exact (ih _).mpr h

/-- What a way that may end at a missing place goes past. -/
def Open (root q : Place) : Prop :=
  (∀ p, root <+: p → p ≠ root → p <+: q → p ≠ q →
    t.node p = none ∨ t.node p = some .directory) ∧ t.link q = false

theorem open_cons (root : Place) (name next : FileName) (names : List FileName) :
    t.Open root (root ++ [name] ++ next :: names) ↔
      (t.node (root ++ [name]) = none ∨ t.node (root ++ [name]) = some .directory) ∧
        t.Open (root ++ [name]) (root ++ [name] ++ next :: names) := by
  constructor
  · rintro ⟨hpass, hend⟩
    refine ⟨hpass _ (List.prefix_append _ _) (by simp) (List.prefix_append _ _) (by simp), ?_, hend⟩
    intro p hroot hne hlast
    refine hpass p ((List.prefix_append _ _).trans hroot) ?_ hlast
    rintro rfl
    have hlength := hroot.length_le
    rw [List.length_append, List.length_singleton] at hlength
    omega
  · rintro ⟨hfirst, hpass, hend⟩
    refine ⟨fun p hroot hne hlast => ?_, hend⟩
    -- the first name of the way is one of the names of `p`
    obtain ⟨more, rfl⟩ := hroot
    cases more with
    | nil => simp at hne
    | cons x more =>
      have hx : x = name := by
        rw [List.append_assoc, List.prefix_append_right_inj] at hlast
        exact (List.cons_prefix_cons.mp hlast).1
      subst hx
      by_cases hself : root ++ x :: more = root ++ [x]
      · intro _
        rw [hself]
        exact hfirst
      · exact hpass _ ⟨more, (List.append_cons root x more).symm⟩ hself hlast

theorem walk_false_iff (root : Place) (names : List FileName) :
    t.walk false (way root names) = .ok () ↔ t.Open root (root ++ names) := by
  induction names generalizing root with
  | nil =>
    have hopen : t.Open root (root ++ []) ↔ t.link root = false := by
      rw [List.append_nil]
      refine ⟨fun h => h.2, fun h => ⟨fun p hroot hne hlast => ?_, h⟩⟩
      exact absurd (hlast.eq_of_length_le hroot.length_le) hne
    rw [hopen]
    simp [way, walk_end]
  | cons name names ih =>
    rw [List.append_cons]
    cases names with
    | nil =>
      have hopen : t.Open root (root ++ [name] ++ []) ↔ t.link (root ++ [name]) = false := by
        rw [List.append_nil]
        refine ⟨fun h => h.2, fun h => ⟨fun p hroot hne hlast hnot => ?_, h⟩⟩
        -- between a place and a name below it there is nothing
        have hlength := hlast.length_le
        rw [List.length_append, List.length_singleton] at hlength
        have hshort : p.length ≤ root.length := by
          by_contra hlong
          exact hnot (hlast.eq_of_length_le (by simp; omega))
        exact absurd (hroot.eq_of_length_le hshort).symm hne
      rw [hopen]
      simp [way, below, walk_end]
    | cons next names =>
      rw [way_cons_cons, open_cons, ← ih]
      constructor
      · intro h
        refine ⟨t.walk_pass h, ?_⟩
        rcases t.walk_pass h with hnone | hdirectory
        · -- below a missing place everything is missing
          have hnext : t.node (root ++ [name] ++ [next]) = none :=
            t.missing_below hnone (List.prefix_append _ _)
          show t.walk false ((root ++ [name] ++ [next]) :: _) = .ok ()
          rw [t.walk_missing false _ hnext]
          rfl
        · rwa [t.walk_directory false _ hdirectory] at h
      · rintro ⟨hnone | hdirectory, h⟩
        · rw [t.walk_missing false _ hnone]
          rfl
        · rwa [t.walk_directory false _ hdirectory]

/-! ### Paths that the system follows -/

/-- One name of a path.  A link to a directory is followed if it is to be. -/
def enter (place : Place) (name : FileName) (follow : Bool) : Place :=
  match t.node (cleanStep place name), follow with
  | some (.symlink (.directory target)), true => target
  | _, _ => cleanStep place name

/-- The directory at a path.  Links are followed, and one that the path ends in if it is to be. -/
def lookup (follow : Bool) (place : Place) : List FileName → Option Place
  | [] => if t.node place = some .directory then some place else none
  | name :: rest =>
    if t.node place = some .directory then
      lookup follow (t.enter place name (follow || !rest.isEmpty)) rest
    else none

theorem lookup_directory (h : t.lookup follow place names = some q) :
    t.node q = some .directory ∧ t.node place = some .directory := by
  induction names generalizing place with
  | nil =>
    rw [lookup, Option.ite_none_right_eq_some] at h
    cases h.2
    exact ⟨h.1, h.1⟩
  | cons name rest ih =>
    rw [lookup, Option.ite_none_right_eq_some] at h
    exact ⟨(ih h.2).1, h.1⟩

/-- A directory is found again as long as directories and links stay where they are. -/
theorem lookup_mono {u : FileTree}
    (hdirectory : ∀ p, t.node p = some .directory → u.node p = some .directory)
    (hlink : ∀ p, t.link p = true → u.node p = t.node p) (hfollow : follow = true → follow' = true)
    (h : t.lookup follow place names = some q) : u.lookup follow' place names = some q := by
  induction names generalizing place with
  | nil =>
    rw [lookup, Option.ite_none_right_eq_some] at h ⊢
    exact ⟨hdirectory _ h.1, h.2⟩
  | cons name rest ih =>
    rw [lookup, Option.ite_none_right_eq_some] at h ⊢
    refine ⟨hdirectory _ h.1, ?_⟩
    have hnext := ih h.2
    have hentered := (t.lookup_directory h.2).2
    suffices henter : u.enter place name (follow' || !rest.isEmpty) =
        t.enter place name (follow || !rest.isEmpty) by rwa [henter]
    unfold enter at hentered ⊢
    cases hnode : t.node (cleanStep place name) with
    | none => simp [hnode] at hentered
    | some n =>
      cases n with
      | directory => rw [hdirectory _ hnode]
      | regular | other => simp [hnode] at hentered
      | symlink target =>
        rw [hlink _ (by rw [link, hnode]), hnode]
        cases hlast : follow || !rest.isEmpty with
        | false => simp [hnode, hlast] at hentered -- a link that is not followed is no directory
        | true =>
          have hlast' : (follow' || !rest.isEmpty) = true := by
            rw [Bool.or_eq_true] at hlast ⊢
            exact hlast.imp_left hfollow
          rw [hlast']

end FileTree

end SbGateway.Lib
