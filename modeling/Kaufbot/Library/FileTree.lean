import Kaufbot.Library.Paths

/-!
A file system as a map from places to directories and files, without links.
Every entry is in a directory and the working directory is one. A name is
looked up component by component, each from a directory; `mkdir` adds one entry
and changes none. `Extends` is what any number of such calls leave as it was.
-/

namespace FileTree

/-- The names on the way from the root. -/
abbrev Place := List (List UInt8)

inductive Node (α : Type) where
  | dir
  | file (contents : α)

inductive Errno where
  | eexist
  | enoent
  | enotdir
deriving DecidableEq

end FileTree

section Trees

open FileTree Paths

structure FileTree (α : Type) where
  node : Place → Option (Node α)
  cwd : Place
  root : node [] = some .dir
  closed : ∀ place name n, node (place ++ [name]) = some n → node place = some .dir
  cwdDir : node cwd = some .dir

variable {α : Type}

/-- Where looking up a path starts. -/
def FileTree.start (t : FileTree α) (path : List UInt8) : Place :=
  if path.head? = some slash then [] else t.cwd

/-- Every component is looked up in a directory. -/
def FileTree.walk (t : FileTree α) : Place → List (List UInt8) → Except Errno Place
  | place, [] => .ok place
  | place, name :: names =>
      match t.node place with
      | some .dir => t.walk (enter place name) names
      | some (.file _) => .error .enotdir
      | none => .error .enoent

def FileTree.stat (t : FileTree α) (path : List UInt8) : Except Errno (Node α) :=
  if path = [] then .error .enoent
  else
    match t.walk (t.start path) (components path) with
    | .error e => .error e
    | .ok place =>
        match t.node place with
        | some n => .ok n
        | none => .error .enoent

theorem FileTree.dir_dropLast (t : FileTree α) {place : Place} {n : Node α} (h : t.node place = some n) :
    t.node place.dropLast = some .dir := by
  rcases List.eq_nil_or_concat' place with rfl | ⟨init, last, rfl⟩
  · exact t.root
  · rw [List.dropLast_concat]
    exact t.closed init last n h

def FileTree.addDir (t : FileTree α) (place : Place) (parent : t.node place.dropLast = some .dir) :
    FileTree α where
  node p := if p = place then some .dir else t.node p
  cwd := t.cwd
  root := by
    split
    · rfl
    · exact t.root
  closed p name n h := by
    split
    · rfl
    · split at h
      · next here =>
          rw [← here, List.dropLast_concat] at parent
          exact parent
      · exact t.closed p name n h
  cwdDir := by
    split
    · rfl
    · exact t.cwdDir

/-- A new entry needs a place where there is none, in a directory. -/
def FileTree.mkdirAt (t : FileTree α) (place : Place) : FileTree α × Option Errno :=
  match t.node place with
  | some _ => (t, some .eexist)
  | none =>
      match parent : t.node place.dropLast with
      | some .dir => (t.addDir place parent, none)
      | some (.file _) => (t, some .enotdir)
      | none => (t, some .enoent)

/-- The components a path has between its slashes. -/
def FileTree.names (path : List UInt8) : List (List UInt8) := (components path).filter (· ≠ [])

/-- Repeated slashes are one here, and those at the end are none. -/
def FileTree.mkdir (t : FileTree α) (path : List UInt8) : FileTree α × Option Errno :=
  if path = [] then (t, some .enoent)
  else
    match t.walk (t.start path) (names path) with
    | .error e => (t, some e)
    | .ok place => t.mkdirAt place

/-- Every entry of `t` is there unchanged, and every file of `t'` was there. -/
structure FileTree.Extends (t t' : FileTree α) : Prop where
  kept : ∀ place n, t.node place = some n → t'.node place = some n
  files : ∀ place contents, t'.node place = some (.file contents) →
    t.node place = some (.file contents)
  cwd : t'.cwd = t.cwd

section Mkdir
variable {t t' t'' : FileTree α} {place : Place}

theorem FileTree.Extends.refl (t : FileTree α) : Extends t t := ⟨fun _ _ h => h, fun _ _ h => h, rfl⟩

theorem FileTree.Extends.trans (h : Extends t t') (h' : Extends t' t'') : Extends t t'' where
  kept place n hn := h'.kept place n (h.kept place n hn)
  files place contents hc := h.files place contents (h'.files place contents hc)
  cwd := h'.cwd.trans h.cwd

theorem FileTree.Extends.start (h : Extends t t') (path : List UInt8) : t'.start path = t.start path := by
  rw [FileTree.start, FileTree.start, h.cwd]

theorem FileTree.mkdirAt_of_some {n : Node α} (h : t.node place = some n) :
    t.mkdirAt place = (t, some .eexist) := by
  simp only [FileTree.mkdirAt, h]

theorem FileTree.mkdirAt_of_none (h : t.node place = none) (parent : t.node place.dropLast = some .dir) :
    t.mkdirAt place = (t.addDir place parent, none) := by
  simp only [FileTree.mkdirAt, h]
  split
  · rfl
  · next other => rw [parent] at other; cases other
  · next other => rw [parent] at other; cases other

theorem FileTree.addDir_extends (parent : t.node place.dropLast = some .dir)
    (h : t.node place = none) : Extends t (t.addDir place parent) where
  kept p n hn := by
    have other : p ≠ place := by
      rintro rfl
      rw [h] at hn
      cases hn
    simpa only [FileTree.addDir, if_neg other] using hn
  files p contents hc := by
    simp only [FileTree.addDir] at hc
    split at hc
    · cases hc
    · exact hc
  cwd := rfl

/-- A walk goes the same way when entries have been added. -/
theorem FileTree.Extends.walk (h : Extends t t') {names : List (List UInt8)} {place last : Place}
    (walked : t.walk place names = .ok last) : t'.walk place names = .ok last := by
  induction names generalizing place with
  | nil => exact walked
  | cons name names ih =>
      rw [FileTree.walk] at walked ⊢
      cases here : t.node place with
      | none => simp [here] at walked
      | some n =>
          rw [h.kept place n here]
          cases n with
          | dir => exact ih (by simpa only [here] using walked)
          | file contents => simp [here] at walked

theorem FileTree.walk_append (t : FileTree α) (place : Place) (front back : List (List UInt8)) :
    t.walk place (front ++ back) = (t.walk place front).bind (t.walk · back) := by
  induction front generalizing place with
  | nil => rfl
  | cons name front ih =>
      rw [List.cons_append, FileTree.walk, FileTree.walk]
      cases t.node place with
      | none => rfl
      | some n =>
          cases n with
          | dir => exact ih (enter place name)
          | file contents => rfl

/-- What a walk has passed is a directory. -/
theorem FileTree.walk_dir (front : List (List UInt8)) {back : List (List UInt8)} {last : Place}
    (nonempty : back ≠ [])
    (walked : t.walk place (front ++ back) = .ok last) :
    ∃ middle, t.walk place front = .ok middle ∧ t.node middle = some .dir := by
  rw [FileTree.walk_append] at walked
  cases hfront : t.walk place front with
  | error e => simp [hfront, Except.bind] at walked
  | ok middle =>
      refine ⟨middle, rfl, ?_⟩
      obtain ⟨name, names, rfl⟩ := List.exists_cons_of_ne_nil nonempty
      simp only [hfront, Except.bind, FileTree.walk] at walked
      cases here : t.node middle with
      | none => simp [here] at walked
      | some n =>
          cases n with
          | dir => rfl
          | file contents => simp [here] at walked

/-- A directory at the end of a walk has only directories before it. -/
theorem FileTree.walk_start_dir {names : List (List UInt8)} {last : Place}
    (walked : t.walk place names = .ok last) (dir : t.node last = some .dir) :
    t.node place = some .dir := by
  cases names with
  | nil =>
      obtain rfl : place = last := Except.ok.inj walked
      exact dir
  | cons name names =>
      obtain ⟨middle, here, hdir⟩ := t.walk_dir [] (List.cons_ne_nil name names) walked
      obtain rfl : place = middle := Except.ok.inj here
      exact hdir

/-- Making a directory in one leaves an entry at its place, new or not. -/
theorem FileTree.mkdirAt_spec (parent : t.node place.dropLast = some .dir) :
    ((t.mkdirAt place).2 = none ∨ (t.mkdirAt place).2 = some .eexist) ∧
      Extends t (t.mkdirAt place).1 ∧ ∃ n, (t.mkdirAt place).1.node place = some n := by
  cases here : t.node place with
  | none =>
      rw [FileTree.mkdirAt_of_none here parent]
      exact ⟨Or.inl rfl, FileTree.addDir_extends parent here, .dir, if_pos rfl⟩
  | some n =>
      rw [FileTree.mkdirAt_of_some here]
      exact ⟨Or.inr rfl, Extends.refl t, n, here⟩

/-- Wherever a component leads from a directory, there is a directory above. -/
theorem FileTree.enter_parent (h : t.node place = some .dir) (name : List UInt8) :
    t.node (enter place name).dropLast = some .dir := by
  rw [enter]
  split
  · exact t.dir_dropLast h
  · split
    · exact t.dir_dropLast (t.dir_dropLast h)
    · rwa [List.dropLast_concat]

end Mkdir

section Way

/-- Make every directory on the way; `false` when something else is in the way. -/
def FileTree.makeWay : FileTree α → Place → List (List UInt8) → FileTree α × Bool
  | t, _, [] => (t, true)
  | t, place, name :: names =>
      if name = [] then t.makeWay place names
      else
        match t.node place with
        | some .dir => (t.mkdirAt (enter place name)).1.makeWay (enter place name) names
        | _ => (t, false)

def FileTree.isFile (t : FileTree α) (place : Place) : Bool :=
  match t.node place with
  | some (.file _) => true
  | _ => false

/-- The first file on the way has nothing but slashes behind it. -/
def FileTree.endsInFile (t : FileTree α) : Place → List (List UInt8) → Bool
  | place, [] => t.isFile place
  | place, name :: names =>
      if t.isFile place then (name :: names).all (· = []) else t.endsInFile (enter place name) names

variable {t t' : FileTree α} {place : Place} {names : List (List UInt8)}

theorem FileTree.Extends.isFile (h : Extends t t') (place : Place) : t'.isFile place = t.isFile place := by
  simp only [FileTree.isFile]
  cases here : t.node place with
  | some n => rw [h.kept place n here]
  | none =>
      cases there : t'.node place with
      | none => rfl
      | some n =>
          cases n with
          | dir => rfl
          | file contents =>
              rw [h.files place contents there] at here
              cases here

theorem FileTree.Extends.endsInFile (h : Extends t t') (place : Place) (names : List (List UInt8)) :
    t'.endsInFile place names = t.endsInFile place names := by
  induction names generalizing place with
  | nil => exact h.isFile place
  | cons name names ih => rw [FileTree.endsInFile, FileTree.endsInFile, h.isFile, ih]

theorem FileTree.endsInFile_of_file (h : t.isFile place = true) (names : List (List UInt8)) :
    t.endsInFile place names = names.all (· = []) := by
  cases names with
  | nil => exact h
  | cons name names => rw [FileTree.endsInFile, if_pos h]

/-- After a walk only its end can be a file. -/
theorem FileTree.endsInFile_of_walk {last : Place} (walked : t.walk place names = .ok last) :
    t.endsInFile place names = t.isFile last := by
  induction names generalizing place with
  | nil =>
      obtain rfl : place = last := Except.ok.inj walked
      rfl
  | cons name names ih =>
      obtain ⟨middle, here, dir⟩ := t.walk_dir [] (List.cons_ne_nil name names) walked
      obtain rfl : place = middle := Except.ok.inj here
      have noFile : ¬ t.isFile place = true := by simp [FileTree.isFile, dir]
      rw [FileTree.walk] at walked
      simp only [dir] at walked
      rw [FileTree.endsInFile, if_neg noFile, ih walked]

/-- What making a way comes to: it succeeds up to a file, and if there is none a success ends in a
directory that can be walked to. -/
structure FileTree.MadeWay (t : FileTree α) (place : Place) (names : List (List UInt8))
    (made : FileTree α × Bool) : Prop where
  grown : Extends t made.1
  upToFile : t.endsInFile place names = true → made.2 = true
  toDir : t.endsInFile place names = false → made.2 = true →
    ∃ last, made.1.walk place names = .ok last ∧ made.1.node last = some .dir

variable {name : List UInt8} {made : FileTree α × Bool}

theorem FileTree.madeWay_nil {n : Node α} (h : t.node place = some n) :
    MadeWay t place [] (t, true) where
  grown := Extends.refl t
  upToFile _ := rfl
  toDir noFile _ := by
    refine ⟨place, rfl, ?_⟩
    cases n with
    | dir => exact h
    | file contents => simp [FileTree.endsInFile, FileTree.isFile, h] at noFile

/-- An empty component stays where it is. -/
theorem FileTree.MadeWay.stay (h : MadeWay t place names made) : MadeWay t place ([] :: names) made := by
  have stays : enter place [] = place := if_pos (Or.inl rfl)
  have same : t.endsInFile place ([] :: names) = t.endsInFile place names := by
    rw [FileTree.endsInFile, stays]
    split
    · next file => rw [FileTree.endsInFile_of_file file]; rfl
    · rfl
  refine ⟨h.grown, fun file => h.upToFile (same ▸ file), fun noFile done => ?_⟩
  obtain ⟨last, walked, dir⟩ := h.toDir (same ▸ noFile) done
  refine ⟨last, ?_, dir⟩
  rw [FileTree.walk, FileTree.walk_start_dir walked dir, stays]
  exact walked

/-- From a directory the way goes on in what the tree has grown to. -/
theorem FileTree.MadeWay.enter (here : t.node place = some .dir) (first : Extends t t')
    (h : MadeWay t' (enter place name) names made) : MadeWay t place (name :: names) made := by
  have noFile : ¬ t.isFile place = true := by simp [FileTree.isFile, here]
  have same : t.endsInFile place (name :: names) =
      t'.endsInFile (Paths.enter place name) names := by
    rw [FileTree.endsInFile, if_neg noFile, first.endsInFile]
  refine ⟨first.trans h.grown, fun file => h.upToFile (same ▸ file), fun noFile' done => ?_⟩
  obtain ⟨last, walked, dir⟩ := h.toDir (same ▸ noFile') done
  refine ⟨last, ?_, dir⟩
  rw [FileTree.walk, h.grown.kept place .dir (first.kept place .dir here)]
  exact walked

/-- A file with a component behind it stops the way. -/
theorem FileTree.madeWay_stopped {contents : α} (here : t.node place = some (.file contents))
    (named : name ≠ []) : MadeWay t place (name :: names) (t, false) where
  grown := Extends.refl t
  upToFile file := by simp [FileTree.endsInFile, FileTree.isFile, here, named] at file
  toDir _ done := absurd done Bool.false_ne_true

theorem FileTree.makeWay_spec (t : FileTree α) (place : Place) {n : Node α} (h : t.node place = some n)
    (names : List (List UInt8)) : MadeWay t place names (t.makeWay place names) := by
  induction names generalizing t place n with
  | nil => exact FileTree.madeWay_nil h
  | cons name names ih =>
      by_cases empty : name = []
      · subst empty
        rw [FileTree.makeWay, if_pos rfl]
        exact (ih t place h).stay
      · rw [FileTree.makeWay, if_neg empty, h]
        cases n with
        | file contents => exact FileTree.madeWay_stopped h empty
        | dir =>
            obtain ⟨-, first, m, there⟩ := FileTree.mkdirAt_spec (t.enter_parent h name)
            exact (ih _ (enter place name) there).enter h first

end Way

end Trees
