import Kaufbot.Storage.LocalDirs

/-!
What a successful `ensure_dirs` says about the directory. The calls of `mkdir`
are compared with a walk over the components of the path that makes what is
missing; nothing that was there is changed. The walk ends in a directory unless
a file stands where the path leads, and neither the first look nor `EEXIST`
tells a file from a directory.
-/

namespace Kaufbot

open CString FileTree
open Paths (slash components enter components_join components_single components_slash)

variable {α : Type}

/-- The beginning of the path is made up to `front`, which leads to `place`. -/
structure Passed (t : FileTree α) (start : Place) (front : List UInt8) (place : Place) : Prop where
  boundary : front = [] ∨ ∃ q, front = q ++ [slash]
  starts : ∀ comp, slash ∉ comp → t.start (front ++ comp) = start
  walked : t.walk start (names front) = .ok place
  entry : ∃ n, t.node place = some n

section Names
variable {front comp : List UInt8}

theorem names_nil : names [] = [] := by simp [names, components]

theorem names_slash : names [slash] = [] := by
  rw [names, components_slash]
  exact names_nil

theorem names_append (h : front = [] ∨ ∃ q, front = q ++ [slash]) (l : List UInt8) :
    names (front ++ l) = names front ++ names l := by
  rcases h with rfl | ⟨q, rfl⟩
  · rw [names_nil, List.nil_append, List.nil_append]
  · have last : names (q ++ [slash]) = names q := by
      rw [names, components_join, List.filter_append]
      exact (congrArg _ names_nil).trans (List.append_nil _)
    rw [last, List.append_assoc, List.singleton_append, names, components_join, List.filter_append]
    rfl

theorem names_single (h : slash ∉ comp) (nonempty : comp ≠ []) : names comp = [comp] := by
  simp [names, components_single h, nonempty]

theorem start_append (t : FileTree α) (nonempty : front ≠ []) (l : List UInt8) :
    t.start (front ++ l) = t.start front := by
  obtain ⟨b, front, rfl⟩ := List.exists_cons_of_ne_nil nonempty
  rfl

end Names

section Walk
variable {t : FileTree α} {start place : Place} {front comp : List UInt8}

/-- A slash behind a slash makes no directory. -/
theorem Passed.mkdir_front (h : Passed t start front place) (nonempty : front ≠ []) :
    t.mkdir front = (t, some .eexist) := by
  obtain ⟨n, entry⟩ := h.entry
  have starts := h.starts [] List.not_mem_nil
  rw [List.append_nil] at starts
  simp only [FileTree.mkdir, if_neg nonempty, starts, h.walked, t.mkdirAt_of_some entry]

theorem Passed.mkdir_comp (h : Passed t start front place) (inside : slash ∉ comp)
    (nonempty : comp ≠ []) :
    t.mkdir (front ++ comp) =
      match t.node place with
      | some .dir => t.mkdirAt (enter place comp)
      | _ => (t, some .enotdir) := by
  obtain ⟨n, entry⟩ := h.entry
  have path : front ++ comp ≠ [] := fun empty => nonempty (List.append_eq_nil_iff.mp empty).2
  rw [FileTree.mkdir, if_neg path, h.starts comp inside, names_append h.boundary,
    names_single inside nonempty, t.walk_append, h.walked, entry]
  cases n with
  | dir => simp [Except.bind, FileTree.walk, entry]
  | file contents => simp [Except.bind, FileTree.walk, entry]

/-- One more slash leads nowhere else. -/
theorem Passed.slash (h : Passed t start front place) (nonempty : front ≠ []) :
    Passed t start (front ++ [Paths.slash]) place where
  boundary := Or.inr ⟨front, rfl⟩
  starts comp _ := by
    have starts := h.starts [] List.not_mem_nil
    rw [List.append_nil] at starts
    rw [List.append_assoc, start_append t nonempty, starts]
  walked := by
    rw [names_append h.boundary, names_slash, List.append_nil]
    exact h.walked
  entry := h.entry

/-- A component that was made leads to its entry. -/
theorem Passed.component (h : Passed t start front place) (inside : Paths.slash ∉ comp)
    (nonempty : comp ≠ []) (dir : t.node place = some .dir) :
    Passed (t.mkdirAt (enter place comp)).1 start (front ++ comp ++ [Paths.slash])
      (enter place comp) := by
  obtain ⟨-, grown, entry⟩ := FileTree.mkdirAt_spec (t.enter_parent dir comp)
  have path : front ++ comp ≠ [] := fun empty => nonempty (List.append_eq_nil_iff.mp empty).2
  refine ⟨Or.inr ⟨_, rfl⟩, fun c _ => ?_, ?_, entry⟩
  · rw [List.append_assoc, grown.start, start_append t path, h.starts comp inside]
  · have last : names (front ++ comp ++ [Paths.slash]) = names front ++ [comp] := by
      rw [names, components_join, List.filter_append, ← names_single inside nonempty,
        ← names_append h.boundary]
      exact (congrArg _ names_nil).trans (List.append_nil _)
    rw [last]
    refine grown.walk ?_
    rw [t.walk_append, h.walked]
    simp [Except.bind, FileTree.walk, dir]

section Prefixes
variable {t' : FileTree α} {back : List UInt8} {names : List (List UInt8)} {err : Option Errno}

/-- The calls from a component on are the call on it, and the calls behind it if that does not
fail. -/
theorem mkdirPrefixes_cases (first : components back = comp :: names) (t : FileTree α)
    (front : List UInt8) :
    (names = [] ∧ mkdirPrefixes t front back = ((t.mkdir (front ++ comp)).1,
      if mkdirFailed (t.mkdir (front ++ comp)).2 then -1 else 0)) ∨
    ∃ l, components l = names ∧ mkdirPrefixes t front back =
      if mkdirFailed (t.mkdir (front ++ comp)).2 then ((t.mkdir (front ++ comp)).1, -1)
      else mkdirPrefixes (t.mkdir (front ++ comp)).1 (front ++ comp ++ [Paths.slash]) l := by
  obtain ⟨inside, ⟨rfl, last⟩ | ⟨l, rfl, later⟩⟩ := Paths.components_eq_cons first
  · refine Or.inl ⟨last, ?_⟩
    rw [← List.append_nil back, mkdirPrefixes_comp inside, List.append_nil]
    rfl
  · refine Or.inr ⟨l, later, ?_⟩
    rw [mkdirPrefixes_comp inside, mkdirPrefixes, if_pos rfl]

theorem mkdirPrefixes_failed (first : components back = comp :: names)
    (made : t.mkdir (front ++ comp) = (t', err)) (failed : mkdirFailed err = true) :
    mkdirPrefixes t front back = (t', -1) := by
  rcases mkdirPrefixes_cases first t front with ⟨-, calls⟩ | ⟨l, -, calls⟩
  · rw [calls, made, failed, if_pos rfl]
  · rw [calls, made, failed, if_pos rfl]

theorem mkdirPrefixes_made (first : components back = comp :: names)
    (made : t.mkdir (front ++ comp) = (t', err)) (fine : mkdirFailed err = false)
    {result : FileTree α × Int} (last : names = [] → result = (t', 0))
    (next : ∀ l, components l = names →
      mkdirPrefixes t' (front ++ comp ++ [Paths.slash]) l = result) :
    mkdirPrefixes t front back = result := by
  rcases mkdirPrefixes_cases first t front with ⟨none, calls⟩ | ⟨l, later, calls⟩
  · rw [calls, made, fine, last none, if_neg Bool.false_ne_true]
  · rw [calls, made, fine, if_neg Bool.false_ne_true, next l later]

end Prefixes

/-- The calls on the beginnings of the path make the way it goes. -/
theorem Passed.mkdirPrefixes_eq (h : Passed t start front place) (back : List UInt8)
    (path : front ≠ [] ∨ back ≠ [] ∧ back.head? ≠ some Paths.slash) :
    mkdirPrefixes t front back = ((t.makeWay place (components back)).1,
      if (t.makeWay place (components back)).2 then 0 else -1) := by
  induction hn : components back generalizing t front place back with
  | nil => exact absurd hn (Paths.components_ne_nil back)
  | cons comp names ih =>
      obtain ⟨inside, stop⟩ := Paths.components_eq_cons hn
      rw [FileTree.makeWay]
      by_cases empty : comp = []
      · subst empty
        have nonempty : front ≠ [] := by
          rcases path with path | ⟨path, noSlash⟩
          · exact path
          · rcases stop with ⟨rfl, -⟩ | ⟨l, rfl, -⟩
            · exact absurd rfl path
            · exact absurd rfl noSlash
        have made := h.mkdir_front nonempty
        rw [if_pos rfl]
        rw [← List.append_nil front] at made
        refine mkdirPrefixes_made hn made rfl (fun last => last ▸ rfl) (fun l later => ?_)
        rw [List.append_nil]
        exact ih (h.slash nonempty) l (Or.inl (by simp)) later
      · obtain ⟨n, entry⟩ := h.entry
        have made := h.mkdir_comp inside empty
        rw [if_neg empty]
        rw [entry] at made ⊢
        cases n with
        | file contents => exact mkdirPrefixes_failed hn made rfl
        | dir =>
            obtain ⟨answer, -, -⟩ := FileTree.mkdirAt_spec (t.enter_parent entry comp)
            have fine : mkdirFailed (t.mkdirAt (enter place comp)).2 = false := by
              rcases answer with answer | answer <;> rw [answer] <;> rfl
            exact mkdirPrefixes_made hn made fine (fun last => last ▸ rfl)
              (fun l later => ih (h.component inside empty entry) l (Or.inl (by simp)) later)

end Walk

section Ensure
variable {t : FileTree α}

theorem passed_root (t : FileTree α) : Passed t [] [slash] [] :=
  ⟨Or.inr ⟨[], rfl⟩, fun _ _ => rfl, by rw [names_slash]; rfl, .dir, t.root⟩

theorem passed_cwd (t : FileTree α) : Passed t t.cwd [] t.cwd := by
  refine ⟨Or.inl rfl, fun comp inside => ?_, by rw [names_nil]; rfl, .dir, t.cwdDir⟩
  have relative : ¬ comp.head? = some slash := fun head => inside (List.mem_of_mem_head? head)
  exact if_neg relative

/-- `mkdir_p` makes the way over the components, whatever the slashes between them. -/
theorem mkdirP_eq (t : FileTree α) (path : CString) (nonempty : path.bytes ≠ []) :
    mkdirP t path =
      some ((t.makeWay (t.start path.bytes) (components path.bytes)).1,
        if (t.makeWay (t.start path.bytes) (components path.bytes)).2 then 0 else -1) := by
  obtain ⟨b, tail, bytes⟩ := List.exists_cons_of_ne_nil nonempty
  have length : path.length = tail.length + 1 := by
    rw [CString.length, bytes]
    rfl
  have nulFree := path.nulFree
  rw [bytes] at nulFree
  simp only [mkdirP, bytes, length, List.cons_append, List.getElem?_cons_zero, Option.bind_eq_bind,
    Option.bind_some]
  by_cases first : b = slash
  · subst first
    have looped := mkdirLoop_eq [slash] tail nulFree (by omega : tail.length + 1 < tail.length + 3) t
    rw [(passed_root t).mkdirPrefixes_eq tail (Or.inl (by simp))] at looped
    rw [components_slash, FileTree.makeWay, if_pos rfl]
    exact looped
  · have looped := mkdirLoop_eq [] (b :: tail) nulFree
      (by simp : (b :: tail).length + 1 < tail.length + 3) t
    rw [(passed_cwd t).mkdirPrefixes_eq (b :: tail) (Or.inr (by simpa using first))] at looped
    have relative : t.start (b :: tail) = t.cwd := if_neg (by simpa using first)
    rw [if_neg first, relative]
    exact looped

/-- The path and each of its beginnings before a slash lead to a directory. -/
def DirectoryPath (t : FileTree α) (path : List UInt8) : Prop :=
  t.stat path = .ok .dir ∧ ∀ q rest, q ≠ [] → path = q ++ slash :: rest → t.stat q = .ok .dir

/-- A call changes no entry that was there, and after a call that returns 0 the path is one of
directories. -/
def EnsuresDirectory (t : FileTree α) (basePath : CString) : Prop :=
  ∃ t' rc, localEnsureDirs t basePath = some (t', rc) ∧ Extends t t' ∧
    (rc = 0 → DirectoryPath t' basePath.bytes)

theorem stat_eq_ok {path : List UInt8} {n : Node α} :
    t.stat path = .ok n ↔ path ≠ [] ∧ ∃ place,
      t.walk (t.start path) (components path) = .ok place ∧ t.node place = some n := by
  rw [FileTree.stat]
  split
  · next empty => simp [empty]
  · next nonempty =>
      cases walked : t.walk (t.start path) (components path) with
      | error e => simp
      | ok place => cases entry : t.node place <;> simp [nonempty, entry]

/-- Whoever can walk to a directory has walked through directories. -/
theorem directoryPath_iff {path : List UInt8} :
    DirectoryPath t path ↔ t.stat path = .ok .dir := by
  refine ⟨And.left, fun h => ⟨h, fun q rest nonempty split => ?_⟩⟩
  obtain ⟨-, place, walked, -⟩ := stat_eq_ok.mp h
  rw [split, start_append t nonempty, components_join] at walked
  obtain ⟨middle, there, dir⟩ := t.walk_dir _ (Paths.components_ne_nil rest) walked
  exact stat_eq_ok.mpr ⟨nonempty, middle, there, dir⟩

/-- Where the path leads to a file, slashes at its end or not, no directory is found. -/
theorem stat_ne_dir {path : List UInt8}
    (file : t.endsInFile (t.start path) (components path) = true) : t.stat path ≠ .ok .dir := by
  intro found
  obtain ⟨-, place, walked, dir⟩ := stat_eq_ok.mp found
  rw [t.endsInFile_of_walk walked] at file
  simp [FileTree.isFile, dir] at file

/-- The first look or `mkdir_p`: what is left, and when the call succeeds. -/
theorem localEnsureDirs_cases (t : FileTree α) (basePath : CString) :
    (∃ n, t.stat basePath.bytes = .ok n ∧ localEnsureDirs t basePath = some (t, 0)) ∨
    (basePath.bytes = [] ∧ localEnsureDirs t basePath = some (t, -1)) ∨
    (basePath.bytes ≠ [] ∧ localEnsureDirs t basePath =
      some ((t.makeWay (t.start basePath.bytes) (components basePath.bytes)).1,
        if (t.makeWay (t.start basePath.bytes) (components basePath.bytes)).2 then 0 else -1)) := by
  rw [localEnsureDirs]
  cases found : t.stat basePath.bytes with
  | ok n => exact Or.inl ⟨n, rfl, rfl⟩
  | error e =>
      refine Or.inr ?_
      by_cases empty : basePath.bytes = []
      · obtain rfl : basePath = .empty := CString.ext empty
        exact Or.inl ⟨rfl, rfl⟩
      · refine Or.inr ⟨empty, ?_⟩
        rw [mkdirP_eq t basePath empty]
        cases (t.makeWay (t.start basePath.bytes) (components basePath.bytes)).2 <;> rfl

theorem start_node (t : FileTree α) (path : List UInt8) : t.node (t.start path) = some .dir := by
  rw [FileTree.start]
  split
  · exact t.root
  · exact t.cwdDir

/-- A file where the path leads is taken for the directory. -/
theorem not_ensuresDirectory {basePath : CString}
    (file : t.endsInFile (t.start basePath.bytes) (components basePath.bytes) = true) :
    ¬ EnsuresDirectory t basePath := by
  rintro ⟨t', rc, done, grown, directory⟩
  have still : t'.endsInFile (t'.start basePath.bytes) (components basePath.bytes) = true := by
    rwa [grown.start, grown.endsInFile]
  have success : rc = 0 := by
    rcases localEnsureDirs_cases t basePath with ⟨n, -, same⟩ | ⟨empty, -⟩ | ⟨-, made⟩
    · rw [same] at done
      exact (Prod.mk.inj (Option.some.inj done)).2.symm
    · have noFile : t.isFile (t.start []) = false := by simp [FileTree.isFile, start_node]
      rw [empty] at file
      simp [components, FileTree.endsInFile, noFile, enter] at file
    · have way := t.makeWay_spec _ (start_node t basePath.bytes) (components basePath.bytes)
      rw [made, way.upToFile file] at done
      exact (Prod.mk.inj (Option.some.inj done)).2.symm
  exact stat_ne_dir still (directory success).1

/-- Without a file there, the entry found by the first look is a directory, and a way that has been
made ends in one. -/
theorem ensuresDirectory_of_noFile {basePath : CString}
    (noFile : t.endsInFile (t.start basePath.bytes) (components basePath.bytes) = false) :
    EnsuresDirectory t basePath := by
  rcases localEnsureDirs_cases t basePath with ⟨n, found, same⟩ | ⟨-, failed⟩ | ⟨nonempty, made⟩
  · refine ⟨t, 0, same, Extends.refl t, fun _ => directoryPath_iff.mpr ?_⟩
    obtain ⟨-, place, walked, entry⟩ := stat_eq_ok.mp found
    rw [t.endsInFile_of_walk walked, FileTree.isFile, entry] at noFile
    cases n with
    | dir => exact found
    | file contents => cases noFile
  · exact ⟨t, -1, failed, Extends.refl t, fun h => absurd h (by decide)⟩
  · have way := t.makeWay_spec _ (start_node t basePath.bytes) (components basePath.bytes)
    refine ⟨_, _, made, way.grown, fun success => directoryPath_iff.mpr ?_⟩
    have done : (t.makeWay (t.start basePath.bytes) (components basePath.bytes)).2 = true := by
      by_contra failed
      rw [if_neg failed] at success
      cases success
    obtain ⟨last, walked, dir⟩ := way.toDir noFile done
    refine stat_eq_ok.mpr ⟨nonempty, last, ?_, dir⟩
    rwa [way.grown.start]

end Ensure

/-- A call that returns 0 has established the directory, in every file system and for every path,
exactly when the path does not lead to a file. -/
theorem ensuresDirectory_iff (t : FileTree α) (basePath : CString) :
    EnsuresDirectory t basePath ↔
      t.endsInFile (t.start basePath.bytes) (components basePath.bytes) = false := by
  constructor
  · intro ensured
    by_contra file
    exact not_ensuresDirectory (by simpa using file) ensured
  · exact ensuresDirectory_of_noFile

/-- A file "data" in the root directory, which is the working directory. -/
def fileInTheWay : FileTree Unit where
  node place := if place = [] then some .dir else if place = [(lit "data").bytes] then
    some (.file ()) else none
  cwd := []
  root := rfl
  closed place name n h := by
    rw [if_neg (by simp)] at h
    split at h
    · next here =>
        obtain ⟨rfl, -⟩ := List.append_inj' (here.trans (List.nil_append _).symm) rfl
        rfl
    · cases h
  cwdDir := rfl

theorem file_taken_for_directory : ¬ EnsuresDirectory fileInTheWay (lit "data") :=
  not_ensuresDirectory (by decide)

end Kaufbot
