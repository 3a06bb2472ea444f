import Mathlib.Data.List.Basic
import Mathlib.Data.List.TakeWhile

/-!
Path names as POSIX reads them, without links: components between slashes, of
which the empty ones and "." stay where they are and ".." goes up. A name all of
whose components are plain leads below the directory it is looked up in.
-/

namespace Paths

def slash : UInt8 := 47
def period : UInt8 := 46

def components (path : List UInt8) : List (List UInt8) := path.splitOn slash

/-- Where one component leads, from a place given by the names on the way to it. -/
def enter (place : List (List UInt8)) (name : List UInt8) : List (List UInt8) :=
  if name = [] ∨ name = [period] then place
  else if name = [period, period] then place.dropLast
  else place ++ [name]

/-- Where a path leads, from the working directory unless it starts with a slash. -/
def resolve (cwd : List (List UInt8)) (path : List UInt8) : List (List UInt8) :=
  (components path).foldl enter (if path.head? = some slash then [] else cwd)

/-- No component means another directory than the one it is in. -/
def Plain (name : List UInt8) : Prop :=
  ∀ c ∈ components name, c ≠ [period] ∧ c ≠ [period, period]

/-- The path leads to a place below the directory `base`, from any working directory. -/
def Below (base path : List UInt8) : Prop :=
  ∀ cwd, ∃ names, names ≠ [] ∧ resolve cwd path = resolve cwd (base ++ [slash]) ++ names

section Components
variable {base name front l : List UInt8}

theorem components_ne_nil (l : List UInt8) : components l ≠ [] := by
  simp [components, List.splitOn_eq_splitOnP]

theorem components_slash (l : List UInt8) : components (slash :: l) = [] :: components l := by
  simp [components, List.splitOn_eq_splitOnP, List.splitOnP_cons_eq_if_modifyHead]

theorem components_cons {b : UInt8} (hb : b ≠ slash) (l : List UInt8) :
    components (b :: l) = (components l).modifyHead (b :: ·) := by
  simp [components, List.splitOn_eq_splitOnP, List.splitOnP_cons_eq_if_modifyHead, hb]

/-- A path is looked up component by component. -/
theorem components_join (base name : List UInt8) :
    components (base ++ slash :: name) = components base ++ components name := by
  induction base with
  | nil => exact components_slash name
  | cons b base ih =>
      by_cases hb : b = slash
      · rw [hb, List.cons_append, components_slash, components_slash, ih]
        rfl
      · obtain ⟨first, rest, split⟩ := List.exists_cons_of_ne_nil (components_ne_nil base)
        rw [List.cons_append, components_cons hb, components_cons hb, ih, split]
        rfl

/-- What has no slash belongs to the component behind it. -/
theorem components_front (h : slash ∉ front) (l : List UInt8) :
    components (front ++ l) = (components l).modifyHead (front ++ ·) := by
  obtain ⟨first, rest, split⟩ := List.exists_cons_of_ne_nil (components_ne_nil l)
  induction front with
  | nil => rw [List.nil_append, split]; rfl
  | cons b front ih =>
      have hb : b ≠ slash := fun heq => h (heq ▸ List.mem_cons_self)
      rw [List.cons_append, components_cons hb, ih (fun hmem => h (List.mem_cons_of_mem _ hmem)), split]
      rfl

theorem prefix_first_component {first : List UInt8} {rest : List (List UInt8)}
    (h : components l = first :: rest) : first <+: l := by
  induction l generalizing first rest with
  | nil =>
      obtain ⟨rfl, -⟩ := List.cons.inj (h.symm.trans (by simp [components] : _ = [[]]))
      exact List.prefix_refl _
  | cons b l ih =>
      by_cases hb : b = slash
      · rw [hb, components_slash] at h
        obtain ⟨rfl, -⟩ := List.cons.inj h
        exact List.nil_prefix
      · obtain ⟨first', rest', split⟩ := List.exists_cons_of_ne_nil (components_ne_nil l)
        rw [components_cons hb, split] at h
        obtain ⟨rfl, -⟩ := List.cons.inj h
        exact (List.prefix_cons_inj b).mpr (ih split)

theorem subset_of_mem_components {c : List UInt8} (h : c ∈ components l) : c ⊆ l := by
  induction l generalizing c with
  | nil =>
      obtain rfl : c = [] := by simpa [components] using h
      exact List.Subset.refl _
  | cons b l ih =>
      by_cases hb : b = slash
      · rw [hb, components_slash] at h
        rcases List.mem_cons.mp h with rfl | h
        · exact List.nil_subset _
        · exact fun _ hc => List.mem_cons_of_mem b (ih h hc)
      · obtain ⟨first, rest, split⟩ := List.exists_cons_of_ne_nil (components_ne_nil l)
        rw [components_cons hb, split] at h
        rw [split] at ih
        rcases List.mem_cons.mp h with rfl | h
        · exact List.cons_subset_cons b (ih List.mem_cons_self)
        · exact fun _ hc => List.mem_cons_of_mem b (ih (List.mem_cons_of_mem _ h) hc)

/-- A name whose periods are all in the beginning of its first component, behind something else. -/
theorem plain_of_front {b : UInt8} (h : slash ∉ front) (hb : b ∈ front) (ne : b ≠ period)
    (later : period ∉ l) : Plain (front ++ l) := by
  have other {c : List UInt8} (hc : b ∈ c) : c ≠ [period] ∧ c ≠ [period, period] := by
    constructor <;> (rintro rfl; simp [ne] at hc)
  have none {c : List UInt8} (hc : period ∉ c) : c ≠ [period] ∧ c ≠ [period, period] := by
    constructor <;> (rintro rfl; simp at hc)
  intro c hc
  obtain ⟨first, rest, split⟩ := List.exists_cons_of_ne_nil (components_ne_nil l)
  rw [components_front h, split] at hc
  rcases List.mem_cons.mp hc with rfl | hc
  · exact other (List.mem_append_left _ hb)
  · refine none fun hp => later (subset_of_mem_components ?_ hp)
    rw [split]
    exact List.mem_cons_of_mem _ hc

theorem foldl_enter (place cs : List (List UInt8))
    (plain : ∀ c ∈ cs, c ≠ [period] ∧ c ≠ [period, period]) :
    cs.foldl enter place = place ++ cs.filter (· ≠ []) := by
  induction cs generalizing place with
  | nil => simp
  | cons c cs ih =>
      have here := plain c List.mem_cons_self
      rw [List.foldl_cons, ih _ (fun c hc => plain c (List.mem_cons_of_mem _ hc))]
      by_cases empty : c = []
      · simp [enter, empty]
      · simp [enter, empty, here]

/-- Looking up a plain name in a directory adds its components to the way. -/
theorem resolve_join (cwd : List (List UInt8)) (base : List UInt8) (plain : Plain name) :
    resolve cwd (base ++ slash :: name) =
      resolve cwd (base ++ [slash]) ++ (components name).filter (· ≠ []) := by
  have start : (base ++ slash :: name).head? = (base ++ [slash]).head? := by
    cases base <;> rfl
  have directory : (components (base ++ [slash])) = components base ++ [[]] := by
    have joined := components_join base []
    simpa [components] using joined
  rw [resolve, resolve, start, components_join, directory, List.foldl_append, List.foldl_append,
    foldl_enter _ _ plain]
  rfl

/-- The first component of a name that starts with something else than a slash. -/
theorem filter_components_front {b : UInt8} (h : slash ∉ front) (hb : b ∈ front) (l : List UInt8) :
    ∃ first rest, components l = first :: rest ∧
      (components (front ++ l)).filter (· ≠ []) = (front ++ first) :: rest.filter (· ≠ []) := by
  obtain ⟨first, rest, split⟩ := List.exists_cons_of_ne_nil (components_ne_nil l)
  refine ⟨first, rest, split, ?_⟩
  rw [components_front h, split, List.modifyHead_cons,
    List.filter_cons_of_pos (by simp [List.ne_nil_of_mem hb])]

/-- A name without a slash is its only component. -/
theorem components_single (h : slash ∉ front) : components front = [front] := by
  have single := components_front h []
  have none : components [] = [[]] := by simp [components]
  rwa [List.append_nil, none, List.modifyHead_cons, List.append_nil] at single

/-- A string up to its first slash, and what is there: the slash or the end. -/
theorem exists_component (l : List UInt8) :
    ∃ comp rest, l = comp ++ rest ∧ slash ∉ comp ∧ (rest = [] ∨ ∃ back, rest = slash :: back) := by
  refine ⟨l.takeWhile (· != slash), l.dropWhile (· != slash),
    (List.takeWhile_append_dropWhile).symm, fun h => ?_, ?_⟩
  · simpa using List.mem_takeWhile_imp h
  · cases hrest : l.dropWhile (· != slash) with
    | nil => exact Or.inl rfl
    | cons b back =>
        have stop := List.head?_dropWhile_not (· != slash) l
        rw [hrest] at stop
        exact Or.inr ⟨back, by simpa using stop⟩

/-- The first component of a path, and whether a slash is behind it. -/
theorem components_eq_cons {first : List UInt8} {rest : List (List UInt8)}
    (h : components l = first :: rest) :
    slash ∉ first ∧ ((l = first ∧ rest = []) ∨
      ∃ back, l = first ++ slash :: back ∧ components back = rest) := by
  obtain ⟨comp, tail, rfl, inside, stop⟩ := exists_component l
  rcases stop with rfl | ⟨back, rfl⟩
  · rw [List.append_nil, components_single inside] at h
    obtain ⟨rfl, rfl⟩ := List.cons.inj h
    exact ⟨inside, Or.inl ⟨List.append_nil _, rfl⟩⟩
  · rw [components_join, components_single inside] at h
    obtain ⟨rfl, rfl⟩ := List.cons.inj h
    exact ⟨inside, Or.inr ⟨back, rfl, rfl⟩⟩

theorem filter_components_single {b : UInt8} (h : slash ∉ front) (hb : b ∈ front) :
    (components front).filter (· ≠ []) = [front] := by
  rw [components_single h]
  simp [List.ne_nil_of_mem hb]

theorem below_join {b : UInt8} (base : List UInt8) (plain : Plain (b :: l)) (hb : b ≠ slash) :
    Below base (base ++ slash :: b :: l) := by
  intro cwd
  have apart : slash ∉ [b] := fun hmem => hb (List.mem_singleton.mp hmem).symm
  obtain ⟨first, rest, -, split⟩ := filter_components_front apart (List.mem_singleton_self b) l
  refine ⟨_, ?_, resolve_join cwd base plain⟩
  rw [List.singleton_append] at split
  rw [split]
  exact List.cons_ne_nil _ _

end Components

end Paths
