import Kaufbot.Library.CString
import Kaufbot.Library.FileTree
import Kaufbot.Library.StringScan

/-!
How the local backend makes its directory. `mkdir_p` walks over a copy of the
path and cuts it in place before every slash, so that the copy is in turn each
beginning of the path; an entry that exists already counts as made. The copy is
its block of memory up to the NUL, and a result says that no index left it.
-/

namespace Kaufbot

open CString GrowArray StringScan FileTree
open Paths (slash components)

variable {α : Type}

/-- `mkdir(…) != 0 && errno != EEXIST`. -/
def mkdirFailed (err : Option Errno) : Bool := err != none && err != some .eexist

/-- The call of `mkdir` on what the buffer holds. -/
def mkdirBuf (t : FileTree α) (buf : List UInt8) : FileTree α × Option Errno := t.mkdir (ofBytes buf).bytes

/-- The loop from `p` on and the call after it, none when there are more than `rounds` rounds. -/
def mkdirLoop : Nat → FileTree α → List UInt8 → Nat → Option (FileTree α × Int)
  | 0, _, _, _ => none
  | rounds + 1, t, buf, p => do
      if (← buf[p]?) = 0 then
        let (t, err) := mkdirBuf t buf
        return (t, if mkdirFailed err then -1 else 0)
      else
        let p ← StringScan.skip (fun b => b != 0 && b != slash) buf p
        if (← buf[p]?) = slash then
          let cut ← copyInto buf p [0]
          let (t, err) := mkdirBuf t cut
          if mkdirFailed err then return (t, -1)
          else mkdirLoop rounds t (← copyInto cut p [slash]) (p + 1)
        else mkdirLoop rounds t buf p

/-- The first slash is passed over. -/
def mkdirP (t : FileTree α) (path : CString) : Option (FileTree α × Int) := do
  let buf := path.bytes ++ [0]
  let p := if (← buf[0]?) = slash then 1 else 0
  mkdirLoop (path.length + 2) t buf p

def localEnsureDirs (t : FileTree α) (basePath : CString) : Option (FileTree α × Int) :=
  match t.stat basePath.bytes with
  | .ok _ => some (t, 0)
  | .error _ => do
      let (t, rc) ← mkdirP t basePath
      return (t, if rc ≠ 0 then -1 else 0)

/-- The same calls on the beginnings of a path; `front` has been passed. -/
def mkdirPrefixes : FileTree α → List UInt8 → List UInt8 → FileTree α × Int
  | t, front, [] => ((t.mkdir front).1, if mkdirFailed (t.mkdir front).2 then -1 else 0)
  | t, front, b :: back =>
      if b = slash then
        if mkdirFailed (t.mkdir front).2 then ((t.mkdir front).1, -1)
        else mkdirPrefixes (t.mkdir front).1 (front ++ [b]) back
      else mkdirPrefixes t (front ++ [b]) back

section Buffer
variable {t : FileTree α} {front comp back : List UInt8}

/-- Inside a component no directory is made. -/
theorem mkdirPrefixes_comp (h : slash ∉ comp) (t : FileTree α) (front back : List UInt8) :
    mkdirPrefixes t front (comp ++ back) = mkdirPrefixes t (front ++ comp) back := by
  induction comp generalizing front with
  | nil => rw [List.append_nil, List.nil_append]
  | cons b comp ih =>
      have hb : b ≠ slash := fun heq => h (heq ▸ List.mem_cons_self)
      rw [List.cons_append, mkdirPrefixes, if_neg hb, ih fun hmem => h (List.mem_cons_of_mem _ hmem),
        List.append_assoc, List.singleton_append]

theorem string_of_nulFree {l : List UInt8} (h : 0 ∉ l) (rest : List UInt8) :
    (ofBytes (l ++ 0 :: rest)).bytes = l := by
  rw [ofBytes_append_nul ⟨l, h⟩]

theorem getElem?_length (l rest : List UInt8) : (l ++ rest)[l.length]? = rest.head? := by
  rw [List.getElem?_append_right (Nat.le_refl _), Nat.sub_self, List.head?_eq_getElem?]

/-- The inner loop stops at the end of the component. -/
theorem skip_component {rest : List UInt8} (nulFree : 0 ∉ front ++ (comp ++ rest))
    (inside : slash ∉ comp) (stop : rest = [] ∨ ∃ back, rest = slash :: back) :
    StringScan.skip (fun b => b != 0 && b != slash) (front ++ ((comp ++ rest) ++ [0])) front.length =
      some (front ++ comp).length := by
  have all : ∀ b ∈ comp, (b != 0 && b != slash) = true := by
    intro b hb
    have nonzero : b ≠ 0 := fun h0 =>
      nulFree (List.mem_append_right _ (List.mem_append_left _ (h0 ▸ hb)))
    have other : b ≠ slash := fun heq => inside (heq ▸ hb)
    simp [nonzero, other]
  have here : (comp ++ rest).takeWhile (fun b => b != 0 && b != slash) = comp := by
    rw [List.takeWhile_append_of_pos all]
    rcases stop with rfl | ⟨back, rfl⟩ <;> simp
  rw [StringScan.skip, List.drop_left, skip_go (by decide), here, List.length_append]

/-- Cutting the copy before a slash leaves the beginning of the path, and the slash goes back. -/
theorem cut_at_slash (nulFree : 0 ∉ front) (back : List UInt8) :
    ∃ cut, copyInto (front ++ (slash :: back)) front.length [0] = some cut ∧
      (ofBytes cut).bytes = front ∧
      copyInto cut front.length [slash] = some (front ++ (slash :: back)) :=
  ⟨front ++ ([0] ++ back), copyInto_append [slash] rfl, string_of_nulFree nulFree back,
    copyInto_append [0] rfl⟩

/-- A round of the loop passes a component; before a slash it makes what has been passed. -/
theorem mkdirLoop_round {rest : List UInt8} (nonempty : comp ++ rest ≠ [])
    (nulFree : 0 ∉ front ++ (comp ++ rest)) (inside : slash ∉ comp) (rounds : Nat)
    (stop : rest = [] ∨ ∃ back, rest = slash :: back) :
    mkdirLoop (rounds + 1) t (front ++ (comp ++ rest ++ [0])) front.length =
      if rest = [] then mkdirLoop rounds t (front ++ comp ++ [0]) (front ++ comp).length
      else if mkdirFailed (t.mkdir (front ++ comp)).2 then some ((t.mkdir (front ++ comp)).1, -1)
      else mkdirLoop rounds (t.mkdir (front ++ comp)).1 (front ++ comp ++ (rest ++ [0]))
        ((front ++ comp).length + 1) := by
  obtain ⟨b, tail, start⟩ := List.exists_cons_of_ne_nil nonempty
  have nonzero : b ≠ 0 := fun h0 => nulFree (by simp [start, h0])
  have first : (front ++ (comp ++ rest ++ [0]))[front.length]? = some b := by
    rw [getElem?_length, start]
    rfl
  have joined : front ++ (comp ++ rest ++ [0]) = (front ++ comp) ++ (rest ++ [0]) := by
    simp only [List.append_assoc]
  rw [mkdirLoop, first]
  simp only [Option.bind_eq_bind, Option.bind_some, if_neg nonzero,
    skip_component nulFree inside stop]
  rw [joined, getElem?_length]
  rcases stop with rfl | ⟨back, rfl⟩
  · rfl
  · have beginning : 0 ∉ front ++ comp := by
      rw [← List.append_assoc] at nulFree
      exact fun h0 => nulFree (List.mem_append_left _ h0)
    obtain ⟨cut, written, string, restored⟩ := cut_at_slash beginning (back ++ [0])
    rw [if_neg (List.cons_ne_nil _ _)]
    simp only [List.cons_append, List.head?_cons, Option.bind_some, if_true, written, mkdirBuf,
      string, restored]
    rfl

/-- On a string the loop in the buffer makes the directories of the beginnings in turn. -/
theorem mkdirLoop_eq {rounds : Nat} (front back : List UInt8) (nulFree : 0 ∉ front ++ back)
    (enough : back.length + 1 < rounds) (t : FileTree α) :
    mkdirLoop rounds t (front ++ (back ++ [0])) front.length = some (mkdirPrefixes t front back) := by
  induction rounds generalizing t front back with
  | zero => exact absurd enough (Nat.not_lt_zero _)
  | succ rounds ih =>
      by_cases done : back = []
      · subst done
        rw [List.append_nil] at nulFree
        simp only [mkdirLoop, getElem?_length, mkdirBuf, List.nil_append, mkdirPrefixes,
          string_of_nulFree nulFree []]
        rfl
      · obtain ⟨comp, rest, rfl, inside, stop⟩ := Paths.exists_component back
        rw [mkdirLoop_round done nulFree inside rounds stop, mkdirPrefixes_comp inside]
        rw [List.length_append] at enough
        rw [← List.append_assoc] at nulFree
        rcases stop with rfl | ⟨back, rfl⟩
        · have left := List.length_pos_iff.mpr done
          rw [List.append_nil] at left
          rw [if_pos rfl]
          exact ih (front ++ comp) [] nulFree (by simp; omega) t
        · rw [if_neg (List.cons_ne_nil _ _), mkdirPrefixes, if_pos rfl]
          rw [List.length_cons] at enough
          split
          · rfl
          · have next := ih (front ++ comp ++ [slash]) back (by simpa using nulFree) (by omega)
              (t.mkdir (front ++ comp)).1
            simpa [Nat.add_assoc] using next

end Buffer

end Kaufbot
