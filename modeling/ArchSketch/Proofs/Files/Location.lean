import ArchSketch.Files.Store
import Mathlib

/-! What is at the locations of a store, and how the actions on a store change it. Putting an entry
somewhere also changes every directory on the way there, so a directory counts as the same whatever
is in it: then each action changes the places it is about, and no other. -/
namespace ArchSketch.Files

variable {s s' : Store} {l l' parent : Location} {name other : Segment} {e : Entry} {f : Folder}

/-- A directory without what is in it. -/
def Entry.bare : Entry → Entry
  | .directory _ => .directory []
  | .file content executable => .file content executable

abbrev Entry.emptyDirectory : Entry := .directory []

namespace Folder

def bare? (l : Location) (f : Folder) : Option Entry := (f.get? l).map Entry.bare

theorem lookup_cons (n other : Segment) (e : Entry) (f : Folder) :
    List.lookup other ((n, e) :: f) = if other = n then some e else f.lookup other := by
  rw [List.lookup_cons]
  by_cases ho : other = n
  · simp [ho]
  · rw [beq_eq_false_iff_ne.2 ho, if_neg ho]

theorem lookup_remove (f : Folder) (name other : Segment) :
    (f.remove name).lookup other = if other = name then none else f.lookup other := by
  induction f with
  | nil => simp [remove]
  | cons entry f ih =>
    obtain ⟨n, e⟩ := entry
    unfold remove at ih ⊢
    by_cases hn : n = name
    · rw [List.filter_cons_of_neg (by simpa using hn), ih, lookup_cons, hn]
      split <;> rfl
    · rw [List.filter_cons_of_pos (by simpa using hn), lookup_cons, lookup_cons, ih]
      by_cases ho : other = n
      · rw [if_pos ho, ho, if_neg hn, if_pos rfl]
      · rw [if_neg ho, if_neg ho]

theorem lookup_put (f : Folder) (name other : Segment) (e : Entry) :
    (f.put name e).lookup other = if other = name then some e else f.lookup other := by
  rw [put, lookup_cons, lookup_remove]
  split <;> rfl

theorem get?_cons_of_directory {inner : Folder} (h : f.lookup name = some (.directory inner))
    (l : Location) : f.get? (name :: l) = inner.get? l := by
  rw [get?, h]

theorem get?_cons_of_file {content : ByteArray} {executable : Bool}
    (h : f.lookup name = some (.file content executable)) (l : Location) :
    f.get? (name :: l) = if l.isEmpty then some (.file content executable) else none := by
  rw [get?, h]

theorem get?_cons_of_none (h : f.lookup name = none) (l : Location) :
    f.get? (name :: l) = none := by
  rw [get?, h]

theorem get?_singleton (f : Folder) (name : Segment) : f.get? [name] = f.lookup name := by
  cases h : f.lookup name with
  | none => exact get?_cons_of_none h []
  | some e =>
    cases e with
    | directory inner => rw [get?_cons_of_directory h, get?]
    | file content executable => rw [get?_cons_of_file h]; rfl

theorem get?_concat {inner : Folder} (h : f.get? l = some (.directory inner)) (name : Segment) :
    f.get? (l ++ [name]) = inner.lookup name := by
  induction l generalizing f with
  | nil =>
    obtain rfl : f = inner := by simpa [get?] using h
    exact get?_singleton f name
  | cons n l ih =>
    rw [List.cons_append]
    cases hn : f.lookup n with
    | none => simp [get?_cons_of_none hn] at h
    | some e =>
      cases e with
      | directory g =>
        rw [get?_cons_of_directory hn] at h ⊢
        exact ih h
      | file content executable =>
        rw [get?_cons_of_file hn] at h
        split at h <;> simp at h

theorem get?_cons_of_bare (h : (f.lookup name).map Entry.bare ≠ some .emptyDirectory)
    (hl : l ≠ []) : f.get? (name :: l) = none := by
  cases hn : f.lookup name with
  | none => exact get?_cons_of_none hn l
  | some e =>
    cases e with
    | directory inner => simp [hn, Entry.bare] at h
    | file content executable =>
      rw [get?_cons_of_file hn, if_neg (by simpa using hl)]

theorem bare?_of_lookup {g : Folder} {r : Option Entry}
    (hothers : ∀ other, other ≠ name → g.lookup other = f.lookup other)
    (hname : g.lookup name = r) (hr : ∀ e ∈ r, e.bare = e)
    (hold : f.bare? [name] ≠ some .emptyDirectory) (l : Location) :
    g.bare? l = if l = [name] then r else f.bare? l := by
  rw [bare?, get?_singleton] at hold
  cases l with
  | nil => simp [bare?, get?, Entry.bare]
  | cons n l =>
    by_cases hn : n = name
    · subst hn
      have hbare : r.map Entry.bare = r := by
        cases r with
        | none => rfl
        | some e => rw [Option.map_some, hr e rfl]
      cases l with
      | nil => rw [if_pos rfl, bare?, get?_singleton, hname, hbare]
      | cons m l =>
        rw [if_neg (by simp), bare?, bare?, get?_cons_of_bare hold (by simp)]
        cases r with
        | none => rw [get?_cons_of_none hname]
        | some e =>
          cases e with
          | file content executable => rw [get?_cons_of_file hname, if_neg (by simp)]
          | directory inner =>
            obtain rfl : [] = inner := by simpa [Entry.bare] using hr _ rfl
            rw [get?_cons_of_directory hname, get?_cons_of_none rfl]
    · rw [if_neg (by simp [hn]), bare?, bare?, get?, hothers n hn, ← get?]

theorem bare?_put_directory (g : Folder) (p n : Segment) (l : Location) :
    (f.put p (.directory g)).bare? (n :: l) = if n = p then g.bare? l else f.bare? (n :: l) := by
  by_cases hn : n = p
  · have hnew : (f.put p (.directory g)).lookup n = some (.directory g) := by
      rw [lookup_put, if_pos hn]
    rw [if_pos hn, bare?, get?_cons_of_directory hnew, bare?]
  · rw [if_neg hn, bare?, bare?, get?, lookup_put, if_neg hn, ← get?]

/-- A change to one name in a directory, which puts there or takes away something with nothing in
it, is a change at one place. -/
theorem bare?_change {act : Folder → Folder} {r : Option Entry}
    (hothers : ∀ g other, other ≠ name → (act g).lookup other = g.lookup other)
    (hname : ∀ g, (act g).lookup name = r) (hr : ∀ e ∈ r, e.bare = e)
    (hparent : f.bare? parent = some .emptyDirectory)
    (hold : f.bare? (parent ++ [name]) ≠ some .emptyDirectory) (l : Location) :
    (f.change act parent).bare? l = if l = parent ++ [name] then r else f.bare? l := by
  induction parent generalizing f l with
  | nil => exact bare?_of_lookup (hothers f) (hname f) hr hold l
  | cons p parent ih =>
    rw [bare?] at hparent
    cases hp : f.lookup p with
    | none => simp [get?_cons_of_none hp] at hparent
    | some e =>
      cases e with
      | file content executable =>
        rw [get?_cons_of_file hp] at hparent
        split at hparent <;> simp [Entry.bare] at hparent
      | directory inner =>
        rw [get?_cons_of_directory hp] at hparent
        rw [List.cons_append, bare?, get?_cons_of_directory hp] at hold
        rw [change, hp]
        dsimp only
        cases l with
        | nil => simp [bare?, get?, Entry.bare]
        | cons n l =>
          rw [bare?_put_directory]
          -- the change is one of the inner directory, so only what is below `p` can differ
          by_cases hn : n = p
          · have hbelow : bare? (p :: l) f = bare? l inner := by
              rw [bare?, get?_cons_of_directory hp, ← bare?]
            rw [if_pos hn, ih hparent hold l, hn, hbelow]
            simp
          · rw [if_neg hn, if_neg (by simp [hn])]

end Folder

namespace Store

/-- What is at a location, a directory without what is in it. -/
def bare? (s : Store) (l : Location) : Option Entry := s.root.bare? l

theorem bare?_put (he : e.bare = e) (hparent : s.bare? parent = some .emptyDirectory)
    (hold : s.bare? (parent ++ [name]) ≠ some .emptyDirectory) (l : Location) :
    (s.put (parent ++ [name]) e).bare? l =
      if l = parent ++ [name] then some e else s.bare? l := by
  rw [put, List.getLast?_concat, List.dropLast_concat]
  refine Folder.bare?_change (fun g other ho => ?_) (fun g => ?_) (by simpa using he) hparent hold l
  · rw [Folder.lookup_put, if_neg ho]
  · rw [Folder.lookup_put, if_pos rfl]

theorem bare?_remove (hparent : s.bare? parent = some .emptyDirectory)
    (hold : s.bare? (parent ++ [name]) ≠ some .emptyDirectory) (l : Location) :
    (s.remove (parent ++ [name])).bare? l = if l = parent ++ [name] then none else s.bare? l := by
  rw [remove, List.getLast?_concat, List.dropLast_concat]
  refine Folder.bare?_change (fun g other ho => ?_) (fun g => ?_) (by simp) hparent hold l
  · rw [Folder.lookup_remove, if_neg ho]
  · rw [Folder.lookup_remove, if_pos rfl]

end Store
end ArchSketch.Files
