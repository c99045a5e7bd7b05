import ArchSketch.Files.Disk
import ArchSketch.Proofs.Files.Store

/-! What actions do to a disk on which anything may go wrong. An action is done, refused or broken
off; in each case it changes no file but the one it writes, so a run of actions that is cut off
anywhere does not either. A rename that fails has changed nothing. -/
namespace ArchSketch.Files

variable {d : Disk} {s s' : Store} {a : Action} {as bs : List Action} {path src dst : String}
  {content : ByteArray} {changed : List Location} {e : IoError}

namespace Action

/-- An action that makes directories, or writes at one of the locations. -/
inductive IsWithin (changed : List Location) : Action → Prop
  | makeDirectories (path : String) : IsWithin changed (.makeDirectories path)
  | write {path : String} (content : ByteArray) (h : Path.location path ∈ changed) :
      IsWithin changed (.write path content)

theorem keeps_settle {r : Except IoError Store} (h : ∀ s', r = .ok s' → s.Keeps changed s') :
    s.Keeps changed (settle s r).2 := by
  cases r with
  | ok s' => exact h s' rfl
  | error e => exact .refl changed s

theorem bare?_settle_write {l : Location} (hl : l ≠ Path.location path) :
    (settle s (s.write path content)).2.bare? l = s.bare? l := by
  cases h : s.write path content with
  | ok s' => exact Store.bare?_of_write h hl
  | error e => rfl

theorem settle_eq_ok {r : Except IoError Store} : settle s r = (.ok (), s') ↔ r = .ok s' := by
  cases r <;> simp [settle]

theorem IsWithin.keeps_perform (h : a.IsWithin changed) (s : Store) :
    s.Keeps changed (a.perform s).2 := by
  cases h with
  | makeDirectories path => exact (Store.adds_makeDirectories path s).keeps.mono (by simp)
  | write content h =>
    exact keeps_settle fun s' hs => (Store.keeps_write hs).1.mono (by simpa using h)

theorem way_ancestor_subset (levels : ℕ) (path : String) :
    Path.way (ancestor levels path) ⊆ Path.way path := by
  induction levels generalizing path with
  | zero => exact List.Subset.refl _
  | succ levels ih =>
    refine List.Subset.trans (ih _) ?_
    cases hparent : Path.parent? path with
    | none => exact Path.way_subset_of_idle (by decide) path
    | some parent => exact Path.way_parent?_subset hparent

theorem IsWithin.keeps_performShort (h : a.IsWithin changed) (s : Store) (short : ℕ) :
    s.Keeps changed (a.performShort s short) := by
  cases h with
  | makeDirectories path => exact (Store.adds_makeDirectories _ s).keeps.mono (by simp)
  | write content h =>
    exact keeps_settle fun s' hs => (Store.keeps_write hs).1.mono (by simpa using h)

end Action

namespace Disk

theorem perform_cases (d : Disk) (a : Action) :
    ((d.perform a).1 = (a.perform d.store).1 ∧ (d.perform a).2.store = (a.perform d.store).2) ∨
    (∃ e, (d.perform a).1 = .error e ∧ (d.perform a).2.store = d.store) ∨
    ∃ e short, (d.perform a).1 = .error e ∧
      (d.perform a).2.store = a.performShort d.store short := by
  unfold perform
  split
  · exact .inr (.inl ⟨_, rfl, rfl⟩)
  · exact .inr (.inr ⟨_, _, rfl, rfl⟩)
  · exact .inl ⟨rfl, rfl⟩
  · exact .inl ⟨rfl, rfl⟩

theorem keeps_perform (h : a.IsWithin changed) (d : Disk) :
    d.store.Keeps changed (d.perform a).2.store := by
  rcases d.perform_cases a with ⟨-, hstore⟩ | ⟨e, -, hstore⟩ | ⟨e, short, -, hstore⟩
  · exact hstore ▸ h.keeps_perform d.store
  · exact hstore ▸ .refl changed d.store
  · exact hstore ▸ h.keeps_performShort d.store short

theorem perform_of_ok (h : (d.perform a).1 = .ok ()) :
    a.perform d.store = (.ok (), (d.perform a).2.store) := by
  rcases d.perform_cases a with ⟨hresult, hstore⟩ | ⟨e, he, -⟩ | ⟨e, _, he, -⟩
  · exact Prod.ext (hresult.symm.trans h) hstore.symm
  · rw [he] at h
    contradiction
  · rw [he] at h
    contradiction

theorem adds_perform (d : Disk) (path : String) :
    d.store.Adds (Path.way path) (d.perform (.makeDirectories path)).2.store := by
  rcases d.perform_cases (.makeDirectories path) with
    ⟨-, hstore⟩ | ⟨e, -, hstore⟩ | ⟨e, short, -, hstore⟩
  · exact hstore ▸ Store.adds_makeDirectories path d.store
  · rw [hstore]
    exact .refl _ d.store
  · exact hstore ▸
      (Store.adds_makeDirectories _ d.store).mono (Action.way_ancestor_subset short path)

theorem bare?_perform_write (d : Disk) (path : String) (content : ByteArray) {l : Location}
    (hl : l ≠ Path.location path) :
    (d.perform (.write path content)).2.store.bare? l = d.store.bare? l := by
  rcases d.perform_cases (.write path content) with
    ⟨-, hstore⟩ | ⟨e, -, hstore⟩ | ⟨e, short, -, hstore⟩
  · exact hstore ▸ Action.bare?_settle_write hl
  · rw [hstore]
  · exact hstore ▸ Action.bare?_settle_write hl

theorem read_of_perform_write (d : Disk) (path : String) (content : ByteArray)
    (h : (d.perform (.write path content)).1 = .ok ()) :
    (d.perform (.write path content)).2.store.read path = .ok content :=
  Store.read_of_write (Action.settle_eq_ok.1 (perform_of_ok h))

theorem content?_of_perform_write (d : Disk) (path : String) (content : ByteArray)
    (h : (d.perform (.write path content)).1 = .ok ()) :
    (d.perform (.write path content)).2.store.content? (Path.location path) = some content :=
  (Store.keeps_write (Action.settle_eq_ok.1 (perform_of_ok h))).2

theorem rename_of_perform (d : Disk) (src dst : String)
    (h : (d.perform (.rename src dst)).1 = .ok ()) :
    d.store.rename src dst = .ok (d.perform (.rename src dst)).2.store :=
  Action.settle_eq_ok.1 (perform_of_ok h)

theorem store_of_perform_rename (d : Disk) (src dst : String)
    (h : (d.perform (.rename src dst)).1 = .error e) :
    (d.perform (.rename src dst)).2.store = d.store := by
  rcases d.perform_cases (.rename src dst) with
    ⟨hresult, hstore⟩ | ⟨_, -, hstore⟩ | ⟨_, _, -, hstore⟩
  · rw [hresult, Action.perform] at h
    rw [hstore, Action.perform]
    cases hrename : d.store.rename src dst with
    | ok s' =>
      rw [hrename] at h
      contradiction
    | error e => rfl
  · exact hstore
  · exact hstore

/-! Runs of actions. -/

theorem performAll_singleton (d : Disk) (a : Action) : d.performAll [a] = d.perform a := by
  rw [performAll]
  rcases d.perform a with ⟨_ | _, d⟩ <;> rfl

theorem performAll_append (d : Disk) (as bs : List Action) : d.performAll (as ++ bs) =
    match d.performAll as with
    | (.ok _, d) => d.performAll bs
    | (.error e, d) => (.error e, d) := by
  induction as generalizing d with
  | nil => rfl
  | cons a as ih =>
    rw [List.cons_append, performAll, performAll]
    rcases d.perform a with ⟨_ | _, d⟩
    · rfl
    · exact ih d

theorem keeps_performAll (h : ∀ a ∈ as, a.IsWithin changed) (d : Disk) :
    d.store.Keeps changed (d.performAll as).2.store := by
  induction as generalizing d with
  | nil => exact .refl changed d.store
  | cons a as ih =>
    obtain ⟨ha, h⟩ := List.forall_mem_cons.1 h
    have hstep := keeps_perform ha d
    rw [performAll]
    generalize d.perform a = r at hstep
    obtain ⟨_ | _, d₁⟩ := r
    · exact hstep
    · exact hstep.trans (ih h d₁)

end Disk
end ArchSketch.Files
