import ArchSketch.Proofs.Files.Disk
import ArchSketch.Settings.Storage

/-! Saving settings, whatever goes wrong. The new text is written beside the settings and then takes
their place in one step, so a call that fails or is cut off leaves the settings as they were, and
what it leaves behind is at the place of the draft. -/
namespace ArchSketch

open Files

namespace Settings

variable {s : Settings} {path : String} {d : Disk}

/-- What saving does before the draft takes the place of the settings. -/
def drafting (s : Settings) (path : String) : List Action :=
  ((Path.parent? path).map Action.makeDirectories).toList ++
    [.write (draftPath path) s.fileText.toUTF8]

theorem saving_eq (s : Settings) (path : String) :
    s.saving path = s.drafting path ++ [.rename (draftPath path) path] := by
  simp [saving, drafting]

theorem isWithin_of_mem_drafting (s : Settings) (path : String) :
    ∀ a ∈ s.drafting path, a.IsWithin [Path.location (draftPath path)] := by
  intro a ha
  rcases List.mem_append.1 ha with ha | ha
  · obtain ⟨dir, -, rfl⟩ :
        ∃ dir, Path.parent? path = some dir ∧ Action.makeDirectories dir = a := by
      simpa using ha
    exact .makeDirectories dir
  · rw [List.mem_singleton.1 ha]
    exact .write _ (List.mem_singleton_self _)

theorem content?_of_drafting (s : Settings) (path : String) (d : Disk)
    (h : (d.performAll (s.drafting path)).1 = .ok ()) :
    (d.performAll (s.drafting path)).2.store.content? (Path.location (draftPath path)) =
      some s.fileText.toUTF8 := by
  rw [drafting, Disk.performAll_append] at h ⊢
  generalize d.performAll _ = r at h
  obtain ⟨_ | _, d₁⟩ := r
  · contradiction
  · dsimp only at h ⊢
    rw [Disk.performAll_singleton] at h ⊢
    exact d₁.content?_of_perform_write _ _ h

/-- How a whole call ends: with only the draft changed, or with the draft in the place of the
settings. -/
theorem save_cases (s : Settings) (path : String) (d : Disk) :
    ((∃ e, (s.save path d).1 = .error e) ∧
      d.store.Keeps [Path.location (draftPath path)] (s.save path d).2.store) ∨
    ((s.save path d).1 = .ok () ∧
      d.store.Keeps [Path.location path, Path.location (draftPath path)] (s.save path d).2.store ∧
      (s.save path d).2.store.read path = .ok s.fileText.toUTF8) := by
  have hdrafted := Disk.keeps_performAll (s.isWithin_of_mem_drafting path) d
  have hcontent := s.content?_of_drafting path d
  rw [save, saving_eq, Disk.performAll_append]
  generalize d.performAll (s.drafting path) = r at hdrafted hcontent
  obtain ⟨e | _, d₁⟩ := r
  · exact .inl ⟨⟨e, rfl⟩, hdrafted⟩
  dsimp only [Disk.performAll] at hdrafted hcontent ⊢
  have hrename := d₁.rename_of_perform (draftPath path) path
  have hfailed (e : IoError) := d₁.store_of_perform_rename (draftPath path) path (e := e)
  generalize d₁.perform _ = r at hrename hfailed
  obtain ⟨e | _, d₂⟩ := r
  · exact .inl ⟨⟨e, rfl⟩, by rw [hfailed e rfl]; exact hdrafted⟩
  · obtain ⟨hkeeps, hread⟩ := Store.keeps_rename (hrename rfl) (hcontent rfl)
    exact .inr ⟨rfl, (hdrafted.mono (by simp)).trans hkeeps, hread⟩

/-- What a call has done that stops after some of its actions, because it is cut off or because
there is no text to write; each action may go wrong as well. -/
def saveUpTo (s : Settings) (path : String) (done : ℕ) (d : Disk) : Except IoError Unit × Disk :=
  d.performAll ((s.saving path).take done)

theorem saveUpTo_of_length_le {done : ℕ} (h : (s.saving path).length ≤ done) (d : Disk) :
    s.saveUpTo path done d = s.save path d := by
  rw [saveUpTo, List.take_of_length_le h, save]

theorem saveUpTo_cases (s : Settings) (path : String) (done : ℕ) (d : Disk) :
    ((done < (s.saving path).length ∨ ∃ e, (s.saveUpTo path done d).1 = .error e) ∧
      d.store.Keeps [Path.location (draftPath path)] (s.saveUpTo path done d).2.store) ∨
    ((s.saving path).length ≤ done ∧ (s.saveUpTo path done d).1 = .ok () ∧
      d.store.Keeps [Path.location path, Path.location (draftPath path)]
        (s.saveUpTo path done d).2.store ∧
      (s.saveUpTo path done d).2.store.read path = .ok s.fileText.toUTF8) := by
  rcases lt_or_ge done (s.saving path).length with hdone | hdone
  · refine .inl ⟨.inl hdone, ?_⟩
    rw [saving_eq, List.length_append, List.length_singleton] at hdone
    rw [saveUpTo, saving_eq, List.take_append_of_le_length (by omega)]
    exact Disk.keeps_performAll
      (fun a ha => s.isWithin_of_mem_drafting path a (List.mem_of_mem_take ha)) d
  · rw [saveUpTo_of_length_le hdone]
    rcases s.save_cases path d with ⟨hfailed, hkeeps⟩ | hsaved
    · exact .inl ⟨.inr hfailed, hkeeps⟩
    · exact .inr ⟨hdone, hsaved⟩

/-- What is on the disk after a call, which may not have been carried to its end. -/
structure LeavesWhole (s : Settings) (path : String) (unfinished : Prop) (d after : Disk) :
    Prop where
  /-- Nothing else is at the path than what was there or the whole new text. -/
  whole : after.store.file? (Path.location path) = d.store.file? (Path.location path) ∨
    after.store.content? (Path.location path) = some s.fileText.toUTF8
  kept : unfinished → after.store.file? (Path.location path) = d.store.file? (Path.location path) ∧
    ∀ content, d.store.read path = .ok content → after.store.read path = .ok content
  others : ∀ l, l ≠ Path.location path → l ≠ Path.location (draftPath path) →
    after.store.file? l = d.store.file? l

/-- Settings are saved as a whole or not at all. -/
structure SavesWhole (s : Settings) (path : String) (d : Disk) : Prop where
  draftPath_ne : draftPath path ≠ path
  location_ne : Path.location (draftPath path) ≠ Path.location path
  /-- Before the last action and after a failure the settings are what they were. -/
  cutOff : ∀ done, s.LeavesWhole path
    (done < (s.saving path).length ∨ ∃ e, (s.saveUpTo path done d).1 = .error e) d
    (s.saveUpTo path done d).2
  called : s.LeavesWhole path (∃ e, (s.save path d).1 = .error e) d (s.save path d).2
  replaced : (s.save path d).1 = .ok () →
    (s.save path d).2.store.read path = .ok s.fileText.toUTF8

theorem leavesWhole_saveUpTo (s : Settings)
    (hne : Path.location (draftPath path) ≠ Path.location path) (done : ℕ) (d : Disk) :
    s.LeavesWhole path
      (done < (s.saving path).length ∨ ∃ e, (s.saveUpTo path done d).1 = .error e) d
      (s.saveUpTo path done d).2 := by
  have htarget : Path.location path ∉ [Path.location (draftPath path)] := by simpa using hne.symm
  rcases s.saveUpTo_cases path done d with ⟨-, hkeeps⟩ | ⟨hlength, hok, hkeeps, hread⟩
  · exact ⟨.inl (hkeeps.file _ htarget),
      fun _ => ⟨hkeeps.file _ htarget, fun _ => hkeeps.read htarget⟩,
      fun l _ hdraft => hkeeps.file l (by simpa using hdraft)⟩
  · refine ⟨.inr (Store.read_eq_ok_iff.1 hread).2, fun hdone => ?_,
      fun l hl hdraft => hkeeps.file l (by simpa using ⟨hl, hdraft⟩)⟩
    rcases hdone with hdone | ⟨e, he⟩
    · omega
    · simp [hok] at he

theorem leavesWhole_save (s : Settings)
    (hne : Path.location (draftPath path) ≠ Path.location path) (d : Disk) :
    s.LeavesWhole path (∃ e, (s.save path d).1 = .error e) d (s.save path d).2 := by
  have hall := s.leavesWhole_saveUpTo hne (s.saving path).length d
  rw [saveUpTo_of_length_le le_rfl] at hall
  exact ⟨hall.whole, fun hfailed => hall.kept (.inr hfailed), hall.others⟩

/-- Whatever the store holds and whatever goes wrong, settings are saved as a whole or not at all,
and no file is changed but theirs and the draft beside it. -/
theorem savesWhole_of_hasName (h : Path.hasName path = true) (s : Settings) (d : Disk) :
    s.SavesWhole path d := by
  have hne : Path.location (draftPath path) ≠ Path.location path :=
    Path.location_withExtension_ne h (by decide) (by decide)
  refine ⟨fun heq => hne (by rw [heq]), hne, fun done => s.leavesWhole_saveUpTo hne done d,
    s.leavesWhole_save hne d, fun hok => ?_⟩
  rcases s.save_cases path d with ⟨⟨e, he⟩, -⟩ | ⟨-, -, hread⟩
  · simp [hok] at he
  · exact hread

/-- A disk with settings and an old draft on it, where the new draft is broken off. -/
def fullDisk : Disk where
  store := ⟨[("nested".toList, .directory
    [("settings.json".toList, .file "\x7b\x7d".toUTF8 false),
      ("settings.json.tmp".toList, .file "\x7b".toUTF8 true)])]⟩
  mishaps := [none, some (.brokenOff 7 (.other "No space left on device"))]

theorem savesWhole_fullDisk :
    Path.hasName "nested/settings.json" = true ∧
      default.SavesWhole "nested/settings.json" fullDisk ∧
      (default.saveUpTo "nested/settings.json" 2 fullDisk).2.store.content?
        ["nested".toList, "settings.json".toList] = some "\x7b\x7d".toUTF8 := by
  have h : Path.hasName "nested/settings.json" = true := by decide
  have hwhole := savesWhole_of_hasName h default fullDisk
  refine ⟨h, hwhole, ?_⟩
  have hkept := ((hwhole.cutOff 2).kept (.inl (by decide))).1
  exact (congrArg (Option.bind · Entry.content?) hkept).trans rfl

end Settings
end ArchSketch
