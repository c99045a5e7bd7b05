import ArchSketch.Proofs.Files.Location
import ArchSketch.Proofs.Files.Way

/-! What the actions on a store do to it. A path that can be followed leads to its location, and it
can still be followed in every store that has the same directories and more. Making directories
keeps all files; writing changes the file it writes, and renaming the two that it is about. -/
namespace ArchSketch.Files

variable {s s' s₁ s₂ : Store} {l parent : Location} {p q : Place} {segment : Segment}
  {segments : List Segment} {f : Folder} {path src dst : String} {content : ByteArray}
  {changed places : List Location} {e : Entry}

/-! Following a path. -/

namespace Place

/-- A place that following leads to from the root. -/
inductive IsIn (s : Store) : Place → Prop
  | root : IsIn s ⟨[], some (.directory s.root)⟩
  | entry {p : Place} {f : Folder} (segment : Segment) (hp : IsIn s p)
      (hf : p.content? = some (.directory f)) : IsIn s ⟨(segment, f) :: p.trail, f.lookup segment⟩

theorem location_cons (segment : Segment) (f : Folder) (trail : List (Segment × Folder))
    (content? : Option Entry) (content?' : Option Entry) :
    location ⟨(segment, f) :: trail, content?⟩ = location ⟨trail, content?'⟩ ++ [segment] := by
  simp [location]

theorem IsIn.content?_eq (h : p.IsIn s) : p.content? = s.get? p.location := by
  induction h with
  | root => rfl
  | @entry p f segment hp hf ih =>
    rw [location_cons segment f p.trail _ p.content?]
    exact (Folder.get?_concat (ih.symm.trans hf) segment).symm

theorem IsIn.up (h : p.IsIn s) : p.up.IsIn s ∧ p.up.location = p.location.dropLast := by
  cases h with
  | root => exact ⟨.root, rfl⟩
  | @entry p f segment hp hf =>
    obtain ⟨trail, content?⟩ := p
    obtain rfl : content? = some (.directory f) := hf
    refine ⟨hp, ?_⟩
    rw [location_cons segment f trail _ (some (.directory f)), List.dropLast_concat]
    rfl

theorem IsIn.exists_parent (h : p.IsIn s)
    (hcontent : s.bare? p.location ≠ some .emptyDirectory) :
    ∃ parent name, p.location = parent ++ [name] ∧ s.bare? parent = some .emptyDirectory := by
  cases h with
  | root => exact absurd rfl hcontent
  | @entry p f segment hp hf =>
    refine ⟨p.location, segment, location_cons segment f p.trail _ p.content?, ?_⟩
    rw [Store.bare?, Folder.bare?, ← Store.get?, ← hp.content?_eq, hf]
    rfl

theorem exists_of_follow_cons (h : p.follow (segment :: segments) = .ok q) :
    (∃ f, p.content? = some (.directory f)) ∧
      (Path.isName segment = true → (String.ofList segment).utf8ByteSize ≤ 255) := by
  rw [follow] at h
  split at h
  · contradiction
  · contradiction
  · rename_i f hf
    refine ⟨⟨f, hf⟩, fun hname => ?_⟩
    rw [Path.isName, Bool.and_eq_true, Bool.not_eq_true', bne_iff_ne] at hname
    rw [if_neg (by simp [hname.1]), if_neg (by simpa using hname.2)] at h
    split at h
    · contradiction
    · omega

theorem IsIn.exists_step (h : p.IsIn s) (hf : p.content? = some (.directory f))
    (hshort : Path.isName segment = true → (String.ofList segment).utf8ByteSize ≤ 255) :
    ∃ p' : Place, p'.IsIn s ∧ p'.location = Path.enter p.location segment ∧
      ∀ segments, p.follow (segment :: segments) = p'.follow segments := by
  by_cases hidle : Path.isIdle segment = true
  · refine ⟨p, h, by rw [Path.enter, if_pos hidle], fun segments => ?_⟩
    simp only [follow, hf, hidle, ↓reduceIte]
  by_cases hdots : (segment == Path.dotDot) = true
  · refine ⟨p.up, h.up.1, by rw [Path.enter, if_neg hidle, if_pos hdots, h.up.2],
      fun segments => ?_⟩
    simp only [follow, hf, if_neg hidle, if_pos hdots]
  · have hlong : ¬ 255 < (String.ofList segment).utf8ByteSize := by
      have hname : Path.isName segment = true := by simp_all [Path.isName]
      exact not_lt.2 (hshort hname)
    refine ⟨_, .entry segment h hf, ?_, fun segments => ?_⟩
    · rw [location_cons segment f p.trail _ p.content?, Path.enter, if_neg hidle, if_neg hdots]
    · simp only [follow, hf, if_neg hidle, if_neg hdots, if_neg hlong]

theorem IsIn.follow (h : p.IsIn s) (hq : p.follow segments = .ok q) :
    q.IsIn s ∧ q.location = segments.foldl Path.enter p.location := by
  induction segments generalizing p with
  | nil =>
    obtain rfl : p = q := by simpa [Place.follow] using hq
    exact ⟨h, rfl⟩
  | cons segment segments ih =>
    obtain ⟨⟨f, hf⟩, hshort⟩ := exists_of_follow_cons hq
    obtain ⟨p', hp', hlocation, hfollow⟩ := h.exists_step hf hshort
    rw [List.foldl_cons, ← hlocation]
    exact ih hp' (hfollow segments ▸ hq)

theorem IsIn.exists_follow (hdirectories : ∀ l, s.bare? l = some .emptyDirectory →
      s'.bare? l = some .emptyDirectory) {p' : Place} (h : p.IsIn s) (h' : p'.IsIn s')
    (hlocation : p'.location = p.location) (hq : p.follow segments = .ok q) :
    ∃ q', p'.follow segments = .ok q' := by
  induction segments generalizing p p' with
  | nil => exact ⟨p', rfl⟩
  | cons segment segments ih =>
    obtain ⟨⟨f, hf⟩, hshort⟩ := exists_of_follow_cons hq
    obtain ⟨p₁, hp₁, hlocation₁, hfollow⟩ := h.exists_step hf hshort
    obtain ⟨f', hf'⟩ : ∃ f', p'.content? = some (.directory f') := by
      have hbare : s.bare? p.location = some .emptyDirectory := by
        rw [Store.bare?, Folder.bare?, ← Store.get?, ← h.content?_eq, hf]
        rfl
      have hbare' := hdirectories _ hbare
      rw [← hlocation, Store.bare?, Folder.bare?, ← Store.get?, ← h'.content?_eq,
        Option.map_eq_some_iff] at hbare'
      obtain ⟨e, he, hdirectory⟩ := hbare'
      cases e with
      | directory f' => exact ⟨f', he⟩
      | file => contradiction
    obtain ⟨p₂, hp₂, hlocation₂, hfollow'⟩ := h'.exists_step hf' hshort
    rw [hfollow']
    refine ih hp₁ hp₂ ?_ (hfollow segments ▸ hq)
    rw [hlocation₂, hlocation₁, hlocation]

end Place

def Entry.content? : Entry → Option ByteArray
  | .directory _ => none
  | .file content _ => some content

namespace Store

theorem bare?_eq_emptyDirectory_iff :
    s.bare? l = some .emptyDirectory ↔ ∃ f, s.get? l = some (.directory f) := by
  rw [bare?, Folder.bare?, ← get?, Option.map_eq_some_iff]
  constructor
  · rintro ⟨e, he, hbare⟩
    cases e with
    | directory f => exact ⟨f, he⟩
    | file => contradiction
  · rintro ⟨f, hf⟩
    exact ⟨_, hf, rfl⟩

/-- Whether a path is one that can be followed does not depend on the store. -/
theorem place_eq_follow (h : s.place path = .ok p) (s' : Store) :
    s'.place path = Place.follow ⟨[], some (.directory s'.root)⟩ (Path.segments path) := by
  unfold place at h ⊢
  split at h
  · contradiction
  rename_i hempty
  split at h
  · contradiction
  rename_i hzero
  split at h
  · contradiction
  · rename_i hlong
    rw [if_neg hempty, if_neg hzero, if_neg hlong]

theorem of_place (h : s.place path = .ok p) : p.IsIn s ∧ p.location = Path.location path := by
  rw [place_eq_follow h] at h
  exact Place.IsIn.root.follow h

theorem content?_of_place (h : s.place path = .ok p) :
    p.content? = s.get? (Path.location path) := by
  obtain ⟨hp, hlocation⟩ := of_place h
  rw [hp.content?_eq, hlocation]

def file? (s : Store) (l : Location) : Option Entry := (s.get? l).filter (!·.isDirectory)

def content? (s : Store) (l : Location) : Option ByteArray := (s.file? l).bind Entry.content?

theorem file?_eq (s : Store) (l : Location) : s.file? l = (s.bare? l).filter (!·.isDirectory) := by
  rw [file?, bare?, Folder.bare?, ← get?]
  cases s.get? l with
  | none => rfl
  | some e => cases e <;> rfl

theorem read_eq_ok_iff : s.read path = .ok content ↔
    (∃ p, s.place path = .ok p) ∧ s.content? (Path.location path) = some content := by
  unfold read entry
  cases h : s.place path with
  | error e => simp [bind, Except.bind]
  | ok p =>
    have hp := content?_of_place h
    rw [content?, file?, ← hp]
    simp only [bind, Except.bind]
    cases p.content? with
    | none => simp [throw, throwThe, MonadExceptOf.throw]
    | some e =>
      cases e <;> simp [pure, Except.pure, throw, throwThe, MonadExceptOf.throw, Entry.isDirectory,
        Entry.content?, Option.filter]

/-! What the actions change. -/

/-- From one store to another only the files at some locations change, and no directory goes. -/
structure Keeps (changed : List Location) (s s' : Store) : Prop where
  file : ∀ l, l ∉ changed → s'.file? l = s.file? l
  directory : ∀ l, s.bare? l = some .emptyDirectory → s'.bare? l = some .emptyDirectory

theorem Keeps.refl (changed : List Location) (s : Store) : s.Keeps changed s :=
  ⟨fun _ _ => rfl, fun _ h => h⟩

theorem Keeps.trans (h₁ : s.Keeps changed s₁) (h₂ : s₁.Keeps changed s₂) : s.Keeps changed s₂ :=
  ⟨fun l hl => (h₂.file l hl).trans (h₁.file l hl), fun l hl => h₂.directory l (h₁.directory l hl)⟩

theorem Keeps.mono {more : List Location} (h : s.Keeps changed s') (hmore : changed ⊆ more) :
    s.Keeps more s' :=
  ⟨fun l hl => h.file l fun hm => hl (hmore hm), h.directory⟩

theorem Keeps.content? (h : s.Keeps changed s') (hl : l ∉ changed) :
    s'.content? l = s.content? l := by
  rw [Store.content?, h.file l hl, Store.content?]

theorem Keeps.exists_place (h : s.Keeps changed s') (hp : s.place path = .ok p) :
    ∃ p', s'.place path = .ok p' := by
  rw [place_eq_follow hp s']
  rw [place_eq_follow hp] at hp
  exact Place.IsIn.root.exists_follow h.directory .root rfl hp

theorem Keeps.read (h : s.Keeps changed s') (hl : Path.location path ∉ changed)
    (hread : s.read path = .ok content) : s'.read path = .ok content := by
  obtain ⟨⟨p, hp⟩, hcontent⟩ := read_eq_ok_iff.1 hread
  exact read_eq_ok_iff.2 ⟨h.exists_place hp, (h.content? hl).trans hcontent⟩

/-- From one store to another nothing changes but that directories come, with nothing in them, to
some of the places where nothing was. -/
def Adds (places : List Location) (s s' : Store) : Prop :=
  ∀ l, s'.bare? l = s.bare? l ∨
    l ∈ places ∧ s.bare? l = none ∧ s'.bare? l = some .emptyDirectory

theorem Adds.refl (places : List Location) (s : Store) : s.Adds places s := fun _ => .inl rfl

theorem Adds.trans (h₁ : s.Adds places s₁) (h₂ : s₁.Adds places s₂) : s.Adds places s₂ := by
  intro l
  rcases h₁ l with hsame₁ | ⟨hl, hnone, hnew⟩ <;>
    rcases h₂ l with hsame₂ | ⟨hl₂, hnone₂, hnew₂⟩
  · exact .inl (hsame₂.trans hsame₁)
  · exact .inr ⟨hl₂, hsame₁.symm.trans hnone₂, hnew₂⟩
  · exact .inr ⟨hl, hnone, hsame₂.trans hnew⟩
  · rw [hnew] at hnone₂
    contradiction

theorem Adds.mono {more : List Location} (h : s.Adds places s') (hmore : places ⊆ more) :
    s.Adds more s' :=
  fun l => (h l).imp_right fun ⟨hl, hbare⟩ => ⟨hmore hl, hbare⟩

theorem Adds.keeps (h : s.Adds places s') : s.Keeps [] s' := by
  refine ⟨fun l _ => ?_, fun l hl => ?_⟩ <;> rcases h l with hsame | ⟨-, hnone, hnew⟩
  · rw [file?_eq, file?_eq, hsame]
  · rw [file?_eq, file?_eq, hnone, hnew]
    rfl
  · exact hsame.trans hl
  · exact hnew

theorem bare?_put_location (hq : q.IsIn s) (hfree : s.bare? q.location ≠ some .emptyDirectory)
    (he : e.bare = e) (l : Location) :
    (s.put q.location e).bare? l = if l = q.location then some e else s.bare? l := by
  obtain ⟨parent, name, hparent, hdirectory⟩ := hq.exists_parent hfree
  rw [hparent] at hfree ⊢
  exact bare?_put he hdirectory hfree l

theorem adds_makeDirectory (h : s.makeDirectory path = .ok s') :
    s.Adds [Path.location path] s' := by
  unfold makeDirectory at h
  have hpath : Path.location (if (dropSlashes path).isEmpty then path else dropSlashes path) =
      Path.location path := by
    split
    · rfl
    · exact Path.location_dropSlashes path
  generalize (if (dropSlashes path).isEmpty then path else dropSlashes path) = p at h hpath
  cases hp : s.place p with
  | error e => simp [hp, bind, Except.bind] at h
  | ok q =>
    obtain ⟨hq, hlocation⟩ := of_place hp
    rw [hpath] at hlocation
    simp only [hp, bind, Except.bind] at h
    split at h
    · contradiction
    rename_i hnone
    obtain rfl := Except.ok.inj h
    have hbare : s.bare? q.location = none := by
      rw [bare?, Folder.bare?, ← get?, ← hq.content?_eq, Option.map_eq_none_iff]
      simpa using hnone
    intro l
    rw [bare?_put_location hq (by simp [hbare]) rfl, ← hlocation]
    split
    · rename_i hl
      exact .inr ⟨by simp [hl], hl ▸ hbare, rfl⟩
    · exact .inl rfl

theorem adds_makeDirectoriesFrom (fuel : ℕ) (path : String) (s : Store) :
    s.Adds (Path.way path) (makeDirectoriesFrom fuel path s).2 := by
  induction fuel generalizing path s with
  | zero => exact .refl _ s
  | succ fuel ih =>
    have hmade {s s' : Store} (h : s.makeDirectory path = .ok s') : s.Adds (Path.way path) s' :=
      (adds_makeDirectory h).mono (by simpa using Path.location_mem_way path)
    unfold makeDirectoriesFrom
    split
    · exact .refl _ s
    split
    · exact hmade (by assumption)
    · split
      · exact .refl _ s
      · rename_i parent hparent
        -- the directories above come first, and they stay if the rest goes wrong
        have hway := (ih parent s).mono (Path.way_parent?_subset hparent)
        split
        · simp_all
        · rename_i s₁ hs₁
          rw [hs₁] at hway
          split
          · exact hway.trans (hmade (by assumption))
          · split <;> exact hway
    · split <;> exact .refl _ s

theorem adds_makeDirectories (path : String) (s : Store) :
    s.Adds (Path.way path) (makeDirectories path s).2 :=
  adds_makeDirectoriesFrom _ path s

theorem keeps_put (content : ByteArray) (executable : Bool) (hq : q.IsIn s)
    (hfree : s.bare? q.location ≠ some .emptyDirectory) :
    s.Keeps [q.location] (s.put q.location (.file content executable)) ∧
      (s.put q.location (.file content executable)).content? q.location = some content := by
  have hput := bare?_put_location (e := .file content executable) hq hfree rfl
  refine ⟨⟨fun l hl => ?_, fun l hl => ?_⟩, ?_⟩
  · rw [file?_eq, file?_eq, hput, if_neg (by simpa using hl)]
  · rw [hput, if_neg ?_, hl]
    rintro rfl
    exact hfree hl
  · rw [content?, file?_eq, hput, if_pos rfl]
    rfl

/-- A write that is done has put a file where its path leads, and no directory was there. -/
theorem exists_of_write (h : s.write path content = .ok s') :
    ∃ (q : Place) (executable : Bool), s.place path = .ok q ∧
      s.bare? q.location ≠ some .emptyDirectory ∧
      s' = s.put q.location (.file content executable) := by
  unfold write at h
  cases hp : s.place path with
  | error e => simp [hp, bind, Except.bind] at h
  | ok q =>
    have hcontent := (of_place hp).1.content?_eq
    simp only [hp, bind, Except.bind] at h
    split at h
    · contradiction
    all_goals
      rename_i hplace
      refine ⟨q, _, rfl, ?_, (Except.ok.inj h).symm⟩
      rw [bare?, Folder.bare?, ← get?, ← hcontent, hplace]
      simp [Entry.bare]

theorem keeps_write (h : s.write path content = .ok s') :
    s.Keeps [Path.location path] s' ∧ s'.content? (Path.location path) = some content := by
  obtain ⟨q, executable, hq, hfree, rfl⟩ := exists_of_write h
  obtain ⟨hin, hlocation⟩ := of_place hq
  exact hlocation ▸ keeps_put content executable hin hfree

theorem bare?_of_write (h : s.write path content = .ok s') (hl : l ≠ Path.location path) :
    s'.bare? l = s.bare? l := by
  obtain ⟨q, executable, hq, hfree, rfl⟩ := exists_of_write h
  obtain ⟨hin, hlocation⟩ := of_place hq
  rw [bare?_put_location hin hfree rfl, if_neg (hlocation ▸ hl)]

theorem read_of_write (h : s.write path content = .ok s') : s'.read path = .ok content := by
  obtain ⟨hkeeps, hcontent⟩ := keeps_write h
  obtain ⟨q, _, hq, -⟩ := exists_of_write h
  exact read_eq_ok_iff.2 ⟨hkeeps.exists_place hq, hcontent⟩

theorem dropSlashes_of_getLast? (h : path.toList.getLast? ≠ some '/') :
    dropSlashes path = path := by
  rw [dropSlashes]
  cases hpath : path.toList.reverse with
  | nil =>
    rw [List.reverse_eq_nil_iff] at hpath
    rw [← String.toList_inj]
    simp [hpath]
  | cons c t =>
    have hc : c ≠ '/' := by
      rintro rfl
      exact h (by rw [← List.head?_reverse, hpath]; rfl)
    rw [List.dropWhile_cons_of_neg (by simpa using hc), ← hpath]
    simp

theorem keeps_remove (hq : q.IsIn s) (hbare : s.bare? q.location ≠ some .emptyDirectory) :
    s.Keeps [q.location] (s.remove q.location) ∧
      ∀ l, (s.remove q.location).bare? l = some .emptyDirectory →
        s.bare? l = some .emptyDirectory := by
  obtain ⟨parent, name, hparent, hdirectory⟩ := hq.exists_parent hbare
  rw [hparent] at hbare ⊢
  have hremove := bare?_remove hdirectory hbare
  refine ⟨⟨fun l hl => ?_, fun l hl => ?_⟩, fun l hl => ?_⟩
  · rw [file?_eq, file?_eq, hremove, if_neg (by simpa using hl)]
  · rw [hremove, if_neg ?_, hl]
    rintro rfl
    exact hbare hl
  · rw [hremove] at hl
    split at hl
    · contradiction
    · exact hl

theorem entry_eq_ok (h : s.entry path = .ok e) :
    ∃ p, s.place path = .ok p ∧ s.get? (Path.location path) = some e := by
  unfold entry at h
  cases hp : s.place path with
  | error e => simp [hp, bind, Except.bind] at h
  | ok p =>
    have hcontent := content?_of_place hp
    simp only [hp, bind, Except.bind] at h
    split at h
    · rename_i hplace
      obtain rfl := Except.ok.inj h
      exact ⟨p, rfl, hcontent.symm.trans hplace⟩
    · contradiction

theorem exists_of_rename (h : s.rename src dst = .ok s') :
    ∃ e p q, s.place src = .ok p ∧ s.get? (Path.location src) = some e ∧ s.place dst = .ok q ∧
      s.bare? (Path.location dst) ≠ some .emptyDirectory ∧
      s' = (s.remove (Path.location src)).put (Path.location dst) e := by
  unfold rename at h
  cases he : s.entry src with
  | error e => simp [he, bind, Except.bind] at h
  | ok e =>
    obtain ⟨p, hp, hsrc⟩ := entry_eq_ok he
    have hlocate : s.locate src = .ok (Path.location src) := by
      rw [locate, hp, Except.map, (of_place hp).2]
    cases hq : s.place (dropSlashes dst) with
    | error e => simp [he, hlocate, hq, bind, Except.bind] at h
    | ok q =>
      simp only [he, hlocate, hq, bind, Except.bind] at h
      split at h
      · cases h
      split at h
      · cases h
      rename_i hslash
      split at h
      · cases h
      rename_i hdirectory
      rw [dropSlashes_of_getLast? (by simpa using hslash)] at hq
      obtain ⟨hin, hlocation⟩ := of_place hq
      refine ⟨e, p, q, hp, hsrc, hq, fun hbare => hdirectory ?_, ?_⟩
      · obtain ⟨f, hf⟩ := bare?_eq_emptyDirectory_iff.1 hbare
        rw [content?_of_place hq, hf]
        rfl
      · rw [← Except.ok.inj h, hlocation]

theorem keeps_rename (h : s.rename src dst = .ok s')
    (hcontent : s.content? (Path.location src) = some content) :
    s.Keeps [Path.location dst, Path.location src] s' ∧ s'.read dst = .ok content := by
  obtain ⟨e, p, q, hp, hsrc, hq, hdirectory, rfl⟩ := exists_of_rename h
  obtain ⟨executable, rfl⟩ : ∃ executable, e = .file content executable := by
    cases e with
    | directory f =>
      simp [Store.content?, file?, hsrc, Entry.isDirectory, Option.filter] at hcontent
    | file c executable =>
      obtain rfl : c = content := by
        simpa [Store.content?, file?, hsrc, Entry.isDirectory, Entry.content?, Option.filter]
          using hcontent
      exact ⟨executable, rfl⟩
  obtain ⟨hpin, hplocation⟩ := of_place hp
  have hfile : s.bare? p.location ≠ some .emptyDirectory := by
    rw [hplocation]
    rintro hbare
    obtain ⟨f, hf⟩ := bare?_eq_emptyDirectory_iff.1 hbare
    simp [hsrc] at hf
  obtain ⟨hremoved, hdirectories⟩ := keeps_remove hpin hfile
  rw [hplocation] at hremoved hdirectories
  obtain ⟨q', hq'⟩ := hremoved.exists_place hq
  obtain ⟨hqin, hqlocation⟩ := of_place hq'
  have hfree : (s.remove (Path.location src)).bare? q'.location ≠ some .emptyDirectory := by
    rw [hqlocation]
    exact fun hbare => hdirectory (hdirectories _ hbare)
  obtain ⟨hput, hnew⟩ := keeps_put content executable hqin hfree
  rw [hqlocation] at hput hnew
  have hkeeps : s.Keeps [Path.location dst, Path.location src]
      ((s.remove (Path.location src)).put (Path.location dst) (.file content executable)) :=
    (hremoved.mono (by simp)).trans (hput.mono (by simp))
  exact ⟨hkeeps, read_eq_ok_iff.2 ⟨hkeeps.exists_place hq, hnew⟩⟩

end Store
end ArchSketch.Files
