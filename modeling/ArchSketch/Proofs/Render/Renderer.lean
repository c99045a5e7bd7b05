import ArchSketch.Proofs.Files.Disk
import ArchSketch.Render.Renderer

/-! Drawing to a file, whatever the backend answers and whatever goes wrong on the disk. The backend
is asked first and the disk is not touched unless it gave an image that is not empty; then the
directory is made and the image written into it. What the backend itself does to the store is its
own affair, so the disk is compared with the one that the backend leaves. -/
namespace ArchSketch.Renderer

open Files

variable {r : Renderer} {source : String} {w after : Workplace} {image : ByteArray}
  {e : RenderFailure} {result : Except RenderFailure Artifact} {d : Disk} {m : Moment}

def answer (r : Renderer) (source : String) (w : Workplace) : Except RenderFailure ByteArray :=
  (r.backend w.disk.store source r.format).1

def afterBackend (r : Renderer) (source : String) (w : Workplace) : Workplace :=
  { w with
    disk := { w.disk with store := (r.backend w.disk.store source r.format).2 }
    drawn := w.drawn ++ [(source, r.format)] }

/-- The result of drawing to a file and the workplace after it, for each way in which that ends. -/
inductive FileEnds (r : Renderer) (source : String) (w : Workplace) :
    Except RenderFailure Artifact → Workplace → Prop
  | undrawn {e : RenderFailure} (hbytes : ((r.bytes source).run w).1 = .error e) :
    FileEnds r source w (.error e) (r.afterBackend source w)
  | refused {image : ByteArray} {e : IoError} {disk : Disk}
    (hbytes : ((r.bytes source).run w).1 = .ok image)
    (hdisk : (r.afterBackend source w).disk.performAll (r.keeping w.now image) =
      (.error e, disk)) :
    FileEnds r source w (.error (.io e)) { r.afterBackend source w with disk }
  | kept {image : ByteArray} {disk : Disk}
    (hbytes : ((r.bytes source).run w).1 = .ok image)
    (hdisk : (r.afterBackend source w).disk.performAll (r.keeping w.now image) = (.ok (), disk)) :
    FileEnds r source w (.ok (r.artifactAt w.now)) { r.afterBackend source w with disk }

theorem file_ends (r : Renderer) (source : String) (w : Workplace) :
    FileEnds r source w ((r.file source).run w).1 ((r.file source).run w).2 := by
  unfold file
  rw [StateT.run_bind]
  rcases hbytes : (r.bytes source).run w with ⟨e | image, v⟩
  · obtain rfl : r.afterBackend source w = v := congrArg Prod.snd hbytes
    exact .undrawn (congrArg Prod.fst hbytes)
  · obtain rfl : r.afterBackend source w = v := congrArg Prod.snd hbytes
    have himage := congrArg Prod.fst hbytes
    dsimp only [bind, StateT.run]
    rcases hdisk : (r.afterBackend source w).disk.performAll
      (r.keeping (r.afterBackend source w).now image) with ⟨e | _, disk⟩
    · exact .refused himage hdisk
    · exact .kept himage hdisk

/-! The actions that keep an image. -/

theorem performAll_keeping (r : Renderer) (m : Moment) (image : ByteArray) (d : Disk) :
    d.performAll (r.keeping m image) =
      match d.perform (.makeDirectories r.outputDir) with
      | (.ok _, d) => d.perform (.write (r.artifactAt m).path image)
      | (.error e, d) => (.error e, d) := by
  rw [keeping, Disk.performAll]
  rcases d.perform (.makeDirectories r.outputDir) with ⟨e | _, d₁⟩
  · rfl
  · exact d₁.performAll_singleton _

theorem bare?_keeping (r : Renderer) (m : Moment) (image : ByteArray) (d : Disk) {l : Location}
    (hl : l ≠ Path.location (r.artifactAt m).path) :
    (d.performAll (r.keeping m image)).2.store.bare? l = d.store.bare? l ∨
      l ∈ Path.way r.outputDir ∧ d.store.bare? l = none ∧
        (d.performAll (r.keeping m image)).2.store.bare? l = some .emptyDirectory := by
  have hmade := d.adds_perform r.outputDir l
  rw [performAll_keeping]
  generalize d.perform (.makeDirectories r.outputDir) = made at hmade
  obtain ⟨e | _, d₁⟩ := made
  · exact hmade
  · dsimp only
    rw [d₁.bare?_perform_write _ image hl]
    exact hmade

theorem read_keeping (h : (d.performAll (r.keeping m image)).1 = .ok ()) :
    (d.performAll (r.keeping m image)).2.store.read (r.artifactAt m).path = .ok image := by
  rw [performAll_keeping] at h ⊢
  generalize d.perform (.makeDirectories r.outputDir) = made at h
  obtain ⟨e | _, d₁⟩ := made
  · contradiction
  · exact d₁.read_of_perform_write _ image h

namespace FileEnds

theorem drawn (h : FileEnds r source w result after) :
    after.drawn = w.drawn ++ [(source, r.format)] := by
  cases h <;> rfl

theorem whole {a : Artifact} (h : FileEnds r source w result after) (ha : result = .ok a) :
    a = r.artifactAt w.now ∧ ∃ image, ((r.bytes source).run w).1 = .ok image ∧
      after.disk.store.read a.path = .ok image := by
  cases h with
  | undrawn | refused => contradiction
  | kept himage hdisk =>
    obtain rfl := Except.ok.inj ha
    have hread := read_keeping (congrArg Prod.fst hdisk)
    rw [hdisk] at hread
    exact ⟨rfl, _, himage, hread⟩

theorem others (h : FileEnds r source w result after) {l : Location}
    (hl : l ≠ Path.location (r.artifactAt w.now).path) :
    after.disk.store.bare? l = (r.afterBackend source w).disk.store.bare? l ∨
      l ∈ Path.way r.outputDir ∧ (r.afterBackend source w).disk.store.bare? l = none ∧
        after.disk.store.bare? l = some .emptyDirectory := by
  cases h with
  | undrawn => exact .inl rfl
  | @refused image _ _ _ hdisk | @kept image _ _ hdisk =>
    have hframe := r.bare?_keeping w.now image (r.afterBackend source w).disk hl
    rw [hdisk] at hframe
    exact hframe

end FileEnds

theorem drawn_of_file (h : r.file source w = (result, after)) :
    after.drawn = w.drawn ++ [(source, r.format)] := by
  have hends := r.file_ends source w
  change FileEnds r source w (r.file source w).1 (r.file source w).2 at hends
  rw [h] at hends
  exact hends.drawn

/-! What a whole drawing does. -/

end ArchSketch.Renderer
