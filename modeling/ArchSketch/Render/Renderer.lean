import ArchSketch.Conversation.Turn
import ArchSketch.Files.Disk
import ArchSketch.Render.Backend
import ArchSketch.Render.Moment

/-! Drawing diagrams: to the bytes of an image, or to a file in the output directory. Nothing but
what the backend itself does reaches the disk before it has given an image that is not empty. -/
namespace ArchSketch

open Files

/-- What a program works on: the disk and the clock, and the record of what the backend was given
so far. -/
structure Workplace where
  disk : Disk
  now : Moment
  drawn : List (String × ImageFormat) := []

structure Renderer where
  backend : Backend
  outputDir : String
  format : ImageFormat

namespace Renderer

def ofSettings (m : Host.Machine) (r : RenderSettings) : Renderer :=
  ⟨Backend.ofSettings m r.backend, r.outputDir, r.format⟩

def bytes (r : Renderer) (source : String) : StateM Workplace (Except RenderFailure ByteArray) :=
  fun w =>
    let (answer, store) := r.backend w.disk.store source r.format
    let result := match answer with
      | .error e => .error e
      | .ok bytes => if bytes.isEmpty then .error .emptyOutput else .ok bytes
    (result, { w with disk := { w.disk with store }, drawn := w.drawn ++ [(source, r.format)] })

def artifactAt (r : Renderer) (m : Moment) : Artifact :=
  ⟨Path.join r.outputDir (artifactName m r.format), artifactName m r.format⟩

def keeping (r : Renderer) (m : Moment) (bytes : ByteArray) : List Action :=
  [.makeDirectories r.outputDir, .write (r.artifactAt m).path bytes]

def file (r : Renderer) (source : String) : StateM Workplace (Except RenderFailure Artifact) := do
  match ← r.bytes source with
  | .error e => return .error e
  | .ok bytes => fun w =>
    match w.disk.performAll (r.keeping w.now bytes) with
    | (.ok _, disk) => (.ok (r.artifactAt w.now), { w with disk })
    | (.error e, disk) => (.error (.io e), { w with disk })

end Renderer
end ArchSketch
