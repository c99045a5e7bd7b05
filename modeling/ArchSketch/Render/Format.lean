import ArchSketch.Diagram.Level

/-! The encodings a diagram can be drawn in. -/
namespace ArchSketch

inductive ImageFormat where
  | png
  | svg
  | pdf
  deriving DecidableEq, Repr

namespace ImageFormat

def all : List ImageFormat := [.png, .svg, .pdf]

def name : ImageFormat → String
  | png => "png"
  | svg => "svg"
  | pdf => "pdf"

def mediaType : ImageFormat → String
  | png => "image/png"
  | svg => "image/svg+xml"
  | pdf => "application/pdf"

def ofName (text : String) : Except UnknownName ImageFormat := choose name all text

def unknownMessage (e : UnknownName) : String := "unknown image format: " ++ e.name

end ImageFormat
end ArchSketch
