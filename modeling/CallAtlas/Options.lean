/-!
# Options

What a reader of dumps may choose.
-/

namespace CallAtlas

/-- Whether a malformed location is refused or passed over with a warning. -/
inductive Strictness where
  | strict
  | lenient
  deriving DecidableEq, Repr

/-- Choices about how dumps are folded into a graph. -/
structure Options where
  /-- Show mangled names in their readable form. -/
  demangle : Bool := true
  /-- What to do about malformed locations. -/
  locations : Strictness := .strict
  /-- Register the functions of all files before the calls of any. -/
  resolveAcrossFiles : Bool := false
  /-- The name of the encoding of dump files. -/
  encoding : String := "utf-8"
  deriving DecidableEq, Repr

namespace Options

/-- The encoding unless another is chosen. -/
def defaultEncoding : String := ({} : Options).encoding

end Options

end CallAtlas
