import CallAtlas.Diagnostic
import CallAtlas.Workspace

/-!
# Failures

Everything that can end an operation without a result: a diagnostic, a number with too many digits
to be read or to be shown, a file that gives no text, a name that has no id, or a dump that nests
too deeply.  Only diagnostics carry a place.

A diagnostic is worded as soon as it is told.  So a cause whose wording would show a number with too
many digits is not told: the number is, by its own failure.
-/

namespace CallAtlas

/-- Why an operation has no result. -/
inductive Failure where
  | diagnosed (diagnostic : Diagnostic)
  /-- A number has `count` digits, more than are read. -/
  | digitLimit (count : Nat)
  /-- A number that a wording shows has more digits than are shown. -/
  | unwritable
  | unreadable (fault : FileFault)
  /-- A name has no UTF-8 form, and so no id. -/
  | unencodable (fault : Text.EncodeFault)
  /-- A dump nests more deeply than the recursion limit can be raised for. -/
  | tooDeep
  deriving DecidableEq, Repr

namespace Failure

/-- The wording of a failure. -/
def message : Failure → String
  | .diagnosed diagnostic => diagnostic.message
  | .digitLimit count =>
    s!"Exceeds the limit ({Location.digitLimit} digits) for integer string conversion: " ++
      s!"value has {count} digits; use sys.set_int_max_str_digits() to increase the limit"
  | .unwritable =>
    s!"Exceeds the limit ({Location.digitLimit} digits) for integer string conversion; " ++
      "use sys.set_int_max_str_digits() to increase the limit"
  | .unreadable fault => fault.message
  | .unencodable fault => fault.message
  | .tooDeep => "Python int too large to convert to C int"

/-- The failure of a cause without a place, or of a number in its wording. -/
def ofCause (cause : Cause) : Failure :=
  if cause.isWritable then .diagnosed { cause } else .unwritable

/-- A cause that can be written is told. -/
theorem ofCause_of_isWritable {cause : Cause} (h : cause.isWritable = true) :
    ofCause cause = .diagnosed { cause } :=
  if_pos h

/-- Names the file that a malformed location stands in; other failures stay as they are. -/
def locatedIn (path : String) : Failure → Failure
  | .diagnosed diagnostic =>
    match diagnostic.cause with
    | .location _ => .diagnosed (diagnostic.withPath path)
    | _ => .diagnosed diagnostic
  | other => other

/-- The failure that a location's fault amounts to. -/
def ofLocationFault : Location.Fault → Failure
  | .notANumber coordinate text source =>
    .ofCause (.location (.notANumber coordinate text source))
  | .tooManyDigits count => .digitLimit count

end Failure

end CallAtlas
