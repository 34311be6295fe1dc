import CallAtlas.Digest.Sha256
import CallAtlas.Text.Encoding

/-!
# Function ids

A function is known by a 64-bit number that depends on its name alone: the leading bytes of the
name's hash.  Different names can share an id; the graph refuses the second of them.  A name without
a UTF-8 form has no hash, and so no id.

## Main definitions

* `FunctionId.ofName` — the id of a name;
* `IdScheme` — any way to give names their ids.
-/

namespace CallAtlas

/-- The number that stands for a function.  Those of names are not negative. -/
abbrev FunctionId := Int

namespace FunctionId

/-- How many bytes of the hash an id keeps. -/
def digestBytes : Nat := 8

/-- A run of bytes as a number, most significant byte first. -/
def ofBytes (bytes : List UInt8) : Nat :=
  bytes.foldl (fun n b => n * 256 + b.toNat) 0

/-- The id of a name: the leading bytes of the SHA-256 hash of its UTF-8 form. -/
def ofName (name : String) : FunctionId :=
  ofBytes ((Digest.Sha256.digest name.toUTF8.data.toList).take digestBytes)

end FunctionId

/-- A way to give names their ids, which need not be different. -/
structure IdScheme where
  /-- The id of a name. -/
  ofName : String → FunctionId
  /-- Why a name has no id, if it has none. -/
  fault? : String → Option Text.EncodeFault := fun _ => none

namespace IdScheme

instance : CoeFun IdScheme fun _ => String → FunctionId := ⟨ofName⟩

/-- Every name has an id. -/
instance : Coe (String → FunctionId) IdScheme := ⟨fun idOf => { ofName := idOf }⟩

end IdScheme

end CallAtlas
