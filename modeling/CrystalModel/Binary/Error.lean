/-! # Faults of binary forms -/
namespace CrystalModel.Binary

inductive HeaderFault where
  | truncated (offset : Nat)
  | fields (rank elementSize count : Int32)
  | recordsDiffer (record : String)
  | blobDiffers (kind : String)
deriving DecidableEq, Repr

def HeaderFault.message : HeaderFault → String
  | .truncated offset => s!"truncated at offset {offset}"
  | .fields rank elementSize count =>
    s!"rank {rank.toInt}, element size {elementSize.toInt}, count {count.toInt}"
  | .recordsDiffer record => record ++ " records do not re-encode identically"
  | .blobDiffers kind => kind ++ " blob changed on re-read"

inductive FormatError where
  | sizeContract (record : String) (expected actual : Nat)
  | lengthMismatch (expected actual : Nat)
  | corruptHeader (fault : HeaderFault)
  | unknownTag (tag : UInt32)
  | elementMismatch (kind : String) (elementSize : Nat)
deriving DecidableEq, Repr

def FormatError.message : FormatError → String
  | .sizeContract record expected actual =>
    s!"Size contract violated for \x27{record}\x27: expected {expected} bytes, got {actual}"
  | .lengthMismatch expected actual =>
    s!"Blob length mismatch: header announces {expected} bytes, found {actual}"
  | .corruptHeader fault => "Corrupt blob header: " ++ fault.message
  | .unknownTag tag => s!"Unknown blob type tag: {tag.toNat}"
  | .elementMismatch kind elementSize =>
    s!"Blob of kind \x27{kind}\x27 does not hold elements of {elementSize} bytes"

end CrystalModel.Binary
