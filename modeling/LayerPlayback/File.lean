import LayerPlayback.Text.Utf8

namespace LayerPlayback

/-!
# Files

What is found at a path when it is read.  Reading can fail for reasons that the
system words; here only the fact counts.
-/

/-- What is found at a path. -/
inductive File where
  | missing
  /-- Something that cannot be read as a file, such as a directory. -/
  | unreadable
  | content (bytes : List UInt8)
  deriving Repr, DecidableEq

namespace File

/-- Whether anything is found. -/
def isFound : File → Bool
  | .missing => false
  | _ => true

/-- The bytes of a file that can be read. -/
def bytes? : File → Option (List UInt8)
  | .content bytes => some bytes
  | _ => none

/-- The text of a file that can be read, with ill-formed parts replaced. -/
def replacingText? (file : File) : Option String :=
  file.bytes?.map Utf8.replacing

/-- The text of a file that can be read and is well-formed. -/
def strictText? (file : File) : Option String :=
  file.bytes?.bind Utf8.strict?

end File

end LayerPlayback
