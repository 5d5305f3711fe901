/-!
# Frames

A decoded picture: its raw bytes and its size.
-/

namespace LiveDetection

/-- A raw picture with three bytes per pixel. A frame that was never read is empty. -/
structure Frame where
  data : List UInt8 := []
  width : Int32 := 0
  height : Int32 := 0
deriving DecidableEq, Repr, Inhabited

end LiveDetection
