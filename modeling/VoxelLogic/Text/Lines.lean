/-!
# Lines of a file

A file is a list of bytes.  It is cut into lines at every line feed before it is decoded, so that a
line that is not valid UTF-8 spoils no line before it.

* `lines`: the lines of a file, without their line feeds.  A line feed at the end of a file is
  followed by one empty line.
* `decode?`: the text of a line.
-/

namespace VoxelLogic.Text

/-- The byte that ends a line. -/
def lineFeed : UInt8 := 10

/-- The lines of a file. -/
def lines (bytes : List UInt8) : List (List UInt8) :=
  match _h : bytes.dropWhile (· != lineFeed) with
  | [] => [bytes.takeWhile (· != lineFeed)]
  | _ :: rest => bytes.takeWhile (· != lineFeed) :: lines rest
termination_by bytes.length
decreasing_by
  have hle : (bytes.dropWhile (· != lineFeed)).length ≤ bytes.length :=
    (List.dropWhile_sublist _).length_le
  rw [_h, List.length_cons] at hle
  omega

/-- The text that a line encodes in UTF-8, or `none` if it is not valid UTF-8. -/
def decode? (line : List UInt8) : Option String := String.fromUTF8? line.toByteArray

/-- The bytes of a text in UTF-8. -/
def encode (text : String) : List UInt8 := text.toUTF8.data.toList

end VoxelLogic.Text
