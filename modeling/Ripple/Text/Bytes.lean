/-!
# Bytes of a text

The places at which a text is found faulty are counted in the bytes of its UTF-8
form. `byteCount` is their number, `bytesOf` the bytes themselves.
-/

namespace Ripple.Text

/-- The number of UTF-8 bytes of some characters. -/
def byteCount : List Char → Nat
  | [] => 0
  | c :: rest => c.utf8Size + byteCount rest

/-- The UTF-8 bytes of a text. -/
def bytesOf (text : String) : List UInt8 := text.toUTF8.toList

/-- The byte of a line feed. -/
def lineFeed : UInt8 := 10

/-- The number of the line on which some bytes end, counted from one. -/
def lineAfter (bytes : List UInt8) : Nat := bytes.count lineFeed + 1

/-- The number of bytes on the last line of some bytes. -/
def columnAfter (bytes : List UInt8) : Nat :=
  (bytes.reverse.takeWhile (· != lineFeed)).length

end Ripple.Text
