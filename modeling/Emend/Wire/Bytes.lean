namespace Emend
namespace Wire

/-!
# Numbers as bytes

Numbers travel with their most significant byte first.  A reader of bytes
gives what it read together with the bytes behind it, or nothing.
-/

/-- The lowest bytes of a number, the most significant first. -/
def bigEndian : Nat → Nat → List UInt8
  | 0, _ => []
  | width + 1, value => UInt8.ofNat (value / Nat.pow 256 width) :: bigEndian width value

/-- The number of bytes with the most significant first. -/
def ofBigEndian (bytes : List UInt8) : Nat :=
  bytes.foldl (fun value byte => value * 256 + byte.toNat) 0

/-- The bytes of a negative number in two's complement; a number that is not
negative has its usual bytes. -/
def signedBigEndian (width : Nat) (value : Int) : List UInt8 :=
  bigEndian width (value % (Nat.pow 256 width : Nat)).toNat

/-- The number that bytes denote in two's complement. -/
def ofSignedBigEndian (bytes : List UInt8) : Int :=
  let value := ofBigEndian bytes
  let limit := Nat.pow 256 bytes.length
  if 2 * value < limit then value else (value : Int) - limit

/-- So many bytes, and the bytes behind them; nothing when there are fewer. -/
def takeBytes? (count : Nat) (bytes : List UInt8) : Option (List UInt8 × List UInt8) :=
  let front := bytes.take count
  if front.length = count then some (front, bytes.drop count) else none

/-- A number of the given width, and the bytes behind it. -/
def takeNat? (width : Nat) (bytes : List UInt8) : Option (Nat × List UInt8) :=
  (takeBytes? width bytes).map fun (front, rest) => (ofBigEndian front, rest)

/-- As many readings in a row as `count` says. -/
def takeMany? {Value : Type} (read : List UInt8 → Option (Value × List UInt8)) :
    Nat → List UInt8 → Option (List Value × List UInt8)
  | 0, bytes => some ([], bytes)
  | count + 1, bytes => do
      let (value, rest) ← read bytes
      let (values, rest) ← takeMany? read count rest
      some (value :: values, rest)

end Wire
end Emend
