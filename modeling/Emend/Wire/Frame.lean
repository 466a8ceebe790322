import Emend.Failure
import Emend.Wire.Bytes

namespace Emend
namespace Wire

/-!
# Frames

A message travels in a frame: the length of its bytes in four bytes, then the
bytes.  Writer and reader refuse messages above the same size.
-/

/-- No message is longer than this. -/
def maxMessageSize : Nat := 16 * 1024 * 1024

/-- The frame of a message. -/
def frame (message : List UInt8) : Except Failure (List UInt8) :=
  let length := message.length
  if maxMessageSize < length then .error .messageTooLarge
  else .ok (bigEndian 4 length ++ message)

/-- The message of the frame in front of a stream that has ended, and what is
left of the stream.  A frame that is cut short uses the stream up; of a frame
that is too long only the length has been read. -/
def readFrame (stream : List UInt8) : Except Failure (List UInt8) × List UInt8 :=
  match takeNat? 4 stream with
  | none => (.error (.connection "Read length failed: early eof"), [])
  | some (length, rest) =>
      if maxMessageSize < length then
        (.error .messageTooLarge, rest)
      else
        match takeBytes? length rest with
        | none => (.error (.connection "Read payload failed: early eof"), [])
        | some (message, rest) => (.ok message, rest)

/-- Whether the frame in front of a stream still lacks bytes, so that a reader
has to wait for more of them. -/
def lacksBytes (stream : List UInt8) : Bool :=
  match takeNat? 4 stream with
  | none => true
  | some (length, rest) => decide (length ≤ maxMessageSize) && decide (rest.length < length)

end Wire
end Emend
