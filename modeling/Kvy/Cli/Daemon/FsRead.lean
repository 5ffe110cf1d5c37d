import Kvy.General.Utf8
import Mathlib.Data.Nat.Digits.Defs

/-!
# Reading a file for the web

A file that does not look binary is returned as text. One that is too long is cut at a number of bytes
and a marker is added to the text; a range of bytes is returned without a marker.
-/

namespace Kvy.Cli.Daemon.FsRead

open General

/-- `MAX_INLINE_BYTES`. -/
def maxInlineBytes : Nat := 60000

/-- The range of `FsReadParams`. -/
structure FsReadRange where
  start : Int
  endOffset : Int

/-- `FsReadResult`. -/
structure FsReadResult where
  inline : Option (List Char)
  blobRef : Option String
  truncated : Bool

/-- `looksBinary`. -/
def looksBinary (buffer : List UInt8) : Bool := (buffer.take 8000).any (· = 0)

/-- What stands before the number in the marker of a file that is cut. -/
def markerOpening : List Char := "\n\n… (file truncated at ".toList

/-- What stands after the number. -/
def markerEnding : List Char := " bytes)\n".toList

/-- The marker of a file that is cut. -/
def marker (maxInlineBytes : Nat) : List Char :=
  markerOpening ++ Nat.toDigits 10 maxInlineBytes ++ markerEnding

/-- `readFile`, from the bytes of the file on. -/
def readFile (path : String) (buffer : List UInt8) (maxInlineBytes : Nat)
    (uploadBlob : List UInt8 → Option String) (range : Option FsReadRange) :
    Except String FsReadResult :=
  if looksBinary buffer then
    .error (path ++ " looks like a binary file, no text preview available")
  else match range with
  | some range =>
    let start := (max 0 range.start).toNat
    let requestedEnd := min (buffer.length : Int) range.endOffset
    let cappedEnd := min requestedEnd (start + maxInlineBytes)
    let slice := (buffer.take (max (start : Int) cappedEnd).toNat).drop start
    .ok
      { inline := some (Utf8.decode slice)
        blobRef := none
        truncated := decide (0 < start) || decide (cappedEnd < buffer.length) }
  | none =>
    if buffer.length ≤ maxInlineBytes then
      .ok { inline := some (Utf8.decode buffer), blobRef := none, truncated := false }
    else
      .ok
        { inline := some (Utf8.decode (buffer.take maxInlineBytes) ++ marker maxInlineBytes)
          blobRef := uploadBlob buffer
          truncated := true }

end Kvy.Cli.Daemon.FsRead
