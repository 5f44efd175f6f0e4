/-
Lines out of a byte stream.

Bytes arrive in arbitrary pieces.  A `Framer` takes complete lines off the
front of a buffer, decodes them, and gives an error in place of a line that is
too long or not UTF-8.  When an unfinished line has grown past the limit, it is
dropped at once, and the framer discards what follows up to the next line feed.

`Framer.next` takes one frame off and `Framer.drain` takes all there are:

* **`length_next_lt`** — every frame shortens the buffer, so draining ends.
-/
import Irc.Limits
import Irc.Text.Bytes

namespace Irc

/-- Why bytes are no line. -/
inductive FramingError where
  | tooLong (length limit : Nat)
  | undecodable (encoding : String)
deriving DecidableEq

/-- The wording of a framing error. -/
def FramingError.message : FramingError → String
  | .tooLong length limit =>
    "line too long: " ++ toString length ++ " bytes (max " ++ toString limit ++ ")"
  | .undecodable encoding => "line is not valid " ++ encoding

/-- A line, or what is wrong with it. -/
abbrev Frame := Except FramingError String

/-- A reader of lines. -/
structure Framer where
  /-- The most bytes of a line with its line feed. -/
  limit : Nat := Limits.frame
  /-- Bytes at the front of the buffer that are known to hold no line feed. -/
  scanned : Nat := 0
  /-- Whether the rest of a line that was too long is still to come. -/
  discarding : Bool := false
deriving DecidableEq

namespace Framer

/-- The name of the character encoding. -/
def encoding : String := "UTF-8"

/-- The byte that ends a line. -/
def lineFeed : UInt8 := 0x0A

/-- The byte that may stand before the end of a line. -/
def carriageReturn : UInt8 := 0x0D

/-- A reader that has not begun. -/
def reset (f : Framer) : Framer := { f with scanned := 0, discarding := false }

/-- The bytes of an outgoing line. -/
def encode (line : String) : List UInt8 := Text.utf8Bytes line

/-- Decodes the bytes of a line without its line feed. -/
def decodeLine (bytes : List UInt8) : Frame :=
  let body := if bytes.getLast? = some carriageReturn then bytes.dropLast else bytes
  match Text.ofUtf8? body with
  | some line => .ok line
  | none => .error (.undecodable encoding)

/-- Takes a frame off the front of a buffer, outside of a line that was too long. -/
def scan (f : Framer) (buffer : List UInt8) : Option Frame × Framer × List UInt8 :=
  match (buffer.drop f.scanned).findIdx? (· = lineFeed) with
  | none =>
    if f.limit < buffer.length then
      (some (.error (.tooLong buffer.length f.limit)),
        { f with scanned := 0, discarding := true }, [])
    else
      (none, { f with scanned := buffer.length }, buffer)
  | some offset =>
    let size := f.scanned + offset + 1
    if f.limit < size then
      (some (.error (.tooLong size f.limit)), { f with scanned := 0 }, buffer.drop size)
    else
      (some (decodeLine (buffer.take (size - 1))), { f with scanned := 0 }, buffer.drop size)

/-- Takes a frame off the front of a buffer, if there is one. -/
def next (f : Framer) (buffer : List UInt8) : Option Frame × Framer × List UInt8 :=
  if f.discarding then
    match buffer.findIdx? (· = lineFeed) with
    | none => (none, f, [])
    | some offset => scan { f with discarding := false } (buffer.drop (offset + 1))
  else
    scan f buffer

/-- A frame taken outside of a line that was too long shortens the buffer. -/
theorem length_scan_lt (f : Framer) (buffer : List UInt8) (h : (f.scan buffer).1 ≠ none) :
    (f.scan buffer).2.2.length < buffer.length := by
  have hfound (offset : Nat)
      (ho : (buffer.drop f.scanned).findIdx? (· = lineFeed) = some offset) :
      (buffer.drop (f.scanned + offset + 1)).length < buffer.length := by
    have := (List.findIdx?_eq_some_iff_findIdx_eq.1 ho).1
    simp only [List.length_drop] at this ⊢
    omega
  unfold scan at h ⊢
  split
  · rename_i hnone
    by_cases hlen : f.limit < buffer.length
    · simp only [hlen, if_true, List.length_nil]
      omega
    · simp [hnone, hlen] at h
  · rename_i offset hsome
    have := hfound offset hsome
    simp only
    split <;> exact this

/-- A frame shortens the buffer. -/
theorem length_next_lt (f : Framer) (buffer : List UInt8) (h : (f.next buffer).1 ≠ none) :
    (f.next buffer).2.2.length < buffer.length := by
  unfold next at h ⊢
  by_cases hd : f.discarding
  · simp only [hd, if_true] at h ⊢
    split at h
    · simp at h
    · rename_i offset ho
      have := length_scan_lt _ _ h
      simp only [List.length_drop] at this
      omega
  · rw [if_neg hd] at h ⊢
    exact length_scan_lt f buffer h

/-- Takes all frames off a buffer; gives the frames, the reader and what is left. -/
def drain (f : Framer) (buffer : List UInt8) : List Frame × Framer × List UInt8 :=
  match _h : f.next buffer with
  | (none, after, left) => ([], after, left)
  | (some frame, after, left) =>
    let (frames, last, rest) := drain after left
    (frame :: frames, last, rest)
termination_by buffer.length
decreasing_by
  have := length_next_lt f buffer (by simp [_h])
  simpa [_h] using this

/-- Takes new bytes in and takes all frames off. -/
def feed (f : Framer) (buffer bytes : List UInt8) : List Frame × Framer × List UInt8 :=
  f.drain (buffer ++ bytes)

end Framer

end Irc
