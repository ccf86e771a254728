/-
This file holds the bytes that wait to be read at one end of a pipe or of a socket pair.

They wait in segments, in the order in which they were written. A pipe has sixteen segments of a
page each, and a write whose odd part fits behind the last bytes joins them. A socket keeps a
segment for each message and charges it to the sender until its last byte has been read. So how
much more can be written depends on how the waiting bytes were written and not on their number
alone.
-/

namespace MessagePump

/-- A stretch of waiting bytes: how many there are, how many more fit behind them, and what they
are charged with until the last of them has been read. -/
structure Segment where
  unread : Nat
  room : Nat := 0
  charge : Nat := 1
  deriving DecidableEq

/-- The segments that wait at an end, the oldest first. -/
structure Backlog where
  segments : List Segment := []
  deriving DecidableEq

namespace Segment

/-- The number of bytes that wait in segments. -/
def total : List Segment → Nat
  | [] => 0
  | segment :: segments => segment.unread + total segments

/-- What segments are charged with together. -/
def totalCharge : List Segment → Nat
  | [] => 0
  | segment :: segments => segment.charge + totalCharge segments

end Segment

namespace Backlog

/-- The number of bytes that wait. -/
def unread (backlog : Backlog) : Nat := Segment.total backlog.segments

/-- What the waiting segments are charged with together. -/
def charge (backlog : Backlog) : Nat := Segment.totalCharge backlog.segments

/-! ### Reading -/

/-- Takes bytes from the front; a segment goes with its last byte. -/
def takeFrom : Nat → List Segment → List Segment
  | _, [] => []
  | bytes, segment :: segments =>
    if bytes < segment.unread then { segment with unread := segment.unread - bytes } :: segments
    else takeFrom (bytes - segment.unread) segments

/-- The backlog after bytes have been read. -/
def take (backlog : Backlog) (bytes : Nat) : Backlog where
  segments := takeFrom bytes backlog.segments

/-! ### Pages of a pipe -/

/-- A page holds so many bytes. -/
abbrev pageBytes : Nat := 4096

/-- A pipe has so many pages. -/
abbrev pipePages : Nat := 16

/-- Whether a pipe has a page left. -/
def hasPage (backlog : Backlog) : Bool := decide (backlog.segments.length < pipePages)

/-- Joins bytes to the last segment, if it has room for all of them. -/
def joinLast? (bytes : Nat) : List Segment → Option (List Segment)
  | [] => none
  | [last] =>
    if bytes ≤ last.room then
      some [{ last with unread := last.unread + bytes, room := last.room - bytes }]
    else none
  | segment :: next :: segments =>
    (joinLast? bytes (next :: segments)).map fun joined => segment :: joined

/-- The pages that bytes take, if so many are free; the bytes that do not fit are left out. -/
def pages : Nat → Nat → List Segment
  | 0, _ => []
  | free + 1, bytes =>
    if bytes = 0 then []
    else
      { unread := min bytes pageBytes, room := pageBytes - min bytes pageBytes } ::
        pages free (bytes - pageBytes)

/-- Writes new pages behind segments, as far as there are any. -/
def appendPages (segments : List Segment) (bytes : Nat) : List Segment :=
  segments ++ pages (pipePages - segments.length) bytes

/-- The backlog of a pipe after a write. What the bytes have beyond whole pages joins the last
page, if all of it fits there; the rest takes new pages. -/
def putPages (backlog : Backlog) (bytes : Nat) : Backlog where
  segments :=
    let odd := bytes % pageBytes
    match if odd = 0 then none else joinLast? odd backlog.segments with
    | some joined => appendPages joined (bytes - odd)
    | none => appendPages backlog.segments bytes

/-! ### Messages of a socket -/

/-- A socket takes messages as long as the charge for those that wait is below this. -/
abbrev socketLimit : Nat := 212992

/-- The head of a message has room for so many bytes. -/
abbrev headBytes : Nat := 3776

/-- A message has at most a head and eight pages. -/
abbrev messageBytes : Nat := headBytes + 8 * pageBytes

/-- The head of a message takes one of these sizes, its own description included. -/
def headSizes : List Nat := [512, 1024, 2048, 4096]

/-- The description of a message in its head. -/
abbrev headDescription : Nat := 320

/-- The record of a message beside its head. -/
abbrev messageRecord : Nat := 256

/-- Bytes made up to whole pages. -/
def wholePages (bytes : Nat) : Nat := (bytes + (pageBytes - 1)) / pageBytes * pageBytes

/-- The bytes of a message that are kept in pages: those beyond its head, as many as fill the pages
that they need. -/
def pagedBytes (bytes : Nat) : Nat := min bytes (wholePages (bytes - headBytes))

/-- A head with so many bytes is charged with the smallest size that holds it. -/
def headCharge (bytes : Nat) : Nat :=
  (headSizes.find? fun size => decide (bytes + headDescription ≤ size)).getD pageBytes

/-- A message is charged with its record, its head and its pages. -/
def messageCharge (bytes : Nat) : Nat :=
  messageRecord + headCharge (bytes - pagedBytes bytes) + wholePages (pagedBytes bytes)

/-- A socket counts as ready for output when at most a quarter of its limit is charged. -/
def hasQuarter (backlog : Backlog) : Bool := decide (4 * (backlog.charge + 1) ≤ socketLimit)

/-- The messages, at most so many, into which bytes are cut when a charge stands already; the
bytes that are not taken any more are left out. -/
def messages : Nat → Nat → Nat → List Segment
  | 0, _, _ => []
  | most + 1, charge, bytes =>
    if bytes = 0 || decide (socketLimit ≤ charge) then []
    else
      let cost := messageCharge (min bytes messageBytes)
      { unread := min bytes messageBytes, charge := cost } ::
        messages most (charge + cost) (bytes - messageBytes)

/-- The backlog of a socket after a write. -/
def putMessages (backlog : Backlog) (bytes : Nat) : Backlog where
  segments := backlog.segments ++ messages bytes backlog.charge bytes

end Backlog

end MessagePump
