import ADTimePix3.Lib.Memory

/-!
# The line buffer

How the stream workers look for a header in the bytes they have received (`runPreviewTcpWorker` and
`imgWorkerThread` in `serval_stream.cpp`, `prvHstWorkerThread` in `histogram_io.cpp`), and how the three
functions they call read the line they are given. Every step keeps the indices it reads.
-/

namespace ADTimePix3.Stream

open Memory

def MAX_BUFFER_SIZE : ℕ := 32768

/-! ## The header of a line -/

/-- `memchr(buffer, c, n)`. -/
def memchr (buffer : ℕ → UInt8) (c : Char) (n : ℕ) : Traced (Option ℕ) :=
  find (fun p => (· == c.toUInt8) <$> read buffer p) 0 n

/-- `*p == '{' && p[1] == '"'`. -/
def isObjectStart (buffer : ℕ → UInt8) (p : ℕ) : Traced Bool := do
  if (← read buffer p) == '{'.toUInt8 then
    return (← read buffer (p + 1)) == '"'.toUInt8
  return false

/-- The characters that make a text look like JSON. -/
def isJsonPunctuation (c : UInt8) : Bool := ['"', ':', ',', '}', '[', ']'].any (·.toUInt8 == c)

/-- `std::isalnum(c) || c == ' ' || c == '_' || c == '-' || c == '.'`. -/
def isJsonChar (c : UInt8) : Bool :=
  let ch := Char.ofNat c.toNat
  ch.isAlphanum || [' ', '_', '-', '.'].contains ch

/-- `c < 32 && c != '\n' && c != '\r' && c != '\t'`, for a signed `c`. -/
def isBinary (c : UInt8) : Bool :=
  (c.toNat < 32 || 128 ≤ c.toNat) && !(['\n', '\r', '\t'].any (·.toUInt8 == c))

/-- The check of the `n` characters from `p + i` on. The histogram worker does not count characters. -/
def looksLikeJson (countChars : Bool) (buffer : ℕ → UInt8) (p : ℕ) : (i n json_chars : ℕ) → Traced Bool
  | _, 0, json_chars => return json_chars > 5
  | i, n + 1, json_chars => do
    let c ← read buffer (p + i)
    if isJsonPunctuation c then return true
    else if countChars && isJsonChar c then looksLikeJson countChars buffer p (i + 1) n (json_chars + 1)
    else if isBinary c then return json_chars > 5
    else looksLikeJson countChars buffer p (i + 1) n json_chars

/-- A `{` with something like JSON behind it, within 100 characters and before the newline. -/
def isJsonStart (countChars : Bool) (buffer : ℕ → UInt8) (newline_pos p : ℕ) : Traced Bool := do
  if (← read buffer p) == '{'.toUInt8 then
    looksLikeJson countChars buffer p 1 (min (newline_pos - p - 1) 100 - 1) 0
  else return false

/-- Where the header starts: at the first `{"`, else at the first `{` that looks like JSON. -/
def findJsonStart (countChars : Bool) (buffer : ℕ → UInt8) (newline_pos : ℕ) : Traced (Option ℕ) := do
  match ← find (isObjectStart buffer) 0 (newline_pos - 1) with
  | some p => return some p
  | none => find (isJsonStart countChars buffer newline_pos) 0 (newline_pos - 2)

/-! ## Reading a line -/

/-- What a line function is given: the buffer, the start of the line, its newline (already overwritten by
NUL) and the number of bytes in the buffer. -/
structure Line where
  buffer : ℕ → UInt8
  line_buffer : ℕ
  newline_pos : ℕ
  total_read : ℕ

/-- A character at which the skipping of leading binary data stops. -/
def endsSkip (atNul : Bool) (c : UInt8) : Bool :=
  (atNul && c == 0) || c == '{'.toUInt8 || (32 ≤ c.toNat && c.toNat ≤ 126)

/-- Skip what is not printable, up to `stop` and, in a C string, up to the NUL. -/
def skipBinary (atNul : Bool) (buffer : ℕ → UInt8) (p stop : ℕ) : Traced ℕ := do
  let found ← find (fun q => endsSkip atNul <$> read buffer q) p (stop - p)
  return found.getD stop

/-- A C string, with the NUL that ends it. -/
def readCString (buffer : ℕ → UInt8) (p : ℕ) : Traced (List UInt8) := do
  let nul ← find (fun q => (· == 0) <$> read buffer q) p (MAX_BUFFER_SIZE - p)
  return slice buffer p (nul.getD MAX_BUFFER_SIZE - p)

/-- The bytes that are taken from the buffer: `memcpy` of what `total_read` and the line's own start and end
leave behind the newline, at most `binary_needed` bytes. -/
def copyBuffered (line : Line) (binary_needed : ℕ) : Traced (List UInt8) :=
  let remaining := line.total_read - (line.newline_pos - line.line_buffer + 1)
  readRange line.buffer (line.newline_pos + 1) (min remaining binary_needed)

end ADTimePix3.Stream
