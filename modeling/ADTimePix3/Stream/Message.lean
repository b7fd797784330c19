import ADTimePix3.Lib.Chunks

/-!
# Messages on a stream

What is sent to the workers: a header on one line and then a payload, message after message. A stream is
`Aligned` with the pieces in which it is received when, for every message but the last, a piece ends with
the header's newline.
-/

namespace ADTimePix3.Stream

/-- A header, without its newline, and the payload behind it. -/
structure Message where
  header : List UInt8
  payload : List UInt8

namespace Message

def line (m : Message) : List UInt8 := m.header ++ ['\n'.toUInt8]

def bytes (m : Message) : List UInt8 := m.line ++ m.payload

/-- A one-line header that starts with `{"`. JSON text holds no NUL. -/
structure Framed (m : Message) : Prop where
  starts : ['{'.toUInt8, '"'.toUInt8] <+: m.header
  newline_notMem : '\n'.toUInt8 ∉ m.header
  nul_notMem : 0 ∉ m.header

end Message

def streamOf (messages : List Message) : List UInt8 := (messages.map Message.bytes).flatten

/-- Every header, the last one excepted, ends a piece. -/
def Aligned (messages : List Message) (pieces : List (List UInt8)) : Prop :=
  ∀ before m after, messages = before ++ m :: after → after ≠ [] →
    Chunks.Ends ((streamOf before).length + m.line.length) pieces

end ADTimePix3.Stream
