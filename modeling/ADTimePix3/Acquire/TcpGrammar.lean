import ADTimePix3.Acquire.Numerals

/-!
# The grammar of TCP paths

The path grammar is `tcp://[user@]host:port`. The parser searches the first `@` and the first `:` behind it, takes
any host, and `std::stoi` takes blanks and a sign before the number and anything behind it: `Parts` are the pieces
of what it reads.
-/

namespace ADTimePix3.Acquire

/-- `[user@]`. -/
def userPart (user : Option (List Char)) : List Char := user.elim [] (· ++ ['@'])

/-- `tcp://[user@]host:port`, with a host that is not empty and holds no `@` and no `:`. -/
structure TcpPath (user : Option (List Char)) (e : Endpoint) (digits filePath : List Char) : Prop where
  filePath_eq : filePath = "tcp://".toList ++ (userPart user ++ (e.host ++ ':' :: digits))
  user_at : ∀ u ∈ user, '@' ∉ u
  host_ne_nil : e.host ≠ []
  host_at : '@' ∉ e.host
  host_colon : ':' ∉ e.host
  decimal : Decimal digits e.port
  port_pos : 1 ≤ e.port
  port_le : e.port ≤ 65535

def InGrammar (filePath : List Char) (e : Endpoint) : Prop := ∃ user digits, TcpPath user e digits filePath

/-- The pieces of a path as the parser reads it. -/
structure Parts where
  user : Option (List Char)
  host : List Char
  blanks : List Char
  plus : Bool
  digits : List Char
  rest : List Char

/-- What lies behind the colon. -/
def Parts.portText (p : Parts) : List Char :=
  p.blanks ++ ((if p.plus then ['+'] else []) ++ (p.digits ++ p.rest))

def Parts.text (p : Parts) : List Char :=
  "tcp://".toList ++ (userPart p.user ++ (p.host ++ ':' :: p.portText))

theorem Parts.text_eq (p : Parts) :
    p.text = "tcp://".toList ++ (userPart p.user ++ (p.host ++ ':' :: p.portText)) := rfl

def Parts.endpoint (p : Parts) : Endpoint := ⟨p.host, Nat.ofDigitChars 10 p.digits 0⟩

/-- The pieces that the parser takes: without a user part there is no `@` at all, and the number ends where the
digits do. -/
structure Parts.Taken (p : Parts) : Prop where
  user_at : ∀ u ∈ p.user, '@' ∉ u
  no_user : p.user = none → '@' ∉ p.host ++ ':' :: p.portText
  host_colon : ':' ∉ p.host
  blanks : ∀ c ∈ p.blanks, isSpace c = true
  ne_nil : p.digits ≠ []
  isDigit : ∀ c ∈ p.digits, c.isDigit = true
  rest : ∀ c ∈ p.rest.head?, c.isDigit = false
  port_pos : 1 ≤ p.endpoint.port
  port_le : p.endpoint.port ≤ 65535

/-- A host, and the number alone behind the colon. -/
structure Parts.Clean (p : Parts) : Prop where
  host_ne_nil : p.host ≠ []
  host_at : '@' ∉ p.host
  blanks : p.blanks = []
  plus : p.plus = false
  rest : p.rest = []

/-- The path is accepted if and only if it is in the grammar, and with the host and the port that it has there. -/
def Recognised (filePath : List Char) : Prop := ∀ e, parseTcpPath filePath = some e ↔ InGrammar filePath e

/-- However the path is read, it has a host without `@`, and nothing but digits behind the colon. -/
def NothingElse (filePath : List Char) : Prop := ∀ p : Parts, p.Taken → p.text = filePath → p.Clean

end ADTimePix3.Acquire
