import BusBench.Fault

namespace BusBench

/-- A text that grows by whole pieces, up to a number of bytes if it has a limit. -/
structure Medium where
  limit : Option Nat := none
  text : String := ""
  deriving DecidableEq, Repr, Inhabited

namespace Medium

/-- Whether a piece still fits; an empty one always does. -/
def fits (m : Medium) (piece : String) : Bool :=
  match m.limit with
  | none => true
  | some n => piece.isEmpty || m.text.utf8ByteSize + piece.utf8ByteSize ≤ n

/-- A piece is taken as a whole or refused. -/
def put (m : Medium) (piece : String) : Except Fault Unit × Medium :=
  if m.fits piece then (.ok (), { m with text := m.text ++ piece })
  else (.error (.refused "disk full"), m)

/-- Takes pieces in order up to the first that is refused. -/
def putAll (m : Medium) : List String → Except Fault Unit × Medium
  | [] => (.ok (), m)
  | p :: ps =>
    match m.put p with
    | (.ok (), m) => m.putAll ps
    | (.error e, m) => (.error e, m)

end Medium

end BusBench
