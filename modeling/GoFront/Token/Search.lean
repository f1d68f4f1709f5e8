import GoFront.Token.Template

/-!
# The search for an opening marker, one round at a time

The search as a loop. A round looks for the next marker and for the next comment, both from the same place on. If the
comment comes first, the next round starts behind it; else the search is over.
-/

namespace GoFront.Template

/-- What a round of the search comes to. -/
inductive SearchRound where
  /-- The search is over, with the number of characters before the marker, if there is one. -/
  | answer (found : Option Nat)
  /-- The next round starts behind this many characters. -/
  | next (start : Nat)
  deriving DecidableEq, Repr

/-- The number of characters before the first occurrence of `pat` behind the first `start` characters. -/
def findFrom? (pat : Text) (start : Nat) (t : Text) : Option Nat := (Text.find? pat (t.drop start)).map (start + ·)

/-- The number of characters before the first comment of the host language behind the first `start` characters. -/
def commentFrom? (host : HostLanguage) (start : Nat) (t : Text) : Option Nat :=
  match host with
  | .html => findFrom? HostLanguage.commentOpener start t
  | .text => none

/-- The number of characters up to the end of a comment that opens behind the first `comment` characters. -/
def behindComment (comment : Nat) (t : Text) : Nat :=
  comment + HostLanguage.commentLength HostLanguage.commentOpener (t.drop comment)

/-- The round of the search that starts behind the first `start` characters. -/
def searchRound (left : Text) (host : HostLanguage) (t : Text) (start : Nat) : SearchRound :=
  match findFrom? left start t, commentFrom? host start t with
  | some marker, some comment =>
    if comment < marker then .next (behindComment comment t) else .answer (some marker)
  | none, some comment =>
    if t.length ≤ behindComment comment t then .answer none else .next (behindComment comment t)
  | marker, none => .answer marker

/-- From the round on that starts behind the first `start` characters, the search comes to an answer. -/
inductive Searches (left : Text) (host : HostLanguage) (t : Text) : Nat → Option Nat → Prop
  /-- The round is the last one. -/
  | last {start : Nat} {found : Option Nat} (h : searchRound left host t start = .answer found) :
    Searches left host t start found
  /-- Another round follows. -/
  | more {start start' : Nat} {found : Option Nat} (h : searchRound left host t start = .next start')
    (rest : Searches left host t start' found) : Searches left host t start found

end GoFront.Template
