import ThreeAddress.Text.Span

/-!
# Tokens of command scripts

* `Keyword` : the five command words, with their `spelling`;
* `Kind` : a keyword, one of four classes of other words, a line end, or the end of the text;
* `Kind.text?` : the spelling of a kind that can stand for a name, a type, an operator or an operand;
  `Kind.describe` : how messages name a token of the kind;
* `Token` : a kind and its place.
-/

namespace ThreeAddress

inductive Keyword where
  | insert | lookup | emit | reset | print
deriving DecidableEq, Repr

namespace Keyword

def spelling : Keyword → String
  | insert => "insert"
  | lookup => "lookup"
  | emit => "emit"
  | reset => "reset"
  | print => "print"

def all : List Keyword := [insert, lookup, emit, reset, print]

theorem mem_all (k : Keyword) : k ∈ all := by cases k <;> decide

end Keyword

inductive Kind where
  | keyword (k : Keyword)
  | identifier (text : String)
  | integer (text : String)
  | operator (text : String)
  | word (text : String)
  | newline
  | endOfText
deriving DecidableEq, Repr, Inhabited

namespace Kind

def text? : Kind → Option String
  | keyword k => some k.spelling
  | identifier s | integer s | operator s | word s => some s
  | newline | endOfText => none

def describe : Kind → String
  | keyword k => "'" ++ k.spelling ++ "'"
  | identifier s => "identifier '" ++ s ++ "'"
  | integer s => "integer '" ++ s ++ "'"
  | operator s => "operator '" ++ s ++ "'"
  | word s => "'" ++ s ++ "'"
  | newline => "end of line"
  | endOfText => "end of file"

@[simp] theorem text?_keyword (k : Keyword) : (keyword k).text? = some k.spelling := rfl

theorem text?_eq_none_iff {k : Kind} : k.text? = none ↔ k = newline ∨ k = endOfText := by
  cases k <;> simp [text?]

end Kind

structure Token where
  kind : Kind
  span : Span
deriving DecidableEq, Repr, Inhabited

/-- The same token in a text that has `d` more bytes in front. -/
def Token.shift (d : Nat) (t : Token) : Token := ⟨t.kind, t.span.shift d⟩

end ThreeAddress
