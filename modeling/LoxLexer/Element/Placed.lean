import LoxLexer.Diagnostic.Lexical
import LoxLexer.Element.Read
import LoxLexer.Number.Rounding
import LoxLexer.Text.Bytes
import LoxLexer.Token.Basic

/-!
# Elements in their places

What an element contributes to a scan depends on the element and on the line where it begins and
on nothing else. Here the elements of a text are given their lines and byte offsets, and each
gives its token or its error, if it has one.

No element gives both. Blanks and closed comments give neither.

## Main results

* `Element.token?_eq_none_or`: no element gives both a token and an error.
* `Placed.place_append`: places run on from one part of a text to the next.
-/

namespace LoxLexer

open Text

namespace Element

/-- The line on which an element ends, when it begins on the given line. -/
def endLine (line : Nat) (e : Element) : Nat := line + lineFeeds e.text

/-- The token of an element that begins on the given line. -/
def token? (line : Nat) : Element → Option Token
  | punctuator p => some ⟨.punctuator p, p.spelling, none, line⟩
  | word letters =>
    let kind := (Keyword.ofLetters? letters).elim .identifier .keyword
    some ⟨kind, String.ofList letters, none, line⟩
  | number whole fraction =>
    let value := (Decimal.ofDigits whole fraction).nearest
    some ⟨.number, String.ofList (numberText whole fraction), some (.number value), line⟩
  | string body =>
    some ⟨.string, String.ofList (string body).text, some (.string (String.ofList body)), line⟩
  | _ => none

/-- The error of an element that begins on the given line. An element that is left open is found
where it ends. -/
def error? (line : Nat) : Element → Option LexicalError
  | stray c => some (.unexpectedCharacter line c)
  | openString body => some (.unterminatedString (endLine line (openString body)))
  | openComment body depth =>
    some (.unterminatedBlockComment (endLine line (openComment body depth)) depth)
  | _ => none

theorem token?_eq_none_or (line : Nat) (e : Element) :
    e.token? line = none ∨ e.error? line = none := by
  cases e <;> simp [token?, error?]

theorem lexeme_of_token? {line : Nat} {e : Element} {t : Token} (h : e.token? line = some t) :
    t.lexeme = String.ofList e.text := by
  cases e <;> simp [token?] at h <;> subst h <;> rfl

theorem line_of_token? {line : Nat} {e : Element} {t : Token} (h : e.token? line = some t) :
    t.line = line := by
  cases e <;> simp [token?] at h <;> subst h <;> rfl

end Element

/-- An element with the line and the byte offset of its first character. -/
structure Placed where
  element : Element
  line : Nat
  offset : Nat
deriving DecidableEq, Repr

namespace Placed

/-- The bytes that an element takes up. -/
def range (p : Placed) : ByteRange := ⟨p.offset, p.offset + byteLength p.element.text⟩

/-- The token of a placed element. -/
def token? (p : Placed) : Option Token := p.element.token? p.line

/-- The error of a placed element. -/
def error? (p : Placed) : Option LexicalError := p.element.error? p.line

/-- Gives elements their places, when the first begins on the given line at the given byte. -/
def place (line offset : Nat) : List Element → List Placed
  | [] => []
  | e :: es => ⟨e, line, offset⟩ :: place (e.endLine line) (offset + byteLength e.text) es

@[simp] theorem place_nil (line offset : Nat) : place line offset [] = [] := rfl

@[simp] theorem place_cons (line offset : Nat) (e : Element) (es : List Element) :
    place line offset (e :: es) =
      ⟨e, line, offset⟩ :: place (e.endLine line) (offset + byteLength e.text) es := rfl

theorem map_element_place (line offset : Nat) (es : List Element) :
    (place line offset es).map element = es := by
  induction es generalizing line offset with
  | nil => rfl
  | cons e es ih => simp [ih]

/-- The places of a sequence of elements are places of its members. -/
theorem element_mem_of_mem_place {line offset : Nat} {es : List Element} {p : Placed}
    (h : p ∈ place line offset es) : p.element ∈ es := by
  rw [← map_element_place line offset es]
  exact List.mem_map_of_mem h

theorem place_append (line offset : Nat) (es fs : List Element) :
    place line offset (es ++ fs) =
      place line offset es ++
        place (line + lineFeeds (Element.texts es))
          (offset + byteLength (Element.texts es)) fs := by
  induction es generalizing line offset with
  | nil => simp
  | cons e es ih => simp [ih, Element.endLine, Nat.add_assoc]

end Placed

end LoxLexer
