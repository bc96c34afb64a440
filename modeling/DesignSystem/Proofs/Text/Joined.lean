import DesignSystem.Proofs.Text.Basic
import Mathlib.Data.List.Chain

/-! # Surrogates that make a character

A high surrogate and a low one after it are written in ASCII as the character that they make is, and
so they are read as this character.

* `CodePoint.pair?`: the character of two surrogates.
* `Text.joined`: a text with such pairs as characters.
* `Text.IsJoined`: a text without such pairs.
-/

namespace DesignSystem
set_option autoImplicit false

namespace CodePoint

/-- The character that a high and a low surrogate make. -/
def pair? : CodePoint → CodePoint → Option Char
  | surrogate high, surrogate low =>
    if isHighSurrogate high.unit && isLowSurrogate low.unit then
      some (.ofNat (0x10000 + (high.unit - 0xD800) * 0x400 + (low.unit - 0xDC00)))
    else none
  | _, _ => none

/-- The code points with one character for two surrogates that make it. -/
def joined : List CodePoint → List CodePoint
  | [] => []
  | [point] => [point]
  | first :: second :: rest =>
    match pair? first second with
    | some c => char c :: joined rest
    | none => first :: joined (second :: rest)

theorem pair?_char_left (c : Char) (point : CodePoint) : pair? (char c) point = none := rfl

theorem pair?_char_right (point : CodePoint) (c : Char) : pair? point (char c) = none := by
  cases point <;> rfl

/-- Code points none of which makes a character with the next one. -/
abbrev Unpaired (points : List CodePoint) : Prop :=
  points.IsChain fun first second => pair? first second = none

theorem joined_eq_self {points : List CodePoint} (unpaired : Unpaired points) :
    joined points = points := by
  fun_induction joined points with
  | case1 | case2 => rfl
  | case3 first second rest c pair =>
    cases pair.symm.trans (List.isChain_cons_cons.mp unpaired).1
  | case4 first second rest single ih => rw [ih (List.isChain_cons_cons.mp unpaired).2]

theorem unpaired_of_isChar {points : List CodePoint}
    (each : ∀ point ∈ points, point.isChar = true) : Unpaired points := by
  induction points with
  | nil => exact .nil
  | cons point points ih =>
    rw [List.forall_mem_cons] at each
    cases point with
    | surrogate half => cases each.1
    | char c => exact List.isChain_cons.mpr ⟨fun next _ => pair?_char_left c next, ih each.2⟩

/-- Characters keep what is before them apart from what is after them. -/
theorem unpaired_append_char {points : List CodePoint} (before : Unpaired points) {c : Char}
    {rest : List CodePoint} (after : Unpaired (char c :: rest)) :
    Unpaired (points ++ char c :: rest) := by
  refine List.isChain_append.mpr ⟨before, after, fun last _ first isFirst => ?_⟩
  cases isFirst
  exact pair?_char_right last c

theorem unpaired_char_cons {c : Char} {points : List CodePoint} (rest : Unpaired points) :
    Unpaired (char c :: points) :=
  List.isChain_cons.mpr ⟨fun next _ => pair?_char_left c next, rest⟩

theorem unpaired_chars_append (chars : List Char) {points : List CodePoint}
    (rest : Unpaired points) : Unpaired (chars.map char ++ points) := by
  induction chars with
  | nil => exact rest
  | cons c chars ih => exact unpaired_char_cons ih

end CodePoint

namespace Text

def joined (text : Text) : Text := ⟨CodePoint.joined text.points⟩

def IsJoined (text : Text) : Prop := CodePoint.Unpaired text.points

theorem IsJoined.joined_eq_self {text : Text} (isJoined : text.IsJoined) : text.joined = text :=
  congrArg Text.mk (CodePoint.joined_eq_self isJoined)

theorem isJoined_of_isUnicode {text : Text} (unicode : text.isUnicode = true) : text.IsJoined :=
  CodePoint.unpaired_of_isChar (List.all_eq_true.mp unicode)

theorem isJoined_ofChars (chars : List Char) : (ofChars chars).IsJoined :=
  isJoined_of_isUnicode (isUnicode_ofChars chars)

theorem joined_of_isUnicode {text : Text} (unicode : text.isUnicode = true) :
    text.joined = text := (isJoined_of_isUnicode unicode).joined_eq_self

@[simp] theorem joined_ofString (text : String) : (text : Text).joined = text :=
  joined_of_isUnicode (isUnicode_ofString text)

end Text
end DesignSystem
