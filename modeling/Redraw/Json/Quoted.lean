import Redraw.Bytes
import Redraw.Json.Fault

/-!
# JSON strings

A string stands between double quotes. Writing escapes the double quote, the backslash and the
control characters, and nothing else. Reading accepts every escape of JSON; a character beyond
sixteen bits may be written as two escapes, and then both are needed.
-/

namespace Redraw.Json

/-- How a character is written inside a string. -/
def quoteChar (c : Char) : List Char :=
  if c = '"' then ['\\', '"']
  else if c = '\\' then ['\\', '\\']
  else if c = '\n' then ['\\', 'n']
  else if c = '\r' then ['\\', 'r']
  else if c = '\t' then ['\\', 't']
  else if c.toNat = 8 then ['\\', 'b']
  else if c.toNat = 12 then ['\\', 'f']
  else if c.toNat < 32 then
    ['\\', 'u', '0', '0', Bytes.hexDigit (c.toNat / 16), Bytes.hexDigit (c.toNat % 16)]
  else [c]

/-- The written form of a string. -/
def quote (cs : List Char) : List Char :=
  '"' :: cs.flatMap quoteChar ++ ['"']

/-- The number that four hexadecimal digits stand for, and what follows them. The text ends too
early when fewer than four bytes are left of it. -/
def hexQuad (s : List Char) : Except Fault (Nat × List Char) :=
  if (String.ofList (s.take 4)).utf8ByteSize < 4 then .error .endInString
  else match (s.take 4).mapM Bytes.hexValue? with
    | some digits => .ok (digits.foldl (16 * · + ·) 0, s.drop 4)
    | none => .error .badEscape

/-- What follows four hexadecimal digits is no longer than the text. -/
theorem length_le_of_hexQuad {s rest : List Char} {n : Nat} (h : hexQuad s = .ok (n, rest)) :
    rest.length ≤ s.length := by
  unfold hexQuad at h
  split at h
  · simp at h
  · split at h
    · simp only [Except.ok.injEq, Prod.mk.injEq] at h
      simp [← h.2]
    · simp at h

/-- Whether a number is the first half of a surrogate pair. -/
def isLeading (n : Nat) : Bool :=
  0xD800 ≤ n && n ≤ 0xDBFF

/-- Whether a number is the second half of a surrogate pair. -/
def isTrailing (n : Nat) : Bool :=
  0xDC00 ≤ n && n ≤ 0xDFFF

/-- The second half of a surrogate pair, written as an escape of its own, and what follows it. -/
def trailingHalf : List Char → Except Fault (Nat × List Char)
  | '\\' :: 'u' :: s =>
    match hexQuad s with
    | .ok (n, rest) => if isTrailing n then .ok (n, rest) else .error .loneSurrogate
    | .error fault => .error fault
  | [] | ['\\'] => .error .endInString
  | _ => .error .halfPair

/-- The character that a numeric escape stands for, from its digits on, and what follows it. -/
def numericEscape (s : List Char) : Except Fault (Char × List Char) :=
  match hexQuad s with
  | .error fault => .error fault
  | .ok (n, rest) =>
    if isTrailing n then .error .loneSurrogate
    else if isLeading n then
      match trailingHalf rest with
      | .ok (m, rest) => .ok (Char.ofNat (0x10000 + (n - 0xD800) * 0x400 + (m - 0xDC00)), rest)
      | .error fault => .error fault
    else .ok (Char.ofNat n, rest)

/-- The character that the letter after a backslash stands for, unless it starts a numeric
escape. -/
def letterEscape? : Char → Option Char
  | '"' => some '"'
  | '\\' => some '\\'
  | '/' => some '/'
  | 'b' => some '\x08'
  | 'f' => some '\x0C'
  | 'n' => some '\n'
  | 'r' => some '\r'
  | 't' => some '\t'
  | _ => none

/-- The character that an escape stands for, from after its backslash on, and what follows it. -/
def escape : List Char → Except Fault (Char × List Char)
  | [] => .error .endInString
  | c :: s =>
    if c = 'u' then numericEscape s
    else match letterEscape? c with
      | some d => .ok (d, s)
      | none => .error .badEscape

/-- What follows the second half of a pair is shorter than the text. -/
theorem length_lt_of_trailingHalf {s rest : List Char} {n : Nat}
    (h : trailingHalf s = .ok (n, rest)) : rest.length < s.length := by
  unfold trailingHalf at h
  split at h
  · split at h
    · next hq =>
      have := length_le_of_hexQuad hq
      split at h
      · simp only [Except.ok.injEq, Prod.mk.injEq] at h
        simp only [List.length_cons, ← h.2]
        omega
      · simp at h
    · simp at h
  all_goals simp at h

/-- What follows an escape is shorter than the text. -/
theorem length_lt_of_escape {s rest : List Char} {c : Char} (h : escape s = .ok (c, rest)) :
    rest.length < s.length := by
  unfold escape at h
  split at h
  · simp at h
  · split at h
    · unfold numericEscape at h
      split at h
      · simp at h
      · next hq =>
        have := length_le_of_hexQuad hq
        split at h
        · simp at h
        · split at h
          · split at h
            · next ht =>
              have := length_lt_of_trailingHalf ht
              simp only [Except.ok.injEq, Prod.mk.injEq] at h
              simp only [List.length_cons, ← h.2]
              omega
            · simp at h
          · simp only [Except.ok.injEq, Prod.mk.injEq] at h
            simp only [List.length_cons, ← h.2]
            omega
    · split at h
      · simp only [Except.ok.injEq, Prod.mk.injEq] at h
        simp [← h.2]
      · simp at h

/-- The characters of a string, from after its opening quote on, and what follows it. The
characters already read are given last to first. -/
def unquote (taken s : List Char) : Except Fault (List Char × List Char) :=
  match s with
  | [] => .error .endInString
  | c :: s =>
    if c = '"' then .ok (taken.reverse, s)
    else if c = '\\' then
      match h : escape s with
      | .ok (d, rest) =>
        have := length_lt_of_escape h
        unquote (d :: taken) rest
      | .error fault => .error fault
    else if c.toNat < 32 then .error .controlCharacter
    else unquote (c :: taken) s
termination_by s.length
decreasing_by all_goals simp_all; try omega

/-- What follows a string of no concern, from after its opening quote on. Its escapes must have the
right shape, but need not stand for characters. -/
def passString (s : List Char) : Except Fault (List Char) :=
  match s with
  | [] => .error .endInString
  | '"' :: s => .ok s
  | '\\' :: c :: s =>
    if c = 'u' then
      match h : hexQuad s with
      | .ok (_, rest) =>
        have := length_le_of_hexQuad h
        passString rest
      | .error fault => .error fault
    else if (letterEscape? c).isSome then passString s
    else .error .badEscape
  | ['\\'] => .error .endInString
  | c :: s => if c.toNat < 32 then .error .controlCharacter else passString s
termination_by s.length
decreasing_by all_goals simp_all; try omega

/-- What follows a string is shorter than the text. -/
theorem length_lt_of_unquote {taken s cs rest : List Char} (h : unquote taken s = .ok (cs, rest)) :
    rest.length < s.length := by
  fun_induction unquote taken s with
  | case1 => simp at h
  | case2 => simp_all
  | case3 _ s d tail he _ _ ih =>
    have := length_lt_of_escape he
    have := ih h
    simp only [List.length_cons]
    omega
  | case4 => simp at h
  | case5 => simp at h
  | case6 _ _ _ _ _ _ ih => exact Nat.lt_succ_of_lt (ih h)

/-- What follows a string of no concern is shorter than the text. -/
theorem length_lt_of_passString {s rest : List Char} (h : passString s = .ok rest) :
    rest.length < s.length := by
  fun_induction passString s with
  | case1 => simp at h
  | case2 => simp_all
  | case3 s n tail hq _ ih =>
    have := length_le_of_hexQuad hq
    have := ih h
    simp only [List.length_cons]
    omega
  | case4 => simp at h
  | case5 _ _ _ _ ih => exact Nat.lt_succ_of_lt (Nat.lt_succ_of_lt (ih h))
  | case6 => simp at h
  | case7 => simp at h
  | case8 => simp at h
  | case9 _ _ _ _ _ _ ih => exact Nat.lt_succ_of_lt (ih h)

end Redraw.Json
