import Mathlib.Data.List.Basic
import Mathlib.Tactic.IntervalCases

/-! # JSON string literals

How a compact serializer writes the characters of a string, and how a reader
takes them back.
-/

namespace DocumentSummarizer.Library

def hexDigit (n : Nat) : Char :=
  if n < 10 then Char.ofNat (48 + n) else Char.ofNat (87 + n)

def hexValue (c : Char) : Option Nat :=
  if 48 ≤ c.toNat ∧ c.toNat < 58 then some (c.toNat - 48)
  else if 97 ≤ c.toNat ∧ c.toNat < 103 then some (c.toNat - 87)
  else none

/-- The short escapes: the character after the backslash, and what it stands for. -/
def shortEscapes : List (Char × Char) :=
  [('"', '"'), ('\\', '\\'), ('b', '\x08'), ('f', '\x0c'), ('n', '\n'), ('r', '\r'), ('t', '\t')]

/-- A character inside a string literal. -/
def escapeChar (c : Char) : List Char :=
  match shortEscapes.find? (·.2 = c) with
  | some (letter, _) => ['\\', letter]
  | none =>
    if c.toNat < 0x20 then
      ['\\', 'u', '0', '0', hexDigit (c.toNat / 16), hexDigit (c.toNat % 16)]
    else [c]

def escapeText (text : List Char) : List Char :=
  text.flatMap escapeChar

/-- The string literal of a text. -/
def quote (text : String) : String :=
  String.ofList (['"'] ++ escapeText text.toList ++ ['"'])

/-- The characters up to the closing quote, and what is behind it. -/
def readString : List Char → Option (List Char × List Char)
  | [] => none
  | c :: rest =>
    if c = '"' then some ([], rest)
    else if c = '\\' then
      match rest with
      | 'u' :: '0' :: '0' :: high :: low :: more => do
        let a ← hexValue high
        let b ← hexValue low
        let (text, behind) ← readString more
        return (Char.ofNat (16 * a + b) :: text, behind)
      | letter :: more => do
        let escape ← shortEscapes.find? (·.1 = letter)
        let (text, behind) ← readString more
        return (escape.2 :: text, behind)
      | [] => none
    else if c.toNat < 0x20 then none
    else do
      let (text, behind) ← readString rest
      return (c :: text, behind)

section Reading

variable {c : Char} {rest text behind : List Char}

theorem hexValue_hexDigit {n : Nat} (h : n < 16) : hexValue (hexDigit n) = some n := by
  interval_cases n <;> rfl

theorem readString_shortEscape {letter : Char} (mem : (letter, c) ∈ shortEscapes)
    (read : readString rest = some (text, behind)) :
    readString ('\\' :: letter :: rest) = some (c :: text, behind) := by
  simp only [shortEscapes, List.mem_cons, Prod.mk.injEq, List.not_mem_nil, or_false] at mem
  rcases mem with ⟨rfl, rfl⟩ | ⟨rfl, rfl⟩ | ⟨rfl, rfl⟩ | ⟨rfl, rfl⟩ | ⟨rfl, rfl⟩ | ⟨rfl, rfl⟩ |
    ⟨rfl, rfl⟩
  all_goals
    rw [readString.eq_def]
    simp [shortEscapes, read]

theorem readString_control (control : c.toNat < 0x20)
    (read : readString rest = some (text, behind)) :
    readString ('\\' :: 'u' :: '0' :: '0' :: hexDigit (c.toNat / 16) ::
      hexDigit (c.toNat % 16) :: rest) = some (c :: text, behind) := by
  have high : hexValue (hexDigit (c.toNat / 16)) = some (c.toNat / 16) :=
    hexValue_hexDigit (by omega)
  have low : hexValue (hexDigit (c.toNat % 16)) = some (c.toNat % 16) :=
    hexValue_hexDigit (by omega)
  have whole : Char.ofNat (16 * (c.toNat / 16) + c.toNat % 16) = c := by
    rw [Nat.div_add_mod]
    exact Char.ofNat_toNat c
  rw [readString]
  simp [high, low, read, whole]

theorem readString_plain (unquoted : c ≠ '"') (unescaped : c ≠ '\\') (printable : ¬ c.toNat < 0x20)
    (read : readString rest = some (text, behind)) :
    readString (c :: rest) = some (c :: text, behind) := by
  rw [readString.eq_def]
  simp [unquoted, unescaped, printable, read]

theorem readString_escapeChar (read : readString rest = some (text, behind)) :
    readString (escapeChar c ++ rest) = some (c :: text, behind) := by
  unfold escapeChar
  split
  · next letter stands found =>
      have same : stands = c := by simpa using List.find?_some found
      exact readString_shortEscape (same ▸ List.mem_of_find?_eq_some found) read
  · next none =>
      have others := List.find?_eq_none.mp none
      split
      · next control => exact readString_control control read
      · next printable =>
          apply readString_plain _ _ printable read
          · intro quoted
            exact others ('"', '"') (by simp [shortEscapes]) (decide_eq_true quoted.symm)
          · intro escaped
            exact others ('\\', '\\') (by simp [shortEscapes]) (decide_eq_true escaped.symm)

theorem readString_escapeText :
    readString (escapeText text ++ '"' :: behind) = some (text, behind) := by
  induction text with
  | nil =>
      rw [escapeText, List.flatMap_nil, List.nil_append, readString.eq_def]
      simp
  | cons c rest ih =>
      rw [escapeText, List.flatMap_cons, List.append_assoc]
      exact readString_escapeChar ih

end Reading

theorem quote_toList (text : String) :
    (quote text).toList = '"' :: (escapeText text.toList ++ ['"']) := by
  simp [quote]

theorem quote_length (text : String) :
    (quote text).length = (escapeText text.toList).length + 2 := by
  rw [← String.length_toList, quote_toList]
  simp

end DocumentSummarizer.Library
