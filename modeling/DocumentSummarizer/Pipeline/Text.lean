import Mathlib
import DocumentSummarizer.Library.Fallible
import DocumentSummarizer.Pipeline.Contracts

/-! # Text

The string operations that the stages use, over characters, and the byte
strings that their identities hash.
-/

namespace DocumentSummarizer.Pipeline

/-- What the stages take from the `sha2` crate and from the Unicode tables. -/
structure TextPlatform where
  /-- The digest in lowercase hexadecimal. -/
  sha256Hex : List UInt8 → String
  isUppercase : Char → Bool

/-- `char::is_whitespace`: the Unicode property White_Space. -/
def isWhitespace (c : Char) : Bool :=
  (9 ≤ c.toNat && c.toNat ≤ 13) || c.toNat == 0x20 || c.toNat == 0x85 || c.toNat == 0xA0 ||
  c.toNat == 0x1680 || (0x2000 ≤ c.toNat && c.toNat ≤ 0x200A) || c.toNat == 0x2028 ||
  c.toNat == 0x2029 || c.toNat == 0x202F || c.toNat == 0x205F || c.toNat == 0x3000

/-- `u8::is_ascii_whitespace` -/
def isAsciiWhitespace (c : Char) : Bool :=
  c == ' ' || c == '\t' || c == '\n' || c == '\x0c' || c == '\r'

/-- `str::trim` -/
def trim (text : List Char) : List Char :=
  (text.dropWhile isWhitespace).rdropWhile isWhitespace

/-- `text.trim().is_empty()` -/
def isBlank (text : String) : Bool :=
  (trim text.toList).isEmpty

/-- `str::lines`: a line ends before its line feed, and before a carriage return there. -/
def lines : List Char → List (List Char)
  | [] => []
  | '\n' :: rest => [] :: lines rest
  | '\r' :: '\n' :: rest => [] :: lines rest
  | c :: rest =>
    match lines rest with
    | [] => [[c]]
    | line :: later => (c :: line) :: later

/-- `str::split_whitespace().count()`, inside a word or not. -/
def wordCount : Bool → List Char → Nat
  | _, [] => 0
  | inside, c :: rest =>
    if isWhitespace c then wordCount false rest
    else if inside then wordCount true rest
    else wordCount true rest + 1

/-- `u32::try_from` -/
def toU32 (n : Nat) : Option Nat :=
  if n ≤ u32Max then some n else none

/-- `u32::to_be_bytes` -/
def toBeBytes (n : Nat) : List UInt8 :=
  [UInt8.ofNat (n / 16777216), UInt8.ofNat (n / 65536), UInt8.ofNat (n / 256), UInt8.ofNat n]

/-- `str::as_bytes` -/
def asBytes (text : String) : List UInt8 :=
  text.toUTF8.data.toList

/-! ## Facts -/

theorem isBlank_iff {text : String} :
    isBlank text = true ↔ ∀ c ∈ text.toList, isWhitespace c = true := by
  simp only [isBlank, trim, List.isEmpty_iff, List.rdropWhile_eq_nil_iff]
  constructor
  · intro all c mem
    rw [← @List.takeWhile_append_dropWhile _ isWhitespace text.toList, List.mem_append] at mem
    rcases mem with leading | later
    · exact List.mem_takeWhile_imp leading
    · exact all c later
  · intro all c mem
    exact all c (List.dropWhile_subset _ mem)

theorem isBlank_of_visible {text : String} {c : Char} (mem : c ∈ text.toList)
    (visible : isWhitespace c = false) : isBlank text = false := by
  rw [Bool.eq_false_iff]
  intro blank
  rw [isBlank_iff.mp blank c mem] at visible
  cases visible

theorem ne_empty_of_not_blank {text : String} (h : isBlank text = false) : text ≠ "" := by
  rintro rfl
  cases h

theorem toU32_eq_some {n m : Nat} : toU32 n = some m ↔ n ≤ u32Max ∧ n = m := by
  simp only [toU32, Option.ite_none_right_eq_some, Option.some.injEq]

theorem toBeBytes_length (n : Nat) : (toBeBytes n).length = 4 :=
  rfl

theorem toBeBytes_injective {n m : Nat} (hn : n ≤ u32Max) (hm : m ≤ u32Max)
    (h : toBeBytes n = toBeBytes m) : n = m := by
  simp only [toBeBytes, List.cons.injEq, and_true, ← UInt8.toNat_inj, UInt8.toNat_ofNat'] at h
  rw [u32Max] at hn hm
  omega

end DocumentSummarizer.Pipeline
