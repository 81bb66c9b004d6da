import CppInterOp.Library.Delimiters
import CppInterOp.TracingCore

/-!
The string literals of the reproducer: what `ReproBuffer::appendRaw` writes for a byte string,
and what the C++ lexer reads there.
-/

namespace CppInterOp

abbrev Bytes := List UInt8

namespace Byte

def lineFeed : UInt8 := 10
def carriageReturn : UInt8 := 13
def quote : UInt8 := 34
def openParen : UInt8 := 40
def closeParen : UInt8 := 41
def rawMark : UInt8 := 82
def backslash : UInt8 := 92

def startsIdentifier (c : UInt8) : Bool :=
  (65 ≤ c && c ≤ 90) || (97 ≤ c && c ≤ 122) || c == 95 || 128 ≤ c

/-- A d-char: no space, parenthesis, backslash or control character of a line. -/
def inDelimiter (c : UInt8) : Bool :=
  c < 128 && c != openParen && c != closeParen && c != backslash && c != 32 && !(9 ≤ c && c ≤ 13)

end Byte

open Byte

/-- The implementation-defined parts of a lexer: whether it takes a carriage return and a line
feed for one line end, and what the escape sequences of an ordinary literal denote. -/
structure CppLexer where
  foldsLineEnds : Bool
  unescape : Bytes → Option Bytes

namespace CppLexer

def foldLineEnds : Bytes → Bytes
  | 13 :: 10 :: rest => lineFeed :: foldLineEnds rest
  | c :: rest => c :: foldLineEnds rest
  | [] => []

/-- An ordinary literal behind its opening quote: the characters up to the first quote that no
backslash is in front of, and what follows. A literal does not go over a line end. -/
def scanOrdinary : Bytes → Option (Bytes × Bytes)
  | [] => none
  | [c] => if c = quote then some ([], []) else none
  | c :: d :: rest =>
      if c = quote then some ([], d :: rest)
      else if c = lineFeed || c = carriageReturn then none
      else if c = backslash then
        (scanOrdinary rest).map fun read => (c :: d :: read.1, read.2)
      else (scanOrdinary (d :: rest)).map fun read => (c :: read.1, read.2)

def readOrdinary (lexer : CppLexer) (text : Bytes) : Option (Bytes × Bytes) :=
  (scanOrdinary text).bind fun read =>
    (if backslash ∈ read.1 then lexer.unescape read.1 else some read.1).map fun content =>
      (content, read.2)

/-- A raw literal behind its opening quote: a delimiter of at most 16 characters, a parenthesis,
and everything up to the first parenthesis with the delimiter and a quote behind it. -/
def readRaw (lexer : CppLexer) (text : Bytes) : Option (Bytes × Bytes) :=
  let opened := text.span inDelimiter
  match opened.2 with
  | 40 :: body =>
      if opened.1.length ≤ 16 then
        (Delimiters.splitAtFirst (closeParen :: (opened.1 ++ [quote])) body).map fun read =>
          (if lexer.foldsLineEnds then foldLineEnds read.1 else read.1, read.2)
      else none
  | _ => none

/-- A literal with an identifier right behind it goes on as a user-defined literal. -/
def endToken (read : Bytes × Bytes) : Option (Bytes × Bytes) :=
  if read.2.head?.any startsIdentifier then none else some read

def readLiteral (lexer : CppLexer) : Bytes → Option (Bytes × Bytes)
  | 82 :: 34 :: rest => (lexer.readRaw rest).bind endToken
  | 34 :: rest => (lexer.readOrdinary rest).bind endToken
  | _ => none

end CppLexer

namespace ReproBuffer

def byteNeedsRaw (c : UInt8) : Bool :=
  c == quote || c == backslash || decide (c < 0x20) || c == 0x7f

def rawDelimiter : Bytes := [67, 80, 80, 73]

def rawTerminator : Bytes := closeParen :: (rawDelimiter ++ [quote])

def appendRawBytes (s : Bytes) : Bytes :=
  if s.any byteNeedsRaw then
    [rawMark, quote] ++ rawDelimiter ++ [openParen] ++ s ++ rawTerminator
  else [quote] ++ s ++ [quote]

def utf8 (s : String) : Bytes := s.toList.flatMap String.utf8EncodeChar

end ReproBuffer

open ReproBuffer CppLexer

/-- What is written for a string is read back as that string, up to where the writer stopped,
in front of any text that is no identifier. -/
def LiteralRoundTrips (lexer : CppLexer) (s : Bytes) : Prop :=
  ∀ rest : Bytes, rest.head?.any startsIdentifier = false →
    lexer.readLiteral (appendRawBytes s ++ rest) = some (s, rest)

namespace CppLexer

theorem foldLineEnds_length (s : Bytes) : (foldLineEnds s).length ≤ s.length := by
  induction s using foldLineEnds.induct with
  | case1 rest ih => simp only [foldLineEnds, List.length_cons]; omega
  | case2 c rest other ih =>
      rw [foldLineEnds]
      · simpa using ih
      · exact other
  | case3 => exact Nat.le_refl _

theorem foldLineEnds_eq_self (s : Bytes) :
    foldLineEnds s = s ↔ ¬[carriageReturn, lineFeed] <:+: s := by
  induction s using foldLineEnds.induct with
  | case1 rest ih =>
      have shorter := foldLineEnds_length rest
      have differs : foldLineEnds (13 :: 10 :: rest) ≠ 13 :: 10 :: rest := by
        intro same
        have := congrArg List.length same
        simp only [foldLineEnds, List.length_cons] at this
        omega
      have here : [carriageReturn, lineFeed] <:+: 13 :: 10 :: rest := ⟨[], rest, rfl⟩
      simp [differs, here]
  | case2 c rest other ih =>
      rw [foldLineEnds]
      · have start : ¬[carriageReturn, lineFeed] <+: c :: rest := by
          rintro ⟨more, split⟩
          obtain ⟨rfl, tail⟩ := List.cons.inj split
          exact other more rfl tail.symm
        rw [List.infix_cons_iff, not_or, ← ih]
        simp [start]
      · exact other
  | case3 => simp [foldLineEnds]

theorem scanOrdinary_plain {s : Bytes} (rest : Bytes) (plain : ∀ c ∈ s, c ≠ quote ∧ c ≠ backslash ∧
    c ≠ lineFeed ∧ c ≠ carriageReturn) : scanOrdinary (s ++ quote :: rest) = some (s, rest) := by
  induction s with
  | nil =>
      cases rest with
      | nil => simp [scanOrdinary]
      | cons d rest => simp [scanOrdinary]
  | cons c s ih =>
      obtain ⟨notQuote, notBackslash, notFeed, notReturn⟩ := plain c List.mem_cons_self
      have tail := ih fun other member => plain other (List.mem_cons_of_mem _ member)
      cases s with
      | nil => simp [scanOrdinary, notQuote, notBackslash, notFeed, notReturn, ← tail]
      | cons d s =>
          simp only [List.cons_append] at tail ⊢
          simp [scanOrdinary, notQuote, notBackslash, notFeed, notReturn, tail]

theorem endToken_some {read : Bytes × Bytes} (stops : read.2.head?.any startsIdentifier = false) :
    endToken read = some read := by
  rw [endToken, if_neg (by simp [stops])]

theorem of_endToken {read ended : Bytes × Bytes} (stops : endToken read = some ended) :
    ended = read := by
  rw [endToken] at stops
  split at stops
  · cases stops
  · exact (Option.some.inj stops).symm

end CppLexer

namespace ReproBuffer

theorem plain_of_not_needsRaw {s : Bytes} (easy : s.any byteNeedsRaw = false) :
    ∀ c ∈ s, c ≠ quote ∧ c ≠ backslash ∧ c ≠ lineFeed ∧ c ≠ carriageReturn := by
  intro c member
  have kept := List.any_eq_false.mp easy c member
  refine ⟨?_, ?_, ?_, ?_⟩
  · rintro rfl
    exact kept rfl
  · rintro rfl
    exact kept rfl
  · rintro rfl
    exact kept rfl
  · rintro rfl
    exact kept rfl

theorem not_infix_of_not_needsRaw {s bytes : Bytes} {c : UInt8} (easy : s.any byteNeedsRaw = false)
    (member : c ∈ bytes) (hard : byteNeedsRaw c = true) : ¬bytes <:+: s := by
  intro within
  exact List.any_eq_false.mp easy c (within.subset member) hard

theorem readOrdinary_appendRaw (lexer : CppLexer) {s : Bytes} (rest : Bytes)
    (easy : s.any byteNeedsRaw = false) :
    lexer.readOrdinary (s ++ quote :: rest) = some (s, rest) := by
  have plain := plain_of_not_needsRaw easy
  have unescaped : backslash ∉ s := fun member => (plain _ member).2.1 rfl
  rw [readOrdinary, scanOrdinary_plain rest plain, Option.bind_some, if_neg unescaped]
  rfl

theorem readRaw_appendRaw (lexer : CppLexer) (text : Bytes) :
    lexer.readRaw (rawDelimiter ++ openParen :: text) =
      (Delimiters.splitAtFirst rawTerminator text).map fun read =>
        (if lexer.foldsLineEnds then foldLineEnds read.1 else read.1, read.2) := by
  have opened : (rawDelimiter ++ openParen :: text).span inDelimiter =
      (rawDelimiter, openParen :: text) := by
    simp [List.span_eq_takeWhile_dropWhile, rawDelimiter, List.takeWhile, List.dropWhile,
      inDelimiter, openParen, closeParen, backslash]
  simp only [readRaw, opened]
  rfl

end ReproBuffer

theorem literal_round_trips_iff (lexer : CppLexer) (s : Bytes) :
    LiteralRoundTrips lexer s ↔ ¬rawTerminator <:+: s ∧
      (lexer.foldsLineEnds = true → ¬[carriageReturn, lineFeed] <:+: s) := by
  cases hard : s.any byteNeedsRaw with
  | false =>
      have noTerminator : ¬rawTerminator <:+: s :=
        not_infix_of_not_needsRaw hard (show quote ∈ rawTerminator by decide) rfl
      have noLineEnd : ¬[carriageReturn, lineFeed] <:+: s :=
        not_infix_of_not_needsRaw hard (show lineFeed ∈ _ by decide) rfl
      simp only [noTerminator, noLineEnd, not_false_eq_true, implies_true, and_self, iff_true]
      intro rest stops
      have written : appendRawBytes s ++ rest = quote :: (s ++ quote :: rest) := by
        simp [appendRawBytes, hard]
      rw [written]
      change (lexer.readOrdinary (s ++ quote :: rest)).bind endToken = _
      rw [readOrdinary_appendRaw lexer rest hard, Option.bind_some, endToken_some stops]
  | true =>
      have written (rest : Bytes) : lexer.readLiteral (appendRawBytes s ++ rest) =
          ((Delimiters.splitAtFirst rawTerminator (s ++ (rawTerminator ++ rest))).map fun read =>
            (if lexer.foldsLineEnds then foldLineEnds read.1 else read.1, read.2)).bind
              endToken := by
        rw [← readRaw_appendRaw]
        simp [appendRawBytes, hard, readLiteral, rawMark, quote]
      by_cases present : rawTerminator <:+: s
      · -- the literal ends at the terminator inside, so it denotes less than the string
        simp only [present, not_true_eq_false, false_and, iff_false]
        intro trips
        have read := trips [] rfl
        obtain ⟨before, behind, found, shorter⟩ :=
          Delimiters.splitAtFirst_present (rawTerminator ++ []) (by decide) present
        rw [written, found, Option.map_some, Option.bind_some] at read
        have content : (if lexer.foldsLineEnds then foldLineEnds before else before).length ≤
            before.length := by
          split
          · exact foldLineEnds_length before
          · exact Nat.le_refl _
        have same := congrArg (fun pair : Bytes × Bytes => pair.1.length) (of_endToken read)
        simp only at same
        omega
      · have found (rest : Bytes) : Delimiters.splitAtFirst rawTerminator
            (s ++ (rawTerminator ++ rest)) = some (s, rest) :=
          Delimiters.splitAtFirst_absent rest (by decide) present
        simp only [present, not_false_eq_true, true_and]
        constructor
        · intro trips folds
          have read := trips [] rfl
          rw [written, found, Option.map_some, Option.bind_some, folds, if_pos rfl,
            endToken_some rfl] at read
          exact (foldLineEnds_eq_self s).mp (congrArg Prod.fst (Option.some.inj read))
        · intro kept rest stops
          have same : (if lexer.foldsLineEnds then foldLineEnds s else s) = s := by
            split
            case isTrue folds => exact (foldLineEnds_eq_self s).mpr (kept folds)
            case isFalse => rfl
          rw [written, found, Option.map_some, Option.bind_some, same, endToken_some stops]

/-- `f(")CPPI");` as the source of a traced call. -/
def terminatorInside : Bytes := [102, 40, 34, 41, 67, 80, 80, 73, 34, 41, 59]

theorem literal_cut_short :
    ¬LiteralRoundTrips { foldsLineEnds := false, unescape := fun _ => none } terminatorInside := by
  intro trips
  exact absurd (trips [] rfl) (by decide)

section Texts

theorem byteNeedsRaw_iff (b : UInt8) : byteNeedsRaw b = true ↔
    b.toNat = 34 ∨ b.toNat = 92 ∨ b.toNat < 32 ∨ b.toNat = 127 := by
  simp only [byteNeedsRaw, quote, backslash, Bool.or_eq_true, beq_iff_eq, decide_eq_true_eq,
    ← UInt8.toNat_inj, UInt8.lt_iff_toNat_lt, or_assoc]
  rfl

theorem byteNeedsRaw_of_high {v : Nat} (low : 128 ≤ v) (high : v < 256) :
    byteNeedsRaw (UInt8.ofNat v) = false := by
  rw [← Bool.not_eq_true, byteNeedsRaw_iff, UInt8.toNat_ofNat_of_lt' high]
  omega

theorem utf8EncodeChar_needsRaw (c : Char) :
    (String.utf8EncodeChar c).any byteNeedsRaw =
      (decide (c = '"') || decide (c = '\\') || decide (c.toNat < 0x20) ||
        decide (c.toNat = 0x7f)) := by
  have quoted : c = '"' ↔ c.toNat = 34 := by
    rw [← Char.toNat_inj]
    rfl
  have slashed : c = '\\' ↔ c.toNat = 92 := by
    rw [← Char.toNat_inj]
    rfl
  have value : c.val.toNat = c.toNat := rfl
  rw [String.utf8EncodeChar, Bool.eq_iff_iff]
  simp only [quoted, slashed, value, Bool.or_eq_true, decide_eq_true_eq]
  split
  case isTrue ascii =>
    have byte : (UInt8.ofNat c.toNat).toNat = c.toNat :=
      UInt8.toNat_ofNat_of_lt' (show c.toNat < 256 by omega)
    simp only [List.any_cons, List.any_nil, Bool.or_false, byteNeedsRaw_iff, byte]
    omega
  case isFalse wide =>
    have high (x m k : Nat) (low : 128 ≤ k) (small : m + k ≤ 256) (positive : 0 < m) :
        byteNeedsRaw (UInt8.ofNat (x % m + k)) = false := by
      have := Nat.mod_lt x positive
      exact byteNeedsRaw_of_high (by omega) (by omega)
    have follow (x : Nat) := high x 64 128 (by decide) (by decide) (by decide)
    split
    · simp only [List.any_cons, List.any_nil, follow, Bool.or_false, Bool.false_eq_true, false_iff,
        high _ 32 192 (by decide) (by decide) (by decide)]
      omega
    · split
      · simp only [List.any_cons, List.any_nil, follow, Bool.or_false, Bool.false_eq_true, false_iff,
          high _ 16 224 (by decide) (by decide) (by decide)]
        omega
      · simp only [List.any_cons, List.any_nil, follow, Bool.or_false, Bool.false_eq_true, false_iff,
          high _ 8 240 (by decide) (by decide) (by decide)]
        omega

theorem needsRaw_utf8 (s : String) : (utf8 s).any byteNeedsRaw = needsRaw s := by
  rw [utf8, needsRaw, List.any_flatMap]
  simp only [utf8EncodeChar_needsRaw]

theorem utf8_appendRaw (s : String) : utf8 (appendRaw s) = appendRawBytes (utf8 s) := by
  have raw : utf8 "R\"CPPI(" = [rawMark, quote] ++ rawDelimiter ++ [openParen] := by decide
  have closed : utf8 ")CPPI\"" = rawTerminator := by decide
  have quoted : utf8 "\"" = [quote] := by decide
  have append (first second : String) : utf8 (first ++ second) = utf8 first ++ utf8 second := by
    simp [utf8]
  rw [appendRaw, appendRawBytes, needsRaw_utf8]
  split
  · rw [append, append, raw, closed]
  · rw [append, append, quoted]

end Texts

end CppInterOp
