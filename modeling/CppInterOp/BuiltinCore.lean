import Mathlib.Data.Char
import CppInterOp.Library.Arrangements
import CppInterOp.PathsCore

/-!
The map from type spellings to builtin types that `findBuiltinType` looks in, and which
spellings are well formed.
-/

namespace CppInterOp

open Arrangements Delimiters

def sharedWords : List StringRef :=
  ["signed".toList, "unsigned".toList, "short".toList, "long".toList, "int".toList,
    "char".toList, "float".toList, "double".toList, "__int128".toList, "_Accum".toList,
    "_Fract".toList, "_Sat".toList]

inductive FixedPointSize where
  | short | plain | long
  deriving DecidableEq

inductive SpecifiedType where
  | Char | SChar | UChar | Short | UShort | Int | UInt | Long | ULong | LongLong | ULongLong
  | Float | Double | LongDouble | Int128 | UInt128
  | FixedPoint (isSaturated isUnsigned : Bool) (size : FixedPointSize) (isFract : Bool)
  deriving DecidableEq

/-- A name of words that no other type's specifiers use, `wchar_t` or `std::nullptr_t`. -/
structure OwnName where
  words : List StringRef
  words_ne_nil : words ≠ []
  filled : ∀ word ∈ words, word ≠ [] ∧ ' ' ∉ word
  own : ∀ word ∈ words, word ∉ sharedWords
  named : (words.headD []).head? ≠ some '<'

/-- A builtin type of the context: `unnamed` prints as `<...>`. -/
inductive BuiltinKind where
  | specified (type : SpecifiedType)
  | named (name : OwnName)
  | unnamed (text : StringRef)

namespace SpecifiedType

def words : SpecifiedType → List StringRef
  | Char => ["char".toList]
  | SChar => ["signed".toList, "char".toList]
  | UChar => ["unsigned".toList, "char".toList]
  | Short => ["short".toList]
  | UShort => ["unsigned".toList, "short".toList]
  | Int => ["int".toList]
  | UInt => ["unsigned".toList, "int".toList]
  | Long => ["long".toList]
  | ULong => ["unsigned".toList, "long".toList]
  | LongLong => ["long".toList, "long".toList]
  | ULongLong => ["unsigned".toList, "long".toList, "long".toList]
  | Float => ["float".toList]
  | Double => ["double".toList]
  | LongDouble => ["long".toList, "double".toList]
  | Int128 => ["__int128".toList]
  | UInt128 => ["unsigned".toList, "__int128".toList]
  | FixedPoint isSaturated isUnsigned size isFract =>
      (if isSaturated then ["_Sat".toList] else []) ++
        (if isUnsigned then ["unsigned".toList] else []) ++
        (match size with
          | .short => ["short".toList]
          | .plain => []
          | .long => ["long".toList]) ++
        [if isFract then "_Fract".toList else "_Accum".toList]

/-- The specifier multisets that denote a type, in C++ and, for the last three, in clang's
extensions. -/
def specifiers : SpecifiedType → List (List StringRef)
  | Char => [["char".toList]]
  | SChar => [["signed".toList, "char".toList]]
  | UChar => [["unsigned".toList, "char".toList]]
  | Short =>
      [["short".toList], ["short".toList, "int".toList], ["signed".toList, "short".toList],
        ["signed".toList, "short".toList, "int".toList]]
  | UShort =>
      [["unsigned".toList, "short".toList], ["unsigned".toList, "short".toList, "int".toList]]
  | Int => [["int".toList], ["signed".toList], ["signed".toList, "int".toList]]
  | UInt => [["unsigned".toList], ["unsigned".toList, "int".toList]]
  | Long =>
      [["long".toList], ["long".toList, "int".toList], ["signed".toList, "long".toList],
        ["signed".toList, "long".toList, "int".toList]]
  | ULong =>
      [["unsigned".toList, "long".toList], ["unsigned".toList, "long".toList, "int".toList]]
  | LongLong =>
      [["long".toList, "long".toList], ["long".toList, "long".toList, "int".toList],
        ["signed".toList, "long".toList, "long".toList],
        ["signed".toList, "long".toList, "long".toList, "int".toList]]
  | ULongLong =>
      [["unsigned".toList, "long".toList, "long".toList],
        ["unsigned".toList, "long".toList, "long".toList, "int".toList]]
  | Float => [["float".toList]]
  | Double => [["double".toList]]
  | LongDouble => [["long".toList, "double".toList]]
  | Int128 => [["__int128".toList], ["signed".toList, "__int128".toList]]
  | UInt128 => [["unsigned".toList, "__int128".toList]]
  | FixedPoint isSaturated isUnsigned size isFract =>
      (FixedPoint isSaturated isUnsigned size isFract).words ::
        if isUnsigned then []
        else [(FixedPoint isSaturated isUnsigned size isFract).words ++ ["signed".toList]]

def isStandard : SpecifiedType → Bool
  | Int128 | UInt128 | FixedPoint .. => false
  | _ => true

end SpecifiedType

namespace BuiltinKind

def Name : BuiltinKind → StringRef
  | specified type => [' '].intercalate type.words
  | named name => [' '].intercalate name.words
  | unnamed text => '<' :: text

def specifiers : BuiltinKind → List (List StringRef)
  | specified type => type.specifiers
  | named name => [name.words]
  | unnamed _ => []

def isStandard : BuiltinKind → Bool
  | specified type => type.isStandard
  | named name => name.words.length = 1
  | unnamed _ => false

/-- The words are an arrangement of a specifier multiset that denotes the type. -/
def DenotedBy (type : BuiltinKind) (words : List StringRef) : Prop :=
  ∃ multiset ∈ type.specifiers, words.Perm multiset

end BuiltinKind

inductive ContextType where
  | builtin (type : BuiltinKind)
  | placeholder
  | other

/-- `StringMap<QualType>`: the entry made last for a key is the one that is found. -/
abbrev BuiltinMap := List (StringRef × BuiltinKind)

namespace BuiltinMap

def assign (Map : BuiltinMap) (Key : StringRef) (QT : BuiltinKind) : BuiltinMap := (Key, QT) :: Map

def find (Map : BuiltinMap) (Key : StringRef) : Option BuiltinKind := List.lookup Key Map

end BuiltinMap

def joinWords (Words : List StringRef) : StringRef := [' '].intercalate Words

/-- The loop over `next_permutation`, from the sorted words on. -/
def RegisterPerms (Map : BuiltinMap) (QT : BuiltinKind) (Words : List StringRef) : BuiltinMap :=
  (visited (Words.insertionSort (· ≤ ·))).foldl
    (fun Map Words => Map.assign (joinWords Words) QT) Map

/-- The flags that the loop over the words of a name sets, and what is registered by them. -/
def registerWords (Map : BuiltinMap) (QT : BuiltinKind) (Words : List StringRef) : BuiltinMap :=
  let hasInt := Words.contains "int".toList
  let hasSigned := Words.contains "signed".toList
  let hasUnsigned := Words.contains "unsigned".toList
  let hasChar := Words.contains "char".toList
  let isModifiable := Words.contains "long".toList || Words.contains "short".toList || hasInt
  if !isModifiable && !hasUnsigned && !hasSigned then Map
  else
    let Map := if 1 < Words.length then RegisterPerms Map QT Words else Map
    let Map :=
      if !hasInt && !hasChar then
        let WithInt := Words ++ ["int".toList]
        let Map := RegisterPerms Map QT WithInt
        if !hasSigned && !hasUnsigned then RegisterPerms Map QT (WithInt ++ ["signed".toList])
        else Map
      else Map
    if !hasSigned && !hasUnsigned then RegisterPerms Map QT (Words ++ ["signed".toList]) else Map

def registerType (Map : BuiltinMap) : ContextType → BuiltinMap
  | .builtin QT =>
      if QT.Name = [] ∨ QT.Name.head? = some '<' then Map
      else registerWords (Map.assign QT.Name QT) QT (filledPieces space_ne_nil QT.Name)
  | .placeholder | .other => Map

def PopulateBuiltinMap (Types : List ContextType) (Map : BuiltinMap) : BuiltinMap :=
  ((Types.foldl registerType Map).assign "signed".toList (.specified .Int)).assign
    "unsigned".toList (.specified .UInt)

def findBuiltinType (Types : List ContextType) (Map : BuiltinMap) (typeName : StringRef) :
    BuiltinMap × Option BuiltinKind :=
  let Map := if Map.isEmpty then PopulateBuiltinMap Types Map else Map
  (Map, Map.find typeName)

end CppInterOp
