import CppInterOp.Library.Marks
import CppInterOp.Library.Runs

/-!
Symbol lookup in one library: the symbol tables of an object file, the Bloom filter and the
hash table built from them, and the plain iteration they stand for.
-/

namespace CppInterOp

abbrev SymbolName := List UInt8

def GNUHash (S : SymbolName) : UInt32 :=
  S.foldl (fun H C => (H <<< 5) + H + C.toUInt32) 5381

/-- The recursion `n > 1 ? 1 + log2u(n >> 1) : 0`. -/
def log2u (n : UInt32) : UInt32 := UInt32.ofNat n.toNat.log2

structure BloomFilter where
  m_IsInitialized : Bool := false
  m_SymbolsCount : UInt32 := 0
  m_BloomSize : UInt32 := 0
  m_BloomShift : UInt32 := 0
  m_BloomTable : List UInt64 := []
  deriving DecidableEq

namespace BloomFilter

def m_Bits : UInt32 := 64

def word (filter : BloomFilter) (hash : UInt32) : Nat :=
  ((hash >>> log2u m_Bits) % filter.m_BloomSize).toNat

def mask (filter : BloomFilter) (hash : UInt32) : UInt64 :=
  let hash2 := hash >>> filter.m_BloomShift
  (1 <<< (hash % m_Bits).toUInt64) ||| (1 <<< (hash2 % m_Bits).toUInt64)

def TestHash (filter : BloomFilter) (hash : UInt32) : Bool :=
  (filter.m_BloomTable[filter.word hash]?).any fun found =>
    filter.mask hash &&& found == filter.mask hash

def AddHash (filter : BloomFilter) (hash : UInt32) : BloomFilter :=
  { filter with
    m_BloomTable := filter.m_BloomTable.modify (filter.word hash) fun found =>
      found ||| filter.mask hash }

/-- `bloomSize` is the count of words the false positive rate asks for, a rounded product
of floating-point numbers. -/
def ResizeTable (bloomSize : UInt32 → UInt32) (filter : BloomFilter) (newSymbolsCount : UInt32) :
    BloomFilter :=
  { filter with
    m_SymbolsCount := newSymbolsCount
    m_BloomSize := bloomSize newSymbolsCount
    m_BloomShift := min 6 (log2u newSymbolsCount)
    m_BloomTable := List.replicate (bloomSize newSymbolsCount).toNat 0 }

end BloomFilter

structure LibraryPath where
  m_Filter : BloomFilter := {}
  m_Symbols : List SymbolName := []
  deriving DecidableEq

namespace LibraryPath

def AddBloom (Lib : LibraryPath) (symbol : SymbolName) : LibraryPath :=
  { Lib with m_Filter := Lib.m_Filter.AddHash (GNUHash symbol) }

def AddSymbol (Lib : LibraryPath) (symbol : SymbolName) : LibraryPath :=
  { Lib with m_Symbols := Lib.m_Symbols.insert symbol }

def hasBloomFilter (Lib : LibraryPath) : Bool := Lib.m_Filter.m_IsInitialized

def isBloomFilterEmpty (Lib : LibraryPath) : Bool := Lib.m_Filter.m_SymbolsCount == 0

def InitializeBloomFilter (bloomSize : UInt32 → UInt32) (Lib : LibraryPath)
    (newSymbolsCount : UInt32) : LibraryPath :=
  { Lib with
    m_Filter := BloomFilter.ResizeTable bloomSize { Lib.m_Filter with m_IsInitialized := true }
      newSymbolsCount }

def MayExistSymbol (Lib : LibraryPath) (hash : UInt32) : Bool :=
  if Lib.isBloomFilterEmpty then false else Lib.m_Filter.TestHash hash

def ExistSymbol (Lib : LibraryPath) (symbol : SymbolName) : Bool := Lib.m_Symbols.contains symbol

end LibraryPath

def SF_Undefined : UInt32 := 1
def SF_Global : UInt32 := 2
def SF_Weak : UInt32 := 4

/-- A symbol whose name cannot be read has none. -/
structure ObjectSymbol where
  Flags : UInt32
  name : Option SymbolName
  deriving DecidableEq

inductive ObjectFormat
  | ELF
  | COFF
  | other
  deriving DecidableEq, Repr

/-- The header of a `.gnu.hash` section and the 64 bits at each word of its filter. -/
structure GnuHashSection where
  maskWords : UInt32
  shift2 : UInt32
  word : Nat → UInt64

structure ObjectFile where
  format : ObjectFormat
  bytesInAddress : UInt32 := 8
  gnuHash : Option GnuHashSection := none
  symbols : List ObjectSymbol
  dynamicSymbols : List ObjectSymbol := []
  exports : List (Option SymbolName) := []

namespace ObjectFile

def isELF (file : ObjectFile) : Bool := file.format == .ELF

def isCOFF (file : ObjectFile) : Bool := file.format == .COFF

end ObjectFile

def MayExistInElfObjectFile (soFile : ObjectFile) (hash : UInt32) : Bool :=
  match soFile.gnuHash with
  | none => true
  | some contents =>
      let bits := 8 * soFile.bytesInAddress
      let hash2 := hash >>> contents.shift2
      let n := hash / bits % contents.maskWords
      let word := contents.word n.toNat
      let bitmask : UInt64 := (1 <<< (hash % bits).toUInt64) ||| (1 <<< (hash2 % bits).toUInt64)
      bitmask &&& word == bitmask

def readSymbols (IgnoreSymbolFlags : UInt32) (range : List ObjectSymbol) : List SymbolName :=
  range.filterMap fun S =>
    if S.Flags &&& IgnoreSymbolFlags != 0 then none
    else S.name.filter fun name => !name.isEmpty

def readExports (exports : List (Option SymbolName)) : List SymbolName :=
  exports.filterMap fun name => name.filter fun name => !name.isEmpty

/-- The dynamic symbols are filtered by `SF_Undefined` whatever the query ignores. -/
def collectSymbols (BinObjFile : ObjectFile) (IgnoreSymbolFlags : UInt32) : List SymbolName :=
  readSymbols IgnoreSymbolFlags BinObjFile.symbols ++
    if BinObjFile.isELF then readSymbols SF_Undefined BinObjFile.dynamicSymbols
    else if BinObjFile.isCOFF then readExports BinObjFile.exports
    else []

def BuildBloomFilter (bloomSize : UInt32 → UInt32) (m_UseHashTable : Bool) (Lib : LibraryPath)
    (BinObjFile : ObjectFile) (IgnoreSymbolFlags : UInt32) : LibraryPath :=
  let symbols := collectSymbols BinObjFile IgnoreSymbolFlags
  let SymbolsCount := UInt32.ofNat symbols.length
  let Lib := Lib.InitializeBloomFilter bloomSize SymbolsCount
  if SymbolsCount = 0 then Lib
  else symbols.foldl
    (fun Lib S => if m_UseHashTable then (Lib.AddSymbol S).AddBloom S else Lib.AddBloom S) Lib

def ForeachSymbol (range : List ObjectSymbol) (IgnoreSymbolFlags : UInt32)
    (mangledName : SymbolName) : Bool :=
  range.any fun S =>
    if S.Flags &&& IgnoreSymbolFlags != 0 then false
    else match S.name with
      | none => false
      | some name => if name.isEmpty then false else name == mangledName

structure SymbolQuery where
  mangledName : SymbolName
  IgnoreSymbolFlags : UInt32
  deriving DecidableEq

/-- The answer and what the query leaves in the library's entry; `none` is a file that
cannot be read. -/
def ContainsSymbol (bloomSize : UInt32 → UInt32) (m_UseBloomFilter m_UseHashTable : Bool)
    (ObjF : Option ObjectFile) (Lib : LibraryPath) (query : SymbolQuery) : Bool × LibraryPath :=
  match ObjF with
  | none => (false, Lib)
  | some BinObjFile =>
      let hashedMangle := GNUHash query.mangledName
      if BinObjFile.isELF && !MayExistInElfObjectFile BinObjFile hashedMangle then (false, Lib)
      else
        let Lib :=
          if m_UseBloomFilter && !Lib.hasBloomFilter then
            BuildBloomFilter bloomSize m_UseHashTable Lib BinObjFile query.IgnoreSymbolFlags
          else Lib
        if m_UseBloomFilter && !Lib.MayExistSymbol hashedMangle then (false, Lib)
        else if m_UseHashTable then (Lib.ExistSymbol query.mangledName, Lib)
        else if ForeachSymbol BinObjFile.symbols query.IgnoreSymbolFlags query.mangledName then
          (true, Lib)
        else if !BinObjFile.isELF then (false, Lib)
        else
          (ForeachSymbol BinObjFile.dynamicSymbols query.IgnoreSymbolFlags query.mangledName, Lib)

end CppInterOp
