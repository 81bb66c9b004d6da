import Mathlib.Data.List.Induction
import CppInterOp.SymbolCore

/-!
The accelerated lookup against the plain one: the Bloom filter hides no symbol of the hash
table, and the two lookups agree exactly where the two sets of symbols do.
-/

namespace CppInterOp

namespace BloomFilter

theorem and_or_absorb (left right : UInt64) : left &&& (left ||| right) = left := by
  apply UInt64.toBitVec_inj.mp
  apply BitVec.eq_of_getElem_eq
  intro bit _
  cases at_bit : left.toBitVec[bit] <;> simp [at_bit]

theorem mask_or_self (found mask : UInt64) : mask &&& (found ||| mask) = mask := by
  rw [UInt64.or_comm]
  exact and_or_absorb mask found

theorem mask_or_kept {found mask : UInt64} (other : UInt64) (shown : mask &&& found = mask) :
    mask &&& (found ||| other) = mask := by
  calc mask &&& (found ||| other)
      = mask &&& (found &&& (found ||| other)) := by rw [← UInt64.and_assoc, shown]
    _ = mask := by rw [and_or_absorb, shown]

def marks : Marks.Scheme UInt64 where
  join := fun found mask => found ||| mask
  shows := fun found mask => mask &&& found == mask
  shows_joined := fun found mask => by simpa using mask_or_self found mask
  shows_kept := fun found mask other shown => by
    simpa using mask_or_kept other (by simpa using shown)

theorem TestHash_eq (filter : BloomFilter) (hash : UInt32) :
    filter.TestHash hash = Marks.test marks filter.word filter.mask filter.m_BloomTable hash :=
  rfl

theorem AddHash_eq (filter : BloomFilter) (hash : UInt32) :
    filter.AddHash hash = { filter with
      m_BloomTable := Marks.add marks filter.word filter.mask filter.m_BloomTable hash } :=
  rfl

theorem foldl_AddHash (filter : BloomFilter) (hashes : List UInt32) :
    hashes.foldl AddHash filter = { filter with
      m_BloomTable := hashes.foldl (Marks.add marks filter.word filter.mask)
        filter.m_BloomTable } := by
  induction hashes generalizing filter with
  | nil => rfl
  | cons hash hashes ih =>
      rw [List.foldl_cons, AddHash_eq, ih]
      rfl

theorem TestHash_of_mem {filter : BloomFilter} {hashes : List UInt32} {hash : UInt32}
    (sized : 0 < filter.m_BloomSize)
    (resized : filter.m_BloomTable.length = filter.m_BloomSize.toNat) (member : hash ∈ hashes) :
    (hashes.foldl AddHash filter).TestHash hash = true := by
  have bound : ∀ hash, filter.word hash < filter.m_BloomTable.length := by
    intro hash
    rw [resized, word, UInt32.toNat_mod]
    exact Nat.mod_lt _ (UInt32.lt_iff_toNat_lt.mp sized)
  rw [foldl_AddHash, TestHash_eq]
  exact Marks.test_of_mem marks filter.word filter.mask bound member

end BloomFilter

section Read

variable {flags : UInt32} {name : SymbolName}

theorem ObjectSymbol.read_iff (S : ObjectSymbol) :
    (if S.Flags &&& flags != 0 then none else S.name.filter fun name => !name.isEmpty) =
      some name ↔ S.Flags &&& flags = 0 ∧ S.name = some name ∧ name ≠ [] := by
  by_cases ignored : S.Flags &&& flags = 0
  · simp [ignored, Option.filter_eq_some_iff]
  · simp [ignored]

theorem mem_readSymbols {range : List ObjectSymbol} : name ∈ readSymbols flags range ↔
    name ≠ [] ∧ ∃ S ∈ range, S.name = some name ∧ S.Flags &&& flags = 0 := by
  simp only [readSymbols, List.mem_filterMap, ObjectSymbol.read_iff]
  constructor
  · rintro ⟨S, member, kept, named, nonempty⟩
    exact ⟨nonempty, S, member, named, kept⟩
  · rintro ⟨nonempty, S, member, named, kept⟩
    exact ⟨S, member, kept, named, nonempty⟩

theorem mem_readExports {exports : List (Option SymbolName)} :
    name ∈ readExports exports ↔ name ≠ [] ∧ some name ∈ exports := by
  simp only [readExports, List.mem_filterMap, Option.filter_eq_some_iff]
  constructor
  · rintro ⟨_, member, rfl, nonempty⟩
    exact ⟨by simpa using nonempty, member⟩
  · rintro ⟨nonempty, member⟩
    exact ⟨some name, member, rfl, by simpa using nonempty⟩

/-- The plain iteration searches the names that the collecting loop would collect. -/
theorem ForeachSymbol_iff {range : List ObjectSymbol} :
    ForeachSymbol range flags name = true ↔ name ∈ readSymbols flags range := by
  rw [ForeachSymbol, List.any_eq_true, readSymbols, List.mem_filterMap]
  refine exists_congr fun S => and_congr_right fun _ => ?_
  by_cases ignored : S.Flags &&& flags = 0
  · cases named : S.name with
    | none => simp [ignored]
    | some found =>
        by_cases empty : found = []
        · simp [ignored, empty]
        · have nonempty : found = name → name ≠ [] := fun same => same ▸ empty
          simpa [ignored, empty] using nonempty
  · simp [ignored]

end Read

section Build

variable (bloomSize : UInt32 → UInt32)

theorem foldl_insert_spec (symbols : List SymbolName) (Lib : LibraryPath) :
    symbols.foldl (fun Lib S => (Lib.AddSymbol S).AddBloom S) Lib =
      { m_Filter := (symbols.map GNUHash).foldl BloomFilter.AddHash Lib.m_Filter
        m_Symbols := symbols.foldl (fun names S => names.insert S) Lib.m_Symbols } := by
  induction symbols generalizing Lib with
  | nil => rfl
  | cons S symbols ih =>
      rw [List.foldl_cons, ih]
      rfl

theorem mem_foldl_insert (symbols names : List SymbolName) (name : SymbolName) :
    name ∈ symbols.foldl (fun names S => names.insert S) names ↔ name ∈ names ∨ name ∈ symbols := by
  induction symbols generalizing names with
  | nil => simp
  | cons S symbols ih =>
      rw [List.foldl_cons, ih, List.mem_insert_iff, List.mem_cons]
      constructor
      · rintro ((rfl | old) | later)
        · exact Or.inr (Or.inl rfl)
        · exact Or.inl old
        · exact Or.inr (Or.inr later)
      · rintro (old | rfl | later)
        · exact Or.inl (Or.inr old)
        · exact Or.inl (Or.inl rfl)
        · exact Or.inr later

def SymbolsCount (file : ObjectFile) (flags : UInt32) : UInt32 :=
  UInt32.ofNat (collectSymbols file flags).length

def built (file : ObjectFile) (flags : UInt32) : LibraryPath :=
  BuildBloomFilter bloomSize true {} file flags

theorem built_hasBloomFilter (file : ObjectFile) (flags : UInt32) :
    (built bloomSize file flags).hasBloomFilter = true := by
  rw [built, BuildBloomFilter]
  split
  · rfl
  · simp only [if_true, foldl_insert_spec, LibraryPath.hasBloomFilter, BloomFilter.foldl_AddHash]
    rfl

variable (sized : ∀ n, 0 < n → 0 < bloomSize n)

include sized

theorem built_answer (file : ObjectFile) (flags : UInt32) (name : SymbolName) :
    ((built bloomSize file flags).MayExistSymbol (GNUHash name) = true ∧
        (built bloomSize file flags).ExistSymbol name = true) ↔
      SymbolsCount file flags ≠ 0 ∧ name ∈ collectSymbols file flags := by
  by_cases none : SymbolsCount file flags = 0
  · have empty : (built bloomSize file flags).MayExistSymbol (GNUHash name) = false := by
      rw [SymbolsCount] at none
      simp [built, BuildBloomFilter, none, LibraryPath.MayExistSymbol,
        LibraryPath.isBloomFilterEmpty, LibraryPath.InitializeBloomFilter,
        BloomFilter.ResizeTable]
    simp [none, empty]
  · have unfolded : built bloomSize file flags =
        { m_Filter := ((collectSymbols file flags).map GNUHash).foldl BloomFilter.AddHash
            (BloomFilter.ResizeTable bloomSize { m_IsInitialized := true }
              (SymbolsCount file flags))
          m_Symbols := (collectSymbols file flags).foldl (fun names S => names.insert S) [] } := by
      rw [SymbolsCount] at none
      simp only [built, BuildBloomFilter, none, if_false, if_true, foldl_insert_spec]
      rfl
    have exists_iff : (built bloomSize file flags).ExistSymbol name = true ↔
        name ∈ collectSymbols file flags := by
      rw [unfolded, LibraryPath.ExistSymbol, List.contains_iff_mem, mem_foldl_insert]
      simp
    have through : name ∈ collectSymbols file flags →
        (built bloomSize file flags).MayExistSymbol (GNUHash name) = true := by
      intro member
      have count : (built bloomSize file flags).isBloomFilterEmpty = false := by
        rw [unfolded, LibraryPath.isBloomFilterEmpty, BloomFilter.foldl_AddHash]
        simpa [BloomFilter.ResizeTable] using none
      rw [LibraryPath.MayExistSymbol, count, unfolded]
      refine BloomFilter.TestHash_of_mem ?_ ?_ (List.mem_map_of_mem member)
      · exact sized _ (UInt32.pos_iff_ne_zero.mpr none)
      · simp [BloomFilter.ResizeTable]
    constructor
    · exact fun found => ⟨none, exists_iff.mp found.2⟩
    · exact fun found => ⟨through found.2, exists_iff.mpr found.2⟩

end Build

namespace ObjectFile

def Passes (file : ObjectFile) (query : SymbolQuery) : Prop :=
  file.isELF = true → MayExistInElfObjectFile file (GNUHash query.mangledName) = true

instance (file : ObjectFile) : DecidablePred file.Passes := fun query =>
  inferInstanceAs (Decidable (file.isELF = true →
    MayExistInElfObjectFile file (GNUHash query.mangledName) = true))

theorem not_skipped (file : ObjectFile) {query : SymbolQuery} (passed : file.Passes query) :
    (file.isELF && !MayExistInElfObjectFile file (GNUHash query.mangledName)) = false := by
  cases elf : file.isELF with
  | false => rfl
  | true => simp [passed elf]

def Defines (range : List ObjectSymbol) (flags : UInt32) (name : SymbolName) : Prop :=
  ∃ S ∈ range, S.name = some name ∧ S.Flags &&& flags = 0

/-- A symbol of that name that the query does not ignore is in one of the symbol tables. -/
def Offers (file : ObjectFile) (query : SymbolQuery) : Prop :=
  query.mangledName ≠ [] ∧
    (Defines file.symbols query.IgnoreSymbolFlags query.mangledName ∨
      file.isELF = true ∧
        Defines file.dynamicSymbols query.IgnoreSymbolFlags query.mangledName)

/-- A table built for the flags `first` has the name: from the symbol table by these flags,
from the dynamic symbols if it is defined there, or from the exports. -/
def Tables (file : ObjectFile) (first : UInt32) (name : SymbolName) : Prop :=
  SymbolsCount file first ≠ 0 ∧ name ≠ [] ∧
    (Defines file.symbols first name ∨
      file.isELF = true ∧ Defines file.dynamicSymbols SF_Undefined name ∨
      file.isCOFF = true ∧ some name ∈ file.exports)

/-- The flags of the query that has the table built. -/
def builtWith (file : ObjectFile) (queries : List SymbolQuery) : Option UInt32 :=
  (queries.find? fun query => decide (file.Passes query)).map SymbolQuery.IgnoreSymbolFlags

def Agrees (file : ObjectFile) (history : List SymbolQuery) (query : SymbolQuery) : Prop :=
  ∀ first ∈ file.builtWith (history ++ [query]),
    file.Tables first query.mangledName ↔ file.Offers query

theorem mem_collectSymbols (file : ObjectFile) (flags : UInt32) (name : SymbolName) :
    name ∈ collectSymbols file flags ↔ name ≠ [] ∧
      (Defines file.symbols flags name ∨
        file.isELF = true ∧ Defines file.dynamicSymbols SF_Undefined name ∨
        file.isCOFF = true ∧ some name ∈ file.exports) := by
  rw [collectSymbols, List.mem_append, mem_readSymbols, and_or_left]
  refine or_congr Iff.rfl ?_
  by_cases elf : file.isELF = true
  · have not_coff : ¬file.isCOFF = true := by
      simp only [isELF, isCOFF, beq_iff_eq] at elf ⊢
      rw [elf]
      decide
    rw [if_pos elf, mem_readSymbols]
    simp [elf, not_coff, Defines]
  · by_cases coff : file.isCOFF = true
    · rw [if_neg elf, if_pos coff, mem_readExports]
      simp [elf, coff]
    · simp [elf, coff]

theorem tables_iff (file : ObjectFile) (first : UInt32) (name : SymbolName) :
    file.Tables first name ↔ SymbolsCount file first ≠ 0 ∧ name ∈ collectSymbols file first := by
  rw [mem_collectSymbols]
  rfl

end ObjectFile

section Queries

variable (bloomSize : UInt32 → UInt32) (file : ObjectFile)

def entryAfter (ObjF : Option ObjectFile) (history : List SymbolQuery) : LibraryPath :=
  Runs.run (fun Lib query => (ContainsSymbol bloomSize true true ObjF Lib query).2) {} history

def accelerated (ObjF : Option ObjectFile) (history : List SymbolQuery) (query : SymbolQuery) :
    Bool :=
  (ContainsSymbol bloomSize true true ObjF (entryAfter bloomSize ObjF history) query).1

def iterated (ObjF : Option ObjectFile) (query : SymbolQuery) : Bool :=
  (ContainsSymbol bloomSize false false ObjF {} query).1

theorem ContainsSymbol_skips {query : SymbolQuery} (skipped : ¬file.Passes query)
    (m_UseBloomFilter m_UseHashTable : Bool) (Lib : LibraryPath) :
    ContainsSymbol bloomSize m_UseBloomFilter m_UseHashTable (some file) Lib query =
      (false, Lib) := by
  obtain ⟨elf, hidden⟩ := Classical.not_imp.mp skipped
  simp [ContainsSymbol, elf, hidden]

theorem ContainsSymbol_built {query : SymbolQuery} (passed : file.Passes query)
    {Lib : LibraryPath} (filtered : Lib.hasBloomFilter = true) :
    ContainsSymbol bloomSize true true (some file) Lib query =
      (Lib.MayExistSymbol (GNUHash query.mangledName) && Lib.ExistSymbol query.mangledName,
        Lib) := by
  have through := file.not_skipped passed
  cases may : Lib.MayExistSymbol (GNUHash query.mangledName) with
  | false => simp [ContainsSymbol, through, filtered, may]
  | true => simp [ContainsSymbol, through, filtered, may]

/-- A library without a filter is looked up as if its filter had been there. -/
theorem ContainsSymbol_builds {query : SymbolQuery} (passed : file.Passes query) :
    ContainsSymbol bloomSize true true (some file) {} query =
      ContainsSymbol bloomSize true true (some file)
        (built bloomSize file query.IgnoreSymbolFlags) query := by
  have through := file.not_skipped passed
  have unfiltered : ({} : LibraryPath).hasBloomFilter = false := rfl
  have filtered := built_hasBloomFilter bloomSize file query.IgnoreSymbolFlags
  simp only [ContainsSymbol, through, unfiltered, filtered, Bool.not_false, Bool.not_true,
    Bool.and_true, Bool.and_false, if_true, if_false, Bool.false_eq_true]
  rfl

theorem iterated_iff (query : SymbolQuery) :
    iterated bloomSize (some file) query = true ↔ file.Passes query ∧ file.Offers query := by
  by_cases passed : file.Passes query
  · have through := file.not_skipped passed
    have defines : ∀ range, ForeachSymbol range query.IgnoreSymbolFlags query.mangledName = true ↔
        query.mangledName ≠ [] ∧
          ObjectFile.Defines range query.IgnoreSymbolFlags query.mangledName := fun range =>
      ForeachSymbol_iff.trans mem_readSymbols
    have lookup : iterated bloomSize (some file) query =
        (ForeachSymbol file.symbols query.IgnoreSymbolFlags query.mangledName ||
          file.isELF && ForeachSymbol file.dynamicSymbols query.IgnoreSymbolFlags
            query.mangledName) := by
      cases first : ForeachSymbol file.symbols query.IgnoreSymbolFlags query.mangledName with
      | true => simp [iterated, ContainsSymbol, through, first]
      | false =>
          cases elf : file.isELF with
          | false => simp [iterated, ContainsSymbol, first, elf]
          | true => simp [iterated, ContainsSymbol, passed elf, first, elf]
    rw [lookup, Bool.or_eq_true, Bool.and_eq_true, defines, defines, ObjectFile.Offers]
    constructor
    · rintro (⟨nonempty, found⟩ | ⟨elf, nonempty, found⟩)
      · exact ⟨passed, nonempty, Or.inl found⟩
      · exact ⟨passed, nonempty, Or.inr ⟨elf, found⟩⟩
    · rintro ⟨_, nonempty, found | ⟨elf, found⟩⟩
      · exact Or.inl ⟨nonempty, found⟩
      · exact Or.inr ⟨elf, nonempty, found⟩
  · simp [iterated, ContainsSymbol_skips bloomSize file passed, passed]

theorem builtWith_append (history : List SymbolQuery) (query : SymbolQuery) :
    file.builtWith (history ++ [query]) = (file.builtWith history).or
      (if file.Passes query then some query.IgnoreSymbolFlags else none) := by
  rw [ObjectFile.builtWith, List.find?_append]
  cases earlier : history.find? fun query => decide (file.Passes query) with
  | some first => simp [ObjectFile.builtWith, earlier]
  | none =>
      by_cases passed : file.Passes query
      · simp [ObjectFile.builtWith, earlier, passed]
      · simp [ObjectFile.builtWith, earlier, passed]

theorem entryAfter_eq (history : List SymbolQuery) :
    entryAfter bloomSize (some file) history =
      match file.builtWith history with
      | none => {}
      | some first => built bloomSize file first := by
  induction history using List.reverseRecOn with
  | nil => rfl
  | append_singleton history query ih =>
      rw [entryAfter, Runs.run_append, ← entryAfter, ih, builtWith_append]
      simp only [Runs.run]
      by_cases passed : file.Passes query
      · cases earlier : file.builtWith history with
        | none =>
            simp only [passed, if_true, Option.none_or]
            rw [ContainsSymbol_builds bloomSize file passed, ContainsSymbol_built bloomSize file
              passed (built_hasBloomFilter bloomSize file _)]
        | some first =>
            simp only [Option.some_or]
            rw [ContainsSymbol_built bloomSize file passed (built_hasBloomFilter bloomSize file _)]
      · rw [ContainsSymbol_skips bloomSize file passed]
        simp [passed]

variable (sized : ∀ n, 0 < n → 0 < bloomSize n)

include sized

theorem accelerated_iff (history : List SymbolQuery) (query : SymbolQuery) :
    accelerated bloomSize (some file) history query = true ↔
      file.Passes query ∧
        ∃ first ∈ file.builtWith (history ++ [query]), file.Tables first query.mangledName := by
  by_cases passed : file.Passes query
  · have answer : ∀ first, file.builtWith (history ++ [query]) = some first →
        accelerated bloomSize (some file) history query =
          ((built bloomSize file first).MayExistSymbol (GNUHash query.mangledName) &&
            (built bloomSize file first).ExistSymbol query.mangledName) := by
      intro first found
      rw [builtWith_append, if_pos passed] at found
      rw [accelerated, entryAfter_eq]
      cases earlier : file.builtWith history with
      | none =>
          obtain rfl : query.IgnoreSymbolFlags = first := by simpa [earlier] using found
          simp only [ContainsSymbol_builds bloomSize file passed]
          rw [ContainsSymbol_built bloomSize file passed (built_hasBloomFilter bloomSize file _)]
      | some old =>
          obtain rfl : old = first := by simpa [earlier] using found
          simp only
          rw [ContainsSymbol_built bloomSize file passed (built_hasBloomFilter bloomSize file _)]
    obtain ⟨first, found⟩ : ∃ first, file.builtWith (history ++ [query]) = some first := by
      rw [builtWith_append, if_pos passed]
      cases file.builtWith history with
      | none => exact ⟨_, rfl⟩
      | some old => exact ⟨old, rfl⟩
    rw [answer first found, Bool.and_eq_true, built_answer bloomSize sized,
      ← ObjectFile.tables_iff]
    simp [passed, found]
  · rw [accelerated, ContainsSymbol_skips bloomSize file passed]
    simp [passed]

end Queries

/-- The answers agree exactly where the flags of the query that built the table make no
difference to the name that is asked for. -/
theorem accelerated_lookup_transparent_iff (bloomSize : UInt32 → UInt32)
    (sized : ∀ n, 0 < n → 0 < bloomSize n) (ObjF : Option ObjectFile)
    (history : List SymbolQuery) (query : SymbolQuery) :
    accelerated bloomSize ObjF history query = iterated bloomSize ObjF query ↔
      ∀ file ∈ ObjF, file.Passes query → file.Agrees history query := by
  cases ObjF with
  | none => simp [accelerated, iterated, ContainsSymbol]
  | some file =>
      rw [Bool.eq_iff_iff, accelerated_iff bloomSize file sized, iterated_iff]
      simp only [Option.mem_def, Option.some.injEq, forall_eq', ObjectFile.Agrees]
      by_cases passed : file.Passes query
      · obtain ⟨first, found⟩ : ∃ first, file.builtWith (history ++ [query]) = some first := by
          rw [builtWith_append, if_pos passed]
          cases file.builtWith history with
          | none => exact ⟨_, rfl⟩
          | some old => exact ⟨old, rfl⟩
        simp [passed, found]
      · simp [passed]

def libWeak : ObjectFile where
  format := .ELF
  symbols := [{ Flags := SF_Global, name := some [102] }, { Flags := SF_Undefined, name := some [104] }]
  dynamicSymbols := [{ Flags := SF_Global ||| SF_Weak, name := some [103] }]

def eighth (n : UInt32) : UInt32 := n / 8 + 1

theorem eighth_pos (n : UInt32) : 0 < eighth n := by
  have small := n.toNat_lt
  rw [UInt32.lt_iff_toNat_lt, eighth, UInt32.toNat_add, UInt32.toNat_div]
  simp only [UInt32.toNat_zero, UInt32.reduceToNat]
  omega

theorem accelerated_lookup_transparent_defined :
    accelerated eighth (some libWeak)
        [{ mangledName := [103], IgnoreSymbolFlags := SF_Undefined }]
        { mangledName := [102], IgnoreSymbolFlags := SF_Undefined ||| SF_Weak } =
      iterated eighth (some libWeak)
        { mangledName := [102], IgnoreSymbolFlags := SF_Undefined ||| SF_Weak } ↔
      ∀ file ∈ some libWeak,
        file.Passes { mangledName := [102], IgnoreSymbolFlags := SF_Undefined ||| SF_Weak } →
          file.Agrees [{ mangledName := [103], IgnoreSymbolFlags := SF_Undefined }]
            { mangledName := [102], IgnoreSymbolFlags := SF_Undefined ||| SF_Weak } :=
  accelerated_lookup_transparent_iff eighth (fun n _ => eighth_pos n) (some libWeak) _ _

/-- The first query already differs: the table has the weak dynamic symbol that the flags
ignore. -/
theorem accelerated_lookup_weak :
    accelerated eighth (some libWeak) []
        { mangledName := [103], IgnoreSymbolFlags := SF_Undefined ||| SF_Weak } ≠
      iterated eighth (some libWeak)
        { mangledName := [103], IgnoreSymbolFlags := SF_Undefined ||| SF_Weak } := by
  decide

end CppInterOp
