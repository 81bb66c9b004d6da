import CppInterOp.SymbolBloom

/-!
The filter of a library while its symbols are added: every access is inside the table, and
whatever has been added is let through.
-/

namespace CppInterOp

namespace BloomFilter

structure Safe (filter : BloomFilter) : Prop where
  initialized : filter.m_IsInitialized = true
  divisible : filter.m_BloomSize ≠ 0
  inside : ∀ hash, filter.word hash < filter.m_BloomTable.length

def addSymbol (filter : BloomFilter) (symbol : SymbolName) : BloomFilter :=
  filter.AddHash (GNUHash symbol)

variable {bloomSize : UInt32 → UInt32} {filter : BloomFilter} {newSymbolsCount : UInt32}

theorem ResizeTable_safe (sized : 0 < bloomSize newSymbolsCount)
    (initialized : filter.m_IsInitialized = true) :
    Safe (filter.ResizeTable bloomSize newSymbolsCount) where
  initialized := initialized
  divisible := UInt32.pos_iff_ne_zero.mp sized
  inside := by
    intro hash
    simp only [ResizeTable, word, List.length_replicate, UInt32.toNat_mod]
    exact Nat.mod_lt _ (UInt32.lt_iff_toNat_lt.mp sized)

theorem Safe.addSymbol (safe : filter.Safe) (symbol : SymbolName) :
    (filter.addSymbol symbol).Safe where
  initialized := safe.initialized
  divisible := safe.divisible
  inside := by
    intro hash
    rw [BloomFilter.addSymbol, AddHash, List.length_modify]
    exact safe.inside hash

theorem run_addSymbol (symbols : List SymbolName) :
    Runs.run addSymbol filter symbols = (symbols.map GNUHash).foldl AddHash filter := by
  induction symbols generalizing filter with
  | nil => rfl
  | cons S symbols ih => exact ih

theorem ResizeTable_tests (sized : 0 < bloomSize newSymbolsCount) {symbols : List SymbolName}
    {S : SymbolName} (member : S ∈ symbols) :
    (Runs.run addSymbol (filter.ResizeTable bloomSize newSymbolsCount) symbols).TestHash
      (GNUHash S) = true := by
  rw [run_addSymbol]
  refine TestHash_of_mem sized ?_ (List.mem_map_of_mem member)
  rw [ResizeTable, List.length_replicate]

theorem run_addSymbol_count (symbols : List SymbolName) :
    (Runs.run addSymbol filter symbols).m_SymbolsCount = filter.m_SymbolsCount := by
  rw [run_addSymbol, foldl_AddHash]

end BloomFilter

namespace LibraryPath

/-- What `BuildBloomFilter` does for each symbol, with or without the hash table. -/
theorem foldl_filter (m_UseHashTable : Bool) (symbols : List SymbolName) (Lib : LibraryPath) :
    (symbols.foldl (fun Lib S =>
      if m_UseHashTable then (Lib.AddSymbol S).AddBloom S else Lib.AddBloom S) Lib).m_Filter =
        Runs.run BloomFilter.addSymbol Lib.m_Filter symbols := by
  induction symbols generalizing Lib with
  | nil => rfl
  | cons S symbols ih =>
      rw [List.foldl_cons, ih, Runs.run]
      cases m_UseHashTable with
      | false => rfl
      | true => rfl

end LibraryPath

section Built

variable (bloomSize : UInt32 → UInt32)

theorem BuildBloomFilter_filter (m_UseHashTable : Bool) {Lib : LibraryPath} (file : ObjectFile)
    (flags : UInt32) (counted : SymbolsCount file flags ≠ 0) :
    (BuildBloomFilter bloomSize m_UseHashTable Lib file flags).m_Filter =
      Runs.run BloomFilter.addSymbol
        (BloomFilter.ResizeTable bloomSize { Lib.m_Filter with m_IsInitialized := true }
          (SymbolsCount file flags)) (collectSymbols file flags) := by
  rw [SymbolsCount] at counted
  rw [BuildBloomFilter]
  simp only [if_neg counted]
  exact LibraryPath.foldl_filter m_UseHashTable _ _

/-- The table keeps its size while symbols are added, so no access leaves it, and no symbol that
was added is rejected. -/
theorem no_false_negatives (newSymbolsCount : UInt32) (some_symbols : 0 < newSymbolsCount)
    (sized : 0 < bloomSize newSymbolsCount) :
    (∀ symbols : List SymbolName,
      let resized := BloomFilter.ResizeTable bloomSize { m_IsInitialized := true } newSymbolsCount
      Runs.EveryState BloomFilter.addSymbol BloomFilter.Safe resized symbols ∧
        ∀ S ∈ symbols,
          (Runs.run BloomFilter.addSymbol resized symbols).TestHash (GNUHash S) = true) ∧
      ∀ (m_UseHashTable : Bool) (Lib : LibraryPath) (file : ObjectFile) (flags : UInt32),
        SymbolsCount file flags = newSymbolsCount → ∀ S ∈ collectSymbols file flags,
          (BuildBloomFilter bloomSize m_UseHashTable Lib file flags).MayExistSymbol
            (GNUHash S) = true := by
  refine ⟨fun symbols => ⟨?_, fun S member => BloomFilter.ResizeTable_tests sized member⟩, ?_⟩
  · exact Runs.everyState_of_invariant BloomFilter.Safe (BloomFilter.ResizeTable_safe sized rfl)
      (fun _ S safe _ => safe.addSymbol S) (Runs.everyStep_of_forall fun _ _ => trivial)
  · rintro m_UseHashTable Lib file flags rfl S member
    have counted : SymbolsCount file flags ≠ 0 := UInt32.pos_iff_ne_zero.mp some_symbols
    rw [LibraryPath.MayExistSymbol, LibraryPath.isBloomFilterEmpty,
      BuildBloomFilter_filter bloomSize m_UseHashTable file flags counted,
      BloomFilter.run_addSymbol_count, BloomFilter.ResizeTable_tests sized member]
    simpa [BloomFilter.ResizeTable] using counted

theorem no_false_negatives_one :
    (∀ symbols : List SymbolName,
      let resized := BloomFilter.ResizeTable eighth { m_IsInitialized := true } 1
      Runs.EveryState BloomFilter.addSymbol BloomFilter.Safe resized symbols ∧
        ∀ S ∈ symbols,
          (Runs.run BloomFilter.addSymbol resized symbols).TestHash (GNUHash S) = true) ∧
      ∀ (m_UseHashTable : Bool) (Lib : LibraryPath) (file : ObjectFile) (flags : UInt32),
        SymbolsCount file flags = 1 → ∀ S ∈ collectSymbols file flags,
          (BuildBloomFilter eighth m_UseHashTable Lib file flags).MayExistSymbol
            (GNUHash S) = true :=
  no_false_negatives eighth 1 (by decide) (by decide)

end Built

end CppInterOp
