import CppInterOp.AutoloadScan
import CppInterOp.SymbolBloom

/-!
Searches along whole runs of loading, unloading and searching: which libraries they return, and
when they come back empty. A library that is loaded without having been the answer of a search,
or unloaded after the scan, is where they go wrong.
-/

namespace CppInterOp

section Lookups

variable {File : Type} (files : AutoloadFiles File)

def ignoredFlags (searchSystem : Bool) : UInt32 :=
  if searchSystem then SF_Undefined ||| SF_Weak else SF_Undefined

/-- The library defines the symbol, and its own filter lets the name through. -/
def DefinesSymbol (searchSystem : Bool) (FileName : PathName) (mangledName : SymbolName) : Prop :=
  ∃ file, files.createObjectFile FileName = some file ∧
    file.Passes ⟨mangledName, ignoredFlags searchSystem⟩ ∧ mangledName ≠ [] ∧
    (ObjectFile.Defines file.symbols (ignoredFlags searchSystem) mangledName ∨
      file.isELF = true ∧ ObjectFile.Defines file.dynamicSymbols SF_Undefined mangledName ∨
      file.isCOFF = true ∧ some mangledName ∈ file.exports)

theorem DefinesSymbol.user {FileName : PathName} {mangledName : SymbolName}
    (defines : DefinesSymbol files true FileName mangledName) :
    DefinesSymbol files false FileName mangledName := by
  obtain ⟨file, opened, passes, nonempty, found⟩ := defines
  refine ⟨file, opened, passes, nonempty, found.imp (fun strong => ?_) id⟩
  obtain ⟨S, member, named, counted⟩ := strong
  refine ⟨S, member, named, ?_⟩
  calc S.Flags &&& ignoredFlags false
      = S.Flags &&& (ignoredFlags true &&& ignoredFlags false) := rfl
    _ = S.Flags &&& ignoredFlags true &&& ignoredFlags false := (UInt32.and_assoc _ _ _).symm
    _ = 0 := by rw [counted, UInt32.zero_and]

/-- What has been read of a library is what the lookups with these flags read. -/
def Tabled (flags : UInt32) (P : ScannedLib) : Prop :=
  P.tables = {} ∨ ∃ file, files.createObjectFile P.GetFullName = some file ∧
    P.tables = built files.bloomSize file.toObjectFile flags

variable {files} {searchSystem : Bool} {P : ScannedLib}

theorem count_ne_zero {file : LibraryFile} {path : PathName}
    (opened : files.createObjectFile path = some file) {flags : UInt32} {name : SymbolName}
    (member : name ∈ collectSymbols file.toObjectFile flags) :
    SymbolsCount file.toObjectFile flags ≠ 0 := by
  have bound := files.counted path file opened flags
  have some_symbol := List.length_pos_of_mem member
  rw [SymbolsCount]
  intro zero
  have as_nat := congrArg UInt32.toNat zero
  rw [UInt32.toNat_ofNat_of_lt' bound] at as_nat
  rw [UInt32.toNat_zero] at as_nat
  omega

/-- The lookup in one library: it finds what is defined and reads what it should. -/
theorem ContainsSymbol_tabled (tabled : Tabled files (ignoredFlags searchSystem) P)
    (mangledName : SymbolName) :
    let answer := ContainsSymbol files.bloomSize true true
      ((files.createObjectFile P.GetFullName).map LibraryFile.toObjectFile) P.tables
      ⟨mangledName, ignoredFlags searchSystem⟩
    (DefinesSymbol files searchSystem P.GetFullName mangledName → answer.1 = true) ∧
      Tabled files (ignoredFlags searchSystem) { P with tables := answer.2 } := by
  cases opened : files.createObjectFile P.GetFullName with
  | none =>
      refine ⟨fun ⟨file, also, _⟩ => ?_, tabled⟩
      cases opened.symm.trans also
  | some file =>
      simp only [Option.map_some]
      by_cases passed : file.Passes ⟨mangledName, ignoredFlags searchSystem⟩
      · have looked : ContainsSymbol files.bloomSize true true (some file.toObjectFile) P.tables
            ⟨mangledName, ignoredFlags searchSystem⟩ =
              ((built files.bloomSize file.toObjectFile (ignoredFlags searchSystem)).MayExistSymbol
                  (GNUHash mangledName) &&
                (built files.bloomSize file.toObjectFile (ignoredFlags searchSystem)).ExistSymbol
                  mangledName,
                built files.bloomSize file.toObjectFile (ignoredFlags searchSystem)) := by
          have filtered := built_hasBloomFilter files.bloomSize file.toObjectFile
            (ignoredFlags searchSystem)
          rcases tabled with empty | ⟨other, also, as_built⟩
          · rw [empty, ContainsSymbol_builds files.bloomSize file.toObjectFile passed]
            exact ContainsSymbol_built files.bloomSize file.toObjectFile passed filtered
          · obtain rfl := Option.some.inj (opened.symm.trans also)
            rw [as_built]
            exact ContainsSymbol_built files.bloomSize file.toObjectFile passed filtered
        rw [looked]
        refine ⟨fun ⟨other, also, _, nonempty, defined⟩ => ?_, Or.inr ⟨file, opened, rfl⟩⟩
        obtain rfl := Option.some.inj (opened.symm.trans also)
        have member := (ObjectFile.mem_collectSymbols file.toObjectFile _ mangledName).mpr
          ⟨nonempty, defined⟩
        rw [Bool.and_eq_true]
        exact (built_answer files.bloomSize files.sized file.toObjectFile _ mangledName).mpr
          ⟨count_ne_zero opened member, member⟩
      · rw [ContainsSymbol_skips files.bloomSize file.toObjectFile passed]
        refine ⟨fun ⟨other, also, passes, _⟩ => ?_, tabled⟩
        obtain rfl := Option.some.inj (opened.symm.trans also)
        exact absurd passes passed

end Lookups

namespace Dyld

section Search

variable {File : Type} {files : AutoloadFiles File} {searchSystem : Bool}

structure Finds (files : AutoloadFiles File) (searchSystem : Bool) (mangledName : SymbolName)
    (libraries : LibraryPaths) (found : Option ScannedLib × LibraryPaths) : Prop where
  keys : found.2.map ScannedLib.key = libraries.map ScannedLib.key
  tabled : ∀ P ∈ found.2, Tabled files (ignoredFlags searchSystem) P
  member : ∀ P ∈ found.1, P ∈ found.2
  complete : ∀ P ∈ libraries, DefinesSymbol files searchSystem P.GetFullName mangledName →
    found.1 ≠ none

theorem findSymbol_finds (mangledName : SymbolName) {libraries : LibraryPaths}
    (tabled : ∀ P ∈ libraries, Tabled files (ignoredFlags searchSystem) P) :
    Finds files searchSystem mangledName libraries
      (findSymbol files ⟨mangledName, ignoredFlags searchSystem⟩ libraries) := by
  induction libraries with
  | nil => exact ⟨rfl, nofun, nofun, nofun⟩
  | cons P rest ih =>
      have later := ih fun other member => tabled other (List.mem_cons_of_mem _ member)
      obtain ⟨here, read⟩ := ContainsSymbol_tabled (tabled P List.mem_cons_self) mangledName
      rw [findSymbol]
      simp only
      split
      next answered =>
          refine ⟨rfl, fun other member => ?_, fun other same => ?_, fun _ _ _ => nofun⟩
          · rcases List.mem_cons.mp member with rfl | inside
            · exact read
            · exact tabled other (List.mem_cons_of_mem _ inside)
          · obtain rfl := Option.some.inj same
            exact List.mem_cons_self
      next unanswered =>
          refine ⟨congrArg (P.key :: ·) later.keys, fun other member => ?_, fun other same => ?_,
            fun other member defines => ?_⟩
          · rcases List.mem_cons.mp member with rfl | inside
            · exact read
            · exact later.tabled other inside
          · exact List.mem_cons_of_mem _ (later.member other same)
          · rcases List.mem_cons.mp member with rfl | inside
            · exact absurd (here defines) unanswered
            · exact later.complete other inside defines

end Search

section Invariant

variable {File : Type} (files : AutoloadFiles File) (DLM : DynamicLibraryManager File)

def Registered (dyld : Dyld) (P : ScannedLib) : Prop :=
  P ∈ dyld.m_Libraries ∨ P ∈ dyld.m_SysLibraries

def Pending (dyld : Dyld) (searchSystem : Bool) : Prop :=
  (if searchSystem then dyld.m_FirstRunSysLib else dyld.m_FirstRun) = true

def Holds (dyld : Dyld) (searchSystem : Bool) (FileName : PathName) : Prop :=
  ∃ P, (P ∈ dyld.m_Libraries ∨ searchSystem = true ∧ P ∈ dyld.m_SysLibraries) ∧
    P.key = (ScannedLib.ofFile FileName).key

/-- What is loaded is registered at most if it was the answer of a search; what is not loaded
is registered when its search path has been scanned. -/
structure Good (dyld : Dyld) : Prop where
  userTabled : ∀ P ∈ dyld.m_Libraries, Tabled files (ignoredFlags false) P
  systemTabled : ∀ P ∈ dyld.m_SysLibraries, Tabled files (ignoredFlags true) P
  shared : ∀ P, dyld.Registered P → files.isSharedLibrary P.GetFullName = true
  queried : ∀ P, dyld.Registered P →
    DLM.isLibraryLoaded files.toLibraryFiles P.GetFullName = true →
      dyld.m_QueriedLibraries.HasRegisteredLib P = true
  systemLater : dyld.m_FirstRun = true → dyld.m_SysLibraries = []
  covered : ∀ searchSystem FileName, OnSearchPath files searchSystem FileName →
    Candidate files FileName → DLM.isLibraryLoaded files.toLibraryFiles FileName = false →
      dyld.Pending searchSystem ∨ dyld.Holds searchSystem FileName

def Unloaded (dyld : Dyld) : Prop :=
  ∀ P, dyld.Registered P → DLM.isLibraryLoaded files.toLibraryFiles P.GetFullName = false

variable {files DLM} {dyld later : Dyld}

theorem plain_of_listed {searchSystem : Bool} {FileName : PathName}
    (listed : OnSearchPath files searchSystem FileName) (candidate : Candidate files FileName) :
    PlainName FileName := by
  obtain ⟨Info, _, _, _, _, entry, member, ⟨_, rfl⟩ | ⟨_, rfl, not_directory⟩⟩ := listed
  · exact files.listed_plain Info.Path entry member
  · rcases files.resolved_plain entry.1 not_directory with empty | plain
    · have shared := candidate.1
      rw [empty, not_shared_empty] at shared
      cases shared
    · exact plain

theorem name_of_listed {searchSystem : Bool} {FileName : PathName} {P : ScannedLib}
    (listed : OnSearchPath files searchSystem FileName) (candidate : Candidate files FileName)
    (same : P.key = (ScannedLib.ofFile FileName).key) : P.GetFullName = FileName :=
  (ScannedLib.GetFullName_of_key same).trans (ofFile_GetFullName (plain_of_listed listed candidate))

theorem start_good : Good files {} ({} : Dyld) where
  userTabled := nofun
  systemTabled := nofun
  shared _ registered := registered.elim nofun nofun
  queried _ registered := registered.elim nofun nofun
  systemLater _ := rfl
  covered searchSystem _ _ _ _ := Or.inl (by cases searchSystem <;> rfl)

structure Reads (files : AutoloadFiles File) (dyld later : Dyld) : Prop where
  userKeys : later.m_Libraries.map ScannedLib.key = dyld.m_Libraries.map ScannedLib.key
  systemKeys : later.m_SysLibraries.map ScannedLib.key = dyld.m_SysLibraries.map ScannedLib.key
  userTabled : ∀ P ∈ later.m_Libraries, Tabled files (ignoredFlags false) P
  systemTabled : ∀ P ∈ later.m_SysLibraries, Tabled files (ignoredFlags true) P
  queried : ∀ P, dyld.m_QueriedLibraries.HasRegisteredLib P = true →
    later.m_QueriedLibraries.HasRegisteredLib P = true
  firstRun : later.m_FirstRun = dyld.m_FirstRun
  firstRunSysLib : later.m_FirstRunSysLib = dyld.m_FirstRunSysLib

theorem mem_of_keys {libraries others : LibraryPaths} {P : ScannedLib}
    (keys : libraries.map ScannedLib.key = others.map ScannedLib.key) (member : P ∈ libraries) :
    ∃ other ∈ others, other.key = P.key := by
  have present : P.key ∈ others.map ScannedLib.key := keys ▸ List.mem_map_of_mem member
  exact List.mem_map.mp present

theorem Reads.registered (reads : Reads files dyld later) {P : ScannedLib}
    (registered : later.Registered P) : ∃ old, dyld.Registered old ∧ old.key = P.key := by
  rcases registered with user | system
  · obtain ⟨old, member, same⟩ := mem_of_keys reads.userKeys user
    exact ⟨old, Or.inl member, same⟩
  · obtain ⟨old, member, same⟩ := mem_of_keys reads.systemKeys system
    exact ⟨old, Or.inr member, same⟩

theorem Reads.unloaded (reads : Reads files dyld later) (unloaded : Unloaded files DLM dyld) :
    Unloaded files DLM later := by
  intro P registered
  obtain ⟨old, old_registered, same⟩ := reads.registered registered
  rw [← ScannedLib.GetFullName_of_key same]
  exact unloaded old old_registered

theorem Reads.good (reads : Reads files dyld later) (good : Good files DLM dyld) :
    Good files DLM later where
  userTabled := reads.userTabled
  systemTabled := reads.systemTabled
  shared P registered := by
    obtain ⟨old, old_registered, same⟩ := reads.registered registered
    rw [← ScannedLib.GetFullName_of_key same]
    exact good.shared old old_registered
  queried P registered loaded := by
    obtain ⟨old, old_registered, same⟩ := reads.registered registered
    rw [← ScannedLib.GetFullName_of_key same] at loaded
    have asked := reads.queried old (good.queried old old_registered loaded)
    rw [LibraryPaths.HasRegisteredLib_iff] at asked ⊢
    rwa [← same]
  systemLater first := by
    have none := good.systemLater (reads.firstRun ▸ first)
    have keys := reads.systemKeys
    rw [none, List.map_nil, List.map_eq_nil_iff] at keys
    exact keys
  covered searchSystem FileName listed candidate unloaded := by
    rcases good.covered searchSystem FileName listed candidate unloaded with pending | holds
    · refine Or.inl ?_
      rw [Pending, reads.firstRun, reads.firstRunSysLib]
      exact pending
    · obtain ⟨P, member, same⟩ := holds
      refine Or.inr ?_
      rcases member with user | ⟨system_search, system⟩
      · obtain ⟨other, there, key⟩ := mem_of_keys reads.userKeys.symm user
        exact ⟨other, Or.inl there, key.trans same⟩
      · obtain ⟨other, there, key⟩ := mem_of_keys reads.systemKeys.symm system
        exact ⟨other, Or.inr ⟨system_search, there⟩, key.trans same⟩

structure Forgets (files : AutoloadFiles File) (DLM : DynamicLibraryManager File)
    (asked : LibraryPaths) (dyld later : Dyld) : Prop where
  user : ∀ P, P ∈ later.m_Libraries ↔ P ∈ dyld.m_Libraries ∧ ∀ Q ∈ asked,
    DLM.isLibraryLoaded files.toLibraryFiles Q.GetFullName = true → P.key ≠ Q.key
  system : ∀ P, P ∈ later.m_SysLibraries ↔ P ∈ dyld.m_SysLibraries ∧ ∀ Q ∈ asked,
    DLM.isLibraryLoaded files.toLibraryFiles Q.GetFullName = true → P.key ≠ Q.key
  queried : later.m_QueriedLibraries = dyld.m_QueriedLibraries
  firstRun : later.m_FirstRun = dyld.m_FirstRun
  firstRunSysLib : later.m_FirstRunSysLib = dyld.m_FirstRunSysLib

theorem forgetLoaded_forgets (dyld : Dyld) :
    Forgets files DLM dyld.m_QueriedLibraries dyld (dyld.forgetLoaded files DLM) := by
  rw [forgetLoaded]
  induction dyld.m_QueriedLibraries generalizing dyld with
  | nil => exact ⟨fun P => by simp, fun P => by simp, rfl, rfl, rfl⟩
  | cons Q asked ih =>
      rw [List.foldl_cons]
      cases loaded : DLM.isLibraryLoaded files.toLibraryFiles Q.GetFullName with
      | false =>
          have rest := ih dyld
          simp only [Bool.false_eq_true, if_false]
          refine ⟨fun P => ?_, fun P => ?_, rest.queried, rest.firstRun, rest.firstRunSysLib⟩
          · rw [rest.user, List.forall_mem_cons, loaded]
            simp
          · rw [rest.system, List.forall_mem_cons, loaded]
            simp
      | true =>
          simp only [if_true]
          have rest := ih { dyld with
            m_Libraries := dyld.m_Libraries.UnregisterLib Q
            m_SysLibraries := dyld.m_SysLibraries.UnregisterLib Q }
          refine ⟨fun P => ?_, fun P => ?_, rest.queried, rest.firstRun, rest.firstRunSysLib⟩
          · rw [rest.user, List.forall_mem_cons, loaded, LibraryPaths.mem_UnregisterLib]
            simp [and_assoc]
          · rw [rest.system, List.forall_mem_cons, loaded, LibraryPaths.mem_UnregisterLib]
            simp [and_assoc]

/-- After the libraries that were answers and are loaded have gone, none is loaded. -/
theorem forgetLoaded_good (good : Good files DLM dyld) :
    Good files DLM (dyld.forgetLoaded files DLM) ∧
      Unloaded files DLM (dyld.forgetLoaded files DLM) := by
  have forgets : Forgets files DLM dyld.m_QueriedLibraries dyld (dyld.forgetLoaded files DLM) :=
    forgetLoaded_forgets dyld
  generalize dyld.forgetLoaded files DLM = later at forgets ⊢
  have registered : ∀ P, later.Registered P → dyld.Registered P ∧
      ∀ Q ∈ dyld.m_QueriedLibraries,
        DLM.isLibraryLoaded files.toLibraryFiles Q.GetFullName = true → P.key ≠ Q.key := by
    rintro P (user | system)
    · obtain ⟨old, apart⟩ := (forgets.user P).mp user
      exact ⟨Or.inl old, apart⟩
    · obtain ⟨old, apart⟩ := (forgets.system P).mp system
      exact ⟨Or.inr old, apart⟩
  have unloaded : Unloaded files DLM later := by
    intro P member
    obtain ⟨old, apart⟩ := registered P member
    rw [← Bool.not_eq_true]
    intro loaded
    obtain ⟨Q, asked, same⟩ := LibraryPaths.HasRegisteredLib_iff.mp (good.queried P old loaded)
    rw [← ScannedLib.GetFullName_of_key same] at loaded
    exact apart Q asked loaded same.symm
  refine ⟨?_, unloaded⟩
  exact {
    userTabled := fun P member => good.userTabled P ((forgets.user P).mp member).1
    systemTabled := fun P member => good.systemTabled P ((forgets.system P).mp member).1
    shared := fun P member => good.shared P (registered P member).1
    queried := fun P member loaded => absurd (unloaded P member) (Bool.not_eq_false _ ▸ loaded)
    systemLater := fun first => by
      have none := good.systemLater (forgets.firstRun ▸ first)
      refine List.eq_nil_iff_forall_not_mem.mpr fun P member => ?_
      have old := ((forgets.system P).mp member).1
      rw [none] at old
      cases old
    covered := fun searchSystem FileName listed candidate free => by
      rcases good.covered searchSystem FileName listed candidate free with pending | holds
      · refine Or.inl ?_
        rw [Pending, forgets.firstRun, forgets.firstRunSysLib]
        exact pending
      · obtain ⟨P, member, same⟩ := holds
        have named := name_of_listed listed candidate same
        have apart : ∀ Q ∈ dyld.m_QueriedLibraries,
            DLM.isLibraryLoaded files.toLibraryFiles Q.GetFullName = true → P.key ≠ Q.key := by
          intro Q _ loaded key
          rw [← ScannedLib.GetFullName_of_key key, named, free] at loaded
          cases loaded
        refine Or.inr ⟨P, ?_, same⟩
        rcases member with user | ⟨system_search, system⟩
        · exact Or.inl ((forgets.user P).mpr ⟨user, apart⟩)
        · exact Or.inr ⟨system_search, (forgets.system P).mpr ⟨system, apart⟩⟩ }

theorem Holds.kept {searchSystem scannedSystem : Bool} {FileName : PathName}
    (holds : dyld.Holds searchSystem FileName) (adds : Adds files DLM scannedSystem dyld later) :
    later.Holds searchSystem FileName := by
  obtain ⟨P, member, same⟩ := holds
  exact ⟨P, member.imp (adds.user P) fun ⟨kind, there⟩ => ⟨kind, adds.system P there⟩, same⟩

/-- A scan registers nothing that is loaded, whatever it says of the scans to come. -/
theorem Adds.good {searchSystem : Bool} {scanned : Dyld}
    (adds : Adds files DLM searchSystem dyld scanned) (good : Good files DLM dyld) (later : Dyld)
    (user : later.m_Libraries = scanned.m_Libraries)
    (system : later.m_SysLibraries = scanned.m_SysLibraries)
    (queried : later.m_QueriedLibraries = scanned.m_QueriedLibraries)
    (not_first : later.m_FirstRun = false)
    (covers : ∀ kind FileName, OnSearchPath files kind FileName → Candidate files FileName →
      DLM.isLibraryLoaded files.toLibraryFiles FileName = false →
        later.Pending kind ∨ later.Holds kind FileName) :
    Good files DLM later ∧ (Unloaded files DLM dyld → Unloaded files DLM later) := by
  have registered : ∀ P, later.Registered P → dyld.Registered P ∨ Fresh files DLM P := by
    rintro P (at_user | at_system)
    · exact (adds.newUser P (user ▸ at_user)).imp Or.inl And.right
    · exact (adds.newSystem P (system ▸ at_system)).imp Or.inr And.right
  constructor
  · exact {
      userTabled := fun P member =>
        (adds.newUser P (user ▸ member)).elim (good.userTabled P) fun fresh => Or.inl fresh.2.1
      systemTabled := fun P member =>
        (adds.newSystem P (system ▸ member)).elim (good.systemTabled P)
          fun fresh => Or.inl fresh.2.1
      shared := fun P member => (registered P member).elim (good.shared P) fun fresh => fresh.2.1
      queried := fun P member loaded => by
        rcases registered P member with old | fresh
        · rw [queried, adds.queried]
          exact good.queried P old loaded
        · cases loaded.symm.trans fresh.2.2
      systemLater := fun first => nomatch first.symm.trans not_first
      covered := covers }
  · exact fun unloaded P member => (registered P member).elim (unloaded P) fun fresh => fresh.2.2

theorem scanUser_good (good : Good files DLM dyld) (first : dyld.m_FirstRun = true) :
    Good files DLM { ScanForLibraries files DLM false dyld with m_FirstRun := false } := by
  have adds : Adds files DLM false dyld (ScanForLibraries files DLM false dyld) :=
    ScanForLibraries_adds false dyld
  refine (adds.good good { ScanForLibraries files DLM false dyld with m_FirstRun := false } rfl rfl
    rfl rfl fun kind FileName listed candidate free => ?_).1
  cases kind with
  | false =>
      obtain ⟨P, member, same⟩ := ScanForLibraries_covers listed candidate free dyld
      refine Or.inr ⟨P, Or.inl ?_, same⟩
      rcases member with user | system
      · exact user
      · rcases adds.newSystem P system with old | ⟨other_kind, _⟩
        · rw [good.systemLater first] at old
          cases old
        · cases other_kind
  | true =>
      rcases good.covered true FileName listed candidate free with pending | holds
      · exact Or.inl (adds.firstRunSysLib.trans pending)
      · have kept := holds.kept adds
        exact Or.inr kept

theorem prepareUser_good (good : Good files DLM dyld) :
    Good files DLM (dyld.prepareUser files DLM) ∧ Unloaded files DLM (dyld.prepareUser files DLM) ∧
      (dyld.prepareUser files DLM).m_FirstRun = false := by
  rw [prepareUser]
  simp only
  cases first : dyld.m_FirstRun with
  | false =>
      simp only [Bool.false_eq_true, if_false]
      obtain ⟨later, unloaded⟩ := forgetLoaded_good good
      exact ⟨later, unloaded, (forgetLoaded_forgets dyld).firstRun.trans first⟩
  | true =>
      simp only [if_true]
      obtain ⟨later, unloaded⟩ := forgetLoaded_good (scanUser_good good first)
      exact ⟨later, unloaded, (forgetLoaded_forgets _).firstRun⟩

theorem prepareSystem_good (good : Good files DLM dyld) (unloaded : Unloaded files DLM dyld)
    (not_first : dyld.m_FirstRun = false) :
    Good files DLM (dyld.prepareSystem files DLM) ∧
      Unloaded files DLM (dyld.prepareSystem files DLM) ∧
      (dyld.prepareSystem files DLM).m_FirstRunSysLib = false ∧
      ∀ P ∈ (dyld.prepareSystem files DLM).m_Libraries, P ∈ dyld.m_Libraries := by
  rw [prepareSystem]
  cases first : dyld.m_FirstRunSysLib with
  | false =>
      simp only [Bool.false_eq_true, if_false]
      exact ⟨good, unloaded, first, fun _ member => member⟩
  | true =>
      rw [if_pos rfl]
      have adds : Adds files DLM true dyld (ScanForLibraries files DLM true dyld) :=
        ScanForLibraries_adds true dyld
      obtain ⟨scanned, still⟩ := adds.good good
        { ScanForLibraries files DLM true dyld with m_FirstRunSysLib := false } rfl rfl rfl
        (adds.firstRun.trans not_first) fun kind FileName listed candidate free => by
          refine Or.inr ?_
          cases kind with
          | false =>
              rcases good.covered false FileName listed candidate free with pending | holds
              · cases pending.symm.trans not_first
              · have kept := holds.kept adds
                exact kept
          | true =>
              obtain ⟨P, member, same⟩ := ScanForLibraries_covers listed candidate free dyld
              exact ⟨P, member.imp id fun system => ⟨rfl, system⟩, same⟩
      refine ⟨scanned, still unloaded, rfl, fun P member => ?_⟩
      rcases adds.newUser P member with old | ⟨other_kind, _⟩
      · exact old
      · cases other_kind

theorem lookUser_reads (good : Good files DLM dyld) (mangledName : SymbolName) :
    Reads files dyld { dyld with
      m_Libraries := (findSymbol files ⟨mangledName, SF_Undefined⟩ dyld.m_Libraries).2 } := by
  have finds := findSymbol_finds mangledName good.userTabled
  exact ⟨finds.keys, rfl, finds.tabled, good.systemTabled, fun _ asked => asked, rfl, rfl⟩

theorem lookSystem_reads (good : Good files DLM dyld) (mangledName : SymbolName) :
    Reads files dyld { dyld with
      m_SysLibraries :=
        (findSymbol files ⟨mangledName, SF_Undefined ||| SF_Weak⟩ dyld.m_SysLibraries).2 } := by
  have finds := findSymbol_finds mangledName good.systemTabled
  exact ⟨rfl, finds.keys, good.userTabled, finds.tabled, fun _ asked => asked, rfl, rfl⟩

theorem remember_reads (good : Good files DLM dyld) (P : ScannedLib) :
    Reads files dyld (dyld.remember P) := by
  rw [remember]
  split
  · exact ⟨rfl, rfl, good.userTabled, good.systemTabled, fun _ asked => asked, rfl, rfl⟩
  · refine ⟨rfl, rfl, good.userTabled, good.systemTabled, fun other asked => ?_, rfl, rfl⟩
    obtain ⟨Q, member, same⟩ := LibraryPaths.HasRegisteredLib_iff.mp asked
    exact LibraryPaths.HasRegisteredLib_iff.mpr
      ⟨Q, LibraryPaths.mem_RegisterLib.mpr (Or.inl member), same⟩

theorem answer_right (good : Good files DLM dyld) (unloaded : Unloaded files DLM dyld)
    {P : ScannedLib} (registered : dyld.Registered P) :
    DLM.isLibraryLoaded files.toLibraryFiles P.GetFullName = false ∧ P.GetFullName ≠ [] := by
  refine ⟨unloaded P registered, fun empty => ?_⟩
  have shared := good.shared P registered
  rw [empty, not_shared_empty] at shared
  cases shared

theorem searchSystem_good (good : Good files DLM dyld) (unloaded : Unloaded files DLM dyld)
    (not_first : dyld.m_FirstRun = false) {mangledName : SymbolName}
    (nobody : ∀ P ∈ dyld.m_Libraries, ¬DefinesSymbol files false P.GetFullName mangledName) :
    let prepared := dyld.prepareSystem files DLM
    let system := findSymbol files ⟨mangledName, SF_Undefined ||| SF_Weak⟩ prepared.m_SysLibraries
    let lookedUp := { prepared with m_SysLibraries := system.2 }
    (∀ P ∈ system.1, Good files DLM (lookedUp.remember P) ∧
      DLM.isLibraryLoaded files.toLibraryFiles P.GetFullName = false ∧ P.GetFullName ≠ []) ∧
      Good files DLM lookedUp ∧
      ∀ kind FileName, OnSearchPath files kind FileName → Candidate files FileName →
        DLM.isLibraryLoaded files.toLibraryFiles FileName = false →
          DefinesSymbol files kind FileName mangledName → system.1 ≠ none := by
  obtain ⟨prepared, free, scanned, users⟩ := prepareSystem_good good unloaded not_first
  simp only
  generalize dyld.prepareSystem files DLM = ready at prepared free scanned users
  have reads := lookSystem_reads prepared mangledName
  have looked := reads.good prepared
  have finds : Finds files true mangledName ready.m_SysLibraries
      (findSymbol files ⟨mangledName, SF_Undefined ||| SF_Weak⟩ ready.m_SysLibraries) :=
    findSymbol_finds mangledName prepared.systemTabled
  refine ⟨fun P answer => ?_, looked, fun kind FileName listed candidate not_loaded defines => ?_⟩
  · exact ⟨(remember_reads looked P).good looked,
      answer_right looked (reads.unloaded free) (Or.inr (finds.member P answer))⟩
  · cases kind with
    | false =>
        rcases good.covered false FileName listed candidate not_loaded with pending | holds
        · cases pending.symm.trans not_first
        · obtain ⟨P, user | ⟨other_kind, _⟩, same⟩ := holds
          · rw [← name_of_listed listed candidate same] at defines
            exact absurd defines (nobody P user)
          · cases other_kind
    | true =>
        rcases prepared.covered true FileName listed candidate not_loaded with pending | holds
        · cases pending.symm.trans scanned
        · obtain ⟨P, member, same⟩ := holds
          rw [← name_of_listed listed candidate same] at defines
          rcases member with user | ⟨_, system⟩
          · exact absurd defines.user (nobody P (users P user))
          · exact finds.complete P system defines

theorem search_good (good : Good files DLM dyld) (mangledName : SymbolName) (searchSystem : Bool) :
    let found := dyld.searchLibrariesForSymbol files DLM mangledName searchSystem
    Good files DLM found.2 ∧
      (found.1 ≠ [] → DLM.isLibraryLoaded files.toLibraryFiles found.1 = false) ∧
      (searchSystem = true → ∀ kind FileName, OnSearchPath files kind FileName →
        Candidate files FileName → DLM.isLibraryLoaded files.toLibraryFiles FileName = false →
          DefinesSymbol files kind FileName mangledName → found.1 ≠ []) := by
  obtain ⟨prepared, unloaded, not_first⟩ := prepareUser_good good
  rw [searchLibrariesForSymbol]
  simp only
  generalize dyld.prepareUser files DLM = ready at prepared unloaded not_first
  have reads := lookUser_reads prepared mangledName
  have looked := reads.good prepared
  have still := reads.unloaded unloaded
  have finds : Finds files false mangledName ready.m_Libraries
      (findSymbol files ⟨mangledName, SF_Undefined⟩ ready.m_Libraries) :=
    findSymbol_finds mangledName prepared.userTabled
  generalize findSymbol files ⟨mangledName, SF_Undefined⟩ ready.m_Libraries = user at *
  cases answer : user.1 with
  | some P =>
      have registered : Registered { ready with m_Libraries := user.2 } P :=
        Or.inl (finds.member P answer)
      obtain ⟨free, named⟩ := answer_right looked still registered
      simp only
      exact ⟨(remember_reads looked P).good looked, fun _ => free, fun _ _ _ _ _ _ _ => named⟩
  | none =>
      have nobody : ∀ P ∈ user.2, ¬DefinesSymbol files false P.GetFullName mangledName := by
        intro P there defines
        obtain ⟨old, before, same⟩ := mem_of_keys finds.keys there
        rw [← ScannedLib.GetFullName_of_key same] at defines
        exact finds.complete old before defines answer
      simp only
      cases searchSystem with
      | false => exact ⟨looked, fun nonempty => absurd rfl nonempty, nofun⟩
      | true =>
          obtain ⟨right, after, complete⟩ := searchSystem_good looked still not_first nobody
          simp only [Bool.not_true, Bool.false_eq_true, if_false]
          generalize findSymbol files ⟨mangledName, SF_Undefined ||| SF_Weak⟩ _ = system at *
          cases answer : system.1 with
          | some P =>
              obtain ⟨remembered, free, named⟩ := right P answer
              exact ⟨remembered, fun _ => free, fun _ _ _ _ _ _ _ => named⟩
          | none =>
              refine ⟨after, fun nonempty => absurd rfl nonempty, fun _ kind FileName listed
                candidate not_loaded defines => ?_⟩
              exact absurd answer (complete kind FileName listed candidate not_loaded defines)

/-- Loading and unloading keep the invariant if they respect what has been scanned and asked. -/
theorem Good.managed (good : Good files DLM dyld) {changed : DynamicLibraryManager File}
    (loads : ∀ P, dyld.Registered P → DLM.isLibraryLoaded files.toLibraryFiles P.GetFullName = false →
      changed.isLibraryLoaded files.toLibraryFiles P.GetFullName = true →
        dyld.m_QueriedLibraries.HasRegisteredLib P = true)
    (unloads : ∀ kind FileName, OnSearchPath files kind FileName → Candidate files FileName →
      DLM.isLibraryLoaded files.toLibraryFiles FileName = true →
      changed.isLibraryLoaded files.toLibraryFiles FileName = false →
        dyld.Pending kind ∨ dyld.Holds kind FileName) :
    Good files changed dyld where
  userTabled := good.userTabled
  systemTabled := good.systemTabled
  shared := good.shared
  queried P registered now := by
    cases before : DLM.isLibraryLoaded files.toLibraryFiles P.GetFullName with
    | false => exact loads P registered before now
    | true => exact good.queried P registered before
  systemLater := good.systemLater
  covered kind FileName listed candidate now := by
    cases before : DLM.isLibraryLoaded files.toLibraryFiles FileName with
    | false => exact good.covered kind FileName listed candidate before
    | true => exact unloads kind FileName listed candidate before now

end Invariant

end Dyld

namespace Autoloader

section Runs

variable {File : Type} [DecidableEq File] (files : AutoloadFiles File) (state : Autoloader File)

def isLibraryLoaded (fullPath : PathName) : Bool :=
  state.DLM.isLibraryLoaded files.toLibraryFiles fullPath

/-- A search returns a library that is not loaded, and with the system's libraries it returns
one whenever a library file of the search paths that is not loaded defines the symbol. -/
def Right : AutoloadOp → Prop
  | .library _ => True
  | .searchLibrariesForSymbol mangledName searchSystem =>
      let found := (state.dyld.searchLibrariesForSymbol files state.DLM mangledName searchSystem).1
      (found ≠ [] → state.isLibraryLoaded files found = false) ∧
        (searchSystem = true → ∀ kind FileName, OnSearchPath files kind FileName →
          Candidate files FileName → state.isLibraryLoaded files FileName = false →
            DefinesSymbol files kind FileName mangledName → found ≠ [])

/-- A registered library is only loaded after it has been the answer of a search. A library
file of the search paths is only unloaded while it is registered or its scan still to come. -/
def Permitted (op : AutoloadOp) : Prop :=
  (∀ P, state.dyld.Registered P → state.isLibraryLoaded files P.GetFullName = false →
    (state.step files op).isLibraryLoaded files P.GetFullName = true →
      state.dyld.m_QueriedLibraries.HasRegisteredLib P = true) ∧
    ∀ kind FileName, OnSearchPath files kind FileName → Candidate files FileName →
      state.isLibraryLoaded files FileName = true →
      (state.step files op).isLibraryLoaded files FileName = false →
        state.dyld.Pending kind ∨ state.dyld.Holds kind FileName

variable {files state}

theorem step_good (good : Dyld.Good files state.DLM state.dyld) {op : AutoloadOp}
    (permitted : state.Permitted files op) :
    state.Right files op ∧ Dyld.Good files (state.step files op).DLM (state.step files op).dyld := by
  cases op with
  | library op => exact ⟨trivial, good.managed permitted.1 permitted.2⟩
  | searchLibrariesForSymbol mangledName searchSystem =>
      obtain ⟨after, right⟩ := Dyld.search_good good mangledName searchSystem
      exact ⟨right, after⟩

/-- Every search of a run is right, if loading and unloading respect what has been scanned. -/
theorem autoload_searches_right (files : AutoloadFiles File) (ops : List AutoloadOp)
    (permitted : Runs.EveryStep (step files) (Permitted files) {} ops) :
    Runs.EveryStep (step files) (Right files) {} ops :=
  Runs.everyStep_of_invariant (fun state => Dyld.Good files state.DLM state.dyld) Dyld.start_good
    (fun _ _ good allowed => (step_good good allowed).2)
    (fun _ _ good allowed => (step_good good allowed).1) permitted

end Runs

section Examples

def plugin : LibraryFile where
  format := .ELF
  symbols := []
  dynamicSymbols := [{ Flags := SF_Global, name := some [103] }]
  fileFormatName := "elf64-x86-64"
  text := some { nobits := false, alloc := true }

theorem single_counted {file : LibraryFile} (elf : file.isELF = true)
    (symbols : file.symbols.length = 0) (dynamic : file.dynamicSymbols.length = 1) (flags : UInt32) :
    (collectSymbols file.toObjectFile flags).length < 4294967296 := by
  have at_most : ∀ range flags, (readSymbols flags range).length ≤ range.length := fun range _ =>
    List.length_filterMap_le _ range
  have of_dynamic := at_most file.dynamicSymbols SF_Undefined
  have of_symbols := at_most file.symbols flags
  rw [collectSymbols, List.length_append, if_pos elf]
  omega

def pluginFiles : AutoloadFiles Nat where
  stat := fun path => if path = ['/', 'l', '/', 'a'] then some 0 else none
  NormalizePath := fun path => if path = ['/', 'l', '/', 'a'] then path else []
  isSharedLibrary := fun path => path = ['/', 'l', '/', 'a']
  dlopen := fun path => if path = ['/', 'l', '/', 'a'] then some 0 else none
  getMainExecutable := ['/', 'm']
  m_SearchPaths := [['/', 'l']]
  stat_empty := rfl
  canonical := by
    intro path named
    by_cases known : path = ['/', 'l', '/', 'a']
    · simp [known]
    · simp [known] at named
  getSearchPaths := [{ Path := ['/', 'l'], IsUser := true }]
  cached_realpath := fun path =>
    if path = ['/', 'l'] ∨ path = ['/', 'l', '/', 'a'] then path else []
  is_directory := fun path => path = ['/', 'l']
  directory_iterator := fun path =>
    if path = ['/', 'l'] then [(['/', 'l', '/', 'a'], .regular_file)] else []
  createObjectFile := fun path => if path = ['/', 'l', '/', 'a'] then some plugin else none
  m_ExecutableFormat := "elf64-x86-64"
  m_ShouldPermanentlyIgnoreCallback := fun _ => false
  bloomSize := eighth
  sharedNames := [['/', 'l', '/', 'a']]
  search_paths := rfl
  shared_stat := by
    intro path shared
    simpa using shared
  shared_named := by
    intro path shared
    obtain rfl : path = ['/', 'l', '/', 'a'] := by simpa using shared
    exact List.mem_cons_self
  shared_plain := by
    intro path shared
    obtain rfl : path = ['/', 'l', '/', 'a'] := by simpa using shared
    exact Or.inr ⟨['/', 'l'], ['a'], rfl, by decide, by decide, by decide⟩
  listed_plain := by
    intro path entry member
    generalize (if path = ['/', 'l'] ∨ path = ['/', 'l', '/', 'a'] then path else []) = directory
      at member
    obtain ⟨_, rfl⟩ : directory = ['/', 'l'] ∧ entry = (['/', 'l', '/', 'a'], .regular_file) := by
      simpa using member
    exact ⟨['/', 'l'], ['a'], rfl, by decide, by decide, by decide⟩
  resolved_plain := by
    intro path not_directory
    by_cases library : path = ['/', 'l', '/', 'a']
    · refine Or.inr ⟨['/', 'l'], ['a'], ?_, by decide, by decide, by decide⟩
      rw [library]
      decide
    · by_cases directory : path = ['/', 'l']
      · simp [directory] at not_directory
      · exact Or.inl (if_neg (by simp [library, directory]))
  sized := fun n _ => eighth_pos n
  counted := by
    intro path file opened flags
    obtain ⟨_, rfl⟩ : path = ['/', 'l', '/', 'a'] ∧ plugin = file := by simpa using opened
    exact single_counted rfl rfl rfl flags

theorem plugin_listed : OnSearchPath pluginFiles false ['/', 'l', '/', 'a'] :=
  ⟨_, List.mem_cons_self, by decide, rfl, by decide, _, List.mem_cons_self, Or.inl ⟨rfl, rfl⟩⟩

theorem plugin_candidate : Candidate pluginFiles ['/', 'l', '/', 'a'] :=
  ⟨rfl, plugin, rfl, rfl, fun _ => ⟨rfl, _, rfl, rfl, rfl⟩, nofun⟩

theorem plugin_defines : DefinesSymbol pluginFiles false ['/', 'l', '/', 'a'] [103] :=
  ⟨plugin, rfl, fun _ => rfl, nofun, Or.inr (Or.inl ⟨rfl, _, List.mem_cons_self, rfl, rfl⟩)⟩

/-- A search, the load of what it returned, and another search. -/
theorem plugin_loaded_on_demand :
    Runs.EveryStep (step pluginFiles) (Permitted pluginFiles) {}
        [.searchLibrariesForSymbol [103] true, .library (.loadLibrary ['/', 'l', '/', 'a'] false),
          .searchLibrariesForSymbol [120] true] ∧
      Runs.EveryStep (step pluginFiles) (Right pluginFiles) {}
        [.searchLibrariesForSymbol [103] true, .library (.loadLibrary ['/', 'l', '/', 'a'] false),
          .searchLibrariesForSymbol [120] true] := by
  have permitted : Runs.EveryStep (step pluginFiles) (Permitted pluginFiles) {}
      [.searchLibrariesForSymbol [103] true, .library (.loadLibrary ['/', 'l', '/', 'a'] false),
        .searchLibrariesForSymbol [120] true] := by
    have searches : ∀ (state : Autoloader Nat) mangledName searchSystem,
        state.Permitted pluginFiles (.searchLibrariesForSymbol mangledName searchSystem) := by
      intro state mangledName searchSystem
      refine ⟨fun P _ before after => ?_, fun _ _ _ _ before after => ?_⟩
      · cases before.symm.trans after
      · cases before.symm.trans after
    refine ⟨searches _ _ _, ⟨fun P registered _ _ => ?_, fun _ _ _ _ loaded _ => ?_⟩,
      searches _ _ _, trivial⟩
    · have asked : ∀ P ∈ (({} : Autoloader Nat).step pluginFiles
          (.searchLibrariesForSymbol [103] true)).dyld.m_Libraries ++
            (({} : Autoloader Nat).step pluginFiles
              (.searchLibrariesForSymbol [103] true)).dyld.m_SysLibraries,
          (({} : Autoloader Nat).step pluginFiles
            (.searchLibrariesForSymbol [103] true)).dyld.m_QueriedLibraries.HasRegisteredLib P =
              true := by
        decide
      exact asked P (List.mem_append.mpr registered)
    · cases loaded
  exact ⟨permitted, autoload_searches_right pluginFiles _ permitted⟩

/-- Loaded at the first search, the library is missed for good, and one that is loaded after it
has been registered is returned. -/
theorem plugin_missed :
    ¬Runs.EveryStep (step pluginFiles) (Right pluginFiles) {}
        [.library (.loadLibrary ['/', 'l', '/', 'a'] false), .searchLibrariesForSymbol [120] true,
          .library (.unloadLibrary ['/', 'l', '/', 'a']), .searchLibrariesForSymbol [103] true] ∧
      ¬Runs.EveryStep (step pluginFiles) (Right pluginFiles) {}
        [.searchLibrariesForSymbol [120] true, .library (.loadLibrary ['/', 'l', '/', 'a'] false),
          .searchLibrariesForSymbol [103] true] := by
  constructor
  · rintro ⟨_, _, _, right, _⟩
    have found := right.2 rfl false _ plugin_listed plugin_candidate (by decide) plugin_defines
    exact found (by decide)
  · rintro ⟨_, _, right, _⟩
    have free := right.1 (by decide)
    revert free
    decide

def dependent (symbol : SymbolName) (dep : PathName) : LibraryFile :=
  { plugin with
    dynamicSymbols := [{ Flags := SF_Global, name := some symbol }]
    RPath := [['/', 'p']]
    Deps := [dep] }

/-- `/l/a` and `/p/b` depend on each other, and only the directory of the first is searched. -/
def mutualFiles : AutoloadFiles Nat where
  stat := fun path =>
    if path = ['/', 'l', '/', 'a'] then some 0 else if path = ['/', 'p', '/', 'b'] then some 1
    else none
  NormalizePath := fun path =>
    if path = ['/', 'l', '/', 'a'] ∨ path = ['/', 'p', '/', 'b'] then path else []
  isSharedLibrary := fun path => path = ['/', 'l', '/', 'a'] ∨ path = ['/', 'p', '/', 'b']
  dlopen := fun path =>
    if path = ['/', 'l', '/', 'a'] then some 0 else if path = ['/', 'p', '/', 'b'] then some 1
    else none
  getMainExecutable := ['/', 'm']
  m_SearchPaths := [['/', 'l']]
  stat_empty := rfl
  canonical := by
    intro path named
    by_cases known : path = ['/', 'l', '/', 'a'] ∨ path = ['/', 'p', '/', 'b']
    · rcases known with rfl | rfl
      · exact ⟨by decide, by decide⟩
      · exact ⟨by decide, by decide⟩
    · exact absurd (if_neg known) named
  getSearchPaths := [{ Path := ['/', 'l'], IsUser := true }]
  cached_realpath := fun path => if path = ['/', 'l'] then path else []
  is_directory := fun path => path = ['/', 'l']
  directory_iterator := fun path =>
    if path = ['/', 'l'] then [(['/', 'l', '/', 'a'], .regular_file)] else []
  createObjectFile := fun path =>
    if path = ['/', 'l', '/', 'a'] then some (dependent [103] ['b'])
    else if path = ['/', 'p', '/', 'b'] then some (dependent [104] ['a'])
    else none
  m_ExecutableFormat := "elf64-x86-64"
  m_ShouldPermanentlyIgnoreCallback := fun _ => false
  bloomSize := eighth
  sharedNames := [['/', 'l', '/', 'a'], ['/', 'p', '/', 'b']]
  search_paths := rfl
  shared_stat := by
    intro path shared
    rcases of_decide_eq_true shared with rfl | rfl
    · decide
    · decide
  shared_named := by
    intro path shared
    rcases of_decide_eq_true shared with rfl | rfl
    · decide
    · decide
  shared_plain := by
    intro path shared
    rcases of_decide_eq_true shared with rfl | rfl
    · exact Or.inr ⟨['/', 'l'], ['a'], rfl, by decide, by decide, by decide⟩
    · exact Or.inr ⟨['/', 'p'], ['b'], rfl, by decide, by decide, by decide⟩
  listed_plain := by
    intro path entry member
    generalize (if path = ['/', 'l'] then path else []) = directory at member
    obtain ⟨_, rfl⟩ : directory = ['/', 'l'] ∧ entry = (['/', 'l', '/', 'a'], .regular_file) := by
      simpa using member
    exact ⟨['/', 'l'], ['a'], rfl, by decide, by decide, by decide⟩
  resolved_plain := by
    intro path not_directory
    by_cases directory : path = ['/', 'l']
    · simp [directory] at not_directory
    · exact Or.inl (if_neg directory)
  sized := fun n _ => eighth_pos n
  counted := by
    intro path file opened flags
    rw [Option.mem_def] at opened
    split at opened
    · exact Option.some.inj opened ▸ single_counted rfl rfl rfl flags
    · split at opened
      · exact Option.some.inj opened ▸ single_counted rfl rfl rfl flags
      · cases opened

example : (({} : Dyld).searchLibrariesForSymbol mutualFiles {} [104] false).1 =
    ['/', 'p', '/', 'b'] := by decide

end Examples

end Autoloader

end CppInterOp
