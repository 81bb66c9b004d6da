import CppInterOp.AutoloadSearch

/-!
Scans that watch themselves: every scan that a search can make comes to its end without
registering a library twice, and a library is in one register at most once.
-/

namespace CppInterOp

/-- What could go wrong in a scan: it recurses without end, or `RegisterLib` asserts. -/
inductive ScanFault
  | endless
  | alreadyRegistered
  deriving DecidableEq, Repr

namespace Dyld

def registeredKeys (dyld : Dyld) : List (PathName × PathName) :=
  (dyld.m_Libraries ++ dyld.m_SysLibraries).map ScannedLib.key

def Once (dyld : Dyld) : Prop := dyld.registeredKeys.Nodup

section Watched

variable {File : Type} (files : AutoloadFiles File) (DLM : DynamicLibraryManager File)
variable (searchSystemLibraries : Bool)

def register (dyld : Dyld) (Lib : ScannedLib) : Except ScanFault Dyld :=
  let libraries := if searchSystemLibraries then dyld.m_SysLibraries else dyld.m_Libraries
  if libraries.HasRegisteredLib Lib then .error .alreadyRegistered
  else .ok (dyld.RegisterLib searchSystemLibraries Lib)

/-- `HandleLib`, which fails if it nests deeper than `fuel`. -/
def watchLib : Nat → Nat → PathName → Dyld → Except ScanFault Dyld
  | 0, _, _, _ => .error .endless
  | fuel + 1, level, FileName, dyld =>
      let LibPath := ScannedLib.ofFile FileName
      if dyld.m_SysLibraries.HasRegisteredLib LibPath ||
          dyld.m_Libraries.HasRegisteredLib LibPath then .ok dyld
      else if ShouldPermanentlyIgnore files DLM FileName then .ok dyld
      else
        (dyld.register searchSystemLibraries LibPath).bind fun registered =>
          match files.createObjectFile FileName with
          | none => .ok registered
          | some file =>
              if level == 0 && (file.isELF && file.isPIEExecutable) then
                .ok (registered.UnregisterLib searchSystemLibraries LibPath)
              else (handledDeps files file).foldlM
                (fun dyld dep => watchLib fuel (level + 1)
                  (lookupLibrary files.toLibraryFiles dep file.RPath file.RunPath FileName false)
                  dyld)
                registered

def watchEntry (dyld : Dyld) (entry : PathName × FileType) : Except ScanFault Dyld :=
  match entry.2 with
  | .regular_file => watchLib files DLM searchSystemLibraries (depth files) 0 entry.1 dyld
  | .symlink_file =>
      let DepFileName := files.cached_realpath entry.1
      if files.is_directory DepFileName then .ok dyld
      else watchLib files DLM searchSystemLibraries (depth files) 0 DepFileName dyld
  | .other => .ok dyld

def watchPath (state : List PathName × Dyld) (Info : SearchPathInfo) :
    Except ScanFault (List PathName × Dyld) :=
  if Info.IsUser == searchSystemLibraries then .ok state
  else
    let RealPath := files.cached_realpath Info.Path
    if !files.is_directory RealPath || RealPath.isEmpty then .ok state
    else if state.1.contains RealPath then .ok state
    else
      ((files.directory_iterator RealPath).foldlM (watchEntry files DLM searchSystemLibraries)
        state.2).map fun scanned => (RealPath :: state.1, scanned)

def watchScan (dyld : Dyld) : Except ScanFault Dyld :=
  (files.getSearchPaths.foldlM (watchPath files DLM searchSystemLibraries) ([], dyld)).map Prod.snd

end Watched

section Ends

variable {File : Type} {files : AutoloadFiles File} {DLM : DynamicLibraryManager File}
variable {searchSystemLibraries : Bool}

theorem foldlM_ok {State Item : Type} {watch : State → Item → Except ScanFault State}
    {handle : State → Item → State} {items : List Item} (inv : State → Prop)
    (right : ∀ state, ∀ item ∈ items, inv state →
      watch state item = .ok (handle state item) ∧ inv (handle state item))
    {state : State} (start : inv state) :
    items.foldlM watch state = .ok (items.foldl handle state) ∧ inv (items.foldl handle state) := by
  induction items generalizing state with
  | nil => exact ⟨rfl, start⟩
  | cons item items ih =>
      obtain ⟨here, next⟩ := right state item List.mem_cons_self start
      rw [List.foldlM_cons, here]
      exact ih (fun state other member => right state other (List.mem_cons_of_mem _ member)) next

theorem foldlM_always {State Item : Type} {watch : State → Item → Except ScanFault State}
    {handle : State → Item → State} {items : List Item}
    (right : ∀ state, ∀ item ∈ items, watch state item = .ok (handle state item)) (state : State) :
    items.foldlM watch state = .ok (items.foldl handle state) :=
  (foldlM_ok (fun _ => True) (fun state item member _ => ⟨right state item member, trivial⟩)
    trivial).1

theorem register_ok {dyld : Dyld} {Lib : ScannedLib}
    (absent : ¬(dyld.m_SysLibraries.HasRegisteredLib Lib ||
      dyld.m_Libraries.HasRegisteredLib Lib) = true) :
    dyld.register searchSystemLibraries Lib = .ok (dyld.RegisterLib searchSystemLibraries Lib) := by
  rw [Bool.not_eq_true, Bool.or_eq_false_iff] at absent
  rw [register]
  cases searchSystemLibraries with
  | false => simp [absent.2]
  | true => simp [absent.1]

theorem watchLib_empty (fuel level : Nat) (dyld : Dyld) :
    watchLib files DLM searchSystemLibraries (fuel + 1) level [] dyld = .ok dyld := by
  rw [watchLib]
  simp only [ignores_empty, if_true, ite_self]

theorem nesting_pos {dyld : Dyld} {FileName : PathName} (missing : ¬dyld.Covers FileName) :
    0 < nesting files dyld FileName := by
  rw [nesting]
  by_cases shared : FileName ∈ files.sharedNames
  · have member := mem_unregistered.mpr ⟨shared, missing⟩
    have positive := Finset.card_pos.mpr ⟨FileName, member⟩
    omega
  · rw [if_neg shared]
    omega

theorem watchDeps_ok {fuel level : Nat} {FileName : PathName} {file : LibraryFile}
    {dyld registered : Dyld}
    (inner : ∀ name state, name = [] ∨ PlainName name → nesting files state name < fuel →
      watchLib files DLM searchSystemLibraries fuel (level + 1) name state =
        .ok (HandleLib files DLM searchSystemLibraries fuel (level + 1) name state))
    (adds : Adds files DLM searchSystemLibraries dyld registered) (missing : ¬dyld.Covers FileName)
    (covers : registered.Covers FileName) (enough : nesting files dyld FileName < fuel + 1) :
    (handledDeps files file).foldlM
        (fun dyld dep => watchLib files DLM searchSystemLibraries fuel (level + 1)
          (lookupLibrary files.toLibraryFiles dep file.RPath file.RunPath FileName false) dyld)
        registered =
      .ok (handleDeps files DLM searchSystemLibraries fuel level FileName file registered) := by
  refine (foldlM_ok (fun state => Adds files DLM searchSystemLibraries dyld state ∧
    state.Covers FileName) (fun state dep _ before => ?_) ⟨adds, covers⟩).1
  have named := lookupLibrary_plain files dep file.RPath file.RunPath FileName
  have later : Adds files DLM searchSystemLibraries state
      (HandleLib files DLM searchSystemLibraries fuel (level + 1)
        (lookupLibrary files.toLibraryFiles dep file.RPath file.RunPath FileName false) state) :=
    HandleLib_adds fuel (level + 1) named state
  refine ⟨?_, before.1.trans later, before.2.later later⟩
  rcases lookupLibrary_dep files dep file.RPath file.RunPath FileName with
    none | ⟨path, shared, found⟩
  · rw [none, HandleLib_empty]
    have positive : 0 < nesting files dyld FileName := nesting_pos missing
    obtain ⟨less, rfl⟩ : ∃ less, fuel = less + 1 := Nat.exists_eq_succ_of_ne_zero (by omega)
    exact watchLib_empty less (level + 1) state
  · refine inner _ state named ?_
    have dep_shared : lookupLibrary files.toLibraryFiles dep file.RPath file.RunPath FileName
        false ∈ files.sharedNames := by
      rw [found]
      exact files.shared_named path shared
    have less := nesting_dep before.1 missing before.2 dep_shared
    omega

/-- The libraries that are registered bound the recursion, and one that is handled has not been
registered before. -/
theorem watchLib_ok (fuel level : Nat) {FileName : PathName}
    (named : FileName = [] ∨ PlainName FileName) (dyld : Dyld)
    (enough : nesting files dyld FileName < fuel) :
    watchLib files DLM searchSystemLibraries fuel level FileName dyld =
      .ok (HandleLib files DLM searchSystemLibraries fuel level FileName dyld) := by
  induction fuel generalizing level FileName dyld with
  | zero => exact absurd enough (Nat.not_lt_zero _)
  | succ fuel ih =>
      rw [HandleLib_eq fuel level FileName dyld, watchLib]
      simp only
      split
      next _ => rfl
      next absent =>
          split
          next _ => rfl
          next kept =>
              rw [Bool.not_eq_true] at kept
              have plain : PlainName FileName := by
                rcases named with rfl | plain
                · cases kept.symm.trans ignores_empty
                · exact plain
              have missing : ¬dyld.Covers FileName := fun covers => absent (covers_iff.mp covers)
              have adds : Adds files DLM searchSystemLibraries dyld
                  (dyld.RegisterLib searchSystemLibraries (ScannedLib.ofFile FileName)) :=
                adds_RegisterLib searchSystemLibraries (fresh_ofFile plain kept) dyld
              have covers : (dyld.RegisterLib searchSystemLibraries
                  (ScannedLib.ofFile FileName)).Covers FileName := covers_RegisterLib dyld FileName
              rw [register_ok absent]
              cases files.createObjectFile FileName with
              | none => rfl
              | some file =>
                  cases executable : level == 0 && (file.isELF && file.isPIEExecutable) with
                  | true => simp [Except.bind, executable]
                  | false =>
                      simp only [Except.bind, executable, Bool.false_eq_true, if_false]
                      exact watchDeps_ok (fun name state named less =>
                        ih (level + 1) named state less) adds missing covers enough

theorem nesting_depth (dyld : Dyld) (FileName : PathName) :
    nesting files dyld FileName < depth files := by
  have few : (unregistered files dyld).card ≤ files.sharedNames.length :=
    (Finset.card_filter_le _ _).trans (List.toFinset_card_le _)
  rw [nesting, depth]
  split <;> omega

theorem watchEntry_ok {path : PathName} {entry : PathName × FileType}
    (listed : entry ∈ files.directory_iterator (files.cached_realpath path)) (dyld : Dyld) :
    watchEntry files DLM searchSystemLibraries dyld entry =
      .ok (handleEntry files DLM searchSystemLibraries dyld entry) := by
  rw [watchEntry, handleEntry]
  cases entry.2 with
  | regular_file =>
      exact watchLib_ok _ _ (Or.inr (files.listed_plain path entry listed)) dyld
        (nesting_depth dyld _)
  | symlink_file =>
      simp only
      split
      next _ => rfl
      next not_directory =>
          exact watchLib_ok _ _ (files.resolved_plain entry.1 (Bool.not_eq_true _ ▸ not_directory))
            dyld (nesting_depth dyld _)
  | other => rfl

theorem watchPath_ok (state : List PathName × Dyld) (Info : SearchPathInfo) :
    watchPath files DLM searchSystemLibraries state Info =
      .ok (scanPath files DLM searchSystemLibraries state Info) := by
  rw [watchPath, scanPath]
  simp only
  split
  · rfl
  · split
    · rfl
    · split
      · rfl
      · rw [foldlM_always (fun dyld entry listed => watchEntry_ok listed dyld) state.2]
        rfl

theorem watchScan_ok (dyld : Dyld) : watchScan files DLM searchSystemLibraries dyld =
    .ok (ScanForLibraries files DLM searchSystemLibraries dyld) := by
  rw [watchScan, foldlM_always (fun state Info _ => watchPath_ok state Info) ([], dyld)]
  rfl

end Ends

section Once

variable {File : Type} {files : AutoloadFiles File} {DLM : DynamicLibraryManager File}
variable {searchSystemLibraries : Bool} {dyld later : Dyld}

theorem start_once : Once {} := List.nodup_nil

theorem Once.of_keys (once : dyld.Once) (same : later.registeredKeys = dyld.registeredKeys) :
    later.Once := by
  rw [Once, same]
  exact once

theorem Once.of_sublist (once : dyld.Once)
    (fewer : later.registeredKeys.Sublist dyld.registeredKeys) : later.Once :=
  once.sublist fewer

theorem Once.register (once : dyld.Once) {FileName : PathName} (missing : ¬dyld.Covers FileName) :
    (dyld.RegisterLib searchSystemLibraries (ScannedLib.ofFile FileName)).Once := by
  have absent : (ScannedLib.ofFile FileName).key ∉ dyld.registeredKeys := by
    intro member
    obtain ⟨P, registered, same⟩ := List.mem_map.mp member
    exact missing ⟨P, List.mem_append.mp registered, same⟩
  have fresh : ((ScannedLib.ofFile FileName).key :: dyld.registeredKeys).Nodup :=
    List.nodup_cons.mpr ⟨absent, once⟩
  refine (List.Perm.nodup_iff ?_).mpr fresh
  cases searchSystemLibraries with
  | false =>
      simp only [registeredKeys, RegisterLib, LibraryPaths.RegisterLib, Bool.false_eq_true, if_false,
        List.append_assoc, List.map_append, List.map_cons, List.map_nil]
      exact List.perm_middle
  | true =>
      simp only [registeredKeys, RegisterLib, LibraryPaths.RegisterLib, if_true, ← List.append_assoc,
        List.map_append, List.map_cons, List.map_nil]
      exact List.perm_append_singleton _ _

theorem HandleLib_once (fuel level : Nat) (FileName : PathName) (once : dyld.Once) :
    (HandleLib files DLM searchSystemLibraries fuel level FileName dyld).Once := by
  induction fuel generalizing level FileName dyld with
  | zero => exact once
  | succ fuel ih =>
      rw [HandleLib]
      simp only
      split
      next _ => exact once
      next absent =>
          split
          next _ => exact once
          next _ =>
              have missing : ¬dyld.Covers FileName := fun covers => absent (covers_iff.mp covers)
              have registered : (dyld.RegisterLib searchSystemLibraries
                  (ScannedLib.ofFile FileName)).Once := once.register missing
              split
              next _ => exact registered
              next file _ =>
                  split
                  next _ =>
                      rw [Bool.not_eq_true, Bool.or_eq_false_iff] at absent
                      rw [register_unregister absent.1 absent.2]
                      exact once
                  next _ =>
                      exact List.foldlRecOn (motive := Once) _ _ registered
                        fun state before dep _ => ih (level + 1) _ before

theorem handleEntry_once (once : dyld.Once) (entry : PathName × FileType) :
    (handleEntry files DLM searchSystemLibraries dyld entry).Once := by
  rw [handleEntry]
  cases entry.2 with
  | regular_file => exact HandleLib_once _ _ _ once
  | symlink_file =>
      simp only
      split
      · exact once
      · exact HandleLib_once _ _ _ once
  | other => exact once

theorem scanPath_once {state : List PathName × Dyld} (once : state.2.Once) (Info : SearchPathInfo) :
    (scanPath files DLM searchSystemLibraries state Info).2.Once := by
  rw [scanPath]
  simp only
  split
  · exact once
  · split
    · exact once
    · split
      · exact once
      · exact List.foldlRecOn (motive := Once) _ _ once
          fun state before entry _ => handleEntry_once before entry

theorem ScanForLibraries_once (once : dyld.Once) :
    (ScanForLibraries files DLM searchSystemLibraries dyld).Once :=
  List.foldlRecOn (motive := fun state : List PathName × Dyld => state.2.Once) _ _ once
    fun _ before Info _ => scanPath_once before Info

theorem Once.unregister (once : dyld.Once) (Lib : ScannedLib)
    (user : later.m_Libraries = dyld.m_Libraries.UnregisterLib Lib)
    (system : later.m_SysLibraries = dyld.m_SysLibraries.UnregisterLib Lib) : later.Once := by
  refine once.of_sublist (List.Sublist.map _ ?_)
  rw [user, system]
  exact List.filter_sublist.append List.filter_sublist

theorem forgetLoaded_once (once : dyld.Once) : (dyld.forgetLoaded files DLM).Once := by
  refine List.foldlRecOn (motive := Once) _ _ once fun state before P _ => ?_
  split
  · exact before.unregister P rfl rfl
  · exact before

theorem findSymbol_keys (query : SymbolQuery) (libraries : LibraryPaths) :
    (findSymbol files query libraries).2.map ScannedLib.key = libraries.map ScannedLib.key := by
  induction libraries with
  | nil => rfl
  | cons P rest ih =>
      rw [findSymbol]
      simp only
      split
      · rfl
      · exact congrArg (P.key :: ·) ih

theorem Once.looked (once : dyld.Once)
    (user : later.m_Libraries.map ScannedLib.key = dyld.m_Libraries.map ScannedLib.key)
    (system : later.m_SysLibraries.map ScannedLib.key = dyld.m_SysLibraries.map ScannedLib.key) :
    later.Once := by
  apply once.of_keys
  rw [registeredKeys, registeredKeys, List.map_append, List.map_append, user, system]

theorem lookUser_once (once : dyld.Once) (query : SymbolQuery) :
    Once { dyld with m_Libraries := (findSymbol files query dyld.m_Libraries).2 } :=
  once.looked (findSymbol_keys _ _) rfl

theorem lookSystem_once (once : dyld.Once) (query : SymbolQuery) :
    Once { dyld with m_SysLibraries := (findSymbol files query dyld.m_SysLibraries).2 } :=
  once.looked rfl (findSymbol_keys _ _)

theorem remember_once (once : dyld.Once) (P : ScannedLib) : (dyld.remember P).Once := by
  rw [remember]
  split
  · exact once
  · exact once

theorem prepareUser_once (once : dyld.Once) : (dyld.prepareUser files DLM).Once := by
  rw [prepareUser]
  apply forgetLoaded_once
  split
  · exact ScanForLibraries_once once
  · exact once

theorem prepareSystem_once (once : dyld.Once) : (dyld.prepareSystem files DLM).Once := by
  rw [prepareSystem]
  split
  · exact ScanForLibraries_once once
  · exact once

theorem search_once (once : dyld.Once) (mangledName : SymbolName) (searchSystem : Bool) :
    (dyld.searchLibrariesForSymbol files DLM mangledName searchSystem).2.Once := by
  rw [searchLibrariesForSymbol]
  simp only
  have user : Once { dyld.prepareUser files DLM with
      m_Libraries := (findSymbol files ⟨mangledName, SF_Undefined⟩
        (dyld.prepareUser files DLM).m_Libraries).2 } :=
    lookUser_once (prepareUser_once once) _
  split
  · exact remember_once user _
  · split
    · exact user
    · split
      · exact remember_once (lookSystem_once (prepareSystem_once user) _) _
      · exact lookSystem_once (prepareSystem_once user) _

end Once

end Dyld

namespace Autoloader

variable {File : Type} [DecidableEq File]

/-- Both scans come to their end from here without a library being registered twice, and leave
every library registered at most once. -/
def ScansSafely (files : AutoloadFiles File) (state : Autoloader File) : Prop :=
  state.dyld.Once ∧ ∀ searchSystemLibraries,
    Dyld.watchScan files state.DLM searchSystemLibraries state.dyld =
        .ok (Dyld.ScanForLibraries files state.DLM searchSystemLibraries state.dyld) ∧
      (Dyld.ScanForLibraries files state.DLM searchSystemLibraries state.dyld).Once

theorem scans_register_once (files : AutoloadFiles File) (ops : List AutoloadOp) :
    Runs.EveryState (step files) (ScansSafely files) {} ops := by
  have once : Runs.EveryState (step files) (fun state => state.dyld.Once) {} ops := by
    refine Runs.everyState_of_invariant (fun state : Autoloader File => state.dyld.Once)
      Dyld.start_once (fun state op before _ => ?_) (Runs.everyStep_of_forall fun _ _ => trivial)
    cases op with
    | library op => exact before
    | searchLibrariesForSymbol mangledName searchSystem =>
        exact Dyld.search_once before mangledName searchSystem
  exact once.imp fun state before =>
    ⟨before, fun _ => ⟨Dyld.watchScan_ok state.dyld, Dyld.ScanForLibraries_once before⟩⟩

/-- Each of two libraries that depend on each other is registered once. -/
example : (Dyld.ScanForLibraries mutualFiles {} false {}).m_Libraries.map ScannedLib.GetFullName =
    [['/', 'l', '/', 'a'], ['/', 'p', '/', 'b']] := by decide

end Autoloader

end CppInterOp
