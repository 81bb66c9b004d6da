import Mathlib
import CppInterOp.EmulatedTLSCore

/-!
`bindProcessWeakGlobals`: the globals of an ELF module that it turns into declarations, and
what it makes of the used lists.
-/

namespace CppInterOp

namespace WeakGlobals

abbrev SymbolName := List Char

inductive UsedConstant where
  | object (address : Address)
  | cast (operand : UsedConstant)
  deriving DecidableEq

def UsedConstant.stripPointerCasts : UsedConstant → Address
  | object address => address
  | cast operand => operand.stripPointerCasts

inductive Initializer where
  | array (operands : List UsedConstant)
  | other (value : Nat)
  deriving DecidableEq

inductive Visibility where
  | DefaultVisibility
  | HiddenVisibility
  | ProtectedVisibility
  deriving DecidableEq

structure WeakGlobal where
  address : Address
  name : SymbolName
  initializer : Option Initializer
  linkage : Linkage
  isThreadLocal : Bool
  isConstant : Bool
  comdat : Option SymbolName
  visibility : Visibility
  isDSOLocal : Bool
  sectionName : SymbolName
  deriving DecidableEq

namespace WeakGlobal

variable (GV : WeakGlobal)

def isDeclaration : Bool := GV.initializer.isNone

def demote : WeakGlobal :=
  { GV with
    initializer := none, linkage := .externalLinkage, comdat := none
    visibility := .DefaultVisibility, isDSOLocal := false }

end WeakGlobal

structure WeakModule where
  isOSBinFormatELF : Bool
  globals : List WeakGlobal
  deriving DecidableEq

def usedLists : List SymbolName := ["llvm.used".toList, "llvm.compiler.used".toList]

namespace WeakModule

variable (M : WeakModule)

def named (name : SymbolName) : List WeakGlobal := M.globals.filter (·.name = name)

def getNamedGlobal (name : SymbolName) : Option WeakGlobal := (M.named name).head?

section

variable (ProcessHas : SymbolName → Bool)

def guard? (GV : WeakGlobal) : Option WeakGlobal :=
  if "_Z".toList <+: GV.name then
    (M.getNamedGlobal ("_ZGV".toList ++ GV.name.drop 2)).filter fun G => !G.isDeclaration
  else none

def demotes (GV : WeakGlobal) : List WeakGlobal :=
  if GV.isDeclaration || !GV.linkage.isWeakForLinker || GV.isThreadLocal || GV.isConstant then []
  else if "_ZGV".toList <+: GV.name then []
  else if !ProcessHas GV.name then []
  else
    match M.guard? GV with
    | some G => if !ProcessHas G.name then [] else [GV, G]
    | none => [GV]

def Demoted : List Address := (M.globals.flatMap (M.demotes ProcessHas)).map (·.address)

end

def eraseNamed (name : SymbolName) : WeakModule :=
  { M with globals := M.globals.eraseP (·.name = name) }

/-- One round of the loop over the used lists; `fresh` is where a new list is allocated. -/
def dropUsed (fresh : SymbolName → Address) (demoted : List Address) (ListName : SymbolName) :
    WeakModule :=
  match M.getNamedGlobal ListName with
  | some Used =>
      match Used.initializer with
      | some (.array operands) =>
          let Kept := operands.filter fun C => C.stripPointerCasts ∉ demoted
          if Kept.length = operands.length then M
          else if Kept = [] then M.eraseNamed ListName
          else
            let NewUsed : WeakGlobal :=
              { address := fresh ListName, name := ListName, initializer := some (.array Kept)
                linkage := .appendingLinkage, isThreadLocal := false, isConstant := false
                comdat := none, visibility := .DefaultVisibility, isDSOLocal := false
                sectionName := "llvm.metadata".toList }
            { M with globals := (M.eraseNamed ListName).globals ++ [NewUsed] }
      | _ => M
  | none => M

def demoteAll (demoted : List Address) : WeakModule :=
  { M with globals := M.globals.map fun GV => if GV.address ∈ demoted then GV.demote else GV }

end WeakModule

def bindProcessWeakGlobals (ProcessHas : SymbolName → Bool) (fresh : SymbolName → Address)
    (M : WeakModule) : WeakModule × Bool :=
  if !M.isOSBinFormatELF then (M, false)
  else
    let demoted := M.Demoted ProcessHas
    if demoted = [] then (M, false)
    else
      (usedLists.foldl (fun M ListName => M.dropUsed fresh demoted ListName)
        (M.demoteAll demoted), true)

/-- The symbol table and the verifier: names and addresses are unique, and a used list is declared
only, or an appending array. -/
structure WeakModule.Valid (M : WeakModule) : Prop where
  names : ((M.globals.filter (·.name ≠ [])).map (·.name)).Nodup
  addresses : (M.globals.map (·.address)).Nodup
  used : ∀ Used ∈ M.globals, Used.name ∈ usedLists → Used.initializer = none ∨
    Used.linkage = .appendingLinkage ∧ ∃ operands, Used.initializer = some (.array operands)

def IsGuardOf (G GV : WeakGlobal) : Prop :=
  "_Z".toList <+: GV.name ∧ G.name = "_ZGV".toList ++ GV.name.drop 2

instance (G GV : WeakGlobal) : Decidable (IsGuardOf G GV) :=
  inferInstanceAs (Decidable (_ ∧ _))

section

variable (ProcessHas : SymbolName → Bool) (M : WeakModule)

/-- A weak, mutable definition that is no thread_local and no guard, exported by the process
together with its guard if the module defines one. -/
def IsShared (GV : WeakGlobal) : Prop :=
  GV.linkage.isWeakForLinker = true ∧ GV.isConstant = false ∧ GV.isThreadLocal = false ∧
    ¬"_ZGV".toList <+: GV.name ∧ GV.isDeclaration = false ∧ ProcessHas GV.name = true ∧
    ∀ G ∈ M.globals, IsGuardOf G GV → G.isDeclaration = false → ProcessHas G.name = true

instance (GV : WeakGlobal) : Decidable (IsShared ProcessHas M GV) :=
  inferInstanceAs (Decidable (_ ∧ _))

/-- The globals that are to be declared only: the shared ones and the guards the module defines
for them. -/
def IsBound (G : WeakGlobal) : Prop :=
  IsShared ProcessHas M G ∨
    (G.isDeclaration = false ∧ ∃ GV ∈ M.globals, IsShared ProcessHas M GV ∧ IsGuardOf G GV)

instance (G : WeakGlobal) : Decidable (IsBound ProcessHas M G) :=
  inferInstanceAs (Decidable (_ ∨ _))

end

namespace WeakModule

variable (M : WeakModule)

def plain : List WeakGlobal := M.globals.filter (·.name ∉ usedLists)

def usedOperands (ListName : SymbolName) : List UsedConstant :=
  match M.getNamedGlobal ListName with
  | some ⟨_, _, some (.array operands), _, _, _, _, _, _, _⟩ => operands
  | _ => []

def refersToBound (ProcessHas : SymbolName → Bool) (C : UsedConstant) : Bool :=
  decide (∃ G ∈ M.globals, IsBound ProcessHas M G ∧ G.address = C.stripPointerCasts)

section

variable {M} (valid : M.Valid)
include valid

theorem Valid.named_length {name : SymbolName} (text : name ≠ []) :
    (M.named name).length ≤ 1 := by
  have within : (M.named name).Sublist (M.globals.filter (·.name ≠ [])) := by
    have narrowed : M.named name = (M.globals.filter (·.name ≠ [])).filter (·.name = name) := by
      rw [named, List.filter_filter]
      refine List.filter_congr fun GV _ => ?_
      by_cases called : GV.name = name
      · simp [called, text]
      · simp [called]
    rw [narrowed]
    exact List.filter_sublist
  have same : (M.named name).map (·.name) = List.replicate (M.named name).length name := by
    refine List.eq_replicate_iff.mpr ⟨List.length_map .., ?_⟩
    intro other member
    obtain ⟨GV, found, rfl⟩ := List.mem_map.mp member
    exact of_decide_eq_true (List.mem_filter.mp found).2
  have distinct := (within.map (·.name)).nodup valid.names
  rw [same] at distinct
  exact List.nodup_replicate.mp distinct

theorem Valid.named_eq {G : WeakGlobal} {name : SymbolName} (text : name ≠ [])
    (present : G ∈ M.globals) (called : G.name = name) : M.named name = [G] := by
  have member : G ∈ M.named name := List.mem_filter.mpr ⟨present, decide_eq_true called⟩
  have single := valid.named_length text
  cases listed : M.named name with
  | nil => simp [listed] at member
  | cons first rest =>
      rw [listed] at member single
      cases rest with
      | cons second rest => simp at single
      | nil => rw [List.mem_singleton.mp member]

theorem Valid.getNamedGlobal_iff {G : WeakGlobal} {name : SymbolName} (text : name ≠ []) :
    M.getNamedGlobal name = some G ↔ G ∈ M.globals ∧ G.name = name := by
  constructor
  · intro found
    have member := List.mem_of_mem_head? (Option.mem_def.mpr found)
    obtain ⟨present, called⟩ := List.mem_filter.mp member
    exact ⟨present, of_decide_eq_true called⟩
  · rintro ⟨present, called⟩
    rw [getNamedGlobal, valid.named_eq text present called]
    rfl

theorem Valid.guard?_iff {G GV : WeakGlobal} :
    M.guard? GV = some G ↔ G ∈ M.globals ∧ IsGuardOf G GV ∧ G.isDeclaration = false := by
  have text : "_ZGV".toList ++ GV.name.drop 2 ≠ [] := List.cons_ne_nil '_' _
  rw [guard?, IsGuardOf]
  by_cases mangled : "_Z".toList <+: GV.name
  · rw [if_pos mangled, Option.filter_eq_some_iff, valid.getNamedGlobal_iff text]
    simp only [mangled, true_and, Bool.not_eq_true', and_assoc]
  · simp only [mangled, if_false, false_and, and_false, reduceCtorEq]

theorem Valid.isShared_iff (ProcessHas : SymbolName → Bool) {GV : WeakGlobal} :
    IsShared ProcessHas M GV ↔
      GV.linkage.isWeakForLinker = true ∧ GV.isConstant = false ∧ GV.isThreadLocal = false ∧
        ¬"_ZGV".toList <+: GV.name ∧ GV.isDeclaration = false ∧ ProcessHas GV.name = true ∧
        ∀ G, M.guard? GV = some G → ProcessHas G.name = true := by
  simp only [IsShared, valid.guard?_iff, and_imp]

omit valid in
theorem demotes_shared {ProcessHas : SymbolName → Bool} {GV : WeakGlobal}
    (weak : GV.linkage.isWeakForLinker = true) (mutable : GV.isConstant = false)
    (threadLocal : GV.isThreadLocal = false) (noGuard : ¬"_ZGV".toList <+: GV.name)
    (defined : GV.isDeclaration = false) (exported : ProcessHas GV.name = true)
    (guards : ∀ G, M.guard? GV = some G → ProcessHas G.name = true) :
    M.demotes ProcessHas GV = GV :: (M.guard? GV).toList := by
  have tested : ¬(GV.isDeclaration || !GV.linkage.isWeakForLinker || GV.isThreadLocal ||
      GV.isConstant) = true := by simp [weak, mutable, threadLocal, defined]
  rw [demotes, if_neg tested, if_neg noGuard, if_neg (by simp [exported])]
  cases found : M.guard? GV with
  | none => rfl
  | some G => exact if_neg (by simp [guards G found])

theorem Valid.shared_of_demotes {ProcessHas : SymbolName → Bool} {GV : WeakGlobal}
    (pushed : M.demotes ProcessHas GV ≠ []) : IsShared ProcessHas M GV := by
  rw [valid.isShared_iff]
  rw [demotes] at pushed
  by_cases skipped : GV.isDeclaration || !GV.linkage.isWeakForLinker || GV.isThreadLocal ||
      GV.isConstant
  · exact absurd (if_pos skipped) pushed
  rw [if_neg skipped] at pushed
  simp only [Bool.or_eq_true, Bool.not_eq_true', not_or, Bool.not_eq_true,
    Bool.not_eq_false] at skipped
  obtain ⟨⟨⟨defined, weak⟩, threadLocal⟩, mutable⟩ := skipped
  by_cases guard : "_ZGV".toList <+: GV.name
  · exact absurd (if_pos guard) pushed
  rw [if_neg guard] at pushed
  cases exported : ProcessHas GV.name with
  | false =>
      rw [exported] at pushed
      exact absurd rfl pushed
  | true =>
      refine ⟨weak, mutable, threadLocal, guard, defined, rfl, ?_⟩
      intro G found
      rw [exported, found] at pushed
      by_contra unexported
      simp only [Bool.not_eq_true] at unexported
      simp [unexported] at pushed

/-- What the loop pushes for a global: itself and the guard defined for it, if it is shared. -/
theorem Valid.mem_demotes (ProcessHas : SymbolName → Bool) {X GV : WeakGlobal} :
    X ∈ M.demotes ProcessHas GV ↔ IsShared ProcessHas M GV ∧
      (X = GV ∨ (X ∈ M.globals ∧ IsGuardOf X GV ∧ X.isDeclaration = false)) := by
  rw [← valid.guard?_iff]
  have pushed : IsShared ProcessHas M GV →
      (X ∈ M.demotes ProcessHas GV ↔ X = GV ∨ M.guard? GV = some X) := by
    intro shared
    obtain ⟨weak, mutable, threadLocal, noGuard, defined, exported, guards⟩ :=
      (valid.isShared_iff ProcessHas).mp shared
    rw [demotes_shared weak mutable threadLocal noGuard defined exported guards, List.mem_cons,
      Option.mem_toList]
  constructor
  · intro member
    have shared := valid.shared_of_demotes (List.ne_nil_of_mem member)
    exact ⟨shared, (pushed shared).mp member⟩
  · rintro ⟨shared, same⟩
    exact (pushed shared).mpr same

/-- The demoted addresses are those of the globals that are to be declared only. -/
theorem Valid.mem_Demoted (ProcessHas : SymbolName → Bool) {address : Address} :
    address ∈ M.Demoted ProcessHas ↔
      ∃ G ∈ M.globals, IsBound ProcessHas M G ∧ G.address = address := by
  rw [Demoted, List.mem_map]
  constructor
  · rintro ⟨G, pushed, rfl⟩
    obtain ⟨GV, present, member⟩ := List.mem_flatMap.mp pushed
    obtain ⟨shared, rfl | ⟨defined, guard, body⟩⟩ := (valid.mem_demotes ProcessHas).mp member
    · exact ⟨G, present, Or.inl shared, rfl⟩
    · exact ⟨G, defined, Or.inr ⟨body, GV, present, shared, guard⟩, rfl⟩
  · rintro ⟨G, present, shared | ⟨body, GV, other, shared, guard⟩, rfl⟩
    · exact ⟨G, List.mem_flatMap.mpr
        ⟨G, present, (valid.mem_demotes ProcessHas).mpr ⟨shared, Or.inl rfl⟩⟩, rfl⟩
    · exact ⟨G, List.mem_flatMap.mpr
        ⟨GV, other, (valid.mem_demotes ProcessHas).mpr
          ⟨shared, Or.inr ⟨present, guard, body⟩⟩⟩, rfl⟩

theorem Valid.address_mem_Demoted (ProcessHas : SymbolName → Bool) {GV : WeakGlobal}
    (present : GV ∈ M.globals) :
    GV.address ∈ M.Demoted ProcessHas ↔ IsBound ProcessHas M GV := by
  rw [valid.mem_Demoted ProcessHas]
  constructor
  · rintro ⟨G, other, bound, same⟩
    have equal := List.inj_on_of_nodup_map valid.addresses other present same
    exact equal ▸ bound
  · intro bound
    exact ⟨GV, present, bound, rfl⟩

theorem Valid.used_not_bound (ProcessHas : SymbolName → Bool) {Used : WeakGlobal}
    (present : Used ∈ M.globals) (listed : Used.name ∈ usedLists) :
    ¬IsBound ProcessHas M Used := by
  rintro (shared | ⟨_, GV, _, _, guard⟩)
  · obtain ⟨weak, _, _, _, defined, _⟩ := shared
    rcases valid.used Used present listed with declared | ⟨appending, _⟩
    · rw [WeakGlobal.isDeclaration, declared] at defined
      cases defined
    · rw [appending] at weak
      cases weak
  · have starts : ∀ name ∈ usedLists, name.head? = some 'l' := by decide
    have first := starts Used.name listed
    rw [guard.2] at first
    cases first

end

section

variable (demoted : List Address)

theorem demoteAll_named (name : SymbolName) :
    (M.demoteAll demoted).named name =
      (M.named name).map fun GV => if GV.address ∈ demoted then GV.demote else GV := by
  rw [named, named, demoteAll, List.filter_map]
  congr 1
  refine List.filter_congr fun GV _ => ?_
  rw [Function.comp_apply]
  split <;> rfl

theorem demoteAll_plain :
    (M.demoteAll demoted).plain =
      M.plain.map fun GV => if GV.address ∈ demoted then GV.demote else GV := by
  rw [plain, plain, demoteAll, List.filter_map]
  congr 1
  refine List.filter_congr fun GV _ => ?_
  rw [Function.comp_apply]
  split <;> rfl

variable (fresh : SymbolName → Address) (ListName : SymbolName)

/-- Whatever is kept by its name, and not by that of the list, is kept in its place. -/
theorem dropUsed_filter (keeps : SymbolName → Bool) (apart : keeps ListName = false) :
    (M.dropUsed fresh demoted ListName).globals.filter (fun GV => keeps GV.name) =
      M.globals.filter fun GV => keeps GV.name := by
  have erased : (M.globals.eraseP (·.name = ListName)).filter (fun GV => keeps GV.name) =
      M.globals.filter fun GV => keeps GV.name := by
    induction M.globals with
    | nil => rfl
    | cons GV rest ih =>
        by_cases called : GV.name = ListName
        · rw [List.eraseP_cons_of_pos (by simpa using called),
            List.filter_cons_of_neg (by simp [called, apart])]
        · rw [List.eraseP_cons_of_neg (by simpa using called), List.filter_cons, List.filter_cons,
            ih]
  rw [dropUsed]
  split
  · split
    · dsimp only
      split
      · rfl
      · split
        · exact erased
        · simp [eraseNamed, List.filter_append, erased, apart]
    · rfl
  · rfl

theorem dropUsed_isOSBinFormatELF :
    (M.dropUsed fresh demoted ListName).isOSBinFormatELF = M.isOSBinFormatELF := by
  rw [dropUsed]
  split
  · split
    · dsimp only
      split
      · rfl
      · split <;> rfl
    · rfl
  · rfl

theorem dropUsed_plain (listed : ListName ∈ usedLists) :
    (M.dropUsed fresh demoted ListName).plain = M.plain :=
  dropUsed_filter M demoted fresh ListName (fun name => name ∉ usedLists) (by simpa using listed)

theorem dropUsed_named {other : SymbolName} (apart : ListName ≠ other) :
    (M.dropUsed fresh demoted ListName).named other = M.named other :=
  dropUsed_filter M demoted fresh ListName (fun name => name = other) (by simpa using apart)

variable {M ListName}

theorem usedOperands_congr {N : WeakModule} (same : M.named ListName = N.named ListName) :
    M.usedOperands ListName = N.usedOperands ListName := by
  rw [usedOperands, usedOperands, getNamedGlobal, getNamedGlobal, same]

theorem usedOperands_of_named {Used : WeakGlobal} {operands : List UsedConstant}
    (alone : M.named ListName = [Used]) (array : Used.initializer = some (.array operands)) :
    M.usedOperands ListName = operands := by
  obtain ⟨address, name, initializer, linkage, threadLocal, constant, comdat, visibility, dso,
    part⟩ := Used
  cases array
  rw [usedOperands, getNamedGlobal, alone]
  rfl

theorem erased_named {Used : WeakGlobal} (alone : M.named ListName = [Used]) :
    (M.eraseNamed ListName).named ListName = [] := by
  have lone : M.globals.filter (·.name = ListName) = [Used] := alone
  rw [named, eraseNamed]
  revert lone
  induction M.globals with
  | nil => intro lone; cases lone
  | cons GV rest ih =>
      intro lone
      by_cases called : GV.name = ListName
      · rw [List.filter_cons_of_pos (by simpa using called)] at lone
        rw [List.eraseP_cons_of_pos (by simpa using called)]
        exact (List.cons.inj lone).2
      · rw [List.filter_cons_of_neg (by simpa using called)] at lone
        rw [List.eraseP_cons_of_neg (by simpa using called),
          List.filter_cons_of_neg (by simpa using called)]
        exact ih lone

/-- The list loses the operands that are demoted; where it loses none it stays the object it
was. -/
theorem dropUsed_list {Used : WeakGlobal} {operands : List UsedConstant}
    (alone : M.named ListName = [Used]) (array : Used.initializer = some (.array operands)) :
    (M.dropUsed fresh demoted ListName).usedOperands ListName =
        (M.usedOperands ListName).filter (fun C => C.stripPointerCasts ∉ demoted) ∧
      ((∀ C ∈ operands, C.stripPointerCasts ∉ demoted) →
        (M.dropUsed fresh demoted ListName).named ListName = [Used]) := by
  have found : M.getNamedGlobal ListName = some Used := by rw [getNamedGlobal, alone]; rfl
  have listed := usedOperands_of_named alone array
  have erased := erased_named alone
  simp only [dropUsed, found, array]
  by_cases all : (operands.filter fun C => C.stripPointerCasts ∉ demoted).length = operands.length
  · rw [if_pos all, listed]
    exact ⟨(List.filter_eq_self.mpr (List.length_filter_eq_length_iff.mp all)).symm,
      fun _ => alone⟩
  · rw [if_neg all]
    have some_dropped : ¬∀ C ∈ operands, C.stripPointerCasts ∉ demoted := by
      intro none_dropped
      refine all (List.length_filter_eq_length_iff.mpr ?_)
      intro C member
      exact decide_eq_true (none_dropped C member)
    refine ⟨?_, fun none_dropped => absurd none_dropped some_dropped⟩
    rw [listed]
    split
    · next empty =>
        rw [usedOperands, getNamedGlobal, erased, empty]
        rfl
    · rw [named] at erased
      rw [usedOperands, getNamedGlobal, named, List.filter_append, erased, List.nil_append,
        List.filter_cons_of_pos (by simp)]
      rfl

end

section

variable (demoted : List Address) (fresh : SymbolName → Address)

def dropBoth : WeakModule :=
  usedLists.foldl (fun M ListName => M.dropUsed fresh demoted ListName) M

theorem dropBoth_isOSBinFormatELF :
    (M.dropBoth demoted fresh).isOSBinFormatELF = M.isOSBinFormatELF := by
  rw [dropBoth, usedLists, List.foldl_cons, List.foldl_cons, List.foldl_nil,
    dropUsed_isOSBinFormatELF, dropUsed_isOSBinFormatELF]

theorem dropBoth_plain : (M.dropBoth demoted fresh).plain = M.plain := by
  rw [dropBoth, usedLists, List.foldl_cons, List.foldl_cons, List.foldl_nil,
    dropUsed_plain _ _ _ _ (by decide), dropUsed_plain _ _ _ _ (by decide)]

variable {M}

theorem dropBoth_list {ListName : SymbolName} (listed : ListName ∈ usedLists) :
    ∃ N : WeakModule, N.named ListName = M.named ListName ∧
      (M.dropBoth demoted fresh).named ListName =
        (N.dropUsed fresh demoted ListName).named ListName := by
  rw [dropBoth, usedLists, List.foldl_cons, List.foldl_cons, List.foldl_nil]
  rw [usedLists, List.mem_cons, List.mem_singleton] at listed
  rcases listed with rfl | rfl
  · exact ⟨M, rfl, dropUsed_named _ _ _ _ (by decide)⟩
  · exact ⟨_, dropUsed_named _ _ _ _ (by decide), rfl⟩

end

theorem dropUsed_absent {demoted : List Address} {fresh : SymbolName → Address}
    {ListName : SymbolName} (absent : M.named ListName = []) :
    M.dropUsed fresh demoted ListName = M := by
  rw [dropUsed, getNamedGlobal, absent]
  rfl

theorem dropUsed_declared {demoted : List Address} {fresh : SymbolName → Address}
    {ListName : SymbolName} {Used : WeakGlobal} (alone : M.named ListName = [Used])
    (declared : Used.initializer = none) :
    M.dropUsed fresh demoted ListName = M ∧ M.usedOperands ListName = [] := by
  have found : M.getNamedGlobal ListName = some Used := by rw [getNamedGlobal, alone]; rfl
  constructor
  · rw [dropUsed, found]
    simp only [declared]
  · rw [usedOperands, found]
    obtain ⟨address, name, initializer, linkage, threadLocal, constant, comdat, visibility, dso,
      part⟩ := Used
    cases declared
    rfl

section

variable {M} (valid : M.Valid) (ProcessHas : SymbolName → Bool)
include valid

theorem Valid.used_named {ListName : SymbolName} (listed : ListName ∈ usedLists) :
    (M.demoteAll (M.Demoted ProcessHas)).named ListName = M.named ListName := by
  rw [demoteAll_named]
  refine (List.map_congr_left fun Used member => ?_).trans (List.map_id _)
  obtain ⟨present, called⟩ := List.mem_filter.mp member
  have name : Used.name = ListName := of_decide_eq_true called
  rw [if_neg, id]
  rw [valid.address_mem_Demoted ProcessHas present]
  exact valid.used_not_bound ProcessHas present (name ▸ listed)

/-- What becomes of a used list: it loses the globals that are declared only, and is not touched
if it holds none of them. -/
theorem Valid.used_after (fresh : SymbolName → Address) {ListName : SymbolName}
    (listed : ListName ∈ usedLists) :
    ((M.demoteAll (M.Demoted ProcessHas)).dropBoth (M.Demoted ProcessHas) fresh).usedOperands
          ListName =
        (M.usedOperands ListName).filter (fun C => !M.refersToBound ProcessHas C) ∧
      ((∀ C ∈ M.usedOperands ListName, M.refersToBound ProcessHas C = false) →
        ((M.demoteAll (M.Demoted ProcessHas)).dropBoth (M.Demoted ProcessHas) fresh).named
          ListName = M.named ListName) := by
  have refers : ∀ C : UsedConstant, decide (C.stripPointerCasts ∉ M.Demoted ProcessHas) =
      !M.refersToBound ProcessHas C := by
    intro C
    rw [refersToBound, ← decide_not]
    exact decide_eq_decide.mpr (not_congr (valid.mem_Demoted ProcessHas))
  obtain ⟨N, same, after⟩ := dropBoth_list (M.Demoted ProcessHas) fresh
    (M := M.demoteAll (M.Demoted ProcessHas)) listed
  have before : N.named ListName = M.named ListName :=
    same.trans (valid.used_named ProcessHas listed)
  rw [usedOperands_congr after, after, ← usedOperands_congr before]
  have text : ListName ≠ [] := by
    rintro rfl
    revert listed
    decide
  cases list : M.named ListName with
  | nil =>
      rw [dropUsed_absent _ (before.trans list), usedOperands, getNamedGlobal, before, list]
      exact ⟨rfl, fun _ => rfl⟩
  | cons Used rest =>
      have member : Used ∈ M.named ListName := list ▸ List.mem_cons_self
      obtain ⟨present, called⟩ := List.mem_filter.mp member
      have name : Used.name = ListName := of_decide_eq_true called
      have alone := valid.named_eq text present name
      rcases valid.used Used present (name ▸ listed) with declared | ⟨_, operands, array⟩
      · obtain ⟨same, none⟩ := @dropUsed_declared N (M.Demoted ProcessHas) fresh ListName Used
          (before.trans alone) declared
        rw [same, none]
        exact ⟨rfl, fun _ => before.trans list⟩
      · have dropped := dropUsed_list (M.Demoted ProcessHas) fresh (before.trans alone) array
        simp only [refers] at dropped
        refine ⟨dropped.1, fun untouched => ?_⟩
        rw [← list, alone]
        apply dropped.2
        intro C held
        rw [usedOperands_of_named (before.trans alone) array] at untouched
        have kept := refers C
        rw [untouched C held] at kept
        exact of_decide_eq_true kept

end

end WeakModule

def guardedPair : WeakModule where
  isOSBinFormatELF := true
  globals :=
    [⟨1, "_Z1x".toList, some (.other 0), .linkOnceODRLinkage, false, false, some "_Z1x".toList,
        .HiddenVisibility, true, []⟩,
      ⟨2, "_ZGV1x".toList, some (.other 0), .linkOnceODRLinkage, false, false, none,
        .DefaultVisibility, false, []⟩,
      ⟨3, "kept".toList, some (.other 7), .externalLinkage, false, false, none,
        .DefaultVisibility, false, []⟩,
      ⟨4, "llvm.used".toList, some (.array [.object 1, .cast (.object 3)]), .appendingLinkage,
        false, false, none, .DefaultVisibility, false, "llvm.metadata".toList⟩]

end WeakGlobals

end CppInterOp
