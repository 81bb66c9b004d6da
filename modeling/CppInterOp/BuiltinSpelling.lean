import CppInterOp.BuiltinCore

/-!
Which spellings `findBuiltinType` maps to which types, and for which of them that is right.
-/

namespace CppInterOp

open Arrangements Delimiters

def PlainWords (words : List StringRef) : Prop := ∀ word ∈ words, word ≠ [] ∧ ' ' ∉ word

instance (words : List StringRef) : Decidable (PlainWords words) :=
  inferInstanceAs (Decidable (∀ word ∈ words, word ≠ [] ∧ ' ' ∉ word))

theorem filledPieces_joinWords {words : List StringRef} (plain : PlainWords words) :
    filledPieces space_ne_nil (joinWords words) = words := by
  by_cases none : words = []
  · subst none
    exact filledPieces_nil space_ne_nil
  · have apart : ∀ word ∈ words, ¬[' '] <:+: word := by
      intro word member within
      exact (plain word member).2 ((List.singleton_infix_iff _ _).mp within)
    have found := pieces_intercalate (List.not_mem_nil (a := ' ')) none apart
    rw [filledPieces, joinWords, found, List.filter_eq_self]
    exact fun word member => decide_eq_true (plain word member).1

theorem joinWords_inj {words others : List StringRef} (plain : PlainWords words)
    (also : PlainWords others) (same : joinWords words = joinWords others) : words = others := by
  rw [← filledPieces_joinWords plain, same, filledPieces_joinWords also]

/-- The multisets of words that `registerWords` registers all arrangements of. -/
def expansions (Words : List StringRef) : List (List StringRef) :=
  let hasInt := Words.contains "int".toList
  let hasSigned := Words.contains "signed".toList
  let hasUnsigned := Words.contains "unsigned".toList
  let hasChar := Words.contains "char".toList
  let isModifiable := Words.contains "long".toList || Words.contains "short".toList || hasInt
  if !isModifiable && !hasUnsigned && !hasSigned then []
  else
    (if 1 < Words.length then [Words] else []) ++
      (if !hasInt && !hasChar then
          (Words ++ ["int".toList]) ::
            if !hasSigned && !hasUnsigned then [Words ++ ["int".toList] ++ ["signed".toList]]
            else []
        else []) ++
      if !hasSigned && !hasUnsigned then [Words ++ ["signed".toList]] else []

namespace SpecifiedType

def every : List SpecifiedType :=
  [Char, SChar, UChar, Short, UShort, Int, UInt, Long, ULong, LongLong, ULongLong, Float, Double,
    LongDouble, Int128, UInt128] ++
  [false, true].flatMap fun isSaturated => [false, true].flatMap fun isUnsigned =>
    [.short, .plain, .long].flatMap fun size => [false, true].map fun isFract =>
      FixedPoint isSaturated isUnsigned size isFract

theorem mem_every (type : SpecifiedType) : type ∈ every := by
  cases type with
  | FixedPoint isSaturated isUnsigned size isFract =>
      cases isSaturated <;> cases isUnsigned <;> cases size <;> cases isFract <;> decide
  | _ => decide

/-- What is added to the words of a type although no specifiers say so. -/
def extras : SpecifiedType → List (List StringRef)
  | LongDouble => [["int".toList], ["signed".toList], ["int".toList, "signed".toList]]
  | UInt128 => [["int".toList]]
  | FixedPoint _ true _ _ => [["int".toList]]
  | FixedPoint _ false .plain _ => []
  | FixedPoint _ false _ _ => [["int".toList], ["int".toList, "signed".toList]]
  | _ => []

/-- How often each word occurs that tells types apart; `signed` does beside `char` only. -/
def signature (words : List StringRef) : List Nat :=
  (["unsigned".toList, "short".toList, "long".toList, "char".toList, "float".toList,
      "double".toList, "__int128".toList, "_Accum".toList, "_Fract".toList,
      "_Sat".toList].map fun word => words.count word) ++
    [if "char".toList ∈ words then words.count "signed".toList else 0]

theorem signature_perm {words others : List StringRef} (perm : words.Perm others) :
    signature words = signature others := by
  simp only [signature, perm.count_eq, perm.mem_iff]

def spellings (type : SpecifiedType) : List (List StringRef) :=
  type.words :: expansions type.words ++ type.specifiers

theorem signature_spelling (type : SpecifiedType) :
    ∀ multiset ∈ type.spellings, signature multiset = signature type.words := by
  have all : ∀ type ∈ every, ∀ multiset ∈ type.spellings,
      signature multiset = signature type.words := by decide
  exact all type (mem_every type)

theorem signature_inj {type other : SpecifiedType}
    (same : signature type.words = signature other.words) : type = other := by
  have distinct : (every.map fun type => signature type.words).Nodup := by decide
  exact List.inj_on_of_nodup_map distinct (mem_every type) (mem_every other) same

theorem spelling_plain (type : SpecifiedType) :
    ∀ multiset ∈ type.spellings, PlainWords multiset := by
  have all : ∀ type ∈ every, ∀ multiset ∈ type.spellings, PlainWords multiset := by decide
  exact all type (mem_every type)

theorem spelling_shared (type : SpecifiedType) :
    ∀ multiset ∈ type.spellings, ∃ word ∈ multiset, word ∈ sharedWords := by
  have all : ∀ type ∈ every, ∀ multiset ∈ type.spellings,
      ∃ word ∈ multiset, word ∈ sharedWords := by decide
  exact all type (mem_every type)

theorem words_specifier (type : SpecifiedType) : type.words ∈ type.specifiers := by
  have all : ∀ type ∈ every, type.words ∈ type.specifiers := by decide
  exact all type (mem_every type)

/-- What is registered for a type denotes it, or has an extra word too many. -/
theorem expansion_cases (type : SpecifiedType) : ∀ multiset ∈ expansions type.words,
    (∃ specifier ∈ type.specifiers, multiset.Perm specifier) ∨
      ∃ extra ∈ type.extras, multiset.Perm (type.words ++ extra) := by
  have all : ∀ type ∈ every, ∀ multiset ∈ expansions type.words,
      (∃ specifier ∈ type.specifiers, multiset.Perm specifier) ∨
        ∃ extra ∈ type.extras, multiset.Perm (type.words ++ extra) := by decide
  exact all type (mem_every type)

/-- What denotes a type of C++ is registered for it, or is one of the two synonyms. -/
theorem specifier_cases (type : SpecifiedType) (standard : type.isStandard = true) :
    ∀ specifier ∈ type.specifiers,
      (specifier = ["signed".toList] ∧ type = .Int) ∨
        (specifier = ["unsigned".toList] ∧ type = .UInt) ∨
        (specifier = type.words ∧ specifier.length = 1) ∨
        ∃ multiset ∈ expansions type.words, specifier.Perm multiset := by
  have all : ∀ type ∈ every, type.isStandard = true → ∀ specifier ∈ type.specifiers,
      (specifier = ["signed".toList] ∧ type = .Int) ∨
        (specifier = ["unsigned".toList] ∧ type = .UInt) ∨
        (specifier = type.words ∧ specifier.length = 1) ∨
        ∃ multiset ∈ expansions type.words, specifier.Perm multiset := by decide
  exact all type (mem_every type) standard

theorem extra_cases (type : SpecifiedType) : ∀ extra ∈ type.extras,
    (∃ multiset ∈ expansions type.words, (type.words ++ extra).Perm multiset) ∧
      1 < (type.words ++ extra).length ∧
      ∀ specifier ∈ type.specifiers, ¬(type.words ++ extra).Perm specifier := by
  have all : ∀ type ∈ every, ∀ extra ∈ type.extras,
      (∃ multiset ∈ expansions type.words, (type.words ++ extra).Perm multiset) ∧
        1 < (type.words ++ extra).length ∧
        ∀ specifier ∈ type.specifiers, ¬(type.words ++ extra).Perm specifier := by decide
  exact all type (mem_every type)

end SpecifiedType

def BuiltinMap.Extends (Map Next : BuiltinMap) (QT : BuiltinKind) (keys : StringRef → Prop) : Prop :=
  ∀ Key, (keys Key → Next.find Key = some QT) ∧ (¬keys Key → Next.find Key = Map.find Key)

def Arranges (Words : List StringRef) (Key : StringRef) : Prop :=
  ∃ arrangement : List StringRef, arrangement.Perm Words ∧ joinWords arrangement = Key

namespace BuiltinMap

variable {Map Middle Next : BuiltinMap} {QT : BuiltinKind} {keys others : StringRef → Prop}

theorem Extends.refl (none : ∀ Key, ¬keys Key) : Extends Map Map QT keys :=
  fun Key => ⟨fun here => absurd here (none Key), fun _ => rfl⟩

theorem Extends.trans (first : Extends Map Middle QT keys) (second : Extends Middle Next QT others) :
    Extends Map Next QT fun Key => keys Key ∨ others Key := by
  intro Key
  constructor
  · intro here
    by_cases later : others Key
    · exact (second Key).1 later
    · rw [(second Key).2 later]
      exact (first Key).1 (here.resolve_right later)
  · intro nowhere
    obtain ⟨before, after⟩ := not_or.mp nowhere
    rw [(second Key).2 after, (first Key).2 before]

theorem Extends.congr (extended : Extends Map Next QT keys) (same : ∀ Key, others Key ↔ keys Key) :
    Extends Map Next QT others := by
  intro Key
  rw [same]
  exact extended Key

theorem find_assign (Key Other : StringRef) :
    (Map.assign Key QT).find Other = if Other = Key then some QT else Map.find Other := by
  rw [find, assign, List.lookup_cons]
  by_cases same : Other = Key
  · rw [if_pos same, beq_iff_eq.mpr same]
  · rw [if_neg same, beq_eq_false_iff_ne.mpr same, find]

theorem assign_extends (Key : StringRef) : Extends Map (Map.assign Key QT) QT (· = Key) := by
  intro Other
  rw [find_assign]
  exact ⟨fun same => if_pos same, fun apart => if_neg apart⟩

end BuiltinMap

open BuiltinMap

theorem foldl_assign_extends (Map : BuiltinMap) (QT : BuiltinKind)
    (arrangements : List (List StringRef)) :
    Extends Map (arrangements.foldl (fun Map Words => Map.assign (joinWords Words) QT) Map) QT
      fun Key => ∃ arrangement ∈ arrangements, joinWords arrangement = Key := by
  induction arrangements generalizing Map with
  | nil => exact Extends.refl (by simp)
  | cons arrangement arrangements ih =>
      refine ((assign_extends (joinWords arrangement)).trans (ih _)).congr fun Key => ?_
      rw [List.exists_mem_cons_iff, eq_comm]

theorem RegisterPerms_extends (Map : BuiltinMap) (QT : BuiltinKind) (Words : List StringRef) :
    Extends Map (RegisterPerms Map QT Words) QT (Arranges Words) := by
  refine (foldl_assign_extends Map QT _).congr fun Key => ?_
  simp only [Arranges, mem_visited_sorted]

/-- What is wanted of a list of multisets is registered, and else nothing. -/
theorem foldl_wanted (Map : BuiltinMap) (QT : BuiltinKind) (wanted : Prop) [Decidable wanted]
    (multisets : List (List StringRef)) :
    (if wanted then multisets else []).foldl (fun Map multiset => RegisterPerms Map QT multiset)
        Map =
      if wanted then multisets.foldl (fun Map multiset => RegisterPerms Map QT multiset) Map
      else Map := by
  split <;> rfl

theorem registerWords_eq (Map : BuiltinMap) (QT : BuiltinKind) (Words : List StringRef) :
    registerWords Map QT Words =
      (expansions Words).foldl (fun Map multiset => RegisterPerms Map QT multiset) Map := by
  simp only [registerWords, expansions]
  split
  · rfl
  · simp only [List.foldl_append, foldl_wanted, List.foldl_cons, List.foldl_nil]

theorem registerWords_extends (Map : BuiltinMap) (QT : BuiltinKind) (Words : List StringRef) :
    Extends Map (registerWords Map QT Words) QT
      fun Key => ∃ multiset ∈ expansions Words, Arranges multiset Key := by
  rw [registerWords_eq]
  induction expansions Words generalizing Map with
  | nil => exact Extends.refl (by simp)
  | cons multiset multisets ih =>
      refine ((RegisterPerms_extends Map QT multiset).trans (ih _)).congr fun Key => ?_
      simp only [List.mem_cons, exists_eq_or_imp]

def BuiltinKind.Registers (words : List StringRef) : BuiltinKind → Prop
  | specified type => words = type.words ∨ ∃ multiset ∈ expansions type.words, words.Perm multiset
  | named name => words = name.words
  | unnamed _ => False

theorem PlainWords.perm {words others : List StringRef} (plain : PlainWords words)
    (perm : others.Perm words) : PlainWords others :=
  fun word member => plain word (perm.subset member)

theorem arranges_joinWords {multiset words : List StringRef} (plain : PlainWords words)
    (also : PlainWords multiset) : Arranges multiset (joinWords words) ↔ words.Perm multiset := by
  constructor
  · rintro ⟨arrangement, perm, same⟩
    exact joinWords_inj (also.perm perm) plain same ▸ perm
  · intro perm
    exact ⟨words, perm, rfl⟩

namespace OwnName

theorem head_joinWords (name : OwnName) :
    joinWords name.words ≠ [] ∧ (joinWords name.words).head? ≠ some '<' := by
  obtain ⟨words, some_words, filled, own, first_letter⟩ := name
  cases words with
  | nil => exact absurd rfl some_words
  | cons first rest =>
      obtain ⟨letter, letters, rfl⟩ :=
        List.exists_cons_of_ne_nil (filled first List.mem_cons_self).1
      cases rest with
      | nil => exact ⟨List.cons_ne_nil _ _, first_letter⟩
      | cons second rest => exact ⟨List.cons_ne_nil _ _, first_letter⟩

theorem contains_own (name : OwnName) {word : StringRef} (shared : word ∈ sharedWords) :
    name.words.contains word = false := by
  rw [← Bool.not_eq_true, List.contains_iff_mem]
  exact fun member => name.own word member shared

theorem expansions_own (name : OwnName) : expansions name.words = [] := by
  simp only [expansions]
  rw [name.contains_own (by decide), name.contains_own (by decide), name.contains_own (by decide),
    name.contains_own (by decide), name.contains_own (by decide), name.contains_own (by decide)]
  rfl

end OwnName

theorem registerType_find (Map : BuiltinMap) (QT : BuiltinKind) {words : List StringRef}
    (plain : PlainWords words) :
    (QT.Registers words →
        (registerType Map (.builtin QT)).find (joinWords words) = some QT) ∧
      (¬QT.Registers words →
        (registerType Map (.builtin QT)).find (joinWords words) = Map.find (joinWords words)) := by
  cases QT with
  | unnamed text => exact ⟨False.elim, fun _ => rfl⟩
  | specified type =>
      have printed : ∀ type ∈ SpecifiedType.every, joinWords type.words ≠ [] ∧
          (joinWords type.words).head? ≠ some '<' := by decide
      have kept : ¬((BuiltinKind.specified type).Name = [] ∨
          (BuiltinKind.specified type).Name.head? = some '<') :=
        not_or.mpr (printed type type.mem_every)
      have spelled := type.spelling_plain
      have own : PlainWords type.words := spelled type.words List.mem_cons_self
      have split : filledPieces space_ne_nil (BuiltinKind.specified type).Name = type.words :=
        filledPieces_joinWords own
      rw [registerType, if_neg kept, split]
      have extended : Extends Map (registerWords _ (.specified type) type.words)
          (.specified type) _ := (assign_extends (BuiltinKind.specified type).Name).trans
        (registerWords_extends _ (.specified type) type.words)
      have spells : BuiltinKind.Registers words (.specified type) ↔
          (joinWords words = (BuiltinKind.specified type).Name ∨
            ∃ multiset ∈ expansions type.words, Arranges multiset (joinWords words)) := by
        refine or_congr ⟨fun same => congrArg joinWords same, joinWords_inj plain own⟩ ?_
        refine exists_congr fun multiset => and_congr_right fun member => ?_
        exact (arranges_joinWords plain (spelled multiset
          (List.mem_append_left _ (List.mem_cons_of_mem _ member)))).symm
      rw [spells]
      exact extended (joinWords words)
  | named name =>
      have kept : ¬((BuiltinKind.named name).Name = [] ∨
          (BuiltinKind.named name).Name.head? = some '<') := not_or.mpr name.head_joinWords
      have split : filledPieces space_ne_nil (BuiltinKind.named name).Name = name.words :=
        filledPieces_joinWords name.filled
      have nothing : ∀ Map, registerWords Map (.named name) name.words = Map := by
        intro Map
        rw [registerWords_eq, name.expansions_own, List.foldl_nil]
      rw [registerType, if_neg kept, split, nothing]
      have extended : Extends Map (Map.assign (BuiltinKind.named name).Name (.named name))
          (.named name) _ := assign_extends (BuiltinKind.named name).Name
      have spells : BuiltinKind.Registers words (.named name) ↔
          joinWords words = (BuiltinKind.named name).Name :=
        ⟨fun same => congrArg joinWords same, joinWords_inj plain name.filled⟩
      rw [spells]
      exact extended (joinWords words)

theorem registers_unique {words : List StringRef} {QT other : BuiltinKind}
    (here : QT.Registers words) (there : other.Registers words) : QT = other := by
  have spelled : ∀ {type : SpecifiedType}, BuiltinKind.Registers words (.specified type) →
      ∃ multiset ∈ type.spellings, words.Perm multiset := by
    intro type registered
    rcases registered with rfl | ⟨multiset, member, perm⟩
    · exact ⟨type.words, List.mem_cons_self, List.Perm.refl _⟩
    · exact ⟨multiset, List.mem_append_left _ (List.mem_cons_of_mem _ member), perm⟩
  have apart : ∀ {type : SpecifiedType} {name : OwnName},
      BuiltinKind.Registers words (.specified type) → words ≠ name.words := by
    rintro type name registered rfl
    obtain ⟨multiset, member, perm⟩ := spelled registered
    obtain ⟨word, within, shared⟩ := type.spelling_shared multiset member
    exact name.own word (perm.symm.subset within) shared
  cases QT with
  | unnamed text => exact here.elim
  | specified type =>
      cases other with
      | unnamed text => exact there.elim
      | named name => exact absurd there (apart here)
      | specified second =>
          obtain ⟨multiset, member, perm⟩ := spelled here
          obtain ⟨multiset', member', perm'⟩ := spelled there
          refine congrArg _ (SpecifiedType.signature_inj ?_)
          rw [← type.signature_spelling multiset member,
            ← second.signature_spelling multiset' member']
          exact SpecifiedType.signature_perm (perm.symm.trans perm')
  | named name =>
      cases other with
      | unnamed text => exact there.elim
      | specified type => exact absurd here (apart there)
      | named second =>
          have same : name.words = second.words := here.symm.trans there
          cases name
          cases second
          cases same
          rfl

section

variable {words : List StringRef} (plain : PlainWords words) {QT : BuiltinKind}
include plain

theorem foldl_registerType_keeps (registered : QT.Registers words) (Types : List ContextType)
    {Map : BuiltinMap} (found : Map.find (joinWords words) = some QT) :
    (Types.foldl registerType Map).find (joinWords words) = some QT := by
  induction Types generalizing Map with
  | nil => exact found
  | cons T Types ih =>
      refine ih ?_
      cases T with
      | placeholder => exact found
      | other => exact found
      | builtin other =>
          by_cases also : other.Registers words
          · obtain rfl := registers_unique registered also
            exact (registerType_find Map QT plain).1 also
          · rw [(registerType_find Map other plain).2 also]
            exact found

theorem foldl_registerType_found (registered : QT.Registers words) {Types : List ContextType}
    (present : .builtin QT ∈ Types) (Map : BuiltinMap) :
    (Types.foldl registerType Map).find (joinWords words) = some QT := by
  induction Types generalizing Map with
  | nil => cases present
  | cons T Types ih =>
      rcases List.mem_cons.mp present with rfl | later
      · exact foldl_registerType_keeps plain registered Types
          ((registerType_find Map QT plain).1 registered)
      · exact ih later (registerType Map T)

omit QT in
theorem foldl_registerType_absent {Types : List ContextType}
    (absent : ∀ QT, .builtin QT ∈ Types → ¬QT.Registers words) (Map : BuiltinMap) :
    (Types.foldl registerType Map).find (joinWords words) = Map.find (joinWords words) := by
  induction Types generalizing Map with
  | nil => rfl
  | cons T Types ih =>
      refine (ih (fun QT member => absent QT (List.mem_cons_of_mem _ member)) _).trans ?_
      cases T with
      | placeholder => rfl
      | other => rfl
      | builtin QT => exact (registerType_find Map QT plain).2 (absent QT List.mem_cons_self)

omit QT in
/-- Apart from the two synonyms the map yields the type registered under the spelling. -/
theorem PopulateBuiltinMap_find (Types : List ContextType) :
    (PopulateBuiltinMap Types []).find (joinWords words) =
      if words = ["unsigned".toList] then some (.specified .UInt)
      else if words = ["signed".toList] then some (.specified .Int)
      else (Types.foldl registerType []).find (joinWords words) := by
  have synonym : ∀ word ∈ sharedWords, (joinWords words = word ↔ words = [word]) := by
    intro word shared
    have own : ∀ word ∈ sharedWords, PlainWords [word] := by decide
    have alone : joinWords [word] = word := List.intercalate_singleton ..
    constructor
    · intro same
      exact joinWords_inj plain (own word shared) (same.trans alone.symm)
    · rintro rfl
      exact alone
  rw [PopulateBuiltinMap, find_assign, find_assign]
  simp only [synonym _ (show "unsigned".toList ∈ sharedWords by decide),
    synonym _ (show "signed".toList ∈ sharedWords by decide)]

end

def lookups (Types : List ContextType) (earlier : List StringRef) : BuiltinMap :=
  earlier.foldl (fun Map typeName => (findBuiltinType Types Map typeName).1) []

theorem findBuiltinType_lookups (Types : List ContextType) (earlier : List StringRef)
    (typeName : StringRef) : (findBuiltinType Types (lookups Types earlier) typeName).2 =
      (PopulateBuiltinMap Types []).find typeName := by
  have filled : lookups Types earlier = [] ∨
      lookups Types earlier = PopulateBuiltinMap Types [] := by
    have kept : ∀ (names : List StringRef) (Map : BuiltinMap),
        Map = [] ∨ Map = PopulateBuiltinMap Types [] →
        names.foldl (fun Map typeName => (findBuiltinType Types Map typeName).1) Map = [] ∨
          names.foldl (fun Map typeName => (findBuiltinType Types Map typeName).1) Map =
            PopulateBuiltinMap Types [] := by
      intro names
      induction names with
      | nil => exact fun Map before => before
      | cons name names ih =>
          intro Map before
          refine ih _ (Or.inr ?_)
          rcases before with rfl | rfl <;> rfl
    exact kept earlier [] (Or.inl rfl)
  rcases filled with empty | full
  · rw [empty]
    rfl
  · rw [full]
    rfl

abbrev SpellingWord := { word : StringRef // word ≠ [] ∧ ' ' ∉ word }

/-- A spelling is mapped to types it denotes only, and to every standard type of the context
that it denotes. -/
def SpelledRight (Types : List ContextType) (earlier words : List StringRef) : Prop :=
  (∀ QT, (findBuiltinType Types (lookups Types earlier) (joinWords words)).2 = some QT →
      QT.DenotedBy words) ∧
    ∀ QT, .builtin QT ∈ Types → QT.isStandard = true → QT.DenotedBy words →
      (findBuiltinType Types (lookups Types earlier) (joinWords words)).2 = some QT

/-- A type of the context with `int` or `signed` added to its words, where no specifiers of it
have that. -/
def HasExtra (Types : List ContextType) (words : List StringRef) : Prop :=
  ∃ type : SpecifiedType, .builtin (.specified type) ∈ Types ∧
    ∃ extra ∈ type.extras, words.Perm (type.words ++ extra)

section

variable (Types : List ContextType) {words : List StringRef} (plain : PlainWords words)
include plain

/-- A spelling of more than one word is mapped to the type that is registered under it. -/
theorem find_registered (earlier : List StringRef) {QT : BuiltinKind}
    (registered : QT.Registers words) (present : .builtin QT ∈ Types)
    (unsigned : words ≠ ["unsigned".toList]) (signed : words ≠ ["signed".toList]) :
    (findBuiltinType Types (lookups Types earlier) (joinWords words)).2 = some QT := by
  rw [findBuiltinType_lookups, PopulateBuiltinMap_find plain, if_neg unsigned, if_neg signed]
  exact foldl_registerType_found plain registered present []

theorem found_denotes (earlier : List StringRef) (regular : ¬HasExtra Types words)
    {QT : BuiltinKind}
    (found : (findBuiltinType Types (lookups Types earlier) (joinWords words)).2 = some QT) :
    QT.DenotedBy words := by
  rw [findBuiltinType_lookups, PopulateBuiltinMap_find plain] at found
  by_cases unsigned : words = ["unsigned".toList]
  · rw [if_pos unsigned] at found
    cases found
    exact ⟨["unsigned".toList], by decide, unsigned ▸ List.Perm.refl _⟩
  · by_cases signed : words = ["signed".toList]
    · rw [if_neg unsigned, if_pos signed] at found
      cases found
      exact ⟨["signed".toList], by decide, signed ▸ List.Perm.refl _⟩
    · rw [if_neg unsigned, if_neg signed] at found
      by_cases absent : ∀ QT, .builtin QT ∈ Types → ¬QT.Registers words
      · rw [foldl_registerType_absent plain absent] at found
        cases found
      · simp only [not_forall, not_not] at absent
        obtain ⟨other, present, registered⟩ := absent
        rw [foldl_registerType_found plain registered present] at found
        cases found
        cases QT with
        | unnamed text => exact registered.elim
        | named name => exact ⟨name.words, List.mem_singleton_self _, registered ▸ List.Perm.refl _⟩
        | specified type =>
            rcases registered with rfl | ⟨multiset, member, perm⟩
            · exact ⟨type.words, type.words_specifier, List.Perm.refl _⟩
            · rcases type.expansion_cases multiset member with
                ⟨specifier, listed, same⟩ | ⟨extra, listed, same⟩
              · exact ⟨specifier, listed, perm.trans same⟩
              · exact absurd ⟨type, present, extra, listed, perm.trans same⟩ regular

theorem denoted_found (earlier : List StringRef) {QT : BuiltinKind} (present : .builtin QT ∈ Types)
    (standard : QT.isStandard = true) (denoted : QT.DenotedBy words) :
    (findBuiltinType Types (lookups Types earlier) (joinWords words)).2 = some QT := by
  obtain ⟨specifier, listed, perm⟩ := denoted
  cases QT with
  | unnamed text => cases listed
  | named name =>
      obtain rfl := List.mem_singleton.mp listed
      obtain ⟨word, alone⟩ := List.length_eq_one_iff.mp (of_decide_eq_true standard)
      have registered : words = name.words := by
        rw [alone] at perm ⊢
        exact List.perm_singleton.mp perm
      have other : ∀ shared ∈ sharedWords, words ≠ [shared] := by
        rintro shared member rfl
        exact name.own shared (registered ▸ List.mem_singleton_self _) member
      exact find_registered Types plain earlier registered present (other _ (by decide))
        (other _ (by decide))
  | specified type =>
      have told := (SpecifiedType.signature_perm perm).trans
        (type.signature_spelling specifier (List.mem_append_right _ listed))
      by_cases unsigned : words = ["unsigned".toList]
      · have same : type = .UInt := SpecifiedType.signature_inj (told.symm.trans (unsigned ▸ rfl))
        rw [findBuiltinType_lookups, PopulateBuiltinMap_find plain, if_pos unsigned, same]
      · by_cases signed : words = ["signed".toList]
        · have same : type = .Int := SpecifiedType.signature_inj (told.symm.trans (signed ▸ rfl))
          rw [findBuiltinType_lookups, PopulateBuiltinMap_find plain, if_neg unsigned,
            if_pos signed, same]
        · refine find_registered Types plain earlier ?_ present unsigned signed
          rcases type.specifier_cases standard specifier listed with
            ⟨rfl, _⟩ | ⟨rfl, _⟩ | ⟨own, single⟩ | ⟨multiset, member, same⟩
          · exact absurd (List.perm_singleton.mp perm) signed
          · exact absurd (List.perm_singleton.mp perm) unsigned
          · obtain ⟨word, alone⟩ := List.length_eq_one_iff.mp single
            rw [alone] at perm own
            exact Or.inl ((List.perm_singleton.mp perm).trans own)
          · exact Or.inr ⟨multiset, member, perm.trans same⟩

end

/-- Whatever was looked up before, a spelling is mapped rightly exactly when it is not the name
of an extension type or of `long double` with a specifier too many. -/
theorem spelledRight_iff (Types : List ContextType) (earlier : List StringRef)
    (w : List SpellingWord) :
    SpelledRight Types earlier (w.map (·.val)) ↔ ¬HasExtra Types (w.map (·.val)) := by
  have plain : PlainWords (w.map (·.val)) := by
    intro word member
    obtain ⟨plainWord, _, rfl⟩ := List.mem_map.mp member
    exact plainWord.property
  constructor
  · rintro ⟨sound, _⟩ ⟨type, present, extra, listed, perm⟩
    obtain ⟨⟨multiset, member, same⟩, long, nothing⟩ := type.extra_cases extra listed
    have single : ∀ word : StringRef, w.map (·.val) ≠ [word] := by
      intro word alone
      rw [alone] at perm
      have length := perm.length_eq
      rw [List.length_singleton] at length
      omega
    obtain ⟨specifier, denotes, denoted⟩ := sound (.specified type)
      (find_registered Types plain earlier (Or.inr ⟨multiset, member, perm.trans same⟩) present
        (single _) (single _))
    exact nothing specifier denotes (perm.symm.trans denoted)
  · intro regular
    exact ⟨fun QT found => found_denotes Types plain earlier regular found,
      fun QT present standard denoted => denoted_found Types plain earlier present standard denoted⟩

/-- `long double int`. -/
theorem longDouble_int_spelled : ¬∀ (Types : List ContextType) (earlier : List StringRef)
    (w : List SpellingWord), SpelledRight Types earlier (w.map (·.val)) := by
  intro always
  have right := always [.builtin (.specified .LongDouble)] []
    [⟨"long".toList, by decide⟩, ⟨"double".toList, by decide⟩, ⟨"int".toList, by decide⟩]
  have plain : PlainWords ["long".toList, "double".toList, "int".toList] := by decide
  have registered : BuiltinKind.Registers ["long".toList, "double".toList, "int".toList]
      (.specified .LongDouble) := Or.inr ⟨_, by decide, List.Perm.refl _⟩
  have found := find_registered [.builtin (.specified .LongDouble)] plain [] registered
    List.mem_cons_self (by decide) (by decide)
  obtain ⟨specifier, listed, perm⟩ := right.1 _ found
  rw [List.mem_singleton.mp listed] at perm
  exact absurd perm.length_eq (by decide)

end CppInterOp
