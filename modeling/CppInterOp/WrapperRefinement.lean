import CppInterOp.WrapperTexts

/-!
Runs of wrappers with the types in them: they perform what the arity of the wrapper says, and pass
the arguments they are given.
-/

namespace CppInterOp

open Branching

def ResultText.erase : ResultText → ResultUse
  | nothing => .nothing
  | intoRet _ => .intoRet
  | discarded => .discarded

def TextPiece.erase : TextPiece → Option WrapperAction
  | typedef _ _ => none
  | call result _ args => some (.call result.erase (args.map ArgText.erase))
  | new placement array args => some (.new placement array (args.map ArgText.erase))

namespace TypedFunction

variable {FD : TypedFunction} {N : Nat} {serial : WrapperSerial}

theorem args_erase {piece : TextPiece} {clause : WrapperAction}
    (kept : piece.erase = some clause) : clause.args = piece.args.map ArgText.erase := by
  cases piece with
  | typedef name QT => cases kept
  | call use cast args =>
      cases kept
      rfl
  | new placement array args =>
      cases kept
      rfl

theorem argExpr_argForm (info : TypeInfo) (QT : QualType) (hasDefaultArg : Bool) (i : Nat) :
    argExpr ⟨info.refType, info.isPointer, IsCopyConstructorDeleted QT, hasDefaultArg⟩ i =
      ⟨info.argForm QT, i⟩ := by
  rw [argExpr, TypeInfo.argForm]
  cases info.refType with
  | kLValueReference | kRValueReference => rfl
  | kNotReference =>
      dsimp only
      split_ifs
      · rfl
      · rfl
      · rfl

theorem argExpr_eraseParam (PVD : TypedParam) (i : Nat) :
    argExpr (FD.eraseParam PVD) i = ⟨PVD.type.argForm, i⟩ := by
  rw [← @argText_form FD.name PVD.type i 0]
  exact argExpr_argForm _ PVD.type PVD.hasDefaultArg i

theorem argTexts_erase (parameters : List TypedParam) (i : Nat) :
    (argTexts FD.name parameters i serial).1.1.map ArgText.erase =
      ((parameters.map FD.eraseParam).zipIdx i).map
        fun parameter => argExpr parameter.1 parameter.2 := by
  induction parameters generalizing i serial with
  | nil => rfl
  | cons PVD rest ih =>
      rw [List.map_cons, List.zipIdx_cons, List.map_cons, ← ih, argExpr_eraseParam]
      rw [← @argText_form FD.name PVD.type i serial]
      rfl

theorem make_narg_call_erase :
    (FD.make_narg_call N serial).1.1.map ArgText.erase = FD.erase.make_narg_call N := by
  rw [make_narg_call, argTexts_erase, FunctionDecl.make_narg_call, erase_nonObjectParameters,
    argExprs, List.map_take]

theorem make_narg_ctor_erase (array : Bool) :
    (FD.make_narg_ctor N array serial).1.1.map ArgText.erase = FD.erase.make_narg_ctor N array := by
  rw [make_narg_ctor, FunctionDecl.make_narg_ctor]
  split
  · rw [argTexts_erase, argExprs, List.map_take]
    rfl
  · rfl

theorem erases_withTypedefs {typedefs : Typedefs} {rest : WrapperText} {code : WrapperCode}
    (erases : Script.Erases TextPiece.erase rest code) :
    Script.Erases TextPiece.erase (withTypedefs typedefs rest) code := by
  induction typedefs with
  | nil => exact erases
  | cons entry others ih => exact Script.Erases.after rfl ih

theorem erases_newExpression (array : Bool) :
    Script.Erases TextPiece.erase (FD.newExpression N array serial).1.1
      (FD.erase.newExpression N array) := by
  have erased : ∀ placement start,
      (TextPiece.new placement array (FD.make_narg_ctor N array start).1.1).erase =
        some (.new placement array (FD.erase.make_narg_ctor N array)) := by
    intro placement start
    rw [TextPiece.erase, make_narg_ctor_erase]
  exact Script.Erases.branch _ (Script.erases_perform (erased true _))
    (Script.erases_perform (erased false _))

theorem erases_call {result : ResultText} {cast : Option CastText} :
    @Script.Erases WrapperTest TextPiece WrapperAction TextPiece.erase
      (.seq (.perform (.call result cast (FD.make_narg_call N serial).1.1)) .stop)
      (.seq (.perform (.call result.erase (FD.erase.make_narg_call N))) .stop) := by
  refine Script.Erases.seq (Script.erases_perform ?_) Script.erases_stop
  rw [TextPiece.erase, make_narg_call_erase]

theorem erases_clause :
    Script.Erases TextPiece.erase (FD.make_narg_call_with_return N serial).1
      (FD.erase.make_narg_call_with_return N) := by
  rw [make_narg_call_with_return, FunctionDecl.make_narg_call_with_return]
  change Script.Erases _ _ (if FD.isConstructor then _ else _)
  cases FD.isConstructor with
  | true =>
      rw [if_pos rfl, if_pos rfl, make_narg_ctor_with_return,
        FunctionDecl.make_narg_ctor_with_return]
      cases FD.erase.isDefaultConstructor with
      | true =>
          exact erases_withTypedefs
            ((erases_newExpression true).branch _ (erases_newExpression false))
      | false => exact erases_withTypedefs (erases_newExpression false)
  | false =>
      rw [if_neg Bool.false_ne_true, if_neg Bool.false_ne_true]
      change Script.Erases _ _ (if FD.returned.isNone then _ else _)
      cases FD.returned with
      | none => exact erases_withTypedefs erases_call
      | some QT =>
          exact erases_withTypedefs ((erases_withTypedefs erases_call).branch _
            (erases_withTypedefs erases_call))

theorem erases_clauses (counts : List Nat) :
    Script.Erases TextPiece.erase
      (.guarded (fun clause => .nargsIs clause.1) Prod.snd (FD.clauses counts serial).1)
      (.guarded .nargsIs FD.erase.make_narg_call_with_return counts) := by
  obtain ⟨_, counted, made⟩ := FD.clauses_made counts serial
  have erased : Script.Erases TextPiece.erase
      (.guarded (fun clause => .nargsIs clause.1) Prod.snd (FD.clauses counts serial).1)
      (.guarded .nargsIs FD.erase.make_narg_call_with_return
        ((FD.clauses counts serial).1.map Prod.fst)) := by
    refine Script.erases_guarded Prod.fst (fun _ _ => rfl) fun clause member => ?_
    obtain ⟨start, text, _⟩ := made clause member
    rw [text]
    exact erases_clause
  rwa [counted] at erased

/-- Without its types, the code of the wrapper is the code whose arity is known. -/
theorem erases_get_wrapper_code :
    Script.Erases TextPiece.erase (FD.get_wrapper_code serial).1 FD.erase.get_wrapper_code := by
  rw [get_wrapper_code, FunctionDecl.get_wrapper_code]
  dsimp only
  split
  · exact erases_clause
  · exact erases_clauses _

end TypedFunction

end CppInterOp
