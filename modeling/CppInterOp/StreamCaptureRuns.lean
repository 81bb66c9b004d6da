import CppInterOp.StreamCaptureNesting

/-!
Runs of nested captures: every write goes to the innermost capture of its stream, and every
`EndStdStreamCapture` returns what its capture is owed.
-/

namespace CppInterOp.StreamCapture

open OpenFiles Runs

section

variable {setting : Setting} {streams next : Streams} {captures : List Capture}

/-! ### `EndStdStreamCapture` -/

def finished (setting : Setting) (info : StreamCaptureInfo) (streams : Streams) : Streams :=
  info.destroy (info.GetCapturedString setting streams).2

theorem finished_descriptors (info : StreamCaptureInfo) :
    (finished setting info streams).descriptors =
      Function.update streams.fflushAll.descriptors info.m_FD info.m_DupFD := by
  unfold finished StreamCaptureInfo.destroy StreamCaptureInfo.GetCapturedString
  split <;> split <;> rfl

theorem finished_unflushed (info : StreamCaptureInfo) :
    (finished setting info streams).unflushed = streams.fflushAll.unflushed := by
  unfold finished StreamCaptureInfo.destroy StreamCaptureInfo.GetCapturedString
  split <;> split <;> rfl

theorem finished_temporaries (info : StreamCaptureInfo) :
    (finished setting info streams).temporaries = streams.fflushAll.temporaries := by
  unfold finished StreamCaptureInfo.destroy StreamCaptureInfo.GetCapturedString
  split <;> split <;> rfl

theorem finished_files (info : StreamCaptureInfo) {file : Destination}
    (apart : file ≠ info.m_TempFile) :
    (finished setting info streams).files file = streams.fflushAll.files file := by
  unfold finished StreamCaptureInfo.destroy StreamCaptureInfo.GetCapturedString
  split <;> split <;>
    simp only [Streams.fclose, Streams.rewind, Streams.replaceFile, Streams.readBack,
      Streams.dup2, Function.update_of_ne apart]

theorem finished_readBuffers (info : StreamCaptureInfo) {file : Destination}
    (apart : file ≠ info.m_TempFile) :
    (finished setting info streams).readBuffers file = streams.fflushAll.readBuffers file := by
  unfold finished StreamCaptureInfo.destroy StreamCaptureInfo.GetCapturedString
  split <;> split <;>
    simp only [Streams.fclose, Streams.rewind, Streams.replaceFile, Streams.readBack,
      Streams.dup2, Function.update_of_ne apart]

theorem finished_emptied (info : StreamCaptureInfo) (mode : setting.outOfProcess = true) :
    (finished setting info streams).files info.m_TempFile = OpenFile.fresh := by
  simp only [finished, StreamCaptureInfo.destroy, StreamCaptureInfo.GetCapturedString, mode,
    if_true]
  split
  · simp only [Streams.fclose, Function.update_self]
  · simp only [Streams.rewind, Streams.replaceFile, Function.update_self,
      OpenFile.ftruncate_lseek]

theorem Sound.finished {capture : Capture} (sound : Sound setting streams (capture :: captures)) :
    Sound setting (finished setting capture.info streams) captures :=
  sound.fflushAll.ended (fflushAll_unflushed streams _) (finished_descriptors _)
    (finished_unflushed _) (finished_temporaries _) (fun _ => finished_files _)
    (fun _ => finished_readBuffers _) (finished_emptied _)

theorem EndStdStreamCapture_cons {info : StreamCaptureInfo} {rest : List StreamCaptureInfo}
    (stack : streams.redirectionStack = info :: rest) :
    EndStdStreamCapture setting streams =
      ((info.GetCapturedString setting streams).1,
        { StreamCapture.finished setting info streams with redirectionStack := rest }) := by
  rw [EndStdStreamCapture, stack]
  rfl

/-- The file of the innermost capture of a stream, flushed, is what the capture is owed. -/
theorem Sound.flushed_content {capture : Capture}
    (sound : Sound setting streams (capture :: captures)) :
    (streams.fflushAll.files capture.file).content = capture.owed.bytes := by
  have delivered := sound.fflushAll.delivered capture.info.m_FD
  rw [ofKind_cons_self] at delivered
  obtain ⟨-, owed⟩ := delivered.1
  rw [fflushAll_unflushed, List.append_nil] at owed
  exact owed.symm

theorem Sound.captured_string {capture : Capture}
    (sound : Sound setting streams (capture :: captures)) (no_zero : 0 ∉ capture.owed.bytes)
    (unshadowed : setting.outOfProcess = true →
      (streams.readBuffers (.redirection capture.info.m_FD)).length ≤ capture.owed.bytes.length ∨
        capture.owed.bytes <+: streams.readBuffers (.redirection capture.info.m_FD)) :
    (capture.info.GetCapturedString setting streams).1 = capture.owed.bytes := by
  have opened := sound.opened capture List.mem_cons_self
  have read : readWhole (streams.readBuffers capture.file) capture.owed.bytes =
      capture.owed.bytes := by
    cases mode : setting.outOfProcess with
    | true =>
        rw [opened.shared mode]
        exact (readWhole_eq_iff _ _).mpr (unshadowed mode)
    | false =>
        rw [(opened.own mode).2]
        exact readWhole_fresh _
  change cString (readWhole (streams.readBuffers capture.file)
    (streams.fflushAll.files capture.file).content ++ [0]) = _
  rw [sound.flushed_content, read]
  exact cString_terminated no_zero

/-! ### Writes -/

def creditCapture (kind : CaptureStreamKind) (bytes : List UInt8) : List Capture → List Capture
  | [] => []
  | capture :: outer =>
      if capture.owed.kind = kind then
        { capture with owed := { capture.owed with bytes := capture.owed.bytes ++ bytes } } :: outer
      else capture :: creditCapture kind bytes outer

theorem creditCapture_owed (kind : CaptureStreamKind) (bytes : List UInt8)
    (captures : List Capture) :
    (creditCapture kind bytes captures).map Capture.owed =
      credit kind bytes (captures.map Capture.owed) := by
  induction captures with
  | nil => rfl
  | cons capture outer ih =>
      simp only [creditCapture, List.map_cons, credit]
      split
      · rfl
      · rw [List.map_cons, ih]

theorem creditCapture_info (kind : CaptureStreamKind) (bytes : List UInt8)
    (captures : List Capture) :
    (creditCapture kind bytes captures).map Capture.info = captures.map Capture.info := by
  induction captures with
  | nil => rfl
  | cons capture outer ih =>
      simp only [creditCapture]
      split
      · rfl
      · rw [List.map_cons, ih, List.map_cons]

theorem mem_creditCapture {kind : CaptureStreamKind} {bytes : List UInt8} {capture : Capture}
    (member : capture ∈ creditCapture kind bytes captures) :
    ∃ former ∈ captures, capture.info = former.info ∧ capture.owed.kind = former.owed.kind ∧
      capture.owed.before = former.owed.before := by
  induction captures with
  | nil => cases member
  | cons first outer ih =>
      simp only [creditCapture] at member
      split at member
      · rcases List.mem_cons.mp member with same | member
        · exact ⟨first, List.mem_cons_self, by rw [same]; exact ⟨rfl, rfl, rfl⟩⟩
        · exact ⟨capture, List.mem_cons_of_mem _ member, rfl, rfl, rfl⟩
      · rcases List.mem_cons.mp member with same | member
        · exact ⟨first, List.mem_cons_self, by rw [same]; exact ⟨rfl, rfl, rfl⟩⟩
        · obtain ⟨former, found, same⟩ := ih member
          exact ⟨former, List.mem_cons_of_mem _ found, same⟩

theorem ofKind_creditCapture {kind : CaptureStreamKind} (bytes : List UInt8)
    (kinds : ∀ capture ∈ captures, capture.owed.kind = capture.info.m_FD) :
    ofKind kind (creditCapture kind bytes captures) =
      (ofKind kind captures).modifyHead fun running =>
        { running with owed := { running.owed with bytes := running.owed.bytes ++ bytes } } := by
  induction captures with
  | nil => rfl
  | cons capture outer ih =>
      have first := kinds capture List.mem_cons_self
      by_cases same : capture.info.m_FD = kind
      · rw [creditCapture, if_pos (first.trans same)]
        subst same
        rw [ofKind_cons_self]
        exact ofKind_cons_self _
      · rw [creditCapture, if_neg (by rw [first]; exact same), ofKind_cons_other same,
          ofKind_cons_other same]
        exact ih fun other member => kinds other (List.mem_cons_of_mem _ member)

theorem ofKind_creditCapture_other {kind other : CaptureStreamKind} (apart : other ≠ kind)
    (bytes : List UInt8) (kinds : ∀ capture ∈ captures, capture.owed.kind = capture.info.m_FD) :
    ofKind other (creditCapture kind bytes captures) = ofKind other captures := by
  induction captures with
  | nil => rfl
  | cons capture outer ih =>
      have first := kinds capture List.mem_cons_self
      by_cases same : capture.info.m_FD = kind
      · have different : capture.info.m_FD ≠ other := fun back => apart (back.symm.trans same)
        rw [creditCapture, if_pos (first.trans same), ofKind_cons_other different]
        exact ofKind_cons_other different
      · rw [creditCapture, if_neg (by rw [first]; exact same)]
        have rest := ih fun other member => kinds other (List.mem_cons_of_mem _ member)
        unfold ofKind at rest ⊢
        rw [List.filter_cons, List.filter_cons, rest]

theorem Chained.congr {current : Destination} {others : List Capture}
    (chained : Chained current captures)
    (same : others.map Capture.info = captures.map Capture.info) : Chained current others := by
  induction captures generalizing current others with
  | nil =>
      rw [List.map_eq_nil_iff.mp same]
      exact chained
  | cons capture outer ih =>
      cases others with
      | nil => cases same
      | cons other rest =>
          obtain ⟨first, remaining⟩ := List.cons.inj same
          refine ⟨?_, ?_⟩
          · rw [Capture.file, first]
            exact chained.1
          · rw [first]
            exact ih chained.2 remaining

theorem ofKind_map_info {others : List Capture} (kind : CaptureStreamKind)
    (same : others.map Capture.info = captures.map Capture.info) :
    (ofKind kind others).map Capture.info = (ofKind kind captures).map Capture.info := by
  have filtered := congrArg (List.filter fun info => decide (info.m_FD = kind)) same
  rw [List.filter_map, List.filter_map] at filtered
  exact filtered

/-- Bytes are credited to the innermost capture of their stream, whose file or buffer has them. -/
theorem Sound.credited (sound : Sound setting streams captures) {kind : CaptureStreamKind}
    {bytes : List UInt8}
    (descriptors : next.descriptors = streams.descriptors)
    (temporaries : next.temporaries = streams.temporaries)
    (readBuffers : next.readBuffers = streams.readBuffers)
    (unflushed : ∀ other ≠ kind, next.unflushed other = streams.unflushed other)
    (files : ∀ capture ∈ captures, capture.info.m_FD ≠ kind ∨ setting.outOfProcess = false →
      next.files capture.file = streams.files capture.file)
    (arrived : ∀ running ∈ (ofKind kind captures).head?, Running streams running →
      (next.files running.file).AtEnd ∧ running.owed.bytes ++ bytes =
        (next.files running.file).content ++ next.unflushed kind) :
    Sound setting next (creditCapture kind bytes captures) where
  opened := by
    intro capture member
    obtain ⟨former, found, info, of_kind, before⟩ := mem_creditCapture member
    have opened := (sound.opened former found).later (Nat.le_of_eq temporaries.symm)
      fun _ => congrFun readBuffers _
    obtain ⟨kinds, befores, owns, shared, own⟩ := opened
    rw [Capture.file] at shared own
    rw [← info] at kinds befores owns shared own
    exact ⟨of_kind.trans kinds, before.trans befores, owns, shared, own⟩
  distinct := by
    intro mode
    have apart := sound.distinct mode
    have mapped : ((creditCapture kind bytes captures).map Capture.info).Pairwise
        fun info other => info.m_TempFile ≠ other.m_TempFile := by
      rw [creditCapture_info]
      exact List.pairwise_map.mpr apart
    rw [List.pairwise_map] at mapped
    exact mapped
  chained := by
    intro other
    rw [descriptors]
    exact (sound.chained other).congr (ofKind_map_info other (creditCapture_info kind bytes captures))
  delivered := by
    have kinds : ∀ capture ∈ captures, capture.owed.kind = capture.info.m_FD :=
      fun capture member => (sound.opened capture member).kind
    intro other
    by_cases same : other = kind
    · subst same
      rw [ofKind_creditCapture bytes kinds]
      have delivered := sound.delivered other
      cases chain : ofKind other captures with
      | nil => trivial
      | cons running outer =>
          rw [chain] at delivered arrived
          have members : ∀ capture ∈ running :: outer, capture ∈ captures ∧
              capture.info.m_FD = other := by
            intro capture member
            exact mem_ofKind.mp (chain ▸ member)
          have of_kind := (members running List.mem_cons_self).2
          refine ⟨?_, ?_⟩
          · obtain ⟨at_end, owed⟩ := arrived running rfl delivered.1
            refine ⟨at_end, ?_⟩
            rw [of_kind]
            exact owed
          · intro interrupted member
            refine (delivered.2 interrupted member).frame fun mode => ?_
            exact files interrupted (members interrupted (List.mem_cons_of_mem _ member)).1
              (Or.inr mode)
    · rw [ofKind_creditCapture_other same bytes kinds]
      refine (sound.delivered other).frame ?_ (unflushed other same)
      intro capture member of_kind
      exact files capture member (Or.inl (by rw [of_kind]; exact same))

theorem Sound.print (sound : Sound setting streams captures) (kind : CaptureStreamKind)
    (bytes : List UInt8) :
    Sound setting (streams.print kind bytes) (creditCapture kind bytes captures) := by
  refine sound.credited rfl rfl rfl (fun other apart => Function.update_of_ne apart _ _)
    (fun _ _ _ => rfl) ?_
  intro running first holds
  have of_kind := (mem_ofKind.mp (List.mem_of_mem_head? first)).2
  obtain ⟨at_end, owed⟩ := holds
  refine ⟨at_end, ?_⟩
  rw [of_kind] at owed
  simp only [Streams.print, Function.update_self]
  rw [owed, List.append_assoc]

theorem Sound.executorWrite (sound : Sound setting streams captures)
    (mode : setting.outOfProcess = true) {kind : CaptureStreamKind} {bytes : List UInt8}
    (in_order : ∀ _running ∈ (ofKind kind captures).head?,
      bytes = [] ∨ streams.unflushed kind = []) :
    Sound setting (executorWrite kind bytes streams) (creditCapture kind bytes captures) := by
  refine sound.credited rfl rfl rfl (fun _ _ => rfl) ?_ ?_
  · rintro capture member (apart | in_process)
    · refine Function.update_of_ne ?_ _ _
      rw [(sound.opened capture member).shared mode]
      exact fun same => apart (Destination.redirection.inj same)
    · rw [mode] at in_process
      cases in_process
  · intro running first holds
    obtain ⟨member, of_kind⟩ := mem_ofKind.mp (List.mem_of_mem_head? first)
    have shared := (sound.opened running member).shared mode
    rw [of_kind] at shared
    obtain ⟨at_end, owed⟩ := holds
    rw [shared] at at_end owed
    rw [of_kind] at owed
    have file : (StreamCapture.executorWrite kind bytes streams).files running.file =
        (streams.files (.redirection kind)).write bytes := by
      rw [shared]
      exact Function.update_self _ _ _
    rw [file, at_end.write_content, owed]
    refine ⟨at_end.write bytes, ?_⟩
    change _ = _ ++ streams.unflushed kind
    rcases in_order running first with none_written | flushed
    · rw [none_written, List.append_nil, List.append_nil]
    · rw [flushed, List.append_nil, List.append_nil]


end

/-! ### Whole runs -/

structure Tracked (setting : Setting) (watched : Watched) (captures : List Capture) : Prop where
  sound : Sound setting watched.streams captures
  stack : watched.streams.redirectionStack = captures.map Capture.info
  credits : watched.credits = captures.map Capture.owed

section

variable {setting : Setting} {watched : Watched} {captures : List Capture}

theorem Tracked.idle {streams : Streams} (idle : Idle streams) :
    Tracked setting ⟨streams, []⟩ [] where
  sound := {
    opened := fun _ member => nomatch member
    distinct := fun _ => List.Pairwise.nil
    chained := idle.given
    delivered := fun _ => trivial }
  stack := idle.empty
  credits := rfl

theorem Tracked.innermost (tracked : Tracked setting watched captures) (kind : CaptureStreamKind) :
    innermost kind watched.credits = (ofKind kind captures).head?.map Capture.owed := by
  have kinds : ∀ capture ∈ captures, capture.owed.kind = capture.info.m_FD :=
    fun capture member => (tracked.sound.opened capture member).kind
  rw [tracked.credits, StreamCapture.innermost]
  clear tracked
  induction captures with
  | nil => rfl
  | cons capture outer ih =>
      have first := kinds capture List.mem_cons_self
      rw [List.map_cons]
      by_cases same : capture.info.m_FD = kind
      · simp only [List.find?_cons, decide_eq_true (first.trans same)]
        subst same
        rw [ofKind_cons_self]
        rfl
      · have other_kind : ¬capture.owed.kind = kind := fun found => same (first.symm.trans found)
        simp only [List.find?_cons, decide_eq_false other_kind]
        rw [ofKind_cons_other same]
        exact ih fun other member => kinds other (List.mem_cons_of_mem _ member)

/-- What the condition says of the innermost credit holds of the innermost capture. -/
theorem Tracked.of_innermost (tracked : Tracked setting watched captures)
    {kind : CaptureStreamKind} {holds : Credit → Prop}
    (every : ∀ owed ∈ StreamCapture.innermost kind watched.credits, holds owed) :
    ∀ running ∈ (ofKind kind captures).head?, holds running.owed := by
  intro running first
  refine every running.owed ?_
  rw [tracked.innermost]
  exact Option.mem_map_of_mem Capture.owed first

theorem Tracked.cons (tracked : Tracked setting watched captures) (nested : watched.credits ≠ []) :
    ∃ capture outer, captures = capture :: outer ∧ watched.credits.head? = some capture.owed := by
  cases captures with
  | nil => exact absurd tracked.credits nested
  | cons capture outer => exact ⟨capture, outer, rfl, by rw [tracked.credits]; rfl⟩

/-- One step keeps the captures sound. -/
theorem Tracked.step (tracked : Tracked setting watched captures) {op : Op}
    (permitted : Permitted setting watched op) (intact : Intact setting watched op) :
    ∃ others, Tracked setting (watch setting watched op) others := by
  have sound := tracked.sound
  have stack := tracked.stack
  have credits := tracked.credits
  cases op with
  | beginCapture kind =>
      have nothing : NothingYet setting kind captures :=
        fun mode => tracked.of_innermost (intact mode)
      refine ⟨_, sound.beginStdStreamCapture nothing, ?_, ?_⟩
      · change _ :: (openTempFile setting kind watched.streams).2.redirectionStack = _
        rw [openTempFile_redirectionStack, stack]
        rfl
      · change _ :: watched.credits = _
        rw [credits]
        rfl
  | endCapture =>
      obtain ⟨capture, outer, cons, -⟩ := tracked.cons permitted
      subst cons
      refine ⟨outer, ?_, ?_, ?_⟩
      · change Sound setting (EndStdStreamCapture setting watched.streams).2 outer
        rw [EndStdStreamCapture_cons stack]
        exact sound.finished.restack _
      · change (EndStdStreamCapture setting watched.streams).2.redirectionStack = _
        rw [EndStdStreamCapture_cons stack]
      · change watched.credits.tail = _
        rw [credits]
        rfl
  | print kind bytes =>
      refine ⟨creditCapture kind bytes captures, sound.print kind bytes, ?_, ?_⟩
      · rw [creditCapture_info]
        exact stack
      · rw [creditCapture_owed, ← credits]
        rfl
  | spill kind count => exact ⟨captures, sound.spill kind count, stack, credits⟩
  | executorWrite kind bytes =>
      have in_order : ∀ _running ∈ (ofKind kind captures).head?,
          bytes = [] ∨ watched.streams.unflushed kind = [] := tracked.of_innermost intact
      refine ⟨creditCapture kind bytes captures, sound.executorWrite permitted in_order, ?_, ?_⟩
      · rw [creditCapture_info]
        exact stack
      · rw [creditCapture_owed, ← credits]
        rfl

/-- An end of a capture is right if its text is intact. -/
theorem Tracked.exact (tracked : Tracked setting watched captures) {op : Op}
    (intact : Intact setting watched op) : Exact setting watched op := by
  cases op with
  | endCapture =>
      have sound := tracked.sound
      have stack := tracked.stack
      intro owed first
      have nested : watched.credits ≠ [] := by
        intro none_left
        rw [none_left] at first
        cases first
      obtain ⟨capture, outer, cons, head⟩ := tracked.cons nested
      subst cons
      obtain ⟨no_zero, unshadowed⟩ := intact owed first
      cases Option.some.inj (head.symm.trans first)
      have opened := sound.opened capture List.mem_cons_self
      rw [opened.kind] at unshadowed
      rw [EndStdStreamCapture_cons stack]
      refine ⟨sound.captured_string no_zero unshadowed, ?_⟩
      change (finished setting capture.info watched.streams).descriptors capture.owed.kind = _
      rw [finished_descriptors, opened.kind, Function.update_self]
      exact opened.before.symm
  | _ => trivial

end

/-- In every properly nested run whose steps leave the captured texts intact, each capture
returns exactly the bytes written to its stream while it was the innermost one, and gives the
stream its destination back. -/
theorem streamCapture_exact (setting : Setting) (streams : Streams) (ops : List Op)
    (idle : Idle streams)
    (permitted : EveryStep (watch setting) (Permitted setting) ⟨streams, []⟩ ops)
    (intact : EveryStep (watch setting) (Intact setting) ⟨streams, []⟩ ops) :
    EveryStep (watch setting) (Exact setting) ⟨streams, []⟩ ops := by
  refine everyStep_of_invariant (fun watched => ∃ captures, Tracked setting watched captures)
    ⟨[], Tracked.idle idle⟩ ?_ ?_ (permitted.and intact)
  · rintro watched op ⟨captures, tracked⟩ ⟨allowed, met⟩
    exact tracked.step allowed met
  · rintro watched op ⟨captures, tracked⟩ ⟨-, met⟩
    exact tracked.exact met

def started : Streams where
  descriptors := fun kind => .given (if kind = .kStdOut then 1 else 2)
  files := fun _ => OpenFile.fresh
  readBuffers := fun _ => []
  unflushed := fun _ => []
  temporaries := 0
  redirectionStack := []

theorem started_idle : Idle started where
  empty := rfl
  given := fun kind => ⟨if kind = .kStdOut then 1 else 2, rfl⟩

/-- Two streams and two captures of one of them, out-of-process, with writes of both sides. -/
theorem streamCapture_exact_nested :
    EveryStep (watch ⟨true, 4096⟩) (Exact ⟨true, 4096⟩) ⟨started, []⟩
      [.beginCapture .kStdOut, .beginCapture .kStdOut, .print .kStdOut [97, 98],
        .beginCapture .kStdErr, .executorWrite .kStdErr [99], .spill .kStdOut 1, .endCapture,
        .endCapture, .executorWrite .kStdOut [100, 101], .print .kStdOut [102], .endCapture] :=
  streamCapture_exact ⟨true, 4096⟩ started _ started_idle (by decide) (by decide)

/-- A zero byte ends the string that is returned. -/
theorem streamCapture_cut :
    ¬∀ (setting : Setting) (streams : Streams) (ops : List Op), Idle streams →
      EveryStep (watch setting) (Permitted setting) ⟨streams, []⟩ ops →
        EveryStep (watch setting) (Exact setting) ⟨streams, []⟩ ops := by
  intro claimed
  have every := claimed ⟨false, 4096⟩ started
    [.beginCapture .kStdOut, .print .kStdOut [97, 0, 98], .endCapture] started_idle (by decide)
  exact absurd every (by decide)

/-- Out-of-process, a nested capture of the same stream empties the file of the outer one. -/
example :
    ¬EveryStep (watch ⟨true, 4096⟩) (Exact ⟨true, 4096⟩) ⟨started, []⟩
      [.beginCapture .kStdOut, .executorWrite .kStdOut [97], .beginCapture .kStdOut, .endCapture,
        .endCapture] := by
  decide

end CppInterOp.StreamCapture
