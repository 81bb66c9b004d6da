import CppInterOp.Library.Runs
import CppInterOp.StreamCaptureCore
import Mathlib.Data.List.Pairwise

/-!
Nested captures: the captures of each stream form a chain of destinations, the innermost one
holds what was printed into it, and each capture returns its own bytes and restores the
destination, as long as nothing shares its file and its text is not cut.
-/

namespace CppInterOp.StreamCapture

open OpenFiles Runs

/-- What a running capture is owed, and where its stream went before it began. -/
structure Credit where
  kind : CaptureStreamKind
  before : Destination
  bytes : List UInt8
  deriving DecidableEq

def credit (kind : CaptureStreamKind) (bytes : List UInt8) : List Credit → List Credit
  | [] => []
  | innermost :: rest =>
      if innermost.kind = kind then { innermost with bytes := innermost.bytes ++ bytes } :: rest
      else innermost :: credit kind bytes rest

structure Watched where
  streams : Streams
  credits : List Credit

def watch (setting : Setting) (watched : Watched) (op : Op) : Watched where
  streams := step setting watched.streams op
  credits :=
    match op with
    | .beginCapture fd_kind =>
        ⟨fd_kind, watched.streams.descriptors fd_kind, []⟩ :: watched.credits
    | .endCapture => watched.credits.tail
    | .print kind bytes => credit kind bytes watched.credits
    | .spill _ _ => watched.credits
    | .executorWrite kind bytes => credit kind bytes watched.credits

structure Idle (streams : Streams) : Prop where
  empty : streams.redirectionStack = []
  given : ∀ kind, ∃ number, streams.descriptors kind = .given number

/-- Properly nested calls, and an executor only where there is one. -/
def Permitted (setting : Setting) (watched : Watched) : Op → Prop
  | .endCapture => watched.credits ≠ []
  | .executorWrite _ _ => setting.outOfProcess = true
  | _ => True

/-- An `EndStdStreamCapture` returns what its capture is owed and restores the destination. -/
def Exact (setting : Setting) (watched : Watched) : Op → Prop
  | .endCapture => ∀ owed ∈ watched.credits.head?,
      (EndStdStreamCapture setting watched.streams).1 = owed.bytes ∧
        (EndStdStreamCapture setting watched.streams).2.descriptors owed.kind = owed.before
  | _ => True

def innermost (kind : CaptureStreamKind) (credits : List Credit) : Option Credit :=
  credits.find? fun owed => owed.kind = kind

/-- The text of a capture holds no zero byte.  Out-of-process, a stream is captured again only
before its running capture has got anything, the interpreter's `FILE` buffers nothing that would
be read in place of the text, and the executor writes while the process has nothing unflushed. -/
def Intact (setting : Setting) (watched : Watched) : Op → Prop
  | .beginCapture fd_kind => setting.outOfProcess = true →
      ∀ owed ∈ innermost fd_kind watched.credits, owed.bytes = []
  | .endCapture => ∀ owed ∈ watched.credits.head?, 0 ∉ owed.bytes ∧
      (setting.outOfProcess = true →
        (watched.streams.readBuffers (.redirection owed.kind)).length ≤ owed.bytes.length ∨
          owed.bytes <+: watched.streams.readBuffers (.redirection owed.kind))
  | .executorWrite kind bytes => ∀ _owed ∈ innermost kind watched.credits,
      bytes = [] ∨ watched.streams.unflushed kind = []
  | _ => True

instance decidablePermitted (setting : Setting) (watched : Watched) :
    ∀ op, Decidable (Permitted setting watched op)
  | .beginCapture _ => inferInstanceAs (Decidable True)
  | .endCapture => inferInstanceAs (Decidable (watched.credits ≠ []))
  | .print _ _ => inferInstanceAs (Decidable True)
  | .spill _ _ => inferInstanceAs (Decidable True)
  | .executorWrite _ _ => inferInstanceAs (Decidable (setting.outOfProcess = true))

instance decidableExact (setting : Setting) (watched : Watched) :
    ∀ op, Decidable (Exact setting watched op)
  | .beginCapture _ => inferInstanceAs (Decidable True)
  | .endCapture => inferInstanceAs (Decidable (∀ owed ∈ watched.credits.head?,
      (EndStdStreamCapture setting watched.streams).1 = owed.bytes ∧
        (EndStdStreamCapture setting watched.streams).2.descriptors owed.kind = owed.before))
  | .print _ _ => inferInstanceAs (Decidable True)
  | .spill _ _ => inferInstanceAs (Decidable True)
  | .executorWrite _ _ => inferInstanceAs (Decidable True)

instance decidableIntact (setting : Setting) (watched : Watched) :
    ∀ op, Decidable (Intact setting watched op)
  | .beginCapture fd_kind => inferInstanceAs (Decidable (setting.outOfProcess = true →
      ∀ owed ∈ innermost fd_kind watched.credits, owed.bytes = []))
  | .endCapture => inferInstanceAs (Decidable (∀ owed ∈ watched.credits.head?, 0 ∉ owed.bytes ∧
      (setting.outOfProcess = true →
        (watched.streams.readBuffers (.redirection owed.kind)).length ≤ owed.bytes.length ∨
          owed.bytes <+: watched.streams.readBuffers (.redirection owed.kind))))
  | .print _ _ => inferInstanceAs (Decidable True)
  | .spill _ _ => inferInstanceAs (Decidable True)
  | .executorWrite kind bytes => inferInstanceAs (Decidable
      (∀ _owed ∈ innermost kind watched.credits,
        bytes = [] ∨ watched.streams.unflushed kind = []))

/-! ### The invariant -/

structure Capture where
  info : StreamCaptureInfo
  owed : Credit

def Capture.file (capture : Capture) : Destination := capture.info.m_TempFile

def ofKind (kind : CaptureStreamKind) (captures : List Capture) : List Capture :=
  captures.filter fun capture => capture.info.m_FD = kind

/-- From the innermost capture outwards, each duplicate is the file of the next one, and the last
one what the process was given. -/
def Chained : Destination → List Capture → Prop
  | current, [] => ∃ number, current = .given number
  | current, capture :: outer => current = capture.file ∧ Chained capture.info.m_DupFD outer

structure Opened (setting : Setting) (streams : Streams) (capture : Capture) : Prop where
  kind : capture.owed.kind = capture.info.m_FD
  before : capture.owed.before = capture.info.m_DupFD
  owns : capture.info.m_OwnsFile = !setting.outOfProcess
  shared : setting.outOfProcess = true → capture.file = .redirection capture.info.m_FD
  own : setting.outOfProcess = false →
    (∃ number < streams.temporaries, capture.file = .temporary number) ∧
      streams.readBuffers capture.file = []

def Interrupted (setting : Setting) (streams : Streams) (capture : Capture) : Prop :=
  if setting.outOfProcess then capture.owed.bytes = []
  else (streams.files capture.file).AtEnd ∧
    capture.owed.bytes = (streams.files capture.file).content

def Running (streams : Streams) (capture : Capture) : Prop :=
  (streams.files capture.file).AtEnd ∧
    capture.owed.bytes =
      (streams.files capture.file).content ++ streams.unflushed capture.info.m_FD

def Delivered (setting : Setting) (streams : Streams) : List Capture → Prop
  | [] => True
  | capture :: outer =>
      Running streams capture ∧ ∀ interrupted ∈ outer, Interrupted setting streams interrupted

def NothingYet (setting : Setting) (kind : CaptureStreamKind) (captures : List Capture) : Prop :=
  setting.outOfProcess = true →
    ∀ running ∈ (ofKind kind captures).head?, running.owed.bytes = []

structure Sound (setting : Setting) (streams : Streams) (captures : List Capture) : Prop where
  opened : ∀ capture ∈ captures, Opened setting streams capture
  distinct : setting.outOfProcess = false →
    captures.Pairwise fun capture other => capture.file ≠ other.file
  chained : ∀ kind, Chained (streams.descriptors kind) (ofKind kind captures)
  delivered : ∀ kind, Delivered setting streams (ofKind kind captures)

section

variable {setting : Setting} {streams next : Streams} {captures : List Capture}

theorem mem_ofKind {kind : CaptureStreamKind} {capture : Capture} :
    capture ∈ ofKind kind captures ↔ capture ∈ captures ∧ capture.info.m_FD = kind := by
  simp only [ofKind, List.mem_filter, decide_eq_true_eq]

theorem ofKind_cons_self (capture : Capture) :
    ofKind capture.info.m_FD (capture :: captures) =
      capture :: ofKind capture.info.m_FD captures :=
  List.filter_cons_of_pos (decide_eq_true rfl)

theorem ofKind_cons_other {kind : CaptureStreamKind} {capture : Capture}
    (other : capture.info.m_FD ≠ kind) :
    ofKind kind (capture :: captures) = ofKind kind captures :=
  List.filter_cons_of_neg (by simp only [decide_eq_true_eq, other, not_false_eq_true])

theorem Opened.not_given {capture : Capture} (opened : Opened setting streams capture)
    (number : Nat) : capture.file ≠ .given number := by
  intro given
  cases mode : setting.outOfProcess with
  | true => cases given.symm.trans (opened.shared mode)
  | false =>
      obtain ⟨⟨index, -, own⟩, -⟩ := opened.own mode
      cases given.symm.trans own

theorem Opened.later {capture : Capture} (opened : Opened setting streams capture)
    (more : streams.temporaries ≤ next.temporaries)
    (same : setting.outOfProcess = false →
      next.readBuffers capture.file = streams.readBuffers capture.file) :
    Opened setting next capture where
  kind := opened.kind
  before := opened.before
  owns := opened.owns
  shared := opened.shared
  own := by
    intro mode
    obtain ⟨⟨index, bound, own⟩, unread⟩ := opened.own mode
    exact ⟨⟨index, Nat.lt_of_lt_of_le bound more, own⟩, (same mode).trans unread⟩

theorem Sound.separate (sound : Sound setting streams captures) {capture other : Capture}
    (member : capture ∈ captures) (other_member : other ∈ captures)
    (kinds : capture.info.m_FD ≠ other.info.m_FD) : capture.file ≠ other.file := by
  cases mode : setting.outOfProcess with
  | true =>
      rw [(sound.opened capture member).shared mode, (sound.opened other other_member).shared mode]
      exact fun same => kinds (Destination.redirection.inj same)
  | false =>
      have different : capture ≠ other := by
        intro same
        rw [same] at kinds
        exact kinds rfl
      have symmetric : Std.Symm fun capture other : Capture => capture.file ≠ other.file :=
        ⟨fun _ _ apart => apart.symm⟩
      exact (sound.distinct mode).forall member other_member different

theorem Sound.descriptor_ne (sound : Sound setting streams captures) {capture : Capture}
    (member : capture ∈ captures) {kind : CaptureStreamKind}
    (other : capture.info.m_FD ≠ kind) : capture.file ≠ streams.descriptors kind := by
  have chained := sound.chained kind
  cases chain : ofKind kind captures with
  | nil =>
      rw [chain] at chained
      obtain ⟨number, given⟩ := chained
      rw [given]
      exact (sound.opened capture member).not_given number
  | cons running outer =>
      rw [chain] at chained
      have found : running ∈ ofKind kind captures := by
        rw [chain]
        exact List.mem_cons_self
      obtain ⟨running_member, running_kind⟩ := mem_ofKind.mp found
      rw [chained.1]
      exact sound.separate member running_member (by rw [running_kind]; exact other)

/-- The interrupted captures of a stream do not write to the file of the running one. -/
theorem Sound.interrupted_ne (sound : Sound setting streams captures)
    (mode : setting.outOfProcess = false) {kind : CaptureStreamKind} {running interrupted : Capture}
    {outer : List Capture} (chain : ofKind kind captures = running :: outer)
    (member : interrupted ∈ outer) : interrupted.file ≠ running.file := by
  have apart := (sound.distinct mode).filter fun capture => decide (capture.info.m_FD = kind)
  change (ofKind kind captures).Pairwise _ at apart
  rw [chain] at apart
  exact ((List.pairwise_cons.mp apart).1 interrupted member).symm

theorem Interrupted.frame {capture : Capture}
    (interrupted : Interrupted setting streams capture)
    (same : setting.outOfProcess = false → next.files capture.file = streams.files capture.file) :
    Interrupted setting next capture := by
  unfold Interrupted at interrupted ⊢
  cases mode : setting.outOfProcess with
  | true =>
      rw [mode] at interrupted
      exact interrupted
  | false =>
      rw [mode] at interrupted
      rw [same mode]
      exact interrupted

theorem Running.frame {capture : Capture} (running : Running streams capture)
    (file : next.files capture.file = streams.files capture.file)
    (unflushed : next.unflushed capture.info.m_FD = streams.unflushed capture.info.m_FD) :
    Running next capture := by
  rw [Running, file, unflushed]
  exact running

/-- Nothing changes for a stream whose files and buffer are left alone. -/
theorem Delivered.frame {kind : CaptureStreamKind}
    (delivered : Delivered setting streams (ofKind kind captures))
    (files : ∀ capture ∈ captures, capture.info.m_FD = kind →
      next.files capture.file = streams.files capture.file)
    (unflushed : next.unflushed kind = streams.unflushed kind) :
    Delivered setting next (ofKind kind captures) := by
  have members : ∀ capture ∈ ofKind kind captures, capture ∈ captures ∧ capture.info.m_FD = kind :=
    fun capture => mem_ofKind.mp
  revert delivered members
  cases ofKind kind captures with
  | nil => exact fun _ _ => trivial
  | cons running outer =>
      intro delivered members
      obtain ⟨member, of_kind⟩ := members running List.mem_cons_self
      refine ⟨delivered.1.frame (files running member of_kind) (by rw [of_kind, unflushed]), ?_⟩
      intro interrupted outer_member
      obtain ⟨member, of_kind⟩ := members interrupted (List.mem_cons_of_mem _ outer_member)
      exact (delivered.2 interrupted outer_member).frame fun _ => files interrupted member of_kind

/-! ### Buffers and files -/

theorem spill_unflushed_other (streams : Streams) {kind other : CaptureStreamKind}
    (apart : other ≠ kind) (count : Nat) :
    (streams.spill kind count).unflushed other = streams.unflushed other :=
  Function.update_of_ne apart _ _

theorem spill_files_other (streams : Streams) {kind : CaptureStreamKind} {file : Destination}
    (apart : file ≠ streams.descriptors kind) (count : Nat) :
    (streams.spill kind count).files file = streams.files file :=
  Function.update_of_ne apart _ _

theorem fflush_unflushed (streams : Streams) (kind : CaptureStreamKind) :
    (streams.fflush kind).unflushed kind = [] := by
  simp only [Streams.fflush, Streams.spill, Function.update_self, List.drop_length]

theorem fflushAll_unflushed (streams : Streams) (kind : CaptureStreamKind) :
    streams.fflushAll.unflushed kind = [] := by
  cases kind with
  | kStdOut =>
      rw [Streams.fflushAll, Streams.fflush, spill_unflushed_other _ (by decide)]
      exact fflush_unflushed streams .kStdOut
  | kStdErr => exact fflush_unflushed _ .kStdErr

/-- What leaves the buffer of a captured stream arrives at the end of the capture's file. -/
theorem Running.spill {running : Capture} (holds : Running streams running)
    (current : streams.descriptors running.info.m_FD = running.file) (count : Nat) :
    Running (streams.spill running.info.m_FD count) running := by
  obtain ⟨at_end, owed⟩ := holds
  have file : (streams.spill running.info.m_FD count).files running.file =
      (streams.files running.file).write
        ((streams.unflushed running.info.m_FD).take count) := by
    simp only [Streams.spill, current, Function.update_self]
  have unflushed : (streams.spill running.info.m_FD count).unflushed running.info.m_FD =
      (streams.unflushed running.info.m_FD).drop count := by
    simp only [Streams.spill, Function.update_self]
  rw [Running, file, unflushed]
  refine ⟨at_end.write _, ?_⟩
  rw [at_end.write_content, List.append_assoc, List.take_append_drop]
  exact owed

theorem Sound.spill (sound : Sound setting streams captures) (kind : CaptureStreamKind)
    (count : Nat) : Sound setting (streams.spill kind count) captures where
  opened := fun capture member => (sound.opened capture member).later (Nat.le_refl _) fun _ => rfl
  distinct := sound.distinct
  chained := sound.chained
  delivered := by
    intro other
    by_cases same : other = kind
    · subst same
      have chained := sound.chained other
      have delivered := sound.delivered other
      cases chain : ofKind other captures with
      | nil => trivial
      | cons running outer =>
          rw [chain] at chained delivered
          have of_kind : running.info.m_FD = other :=
            (mem_ofKind.mp (chain ▸ List.mem_cons_self)).2
          subst of_kind
          refine ⟨delivered.1.spill chained.1 count, ?_⟩
          intro interrupted member
          refine (delivered.2 interrupted member).frame fun mode => ?_
          exact spill_files_other streams
            (by rw [chained.1]; exact sound.interrupted_ne mode chain member) count
    · refine (sound.delivered other).frame ?_ (spill_unflushed_other streams same count)
      intro capture member of_kind
      exact spill_files_other streams
        (sound.descriptor_ne member (by rw [of_kind]; exact same)) count

theorem Sound.fflush (sound : Sound setting streams captures) (kind : CaptureStreamKind) :
    Sound setting (streams.fflush kind) captures := sound.spill kind _

theorem Sound.fflushAll (sound : Sound setting streams captures) :
    Sound setting streams.fflushAll captures := (sound.fflush .kStdOut).fflush .kStdErr

/-- The interpreter's file is emptied for a new capture: the running one has nothing in it. -/
theorem Sound.rewind (sound : Sound setting streams captures)
    (mode : setting.outOfProcess = true) {kind : CaptureStreamKind}
    (nothing : NothingYet setting kind captures) :
    Sound setting (streams.rewind (.redirection kind)) captures where
  opened := fun capture member => (sound.opened capture member).later (Nat.le_refl _) fun _ => rfl
  distinct := sound.distinct
  chained := sound.chained
  delivered := by
    have emptied : (streams.rewind (.redirection kind)).files (.redirection kind) =
        OpenFile.fresh := by
      simp only [Streams.rewind, Streams.replaceFile, Function.update_self,
        OpenFile.ftruncate_lseek]
    intro other
    by_cases same : other = kind
    · subst same
      have delivered := sound.delivered other
      cases chain : ofKind other captures with
      | nil => trivial
      | cons running outer =>
          rw [chain] at delivered
          rw [NothingYet, chain] at nothing
          obtain ⟨member, of_kind⟩ := mem_ofKind.mp (chain ▸ List.mem_cons_self)
          have shared := (sound.opened running member).shared mode
          rw [of_kind] at shared
          have empty : running.owed.bytes = [] := nothing mode running rfl
          have owed := delivered.1.2
          rw [empty] at owed
          have unflushed := (List.append_eq_nil_iff.mp owed.symm).2
          refine ⟨?_, fun interrupted member => (delivered.2 interrupted member).frame ?_⟩
          · rw [Running, shared, emptied, empty]
            exact ⟨OpenFile.fresh_atEnd, unflushed.symm⟩
          · intro in_process
            rw [mode] at in_process
            cases in_process
    · refine (sound.delivered other).frame ?_ rfl
      intro capture member of_kind
      refine Function.update_of_ne ?_ _ _
      rw [(sound.opened capture member).shared mode, of_kind]
      exact fun redirection => same (Destination.redirection.inj redirection)

theorem Sound.tmpfile_ne (sound : Sound setting streams captures)
    (mode : setting.outOfProcess = false) {capture : Capture} (member : capture ∈ captures) :
    capture.file ≠ .temporary streams.temporaries := by
  obtain ⟨⟨index, bound, own⟩, -⟩ := (sound.opened capture member).own mode
  rw [own]
  exact fun same => Nat.ne_of_lt bound (Destination.temporary.inj same)

theorem Sound.tmpfile (sound : Sound setting streams captures)
    (mode : setting.outOfProcess = false) : Sound setting streams.tmpfile.2 captures where
  opened := by
    intro capture member
    refine (sound.opened capture member).later (Nat.le_succ _) fun _ => ?_
    exact Function.update_of_ne (sound.tmpfile_ne mode member) _ _
  distinct := sound.distinct
  chained := sound.chained
  delivered := by
    intro kind
    refine (sound.delivered kind).frame (fun capture member _ => ?_) rfl
    exact Function.update_of_ne (sound.tmpfile_ne mode member) _ _

/-! ### One step -/

theorem Running.interrupt {running : Capture} (holds : Running streams running)
    (flushed : streams.unflushed running.info.m_FD = [])
    (nothing : setting.outOfProcess = true → running.owed.bytes = []) :
    Interrupted setting streams running := by
  unfold Interrupted
  cases mode : setting.outOfProcess with
  | true => exact nothing mode
  | false =>
      obtain ⟨at_end, owed⟩ := holds
      rw [flushed, List.append_nil] at owed
      exact ⟨at_end, owed⟩

theorem Interrupted.resume {capture : Capture}
    (interrupted : Interrupted setting streams capture)
    (flushed : streams.unflushed capture.info.m_FD = [])
    (emptied : setting.outOfProcess = true → streams.files capture.file = OpenFile.fresh) :
    Running streams capture := by
  unfold Interrupted at interrupted
  rw [Running, flushed, List.append_nil]
  cases mode : setting.outOfProcess with
  | true =>
      rw [mode] at interrupted
      rw [emptied mode]
      exact ⟨OpenFile.fresh_atEnd, interrupted⟩
  | false =>
      rw [mode] at interrupted
      exact interrupted

/-- A capture begins on a fresh file, with the stream flushed to where it went before. -/
theorem Sound.begun (sound : Sound setting streams captures) {capture : Capture}
    (opened : Opened setting streams capture)
    (duplicate : capture.info.m_DupFD = streams.descriptors capture.info.m_FD)
    (owed : capture.owed.bytes = [])
    (fresh_file : streams.files capture.file = OpenFile.fresh)
    (flushed : streams.unflushed capture.info.m_FD = [])
    (apart : setting.outOfProcess = false → ∀ other ∈ captures, capture.file ≠ other.file)
    (nothing : NothingYet setting capture.info.m_FD captures) :
    Sound setting (streams.dup2 capture.file capture.info.m_FD) (capture :: captures) where
  opened := by
    intro other member
    rcases List.mem_cons.mp member with same | member
    · rw [same]
      exact opened.later (Nat.le_refl _) fun _ => rfl
    · exact (sound.opened other member).later (Nat.le_refl _) fun _ => rfl
  distinct := fun mode => List.pairwise_cons.mpr ⟨apart mode, sound.distinct mode⟩
  chained := by
    intro kind
    by_cases same : capture.info.m_FD = kind
    · subst same
      rw [ofKind_cons_self]
      refine ⟨Function.update_self _ _ _, ?_⟩
      rw [duplicate]
      exact sound.chained capture.info.m_FD
    · rw [ofKind_cons_other same]
      simp only [Streams.dup2, Function.update_of_ne (Ne.symm same)]
      exact sound.chained kind
  delivered := by
    intro kind
    by_cases same : capture.info.m_FD = kind
    · subst same
      rw [ofKind_cons_self]
      constructor
      · change (streams.files capture.file).AtEnd ∧ _ = (streams.files capture.file).content ++
          streams.unflushed capture.info.m_FD
        rw [fresh_file, flushed, owed]
        exact ⟨OpenFile.fresh_atEnd, rfl⟩
      · have delivered := sound.delivered capture.info.m_FD
        cases chain : ofKind capture.info.m_FD captures with
        | nil =>
            intro interrupted member
            cases member
        | cons running outer =>
            rw [chain] at delivered
            rw [NothingYet, chain] at nothing
            have of_kind := (mem_ofKind.mp (chain ▸ List.mem_cons_self)).2
            intro interrupted member
            rcases List.mem_cons.mp member with first | member
            · rw [first]
              exact delivered.1.interrupt (by rw [of_kind]; exact flushed)
                fun mode => nothing mode running rfl
            · exact delivered.2 interrupted member
    · rw [ofKind_cons_other same]
      exact (sound.delivered kind).frame (fun _ _ _ => rfl) rfl

/-- A capture ends: its stream, flushed, goes back to the file of the one it interrupted. -/
theorem Sound.ended {capture : Capture} (sound : Sound setting streams (capture :: captures))
    (flushed : streams.unflushed capture.info.m_FD = [])
    (descriptors : next.descriptors =
      Function.update streams.descriptors capture.info.m_FD capture.info.m_DupFD)
    (unflushed : next.unflushed = streams.unflushed)
    (temporaries : next.temporaries = streams.temporaries)
    (files : ∀ file, file ≠ capture.file → next.files file = streams.files file)
    (readBuffers : ∀ file, file ≠ capture.file →
      next.readBuffers file = streams.readBuffers file)
    (emptied : setting.outOfProcess = true → next.files capture.file = OpenFile.fresh) :
    Sound setting next captures where
  opened := by
    intro other member
    refine (sound.opened other (List.mem_cons_of_mem _ member)).later
      (Nat.le_of_eq temporaries.symm) fun mode => readBuffers _ ?_
    exact ((List.pairwise_cons.mp (sound.distinct mode)).1 other member).symm
  distinct := fun mode => (List.pairwise_cons.mp (sound.distinct mode)).2
  chained := by
    intro kind
    have chained := sound.chained kind
    by_cases same : capture.info.m_FD = kind
    · subst same
      rw [ofKind_cons_self] at chained
      rw [descriptors, Function.update_self]
      exact chained.2
    · rw [ofKind_cons_other same] at chained
      rw [descriptors, Function.update_of_ne (Ne.symm same)]
      exact chained
  delivered := by
    intro kind
    have delivered := sound.delivered kind
    by_cases same : capture.info.m_FD = kind
    · subst same
      rw [ofKind_cons_self] at delivered
      have interrupted : ∀ other ∈ ofKind capture.info.m_FD captures,
          Interrupted setting next other := by
        intro other member
        refine (delivered.2 other member).frame fun mode => files _ ?_
        exact ((List.pairwise_cons.mp (sound.distinct mode)).1 other (mem_ofKind.mp member).1).symm
      revert interrupted
      cases chain : ofKind capture.info.m_FD captures with
      | nil => exact fun _ => trivial
      | cons resumed outer =>
          intro interrupted
          obtain ⟨member, of_kind⟩ := mem_ofKind.mp (chain ▸ List.mem_cons_self)
          refine ⟨(interrupted resumed List.mem_cons_self).resume ?_ fun mode => ?_,
            fun other member => interrupted other (List.mem_cons_of_mem _ member)⟩
          · rw [unflushed, of_kind]
            exact flushed
          · have shared := (sound.opened resumed (List.mem_cons_of_mem _ member)).shared mode
            have own := (sound.opened capture List.mem_cons_self).shared mode
            rw [shared, of_kind, ← own]
            exact emptied mode
    · rw [ofKind_cons_other same] at delivered
      refine delivered.frame (fun other member of_kind => files _ ?_) (by rw [unflushed])
      exact sound.separate (List.mem_cons_of_mem _ member) List.mem_cons_self
        (by rw [of_kind]; exact Ne.symm same)

theorem Sound.restack (sound : Sound setting streams captures) (stack : List StreamCaptureInfo) :
    Sound setting { streams with redirectionStack := stack } captures where
  opened := fun capture member => (sound.opened capture member).later (Nat.le_refl _) fun _ => rfl
  distinct := sound.distinct
  chained := sound.chained
  delivered := fun kind => (sound.delivered kind).frame (fun _ _ _ => rfl) rfl

/-! ### `BeginStdStreamCapture` -/

theorem openTempFile_descriptors (kind : CaptureStreamKind) :
    (openTempFile setting kind streams).2.descriptors = streams.descriptors := by
  unfold openTempFile
  split <;> rfl

theorem openTempFile_redirectionStack (kind : CaptureStreamKind) :
    (openTempFile setting kind streams).2.redirectionStack = streams.redirectionStack := by
  unfold openTempFile
  split <;> rfl

theorem openTempFile_fresh (kind : CaptureStreamKind) :
    (openTempFile setting kind streams).2.files (openTempFile setting kind streams).1 =
      OpenFile.fresh := by
  unfold openTempFile
  split
  · simp only [Streams.rewind, Streams.replaceFile, Function.update_self,
      OpenFile.ftruncate_lseek]
  · simp only [Streams.tmpfile, Function.update_self]

theorem openTempFile_opened (setting : Setting) (streams : Streams) (kind : CaptureStreamKind)
    (before : Destination) : Opened setting (openTempFile setting kind streams).2
      ⟨⟨(openTempFile setting kind streams).1, kind, before, !setting.outOfProcess⟩,
        ⟨kind, before, []⟩⟩ where
  kind := rfl
  before := rfl
  owns := rfl
  shared := by
    intro mode
    change (openTempFile setting kind streams).1 = .redirection kind
    rw [openTempFile, if_pos mode]
    rfl
  own := by
    intro mode
    have in_process : ¬setting.outOfProcess = true := by simp only [mode, Bool.false_eq_true,
      not_false_eq_true]
    simp only [Capture.file, openTempFile, if_neg in_process]
    exact ⟨⟨streams.temporaries, Nat.lt_succ_self _, rfl⟩, Function.update_self _ _ _⟩

theorem Sound.prepared (sound : Sound setting streams captures) {kind : CaptureStreamKind}
    (nothing : NothingYet setting kind captures) :
    Sound setting (openTempFile setting kind streams).2 captures := by
  cases mode : setting.outOfProcess with
  | true =>
      rw [openTempFile, if_pos mode]
      exact sound.rewind mode nothing
  | false =>
      rw [openTempFile, mode]
      exact sound.tmpfile mode

theorem Sound.prepared_ne (sound : Sound setting streams captures)
    (mode : setting.outOfProcess = false) (kind : CaptureStreamKind) {capture : Capture}
    (member : capture ∈ captures) :
    (openTempFile setting kind streams).1 ≠ capture.file := by
  rw [openTempFile, mode]
  exact (sound.tmpfile_ne mode member).symm

/-- Flushing what was printed before leaves the file of the new capture empty. -/
theorem Sound.flushed_fresh (sound : Sound setting streams captures) {kind : CaptureStreamKind}
    {file : Destination} (not_given : ∀ number, file ≠ .given number)
    (empty : streams.files file = OpenFile.fresh)
    (apart : setting.outOfProcess = false → ∀ capture ∈ captures, file ≠ capture.file)
    (nothing : NothingYet setting kind captures) :
    (streams.fflush kind).files file = OpenFile.fresh := by
  have chained := sound.chained kind
  have delivered := (sound.fflush kind).delivered kind
  by_cases same : file = streams.descriptors kind
  · cases chain : ofKind kind captures with
    | nil =>
        rw [chain] at chained
        obtain ⟨number, given⟩ := chained
        exact absurd (same.trans given) (not_given number)
    | cons running outer =>
        rw [chain] at chained delivered
        rw [NothingYet, chain] at nothing
        obtain ⟨member, of_kind⟩ := mem_ofKind.mp (chain ▸ List.mem_cons_self)
        have current : file = running.file := same.trans chained.1
        cases mode : setting.outOfProcess with
        | true =>
            obtain ⟨at_end, owed⟩ := delivered.1
            rw [nothing mode running rfl] at owed
            rw [current]
            exact at_end.eq_fresh (List.append_eq_nil_iff.mp owed.symm).1
        | false => exact absurd current (apart mode running member)
  · rw [Streams.fflush, spill_files_other streams same, empty]

theorem Sound.beginStdStreamCapture (sound : Sound setting streams captures)
    {kind : CaptureStreamKind}
    (nothing : NothingYet setting kind captures) :
    Sound setting (BeginStdStreamCapture setting kind streams)
      (⟨(StreamCaptureInfo.create setting kind streams).1,
        ⟨kind, streams.descriptors kind, []⟩⟩ :: captures) := by
  have opened := openTempFile_opened setting streams kind
    ((openTempFile setting kind streams).2.descriptors kind)
  have prepared := sound.prepared nothing
  have apart : setting.outOfProcess = false → ∀ capture ∈ captures,
      (openTempFile setting kind streams).1 ≠ capture.file :=
    fun mode capture member => sound.prepared_ne mode kind member
  have begun := (prepared.fflush kind).begun (opened.later (Nat.le_refl _) fun _ => rfl) rfl rfl
    (prepared.flushed_fresh opened.not_given (openTempFile_fresh kind) apart nothing)
    (fflush_unflushed _ kind) apart nothing
  rw [openTempFile_descriptors] at begun
  have restacked := begun.restack (BeginStdStreamCapture setting kind streams).redirectionStack
  simp only [BeginStdStreamCapture, StreamCaptureInfo.create, openTempFile_descriptors]
    at restacked ⊢
  exact restacked

end

end CppInterOp.StreamCapture
